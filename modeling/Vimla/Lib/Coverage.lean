import Mathlib

/-!
# Summaries of what is cited

Entries cite leaves and other entries. The leaves under an entry are counted
as often as they are reached. A summary of leaves has two bounds of a measure
that are attained, and their number; summaries are put together without
looking at the leaves again.
-/

namespace Coverage

open List

variable {κ μ τ ι : Type}

/-- What an entry cites. -/
inductive Source (κ μ : Type)
  | leaf (m : μ)
  | entry (k : κ)

/-- The leaves under a list of sources, in order and with repetitions. -/
inductive Leaves (cited : κ → List (Source κ μ) → Prop) : List (Source κ μ) → List μ → Prop
  | nil : Leaves cited [] []
  | leaf {m : μ} {sources : List (Source κ μ)} {leaves : List μ} (rest : Leaves cited sources leaves) :
    Leaves cited (.leaf m :: sources) (m :: leaves)
  | entry {k : κ} {under sources : List (Source κ μ)} {below leaves : List μ} (cites : cited k under)
    (inner : Leaves cited under below) (rest : Leaves cited sources leaves) :
    Leaves cited (.entry k :: sources) (below ++ leaves)

section Leaves
variable {cited cited' : κ → List (Source κ μ) → Prop} {sources : List (Source κ μ)} {leaves leaves' : List μ}

/-- An entry that cites one list only has one list of leaves. -/
theorem Leaves.unique (functional : ∀ k under under', cited k under → cited k under' → under = under')
    (h : Leaves cited sources leaves) (h' : Leaves cited sources leaves') : leaves = leaves' := by
  induction h generalizing leaves' with
  | nil =>
    cases h'
    rfl
  | leaf _ ih =>
    cases h' with
    | leaf rest => rw [ih rest]
  | entry cites _ _ ihInner ih =>
    cases h' with
    | entry cites' inner rest =>
      cases functional _ _ _ cites cites'
      rw [ihInner inner, ih rest]

theorem Leaves.mono (more : ∀ k under, cited k under → cited' k under) (h : Leaves cited sources leaves) :
    Leaves cited' sources leaves := by
  induction h with
  | nil => exact .nil
  | leaf _ ih => exact .leaf ih
  | entry cites _ _ ihInner ih => exact .entry (more _ _ cites) ihInner ih

/-- The leaves of some sources, and then those of others. -/
theorem Leaves.append {sources' : List (Source κ μ)} (h : Leaves cited sources leaves)
    (h' : Leaves cited sources' leaves') : Leaves cited (sources ++ sources') (leaves ++ leaves') := by
  induction h with
  | nil => exact h'
  | leaf _ ih => exact .leaf ih
  | entry cites inner _ _ ih =>
    rw [append_assoc]
    exact .entry cites inner ih

end Leaves

variable [Preorder τ]

/-- Bounds that are attained, and the number of leaves. -/
structure Covers (measure : μ → τ) (lo hi : τ) (count : Nat) (leaves : List μ) : Prop where
  within : ∀ m ∈ leaves, lo ≤ measure m ∧ measure m ≤ hi
  attainsLo : ∃ m ∈ leaves, measure m = lo
  attainsHi : ∃ m ∈ leaves, measure m = hi
  counted : leaves.length = count

variable {measure : μ → τ}

theorem Covers.single (m : μ) : Covers measure (measure m) (measure m) 1 [m] where
  within _ mem := by
    rw [mem_singleton.1 mem]
    exact ⟨le_refl _, le_refl _⟩
  attainsLo := ⟨m, mem_cons_self, rfl⟩
  attainsHi := ⟨m, mem_cons_self, rfl⟩
  counted := rfl

theorem exists_related {α β : Type} {R : α → β → Prop} {items : List α} {parts : List β}
    (each : List.Forall₂ R items parts) {i : α} (mem : i ∈ items) : ∃ part ∈ parts, R i part := by
  induction each with
  | nil => cases mem
  | cons related _ ih =>
    obtain rfl | mem := mem_cons.1 mem
    · exact ⟨_, mem_cons_self, related⟩
    · obtain ⟨part, mem', related'⟩ := ih mem
      exact ⟨part, mem_cons_of_mem _ mem', related'⟩

section Flatten
variable {items : List ι} {lo hi : ι → τ} {count : ι → Nat} {parts : List (List μ)}

theorem length_flatten {leavesOf : ι → List μ → Prop} (counted : ∀ i part, leavesOf i part → part.length = count i)
    (each : List.Forall₂ leavesOf items parts) : parts.flatten.length = (items.map count).sum := by
  induction each with
  | nil => rfl
  | cons related _ ih => simp [counted _ _ related, ih]

/-- The least lower bound, the greatest upper bound and the sum of the numbers. -/
theorem Covers.flatten
    (each : List.Forall₂ (fun i part => Covers measure (lo i) (hi i) (count i) part) items parts)
    {first last : ι} (hf : first ∈ items) (least : ∀ i ∈ items, lo first ≤ lo i)
    (hl : last ∈ items) (greatest : ∀ i ∈ items, hi i ≤ hi last) :
    Covers measure (lo first) (hi last) (items.map count).sum parts.flatten where
  within m mem := by
    obtain ⟨part, listed, mem⟩ := mem_flatten.1 mem
    obtain ⟨i, hi, covers⟩ := exists_related each.flip listed
    have bounds := covers.within m mem
    exact ⟨(least i hi).trans bounds.1, bounds.2.trans (greatest i hi)⟩
  attainsLo := by
    obtain ⟨part, listed, covers⟩ := exists_related each hf
    obtain ⟨m, mem, attained⟩ := covers.attainsLo
    exact ⟨m, mem_flatten_of_mem listed mem, attained⟩
  attainsHi := by
    obtain ⟨part, listed, covers⟩ := exists_related each hl
    obtain ⟨m, mem, attained⟩ := covers.attainsHi
    exact ⟨m, mem_flatten_of_mem listed mem, attained⟩
  counted := length_flatten (fun _ _ covers => covers.counted) each

end Flatten

end Coverage
