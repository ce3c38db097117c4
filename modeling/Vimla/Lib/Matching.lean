import Mathlib

/-!
# Lists that match up to order

Two lists of which each element of one has its partner in the other, whatever
the order.
-/

variable {α β γ : Type}

/-- Rearranged, `l` is related to `r` element by element. -/
def Matched (R : α → β → Prop) (l : List α) (r : List β) : Prop :=
  ∃ m, m.Perm l ∧ List.Forall₂ R m r

namespace Matched

open List
variable {R S : α → β → Prop} {l : List α} {r r' : List β}

theorem of_map {f : α → β} (each : ∀ a ∈ l, R a (f a)) : Matched R l (l.map f) :=
  ⟨l, .refl l, forall₂_map_right_iff.2 (forall₂_same.2 each)⟩

section
variable (h : Matched R l r)
include h

theorem imp (each : ∀ a b, R a b → S a b) : Matched S l r := by
  obtain ⟨m, perm, related⟩ := h
  exact ⟨m, perm, related.imp fun a b => each a b⟩

theorem perm (order : r.Perm r') : Matched R l r' := by
  obtain ⟨m, listed, related⟩ := h
  have turned : Relation.Comp (Forall₂ R) Perm m r' := ⟨r, related, order⟩
  rw [forall₂_comp_perm_eq_perm_comp_forall₂] at turned
  obtain ⟨m', rearranged, related'⟩ := turned
  exact ⟨m', rearranged.symm.trans listed, related'⟩

theorem left {a : α} (mem : a ∈ l) : ∃ b ∈ r, R a b := by
  obtain ⟨m, perm, related⟩ := h
  have mem := perm.mem_iff.2 mem
  clear perm
  induction related with
  | nil => cases mem
  | cons head _ ih =>
    obtain rfl | mem := mem_cons.1 mem
    · exact ⟨_, mem_cons_self, head⟩
    · obtain ⟨b, hb, related⟩ := ih mem
      exact ⟨b, mem_cons_of_mem _ hb, related⟩

theorem right {b : β} (mem : b ∈ r) : ∃ a ∈ l, R a b := by
  obtain ⟨m, perm, related⟩ := h
  have turned : Matched (flip R) r m := ⟨r, .refl r, related.flip⟩
  obtain ⟨a, ha, related⟩ := turned.left mem
  exact ⟨a, perm.mem_iff.1 ha, related⟩

/-- The partners are elements of the lists. -/
theorem mem : Matched (fun a b => (a ∈ l ∧ b ∈ r) ∧ R a b) l r := by
  obtain ⟨m, perm, related⟩ := h
  refine ⟨m, perm, ?_⟩
  have both : Forall₂ (fun a b => (a ∈ m ∧ b ∈ r) ∧ R a b) m r := by
    clear perm
    induction related with
    | nil => exact .nil
    | cons head _ ih =>
      refine .cons ⟨⟨mem_cons_self, mem_cons_self⟩, head⟩ (ih.imp fun a b h => ⟨⟨?_, ?_⟩, h.2⟩)
      · exact mem_cons_of_mem _ h.1.1
      · exact mem_cons_of_mem _ h.1.2
  exact both.imp fun a b h => ⟨⟨perm.mem_iff.1 h.1.1, h.1.2⟩, h.2⟩

end

variable {g : α → γ} {k : β → γ}

/-- Lists related by what has the same image have the same images. -/
theorem images_eq (related : Forall₂ R l r) (same : ∀ a b, R a b → k b = g a) : r.map k = l.map g := by
  induction related with
  | nil => rfl
  | cons head _ ih => rw [map_cons, map_cons, ih, same _ _ head]

/-- Partners with the same image have the same images together. -/
theorem map_perm (h : Matched R l r) (same : ∀ a b, R a b → k b = g a) : (r.map k).Perm (l.map g) := by
  obtain ⟨m, perm, related⟩ := h
  rw [images_eq related same]
  exact perm.map g

theorem length_eq (h : Matched R l r) : r.length = l.length := by
  obtain ⟨m, perm, related⟩ := h
  rw [← related.length_eq, perm.length_eq]

/-- The partners of the elements with a property match. -/
theorem filter (h : Matched R l r) {p : α → Bool} {q : β → Bool} (same : ∀ a b, R a b → q b = p a) :
    Matched R (l.filter p) (r.filter q) := by
  obtain ⟨m, perm, related⟩ := h
  refine ⟨m.filter p, perm.filter p, ?_⟩
  clear perm
  induction related with
  | nil => exact .nil
  | @cons a b _ _ head _ ih =>
    rw [filter_cons, filter_cons, same a b head]
    cases p a with
    | true => exact .cons head ih
    | false => exact ih

theorem flatMap_perm (h : Matched R l r) {g : α → List γ} {k : β → List γ}
    (same : ∀ a b, R a b → (k b).Perm (g a)) : (r.flatMap k).Perm (l.flatMap g) := by
  obtain ⟨m, perm, related⟩ := h
  refine Perm.trans ?_ (perm.flatMap_right g)
  clear perm
  induction related with
  | nil => exact .refl _
  | cons head _ ih =>
    exact (same _ _ head).append ih

/-- Lists with the same images match by them. -/
theorem of_map_perm (h : (l.map g).Perm (r.map k)) : Matched (fun a b => k b = g a) l r := by
  have images : Matched (fun a c => c = g a) l (l.map g) := .of_map fun _ _ => rfl
  obtain ⟨m, perm, related⟩ := images.perm h
  exact ⟨m, perm, forall₂_map_right_iff.1 related⟩

/-- Between lists without repetition the partners are a bijection. -/
theorem equiv (h : Matched R l r) (distinct : l.Nodup) (distinct' : r.Nodup) :
    ∃ e : {a // a ∈ l} ≃ {b // b ∈ r}, ∀ a, R a.1 (e a).1 := by
  classical
  obtain ⟨m, perm, related⟩ := h
  obtain ⟨length, each⟩ := forall₂_iff_get.1 related
  let listed := (perm.nodup_iff.2 distinct).getEquiv m
  let position : Fin m.length ≃ Fin r.length := finCongr length
  refine ⟨(Equiv.subtypeEquivRight fun a => perm.mem_iff.symm).trans
    ((listed.symm.trans position).trans (distinct'.getEquiv r)), ?_⟩
  rintro ⟨a, mem⟩
  obtain ⟨i, rfl⟩ := mem_iff_get.1 (perm.mem_iff.2 mem)
  have place : listed.symm ⟨m.get i, perm.mem_iff.2 mem⟩ = i := by
    rw [Equiv.symm_apply_eq]
    rfl
  change R (m.get i) (r.get (position (listed.symm ⟨m.get i, perm.mem_iff.2 mem⟩)))
  rw [place]
  exact each i i.2 (length ▸ i.2)

end Matched
