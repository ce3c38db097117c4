import Mathlib

/-!
# Sorting by a comparison

`Array.prototype.sort` with a comparison that is a total preorder: a sorted
rearrangement that keeps the order of elements that compare as equal.
-/

namespace Js

open List

variable {α β : Type}

/-- `l.sort(compare)`. -/
def sort (compare : α → α → Ordering) (l : List α) : List α :=
  l.insertionSort fun a b => (compare a b).isLE

variable {compare : α → α → Ordering} {l l' : List α}

theorem sort_perm (compare : α → α → Ordering) (l : List α) : (sort compare l).Perm l :=
  perm_insertionSort _ l

theorem perm_of_sort_eq (same : sort compare l = sort compare l') : l.Perm l' :=
  (sort_perm compare l).symm.trans (same ▸ sort_perm compare l')

@[simp] theorem mem_sort {a : α} : a ∈ sort compare l ↔ a ∈ l := (sort_perm compare l).mem_iff

/-- Comparing by a key. -/
theorem transCmp_key [Std.TransCmp compare] (key : β → α) :
    Std.TransCmp fun a b => compare (key a) (key b) where
  eq_swap {a b} := (Std.OrientedCmp.eq_swap : compare (key a) (key b) = _)
  isLE_trans {a b c} ab bc := @Std.TransCmp.isLE_trans α compare _ (key a) (key b) (key c) ab bc

theorem transCmp_desc [Std.TransCmp compare] (key : β → α) : Std.TransCmp fun a b => compare (key b) (key a) :=
  @transCmp_key α β (fun a b => compare b a) Std.TransCmp.opposite key

theorem transCmp_then {first second : α → α → Ordering} (hf : Std.TransCmp first) (hs : Std.TransCmp second) :
    Std.TransCmp fun a b => (first a b).then (second a b) :=
  inferInstanceAs (Std.TransCmp (compareLex first second))

section Preorder
variable [Std.TransCmp compare]

theorem isLE_total (a b : α) : (compare a b).isLE ∨ (compare b a).isLE := by
  rw [show compare b a = (compare a b).swap from Std.OrientedCmp.eq_swap]
  cases compare a b <;> simp

theorem eq_of_isLE {a b : α} (h : (compare a b).isLE) (h' : (compare b a).isLE) : compare a b = .eq := by
  rw [show compare b a = (compare a b).swap from Std.OrientedCmp.eq_swap] at h'
  cases hc : compare a b <;> simp_all

theorem sort_pairwise (l : List α) : (sort compare l).Pairwise fun a b => (compare a b).isLE := by
  have total : Std.Total fun a b => ((compare a b).isLE : Prop) := ⟨isLE_total⟩
  have trans : IsTrans α fun a b => ((compare a b).isLE : Prop) :=
    ⟨fun _ _ _ => Std.TransCmp.isLE_trans⟩
  exact pairwise_insertionSort _ l

theorem sort_sort (l : List α) : sort compare (sort compare l) = sort compare l :=
  (sort_pairwise l).insertionSort_eq

/-- Where only equals compare as equal, the order of the elements before
sorting does not matter. -/
theorem sort_eq_of_perm (perm : l.Perm l') (settled : ∀ a ∈ l, ∀ b ∈ l, compare a b = .eq → a = b) :
    sort compare l = sort compare l' := by
  refine List.Perm.eq_of_pairwise ?_ (sort_pairwise l) (sort_pairwise l')
    ((sort_perm _ l).trans (perm.trans (sort_perm _ l').symm))
  intro a b ha hb le ge
  exact settled a (mem_sort.1 ha) b (perm.mem_iff.2 (mem_sort.1 hb)) (eq_of_isLE le ge)

/-- Where the keys are told apart, too. -/
theorem sort_eq_of_told {key : β → α} {l l' : List β} (perm : l.Perm l')
    (told : (l.map key).Pairwise fun a b => compare a b ≠ .eq) :
    sort (fun a b => compare (key a) (key b)) l = sort (fun a b => compare (key a) (key b)) l' := by
  have byKey : Std.TransCmp fun a b => compare (key a) (key b) := transCmp_key key
  have symmetric : Std.Symm fun a b => compare (key a) (key b) ≠ .eq :=
    ⟨fun a b differ tie => differ (Std.OrientedCmp.eq_comm.1 tie)⟩
  apply sort_eq_of_perm perm
  intro a mem b mem' tie
  by_contra other
  exact (pairwise_map.1 told).forall mem mem' other tie

end Preorder

/-! ## Sorting by a key first

The rest of the comparison may be anything, not even a preorder. -/

section Key
variable {R : α → α → Prop}

section
variable (trans : ∀ a b c, R a b → R b c → R a c) (yes : ∀ a b, (compare a b).isLE → R a b)
  (no : ∀ a b, ¬ (compare a b).isLE → R b a)
include trans yes no

theorem orderedInsert_pairwise (a : α)
    (sorted : l.Pairwise R) : (l.orderedInsert (fun a b => (compare a b).isLE) a).Pairwise R := by
  induction l with
  | nil => simp
  | cons b l ih =>
    rw [pairwise_cons] at sorted
    rw [orderedInsert_cons]
    by_cases first : (compare a b).isLE
    · rw [if_pos first, pairwise_cons, forall_mem_cons]
      exact ⟨⟨yes a b first, fun c mem => trans a b c (yes a b first) (sorted.1 c mem)⟩,
        pairwise_cons.2 sorted⟩
    · rw [if_neg first, pairwise_cons]
      refine ⟨fun c mem => ?_, ih sorted.2⟩
      obtain rfl | mem := (mem_orderedInsert _).1 mem
      · exact no c b first
      · exact sorted.1 c mem

theorem sort_pairwise_key (l : List α) :
    (sort compare l).Pairwise R := by
  induction l with
  | nil => exact .nil
  | cons a l ih => exact orderedInsert_pairwise trans yes no a ih

end

/-- The first of the sorted elements. -/
theorem sort_head_key (refl : ∀ a, R a a) (trans : ∀ a b c, R a b → R b c → R a c)
    (yes : ∀ a b, (compare a b).isLE → R a b) (no : ∀ a b, ¬ (compare a b).isLE → R b a) {first : α}
    (head : (sort compare l).head? = some first) : first ∈ l ∧ ∀ a ∈ l, R first a := by
  obtain ⟨rest, sorted⟩ := head?_eq_some_iff.1 head
  have pairwise := sort_pairwise_key trans yes no l
  rw [sorted, pairwise_cons] at pairwise
  have listed (a : α) : a ∈ l ↔ a = first ∨ a ∈ rest := by
    rw [← (sort_perm compare l).mem_iff, sorted, mem_cons]
  refine ⟨(listed first).2 (.inl rfl), fun a mem => ?_⟩
  obtain rfl | mem := (listed a).1 mem
  · exact refl a
  · exact pairwise.1 a mem

theorem isLE_then {τ : Type} [LinearOrder τ] {x y : τ} {tie : Ordering} :
    (((Ord.compare x y).then tie).isLE → x ≤ y) ∧ (¬ ((Ord.compare x y).then tie).isLE → y ≤ x) := by
  cases order : Ord.compare x y with
  | lt => exact ⟨fun _ => (compare_lt_iff_lt.1 order).le, fun h => absurd rfl h⟩
  | eq =>
    rw [compare_eq_iff_eq.1 order]
    exact ⟨fun _ => le_refl _, fun _ => le_refl _⟩
  | gt =>
    have less := (compare_gt_iff_gt.1 order).le
    exact ⟨fun h => absurd h (by simp), fun _ => less⟩

end Key

/-- The sort is stable: elements that compare as equal stay in order. -/
theorem sort_filter {p : α → Bool}
    (equal : ∀ a ∈ l, ∀ b ∈ l, p a = true → p b = true → compare a b = .eq) :
    (sort compare l).filter p = l.filter p := by
  have sublist : (l.filter p).Sublist (sort compare l) := by
    refine sublist_insertionSort ?_ filter_sublist
    refine pairwise_iff_forall_sublist.2 fun {a b} pair => ?_
    obtain ⟨ha, pa⟩ := mem_filter.1 (pair.subset mem_cons_self)
    obtain ⟨hb, pb⟩ := mem_filter.1 (pair.subset (mem_cons_of_mem a mem_cons_self))
    rw [equal a ha b hb pa pb]
    rfl
  have filtered := sublist.filter p
  simp only [filter_filter, Bool.and_self] at filtered
  exact (filtered.eq_of_length ((sort_perm compare l).filter p).length_eq.symm).symm

/-- Two elements that compare as equal are told apart by their places only. -/
theorem sort_swap [Std.TransCmp compare] {a b : α} (tie : compare a b = .eq)
    (same : sort compare (a :: b :: l) = sort compare (b :: a :: l)) : a = b := by
  let tied (x : α) : Bool := compare a x = .eq
  have equal {r : List α} : ∀ x ∈ r, ∀ y ∈ r, tied x = true → tied y = true → compare x y = .eq := by
    intro x _ y _ hx hy
    rw [show compare x y = compare a y from (Std.TransCmp.congr_left (of_decide_eq_true hx)).symm]
    exact of_decide_eq_true hy
  have first : tied a = true := decide_eq_true Std.ReflCmp.compare_self
  have second : tied b = true := decide_eq_true tie
  have filtered := congrArg (filter tied) same
  rw [sort_filter equal, sort_filter equal] at filtered
  simp only [filter_cons, first, second, if_true, cons.injEq] at filtered
  exact filtered.1

/-- Sorting commutes with a map that keeps the comparison. -/
theorem sort_map {f : α → β} {compare' : β → β → Ordering}
    (same : ∀ a ∈ l, ∀ b ∈ l, compare' (f a) (f b) = compare a b) :
    (sort compare l).map f = sort compare' (l.map f) := by
  apply map_insertionSort
  intro a ha b hb
  rw [same a ha b hb]

theorem sort_congr {compare' : α → α → Ordering} (same : ∀ a ∈ l, ∀ b ∈ l, compare' a b = compare a b) :
    sort compare l = sort compare' l := by
  have := sort_map (f := id) same
  simpa using this

end Js
