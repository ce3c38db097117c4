import Mathlib

/-!
# Pieces joined by a separator

Pieces in which the separator does not occur are read off what they are joined
to, as long as none of them is empty.
-/

namespace Joined

open List

variable {α : Type} {s : α} {x y r r' : List α}

theorem intercalate_one (x : List α) : intercalate [s] [x] = x := by
  simp [intercalate, intersperse]

theorem intercalate_cons (x y : List α) (l : List (List α)) :
    intercalate [s] (x :: y :: l) = x ++ s :: intercalate [s] (y :: l) := by
  simp [intercalate, intersperse]

/-- The first separator. -/
theorem cut_first (none : s ∉ x) (none' : s ∉ y) (same : x ++ s :: r = y ++ s :: r') : x = y ∧ r = r' := by
  rcases append_eq_append_iff.1 same with ⟨more, rfl, rest⟩ | ⟨more, rfl, rest⟩
  · cases more with
    | nil => exact ⟨by simp, (cons.inj rest).2⟩
    | cons c more =>
      rw [← (cons.inj rest).1] at none'
      simp at none'
  · cases more with
    | nil => exact ⟨by simp, (cons.inj rest).2.symm⟩
    | cons c more =>
      rw [← (cons.inj rest).1] at none
      simp at none

/-- The last separator. -/
theorem cut_last (none : s ∉ r) (none' : s ∉ r') (same : x ++ s :: r = y ++ s :: r') : x = y ∧ r = r' := by
  have mirrored := congrArg reverse same
  simp only [reverse_append, reverse_cons, append_assoc, singleton_append] at mirrored
  obtain ⟨right, left⟩ := cut_first (by rwa [mem_reverse]) (by rwa [mem_reverse]) mirrored
  exact ⟨reverse_injective left, reverse_injective right⟩

theorem joined_injective {pieces pieces' : List (List α)} (solid : ∀ x ∈ pieces, x ≠ [] ∧ s ∉ x)
    (solid' : ∀ x ∈ pieces', x ≠ [] ∧ s ∉ x)
    (same : intercalate [s] pieces = intercalate [s] pieces') : pieces = pieces' := by
  induction pieces generalizing pieces' with
  | nil =>
    match pieces' with
    | [] => rfl
    | [y] =>
      rw [intercalate_one] at same
      exact absurd same.symm (solid' y mem_cons_self).1
    | y :: y' :: l' =>
      exact absurd same.symm (by simp)
  | cons x l ih =>
    rw [forall_mem_cons] at solid
    match l, pieces' with
    | [], [] =>
      rw [intercalate_one] at same
      exact absurd same solid.1.1
    | _ :: _, [] =>
      exact absurd same (by simp)
    | [], [y] =>
      rw [intercalate_one, intercalate_one] at same
      rw [same]
    | [], y :: y' :: l' =>
      rw [intercalate_one, intercalate_cons] at same
      exact absurd (by rw [same]; simp) solid.1.2
    | x' :: l, [y] =>
      rw [intercalate_one, intercalate_cons] at same
      exact absurd (by rw [← same]; simp) (solid' y mem_cons_self).2
    | x' :: l, y :: y' :: l' =>
      rw [forall_mem_cons] at solid'
      obtain ⟨rfl, rest⟩ := cut_first solid.1.2 solid'.1.2 same
      rw [ih solid.2 solid'.2 rest]

end Joined
