import Mathlib

/-!
# Cutting a list into segments

A list of weighted elements is cut into segments of at most a capacity. Filling
each segment until the next element no longer fits uses no more segments than any
other cutting.
-/

namespace Segments

open List

variable {α : Type} (w : α → Nat) (cap : Nat)

def weight (l : List α) : Nat := (l.map w).sum

/-- The segments, of which `filling` is the one that is open. -/
def fill [DecidableEq α] : List α → List α → List (List α)
  | [], filling => if filling = [] then [] else [filling]
  | a :: rest, filling =>
    if weight w filling + w a > cap then filling :: fill rest [a] else fill rest (filling ++ [a])

/-- The list is these segments, one after the other. -/
structure Cutting (l : List α) (segments : List (List α)) : Prop where
  whole : segments.flatten = l
  fits : ∀ segment ∈ segments, weight w segment ≤ cap

variable {w cap} {l rest filling : List α} {segments : List (List α)}

theorem weight_append (l l' : List α) : weight w (l ++ l') = weight w l + weight w l' := by
  rw [weight, map_append, sum_append]
  rfl

theorem weight_cons (a : α) (l : List α) : weight w (a :: l) = w a + weight w l := by
  rfl

theorem Cutting.tail {segment : List α} (cut : Cutting w cap l (segment :: segments)) :
    Cutting w cap segments.flatten segments := ⟨rfl, fun s mem => cut.fits s (mem_cons_of_mem segment mem)⟩

/-- What is left of a cutting without the first elements. -/
theorem Cutting.drop {first : List α} (cut : Cutting w cap (first ++ rest) segments) :
    ∃ fewer, Cutting w cap rest fewer ∧ fewer.length ≤ segments.length := by
  induction segments generalizing first with
  | nil =>
    have nothing := append_eq_nil_iff.1 cut.whole.symm
    exact ⟨[], ⟨nothing.2.symm, by simp⟩, Nat.le_refl 0⟩
  | cons segment segments ih =>
    have whole : segment ++ segments.flatten = first ++ rest := cut.whole
    rcases append_eq_append_iff.1 whole with ⟨more, rfl, joined⟩ | ⟨more, rfl, rfl⟩
    · obtain ⟨fewer, cut', le⟩ := ih (joined ▸ cut.tail)
      exact ⟨fewer, cut', Nat.le_succ_of_le le⟩
    · refine ⟨more :: segments, ⟨rfl, ?_⟩, Nat.le_refl _⟩
      intro s mem
      rcases mem_cons.1 mem with rfl | mem
      · have le := cut.fits _ mem_cons_self
        rw [weight_append] at le
        omega
      · exact cut.fits s (mem_cons_of_mem _ mem)

variable [DecidableEq α]

section
variable (small : ∀ a ∈ rest, w a ≤ cap)
include small

theorem fill_fits (open_ : weight w filling ≤ cap) :
    ∀ segment ∈ fill w cap rest filling, weight w segment ≤ cap := by
  induction rest generalizing filling with
  | nil =>
    intro segment mem
    rw [fill] at mem
    split at mem
    · cases mem
    · rw [mem_singleton.1 mem]
      exact open_
  | cons a rest ih =>
    have later : ∀ b ∈ rest, w b ≤ cap := fun b mem => small b (mem_cons_of_mem a mem)
    have first : w a ≤ cap := small a mem_cons_self
    intro segment mem
    rw [fill] at mem
    split at mem
    · rcases mem_cons.1 mem with rfl | mem
      · exact open_
      · refine ih later ?_ segment mem
        exact first
    · refine ih later ?_ segment mem
      rw [weight_append, weight_cons]
      simp only [weight, map_nil, sum_nil]
      unfold weight at *
      omega

theorem fill_ne_nil : ∀ segment ∈ fill w cap rest filling, segment ≠ [] := by
  induction rest generalizing filling with
  | nil =>
    intro segment mem
    rw [fill] at mem
    split at mem
    · cases mem
    · rename_i some
      rw [mem_singleton.1 mem]
      exact some
  | cons a rest ih =>
    have later : ∀ b ∈ rest, w b ≤ cap := fun b mem => small b (mem_cons_of_mem a mem)
    intro segment mem
    rw [fill] at mem
    split at mem
    · rename_i full
      rcases mem_cons.1 mem with rfl | mem
      · rintro rfl
        have first := small a mem_cons_self
        simp only [weight, map_nil, sum_nil] at full
        omega
      · exact ih later segment mem
    · exact ih later segment mem

/-- No cutting has fewer segments. -/
theorem fill_least (cut : Cutting w cap (filling ++ rest) segments) :
    (fill w cap rest filling).length ≤ segments.length := by
  induction rest generalizing filling segments with
  | nil =>
    rw [fill]
    split
    · exact Nat.zero_le _
    · rename_i some
      rw [append_nil] at cut
      cases segments with
      | nil => exact absurd cut.whole.symm some
      | cons segment segments => simp
  | cons a rest ih =>
    have later : ∀ b ∈ rest, w b ≤ cap := fun b mem => small b (mem_cons_of_mem a mem)
    rw [fill]
    split
    · rename_i full
      cases segments with
      | nil =>
        have nothing := cut.whole.symm
        simp at nothing
      | cons segment segments =>
        -- The first segment does not reach `a`, so the others have all that follows.
        have whole : segment ++ segments.flatten = filling ++ a :: rest := cut.whole
        have left : ∃ first, segments.flatten = first ++ a :: rest := by
          rcases append_eq_append_iff.1 whole with ⟨more, -, joined⟩ | ⟨more, rfl, joined⟩
          · exact ⟨more, joined⟩
          · cases more with
            | nil => exact ⟨[], joined.symm⟩
            | cons b more =>
              obtain ⟨rfl, -⟩ := cons.inj joined
              have fits := cut.fits _ mem_cons_self
              rw [weight_append, weight_cons] at fits
              omega
        obtain ⟨first, joined⟩ := left
        obtain ⟨fewer, cut', le⟩ := Cutting.drop (joined ▸ cut.tail)
        have least := @ih [a] fewer later cut'
        simp only [length_cons]
        omega
    · apply ih later
      rw [append_assoc]
      exact cut

end

/-- Each segment but the last is filled but for less than the largest weight. -/
theorem length_fill_mul {largest : Nat} (weighs : ∀ a ∈ rest, 1 ≤ w a ∧ w a ≤ largest) (le : largest ≤ cap)
    (open_ : filling = [] ∨ 1 ≤ weight w filling) :
    (fill w cap rest filling).length * (cap + 1 - largest) ≤ weight w (filling ++ rest) + (cap - largest) := by
  induction rest generalizing filling with
  | nil =>
    rw [fill, append_nil]
    split
    · simp
    · rename_i some
      have := open_.resolve_left some
      simp only [length_singleton]
      omega
  | cons a rest ih =>
    have later : ∀ b ∈ rest, 1 ≤ w b ∧ w b ≤ largest := fun b mem => weighs b (mem_cons_of_mem a mem)
    obtain ⟨least, most⟩ := weighs a mem_cons_self
    rw [fill]
    split
    · rename_i full
      have filled := @ih [a] later (.inr (by simpa [weight] using least))
      rw [length_cons, Nat.add_mul, weight_append, weight_cons]
      rw [singleton_append, weight_cons] at filled
      omega
    · have filled := @ih (filling ++ [a]) later (.inr (by
        rw [weight_append, weight_cons]
        omega))
      rwa [append_assoc] at filled

end Segments
