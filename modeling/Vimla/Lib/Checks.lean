import Mathlib

/-!
# Checks that may throw

What a passed check says about a sequence of steps in `Except`.
-/

namespace Checks

open List Option

variable {α β σ ε : Type} {f : α → Except ε β} {x : Except ε α} {b : β}

theorem of_bind (h : (x >>= f) = .ok b) : ∃ a, x = .ok a ∧ f a = .ok b := by
  cases x with
  | error e => cases h
  | ok a => exact ⟨a, rfl, h⟩

variable {l : List α} {r : List β}

/-- A fold that passes has passed each element's own check. -/
theorem of_foldlM {f : σ → α → Except ε σ} {P : α → Prop} (each : ∀ s a s', f s a = .ok s' → P a) {s s' : σ}
    (h : l.foldlM f s = .ok s') : ∀ a ∈ l, P a := by
  induction l generalizing s with
  | nil => simp
  | cons a l ih =>
    obtain ⟨mid, head, tail⟩ := of_bind h
    intro b hb
    rcases mem_cons.1 hb with rfl | hb
    · exact each s b mid head
    · exact ih tail b hb

theorem bind_eq_ok : (x >>= f) = .ok b ↔ ∃ a, x = .ok a ∧ f a = .ok b := by
  constructor
  · exact of_bind
  · rintro ⟨a, rfl, h⟩
    exact h

/-- A check with no result, and what follows it. -/
theorem check_bind {x : Except ε Unit} {f : Unit → Except ε β} :
    (x >>= f) = .ok b ↔ x = .ok () ∧ f () = .ok b := by
  rw [bind_eq_ok]
  constructor
  · rintro ⟨⟨⟩, check, rest⟩
    exact ⟨check, rest⟩
  · rintro ⟨check, rest⟩
    exact ⟨(), check, rest⟩

theorem forM_eq_ok {f : α → Except ε PUnit} : l.forM f = .ok () ↔ ∀ a ∈ l, f a = .ok () := by
  induction l with
  | nil => simp [List.forM, pure, Except.pure]
  | cons a l ih =>
    change (f a >>= fun _ => l.forM f) = _ ↔ _
    rw [bind_eq_ok]
    constructor
    · rintro ⟨⟨⟩, head, tail⟩ b hb
      obtain rfl | hb := mem_cons.1 hb
      · exact head
      · exact ih.1 tail b hb
    · intro each
      exact ⟨(), each a mem_cons_self, ih.2 fun b hb => each b (mem_cons_of_mem a hb)⟩

/-- A `map` that passes has passed for each element. -/
theorem mapM_eq_ok : l.mapM f = .ok r ↔ List.Forall₂ (fun a b => f a = .ok b) l r := by
  induction l generalizing r with
  | nil =>
    constructor
    · rintro ⟨⟩
      exact .nil
    · rintro ⟨⟩
      rfl
  | cons a l ih =>
    rw [mapM_cons, bind_eq_ok]
    constructor
    · rintro ⟨b, head, rest⟩
      obtain ⟨bs, tail, ⟨⟩⟩ := bind_eq_ok.1 rest
      exact .cons head (ih.1 tail)
    · rintro (_ | ⟨head, tail⟩)
      exact ⟨_, head, bind_eq_ok.2 ⟨_, ih.2 tail, rfl⟩⟩

/-- The same for what may be missing. -/
theorem mapM_eq_some {f : α → Option β} : l.mapM f = some r ↔ List.Forall₂ (fun a b => f a = some b) l r := by
  induction l generalizing r with
  | nil =>
    constructor
    · rintro ⟨⟩
      exact .nil
    · rintro ⟨⟩
      rfl
  | cons a l ih =>
    rw [mapM_cons]
    constructor
    · intro h
      obtain ⟨b, head, rest⟩ := bind_eq_some_iff.1 h
      obtain ⟨bs, tail, ⟨⟩⟩ := bind_eq_some_iff.1 rest
      exact .cons head (ih.1 tail)
    · rintro (_ | ⟨head, tail⟩)
      exact bind_eq_some_iff.2 ⟨_, head, bind_eq_some_iff.2 ⟨_, ih.2 tail, rfl⟩⟩

section Fold
variable {f : σ → α → Except ε σ} (state : List α → σ) (D : List α → Prop) (P : α → Prop)
  (shorter : ∀ done rest, D (done ++ rest) → D done)
  (each : ∀ done a s, D done →
    (f (state done) a = .ok s ↔ P a ∧ D (done ++ [a]) ∧ s = state (done ++ [a])))
include shorter each

/-- A fold whose state is known for every prefix passes when each element is
in order and the prefixes stay admissible. -/
theorem foldlM_eq_ok
    {done l : List α} {s : σ} (start : D done) :
    l.foldlM f (state done) = .ok s ↔ (∀ a ∈ l, P a) ∧ D (done ++ l) ∧ s = state (done ++ l) := by
  induction l generalizing done with
  | nil =>
    rw [foldlM_nil, append_nil]
    constructor
    · rintro ⟨⟩
      exact ⟨by simp, start, rfl⟩
    · rintro ⟨-, -, rfl⟩
      rfl
  | cons a l ih =>
    have snoc : done ++ a :: l = done ++ [a] ++ l := by simp
    rw [foldlM_cons, bind_eq_ok, snoc]
    constructor
    · rintro ⟨mid, head, tail⟩
      obtain ⟨ok, next, rfl⟩ := (each done a mid start).1 head
      obtain ⟨all, last, rfl⟩ := (ih next).1 tail
      refine ⟨fun b hb => ?_, last, rfl⟩
      obtain rfl | hb := mem_cons.1 hb
      · exact ok
      · exact all b hb
    · rintro ⟨all, last, rfl⟩
      have next := shorter _ l last
      refine ⟨_, (each done a _ start).2 ⟨all a mem_cons_self, next, rfl⟩, ?_⟩
      exact (ih next).2 ⟨fun b hb => all b (mem_cons_of_mem a hb), last, rfl⟩

/-- From the empty prefix. -/
theorem foldlM_nil_eq_ok (start : D []) (l : List α) (s : σ) :
    l.foldlM f (state []) = .ok s ↔ (∀ a ∈ l, P a) ∧ D l ∧ s = state l :=
  foldlM_eq_ok state D P shorter each start

end Fold

end Checks
