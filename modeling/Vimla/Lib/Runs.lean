import Mathlib

/-!
# Runs of a deterministic step

A run folds a step function over a list of actions. An invariant is proved for
one step and holds of every state of every run; a run can be restricted to
actions that meet a condition on the state they are taken in.
-/

namespace Runs

variable {σ α : Type} (step : σ → α → σ)

/-- Each action of the run meets `C` in the state it is taken in. -/
def Along (C : σ → α → Prop) : σ → List α → Prop
  | _, [] => True
  | s, a :: as => C s a ∧ Along C (step s a) as

variable {step} {C : σ → α → Prop} {P : σ → Prop}

instance instDecidableAlong [∀ s a, Decidable (C s a)] : ∀ s as, Decidable (Along step C s as)
  | _, [] => isTrue trivial
  | s, a :: as => @instDecidableAnd _ _ _ (instDecidableAlong (step s a) as)

variable {s : σ}

theorem along_append {as bs : List α} :
    Along step C s (as ++ bs) ↔ Along step C s as ∧ Along step C (as.foldl step s) bs := by
  induction as generalizing s with
  | nil => simp [Along]
  | cons a as ih => simp [List.cons_append, Along, ih, List.foldl_cons, and_assoc]

variable {as : List α}

theorem along_of_forall (h : ∀ s, ∀ a ∈ as, C s a) : Along step C s as := by
  induction as generalizing s with
  | nil => trivial
  | cons a as ih =>
    exact ⟨h s a List.mem_cons_self, ih fun s b hb => h s b (List.mem_cons_of_mem a hb)⟩

/-- What every admitted step preserves holds after the run. -/
theorem invariant_along (preserved : ∀ s a, C s a → P s → P (step s a))
    (admitted : Along step C s as) (start : P s) : P (as.foldl step s) := by
  induction as generalizing s with
  | nil => exact start
  | cons a as ih => exact ih admitted.2 (preserved s a admitted.1 start)

variable {D : σ → α → Prop}

/-- What admitted steps do from the states they are taken in. -/
theorem along_of_invariant (each : ∀ s a, C s a → P s → D s a) (preserved : ∀ s a, C s a → P s → P (step s a))
    (admitted : Along step C s as) (start : P s) : Along step D s as := by
  induction as generalizing s with
  | nil => trivial
  | cons a as ih =>
    exact ⟨each s a admitted.1 start, ih admitted.2 (preserved s a admitted.1 start)⟩

/-- Two conditions that agree wherever `P` holds, if the first keeps `P`. -/
theorem along_iff (each : ∀ s a, P s → (C s a ↔ D s a)) (preserved : ∀ s a, C s a → P s → P (step s a))
    (start : P s) : Along step C s as ↔ Along step D s as := by
  induction as generalizing s with
  | nil => exact Iff.rfl
  | cons a as ih =>
    constructor
    · exact fun h => ⟨(each s a start).1 h.1, (ih (preserved s a h.1 start)).1 h.2⟩
    · intro h
      have now : C s a := (each s a start).2 h.1
      exact ⟨now, (ih (preserved s a now start)).2 h.2⟩

theorem invariant (preserved : ∀ s a, P s → P (step s a)) (as : List α) (start : P s) :
    P (as.foldl step s) :=
  invariant_along (fun s a _ => preserved s a) (along_of_forall fun _ _ _ => trivial) start

/-- A relation between the state now and any later state. -/
theorem relates {R : σ → σ → Prop} (refl : ∀ s, R s s) (trans : ∀ r s t, R r s → R s t → R r t)
    (steps : ∀ s a, C s a → P s → R s (step s a)) (preserved : ∀ s a, C s a → P s → P (step s a))
    (admitted : Along step C s as) (start : P s) : R s (as.foldl step s) := by
  induction as generalizing s with
  | nil => exact refl s
  | cons a as ih =>
    exact trans s _ _ (steps s a admitted.1 start)
      (ih admitted.2 (preserved s a admitted.1 start))

end Runs
