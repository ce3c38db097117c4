import Mathlib

/-!
# Patches of records

A record has fields. A patch supplies some of them, and a log is what has been
written to one record. Where each write leaves the fields that its patch does not
supply, a field has the value that was supplied last.
-/

namespace Patches

variable {ρ π φ : Type} {V : φ → Type}

/-- What a log supplies of one field, in order. -/
def supplied (given : π → (f : φ) → Option (V f)) (log : List π) (f : φ) : List (V f) := log.filterMap fun p => given p f

section Facts
variable {get : ρ → (f : φ) → V f} {given : π → (f : φ) → Option (V f)} {r r' r'' : ρ} {p : π} {log : List π} {f : φ} {v : V f}

/-- The record after a write of the patch. -/
def Writes (get : ρ → (f : φ) → V f) (given : π → (f : φ) → Option (V f)) (p : π) (r r' : ρ) : Prop :=
  ∀ f, get r' f = (given p f).getD (get r f)

/-- The record after the writes of the log. -/
def Written (get : ρ → (f : φ) → V f) (given : π → (f : φ) → Option (V f)) (log : List π) (r r' : ρ) : Prop :=
  ∀ f, get r' f = (supplied given log f).getLast?.getD (get r f)

theorem Written.nil : Written get given [] r r := fun _ => rfl

theorem Writes.written (writes : Writes get given p r r') : Written get given [p] r r' := by
  intro f
  rw [writes f, supplied]
  cases answer : given p f <;> simp [answer]

theorem Written.append {log' : List π} (first : Written get given log r r') (second : Written get given log' r' r'') :
    Written get given (log ++ log') r r'' := by
  intro f
  have both : supplied given (log ++ log') f = supplied given log f ++ supplied given log' f := List.filterMap_append
  rw [second f, first f, both, List.getLast?_append]
  cases (supplied given log' f).getLast? <;> rfl

section
variable (written : Written get given log r r')
include written

/-- A value that was not there before was supplied. -/
theorem Written.supplied_of_ne (changed : get r' f ≠ get r f) :
    ∃ p ∈ log, given p f = some (get r' f) := by
  have last := written f
  cases answer : (supplied given log f).getLast? with
  | none =>
    rw [answer] at last
    exact absurd last changed
  | some v =>
    rw [answer, Option.getD_some] at last
    rw [last]
    exact List.mem_filterMap.1 (List.mem_of_getLast? answer)

/-- A field that was supplied once. -/
theorem Written.once (one : supplied given log f = [v]) : get r' f = v := by
  rw [written f, one]
  rfl

end

end Facts

end Patches
