import Vimla.Lib.Threads

/-!
# Transactions as steps

A statement, or the writes of a transaction, taken as one step of a thread: it
may refuse, it may be lost before it is executed, and it may be executed without
its answer being heard.
-/

namespace Threads

inductive Fate | done | undone | unheard
  deriving DecidableEq

variable {ℓ : Type} {δ : ℓ → Type} {σ ε α : Type} {p : Program ℓ δ σ ε α}

namespace Program

/-- `f` refuses with an error, or answers and writes; `down` is what a lost
statement throws. -/
def transact (l : ℓ) (fate : δ l → Fate) (down : ε) (f : σ → δ l → Except ε (α × σ)) : Program ℓ δ σ ε α :=
  (ask l fun s d =>
    match f s d with
    | .error e => (.error e, s)
    | .ok (a, t) =>
      match fate d with
      | .done => (.ok a, t)
      | .undone => (.error down, s)
      | .unheard => (.error down, t)).bind lift

/-- What holds of every step from one state to the next. -/
def Steps (Q : (l : ℓ) → σ → δ l → σ → Prop) : Program ℓ δ σ ε α → Prop := Acts fun l act => ∀ s d, Q l s d (act s d)

theorem steps_mono {Q Q' : (l : ℓ) → σ → δ l → σ → Prop} (weaker : ∀ l s d t, Q l s d t → Q' l s d t)
    (steps : p.Steps Q) : p.Steps Q' := by
  induction p with
  | pure a | fail e => trivial
  | step l act next ih => exact ⟨fun s d => weaker l s d _ (steps.1 s d), fun s d => ih s d (steps.2 s d)⟩

theorem steps_transact {Q : (l : ℓ) → σ → δ l → σ → Prop} {l : ℓ} {fate : δ l → Fate} {down : ε}
    {f : σ → δ l → Except ε (α × σ)} (stays : ∀ s d, Q l s d s)
    (writes : ∀ s d a t, f s d = .ok (a, t) → fate d ≠ .undone → Q l s d t) : (transact l fate down f).Steps Q := by
  refine acts_bind (acts_ask fun s d => ?_) fun r => acts_lift r
  cases answer : f s d with
  | error e =>
    simp only [answer]
    exact stays s d
  | ok result =>
    obtain ⟨a, t⟩ := result
    cases outcome : fate d with
    | undone =>
      simp only [answer, outcome]
      exact stays s d
    | done | unheard =>
      simp only [answer, outcome]
      exact writes s d a t answer (by simp [outcome])

end Program

open Program

section Rule
variable {D : Discipline ℓ δ σ} {me : Nat} {during : ℓ → History δ → σ → Prop}

section
variable {ends : Except ε α → History δ → σ → Prop} {l : ℓ} {fate : δ l → Fate} {down : ε}
  {f : σ → δ l → Except ε (α × σ)} {h : History δ} {s : σ} (still : ∀ t, D.inv t → D.guarantee me t t)
include still

/-- The rule of a transaction, by what becomes of it. -/
theorem Discipline.wp_transact_fates (each : ∀ t, D.inv t → D.rely me s t → during l h t ∧ ∀ d, D.admits l t d →
      (∀ e, f t d = .error e → ∀ h', ends (.error e) h' t) ∧ (fate d = .undone → ∀ h', ends (.error down) h' t) ∧
      ∀ a u, f t d = .ok (a, u) → (fate d ≠ .undone → D.inv u ∧ D.guarantee me t u) ∧
        (fate d = .done → ∀ h', ends (.ok a) h' u) ∧ (fate d = .unheard → ∀ h', ends (.error down) h' u)) :
    D.wp me during ends (transact l fate down f) h s := by
  intro t inv rely
  obtain ⟨now, outcomes⟩ := each t inv rely
  refine ⟨now, fun d admitted => ?_⟩
  obtain ⟨refused, lost, executed⟩ := outcomes d admitted
  cases answer : f t d with
  | error e =>
    simp only [answer]
    exact ⟨inv, still t inv, refused e answer _⟩
  | ok result =>
    obtain ⟨a, u⟩ := result
    obtain ⟨keeps, done, unheard⟩ := executed a u answer
    cases outcome : fate d with
    | undone =>
      simp only [answer, outcome]
      exact ⟨inv, still t inv, lost outcome _⟩
    | done =>
      simp only [answer, outcome]
      exact ⟨(keeps (by simp [outcome])).1, (keeps (by simp [outcome])).2, done outcome _⟩
    | unheard =>
      simp only [answer, outcome]
      exact ⟨(keeps (by simp [outcome])).1, (keeps (by simp [outcome])).2, unheard outcome _⟩

/-- The rule of a transaction: what it writes keeps the invariant and the
guarantee, and however it goes the program may end there. -/
theorem Discipline.wp_transact (each : ∀ t, D.inv t → D.rely me s t → during l h t ∧ (∀ e h', ends (.error e) h' t) ∧
      ∀ d, D.admits l t d → ∀ a u, f t d = .ok (a, u) → fate d ≠ .undone → D.inv u ∧ D.guarantee me t u ∧
        (∀ e h', ends (.error e) h' u) ∧ ∀ h', ends (.ok a) h' u) :
    D.wp me during ends (transact l fate down f) h s := by
  refine Discipline.wp_transact_fates still fun t inv rely => ?_
  obtain ⟨now, thrown, executed⟩ := each t inv rely
  refine ⟨now, fun d admitted => ⟨fun e _ => thrown e, fun _ => thrown down, fun a u ok => ?_⟩⟩
  have writes := executed d admitted a u ok
  refine ⟨fun fate => ⟨(writes fate).1, (writes fate).2.1⟩, fun fate => ?_, fun fate => ?_⟩
  · exact (writes (by simp [fate])).2.2.2
  · exact (writes (by simp [fate])).2.2.1 down

end

end Rule

/-- What a program keeps to: `during` before each of its steps, `E` where it ends. -/
def Discipline.Meets (D : Discipline ℓ δ σ) (me : Nat) (during : ℓ → σ → Prop) (E : Except ε α → σ → Prop)
    (p : Program ℓ δ σ ε α) (h : History δ) (s : σ) : Prop :=
  D.wp me (fun l _ s => during l s) (fun r _ s => E r s) p h s

namespace Discipline.Meets

variable {β : Type} {D : Discipline ℓ δ σ} {me : Nat} {during : ℓ → σ → Prop} {h : History δ} {s : σ}

theorem mono {E E' : Except ε α → σ → Prop} (weaker : ∀ r s, E r s → E' r s)
    (meets : D.Meets me during E p h s) : D.Meets me during E' p h s :=
  wp_mono (fun r _ s => weaker r s) meets

theorem bind {E : Except ε β → σ → Prop} {k : α → Program ℓ δ σ ε β}
    (first : D.Meets me during (fun r s => match r with
      | .ok a => ∀ h, D.Meets me during E (k a) h s
      | .error e => E (.error e) s) p h s) : D.Meets me during E (p.bind k) h s := by
  refine wp_bind (wp_mono (fun r h s holds => ?_) first)
  cases r with
  | ok a => exact holds h
  | error e => exact holds

/-- A sequence, by what is known where the first program ends. -/
theorem seq {E : Except ε α → σ → Prop} {E' : Except ε β → σ → Prop} {k : α → Program ℓ δ σ ε β}
    (first : D.Meets me during E p h s) (thrown : ∀ e s, E (.error e) s → E' (.error e) s)
    (rest : ∀ a h s, E (.ok a) s → D.Meets me during E' (k a) h s) : D.Meets me during E' (p.bind k) h s := by
  refine bind (mono (fun r s holds => ?_) first)
  cases r with
  | error e => exact thrown e s holds
  | ok a => exact fun h => rest a h s holds

theorem attempt {E : Except ε (Except ε α) → σ → Prop}
    (inner : D.Meets me during (fun r => E (.ok r)) p h s) : D.Meets me during E p.attempt h s := wp_attempt inner

/-- One statement, by what becomes of it. -/
theorem transact {E : Except ε α → σ → Prop} {l : ℓ} {fate : δ l → Fate} {down : ε} {f : σ → δ l → Except ε (α × σ)}
    (still : ∀ t, D.inv t → D.guarantee me t t)
    (each : ∀ t, D.inv t → D.rely me s t → during l t ∧ ∀ d, D.admits l t d →
      (∀ e, f t d = .error e → E (.error e) t) ∧ (fate d = .undone → E (.error down) t) ∧
      ∀ a u, f t d = .ok (a, u) → (fate d ≠ .undone → D.inv u ∧ D.guarantee me t u) ∧ (fate d = .done → E (.ok a) u) ∧
        (fate d = .unheard → E (.error down) u)) : D.Meets me during E (Program.transact l fate down f) h s := by
  refine wp_transact_fates still fun t inv rely => ?_
  obtain ⟨now, fates⟩ := each t inv rely
  refine ⟨now, fun d admitted => ?_⟩
  obtain ⟨refused, lost, executed⟩ := fates d admitted
  exact ⟨fun e is _ => refused e is, fun fate _ => lost fate, fun a u ok =>
    ⟨(executed a u ok).1, fun fate _ => (executed a u ok).2.1 fate, fun fate _ => (executed a u ok).2.2 fate⟩⟩

/-- A program each of whose steps keeps what is known. -/
theorem steps [∀ l, Inhabited (δ l)] {P : σ → Prop} (stable : ∀ s t, D.rely me s t → P s → P t)
    (each : p.Steps fun l s d t => P s → D.inv s → during l s ∧ (D.admits l s d → (D.inv t ∧ D.guarantee me s t) ∧ P t))
    (now : P s) : D.Meets me during (fun _ s => P s) p h s := by
  induction p generalizing h s with
  | pure a | fail e => exact now
  | step l act next ih =>
    intro t inv rely
    have here : P t := stable s t rely now
    refine ⟨(each.1 t default here inv).1, fun d admitted => ?_⟩
    obtain ⟨⟨inv', kept⟩, here'⟩ := (each.1 t d here inv).2 admitted
    exact ⟨inv', kept, ih t d (each.2 t d) here'⟩

end Discipline.Meets

end Threads
