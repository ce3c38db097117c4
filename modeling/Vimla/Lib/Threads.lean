import Vimla.Lib.Runs

/-!
# Threads on a shared state

A program takes atomic steps on a state that other threads change in between.
Each step has a label and an answer that the program does not choose: what a
clock, a remote service or a random source returns. A discipline says what every
thread may rely on and what it guarantees. `wp` is the weakest precondition of a
program under it, and `Contract.run` carries the programs' contracts to every
interleaving of any number of threads.
-/

namespace Threads

open List Runs

inductive Program (ℓ : Type) (δ : ℓ → Type) (σ ε α : Type)
  | pure (value : α)
  | fail (error : ε)
  | step (label : ℓ) (act : σ → δ label → σ) (next : σ → δ label → Program ℓ δ σ ε α)

variable {ℓ : Type} {δ : ℓ → Type} {σ ε α β ι κ : Type} {p : Program ℓ δ σ ε α} {f : α → Program ℓ δ σ ε β} {l : ℓ}

namespace Program

def bind : Program ℓ δ σ ε α → (α → Program ℓ δ σ ε β) → Program ℓ δ σ ε β
  | .pure a, f => f a
  | .fail e, _ => .fail e
  | .step l act next, f => .step l act fun s d => (next s d).bind f

theorem bind_assoc {γ : Type} (p : Program ℓ δ σ ε α) (f : α → Program ℓ δ σ ε β) (g : β → Program ℓ δ σ ε γ) :
    (p.bind f).bind g = p.bind fun a => (f a).bind g := by
  induction p with
  | pure a | fail e => rfl
  | step l act next ih =>
    simp only [bind]
    congr 1
    funext s d
    exact ih s d

/-- One atomic step: it writes the state and returns a value. -/
def ask (l : ℓ) (f : σ → δ l → α × σ) : Program ℓ δ σ ε α :=
  .step l (fun s d => (f s d).2) fun s d => .pure (f s d).1

/-- A step that returns nothing. -/
def tell (l : ℓ) (f : σ → δ l → σ) : Program ℓ δ σ ε Unit := ask l fun s d => ((), f s d)

/-- `try`: what the program throws is returned. -/
def attempt : Program ℓ δ σ ε α → Program ℓ δ σ ε (Except ε α)
  | .pure a => .pure (.ok a)
  | .fail e => .pure (.error e)
  | .step l act next => .step l act fun s d => (next s d).attempt

/-- The value of an `Except`, or its error thrown. -/
def lift : Except ε α → Program ℓ δ σ ε α
  | .ok a => .pure a
  | .error e => .fail e

/-- The program has returned or thrown. -/
def Done : Program ℓ δ σ ε α → Prop
  | .step _ _ _ => False
  | _ => True

instance : ∀ p : Program ℓ δ σ ε α, Decidable p.Done
  | .pure _ => isTrue trivial
  | .fail _ => isTrue trivial
  | .step _ _ _ => isFalse id

/-- What the program has returned or thrown. -/
def result : Program ℓ δ σ ε α → Option (Except ε α)
  | .pure a => some (.ok a)
  | .fail e => some (.error e)
  | .step _ _ _ => none

/-- The program on a larger state, of which it sees a part. -/
def within {ℓ' : Type} {δ' : ℓ' → Type} {τ : Type} (label : ℓ → ℓ') (get : τ → σ) (put : τ → σ → τ)
    (answer : ∀ l, τ → δ' (label l) → δ l) : Program ℓ δ σ ε α → Program ℓ' δ' τ ε α
  | .pure a => .pure a
  | .fail e => .fail e
  | .step l act next => .step (label l) (fun t d => put t (act (get t) (answer l t d)))
      fun t d => (next (get t) (answer l t d)).within label get put answer

/-- The program run to its end, with `wait` before each step. -/
def exec (wait : ℓ → σ → σ) (answers : (l : ℓ) → σ → δ l) : Program ℓ δ σ ε α → σ → Except ε α × σ
  | .pure a, s => (.ok a, s)
  | .fail e, s => (.error e, s)
  | .step l act next, s =>
    (next (wait l s) (answers l (wait l s))).exec wait answers (act (wait l s) (answers l (wait l s)))

section Exec
variable {wait : ℓ → σ → σ} {answers : (l : ℓ) → σ → δ l} {s t : σ}

theorem exec_bind {a : α} (first : p.exec wait answers s = (.ok a, t)) :
    (p.bind f).exec wait answers s = (f a).exec wait answers t := by
  induction p generalizing s with
  | pure b =>
    cases first
    rfl
  | fail e => cases first
  | step l act next ih => exact ih _ _ first

theorem exec_attempt {a : α} (first : p.exec wait answers s = (.ok a, t)) :
    p.attempt.exec wait answers s = (.ok (.ok a), t) := by
  induction p generalizing s with
  | pure b =>
    cases first
    rfl
  | fail e => cases first
  | step l act next ih => exact ih _ _ first

end Exec

/-- What each step of the program does has the property. -/
def Acts (P : (l : ℓ) → (σ → δ l → σ) → Prop) : Program ℓ δ σ ε α → Prop
  | .step l act next => P l act ∧ ∀ s d, (next s d).Acts P
  | _ => True

section Acts
variable {P : (l : ℓ) → (σ → δ l → σ) → Prop}

theorem acts_bind (first : p.Acts P) (rest : ∀ a, (f a).Acts P) : (p.bind f).Acts P := by
  induction p with
  | pure a => exact rest a
  | fail e => trivial
  | step l act next ih => exact ⟨first.1, fun s d => ih s d (first.2 s d)⟩

theorem acts_attempt (acts : p.Acts P) : p.attempt.Acts P := by
  induction p with
  | pure a | fail e => trivial
  | step l act next ih => exact ⟨acts.1, fun s d => ih s d (acts.2 s d)⟩

theorem acts_lift (r : Except ε α) : (lift r : Program ℓ δ σ ε α).Acts P := by
  cases r <;> trivial

theorem acts_within {ℓ' : Type} {δ' : ℓ' → Type} {τ : Type} {label : ℓ → ℓ'} {get : τ → σ} {put : τ → σ → τ}
    {answer : ∀ l, τ → δ' (label l) → δ l} {Q : (l : ℓ') → (τ → δ' l → τ) → Prop}
    (acts : p.Acts P) (does : ∀ l act, P l act → Q (label l) fun t d => put t (act (get t) (answer l t d))) :
    (p.within label get put answer).Acts Q := by
  induction p with
  | pure a | fail e => trivial
  | step l act next ih => exact ⟨does l act acts.1, fun t d => ih _ _ (acts.2 _ _)⟩

theorem acts_ask {f : σ → δ l → α × σ} (does : P l fun s d => (f s d).2) :
    (ask l f : Program ℓ δ σ ε α).Acts P := ⟨does, fun _ _ => trivial⟩

end Acts

end Program

/-- The steps that a thread has taken, with the answers it got. -/
abbrev History (δ : ℓ → Type) := List (Sigma δ)

/-- What holds of the shared state, what the answers of a step are assumed to
satisfy, what a thread relies on while others run and what it guarantees them. -/
structure Discipline (ℓ : Type) (δ : ℓ → Type) (σ : Type) where
  inv : σ → Prop
  admits : (l : ℓ) → σ → δ l → Prop
  rely : Nat → σ → σ → Prop
  guarantee : Nat → σ → σ → Prop
  refl : ∀ me s, rely me s s
  trans : ∀ me r s t, rely me r s → rely me s t → rely me r t
  compatible : ∀ me other s t, other ≠ me → inv s → guarantee other s t → rely me s t

variable {P : (l : ℓ) → (σ → δ l → σ) → Prop} {r : Except ε α}

namespace Discipline

variable (D : Discipline ℓ δ σ) (me : Nat)

/-- The program keeps its guarantee, `during` holds whenever it is about to take
a step, and `ends` where it returns or throws. -/
def wp (during : ℓ → History δ → σ → Prop) (ends : Except ε α → History δ → σ → Prop) :
    Program ℓ δ σ ε α → History δ → σ → Prop
  | .pure a, h, s => ends (.ok a) h s
  | .fail e, h, s => ends (.error e) h s
  | .step l act next, h, s => ∀ t, D.inv t → D.rely me s t → during l h t ∧
      ∀ d, D.admits l t d → D.inv (act t d) ∧ D.guarantee me t (act t d) ∧
        wp during ends (next t d) (h ++ [⟨l, d⟩]) (act t d)

variable {D me} {during : ℓ → History δ → σ → Prop}

variable {ends : Except ε α → History δ → σ → Prop} {h : History δ}

variable {l : ℓ}

/-- A step keeps its ends when what follows it does. -/
theorem wp_follow {ends' : Except ε β → History δ → σ → Prop} {act : σ → δ l → σ}
    {next : σ → δ l → Program ℓ δ σ ε α} {next' : σ → δ l → Program ℓ δ σ ε β} {s : σ}
    (follow : ∀ t d {h s}, D.wp me during ends (next t d) h s → D.wp me during ends' (next' t d) h s)
    (holds : D.wp me during ends (.step l act next) h s) : D.wp me during ends' (.step l act next') h s := by
  intro t inv rely
  obtain ⟨now, each⟩ := holds t inv rely
  refine ⟨now, fun d admitted => ?_⟩
  obtain ⟨inv', kept, rest⟩ := each d admitted
  exact ⟨inv', kept, follow t d rest⟩

theorem wp_mono {ends' : Except ε α → History δ → σ → Prop} (weaker : ∀ r h s, ends r h s → ends' r h s)
    {s : σ} (holds : D.wp me during ends p h s) : D.wp me during ends' p h s := by
  induction p generalizing h s with
  | pure a | fail e => exact weaker _ _ _ holds
  | step l act next ih => exact wp_follow ih holds

/-- A sequence: the second program starts where the first returns. -/
theorem wp_bind {ends : Except ε β → History δ → σ → Prop}
    {s : σ} (holds : D.wp me during (fun r h s => match r with
      | .ok a => D.wp me during ends (f a) h s
      | .error e => ends (.error e) h s) p h s) : D.wp me during ends (p.bind f) h s := by
  induction p generalizing h s with
  | pure a | fail e => exact holds
  | step l act next ih => exact wp_follow ih holds

theorem wp_attempt {ends : Except ε (Except ε α) → History δ → σ → Prop} {s : σ}
    (holds : D.wp me during (fun r => ends (.ok r)) p h s) : D.wp me during ends p.attempt h s := by
  induction p generalizing h s with
  | pure a | fail e => exact holds
  | step l act next ih => exact wp_follow ih holds

theorem wp_done {s : σ} (holds : D.wp me during ends p h s) (done : p.Done) : ∃ r, ends r h s := by
  cases p with
  | pure a | fail e => exact ⟨_, holds⟩
  | step l act next => exact absurd done id

theorem wp_ask {ends : Except ε β → History δ → σ → Prop} {f : σ → δ l → α × σ} {k : α → Program ℓ δ σ ε β} {s : σ}
    (holds : ∀ t, D.inv t → D.rely me s t → during l h t ∧
      ∀ d, D.admits l t d → D.inv (f t d).2 ∧ D.guarantee me t (f t d).2 ∧
        D.wp me during ends (k (f t d).1) (h ++ [⟨l, d⟩]) (f t d).2) :
    D.wp me during ends ((Program.ask l f).bind k) h s := holds

/-- What a program has ended with. -/
theorem wp_result {s : σ} (ended : p.result = some r)
    (holds : D.wp me during ends p h s) : ends r h s := by
  cases p with
  | step l act next => cases ended
  | _ =>
    cases ended
    exact holds

/-- A program of which only the actions are known. -/
theorem wp_acts {K : σ → Prop} (stable : ∀ s t, D.rely me s t → K s → K t)
    (keeps : ∀ l act, P l act → ∀ s, D.inv s → K s → ∀ h, during l h s ∧ ∀ d, D.admits l s d →
      D.inv (act s d) ∧ D.guarantee me s (act s d) ∧ K (act s d)) (last : ∀ r h s, D.inv s → K s → ends r h s)
    (acts : p.Acts P) {s : σ} (inv : D.inv s) (known : K s) : D.wp me during ends p h s := by
  induction p generalizing h s with
  | pure a | fail e => exact last _ _ _ inv known
  | step l act next ih =>
    intro t inv rely
    obtain ⟨now, each⟩ := keeps l act acts.1 t inv (stable s t rely known) h
    refine ⟨now, fun d admitted => ?_⟩
    obtain ⟨inv', kept, known'⟩ := each d admitted
    exact ⟨inv', kept, ih t d (acts.2 t d) inv' known'⟩

/-- A program that still runs relies on others at its next step. -/
theorem wp_rely_running (runs : ¬ p.Done) {s t : σ} (rely : D.rely me s t)
    (holds : D.wp me during ends p h s) : D.wp me during ends p h t := by
  cases p with
  | step l act next => exact fun u inv later => holds u inv (D.trans _ _ _ _ rely later)
  | _ => exact absurd trivial runs

/-- What is known of a state stays known while others run. -/
theorem wp_rely (stable : ∀ r h s t, D.rely me s t → ends r h s → ends r h t) {s t : σ}
    (rely : D.rely me s t) (holds : D.wp me during ends p h s) : D.wp me during ends p h t := by
  cases p with
  | pure a | fail e => exact stable _ _ _ _ rely holds
  | step l act next => exact wp_rely_running id rely holds

end Discipline

/-- The programs that may be started, and what else changes the state. -/
structure System (ℓ : Type) (δ : ℓ → Type) (σ ε α ι κ : Type) where
  program : Nat → ι → Program ℓ δ σ ε α
  environment : σ → κ → σ

structure Thread (ℓ : Type) (δ : ℓ → Type) (σ ε α ι : Type) where
  input : ι
  program : Program ℓ δ σ ε α
  history : History δ

structure World (ℓ : Type) (δ : ℓ → Type) (σ ε α ι : Type) where
  state : σ
  threads : List (Thread ℓ δ σ ε α ι)

/-- A thread starts, a thread takes its next step, or something else happens. -/
inductive Event (ℓ : Type) (δ : ℓ → Type) (ι κ : Type)
  | arrive (input : ι)
  | advance (me : Nat) (answers : ∀ l, δ l)
  | other (change : κ)

/-- One step of a thread; a thread that has ended takes none. -/
def Thread.advance (thread : Thread ℓ δ σ ε α ι) (s : σ) (answers : ∀ l, δ l) : Thread ℓ δ σ ε α ι × σ :=
  match thread.program with
  | .step l act next =>
    (⟨thread.input, next s (answers l), thread.history ++ [⟨l, answers l⟩]⟩, act s (answers l))
  | _ => (thread, s)

def World.step (S : System ℓ δ σ ε α ι κ) (w : World ℓ δ σ ε α ι) : Event ℓ δ ι κ → World ℓ δ σ ε α ι
  | .arrive input => { w with threads := w.threads ++ [⟨input, S.program w.threads.length input, []⟩] }
  | .advance me answers =>
    match w.threads[me]? with
    | none => w
    | some thread => ⟨(thread.advance w.state answers).2, w.threads.set me (thread.advance w.state answers).1⟩
  | .other change => { w with state := S.environment w.state change }

/-- A program that is run to its end is a run of its thread, with changes in between. -/
theorem World.exec_run (S : System ℓ δ σ ε α ι κ) (changes : ℓ → κ) (answers : (l : ℓ) → σ → δ l) (me : Nat)
    (p : Program ℓ δ σ ε α) (w : World ℓ δ σ ε α ι) (thread : Thread ℓ δ σ ε α ι) (found : w.threads[me]? = some thread)
    (here : thread.program = p) : ∃ events : List (Event ℓ δ ι κ),
      (∀ e ∈ events, (∃ l, e = .other (changes l)) ∨ ∃ a, e = .advance me a) ∧
      (events.foldl (World.step S) w).state = (p.exec (fun l s => S.environment s (changes l)) answers w.state).2 := by
  induction p generalizing w thread with
  | pure a | fail e => exact ⟨[], by simp, rfl⟩
  | step l act next ih =>
    let t := S.environment w.state (changes l)
    let thread' : Thread ℓ δ σ ε α ι := ⟨thread.input, next t (answers l t), thread.history ++ [⟨l, answers l t⟩]⟩
    have inside : me < w.threads.length := (List.getElem?_eq_some_iff.1 found).1
    have moved : [.other (changes l), .advance me fun l => answers l t].foldl (World.step S) w =
        ⟨act t (answers l t), w.threads.set me thread'⟩ := by
      simp [World.step, found, Thread.advance, here, t, thread']
    obtain ⟨events, kinds, ends⟩ := ih t (answers l t) ⟨act t (answers l t), w.threads.set me thread'⟩ thread'
      (getElem?_set_self inside) rfl
    refine ⟨[.other (changes l), .advance me fun l => answers l t] ++ events, fun e mem => ?_, ?_⟩
    · rcases mem_append.1 mem with new | old
      · rcases mem_cons.1 new with rfl | last
        · exact .inl ⟨l, rfl⟩
        · exact .inr ⟨_, mem_singleton.1 last⟩
      · exact kinds e old
    · rw [foldl_append, moved, ends]
      rfl

variable {S : System ℓ δ σ ε α ι κ} {w : World ℓ δ σ ε α ι}

/-- What every step of every program does, it does in every run. -/
theorem World.acts (programs : ∀ me i, (S.program me i).Acts P) (events : List (Event ℓ δ ι κ))
    (start : ∀ thread ∈ w.threads, thread.program.Acts P) :
    ∀ thread ∈ (events.foldl (World.step S) w).threads, thread.program.Acts P := by
  refine invariant (P := fun w : World ℓ δ σ ε α ι => ∀ thread ∈ w.threads, thread.program.Acts P)
    (fun w e acts => ?_) events start
  cases e with
  | arrive i =>
    intro thread mem
    rcases mem_append.1 mem with old | new
    · exact acts thread old
    · rw [mem_singleton.1 new]
      exact programs _ i
  | other change => exact acts
  | advance me answers =>
    simp only [World.step]
    cases found : w.threads[me]? with
    | none => exact acts
    | some thread =>
      intro thread' mem
      rcases mem_or_eq_of_mem_set mem with old | new
      · exact acts thread' old
      · have here := acts thread (mem_of_getElem? found)
        rw [new]
        unfold Thread.advance
        split
        · rename_i l act next same
          rw [same] at here
          exact here.2 w.state (answers l)
        · exact here

/-- The event meets what the discipline assumes of answers, and `changes` what
is assumed of the environment. -/
def Admitted (D : Discipline ℓ δ σ) (changes : σ → κ → Prop) (w : World ℓ δ σ ε α ι) : Event ℓ δ ι κ → Prop
  | .arrive _ => True
  | .advance me answers => ∀ thread, w.threads[me]? = some thread → ∀ l act next,
      thread.program = .step l act next → D.admits l w.state (answers l)
  | .other change => changes w.state change

instance {D : Discipline ℓ δ σ} {changes : σ → κ → Prop} [∀ l s d, Decidable (D.admits l s d)]
    [∀ s k, Decidable (changes s k)] (w : World ℓ δ σ ε α ι) : ∀ e, Decidable (Admitted D changes w e)
  | .arrive _ => isTrue trivial
  | .other change => inferInstanceAs (Decidable (changes w.state change))
  | .advance me answers =>
    match found : w.threads[me]? with
    | none => isTrue fun thread here => by rw [found] at here; cases here
    | some thread =>
      match program : thread.program with
      | .pure a => isTrue fun thread' here l act next is => by
          rw [found] at here
          cases here
          rw [program] at is
          cases is
      | .fail e => isTrue fun thread' here l act next is => by
          rw [found] at here
          cases here
          rw [program] at is
          cases is
      | .step l act next => decidable_of_iff (D.admits l w.state (answers l))
          ⟨fun admits thread' here l' act' next' is => by
            rw [found] at here
            cases here
            rw [program] at is
            cases is
            exact admits,
          fun admitted => admitted thread found l act next program⟩

variable {e : Event ℓ δ ι κ}

/-- What is known of every number, its thread and the shared state is kept by each
step: others take theirs, a thread starts, or it takes its own. -/
theorem World.keeps {D : Discipline ℓ δ σ} {changes : σ → κ → Prop}
    {K : Nat → Option (Thread ℓ δ σ ε α ι) → σ → Prop} (rely : ∀ me o s t, D.rely me s t → K me o s → K me o t)
    (arrive : ∀ me i s, D.inv s → K me none s → K me (some ⟨i, S.program me i, []⟩) s)
    (advance : ∀ me (thread : Thread ℓ δ σ ε α ι) s l act next, thread.program = .step l act next → D.inv s →
      K me (some thread) s → ∀ d, D.admits l s d → D.inv (act s d) ∧ D.guarantee me s (act s d) ∧
        K me (some ⟨thread.input, next s d, thread.history ++ [⟨l, d⟩]⟩) (act s d))
    (environment : ∀ s k, D.inv s → changes s k → D.inv (S.environment s k) ∧ ∀ me, D.rely me s (S.environment s k))
    (admitted : Admitted D changes w e)
    (holds : D.inv w.state ∧ ∀ me, K me w.threads[me]? w.state) :
    D.inv (w.step S e).state ∧ ∀ me, K me (w.step S e).threads[me]? (w.step S e).state := by
  obtain ⟨inv, known⟩ := holds
  cases e with
  | arrive i =>
    refine ⟨inv, fun me => ?_⟩
    have here := known me
    simp only [World.step, getElem?_append]
    split
    · exact here
    · rename_i outside
      rw [getElem?_eq_none (by omega)] at here
      rcases Nat.eq_or_lt_of_not_lt outside with rfl | after
      · simpa using arrive _ i _ inv here
      · rwa [getElem?_eq_none (by simp; omega)]
  | other change =>
    obtain ⟨inv', kept⟩ := environment w.state change inv admitted
    exact ⟨inv', fun me => rely _ _ _ _ (kept me) (known me)⟩
  | advance me answers =>
    cases found : w.threads[me]? with
    | none => simpa [World.step, found] using And.intro inv known
    | some thread =>
      obtain ⟨inside, at_⟩ := List.getElem?_eq_some_iff.1 found
      cases here : thread.program with
      | step l act next =>
        obtain ⟨inv', kept, rest⟩ := advance me thread _ l act next here inv (found ▸ known me) _
          (admitted thread found l act next here)
        simp only [World.step, found, Thread.advance, here]
        refine ⟨inv', fun other => ?_⟩
        by_cases same : me = other
        · rw [← same, getElem?_set_self inside]
          exact rest
        · rw [getElem?_set_ne same]
          exact rely _ _ _ _ (D.compatible _ _ _ _ same inv kept) (known other)
      | _ =>
        have same : w.threads.set me thread = w.threads := at_ ▸ set_getElem_self inside
        simpa [World.step, found, Thread.advance, here, same] using And.intro inv known

/-- `idle` is what holds for a number before its thread starts. -/
structure Contract (S : System ℓ δ σ ε α ι κ) (D : Discipline ℓ δ σ) (changes : σ → κ → Prop) where
  idle : Nat → σ → Prop
  during : Nat → ι → ℓ → History δ → σ → Prop
  ends : Nat → ι → Except ε α → History δ → σ → Prop
  idle_rely : ∀ me s t, D.rely me s t → idle me s → idle me t
  ends_rely : ∀ me i r h s t, D.rely me s t → ends me i r h s → ends me i r h t
  programs : ∀ me i s, D.inv s → idle me s → D.wp me (during me i) (ends me i) (S.program me i) [] s
  environment : ∀ s k, D.inv s → changes s k → D.inv (S.environment s k) ∧ ∀ me, D.rely me s (S.environment s k)

namespace Contract

variable {S : System ℓ δ σ ε α ι κ} {D : Discipline ℓ δ σ} {changes : σ → κ → Prop} (C : Contract S D changes)

/-- What the contract says of one number. -/
def HoldsAt (w : World ℓ δ σ ε α ι) (me : Nat) : Prop :=
  match w.threads[me]? with
  | none => C.idle me w.state
  | some thread => D.wp me (C.during me thread.input) (C.ends me thread.input) thread.program thread.history w.state

def Holds (w : World ℓ δ σ ε α ι) : Prop := D.inv w.state ∧ ∀ me, C.HoldsAt w me

variable {C} {w : World ℓ δ σ ε α ι} {me : Nat}

theorem Holds.thread (holds : C.Holds w) {thread : Thread ℓ δ σ ε α ι} (found : w.threads[me]? = some thread) :
    D.wp me (C.during me thread.input) (C.ends me thread.input) thread.program thread.history w.state := by
  have at_ := holds.2 me
  unfold HoldsAt at at_
  rwa [found] at at_

theorem Holds.idle (holds : C.Holds w) (absent : w.threads[me]? = none) : C.idle me w.state := by
  have at_ := holds.2 me
  unfold HoldsAt at at_
  rwa [absent] at at_

/-- What a thread's step does: its guarantee, and the contract of what is left. -/
theorem Holds.advance (holds : C.Holds w) {thread : Thread ℓ δ σ ε α ι} (found : w.threads[me]? = some thread)
    {act : σ → δ l → σ} {next : σ → δ l → Program ℓ δ σ ε α} (here : thread.program = .step l act next)
    {d : δ l} (admitted : D.admits l w.state d) :
    C.during me thread.input l thread.history w.state ∧ D.inv (act w.state d) ∧
      D.guarantee me w.state (act w.state d) ∧ D.wp me (C.during me thread.input) (C.ends me thread.input)
        (next w.state d) (thread.history ++ [⟨l, d⟩]) (act w.state d) := by
  have spec := holds.thread found
  rw [here] at spec
  obtain ⟨now, each⟩ := spec w.state holds.1 (D.refl _ _)
  exact ⟨now, each d admitted⟩

theorem Holds.step (holds : C.Holds w) (admitted : Admitted D changes w e) :
    C.Holds (w.step S e) := by
  refine World.keeps (K := fun me o s => match o with
    | none => C.idle me s
    | some thread => D.wp me (C.during me thread.input) (C.ends me thread.input) thread.program thread.history s)
    ?_ C.programs ?_ C.environment admitted holds
  · intro me o s t rely known
    cases o with
    | none => exact C.idle_rely me s t rely known
    | some thread => exact Discipline.wp_rely (C.ends_rely me thread.input) rely known
  · intro me thread s l act next here inv known d admits
    simp only [here] at known
    exact (known s inv (D.refl _ _)).2 d admits

variable {R : σ → σ → Prop} {events : List (Event ℓ δ ι κ)}

/-- What each step of a thread and each change does to the state. -/
theorem Holds.relates (refl : ∀ s, R s s) (steps : ∀ me s t, D.inv s → D.guarantee me s t → R s t)
    (others : ∀ s k, D.inv s → changes s k → R s (S.environment s k)) (holds : C.Holds w)
    (admitted : Admitted D changes w e) : R w.state (w.step S e).state := by
  cases e with
  | arrive i => exact refl _
  | other change => exact others w.state change holds.1 admitted
  | advance me answers =>
    simp only [World.step]
    cases found : w.threads[me]? with
    | none => exact refl _
    | some thread =>
      cases here : thread.program with
      | pure a | fail e => simpa [Thread.advance, here] using refl w.state
      | step l act next =>
        obtain ⟨-, -, kept, -⟩ := holds.advance found here (admitted thread found l act next here)
        simpa [Thread.advance, here] using steps me w.state _ holds.1 kept

/-- The contracts hold in every state of every interleaving. -/
theorem run (admitted : Along (World.step S) (Admitted D changes) w events) (start : C.Holds w) :
    C.Holds (events.foldl (World.step S) w) :=
  invariant_along (P := C.Holds) (fun _ _ ok holds => Holds.step holds ok) admitted start

/-- A relation that every step keeps holds between a moment and any later one. -/
theorem later (refl : ∀ s, R s s) (trans : ∀ r s t, R r s → R s t → R r t)
    (steps : ∀ me s t, D.inv s → D.guarantee me s t → R s t)
    (others : ∀ s k, D.inv s → changes s k → R s (S.environment s k))
    (admitted : Along (World.step S) (Admitted D changes) w events) (holds : C.Holds w) :
    R w.state (events.foldl (World.step S) w).state :=
  relates (R := fun w w' : World ℓ δ σ ε α ι => R w.state w'.state) (P := C.Holds) (fun w => refl w.state)
    (fun _ _ _ => trans _ _ _) (fun _ _ ok holds => holds.relates refl steps others ok) (fun _ _ ok holds => holds.step ok)
    admitted holds

theorem start {s : σ} (inv : D.inv s) (idle : ∀ me, C.idle me s) : C.Holds ⟨s, []⟩ :=
  ⟨inv, fun me => by simpa [HoldsAt] using idle me⟩

end Contract

/-- As a contract, with ends that are only claimed of the state in which a thread
ends: others may make them false later. -/
structure Outline (S : System ℓ δ σ ε α ι κ) (D : Discipline ℓ δ σ) (changes : σ → κ → Prop) where
  idle : Nat → σ → Prop
  ends : Nat → ι → Except ε α → σ → Prop
  idle_rely : ∀ me s t, D.rely me s t → idle me s → idle me t
  programs : ∀ me i s, D.inv s → idle me s →
    D.wp me (fun _ _ _ => True) (fun r _ => ends me i r) (S.program me i) [] s
  environment : ∀ s k, D.inv s → changes s k → D.inv (S.environment s k) ∧ ∀ me, D.rely me s (S.environment s k)

namespace Outline

variable {S : System ℓ δ σ ε α ι κ} {D : Discipline ℓ δ σ} {changes : σ → κ → Prop} (O : Outline S D changes)

/-- What the outline says of one number. -/
def HoldsAt (w : World ℓ δ σ ε α ι) (me : Nat) : Prop :=
  match w.threads[me]? with
  | none => O.idle me w.state
  | some thread => ¬ thread.program.Done →
    D.wp me (fun _ _ _ => True) (fun r _ => O.ends me thread.input r) thread.program thread.history w.state

def Holds (w : World ℓ δ σ ε α ι) : Prop := D.inv w.state ∧ ∀ me, O.HoldsAt w me

variable {O} {w : World ℓ δ σ ε α ι}

section
variable (holds : O.Holds w)
include holds

variable {me : Nat}

theorem Holds.thread {thread : Thread ℓ δ σ ε α ι} (found : w.threads[me]? = some thread)
    (runs : ¬ thread.program.Done) :
    D.wp me (fun _ _ _ => True) (fun r _ => O.ends me thread.input r) thread.program thread.history w.state := by
  have at_ := holds.2 me
  unfold HoldsAt at at_
  rw [found] at at_
  exact at_ runs

theorem Holds.idle (absent : w.threads[me]? = none) : O.idle me w.state := by
  have at_ := holds.2 me
  unfold HoldsAt at at_
  rwa [absent] at at_

/-- What a thread's step does, and what is left of it. -/
theorem Holds.advance {thread : Thread ℓ δ σ ε α ι} (found : w.threads[me]? = some thread)
    {act : σ → δ l → σ} {next : σ → δ l → Program ℓ δ σ ε α} (here : thread.program = .step l act next) {d : δ l}
    (admitted : D.admits l w.state d) : D.inv (act w.state d) ∧ D.guarantee me w.state (act w.state d) ∧
      D.wp me (fun _ _ _ => True) (fun r _ => O.ends me thread.input r) (next w.state d) (thread.history ++ [⟨l, d⟩])
        (act w.state d) := by
  have spec := holds.thread found (by rw [here]; exact id)
  rw [here] at spec
  obtain ⟨-, each⟩ := spec w.state holds.1 (D.refl _ _)
  exact each d admitted

theorem Holds.program (i : ι) : D.wp w.threads.length (fun _ _ _ => True)
    (fun r _ => O.ends w.threads.length i r) (S.program w.threads.length i) [] w.state :=
  O.programs _ i _ holds.1 (holds.idle (getElem?_eq_none (Nat.le_refl _)))

theorem Holds.step (admitted : Admitted D changes w e) : O.Holds (w.step S e) := by
  refine World.keeps (K := fun me o s => match o with
    | none => O.idle me s
    | some thread => ¬ thread.program.Done →
      D.wp me (fun _ _ _ => True) (fun r _ => O.ends me thread.input r) thread.program thread.history s)
    ?_ (fun me i s inv idle _ => O.programs me i s inv idle) ?_ O.environment admitted holds
  · intro me o s t rely known
    cases o with
    | none => exact O.idle_rely me s t rely known
    | some thread => exact fun runs => Discipline.wp_rely_running runs rely (known runs)
  · intro me thread s l act next here inv known d admits
    simp only [here] at known
    obtain ⟨inv', kept, rest⟩ := (known id s inv (D.refl _ _)).2 d admits
    exact ⟨inv', kept, fun _ => rest⟩

/-- What a step of a thread did to the state, and what it ended with if it ended. -/
theorem Holds.moved {answers : ∀ l, δ l} (admitted : Admitted D changes w (.advance me answers))
    {thread : Thread ℓ δ σ ε α ι} (found : w.threads[me]? = some thread) (runs : ¬ thread.program.Done) :
    D.guarantee me w.state (thread.advance w.state answers).2 ∧
      ∀ r, (thread.advance w.state answers).1.program.result = some r →
        O.ends me thread.input r (thread.advance w.state answers).2 := by
  cases here : thread.program with
  | pure a | fail e => exact absurd (by rw [here]; trivial) runs
  | step l act next =>
    obtain ⟨-, kept, rest⟩ := holds.advance found here (admitted thread found l act next here)
    simp only [Thread.advance, here]
    exact ⟨kept, fun r ended => Discipline.wp_result ended rest⟩

/-- What a thread that ends at once ended with. -/
theorem Holds.arrived {i : ι}
    (ended : (S.program w.threads.length i).result = some r) : O.ends w.threads.length i r w.state :=
  Discipline.wp_result ended (holds.program i)

end

theorem start {s : σ} (inv : D.inv s) (idle : ∀ me, O.idle me s) : O.Holds ⟨s, []⟩ :=
  ⟨inv, fun me => by simpa [HoldsAt] using idle me⟩

end Outline

end Threads
