import Vimla.Lib.Runs

/-!
# Admission of semantic calls

`admitSemanticCall`: a transaction counts a call under the global key, then
under its actor's, each time in the minute in which the transaction started. It
holds the global row from its first statement on, so one transaction at a time
is between its statements.
-/

namespace Vimla.Semantic.Admission

open List Function

inductive Key
  | global
  | actor (userId : String)
  deriving DecidableEq

def Key.limit : Key → Nat
  | .global => 60
  | .actor _ => 10

/-- A row of `semantic_admission`. -/
structure Window where
  windowStart : Nat
  count : Nat

/-- The statement: what it writes in place of a row, unless its condition fails. -/
def upsert (limit minute : Nat) : Option Window → Option Window
  | none => some ⟨minute, 1⟩
  | some row =>
    if row.windowStart < minute ∨ row.count < limit then
      some ⟨minute, if row.windowStart < minute then 1 else row.count + 1⟩
    else none

/-- A call, with the minute in which its transaction started. -/
structure Call where
  actorUserId : String
  minute : Nat
  deriving DecidableEq

structure State where
  rows : Key → Option Window
  /-- The call that has written the global row and not committed. -/
  running : Option (Call × Window)
  /-- The calls that have returned. -/
  answers : List (Call × Bool)

/-- A statement that finds the row locked waits; a transaction may fail before it commits. -/
inductive Event
  | global (call : Call)
  | actor
  | fail

def State.answer (s : State) (call : Call) (admitted : Bool) : State :=
  { s with running := none, answers := s.answers ++ [(call, admitted)] }

def State.step (s : State) : Event → State
  | .global call =>
    match s.running, upsert Key.global.limit call.minute (s.rows .global) with
    | some _, _ => s
    | none, some row => { s with running := some (call, row) }
    | none, none => s.answer call false
  | .actor =>
    match s.running with
    | none => s
    | some (call, row) =>
      match upsert (Key.actor call.actorUserId).limit call.minute (s.rows (.actor call.actorUserId)) with
      | none => s.answer call false
      | some row' =>
        State.answer { s with rows := update (update s.rows .global (some row)) (.actor call.actorUserId) (some row') }
          call true
  | .fail => { s with running := none }

def State.start : State := ⟨fun _ => none, none, []⟩

def State.run (events : List Event) : State := events.foldl State.step .start

def Key.counts (key : Key) (minute : Nat) (answer : Call × Bool) : Bool :=
  answer.2 ∧ answer.1.minute = minute ∧ (key = .global ∨ key = .actor answer.1.actorUserId)

/-- The calls of one minute that were admitted, in total or of an actor. -/
def State.admitted (s : State) (key : Key) (minute : Nat) : Nat := s.answers.countP (key.counts minute)

/-- No transaction of a later minute has written the row. -/
def State.InOrder (s : State) (key : Key) (minute : Nat) : Prop := ∀ row, s.rows key = some row → row.windowStart ≤ minute

/-- The statement finds no row of a later minute. -/
def Timely (s : State) : Event → Prop
  | .global call => s.InOrder .global call.minute
  | .actor => ∀ call row, s.running = some (call, row) → s.InOrder (.actor call.actorUserId) call.minute
  | .fail => True

structure AdmissionHolds (s : State) : Prop where
  limited : ∀ key minute, s.admitted key minute ≤ key.limit
  /-- A call that the next step refuses, changing no counter. -/
  refused : ∀ e call, Timely s e → (s.step e).answers = s.answers ++ [(call, false)] → (s.step e).rows = s.rows ∧
    (s.admitted .global call.minute = 60 ∨ s.admitted (.actor call.actorUserId) call.minute = 10)

/-- The row counts the latest minute of the admitted calls. -/
structure Counted (limit : Nat) (row : Option Window) (admitted : Nat → Nat) : Prop where
  limited : ∀ minute, admitted minute ≤ limit
  fresh : row = none → ∀ minute, admitted minute = 0
  exact_ : ∀ w, row = some w → admitted w.windowStart = w.count
  later : ∀ w, row = some w → ∀ minute, w.windowStart < minute → admitted minute = 0

variable {limit minute : Nat} {row : Option Window} {admitted : Nat → Nat}

theorem Counted.count_call (h : Counted limit row admitted) (pos : 0 < limit) (timely : ∀ w, row = some w → w.windowStart ≤ minute)
    {w : Window} (writes : upsert limit minute row = some w) :
    Counted limit (some w) fun m => admitted m + if m = minute then 1 else 0 := by
  have now : w.windowStart = minute ∧ w.count = admitted minute + 1 ∧ admitted minute < limit ∧
      ∀ m, minute < m → admitted m = 0 := by
    cases row with
    | none =>
      cases writes
      simp [h.fresh rfl, pos]
    | some old =>
      have le := timely old rfl
      have exact_ := h.exact_ old rfl
      have later := h.later old rfl
      simp only [upsert] at writes
      split at writes <;> cases writes
      refine ⟨rfl, ?_, ?_, fun m lt => later m (by omega)⟩ <;> grind
  obtain ⟨is, count, lt, later⟩ := now
  refine ⟨fun m => ?_, nofun, ?_, ?_⟩
  · have := h.limited m
    split <;> grind
  · rintro _ ⟨⟩
    simp [is, count]
  · rintro _ ⟨⟩ m after
    have other : m ≠ minute := by omega
    simp [other, later m (is ▸ after)]

theorem Counted.refuse (h : Counted limit row admitted) (timely : ∀ w, row = some w → w.windowStart ≤ minute)
    (refuses : upsert limit minute row = none) : admitted minute = limit := by
  cases row with
  | none => cases refuses
  | some old =>
    have le := timely old rfl
    have exact_ := h.exact_ old rfl
    have most := h.limited minute
    simp only [upsert] at refuses
    split at refuses
    · cases refuses
    · have same : old.windowStart = minute := by omega
      rw [← same] at most ⊢
      omega

structure Sound (s : State) : Prop where
  counted : ∀ key, Counted key.limit (s.rows key) (s.admitted key)
  /-- What the transaction has written, it could still write. -/
  running : ∀ call row, s.running = some (call, row) →
    s.InOrder .global call.minute ∧ upsert Key.global.limit call.minute (s.rows .global) = some row

variable {s : State} {e : Event} {call : Call} {key : Key}

theorem Key.limit_pos (key : Key) : 0 < key.limit := by cases key <;> simp [Key.limit]

theorem admitted_answer (b : Bool) : (s.answer call b).admitted key minute =
    s.admitted key minute + if key.counts minute (call, b) then 1 else 0 := by
  simp [State.admitted, State.answer, countP_append, countP_cons]

theorem Sound.refuse (sound : Sound s) : Sound (s.answer call false) := by
  refine ⟨fun key => ?_, nofun⟩
  have same : (s.answer call false).admitted key = s.admitted key := by
    funext m
    simp [admitted_answer, Key.counts]
  rw [same]
  exact sound.counted key

theorem Sound.step (sound : Sound s) (timely : Timely s e) : Sound (s.step e) := by
  cases e with
  | fail => exact ⟨sound.counted, nofun⟩
  | global call =>
    simp only [State.step]
    split
    · exact sound
    · rename_i row idle writes
      refine ⟨sound.counted, ?_⟩
      rintro _ _ ⟨⟩
      exact ⟨timely, writes⟩
    · exact sound.refuse
  | actor =>
    simp only [State.step]
    split
    · exact sound
    rename_i call row running
    split
    · exact sound.refuse
    rename_i row' writes
    refine ⟨fun key => ?_, nofun⟩
    have own := timely call row running
    obtain ⟨order, wrote⟩ := sound.running call row running
    change Counted _ _ ((s.answer call true).admitted key)
    rw [show (s.answer call true).admitted key = _ from funext fun m => admitted_answer true]
    cases key with
    | global =>
      have counted := (sound.counted .global).count_call (Key.limit_pos _) order wrote
      simpa [State.answer, Key.counts, eq_comm, update, State.admitted] using counted
    | actor userId =>
      by_cases mine : userId = call.actorUserId
      · subst mine
        have counted := (sound.counted (.actor call.actorUserId)).count_call (Key.limit_pos _) own writes
        simpa [State.answer, Key.counts, eq_comm, State.admitted] using counted
      · have counted := sound.counted (.actor userId)
        simpa [State.answer, Key.counts, mine, update] using counted

theorem Sound.holds (sound : Sound s) : AdmissionHolds s := by
  refine ⟨fun key => (sound.counted key).limited, fun e call timely refused => ?_⟩
  cases e with
  | fail => simp [State.step] at refused
  | global other =>
    simp only [State.step] at refused ⊢
    split at refused <;> simp [State.answer] at refused
    rename_i refuses
    subst refused
    exact ⟨rfl, .inl ((sound.counted .global).refuse timely refuses)⟩
  | actor =>
    simp only [State.step] at refused ⊢
    split at refused
    · simp at refused
    rename_i other row running
    split at refused <;> simp [State.answer] at refused
    rename_i refuses
    subst refused
    exact ⟨rfl, .inr ((sound.counted (.actor _)).refuse (timely _ _ running) refuses)⟩

theorem admission_holds (events : List Event) (timely : Runs.Along State.step Timely .start events) :
    AdmissionHolds (.run events) :=
  (Runs.invariant_along (P := Sound) (fun _ _ timely sound => sound.step timely) timely
    ⟨fun _ => ⟨fun _ => Nat.zero_le _, fun _ _ => rfl, nofun, nofun⟩, nofun⟩).holds

def ana (minute : Nat) : Call := ⟨"ana", minute⟩

theorem admission_holds_once : AdmissionHolds (.run [.global (ana 1), .actor]) := by
  refine admission_holds _ ⟨nofun, ?_, trivial⟩
  rintro _ _ - _ ⟨⟩

/-- A delayed call of minute 1 sets both windows back, and the next of minute 2 starts them anew. -/
theorem window_set_back : ¬ ∀ events, AdmissionHolds (.run events) := by
  intro holds
  have most := (holds (([ana 2, ana 1] ++ replicate 10 (ana 2)).flatMap fun call => [.global call, .actor])).limited
    (.actor "ana") 2
  revert most
  decide

end Vimla.Semantic.Admission
