import Vimla.Sync.Cursors

/-!
# One run at a time, and no request lost

`requestSync` stores the promise of a run when `drain` has come to its first
`await`. A callback that `drain` makes before that can request a sync as well,
which begins a second run. Where none does, one run is in progress at a time, and
each request is followed by a pass.
-/

namespace Vimla.Sync

open Runs List SyncEngine

section Engine
variable {δ : Type} {options : SyncEngineOptions} {e : SyncEngine δ} {r : Nat}

def Point.Live (point : Point δ) : Prop := point ≠ .absent ∧ point ≠ .closed

/-- No sync is requested from within a callback that a run makes before its
promise is stored. -/
def Orderly (e : SyncEngine δ) (ev : Event δ) : Prop :=
  (ev = .requestSync ∨ ev = .begun ∧ 0 < e.starting) → e.stopped = false → ∀ r, e.runs r ≠ .entered

def AtMostOne (e : SyncEngine δ) : Prop := ∀ r s, (e.runs r).Live → (e.runs s).Live → r = s

/-- Whether a run is in progress, and which. -/
inductive Engaged (activeRun : Option Nat) (runs : Nat → Point δ) (resting : Prop) : Prop
  | idle (none : ∀ r, ¬ (runs r).Live) (active : activeRun = .none)
  | busy (r : Nat) (only : ∀ s, (runs s).Live ↔ s = r)
    (active : (runs r = .entered ∧ activeRun = none) ∨ (runs r ≠ .entered ∧ activeRun = some r))
    (rests : resting → runs r = .finished)

/-- The engine has given up, or waits for the timer. -/
def SyncEngine.Resting (e : SyncEngine δ) : Prop := e.currentState = .TERMINAL ∨ e.retryTimer ≠ none

structure Single (e : SyncEngine δ) : Prop where
  fresh : ∀ r, e.nextRun ≤ r → e.runs r = .absent
  engaged : Engaged e.activeRun e.runs e.Resting

variable {runs : Nat → Point δ}

theorem Engaged.rest {activeRun : Option Nat} {p q : Prop} (fewer : q → p)
    (h : Engaged activeRun runs p) : Engaged activeRun runs q := by
  obtain ⟨none, active⟩ | ⟨r, only, active, rests⟩ := h
  · exact .idle none active
  · exact .busy r only active fun held => rests (fewer held)

variable {point : Point δ}

section
variable (h : Single e)
include h

theorem Single.one : AtMostOne e := by
  intro r s liveR liveS
  obtain ⟨none, _⟩ | ⟨o, only, _, _⟩ := h.engaged
  · exact absurd liveR (none r)
  · rw [(only r).1 liveR, (only s).1 liveS]

theorem Single.live (active : e.activeRun = some r) : (e.runs r).Live := by
  obtain ⟨_, idle⟩ | ⟨o, only, holds, _⟩ := h.engaged
  · simp [idle] at active
  · obtain ⟨_, idle⟩ | ⟨_, holds⟩ := holds
    · simp [idle] at active
    · rw [holds] at active
      exact (only r).2 (Option.some.inj active).symm

theorem Single.active (live : (e.runs r).Live) (on : e.runs r ≠ .entered) :
    e.activeRun = some r := by
  obtain ⟨none, _⟩ | ⟨o, only, holds, _⟩ := h.engaged
  · exact absurd live (none r)
  · obtain rfl := (only r).1 live
    exact (holds.resolve_left fun entered => on entered.1).2

theorem Single.rests (live : (e.runs r).Live) (resting : e.Resting) :
    e.runs r = .finished := by
  obtain ⟨none, _⟩ | ⟨o, only, _, rests⟩ := h.engaged
  · exact absurd live (none r)
  · obtain rfl := (only r).1 live
    exact rests resting

/-- No run is in progress where no promise is stored and none is being entered. -/
theorem Single.idle (none : e.activeRun = none) (entered : ∀ r, e.runs r ≠ .entered) :
    ∀ r, ¬ (e.runs r).Live := by
  intro r live
  have active := h.active live (entered r)
  simp [none] at active

theorem live_known (live : (e.runs r).Live) : r < e.nextRun := by
  by_contra past
  exact live.1 (h.fresh r (by omega))

/-- The run in progress goes on. -/
theorem Single.go (live : (e.runs r).Live) {e' : SyncEngine δ}
    (runs : e'.runs = Function.update e.runs r point) (known : e'.nextRun = e.nextRun)
    (active : e'.activeRun = some r) (on : point.Live) (left : point ≠ .entered)
    (rests : e'.Resting → point = .finished) : Single e' := by
  have before := live_known h live
  constructor
  · intro s past
    rw [runs, Function.update_of_ne (by omega)]
    exact h.fresh s (by omega)
  · refine .busy r ?_ (.inr ⟨by simpa [runs] using left, active⟩) (by simpa [runs] using rests)
    intro s
    constructor
    · intro held
      by_contra other
      rw [runs, Function.update_of_ne other] at held
      exact other (h.one s r held live)
    · rintro rfl
      simpa [runs] using on

/-- The run in progress is closed. -/
theorem Single.close (live : (e.runs r).Live) :
    Single { e.place r .closed with activeRun := none } := by
  constructor
  · intro s past
    have before := live_known h live
    have other : s ≠ r := by
      rintro rfl
      exact absurd past (by simpa [place] using before)
    simp only [place, Function.update_of_ne other]
    exact h.fresh s past
  · refine .idle ?_ rfl
    intro s held
    by_cases same : s = r
    · subst same
      simp [place, Point.Live] at held
    · simp only [place, Function.update_of_ne same] at held
      exact same (h.one s r held live)

theorem Single.drain (idle : ∀ r, ¬ (e.runs r).Live) (none : e.activeRun = none)
    (untimed : e.retryTimer = .none) : Single e.drain := by
  constructor
  · intro s past
    have later : e.nextRun + 1 ≤ s := past
    simp only [SyncEngine.drain, SyncEngine.place]
    rw [Function.update_of_ne (by omega)]
    exact h.fresh s (by omega)
  · refine .busy e.nextRun ?_ (.inl ⟨by simp [SyncEngine.drain, SyncEngine.place], none⟩) ?_
    · intro s
      simp only [SyncEngine.drain, SyncEngine.place]
      by_cases same : s = e.nextRun
      · simp [same, Point.Live]
      · simp [same, idle s]
    · intro resting
      simp [SyncEngine.Resting, SyncEngine.drain, SyncEngine.place, untimed] at resting

theorem Single.requestSync (orderly : e.stopped = false → ∀ r, e.runs r ≠ .entered) :
    Single e.requestSync := by
  simp only [SyncEngine.requestSync]
  split
  · exact ⟨h.fresh, h.engaged⟩
  rename_i open_
  split
  · exact ⟨h.fresh, h.engaged⟩
  rename_i untimed
  split
  · exact ⟨h.fresh, h.engaged⟩
  · rename_i inactive
    have none : e.activeRun = none := not_not.1 inactive
    have marked : Single (e.mark .asked) := ⟨h.fresh, h.engaged⟩
    refine marked.drain (h.idle none (orderly ?_)) none (not_not.1 untimed)
    simpa using fun stopped => open_ (.inl stopped)

theorem Single.settle (live : (e.runs r).Live) (on : e.runs r ≠ .entered) :
    Single (e.settle r) := by
  have closed := h.close live
  simp only [SyncEngine.settle]
  split
  · refine closed.requestSync fun _ s entered => ?_
    by_cases same : s = r
    · subst same
      simp [place] at entered
    · simp only [place, Function.update_of_ne same] at entered
      refine same (h.one s r ?_ live)
      simp [Point.Live, entered]
  · exact closed

end

/-- A run goes on to another point, or is closed. -/
theorem next_moves (answer : Answer δ) (at_ : e.runs r ≠ .finished) (live : (e.runs r).Live) :
    let e' := e.next options r answer
    ∃ point, e'.runs = Function.update e.runs r point ∧ e'.nextRun = e.nextRun ∧ e'.stopped = e.stopped ∧
      (e.runs r = .entered → e'.activeRun = some r) ∧ (e.runs r ≠ .entered → e'.activeRun = e.activeRun) ∧
      point.Live ∧ point ≠ .entered ∧ (e'.Resting → e.Resting ∨ point = .finished) := by
  unfold SyncEngine.next
  cases known : e.runs r with
  | absent => exact absurd known live.1
  | closed => exact absurd known live.2
  | finished => exact absurd known at_
  | entered => exact ⟨_, rfl, rfl, rfl, fun _ => rfl, by simp, by simp [Point.Live], by simp, .inl⟩
  | again => exact ⟨_, rfl, rfl, rfl, by simp, fun _ => rfl, by simp [Point.Live], by simp, .inl⟩
  | reading | fetching | applying | writing | returned | failed | reported | clearing | looping | waiting =>
    simp only [fetch, advance, handleFailure, snapshot]
    repeat' split
    all_goals
      refine ⟨_, rfl, rfl, rfl, by simp, fun _ => rfl, by simp [Point.Live], by simp, ?_⟩
      simp +contextual [Resting, place, mark]

theorem Single.next (h : Single e) (answer : Answer δ) : Single (e.next options r answer) := by
  by_cases absent : e.runs r = .absent
  · simpa [SyncEngine.next, absent] using h
  by_cases closed : e.runs r = .closed
  · simpa [SyncEngine.next, closed] using h
  have live : (e.runs r).Live := ⟨absent, closed⟩
  by_cases finished : e.runs r = .finished
  · simpa [SyncEngine.next, finished] using h.settle live (by simp [finished])
  · obtain ⟨point, runs, known, _, first, kept, on, left, rests⟩ := next_moves answer finished live
    refine h.go live runs known ?_ on left ?_
    · by_cases entered : e.runs r = .entered
      · exact first entered
      · rw [kept entered, h.active live entered]
    · -- a run that has not come to its end leaves the engine neither given up nor waiting
      exact fun resting => (rests resting).resolve_left fun rest => finished (h.rests live rest)

/-- No run is being entered where the timer is set. -/
theorem Single.timed (h : Single e) (timer : e.retryTimer ≠ none) (r : Nat) : e.runs r ≠ .entered := by
  intro entered
  have finished := h.rests (r := r) (by simp [Point.Live, entered]) (.inr timer)
  simp [entered] at finished

theorem Single.step (ev : Event δ) (orderly : Orderly e ev) (h : Single e) : Single (e.step options ev) := by
  cases ev with
  | start =>
    simp only [SyncEngine.step]
    split
    · exact ⟨h.fresh, h.engaged.rest fun rest => rest.imp_left (by simp)⟩
    · exact h
  | stop =>
    refine ⟨h.fresh, h.engaged.rest fun rest => ?_⟩
    simp [SyncEngine.Resting, SyncEngine.step, SyncEngine.stop] at rest
  | requestSync => exact h.requestSync (orderly (.inl rfl))
  | begun =>
    simp only [SyncEngine.step]
    split
    · rename_i starting
      have begun : Single { e with starting := e.starting - 1 } := ⟨h.fresh, h.engaged⟩
      exact begun.requestSync (orderly (.inr ⟨rfl, starting⟩))
    · exact h
  | timer =>
    simp only [SyncEngine.step]
    split
    · rename_i timer
      have fired : Single { e with retryTimer := none } :=
        ⟨h.fresh, h.engaged.rest fun rest => rest.imp_right (by simp)⟩
      exact fired.requestSync fun _ => h.timed timer
    · exact h
  | next r answer => exact h.next answer

theorem single_start (stored : Option String) : Single ({ stored } : SyncEngine δ) :=
  ⟨fun _ _ => rfl, .idle (by simp [Point.Live]) rfl⟩

/-- A sync that is requested while a run is being entered begins a second run. -/
theorem two_runs (h : Single e) (opened : e.stopped = false) (entered : e.runs r = .entered) :
    ¬ AtMostOne e.requestSync := by
  intro one
  have live : (e.runs r).Live := by simp [Point.Live, entered]
  have awake : ¬ e.Resting := fun rest => by simp [h.rests live rest] at entered
  have before := live_known h live
  have inactive : e.activeRun = none := by
    obtain ⟨_, idle⟩ | ⟨o, only, ⟨_, idle⟩ | ⟨left, _⟩, _⟩ := h.engaged
    · exact idle
    · exact idle
    · obtain rfl := (only r).1 live
      exact absurd entered left
  have drained : e.requestSync = (e.mark .asked).drain := by
    simp only [Resting, not_or, not_not] at awake
    simp [requestSync, opened, awake, inactive]
  have same := one r e.nextRun
  rw [drained] at same
  simp only [drain, mark, place, Function.update_self] at same
  rw [Function.update_of_ne (by omega)] at same
  have := same live (by simp [Point.Live])
  omega

/-- One run at a time, exactly where no sync is requested from within a callback
of a run that is being entered. -/
theorem one_run_iff (evs : List (Event δ)) (h : Single e) :
    (∀ past, past <+: evs → AtMostOne (past.foldl (step options) e)) ↔
      Along (step options) Orderly e evs := by
  induction evs generalizing e with
  | nil => simpa [Along] using h.one
  | cons ev evs ih =>
    constructor
    · intro one
      have orderly : Orderly e ev := by
        intro requests opened r entered
        have twice := one [ev] (prefix_cons_iff.2 (.inr ⟨[], rfl, nil_prefix⟩))
        obtain rfl | ⟨rfl, starting⟩ := requests
        · exact two_runs h opened entered twice
        · simp only [foldl, step, starting, if_true] at twice
          have begun : Single { e with starting := e.starting - 1 } := ⟨h.fresh, h.engaged⟩
          exact two_runs begun opened entered twice
      refine ⟨orderly, (ih (h.step ev orderly)).1 ?_⟩
      intro past begins
      exact one (ev :: past) (prefix_cons_inj ev |>.2 begins)
    · rintro ⟨orderly, rest⟩ past begins
      obtain rfl | ⟨past, rfl, begun⟩ := prefix_cons_iff.1 begins
      · exact h.one
      · exact (ih (h.step ev orderly)).2 rest past begun

/-- The last request is followed by a pass that began after it and came to its end. -/
def Served (history : List (Mark δ)) : Prop :=
  ∀ before after, history = before ++ .asked :: after → .asked ∉ after →
    ∃ pass, [.began pass, .completed pass].Sublist after

/-- The pass began after the last request. -/
def Covers (pass : Nat) (history : List (Mark δ)) : Prop :=
  ∃ before after, history = before ++ .began pass :: after ∧ .asked ∉ after

/-- What a run is still to serve the last request with. -/
def Pursues (history : List (Mark δ)) : Point δ → Prop
  | .entered | .again | .failed _ | .reported _ _ | .clearing | .waiting => True
  | .reading pass _ | .fetching pass _ _ | .applying pass _ _ _ | .writing pass _ _ | .returned pass true =>
    Covers pass history
  | _ => False

def SyncEngine.Serving (e : SyncEngine δ) : Prop :=
  e.stopped = false ∧ e.currentState ≠ .TERMINAL ∧ e.retryTimer = none ∧ e.starting = 0

def Owed (history : List (Mark δ)) (queued : Bool) (runs : Nat → Point δ) : Prop :=
  Served history ∨ queued = true ∨ ∃ r, Pursues history (runs r)

structure Pending (e : SyncEngine δ) : Prop where
  owed : e.Serving → Owed e.history e.queued e.runs
  queued : e.Serving → e.queued = true → ∃ r, (e.runs r).Live

section Histories
variable {history : List (Mark δ)} {m : Mark δ} {pass : Nat}

theorem Served.append (h : Served history) (quiet : m ≠ .asked) : Served (history ++ [m]) := by
  intro before after split unasked
  obtain rfl | ⟨after, x, rfl⟩ := eq_nil_or_concat' after
  · exact absurd (singleton_inj.1 (append_inj' split rfl).2) quiet
  · rw [← cons_append, ← append_assoc] at split
    obtain ⟨pass, listed⟩ := h before after (append_inj' split rfl).1 fun mem => unasked (by simp [mem])
    exact ⟨pass, listed.trans (sublist_append_left after [x])⟩

theorem Covers.append (h : Covers pass history) (quiet : m ≠ .asked) : Covers pass (history ++ [m]) := by
  obtain ⟨before, after, rfl, unasked⟩ := h
  exact ⟨before, after ++ [m], by simp, by simp [unasked, quiet.symm]⟩

theorem Covers.before (h : Covers pass (history ++ [m])) (other : m ≠ .began pass) : Covers pass history := by
  obtain ⟨since, after, split, unasked⟩ := h
  obtain rfl | ⟨after, x, rfl⟩ := eq_nil_or_concat' after
  · exact absurd (singleton_inj.1 (append_inj' split rfl).2) other
  · rw [← cons_append, ← append_assoc] at split
    exact ⟨since, after, (append_inj' split rfl).1, fun mem => unasked (by simp [mem])⟩

theorem covers_began : Covers pass (history ++ [.began pass]) := ⟨history, [], rfl, by simp⟩

theorem Covers.completed (h : Covers pass history) : Served (history ++ [.completed pass]) := by
  obtain ⟨since, rest, rfl, quiet⟩ := h
  intro before after split unasked
  refine ⟨pass, ?_⟩
  obtain rfl | ⟨after, x, rfl⟩ := eq_nil_or_concat' after
  · have last := singleton_inj.1 (append_inj' split rfl).2
    simp at last
  · rw [← cons_append, ← append_assoc] at split
    obtain ⟨same, last⟩ := append_inj' split rfl
    obtain rfl := singleton_inj.1 last
    have began : Mark.began pass ∈ after := by
      obtain ⟨more, _, cut⟩ | ⟨more, _, cut⟩ := append_eq_append_iff.1 same
      · obtain _ | ⟨x, more⟩ := more <;> simp at cut
        exact absurd (by simp [cut.2]) quiet
      · obtain _ | ⟨x, more⟩ := more <;> simp at cut
        simp [cut.2]
    exact (singleton_sublist.2 began).append (List.Sublist.refl [Mark.completed pass])

theorem Pursues.append (h : Pursues history point) (quiet : m ≠ .asked) :
    Pursues (history ++ [m]) point := by
  cases point with
  | reading | fetching | applying | writing => exact Covers.append h quiet
  | returned pass whole =>
    cases whole with
    | true => exact Covers.append h quiet
    | false => exact h
  | _ => exact h

variable {queued : Bool} {runs : Nat → Point δ}

theorem Owed.append (h : Owed history queued runs) (quiet : m ≠ .asked) : Owed (history ++ [m]) queued runs := by
  obtain served | queued | ⟨r, pursues⟩ := h
  · exact .inl (served.append quiet)
  · exact .inr (.inl queued)
  · exact .inr (.inr ⟨r, pursues.append quiet⟩)

/-- A run goes on to a point that serves the request as well, or has served it. -/
theorem Owed.place (h : Owed history queued runs)
    (goes : Pursues history (runs r) → Served history ∨ Pursues history point) :
    Owed history queued (Function.update runs r point) := by
  obtain served | queued | ⟨o, pursues⟩ := h
  · exact .inl served
  · exact .inr (.inl queued)
  · by_cases same : o = r
    · subst same
      obtain served | pursues := goes pursues
      · exact .inl served
      · exact .inr (.inr ⟨o, by simpa using pursues⟩)
    · exact .inr (.inr ⟨o, by simpa [Function.update_of_ne same] using pursues⟩)

theorem owed_pursued (pursues : Pursues history point) :
    Owed history queued (Function.update runs r point) := .inr (.inr ⟨r, by simpa using pursues⟩)

theorem live_placed (live : point.Live) : ∃ o, (Function.update runs r point o).Live :=
  ⟨r, by simpa using live⟩

end Histories

theorem Pending.requestSync (h : Single e) : Pending e.requestSync := by
  simp only [SyncEngine.requestSync]
  split
  · rename_i refused
    refine ⟨fun serving => ?_, fun serving => ?_⟩
    all_goals
      obtain ⟨opened, awake, _⟩ := serving
      simp only [mark] at opened awake
      simp [opened, awake] at refused
  split
  · rename_i timer
    exact ⟨fun serving => absurd serving.2.2.1 timer, fun serving => absurd serving.2.2.1 timer⟩
  split
  · rename_i active
    obtain ⟨r, active⟩ := Option.ne_none_iff_exists'.1 active
    exact ⟨fun _ => .inr (.inl rfl), fun _ _ => ⟨r, h.live active⟩⟩
  · exact ⟨fun _ => owed_pursued trivial, fun _ _ => live_placed (by simp [Point.Live])⟩

theorem Pending.settle (h : Single e) (live : (e.runs r).Live) (at_ : e.runs r = .finished)
    (pending : Pending e) : Pending (e.settle r) := by
  simp only [SyncEngine.settle]
  split
  · exact Pending.requestSync (h.close live)
  · rename_i quiet
    have unqueued : e.Serving → e.queued = false := by
      intro serving
      by_contra queued
      exact quiet ⟨by simpa using queued, by simp [serving.1], serving.2.1, serving.2.2.1⟩
    refine ⟨fun serving => ?_, fun serving queued => ?_⟩
    · exact (pending.owed serving).place (by simp [at_, Pursues])
    · simp [unqueued serving, place] at queued

theorem Pursues.live {history : List (Mark δ)} (h : Pursues history point) : point.Live := by
  constructor
  all_goals
    rintro rfl
    exact h

section Moves
variable {e' : SyncEngine δ} {point : Point δ}

theorem pending_stopped (stopped : e'.stopped = true) : Pending e' :=
  ⟨fun serving => absurd serving.1 (by simp [stopped]), fun serving => absurd serving.1 (by simp [stopped])⟩

theorem pending_pursued (placed : e'.runs = Function.update runs r point)
    (pursues : Pursues e'.history point) : Pending e' := by
  refine ⟨fun _ => ?_, fun _ _ => ?_⟩
  · rw [placed]
    exact owed_pursued pursues
  · rw [placed]
    exact live_placed pursues.live

theorem Pending.go (owed : e'.Serving → Owed e'.history e'.queued runs)
    (placed : e'.runs = Function.update runs r point) (live : point.Live)
    (goes : Pursues e'.history (runs r) → Served e'.history ∨ Pursues e'.history point) : Pending e' := by
  refine ⟨fun serving => ?_, fun _ _ => ?_⟩
  · rw [placed]
    exact (owed serving).place goes
  · rw [placed]
    exact live_placed live

end Moves

variable {pass : Nat} {reset : Bool}

theorem Pending.fetch (pending : Pending e) (cursor : Option String)
    (at_ : ∀ history, Pursues history (e.runs r) → Covers pass history) : Pending (e.fetch r pass reset cursor) := by
  simp only [SyncEngine.fetch]
  split
  · rename_i stopped
    exact pending_stopped stopped
  · exact .go pending.owed rfl (by simp [Point.Live]) fun held => .inr (at_ _ held)

theorem Pending.advance (pending : Pending e) (cursor : Option String) (response : SyncResponse δ)
    (at_ : ∀ history, Pursues history (e.runs r) → Covers pass history) :
    Pending (e.advance r pass reset cursor response) := by
  simp only [SyncEngine.advance]
  split
  · exact pending_pursued rfl trivial
  · exact .go (fun serving => (pending.owed serving).append (by simp)) rfl (by simp [Point.Live])
      fun held => .inr (at_ _ held)

theorem Pending.mark (pending : Pending e) {m : Mark δ} (quiet : m ≠ .asked) : Pending (e.mark m) :=
  ⟨fun serving => (pending.owed serving).append quiet, pending.queued⟩

/-- The next point of a run serves the request as well, or has served it. -/
theorem Pending.next (h : Single e) (pending : Pending e) (answer : Answer δ) :
    Pending (e.next options r answer) := by
  unfold SyncEngine.next
  cases at_ : e.runs r with
  | absent | closed => exact pending
  | finished => exact pending.settle h (by simp [Point.Live, at_]) at_
  | entered | again => exact pending_pursued rfl covers_began
  | reading pass reset =>
    have covers : ∀ history, Pursues history (e.runs r) → Covers pass history := fun _ held => by rwa [at_] at held
    dsimp only
    split
    · exact pending.fetch e.stored covers
    · exact pending_pursued rfl trivial
  | fetching pass reset cursor =>
    have covers : ∀ history, Pursues history (e.runs r) → Covers pass history := fun _ held => by rwa [at_] at held
    dsimp only
    split
    · exact pending_pursued rfl trivial
    split
    · rename_i stopped
      exact pending_stopped stopped
    split
    · exact .go pending.owed rfl (by simp [Point.Live]) fun held => .inr (covers _ held)
    · exact pending.advance cursor _ covers
  | applying pass reset cursor response =>
    have covers : ∀ history, Pursues history (e.runs r) → Covers pass history := fun _ held => by rwa [at_] at held
    dsimp only
    split
    · exact pending_pursued rfl trivial
    split
    · rename_i stopped
      exact pending_stopped stopped
    · exact (pending.mark (m := .applied response) (by simp)).advance cursor response covers
  | writing pass reset response =>
    have covers : ∀ history, Pursues history (e.runs r) → Covers pass history := fun _ held => by rwa [at_] at held
    have keep : ∀ stored, Pending { e with stored } := fun _ => ⟨pending.owed, pending.queued⟩
    dsimp only
    split
    · split <;> exact pending_pursued rfl trivial
    split
    · split <;> exact .go pending.owed rfl (by simp [Point.Live]) fun held => .inr (covers _ held)
    · split
      · exact (keep _).fetch (some response.nextCursor) covers
      · exact pending.fetch (some response.nextCursor) covers
  | returned pass whole =>
    have awake : ¬ e.Resting := fun rest => by
      simpa [at_] using h.rests (r := r) (by simp [Point.Live, at_]) rest
    have owed : e.stopped = false → e.retryTimer = none → e.starting = 0 → Owed e.history e.queued e.runs :=
      fun opened timer starting => pending.owed ⟨opened, fun terminal => awake (.inl terminal), timer, starting⟩
    cases whole with
    | true =>
      have completed : Pursues (e.history ++ [.completed pass]) (e.runs r) →
          Served (e.history ++ [.completed pass]) := fun held => by
        rw [at_] at held
        exact (Covers.before held (by simp)).completed
      exact .go (fun serving => (owed serving.1 serving.2.2.1 serving.2.2.2).append (by simp)) rfl
        (by simp [Point.Live]) fun held => .inl (completed held)
    | false =>
      exact .go (fun serving => owed serving.1 serving.2.2.1 serving.2.2.2) rfl (by simp [Point.Live]) fun held => by
        rw [at_] at held
        exact absurd held id
  | failed reset =>
    dsimp only
    split
    · rename_i stopped
      exact pending_stopped stopped
    · exact pending_pursued rfl trivial
  | reported reset kind =>
    simp only [handleFailure]
    split
    · exact pending_pursued rfl trivial
    split
    · exact ⟨fun serving => absurd rfl serving.2.1, fun serving => absurd rfl serving.2.1⟩
    · exact pending_pursued rfl trivial
  | clearing =>
    simp only
    split
    · split <;> exact pending_pursued rfl covers_began
    · split <;> exact pending_pursued rfl trivial
  | looping =>
    dsimp only
    split
    · exact pending_pursued rfl trivial
    · exact .go pending.owed rfl (by simp [Point.Live]) fun held => by
        rw [at_] at held
        exact absurd held id
  | waiting =>
    have timed : ∀ e' : SyncEngine δ, e'.retryTimer ≠ none → Pending e' := fun _ timer =>
      ⟨fun serving => absurd serving.2.2.1 timer, fun serving => absurd serving.2.2.1 timer⟩
    exact timed _ (by simp)

theorem Pending.step (h : Single e) (pending : Pending e) (ev : Event δ) : Pending (e.step options ev) := by
  cases ev with
  | start =>
    simp only [SyncEngine.step]
    split
    · have starts : ∀ e' : SyncEngine δ, e'.starting = e.starting + 1 → Pending e' := fun e' starting =>
        ⟨fun serving => absurd serving.2.2.2 (by simp [starting]),
          fun serving => absurd serving.2.2.2 (by simp [starting])⟩
      exact starts _ rfl
    · exact pending
  | stop => exact pending_stopped rfl
  | requestSync => exact Pending.requestSync h
  | begun =>
    simp only [SyncEngine.step]
    split
    · have begun : Single { e with starting := e.starting - 1 } := ⟨h.fresh, h.engaged⟩
      exact Pending.requestSync begun
    · exact pending
  | timer =>
    simp only [SyncEngine.step]
    split
    · have fired : Single { e with retryTimer := none } :=
        ⟨h.fresh, h.engaged.rest fun rest => rest.imp_right (by simp)⟩
      exact Pending.requestSync fired
    · exact pending
  | next r answer => exact pending.next h answer

/-- The engine is neither stopped nor has it given up, and nothing goes on in it. -/
def SyncEngine.Quiescent (e : SyncEngine δ) : Prop := e.Serving ∧ ∀ r, ¬ (e.runs r).Live

theorem Pending.served (pending : Pending e) (quiescent : e.Quiescent) : Served e.history := by
  obtain ⟨serving, idle⟩ := quiescent
  obtain served | queued | ⟨r, pursues⟩ := pending.owed serving
  · exact served
  · obtain ⟨r, live⟩ := pending.queued serving queued
    exact absurd live (idle r)
  · exact absurd pursues.live (idle r)

theorem appliedFirst_start : AppliedFirst ([] : List (Mark δ)) := by
  intro before response after split
  simp at split

theorem orderly_runs {stored : Option String} {evs : List (Event δ)}
    (orderly : Along (step options) Orderly { stored } evs) :
    let last := evs.foldl (step options) { stored }
    Single last ∧ Pending last :=
  invariant_along (P := fun e : SyncEngine δ => Single e ∧ Pending e)
    (fun _ ev orderly held => ⟨held.1.step ev orderly, held.2.step held.1 ev⟩) orderly
    ⟨single_start stored, pending_stopped rfl⟩

/-- Over every run a cursor is written after its page is applied, and the stored
cursor leaves no delta of a faithful source out. One run at a time is in progress
exactly where no sync is requested while a run is being entered, and then no
request is lost. -/
theorem sync_runs (options : SyncEngineOptions) (stored : Option String) (evs : List (Event δ)) :
    let first : SyncEngine δ := { stored }
    let step := step options
    let last := evs.foldl step first
    AppliedFirst last.history ∧
    (∀ stream : Stream δ, Along step stream.Serves first evs → Caught stream stored last.history last.stored) ∧
    ((∀ past, past <+: evs → AtMostOne (past.foldl step first)) ↔ Along step Orderly first evs) ∧
    (Along step Orderly first evs → last.Quiescent → Served last.history) := by
  refine ⟨?_, ?_, one_run_iff evs (single_start stored), ?_⟩
  · exact invariant (P := fun e : SyncEngine δ => AppliedFirst e.history) (fun e ev held => held.step ev) evs
      appliedFirst_start
  · intro stream serves
    exact (invariant_along (P := fun e : SyncEngine δ => Tracking stream stored e.history e.stored e.runs)
      (fun e ev serves held => held.step ev serves) serves ⟨fun _ earlier => .inr (.inl earlier), fun _ => trivial⟩).stored
  · intro orderly quiescent
    exact (orderly_runs orderly).2.served quiescent

end Engine

/-- A run that reads one page, from a source of one delta. -/
def onePage : List (Event Nat) :=
  [.start, .begun, .next 0 {}, .next 0 {}, .next 0 { response := some ⟨[0], "a", false⟩ }, .next 0 {}, .next 0 {},
    .next 0 {}, .next 0 {}, .next 0 {}]

def oneDelta : Stream Nat := ⟨id, fun cursor => if cursor = none then 0 else 1⟩

theorem sync_runs_one_page :
    let last := onePage.foldl (step {}) { stored := none }
    last.stored = some "a" ∧ Caught oneDelta none last.history last.stored ∧ Served last.history ∧
      ∀ past, past <+: onePage → AtMostOne (past.foldl (step {}) { stored := none }) := by
  have silent : ∀ e ev, (∀ r answer, ev = .next r answer → answer.response = none) → oneDelta.Serves e ev := by
    intro e ev silent r answer pass reset cursor response same _ answered
    simp [silent r answer same] at answered
  have serves : Along (step {}) oneDelta.Serves { stored := none } onePage := by
    refine ⟨silent _ _ (by simp), silent _ _ (by simp), silent _ _ (by simp), silent _ _ (by simp), ?_,
      silent _ _ (by simp), silent _ _ (by simp), silent _ _ (by simp), silent _ _ (by simp), silent _ _ (by simp),
      trivial⟩
    rintro r answer pass reset cursor response ⟨⟩ at_ ⟨⟩
    obtain ⟨⟩ : Point.fetching 0 false none = .fetching pass reset cursor := at_
    rfl
  have orderly : Along (step {}) Orderly { stored := none } onePage := by
    simp [Along, Orderly, onePage, step]
  obtain ⟨_, caught, one, served⟩ := sync_runs {} none onePage
  refine ⟨rfl, caught oneDelta serves, served orderly ⟨⟨rfl, by decide, rfl, rfl⟩, fun r => ?_⟩, one.2 orderly⟩
  by_cases first : r = 0
  · subst first
    exact fun live => live.2 rfl
  · exact fun live => live.1 ((orderly_runs orderly).1.fresh r (Nat.one_le_iff_ne_zero.2 first))

/-- A callback that requests a sync on the report of `SYNCING`: two runs read the
same page. -/
theorem second_run_entered :
    let last : SyncEngine Nat := [.start, .begun, .requestSync, .next 1 {}, .next 0 {}, .next 1 {}, .next 0 {}].foldl
      (step {}) { stored := none }
    last.runs 0 = .fetching 1 false none ∧ last.runs 1 = .fetching 0 false none ∧ ¬ AtMostOne last := by
  refine ⟨rfl, rfl, fun one => ?_⟩
  have same := one 0 1 ⟨by decide, by decide⟩ ⟨by decide, by decide⟩
  simp at same

end Vimla.Sync
