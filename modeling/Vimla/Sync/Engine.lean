import Mathlib

/-!
# The sync engine

`SyncEngine` of `sync-engine.ts`. Its methods and continuations go on in pieces,
from one `await` or callback to the next; in between anything may happen, calls
from within a callback included. A run is a call of `drain`.
-/

namespace Vimla.Sync

inductive SyncEngineState | STOPPED | IDLE | SYNCING | RETRY_WAIT | TERMINAL
  deriving DecidableEq

inductive SyncFailureKind | CURSOR_STALE | RETRY | TERMINAL
  deriving DecidableEq

structure SyncResponse (δ : Type) where
  deltas : List δ
  nextCursor : String
  hasMore : Bool
  deriving DecidableEq

structure SyncEngineOptions where
  retryBaseMs : Nat := 500
  retryMaxMs : Nat := 10000

def retryDelay (attempt baseMs maxMs : Nat) : Nat := min maxMs (baseMs * 2 ^ min attempt 8)

/-- Where a run is. `pass` numbers the calls of `syncSnapshot`, and `reset` says
that it is the one after the cursor was cleared. -/
inductive Point (δ : Type)
  | absent
  /-- `SYNCING` is reported, and the promise of the run is not stored yet. -/
  | entered
  | again
  | reading (pass : Nat) (reset : Bool)
  | fetching (pass : Nat) (reset : Bool) (cursor : Option String)
  | applying (pass : Nat) (reset : Bool) (cursor : Option String) (response : SyncResponse δ)
  | writing (pass : Nat) (reset : Bool) (response : SyncResponse δ)
  /-- `syncSnapshot` has returned, after the last page or because it was stopped. -/
  | returned (pass : Nat) (whole : Bool)
  | failed (reset : Bool)
  | reported (reset : Bool) (kind : SyncFailureKind)
  | clearing
  | looping
  /-- `RETRY_WAIT` is reported, and the timer not set yet. -/
  | waiting
  | finished
  | closed
  deriving DecidableEq

inductive Mark (δ : Type)
  | asked
  | began (pass : Nat)
  | completed (pass : Nat)
  | applied (response : SyncResponse δ)
  | wrote (response : SyncResponse δ)

structure SyncEngine (δ : Type) where
  currentState : SyncEngineState := .STOPPED
  stopped : Bool := true
  queued : Bool := false
  activeRun : Option Nat := none
  /-- The delay of the timer that is set. -/
  retryTimer : Option Nat := none
  retryAttempt : Nat := 0
  /-- Calls of `start` that have reported `IDLE` and not requested a sync yet. -/
  starting : Nat := 0
  runs : Nat → Point δ := fun _ => .absent
  nextRun : Nat := 0
  passes : Nat := 0
  stored : Option String
  history : List (Mark δ) := []

/-- What an awaited call comes back with. `done` says whether a write or clear of
the cursor store has taken place, also where it rejects. -/
structure Answer (δ : Type) where
  ok : Bool := true
  done : Bool := true
  response : Option (SyncResponse δ) := none
  kind : SyncFailureKind := .RETRY

inductive Event (δ : Type)
  | start
  | begun
  | stop
  | requestSync
  | timer
  | next (run : Nat) (answer : Answer δ)

namespace SyncEngine
variable {δ : Type} (options : SyncEngineOptions) (e : SyncEngine δ) (r : Nat)

def place (point : Point δ) : SyncEngine δ := { e with runs := Function.update e.runs r point }

def mark (m : Mark δ) : SyncEngine δ := { e with history := e.history ++ [m] }

/-- The first turn of the loop of `drain`, up to the report of `SYNCING`. -/
def drain : SyncEngine δ :=
  { e.place e.nextRun .entered with nextRun := e.nextRun + 1, queued := false, currentState := .SYNCING }

def requestSync : SyncEngine δ :=
  let asked := e.mark .asked
  if e.stopped ∨ e.currentState = .TERMINAL then asked
  else if e.retryTimer ≠ none then { asked with queued := true }
  else if e.activeRun ≠ none then { asked with queued := true }
  else asked.drain

def stop : SyncEngine δ :=
  { e with stopped := true, queued := false, retryTimer := none, currentState := .STOPPED }

/-- `syncSnapshot` is called. -/
def snapshot (reset : Bool) : SyncEngine δ :=
  { (e.mark (.began e.passes)).place r (.reading e.passes reset) with passes := e.passes + 1 }

/-- The page is applied, or has nothing to apply. -/
def advance (pass : Nat) (reset : Bool) (cursor : Option String) (response : SyncResponse δ) : SyncEngine δ :=
  if response.hasMore ∧ some response.nextCursor = cursor then e.place r (.failed reset)
  else (e.mark (.wrote response)).place r (.writing pass reset response)

/-- The test of the loop in `syncSnapshot`. -/
def fetch (pass : Nat) (reset : Bool) (cursor : Option String) : SyncEngine δ :=
  if e.stopped then e.place r (.returned pass false) else e.place r (.fetching pass reset cursor)

def handleFailure (kind : SyncFailureKind) : SyncEngine δ :=
  if kind = .TERMINAL then { e.place r .finished with queued := false, currentState := .TERMINAL }
  else { e.place r .waiting with
    retryAttempt := e.retryAttempt + 1, queued := true, currentState := .RETRY_WAIT }

/-- The `finally` of `requestSync`. -/
def settle : SyncEngine δ :=
  let closed := { e.place r .closed with activeRun := none }
  if e.queued ∧ ¬ e.stopped ∧ e.currentState ≠ .TERMINAL ∧ e.retryTimer = none then closed.requestSync
  else closed

def next (answer : Answer δ) : SyncEngine δ :=
  match e.runs r with
  | .absent => e
  | .entered => { e.snapshot r false with activeRun := some r }
  | .again => e.snapshot r false
  | .reading pass reset => if answer.ok then e.fetch r pass reset e.stored else e.place r (.failed reset)
  | .fetching pass reset cursor =>
    match answer.response with
    | none => e.place r (.failed reset)
    | some response =>
      if e.stopped then e.place r (.returned pass false)
      else if response.deltas.length > 0 then e.place r (.applying pass reset cursor response)
      else e.advance r pass reset cursor response
  | .applying pass reset cursor response =>
    if ¬ answer.ok then e.place r (.failed reset)
    else if e.stopped then (e.mark (.applied response)).place r (.returned pass false)
    else (e.mark (.applied response)).advance r pass reset cursor response
  | .writing pass reset response =>
    let written := if answer.ok ∨ answer.done then { e with stored := some response.nextCursor } else e
    if ¬ answer.ok then written.place r (.failed reset)
    else if ¬ response.hasMore then written.place r (.returned pass true)
    else written.fetch r pass reset (some response.nextCursor)
  | .returned pass whole =>
    let marked := if whole then e.mark (.completed pass) else e
    { marked.place r .looping with
      retryAttempt := 0, currentState := if e.stopped then e.currentState else .IDLE }
  | .failed reset => if e.stopped then e.place r .finished else e.place r (.reported reset answer.kind)
  | .reported reset kind =>
    if kind = .CURSOR_STALE ∧ ¬ reset then e.place r .clearing else e.handleFailure r kind
  | .clearing =>
    let cleared := if answer.ok ∨ answer.done then { e with stored := none } else e
    if answer.ok then cleared.snapshot r true else cleared.place r (.failed true)
  | .looping =>
    if e.queued ∧ ¬ e.stopped then { e.place r .again with queued := false, currentState := .SYNCING }
    else e.place r .finished
  | .waiting =>
    { e.place r .finished with
      retryTimer := some (retryDelay (e.retryAttempt - 1) options.retryBaseMs options.retryMaxMs) }
  | .finished => e.settle r
  | .closed => e

def step (e : SyncEngine δ) : Event δ → SyncEngine δ
  | .start => if e.stopped then { e with stopped := false, currentState := .IDLE, starting := e.starting + 1 } else e
  | .begun => if 0 < e.starting then { e with starting := e.starting - 1 }.requestSync else e
  | .stop => e.stop
  | .requestSync => e.requestSync
  | .timer => if e.retryTimer ≠ none then { e with retryTimer := none }.requestSync else e
  | .next r answer => e.next options r answer

end SyncEngine

end Vimla.Sync
