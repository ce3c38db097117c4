import Vimla.Lib.Rows
import Vimla.Sync.Stream

/-!
# The realtime outbox

`realtime-outbox.ts`. Any number of dispatchers run at once, statement by
statement; each may stop anywhere, its publisher may fail or time out, and each
reads a clock of its own.
-/

namespace Vimla.Realtime

open Sync (Formats DurableEvent EventType)

inductive OutboxStatus | PENDING | PROCESSING | PUBLISHED
  deriving DecidableEq

structure OutboxRow where
  eventId : String
  status : OutboxStatus := .PENDING
  attemptCount : Nat := 0
  nextAttemptAt : Option Int
  processingToken : Option Nat := none
  processingUntil : Option Int := none
  publishedAt : Option Int := none
  compactAfter : Option Int := none
  lastErrorCode : Option String := none

structure RealtimeOutboxPolicy where
  batchSize : Nat
  leaseMs : Nat
  backoffBaseMs : Nat
  backoffCapMs : Nat
  retentionMs : Nat

/-- A row of `durable_event` with its recipients. -/
structure EventRow where
  sequence : Nat
  protocolVersion : Nat
  durability : String
  event : DurableEvent
  recipients : List String

/-- An event with its outbox row, as they were read. -/
structure LoadedEvent where
  row : EventRow
  outbox : Option OutboxRow

def LoadedEvent.id (loaded : LoadedEvent) : String := loaded.row.event.id

/-- `realtimeEventEnvelopeSchema`. -/
def isRealtimeEvent (F : Formats) (row : EventRow) : Bool :=
  row.protocolVersion = 1 && row.durability = "DURABLE_HINT" && F.uuid row.event.id && row.event.scopeKind = "DIRECT_CHAT" &&
    F.uuid row.event.scopeId && F.datetime true row.event.occurredAt.toISOString &&
    row.event.payload.lookup "conversationId" = some row.event.scopeId && match row.event.eventType with
    | .DIRECT_MESSAGE_CREATED => Sync.strictIds F ["conversationId", "messageId"] row.event.payload
    | .DIRECT_READ_UPDATED => Sync.strictIds F ["conversationId"] row.event.payload
    | .DIRECT_MESSAGE_DELETED => false

/-- The `WHERE` of the candidates. -/
def claimable (now : Int) (row : OutboxRow) : Bool :=
  (row.status = .PENDING && row.nextAttemptAt.any (· ≤ now)) || (row.status = .PROCESSING && row.processingUntil.any (· < now))

/-- A row that the dispatcher with this token is to publish. -/
def OutboxRow.carries (row : OutboxRow) (token : Nat) : Bool := row.status = .PROCESSING && row.processingToken = some token

def retryBackoffMs (attemptCount baseMs capMs : Nat) : Nat := min capMs (baseMs * 2 ^ min (attemptCount - 1) 30)

def OutboxRow.claimed (policy : RealtimeOutboxPolicy) (token : Nat) (now : Int) (row : OutboxRow) : OutboxRow :=
  { row with
    status := .PROCESSING, processingToken := some token, processingUntil := some (now + policy.leaseMs),
    nextAttemptAt := none, attemptCount := row.attemptCount + 1 }

def OutboxRow.renewed (policy : RealtimeOutboxPolicy) (now : Int) (row : OutboxRow) : OutboxRow :=
  { row with processingUntil := some (now + policy.leaseMs) }

def OutboxRow.published (policy : RealtimeOutboxPolicy) (publishedAt : Int) (row : OutboxRow) : OutboxRow :=
  { row with
    status := .PUBLISHED, processingToken := none, processingUntil := none, nextAttemptAt := none,
    publishedAt := some publishedAt, compactAfter := some (publishedAt + policy.retentionMs), lastErrorCode := none }

def OutboxRow.retried (policy : RealtimeOutboxPolicy) (failedAt : Int) (attemptCount : Nat) (errorCode : String)
    (row : OutboxRow) : OutboxRow :=
  { row with
    status := .PENDING, processingToken := none, processingUntil := none,
    nextAttemptAt := some (failedAt + retryBackoffMs attemptCount policy.backoffBaseMs policy.backoffCapMs),
    lastErrorCode := some errorCode }

abbrev find (eventId : String) (rows : List OutboxRow) : Option OutboxRow := Rows.find OutboxRow.eventId eventId rows

/-- `updateMany` of a row while it carries a token, and whether it did. -/
def updateCarried (eventId : String) (token : Nat) (f : OutboxRow → OutboxRow) (rows : List OutboxRow) :
    List OutboxRow × Bool :=
  (rows.map fun row => if row.eventId = eventId ∧ row.carries token then f row else row,
    (find eventId rows).any (·.carries token))

/-- `compactPublished` -/
def compactPublished (now : Int) (rows : List OutboxRow) : List OutboxRow :=
  rows.filter fun row => ¬ (row.status = .PUBLISHED ∧ row.compactAfter.any (· ≤ now))

/-- Where a call of `runOnce` is. -/
inductive Point
  | claimed (eventIds : List String)
  /-- At the head of the loop. -/
  | next (rest : List LoadedEvent)
  | renewed (loaded : LoadedEvent) (rest : List LoadedEvent)
  /-- The publisher has been called; `pending` are those whose publish has not come back. -/
  | publishing (loaded : LoadedEvent) (pending : List String) (rest : List LoadedEvent)
  | failed (loaded : LoadedEvent) (errorCode : String) (rest : List LoadedEvent)
  /-- It is about to compact, with the clock it was called with if it claimed nothing. -/
  | compacting (now : Option Int)
  | finished
  deriving Inhabited

/-- The event whose turn it is. -/
def Point.turnOf : Point → Option LoadedEvent
  | .renewed loaded _ | .publishing loaded _ _ | .failed loaded _ _ => some loaded
  | _ => none

/-- What it has loaded. -/
def Point.loaded : Point → List LoadedEvent
  | .next rest => rest
  | .renewed loaded rest | .publishing loaded _ rest | .failed loaded _ rest => loaded :: rest
  | _ => []

structure Outbox where
  events : String → Option EventRow
  rows : List OutboxRow
  /-- By their tokens, which are not used again. -/
  dispatchers : Nat → Option Point := fun _ => none
  /-- Each publish that came back: the token, the event and the recipient. -/
  acked : List (Nat × String × String) := []

inductive OutboxEvent
  /-- A transaction with an event commits. -/
  | create (row : EventRow) (now : Int)
  /-- A user is deleted, and with the user the rows that name them as a recipient. -/
  | forget (userId : String)
  /-- `runOnce` begins and claims; `locked` are the rows that other statements hold. -/
  | claim (token : Nat) (now : Int) (locked : List String)
  /-- The next statement of a dispatcher. -/
  | turn (token : Nat) (now : Int)
  | acknowledge (token : Nat) (userId : String)
  | publishFails (token : Nat)
  | crash (token : Nat)

namespace Outbox

section
variable (F : Formats) (policy : RealtimeOutboxPolicy)

def setPoint (w : Outbox) (token : Nat) (point : Point) : Outbox :=
  { w with dispatchers := Function.update w.dispatchers token (some point) }

def sequenceOf (w : Outbox) (eventId : String) : Nat := (w.events eventId).elim 0 (·.sequence)

def candidates (w : Outbox) (now : Int) (locked : List String) : List String :=
  ((Js.sort (fun a b => compare (w.sequenceOf a.eventId) (w.sequenceOf b.eventId))
    (w.rows.filter fun row => (w.events row.eventId).isSome ∧ claimable now row ∧ row.eventId ∉ locked)).map
      (·.eventId)).take policy.batchSize

def claim (w : Outbox) (token : Nat) (now : Int) (locked : List String) : Outbox :=
  let eventIds := w.candidates policy now locked
  { w.setPoint token (if eventIds = [] then .compacting (some now) else .claimed eventIds) with
    rows := w.rows.map fun row => if row.eventId ∈ eventIds then row.claimed policy token now else row }

def load (w : Outbox) (eventIds : List String) : List LoadedEvent :=
  Js.sort (fun a b => compare a.row.sequence b.row.sequence)
    (eventIds.dedup.filterMap fun id => (w.events id).map fun row => ⟨row, find id w.rows⟩)

/-- A statement on the row of an event, and where the dispatcher goes on. -/
def write (w : Outbox) (token : Nat) (loaded : LoadedEvent) (f : OutboxRow → OutboxRow) (next : Bool → Point) : Outbox :=
  let (rows, matched) := updateCarried loaded.id token f w.rows
  { w.setPoint token (next matched) with rows }

def turn (w : Outbox) (token : Nat) (now : Int) : Outbox :=
  match w.dispatchers token with
  | some (.claimed eventIds) => w.setPoint token (.next (w.load eventIds))
  | some (.next []) => w.setPoint token (.compacting none)
  | some (.next (loaded :: rest)) =>
    if loaded.outbox.any (·.carries token) then
      w.write token loaded (·.renewed policy now) fun renewed => if renewed then .renewed loaded rest else .next rest
    else w.setPoint token (.next rest)
  | some (.renewed loaded rest) =>
    if loaded.row.recipients = [] then w.write token loaded (·.published policy now) fun _ => .next rest
    else if isRealtimeEvent F loaded.row then w.setPoint token (.publishing loaded loaded.row.recipients.dedup rest)
    else w.setPoint token (.failed loaded "event_decode_failed" rest)
  | some (.publishing loaded [] rest) => w.write token loaded (·.published policy now) fun _ => .next rest
  | some (.failed loaded errorCode rest) =>
    w.write token loaded (·.retried policy now (loaded.outbox.elim 0 (·.attemptCount)) errorCode) fun _ => .next rest
  | some (.compacting called) =>
    { w.setPoint token .finished with rows := compactPublished (called.getD now) w.rows }
  | _ => w

def acknowledge (w : Outbox) (token : Nat) (userId : String) : Outbox :=
  match w.dispatchers token with
  | some (.publishing loaded pending rest) =>
    if userId ∈ pending then
      { w.setPoint token (.publishing loaded (pending.erase userId) rest) with
        acked := (token, loaded.id, userId) :: w.acked }
    else w
  | _ => w

/-- The publisher rejects, or takes too long. -/
def publishFails (w : Outbox) (token : Nat) : Outbox :=
  match w.dispatchers token with
  | some (.publishing loaded _ rest) => w.setPoint token (.failed loaded "redis_publish_failed" rest)
  | _ => w

def step (w : Outbox) : OutboxEvent → Outbox
  | .create row now =>
    if (w.events row.event.id).isSome then w
    else { w with
      events := Function.update w.events row.event.id (some row)
      rows := w.rows ++ [{ eventId := row.event.id, nextAttemptAt := some now }] }
  | .forget userId =>
    { w with events := fun id => (w.events id).map fun row =>
        { row with recipients := row.recipients.filter (· ≠ userId) } }
  | .claim token now locked => if (w.dispatchers token).isSome then w else w.claim policy token now locked
  | .turn token now => w.turn F policy token now
  | .acknowledge token userId => w.acknowledge token userId
  | .publishFails token => w.publishFails token
  | .crash token => if (w.dispatchers token).isSome then w.setPoint token .finished else w

end

/-- The row of the event carries the token. -/
def Carried (w : Outbox) (token : Nat) (eventId : String) : Prop :=
  ∃ row, find eventId w.rows = some row ∧ row.carries token = true

/-- A dispatcher that has begun has lost an event, whose turn it is not in. -/
structure Lost (w : Outbox) (token : Nat) (eventId : String) : Prop where
  begun : (w.dispatchers token).isSome
  uncarried : ¬ w.Carried token eventId
  outside : ∀ loaded ∈ (w.dispatchers token).bind Point.turnOf, loaded.id ≠ eventId

/-- All recipients of the event have been published to by the dispatcher. -/
def PublishedToAll (w : Outbox) (token : Nat) (eventId : String) : Prop :=
  ∀ row, w.events eventId = some row → ∀ userId ∈ row.recipients, (token, eventId, userId) ∈ w.acked

/-- A row can be claimed at all times from some time on, or is published. -/
def Claimable (row : OutboxRow) : Prop := row.status ≠ .PUBLISHED → ∃ since : Int, ∀ now, since < now → claimable now row = true

/-- What one step may do to the rows. -/
structure Guards (F : Formats) (policy : RealtimeOutboxPolicy) (w : Outbox) (ev : OutboxEvent) : Prop where
  published : ∀ eventId before after, find eventId w.rows = some before →
    find eventId (w.step F policy ev).rows = some after → before.status ≠ .PUBLISHED → after.status = .PUBLISHED →
    ∃ token now, ev = .turn token now ∧ before.carries token = true ∧ w.PublishedToAll token eventId
  deleted : ∀ eventId before, find eventId w.rows = some before → find eventId (w.step F policy ev).rows = none →
    before.status = .PUBLISHED ∧ ∃ token now called, ev = .turn token now ∧
      w.dispatchers token = some (.compacting called) ∧ before.compactAfter.any (· ≤ called.getD now) = true
  owned : ∀ eventId before after token now, ev = .turn token now → find eventId w.rows = some before →
    find eventId (w.step F policy ev).rows = some after → before.carries token = false → after = before
  claimable : ∀ row ∈ (w.step F policy ev).rows, Claimable row

end Outbox

/-- What the table checks of a row. -/
def OutboxRow.stateCheck (row : OutboxRow) : Bool :=
  match row.status with
  | .PENDING => row.nextAttemptAt.isSome
  | .PROCESSING => row.processingToken.isSome && row.processingUntil.isSome
  | .PUBLISHED => row.compactAfter.isSome

/-- Rows of known events, before any dispatcher has begun. -/
structure OutboxStart where
  events : String → Option EventRow
  rows : List OutboxRow
  named : ∀ id row, events id = some row → row.event.id = id
  known : ∀ row ∈ rows, (events row.eventId).isSome
  nodup : (rows.map (·.eventId)).Nodup
  checked : ∀ row ∈ rows, row.stateCheck = true

def OutboxStart.outbox (start : OutboxStart) : Outbox := { events := start.events, rows := start.rows }

end Vimla.Realtime
