import Vimla.Lib.Sorting
import Vimla.Sync.CursorCodec
import Vimla.Lib.Runs

/-!
# Durable events and pages of them

`durable-events.ts`: the events that are written for the members of a Direct Chat.
`sync.service.ts`: which of them a page holds, and where the next page begins.
-/

namespace Vimla.Sync

open List Function

/-- The formats that are checked by name. -/
structure Formats where
  uuid : String → Bool
  datetime : (offset : Bool) → String → Bool
  /-- A time that ends with `Z` needs no offset. -/
  utc : ∀ text, datetime true (text ++ "Z") = datetime false (text ++ "Z")

/-- A `Date`, by the text before the `Z` of `toISOString`. -/
structure Instant where
  digits : String

def Instant.toISOString (at_ : Instant) : String := at_.digits ++ "Z"

inductive EventType | DIRECT_MESSAGE_CREATED | DIRECT_READ_UPDATED | DIRECT_MESSAGE_DELETED
  deriving DecidableEq

inductive ChangeKind | UPSERT_REF | TOMBSTONE
  deriving DecidableEq

structure DurableEvent where
  id : String
  eventType : EventType
  changeKind : ChangeKind
  scopeKind : String
  scopeId : String
  occurredAt : Instant
  payload : List (String × String)

structure SyncDelta where
  eventId : String
  eventType : EventType
  changeKind : ChangeKind
  scope : String × String
  occurredAt : String
  payload : List (String × String)

section
variable (F : Formats)

/-- Texts by their code units. -/
def UserId.compare (a b : UserId) : Ordering :=
  Ord.compare ((Js.units (String.ofList a.text)).map UInt16.toNat) ((Js.units (String.ofList b.text)).map UInt16.toNat)

/-- The event schemas of `realtime.ts`, and the row that is written. -/
def realtimeEvent (eventType : EventType) (eventId conversationId : String) (occurredAt : Instant)
    (payload : List (String × String)) : Option DurableEvent :=
  if F.uuid eventId ∧ F.uuid conversationId ∧ F.datetime true occurredAt.toISOString ∧ payload.all (F.uuid ·.2) then
    some { id := eventId, eventType, changeKind := .UPSERT_REF, scopeKind := "DIRECT_CHAT", scopeId := conversationId,
           occurredAt, payload }
  else none

/-- The recipients whose positions are taken, in order, and the event. -/
structure WriterCall where
  recipients : List UserId
  event : DurableEvent

structure DirectMessageCreatedEventInput where
  conversationId : String
  messageId : String
  occurredAt : Instant
  recipientUserIds : List UserId

structure DirectReadUpdatedEventInput where
  conversationId : String
  occurredAt : Instant
  recipientUserId : UserId

/-- `none` where it throws. The event is parsed after the positions are taken, which a transaction that fails gives back. -/
def directMessageCreated (input : DirectMessageCreatedEventInput) : Option WriterCall :=
  let recipients := Js.sort (fun a b => a.compare b) input.recipientUserIds.dedup
  if recipients = [] then none
  else (realtimeEvent F .DIRECT_MESSAGE_CREATED input.messageId input.conversationId input.occurredAt
    [("conversationId", input.conversationId), ("messageId", input.messageId)]).map (⟨recipients, ·⟩)

/-- `eventId` is the one that is generated. -/
def directReadUpdated (input : DirectReadUpdatedEventInput) (eventId : String) : Option WriterCall :=
  (realtimeEvent F .DIRECT_READ_UPDATED eventId input.conversationId input.occurredAt
    [("conversationId", input.conversationId)]).map (⟨[input.recipientUserId], ·⟩)

def assertSupportedSyncEvent (event : DurableEvent) : Bool :=
  event.scopeKind = "DIRECT_CHAT" && match event.eventType with
  | .DIRECT_MESSAGE_CREATED | .DIRECT_READ_UPDATED => event.changeKind = ChangeKind.UPSERT_REF
  | .DIRECT_MESSAGE_DELETED => event.changeKind = ChangeKind.TOMBSTONE

/-- An object of these keys alone, each with an id. -/
def strictIds (keys : List String) (payload : List (String × String)) : Bool :=
  payload.all (fun e => e.1 ∈ keys ∧ F.uuid e.2) ∧ keys.all fun key => (payload.lookup key).isSome

/-- `syncDeltaSchema`. -/
def isSyncDelta (delta : SyncDelta) : Bool :=
  F.uuid delta.eventId && F.datetime false delta.occurredAt && delta.scope.1 = "DIRECT_CHAT" && F.uuid delta.scope.2 &&
    delta.payload.lookup "conversationId" = some delta.scope.2 && match delta.eventType with
    | .DIRECT_MESSAGE_CREATED =>
      delta.changeKind = ChangeKind.UPSERT_REF && strictIds F ["conversationId", "messageId"] delta.payload &&
        delta.payload.lookup "messageId" = some delta.eventId
    | .DIRECT_MESSAGE_DELETED =>
      delta.changeKind = ChangeKind.TOMBSTONE && strictIds F ["conversationId", "messageId"] delta.payload
    | .DIRECT_READ_UPDATED => delta.changeKind = ChangeKind.UPSERT_REF && strictIds F ["conversationId"] delta.payload

def DurableEvent.delta (event : DurableEvent) : SyncDelta where
  eventId := event.id
  eventType := event.eventType
  changeKind := event.changeKind
  scope := (event.scopeKind, event.scopeId)
  occurredAt := event.occurredAt.toISOString
  payload := event.payload

/-- `none` where it throws. -/
def toSyncDelta (event : DurableEvent) : Option SyncDelta := if isSyncDelta F event.delta then some event.delta else none

/-- An event that is read without an error. -/
def DurableEvent.readable (event : DurableEvent) : Bool := assertSupportedSyncEvent event && isSyncDelta F event.delta

end

structure UserSyncState where
  lastPosition : Int
  minRetainedPosition : Int

/-- A row of `durable_event_recipient` with its event. -/
structure Recipient where
  userId : UserId
  position : Int
  event : DurableEvent

inductive SyncError | cursorInvalid | cursorStale | internal
  deriving DecidableEq

def maxPageSize : Nat := 200

def maxScanPerPage : Nat := 500

def scanLimit (limit : Nat) : Nat := min maxScanPerPage (max limit (limit * 4))

/-- The rows of a user between two positions, in order. -/
def between (rows : List Recipient) (userId : UserId) (position snapshotHead : Int) : List Recipient :=
  Js.sort (fun a b => compare a.position b.position)
    (rows.filter fun row => row.userId = userId ∧ position < row.position ∧ row.position ≤ snapshotHead)

/-- Where a page begins, and the head it is read up to. -/
def openCursor (hmac : Hmac) (secret : Text) (userId : UserId) (state : Option UserSyncState) (cursor : Option Text) :
    Except SyncError SyncCursorState := do
  let currentHead := state.elim 0 (·.lastPosition)
  let minRetained := state.elim 0 (·.minRetainedPosition)
  let opened : SyncCursorState ← match cursor with
    | none => pure ⟨0, currentHead⟩
    | some cursor =>
      match SyncCursorCodec.decode hmac secret userId cursor with
      | none => throw .cursorInvalid
      | some decoded =>
        pure ⟨decoded.position, if decoded.position = decoded.snapshotHead then currentHead else decoded.snapshotHead⟩
  if opened.position < minRetained ∨ opened.position > currentHead ∨ opened.snapshotHead > currentHead then
    throw .cursorStale
  return opened

/-- The chats whose memberships are looked up. -/
def directChatIds (candidates : List Recipient) : List String :=
  ((candidates.filter fun row => row.event.eventType = .DIRECT_MESSAGE_CREATED ∨
    row.event.eventType = .DIRECT_READ_UPDATED).map (·.event.scopeId)).dedup

def eligible (allowed : String → Bool) (event : DurableEvent) : Bool :=
  event.eventType = .DIRECT_MESSAGE_DELETED || allowed event.scopeId

/-- The loop over the candidates; `none` where it throws. -/
def collect (F : Formats) (allowed : String → Bool) (limit : Nat) :
    List Recipient → List SyncDelta → Int → Option (List SyncDelta × Int)
  | [], deltas, nextPosition => some (deltas, nextPosition)
  | candidate :: rest, deltas, nextPosition =>
    if eligible allowed candidate.event then
      if deltas.length ≥ limit then some (deltas, nextPosition)
      else (toSyncDelta F candidate.event).bind fun delta =>
        if (deltas ++ [delta]).length ≥ limit then some (deltas ++ [delta], candidate.position)
        else collect F allowed limit rest (deltas ++ [delta]) candidate.position
    else if deltas.length ≥ limit then some (deltas, candidate.position)
    else collect F allowed limit rest deltas candidate.position

structure SyncPage where
  deltas : List SyncDelta
  nextCursor : Text
  hasMore : Bool

/-- What `read` makes of the candidates; `members` holds the chats of the user. -/
def respond (F : Formats) (hmac : Hmac) (secret : Text) (userId : UserId) (limit : Nat) (opened : SyncCursorState)
    (candidates : List Recipient) (members : String → Bool) : Except SyncError (SyncPage × Int) := do
  let allowed := fun id => id ∈ directChatIds candidates ∧ members id
  match collect F allowed limit candidates [] opened.position with
  | none => throw .internal
  | some (deltas, nextPosition) =>
    if candidates = [] ∧ nextPosition < opened.snapshotHead then throw .internal
    match SyncCursorCodec.encode hmac secret userId ⟨nextPosition, opened.snapshotHead⟩ with
    | none => throw .internal
    | some nextCursor =>
      if deltas.length > maxPageSize then throw .internal
      return (⟨deltas, nextCursor, nextPosition < opened.snapshotHead⟩, nextPosition)

section
variable {F : Formats} {event : DurableEvent}

theorem readable_realtime {eventType : EventType} {eventId conversationId : String} {occurredAt : Instant}
    {payload : List (String × String)}
    (made : realtimeEvent F eventType eventId conversationId occurredAt payload = some event)
    (chat : payload.lookup "conversationId" = some conversationId) (whole : match eventType with
      | .DIRECT_MESSAGE_CREATED => strictIds F ["conversationId", "messageId"] payload = true ∧
          payload.lookup "messageId" = some eventId
      | .DIRECT_READ_UPDATED => strictIds F ["conversationId"] payload = true
      | .DIRECT_MESSAGE_DELETED => False) : event.readable F = true := by
  unfold realtimeEvent at made
  split at made
  · rename_i checked
    obtain ⟨id, scope, time, _⟩ := checked
    cases made
    have utc : F.datetime false occurredAt.toISOString = true := (F.utc occurredAt.digits).symm.trans time
    cases eventType with
    | DIRECT_MESSAGE_CREATED =>
      simp [DurableEvent.readable, assertSupportedSyncEvent, isSyncDelta, DurableEvent.delta, id, scope, utc, chat, whole.1,
        whole.2]
    | DIRECT_READ_UPDATED =>
      have strict : strictIds F ["conversationId"] payload = true := whole
      simp [DurableEvent.readable, assertSupportedSyncEvent, isSyncDelta, DurableEvent.delta, id, scope, utc, chat, strict]
    | DIRECT_MESSAGE_DELETED => exact whole.elim
  · cases made

variable {call : WriterCall}

/-- What is written can be read. -/
theorem readable_created {input : DirectMessageCreatedEventInput}
    (made : directMessageCreated F input = some call) : call.event.readable F = true := by
  unfold directMessageCreated at made
  dsimp only at made
  split at made
  · cases made
  · obtain ⟨event, event_made, rfl⟩ := Option.map_eq_some_iff.1 made
    have ids : F.uuid input.messageId = true ∧ F.uuid input.conversationId = true := by
      unfold realtimeEvent at event_made
      split at event_made
      · rename_i checked
        exact ⟨checked.1, checked.2.1⟩
      · cases event_made
    refine readable_realtime event_made (by simp) ?_
    simp [strictIds, ids.1, ids.2, lookup]

theorem readable_read {input : DirectReadUpdatedEventInput} {eventId : String}
    (made : directReadUpdated F input eventId = some call) : call.event.readable F = true := by
  obtain ⟨event, event_made, rfl⟩ := Option.map_eq_some_iff.1 made
  have id : F.uuid input.conversationId = true := by
    unfold realtimeEvent at event_made
    split at event_made
    · rename_i checked
      exact checked.2.1
    · cases event_made
  refine readable_realtime event_made (by simp) ?_
  simp [strictIds, id]

theorem toSyncDelta_readable (readable : event.readable F = true) :
    toSyncDelta F event = some event.delta := by
  rw [DurableEvent.readable, Bool.and_eq_true] at readable
  rw [toSyncDelta, if_pos readable.2]

/-- The deltas of the rows that are eligible. -/
def deltasOf (allowed : String → Bool) (rows : List Recipient) : List SyncDelta :=
  (rows.filter fun row => eligible allowed row.event).map (·.event.delta)

/-- A page is made of the first candidates, of one at least. -/
theorem collect_prefix (allowed : String → Bool) {limit : Nat} {candidates : List Recipient} (deltas : List SyncDelta)
    (position : Int) (readable : ∀ row ∈ candidates, row.event.readable F = true) (room : deltas.length < limit) :
    ∃ taken rest, candidates = taken ++ rest ∧ (candidates ≠ [] → taken ≠ []) ∧
      (deltas ++ deltasOf allowed taken).length ≤ limit ∧ collect F allowed limit candidates deltas position =
        some (deltas ++ deltasOf allowed taken, taken.getLast?.elim position (·.position)) := by
  induction candidates generalizing deltas position with
  | nil => exact ⟨[], [], rfl, fun filled => filled, by simp [deltasOf]; omega, by simp [collect, deltasOf]⟩
  | cons candidate candidates ih =>
    obtain ⟨here, others⟩ := forall_mem_cons.1 readable
    have last : ∀ taken : List Recipient, (candidate :: taken).getLast?.elim position (·.position) =
        taken.getLast?.elim candidate.position (·.position) := by
      intro taken
      cases taken with
      | nil => rfl
      | cons row taken => simp [getLast?_cons]
    by_cases takes : eligible allowed candidate.event = true
    · have first : ∀ taken, deltasOf allowed (candidate :: taken) = candidate.event.delta :: deltasOf allowed taken := by
        simp [deltasOf, takes]
      simp only [collect, takes, if_true, Nat.not_le.2 room, if_false, ge_iff_le, toSyncDelta_readable here, Option.bind_some]
      by_cases full : limit ≤ (deltas ++ [candidate.event.delta]).length
      · refine ⟨[candidate], candidates, rfl, by simp, ?_, ?_⟩
        · rw [first]
          simp only [deltasOf, filter_nil, map_nil, length_append, length_singleton]
          omega
        · rw [if_pos full, first]
          rfl
      · obtain ⟨taken, rest, rfl, _, few, collected⟩ := ih (deltas ++ [candidate.event.delta]) candidate.position others
          (Nat.lt_of_not_le full)
        refine ⟨candidate :: taken, rest, rfl, by simp, ?_, ?_⟩
        · rw [first]
          simpa using few
        · rw [if_neg full, collected, first, last]
          simp
    · have skipped : ∀ taken, deltasOf allowed (candidate :: taken) = deltasOf allowed taken := by
        simp [deltasOf, takes]
      obtain ⟨taken, rest, rfl, _, few, collected⟩ := ih deltas candidate.position others room
      refine ⟨candidate :: taken, rest, rfl, by simp, by rwa [skipped], ?_⟩
      simp [collect, takes, Nat.not_le.2 room, ge_iff_le, Bool.false_eq_true, collected, skipped, last]

end

/-!
# The sync stream

Transactions take positions for their events, each under the lock of the user's
row, which it holds until it ends. In between, statement by statement, a client
reads page after page.
-/

/-- A call of a writer: whose positions are still to be taken, and those it has taken. -/
structure Writing where
  todo : List UserId
  positions : List (UserId × Int)
  event : DurableEvent

/-- What a transaction has written and not committed. -/
structure Transaction where
  call : Option Writing := none
  rows : List Recipient := []
  states : UserId → Option UserSyncState := fun _ => none

structure Tables where
  states : UserId → Option UserSyncState
  recipients : List Recipient
  members : UserId → String → Bool

/-- A call of `read`, once it has read the state of the user. -/
structure Opened where
  limit : Nat
  state : SyncCursorState
  currentHead : Int

inductive Reading
  | idle
  | opened (read : Opened)
  | scanned (read : Opened) (candidates : List Recipient)

/-- A page as the client has received it, and how it was read. -/
structure Page where
  read : Opened
  members : String → Bool
  response : SyncPage
  nextPosition : Int

structure StreamClient where
  cursor : Option Text
  reading : Reading := .idle
  pages : List Page := []
  failed : Option SyncError := none

structure SyncStream where
  tables : Tables
  lockedBy : UserId → Option Nat := fun _ => none
  transactions : Nat → Option Transaction := fun _ => none
  client : StreamClient

inductive StreamEvent
  | begin (t : Nat)
  | directMessageCreated (t : Nat) (input : DirectMessageCreatedEventInput)
  | directReadUpdated (t : Nat) (input : DirectReadUpdatedEventInput) (eventId : String)
  | upsert (t : Nat)
  | create (t : Nat)
  | commit (t : Nat)
  | abort (t : Nat)
  | membership (userId : UserId) (conversationId : String) (joined : Bool)
  /-- A call of `read`, by its three queries. -/
  | findState (limit : Nat)
  | findRecipients
  | findMembers

def Tables.lastPosition (tables : Tables) (userId : UserId) : Int := (tables.states userId).elim 0 (·.lastPosition)

def Tables.minRetainedPosition (tables : Tables) (userId : UserId) : Int :=
  (tables.states userId).elim 0 (·.minRetainedPosition)

def Tables.between (tables : Tables) (userId : UserId) (position snapshotHead : Int) : List Recipient :=
  Sync.between tables.recipients userId position snapshotHead

namespace SyncStream

/-- The transaction ends, and its locks with it. -/
def leave (w : SyncStream) (t : Nat) : SyncStream :=
  { w with
    lockedBy := fun userId => if w.lockedBy userId = some t then none else w.lockedBy userId
    transactions := update w.transactions t none }

def put (w : SyncStream) (t : Nat) (tx : Transaction) : SyncStream :=
  { w with transactions := update w.transactions t (some tx) }

/-- A call of a writer that throws fails its transaction. -/
def write (w : SyncStream) (t : Nat) (call : Option WriterCall) : SyncStream :=
  match w.transactions t with
  | some ⟨none, rows, states⟩ =>
    match call with
    | none => w.leave t
    | some call => w.put t ⟨some ⟨call.recipients, [], call.event⟩, rows, states⟩
  | _ => w

/-- The next position of a user, once the lock is free. -/
def upsert (w : SyncStream) (t : Nat) : SyncStream :=
  match w.transactions t with
  | some ⟨some ⟨userId :: todo, positions, event⟩, rows, states⟩ =>
    if w.lockedBy userId = none ∨ w.lockedBy userId = some t then
      let current := (states userId).or (w.tables.states userId)
      let state : UserSyncState := current.elim ⟨1, 0⟩ fun s => { s with lastPosition := s.lastPosition + 1 }
      if state.lastPosition > MAX_BIGINT_64 then w.leave t
      else { w.put t ⟨some ⟨todo, positions ++ [(userId, state.lastPosition)], event⟩, rows,
               update states userId (some state)⟩ with
             lockedBy := update w.lockedBy userId (some t) }
    else w
  | _ => w

def create (w : SyncStream) (t : Nat) : SyncStream :=
  match w.transactions t with
  | some ⟨some ⟨[], positions, event⟩, rows, states⟩ =>
    w.put t ⟨none, rows ++ positions.map fun taken => ⟨taken.1, taken.2, event⟩, states⟩
  | _ => w

/-- A transaction commits once its calls have returned. -/
def commit (w : SyncStream) (t : Nat) : SyncStream :=
  match w.transactions t with
  | some ⟨none, rows, states⟩ =>
    { w.leave t with
      tables := { w.tables with
        states := fun userId => (states userId).or (w.tables.states userId)
        recipients := w.tables.recipients ++ rows } }
  | _ => w

section
variable (F : Formats) (hmac : Hmac) (secret : Text) (reader : UserId)

def fail (w : SyncStream) (e : SyncError) : SyncStream :=
  { w with client := { w.client with reading := .idle, failed := some e } }

/-- The limit is checked by the controller. -/
def findState (w : SyncStream) (limit : Nat) : SyncStream :=
  match w.client.reading with
  | .idle =>
    if 1 ≤ limit ∧ limit ≤ maxPageSize then
      match openCursor hmac secret reader (w.tables.states reader) w.client.cursor with
      | .error e => w.fail e
      | .ok state =>
        { w with client := { w.client with reading := .opened ⟨limit, state, w.tables.lastPosition reader⟩ } }
    else w
  | _ => w

def findRecipients (w : SyncStream) : SyncStream :=
  match w.client.reading with
  | .opened read =>
    let candidates := (w.tables.between reader read.state.position read.state.snapshotHead).take (scanLimit read.limit)
    if candidates.all fun row => assertSupportedSyncEvent row.event then
      { w with client := { w.client with reading := .scanned read candidates } }
    else w.fail .internal
  | _ => w

def findMembers (w : SyncStream) : SyncStream :=
  match w.client.reading with
  | .scanned read candidates =>
    match respond F hmac secret reader read.limit read.state candidates (w.tables.members reader) with
    | .error e => w.fail e
    | .ok (response, nextPosition) =>
      { w with client := { w.client with
        cursor := some response.nextCursor, reading := .idle,
        pages := w.client.pages ++ [⟨read, w.tables.members reader, response, nextPosition⟩] } }
  | _ => w

def step (w : SyncStream) : StreamEvent → SyncStream
  | .begin t => if (w.transactions t).isSome then w else w.put t {}
  | .directMessageCreated t input => w.write t (directMessageCreated F input)
  | .directReadUpdated t input eventId => w.write t (directReadUpdated F input eventId)
  | .upsert t => w.upsert t
  | .create t => w.create t
  | .commit t => w.commit t
  | .abort t => w.leave t
  | .membership userId conversationId joined =>
    { w with tables := { w.tables with
      members := update w.tables.members userId
        (update (w.tables.members userId) conversationId joined) } }
  | .findState limit => w.findState hmac secret reader limit
  | .findRecipients => w.findRecipients reader
  | .findMembers => w.findMembers F hmac secret reader

end

end SyncStream

/-- The positions of each user are taken one after the other; the rows are listed in their order. -/
structure Tables.Sound (F : Formats) (tables : Tables) : Prop where
  bounded : ∀ userId, 0 ≤ tables.minRetainedPosition userId ∧
    tables.minRetainedPosition userId ≤ tables.lastPosition userId ∧ tables.lastPosition userId ≤ MAX_BIGINT_64
  ordered : ∀ userId, ((tables.recipients.filter (·.userId = userId)).map (·.position)).Pairwise (· < ·)
  within : ∀ row ∈ tables.recipients, row.position ≤ tables.lastPosition row.userId
  dense : ∀ userId position, tables.minRetainedPosition userId < position → position ≤ tables.lastPosition userId →
    ∃ row ∈ tables.recipients, row.userId = userId ∧ row.position = position
  readable : ∀ row ∈ tables.recipients, row.event.readable F = true

/-- A cursor that was made for the user, with positions that are still kept. -/
structure Usable (tables : Tables) (userId : UserId) (state : SyncCursorState) : Prop where
  kept : tables.minRetainedPosition userId ≤ state.position
  ordered : state.position ≤ state.snapshotHead
  reached : state.snapshotHead ≤ tables.lastPosition userId

/-- Where a client begins: without a cursor where nothing is lost, or with one. -/
structure StreamStart (F : Formats) where
  tables : Tables
  sound : tables.Sound F
  reader : UserId
  cursor : Option SyncCursorState
  usable : ∀ state ∈ cursor, Usable tables reader state
  whole : cursor = none → tables.minRetainedPosition reader = 0

def StreamStart.stream {F : Formats} (start : StreamStart F) (hmac : Hmac) (secret : Text) : SyncStream where
  tables := start.tables
  client := { cursor := start.cursor.map (SyncCursorCodec.cursor hmac secret start.reader) }

/-- The page that a row was read for, by its position. -/
def pageOf (pages : List Page) (position : Int) : Option Page :=
  pages.find? fun page => page.read.state.position < position ∧ position ≤ page.nextPosition

/-- The row was eligible when it was read. -/
def eligibleWhenRead (pages : List Page) (row : Recipient) : Bool :=
  eligible (fun id => (pageOf pages row.position).any fun page => page.members id) row.event

def positionOf (cursor : Option SyncCursorState) : Int := cursor.elim 0 (·.position)

/-- The head that a read with this cursor goes up to. -/
def snapshotOf (cursor : Option SyncCursorState) (currentHead : Int) : Int :=
  cursor.elim currentHead fun state => if state.position = state.snapshotHead then currentHead else state.snapshotHead

/-- A page begins where the last one ended, in the same snapshot until its head is reached. -/
structure Continues (before : Option SyncCursorState) (page : Page) : Prop where
  begins : page.read.state.position = positionOf before
  snapshot : page.read.state.snapshotHead = snapshotOf before page.read.currentHead
  onward : page.read.state.position ≤ page.nextPosition
  within : page.nextPosition ≤ page.read.state.snapshotHead
  more : page.response.hasMore = decide (page.nextPosition < page.read.state.snapshotHead)
  advances : page.response.hasMore = true → page.read.state.position < page.nextPosition

def Page.cursor (page : Page) : SyncCursorState := ⟨page.nextPosition, page.read.state.snapshotHead⟩

def Chained : Option SyncCursorState → List Page → Prop
  | _, [] => True
  | before, page :: pages => Continues before page ∧ Chained (some page.cursor) pages

/-- The cursor after some pages. -/
def cursorAfter (cursor : Option SyncCursorState) (pages : List Page) : Option SyncCursorState :=
  pages.getLast?.elim cursor fun page => some page.cursor

/-- What has been received is what was eligible, in order and once each; no read has failed. -/
structure StreamDelivered (reader : UserId) (start : Option SyncCursorState) (w : SyncStream) : Prop where
  succeeds : w.client.failed = none
  chained : Chained start w.client.pages
  ordered : ((w.tables.between reader (positionOf start) (positionOf (cursorAfter start w.client.pages))).map
    (·.position)).Pairwise (· < ·)
  complete : ∀ position, positionOf start < position → position ≤ positionOf (cursorAfter start w.client.pages) →
    ∃ row ∈ w.tables.between reader (positionOf start) (positionOf (cursorAfter start w.client.pages)),
      row.position = position
  deltas : w.client.pages.flatMap (·.response.deltas) =
    ((w.tables.between reader (positionOf start) (positionOf (cursorAfter start w.client.pages))).filter
      (eligibleWhenRead w.client.pages)).map (·.event.delta)

end Vimla.Sync
