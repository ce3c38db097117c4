import Vimla.Lib.Json
import Vimla.Lib.Rows
import Vimla.Lib.Dates

/-!
# Rows of compacted context

The tables that `compaction.ts` of `packages/context` reads and writes. Ids
are strings as they are compared with recorded ones; a `Date` is its
milliseconds. A message never changes its id, and its `createdAt` is read off
the id.
-/

namespace Vimla.Context

open List Rows

inductive ScopeKind | conversation | project | thread
  deriving DecidableEq

def ScopeKind.name : ScopeKind → String
  | conversation => "CONVERSATION"
  | project => "PROJECT"
  | thread => "THREAD"

inductive Classification | PUBLIC | INTERNAL | PRIVATE | RESTRICTED
  deriving DecidableEq

inductive MessageStatus | complete | streaming | failed
  deriving DecidableEq

inductive ConversationKind | chat | operator
  deriving DecidableEq

inductive TargetKind | aiAuto | aiModel
  deriving DecidableEq

structure Conversation where
  id : String
  userId : String
  kind : ConversationKind
  defaultTargetKind : Option TargetKind

/-- `kind: "CHAT", defaultTargetKind: { in: ["AI_AUTO", "AI_MODEL"] }`. -/
def Conversation.isThread (c : Conversation) : Bool :=
  c.kind = .chat ∧ (c.defaultTargetKind = some .aiAuto ∨ c.defaultTargetKind = some .aiModel)

structure Message where
  id : String
  conversationId : String
  content : String
  status : MessageStatus
  updatedAt : Int

structure Project where
  id : String
  ownerUserId : String
  memberUserIds : List String

structure CompactedRow where
  id : String
  ownerUserId : String
  scopeKind : ScopeKind
  scopeKey : String
  projectId : Option String
  conversationId : Option String
  threadId : Option String
  version : Nat
  classification : Classification
  content : String
  contentHash : String
  sourceRefs : Js.Json
  sourceFingerprint : String
  coveredFromSourceId : String
  coveredToSourceId : String
  coveredFromAt : Int
  coveredToAt : Int
  sourceCount : Nat
  inputTokenEstimate : Nat
  outputTokenEstimate : Nat
  validFrom : Int
  invalidatedAt : Option Int := none
  invalidationReason : Option String := none

/-- The tables, with their primary keys. -/
structure Database where
  states : List CompactedRow
  messages : List Message
  conversations : List Conversation
  projects : List Project
  createdAt : String → Int
  stateKeys : (states.map CompactedRow.id).Nodup
  messageKeys : (messages.map Message.id).Nodup
  conversationKeys : (conversations.map Conversation.id).Nodup

namespace Database
variable (db : Database)

/-- `compactedContextState.findUnique({ where: { id } })`. -/
def state (id : String) : Option CompactedRow := find CompactedRow.id id db.states

/-- `conversation.findFirst({ where: { id, userId } })`. -/
def conversationOf (id userId : String) : Option Conversation :=
  db.conversations.find? fun c => c.id = id ∧ c.userId = userId

/-- The project, for its owner and its members. -/
def projectOf (id userId : String) : Option Project :=
  db.projects.find? fun p => p.id = id ∧ (p.ownerUserId = userId ∨ userId ∈ p.memberUserIds)

/-- `message.findFirst` with a condition on the message and one on its conversation. -/
def findMessage (message : Message → Bool) (conversation : Conversation → Bool) :
    Option (Message × Conversation) :=
  db.messages.findSome? fun m =>
    if message m then
      (db.conversations.find? fun c => c.id = m.conversationId ∧ conversation c).map (m, ·)
    else none

variable {db}

section
variable {message : Message → Bool} {conversation : Conversation → Bool} {c : Conversation}

theorem of_findMessage {m : Message} (h : db.findMessage message conversation = some (m, c)) :
    m ∈ db.messages ∧ c ∈ db.conversations ∧ message m = true ∧ c.id = m.conversationId ∧
      conversation c = true := by
  obtain ⟨m', mem, found⟩ := exists_of_findSome?_eq_some h
  split at found
  · rename_i fits
    obtain ⟨c', same, ⟨⟩⟩ := Option.map_eq_some_iff.1 found
    have both := find?_some same
    rw [decide_eq_true_eq] at both
    exact ⟨mem, mem_of_find?_eq_some same, fits, both.1, both.2⟩
  · cases found

/-- A condition that one message alone can meet finds it. -/
theorem findMessage_eq_some (one : ∀ m m', message m = true → message m' = true → m.id = m'.id) {m : Message} :
    db.findMessage message conversation = some (m, c) ↔
      m ∈ db.messages ∧ c ∈ db.conversations ∧ message m = true ∧ c.id = m.conversationId ∧
        conversation c = true := by
  refine ⟨of_findMessage, ?_⟩
  rintro ⟨hm, hc, fits, own, fits'⟩
  have some : (db.findMessage message conversation).isSome := by
    rw [findMessage, isSome_findSome?, any_eq_true]
    refine ⟨m, hm, ?_⟩
    rw [if_pos fits, Option.isSome_map, find?_isSome]
    exact ⟨c, hc, by simp [own, fits']⟩
  obtain ⟨⟨m', c'⟩, found⟩ := Option.isSome_iff_exists.1 some
  obtain ⟨hm', hc', fits₂, own', -⟩ := of_findMessage found
  cases eq_of_key db.messageKeys hm' hm (one m' m fits₂ fits)
  cases eq_of_key db.conversationKeys hc' hc (own'.trans own.symm)
  exact found

end

theorem state_eq_some {id : String} {row : CompactedRow} :
    db.state id = some row ↔ row ∈ db.states ∧ row.id = id :=
  ⟨mem_of_find, fun h => find_eq_of_mem db.stateKeys h.1 h.2⟩

end Database

/-- A column that is set, as `&&` and `!` take it. -/
def truthy : Option String → Option String
  | some value => if value = "" then none else some value
  | none => none

/-- `scopeIdForCompactedState`; `none` throws. -/
def scopeIdForCompactedState (row : CompactedRow) : Option String :=
  match row.scopeKind with
  | .project => truthy row.projectId
  | .conversation => truthy row.conversationId
  | .thread => truthy row.threadId

/-- `compactedScopeReadable`. -/
def compactedScopeReadable (db : Database) (actorUserId : String) (row : CompactedRow) : Bool :=
  match row.scopeKind with
  | .conversation => (truthy row.conversationId).any fun id =>
      row.ownerUserId = actorUserId ∧ (db.conversationOf id actorUserId).isSome
  | .thread => (truthy row.threadId).any fun id => row.ownerUserId = actorUserId ∧
      (db.conversations.find? fun c => c.id = id ∧ c.userId = actorUserId ∧ c.isThread).isSome
  | .project => (truthy row.projectId).any fun id => (db.projectOf id actorUserId).isSome

/-!
# Whether the sources of a state are current

`canReadCompactedState` of `compaction.ts` and the walk over the recorded
sources of a state. The walk is given a number of nested calls it may make.
-/

open Js

/-- A recorded source. The dates are not read back. -/
structure SourceRef where
  sourceType : String
  sourceId : String
  sourceVersion : String
  sourceScopeKind : String
  sourceScopeId : String

/-- One entry of the recorded list, when all its fields are strings. -/
def parseSourceRef (entry : Json) : Option SourceRef := do
  let sourceType ← entry.field "sourceType" >>= Json.asString
  let sourceId ← entry.field "sourceId" >>= Json.asString
  let sourceVersion ← entry.field "sourceVersion" >>= Json.asString
  let sourceScopeKind ← entry.field "sourceScopeKind" >>= Json.asString
  let sourceScopeId ← entry.field "sourceScopeId" >>= Json.asString
  return ⟨sourceType, sourceId, sourceVersion, sourceScopeKind, sourceScopeId⟩

/-- One bad entry spoils the list. -/
def parseSourceRefs (value : Json) : List SourceRef :=
  match value with
  | .array entries => (entries.mapM parseSourceRef).getD []
  | _ => []

def compactedScopeMatchesRef (row : CompactedRow) (ref : SourceRef) : Bool :=
  row.scopeKind.name = ref.sourceScopeKind ∧ scopeIdForCompactedState row = some ref.sourceScopeId

/-- The message that a reference of `row` names, if it is as it was. -/
def messageCurrent (db : Database) (row : CompactedRow) (ref : SourceRef) : Bool :=
  if ref.sourceScopeKind ≠ ScopeKind.conversation.name ∧ ref.sourceScopeKind ≠ ScopeKind.thread.name then
    false
  else
    let found := db.findMessage
      (fun m => m.id = ref.sourceId ∧ m.status = .complete ∧ m.conversationId = ref.sourceScopeId)
      (fun c => c.userId = row.ownerUserId ∧ (ref.sourceScopeKind = ScopeKind.thread.name → c.isThread))
    found.any fun message => toISOString message.1.updatedAt = ref.sourceVersion

/-- What is asked of a cited state before its own sources are looked at. -/
def stateCurrent (source : CompactedRow) (ref : SourceRef) : Bool :=
  toString source.version = ref.sourceVersion ∧ compactedScopeMatchesRef source ref ∧
    (source.invalidatedAt = none ∨ source.invalidationReason = some "SUPERSEDED")

/-- `for (const ref of refs)`; the first that is not current ends the loop. -/
def everyRef (current : SourceRef → Option Bool) : List SourceRef → Option Bool
  | [] => some true
  | ref :: refs =>
    match current ref with
    | some true => everyRef current refs
    | result => result

/-- One turn of the loop; `walk` is the call for a cited state. -/
def refCurrent (db : Database) (row : CompactedRow) (walk : CompactedRow → Option Bool)
    (ref : SourceRef) : Option Bool :=
  if ref.sourceType = "MESSAGE" then some (messageCurrent db row ref)
  else if ref.sourceType = "COMPACTED_STATE" then
    match db.state ref.sourceId with
    | none => some false
    | some source => if stateCurrent source ref then walk source else some false
  else some false

def compactedStateLineageCurrent (db : Database) : Nat → CompactedRow → List String → Option Bool
  | 0, _, _ => none
  | calls + 1, row, visited =>
    if row.id ∈ visited then some false
    else if parseSourceRefs row.sourceRefs = [] then some false
    else
      everyRef
        (refCurrent db row fun source =>
          compactedStateLineageCurrent db calls source (row.id :: visited))
        (parseSourceRefs row.sourceRefs)

/-- Calls nest at most as deep as there are states, and one more. -/
def compactedSourcesCurrent (db : Database) (row : CompactedRow) : Option Bool :=
  compactedStateLineageCurrent db (db.states.length + 1) row []

def CompactedRow.invalidate (row : CompactedRow) (now : Int) (reason : String) : CompactedRow :=
  { row with invalidatedAt := some now, invalidationReason := some reason }

/-- `updateMany` of the states that are live and match. -/
def Database.invalidateWhere (db : Database) (which : CompactedRow → Bool) (now : Int)
    (reason : String) : Database :=
  { db with
    states := db.states.map fun s =>
      if which s ∧ s.invalidatedAt = none then s.invalidate now reason else s
    stateKeys := by
      have keys : CompactedRow.id ∘ (fun s : CompactedRow =>
          if which s ∧ s.invalidatedAt = none then s.invalidate now reason else s) =
          CompactedRow.id := by
        funext s
        simp only [Function.comp_apply]
        split <;> rfl
      rw [List.map_map, keys]
      exact db.stateKeys }

/-- The answer and the database, in which a stale state is invalidated. -/
def canReadCompactedState (db : Database) (actorUserId stateId : String) (now : Int) :
    Option (Bool × Database) :=
  match db.state stateId with
  | none => some (false, db)
  | some row =>
    if row.invalidatedAt ≠ none then some (false, db)
    else if ¬ compactedScopeReadable db actorUserId row then some (false, db)
    else do
      let current ← compactedSourcesCurrent db row
      if current then return (true, db)
      else
        return (false, db.invalidateWhere (fun s => s.id = row.id) now "SOURCE_STALE_OR_INACCESSIBLE")

end Vimla.Context
