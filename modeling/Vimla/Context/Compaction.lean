import Vimla.Context.Lineage
import Vimla.Lib.Sorting

/-!
# Refreshing a compacted state

`CompactedStateService.refresh` of `compaction.ts`, statement by statement, for
any number of calls at once. Each statement sees what is committed when it is
executed; the writes of a call are committed together.
-/

namespace Vimla.Context

open Js

inductive MemoryErrorCode
  | NOT_FOUND | FORBIDDEN | VALIDATION_ERROR | CONFLICT | SENSITIVE_CONTENT
  deriving DecidableEq

structure MemoryError where
  code : MemoryErrorCode
  message : String

/-- What a call rejects with: an error of its own, or one of the database. -/
inductive Failure
  | memory (error : MemoryError)
  | database

inductive CompactedScope
  | conversation (conversationId : String)
  | project (projectId : String)
  | thread (threadId : String)

structure NormalizedCompactedScope where
  kind : ScopeKind
  scopeKey : String
  projectId : Option String
  conversationId : Option String
  threadId : Option String

def normalizeScope (actorUserId : String) : CompactedScope → NormalizedCompactedScope
  | .conversation conversationId =>
    ⟨.conversation, "CONVERSATION:" ++ conversationId, none, some conversationId, none⟩
  | .project projectId => ⟨.project, "PROJECT:" ++ projectId, some projectId, none, none⟩
  | .thread threadId =>
    ⟨.thread, "THREAD:" ++ actorUserId ++ ":" ++ threadId, none, none, some threadId⟩

inductive SourceType | message | compactedState
  deriving DecidableEq

def SourceType.name : SourceType → String
  | message => "MESSAGE"
  | compactedState => "COMPACTED_STATE"

structure CompactedStateSourceRef where
  sourceType : SourceType
  sourceId : String
  sourceVersion : String
  sourceScopeKind : ScopeKind
  sourceScopeId : String

/-- The reference as it is read back from a stored state. -/
def CompactedStateSourceRef.recorded (ref : CompactedStateSourceRef) : SourceRef :=
  ⟨ref.sourceType.name, ref.sourceId, ref.sourceVersion, ref.sourceScopeKind.name, ref.sourceScopeId⟩

structure RefreshCompactedStateInput where
  actorUserId : String
  scope : CompactedScope
  classification : Classification
  content : String
  sourceRefs : List CompactedStateSourceRef
  compactedStateTriggerTokens : Nat
  explicitProjectWrite : Option String

def RefreshCompactedStateInput.normalized (input : RefreshCompactedStateInput) : NormalizedCompactedScope :=
  normalizeScope input.actorUserId input.scope

/-- What the calls use of their surroundings. -/
structure Runtime where
  sha256 : String → String
  normalizeNFC : String → String
  localeCompare : String → String → Ordering
  hashtext : String → Int
  containsSensitiveContextData : String → Bool
  containsSensitivePersonalMemoryData : String → Bool

def hashText (rt : Runtime) (value : String) : String := rt.sha256 (trim (rt.normalizeNFC value))

def hashJson (rt : Runtime) (value : Json) : String := rt.sha256 value.stringify

def estimateTokens (value : String) : Nat := max 1 value.utf8ByteSize

def Classification.rank : Classification → Nat
  | PUBLIC => 0
  | INTERNAL => 1
  | PRIVATE => 2
  | RESTRICTED => 3

def strongerClassification (left right : Classification) : Classification :=
  if left.rank ≥ right.rank then left else right

def throwMemory {α : Type} (code : MemoryErrorCode) (message : String) : Except Failure α :=
  .error (.memory ⟨code, message⟩)

def validateRefreshInput (rt : Runtime) (input : RefreshCompactedStateInput) : Except Failure Unit :=
  let content := trim input.content
  if length content < 1 ∨ length content > 32000 then
    throwMemory .VALIDATION_ERROR "Compacted state content is invalid"
  else if rt.containsSensitiveContextData content then
    throwMemory .SENSITIVE_CONTENT "Secret-like content cannot be stored in compacted context state"
  else .ok ()

/-- `mayWrite` is the answer of the authorizer, and `false` where there is none. -/
def assertCompactedScopeWritable (db : Database) (actorUserId : String) (scope : NormalizedCompactedScope)
    (mayWrite : Bool) : Except Failure Unit :=
  match scope.kind with
  | .thread =>
    if (db.conversations.find? fun c =>
        c.id = scope.threadId.getD "" ∧ c.userId = actorUserId ∧ c.isThread).isSome then .ok ()
    else throwMemory .NOT_FOUND "Thread compaction scope not found"
  | .conversation =>
    if (db.conversationOf (scope.conversationId.getD "") actorUserId).isSome then .ok ()
    else throwMemory .NOT_FOUND "Conversation compaction scope not found"
  | .project =>
    if (db.projectOf (scope.projectId.getD "") actorUserId).isNone then
      throwMemory .NOT_FOUND "Project compaction scope not found"
    else if mayWrite then .ok ()
    else throwMemory .FORBIDDEN "Project compaction write is not allowed"

structure ResolvedCompactionRef extends CompactedStateSourceRef where
  occurredAt : Int
  classification : Classification
  inputTokenEstimate : Nat
  coveredFromSourceId : String
  coveredToSourceId : String
  coveredFromAt : Int
  coveredToAt : Int
  sourceCount : Nat

/-- The entry that is stored for a source. -/
def ResolvedCompactionRef.json (ref : ResolvedCompactionRef) : Json :=
  .object [("sourceType", .string ref.sourceType.name), ("sourceId", .string ref.sourceId),
    ("sourceVersion", .string ref.sourceVersion), ("occurredAt", .string (toISOString ref.occurredAt)),
    ("sourceScopeKind", .string ref.sourceScopeKind.name), ("sourceScopeId", .string ref.sourceScopeId)]

def staleMessage {α : Type} : Except Failure α :=
  throwMemory .VALIDATION_ERROR "Compaction message source is stale, forged, or inaccessible"

def staleState {α : Type} : Except Failure α :=
  throwMemory .VALIDATION_ERROR "Compacted source state is stale, forged, or inaccessible"

def resolveMessage (db : Database) (actorUserId : String) (ref : CompactedStateSourceRef) :
    Except Failure ResolvedCompactionRef :=
  match db.findMessage (fun m => m.id = ref.sourceId ∧ m.status = .complete)
      (fun c => c.userId = actorUserId) with
  | none => staleMessage
  | some (message, conversation) =>
    if toISOString message.updatedAt ≠ ref.sourceVersion ∨
        (ref.sourceScopeKind ≠ .conversation ∧ ref.sourceScopeKind ≠ .thread) ∨
        ref.sourceScopeId ≠ message.conversationId ∨
        (ref.sourceScopeKind = .thread ∧ ¬ conversation.isThread) then
      staleMessage
    else .ok {
      sourceType := .message
      sourceId := ref.sourceId
      sourceVersion := toISOString message.updatedAt
      occurredAt := db.createdAt message.id
      sourceScopeKind := ref.sourceScopeKind
      sourceScopeId := message.conversationId
      classification := .PRIVATE
      inputTokenEstimate := estimateTokens message.content
      coveredFromSourceId := ref.sourceId
      coveredToSourceId := ref.sourceId
      coveredFromAt := db.createdAt message.id
      coveredToAt := db.createdAt message.id
      sourceCount := 1 }

/-- The first statement for a cited state, and what is checked of its row. -/
def readSource (db : Database) (ref : CompactedStateSourceRef) : Except Failure CompactedRow :=
  match db.state ref.sourceId with
  | none => staleState
  | some source =>
    if source.invalidatedAt ≠ none ∨ toString source.version ≠ ref.sourceVersion ∨
        ¬ compactedScopeMatchesRef source ref.recorded then
      staleState
    else .ok source

/-- The second, about its scope. -/
def resolveState (db : Database) (actorUserId : String) (source : CompactedRow) :
    Except Failure ResolvedCompactionRef :=
  if ¬ compactedScopeReadable db actorUserId source then staleState
  else
    match scopeIdForCompactedState source with
    | none => throwMemory .VALIDATION_ERROR "Compacted source scope is invalid"
    | some sourceScopeId => .ok {
      sourceType := .compactedState
      sourceId := source.id
      sourceVersion := toString source.version
      occurredAt := source.validFrom
      sourceScopeKind := source.scopeKind
      sourceScopeId := sourceScopeId
      classification := source.classification
      inputTokenEstimate := source.outputTokenEstimate
      coveredFromSourceId := source.coveredFromSourceId
      coveredToSourceId := source.coveredToSourceId
      coveredFromAt := source.coveredFromAt
      coveredToAt := source.coveredToAt
      sourceCount := source.sourceCount }

/-- Whether a source may go into a state of the target. -/
def admitSource (target : NormalizedCompactedScope) (explicitProjectWrite : Option String)
    (item : ResolvedCompactionRef) : Except Failure Unit :=
  match target.kind with
  | .conversation =>
    if item.sourceScopeKind = .conversation ∧ some item.sourceScopeId = target.conversationId then .ok ()
    else throwMemory .FORBIDDEN "Conversation compaction sources must belong to the target conversation"
  | .thread =>
    if item.sourceScopeKind = .thread ∧ some item.sourceScopeId = target.threadId then .ok ()
    else throwMemory .FORBIDDEN "Thread compaction sources must belong to the target thread"
  | .project =>
    if (item.sourceScopeKind = .project ∧ some item.sourceScopeId = target.projectId) ∨
        explicitProjectWrite = target.projectId then .ok ()
    else throwMemory .FORBIDDEN "Project compaction requires an explicit cross-scope write"

structure ResolvedSources where
  refs : List ResolvedCompactionRef
  classification : Classification
  inputTokenEstimate : Nat
  coveredFromSourceId : String
  coveredToSourceId : String
  coveredFromAt : Int
  coveredToAt : Int
  sourceCount : Nat

def fromOrder (rt : Runtime) (left right : ResolvedCompactionRef) : Ordering :=
  (compare left.coveredFromAt right.coveredFromAt).then
    (rt.localeCompare left.coveredFromSourceId right.coveredFromSourceId)

def toOrder (rt : Runtime) (left right : ResolvedCompactionRef) : Ordering :=
  (compare right.coveredToAt left.coveredToAt).then
    (rt.localeCompare right.coveredToSourceId left.coveredToSourceId)

/-- The end of `resolveCompactionSources`, when all sources are resolved. -/
def summarize (rt : Runtime) (resolved : List ResolvedCompactionRef) : Except Failure ResolvedSources :=
  let ordered := sort (fromOrder rt) resolved
  match ordered.head?, (sort (toOrder rt) ordered).head? with
  | some first, some last => .ok {
    refs := resolved
    classification := resolved.foldl (fun value ref => strongerClassification value ref.classification) .PUBLIC
    inputTokenEstimate := (resolved.map (·.inputTokenEstimate)).sum
    coveredFromSourceId := first.coveredFromSourceId
    coveredToSourceId := last.coveredToSourceId
    coveredFromAt := first.coveredFromAt
    coveredToAt := last.coveredToAt
    sourceCount := (resolved.map (·.sourceCount)).sum }
  | _, _ => throwMemory .VALIDATION_ERROR "Compaction source range is invalid"

def resolveCompactionPressureTokens (db : Database) (actorUserId : String)
    (scope : NormalizedCompactedScope) (fallback : Nat) : Nat :=
  let bytes (conversationId : String) : Nat :=
    if (db.conversations.find? fun c => c.id = conversationId ∧ c.userId = actorUserId ∧
        (scope.kind = .thread → c.isThread)).isSome then
      ((db.messages.filter fun m => m.conversationId = conversationId ∧ m.status = .complete).map
        fun m => max m.content.utf8ByteSize 1).sum
    else 0
  match scope.kind with
  | .conversation => min (bytes (scope.conversationId.getD "")) 9007199254740991
  | .thread => min (bytes (scope.threadId.getD "")) 9007199254740991
  | .project => fallback

/-- What is to be stored, but for the version. -/
structure Draft where
  sources : ResolvedSources
  content : String
  classification : Classification
  outputTokenEstimate : Nat
  sourceFingerprint : String

def draft (rt : Runtime) (input : RefreshCompactedStateInput) (pressureTokens : Nat)
    (sources : ResolvedSources) : Except Failure Draft :=
  if pressureTokens < input.compactedStateTriggerTokens then
    throwMemory .CONFLICT "Compaction is not required by the effective context budget"
  else
    let content := trim input.content
    let sourceClassification := strongerClassification input.classification sources.classification
    .ok {
      sources := sources
      content := content
      classification :=
        if rt.containsSensitivePersonalMemoryData content then
          strongerClassification sourceClassification .RESTRICTED
        else sourceClassification
      outputTokenEstimate := estimateTokens content
      sourceFingerprint := hashJson rt (.array (sources.refs.map ResolvedCompactionRef.json)) }

/-- `findFirst({ where: { scopeKey }, orderBy: { version: "desc" } })`. -/
def Database.latest (db : Database) (scopeKey : String) : Option CompactedRow :=
  (db.states.filter fun s => s.scopeKey = scopeKey).argmax CompactedRow.version

/-- The latest state, when it already says what is to be stored. -/
def unchanged (rt : Runtime) (what : Draft) (latest : Option CompactedRow) : Option CompactedRow :=
  latest.filter fun row => row.invalidatedAt = none ∧ row.sourceFingerprint = what.sourceFingerprint ∧
    row.contentHash = hashText rt what.content

def Draft.row (rt : Runtime) (what : Draft) (input : RefreshCompactedStateInput) (version : Nat)
    (id : String) (now : Int) : CompactedRow where
  id := id
  ownerUserId := input.actorUserId
  scopeKind := input.normalized.kind
  scopeKey := input.normalized.scopeKey
  projectId := input.normalized.projectId
  conversationId := input.normalized.conversationId
  threadId := input.normalized.threadId
  version := version
  classification := what.classification
  content := what.content
  contentHash := hashText rt what.content
  sourceRefs := .array (what.sources.refs.map ResolvedCompactionRef.json)
  sourceFingerprint := what.sourceFingerprint
  coveredFromSourceId := what.sources.coveredFromSourceId
  coveredToSourceId := what.sources.coveredToSourceId
  coveredFromAt := what.sources.coveredFromAt
  coveredToAt := what.sources.coveredToAt
  sourceCount := what.sources.sourceCount
  inputTokenEstimate := what.sources.inputTokenEstimate
  outputTokenEstimate := what.outputTokenEstimate
  validFrom := now

/-- `create`; the id is the primary key. -/
def Database.insert (db : Database) (row : CompactedRow) (fresh : db.state row.id = none) : Database :=
  { db with
    states := db.states ++ [row]
    stateKeys := Rows.nodup_append db.stateKeys fun s mem same => by
      simp [Database.state_eq_some.2 ⟨mem, same⟩] at fresh }

end Vimla.Context
