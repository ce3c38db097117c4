import Vimla.Context.Lineage
import Vimla.Lib.Checks
import Vimla.Lib.Grounding

/-!
# What a current lineage is

The walk over the recorded sources ends for every graph of states, and finds
them current exactly when all that the state cites, directly or not, is there
as it was recorded and no state cites itself.
-/

namespace Vimla.Context

open Js Grounding Relation List Option

/-- An entry that has all fields of the reference. -/
structure Records (entry : Json) (ref : SourceRef) : Prop where
  sourceType : entry.field "sourceType" = some (.string ref.sourceType)
  sourceId : entry.field "sourceId" = some (.string ref.sourceId)
  sourceVersion : entry.field "sourceVersion" = some (.string ref.sourceVersion)
  sourceScopeKind : entry.field "sourceScopeKind" = some (.string ref.sourceScopeKind)
  sourceScopeId : entry.field "sourceScopeId" = some (.string ref.sourceScopeId)

/-- A list of well-formed entries, and what they say. -/
def Recorded (value : Json) (refs : List SourceRef) : Prop :=
  ∃ entries, value = .array entries ∧ List.Forall₂ Records entries refs

variable {value : Json}

theorem asString_eq_some {text : String} : value.asString = some text ↔ value = .string text := by
  cases value <;> simp [Json.asString]

theorem parseSourceRef_eq_some {entry : Json} {ref : SourceRef} :
    parseSourceRef entry = some ref ↔ Records entry ref := by
  have field (key text : String) :
      (entry.field key >>= Json.asString) = some text ↔ entry.field key = some (.string text) := by
    simp [bind_eq_some_iff, asString_eq_some]
  simp only [parseSourceRef, bind, bind_eq_some_iff] at *
  constructor
  · rintro ⟨sourceType, h1, sourceId, h2, sourceVersion, h3, kind, h4, scopeId, h5, ⟨⟩⟩
    exact ⟨(field _ _).1 h1, (field _ _).1 h2, (field _ _).1 h3, (field _ _).1 h4, (field _ _).1 h5⟩
  · intro h
    exact ⟨_, (field _ _).2 h.sourceType, _, (field _ _).2 h.sourceId, _, (field _ _).2 h.sourceVersion,
      _, (field _ _).2 h.sourceScopeKind, _, (field _ _).2 h.sourceScopeId, rfl⟩

variable {refs : List SourceRef}

/-- A list that is not empty is parsed when it is recorded. -/
theorem parseSourceRefs_eq (nonempty : refs ≠ []) :
    parseSourceRefs value = refs ↔ Recorded value refs := by
  have each {entries : List Json} : entries.mapM parseSourceRef = some refs ↔
      List.Forall₂ Records entries refs := by
    rw [Checks.mapM_eq_some]
    constructor <;> exact fun h => h.imp fun _ _ => by simp [parseSourceRef_eq_some]
  constructor
  · intro h
    unfold parseSourceRefs at h
    split at h
    · rename_i entries
      cases parsed : entries.mapM parseSourceRef with
      | none =>
        rw [parsed] at h
        exact absurd h.symm nonempty
      | some refs' =>
        rw [parsed] at h
        exact ⟨entries, rfl, each.1 (parsed.trans (congrArg some h))⟩
    · exact absurd h.symm nonempty
  · rintro ⟨entries, rfl, listed⟩
    rw [parseSourceRefs, each.2 listed]
    rfl

/-- The referenced message is complete, of the owner of the citing state and as
it was recorded; a cited state exists as recorded and is live or superseded. -/
inductive RefGrounded (db : Database) (row : CompactedRow) (ref : SourceRef) : Prop
  | message (type : ref.sourceType = "MESSAGE") (m : Message) (mem : m ∈ db.messages)
    (c : Conversation) (mem' : c ∈ db.conversations) (own : c.id = m.conversationId)
    (named : m.id = ref.sourceId) (complete : m.status = .complete)
    (place : m.conversationId = ref.sourceScopeId) (owner : c.userId = row.ownerUserId)
    (scope : ref.sourceScopeKind = "CONVERSATION" ∨ ref.sourceScopeKind = "THREAD" ∧ c.isThread = true)
    (version : toISOString m.updatedAt = ref.sourceVersion)
  | state (type : ref.sourceType = "COMPACTED_STATE") (source : CompactedRow)
    (mem : source ∈ db.states) (named : source.id = ref.sourceId)
    (version : toString source.version = ref.sourceVersion)
    (scope : source.scopeKind.name = ref.sourceScopeKind)
    (scopeId : scopeIdForCompactedState source = some ref.sourceScopeId)
    (usable : source.invalidatedAt = none ∨ source.invalidationReason = some "SUPERSEDED")

/-- The state has recorded its sources, and they are as recorded. -/
def InOrder (db : Database) (id : String) : Prop :=
  ∃ row ∈ db.states, row.id = id ∧ ∃ refs, Recorded row.sourceRefs refs ∧ refs ≠ [] ∧
    ∀ ref ∈ refs, RefGrounded db row ref

/-- The first state cites the second. -/
def Cites (db : Database) (id id' : String) : Prop :=
  ∃ row ∈ db.states, row.id = id ∧ ∃ refs, Recorded row.sourceRefs refs ∧
    ∃ ref ∈ refs, ref.sourceType = "COMPACTED_STATE" ∧ ref.sourceId = id'

/-- All that the state cites, directly or not, is as recorded, and none of it
cites itself. -/
def LineageGrounded (db : Database) (id : String) : Prop :=
  ∀ id', ReflTransGen (Cites db) id id' → InOrder db id' ∧ ¬ TransGen (Cites db) id' id'

section Walk
variable {db : Database} (row : CompactedRow)

theorem messageCurrent_iff {ref : SourceRef} (type : ref.sourceType = "MESSAGE") :
    messageCurrent db row ref = true ↔ RefGrounded db row ref := by
  have kinds : ScopeKind.conversation.name = "CONVERSATION" ∧ ScopeKind.thread.name = "THREAD" := ⟨rfl, rfl⟩
  unfold messageCurrent
  rw [kinds.1, kinds.2]
  split
  · rename_i other
    simp only [Bool.false_eq_true, false_iff]
    rintro (⟨_, m, _, c, _, _, _, _, _, _, scope | scope, _⟩ | ⟨type', _⟩)
    · exact other.1 scope
    · exact other.2 scope.1
    · simp [type] at type'
  · rename_i scope
    rw [not_and_or, not_not, not_not] at scope
    rw [Option.any_eq_true]
    constructor
    · rintro ⟨⟨m, c⟩, found, version⟩
      rw [Database.findMessage_eq_some fun m m' h h' => by simp at h h'; rw [h.1, h'.1]] at found
      obtain ⟨hm, hc, fits, own, fits'⟩ := found
      simp only [decide_eq_true_eq] at fits fits' version
      refine .message type m hm c hc own fits.1 fits.2.1 fits.2.2 fits'.1 ?_ version
      exact scope.imp id fun thread => ⟨thread, fits'.2 thread⟩
    · rintro (⟨_, m, hm, c, hc, own, named, complete, place, owner, kind, version⟩ | ⟨type', _⟩)
      · refine ⟨(m, c), ?_, by simpa using version⟩
        rw [Database.findMessage_eq_some fun m m' h h' => by simp at h h'; rw [h.1, h'.1]]
        refine ⟨hm, hc, by simp [named, complete, place], own, ?_⟩
        obtain kind | ⟨kind, thread⟩ := kind
        · simp [owner, kind]
        · simp [owner, kind, thread]
      · simp [type] at type'

theorem stateCurrent_iff {ref : SourceRef} {source : CompactedRow} (type : ref.sourceType = "COMPACTED_STATE")
    (found : db.state ref.sourceId = some source) :
    stateCurrent source ref = true ↔ RefGrounded db row ref := by
  obtain ⟨mem, named⟩ := Database.state_eq_some.1 found
  simp only [stateCurrent, compactedScopeMatchesRef, decide_eq_true_eq]
  constructor
  · rintro ⟨version, ⟨scope, scopeId⟩, usable⟩
    exact .state type source mem named version scope scopeId usable
  · rintro (⟨type', _⟩ | ⟨_, source', mem', named', version, scope, scopeId, usable⟩)
    · simp [type] at type'
    · cases Rows.eq_of_key db.stateKeys mem' mem (named'.trans named.symm)
      exact ⟨version, ⟨scope, scopeId⟩, usable⟩

theorem everyRef_total {current : SourceRef → Option Bool} {P : SourceRef → Prop}
    (each : ∀ ref ∈ refs, ∃ result, current ref = some result ∧ (result = true ↔ P ref)) :
    ∃ result, everyRef current refs = some result ∧ (result = true ↔ ∀ ref ∈ refs, P ref) := by
  induction refs with
  | nil => exact ⟨true, rfl, by simp⟩
  | cons ref refs ih =>
    obtain ⟨first, answer, meaning⟩ := each ref mem_cons_self
    rw [everyRef, answer]
    cases first with
    | false =>
      refine ⟨false, rfl, ?_⟩
      simp only [Bool.false_eq_true, false_iff] at meaning ⊢
      exact fun all => meaning (all ref mem_cons_self)
    | true =>
      obtain ⟨rest, answer', meaning'⟩ := ih fun ref mem => each ref (mem_cons_of_mem _ mem)
      refine ⟨rest, answer', ?_⟩
      rw [meaning', forall_mem_cons]
      exact ⟨fun all => ⟨meaning.1 rfl, all⟩, And.right⟩

/-- One turn, when the call for a cited state answers for it. -/
theorem refCurrent_total {walk : CompactedRow → Option Bool} {Q : String → Prop} {ref : SourceRef}
    (calls : ∀ source ∈ db.states, ∃ result, walk source = some result ∧ (result = true ↔ Q source.id)) :
    ∃ result, refCurrent db row walk ref = some result ∧ (result = true ↔
      RefGrounded db row ref ∧ (ref.sourceType = "COMPACTED_STATE" → Q ref.sourceId)) := by
  unfold refCurrent
  by_cases message : ref.sourceType = "MESSAGE"
  · refine ⟨_, if_pos message, ?_⟩
    rw [messageCurrent_iff row message]
    exact ⟨fun grounded => ⟨grounded, fun type => by simp [message] at type⟩, And.left⟩
  rw [if_neg message]
  by_cases state : ref.sourceType = "COMPACTED_STATE"
  · rw [if_pos state]
    cases found : db.state ref.sourceId with
    | none =>
      refine ⟨false, rfl, ?_⟩
      simp only [Bool.false_eq_true, false_iff]
      rintro ⟨⟨type, _⟩ | ⟨_, source, mem, named, _⟩, -⟩
      · exact message type
      · simp [Database.state_eq_some.2 ⟨mem, named⟩] at found
    | some source =>
      obtain ⟨mem, named⟩ := Database.state_eq_some.1 found
      have itself := stateCurrent_iff row state found
      by_cases current : stateCurrent source ref = true
      · obtain ⟨result, answer, meaning⟩ := calls source mem
        refine ⟨result, (if_pos current).trans answer, ?_⟩
        rw [meaning, named]
        exact ⟨fun off => ⟨itself.1 current, fun _ => off⟩, fun h => h.2 state⟩
      · refine ⟨false, if_neg current, ?_⟩
        simp only [Bool.false_eq_true, false_iff]
        exact fun h => current (itself.2 h.1)
  · refine ⟨false, if_neg state, ?_⟩
    simp only [Bool.false_eq_true, false_iff]
    rintro ⟨⟨type, _⟩ | ⟨type, _⟩, -⟩
    · exact message type
    · exact state type

/-- With a call for each state that is not on the path, and one more, the walk
ends and finds out whether what the state cites is grounded. -/
theorem compactedStateLineageCurrent_total {calls : Nat} {visited : List String} (mem : row ∈ db.states)
    (enough : (db.states.countP fun s => s.id ∉ visited) < calls) :
    ∃ result, compactedStateLineageCurrent db calls row visited = some result ∧
      (result = true ↔ GroundedOff (Cites db) (InOrder db) visited row.id) := by
  induction calls generalizing row visited with
  | zero => omega
  | succ calls ih =>
    rw [compactedStateLineageCurrent, groundedOff_iff]
    by_cases met : row.id ∈ visited
    · exact ⟨false, if_pos met, by simp [met]⟩
    rw [if_neg met]
    have self {row' : CompactedRow} (mem' : row' ∈ db.states) (same : row'.id = row.id) : row' = row :=
      Rows.eq_of_key db.stateKeys mem' mem same
    by_cases empty : parseSourceRefs row.sourceRefs = []
    · refine ⟨false, if_pos empty, ?_⟩
      simp only [Bool.false_eq_true, false_iff]
      rintro ⟨-, ⟨row', mem', same, refs, recorded, nonempty, -⟩, -⟩
      rw [self mem' same, ← parseSourceRefs_eq nonempty] at recorded
      exact nonempty (recorded.symm.trans empty)
    rw [if_neg empty]
    have recorded := (parseSourceRefs_eq empty).1 rfl
    have fewer : (db.states.countP fun s => s.id ∉ row.id :: visited) < calls := by
      have less := Rows.countP_lt (p := fun s : CompactedRow => decide (s.id ∉ row.id :: visited))
        (q := fun s => decide (s.id ∉ visited)) (fun s _ hs => by simp_all) mem (by simpa using met)
        (by simp)
      omega
    obtain ⟨result, answer, meaning⟩ := everyRef_total fun ref (_ : ref ∈ parseSourceRefs row.sourceRefs) =>
      refCurrent_total row fun source mem' => ih source mem' fewer
    refine ⟨result, answer, ?_⟩
    rw [meaning]
    constructor
    · intro all
      refine ⟨met, ⟨row, mem, rfl, _, recorded, empty, fun ref hr => (all ref hr).1⟩, ?_⟩
      rintro id ⟨row', mem', same, refs, recorded', ref, hr, type, rfl⟩
      rw [self mem' same, ← parseSourceRefs_eq (ne_nil_of_mem hr)] at recorded'
      exact (all ref (recorded' ▸ hr)).2 type
    · rintro ⟨-, ⟨row', mem', same, refs, recorded', nonempty, grounded⟩, next⟩ ref hr
      cases self mem' same
      rw [← parseSourceRefs_eq nonempty] at recorded'
      exact ⟨grounded ref (recorded' ▸ hr),
        fun type => next _ ⟨row, mem, rfl, _, recorded, ref, hr, type, rfl⟩⟩

end Walk

theorem enough_calls {db : Database} {calls : Nat} (enough : db.states.length < calls) :
    (db.states.countP fun s => s.id ∉ ([] : List String)) < calls :=
  Nat.lt_of_le_of_lt countP_le_length enough

theorem compactedSourcesCurrent_total {db : Database} {row : CompactedRow} (stored : row ∈ db.states) :
    ∃ result, compactedSourcesCurrent db row = some result ∧
      (result = true ↔ LineageGrounded db row.id) := by
  obtain ⟨result, answer, meaning⟩ := compactedStateLineageCurrent_total row stored
    (enough_calls (Nat.lt_succ_self db.states.length))
  exact ⟨result, answer, meaning.trans groundedOff_nil⟩

/-- A state that can be read has a grounded lineage. -/
theorem canReadCompactedState_grounded (db : Database) (actorUserId id : String) (now : Int) :
    ∃ answer db', canReadCompactedState db actorUserId id now = some (answer, db') ∧
      (answer = true → LineageGrounded db id) := by
  unfold canReadCompactedState
  cases found : db.state id with
  | none => exact ⟨false, db, rfl, by simp⟩
  | some row =>
    obtain ⟨stored, rfl⟩ := Database.state_eq_some.1 found
    by_cases invalid : row.invalidatedAt ≠ none
    · exact ⟨false, db, if_pos invalid, by simp⟩
    by_cases unreadable : ¬ compactedScopeReadable db actorUserId row
    · exact ⟨false, db, (if_neg invalid).trans (if_pos unreadable), by simp⟩
    obtain ⟨current, answer, meaning⟩ := compactedSourcesCurrent_total stored
    simp only [if_neg invalid, if_neg unreadable, answer, bind_eq_bind, bind_some]
    cases current with
    | true => exact ⟨true, db, rfl, fun _ => meaning.1 rfl⟩
    | false => exact ⟨false, _, rfl, by simp⟩

/-- Whatever the states cite, the walk ends, and it answers `true` exactly for
the states whose lineage is grounded; no other state can be read. -/
theorem compactedStateLineageCurrent_exact (db : Database) {row : CompactedRow} (stored : row ∈ db.states) :
    (∃ result, (∀ calls, db.states.length < calls →
        compactedStateLineageCurrent db calls row [] = some result) ∧
      (result = true ↔ LineageGrounded db row.id)) ∧
    ∀ actorUserId id now, ∃ answer db', canReadCompactedState db actorUserId id now = some (answer, db') ∧
      (answer = true → LineageGrounded db id) := by
  refine ⟨?_, canReadCompactedState_grounded db⟩
  obtain ⟨result, -, meaning⟩ := compactedSourcesCurrent_total stored
  refine ⟨result, fun calls enough => ?_, meaning⟩
  obtain ⟨result', answer, meaning'⟩ := compactedStateLineageCurrent_total row stored
    (enough_calls enough)
  rw [answer, Bool.eq_iff_iff.2 ((meaning'.trans groundedOff_nil).trans meaning.symm)]

namespace Cited

def ref (sourceType sourceId sourceVersion : String) : Json :=
  .object [("sourceType", .string sourceType), ("sourceId", .string sourceId),
    ("sourceVersion", .string sourceVersion), ("sourceScopeKind", .string "CONVERSATION"),
    ("sourceScopeId", .string "conversation")]

def state (id : String) (version : Nat) (refs : List Json) (invalidatedAt : Option Int)
    (invalidationReason : Option String) : CompactedRow where
  id := id
  ownerUserId := "user"
  scopeKind := .conversation
  scopeKey := "CONVERSATION:conversation"
  projectId := none
  conversationId := some "conversation"
  threadId := none
  version := version
  classification := .PRIVATE
  content := "what was said"
  contentHash := ""
  sourceRefs := .array refs
  sourceFingerprint := ""
  coveredFromSourceId := "message"
  coveredToSourceId := "message"
  coveredFromAt := 0
  coveredToAt := 0
  sourceCount := 1
  inputTokenEstimate := 1
  outputTokenEstimate := 1
  validFrom := 1
  invalidatedAt := invalidatedAt
  invalidationReason := invalidationReason

def second : CompactedRow := state "second" 2 [ref "COMPACTED_STATE" "first" "1"] none none

/-- A message, a state of it, and a state of that one. -/
def db : Database where
  states := [state "first" 1 [ref "MESSAGE" "message" "1970-01-01T00:00:00.000Z"] (some 2)
    (some "SUPERSEDED"), second]
  messages := [⟨"message", "conversation", "hello", .complete, 0⟩]
  conversations := [⟨"conversation", "user", .chat, none⟩]
  projects := []
  createdAt := fun _ => 0
  stateKeys := by decide
  messageKeys := by decide
  conversationKeys := by decide

end Cited

theorem cited_lineage_exact :
    (∃ result, (∀ calls, Cited.db.states.length < calls →
        compactedStateLineageCurrent Cited.db calls Cited.second [] = some result) ∧
      (result = true ↔ LineageGrounded Cited.db Cited.second.id)) ∧
    ∀ actorUserId id now, ∃ answer db',
      canReadCompactedState Cited.db actorUserId id now = some (answer, db') ∧
        (answer = true → LineageGrounded Cited.db id) :=
  compactedStateLineageCurrent_exact Cited.db (mem_cons_of_mem _ mem_cons_self)

example : compactedSourcesCurrent Cited.db Cited.second = some true := by decide +kernel

end Vimla.Context
