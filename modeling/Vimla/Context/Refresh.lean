import Vimla.Context.Derivation

/-!
# Refreshes at the same time

The calls to `refresh`, each with what it has read so far. A call waits for the
advisory lock of its scope key and holds it to its end; until then nothing of it
is committed. Between the statements of a call, other calls go on, states are
invalidated by readers, and messages, conversations and projects change.
-/

namespace Vimla.Context

open List Function Checks

/-- Where a call is. -/
inductive Call
  | idle
  | waiting (input : RefreshCompactedStateInput)
  | locked (input : RefreshCompactedStateInput)
  | resolving (input : RefreshCompactedStateInput) (resolved : List ResolvedCompactionRef)
      (left : List CompactedStateSourceRef)
  | checking (input : RefreshCompactedStateInput) (resolved : List ResolvedCompactionRef)
      (source : CompactedRow) (left : List CompactedStateSourceRef)
  | resolved (input : RefreshCompactedStateInput) (sources : ResolvedSources)
  | drafted (input : RefreshCompactedStateInput) (what : Draft)
  | versioned (input : RefreshCompactedStateInput) (what : Draft) (version : Nat)
  | returned (result : Except Failure CompactedRow)

/-- The tables, who holds which advisory lock, and the calls by their number. -/
structure System where
  db : Database
  lockedBy : Int → Option Nat
  calls : Nat → Call

/-- What a statement is answered from outside: the clock, the generated id and
the word of the authorizer. -/
structure Reply where
  supersededAt : Int := 0
  now : Int := 0
  id : String := ""
  mayWrite : Bool := false

inductive Event
  | call (caller : Nat) (input : RefreshCompactedStateInput)
  | next (caller : Nat) (reply : Reply)
  /-- The database gives up on the transaction of the call. -/
  | fail (caller : Nat)
  /-- The update of `canReadCompactedState`. -/
  | invalidate (id : String) (now : Int)
  /-- Whatever others write to the other tables. -/
  | edit (messages : List Message) (conversations : List Conversation) (projects : List Project)
      (messageKeys : (messages.map Message.id).Nodup)
      (conversationKeys : (conversations.map Conversation.id).Nodup)

def Event.caller : Event → Option Nat
  | call caller _ => some caller
  | next caller _ => some caller
  | fail caller => some caller
  | invalidate _ _ => none
  | edit _ _ _ _ _ => none

/-- The next read of a call that holds its lock, and what follows from it. -/
def Call.read (rt : Runtime) (db : Database) (reply : Reply) : Call → Except Failure Call
  | locked input => do
    assertCompactedScopeWritable db input.actorUserId input.normalized reply.mayWrite
    if input.sourceRefs.length < 1 ∨ input.sourceRefs.length > 512 then
      throwMemory .VALIDATION_ERROR "Compaction source range is invalid"
    else return resolving input [] input.sourceRefs
  | resolving input items [] => do
    let sources ← summarize rt items
    return resolved input sources
  | resolving input items (ref :: left) =>
    match ref.sourceType with
    | .message => do
      let item ← resolveMessage db input.actorUserId ref
      admitSource input.normalized input.explicitProjectWrite item
      return resolving input (items ++ [item]) left
    | .compactedState => do
      let source ← readSource db ref
      return checking input items source left
  | checking input items source left => do
    let item ← resolveState db input.actorUserId source
    admitSource input.normalized input.explicitProjectWrite item
    return resolving input (items ++ [item]) left
  | resolved input sources => do
    let pressureTokens :=
      resolveCompactionPressureTokens db input.actorUserId input.normalized sources.inputTokenEstimate
    let what ← draft rt input pressureTokens sources
    return drafted input what
  | call => .ok call

namespace System
variable (rt : Runtime) (s : System) (caller : Nat)

def set (call : Call) : System := { s with calls := update s.calls caller call }

/-- The call ends and its lock with it. -/
def finish (result : Except Failure CompactedRow) : System :=
  { s.set caller (.returned result) with
    lockedBy := fun lock => if s.lockedBy lock = some caller then none else s.lockedBy lock }

def follow : Except Failure Call → System
  | .ok call => s.set caller call
  | .error failure => s.finish caller (.error failure)

def refresh (input : RefreshCompactedStateInput) : System :=
  match s.calls caller with
  | .idle => s.follow caller do
    validateRefreshInput rt input
    return .waiting input
  | _ => s

/-- `pg_advisory_xact_lock`. -/
def lock (input : RefreshCompactedStateInput) : System :=
  let lock := rt.hashtext input.normalized.scopeKey
  if s.lockedBy lock = none then
    { s.set caller (.locked input) with lockedBy := update s.lockedBy lock (some caller) }
  else s

def readLatest (input : RefreshCompactedStateInput) (what : Draft) : System :=
  let latest := s.db.latest input.normalized.scopeKey
  match unchanged rt what latest with
  | some row => s.finish caller (.ok row)
  | none => s.set caller (.versioned input what ((latest.map CompactedRow.version).getD 0 + 1))

/-- `updateMany`, `create` and the commit. -/
def write (reply : Reply) (input : RefreshCompactedStateInput) (what : Draft) (version : Nat) : System :=
  let db := s.db.invalidateWhere (fun row => row.scopeKey = input.normalized.scopeKey)
    reply.supersededAt "SUPERSEDED"
  let row := what.row rt input version reply.id reply.now
  if fresh : db.state row.id = none then
    { s.finish caller (.ok row) with db := db.insert row fresh }
  else s.finish caller (.error .database)

def next (reply : Reply) : System :=
  match s.calls caller with
  | .idle => s
  | .waiting input => s.lock rt caller input
  | .drafted input what => s.readLatest rt caller input what
  | .versioned input what version => s.write rt caller reply input what version
  | .returned _ => s
  | call => s.follow caller (call.read rt s.db reply)

def fail : System :=
  match s.calls caller with
  | .idle => s
  | .returned _ => s
  | _ => s.finish caller (.error .database)

def step (s : System) : Event → System
  | .call caller input => s.refresh rt caller input
  | .next caller reply => s.next rt caller reply
  | .fail caller => s.fail caller
  | .invalidate id now =>
    { s with db := s.db.invalidateWhere (fun row => row.id = id) now "SOURCE_STALE_OR_INACCESSIBLE" }
  | .edit messages conversations projects messageKeys conversationKeys =>
    { s with db := { s.db with messages, conversations, projects, messageKeys, conversationKeys } }

/-- No call yet, and no state: the other tables are as they are. -/
def start (db : Database) : System where
  db := { db with states := [], stateKeys := nodup_nil }
  lockedBy := fun _ => none
  calls := fun _ => .idle

end System

/-!
# What refreshes keep

The states of a scope are numbered without a gap, one of them at most is valid,
and every state summarises the tree under it. A call knows that what it has
read is still in the tables.
-/

def ofScope (rows : List CompactedRow) (scopeKey : String) : List CompactedRow :=
  rows.filter fun row => row.scopeKey = scopeKey

def live (rows : List CompactedRow) : List CompactedRow := rows.filter fun row => row.invalidatedAt = none

/-- Versions count from one, in the order of creation. -/
def Numbered (rows : List CompactedRow) : Prop := rows.map CompactedRow.version = range' 1 rows.length

/-- The latest of numbered states has the last number. -/
theorem Numbered.latest {rows : List CompactedRow} (h : Numbered rows) :
    ((rows.argmax CompactedRow.version).map CompactedRow.version).getD 0 = rows.length := by
  have range (v : Nat) : v ∈ rows.map CompactedRow.version ↔ 1 ≤ v ∧ v < 1 + rows.length := by
    rw [h, mem_range'_1]
  cases found : rows.argmax CompactedRow.version with
  | none =>
    rw [argmax_eq_none.1 found]
    rfl
  | some row =>
    have mem := argmax_mem found
    have bound := (range row.version).1 (mem_map_of_mem mem)
    have nonempty := length_pos_of_mem mem
    obtain ⟨last, listed, final⟩ := mem_map.1 ((range rows.length).2 ⟨nonempty, by omega⟩)
    have most := le_of_mem_argmax listed found
    simp only [Option.map_some, Option.getD_some]
    omega

theorem invalidateWhere_states (db : Database) (which : CompactedRow → Bool) (now : Int) (reason : String) :
    ∃ f : CompactedRow → CompactedRow,
    (db.invalidateWhere which now reason).states = db.states.map f ∧
    (∀ row, ∃ invalidatedAt reason, f row = row.marked invalidatedAt reason) ∧
    (∀ row, (f row).invalidatedAt = none ↔ row.invalidatedAt = none ∧ which row = false) := by
  refine ⟨_, rfl, fun row => ?_, fun row => ?_⟩
  · split
    · exact ⟨_, _, rfl⟩
    · exact ⟨row.invalidatedAt, row.invalidationReason, rfl⟩
  · split
    · rename_i marked
      simp [CompactedRow.invalidate, marked.1]
    · rename_i kept
      constructor
      · intro valid
        exact ⟨valid, by simpa [valid] using kept⟩
      · exact And.left

/-- What holds of the stored states. -/
structure StatesSound (createdAt : String → Int) (rows : List CompactedRow) : Prop where
  derived : ∀ row ∈ rows, Derived createdAt rows row
  numbered : ∀ scopeKey, Numbered (ofScope rows scopeKey)
  valid : ∀ scopeKey, (live (ofScope rows scopeKey)).length ≤ 1

section States
variable {createdAt : String → Int} {rows : List CompactedRow} {f : CompactedRow → CompactedRow}

section
variable (marks : ∀ row, ∃ invalidatedAt reason, f row = row.marked invalidatedAt reason)
include marks

theorem extends_map :
    Extends rows (rows.map f) := by
  intro row mem
  obtain ⟨invalidatedAt, reason, same⟩ := marks row
  exact ⟨invalidatedAt, reason, same ▸ mem_map_of_mem mem⟩

theorem ofScope_map (scopeKey : String) : ofScope (rows.map f) scopeKey = (ofScope rows scopeKey).map f := by
  rw [ofScope, filter_map]
  congr 2
  funext row
  obtain ⟨_, _, same⟩ := marks row
  rw [comp_apply, same]
  rfl

end

theorem StatesSound.map (h : StatesSound createdAt rows)
    (marks : ∀ row, ∃ invalidatedAt reason, f row = row.marked invalidatedAt reason)
    (fewer : ∀ row, (f row).invalidatedAt = none → row.invalidatedAt = none) :
    StatesSound createdAt (rows.map f) where
  derived row' mem := by
    obtain ⟨row, listed, rfl⟩ := mem_map.1 mem
    obtain ⟨invalidatedAt, reason, same⟩ := marks row
    rw [same]
    exact (h.derived row listed).extends (extends_map marks) invalidatedAt reason
  numbered scopeKey := by
    have versions : CompactedRow.version ∘ f = CompactedRow.version := by
      funext row
      obtain ⟨_, _, same⟩ := marks row
      rw [comp_apply, same]
      rfl
    rw [ofScope_map marks, Numbered, map_map, versions, length_map]
    exact h.numbered scopeKey
  valid scopeKey := by
    rw [ofScope_map marks, live, ← countP_eq_length_filter, countP_map]
    refine le_trans (countP_mono_left fun row _ => ?_)
      (countP_eq_length_filter ▸ h.valid scopeKey)
    simpa using fewer row

theorem ofScope_append (row : CompactedRow) (scopeKey : String) : ofScope (rows ++ [row]) scopeKey =
    if row.scopeKey = scopeKey then ofScope rows scopeKey ++ [row] else ofScope rows scopeKey := by
  unfold ofScope
  split <;> simp [*]

theorem extends_append (row : CompactedRow) : Extends rows (rows ++ [row]) :=
  fun r mem => ⟨r.invalidatedAt, r.invalidationReason, mem_append_left _ mem⟩

theorem StatesSound.append (h : StatesSound createdAt rows) {row : CompactedRow}
    (derived : Derived createdAt rows row) (version : row.version = (ofScope rows row.scopeKey).length + 1)
    (dead : live (ofScope rows row.scopeKey) = []) : StatesSound createdAt (rows ++ [row]) where
  derived r mem := by
    obtain mem | mem := mem_append.1 mem
    · exact (h.derived r mem).extends (extends_append row) r.invalidatedAt r.invalidationReason
    · rw [mem_singleton.1 mem]
      exact derived.extends (extends_append row) row.invalidatedAt row.invalidationReason
  numbered scopeKey := by
    rw [ofScope_append]
    split
    · rename_i same
      subst same
      have before : (ofScope rows row.scopeKey).map CompactedRow.version = _ := h.numbered row.scopeKey
      rw [Numbered, map_append, length_append, before, map_singleton, version,
        length_singleton, range'_concat]
      simp [Nat.add_comm]
    · exact h.numbered scopeKey
  valid scopeKey := by
    rw [ofScope_append]
    split
    · rename_i same
      subst same
      rw [live, filter_append, ← live, dead, nil_append]
      exact length_filter_le _ _
    · exact h.valid scopeKey

end States

/-- The input of a call that holds its lock. -/
def Call.holding : Call → Option RefreshCompactedStateInput
  | idle => none
  | waiting _ => none
  | locked input => some input
  | resolving input _ _ => some input
  | checking input _ _ _ => some input
  | resolved input _ => some input
  | drafted input _ => some input
  | versioned input _ _ => some input
  | returned _ => none

def Draft.Sound (db : Database) (what : Draft) : Prop :=
  what.sources.Sound db.createdAt db.states ∧ what.sources.classification.rank ≤ what.classification.rank

/-- What a call has read is still so, and the number it has chosen is the next. -/
def Call.Sound (db : Database) : Call → Prop
  | resolving _ items _ => ∀ item ∈ items, Backed db.createdAt db.states item
  | checking _ items source _ =>
    (∀ item ∈ items, Backed db.createdAt db.states item) ∧ Stored db.states source
  | resolved _ sources => sources.Sound db.createdAt db.states
  | drafted _ what => what.Sound db
  | versioned input what version =>
    what.Sound db ∧ version = (ofScope db.states input.normalized.scopeKey).length + 1
  | _ => True

section Calls
variable {db db' : Database} {call call' : Call}

theorem ResolvedSources.Sound.extends {sources : ResolvedSources} (same : db'.createdAt = db.createdAt)
    (more : Extends db.states db'.states) (h : sources.Sound db.createdAt db.states) :
    sources.Sound db'.createdAt db'.states := by
  rw [same]
  exact ⟨fun item mem => (h.backed item mem).extends more, h.summary⟩

theorem Call.Sound.extends (same : db'.createdAt = db.createdAt) (more : Extends db.states db'.states)
    (count : ∀ input, call.holding = some input → (ofScope db'.states input.normalized.scopeKey).length =
      (ofScope db.states input.normalized.scopeKey).length) (h : call.Sound db) : call.Sound db' := by
  cases call with
  | resolving input items left => exact fun item mem => same ▸ (h item mem).extends more
  | checking input items source left =>
    exact ⟨fun item mem => same ▸ (h.1 item mem).extends more, h.2.extends more⟩
  | resolved input sources => exact ResolvedSources.Sound.extends same more h
  | drafted input what => exact ⟨h.1.extends same more, h.2⟩
  | versioned input what version =>
    exact ⟨⟨h.1.1.extends same more, h.1.2⟩, by rw [h.2, count input rfl]⟩
  | idle | waiting | locked | returned => trivial

/-- A call that reads keeps what it knows. -/
theorem Call.read_sound {rt : Runtime} {reply : Reply} (h : call.Sound db)
    (ok : call.read rt db reply = .ok call') : call'.Sound db ∧ call'.holding = call.holding := by
  cases call with
  | locked input =>
    simp only [Call.read, check_bind] at ok
    obtain ⟨-, ok⟩ := ok
    split at ok
    · cases ok
    · cases ok
      exact ⟨fun _ mem => (by cases mem), rfl⟩
  | resolving input items left =>
    cases left with
    | nil =>
      simp only [Call.read, bind_eq_ok] at ok
      obtain ⟨sources, summarized, ⟨⟩⟩ := ok
      obtain ⟨rfl, summary⟩ := summarize_summary summarized
      exact ⟨⟨h, summary⟩, rfl⟩
    | cons ref left =>
      simp only [Call.read] at ok
      split at ok
      · simp only [bind_eq_ok] at ok
        obtain ⟨item, found, -, -, ⟨⟩⟩ := ok
        refine ⟨forall_mem_append.2 ⟨h, ?_⟩, rfl⟩
        simpa using resolveMessage_backed found
      · simp only [bind_eq_ok] at ok
        obtain ⟨source, found, ⟨⟩⟩ := ok
        exact ⟨⟨h, readSource_stored found⟩, rfl⟩
  | checking input items source left =>
    simp only [Call.read, bind_eq_ok] at ok
    obtain ⟨item, found, -, -, ⟨⟩⟩ := ok
    refine ⟨forall_mem_append.2 ⟨h.1, ?_⟩, rfl⟩
    simpa using resolveState_backed h.2 found
  | resolved input sources =>
    simp only [Call.read, bind_eq_ok] at ok
    obtain ⟨what, drafted, ⟨⟩⟩ := ok
    obtain ⟨rfl, rank⟩ := draft_sources drafted
    exact ⟨⟨h, rank⟩, rfl⟩
  | idle | waiting | drafted | versioned | returned =>
    cases ok
    exact ⟨h, rfl⟩

end Calls

end Vimla.Context
