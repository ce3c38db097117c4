import Vimla.Context.Compaction
import Vimla.Context.Grounded
import Vimla.Lib.Coverage

/-!
# How a state follows from its sources

A state that is stored summarises what it cites: its class, its bounds and its
count are those of the messages under it. This says nothing about whether the
state is still valid, so it stays true when states are invalidated or added.
-/

namespace Vimla.Context

open Js Coverage List

/-- A cited message is a leaf, a cited state is not. -/
def SourceRef.source (ref : SourceRef) : Option (Source String String) :=
  if ref.sourceType = SourceType.message.name then some (.leaf ref.sourceId)
  else if ref.sourceType = SourceType.compactedState.name then some (.entry ref.sourceId)
  else none

/-- What the state with this id has recorded. -/
def Sources (rows : List CompactedRow) (id : String) (under : List (Source String String)) : Prop :=
  ∃ row ∈ rows, row.id = id ∧ ∃ refs, Recorded row.sourceRefs refs ∧ under = refs.filterMap SourceRef.source

/-- The messages at the leaves of its tree. -/
def LineageMessages (rows : List CompactedRow) (id : String) (messages : List String) : Prop :=
  Leaves (Sources rows) [.entry id] messages

theorem Recorded.unique {value : Json} {refs refs' : List SourceRef} (h : Recorded value refs)
    (h' : Recorded value refs') : refs = refs' := by
  obtain ⟨entries, rfl, listed⟩ := h
  obtain ⟨_, ⟨⟩, listed'⟩ := h'
  have parsed {r : List SourceRef} (l : List.Forall₂ Records entries r) : entries.mapM parseSourceRef = some r :=
    Checks.mapM_eq_some.2 (l.imp fun _ _ => parseSourceRef_eq_some.2)
  exact Option.some.inj ((parsed listed).symm.trans (parsed listed'))

theorem Sources.unique {rows : List CompactedRow} (keys : (rows.map CompactedRow.id).Nodup) (id : String)
    (under under' : List (Source String String)) (h : Sources rows id under) (h' : Sources rows id under') :
    under = under' := by
  obtain ⟨row, mem, rfl, refs, recorded, rfl⟩ := h
  obtain ⟨row', mem', same, refs', recorded', rfl⟩ := h'
  cases Rows.eq_of_key keys mem' mem same
  rw [recorded.unique recorded']

def CompactedRow.marked (row : CompactedRow) (invalidatedAt : Option Int) (reason : Option String) : CompactedRow :=
  { row with invalidatedAt := invalidatedAt, invalidationReason := reason }

/-- The row is in the table, whether or not it is still valid there. -/
def Stored (rows : List CompactedRow) (row : CompactedRow) : Prop :=
  ∃ invalidatedAt reason, row.marked invalidatedAt reason ∈ rows

/-- All rows are kept, but for being invalidated. -/
def Extends (rows rows' : List CompactedRow) : Prop := ∀ row ∈ rows, Stored rows' row

/-- The resolved source is a message, or says what a stored state says. -/
inductive Backed (createdAt : String → Int) (rows : List CompactedRow) (item : ResolvedCompactionRef) : Prop
  | message (type : item.sourceType = .message) (classification : item.classification = .PRIVATE)
    (coveredFrom : item.coveredFromAt = createdAt item.sourceId)
    (coveredTo : item.coveredToAt = createdAt item.sourceId) (count : item.sourceCount = 1)
  | state (type : item.sourceType = .compactedState) (source : CompactedRow) (mem : source ∈ rows)
    (named : source.id = item.sourceId) (classification : item.classification = source.classification)
    (coveredFrom : item.coveredFromAt = source.coveredFromAt)
    (coveredTo : item.coveredToAt = source.coveredToAt) (count : item.sourceCount = source.sourceCount)

/-- What the resolved sources amount to. -/
structure ResolvedSources.Summary (sources : ResolvedSources) : Prop where
  classification : ∀ item ∈ sources.refs, item.classification.rank ≤ sources.classification.rank
  first : ∃ item ∈ sources.refs, item.coveredFromAt = sources.coveredFromAt ∧
    ∀ other ∈ sources.refs, item.coveredFromAt ≤ other.coveredFromAt
  last : ∃ item ∈ sources.refs, item.coveredToAt = sources.coveredToAt ∧
    ∀ other ∈ sources.refs, other.coveredToAt ≤ item.coveredToAt
  count : sources.sourceCount = (sources.refs.map (·.sourceCount)).sum

variable {items : List ResolvedCompactionRef} {rt : Runtime} {what : Draft}

section Resolution
variable {db : Database} {actorUserId : String} {ref : CompactedStateSourceRef} {item : ResolvedCompactionRef}

theorem resolveMessage_backed (ok : resolveMessage db actorUserId ref = .ok item) :
    Backed db.createdAt db.states item := by
  unfold resolveMessage at ok
  split at ok
  · cases ok
  · rename_i message conversation found
    split at ok
    · cases ok
    · cases ok
      have fits := (Database.of_findMessage found).2.2.1
      simp only [decide_eq_true_eq] at fits
      exact .message rfl rfl (by rw [fits.1]) (by rw [fits.1]) rfl

variable {source : CompactedRow}

theorem readSource_stored (ok : readSource db ref = .ok source) : Stored db.states source := by
  unfold readSource at ok
  split at ok
  · cases ok
  · rename_i row found
    split at ok
    · cases ok
    · cases ok
      exact ⟨source.invalidatedAt, source.invalidationReason, (Database.state_eq_some.1 found).1⟩

theorem resolveState_backed (stored : Stored db.states source)
    (ok : resolveState db actorUserId source = .ok item) : Backed db.createdAt db.states item := by
  obtain ⟨invalidatedAt, reason, mem⟩ := stored
  unfold resolveState at ok
  split at ok
  · cases ok
  · split at ok
    · cases ok
    · cases ok
      exact .state rfl _ mem rfl rfl rfl rfl rfl

theorem rank_strongerClassification (left right : Classification) :
    (strongerClassification left right).rank = max left.rank right.rank := by
  unfold strongerClassification
  split <;> omega

theorem rank_le_foldl (items : List ResolvedCompactionRef) (value : Classification) :
    let result := items.foldl (fun value ref => strongerClassification value ref.classification) value
    value.rank ≤ result.rank ∧ ∀ item ∈ items, item.classification.rank ≤ result.rank := by
  induction items generalizing value with
  | nil => exact ⟨le_refl _, fun _ mem => by cases mem⟩
  | cons item items ih =>
    obtain ⟨start, rest⟩ := ih (strongerClassification value item.classification)
    rw [rank_strongerClassification] at start
    simp only [foldl_cons, forall_mem_cons]
    exact ⟨by omega, by omega, rest⟩

variable {sources : ResolvedSources}

theorem summarize_summary
    (ok : summarize rt items = .ok sources) : sources.refs = items ∧ sources.Summary := by
  unfold summarize at ok
  dsimp only at ok
  split at ok
  · rename_i first last head head'
    cases ok
    have least := sort_head_key (R := fun a b : ResolvedCompactionRef => a.coveredFromAt ≤ b.coveredFromAt)
      (fun _ => le_refl _) (fun _ _ _ => le_trans) (fun _ _ => isLE_then.1) (fun _ _ => isLE_then.2) head
    have greatest := sort_head_key (R := fun a b : ResolvedCompactionRef => b.coveredToAt ≤ a.coveredToAt)
      (fun _ => le_refl _) (fun _ _ _ h h' => le_trans h' h) (fun _ _ => isLE_then.1)
      (fun _ _ => isLE_then.2) head'
    simp only [mem_sort] at greatest
    exact ⟨rfl, (rank_le_foldl items .PUBLIC).2, ⟨first, least.1, rfl, least.2⟩,
      ⟨last, greatest.1, rfl, greatest.2⟩, rfl⟩
  · cases ok

theorem draft_sources {input : RefreshCompactedStateInput} {pressureTokens : Nat}
    (ok : draft rt input pressureTokens sources = .ok what) :
    what.sources = sources ∧ sources.classification.rank ≤ what.classification.rank := by
  unfold draft at ok
  split at ok
  · cases ok
  · cases ok
    refine ⟨rfl, ?_⟩
    split <;> simp only [rank_strongerClassification] <;> omega

end Resolution

/-- A recorded source that is classified no more strictly than `row`. -/
inductive Below (rows : List CompactedRow) (row : CompactedRow) (ref : SourceRef) : Prop
  | message (type : ref.sourceType = "MESSAGE")
    (rank : Classification.PRIVATE.rank ≤ row.classification.rank)
  | state (type : ref.sourceType = "COMPACTED_STATE") (source : CompactedRow) (mem : source ∈ rows)
    (named : source.id = ref.sourceId) (rank : source.classification.rank ≤ row.classification.rank)

/-- The state summarises the tree under it. -/
structure Derived (createdAt : String → Int) (rows : List CompactedRow) (row : CompactedRow) : Prop where
  recorded : ∃ refs, Recorded row.sourceRefs refs ∧ (∀ ref ∈ refs, Below rows row ref) ∧
    ∃ messages, Leaves (Sources rows) (refs.filterMap SourceRef.source) messages ∧
      Covers createdAt row.coveredFromAt row.coveredToAt row.sourceCount messages

variable {item : ResolvedCompactionRef}

section Extends
variable {createdAt : String → Int} {rows rows' : List CompactedRow} {row : CompactedRow}

theorem Sources.extends (more : Extends rows rows') (id : String) (under : List (Source String String))
    (h : Sources rows id under) : Sources rows' id under := by
  obtain ⟨row, mem, rfl, recorded⟩ := h
  obtain ⟨invalidatedAt, reason, mem'⟩ := more row mem
  exact ⟨_, mem', rfl, recorded⟩

theorem Stored.extends (more : Extends rows rows') (h : Stored rows row) : Stored rows' row := by
  obtain ⟨_, _, mem⟩ := h
  obtain ⟨invalidatedAt, reason, mem'⟩ := more _ mem
  exact ⟨invalidatedAt, reason, mem'⟩

theorem Backed.extends (more : Extends rows rows')
    (h : Backed createdAt rows item) : Backed createdAt rows' item := by
  obtain ⟨type, classification, coveredFrom, coveredTo, count⟩ |
    ⟨type, source, mem, named, classification, coveredFrom, coveredTo, count⟩ := h
  · exact .message type classification coveredFrom coveredTo count
  · obtain ⟨_, _, mem'⟩ := more source mem
    exact .state type _ mem' named classification coveredFrom coveredTo count

theorem Below.extends {ref : SourceRef} (more : Extends rows rows') (h : Below rows row ref) :
    Below rows' row ref := by
  obtain ⟨type, rank⟩ | ⟨type, source, mem, named, rank⟩ := h
  · exact .message type rank
  · obtain ⟨_, _, mem'⟩ := more source mem
    exact .state type _ mem' named rank

theorem Derived.extends (more : Extends rows rows') (h : Derived createdAt rows row)
    (invalidatedAt : Option Int) (reason : Option String) :
    Derived createdAt rows' (row.marked invalidatedAt reason) := by
  obtain ⟨refs, recorded, below, messages, leaves, covers⟩ := h.recorded
  refine ⟨refs, recorded, fun ref mem => ?_, messages, leaves.mono (Sources.extends more), covers⟩
  obtain ⟨type, rank⟩ | ⟨type, source, mem', named, rank⟩ := (below ref mem).extends more
  · exact .message type rank
  · exact .state type source mem' named rank

end Extends

section New
variable {createdAt : String → Int} {rows : List CompactedRow}

theorem json_records (item : ResolvedCompactionRef) : Records item.json item.recorded where
  sourceType := rfl
  sourceId := rfl
  sourceVersion := rfl
  sourceScopeKind := rfl
  sourceScopeId := rfl

theorem recorded_json (items : List ResolvedCompactionRef) :
    Recorded (.array (items.map ResolvedCompactionRef.json)) (items.map fun item => item.recorded) := by
  refine ⟨_, rfl, ?_⟩
  rw [forall₂_map_left_iff, forall₂_map_right_iff]
  exact forall₂_same.2 fun item _ => json_records item

/-- A resolved source has leaves that it summarises. -/
theorem Backed.leaves (h : Backed createdAt rows item)
    (derived : ∀ row ∈ rows, Derived createdAt rows row) :
    ∃ source, item.recorded.source = some source ∧ ∃ messages, Leaves (Sources rows) [source] messages ∧
      Covers createdAt item.coveredFromAt item.coveredToAt item.sourceCount messages := by
  obtain ⟨type, -, coveredFrom, coveredTo, count⟩ |
    ⟨type, row, mem, named, -, coveredFrom, coveredTo, count⟩ := h
  · refine ⟨.leaf item.sourceId, ?_, [item.sourceId], .leaf .nil, ?_⟩
    · simp [SourceRef.source, CompactedStateSourceRef.recorded, type]
    · rw [coveredFrom, coveredTo, count]
      exact .single item.sourceId
  · obtain ⟨refs, recorded, -, messages, leaves, covers⟩ := (derived row mem).recorded
    refine ⟨.entry item.sourceId, ?_, messages ++ [], .entry ⟨row, mem, named, refs, recorded, rfl⟩ leaves .nil, ?_⟩
    · simp [SourceRef.source, CompactedStateSourceRef.recorded, type, SourceType.name]
    · rw [coveredFrom, coveredTo, count, append_nil]
      exact covers

theorem leaves_of_backed
    (derived : ∀ row ∈ rows, Derived createdAt rows row) (backed : ∀ item ∈ items, Backed createdAt rows item) :
    ∃ parts, List.Forall₂ (fun item part =>
      Covers createdAt item.coveredFromAt item.coveredToAt item.sourceCount part) items parts ∧
      Leaves (Sources rows) ((items.map fun item => item.recorded).filterMap SourceRef.source) parts.flatten := by
  induction items with
  | nil => exact ⟨[], .nil, .nil⟩
  | cons item items ih =>
    rw [forall_mem_cons] at backed
    obtain ⟨source, cited, messages, first, covers⟩ := backed.1.leaves derived
    obtain ⟨parts, each, rest⟩ := ih backed.2
    refine ⟨messages :: parts, .cons covers each, ?_⟩
    rw [map_cons, filterMap_cons_some cited, flatten_cons]
    exact first.append rest

/-- What is known of the sources of a new state. -/
structure ResolvedSources.Sound (createdAt : String → Int) (rows : List CompactedRow)
    (sources : ResolvedSources) : Prop where
  backed : ∀ item ∈ sources.refs, Backed createdAt rows item
  summary : sources.Summary

theorem Backed.below {row : CompactedRow} (h : Backed createdAt rows item)
    (rank : item.classification.rank ≤ row.classification.rank) : Below rows row item.recorded := by
  obtain ⟨type, classification, -⟩ | ⟨type, source, mem, named, classification, -⟩ := h
  · refine .message ?_ (classification ▸ rank)
    rw [CompactedStateSourceRef.recorded, type]
    rfl
  · refine .state ?_ source mem named (classification ▸ rank)
    rw [CompactedStateSourceRef.recorded, type]
    rfl

theorem Draft.row_derived (derived : ∀ row ∈ rows, Derived createdAt rows row)
    (sound : what.sources.Sound createdAt rows)
    (rank : what.sources.classification.rank ≤ what.classification.rank) (input : RefreshCompactedStateInput)
    (version : Nat) (id : String) (now : Int) : Derived createdAt rows (what.row rt input version id now) where
  recorded := by
    refine ⟨_, recorded_json what.sources.refs, fun ref mem => ?_, ?_⟩
    · obtain ⟨item, listed, rfl⟩ := mem_map.1 mem
      exact (sound.backed item listed).below ((sound.summary.classification item listed).trans rank)
    · obtain ⟨parts, each, leaves⟩ := leaves_of_backed derived sound.backed
      obtain ⟨first, hf, starts, least⟩ := sound.summary.first
      obtain ⟨last, hl, ends, greatest⟩ := sound.summary.last
      refine ⟨parts.flatten, leaves, ?_⟩
      have covers := Covers.flatten each hf least hl greatest
      rw [starts, ends, ← sound.summary.count] at covers
      exact covers

end New

end Vimla.Context
