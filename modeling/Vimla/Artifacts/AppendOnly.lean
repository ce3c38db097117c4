import Vimla.Artifacts.Histories

/-!
# Artifact histories are append-only logs

Of any calls in any order, from tables without artifacts: the rows of one moment
are a prefix of the rows of any later one, and a call that is repeated finds
what it wrote.
-/

namespace Vimla.Artifacts

open Js List Option Tables Runs

section
variable {R : Runtime} {T U : Tables} {call : Call} {drawn : Drawn} {fails : Bool} {reference : ArtifactReference}

/-- `U` may come after `T`. -/
structure Later (T U : Tables) : Prop where
  artifacts : T.artifacts <+: U.artifacts
  versions : T.versions <+: U.versions

theorem Later.refl (T : Tables) : Later T T := ⟨prefix_rfl, prefix_rfl⟩

variable {V : Tables} {id outputName : String} {u : ArtifactVersion} {drawn' : Drawn}
  {reference' : ArtifactReference}

theorem Later.trans (first : Later T U) (second : Later U V) : Later T V :=
  ⟨first.artifacts.trans second.artifacts, first.versions.trans second.versions⟩

variable {c : ArtifactContent} {a : Artifact} {v : ArtifactVersion} {input : CreateArtifactInput}

theorem Wrote.later (wrote : Wrote R T c U reference) : Later T U := by
  cases wrote with
  | found a v mem listed same => exact .refl T
  | opened a id metadata fresh free => exact ⟨prefix_append _ _, prefix_append _ _⟩
  | extended a mem current head id metadata free differs => exact ⟨prefix_rfl, prefix_append _ _⟩

/-- An event leaves the tables, changes others, or is a call that succeeds. -/
theorem step_cases (T : Tables) (event : Event) :
    (∃ call drawn fails reference, event = .call call drawn fails ∧
      T.answer R call drawn fails = .ok (T.step R event, reference)) ∨
    (T.step R event).artifacts = T.artifacts ∧ (T.step R event).versions = T.versions := by
  cases event with
  | others invocations accessGrants => exact .inr ⟨rfl, rfl⟩
  | call call drawn fails =>
    cases answered : T.answer R call drawn fails with
    | error e =>
      right
      simp [step, answered]
    | ok result =>
      left
      exact ⟨call, drawn, fails, result.2, rfl, by simp [step, answered]⟩

theorem Histories.of_same (h : Histories T) (artifacts : U.artifacts = T.artifacts) (versions : U.versions = T.versions) :
    Histories U := by
  have same (id : String) : U.versionsOf id = T.versionsOf id := by rw [versionsOf, versions, versionsOf]
  constructor
  · rw [artifacts]; exact h.artifacts
  · rw [versions]; exact h.versions
  · rw [artifacts, versions]; exact h.foreign
  · intro a mem
    rw [same]
    exact h.started a (artifacts ▸ mem)
  · intro id
    rw [same]
    exact h.numbered id
  · intro id
    rw [same]
    exact h.adjacent id

theorem step_histories (T : Tables) (event : Event) (h : Histories T) : Histories (T.step R event) := by
  rcases step_cases (R := R) T event with ⟨call, drawn, fails, reference, -, ok⟩ | ⟨artifacts, versions⟩
  · exact (answer_wrote ok).histories h
  · exact h.of_same artifacts versions

theorem step_later (T : Tables) (event : Event) : Later T (T.step R event) := by
  rcases step_cases (R := R) T event with ⟨call, drawn, fails, reference, -, ok⟩ | ⟨artifacts, versions⟩
  · exact (answer_wrote ok).later
  · exact ⟨artifacts ▸ prefix_rfl, versions ▸ prefix_rfl⟩

theorem run_later (T : Tables) (events : List Event) : Later T (T.run R events) := by
  have all : Along (step R) (fun _ _ => True) T events := along_of_forall fun _ _ _ => trivial
  exact relates (P := fun _ => True) Later.refl (fun _ _ _ => Later.trans) (fun T event _ _ => step_later T event)
    (fun _ _ _ h => h) all trivial

/-- No artifacts yet. -/
def unwritten (invocations : List Invocation) (accessGrants : List ArtifactAccessGrant) : Tables :=
  ⟨invocations, [], [], accessGrants⟩

theorem Later.artifact (later : Later T U) (stored : T.artifact id = some a) : U.artifact id = some a := by
  obtain ⟨rest, grown⟩ := later.artifacts
  unfold Tables.artifact Rows.find at stored ⊢
  rw [← grown, find?_append, stored]
  rfl

theorem Later.output (later : Later T U) {creatorInvocationId : String}
    (stored : T.output creatorInvocationId outputName = some a) : U.output creatorInvocationId outputName = some a := by
  obtain ⟨rest, grown⟩ := later.artifacts
  unfold Tables.output at stored ⊢
  rw [← grown, find?_append, stored]
  rfl

theorem Later.versionsOf (later : Later T U) (id : String) : T.versionsOf id <+: U.versionsOf id := by
  obtain ⟨rest, grown⟩ := later.versions
  unfold Tables.versionsOf
  rw [← grown, filter_append]
  exact prefix_append _ _

/-- The current version only rises, and with the same number it is the same row. -/
theorem Later.current (later : Later T U) (h : Histories T) (h' : Histories U)
    (before : (T.latest id).head? = some u) (after : (U.latest id).head? = some v) :
    u.version ≤ v.version ∧ (u.version = v.version → u = v) := by
  obtain ⟨last, count⟩ := h.current before
  obtain ⟨last', count'⟩ := h'.current after
  have grown := later.versionsOf id
  refine ⟨by rw [count, count']; exact grown.length_le, fun same => ?_⟩
  have whole : T.versionsOf id = U.versionsOf id := grown.eq_of_length (by rw [← count, ← count', same])
  rw [whole, last'] at last
  exact (some.inj last).symm

/-- Content that is stored as it is: no blanks around the reference, no two keys
of one object that the comparison confuses. -/
def Plain (R : Runtime) : ArtifactContent → Prop
  | .CONTENT_REF ref => Js.trim ref = ref
  | .INLINE_JSON value => Told R value

/-- The row that was written for this content. -/
def WrittenFor (R : Runtime) (c : ArtifactContent) (v : ArtifactVersion) : Prop :=
  ∃ metadata, v = versionRow R v.id v.artifactId v.version c metadata

theorem WrittenFor.fingerprint (written : WrittenFor R c v) : v.fingerprint = fingerprintArtifactContent R c := by
  obtain ⟨metadata, row⟩ := written
  rw [row]
  rfl

theorem WrittenFor.storedContent {content : ArtifactContent} (written : WrittenFor R c v)
    (reorders : ∀ value, Reordered value (R.jsonb value)) (plain : Plain R c)
    (stored : storedContent v = .ok content) :
    fingerprintArtifactContent R content = fingerprintArtifactContent R c := by
  obtain ⟨metadata, row⟩ := written
  rw [row] at stored
  cases c with
  | CONTENT_REF ref =>
    have plain : Js.trim ref = ref := plain
    simp only [versionRow, Artifacts.storedContent, plain, Except.ok.injEq] at stored
    rw [stored]
  | INLINE_JSON value =>
    have same : canonicalJson R (R.jsonb value) = canonicalJson R value := canonicalJson_reordered plain (reorders value)
    have answered : content = .INLINE_JSON (R.jsonb value) := by
      cases value <;> simp only [versionRow, Artifacts.storedContent, reduceCtorEq, Except.ok.injEq] at stored <;>
        exact stored.symm
    rw [answered]
    simp [fingerprintArtifactContent, same]

theorem Wrote.version (wrote : Wrote R T c U reference) (mem : v ∈ U.versions) : v ∈ T.versions ∨ WrittenFor R c v := by
  cases wrote with
  | found a v' mem' listed same => exact .inl mem
  | opened a id metadata fresh free =>
    refine (mem_append.1 mem).imp_right fun new => ?_
    rw [mem_singleton.1 new]
    exact ⟨metadata, rfl⟩
  | extended a mem' current head id metadata free differs =>
    refine (mem_append.1 mem).imp_right fun new => ?_
    rw [mem_singleton.1 new]
    exact ⟨metadata, rfl⟩

/-- Every version comes from a call of the run. -/
theorem run_written (T : Tables) (events : List Event) {v : ArtifactVersion} (mem : v ∈ (T.run R events).versions) :
    v ∈ T.versions ∨ ∃ call drawn fails, Event.call call drawn fails ∈ events ∧ WrittenFor R call.content v := by
  induction events generalizing T with
  | nil => exact .inl mem
  | cons event events ih =>
    rcases ih (T.step R event) mem with old | ⟨call, drawn, fails, listed, written⟩
    · rcases step_cases (R := R) T event with ⟨call, drawn, fails, reference, rfl, ok⟩ | ⟨-, versions⟩
      · rcases (answer_wrote ok).version old with before | written
        · exact .inl before
        · exact .inr ⟨call, drawn, fails, mem_cons_self, written⟩
      · exact .inl (versions ▸ old)
    · exact .inr ⟨call, drawn, fails, mem_cons_of_mem _ listed, written⟩

theorem readVersion_ok {actorUserId artifactVersionId : String} {result : ReadArtifactVersionResult}
    (ok : readVersion T actorUserId artifactVersionId = .ok result) : ∃ a v,
      Rows.find ArtifactVersion.id artifactVersionId T.versions = some v ∧ result.reference = toReference a v ∧
      storedContent v = .ok result.content := by
  simp only [readVersion, bind, Except.bind] at ok
  iterate 3
    split at ok
    · cases ok
  rename_i v stored
  split at ok
  · cases ok
  rename_i a _
  split at ok
  · cases ok
  split at ok
  · split at ok
    · cases ok
    rename_i content read
    cases ok
    exact ⟨a, v, stored, rfl, read⟩
  · cases ok

/-- The answer names a stored row, written with the content of the call. -/
theorem Wrote.names (wrote : Wrote R T c U reference) : ∃ a ∈ U.artifacts, ∃ v ∈ U.versionsOf a.id,
    reference = toReference a v ∧ v.fingerprint = fingerprintArtifactContent R c := by
  cases wrote with
  | found a v mem listed same => exact ⟨a, mem, v, listed, rfl, same⟩
  | opened a id metadata fresh free =>
    refine ⟨a, mem_append_right _ mem_cons_self, _, ?_, rfl, rfl⟩
    rw [versionsOf_append rfl]
    simp [versionRow]
  | extended a mem current head id metadata free differs =>
    refine ⟨a, mem, _, ?_, rfl, rfl⟩
    rw [versionsOf_append rfl]
    simp [versionRow]

/-- The newest row with some property. -/
theorem Histories.newest (h : Histories T) {p : ArtifactVersion → Bool} (found : (T.latest id).find? p = some v)
    (mem : u ∈ T.versionsOf id) (yes : p u = true) : u.version ≤ v.version := by
  obtain ⟨-, newer, older, split, no⟩ := find?_eq_some_iff_append.1 found
  have ascending : ((T.versionsOf id).map ArtifactVersion.version).Pairwise (· < ·) := by
    rw [h.numbered]
    exact pairwise_lt_range'
  rw [pairwise_map] at ascending
  have descending := pairwise_reverse.2 ascending
  rw [← h.latest_eq, split] at descending
  have listed : u ∈ newer ++ v :: older := split ▸ mem_latest.2 mem
  rcases mem_append.1 listed with skipped | rest
  · exact absurd yes (by simpa using no u skipped)
  · rcases mem_cons.1 rest with rfl | below
    · exact Nat.le_refl _
    · exact Nat.le_of_lt ((pairwise_cons.1 (pairwise_append.1 descending).2.1).1 u below)

/-- The same answer, or a later version of the same artifact with the same content. -/
def Again (first second : ArtifactReference) : Prop :=
  second = first ∨
    second.artifactId = first.artifactId ∧ second.fingerprint = first.fingerprint ∧ first.version < second.version

theorem Histories.again (h : Histories T) (hu : u ∈ T.versionsOf a.id) (hv : v ∈ T.versionsOf a.id)
    (same : u.fingerprint = v.fingerprint) (le : u.version ≤ v.version) : Again (toReference a u) (toReference a v) := by
  rcases Nat.eq_or_lt_of_le le with tie | less
  · rw [h.version_inj hu hv tie]
    exact .inl rfl
  · exact .inr ⟨rfl, same.symm, less⟩

/-- What `createArtifact` leaves for its next call. -/
theorem createArtifact_output (ok : createArtifactInTransaction R input drawn T = .ok (U, reference)) :
    ∃ outputName classification a v, input.validate R = .ok (outputName, classification) ∧
      U.output input.creatorInvocationId outputName = some a ∧ v ∈ U.versionsOf a.id ∧
      v.fingerprint = fingerprintArtifactContent R input.content ∧ reference = toReference a v := by
  unfold createArtifactInTransaction at ok
  split at ok
  · cases ok
  rename_i outputName classification valid
  split at ok
  · cases ok
  split at ok
  · rename_i a stored
    obtain ⟨r, found, same⟩ := map_ok ok
    obtain ⟨v, matching, rfl⟩ := existing_ok found
    cases same
    exact ⟨outputName, classification, a, v, valid, stored, mem_latest.1 (mem_of_find?_eq_some matching),
      by simpa using find?_some matching, rfl⟩
  · rename_i missing
    simp only at ok
    split at ok
    · cases ok
    rename_i inserted
    obtain ⟨fresh, rfl⟩ := insertArtifact_ok inserted
    obtain ⟨V, written, same⟩ := map_ok ok
    obtain ⟨free, rfl⟩ := insertVersion_ok written
    cases same
    refine ⟨outputName, classification, _, _, valid, ?_, ?_, rfl, rfl⟩
    · unfold output at missing ⊢
      rw [find?_append, missing]
      simp
    · rw [versionsOf_append rfl]
      simp [versionRow]

/-- `createArtifact` on an output that exists. -/
theorem createArtifact_existing {classification : String}
    (valid : input.validate R = .ok (outputName, classification))
    (stored : T.output input.creatorInvocationId outputName = some a)
    (ok : createArtifactInTransaction R input drawn T = .ok (U, reference)) : U = T ∧ ∃ v,
      (T.latest a.id).find? (fun v => v.fingerprint = fingerprintArtifactContent R input.content) = some v ∧
      reference = toReference a v := by
  simp only [createArtifactInTransaction, valid, stored] at ok
  split at ok
  · cases ok
  obtain ⟨r, found, same⟩ := map_ok ok
  obtain ⟨v, matching, rfl⟩ := existing_ok found
  cases same
  exact ⟨rfl, v, matching, rfl⟩

theorem createArtifact_again {W : Tables} (ok : createArtifactInTransaction R input drawn T = .ok (U, reference))
    (later : Later U V) (h : Histories V)
    (ok' : createArtifactInTransaction R input drawn' V = .ok (W, reference')) : W = V ∧ Again reference reference' := by
  obtain ⟨outputName, classification, a, u, valid, stored, mem, same, rfl⟩ := createArtifact_output ok
  obtain ⟨rfl, v, found, rfl⟩ := createArtifact_existing valid (later.output stored) ok'
  have listed : u ∈ W.versionsOf a.id := (later.versionsOf a.id).subset mem
  have same' : v.fingerprint = fingerprintArtifactContent R input.content := by simpa using find?_some found
  exact ⟨rfl, h.again listed (mem_latest.1 (mem_of_find?_eq_some found)) (same.trans same'.symm)
    (h.newest found listed (by simp [same]))⟩

/-- What `createVersion` leaves for its next call. -/
theorem createVersion_current {input : CreateArtifactVersionInput} (ok : createVersion R input drawn T = .ok (U, reference))
    (h : Histories U) : ∃ a u, U.artifact input.artifactId = some a ∧ (U.latest a.id).head? = some u ∧
      u.fingerprint = fingerprintArtifactContent R input.content ∧ reference = toReference a u := by
  obtain ⟨a, current, stored, head, ⟨rfl, rfl, same⟩ | ⟨-, -, -, rfl, rfl⟩⟩ := createVersion_cases ok
  · exact ⟨a, current, stored, head, same, rfl⟩
  · refine ⟨a, _, stored, ?_, rfl, rfl⟩
    rw [h.latest_eq, head?_reverse, versionsOf_append rfl]
    simp [versionRow]

theorem createVersion_again {input : CreateArtifactVersionInput} {W : Tables}
    (ok : createVersion R input drawn T = .ok (U, reference))
    (reached : input.expectedCurrentVersion ≤ reference.version) (before : Histories U) (later : Later U V)
    (h : Histories V) (ok' : createVersion R input drawn' V = .ok (W, reference')) :
    W = V ∧ Again reference reference' := by
  obtain ⟨a, u, stored, head, same, rfl⟩ := createVersion_current ok before
  obtain ⟨a', v, stored', head', seen⟩ := createVersion_cases ok'
  obtain rfl : a = a' := some.inj ((later.artifact stored).symm.trans stored')
  obtain ⟨le, tie⟩ := later.current before h head head'
  have listed : u ∈ V.versionsOf a.id :=
    (later.versionsOf a.id).subset (mem_latest.1 (mem_of_mem_head? head))
  rcases seen with ⟨rfl, rfl, same'⟩ | ⟨expected, differs, -, -, -⟩
  · exact ⟨rfl, h.again listed (mem_latest.1 (mem_of_mem_head? head')) (same.trans same'.symm) le⟩
  · have reached : input.expectedCurrentVersion ≤ (u.version : Int) := reached
    have unmoved : u = v := tie (by omega)
    exact absurd (unmoved ▸ same) differs

end

/-!
# What the logs promise

A reference with blanks around it is stored without them but fingerprinted with
them, so such content does not read back under its fingerprint.
-/

variable {R : Runtime}

/-- The input of the call did not name a version that the artifact had not reached. -/
def Call.Reached (reference : ArtifactReference) : Call → Prop
  | .createArtifact _ => True
  | .createVersion input => input.expectedCurrentVersion ≤ reference.version

/-- What holds of the tables `T` that a run of `events` has left. -/
structure LogsHold (R : Runtime) (events : List Event) (T : Tables) : Prop where
  /-- Each artifact has the versions 1 to n. -/
  numbered : ∀ a ∈ T.artifacts, T.versionsOf a.id ≠ [] ∧
    (T.versionsOf a.id).map ArtifactVersion.version = List.range' 1 (T.versionsOf a.id).length
  adjacent : ∀ a ∈ T.artifacts, (T.versionsOf a.id).IsChain fun u v => u.fingerprint ≠ v.fingerprint
  /-- Stored rows stay, as they are and where they are. -/
  grows : ∀ more, T.artifacts <+: (T.run R more).artifacts ∧ T.versions <+: (T.run R more).versions
  readsBack : ∀ v ∈ T.versions, ∃ call drawn fails,
    Event.call call drawn fails ∈ events ∧ v.fingerprint = fingerprintArtifactContent R call.content ∧
    (Plain R call.content → ∀ actorUserId result, readVersion T actorUserId v.id = .ok result →
      result.reference.artifactVersionId = v.id ∧ result.reference.fingerprint = v.fingerprint ∧
      fingerprintArtifactContent R result.content = v.fingerprint)
  answers : ∀ call drawn fails U reference, T.answer R call drawn fails = .ok (U, reference) →
    reference.fingerprint = fingerprintArtifactContent R call.content ∧
    ∃ a ∈ U.artifacts, ∃ v ∈ U.versionsOf a.id, reference = toReference a v
  /-- An expected version that is not the current one, with other content. -/
  stale : ∀ (input : CreateArtifactVersionInput) drawn fails current, (T.latest input.artifactId).head? = some current →
    (current.version : Int) ≠ input.expectedCurrentVersion →
    current.fingerprint ≠ fingerprintArtifactContent R input.content →
    (∃ e, T.answer R (.createVersion input) drawn fails = .error e) ∧
    T.step R (.call (.createVersion input) drawn fails) = T
  repeats : ∀ (call : Call) drawn fails U reference, T.answer R call drawn fails = .ok (U, reference) → call.Reached reference →
    ∀ between drawn' fails' W reference',
      (U.run R between).answer R call drawn' fails' = .ok (W, reference') → W = U.run R between ∧ Again reference reference'

variable {T : Tables} {call : Call} {drawn : Drawn} {fails : Bool}

theorem answer_run {U : Tables} {reference : ArtifactReference}
    (ok : T.answer R call drawn fails = .ok (U, reference)) : call.run R drawn T = .ok (U, reference) := by
  unfold answer at ok
  split at ok
  · cases ok
  · exact ok

theorem createVersion_stale {input : CreateArtifactVersionInput} {drawn : Drawn}
    {current : ArtifactVersion} (head : (T.latest input.artifactId).head? = some current)
    (moved : (current.version : Int) ≠ input.expectedCurrentVersion)
    (differs : current.fingerprint ≠ fingerprintArtifactContent R input.content) :
    ∃ e, createVersion R input drawn T = .error e := by
  cases answered : createVersion R input drawn T with
  | error e => exact ⟨e, rfl⟩
  | ok result =>
    obtain ⟨a, v, stored, head', seen⟩ := createVersion_cases answered
    have here : a.id = input.artifactId := (Rows.mem_of_find stored).2
    obtain rfl : current = v := by
      rw [here, head] at head'
      exact some.inj head'
    rcases seen with ⟨-, -, same⟩ | ⟨expected, -⟩
    · exact absurd same differs
    · exact absurd expected moved

theorem answer_stale {input : CreateArtifactVersionInput} (drawn : Drawn) (fails : Bool)
    {current : ArtifactVersion} (head : (T.latest input.artifactId).head? = some current)
    (moved : (current.version : Int) ≠ input.expectedCurrentVersion)
    (differs : current.fingerprint ≠ fingerprintArtifactContent R input.content) :
    ∃ e, T.answer R (.createVersion input) drawn fails = .error e := by
  obtain ⟨e, failed⟩ := @createVersion_stale R T input drawn current head moved differs
  have same : (Call.createVersion input).run R drawn T = createVersion R input drawn T := rfl
  unfold answer
  rw [same, failed]
  split
  · exact ⟨_, rfl⟩
  · exact ⟨e, rfl⟩

theorem repeated_call {U V W : Tables} {drawn' : Drawn} {fails' : Bool} {reference reference' : ArtifactReference}
    (ok : T.answer R call drawn fails = .ok (U, reference)) (reached : call.Reached reference)
    (before : Histories U) (later : Later U V) (after : Histories V)
    (ok' : V.answer R call drawn' fails' = .ok (W, reference')) : W = V ∧ Again reference reference' := by
  have ok := answer_run ok
  have ok' := answer_run ok'
  cases call with
  | createArtifact input =>
    have ok : createArtifactInTransaction R input drawn T = .ok (U, reference) := ok
    have ok' : createArtifactInTransaction R input drawn' V = .ok (W, reference') := ok'
    exact createArtifact_again ok later after ok'
  | createVersion input =>
    have ok : createVersion R input drawn T = .ok (U, reference) := ok
    have ok' : createVersion R input drawn' V = .ok (W, reference') := ok'
    exact createVersion_again ok reached before later after ok'

theorem artifact_logs_hold (R : Runtime) (reorders : ∀ value, Reordered value (R.jsonb value)) (invocations : List Invocation)
    (accessGrants : List ArtifactAccessGrant) (events : List Event) :
    LogsHold R events ((unwritten invocations accessGrants).run R events) := by
  have h : Histories ((unwritten invocations accessGrants).run R events) :=
    invariant step_histories events (by constructor <;> simp [unwritten, versionsOf])
  have origin := @run_written R (unwritten invocations accessGrants) events
  generalize (unwritten invocations accessGrants).run R events = T at h origin
  constructor
  · intro a mem
    exact ⟨h.started a mem, h.numbered a.id⟩
  · intro a mem
    exact h.adjacent a.id
  · intro more
    have later := run_later (R := R) T more
    exact ⟨later.artifacts, later.versions⟩
  · intro v mem
    rcases origin mem with before | ⟨call, drawn, fails, listed, written⟩
    · cases before
    refine ⟨call, drawn, fails, listed, written.fingerprint, fun plain actorUserId result ok => ?_⟩
    obtain ⟨a, v', stored, named, content⟩ := readVersion_ok ok
    obtain rfl : v' = v := some.inj (stored.symm.trans (Rows.find_eq_of_mem h.versions mem rfl))
    exact ⟨by rw [named]; rfl, by rw [named]; rfl,
      (written.storedContent reorders plain content).trans written.fingerprint.symm⟩
  · intro call drawn fails U reference ok
    obtain ⟨a, mem, v, listed, rfl, same⟩ := (answer_wrote ok).names
    exact ⟨same, a, mem, v, listed, rfl⟩
  · intro input drawn fails current head moved differs
    obtain ⟨e, failed⟩ := answer_stale drawn fails head moved differs
    exact ⟨⟨e, failed⟩, by simp [step, failed]⟩
  · intro call drawn fails U reference ok reached between drawn' fails' W reference' ok'
    have before : Histories U := (answer_wrote ok).histories h
    exact repeated_call ok reached before (run_later U between) (invariant step_histories between before) ok'

namespace Draft

/-- A digest that forgets nothing, and a column that keeps the order of keys. -/
def runtime : Runtime := ⟨compare, String.instTransOrd, id, id⟩

/-- One invocation that declares a text. -/
def opened : Tables :=
  unwritten [⟨"run", "plan", "owner", .array [.object [("name", .string "draft"), ("artifactType", .string "TEXT")]]⟩] []

def create (ref : String) : Call :=
  .createArtifact ⟨"owner", "run", "draft", .TEXT, "private", .CONTENT_REF ref, none, none⟩

def edit (expectedCurrentVersion : Int) (ref : String) : Call :=
  .createVersion ⟨"owner", "artifact", expectedCurrentVersion, .CONTENT_REF ref, none⟩

def event (call : Call) (versionId : String) : Event := .call call ⟨"artifact", versionId⟩ false

def reference (versionId : String) (version : Nat) (ref : String) : ArtifactReference :=
  ⟨"artifact", versionId, "draft", .TEXT, "private", version, "sha256:ref:" ++ ref⟩

def reply (T : Tables) (call : Call) (versionId : String) : Option ArtifactReference :=
  ((T.answer runtime call ⟨"artifact", versionId⟩ false).map Prod.snd).toOption

end Draft

open Draft in
theorem artifact_logs_hold_draft :
    LogsHold runtime [event (create "a") "v1", event (edit 1 "b") "v2"]
      (opened.run runtime [event (create "a") "v1", event (edit 1 "b") "v2"]) ∧
    (opened.run runtime [event (create "a") "v1", event (edit 1 "b") "v2"]).versions.map ArtifactVersion.version = [1, 2] :=
  ⟨artifact_logs_hold runtime Reordered.refl _ _ _, by decide +kernel⟩

open Draft in
/-- Content that returns to its first value, an expected version that is not
reached yet, and a reference with a blank before it. -/
theorem repeated_call_answers_later :
    (reply opened (create "a") "v1" = some (reference "v1" 1 "a") ∧
      reply (opened.run runtime [event (create "a") "v1", event (edit 1 "b") "v2", event (edit 2 "a") "v3"]) (create "a") "v4" =
        some (reference "v3" 3 "a")) ∧
    (reply (opened.run runtime [event (create "a") "v1"]) (edit 2 "a") "v2" = some (reference "v1" 1 "a") ∧
      reply (opened.run runtime [event (create "a") "v1", event (edit 2 "a") "v2", event (edit 1 "b") "v3"]) (edit 2 "a") "v4" =
        some (reference "v4" 3 "a")) ∧
    ((readVersion (opened.run runtime [event (create " a") "v1"]) "owner" "v1").toOption.map fun result =>
      (result.reference.fingerprint, fingerprintArtifactContent runtime result.content)) =
        some ("sha256:ref: a", "sha256:ref:a") := by
  decide +kernel

end Vimla.Artifacts
