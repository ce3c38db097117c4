import Vimla.Semantic.Indexer

/-!
# What every statement keeps

The invariant of the tables, one lemma for each statement, and what a worker
knows of its row: while the row carries the token of its claim, nobody has
changed it.
-/

namespace Vimla.Semantic

open Threads List Nat Int Bool

variable {c : Config} {s t : Index} {job r : SemanticSource} {d : At}

/-- A lease stands on a running row and on no other, and attempts that have
ended are counted. -/
structure SemanticSource.Sound (c : Config) (r : SemanticSource) : Prop where
  token : r.leaseToken.isSome ↔ r.status = .RUNNING
  until_ : r.leaseUntil.isSome ↔ r.status = .RUNNING
  pending : r.generation = c.generation → r.status = .PENDING → r.attempts = r.failures ∧ r.attempts < 5
  running : r.generation = c.generation → r.status = .RUNNING → r.attempts = r.failures + 1 ∧ r.attempts ≤ 5
  failed : r.generation = c.generation → r.status = .FAILED → 5 ≤ r.failures

/-- The chunks of the source are those of one loaded document, under its fingerprint. -/
def Indexed (c : Config) (s : Index) (r : SemanticSource) : Prop :=
  ∃ job doc ids vectors, job.id = r.id ∧ (r.id, doc) ∈ s.loaded ∧ r.fingerprint = some doc.fingerprint ∧
    semanticChunks doc.text ≠ [] ∧ vectors.length = (semanticChunks doc.text).length ∧ s.chunksOf r.id = chunkRows c job ids (semanticChunks doc.text) vectors

structure Sound (c : Config) (s : Index) : Prop where
  ids : (s.sources.map SemanticSource.id).Nodup
  rows : ∀ r ∈ s.sources, r.Sound c
  issued : ∀ r ∈ s.sources, ∀ token ∈ r.leaseToken, token ∈ s.issued
  two : s.sources.countP (SemanticSource.active s.now) ≤ 2
  indexed : ∀ r ∈ s.sources, r.generation = c.generation → r.status = .READY → Indexed c s r
  newest : s.generations.getLast? = some c.generation ∨ c.generation ∉ s.generations

/-- What others may have done: a row under a token of before is the row of before. -/
structure Later (s t : Index) : Prop where
  now : s.now ≤ t.now
  issued : s.issued ⊆ t.issued
  loaded : s.loaded ⊆ t.loaded
  kept : ∀ r ∈ t.sources, ∀ token ∈ r.leaseToken, token ∈ s.issued → r ∈ s.sources

theorem Later.refl (s : Index) : Later s s := ⟨le_refl _, Subset.refl _, Subset.refl _, fun _ mem _ _ _ => mem⟩

theorem Later.trans {u : Index} (first : Later s t) (second : Later t u) : Later s u where
  now := le_trans first.now second.now
  issued := Subset.trans first.issued second.issued
  loaded := Subset.trans first.loaded second.loaded
  kept r mem token carries old := first.kept r (second.kept r mem token carries (first.issued old)) token carries old

/-- What the worker of a job knows. -/
structure Known (s : Index) (job : SemanticSource) : Prop where
  token : ∃ token, job.leaseToken = some token ∧ token ∈ s.issued
  row : ∀ r ∈ s.sources, r.leaseToken = job.leaseToken → r = job

theorem Known.later (known : Known s job) (later : Later s t) : Known t job := by
  obtain ⟨token, carries, old⟩ := known.token
  refine ⟨⟨token, carries, later.issued old⟩, fun r mem same => ?_⟩
  exact known.row r (later.kept r mem token (by rw [same]; exact carries) old) same

theorem owned_iff : owned c job r = true ↔ r.id = job.id ∧ r.revision = job.revision ∧ r.generation = c.generation ∧
    r.status = .RUNNING ∧ r.leaseToken = job.leaseToken := by
  simp [owned]

theorem Known.owned (known : Known s job) (mem : r ∈ s.sources) (own : owned c job r = true) : r = job :=
  known.row r mem (owned_iff.1 own).2.2.2.2

variable {f : SemanticSource → SemanticSource} {r' : SemanticSource} {p : SemanticSource → Bool}

theorem mem_updateMany :
    r' ∈ (s.updateMany p f).sources ↔ ∃ r ∈ s.sources, (if p r then f r else r) = r' := mem_map

theorem updateMany_ids {f : SemanticSource → SemanticSource}
    (keeps : ∀ r ∈ s.sources, p r = true → (f r).id = r.id) :
    (s.updateMany p f).sources.map SemanticSource.id = s.sources.map SemanticSource.id := by
  simp only [Index.updateMany, map_map]
  refine map_congr_left fun r mem => ?_
  by_cases yes : p r = true
  · simp [yes, keeps r mem yes]
  · simp [yes]

theorem not_active {clock : Int} (idle : r.status ≠ .RUNNING) : r.active clock = false := by
  simp [SemanticSource.active, idle]

/-- What an update leaves of a row: it has ended, unindexed and without a lease. -/
structure Ends (c : Config) (r r' : SemanticSource) : Prop where
  id : r'.id = r.id
  sound : r'.Sound c
  idle : r'.status ≠ .RUNNING
  unready : r'.status ≠ .READY

theorem SemanticSource.Sound.unleased (sound : r.Sound c) (idle : r.status ≠ .RUNNING) : r.leaseToken = none := by
  have none : ¬ r.leaseToken.isSome := fun some => idle (sound.token.1 some)
  simpa using none

section Update
variable {p : SemanticSource → Bool} {f : SemanticSource → SemanticSource}

/-- A statement keeps the invariant and what other workers know. -/
def Keeps (c : Config) (s t : Index) : Prop := Sound c t ∧ Later s t

/-- Rows end, and those that are ready after it have their chunks. -/
theorem keeps_rewrite (sound : Sound c s) {chunks : List SemanticChunk}
    (ends : ∀ r ∈ s.sources, p r = true → (f r).id = r.id ∧ (f r).Sound c ∧ (f r).status ≠ .RUNNING)
    (indexed : ∀ r ∈ s.sources, (if p r then f r else r).generation = c.generation → (if p r then f r else r).status = .READY →
      Indexed c { s with chunks } (if p r then f r else r)) : Keeps c s { s.updateMany p f with chunks } := by
  have unleased (r : SemanticSource) (mem : r ∈ s.sources) (yes : p r = true) : (f r).leaseToken = none :=
    (ends r mem yes).2.1.unleased (ends r mem yes).2.2
  refine ⟨⟨?_, fun r' mem => ?_, fun r' mem token carries => ?_, ?_, fun r' mem here status => ?_, sound.newest⟩,
    le_refl _, Subset.refl _, Subset.refl _, fun r' mem token carries _ => ?_⟩
  · have same := updateMany_ids fun r mem yes => (ends r mem yes).1
    exact same ▸ sound.ids
  · obtain ⟨r, old, rfl⟩ := mem_updateMany.1 mem
    split
    · exact (ends r old ‹_›).2.1
    · exact sound.rows r old
  · obtain ⟨r, old, rfl⟩ := mem_updateMany.1 mem
    split at carries
    · rw [unleased r old ‹_›] at carries
      cases carries
    · exact sound.issued r old token carries
  · refine le_trans ?_ sound.two
    simp only [Index.updateMany, countP_map]
    refine countP_mono_left fun r mem act => ?_
    simp only [Function.comp_apply] at act
    split at act
    · rw [not_active (ends r mem ‹_›).2.2] at act
      cases act
    · exact act
  · obtain ⟨r, old, rfl⟩ := mem_updateMany.1 mem
    exact indexed r old here status
  · obtain ⟨r, old, rfl⟩ := mem_updateMany.1 mem
    split at carries
    · rw [unleased r old ‹_›] at carries
      cases carries
    · rename_i no
      rw [if_neg no]
      exact old

theorem keeps_updateMany (sound : Sound c s) (ends : ∀ r ∈ s.sources, p r = true → Ends c r (f r)) :
    Keeps c s (s.updateMany p f) := by
  refine keeps_rewrite sound (fun r mem yes => ⟨(ends r mem yes).id, (ends r mem yes).sound, (ends r mem yes).idle⟩)
    fun r old here status => ?_
  split at status
  · exact absurd status (ends r old ‹_›).unready
  · rename_i no
    rw [if_neg no] at here ⊢
    exact sound.indexed r old here status

end Update

theorem released_ends (status : SourceStatus) (idle : status ≠ .RUNNING) (unready : status ≠ .READY)
    (id : r'.id = r.id) (same : r'.status = status) (token : r'.leaseToken = none) (lease : r'.leaseUntil = none)
    (pending : status = .PENDING → r'.generation = c.generation → r'.attempts = r'.failures ∧ r'.attempts < 5)
    (failed : status = .FAILED → r'.generation = c.generation → 5 ≤ r'.failures) : Ends c r r' := by
  subst same
  exact ⟨id, ⟨by simp [token, idle], by simp [lease, idle], fun here is => pending is here, fun _ is => absurd is idle,
    fun here is => failed is here⟩, idle, unready⟩

theorem reset_ends (r : SemanticSource) (clock : Int) (generation ownerUserId : String) (revision : Nat) :
    Ends c r { r.reset clock with generation := generation, ownerUserId := ownerUserId, revision := revision } :=
  released_ends .PENDING (by decide) (by decide) rfl rfl rfl rfl (fun _ _ => ⟨rfl, succ_pos 4⟩) nofun

section
variable (sound : Sound c s)
include sound

theorem rollover_keeps (sourceKey : Option String) : Keeps c s (rollover c sourceKey d s) :=
  keeps_updateMany sound fun r _ _ => reset_ends r d.clock c.generation r.ownerUserId r.revision

theorem sweep_keeps : Keeps c s (sweep d s) := by
  refine keeps_updateMany sound fun r mem yes => ?_
  simp only [ge_iff_le, decide_and, and_eq_true, decide_eq_true_eq] at yes
  obtain ⟨running, -, many⟩ := yes
  refine released_ends .FAILED (by decide) (by decide) rfl rfl rfl rfl nofun fun _ here => ?_
  obtain ⟨counted, -⟩ := (sound.rows r mem).running here running
  show 5 ≤ r.failures + 1
  omega

theorem skip_keeps : Keeps c s (skip c job s) :=
  keeps_updateMany sound fun _ _ _ => released_ends .SKIPPED (by decide) (by decide) rfl rfl rfl rfl nofun nofun

theorem defer_keeps : Keeps c s (defer c job d s) := by
  refine keeps_updateMany sound fun r mem own => ?_
  obtain ⟨-, -, here, running, -⟩ := owned_iff.1 own
  obtain ⟨counted, most⟩ := (sound.rows r mem).running here running
  refine released_ends .PENDING (by decide) (by decide) rfl rfl rfl rfl (fun _ _ => ?_) nofun
  show r.attempts - 1 = r.failures ∧ r.attempts - 1 < 5
  omega

/-- The last attempt ends in FAILED, an earlier one in PENDING. -/
theorem fail_keeps (known : Known s job) : Keeps c s (fail c job d s) := by
  refine keeps_updateMany sound fun r mem own => ?_
  obtain rfl : r = job := known.owned mem own
  obtain ⟨-, -, here, running, -⟩ := owned_iff.1 own
  obtain ⟨counted, most⟩ := (sound.rows r mem).running here running
  by_cases last : r.attempts ≥ 5
  · refine released_ends .FAILED (by decide) (by decide) rfl (if_pos last) rfl rfl nofun fun _ _ => ?_
    show 5 ≤ r.failures + 1
    omega
  · refine released_ends .PENDING (by decide) (by decide) rfl (if_neg last) rfl rfl (fun _ _ => ?_) nofun
    show r.attempts = r.failures + 1 ∧ r.attempts < 5
    omega

end

/-- Where no row is owned, the update changes nothing. -/
theorem updateMany_nothing (none : ∀ r ∈ s.sources, p r = false) : s.updateMany p f = s := by
  have same : (s.sources.map fun r => if p r then f r else r) = s.sources := by
    conv_rhs => rw [← map_id s.sources]
    exact map_congr_left fun r mem => by simp [none r mem]
  simp [Index.updateMany, same]

theorem Sound.eq_of_id (sound : Sound c s) (mem : r ∈ s.sources) (mem' : r' ∈ s.sources) (same : r.id = r'.id) :
    r = r' := Rows.eq_of_key sound.ids mem mem' same

theorem active_anti {clock now : Int} (le : clock ≤ now) (act : r.active now = true) : r.active clock = true := by
  simp only [SemanticSource.active, decide_eq_true_eq, Option.any_eq_true] at act ⊢
  obtain ⟨running, lease, here, less⟩ := act
  exact ⟨running, lease, here, lt_of_le_of_lt le less⟩

theorem selected_spec {sourceKey : Option String} (found : selected c sourceKey d s = some r) :
    r ∈ s.sources ∧ claimable c d.clock r = true := by
  have mem := Js.mem_sort.1 (mem_of_mem_head? found)
  obtain ⟨listed, yes⟩ := mem_filter.1 mem
  simp only [decide_eq_true_eq] at yes
  exact ⟨listed, yes.1⟩

theorem claimable_iff {clock : Int} : claimable c clock r = true ↔ r.generation = c.generation ∧ r.attempts < 5 ∧
    (r.status = .PENDING ∧ r.availableAt ≤ clock ∨ r.status = .RUNNING ∧ ∃ lease ∈ r.leaseUntil, lease < clock) := by
  simp [claimable, Option.any_eq_true]

theorem claimed_sound (sound : r.Sound c) (yes : claimable c d.clock r = true) : (r.claimed d).Sound c := by
  obtain ⟨here, few, ready⟩ := claimable_iff.1 yes
  refine ⟨by simp [SemanticSource.claimed], by simp [SemanticSource.claimed], nofun, fun _ _ => ?_, nofun⟩
  rcases ready with ⟨pending, -⟩ | ⟨running, -⟩
  · have counted := sound.pending here pending
    simp only [SemanticSource.claimed, pending, reduceCtorEq, if_false]
    omega
  · have counted := sound.running here running
    simp only [SemanticSource.claimed, running, if_true]
    omega

/-- The tables under a new lease on one row. -/
def Index.lease (s : Index) (row : SemanticSource) (d : At) : Index :=
  { s.updateMany (fun r => r.id = row.id) (SemanticSource.claimed d) with issued := s.issued ++ [d.token] }

variable {row : SemanticSource}

theorem mem_lease (sound : Sound c s) (mem : row ∈ s.sources) :
    r' ∈ (s.lease row d).sources ↔ r' = row.claimed d ∨ r' ∈ s.sources ∧ r'.id ≠ row.id := by
  refine (mem_updateMany (p := fun r => r.id = row.id)).trans ⟨?_, ?_⟩
  · rintro ⟨r, old, rfl⟩
    by_cases here : r.id = row.id
    · exact .inl (by simp [sound.eq_of_id old mem here])
    · exact .inr (by simp [here, old])
  · rintro (rfl | ⟨old, other⟩)
    · exact ⟨row, mem, by simp⟩
    · exact ⟨r', old, by simp [other]⟩

theorem lease_keeps (sound : Sound c s) (mem : row ∈ s.sources) (yes : claimable c d.clock row = true)
    (past : d.clock ≤ s.now) (fresh : d.token ∉ s.issued) (free : s.sources.countP (SemanticSource.active d.clock) < 2) :
    Keeps c s (s.lease row d) ∧ Known (s.lease row d) (row.claimed d) := by
  refine ⟨⟨⟨?_, fun r' mem' => ?_, fun r' mem' token carries => ?_, ?_, fun r' mem' here status => ?_, sound.newest⟩,
    le_refl _, subset_append_left _ _, Subset.refl _, fun r' mem' token carries old => ?_⟩,
    ⟨d.token, rfl, mem_append_right _ mem_cons_self⟩, fun r' mem' same => ?_⟩
  · have same := @updateMany_ids s (fun r => r.id = row.id) (SemanticSource.claimed d) fun _ _ _ => rfl
    exact same ▸ sound.ids
  · rcases (mem_lease sound mem).1 mem' with rfl | ⟨old, -⟩
    · exact claimed_sound (sound.rows row mem) yes
    · exact sound.rows r' old
  · rcases (mem_lease sound mem).1 mem' with rfl | ⟨old, -⟩
    · cases carries
      exact mem_append_right _ mem_cons_self
    · exact mem_append_left _ (sound.issued r' old token carries)
  · have now : s.sources.countP (SemanticSource.active s.now) < 2 :=
      lt_of_le_of_lt (countP_mono_left fun r _ => active_anti past) free
    have one : (s.lease row d).sources.countP (SemanticSource.active s.now) ≤
        s.sources.countP (SemanticSource.active s.now) + 1 := by
      simp only [Index.lease, Index.updateMany, countP_map]
      refine Rows.countP_le_succ (x := row) (Nodup.of_map _ sound.ids) fun r old other act => ?_
      have apart : r.id ≠ row.id := fun same => other (sound.eq_of_id old mem same)
      simpa [apart] using act
    show (s.lease row d).sources.countP (SemanticSource.active s.now) ≤ 2
    omega
  · rcases (mem_lease sound mem).1 mem' with rfl | ⟨old, -⟩
    · cases status
    · exact sound.indexed r' old here status
  · rcases (mem_lease sound mem).1 mem' with rfl | ⟨listed, -⟩
    · cases carries
      exact absurd old fresh
    · exact listed
  · rcases (mem_lease sound mem).1 mem' with rfl | ⟨old, -⟩
    · rfl
    · exact absurd (sound.issued r' old d.token (by rw [same]; rfl)) fresh

/-- A claim that returns a row has leased it; one that returns none changes nothing. -/
theorem claim_keeps (sound : Sound c s) (sourceKey : Option String) (past : d.clock ≤ s.now) (fresh : d.token ∉ s.issued) :
    Keeps c s (claim c sourceKey d s).2 ∧ ∀ job ∈ (claim c sourceKey d s).1, Known (claim c sourceKey d s).2 job := by
  unfold claim
  split
  · exact ⟨⟨sound, .refl s⟩, nofun⟩
  rename_i free
  split
  · exact ⟨⟨sound, .refl s⟩, nofun⟩
  rename_i row found
  obtain ⟨mem, yes⟩ := selected_spec found
  obtain ⟨keeps, known⟩ := lease_keeps sound mem yes past fresh (Nat.lt_of_not_le free)
  refine ⟨keeps, fun job is => ?_⟩
  cases is
  exact known

/-- The same rows, and the same chunks of every indexed source. -/
theorem Sound.chunks (sound : Sound c s) {chunks : List SemanticChunk}
    (same : ∀ r ∈ s.sources, r.status = .READY → chunks.filter (fun chunk => chunk.sourceKey = r.id) = s.chunksOf r.id) :
    Sound c { s with chunks := chunks } := by
  refine ⟨sound.ids, sound.rows, sound.issued, sound.two, fun r mem here status => ?_, sound.newest⟩
  obtain ⟨job, doc, ids, vectors, named, loaded, fingerprint, some, lengths, rows⟩ := sound.indexed r mem here status
  exact ⟨job, doc, ids, vectors, named, loaded, fingerprint, some, lengths, (same r mem status).trans rows⟩

theorem purge_keeps (sound : Sound c s) : Keeps c s (purge d s) := by
  refine ⟨sound.chunks fun r mem status => ?_, le_refl _, Subset.refl _, Subset.refl _, fun _ mem _ _ _ => mem⟩
  have picked {chunk : SemanticChunk} (taken : chunk ∈ (s.chunks.filter fun chunk => d.picked chunk.id ∧
      s.sources.any fun r => r.id = chunk.sourceKey ∧ r.status ≠ .READY).take 3200) : chunk.sourceKey ≠ r.id := by
    intro own
    obtain ⟨-, yes⟩ := mem_filter.1 (mem_of_mem_take taken)
    simp only [decide_and, and_eq_true, decide_eq_true_eq, any_eq_true] at yes
    obtain ⟨-, r', mem', same, unready⟩ := yes
    rw [sound.eq_of_id mem' mem (same.trans own)] at unready
    exact unready status
  generalize (s.chunks.filter fun chunk => d.picked chunk.id ∧
    s.sources.any fun r => r.id = chunk.sourceKey ∧ r.status ≠ .READY).take 3200 = rows at picked
  rw [Index.chunksOf, filter_filter]
  refine filter_congr fun chunk listed => ?_
  by_cases own : chunk.sourceKey = r.id
  · have stays : chunk ∉ rows := fun taken => picked taken own
    simp [own, stays]
  · simp [own]

variable {rows new : List SemanticChunk}

theorem replaced_self {id : String} (all : ∀ chunk ∈ new, chunk.sourceKey = id) :
    ((rows.filter fun chunk => chunk.sourceKey ≠ id) ++ new).filter (fun chunk => chunk.sourceKey = id) = new := by
  rw [filter_append, filter_filter, filter_eq_nil_iff.2 fun chunk _ => by simp, nil_append]
  exact filter_eq_self.2 fun chunk mem => by simp [all chunk mem]

theorem replaced_other {id key : String} (all : ∀ chunk ∈ new, chunk.sourceKey = id)
    (other : key ≠ id) : ((rows.filter fun chunk => chunk.sourceKey ≠ id) ++ new).filter (fun chunk => chunk.sourceKey = key) =
      rows.filter fun chunk => chunk.sourceKey = key := by
  have none : new.filter (fun chunk => chunk.sourceKey = key) = [] :=
    filter_eq_nil_iff.2 fun chunk mem => by simp [all chunk mem, Ne.symm other]
  rw [filter_append, none, append_nil, filter_filter]
  refine filter_congr fun chunk _ => ?_
  by_cases own : chunk.sourceKey = key
  · simp [own, other]
  · simp [own]

/-- The transaction of a worker whose lease stands. -/
theorem ready_keeps (sound : Sound c s) {doc : SemanticDocument} {vectors : List String} (loaded : (job.id, doc) ∈ s.loaded)
    (some : semanticChunks doc.text ≠ []) (lengths : vectors.length = (semanticChunks doc.text).length) :
    Keeps c s (ready c job doc vectors d s) := by
  unfold ready
  split
  swap
  · exact ⟨sound, .refl s⟩
  rename_i held
  simp only [any_eq_true, decide_and, and_eq_true, decide_eq_true_eq] at held
  obtain ⟨row, stored, own, act⟩ := held
  have rowId : row.id = job.id := (owned_iff.1 own).1
  have running : row.status = .RUNNING := (owned_iff.1 own).2.2.2.1
  let f : SemanticSource → SemanticSource := fun r =>
    { r.released .READY with fingerprint := Option.some doc.fingerprint, errorCode := none }
  let p : SemanticSource → Bool := fun r => owned c job r ∧ r.active d.clock
  have only {r : SemanticSource} (yes : p r = true) : r.id = job.id := by
    simp only [p, decide_and, and_eq_true, decide_eq_true_eq] at yes
    exact (owned_iff.1 yes.1).1
  have all : ∀ chunk ∈ chunkRows c job d.ids (semanticChunks doc.text) vectors, chunk.sourceKey = job.id :=
    fun chunk mem => by obtain ⟨⟨text, ordinal⟩, -, rfl⟩ := mem_map.1 mem; rfl
  refine keeps_rewrite (p := p) (f := f) sound (fun r _ _ => ⟨rfl, ⟨by simp [f, SemanticSource.released],
    by simp [f, SemanticSource.released], nofun, nofun, nofun⟩, nofun⟩) fun r old here status => ?_
  by_cases yes : p r = true
  · have key : r.id = job.id := only yes
    rw [if_pos yes]
    have named : (f r).id = job.id := key
    refine ⟨job, doc, d.ids, vectors, named.symm, named ▸ loaded, rfl, some, lengths, ?_⟩
    rw [named]
    exact replaced_self all
  · rw [if_neg yes] at here status ⊢
    have apart : r.id ≠ job.id := by
      intro same
      rw [sound.eq_of_id old stored (same.trans rowId.symm), running] at status
      cases status
    obtain ⟨job', doc', ids, vectors', named, loaded', fingerprint, some', lengths', rows⟩ := sound.indexed r old here status
    exact ⟨job', doc', ids, vectors', named, loaded', fingerprint, some', lengths', (replaced_other all apart).trans rows⟩

section
variable (sound : Sound c s)
include sound

theorem register_keeps : Keeps c s (register c s) := by
  unfold register
  split
  · exact ⟨sound, .refl s⟩
  · exact ⟨⟨sound.ids, sound.rows, sound.issued, sound.two, sound.indexed, .inl getLast?_concat⟩,
      le_refl _, Subset.refl _, Subset.refl _, fun _ mem _ _ _ => mem⟩

theorem loaded_keeps (entry : String × SemanticDocument) :
    Keeps c s { s with loaded := s.loaded ++ [entry] } := by
  refine ⟨⟨sound.ids, sound.rows, sound.issued, sound.two, fun r mem here status => ?_, sound.newest⟩,
    le_refl _, Subset.refl _, subset_append_left _ _, fun _ mem _ _ _ => mem⟩
  obtain ⟨job, doc, ids, vectors, named, loaded, rest⟩ := sound.indexed r mem here status
  exact ⟨job, doc, ids, vectors, named, mem_append_left _ loaded, rest⟩

theorem tick_keeps (elapsed : Nat) : Keeps c s (s.change (.tick elapsed)) := by
  have le : s.now ≤ s.now + elapsed := by omega
  refine ⟨⟨sound.ids, sound.rows, sound.issued, ?_, sound.indexed, sound.newest⟩, le, Subset.refl _,
    Subset.refl _, fun _ mem _ _ _ => mem⟩
  exact le_trans (countP_mono_left fun r _ => active_anti le) sound.two

/-- Chunks of a source that is not indexed may go. -/
theorem dropChunks_keeps {id : String} (idle : ∀ r ∈ s.sources, r.id = id → r.status ≠ .READY) :
    Keeps c s { s with chunks := s.chunks.filter fun chunk => chunk.sourceKey ≠ id } := by
  refine ⟨sound.chunks fun r mem status => ?_, le_refl _, Subset.refl _, Subset.refl _, fun _ mem _ _ _ => mem⟩
  have apart : r.id ≠ id := fun same => idle r mem same status
  have same := @replaced_other s.chunks [] id r.id nofun apart
  rw [append_nil] at same
  exact same

theorem touch_keeps (id ownerUserId : String) (clock : Int) :
    Keeps c s (s.change (.touch id ownerUserId clock)) := by
  simp only [Index.change, Index.touch]
  split
  · have ends : ∀ r ∈ s.sources, decide (r.id = id) = true → Ends c r
        { r.reset clock with ownerUserId := ownerUserId, revision := r.revision + 1 } :=
      fun r _ _ => reset_ends r clock r.generation ownerUserId (r.revision + 1)
    obtain ⟨sound', later⟩ := keeps_updateMany sound ends
    obtain ⟨sound'', later'⟩ := @dropChunks_keeps c _ sound' id fun r' mem same => by
      obtain ⟨r, old, rfl⟩ := mem_updateMany.1 mem
      split
      · exact nofun
      · rename_i no
        rw [if_neg no] at same
        simp [same] at no
    exact ⟨sound'', later.trans later'⟩
  · rename_i absent
    have fresh : ∀ r ∈ s.sources, r.id ≠ id := fun r mem same => absent (any_eq_true.2 ⟨r, mem, by simp [same]⟩)
    let row : SemanticSource := ⟨id, ownerUserId, 1, "", .PENDING, 0, clock, none, none, none, none, 0⟩
    have sound' : Sound c { s with sources := s.sources ++ [row] } := by
      refine ⟨Rows.nodup_append sound.ids fresh, fun r mem => ?_, fun r mem token carries => ?_, ?_,
        fun r mem here status => ?_, sound.newest⟩
      · rcases mem_append.1 mem with old | new
        · exact sound.rows r old
        · rw [mem_singleton.1 new]
          exact ⟨by simp [row], by simp [row], fun _ _ => ⟨rfl, succ_pos 4⟩, nofun, nofun⟩
      · rcases mem_append.1 mem with old | new
        · exact sound.issued r old token carries
        · rw [mem_singleton.1 new] at carries
          cases carries
      · simpa [row, SemanticSource.active] using sound.two
      · rcases mem_append.1 mem with old | new
        · exact sound.indexed r old here status
        · rw [mem_singleton.1 new] at status
          cases status
    have later : Later s { s with sources := s.sources ++ [row] } := by
      refine ⟨le_refl _, Subset.refl _, Subset.refl _, fun r mem token carries _ => ?_⟩
      rcases mem_append.1 mem with old | new
      · exact old
      · rw [mem_singleton.1 new] at carries
        cases carries
    obtain ⟨sound'', later'⟩ := @dropChunks_keeps c _ sound' id fun r mem same => by
      rcases mem_append.1 mem with old | new
      · exact absurd same (fresh r old)
      · rw [mem_singleton.1 new]
        exact nofun
    exact ⟨sound'', later.trans later'⟩

theorem remove_keeps (id : String) : Keeps c s (s.change (.remove id)) := by
  have sound' : Sound c { s with sources := s.sources.filter fun r => r.id ≠ id } := by
    have sub : Sublist (s.sources.filter fun r => r.id ≠ id) s.sources := filter_sublist
    exact ⟨(sub.map _).nodup sound.ids, fun r mem => sound.rows r (sub.subset mem),
      fun r mem => sound.issued r (sub.subset mem), le_trans sub.countP_le sound.two,
      fun r mem => sound.indexed r (sub.subset mem), sound.newest⟩
  obtain ⟨sound'', -⟩ := @dropChunks_keeps c _ sound' id fun r mem same => by
    simp [same] at mem
  exact ⟨sound'', le_refl _, Subset.refl _, Subset.refl _, fun r mem _ _ _ => (mem_filter.1 mem).1⟩

theorem change_keeps (change : Change) : Keeps c s (s.change change) := by
  cases change with
  | tick elapsed => exact tick_keeps sound elapsed
  | touch id ownerUserId clock => exact touch_keeps sound id ownerUserId clock
  | remove id => exact remove_keeps sound id

end

end Vimla.Semantic
