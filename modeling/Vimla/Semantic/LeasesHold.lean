import Vimla.Semantic.Progress

/-!
# What the leases promise

A worker that gives its row up, because the text is ineligible, the call is not
admitted or something failed, does not look at how long its lease stands, and
one that finds its text changed returns the row but not the attempt.
-/

namespace Vimla.Semantic

open Threads Threads.Program List

/-- The job for which a step is taken. -/
def Step.job : Step → Option SemanticSource
  | .load job | .admission job | .embed job | .database (.ready job) | .database (.skip job) | .database (.defer job)
  | .database (.requeue job) | .database (.fail job) => some job
  | _ => none

variable {c : Config} {s : Index} {job : SemanticSource}

/-- The time of a step: `CURRENT_TIMESTAMP`, for one in the database. -/
def instant (s : Index) : (l : Step) → Draw l → Int
  | .database _, d => d.clock
  | _, _ => s.now

/-- The row is no longer the worker's, or its lease is over. -/
def Gone (c : Config) (job : SemanticSource) (clock : Int) (s : Index) : Prop :=
  ∀ r ∈ s.sources, owned c job r = true → r.active clock = false

/-- What a step for a job that has lost its lease may do to the tables. -/
def Fenced (c : Config) (l : Step) (act : Index → Draw l → Index) : Prop :=
  ∀ s d, Timely c s l d → ∀ job ∈ l.job, Gone c job (instant s l d) s →
    (act s d).sources = s.sources ∧ (act s d).chunks = s.chunks

theorem Gone.nothing {clock : Int} (gone : Gone c job clock s)
    (timely : ∀ r ∈ s.sources, owned c job r = true → r.active clock = true) : ∀ r ∈ s.sources, owned c job r = false := by
  intro r mem
  cases own : owned c job r with
  | false => rfl
  | true =>
    have act := timely r mem own
    rw [gone r mem own] at act
    cases act

variable {q : Statement}

/-- A statement on a job that changes nothing when it is executed in vain. -/
theorem acts_unit {f : At → Index → Index}
    (vain : ∀ s d, Timely c s (.database q) d → d.fate ≠ .undone → ∀ job ∈ (Step.database q).job, Gone c job d.clock s →
      f d s = s) : (unit q f).Acts (Fenced c) := by
  refine acts_bind (acts_ask fun s d timely job is gone => ?_) fun r => acts_lift r
  cases fate : d.fate with
  | undone => simp [fate, and_self]
  | done | unheard => simp [fate, vain s d timely (by simp [fate]) job is gone, and_self]

/-- A statement of the batch itself is for no job. -/
theorem acts_statement {α : Type} {f : At → Index → α × Index} (none : (Step.database q).job = none) :
    (statement q f).Acts (Fenced c) := by
  refine acts_bind (acts_ask fun s d _ job is => ?_) fun r => acts_lift r
  rw [none] at is
  cases is

theorem acts_load : (load job).Acts (Fenced c) := by
  refine acts_bind (acts_ask fun s d _ job' is gone => ?_) fun r => acts_lift r
  match d with
  | .error e | .ok none | .ok (some doc) => exact ⟨rfl, rfl⟩

theorem acts_givesUp {p : At → SemanticSource → SemanticSource} (gives : q.givesUp = some job)
    (for_ : (Step.database q).job = some job) :
    (unit q fun d s => s.updateMany (owned c job) (p d)).Acts (Fenced c) := by
  refine acts_unit fun s d timely fate job' is gone => ?_
  rw [for_] at is
  cases is
  exact updateMany_nothing (gone.nothing ((timely fate).1 job gives))

theorem acts_index : (index c job).Acts (Fenced c) := by
  refine acts_bind acts_load fun doc => ?_
  cases doc with
  | none => exact acts_givesUp rfl rfl
  | some doc =>
    simp only
    split
    · exact acts_givesUp rfl rfl
    refine acts_bind (acts_bind (acts_ask fun _ _ _ _ _ _ => ⟨rfl, rfl⟩) fun r => acts_lift r) fun admitted => ?_
    split
    swap
    · exact acts_givesUp rfl rfl
    refine acts_bind (acts_bind (acts_ask fun _ _ _ _ _ _ => ⟨rfl, rfl⟩) fun r => acts_lift r) fun vectors => ?_
    split
    · trivial
    refine acts_bind acts_load fun current => ?_
    split
    · refine acts_unit fun s d timely fate job' is gone => ?_
      exact updateMany_nothing ((timely fate).2 job rfl)
    · refine acts_unit fun s d _ _ job' is gone => ?_
      cases is
      unfold ready
      rw [if_neg]
      intro held
      simp only [any_eq_true, Bool.decide_and, Bool.and_eq_true, decide_eq_true_eq] at held
      obtain ⟨r, mem, own, act⟩ := held
      rw [gone r mem own] at act
      cases act

theorem acts_jobs (sourceKey : Option String) (left processed : Nat) : (jobs c sourceKey left processed).Acts (Fenced c) := by
  induction left generalizing processed with
  | zero => trivial
  | succ left ih =>
    refine acts_bind (acts_statement rfl) fun job => ?_
    cases job with
    | none => trivial
    | some job =>
      refine acts_bind (acts_bind (acts_attempt acts_index) fun result => ?_) fun _ => ih (processed + 1)
      cases result with
      | ok a => trivial
      | error e => exact acts_givesUp rfl rfl

theorem acts_runBatch (batch : Batch) : (runBatch c batch).Acts (Fenced c) := by
  unfold runBatch
  split
  · trivial
  refine acts_bind (acts_statement rfl) fun _ => acts_bind (acts_statement rfl) fun active => ?_
  split
  · trivial
  exact acts_bind (acts_statement rfl) fun _ => acts_bind (acts_statement rfl) fun _ => acts_bind (acts_statement rfl) fun _ =>
    acts_bind (acts_statement rfl) fun _ => acts_jobs _ _ 0

abbrev Indexers := World Step Draw Index Unit Nat Batch

/-- A batch that is run to its end is a run of the system. -/
theorem round_run (H : Healthy) (batch : Batch) (w : Indexers) :
    ∃ events : List (Event Step Draw Batch Change),
      (events.foldl (World.step (indexer c)) w).state = H.round c batch w.state := by
  let arrived : Indexers := w.step (indexer c) (.arrive batch)
  obtain ⟨events, -, ends⟩ := World.exec_run (indexer c) (fun l => Change.tick (H.delay l)) H.answers w.threads.length
    (runBatch c batch) arrived ⟨batch, runBatch c batch, []⟩ (by simp [arrived, World.step, indexer]) rfl
  exact ⟨.arrive batch :: events, ends⟩

theorem rounds_run (H : Healthy) (batch : Batch) (n : Nat) (w : Indexers) :
    ∃ events : List (Event Step Draw Batch Change),
      (events.foldl (World.step (indexer c)) w).state = (H.round c batch)^[n] w.state := by
  induction n generalizing w with
  | zero => exact ⟨[], rfl⟩
  | succ n ih =>
    obtain ⟨first, once⟩ := @round_run c H batch w
    obtain ⟨rest, ends⟩ := ih (first.foldl (World.step (indexer c)) w)
    refine ⟨first ++ rest, ?_⟩
    rw [foldl_append, ends, once]
    rfl

structure LeasesHold (c : Config) (w : Indexers) : Prop where
  two : w.state.sources.countP (SemanticSource.active w.state.now) ≤ 2
  /-- The chunks of a loaded text, in order, all under one lease. -/
  indexed : ∀ r ∈ w.state.sources, r.generation = c.generation → r.status = .READY →
    ∃ (doc : SemanticDocument) (ids : Nat → String) (vectors : List String) (lease : Option String), (r.id, doc) ∈ w.state.loaded ∧ r.fingerprint = some doc.fingerprint ∧
    joined (semanticChunks doc.text) = doc.text.toList ∧ vectors.length = (semanticChunks doc.text).length ∧
    w.state.chunksOf r.id = (semanticChunks doc.text).zipIdx.map fun (text, ordinal) =>
      ⟨ids ordinal, r.id, ordinal, c.semanticHash text, vectors.getD ordinal "", lease⟩
  /-- A worker without its lease changes neither rows nor chunks. -/
  fenced : ∀ (me : Nat) (thread : Thread Step Draw Index Unit Nat Batch), w.threads[me]? = some thread →
    ∀ l act next, thread.program = .step l act next → Fenced c l act
  /-- A row that is not settled can be claimed from some time on, or the sweep settles it. -/
  claimable : ∀ r ∈ w.state.sources, r.generation = c.generation → settled c r = false → ∃ time, ∀ clock ≥ time,
    claimable c clock r = true ∨ r.status = .RUNNING ∧ r.attempts ≥ 5 ∧ ∃ lease ∈ r.leaseUntil, lease < clock
  /-- Batches that nothing disturbs settle every source, whatever its generation. -/
  settles : ∃ long : Nat, ∀ elapsed ≥ long, ∀ (H : Healthy) (limit : Int), 1 ≤ limit → limit ≤ 16 →
    ∀ n ≥ w.state.sources.length, ∃ events : List (Event Step Draw Batch Change),
      (events.foldl (World.step (indexer c)) w).state = (H.round c ⟨limit, none⟩)^[n] (w.state.change (.tick elapsed)) ∧
      ∀ r ∈ (events.foldl (World.step (indexer c)) w).state.sources, settled c r = true
  /-- Five attempts at this revision have failed or were lost. -/
  failed : ∀ r ∈ w.state.sources, r.generation = c.generation → r.status = .FAILED → 5 ≤ r.failures

theorem Sound.claimable_later (sound : Sound c s) {r : SemanticSource} (mem : r ∈ s.sources) (here : r.generation = c.generation)
    (open_ : settled c r = false) : ∃ time, ∀ clock ≥ time,
      claimable c clock r = true ∨ r.status = .RUNNING ∧ r.attempts ≥ 5 ∧ ∃ lease ∈ r.leaseUntil, lease < clock := by
  have row := sound.rows r mem
  cases status : r.status with
  | PENDING =>
    refine ⟨r.availableAt, fun clock late => .inl (claimable_iff.2 ⟨here, (row.pending here status).2, .inl ⟨status, late⟩⟩)⟩
  | RUNNING =>
    obtain ⟨lease, is⟩ := Option.isSome_iff_exists.1 (row.until_.2 status)
    refine ⟨lease + 1, fun clock late => ?_⟩
    have past : lease < clock := by omega
    by_cases few : r.attempts < 5
    · exact .inl (claimable_iff.2 ⟨here, few, .inr ⟨status, lease, is, past⟩⟩)
    · exact .inr ⟨rfl, Nat.le_of_not_lt few, lease, is, past⟩
  | READY | SKIPPED | FAILED => simp [settled, here, status] at open_

theorem Sound.settles (w : Indexers) (sound : Sound c w.state) : ∃ long : Nat, ∀ elapsed ≥ long, ∀ (H : Healthy) (limit : Int),
    1 ≤ limit → limit ≤ 16 → ∀ n ≥ w.state.sources.length, ∃ events : List (Event Step Draw Batch Change),
      (events.foldl (World.step (indexer c)) w).state = (H.round c ⟨limit, none⟩)^[n] (w.state.change (.tick elapsed)) ∧
      ∀ r ∈ (events.foldl (World.step (indexer c)) w).state.sources, settled c r = true := by
  refine ⟨(horizon w.state.sources - w.state.now).toNat, fun elapsed long H limit least most n enough => ?_⟩
  have calm : Calm c (w.state.change (.tick elapsed)) := sound.calm (by omega)
  have count : unsettled c (w.state.change (.tick elapsed)) ≤ n := Nat.le_trans countP_le_length enough
  obtain ⟨events, ends⟩ := @rounds_run c H ⟨limit, none⟩ n (w.step (indexer c) (.other (.tick elapsed)))
  refine ⟨.other (.tick elapsed) :: events, ends, ?_⟩
  rw [foldl_cons, ends]
  exact rounds_settle H least most n calm count

/-- Of any run in which no worker gives a row up after its lease, or for a
changed text. -/
theorem semantic_leases_hold (c : Config) (s : Index) (sound : Sound c s) (events : List (Event Step Draw Batch Change))
    (timely : Runs.Along (World.step (indexer c)) (Admitted (discipline c) fun _ _ => True) ⟨s, []⟩ events) :
    LeasesHold c (events.foldl (World.step (indexer c)) ⟨s, []⟩) := by
  have holds := Contract.run timely ((contract c).start sound fun _ => trivial)
  have sound : Sound c (events.foldl (World.step (indexer c)) ⟨s, []⟩).state := holds.1
  have acts := @World.acts _ _ _ _ _ _ _ (Fenced c) (indexer c) ⟨s, []⟩ (fun _ => acts_runBatch) events nofun
  generalize events.foldl (World.step (indexer c)) ⟨s, []⟩ = w at sound acts
  refine ⟨sound.two, fun r mem here status => ?_, fun me thread found l act next is => ?_,
    fun r mem here open_ => sound.claimable_later mem here open_, sound.settles w,
    fun r mem here status => (sound.rows r mem).failed here status⟩
  · obtain ⟨job, doc, ids, vectors, named, loaded, fingerprint, some, lengths, rows⟩ := sound.indexed r mem here status
    refine ⟨doc, ids, vectors, job.leaseToken, loaded, fingerprint, joined_semanticChunks some, lengths, ?_⟩
    rw [rows, ← named]
    rfl
  · have each := acts thread (mem_of_getElem? found)
    rw [is] at each
    exact each.1

namespace Note

def config : Config := ⟨"generation", id⟩

def empty : Index := ⟨[], [], [], 0, [], []⟩

theorem empty_sound : Sound config empty := by
  constructor <;> simp [empty]

/-- Every step is answered at this instant; each load returns `doc`. -/
def answers (clock : Int) (token : String) (doc : SemanticDocument) (vectors : Except Unit (List String)) : ∀ l, Draw l
  | .database _ => ⟨clock, clock, .done, fun _ => false, fun _ => true, token, fun _ => ""⟩
  | .load _ => .ok (some doc)
  | .admission _ => .ok true
  | .embed _ => vectors

def steps (n : Nat) (clock : Int) (token : String) (doc : SemanticDocument) (vectors : Except Unit (List String)) :
    List (Event Step Draw Batch Change) := List.replicate n (.advance 0 (answers clock token doc vectors))

def first : SemanticDocument := ⟨"violet", "1"⟩

/-- The same note after an update that bumps its `updatedAt` alone. -/
def second : SemanticDocument := ⟨"violet", "2"⟩

/-- A note is written, a batch begins and comes to its first job. -/
def begun : List (Event Step Draw Batch Change) :=
  [.other (.touch "NOTE:a" "owner" 0), .arrive ⟨5, none⟩] ++ steps 6 0 "" first (.error ())

/-- An attempt whose embedding fails. -/
def failing (clock : Int) (token : String) : List (Event Step Draw Batch Change) :=
  steps 5 clock token first (.error ()) ++ [.other (.tick 400000)]

def world (events : List (Event Step Draw Batch Change)) : Indexers := events.foldl (World.step (indexer config)) ⟨empty, []⟩

/-- A note that is indexed at once. -/
def indexed : List (Event Step Draw Batch Change) := begun ++ steps 6 0 "token" first (.ok ["[1]"])

end Note

open Note in
theorem semantic_leases_hold_note : LeasesHold config (world indexed) ∧
    (world indexed).state.sources.map SemanticSource.status = [.READY] ∧ (world indexed).state.chunks.length = 1 :=
  ⟨semantic_leases_hold config empty empty_sound indexed (by decide +kernel), by decide +kernel, by decide +kernel⟩

open Note in
/-- A fifth attempt that finds its text changed leaves a row that no claim and no
sweep takes; and a worker writes its row long after its lease. -/
theorem changed_text_strands_source :
    ((world (begun ++ failing 0 "1" ++ failing 400000 "2" ++ failing 800000 "3" ++ failing 1200000 "4" ++
      steps 4 1600000 "5" first (.ok ["[1]"]) ++ steps 2 1600000 "" second (.ok []))).state.sources.map fun r =>
        (r.status, r.attempts)) = [(.PENDING, 5)] ∧
    (∀ (clock : Int) (r : SemanticSource), r.attempts = 5 → claimable config clock r = false) ∧
    ((world (begun ++ steps 4 0 "1" first (.error ()) ++ [.other (.tick 100000)])).state.sources.map fun r =>
      (r.status, r.active 100000)) = [(.RUNNING, false)] ∧
    ((world (begun ++ steps 4 0 "1" first (.error ()) ++ [.other (.tick 100000)] ++
      steps 1 100000 "" first (.error ()))).state.sources.map SemanticSource.status) = [.PENDING] := by
  refine ⟨by decide +kernel, fun clock r used => ?_, by decide +kernel, by decide +kernel⟩
  simp [claimable, used]

end Vimla.Semantic
