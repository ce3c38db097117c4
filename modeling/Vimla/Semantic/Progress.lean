import Vimla.Semantic.Indexing

/-!
# Healthy batches settle every source

A batch that nobody disturbs, once every lease and every delay is over: it
settles at least one more source, so as many batches as there are sources settle
them all.
-/

namespace Vimla.Semantic

open Threads Threads.Program List Function Js Nat Int Bool

variable {c : Config} {s t : Index} {job r : SemanticSource}

/-- What answers a batch when all goes well: nothing fails, nothing is denied,
texts stay as they are, and a job is done before its lease is over. -/
structure Healthy where
  documents : SemanticSource → Option SemanticDocument
  vectors : SemanticSource → List String
  lengths : ∀ job doc, documents job = some doc → (vectors job).length = (semanticChunks doc.text).length
  token : List String → String
  fresh : ∀ issued, token issued ∉ issued
  ids : Nat → String
  picked : String → Bool
  delay : Step → Nat
  quick : ∀ job, delay (.load job) + delay (.admission job) + delay (.embed job) + delay (.load job) +
    delay (.database (.ready job)) < 90000

namespace Healthy
variable (H : Healthy)

def at_ (s : Index) : At := ⟨s.now, s.now, .done, fun _ => false, H.picked, H.token s.issued, H.ids⟩

def answers : (l : Step) → Index → Draw l
  | .database _, s => H.at_ s
  | .load job, _ => .ok (H.documents job)
  | .admission _, _ => .ok true
  | .embed job, _ => .ok (H.vectors job)

def wait (l : Step) (s : Index) : Index := s.change (.tick (H.delay l))

/-- A batch from its start to its end. -/
def round (c : Config) (batch : Batch) (s : Index) : Index := ((runBatch c batch).exec H.wait H.answers s).2

end Healthy

/-- The source has reached the end of its way. -/
def settled (c : Config) (r : SemanticSource) : Bool :=
  r.generation = c.generation ∧ (r.status = .READY ∨ r.status = .SKIPPED ∨ r.status = .FAILED)

def unsettled (c : Config) (s : Index) : Nat := s.sources.countP fun r => !settled c r

/-- Every lease and every delay is over. -/
def Quiet (s : Index) : Prop := ∀ r ∈ s.sources, r.availableAt ≤ s.now ∧ ∀ lease ∈ r.leaseUntil, lease < s.now

section Exec
variable {H : Healthy}

theorem exec_statement {α : Type} (q : Statement) (f : At → Index → α × Index) :
    (statement q f).exec H.wait H.answers s =
      (.ok (f (H.at_ (H.wait (.database q) s)) (H.wait (.database q) s)).1,
        (f (H.at_ (H.wait (.database q) s)) (H.wait (.database q) s)).2) := rfl

theorem exec_unit (q : Statement) (f : At → Index → Index) : (unit q f).exec H.wait H.answers s =
    (.ok (), f (H.at_ (H.wait (.database q) s)) (H.wait (.database q) s)) := rfl

variable {doc : SemanticDocument}

theorem exec_load (is : H.documents job = some doc) : (load job).exec H.wait H.answers s =
    (.ok (some doc), { H.wait (.load job) s with loaded := s.loaded ++ [(job.id, doc)] }) := by
  have answer : H.answers (.load job) (H.wait (.load job) s) = .ok (some doc) := congrArg Except.ok is
  simp only [load, ask, Program.bind, exec, answer]
  rfl

theorem exec_load_none (is : H.documents job = none) : (load job).exec H.wait H.answers s =
    (.ok none, H.wait (.load job) s) := by
  have answer : H.answers (.load job) (H.wait (.load job) s) = .ok none := congrArg Except.ok is
  simp only [load, ask, Program.bind, exec, answer]
  rfl

theorem wait_keeps (sound : Sound c s) (l : Step) : Keeps c s (H.wait l s) := tick_keeps sound (H.delay l)

/-- How a healthy job ends: its row is settled, the others are as they were. -/
structure Settles (c : Config) (job : SemanticSource) (s t : Index) : Prop where
  sound : Sound c t
  now : s.now ≤ t.now
  generations : t.generations = s.generations
  rows : ∃ row, t.sources = s.sources.map (fun r => if r.id = job.id then row else r) ∧ row.id = job.id ∧
    settled c row = true ∧ row.availableAt = job.availableAt ∧ row.leaseUntil = none

variable {p : SemanticSource → Bool}

theorem updateMany_only {f : SemanticSource → SemanticSource} (sound : Sound c s)
    (mem : job ∈ s.sources) (yes : p job = true) (only : ∀ r, p r = true → r.id = job.id) :
    (s.updateMany p f).sources = s.sources.map fun r => if r.id = job.id then f job else r := by
  refine map_congr_left fun r listed => ?_
  by_cases here : r.id = job.id
  · rw [sound.eq_of_id listed mem here, if_pos yes, if_pos rfl]
  · rw [if_neg (fun yes => here (only r yes)), if_neg here]

theorem owned_self (here : job.generation = c.generation) (running : job.status = .RUNNING) : owned c job job = true :=
  owned_iff.2 ⟨rfl, rfl, here, running, rfl⟩

theorem skip_settles (sound : Sound c s) (mem : job ∈ s.sources) (here : job.generation = c.generation)
    (running : job.status = .RUNNING) : Settles c job s (skip c job s) := by
  have rows := @updateMany_only c s job (owned c job)
    (fun r => { r.released .SKIPPED with errorCode := some "SOURCE_INELIGIBLE" }) sound mem (owned_self here running)
    fun r own => (owned_iff.1 own).1
  refine ⟨(skip_keeps sound).1, le_refl _, rfl, _, rows, rfl, ?_, rfl, rfl⟩
  simp [settled, SemanticSource.released, here]

theorem ready_settles {vectors : List String} {d : At} (sound : Sound c s) (mem : job ∈ s.sources)
    (here : job.generation = c.generation) (running : job.status = .RUNNING) (held : job.active d.clock = true)
    (loaded : (job.id, doc) ∈ s.loaded) (some : semanticChunks doc.text ≠ [])
    (lengths : vectors.length = (semanticChunks doc.text).length) : Settles c job s (ready c job doc vectors d s) := by
  have own := owned_self here running
  have keeps := @ready_keeps c s job d sound doc vectors loaded some lengths
  have any : s.sources.any (fun r => owned c job r ∧ r.active d.clock) = true :=
    any_eq_true.2 ⟨job, mem, by simp [own, held]⟩
  unfold ready at keeps ⊢
  rw [if_pos any] at keeps ⊢
  have rows := @updateMany_only c s job (fun r => owned c job r ∧ r.active d.clock)
    (fun r => { r.released .READY with fingerprint := Option.some doc.fingerprint, errorCode := none }) sound mem
    (by simp [own, held]) fun r yes => by
      simp only [decide_and, and_eq_true, decide_eq_true_eq] at yes
      exact (owned_iff.1 yes.1).1
  refine ⟨keeps.1, le_refl _, rfl, _, rows, rfl, ?_, rfl, rfl⟩
  simp [settled, SemanticSource.released, here]

theorem Settles.after (settles : Settles c job t s) {u : Index} (now : u.now ≤ t.now) (generations : t.generations = u.generations)
    (sources : t.sources = u.sources) : Settles c job u s := by
  obtain ⟨row, rows, rest⟩ := settles.rows
  exact ⟨settles.sound, le_trans now settles.now, settles.generations.trans generations, row, sources ▸ rows, rest⟩

/-- Soundness of what the steps before the last one leave. -/
theorem load_keeps (sound : Sound c s) (doc : SemanticDocument) :
    Keeps c s { H.wait (.load job) s with loaded := s.loaded ++ [(job.id, doc)] } := by
  have first := wait_keeps (H := H) sound (.load job)
  have second := loaded_keeps first.1 (job.id, doc)
  exact ⟨second.1, first.2.trans second.2⟩

section
variable (sound : Sound c s) (mem : job ∈ s.sources) (here : job.generation = c.generation)
  (running : job.status = .RUNNING) (lease : job.leaseUntil = some (s.now + 90000))
include sound mem here running lease

theorem index_settles :
    ∃ t, (index c job).exec H.wait H.answers s = (.ok (), t) ∧ Settles c job s t := by
  have tick (l : Step) (u : Index) : u.now ≤ (H.wait l u).now := by
    show u.now ≤ u.now + H.delay l
    omega
  have skipped (u : Index) (sound : Sound c u) (now : s.now ≤ u.now) (generations : u.generations = s.generations)
      (sources : u.sources = s.sources) : Settles c job s (skip c job (H.wait (.database (.skip job)) u)) := by
    have waited := (wait_keeps (H := H) sound (.database (.skip job))).1
    refine (skip_settles waited ?_ here running).after (le_trans now (tick _ _)) generations sources
    exact sources ▸ mem
  cases found : H.documents job with
  | none =>
    refine ⟨skip c job (H.wait (.database (.skip job)) (H.wait (.load job) s)), ?_, ?_⟩
    · rw [index, exec_bind (exec_load_none found)]
      rfl
    · exact skipped _ (wait_keeps sound _).1 (tick _ _) rfl rfl
  | some doc =>
    let s1 : Index := { H.wait (.load job) s with loaded := s.loaded ++ [(job.id, doc)] }
    have sound1 : Sound c s1 := (load_keeps sound doc).1
    by_cases eligible : semanticChunks doc.text = [] ∨ (semanticChunks doc.text).any (fun chunk => trim chunk = "")
    · refine ⟨skip c job (H.wait (.database (.skip job)) s1), ?_, skipped s1 sound1 (tick _ _) rfl rfl⟩
      rw [index, exec_bind (exec_load found)]
      simp only [if_pos eligible]
      rfl
    · let s2 := H.wait (.embed job) (H.wait (.admission job) s1)
      have sound2 : Sound c s2 := (wait_keeps (wait_keeps sound1 _).1 _).1
      let s3 : Index := { H.wait (.load job) s2 with loaded := s2.loaded ++ [(job.id, doc)] }
      have sound3 : Sound c s3 := (load_keeps sound2 doc).1
      let s4 := H.wait (.database (.ready job)) s3
      have sound4 : Sound c s4 := (wait_keeps sound3 _).1
      have lengths := H.lengths job doc found
      refine ⟨ready c job doc (H.vectors job) (H.at_ s4) s4, ?_, ?_⟩
      · rw [index, exec_bind (exec_load found)]
        simp only [if_neg eligible]
        rw [exec_bind (by rfl)]
        simp only [if_true]
        rw [exec_bind (by rfl), if_neg (not_not.2 lengths), exec_bind (exec_load found)]
        simp only [Option.map_some, ne_eq, not_true_eq_false, if_false]
        rfl
      · have late : s4.now = s.now + H.delay (.load job) + H.delay (.admission job) + H.delay (.embed job) +
            H.delay (.load job) + H.delay (.database (.ready job)) := rfl
        have quick := H.quick job
        have held : job.active (H.at_ s4).clock = true := by
          have before : s4.now < s.now + 90000 := by omega
          simp [SemanticSource.active, running, lease, Healthy.at_, before]
        have stored : (job.id, doc) ∈ s4.loaded := mem_append_right _ mem_cons_self
        have settles := @ready_settles c s4 job doc (H.vectors job) (H.at_ s4) sound4 mem here running held stored
          (fun none => eligible (.inl none)) lengths
        refine settles.after ?_ rfl rfl
        omega

theorem process_settles :
    ∃ t, (process c job).exec H.wait H.answers s = (.ok (), t) ∧ Settles c job s t := by
  obtain ⟨t, ends, settles⟩ := @index_settles c s job H sound mem here running lease
  refine ⟨t, ?_, settles⟩
  rw [process, exec_bind (exec_attempt ends)]
  rfl

end

/-- Sound and at rest. -/
structure Calm (c : Config) (s : Index) : Prop where
  sound : Sound c s
  quiet : Quiet s

theorem Quiet.of_rows (quiet : Quiet s) (now : s.now ≤ t.now)
    (rows : ∀ r' ∈ t.sources, r' ∈ s.sources ∨ r'.availableAt ≤ t.now ∧ r'.leaseUntil = none) : Quiet t := by
  intro r' mem
  rcases rows r' mem with old | ⟨available, free⟩
  · obtain ⟨available, past⟩ := quiet r' old
    exact ⟨le_trans available now, fun lease is => lt_of_lt_of_le (past lease is) now⟩
  · exact ⟨available, by simp [free]⟩

theorem Calm.wait (calm : Calm c s) (l : Step) : Calm c (H.wait l s) := by
  refine ⟨(wait_keeps calm.sound l).1, calm.quiet.of_rows ?_ fun r mem => .inl mem⟩
  show s.now ≤ s.now + H.delay l
  omega

theorem Quiet.idle (quiet : Quiet s) : s.sources.countP (SemanticSource.active s.now) = 0 := by
  refine countP_eq_zero.2 fun r mem act => ?_
  simp only [SemanticSource.active, decide_eq_true_eq, Option.any_eq_true] at act
  obtain ⟨-, lease, is, later⟩ := act
  have past := (quiet r mem).2 lease is
  omega

theorem unsettled_of_claimable {clock : Int} (yes : claimable c clock r = true) : settled c r = false := by
  obtain ⟨-, -, ⟨pending, -⟩ | ⟨running, -⟩⟩ := claimable_iff.1 yes
  · simp [settled, pending]
  · simp [settled, running]

theorem selected_isSome {d : At} (newest : s.generations.getLast? = some c.generation) (free : ∀ id, d.locked id = false)
    (mem : r ∈ s.sources) (yes : claimable c d.clock r = true) : ∃ row, selected c none d s = some row := by
  have listed : r ∈ sort claimOrder (s.sources.filter fun r => claimable c d.clock r ∧ (none : Option String).all (· = r.id) ∧
      s.generations.getLast? = some c.generation ∧ d.locked r.id = false) :=
    mem_sort.2 (mem_filter.2 ⟨mem, by simp [yes, newest, free]⟩)
  cases sorted : sort claimOrder (s.sources.filter fun r => claimable c d.clock r ∧ (none : Option String).all (· = r.id) ∧
      s.generations.getLast? = some c.generation ∧ d.locked r.id = false) with
  | nil =>
    rw [sorted] at listed
    cases listed
  | cons row rest => exact ⟨row, by rw [selected, sorted]; rfl⟩

/-- A claimed row after its job: one source more is settled. -/
theorem Settles.progress {row : SemanticSource} {d : At} (calm : Calm c s) (mem : row ∈ s.sources)
    (yes : claimable c d.clock row = true) (settles : Settles c (row.claimed d) (s.lease row d) t) :
    Calm c t ∧ s.now ≤ t.now ∧ t.generations = s.generations ∧ unsettled c t < unsettled c s := by
  obtain ⟨row', rows, named, ended, available, free⟩ := settles.rows
  have now : s.now ≤ t.now := settles.now
  have same : t.sources = s.sources.map fun r => if r.id = row.id then row' else r := by
    rw [rows]
    simp only [Index.lease, Index.updateMany, map_map]
    refine map_congr_left fun r _ => ?_
    by_cases here : r.id = row.id <;> simp [SemanticSource.claimed, here]
  refine ⟨⟨settles.sound, calm.quiet.of_rows now fun r' listed => ?_⟩, now, settles.generations, ?_⟩
  · rw [same] at listed
    obtain ⟨r, old, rfl⟩ := mem_map.1 listed
    split
    · refine .inr ⟨?_, free⟩
      rw [available]
      exact le_trans (calm.quiet row mem).1 now
    · exact .inl old
  · simp only [unsettled, same, countP_map]
    refine Rows.countP_lt (fun r old open_ => ?_) mem ?_ ?_
    · simp only [comp_apply] at open_
      split at open_
      · simp [ended] at open_
      · exact open_
    · simp [unsettled_of_claimable yes]
    · simp [ended]

theorem jobs_settle (left processed : Nat) (calm : Calm c s) (newest : s.generations.getLast? = some c.generation) :
    ∃ n t, (jobs c none left processed).exec H.wait H.answers s = (.ok n, t) ∧ Calm c t ∧ s.now ≤ t.now ∧
      t.generations = s.generations ∧ unsettled c t ≤ unsettled c s ∧
      (0 < left → (∃ r ∈ s.sources, claimable c s.now r = true) → unsettled c t < unsettled c s) := by
  induction left generalizing s processed with
  | zero => exact ⟨processed, s, rfl, calm, le_refl _, rfl, le_refl _, fun none => absurd none (lt_irrefl 0)⟩
  | succ left ih =>
    let u := H.wait (.database .claim) s
    have calm' : Calm c u := calm.wait _
    have now : s.now ≤ u.now := by
      show s.now ≤ s.now + H.delay _
      omega
    have free : ¬ u.sources.countP (SemanticSource.active (H.at_ u).clock) ≥ 2 := by
      have idle : u.sources.countP (SemanticSource.active (H.at_ u).clock) = 0 := calm'.quiet.idle
      rw [idle]
      decide
    have first := @exec_statement s H _ .claim (claim c none)
    cases found : selected c none (H.at_ u) u with
    | none =>
      have nothing : claim c none (H.at_ u) u = (none, u) := by
        unfold claim
        rw [if_neg free]
        simp [found]
      refine ⟨processed, u, ?_, calm', now, rfl, le_refl _, fun _ some => ?_⟩
      · rw [jobs, exec_bind first, nothing]
        rfl
      · obtain ⟨r, mem, yes⟩ := some
        have still : claimable c (H.at_ u).clock r = true := by
          obtain ⟨here, few, ready⟩ := claimable_iff.1 yes
          refine claimable_iff.2 ⟨here, few, ready.imp (fun ⟨pending, le⟩ => ⟨pending, le_trans le now⟩)
            fun ⟨running, lease, is, less⟩ => ⟨running, lease, is, lt_of_lt_of_le less now⟩⟩
        obtain ⟨row, is⟩ := @selected_isSome c u r (H.at_ u) newest (fun _ => rfl) mem still
        rw [found] at is
        cases is
    | some row =>
      have claimed : claim c none (H.at_ u) u = (some (row.claimed (H.at_ u)), u.lease row (H.at_ u)) := by
        unfold claim
        rw [if_neg free]
        simp only [found]
        rfl
      obtain ⟨mem, yes⟩ := selected_spec found
      obtain ⟨⟨leased, -⟩, -⟩ := lease_keeps calm'.sound mem yes (le_refl _) (H.fresh u.issued)
        (Nat.lt_of_not_le free)
      obtain ⟨v, ends, settles⟩ := @process_settles c (u.lease row (H.at_ u)) (row.claimed (H.at_ u)) H leased
        ((mem_lease calm'.sound mem).2 (.inl rfl)) (claimable_iff.1 yes).1 rfl rfl
      obtain ⟨calm'', now', generations, fewer⟩ := settles.progress calm' mem yes
      obtain ⟨n, t, rest, calm3, now3, generations3, fewer3, -⟩ := ih (processed + 1) calm'' (generations ▸ newest)
      refine ⟨n, t, ?_, calm3, le_trans now (le_trans now' now3), generations3.trans generations, ?_, fun _ _ => ?_⟩
      · rw [jobs, exec_bind first, claimed]
        rw [exec_bind ends]
        exact rest
      · exact le_trans fewer3 (le_of_lt fewer)
      · exact lt_of_le_of_lt fewer3 fewer

theorem Calm.updateMany {f : SemanticSource → SemanticSource} (calm : Calm c s)
    (ends : ∀ r ∈ s.sources, p r = true → Ends c r (f r)) (available : ∀ r ∈ s.sources, p r = true → (f r).availableAt ≤ s.now)
    (free : ∀ r, (f r).leaseUntil = none) : Calm c (s.updateMany p f) := by
  refine ⟨(keeps_updateMany calm.sound ends).1, calm.quiet.of_rows (le_refl _) fun r' mem => ?_⟩
  obtain ⟨r, old, rfl⟩ := mem_updateMany.1 mem
  split
  · exact .inr ⟨available r old ‹_›, free r⟩
  · exact .inl old

theorem Calm.rollover (calm : Calm c s) (sourceKey : Option String) : Calm c (rollover c sourceKey (H.at_ s) s) :=
  calm.updateMany (fun r _ _ => reset_ends r s.now c.generation r.ownerUserId r.revision) (fun _ _ _ => le_refl _)
    fun _ => rfl

theorem Calm.purge (calm : Calm c s) : Calm c (purge (H.at_ s) s) :=
  ⟨(purge_keeps calm.sound).1, calm.quiet.of_rows (le_refl _) fun _ mem => .inl mem⟩

theorem Calm.sweep (calm : Calm c s) : Calm c (sweep (H.at_ s) s) :=
  ⟨(sweep_keeps calm.sound).1, calm.quiet.of_rows (le_refl _) fun r' mem => by
    obtain ⟨r, old, rfl⟩ := mem_updateMany.1 mem
    split
    · exact .inr ⟨(calm.quiet r old).1, rfl⟩
    · exact .inl old⟩

theorem Calm.register (calm : Calm c s) : Calm c (register c s) ∧ (register c s).sources = s.sources ∧
    (register c s).generations.getLast? = some c.generation := by
  have keeps := register_keeps calm.sound
  have newest := calm.sound.newest
  unfold Semantic.register at keeps ⊢
  split at keeps
  · rename_i known
    rw [if_pos known]
    exact ⟨calm, rfl, newest.resolve_right fun missing => missing known⟩
  · rename_i missing
    rw [if_neg missing]
    exact ⟨⟨keeps.1, calm.quiet⟩, rfl, getLast?_concat⟩

variable {sourceKey : Option String} {limit : Int} {locked : String → Bool}

theorem mem_outdated {id : String} (taken : id ∈ outdated c sourceKey locked s) :
    ∃ r ∈ s.sources, r.id = id ∧ r.generation ≠ c.generation := by
  unfold outdated at taken
  split at taken
  · obtain ⟨r, listed, same⟩ := mem_map.1 taken
    obtain ⟨old, yes⟩ := mem_filter.1 (mem_sort.1 (mem_of_mem_take listed))
    exact ⟨r, old, same, (of_decide_eq_true yes).1⟩
  · cases taken

theorem outdated_some (newest : s.generations.getLast? = some c.generation)
    (free : ∀ id, locked id = false) (mem : r ∈ s.sources) (old : r.generation ≠ c.generation) :
    ∃ id, id ∈ outdated c sourceKey locked s := by
  have listed : r ∈ sort (rolloverOrder sourceKey)
      (s.sources.filter fun r => r.generation ≠ c.generation ∧ locked r.id = false) :=
    mem_sort.2 (mem_filter.2 ⟨mem, by simp [old, free]⟩)
  rw [outdated, if_pos newest]
  cases sorted : sort (rolloverOrder sourceKey)
      (s.sources.filter fun r => r.generation ≠ c.generation ∧ locked r.id = false) with
  | nil =>
    rw [sorted] at listed
    cases listed
  | cons first rest => exact ⟨first.id, mem_map.2 ⟨first, by simp, rfl⟩⟩

/-- Rows of older generations are unsettled before and after they are taken over. -/
theorem rollover_unsettled (sound : Sound c s) (sourceKey : Option String) (d : At) :
    unsettled c (rollover c sourceKey d s) ≤ unsettled c s := by
  simp only [unsettled, rollover, Index.updateMany, countP_map]
  refine countP_mono_left fun r mem open_ => ?_
  simp only [comp_apply] at open_
  split at open_
  · rename_i taken
    obtain ⟨r', old, same, generation⟩ := mem_outdated (of_decide_eq_true taken)
    rw [sound.eq_of_id old mem same] at generation
    simp [settled, generation]
  · exact open_

/-- After the rollover an unsettled row of this generation is there, if any row is unsettled. -/
theorem rollover_current (newest : s.generations.getLast? = some c.generation) {d : At}
    (free : ∀ id, d.locked id = false) (some : 0 < unsettled c (rollover c sourceKey d s)) :
    ∃ r ∈ (rollover c sourceKey d s).sources, r.generation = c.generation ∧ settled c r = false := by
  obtain ⟨r', mem', open_⟩ := countP_pos_iff.1 some
  by_cases here : r'.generation = c.generation
  · exact ⟨r', mem', here, by simpa using open_⟩
  obtain ⟨r, old, same⟩ := mem_updateMany.1 mem'
  have outside : r.generation ≠ c.generation := by
    split at same
    · rw [← same] at here
      exact absurd rfl here
    · rw [same]
      exact here
  obtain ⟨id, taken⟩ := @outdated_some c s r sourceKey d.locked newest free old outside
  obtain ⟨row, stored, named, -⟩ := mem_outdated taken
  refine ⟨{ row.reset d.clock with generation := c.generation }, mem_updateMany.2 ⟨row, stored, ?_⟩, rfl, ?_⟩
  · rw [if_pos (by simp [named, taken])]
  · simp [settled, SemanticSource.reset, SemanticSource.released]

/-- A current row at rest can be claimed, unless its attempts are used up. -/
theorem Calm.claimable (calm : Calm c s) (mem : r ∈ s.sources) (here : r.generation = c.generation)
    (open_ : settled c r = false) : claimable c s.now r = true ∨ r.status = .RUNNING ∧ r.attempts ≥ 5 := by
  obtain ⟨available, past⟩ := calm.quiet r mem
  have sound := calm.sound.rows r mem
  cases status : r.status with
  | PENDING => exact .inl (claimable_iff.2 ⟨here, (sound.pending here status).2, .inl ⟨status, available⟩⟩)
  | RUNNING =>
    by_cases few : r.attempts < 5
    · obtain ⟨lease, is⟩ := Option.isSome_iff_exists.1 (sound.until_.2 status)
      exact .inl (claimable_iff.2 ⟨here, few, .inr ⟨status, lease, is, past lease is⟩⟩)
    · exact .inr ⟨rfl, Nat.le_of_not_lt few⟩
  | READY | SKIPPED | FAILED => simp [settled, here, status] at open_

/-- The sweep settles a current row whose attempts are used up, and undoes nothing. -/
theorem sweep_unsettled (d : At) : unsettled c (sweep d s) ≤ unsettled c s := by
  simp only [unsettled, sweep, Index.updateMany, countP_map]
  refine countP_mono_left fun r mem open_ => ?_
  simp only [comp_apply] at open_
  split at open_
  · rename_i taken
    simp only [ge_iff_le, decide_and, and_eq_true, decide_eq_true_eq] at taken
    simp [settled, taken.1]
  · exact open_

theorem sweep_settles (calm : Calm c s) (mem : r ∈ s.sources) (here : r.generation = c.generation) (running : r.status = .RUNNING)
    (many : r.attempts ≥ 5) : unsettled c (sweep (H.at_ s) s) < unsettled c s := by
  obtain ⟨lease, is⟩ := Option.isSome_iff_exists.1 ((calm.sound.rows r mem).until_.2 running)
  have past : lease < s.now := (calm.quiet r mem).2 lease is
  simp only [unsettled, sweep, Index.updateMany, countP_map]
  refine Rows.countP_lt (fun r' old open_ => ?_) mem ?_ ?_
  · simp only [comp_apply] at open_
    split at open_
    · rename_i taken
      simp only [ge_iff_le, decide_and, and_eq_true, decide_eq_true_eq] at taken
      simp [settled, taken.1]
    · exact open_
  · simp [settled, running]
  · have taken : (r.status = .RUNNING ∧ r.leaseUntil.any (· < (H.at_ s).clock) ∧ r.attempts ≥ 5) := by
      refine ⟨running, ?_, many⟩
      rw [is]
      exact decide_eq_true past
    simp [taken, settled, SemanticSource.released, here]

/-- A row that the sweep leaves. -/
theorem sweep_leaves {d : At} (mem : r ∈ s.sources) (few : ¬ (r.status = .RUNNING ∧ r.attempts ≥ 5)) :
    r ∈ (sweep d s).sources := by
  refine mem_updateMany.2 ⟨r, mem, if_neg ?_⟩
  simp only [ge_iff_le, decide_and, and_eq_true, decide_eq_true_eq]
  exact fun taken => few ⟨taken.1, taken.2.2⟩

/-- The tables that the first job of a healthy batch finds. -/
def Healthy.prepared (H : Healthy) (c : Config) (s : Index) : Index :=
  let s := H.wait (.database .newest) (register c (H.wait (.database .register) s))
  let s := H.wait (.database .rollover) s
  let s := H.wait (.database .purge) (rollover c none (H.at_ s) s)
  let s := H.wait (.database .sweep) (purge (H.at_ s) s)
  H.wait (.database .admissions) (sweep (H.at_ s) s)

theorem round_eq (H : Healthy) (least : 1 ≤ limit) (most : limit ≤ 16) (calm : Calm c s) :
    H.round c ⟨limit, none⟩ s = ((jobs c none limit.toNat 0).exec H.wait H.answers (H.prepared c s)).2 := by
  have newest := (calm.wait (H := H) (.database .register)).register.2.2
  have newest' : (H.wait (.database .newest) (register c (H.wait (.database .register) s))).generations.getLast? =
      some c.generation := newest
  have inside : ¬ ((⟨limit, none⟩ : Batch).limit < 1 ∨ (⟨limit, none⟩ : Batch).limit > 16) := by
    show ¬ (limit < 1 ∨ limit > 16)
    omega
  rw [Healthy.round, runBatch, if_neg inside, exec_bind (exec_unit .register _), exec_bind (exec_statement .newest _)]
  simp only [newest', ne_eq, not_true_eq_false, if_false]
  rfl

/-- Either the sweep settles a source, or the first job finds one. -/
theorem prepared_spec (H : Healthy) (calm : Calm c s) : Calm c (H.prepared c s) ∧
    (H.prepared c s).generations.getLast? = some c.generation ∧ unsettled c (H.prepared c s) ≤ unsettled c s ∧
    (0 < unsettled c s → unsettled c (H.prepared c s) < unsettled c s ∨
      ∃ r ∈ (H.prepared c s).sources, claimable c (H.prepared c s).now r = true) := by
  obtain ⟨calm1, sources1, newest⟩ := (calm.wait (H := H) (.database .register)).register
  let s2 := H.wait (.database .rollover) (H.wait (.database .newest) (register c (H.wait (.database .register) s)))
  have calm2 : Calm c s2 := (calm1.wait _).wait _
  have same2 : unsettled c s2 = unsettled c s := congrArg (countP fun r => !settled c r) sources1
  let s3 := rollover c none (H.at_ s2) s2
  have calm3 : Calm c s3 := calm2.rollover none
  have fewer3 : unsettled c s3 ≤ unsettled c s2 := rollover_unsettled calm2.sound none _
  let s4 := H.wait (.database .purge) s3
  let s5 := H.wait (.database .sweep) (purge (H.at_ s4) s4)
  have calm5 : Calm c s5 := ((calm3.wait _).purge).wait _
  have fewer6 : unsettled c (sweep (H.at_ s5) s5) ≤ unsettled c s5 := sweep_unsettled _
  have calm6 : Calm c (H.prepared c s) := calm5.sweep.wait _
  have same5 : unsettled c s5 = unsettled c s3 := rfl
  have same6 : unsettled c (H.prepared c s) = unsettled c (sweep (H.at_ s5) s5) := rfl
  refine ⟨calm6, newest, by omega, fun some => ?_⟩
  by_cases open3 : 0 < unsettled c s3
  swap
  · exact .inl (by omega)
  obtain ⟨r, mem, here, open_⟩ := rollover_current newest (fun _ => rfl) open3
  have mem5 : r ∈ s5.sources := mem
  by_cases used : r.status = .RUNNING ∧ r.attempts ≥ 5
  · have fewer := @sweep_settles c s5 r H calm5 mem5 here used.1 used.2
    exact .inl (by omega)
  · have mem6 : r ∈ (H.prepared c s).sources := sweep_leaves mem5 used
    exact .inr ⟨r, mem6, (calm6.claimable mem6 here open_).resolve_right used⟩

/-- A healthy batch settles a source, as long as one is unsettled. -/
theorem round_settles (H : Healthy) (least : 1 ≤ limit) (most : limit ≤ 16) (calm : Calm c s) :
    Calm c (H.round c ⟨limit, none⟩ s) ∧ unsettled c (H.round c ⟨limit, none⟩ s) ≤ unsettled c s - 1 := by
  obtain ⟨calm', newest, fewer, progress⟩ := prepared_spec H calm
  obtain ⟨n, t, ends, calm'', -, -, fewer', strict⟩ := @jobs_settle c _ H limit.toNat 0 calm' newest
  rw [round_eq H least most calm, ends]
  refine ⟨calm'', ?_⟩
  by_cases some : 0 < unsettled c s
  · rcases progress some with swept | claims
    · simp only
      omega
    · have less := strict (by omega) claims
      simp only
      omega
  · simp only
    omega

/-- As many batches as there are unsettled sources settle them all. -/
theorem rounds_settle (H : Healthy) (least : 1 ≤ limit) (most : limit ≤ 16) (n : Nat) (calm : Calm c s)
    (enough : unsettled c s ≤ n) : ∀ r ∈ ((H.round c ⟨limit, none⟩)^[n] s).sources, settled c r = true := by
  induction n generalizing s with
  | zero =>
    intro r mem
    have none : unsettled c s = 0 := le_zero.1 enough
    simpa using countP_eq_zero.1 none r mem
  | succ n ih =>
    obtain ⟨calm', fewer⟩ := round_settles H least most calm
    exact ih calm' (by omega)

end Exec

/-- A bound on the leases and delays of some rows. -/
def horizon (rows : List SemanticSource) : Int :=
  rows.foldr (fun r most => max most (max r.availableAt (r.leaseUntil.getD r.availableAt + 1))) 0

theorem le_horizon {rows : List SemanticSource} (mem : r ∈ rows) :
    r.availableAt ≤ horizon rows ∧ ∀ lease ∈ r.leaseUntil, lease < horizon rows := by
  induction rows with
  | nil => cases mem
  | cons first rows ih =>
    change r.availableAt ≤ max (horizon rows) _ ∧ ∀ lease ∈ r.leaseUntil, lease < max (horizon rows) _
    rcases mem_cons.1 mem with rfl | rest
    · refine ⟨by omega, fun lease is => ?_⟩
      simp only [Option.mem_def] at is
      simp only [is, Option.getD_some]
      omega
    · obtain ⟨available, past⟩ := ih rest
      exact ⟨by omega, fun lease is => by
        have less := past lease is
        omega⟩

/-- Sound tables are at rest once enough time has passed. -/
theorem Sound.calm (sound : Sound c s) {elapsed : Nat} (long : horizon s.sources ≤ s.now + elapsed) :
    Calm c (s.change (.tick elapsed)) := by
  refine ⟨(tick_keeps sound elapsed).1, fun r mem => ?_⟩
  obtain ⟨available, past⟩ := le_horizon mem
  exact ⟨le_trans available long, fun lease is => lt_of_lt_of_le (past lease is) long⟩

end Vimla.Semantic
