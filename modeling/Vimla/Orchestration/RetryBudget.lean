import Vimla.Orchestration.Consistency

/-!
# What the retries are spent on

An attempt is counted whether it failed or only waited for usage capacity, and
the count is compared with `maxAttempts` when an attempt fails. So an invocation
can fail early, which is exactly when an attempt within the first `maxAttempts`
has waited.
-/

namespace Vimla.Orchestration

open List World

variable {options : OrchestrationRuntimeOptions} {now : Int} {cur next : RuntimePlan} {t : Transaction}
  {events told : List Event} {row row' : RuntimeInvocation}

def InvocationRun.waited (run : InvocationRun) : Bool :=
  run.status = .waitingForUsageCapacity ∨ run.status = .blockedInsufficientUsage

def RuntimeInvocation.failures (row : RuntimeInvocation) : Nat :=
  row.runs.countP fun run => run.status = .failed

/-- A failed invocation has failed for good or has used its attempts up by failing. -/
def World.Budgeted (options : OrchestrationRuntimeOptions) (w : World) : Prop :=
  ∀ row ∈ w.plan.invocations, row.status = .failed →
    .nonRetryable row.id ∈ w.events ∨ options.maxAttempts ≤ row.failures

instance (options : OrchestrationRuntimeOptions) (w : World) : Decidable (w.Budgeted options) :=
  inferInstanceAs (Decidable (∀ row ∈ w.plan.invocations, row.status = .failed →
    .nonRetryable row.id ∈ w.events ∨ options.maxAttempts ≤ row.failures))

/-- The step is no failure, one that may not be retried anyway, one with attempts
left, or one of an invocation whose first attempts have not waited. -/
def World.WithinBudget (options : OrchestrationRuntimeOptions) (w : World) (action : Action) : Prop :=
  match action.transaction.failure options action.now w.plan with
  | some (row, run, true) =>
    w.unlocked < action.age ∨ run.attempt < options.maxAttempts ∨
      ∀ earlier ∈ row.runs, earlier.attempt < options.maxAttempts → earlier.waited = false
  | _ => True

instance (options : OrchestrationRuntimeOptions) (w : World) (action : Action) :
    Decidable (w.WithinBudget options action) := by
  unfold WithinBudget
  split <;> infer_instance

/-- An attempt after which the invocation went on. -/
def InvocationRun.Spent (options : OrchestrationRuntimeOptions) (run : InvocationRun) : Prop :=
  (run.status = .failed ∧ run.attempt < options.maxAttempts) ∨ run.waited = true

/-- The attempts before the one under way. -/
def RuntimeInvocation.tried (row : RuntimeInvocation) : List InvocationRun :=
  if row.status = .running then row.runs.dropLast else row.runs

structure RuntimeInvocation.Tried (options : OrchestrationRuntimeOptions) (events : List Event)
    (row : RuntimeInvocation) : Prop where
  spent : isTerminalInvocationStatus row.status = false → ∀ run ∈ row.tried, run.Spent options
  budget : row.status = .failed → .nonRetryable row.id ∈ events ∨ options.maxAttempts ≤ row.failures
  final : .nonRetryable row.id ∈ events → row.status = .failed

variable {run : InvocationRun}

namespace RuntimeInvocation.Tried

section
variable (h : row.Tried options events)
include h

theorem more (other : .nonRetryable row.id ∉ told) :
    row.Tried options (events ++ told) := by
  refine ⟨h.spent, fun failed => (h.budget failed).imp_left (mem_append_left told), ?_⟩
  intro mem
  rcases mem_append.1 mem with mem | mem
  · exact h.final mem
  · exact absurd mem other

/-- An invocation that has not failed for good before goes on or ends otherwise. -/
theorem moved (same : row'.id = row.id)
    (opened : row.status ≠ .failed) (other : .nonRetryable row.id ∉ told) (unfailed : row'.status ≠ .failed)
    (spent : isTerminalInvocationStatus row'.status = false → ∀ run ∈ row'.tried, run.Spent options) :
    row'.Tried options (events ++ told) := by
  refine ⟨spent, fun failed => absurd failed unfailed, ?_⟩
  rw [same]
  intro mem
  rcases mem_append.1 mem with mem | mem
  · exact absurd (h.final mem) opened
  · exact absurd mem other

theorem swept (ok : row.Ok) (sweep : Swept row row')
    (other : .nonRetryable row.id ∉ told) : row'.Tried options (events ++ told) := by
  cases sweep with
  | stay => exact h.more other
  | decide pending decision =>
    have none : row.runs = [] := ok.unclaimed (by simp [pending])
    refine h.moved rfl (by simp [pending]) other (statusOf_ne (by decide)) ?_
    simp [tried, none]
  | resume waited =>
    have active : isTerminalInvocationStatus row.status = false := by
      rcases waited with e | e <;> rw [e] <;> rfl
    have idle : row.status ≠ .running := by rcases waited with e | e <;> rw [e] <;> decide
    refine h.moved rfl (by rcases waited with e | e <;> rw [e] <;> decide) other (by simp) ?_
    have spent := h.spent active
    rw [tried, if_neg idle] at spent
    exact fun _ => spent
  | cancel active =>
    refine h.moved rfl ?_ other (by simp) fun open' => nomatch open'
    intro failed
    rw [failed] at active
    cases active

/-- What a live run's invocation has tried is what came before it. -/
theorem before {before : List InvocationRun}
    (live : Live cur row before run) : ∀ run ∈ before, run.Spent options := by
  have spent := h.spent (by rw [live.active]; rfl)
  rwa [tried, if_pos live.active, live.runs, dropLast_concat] at spent

end

end RuntimeInvocation.Tried

/-- A run that ends without failing has waited if its invocation goes on. -/
theorem Settles.unfailed {outcome : InvocationStatus}
    (h : Settles run.status outcome) (unfailed : run.status ≠ .failed) :
    outcome ≠ .failed ∧ (isTerminalInvocationStatus outcome = false → run.waited = true) := by
  unfold InvocationRun.waited
  cases settled : run.status with
  | failed => exact absurd settled unfailed
  | running | canceled | completed | waitingForUsageCapacity | blockedInsufficientUsage =>
    rw [settled] at h
    cases outcome <;> first | exact h.elim | decide

theorem countP_range' (m n : Nat) : ((List.range' 1 n).countP fun i => i < m) = min (m - 1) n := by
  induction n with
  | zero => simp
  | succ n ih =>
    rw [range'_concat, countP_append, ih, countP_singleton]
    by_cases last : 1 + 1 * n < m
    · rw [if_pos (decide_eq_true last)]
      omega
    · rw [if_neg (by simpa using last)]
      omega

section
variable {before : List InvocationRun} {run : InvocationRun} (ok : row.Ok) (runs : row.runs = before ++ [run])
include ok runs

/-- Before an attempt at the end of the budget there were all the attempts within it. -/
theorem attempts_below (last : options.maxAttempts ≤ run.attempt) :
    (before.countP fun run => run.attempt < options.maxAttempts) = options.maxAttempts - 1 := by
  have number := (ok.latestRun_concat runs).2
  have attempts := ok.attempts
  rw [runs, map_append, length_append, length_singleton, range'_concat] at attempts
  obtain ⟨init, -⟩ := append_inj' attempts rfl
  have count := countP_range' options.maxAttempts before.length
  rw [← init, countP_map] at count
  change (before.countP fun run => run.attempt < options.maxAttempts) = _ at count
  omega

section
variable (spent : ∀ run ∈ before, run.Spent options) (last : options.maxAttempts ≤ run.attempt)
include spent last

/-- A retryable failure at the end of the budget has used it up when none of the
attempts within the budget has waited. -/
theorem failures_enough (unwaited : ∀ earlier ∈ row.runs, earlier.attempt < options.maxAttempts → earlier.waited = false) :
    options.maxAttempts ≤ (before.countP fun run => run.status = .failed) + 1 := by
  have below := attempts_below ok runs last
  have failed : (before.countP fun run => run.attempt < options.maxAttempts) ≤
      before.countP fun run => run.status = .failed := by
    apply countP_mono_left
    intro r hr within
    rw [decide_eq_true_eq] at within ⊢
    rcases spent r hr with ⟨failed, -⟩ | waited
    · exact failed
    · rw [unwaited r (by simp [runs, hr]) within] at waited
      cases waited
  omega

/-- Otherwise it has not. -/
theorem failures_few {earlier : InvocationRun} (mem : earlier ∈ before)
    (within : earlier.attempt < options.maxAttempts) (waited : earlier.waited = true) :
    (before.countP fun run => run.status = .failed) + 1 < options.maxAttempts := by
  have below := attempts_below ok runs last
  have unfailed {r : InvocationRun} (waited : r.waited = true) : r.status ≠ .failed := by
    intro failed
    simp [InvocationRun.waited, failed] at waited
  have fewer : (before.countP fun run => run.status = .failed) <
      before.countP fun run => run.attempt < options.maxAttempts := by
    apply Rows.countP_lt (x := earlier)
    · intro r hr failed
      rw [decide_eq_true_eq] at failed ⊢
      rcases spent r hr with ⟨-, within⟩ | waited
      · exact within
      · exact absurd failed (unfailed waited)
    · exact mem
    · exact decide_eq_true within
    · exact decide_eq_false (unfailed waited)
  omega

end

end

theorem Change.tried (h : Change options now cur t next told)
    (ok : ∀ row ∈ cur.invocations, row.Ok)
    (within : ∀ row run, t.failure options now cur = some (row, run, true) →
      options.maxAttempts ≤ run.attempt →
        ∀ earlier ∈ row.runs, earlier.attempt < options.maxAttempts → earlier.waited = false)
    (tried : ∀ row ∈ cur.invocations, row.Tried options events) :
    ∀ row ∈ next.invocations, row.Tried options (events ++ told) := by
  have done {R : RuntimeInvocation → RuntimeInvocation → Prop} (rows : Rewrites R cur next)
      (each : ∀ row ∈ cur.invocations, ∀ row', R row row' → row'.Tried options (events ++ told)) :
      ∀ row ∈ next.invocations, row.Tried options (events ++ told) := by
    intro row' mem'
    obtain ⟨row, mem, related⟩ := rows.back mem'
    exact each row mem row' related
  have becomes {own own' : RuntimeInvocation} (mem : own ∈ cur.invocations)
      (rows : Rewrites (Becomes own own') cur next) (quiet : ∀ id, .nonRetryable id ∉ told)
      (new : own'.Tried options (events ++ told)) :
      ∀ row ∈ next.invocations, row.Tried options (events ++ told) := by
    apply done rows
    rintro r hr r' rfl
    by_cases same : r.id = own.id
    · rw [if_pos same]
      exact new
    · rw [if_neg same]
      exact (tried r hr).more (quiet r.id)
  cases h with
  | idle =>
    intro row mem
    exact (tried row mem).more (by simp)
  | swept locked active rows =>
    exact done rows fun row mem row' sweep => (tried row mem).swept (ok row mem) sweep (by simp)
  | approved running status mem waiting machine rows =>
    have none := (ok _ mem).unclaimed (by simp [waiting])
    refine becomes mem rows (by simp) ((tried _ mem).moved rfl (by simp [waiting]) (by simp) (by simp) ?_)
    simp [RuntimeInvocation.tried, none]
  | resolved running status mem waiting human attempt ended rows =>
    refine becomes mem rows (by simp) ((tried _ mem).moved rfl (by simp [waiting]) (by simp) (by simp) ?_)
    rintro ⟨⟩
  | claimed locked running status mem ready room attempt started rows =>
    have spent := (tried _ mem).spent (by rw [ready]; rfl)
    rw [RuntimeInvocation.tried, if_neg (by simp [ready])] at spent
    refine becomes mem rows (by simp) ((tried _ mem).moved rfl (by simp [ready]) (by simp) (by simp) ?_)
    rw [RuntimeInvocation.tried, if_pos rfl, dropLast_concat]
    exact fun _ => spent
  | @ended _ row before run run' outcome locked live status attempt unfailed settles rows =>
    obtain ⟨-, idle, -⟩ := settles.ended
    obtain ⟨other, waited⟩ := settles.unfailed unfailed
    refine becomes live.mem rows (by simp)
      ((tried _ live.mem).moved rfl (by simp [live.active]) (by simp) other ?_)
    intro active r hr
    rw [RuntimeInvocation.tried, if_neg idle] at hr
    rcases mem_append.1 hr with hr | hr
    · exact (tried _ live.mem).before live r hr
    · rw [mem_singleton.1 hr]
      exact .inr (waited active)
  | retried locked live status attempt failed left rows =>
    refine becomes live.mem rows (by simp)
      ((tried _ live.mem).moved rfl (by simp [live.active]) (by simp) (by simp) ?_)
    intro _ r hr
    rcases mem_append.1 hr with hr | hr
    · exact (tried _ live.mem).before live r hr
    · rw [mem_singleton.1 hr]
      exact .inl ⟨failed, attempt ▸ left⟩
  | @failed _ row before run run' retryable locked live attempt failed cause spent rows ends =>
    apply done rows
    intro r hr r' related
    by_cases same : r.id = row.id
    · rw [BecomesOverSwept, if_pos same] at related
      subst related
      refine ⟨by rintro ⟨⟩, fun _ => ?_, fun _ => rfl⟩
      cases retryable with
      | false => exact .inl (mem_append_right _ (mem_singleton_self _))
      | true =>
        have enough := failures_enough (ok row live.mem) live.runs ((tried row live.mem).before live)
          (spent rfl) (within row run cause (spent rfl))
        right
        simpa [RuntimeInvocation.failures, failed] using enough
    · rw [BecomesOverSwept, if_neg same] at related
      refine (tried r hr).swept (ok r hr) related ?_
      cases retryable <;> simp [same]
  | @dropped _ row before run run' locked status mem gone runs live attempt ended rows =>
    have canceled : row.status = .canceled :=
      ((ok row mem).gone ⟨run, by simp [runs], live⟩).resolve_left gone
    refine becomes mem rows (by simp) ((tried _ mem).moved rfl (by simp [canceled]) (by simp) ?_ ?_)
    · simp [canceled]
    · rw [canceled]
      rintro ⟨⟩

theorem Transaction.failure_byWorker {failure : RuntimeInvocation × InvocationRun × Bool}
    (h : t.failure options now cur = some failure) : t.byWorker = true := by
  cases t with
  | start | stop | approve | resolveHumanEvaluation => cases h
  | dispatchPlan | claimInvocation | persistExecutionResult | recoverStaleRun => rfl

variable {w : World} {action : Action} {plan definition : ExecutionPlan} {id : String} {attempt : Nat}
  {seen : RuntimePlan}

/-- A worker's transaction that read before another worker's committed did not happen. -/
theorem World.step_old (worker : action.transaction.byWorker = true) (old : w.unlocked < action.age) :
    w.step options action = w := by
  unfold step
  split
  · rfl
  · rw [if_pos ⟨worker, old⟩]

structure World.Tried (options : OrchestrationRuntimeOptions) (plan : ExecutionPlan) (w : World) :
    Prop where
  ok : w.Ok plan
  rows : ∀ row ∈ w.plan.invocations, row.Tried options w.events

theorem World.Tried.step (h : w.Tried options plan)
    (distinct : plan.ids.Nodup) (within : w.WithinBudget options action) :
    (w.step options action).Tried options plan := by
  refine ⟨h.ok.step distinct action, ?_⟩
  rcases w.step_cases h.ok distinct action with same | ⟨next, events, change, step⟩
  · rw [same]
    exact h.rows
  by_cases old : action.transaction.byWorker = true ∧ w.unlocked < action.age
  · rw [step_old old.1 old.2]
    exact h.rows
  rw [step]
  have okPlan := h.ok.plans w.plan mem_cons_self
  apply change.tried okPlan.rows _ h.rows
  intro row run failure last
  have cases' := within
  simp only [WithinBudget, failure] at cases'
  rcases cases' with late | left | unwaited
  · exact absurd ⟨Transaction.failure_byWorker failure, late⟩ old
  · omega
  · exact unwaited

theorem World.created_tried (plan : ExecutionPlan) : (created plan).Tried options plan := by
  refine ⟨created_ok plan, ?_⟩
  intro row mem
  obtain ⟨invocation, -, rfl⟩ := mem_map.1 mem
  refine ⟨?_, ?_, ?_⟩
  · simp [RuntimeInvocation.tried]
  · intro failed
    cases failed
  · intro told
    cases told

theorem World.Tried.budgeted (h : w.Tried options plan) : w.Budgeted options :=
  fun row mem failed => (h.rows row mem).budget failed

theorem RuntimePlan.liveRun_some {plan : RuntimePlan}
    (h : plan.liveRun id attempt = some (row, run)) :
    plan.findRun id attempt = some (row, run) ∧ plan.status = .running ∧ row.status = .running ∧
      run.status = .running := by
  simp only [RuntimePlan.liveRun, Option.bind_eq_bind, Option.bind_eq_some_iff, Option.pure_def,
    Option.some.injEq] at h
  obtain ⟨⟨row', run'⟩, found, _, guarded, pair⟩ := h
  obtain ⟨rfl, rfl⟩ := Prod.mk.inj pair
  unfold guard at guarded
  split at guarded
  · exact ⟨found, ‹_›⟩
  · cases guarded

/-- A live run was there when the plan was read. -/
theorem Drift.findRun_back (drift : Drift seen cur) (okSeen : seen.Ok definition) (distinct : definition.ids.Nodup)
    (found : cur.findRun id attempt = some (row, run)) (running : row.status = .running) :
    seen.findRun id attempt = some (row, run) := by
  obtain ⟨foundRow, -, -⟩ := RuntimePlan.findRun_mem found
  obtain ⟨mem, rfl⟩ := RuntimePlan.find_mem foundRow
  obtain ⟨old, memOld, drifted⟩ := drift.rows.back mem
  have same : old = row := by
    cases drifted with
    | same => rfl
    | approved _ _ ready => rw [ready] at running; cases running
    | resolved _ _ _ completed => rw [completed] at running; cases running
  subst same
  have foundSeen := RuntimePlan.find_eq (okSeen.distinct distinct) memOld
  simp only [RuntimePlan.findRun, foundRow, foundSeen] at found ⊢
  exact found

/-- A failure is settled as such whatever the transaction that reports it. -/
theorem Transaction.commit_failure (drift : Drift seen cur) (okSeen : seen.Ok definition)
    (distinct : definition.ids.Nodup) (failure : t.failure options now cur = some (row, run, true)) :
    ∃ errorCode, cur.liveRun row.id run.attempt = some (row, run) ∧ t.commit options now seen cur =
        some (settleFailure options now cur row run.attempt errorCode true, []) := by
  have read {id : String} {attempt : Nat} (live : cur.liveRun id attempt = some (row, run)) :
      seen.findRun id attempt = some (row, run) ∧ seen.liveRun id attempt = some (row, run) ∧
        seen.status = .running ∧ row.status = .running ∧ run.status = .running ∧ row.id = id ∧
          run.attempt = attempt := by
    obtain ⟨found, started, active, running⟩ := RuntimePlan.liveRun_some live
    obtain ⟨foundRow, -, number⟩ := RuntimePlan.findRun_mem found
    have foundSeen := drift.findRun_back okSeen distinct found active
    have startedSeen := drift.status.symm.trans started
    have liveSeen := (Drift.refl seen).liveRun okSeen okSeen distinct foundSeen running
    rw [if_pos ⟨startedSeen, active⟩] at liveSeen
    exact ⟨foundSeen, liveSeen, startedSeen, active, running, (RuntimePlan.find_mem foundRow).2, number⟩
  cases t with
  | persistExecutionResult id attempt result =>
    cases result with
    | failed errorCode retryable =>
      simp only [Transaction.failure, Option.bind_eq_bind, Option.bind_eq_some_iff, Option.pure_def,
        Option.some.injEq] at failure
      obtain ⟨⟨row', run'⟩, live, pair⟩ := failure
      simp only at pair
      obtain ⟨rfl, rfl, rfl⟩ := pair
      obtain ⟨found, liveSeen, started, active, running, rfl, rfl⟩ := read live
      refine ⟨errorCode, live, ?_⟩
      simp [Transaction.commit, Orchestration.persistExecutionResult, Transaction.failure, found, liveSeen, running,
        started, active]
    | completed | waitingForUsageCapacity | blockedInsufficientUsage => cases failure
  | recoverStaleRun id attempt =>
    simp only [Transaction.failure, Option.bind_eq_bind, Option.bind_eq_some_iff, Option.pure_def,
      Option.some.injEq] at failure
    obtain ⟨⟨row', run'⟩, live, startedAt, began, _, stale, pair⟩ := failure
    simp only [Prod.mk.injEq] at pair
    obtain ⟨rfl, rfl, -⟩ := pair
    obtain ⟨found, liveSeen, started, active, running, rfl, rfl⟩ := read live
    refine ⟨"WORKER_INTERRUPTED", live, ?_⟩
    have old : ¬ now - startedAt < options.staleAfterMs := by
      unfold guard at stale
      split at stale
      · omega
      · cases stale
    have began' : run'.startedAt = some startedAt := began
    simp [Transaction.commit, Orchestration.recoverStaleRun, found, running, started, active, began', old]
  | start | stop | approve | resolveHumanEvaluation | dispatchPlan | claimInvocation => cases failure

/-- What is left of the invocation when its retries are spent. -/
theorem settleFailure_spent {before : List InvocationRun} (ok : cur.Ok definition)
    (distinct : definition.ids.Nodup) (live : Live cur row before run) (spent : options.maxAttempts ≤ run.attempt)
    (errorCode : String) : { row with status := .failed, runs := before ++ [run.fail now errorCode] } ∈
      (settleFailure options now cur row run.attempt errorCode true).invocations := by
  have rows := finish_rows ok distinct live (InvocationRun.fail now errorCode) .failed
  obtain ⟨row', mem, becomes⟩ := rows.forth live.mem
  rw [Becomes, if_pos rfl] at becomes
  rw [settleFailure, if_neg (by omega)]
  split
  · obtain ⟨row'', mem', kept⟩ := (failPlan_rows _ row.id).forth mem
    have own : row'.id = row.id := by rw [becomes]; rfl
    rw [if_pos own] at kept
    rwa [← becomes, ← kept]
  · rwa [← becomes]

/-- A step outside the condition fails an invocation that has retries left. -/
theorem World.Tried.step_over (h : w.Tried options plan) (distinct : plan.ids.Nodup)
    (gone : ¬ w.WithinBudget options action) : ¬ (w.step options action).Budgeted options := by
  unfold WithinBudget at gone
  split at gone
  · rename_i row run failure
    simp only [not_or, not_forall, Nat.not_lt] at gone
    obtain ⟨young, last, earlier, mem, within, waited⟩ := gone
    have okPlan := h.ok.plans w.plan mem_cons_self
    obtain ⟨seen, read⟩ : ∃ seen, w.read action.age = some seen := by
      have := h.ok.depth
      exact ⟨_, getElem?_eq_getElem (by rw [length_cons]; omega)⟩
    have okSeen : seen.Ok plan := h.ok.plans seen (mem_of_getElem? read)
    obtain ⟨errorCode, liveRun, commit⟩ := Transaction.commit_failure
      (h.ok.drift action.age young seen read) okSeen distinct failure
    obtain ⟨found, started, active, running⟩ := RuntimePlan.liveRun_some liveRun
    obtain ⟨foundRow, memRun, -⟩ := RuntimePlan.findRun_mem found
    have memRow := (RuntimePlan.find_mem foundRow).1
    have okRow := okPlan.rows row memRow
    obtain ⟨before, runs⟩ := okRow.last_running memRun running
    have live : Live w.plan row before run := ⟨started, memRow, active, runs, running⟩
    have step : w.step options action =
        { plan := settleFailure options action.now w.plan row run.attempt errorCode true
          past := w.plan :: w.past
          unlocked := if action.transaction.locks w.plan then 0 else w.unlocked + 1
          events := w.events ++ [] } := by
      have admitted : ¬ (action.transaction.byWorker = true ∧ w.unlocked < action.age) := by
        omega
      simp [World.step, read, if_neg admitted, commit]
    intro budgeted
    rw [step] at budgeted
    have memBefore : earlier ∈ before := by
      rw [runs] at mem
      rcases mem_append.1 mem with mem | mem
      · exact mem
      · rw [mem_singleton.1 mem] at within
        omega
    have few := failures_few okRow runs ((h.rows row memRow).before live) last memBefore within
      (by simpa using waited)
    rcases budgeted _ (settleFailure_spent okPlan distinct live last errorCode) rfl with told | enough
    · rw [append_nil] at told
      have failed := (h.rows row memRow).final told
      rw [active] at failed
      cases failed
    · simp [RuntimeInvocation.failures, InvocationRun.fail] at enough
      omega
  · exact absurd trivial gone

/-- In a run whose steps all meet the condition every state is within the budget,
and the first step that does not meet it leaves one that is not. -/
theorem retry_budget {plan : ExecutionPlan} (valid : validateManualExecutionPlan plan = .ok ())
    (options : OrchestrationRuntimeOptions) (actions : List Action)
    (within : Runs.Along (step options) (WithinBudget options) (created plan) actions) :
    (World.run options (World.created plan) actions).Budgeted options ∧
      ∀ action, ¬ (World.run options (World.created plan) actions).WithinBudget options action →
        ¬ ((World.run options (World.created plan) actions).step options action).Budgeted options := by
  obtain ⟨graph, accepted⟩ := validateManualExecutionPlan_graph valid
  have distinct := (validateExecutionPlanGraph_sorted accepted).distinct
  have reached : (run options (created plan) actions).Tried options plan :=
    Runs.invariant_along (P := Tried options plan)
      (fun _ _ within h => Tried.step h distinct within) within (created_tried plan)
  exact ⟨reached.budgeted, fun _ gone => reached.step_over distinct gone⟩

namespace FirstPlan

/-- The draft fails three times. -/
def exhausted : List Action :=
  [{ transaction := .start },
    { transaction := .claimInvocation "draft" },
    { transaction := .persistExecutionResult "draft" 1 (.failed "AI_PROVIDER_ERROR" true) },
    { transaction := .claimInvocation "draft" },
    { transaction := .recoverStaleRun "draft" 2, now := 60000 },
    { transaction := .claimInvocation "draft", now := 60000 },
    { transaction := .persistExecutionResult "draft" 3 (.failed "AI_PROVIDER_ERROR" true), now := 61000 }]

/-- The draft waits for usage capacity twice and then fails once. -/
def deferred : List Action :=
  [{ transaction := .start },
    { transaction := .claimInvocation "draft" },
    { transaction := .persistExecutionResult "draft" 1 .waitingForUsageCapacity },
    { transaction := .dispatchPlan, now := 15000 },
    { transaction := .claimInvocation "draft", now := 15000 },
    { transaction := .persistExecutionResult "draft" 2 .waitingForUsageCapacity, now := 15000 },
    { transaction := .dispatchPlan, now := 45000 },
    { transaction := .claimInvocation "draft", now := 45000 },
    { transaction := .persistExecutionResult "draft" 3 (.failed "AI_PROVIDER_ERROR" true), now := 46000 }]

end FirstPlan

theorem retry_budget_exhausted :
    (World.run {} (World.created FirstPlan.plan) FirstPlan.exhausted).plan.status = .failed ∧
      (World.run {} (World.created FirstPlan.plan) FirstPlan.exhausted).Budgeted {} :=
  ⟨by decide +kernel, (retry_budget FirstPlan.valid {} FirstPlan.exhausted (by decide +kernel)).1⟩

theorem usage_waits_spend_retries :
    ¬ ∀ (plan : ExecutionPlan) (options : OrchestrationRuntimeOptions) (actions : List Action),
      validateManualExecutionPlan plan = .ok () →
        (World.run options (World.created plan) actions).Budgeted options := by
  intro budgeted
  exact absurd (budgeted FirstPlan.plan {} FirstPlan.deferred FirstPlan.valid) (by decide +kernel)

end Vimla.Orchestration
