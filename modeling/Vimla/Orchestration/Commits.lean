import Vimla.Orchestration.Changes

/-!
# The transactions as changes

Each transaction of the worker and of the API, on a plan in good order, is one
of the changes.
-/

namespace Vimla.Orchestration

open List

variable {options : OrchestrationRuntimeOptions} {now : Int} {definition : ExecutionPlan}
  {seen cur next : RuntimePlan}

theorem RuntimePlan.rewrite_rewrite (plan : RuntimePlan) (f g : RuntimeInvocation → RuntimeInvocation) :
    (plan.rewrite f).rewrite g = plan.rewrite (g ∘ f) := by
  simp [RuntimePlan.rewrite]

variable {plan : RuntimePlan} {f : RuntimeInvocation → RuntimeInvocation}

theorem RuntimePlan.rewrite_eq_self
    (h : ∀ row ∈ plan.invocations, f row = row) : plan.rewrite f = plan := by
  have same : plan.invocations.map f = plan.invocations := by
    conv_rhs => rw [← map_id plan.invocations]
    exact map_congr_left h
  rw [RuntimePlan.rewrite, same]

variable {id : String}

theorem RuntimePlan.transition_idle {status next : InvocationStatus}
    (h : plan.holds id status = false) : plan.transition id status next = plan := by
  apply rewrite_eq_self
  intro row hrow
  apply if_neg
  rintro ⟨own, holds⟩
  have := any_eq_false.1 h row hrow
  simp [own, holds] at this

theorem RuntimePlan.holds_iff {status : InvocationStatus} :
    plan.holds id status = true ↔ ∃ row ∈ plan.invocations, row.id = id ∧ row.status = status := by
  simp [RuntimePlan.holds]

theorem becomes_of_rewrite (distinct : cur.definition.ids.Nodup) {row row' : RuntimeInvocation}
    (mem : row ∈ cur.invocations) (own : f row = row')
    (others : ∀ r, r.id ≠ row.id → f r = r) : Rewrites (Becomes row row') cur (cur.rewrite f) := by
  apply Rewrites.of_rewrite
  intro r hr
  by_cases same : r.id = row.id
  · obtain rfl := RuntimePlan.row_unique distinct hr mem same
    rw [Becomes, if_pos rfl, own]
  · rw [Becomes, if_neg same, others r same]

variable {row : RuntimeInvocation}

namespace RuntimePlan.Ok

theorem distinct (ok : cur.Ok definition) (distinct : definition.ids.Nodup) :
    cur.definition.ids.Nodup :=
  ok.definition ▸ distinct

/-- An invocation that has left `PENDING` and has not ended is one of a started plan. -/
theorem started (ok : cur.Ok definition) (mem : row ∈ cur.invocations)
    (opened : row.status ≠ .pending) (active : isTerminalInvocationStatus row.status = false) :
    cur.status = .running := by
  cases status : cur.status with
  | running => rfl
  | planning => exact absurd (ok.unopened (.inr status) row mem) opened
  | planned => exact absurd (ok.unopened (.inl status) row mem) opened
  | partially | completed | failed | canceled =>
    have ended := ok.closed (by rw [status]; rfl) row mem
    rw [active] at ended
    cases ended

/-- What an invocation is defined as does not change between two reads. -/
theorem same_invocation (okSeen : seen.Ok definition) (ok : cur.Ok definition)
    (distinct : definition.ids.Nodup) {row row' : RuntimeInvocation} (mem : row ∈ seen.invocations)
    (mem' : row' ∈ cur.invocations) (same : row.id = row'.id) : row'.invocation = row.invocation := by
  have of {plan : RuntimePlan} (ok : plan.Ok definition) {r : RuntimeInvocation}
      (hr : r ∈ plan.invocations) : r.invocation ∈ definition.invocations := by
    rw [← ok.definition]
    exact mem_map_of_mem hr
  exact (Rows.eq_of_key distinct (of okSeen mem) (of ok mem') same).symm

theorem same_width (okSeen : seen.Ok definition) (ok : cur.Ok definition) :
    cur.maxParallelism = seen.maxParallelism := by
  have h := ok.definition.trans okSeen.definition.symm
  exact congrArg ExecutionPlan.maxParallelism h

end RuntimePlan.Ok

theorem cancelActive_rows (plan : RuntimePlan) : Rewrites Swept plan plan.cancelActive := by
  apply Rewrites.of_rewrite
  intro row _
  simpa using Swept.canceled row

theorem cancelActive_terminal {but : String → Bool}
    (kept : ∀ row ∈ plan.invocations, but row.id = true → isTerminalInvocationStatus row.status = true) :
    ∀ row ∈ (plan.cancelActive but).invocations, isTerminalInvocationStatus row.status = true := by
  intro row' hrow'
  obtain ⟨row, hrow, rfl⟩ := mem_map.1 hrow'
  split
  · rfl
  · rename_i spared
    by_contra active
    rw [Bool.not_eq_true] at active
    cases own : but row.id with
    | true => exact absurd (kept row hrow own) (by simp [active])
    | false => exact spared ⟨own, (mem_active_iff _).2 active⟩

theorem start_change (h : start seen cur = .ok next) : Change options now cur .start next [] := by
  unfold start at h
  split at h
  · cases h
    exact .idle
  split at h
  · cases h
  split at h
  · cases h
  split at h
  · rename_i planned
    cases h
    have opened : cur.transitionPlan .planned .running = { cur with status := .running } := by
      rw [RuntimePlan.transitionPlan, if_pos planned]
    rw [opened]
    refine .swept (by simp [Transaction.locks, planned]) (by rw [planned]; rfl) ⟨_, rfl, rfl, rfl, rfl, ?_⟩ (.inl rfl)
    intro row _
    split
    · exact .decide ‹_› _
    · exact .stay
  split at h
  · cases h
    exact .idle
  · cases h

theorem stop_change (ok : cur.Ok definition) : Change options now cur .stop (stop seen cur) [] := by
  unfold stop
  split
  · exact .idle
  split
  · rename_i stoppable
    have active : isTerminalPlanStatus cur.status = false := by
      revert stoppable
      cases cur.status <;> decide
    refine .swept stoppable active (cancelActive_rows { cur with status := .canceled }) (.inr ⟨rfl, ?_⟩)
    exact cancelActive_terminal fun _ _ kept => nomatch kept
  · rename_i closed
    have terminal : isTerminalPlanStatus cur.status = true := by
      revert closed
      cases cur.status <;> decide
    have same : cur.cancelActive = cur := by
      apply RuntimePlan.rewrite_eq_self
      intro row hrow
      apply if_neg
      rintro ⟨-, active⟩
      have ended := ok.closed terminal row hrow
      rw [(mem_active_iff _).1 active] at ended
      cases ended
    rw [same]
    exact .idle

theorem approve_change {transitioned : Bool}
    (h : approve seen cur id = .ok (next, transitioned)) (okSeen : seen.Ok definition)
    (ok : cur.Ok definition) (distinct : definition.ids.Nodup) :
    Change options now cur (.approve id) next (if transitioned then [.approved id] else []) := by
  unfold approve at h
  split at h
  · cases h
  split at h
  · cases h
  rename_i row found
  obtain ⟨mem, rfl⟩ := RuntimePlan.find_mem found
  split at h
  · cases h
  split at h
  · cases h
  rename_i machine
  split at h
  · cases h
    cases holds : cur.holds row.id .waitingApproval with
    | false =>
      rw [RuntimePlan.transition_idle holds]
      exact .idle
    | true =>
      obtain ⟨row', mem', same, waiting⟩ := RuntimePlan.holds_iff.1 holds
      have machine' : row'.invocation.isHumanEvaluator = false := by
        rw [okSeen.same_invocation ok distinct mem mem' same.symm]
        simpa using machine
      rw [← same]
      refine .approved (ok.started mem' (by simp [waiting]) (by rw [waiting]; rfl)) rfl mem' waiting
        machine' (becomes_of_rewrite (ok.distinct distinct) mem' ?_ ?_)
      · rw [if_pos ⟨rfl, waiting⟩]
      · exact fun r other => if_neg fun own => other own.1
  · split at h
    · cases h
    · cases h
      exact .idle

/-- An invocation that waits for approval has no runs yet. -/
theorem RuntimePlan.Ok.nextAttempt_waiting (ok : cur.Ok definition)
    (mem : row ∈ cur.invocations) (waiting : row.status = .waitingApproval) : row.nextAttempt = 1 := by
  rw [(ok.rows row mem).nextAttempt, (ok.rows row mem).unclaimed (by simp [waiting])]
  rfl

theorem resolveHumanEvaluation_change {input : ResolveHumanEvaluationRequest}
    (h : resolveHumanEvaluation now seen cur id input = .ok next) (okSeen : seen.Ok definition)
    (ok : cur.Ok definition) (distinct : definition.ids.Nodup) :
    Change options now cur (.resolveHumanEvaluation id input) next [] := by
  unfold resolveHumanEvaluation at h
  split at h
  · cases h
  rename_i row found
  obtain ⟨mem, rfl⟩ := RuntimePlan.find_mem found
  split at h
  · cases h
  rename_i human
  split at h
  · split at h
    · cases h
      exact .idle
    · cases h
  dsimp only at h
  split at h
  · cases h
  split at h
  · cases h
  rename_i waitingSeen
  split at h
  · cases h
  split at h
  · cases h
  split at h
  · split at h
    · split at h
      · cases h
        exact .idle
      · cases h
    · cases h
  · rename_i holds
    obtain ⟨row', mem', same, waiting⟩ := RuntimePlan.holds_iff.1 (by simpa using holds)
    have human' : row'.invocation.isHumanEvaluator = true := by
      rw [okSeen.same_invocation ok distinct mem mem' same.symm]
      simpa using human
    have attempt : (humanRun now row.latestRun input).attempt = row'.nextAttempt := by
      rw [ok.nextAttempt_waiting mem' waiting]
      exact okSeen.nextAttempt_waiting mem (not_not.1 waitingSeen)
    cases h
    rw [← same, RuntimePlan.transition, RuntimePlan.createRun, RuntimePlan.transition,
      RuntimePlan.rewrite_rewrite, RuntimePlan.rewrite_rewrite]
    refine .resolved (ok.started mem' (by simp [waiting]) (by rw [waiting]; rfl)) rfl mem' waiting
      human' attempt rfl (becomes_of_rewrite (ok.distinct distinct) mem' ?_ ?_)
    · simp [waiting, RuntimeInvocation.id]
    · intro r other
      simp [other]

theorem Drift.runningCount_le (drift : Drift seen cur) : cur.runningCount ≤ seen.runningCount := by
  apply Orchestration.runningCount_le (drift.rows.mono ?_)
  intro row _ row' drifted running
  cases drifted with
  | same => exact running
  | approved _ _ ready => rw [ready] at running; cases running
  | resolved _ _ _ completed => rw [completed] at running; cases running

variable {attempt : Nat} {run : InvocationRun} {before : List InvocationRun}

theorem claimInvocation_change (h : claimInvocation now seen cur id = some (next, attempt))
    (okSeen : seen.Ok definition) (ok : cur.Ok definition) (distinct : definition.ids.Nodup)
    (drift : Drift seen cur) : Change options now cur (.claimInvocation id) next [.claimed id attempt] := by
  unfold claimInvocation at h
  split at h
  · cases h
  rename_i running
  split at h
  · cases h
  rename_i row found
  obtain ⟨mem, rfl⟩ := RuntimePlan.find_mem found
  split at h
  · cases h
  rename_i ready
  rw [not_not] at running ready
  split at h
  · cases h
  split at h
  · cases h
    have mem' := drift.kept mem (by simp [ready])
    have room' : cur.runningCount < cur.maxParallelism := by
      have := drift.runningCount_le
      have := okSeen.same_width ok
      omega
    rw [RuntimePlan.transition, RuntimePlan.createRun, RuntimePlan.rewrite_rewrite]
    let run : InvocationRun := { attempt := row.nextAttempt, status := .running, startedAt := some now }
    have becomes {f : RuntimeInvocation → RuntimeInvocation}
        (own : f row = { row with status := .running, runs := row.runs ++ [run] })
        (others : ∀ r, r.id ≠ row.id → f r = r) :
        Change options now cur (.claimInvocation row.id) (cur.rewrite f) [.claimed row.id run.attempt] :=
      .claimed rfl (drift.status.trans running) rfl mem' ready room' rfl rfl
        (becomes_of_rewrite (ok.distinct distinct) mem' own others)
    refine becomes ?_ ?_
    · simp [ready, RuntimeInvocation.id, RuntimeInvocation.nextAttempt, run]
    · intro r other
      simp [other]
  · cases h

theorem RuntimePlan.findRun_mem (h : plan.findRun id attempt = some (row, run)) :
    plan.find id = some row ∧ run ∈ row.runs ∧ run.attempt = attempt := by
  simp only [RuntimePlan.findRun, Option.bind_eq_bind, Option.bind_eq_some_iff, Option.pure_def,
    Option.some.injEq] at h
  obtain ⟨row', found, run', foundRun, pair⟩ := h
  obtain ⟨rfl, rfl⟩ := Prod.mk.inj pair
  exact ⟨found, mem_of_find?_eq_some foundRun, by simpa using find?_some foundRun⟩

/-- A `RUNNING` run is the last of its invocation. -/
theorem RuntimeInvocation.Ok.last_running (ok : row.Ok) (mem : run ∈ row.runs)
    (running : run.status = .running) : ∃ before, row.runs = before ++ [run] := by
  rcases eq_nil_or_concat row.runs with runs | ⟨before, last, runs⟩
  · rw [runs] at mem
    cases mem
  · rw [concat_eq_append] at runs
    have earlier := ok.earlier
    rw [runs, dropLast_concat] at earlier
    rw [runs] at mem
    rcases mem_append.1 mem with mem | mem
    · exact absurd running (earlier run mem)
    · rw [mem_singleton.1 mem]
      exact ⟨before, runs⟩

/-- An update of the last run by its attempt leaves the earlier ones. -/
theorem RuntimeInvocation.Ok.update_last (ok : row.Ok)
    (runs : row.runs = before ++ [run]) (data : InvocationRun → InvocationRun) :
    (row.runs.map fun r => if r.attempt = run.attempt then data r else r) = before ++ [data run] := by
  have number := (ok.latestRun_concat runs).2
  have attempts := ok.attempts
  rw [runs, map_append, length_append, length_singleton, range'_concat] at attempts
  obtain ⟨init, -⟩ := append_inj' attempts rfl
  rw [runs, map_append, map_singleton, if_pos rfl]
  congr 1
  conv_rhs => rw [← map_id before]
  apply map_congr_left
  intro r hr
  have smaller := mem_map_of_mem (f := InvocationRun.attempt) hr
  rw [init, mem_range'_1] at smaller
  exact if_neg (by omega)

theorem finish_rows (ok : cur.Ok definition) (distinct : definition.ids.Nodup)
    (live : Live cur row before run) (data : InvocationRun → InvocationRun) (outcome : InvocationStatus) :
    Rewrites (Becomes row { row with status := outcome, runs := before ++ [data run] }) cur
      (finish cur row.id run.attempt data outcome) := by
  rw [finish, RuntimePlan.updateRun, RuntimePlan.transition, RuntimePlan.rewrite_rewrite]
  apply becomes_of_rewrite (ok.distinct distinct) live.mem
  · have updated := (ok.rows row live.mem).update_last live.runs data
    simp [live.active, RuntimeInvocation.id, updated]
  · intro r other
    simp [other]

/-- What `failPlan` makes of a plan whose failed invocation is `id`. -/
theorem failPlan_closed (running : plan.status = .running)
    (failed : ∀ row ∈ plan.invocations, row.id = id → isTerminalInvocationStatus row.status = true) :
    (failPlan plan id).Closed := by
  have status : plan.transitionPlan .running .failed = { plan with status := .failed } := by
    rw [RuntimePlan.transitionPlan, if_pos running]
  rw [failPlan, status]
  refine ⟨rfl, cancelActive_terminal ?_⟩
  intro row hrow own
  exact failed row hrow (by simpa using own)

theorem failPlan_rows (plan : RuntimePlan) (id : String) :
    Rewrites (fun row row' => if row.id = id then row' = row else Swept row row') plan
      (failPlan plan id) := by
  have same : Rewrites (fun row row' => row' = row) plan (plan.transitionPlan .running .failed) := by
    unfold RuntimePlan.transitionPlan
    split <;> exact ⟨fun row => row, (map_id' _).symm, rfl, rfl, rfl, fun _ _ => rfl⟩
  apply same.trans (Rewrites.of_rewrite ?_)
  · rintro row _ _ row' rfl canceled
    exact canceled
  · intro row _
    by_cases own : row.id = id
    · simp [own]
    · simpa [own] using Swept.canceled row

variable {t : Transaction}

theorem settleFailure_change (errorCode : String) {retryable : Bool}
    (locked : t.locks cur = true) (ok : cur.Ok definition) (distinct : definition.ids.Nodup)
    (live : Live cur row before run)
    (cause : t.failure options now cur = some (row, run, retryable)) :
    Change options now cur t (settleFailure options now cur row run.attempt errorCode retryable)
      (if retryable then [] else [.nonRetryable row.id]) := by
  unfold settleFailure
  split
  · rename_i retries
    rw [retries.1, if_pos rfl]
    have rows := finish_rows ok distinct live (InvocationRun.fail now errorCode) .ready
    exact .retried locked live rfl (by rfl) (by rfl) retries.2 rows
  · rename_i spent
    have rows := finish_rows ok distinct live (InvocationRun.fail now errorCode) .failed
    have budget : retryable = true → options.maxAttempts ≤ run.attempt := fun yes =>
      Nat.le_of_not_lt fun left => spent ⟨yes, left⟩
    have failed {next : RuntimePlan} (rows : Rewrites (BecomesOverSwept row
          { row with status := .failed, runs := before ++ [run.fail now errorCode] }) cur next)
        (ends : next.status = .running ∨ next.Closed) :
        Change options now cur t next (if retryable then [] else [.nonRetryable row.id]) := by
      refine .failed locked live ?_ ?_ cause budget rows ends <;> rfl
    split
    · refine failed (rows.trans (failPlan_rows _ _) ?_) (.inr (failPlan_closed live.started ?_))
      · intro r hr r' r'' becomes canceled
        by_cases own : r.id = row.id
        · rw [Becomes, if_pos own] at becomes
          have same : r'.id = row.id := by rw [becomes]; rfl
          rw [if_pos same] at canceled
          rw [BecomesOverSwept, if_pos own]
          exact canceled.trans becomes
        · rw [Becomes, if_neg own] at becomes
          rw [becomes, if_neg own] at canceled
          rw [BecomesOverSwept, if_neg own]
          exact canceled
      · intro r' hr' own
        obtain ⟨r, hr, rfl⟩ := rows.back hr'
        by_cases same : r.id = row.id
        · rw [if_pos same]
          rfl
        · rw [if_neg same] at own
          exact absurd own same
    · refine failed (rows.mono ?_) (.inl live.started)
      rintro r hr r' rfl
      by_cases own : r.id = row.id
      · rw [BecomesOverSwept, if_pos own, if_pos own]
      · rw [BecomesOverSwept, if_neg own, if_neg own]
        exact .stay

section
variable (drift : Drift seen cur) (okSeen : seen.Ok definition)
include drift okSeen

/-- A `RUNNING` run that was read is still there at the commit. -/
theorem Drift.run_kept
    (found : seen.findRun id attempt = some (row, run)) (running : run.status = .running) :
    row.id = id ∧ run.attempt = attempt ∧ row ∈ seen.invocations ∧ row ∈ cur.invocations ∧
      ∃ before, row.runs = before ++ [run] := by
  obtain ⟨foundRow, memRun, number⟩ := RuntimePlan.findRun_mem found
  obtain ⟨mem, own⟩ := RuntimePlan.find_mem foundRow
  have okRow := okSeen.rows row mem
  refine ⟨own, number, mem, drift.kept mem ?_, okRow.last_running memRun running⟩
  rcases okRow.gone ⟨run, memRun, running⟩ with e | e <;> simp [e]

section
variable (ok : cur.Ok definition) (distinct : definition.ids.Nodup) {id : String} {row : RuntimeInvocation}
  (found : seen.findRun id attempt = some (row, run)) (running : run.status = .running)
include ok distinct found running

theorem findRun_kept :
    cur.findRun id attempt = some (row, run) := by
  obtain ⟨rfl, -, -, mem, -⟩ := drift.run_kept okSeen found running
  simp only [RuntimePlan.findRun, Option.bind_eq_bind, Option.bind_eq_some_iff, Option.pure_def,
    Option.some.injEq] at found ⊢
  obtain ⟨row', foundRow, run', foundRun, pair⟩ := found
  obtain ⟨rfl, rfl⟩ := Prod.mk.inj pair
  exact ⟨row', RuntimePlan.find_eq (ok.distinct distinct) mem, run', foundRun, rfl⟩

theorem Drift.liveRun :
    cur.liveRun id attempt =
      if seen.status = .running ∧ row.status = .running then some (row, run) else none := by
  have foundCur := findRun_kept drift okSeen ok distinct found running
  by_cases both : seen.status = .running ∧ row.status = .running <;>
    simp [RuntimePlan.liveRun, foundCur, drift.status, running, both]

end

end

/-- A run that ends after its invocation or its plan changes nothing else. -/
theorem drop_change (locked : t.locks cur = true) (drift : Drift seen cur)
    (okSeen : seen.Ok definition) (ok : cur.Ok definition) (distinct : definition.ids.Nodup)
    (found : seen.findRun id attempt = some (row, run)) (running : run.status = .running)
    (gone : seen.status ≠ .running ∨ row.status ≠ .running) {data : InvocationRun → InvocationRun}
    (drops : data run = run.drop now) : Change options now cur t (cur.updateRun row.id attempt data) [] := by
  obtain ⟨rfl, rfl, memSeen, mem, before, runs⟩ := drift.run_kept okSeen found running
  have still : row.status ≠ .running := by
    intro live
    have started := okSeen.started memSeen (by simp [live]) (by rw [live]; rfl)
    rcases gone with h | h
    · exact h started
    · exact h live
  have rows : Rewrites (Becomes row { row with runs := before ++ [run.drop now] }) cur
      (cur.updateRun row.id run.attempt data) := by
    apply becomes_of_rewrite (ok.distinct distinct) mem
    · have updated := (ok.rows row mem).update_last runs data
      rw [drops] at updated
      simp [updated]
    · exact fun r other => if_neg other
  refine .dropped locked rfl mem still runs running ?_ ?_ rows <;> rfl

theorem persistExecutionResult_change {result : InvocationExecutionResult}
    (okSeen : seen.Ok definition) (ok : cur.Ok definition) (distinct : definition.ids.Nodup)
    (drift : Drift seen cur) : Change options now cur (.persistExecutionResult id attempt result)
      (persistExecutionResult options now seen cur id attempt result)
      (match (Transaction.persistExecutionResult id attempt result).failure options now seen with
        | some (row, _, false) => [.nonRetryable row.id] | _ => []) := by
  unfold persistExecutionResult
  cases found : seen.findRun id attempt with
  | none =>
    have unfound : seen.liveRun id attempt = none := by simp [RuntimePlan.liveRun, found]
    cases result <;> simp only [Transaction.failure, unfound] <;> exact .idle
  | some pair =>
    obtain ⟨row, run⟩ := pair
    dsimp only
    by_cases running : run.status = .running
    · have liveSeen := (Drift.refl seen).liveRun okSeen okSeen distinct found running
      have liveCur := drift.liveRun okSeen ok distinct found running
      rw [if_neg (not_not.2 running)]
      by_cases gone : seen.status ≠ .running ∨ row.status ≠ .running
      · rw [if_neg (by tauto)] at liveSeen
        rw [if_pos gone]
        have dropped : Change options now cur (.persistExecutionResult id attempt result)
            (cur.updateRun row.id attempt fun run => if run.status = .running then run.drop now else run)
            [] :=
          drop_change rfl drift okSeen ok distinct found running gone (if_pos running)
        cases result <;> simpa [Transaction.failure, liveSeen] using dropped
      · rw [if_neg gone]
        have both : seen.status = .running ∧ row.status = .running := by tauto
        rw [if_pos both] at liveSeen liveCur
        obtain ⟨rfl, rfl, -, mem, before, runs⟩ := drift.run_kept okSeen found running
        have live : Live cur row before run :=
          ⟨drift.status.trans both.1, mem, both.2, runs, running⟩
        cases result with
        | waitingForUsageCapacity =>
          have rows := finish_rows ok distinct live (InvocationRun.wait now .waitingForUsageCapacity)
            .waitingForUsageCapacity
          refine .ended rfl live rfl ?_ ?_ ?_ rows
          · rfl
          · simp [InvocationRun.wait]
          · trivial
        | blockedInsufficientUsage =>
          have rows := finish_rows ok distinct live (InvocationRun.wait now .blockedInsufficientUsage)
            .blockedInsufficientUsage
          refine .ended rfl live rfl ?_ ?_ ?_ rows
          · rfl
          · simp [InvocationRun.wait]
          · trivial
        | completed outcome =>
          have rows := finish_rows ok distinct live (fun run : InvocationRun =>
            { run with status := .completed, outcome := outcome, finishedAt := some now }) .completed
          refine .ended rfl live rfl ?_ ?_ ?_ rows
          · rfl
          · simp
          · trivial
        | failed errorCode retryable =>
          have cause : (Transaction.persistExecutionResult row.id run.attempt
              (.failed errorCode retryable)).failure options now cur = some (row, run, retryable) := by
            simp [Transaction.failure, liveCur]
          have settled := settleFailure_change errorCode rfl ok distinct live cause
          cases retryable <;> simpa [Transaction.failure, liveSeen] using settled
    · have dead : seen.liveRun id attempt = none := by simp [RuntimePlan.liveRun, found, running]
      rw [if_pos running]
      cases result <;> simp only [Transaction.failure, dead] <;> exact .idle

theorem recoverStaleRun_change (okSeen : seen.Ok definition) (ok : cur.Ok definition)
    (distinct : definition.ids.Nodup) (drift : Drift seen cur) :
    Change options now cur (.recoverStaleRun id attempt)
      (recoverStaleRun options now seen cur id attempt) [] := by
  unfold recoverStaleRun
  split
  · exact .idle
  rename_i row run found
  split
  · exact .idle
  rename_i running
  rw [not_not] at running
  split
  · exact .idle
  rename_i startedAt started
  split
  · exact .idle
  rename_i stale
  split
  · rename_i gone
    exact drop_change rfl drift okSeen ok distinct found running gone rfl
  · rename_i gone
    have both : seen.status = .running ∧ row.status = .running := by tauto
    have liveCur := drift.liveRun okSeen ok distinct found running
    rw [if_pos both] at liveCur
    obtain ⟨rfl, rfl, -, mem, before, runs⟩ := drift.run_kept okSeen found running
    have live : Live cur row before run :=
      ⟨drift.status.trans both.1, mem, both.2, runs, running⟩
    have cause : (Transaction.recoverStaleRun row.id run.attempt).failure options now cur =
        some (row, run, true) := by
      simp [Transaction.failure, liveCur, started, Int.not_lt.1 stale]
    exact settleFailure_change "WORKER_INTERRUPTED" rfl ok distinct live cause

end Vimla.Orchestration
