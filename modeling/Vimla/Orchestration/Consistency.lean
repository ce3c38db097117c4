import Vimla.Orchestration.Dispatch

/-!
# Reachable states

Every committed plan is in good order, and what a worker's transaction can have
read differs from the plan at its commit only where an invocation waited for
approval.
-/

namespace Vimla.Orchestration

open List World

variable {p q r : RuntimePlan}

variable {options : OrchestrationRuntimeOptions} {definition : ExecutionPlan}

theorem Transaction.commit_change {now : Int} {seen cur next : RuntimePlan} {events : List Event}
    {t : Transaction} (h : t.commit options now seen cur = some (next, events))
    (okSeen : seen.Ok definition) (ok : cur.Ok definition) (distinct : definition.ids.Nodup)
    (drift : t.byWorker = true → Drift seen cur) : Change options now cur t next events := by
  cases t with
  | start =>
    simp only [commit] at h
    split at h
    · cases h
      exact start_change ‹_›
    · cases h
  | stop =>
    cases h
    exact stop_change ok
  | approve id =>
    simp only [commit] at h
    split at h
    · cases h
      exact approve_change ‹_› okSeen ok distinct
    · cases h
  | resolveHumanEvaluation id input =>
    simp only [commit] at h
    split at h
    · cases h
      exact resolveHumanEvaluation_change ‹_› okSeen ok distinct
    · cases h
  | dispatchPlan =>
    cases h
    exact dispatchPlan_change (drift rfl) (okSeen.distinct distinct) (ok.distinct distinct)
  | claimInvocation id =>
    simp only [commit] at h
    split at h
    · cases h
      exact claimInvocation_change ‹_› okSeen ok distinct (drift rfl)
    · cases h
  | persistExecutionResult id attempt result =>
    cases h
    exact persistExecutionResult_change okSeen ok distinct (drift rfl)
  | recoverStaleRun id attempt =>
    cases h
    exact recoverStaleRun_change okSeen ok distinct (drift rfl)

structure World.Ok (definition : ExecutionPlan) (w : World) : Prop where
  depth : w.unlocked ≤ w.past.length
  plans : ∀ plan ∈ w.plan :: w.past, plan.Ok definition
  drift : ∀ age ≤ w.unlocked, ∀ seen, w.read age = some seen → Drift seen w.plan

/-- Either the transaction is rolled back or its change is committed. -/
theorem World.step_cases {w : World} (ok : w.Ok definition) (distinct : definition.ids.Nodup)
    (action : Action) :
    w.step options action = w ∨
      ∃ plan events, Change options action.now w.plan action.transaction plan events ∧
        w.step options action =
          { plan := plan
            past := w.plan :: w.past
            unlocked := if action.transaction.locks w.plan then 0 else w.unlocked + 1
            events := w.events ++ events } := by
  unfold step
  split
  · exact .inl rfl
  rename_i seen read
  split
  · exact .inl rfl
  rename_i admitted
  split
  · exact .inl rfl
  rename_i plan events committed
  have okSeen : seen.Ok definition := ok.plans seen (mem_of_getElem? read)
  have drift (worker : action.transaction.byWorker = true) : Drift seen w.plan :=
    ok.drift action.age (Nat.le_of_not_lt fun old => admitted ⟨worker, old⟩) seen read
  have change := Transaction.commit_change committed okSeen (ok.plans w.plan mem_cons_self) distinct
    drift
  exact .inr ⟨plan, events, change, rfl⟩

theorem Drifted.trans {row row' row'' : RuntimeInvocation} (h : Drifted row row')
    (k : Drifted row' row'') : Drifted row row'' := by
  cases h with
  | same => exact k
  | approved waiting invocation ready =>
    rw [k.fixed (by simp [ready])]
    exact .approved waiting invocation ready
  | resolved waiting invocation human completed =>
    rw [k.fixed (by simp [completed])]
    exact .resolved waiting invocation human completed

theorem Drift.trans (h : Drift p q) (k : Drift q r) : Drift p r :=
  ⟨k.status.trans h.status, h.rows.trans k.rows fun _ _ _ _ => Drifted.trans⟩

theorem World.Ok.step {w : World} (ok : w.Ok definition) (distinct : definition.ids.Nodup)
    (action : Action) : (w.step options action).Ok definition := by
  rcases w.step_cases ok distinct action with same | ⟨plan, events, change, step⟩
  · rw [same]
    exact ok
  rw [step]
  have okPlan := ok.plans w.plan mem_cons_self
  refine ⟨?_, ?_, ?_⟩
  · have := ok.depth
    rw [length_cons]
    dsimp only
    split <;> omega
  · intro p hp
    rcases mem_cons.1 hp with rfl | hp
    · exact change.ok okPlan distinct
    · exact ok.plans p hp
  · intro age young seen read
    cases age with
    | zero =>
      cases read
      exact .refl plan
    | succ age =>
      cases locks : action.transaction.locks w.plan with
      | true => simp [locks] at young
      | false =>
        simp only [locks, Bool.false_eq_true, if_false] at young
        have before := ok.drift age (by omega) seen read
        exact before.trans (change.drift (okPlan.distinct distinct) locks)

theorem World.created_ok (plan : ExecutionPlan) : (created plan).Ok plan := by
  have runs (invocation : Invocation) : ({ invocation := invocation } : RuntimeInvocation).Ok :=
    ⟨rfl, by simp, by simp, by simp, by simp⟩
  have pending : ∀ row ∈ (created plan).plan.invocations, row.status = .pending := by
    intro row hrow
    obtain ⟨invocation, -, rfl⟩ := mem_map.1 hrow
    rfl
  refine ⟨le_rfl, ?_, ?_⟩
  · intro p hp
    obtain rfl := mem_singleton.1 hp
    refine ⟨?_, ?_, ?_, fun _ => pending, ?_⟩
    · simp [RuntimePlan.definition, created, Function.comp_def]
    · intro row hrow
      obtain ⟨invocation, -, rfl⟩ := mem_map.1 hrow
      exact runs invocation
    · intro terminal
      cases terminal
    · have none : (created plan).plan.runningCount = 0 := by
        apply countP_eq_zero.2
        intro row hrow
        simp [pending row hrow]
      rw [none]
      exact Nat.zero_le _
  · intro age young seen read
    obtain rfl := Nat.le_zero.1 young
    cases read
    exact .refl _

theorem World.run_ok (options : OrchestrationRuntimeOptions) {plan : ExecutionPlan}
    (distinct : plan.ids.Nodup) (actions : List Action) :
    (run options (created plan) actions).Ok plan :=
  Runs.invariant (fun _ action ok => ok.step distinct action) actions (created_ok plan)

/-!
# Runs and invocations

In every reachable state the runs of an invocation are numbered without a gap
and only the last can be `RUNNING`, which it is when the invocation is. Results
that come too late change no status, and nothing leaves a terminal status.
-/

/-- The status of the plan and of each invocation. -/
def RuntimePlan.statuses (plan : RuntimePlan) : PlanStatus × List (String × InvocationStatus) :=
  (plan.status, plan.invocations.map fun row => (row.id, row.status))

/-- The run is not the live one: it has ended, its invocation or its plan is not
`RUNNING` any more, or there is a later run. -/
def RuntimePlan.isLate (plan : RuntimePlan) (invocationId : String) (attempt : Nat) : Prop :=
  plan.status ≠ .running ∨
    ∀ row ∈ plan.invocations, row.id = invocationId →
      row.status ≠ .running ∨
        ∀ run ∈ row.runs, run.attempt = attempt →
          run.status ≠ .running ∨ ∃ later ∈ row.runs, attempt < later.attempt

theorem updateRun_statuses (plan : RuntimePlan) (id : String) (attempt : Nat)
    (data : InvocationRun → InvocationRun) : (plan.updateRun id attempt data).statuses = plan.statuses := by
  simp only [RuntimePlan.updateRun, RuntimePlan.rewrite, RuntimePlan.statuses, map_map]
  congr 1
  apply map_congr_left
  intro row _
  rw [Function.comp_apply]
  split <;> rfl

variable {row : RuntimeInvocation}

theorem RuntimeInvocation.Ok.last_attempt (ok : row.Ok)
    {before : List InvocationRun} {run : InvocationRun} (runs : row.runs = before ++ [run]) :
    ∀ later ∈ row.runs, later.attempt ≤ run.attempt := by
  intro later mem
  have number := mem_map_of_mem (f := InvocationRun.attempt) mem
  rw [ok.attempts, mem_range'_1, runs, length_append, length_singleton] at number
  rw [(ok.latestRun_concat runs).2]
  omega

variable {id : String} {attempt : Nat} {w : World}

/-- The result of a run that is not live changes no status. -/
theorem persistExecutionResult_late {now : Int} {seen cur : RuntimePlan} (okSeen : seen.Ok definition)
    (drift : Drift seen cur) (late : cur.isLate id attempt) (result : InvocationExecutionResult) :
    (persistExecutionResult options now seen cur id attempt result).statuses = cur.statuses := by
  unfold persistExecutionResult
  split
  · rfl
  rename_i row run found
  split
  · rfl
  rename_i running
  rw [not_not] at running
  split
  · exact updateRun_statuses _ _ _ _
  have both : seen.status = .running ∧ row.status = .running := by tauto
  obtain ⟨own, number, memSeen, mem, before, runs⟩ := drift.run_kept okSeen found running
  exfalso
  rcases late with gone | late
  · exact gone (drift.status.trans both.1)
  rcases late row mem own with gone | ended
  · exact gone both.2
  rcases ended run (by simp [runs]) number with ended | ⟨later, memLater, after⟩
  · exact ended running
  · have := (okSeen.rows row memSeen).last_attempt runs later memLater
    omega

theorem World.step_late (ok : w.Ok definition) (late : w.plan.isLate id attempt)
    (result : InvocationExecutionResult) (age : Nat) (now : Int) :
    (w.step options ⟨.persistExecutionResult id attempt result, age, now⟩).plan.statuses =
      w.plan.statuses := by
  unfold step
  split
  · rfl
  rename_i seen read
  split
  · rfl
  rename_i admitted
  have okSeen : seen.Ok definition := ok.plans seen (mem_of_getElem? read)
  have drift : Drift seen w.plan :=
    ok.drift age (Nat.le_of_not_lt fun old => admitted ⟨rfl, old⟩) seen read
  exact persistExecutionResult_late okSeen drift late result

/-- `q` keeps what is terminal in `p`. -/
structure Keeps (p q : RuntimePlan) : Prop where
  plan : isTerminalPlanStatus p.status = true → q.status = p.status
  rows : Rewrites (fun row row' => row'.id = row.id ∧
    (isTerminalInvocationStatus row.status = true → row'.status = row.status)) p q

theorem Keeps.refl (p : RuntimePlan) : Keeps p p :=
  ⟨fun _ => rfl, Rewrites.refl fun _ => ⟨rfl, fun _ => rfl⟩⟩

theorem Keeps.trans (h : Keeps p q) (k : Keeps q r) : Keeps p r := by
  refine ⟨?_, h.rows.trans k.rows ?_⟩
  · intro terminal
    have same := h.plan terminal
    exact (k.plan (same ▸ terminal)).trans same
  · rintro row - row' row'' ⟨id, status⟩ ⟨id', status'⟩
    refine ⟨id'.trans id, fun terminal => ?_⟩
    have same := status terminal
    exact (status' (same ▸ terminal)).trans same

theorem World.step_keeps (ok : w.Ok definition) (distinct : definition.ids.Nodup) (action : Action) :
    Keeps w.plan (w.step options action).plan := by
  rcases w.step_cases ok distinct action with same | ⟨plan, events, change, step⟩
  · rw [same]
    exact .refl _
  rw [step]
  have okPlan := ok.plans w.plan mem_cons_self
  refine ⟨?_, (change.moves (okPlan.distinct distinct)).mono fun _ _ _ move => ⟨move.id, move.terminal⟩⟩
  intro terminal
  rcases change.lifecycle with same | ⟨active, -⟩
  · exact same
  · rw [active] at terminal
    cases terminal

theorem World.run_keeps (options : OrchestrationRuntimeOptions) (ok : w.Ok definition)
    (distinct : definition.ids.Nodup) (actions : List Action) : Keeps w.plan (run options w actions).plan :=
  Runs.relates (C := fun _ _ => True) (R := fun (v w : World) => Keeps v.plan w.plan) (fun w => .refl w.plan)
    (fun _ _ _ => Keeps.trans) (fun _ action _ ok => step_keeps ok distinct action)
    (fun _ action _ ok => ok.step distinct action) (Runs.along_of_forall fun _ _ _ => trivial) ok

/-- The one `RUNNING` run of a `RUNNING` invocation is its latest. -/
theorem RuntimeInvocation.Ok.running (ok : row.Ok) (running : row.status = .running) :
    (row.runs.countP fun run => run.status = .running) = 1 ∧
      ∃ run, row.latestRun = some run ∧ run.status = .running := by
  obtain ⟨run, last, live⟩ := ok.live running
  obtain ⟨before, runs⟩ := getLast?_eq_some_iff.1 last
  have earlier := ok.earlier
  rw [runs, dropLast_concat] at earlier
  have quiet : (before.countP fun run => run.status = .running) = 0 := by
    simpa using earlier
  refine ⟨?_, run, (ok.latestRun_concat runs).1, live⟩
  rw [runs, countP_append, quiet]
  simp [live]

/-- In every state that a valid plan reaches. -/
theorem runs_consistent {plan : ExecutionPlan} (valid : validateManualExecutionPlan plan = .ok ())
    (options : OrchestrationRuntimeOptions) (actions : List Action) :
    let w := run options (created plan) actions
    w.plan.runningCount ≤ plan.maxParallelism ∧
      (∀ row ∈ w.plan.invocations,
        (row.status = .running →
          (row.runs.countP fun run => run.status = .running) = 1 ∧
            ∃ run, row.latestRun = some run ∧ run.status = .running) ∧
          row.runs.map InvocationRun.attempt = range' 1 row.runs.length) ∧
      (∀ id attempt result age now, w.plan.isLate id attempt →
        (w.step options ⟨.persistExecutionResult id attempt result, age, now⟩).plan.statuses =
          w.plan.statuses) ∧
      ∀ more, let later := run options w more
        (isTerminalPlanStatus w.plan.status = true → later.plan.status = w.plan.status) ∧
          ∀ row ∈ w.plan.invocations, isTerminalInvocationStatus row.status = true →
            ∀ row' ∈ later.plan.invocations, row'.id = row.id → row'.status = row.status := by
  obtain ⟨graph, accepted⟩ := validateManualExecutionPlan_graph valid
  have distinct := (validateExecutionPlanGraph_sorted accepted).distinct
  have ok := run_ok options distinct actions
  intro w
  have okPlan := ok.plans w.plan mem_cons_self
  have width : w.plan.maxParallelism = plan.maxParallelism :=
    congrArg ExecutionPlan.maxParallelism okPlan.definition
  refine ⟨width ▸ okPlan.parallel, ?_, ?_, ?_⟩
  · intro row mem
    have okRow := okPlan.rows row mem
    exact ⟨okRow.running, okRow.attempts⟩
  · intro id attempt result age now late
    exact step_late ok late result age now
  · intro more later
    have keeps := run_keeps options ok distinct more
    refine ⟨keeps.plan, ?_⟩
    intro row mem terminal row' mem' same
    obtain ⟨old, memOld, own, kept⟩ := keeps.rows.back mem'
    obtain rfl := RuntimePlan.row_unique (okPlan.distinct distinct) mem memOld (same.symm.trans own)
    exact kept terminal

/-- The draft's worker is taken for dead and the draft is claimed again. -/
def FirstPlan.interrupted : List Action :=
  [{ transaction := .start },
    { transaction := .claimInvocation "draft" },
    { transaction := .recoverStaleRun "draft" 1, now := 60000 },
    { transaction := .claimInvocation "draft", now := 60000 }]

theorem runs_consistent_interrupted :
    let w := run {} (created FirstPlan.plan) FirstPlan.interrupted
    w.plan.statuses = (.running, [("draft", .running), ("publish", .pending)]) ∧
      (w.step {} ⟨.persistExecutionResult "draft" 1 (.completed none), 0, 61000⟩).plan.statuses =
        w.plan.statuses := by
  have late : (run {} (created FirstPlan.plan) FirstPlan.interrupted).plan.isLate "draft" 1 := by
    unfold RuntimePlan.isLate
    decide +kernel
  have consistent := runs_consistent FirstPlan.valid {} FirstPlan.interrupted
  exact ⟨by decide +kernel, consistent.2.2.1 "draft" 1 (.completed none) 0 61000 late⟩

end Vimla.Orchestration
