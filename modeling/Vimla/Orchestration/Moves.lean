import Vimla.Lib.Runs
import Vimla.Orchestration.Runtime

/-!
# Transactions in any order

One plan and the transactions that commit on it, in any order and number. A
transaction is taken at its commit, and says how many commits before that it
read the plan. Only a transaction that does not hold the lock on the plan's row
can commit between the read and the commit of a worker's.
-/

namespace Vimla.Orchestration

open List

inductive Event
  | approved (invocationId : String)
  | claimed (invocationId : String) (attempt : Nat)
  | nonRetryable (invocationId : String)
  deriving DecidableEq

structure World where
  plan : RuntimePlan
  /-- What was committed before, the latest first. -/
  past : List RuntimePlan := []
  /-- How many of the latest commits were made without the plan's lock. -/
  unlocked : Nat := 0
  events : List Event := []

/-- The plan as it was `age` commits ago. -/
def World.read (w : World) (age : Nat) : Option RuntimePlan := (w.plan :: w.past)[age]?

inductive Transaction
  | start
  | stop
  | approve (invocationId : String)
  | resolveHumanEvaluation (invocationId : String) (input : ResolveHumanEvaluationRequest)
  | dispatchPlan
  | claimInvocation (invocationId : String)
  | persistExecutionResult (invocationId : String) (attempt : Nat) (result : InvocationExecutionResult)
  | recoverStaleRun (invocationId : String) (attempt : Nat)

/-- A transaction, the age of the plan it read and the time at which it runs. -/
structure Action where
  transaction : Transaction
  age : Nat := 0
  now : Int := 0

/-- Whether the transaction holds the lock on the plan's row when it commits. -/
def Transaction.locks (cur : RuntimePlan) : Transaction → Bool
  | start => cur.status = .planned
  | stop => isStoppable cur.status
  | approve _ | resolveHumanEvaluation _ _ => false
  | dispatchPlan | claimInvocation _ | persistExecutionResult _ _ _ | recoverStaleRun _ _ => true

/-- Whether it locks the plan before it reads it. -/
def Transaction.byWorker : Transaction → Bool
  | start | stop | approve _ | resolveHumanEvaluation _ _ => false
  | dispatchPlan | claimInvocation _ | persistExecutionResult _ _ _ | recoverStaleRun _ _ => true

/-- A run that is `RUNNING`, as are its invocation and its plan. -/
def RuntimePlan.liveRun (plan : RuntimePlan) (invocationId : String) (attempt : Nat) :
    Option (RuntimeInvocation × InvocationRun) := do
  let (row, run) ← plan.findRun invocationId attempt
  guard (plan.status = .running ∧ row.status = .running ∧ run.status = .running)
  return (row, run)

/-- The live run that the transaction ends as failed, and whether that failure
can be retried. -/
def Transaction.failure (options : OrchestrationRuntimeOptions) (now : Int) (plan : RuntimePlan) :
    Transaction → Option (RuntimeInvocation × InvocationRun × Bool)
  | persistExecutionResult id attempt (.failed _ retryable) => do
    let (row, run) ← plan.liveRun id attempt
    return (row, run, retryable)
  | recoverStaleRun id attempt => do
    let (row, run) ← plan.liveRun id attempt
    let startedAt ← run.startedAt
    guard (options.staleAfterMs ≤ now - startedAt)
    return (row, run, true)
  | _ => none

/-- What the transaction makes of the plan, and what is to be told about it;
`none` where it is rolled back. -/
def Transaction.commit (options : OrchestrationRuntimeOptions) (now : Int) (seen cur : RuntimePlan) :
    Transaction → Option (RuntimePlan × List Event)
  | start =>
    match Orchestration.start seen cur with
    | .ok plan => some (plan, [])
    | .error _ => none
  | stop => some (Orchestration.stop seen cur, [])
  | approve id =>
    match Orchestration.approve seen cur id with
    | .ok (plan, transitioned) => some (plan, if transitioned then [.approved id] else [])
    | .error _ => none
  | resolveHumanEvaluation id input =>
    match Orchestration.resolveHumanEvaluation now seen cur id input with
    | .ok plan => some (plan, [])
    | .error _ => none
  | dispatchPlan => some ((Orchestration.dispatchPlan options now seen cur).1, [])
  | claimInvocation id =>
    match Orchestration.claimInvocation now seen cur id with
    | some (plan, attempt) => some (plan, [.claimed id attempt])
    | none => none
  | persistExecutionResult id attempt result =>
    let events := match (persistExecutionResult id attempt result).failure options now seen with
      | some (row, _, false) => [.nonRetryable row.id]
      | _ => []
    some (Orchestration.persistExecutionResult options now seen cur id attempt result, events)
  | recoverStaleRun id attempt =>
    some (Orchestration.recoverStaleRun options now seen cur id attempt, [])

def World.step (options : OrchestrationRuntimeOptions) (w : World) (action : Action) : World :=
  match w.read action.age with
  | none => w
  | some seen =>
    if action.transaction.byWorker ∧ w.unlocked < action.age then w
    else
      match action.transaction.commit options action.now seen w.plan with
      | none => w
      | some (plan, events) =>
        { plan := plan
          past := w.plan :: w.past
          unlocked := if action.transaction.locks w.plan then 0 else w.unlocked + 1
          events := w.events ++ events }

def World.run (options : OrchestrationRuntimeOptions) (w : World) (actions : List Action) : World :=
  actions.foldl (World.step options) w

/-- A plan as it is stored when it is created. -/
def World.created (plan : ExecutionPlan) : World where
  plan :=
    { goal := plan.goal
      status := .planned
      maxParallelism := plan.maxParallelism
      invocations := plan.invocations.map fun invocation => { invocation := invocation }
      dependencies := plan.dependencies }

namespace FirstPlan

def draft : Invocation := { id := "draft", target := .aiAuto }

def publish : Invocation where
  id := "publish"
  target := .vimla
  riskClass := .externalSideEffect
  approvalPolicy := .userConfirmation

def plan : ExecutionPlan where
  maxParallelism := 1
  invocations := [draft, publish]
  dependencies := [{
    id := "then"
    fromInvocationId := "draft"
    toInvocationId := "publish"
    condition := .onSuccess }]

theorem valid : validateManualExecutionPlan plan = .ok () := by decide +kernel

/-- The draft is written, and the publication is approved and claimed. -/
def published : List Action :=
  [{ transaction := .start },
    { transaction := .claimInvocation "draft" },
    { transaction := .persistExecutionResult "draft" 1 (.completed none), now := 1000 },
    { transaction := .dispatchPlan, now := 1000 },
    { transaction := .approve "publish", now := 2000 },
    { transaction := .claimInvocation "publish", now := 3000 }]

end FirstPlan

/-!
# What can happen to an invocation

The moves of one invocation, whoever makes them, and what they keep true of its
runs.
-/

/-- Each invocation of `p` is in `R` with the one that stands for it in `q`. -/
def Rewrites (R : RuntimeInvocation → RuntimeInvocation → Prop) (p q : RuntimePlan) : Prop :=
  ∃ f, q.invocations = p.invocations.map f ∧ q.goal = p.goal ∧ q.maxParallelism = p.maxParallelism ∧
    q.dependencies = p.dependencies ∧ ∀ row ∈ p.invocations, R row (f row)

variable {row' : RuntimeInvocation}

namespace Rewrites
variable {R S T : RuntimeInvocation → RuntimeInvocation → Prop} {p q r : RuntimePlan}

theorem refl (h : ∀ row, R row row) : Rewrites R p p :=
  ⟨id, (map_id _).symm, rfl, rfl, rfl, fun row _ => h row⟩

theorem of_rewrite {f : RuntimeInvocation → RuntimeInvocation}
    (h : ∀ row ∈ p.invocations, R row (f row)) : Rewrites R p (p.rewrite f) :=
  ⟨f, rfl, rfl, rfl, rfl, h⟩

section
variable (h : Rewrites R p q)
include h

theorem mono (sub : ∀ row ∈ p.invocations, ∀ row', R row row' → S row row') :
    Rewrites S p q := by
  obtain ⟨f, rows, goal, width, edges, each⟩ := h
  exact ⟨f, rows, goal, width, edges, fun row hrow => sub row hrow _ (each row hrow)⟩

theorem trans (k : Rewrites S q r)
    (both : ∀ row ∈ p.invocations, ∀ row' row'', R row row' → S row' row'' → T row row'') :
    Rewrites T p r := by
  obtain ⟨f, rows, goal, width, edges, each⟩ := h
  obtain ⟨g, rows', goal', width', edges', each'⟩ := k
  refine ⟨g ∘ f, ?_, goal'.trans goal, width'.trans width, edges'.trans edges, ?_⟩
  · rw [rows', rows, map_map]
  · intro row hrow
    have mid : f row ∈ q.invocations := rows ▸ mem_map_of_mem hrow
    exact both row hrow _ _ (each row hrow) (each' _ mid)

/-- What a row of the new plan comes from. -/
theorem back (hrow : row' ∈ q.invocations) : ∃ row ∈ p.invocations, R row row' := by
  obtain ⟨f, rows, -, -, -, each⟩ := h
  rw [rows] at hrow
  obtain ⟨row, mem, rfl⟩ := mem_map.1 hrow
  exact ⟨row, mem, each row mem⟩

/-- What a row of the old plan becomes. -/
theorem forth {row : RuntimeInvocation} (hrow : row ∈ p.invocations) :
    ∃ row' ∈ q.invocations, R row row' := by
  obtain ⟨f, rows, -, -, -, each⟩ := h
  exact ⟨f row, rows ▸ mem_map_of_mem hrow, each row hrow⟩

theorem definition (keeps : ∀ row row', R row row' → row'.invocation = row.invocation) :
    q.definition = p.definition := by
  obtain ⟨f, rows, goal, width, edges, each⟩ := h
  simp only [RuntimePlan.definition, rows, goal, width, edges, map_map]
  congr 1
  exact map_congr_left fun row hrow => keeps row _ (each row hrow)

end

end Rewrites

theorem RuntimePlan.ids_eq (plan : RuntimePlan) :
    plan.definition.ids = plan.invocations.map RuntimeInvocation.id := by
  simp only [RuntimePlan.definition, ExecutionPlan.ids, map_map]
  rfl

variable {row : RuntimeInvocation} {plan : RuntimePlan}

theorem RuntimePlan.row_unique (distinct : plan.definition.ids.Nodup)
    (h : row ∈ plan.invocations) (h' : row' ∈ plan.invocations)
    (same : row.id = row'.id) : row = row' := by
  rw [plan.ids_eq] at distinct
  exact Rows.eq_of_key distinct h h' same

theorem RuntimePlan.find_mem {id : String} (h : plan.find id = some row) :
    row ∈ plan.invocations ∧ row.id = id :=
  Rows.mem_of_find h

theorem RuntimePlan.find_eq (distinct : plan.definition.ids.Nodup)
    (h : row ∈ plan.invocations) : plan.find row.id = some row := by
  rw [plan.ids_eq] at distinct
  exact Rows.find_eq_of_mem distinct h rfl

/-- The run and invocation statuses that the end of a live run leaves together. -/
def Settles : InvocationRunStatus → InvocationStatus → Prop
  | .completed, .completed | .waitingForUsageCapacity, .waitingForUsageCapacity
  | .blockedInsufficientUsage, .blockedInsufficientUsage | .failed, .ready | .failed, .failed => True
  | _, _ => False

/-- The attempt of the next run. -/
def RuntimeInvocation.nextAttempt (row : RuntimeInvocation) : Nat :=
  (row.latestRun.map InvocationRun.attempt).getD 0 + 1

/-- `events` are those of the transaction that makes the move. -/
inductive Move (events : List Event) (row : RuntimeInvocation) : RuntimeInvocation → Prop
  | stay : Move events row row
  | decide (pending : row.status = .pending) (decision : ReadinessDecision) :
    Move events row { row with status := statusOf row.invocation.approvalPolicy decision }
  | resume (waited : row.status = .waitingForUsageCapacity ∨ row.status = .blockedInsufficientUsage) :
    Move events row { row with status := .ready }
  | cancel (active : isTerminalInvocationStatus row.status = false) :
    Move events row { row with status := .canceled }
  | approve (waiting : row.status = .waitingApproval)
    (machine : row.invocation.isHumanEvaluator = false) (told : Event.approved row.id ∈ events) :
    Move events row { row with status := .ready }
  | resolve (waiting : row.status = .waitingApproval) (human : row.invocation.isHumanEvaluator = true)
    {run : InvocationRun} (attempt : run.attempt = row.nextAttempt) (ended : run.status = .completed) :
    Move events row { row with status := .completed, runs := row.runs ++ [run] }
  | claim (ready : row.status = .ready) {run : InvocationRun} (attempt : run.attempt = row.nextAttempt)
    (started : run.status = .running) (told : Event.claimed row.id run.attempt ∈ events) :
    Move events row { row with status := .running, runs := row.runs ++ [run] }
  | settle (running : row.status = .running) {before : List InvocationRun} {run run' : InvocationRun}
    (runs : row.runs = before ++ [run]) (live : run.status = .running)
    (attempt : run'.attempt = run.attempt) {next : InvocationStatus} (settles : Settles run'.status next) :
    Move events row { row with status := next, runs := before ++ [run'] }
  | drop (gone : row.status ≠ .running) {before : List InvocationRun} {run run' : InvocationRun}
    (runs : row.runs = before ++ [run]) (live : run.status = .running)
    (attempt : run'.attempt = run.attempt) (ended : run'.status = .canceled) :
    Move events row { row with runs := before ++ [run'] }

variable {events : List Event}

theorem Move.invocation (h : Move events row row') : row'.invocation = row.invocation := by
  cases h <;> rfl

theorem Move.id (h : Move events row row') : row'.id = row.id :=
  congrArg Invocation.id h.invocation

theorem Move.terminal {row row' : RuntimeInvocation} (h : Move events row row')
    (terminal : isTerminalInvocationStatus row.status = true) : row'.status = row.status := by
  cases h with
  | stay | drop => rfl
  | decide pending | approve pending | resolve pending | claim pending | settle pending =>
    rw [pending] at terminal
    cases terminal
  | resume waited =>
    rcases waited with waited | waited <;>
    · rw [waited] at terminal
      cases terminal
  | cancel active =>
    rw [active] at terminal
    cases terminal

structure RuntimeInvocation.Ok (row : RuntimeInvocation) : Prop where
  attempts : row.runs.map InvocationRun.attempt = range' 1 row.runs.length
  /-- Only the last run can be `RUNNING`, and is when the invocation is. -/
  earlier : ∀ run ∈ row.runs.dropLast, run.status ≠ .running
  live : row.status = .running → ∃ run ∈ row.runs.getLast?, run.status = .running
  gone : (∃ run ∈ row.runs, run.status = .running) → row.status = .running ∨ row.status = .canceled
  unclaimed : row.status ∈ [InvocationStatus.pending, .waitingApproval, .skipped] → row.runs = []

namespace RuntimeInvocation.Ok
variable {row : RuntimeInvocation}

theorem latestRun_concat {before : List InvocationRun} {run : InvocationRun} (h : row.Ok)
    (runs : row.runs = before ++ [run]) :
    row.latestRun = some run ∧ run.attempt = before.length + 1 := by
  have attempts := h.attempts
  rw [runs, map_append, length_append, length_singleton, range'_concat] at attempts
  obtain ⟨init, last⟩ := append_inj' attempts rfl
  have number : run.attempt = before.length + 1 := by
    have := singleton_inj.1 last
    omega
  refine ⟨?_, number⟩
  rw [RuntimeInvocation.latestRun, runs, argmax_concat]
  cases hb : before.argmax InvocationRun.attempt with
  | none => rfl
  | some best =>
    have mem := mem_map_of_mem (f := InvocationRun.attempt) (argmax_mem hb)
    rw [init, mem_range'_1] at mem
    have smaller : best.attempt < run.attempt := by omega
    simp [smaller]

theorem nextAttempt (h : row.Ok) : row.nextAttempt = row.runs.length + 1 := by
  rcases eq_nil_or_concat row.runs with runs | ⟨before, run, runs⟩
  · simp [RuntimeInvocation.nextAttempt, RuntimeInvocation.latestRun, runs]
  · rw [concat_eq_append] at runs
    obtain ⟨latest, number⟩ := h.latestRun_concat runs
    simp [RuntimeInvocation.nextAttempt, latest, runs, number]

theorem append (h : row.Ok) {run : InvocationRun} (attempt : run.attempt = row.nextAttempt) :
    (row.runs ++ [run]).map InvocationRun.attempt = range' 1 (row.runs ++ [run]).length := by
  rw [map_append, length_append, length_singleton, range'_concat, h.attempts,
    map_singleton, attempt, h.nextAttempt]
  simp [Nat.add_comm]

/-- No run is `RUNNING` before the invocation is claimed again. -/
theorem quiet (h : row.Ok) (idle : row.status ≠ .running) (kept : row.status ≠ .canceled) :
    ∀ run ∈ row.runs, run.status ≠ .running := by
  intro run hrun running
  rcases h.gone ⟨run, hrun, running⟩ with e | e
  · exact idle e
  · exact kept e

variable {status : InvocationStatus}

/-- A new status over the same runs. -/
theorem withStatus (h : row.Ok) (idle : status ≠ .running)
    (gone : (∃ run ∈ row.runs, run.status = .running) → status = .canceled)
    (unclaimed : status ∈ [InvocationStatus.pending, .waitingApproval, .skipped] → row.runs = []) :
    { row with status := status }.Ok where
  attempts := h.attempts
  earlier := h.earlier
  live := fun running => absurd running idle
  gone := fun running => .inr (gone running)
  unclaimed := unclaimed

/-- A new run after runs that have ended. -/
theorem withRun (h : row.Ok) (quiet : ∀ run ∈ row.runs, run.status ≠ .running) {run : InvocationRun}
    (attempt : run.attempt = row.nextAttempt) (agrees : status = .running ↔ run.status = .running)
    (claimed : status ∉ [InvocationStatus.pending, .waitingApproval, .skipped]) :
    { row with status := status, runs := row.runs ++ [run] }.Ok where
  attempts := h.append attempt
  earlier := by
    rw [dropLast_concat]
    exact quiet
  live := fun running => ⟨run, by simp, agrees.1 running⟩
  gone := by
    rintro ⟨r, hr, running⟩
    rcases mem_append.1 hr with hr | hr
    · exact absurd running (quiet r hr)
    · rw [mem_singleton.1 hr] at running
      exact .inl (agrees.2 running)
  unclaimed := fun mem => absurd mem claimed

/-- The last run ends. -/
theorem withEnd (h : row.Ok) {before : List InvocationRun} {run run' : InvocationRun}
    (runs : row.runs = before ++ [run]) (attempt : run'.attempt = run.attempt) (ended : run'.status ≠ .running)
    (idle : status ≠ .running) (claimed : status ∉ [InvocationStatus.pending, .waitingApproval, .skipped]) :
    { row with status := status, runs := before ++ [run'] }.Ok where
  attempts := by
    have attempts := h.attempts
    rw [runs] at attempts
    simpa [attempt] using attempts
  earlier := by
    have earlier := h.earlier
    rw [runs, dropLast_concat] at earlier
    rw [dropLast_concat]
    exact earlier
  live := fun running => absurd running idle
  gone := by
    rintro ⟨r, hr, running⟩
    have earlier := h.earlier
    rw [runs, dropLast_concat] at earlier
    rcases mem_append.1 hr with hr | hr
    · exact absurd running (earlier r hr)
    · rw [mem_singleton.1 hr] at running
      exact absurd running ended
  unclaimed := fun mem => absurd mem claimed

end RuntimeInvocation.Ok

theorem Settles.ended {run : InvocationRunStatus} {next : InvocationStatus} (h : Settles run next) :
    run ≠ .running ∧ next ≠ .running ∧
      next ∉ [InvocationStatus.pending, .waitingApproval, .skipped] := by
  cases run <;> cases next <;> first | exact h.elim | decide

theorem Move.ok {row row' : RuntimeInvocation} (h : Move events row row') (ok : row.Ok) : row'.Ok := by
  cases h with
  | stay => exact ok
  | decide pending decision =>
    have none : row.runs = [] := ok.unclaimed (by simp [pending])
    exact ok.withStatus (statusOf_ne (by decide)) (by simp [none]) fun _ => none
  | resume waited =>
    have quiet := ok.quiet (by rcases waited with e | e <;> simp [e])
      (by rcases waited with e | e <;> simp [e])
    exact ok.withStatus (by simp) (fun ⟨run, hrun, running⟩ => absurd running (quiet run hrun)) (by simp)
  | cancel active => exact ok.withStatus (by simp) (fun _ => rfl) (by simp)
  | approve waiting machine =>
    have none : row.runs = [] := ok.unclaimed (by simp [waiting])
    exact ok.withStatus (by simp) (by simp [none]) (by simp)
  | resolve waiting human attempt ended =>
    exact ok.withRun (ok.quiet (by simp [waiting]) (by simp [waiting])) attempt (by simp [ended])
      (by simp)
  | claim ready attempt started told =>
    exact ok.withRun (ok.quiet (by simp [ready]) (by simp [ready])) attempt (by simp [started]) (by simp)
  | settle running runs live attempt settles =>
    obtain ⟨ended, idle, claimed⟩ := settles.ended
    exact ok.withEnd runs attempt ended idle claimed
  | @drop gone before run run' runs live attempt ended =>
    have canceled : row.status = .canceled :=
      (ok.gone ⟨run, by simp [runs], live⟩).resolve_left gone
    exact ok.withEnd runs attempt (by simp [ended]) (by simp [canceled]) (by simp [canceled])

end Vimla.Orchestration
