import Vimla.Lib.Rows
import Vimla.Orchestration.Graph

/-!
# The worker's transactions

`apps/worker/src/orchestration.ts`. A worker transaction locks the plan's row,
reads the plan (`seen`) and writes to the plan as it is when the transaction
commits (`cur`). The two can differ, since a transaction of the API that does
not write the plan's row needs no lock on it.
-/

namespace Vimla.Orchestration

inductive InvocationRunStatus
  | running | completed | failed | canceled | waitingForUsageCapacity | blockedInsufficientUsage
  deriving DecidableEq

inductive EvaluationOutcome | pass | fail
  deriving DecidableEq

def EvaluationOutcome.name : EvaluationOutcome → String
  | .pass => "PASS"
  | .fail => "FAIL"

structure Evaluation where
  evaluatorKind : EvaluationMode
  outcome : EvaluationOutcome
  summary : Option String
  deriving DecidableEq

/-- A run is found by its invocation and attempt, which are unique together. -/
structure InvocationRun where
  attempt : Nat
  status : InvocationRunStatus
  outcome : Option String := none
  errorCode : Option String := none
  startedAt : Option Int
  finishedAt : Option Int := none
  evaluation : Option Evaluation := none
  deriving DecidableEq

/-- An invocation of a stored plan, and its runs in the order of their creation. -/
structure RuntimeInvocation where
  invocation : Invocation
  status : InvocationStatus := .pending
  runs : List InvocationRun := []
  deriving DecidableEq

def RuntimeInvocation.id (row : RuntimeInvocation) : String := row.invocation.id

/-- `runs[0]` of the runs by descending attempt. -/
def RuntimeInvocation.latestRun (row : RuntimeInvocation) : Option InvocationRun :=
  row.runs.argmax InvocationRun.attempt

structure RuntimePlan where
  goal : String := ""
  status : PlanStatus
  maxParallelism : Nat
  invocations : List RuntimeInvocation
  dependencies : List InvocationDependency

namespace RuntimePlan

/-- `definitionFromPersisted`. -/
def definition (plan : RuntimePlan) : ExecutionPlan where
  goal := plan.goal
  maxParallelism := plan.maxParallelism
  invocations := plan.invocations.map RuntimeInvocation.invocation
  dependencies := plan.dependencies

def find (plan : RuntimePlan) (id : String) : Option RuntimeInvocation :=
  Rows.find RuntimeInvocation.id id plan.invocations

def rewrite (plan : RuntimePlan) (f : RuntimeInvocation → RuntimeInvocation) : RuntimePlan :=
  { plan with invocations := plan.invocations.map f }

/-- `invocation.updateMany({ where: { id, status }, data: { status: next } })`. -/
def transition (plan : RuntimePlan) (id : String) (status next : InvocationStatus) : RuntimePlan :=
  plan.rewrite fun row =>
    if row.id = id ∧ row.status = status then { row with status := next } else row

/-- Whether that update counts one row. -/
def holds (plan : RuntimePlan) (id : String) (status : InvocationStatus) : Bool :=
  plan.invocations.any fun row => row.id = id ∧ row.status = status

def createRun (plan : RuntimePlan) (id : String) (run : InvocationRun) : RuntimePlan :=
  plan.rewrite fun row => if row.id = id then { row with runs := row.runs ++ [run] } else row

def updateRun (plan : RuntimePlan) (id : String) (attempt : Nat)
    (data : InvocationRun → InvocationRun) : RuntimePlan :=
  plan.rewrite fun row =>
    if row.id = id then
      { row with runs := row.runs.map fun run => if run.attempt = attempt then data run else run }
    else row

/-- `executionPlan.updateMany({ where: { status: expected }, data: { status: next } })`. -/
def transitionPlan (plan : RuntimePlan) (expected next : PlanStatus) : RuntimePlan :=
  if plan.status = expected then { plan with status := next } else plan

/-- The active invocations that `but` lets through become `CANCELED`. -/
def cancelActive (plan : RuntimePlan) (but : String → Bool := fun _ => false) : RuntimePlan :=
  plan.rewrite fun row =>
    if but row.id = false ∧ row.status ∈ ACTIVE_INVOCATION_STATUSES then
      { row with status := .canceled }
    else row

def runningCount (plan : RuntimePlan) : Nat :=
  plan.invocations.countP fun row => row.status = .running

end RuntimePlan

structure OrchestrationRuntimeOptions where
  maxAttempts : Nat := 3
  staleAfterMs : Int := 60000
  usageRecheckBaseMs : Int := 15000
  usageRecheckMaxMs : Int := 60000

def usageBackoffMs (attempt : Nat) (baseMs maxMs : Int) : Int :=
  let exponent := max 0 (min (attempt - 1) 8)
  min maxMs (baseMs * 2 ^ exponent)

def failPlan (plan : RuntimePlan) (failedInvocationId : String) : RuntimePlan :=
  (plan.transitionPlan .running .failed).cancelActive fun id => id = failedInvocationId

/-- The maps of `dispatchPlan`, what it has written so far and whether the pass
has changed anything. -/
structure Dispatching where
  stateById : String → Option InvocationStatus
  plan : RuntimePlan
  changed : Bool := false

/-- An update of one row that is also recorded in the map when it counts one. -/
def Dispatching.move (s : Dispatching) (id : String) (status next : InvocationStatus) : Dispatching :=
  if s.plan.holds id status then
    { stateById := Function.update s.stateById id (some next)
      plan := s.plan.transition id status next
      changed := true }
  else s

section Dispatch
variable (options : OrchestrationRuntimeOptions) (now : Int) (seen : RuntimePlan)

def recheckUsage (s : Dispatching) (row : RuntimeInvocation) : Dispatching :=
  if row.status ≠ .waitingForUsageCapacity ∧ row.status ≠ .blockedInsufficientUsage then s
  else
    match row.latestRun with
    | none => s
    | some latestRun =>
      match latestRun.finishedAt with
      | none => s
      | some finishedAt =>
        let retryAfterMs := usageBackoffMs latestRun.attempt options.usageRecheckBaseMs
          options.usageRecheckMaxMs
        if now - finishedAt < retryAfterMs then s else s.move row.id row.status .ready

def outcomeById (id : String) : Option String := do
  let row ← seen.find id
  let run ← row.latestRun
  run.outcome

def decideReadiness (row : RuntimeInvocation) (stateById : String → Option InvocationStatus) :
    ReadinessDecision :=
  let sourceStates := fun id => (stateById id).map fun status => ⟨status, outcomeById seen id⟩
  (decideDependencyReadiness row.invocation.joinPolicy (incoming seen.definition row.id)
    sourceStates).decision

def decideInvocation (s : Dispatching) (row : RuntimeInvocation) : Dispatching :=
  if s.stateById row.id ≠ some .pending then s
  else
    match decideReadiness seen row s.stateById with
    | .pending => s
    | decision => s.move row.id .pending (statusOf row.invocation.approvalPolicy decision)

def readinessPass (s : Dispatching) : Dispatching :=
  seen.invocations.foldl (decideInvocation seen) { s with changed := false }

/-- The loop over `pass`, which ends at a pass that changes nothing. -/
def readinessPasses : Nat → Dispatching → Dispatching
  | 0, s => s
  | passes + 1, s =>
    let s := readinessPass seen s
    if s.changed then readinessPasses passes s else s

/-- The statuses after the usage recheck and `passes <= invocations.length`. -/
def dispatching (cur : RuntimePlan) : Dispatching :=
  readinessPasses seen (seen.invocations.length + 1) <|
    seen.invocations.foldl (recheckUsage options now)
      { stateById := fun id => (seen.find id).map RuntimeInvocation.status, plan := cur }

/-- The new plan and the ids of the invocations to enqueue. -/
def dispatchPlan (cur : RuntimePlan) : RuntimePlan × List String :=
  if seen.status ≠ .running then (cur, [])
  else
    let s := dispatching options now seen cur
    let failPlanInvocation := seen.invocations.find? fun row =>
      s.stateById row.id = some .failed ∧ row.invocation.failurePolicy = .failPlan
    match failPlanInvocation with
    | some row => (failPlan s.plan row.id, [])
    | none =>
      let statuses := seen.invocations.filterMap fun row => s.stateById row.id
      if statuses.all isTerminalInvocationStatus then
        let terminalStatus :=
          if ∃ status ∈ statuses, status = .failed ∨ status = .canceled then .partially
          else .completed
        (s.plan.transitionPlan .running terminalStatus, [])
      else
        let running := statuses.count .running
        let ready := seen.invocations.filter fun row => s.stateById row.id = some .ready
        (s.plan, (ready.take (seen.maxParallelism - running)).map RuntimeInvocation.id)

end Dispatch

/-- The new plan and the attempt of the run created, or `none` where the claim
returns null. -/
def claimInvocation (now : Int) (seen cur : RuntimePlan) (invocationId : String) :
    Option (RuntimePlan × Nat) :=
  if seen.status ≠ .running then none
  else
    match seen.find invocationId with
    | none => none
    | some row =>
      if row.status ≠ .ready then none
      else if seen.runningCount ≥ seen.maxParallelism then none
      else
        let attempt := (row.latestRun.map InvocationRun.attempt).getD 0 + 1
        if cur.holds invocationId .ready then
          some ((cur.transition invocationId .ready .running).createRun invocationId
            { attempt := attempt, status := .running, startedAt := some now }, attempt)
        else none

inductive InvocationExecutionResult
  | completed (outcome : Option String)
  | waitingForUsageCapacity
  | blockedInsufficientUsage
  | failed (errorCode : String) (retryable : Bool)
  deriving DecidableEq

def RuntimePlan.findRun (plan : RuntimePlan) (invocationId : String) (attempt : Nat) :
    Option (RuntimeInvocation × InvocationRun) := do
  let row ← plan.find invocationId
  let run ← row.runs.find? fun run => run.attempt = attempt
  return (row, run)

/-- The run's row and then its invocation's, which must still be `RUNNING`. -/
def finish (cur : RuntimePlan) (invocationId : String) (attempt : Nat)
    (data : InvocationRun → InvocationRun) (next : InvocationStatus) : RuntimePlan :=
  (cur.updateRun invocationId attempt data).transition invocationId .running next

def InvocationRun.fail (now : Int) (errorCode : String) (run : InvocationRun) : InvocationRun :=
  { run with status := .failed, errorCode := some errorCode, finishedAt := some now }

/-- The end of a run that could not be paid for. -/
def InvocationRun.wait (now : Int) (status : InvocationRunStatus) (run : InvocationRun) : InvocationRun :=
  { run with
    status := status
    errorCode := some "BILLING_INSUFFICIENT_USAGE"
    finishedAt := some now }

/-- The end of a failed run: back to `READY` with attempts left. -/
def settleFailure (options : OrchestrationRuntimeOptions) (now : Int) (cur : RuntimePlan)
    (row : RuntimeInvocation) (attempt : Nat) (errorCode : String) (retryable : Bool) : RuntimePlan :=
  let data := InvocationRun.fail now errorCode
  if retryable ∧ attempt < options.maxAttempts then finish cur row.id attempt data .ready
  else
    let failed := finish cur row.id attempt data .failed
    if row.invocation.failurePolicy = .failPlan then failPlan failed row.id else failed

/-- What becomes of a run that ends after its invocation or its plan. -/
def InvocationRun.drop (now : Int) (run : InvocationRun) : InvocationRun :=
  { run with
    status := .canceled
    errorCode := some "INVOCATION_NO_LONGER_ACTIVE"
    finishedAt := some now }

def persistExecutionResult (options : OrchestrationRuntimeOptions) (now : Int) (seen cur : RuntimePlan)
    (invocationId : String) (attempt : Nat) (result : InvocationExecutionResult) : RuntimePlan :=
  match seen.findRun invocationId attempt with
  | none => cur
  | some (row, run) =>
    if run.status ≠ .running then cur
    else if seen.status ≠ .running ∨ row.status ≠ .running then
      cur.updateRun row.id attempt fun run => if run.status = .running then run.drop now else run
    else
      match result with
      | .waitingForUsageCapacity =>
        finish cur row.id attempt (InvocationRun.wait now .waitingForUsageCapacity)
          .waitingForUsageCapacity
      | .blockedInsufficientUsage =>
        finish cur row.id attempt (InvocationRun.wait now .blockedInsufficientUsage)
          .blockedInsufficientUsage
      | .completed outcome =>
        finish cur row.id attempt (fun run =>
          { run with status := .completed, outcome := outcome, finishedAt := some now }) .completed
      | .failed errorCode retryable => settleFailure options now cur row attempt errorCode retryable

def recoverStaleRun (options : OrchestrationRuntimeOptions) (now : Int) (seen cur : RuntimePlan)
    (invocationId : String) (attempt : Nat) : RuntimePlan :=
  match seen.findRun invocationId attempt with
  | none => cur
  | some (row, run) =>
    if run.status ≠ .running then cur
    else
      match run.startedAt with
      | none => cur
      | some startedAt =>
        if now - startedAt < options.staleAfterMs then cur
        else if seen.status ≠ .running ∨ row.status ≠ .running then
          cur.updateRun row.id attempt (InvocationRun.drop now)
        else settleFailure options now cur row attempt "WORKER_INTERRUPTED" true

/-!
# The API's transactions

`start`, `stop`, `approve` and `resolveHumanEvaluation` of
`apps/api/src/orchestration/orchestration.service.ts`, called by the plan's
owner. They read the plan (`seen`) without a lock and guard their writes with
the statuses they expect.
-/

inductive ServiceError
  | badRequest (message : String)
  | notFound (message : String)
  | conflict (message : String)

def start (seen cur : RuntimePlan) : Except ServiceError RuntimePlan :=
  if seen.status = .running then .ok cur
  else if seen.status ≠ .planned then
    .error (.conflict "Execution plan cannot be started from its current state")
  else
    match validateManualExecutionPlan seen.definition with
    | .error message => .error (.badRequest message)
    | .ok () =>
      if cur.status = .planned then
        .ok <| (cur.transitionPlan .planned .running).rewrite fun row =>
          if row.status = .pending then
            { row with status := initialInvocationStatus seen.definition row.invocation }
          else row
      else if cur.status = .running then .ok cur
      else .error (.conflict "Execution plan cannot be started from its current state")

/-- The plan statuses that `stop` writes over. -/
def isStoppable (status : PlanStatus) : Bool :=
  status ∈ [PlanStatus.planning, .planned, .running]

def stop (seen cur : RuntimePlan) : RuntimePlan :=
  if isTerminalPlanStatus seen.status then cur
  else
    let plan := if isStoppable cur.status then { cur with status := .canceled } else cur
    plan.cancelActive

def Invocation.isHumanEvaluator (invocation : Invocation) : Bool :=
  invocation.target = .evaluator ∧ invocation.approvalPolicy = .humanApproval

/-- The new plan and whether the call moved the invocation. -/
def approve (seen cur : RuntimePlan) (invocationId : String) :
    Except ServiceError (RuntimePlan × Bool) :=
  if seen.status ≠ .running then .error (.conflict "Execution plan is not running")
  else
    match seen.find invocationId with
    | none => .error (.notFound "Invocation not found")
    | some row =>
      if row.invocation.approvalPolicy = .auto then
        .error (.conflict "Invocation does not require approval")
      else if row.invocation.isHumanEvaluator then
        .error (.conflict "Human evaluator decisions must use the evaluation resolution endpoint")
      else if row.status = .waitingApproval then
        .ok (cur.transition invocationId .waitingApproval .ready,
          cur.holds invocationId .waitingApproval)
      else if row.status ≠ .ready ∧ row.status ≠ .running ∧ row.status ≠ .completed then
        .error (.conflict "Invocation is not awaiting approval")
      else .ok (cur, false)

structure ResolveHumanEvaluationRequest where
  outcome : EvaluationOutcome
  summary : Option String := none

def Evaluation.isDecision (evaluation : Evaluation) (input : ResolveHumanEvaluationRequest) : Bool :=
  evaluation.outcome = input.outcome ∧ evaluation.summary = input.summary

/-- The human evaluation an invocation was completed with. -/
def RuntimeInvocation.resolution (row : RuntimeInvocation) : Option Evaluation := do
  guard (row.status = .completed)
  let run ← row.latestRun
  let evaluation ← run.evaluation
  guard (evaluation.evaluatorKind = .humanApproval)
  return evaluation

/-- The run in which a human's decision is recorded. -/
def humanRun (now : Int) (latestRun : Option InvocationRun) (input : ResolveHumanEvaluationRequest) :
    InvocationRun where
  attempt := (latestRun.map InvocationRun.attempt).getD 0 + 1
  status := .completed
  outcome := some input.outcome.name
  startedAt := some now
  finishedAt := some now
  evaluation := some ⟨.humanApproval, input.outcome, input.summary⟩

def resolveHumanEvaluation (now : Int) (seen cur : RuntimePlan) (invocationId : String)
    (input : ResolveHumanEvaluationRequest) : Except ServiceError RuntimePlan :=
  match seen.find invocationId with
  | none => .error (.notFound "Invocation not found")
  | some row =>
    if row.invocation.isHumanEvaluator = false then
      .error (.conflict "Invocation is not a human evaluator")
    else
      match row.resolution with
      | some evaluation =>
        if evaluation.isDecision input then .ok cur
        else .error (.conflict "Human evaluation was already resolved with a different decision")
      | none =>
        let criteria := row.invocation.acceptanceCriteria
        let outputs := row.invocation.outputs
        if seen.status ≠ .running then .error (.conflict "Execution plan is not running")
        else if row.status ≠ .waitingApproval then
          .error (.conflict "Human evaluator is not awaiting a decision")
        else if criteria.length ≠ 1 ∨
            ∃ criterion ∈ criteria, criterion.mode ≠ .humanApproval ∨ criterion.binding ≠ none then
          .error (.conflict "Persisted human evaluator contract is invalid")
        else if outputs.length ≠ 1 ∨ (outputs.head?.map OutputDeclaration.artifactType) ≠ some .json then
          .error (.conflict "Persisted human evaluator output contract is invalid")
        else if cur.holds invocationId .waitingApproval = false then
          match (cur.find invocationId).bind RuntimeInvocation.resolution with
          | some evaluation =>
            if evaluation.isDecision input then .ok cur
            else .error (.conflict "Human evaluator decision was resolved concurrently")
          | none => .error (.conflict "Human evaluator decision was resolved concurrently")
        else
          let claimed := cur.transition invocationId .waitingApproval .running
          let recorded := claimed.createRun invocationId (humanRun now row.latestRun input)
          .ok (recorded.transition invocationId .running .completed)

end Vimla.Orchestration
