import Vimla.Operator.Confirmation
import Vimla.Orchestration.Runtime

/-!
# The executor of Vimla invocations

`VimlaInvocationExecutor.execute` for one invocation, statement by statement, in
any number of overlapping runs. The tool runs in the transaction that inserts its
`tool_execution` row, under READ COMMITTED: a statement sees the committed rows
and an insert waits for an uncommitted row of its key. A commit that reports an
error has not been applied.
-/

namespace Vimla.Orchestration

open Js (Json)
open Operator (OperatorRuntime OperatorToolName OperatorErrorCode OperatorError PlannerPlan PreparedStep)

inductive ToolExecutionStatus | RUNNING | COMPLETED
  deriving DecidableEq

inductive OperatorActionKind | task | reminder | note | list | notifications | profile | today
  deriving DecidableEq

/-- `kind.toUpperCase()`. -/
def OperatorActionKind.upper : OperatorActionKind → String
  | task => "TASK"
  | reminder => "REMINDER"
  | note => "NOTE"
  | list => "LIST"
  | notifications => "NOTIFICATIONS"
  | profile => "PROFILE"
  | today => "TODAY"

structure ToolHandlerResult where
  kind : OperatorActionKind
  objectId : Option String

structure ToolExecution where
  invocationRunId : String
  toolName : OperatorToolName
  idempotencyKey : String
  status : ToolExecutionStatus
  objectType : Option String
  objectId : Option String

def vimlaToolIdempotencyKey (invocationId : String) : String := "vimla-invocation:" ++ invocationId ++ ":tool:v1"

/-- The row of the invocation, whose target is Vimla. -/
structure VimlaInvocation where
  id : String
  riskClass : RiskClass
  approvalPolicy : ApprovalPolicy

def VimlaInvocation.key (invocation : VimlaInvocation) : String := vimlaToolIdempotencyKey invocation.id

/-- What a tool did to the workspace: run number `run` called it with these arguments. -/
structure Effect where
  run : Nat
  runId : String
  toolName : OperatorToolName
  args : Json
  result : ToolHandlerResult

/-- What the `try` of a run catches. -/
inductive Failure
  | planner (code : String) (retryable : Bool)
  | retryable
  | artifact
  | workspace (code : String)
  | notification (code : String)
  | operator (code : String)
  | uniqueConstraint
  | other

def Failure.ofOperator (e : OperatorError) : Failure :=
  match e.code with
  | .PLAN_INVALID => .operator "PLAN_INVALID"
  | .TOOL_DENIED => .operator "TOOL_DENIED"
  | .CONTEXT_REVOKED => .operator "CONTEXT_REVOKED"

def classifyVimlaExecutionError : Failure → InvocationExecutionResult
  | .planner code retryable => .failed code retryable
  | .retryable => .failed "VIMLA_TOOL_EXECUTION_RETRY" true
  | .artifact => .failed "VIMLA_ARTIFACT_CONTEXT_INVALID" false
  | .workspace code => .failed ("WORKSPACE_" ++ code) false
  | .notification code => .failed ("NOTIFICATION_" ++ code) false
  | .operator code => .failed ("OPERATOR_" ++ code) false
  | .uniqueConstraint | .other => .failed "VIMLA_EXECUTOR_ERROR" true

/-- What `executeStep` throws where the tool throws: its own errors, and one of
its kind for any other. -/
def Failure.ofTool : Failure → Failure
  | .workspace code => .workspace code
  | .notification code => .notification code
  | .operator code => .operator code
  | _ => .operator "VALIDATION_ERROR"

/-- What a run does once it has planned: it returns, or calls a tool. -/
inductive Resolution
  | returns (result : InvocationExecutionResult)
  | throws (error : Failure)
  | calls (step : PreparedStep)

def resolvePlan (op : OperatorRuntime) (invocation : VimlaInvocation) (planned : PlannerPlan) : Resolution :=
  match planned.intent with
  | .answer =>
    if invocation.riskClass ≠ .readOnly then .returns (.failed "VIMLA_ACTION_NOT_RESOLVED" false)
    else .returns (.completed (some "NO_ACTION"))
  | .clarify => .returns (.failed "VIMLA_CLARIFICATION_REQUIRED" false)
  | .refuse => .returns (.failed "VIMLA_REQUEST_REFUSED" false)
  | .act =>
    match Operator.prepareSteps op planned.commands .PERSONAL with
    | .error e => .throws (.ofOperator e)
    | .ok [step] =>
      if step.confirmationRequired ∧ invocation.approvalPolicy = .auto then
        .returns (.failed "VIMLA_CONFIRMATION_REQUIRED" false)
      else .calls step
    | .ok _ => .returns (.failed "VIMLA_INVOCATION_REQUIRES_SINGLE_TOOL" false)

/-- The statement that a run sends next. From `executing` on its row is inserted
and not committed. -/
inductive ExecutorStage
  | finding
  | checking
  | planning
  | replaying (step : PreparedStep)
  | creating (step : PreparedStep)
  | profiling (step : PreparedStep) (row : ToolExecution)
  | executing (step : PreparedStep) (row : ToolExecution)
  | completing (effect : Effect) (row : ToolExecution)
  | committing (effect : Effect) (row : ToolExecution)
  | rereading (error : Failure)
  | returned (result : InvocationExecutionResult)
  | threw
  | crashed

/-- The transaction has inserted its row. -/
def ExecutorStage.holds : ExecutorStage → Bool
  | .profiling _ _ | .executing _ _ | .completing _ _ | .committing _ _ => true
  | _ => false

structure ExecutorRun where
  runId : String
  stage : ExecutorStage

/-- The committed rows, the committed effects of tools and the runs. -/
structure ExecutorWorld where
  toolExecutions : List ToolExecution
  workspace : List Effect
  runs : List ExecutorRun

/-- What answers a statement. The profile, the snapshot, the artifacts and the
planner only read; they end with a plan or throw. -/
structure ExecutorAnswer where
  fails : Bool
  planned : Except Failure PlannerPlan
  userFound : Bool
  tool : Except Failure ToolHandlerResult

inductive ExecutorEvent
  | arrive (runId : String)
  | advance (me : Nat) (answer : ExecutorAnswer)
  | crash (me : Nat)

section Steps
variable (op : OperatorRuntime) (invocation : VimlaInvocation)

namespace ExecutorWorld

def start : ExecutorWorld := ⟨[], [], []⟩

variable (w : ExecutorWorld)

def findUnique (key : String) : Option ToolExecution := w.toolExecutions.find? (·.idempotencyKey = key)

/-- Another transaction has inserted the key and has not ended. -/
def waits (me : Nat) : Bool := w.runs.zipIdx.any fun (run, i) => i ≠ me && run.stage.holds

def moveTo (me : Nat) (stage : ExecutorStage) : ExecutorWorld :=
  { w with runs := w.runs.modify me fun run => { run with stage := stage } }

end ExecutorWorld

/-- What the `catch` of `executeToolExactlyOnce` does once the transaction is rolled back. -/
def rolledBack : Failure → ExecutorStage
  | .uniqueConstraint => .rereading .uniqueConstraint
  | error => .returned (classifyVimlaExecutionError error)

def runningRow (runId : String) (step : PreparedStep) : ToolExecution :=
  ⟨runId, step.toolName, invocation.key, .RUNNING, none, none⟩

def completedRow (row : ToolExecution) (result : ToolHandlerResult) : ToolExecution :=
  { row with status := .COMPLETED, objectType := some result.kind.upper, objectId := result.objectId }

/-- `executeStep`. -/
def callTool (me : Nat) (runId : String) (step : PreparedStep) (tool : Except Failure ToolHandlerResult) :
    Except Failure Effect :=
  match Operator.parseToolArgs op step.toolName step.args with
  | .error e => .error (.ofOperator e)
  | .ok args =>
    match tool with
    | .error e => .error e.ofTool
    | .ok result => .ok ⟨me, runId, step.toolName, args, result⟩

/-- The next stage of a run whose statement changes nothing that others see. -/
def nextStage (w : ExecutorWorld) (me : Nat) (runId : String) (a : ExecutorAnswer) : ExecutorStage → ExecutorStage
  | .finding => if a.fails then .threw else .checking
  | .checking =>
    if a.fails then .threw
    else
      match w.findUnique invocation.key with
      | none => .planning
      | some existing =>
        if existing.status = .COMPLETED then .returned (.completed (some "REPLAYED"))
        else .returned (.failed "VIMLA_TOOL_EXECUTION_IN_PROGRESS" true)
  | .planning =>
    match a.planned with
    | .error e => .returned (classifyVimlaExecutionError e)
    | .ok planned =>
      match resolvePlan op invocation planned with
      | .returns result => .returned result
      | .throws e => .returned (classifyVimlaExecutionError e)
      | .calls step => .replaying step
  | .replaying step =>
    if a.fails then rolledBack .other
    else
      match w.findUnique invocation.key with
      | none => .creating step
      | some replay => if replay.status = .COMPLETED then .returned (.completed (some "PASS")) else rolledBack .retryable
  | .creating step =>
    if w.waits me then .creating step
    else if a.fails then rolledBack .other
    else if w.toolExecutions.any fun row => row.idempotencyKey = invocation.key || row.invocationRunId = runId then
      rolledBack .uniqueConstraint
    else .profiling step (runningRow invocation runId step)
  | .profiling step row =>
    if a.fails then rolledBack .other
    else if a.userFound then .executing step row
    else rolledBack (.operator "NOT_FOUND")
  | .executing step row =>
    match callTool op me runId step a.tool with
    | .error e => rolledBack e
    | .ok effect => .completing effect row
  | .completing effect row => if a.fails then rolledBack .other else .committing effect (completedRow row effect.result)
  | .committing _ _ => if a.fails then rolledBack .other else .returned (.completed (some "PASS"))
  | .rereading error =>
    if a.fails then .returned (classifyVimlaExecutionError .other)
    else
      match w.findUnique invocation.key with
      | some replay =>
        if replay.status = .COMPLETED then .returned (.completed (some "PASS"))
        else .returned (classifyVimlaExecutionError error)
      | none => .returned (classifyVimlaExecutionError error)
  | stage => stage

/-- A commit makes the row and the tool's effect visible, together. -/
def commitOf (a : ExecutorAnswer) : ExecutorStage → List ToolExecution × List Effect
  | .committing effect row => if a.fails then ([], []) else ([row], [effect])
  | _ => ([], [])

def ExecutorWorld.step (w : ExecutorWorld) : ExecutorEvent → ExecutorWorld
  | .arrive runId => { w with runs := w.runs ++ [⟨runId, .finding⟩] }
  | .advance me a =>
    match w.runs[me]? with
    | none => w
    | some run =>
      let (rows, effects) := commitOf a run.stage
      { w.moveTo me (nextStage op invocation w me run.runId a run.stage) with
        toolExecutions := w.toolExecutions ++ rows
        workspace := w.workspace ++ effects }
  | .crash me =>
    match w.runs[me]? with
    | none => w
    | some run =>
      match run.stage with
      | .returned _ | .threw => w
      | _ => w.moveTo me .crashed

end Steps

end Vimla.Orchestration
