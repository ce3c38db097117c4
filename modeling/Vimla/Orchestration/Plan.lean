import Vimla.Lib.Json

/-!
# Execution plans

The plan contract of `packages/orchestration`: `types.ts`, `targets.ts`,
`dependencies.ts` and `states.ts`. The schema version, always 1, is left out.
-/

namespace Vimla.Orchestration

inductive ArtifactType
  | text | prompt | document | code | image | plan | file | patch | json
  deriving DecidableEq

inductive EvaluationMode | deterministic | aiEvaluator | humanApproval
  deriving DecidableEq

inductive RiskClass | readOnly | internalWrite | externalSideEffect | destructive | financial
  deriving DecidableEq

inductive ApprovalPolicy | auto | userConfirmation | humanApproval
  deriving DecidableEq

inductive FailurePolicy | failPlan | continue
  deriving DecidableEq

inductive JoinPolicy | allRequired | anyRequired | allSettled
  deriving DecidableEq

inductive InvocationTarget
  | vimla
  | aiAuto
  | aiModel (modelSlug : String)
  | evaluator
  | agent (agentId : String)
  deriving DecidableEq

inductive DependencyCondition
  | data
  | onSuccess
  | onFailure
  | always
  | outcome (outcome : String)
  deriving DecidableEq

structure InputBinding where
  inputName : String
  sourceOutputName : String
  expectedArtifactType : ArtifactType
  deriving DecidableEq

structure OutputDeclaration where
  name : String
  artifactType : ArtifactType
  description : Option String := none
  deriving DecidableEq

inductive JsonPrimitive
  | null
  | boolean (value : Bool)
  | number (value : Js.Number)
  | string (value : String)
  deriving DecidableEq

inductive DeterministicCriterionBinding
  | artifactExists (inputName : String)
  | textContains (inputName value : String) (caseSensitive : Option Bool)
  | jsonEquals (inputName path : String) (expectedValue : JsonPrimitive)
  deriving DecidableEq

def DeterministicCriterionBinding.inputName : DeterministicCriterionBinding → String
  | artifactExists inputName | textContains inputName _ _ | jsonEquals inputName _ _ => inputName

structure AcceptanceCriteria where
  id : String
  description : String := ""
  mode : EvaluationMode
  binding : Option DeterministicCriterionBinding := none
  deriving DecidableEq

structure Invocation where
  id : String
  purpose : String := ""
  target : InvocationTarget
  outputs : List OutputDeclaration := []
  acceptanceCriteria : List AcceptanceCriteria := []
  riskClass : RiskClass := .readOnly
  approvalPolicy : ApprovalPolicy := .auto
  failurePolicy : FailurePolicy := .failPlan
  joinPolicy : JoinPolicy := .allRequired
  deriving DecidableEq

structure InvocationDependency where
  id : String
  fromInvocationId : String
  toInvocationId : String
  condition : DependencyCondition
  inputBindings : List InputBinding := []
  deriving DecidableEq

structure ExecutionPlan where
  goal : String := ""
  maxParallelism : Nat
  invocations : List Invocation
  dependencies : List InvocationDependency
  deriving DecidableEq

inductive PlanStatus
  | planning | planned | running | partially | completed | failed | canceled
  deriving DecidableEq

inductive InvocationStatus
  | pending | ready | running | waitingApproval | waitingForUsageCapacity
  | blockedInsufficientUsage | completed | failed | skipped | canceled
  deriving DecidableEq

def isTerminalPlanStatus : PlanStatus → Bool
  | .partially | .completed | .failed | .canceled => true
  | .planning | .planned | .running => false

def isTerminalInvocationStatus : InvocationStatus → Bool
  | .completed | .failed | .skipped | .canceled => true
  | .pending | .ready | .running | .waitingApproval | .waitingForUsageCapacity
  | .blockedInsufficientUsage => false

/-- The six statuses that are not terminal. -/
def ACTIVE_INVOCATION_STATUSES : List InvocationStatus :=
  [.pending, .ready, .running, .waitingApproval, .waitingForUsageCapacity, .blockedInsufficientUsage]

theorem mem_active_iff (status : InvocationStatus) :
    status ∈ ACTIVE_INVOCATION_STATUSES ↔ isTerminalInvocationStatus status = false := by
  cases status <;> decide

end Vimla.Orchestration
