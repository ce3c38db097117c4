import Vimla.Lib.Preference
import Vimla.Lib.Sorting
import Vimla.Orchestration.PlanSchema
import Vimla.Orchestration.Graph

/-!
# Canonical plans

`normalizeSemanticExecutionPlan` of `semantic-planner-compile.ts`: the
invocations in a stable topological order and numbered by it, and every list
sorted. The maps it builds are read off the plan where they are used.
-/

namespace Vimla.Orchestration

open Js

inductive SemanticPlannerErrorCode
  | outputInvalid | targetResolutionFailed | mentionConstraintViolation | graphInvalid
  deriving DecidableEq

structure SemanticPlannerError where
  code : SemanticPlannerErrorCode
  message : String
  deriving DecidableEq

/-- `s.padStart(2, "0")`. -/
def padStart (s : String) : String :=
  String.ofList (List.replicate (2 - length s) '0') ++ s

def stepId (index : Nat) : String := "step-" ++ padStart (toString (index + 1))

def edgeId (index : Nat) : String := "edge-" ++ padStart (toString (index + 1))

/-- `String.prototype.localeCompare`, and what is expected of it: a total
preorder of strings that tells graph keys apart and numbered ids by number. -/
structure Collation where
  localeCompare : String → String → Ordering
  trans : Std.TransCmp localeCompare
  keys : ∀ a b, GRAPH_KEY_PATTERN a = true → GRAPH_KEY_PATTERN b = true →
    localeCompare a b = .eq → a = b
  steps : ∀ i j, i < j → j < EXECUTION_PLAN_RUNTIME_LIMITS.maxInvocations →
    localeCompare (stepId i) (stepId j) = .lt

instance (collation : Collation) : Std.TransCmp collation.localeCompare := collation.trans

section Keys
open Js Js.Json

def EvaluationMode.name : EvaluationMode → String
  | .deterministic => "DETERMINISTIC"
  | .aiEvaluator => "AI_EVALUATOR"
  | .humanApproval => "HUMAN_APPROVAL"

def ApprovalPolicy.name : ApprovalPolicy → String
  | .auto => "AUTO"
  | .userConfirmation => "USER_CONFIRMATION"
  | .humanApproval => "HUMAN_APPROVAL"

def FailurePolicy.name : FailurePolicy → String
  | .failPlan => "FAIL_PLAN"
  | .continue => "CONTINUE"

def InvocationTarget.json : InvocationTarget → Json
  | .vimla => object [("kind", string "VIMLA")]
  | .aiAuto => object [("kind", string "AI_AUTO")]
  | .aiModel modelSlug => object [("kind", string "AI_MODEL"), ("modelSlug", string modelSlug)]
  | .evaluator => object [("kind", string "EVALUATOR")]
  | .agent agentId => object [("kind", string "AGENT"), ("agentId", string agentId)]

/-- A field that is left out when it is `undefined`. -/
def optional (key : String) : Option Json → List (String × Json)
  | none => []
  | some value => [(key, value)]

def OutputDeclaration.json (output : OutputDeclaration) : Json :=
  object ([("name", string output.name), ("artifactType", string output.artifactType.name)] ++
    optional "description" (output.description.map string))

def JsonPrimitive.json : JsonPrimitive → Json
  | .null => .null
  | .boolean value => .boolean value
  | .number value => .number value
  | .string value => .string value

def DeterministicCriterionBinding.json : DeterministicCriterionBinding → Json
  | .artifactExists inputName =>
    object [("kind", string "ARTIFACT_EXISTS"), ("inputName", string inputName)]
  | .textContains inputName value caseSensitive =>
    object ([("kind", string "TEXT_CONTAINS"), ("inputName", string inputName), ("value", string value)] ++
      optional "caseSensitive" (caseSensitive.map boolean))
  | .jsonEquals inputName path expectedValue =>
    object [("kind", string "JSON_EQUALS"), ("inputName", string inputName), ("path", string path),
      ("expectedValue", expectedValue.json)]

def AcceptanceCriteria.json (criterion : AcceptanceCriteria) : Json :=
  object ([("id", string criterion.id), ("description", string criterion.description),
    ("mode", string criterion.mode.name)] ++
    optional "binding" (criterion.binding.map DeterministicCriterionBinding.json))

end Keys

section Normalization
variable (localeCompare : String → String → Ordering)

def sortOutputs (outputs : List OutputDeclaration) : List OutputDeclaration :=
  sort (fun a b => localeCompare a.name b.name) outputs

def sortCriteria (criteria : List AcceptanceCriteria) : List AcceptanceCriteria :=
  sort (fun a b => localeCompare a.id b.id) criteria

def invocationSemanticSortKey (invocation : Invocation) : String :=
  Json.stringify (.object [
    ("purpose", .string (trim invocation.purpose)),
    ("target", invocation.target.json),
    ("outputs", .array ((sortOutputs localeCompare invocation.outputs).map OutputDeclaration.json)),
    ("acceptanceCriteria",
      .array ((sortCriteria localeCompare invocation.acceptanceCriteria).map AcceptanceCriteria.json)),
    ("riskClass", .string invocation.riskClass.name),
    ("approvalPolicy", .string invocation.approvalPolicy.name),
    ("failurePolicy", .string invocation.failurePolicy.name),
    ("joinPolicy", .string invocation.joinPolicy.name)])

def conditionSortKey : DependencyCondition → String
  | .data => "DATA"
  | .onSuccess => "ON_SUCCESS"
  | .onFailure => "ON_FAILURE"
  | .always => "ALWAYS"
  | .outcome outcome => "OUTCOME:" ++ outcome

/-- `invocationById.get(id)`: of two invocations with one id the later. -/
def invocationById (plan : ExecutionPlan) (id : String) : Option Invocation :=
  plan.invocations.reverse.find? fun i => i.id = id

def compareIds (plan : ExecutionPlan) (left right : String) : Ordering :=
  match invocationById plan left, invocationById plan right with
  | some leftInvocation, some rightInvocation =>
    (localeCompare (invocationSemanticSortKey localeCompare leftInvocation)
      (invocationSemanticSortKey localeCompare rightInvocation)).then (localeCompare left right)
  | _, _ => localeCompare left right

/-- The ids in the order of their first invocations. -/
def idSet (plan : ExecutionPlan) : List String := plan.ids.reverse.dedup.reverse

def outgoingIds (plan : ExecutionPlan) (id : String) : List String :=
  sort (compareIds localeCompare plan) (Kahn.successors plan.edges id)

/-- What the loop starts from. -/
def readyIds (plan : ExecutionPlan) : Kahn.State String Unit where
  indegree := fun id => plan.edges.countP fun e => e.2 = id
  rest := sort (compareIds localeCompare plan)
    ((idSet plan).filter fun id => (plan.edges.countP fun e => e.2 = id) = 0)
  order := []
  data := ()

/-- `while (ready.length > 0)`. An empty id ends the loop. -/
def orderLoop (plan : ExecutionPlan) : Nat → Kahn.State String Unit → Kahn.State String Unit
  | 0, s => s
  | turns + 1, s =>
    if s.rest.head? = some "" then s
    else orderLoop plan turns
      (Kahn.visitSorted (sort (compareIds localeCompare plan)) (outgoingIds localeCompare plan) s)

def stableTopologicalOrder (plan : ExecutionPlan) : Except SemanticPlannerError (List String) := do
  plan.dependencies.forM fun dependency =>
    if dependency.fromInvocationId ∉ plan.ids ∨ dependency.toInvocationId ∉ plan.ids then
      .error ⟨.graphInvalid, "Cannot normalize a graph with unknown invocation references"⟩
    else .ok ()
  let order := (orderLoop localeCompare plan (idSet plan).length (readyIds localeCompare plan)).order
  if order.length ≠ (idSet plan).length then
    .error ⟨.graphInvalid, "Execution graph must be acyclic"⟩
  else return order

def canonicalId (order : List String) (id : String) : Option String :=
  if id ∈ order then some (stepId (order.idxOf id)) else none

def requiredMappedId (order : List String) (original : String) : Except SemanticPlannerError String :=
  match canonicalId order original with
  | some value => .ok value
  | none => .error ⟨.graphInvalid, "Missing normalized id for " ++ original⟩

def normalizeInvocation (plan : ExecutionPlan) (order : List String) (originalId : String) :
    Except SemanticPlannerError Invocation :=
  match invocationById plan originalId with
  | none => .error ⟨.graphInvalid, "Missing invocation during normalization: " ++ originalId⟩
  | some invocation => do
    let id ← requiredMappedId order originalId
    return { invocation with
      id := id
      outputs := sortOutputs localeCompare invocation.outputs
      acceptanceCriteria := sortCriteria localeCompare invocation.acceptanceCriteria }

def compareBindings (a b : InputBinding) : Ordering :=
  (localeCompare a.inputName b.inputName).then (localeCompare a.sourceOutputName b.sourceOutputName)

def normalizeDependency (order : List String) (dependency : InvocationDependency) :
    Except SemanticPlannerError InvocationDependency := do
  let fromInvocationId ← requiredMappedId order dependency.fromInvocationId
  let toInvocationId ← requiredMappedId order dependency.toInvocationId
  return { dependency with
    fromInvocationId := fromInvocationId
    toInvocationId := toInvocationId
    inputBindings := sort (compareBindings localeCompare) dependency.inputBindings }

def compareDependencies (a b : InvocationDependency) : Ordering :=
  ((localeCompare a.fromInvocationId b.fromInvocationId).then
    (localeCompare a.toInvocationId b.toInvocationId)).then
    (localeCompare (conditionSortKey a.condition) (conditionSortKey b.condition))

def numberDependency (item : InvocationDependency × Nat) : InvocationDependency :=
  { item.1 with id := edgeId item.2 }

def normalizeSemanticExecutionPlan (plan : ExecutionPlan) : Except SemanticPlannerError ExecutionPlan := do
  let order ← stableTopologicalOrder localeCompare plan
  let invocations ← order.mapM (normalizeInvocation localeCompare plan order)
  let dependencies ← plan.dependencies.mapM (normalizeDependency localeCompare order)
  return {
    goal := trim plan.goal
    maxParallelism := plan.maxParallelism
    invocations := invocations
    dependencies := (sort (compareDependencies localeCompare) dependencies).zipIdx.map numberDependency }

end Normalization

end Vimla.Orchestration
