import Vimla.Lib.Checks
import Vimla.Orchestration.Plan

/-!
# The schema of execution plans

`plan-schema.ts` on a value that has the shape of a plan: what remains to be
checked are the texts, the numbers and the lengths. Texts come out trimmed.
-/

namespace Vimla.Orchestration

open List Checks Js

structure ExecutionPlanSchemaError where
  message : String
  path : String
  deriving DecidableEq

/-- What the class passes to `Error`. -/
def ExecutionPlanSchemaError.text (error : ExecutionPlanSchemaError) : String :=
  error.path ++ ": " ++ error.message

namespace EXECUTION_PLAN_RUNTIME_LIMITS

def idMax : Nat := 96
def goalMax : Nat := 4000
def purposeMax : Nat := 1000
def descriptionMax : Nat := 2000
def modelOrAgentMax : Nat := 128
def outcomeMax : Nat := 128
def jsonPointerMax : Nat := 512
def maxInvocations : Nat := 64
def maxDependencies : Nat := 256
def maxParallelism : Nat := 16
def maxOutputsPerInvocation : Nat := 32
def maxCriteriaPerInvocation : Nat := 32
def maxBindingsPerDependency : Nat := 32

end EXECUTION_PLAN_RUNTIME_LIMITS

open EXECUTION_PLAN_RUNTIME_LIMITS

/-- `/^[A-Za-z0-9._:-]+$/`. -/
def GRAPH_KEY_PATTERN (value : String) : Bool :=
  value.toList ≠ [] ∧ value.toList.all fun c => c.isAlphanum || c ∈ ['.', '_', ':', '-']

def parseBoundedString (input path : String) (maxLength : Nat) (allowEmpty : Bool := false)
    (trim : Bool := true) : Except ExecutionPlanSchemaError String :=
  let value := if trim then Js.trim input else input
  if (¬ allowEmpty ∧ length value = 0) ∨ length value > maxLength then
    .error ⟨"expected string with at most " ++ toString maxLength ++ " characters", path⟩
  else .ok value

def parseGraphKey (input path : String) : Except ExecutionPlanSchemaError String := do
  let value ← parseBoundedString input path idMax
  if GRAPH_KEY_PATTERN value then return value else .error ⟨"invalid graph key", path⟩

def parseArray {α β : Type} (input : List α) (parser : α → String → Except ExecutionPlanSchemaError β)
    (path : String) (maxLength : Nat) : Except ExecutionPlanSchemaError (List β) :=
  if input.length > maxLength then
    .error ⟨"expected at most " ++ toString maxLength ++ " items", path⟩
  else input.zipIdx.mapM fun item => parser item.1 (path ++ "[" ++ toString item.2 ++ "]")

def parseInvocationTarget (value : InvocationTarget) (path : String) :
    Except ExecutionPlanSchemaError InvocationTarget :=
  match value with
  | .vimla | .aiAuto | .evaluator => .ok value
  | .aiModel modelSlug => do
    return .aiModel (← parseBoundedString modelSlug (path ++ ".modelSlug") modelOrAgentMax)
  | .agent agentId => do
    return .agent (← parseBoundedString agentId (path ++ ".agentId") modelOrAgentMax)

def parseDependencyCondition (value : DependencyCondition) (path : String) :
    Except ExecutionPlanSchemaError DependencyCondition :=
  match value with
  | .data | .onSuccess | .onFailure | .always => .ok value
  | .outcome outcome => do
    return .outcome (← parseBoundedString outcome (path ++ ".outcome") outcomeMax)

def parseInputBinding (value : InputBinding) (path : String) :
    Except ExecutionPlanSchemaError InputBinding := do
  let inputName ← parseGraphKey value.inputName (path ++ ".inputName")
  let sourceOutputName ← parseGraphKey value.sourceOutputName (path ++ ".sourceOutputName")
  return ⟨inputName, sourceOutputName, value.expectedArtifactType⟩

def parseOutputDeclaration (value : OutputDeclaration) (path : String) :
    Except ExecutionPlanSchemaError OutputDeclaration := do
  let name ← parseGraphKey value.name (path ++ ".name")
  match value.description with
  | none => return ⟨name, value.artifactType, none⟩
  | some description =>
    let description ← parseBoundedString description (path ++ ".description") descriptionMax
    return ⟨name, value.artifactType, some description⟩

def parseJsonPrimitive (input : JsonPrimitive) (path : String) :
    Except ExecutionPlanSchemaError JsonPrimitive :=
  match input with
  | .null | .boolean _ => .ok input
  | .string value =>
    if length value ≤ descriptionMax then .ok input else .error ⟨"expected JSON primitive", path⟩
  | .number value => if value.finite then .ok input else .error ⟨"expected JSON primitive", path⟩

def parseDeterministicCriterionBinding (value : DeterministicCriterionBinding) (path : String) :
    Except ExecutionPlanSchemaError DeterministicCriterionBinding :=
  match value with
  | .artifactExists inputName => do
    return .artifactExists (← parseGraphKey inputName (path ++ ".inputName"))
  | .textContains inputName value caseSensitive => do
    let inputName ← parseGraphKey inputName (path ++ ".inputName")
    let value ← parseBoundedString value (path ++ ".value") descriptionMax
    return .textContains inputName value caseSensitive
  | .jsonEquals inputName pointer expectedValue => do
    let inputName ← parseGraphKey inputName (path ++ ".inputName")
    let pointer ← parseBoundedString pointer (path ++ ".path") jsonPointerMax true false
    let expectedValue ← parseJsonPrimitive expectedValue (path ++ ".expectedValue")
    return .jsonEquals inputName pointer expectedValue

def parseAcceptanceCriteria (value : AcceptanceCriteria) (path : String) :
    Except ExecutionPlanSchemaError AcceptanceCriteria := do
  let id ← parseGraphKey value.id (path ++ ".id")
  let description ← parseBoundedString value.description (path ++ ".description") descriptionMax
  match value.binding with
  | none => return ⟨id, description, value.mode, none⟩
  | some binding =>
    let binding ← parseDeterministicCriterionBinding binding (path ++ ".binding")
    return ⟨id, description, value.mode, some binding⟩

def parseInvocation (value : Invocation) (path : String) :
    Except ExecutionPlanSchemaError Invocation := do
  let id ← parseGraphKey value.id (path ++ ".id")
  let purpose ← parseBoundedString value.purpose (path ++ ".purpose") purposeMax
  let target ← parseInvocationTarget value.target (path ++ ".target")
  let outputs ← parseArray value.outputs parseOutputDeclaration (path ++ ".outputs")
    maxOutputsPerInvocation
  let acceptanceCriteria ← parseArray value.acceptanceCriteria parseAcceptanceCriteria
    (path ++ ".acceptanceCriteria") maxCriteriaPerInvocation
  return {
    id := id
    purpose := purpose
    target := target
    outputs := outputs
    acceptanceCriteria := acceptanceCriteria
    riskClass := value.riskClass
    approvalPolicy := value.approvalPolicy
    failurePolicy := value.failurePolicy
    joinPolicy := value.joinPolicy }

def parseInvocationDependency (value : InvocationDependency) (path : String) :
    Except ExecutionPlanSchemaError InvocationDependency := do
  let id ← parseGraphKey value.id (path ++ ".id")
  let fromInvocationId ← parseGraphKey value.fromInvocationId (path ++ ".fromInvocationId")
  let toInvocationId ← parseGraphKey value.toInvocationId (path ++ ".toInvocationId")
  let condition ← parseDependencyCondition value.condition (path ++ ".condition")
  let inputBindings ← parseArray value.inputBindings parseInputBinding (path ++ ".inputBindings")
    maxBindingsPerDependency
  return ⟨id, fromInvocationId, toInvocationId, condition, inputBindings⟩

def parseMaxParallelism (value : Nat) (path : String) : Except ExecutionPlanSchemaError Nat :=
  if value = 0 then .error ⟨"expected positive integer", path⟩
  else if value > EXECUTION_PLAN_RUNTIME_LIMITS.maxParallelism then
    .error ⟨"expected at most " ++ toString EXECUTION_PLAN_RUNTIME_LIMITS.maxParallelism, path⟩
  else .ok value

def parseExecutionPlanValue (value : ExecutionPlan) (path : String) :
    Except ExecutionPlanSchemaError ExecutionPlan := do
  let invocations ← parseArray value.invocations parseInvocation (path ++ ".invocations")
    EXECUTION_PLAN_RUNTIME_LIMITS.maxInvocations
  if invocations = [] then
    .error ⟨"expected at least one invocation", path ++ ".invocations"⟩
  else
    let goal ← parseBoundedString value.goal (path ++ ".goal") goalMax
    let maxParallelism ← parseMaxParallelism value.maxParallelism (path ++ ".maxParallelism")
    let dependencies ← parseArray value.dependencies parseInvocationDependency (path ++ ".dependencies")
      EXECUTION_PLAN_RUNTIME_LIMITS.maxDependencies
    return ⟨goal, maxParallelism, invocations, dependencies⟩

def parseExecutionPlan (input : ExecutionPlan) : Except ExecutionPlanSchemaError ExecutionPlan :=
  parseExecutionPlanValue input "$input"

variable {path : String} {input value : String} {maxLength : Nat}

theorem parseBoundedString_ok {allowEmpty trim : Bool}
    (h : parseBoundedString input path maxLength allowEmpty trim = .ok value) :
    value = if trim then Js.trim input else input := by
  unfold parseBoundedString at h
  by_cases bad : (¬ allowEmpty ∧ Js.length (if trim then Js.trim input else input) = 0) ∨
      Js.length (if trim then Js.trim input else input) > maxLength
  · rw [if_pos bad] at h
    cases h
  · rw [if_neg bad] at h
    exact (Except.ok.inj h).symm

theorem parseGraphKey_ok (h : parseGraphKey input path = .ok value) :
    value = trim input ∧ GRAPH_KEY_PATTERN value = true := by
  obtain ⟨trimmed, bounded, h⟩ := of_bind h
  split at h
  · cases h
    exact ⟨parseBoundedString_ok bounded, ‹_›⟩
  · cases h

theorem parseArray_ok {α β : Type} {input : List α} {parser : α → String → Except ExecutionPlanSchemaError β}
    {result : List β} (h : parseArray input parser path maxLength = .ok result) :
    input.length ≤ maxLength ∧ Forall₂ (fun a b => ∃ path, parser a path = .ok b) input result := by
  unfold parseArray at h
  split at h
  · cases h
  · refine ⟨Nat.le_of_not_lt ‹_›, ?_⟩
    have each : Forall₂ (fun (item : α × Nat) b => ∃ path, parser item.1 path = .ok b) input.zipIdx
        result := (mapM_eq_ok.1 h).imp fun _ _ passed => ⟨_, passed⟩
    have firsts : Forall₂ (fun a b => ∃ path, parser a path = .ok b) (input.zipIdx.map Prod.fst)
        result := forall₂_map_left_iff.2 each
    rwa [zipIdx_map_fst] at firsts

theorem parseOutputDeclaration_ok {value result : OutputDeclaration}
    (h : parseOutputDeclaration value path = .ok result) : GRAPH_KEY_PATTERN result.name = true := by
  obtain ⟨name, key, h⟩ := of_bind h
  have key := (parseGraphKey_ok key).2
  split at h
  · cases h
    exact key
  · obtain ⟨_, _, h⟩ := of_bind h
    cases h
    exact key

theorem parseAcceptanceCriteria_ok {value result : AcceptanceCriteria}
    (h : parseAcceptanceCriteria value path = .ok result) :
    GRAPH_KEY_PATTERN result.id = true ∧ result.mode = value.mode := by
  obtain ⟨id, key, h⟩ := of_bind h
  obtain ⟨_, _, h⟩ := of_bind h
  have key := (parseGraphKey_ok key).2
  split at h
  · cases h
    exact ⟨key, rfl⟩
  · obtain ⟨_, _, h⟩ := of_bind h
    cases h
    exact ⟨key, rfl⟩

theorem parseInputBinding_ok {value result : InputBinding} (h : parseInputBinding value path = .ok result) :
    GRAPH_KEY_PATTERN result.inputName = true := by
  obtain ⟨_, key, h⟩ := of_bind h
  obtain ⟨_, _, h⟩ := of_bind h
  cases h
  exact (parseGraphKey_ok key).2

/-- An invocation keeps its policies; its lists are parsed one by one. -/
theorem parseInvocation_ok {value result : Invocation} (h : parseInvocation value path = .ok result) :
    GRAPH_KEY_PATTERN result.id = true ∧ result.id = trim value.id ∧
      (∃ path, parseInvocationTarget value.target path = .ok result.target) ∧
      Forall₂ (fun a b => ∃ path, parseOutputDeclaration a path = .ok b) value.outputs result.outputs ∧
      Forall₂ (fun a b => ∃ path, parseAcceptanceCriteria a path = .ok b) value.acceptanceCriteria
        result.acceptanceCriteria ∧
      result.riskClass = value.riskClass ∧ result.approvalPolicy = value.approvalPolicy := by
  obtain ⟨id, key, h⟩ := of_bind h
  obtain ⟨_, _, h⟩ := of_bind h
  obtain ⟨target, parsed, h⟩ := of_bind h
  obtain ⟨outputs, listed, h⟩ := of_bind h
  obtain ⟨criteria, listed', h⟩ := of_bind h
  cases h
  exact ⟨(parseGraphKey_ok key).2, (parseGraphKey_ok key).1, ⟨_, parsed⟩, (parseArray_ok listed).2,
    (parseArray_ok listed').2, rfl, rfl⟩

theorem parseInvocationDependency_ok {value result : InvocationDependency}
    (h : parseInvocationDependency value path = .ok result) :
    Forall₂ (fun a b => ∃ path, parseInputBinding a path = .ok b) value.inputBindings
      result.inputBindings := by
  iterate 4 obtain ⟨_, _, h⟩ := of_bind h
  obtain ⟨bindings, listed, h⟩ := of_bind h
  cases h
  exact (parseArray_ok listed).2

theorem parseExecutionPlan_ok {value result : ExecutionPlan} (h : parseExecutionPlan value = .ok result) :
    value.invocations.length ≤ EXECUTION_PLAN_RUNTIME_LIMITS.maxInvocations ∧
      Forall₂ (fun a b => ∃ path, parseInvocation a path = .ok b) value.invocations
        result.invocations ∧
      Forall₂ (fun a b => ∃ path, parseInvocationDependency a path = .ok b) value.dependencies
        result.dependencies := by
  obtain ⟨invocations, listed, h⟩ := of_bind h
  split at h
  · cases h
  · obtain ⟨_, _, h⟩ := of_bind h
    obtain ⟨_, _, h⟩ := of_bind h
    obtain ⟨dependencies, listed', h⟩ := of_bind h
    cases h
    exact ⟨(parseArray_ok listed).1, (parseArray_ok listed).2, (parseArray_ok listed').2⟩

end Vimla.Orchestration
