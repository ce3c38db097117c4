import Vimla.Lib.Checks
import Vimla.Lib.Kahn
import Vimla.Orchestration.Readiness

/-!
# Validating an execution graph

`validateExecutionPlanGraph` of `graph.ts`, check by check and with its
messages. The maps it builds are read off the plan again where they are used:
the invocation of an id, the dependencies into and out of an invocation.
-/

namespace Vimla.Orchestration

open List Function Checks Kahn

variable {plan : ExecutionPlan}

structure GraphLimits where
  maxInvocations : Nat
  maxDependencies : Nat
  maxDepth : Nat
  maxFanOut : Nat

def DEFAULT_GRAPH_LIMITS : GraphLimits := ⟨64, 256, 16, 16⟩

inductive GraphValidationCode
  | duplicateInvocation | duplicateDependency | unknownSource | unknownTarget | selfDependency
  | cycle | duplicateOutput | duplicateInput | missingSourceOutput | artifactTypeMismatch
  | invalidDataDependency | invalidConditionalBinding | invalidJoin | invalidOutcome
  | invalidEvaluator | invalidEvaluatorBinding | unreachableInvocation | graphLimitExceeded
  deriving DecidableEq

structure GraphValidationError where
  code : GraphValidationCode
  message : String

/-- `throw new GraphValidationError(code, message)` when `bad`. -/
def rejectIf (bad : Prop) [Decidable bad] (code : GraphValidationCode) (message : String) :
    Except GraphValidationError Unit :=
  if bad then .error ⟨code, message⟩ else .ok ()

def ArtifactType.name : ArtifactType → String
  | .text => "TEXT"
  | .prompt => "PROMPT"
  | .document => "DOCUMENT"
  | .code => "CODE"
  | .image => "IMAGE"
  | .plan => "PLAN"
  | .file => "FILE"
  | .patch => "PATCH"
  | .json => "JSON"

def JoinPolicy.name : JoinPolicy → String
  | .allRequired => "ALL_REQUIRED"
  | .anyRequired => "ANY_REQUIRED"
  | .allSettled => "ALL_SETTLED"

/-- The kind of a condition and the outcome it names, as an edge key writes them. -/
def DependencyCondition.key : DependencyCondition → String
  | .data => "DATA:"
  | .onSuccess => "ON_SUCCESS:"
  | .onFailure => "ON_FAILURE:"
  | .always => "ALWAYS:"
  | .outcome name => "OUTCOME:" ++ name

/-- What `String.prototype.trim` removes. -/
def isTrimmed (c : Char) : Bool :=
  c ∈ ['\t', '\n', '\x0b', '\x0c', '\r', ' ', '\u00a0', '\u1680', '\u2028', '\u2029', '\u202f',
    '\u205f', '\u3000', '\ufeff'] ∨ ('\u2000' ≤ c ∧ c ≤ '\u200a')

/-- `s.trim().length === 0`. -/
def isBlank (s : String) : Bool := s.toList.all isTrimmed

/-- No `~` without a `0` or `1` after it. -/
def isPointerToken : List Char → Bool
  | [] => true
  | ['~'] => false
  | c :: d :: rest => (c ≠ '~' ∨ d = '0' ∨ d = '1') ∧ isPointerToken (d :: rest)
  | [_] => true

def isValidJsonPointer (pointer : String) : Bool :=
  match pointer.toList with
  | [] => true
  | c :: path => c = '/' ∧ (path.splitOn '/').all isPointerToken

/-- The outputs by name. -/
def uniqueOutputs (invocation : Invocation) : Except GraphValidationError (List OutputDeclaration) :=
  invocation.outputs.foldlM (fun result output => do
    rejectIf (∃ o ∈ result, o.name = output.name) .duplicateOutput
      ("Invocation " ++ invocation.id ++ " declares output " ++ output.name ++ " more than once")
    return result ++ [output]) []

/-- The invocations by id. -/
def uniqueInvocations : List Invocation → List Invocation → Except GraphValidationError (List Invocation)
  | [], byId => .ok byId
  | invocation :: rest, byId => do
    rejectIf (∃ i ∈ byId, i.id = invocation.id) .duplicateInvocation
      ("Duplicate invocation id " ++ invocation.id)
    let _ ← uniqueOutputs invocation
    uniqueInvocations rest (byId ++ [invocation])

/-- What the dependencies checked so far have used up, and the lists they were
put into. -/
structure DependencyChecks where
  dependencyIds : List String := []
  edgeKeys : List String := []
  boundInputs : String → List String := fun _ => []
  incoming : String → List InvocationDependency := fun _ => []
  outgoing : String → List InvocationDependency := fun _ => []

def edgeKey (dependency : InvocationDependency) : String :=
  dependency.fromInvocationId ++ "->" ++ dependency.toInvocationId ++ ":" ++ dependency.condition.key

def checkBinding (dependency : InvocationDependency) (sourceOutputs : List OutputDeclaration)
    (targetInputs : List String) (binding : InputBinding) :
    Except GraphValidationError (List String) := do
  rejectIf (binding.inputName ∈ targetInputs) .duplicateInput
    ("Invocation " ++ dependency.toInvocationId ++ " binds input " ++ binding.inputName ++
      " more than once")
  match sourceOutputs.find? fun o => o.name = binding.sourceOutputName with
  | none => .error ⟨.missingSourceOutput, "Dependency " ++ dependency.id ++
      " references missing output " ++ binding.sourceOutputName⟩
  | some output => do
    rejectIf (output.artifactType ≠ binding.expectedArtifactType) .artifactTypeMismatch
      ("Dependency " ++ dependency.id ++ " expects " ++ binding.expectedArtifactType.name ++ " but " ++
        binding.sourceOutputName ++ " is " ++ output.artifactType.name)
    return targetInputs ++ [binding.inputName]

/-- An `OUTCOME` condition names an outcome, and an evaluator's is a verdict. -/
def checkOutcome (source : Invocation) (dependency : InvocationDependency) :
    Except GraphValidationError Unit :=
  match dependency.condition with
  | .outcome outcome => do
    rejectIf (isBlank outcome) .invalidOutcome
      ("Outcome dependency " ++ dependency.id ++ " must name an outcome")
    rejectIf (source.target = .evaluator ∧ outcome ≠ "PASS" ∧ outcome ≠ "FAIL") .invalidOutcome
      ("Evaluator outcome dependency " ++ dependency.id ++ " must use PASS or FAIL")
  | _ => .ok ()

def checkDependency (invocations : List Invocation) (checks : DependencyChecks)
    (dependency : InvocationDependency) : Except GraphValidationError DependencyChecks := do
  rejectIf (dependency.id ∈ checks.dependencyIds) .duplicateDependency
    ("Duplicate dependency id " ++ dependency.id)
  match invocations.find? fun i => i.id = dependency.fromInvocationId with
  | none => .error ⟨.unknownSource, "Unknown dependency source " ++ dependency.fromInvocationId⟩
  | some source => do
    rejectIf (¬ ∃ i ∈ invocations, i.id = dependency.toInvocationId) .unknownTarget
      ("Unknown dependency target " ++ dependency.toInvocationId)
    rejectIf (dependency.fromInvocationId = dependency.toInvocationId) .selfDependency
      ("Invocation " ++ dependency.fromInvocationId ++ " cannot depend on itself")
    rejectIf (edgeKey dependency ∈ checks.edgeKeys) .duplicateDependency
      ("Duplicate dependency " ++ edgeKey dependency)
    checkOutcome source dependency
    rejectIf (dependency.condition = .data ∧ dependency.inputBindings = []) .invalidDataDependency
      ("Data dependency " ++ dependency.id ++ " must bind at least one artifact")
    rejectIf (dependency.condition ≠ .data ∧ dependency.inputBindings ≠ []) .invalidConditionalBinding
      ("Only DATA dependencies may bind artifacts (" ++ dependency.id ++ ")")
    let targetInputs ← dependency.inputBindings.foldlM (checkBinding dependency source.outputs)
      (checks.boundInputs dependency.toInvocationId)
    return {
      dependencyIds := checks.dependencyIds ++ [dependency.id]
      edgeKeys := checks.edgeKeys ++ [edgeKey dependency]
      boundInputs := update checks.boundInputs dependency.toInvocationId targetInputs
      incoming := update checks.incoming dependency.toInvocationId
        (checks.incoming dependency.toInvocationId ++ [dependency])
      outgoing := update checks.outgoing dependency.fromInvocationId
        (checks.outgoing dependency.fromInvocationId ++ [dependency]) }

def incoming (plan : ExecutionPlan) (id : String) : List InvocationDependency :=
  plan.dependencies.filter fun d => d.toInvocationId = id

def outgoing (plan : ExecutionPlan) (id : String) : List InvocationDependency :=
  plan.dependencies.filter fun d => d.fromInvocationId = id

def checkCriterionBinding (availableInputs : List String) (criterion : AcceptanceCriteria) :
    Except GraphValidationError Unit := do
  match criterion.binding with
  | some (.jsonEquals _ path _) =>
    rejectIf (isValidJsonPointer path = false) .invalidEvaluatorBinding
      ("Evaluator criterion " ++ criterion.id ++ " contains an invalid JSON pointer")
  | _ => .ok ()
  match criterion.binding with
  | some binding =>
    rejectIf (binding.inputName ∉ availableInputs) .invalidEvaluatorBinding
      ("Evaluator criterion " ++ criterion.id ++ " references unbound input " ++ binding.inputName)
  | none => .ok ()

def checkEvaluator (availableInputs : List String) (invocation : Invocation) :
    Except GraphValidationError Unit := do
  let criteria := invocation.acceptanceCriteria
  rejectIf (invocation.outputs.length ≠ 1 ∨
      (invocation.outputs.head?.map OutputDeclaration.artifactType) ≠ some .json ∨ criteria = [])
    .invalidEvaluator ("Evaluator " ++ invocation.id ++
      " must declare one JSON output and at least one acceptance criterion")
  let _ ← criteria.foldlM (fun ids criterion => do
    rejectIf (criterion.id ∈ ids) .invalidEvaluator
      ("Evaluator " ++ invocation.id ++ " declares duplicate acceptance criterion " ++ criterion.id)
    return ids ++ [criterion.id]) []
  rejectIf ((criteria.map AcceptanceCriteria.mode).dedup.length ≠ 1) .invalidEvaluator
    ("Evaluator " ++ invocation.id ++ " cannot mix evaluation modes")
  let mode := criteria.head?.map AcceptanceCriteria.mode
  rejectIf (mode = some .humanApproval ∧ criteria.length ≠ 1) .invalidEvaluator
    ("Human evaluator " ++ invocation.id ++ " must declare exactly one acceptance criterion in v1")
  rejectIf (invocation.riskClass ≠ .readOnly) .invalidEvaluator
    ("Evaluator " ++ invocation.id ++ " must be read-only")
  rejectIf ((mode = some .humanApproval ∧ invocation.approvalPolicy ≠ .humanApproval) ∨
      (mode ≠ some .humanApproval ∧ invocation.approvalPolicy ≠ .auto)) .invalidEvaluator
    ("Evaluator " ++ invocation.id ++
      " uses an approval policy that does not match its evaluation mode")
  rejectIf (mode = some .deterministic ∧ ∃ c ∈ criteria, c.binding = none) .invalidEvaluator
    ("Deterministic evaluator " ++ invocation.id ++ " requires bindings for every criterion")
  rejectIf (mode ≠ some .deterministic ∧ ∃ c ∈ criteria, c.binding ≠ none) .invalidEvaluator
    ("Only deterministic evaluator " ++ invocation.id ++ " may declare deterministic bindings")
  rejectIf (mode = some .aiEvaluator ∧ availableInputs = []) .invalidEvaluatorBinding
    ("AI evaluator " ++ invocation.id ++ " requires at least one DATA artifact input")
  criteria.forM (checkCriterionBinding availableInputs)

def checkInvocation (plan : ExecutionPlan) (boundInputs : String → List String)
    (invocation : Invocation) : Except GraphValidationError Unit := do
  rejectIf ((incoming plan invocation.id).length < 2 ∧ invocation.joinPolicy ≠ .allRequired)
    .invalidJoin ("Invocation " ++ invocation.id ++ " uses " ++ invocation.joinPolicy.name ++
      " without a multi-edge join")
  if invocation.target = .evaluator then checkEvaluator (boundInputs invocation.id) invocation
  else .ok ()

def ExecutionPlan.edges (plan : ExecutionPlan) : List (String × String) :=
  plan.dependencies.map fun d => (d.fromInvocationId, d.toInvocationId)

def ExecutionPlan.ids (plan : ExecutionPlan) : List String := plan.invocations.map Invocation.id

/-- The depths when the queue is made: zero for what is in it. -/
def initialDepth (plan : ExecutionPlan) (id : String) : Option Nat :=
  if id ∈ plan.ids ∧ (plan.edges.countP fun e => e.2 = id) = 0 then some 0 else none

/-- `depth.set(next, Math.max(depth.get(next) ?? 0, currentDepth + 1))`. -/
def recordDepth (depths : String → Option Nat) (id : String) (depth : String → Option Nat)
    (next : String) : String → Option Nat :=
  let currentDepth := (depths id).getD 0
  update depth next (some (max ((depth next).getD 0) (currentDepth + 1)))

/-- The queue loop. Each turn takes one invocation, so there are at most as
many turns as invocations. -/
def topologicalSort (plan : ExecutionPlan) : State String (String → Option Nat) :=
  run (successors plan.edges) recordDepth plan.invocations.length
    (init plan.edges plan.ids (initialDepth plan))

def checkDepth (limits : GraphLimits) (depth : String → Option Nat) (invocation : Invocation) :
    Except GraphValidationError Unit :=
  match depth invocation.id with
  | none => .error ⟨.unreachableInvocation, "Invocation " ++ invocation.id ++ " is unreachable"⟩
  | some nodeDepth => rejectIf (nodeDepth > limits.maxDepth) .graphLimitExceeded
      ("Execution graph exceeds max depth " ++ toString limits.maxDepth)

structure NormalizedExecutionGraph where
  plan : ExecutionPlan
  incomingByInvocationId : String → List InvocationDependency
  outgoingByInvocationId : String → List InvocationDependency
  topologicalOrder : List String
  depthByInvocationId : String → Option Nat

def validateExecutionPlanGraph (plan : ExecutionPlan) (limits : GraphLimits := DEFAULT_GRAPH_LIMITS) :
    Except GraphValidationError NormalizedExecutionGraph := do
  rejectIf (plan.invocations.length > limits.maxInvocations ∨
      plan.dependencies.length > limits.maxDependencies) .graphLimitExceeded
    "Execution graph exceeds configured size limits"
  let invocations ← uniqueInvocations plan.invocations []
  let checks ← plan.dependencies.foldlM (checkDependency invocations) {}
  plan.invocations.forM fun invocation =>
    rejectIf ((outgoing plan invocation.id).length > limits.maxFanOut) .graphLimitExceeded
      ("Invocation " ++ invocation.id ++ " exceeds max fan-out " ++ toString limits.maxFanOut)
  plan.invocations.forM (checkInvocation plan checks.boundInputs)
  let sorted := topologicalSort plan
  rejectIf (sorted.order.length ≠ plan.invocations.length) .cycle "Execution graph must be acyclic"
  plan.invocations.forM (checkDepth limits sorted.data)
  return ⟨plan, checks.incoming, checks.outgoing, sorted.order, sorted.data⟩

/-- Ids are unique, dependencies join invocations of the plan, and the order
puts every invocation after those it depends on. -/
structure Sorted (plan : ExecutionPlan) (order : List String) : Prop where
  distinct : plan.ids.Nodup
  known : ∀ d ∈ plan.dependencies, d.fromInvocationId ∈ plan.ids ∧ d.toInvocationId ∈ plan.ids
  ordered : Ordered plan.edges order
  complete : ∀ id ∈ plan.ids, id ∈ order

theorem of_rejectIf {bad : Prop} [Decidable bad] {code : GraphValidationCode} {message : String}
    (h : rejectIf bad code message = .ok ()) : ¬ bad := by
  intro hbad
  rw [rejectIf, if_pos hbad] at h
  cases h

theorem uniqueInvocations_ok {rest byId result : List Invocation}
    (h : uniqueInvocations rest byId = .ok result) (distinct : (byId.map Invocation.id).Nodup) :
    result = byId ++ rest ∧ (result.map Invocation.id).Nodup := by
  induction rest generalizing byId with
  | nil =>
    cases h
    exact ⟨(append_nil _).symm, distinct⟩
  | cons invocation rest ih =>
    obtain ⟨_, fresh, h⟩ := of_bind h
    obtain ⟨_, _, h⟩ := of_bind h
    have fresh := of_rejectIf fresh
    have distinct' : ((byId ++ [invocation]).map Invocation.id).Nodup := by
      rw [map_append, map_cons, map_nil]
      refine nodup_append.2 ⟨distinct, nodup_singleton _, ?_⟩
      rintro a ha b hb rfl
      obtain ⟨i, hi, rfl⟩ := mem_map.1 ha
      exact fresh ⟨i, hi, mem_singleton.1 hb⟩
    obtain ⟨rfl, nodup⟩ := ih h distinct'
    exact ⟨append_assoc _ _ _, nodup⟩

theorem checkDependency_known {invocations : List Invocation} {checks checks' : DependencyChecks}
    {dependency : InvocationDependency}
    (h : checkDependency invocations checks dependency = .ok checks') :
    dependency.fromInvocationId ∈ invocations.map Invocation.id ∧
      dependency.toInvocationId ∈ invocations.map Invocation.id := by
  obtain ⟨_, _, h⟩ := of_bind h
  cases hfind : invocations.find? fun i => i.id = dependency.fromInvocationId with
  | none => rw [hfind] at h; cases h
  | some source =>
    rw [hfind] at h
    obtain ⟨_, target, _⟩ := of_bind h
    obtain ⟨i, hi, into⟩ := not_not.1 (of_rejectIf target)
    have out := find?_some hfind
    rw [decide_eq_true_eq] at out
    exact ⟨out ▸ mem_map_of_mem (mem_of_find?_eq_some hfind),
      into ▸ mem_map_of_mem hi⟩

section
variable {plan : ExecutionPlan} (distinct : plan.ids.Nodup)
  (known : ∀ d ∈ plan.dependencies, d.toInvocationId ∈ plan.ids)
include distinct known

theorem topologicalSort_sorted :
    Kahn.Sorted plan.edges plan.ids (topologicalSort plan) := by
  have closed : ∀ e ∈ plan.edges, e.2 ∈ plan.ids := by
    intro e he
    obtain ⟨d, hd, rfl⟩ := mem_map.1 he
    exact known d hd
  exact (init_sorted plan.edges distinct _).run closed recordDepth _

/-- The queue loop ends: it has run until the queue was empty. -/
theorem topologicalSort_exhausts :
    (topologicalSort plan).rest = [] := by
  have closed : ∀ e ∈ plan.edges, e.2 ∈ plan.ids := by
    intro e he
    obtain ⟨d, hd, rfl⟩ := mem_map.1 he
    exact known d hd
  apply run_exhausts (init_sorted plan.edges distinct _) closed recordDepth
  simp [init, ExecutionPlan.ids]

end

/-- An accepted graph is acyclic, and the result's order shows it. -/
theorem validateExecutionPlanGraph_sorted {limits : GraphLimits}
    {graph : NormalizedExecutionGraph} (h : validateExecutionPlanGraph plan limits = .ok graph) :
    Sorted plan graph.topologicalOrder := by
  obtain ⟨_, _, h⟩ := of_bind h
  obtain ⟨invocations, unique, h⟩ := of_bind h
  obtain ⟨checks, dependencies, h⟩ := of_bind h
  iterate 2 obtain ⟨_, _, h⟩ := of_bind h
  obtain ⟨_, acyclic, h⟩ := of_bind h
  obtain ⟨_, _, h⟩ := of_bind h
  cases h
  obtain ⟨rfl, distinct⟩ := uniqueInvocations_ok unique nodup_nil
  have known : ∀ d ∈ plan.dependencies,
      d.fromInvocationId ∈ plan.ids ∧ d.toInvocationId ∈ plan.ids :=
    of_foldlM (fun _ _ _ h => checkDependency_known h) dependencies
  have sorted := topologicalSort_sorted distinct fun d hd => (known d hd).2
  have length : (topologicalSort plan).order.length = plan.ids.length := by
    have := not_not.1 (of_rejectIf acyclic)
    rw [this, ExecutionPlan.ids, length_map]
  exact ⟨distinct, known, sorted.ordered, sorted.complete length⟩

/-!
# Validating a plan before it starts

`apps/api/src/orchestration/plan-validation.ts`, over the graph validation of
the package.
-/

def RiskClass.name : RiskClass → String
  | .readOnly => "READ_ONLY"
  | .internalWrite => "INTERNAL_WRITE"
  | .externalSideEffect => "EXTERNAL_SIDE_EFFECT"
  | .destructive => "DESTRUCTIVE"
  | .financial => "FINANCIAL"

/-- `invalid(message)` when `bad`. -/
def invalidIf (bad : Prop) [Decidable bad] (message : String) : Except String Unit :=
  if bad then .error message else .ok ()

def checkPolicies (invocation : Invocation) : Except String Unit := do
  invalidIf (invocation.approvalPolicy = .auto ∧
      (invocation.riskClass = .externalSideEffect ∨ invocation.riskClass = .destructive ∨
        invocation.riskClass = .financial))
    ("Invocation " ++ invocation.id ++ " requires explicit approval for risk class " ++
      invocation.riskClass.name)
  if invocation.target = .evaluator then do
    let mode := invocation.acceptanceCriteria.head?.map AcceptanceCriteria.mode
    invalidIf (invocation.riskClass ≠ .readOnly)
      ("Evaluator " ++ invocation.id ++ " must use READ_ONLY risk class")
    invalidIf (mode = some .humanApproval ∧ invocation.approvalPolicy ≠ .humanApproval)
      ("Human evaluator " ++ invocation.id ++ " requires HUMAN_APPROVAL policy")
    invalidIf (mode ≠ some .humanApproval ∧ invocation.approvalPolicy ≠ .auto)
      ("Automatic evaluator " ++ invocation.id ++ " must use AUTO approval policy")
  else .ok ()

def validateManualExecutionPlan (plan : ExecutionPlan) : Except String Unit :=
  match validateExecutionPlanGraph plan with
  | .error error => .error error.message
  | .ok _ => plan.invocations.forM checkPolicies

/-- The status of an invocation whose dependencies have been decided. -/
def statusOf (policy : ApprovalPolicy) : ReadinessDecision → InvocationStatus
  | .pending => .pending
  | .skipped => .skipped
  | .ready => if policy = .auto then .ready else .waitingApproval

/-- What `initialInvocationStatuses` maps an invocation to: every source is
still pending. -/
def initialInvocationStatus (plan : ExecutionPlan) (invocation : Invocation) : InvocationStatus :=
  let states := fun id => if id ∈ plan.ids then some { status := .pending } else none
  let readiness :=
    decideDependencyReadiness invocation.joinPolicy (incoming plan invocation.id) states
  statusOf invocation.approvalPolicy readiness.decision

theorem statusOf_ne {policy : ApprovalPolicy} {decision : ReadinessDecision} {status : InvocationStatus}
    (other : status ∉ [InvocationStatus.pending, .ready, .waitingApproval, .skipped]) :
    statusOf policy decision ≠ status :=
  fun same => other (same ▸ (by cases policy <;> cases decision <;> decide))

theorem validateManualExecutionPlan_graph (h : validateManualExecutionPlan plan = .ok ()) :
    ∃ graph, validateExecutionPlanGraph plan = .ok graph := by
  unfold validateManualExecutionPlan at h
  split at h
  · cases h
  · exact ⟨_, ‹_›⟩

end Vimla.Orchestration
