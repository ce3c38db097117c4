import Vimla.Orchestration.CanonicalOrder

/-!
# From a planner's draft to a plan

`compileSemanticPlannerDraft` of `semantic-planner-compile.ts`, over the drafts
and mentions of `semantic-planner-contract.ts` and `planner-mentions.ts`, and
the policy of `semantic-plan-policy.ts`.
-/

namespace Vimla.Orchestration

open List Checks Kahn Js

/-- The characters and the shape that both handle schemas ask for. -/
def isHandle (maxLength : Nat) (separators : List Char) (value : String) : Bool :=
  let isAlphanumeric (c : Char) : Bool := c.isLower || c.isDigit
  let chars := value.toList
  3 ≤ chars.length ∧ chars.length ≤ maxLength ∧
    (chars.all fun c => isAlphanumeric c || c ∈ separators) ∧
    chars.head?.any isAlphanumeric ∧ chars.getLast?.any isAlphanumeric ∧
    (chars.zip chars.tail).all fun pair => ¬ (pair.1 ∈ separators ∧ pair.2 ∈ separators)

/-- `handleSchema` of `handles.ts`. -/
def handleSchema (value : String) : Bool := isHandle 32 ['.', '_'] value

/-- `aiModelHandleSchema` of `mentions.ts`. -/
def aiModelHandleSchema (value : String) : Bool := isHandle 128 ['.', '_', '-'] value

/-- A handle that a message mention may carry. -/
def structuredCanonicalHandleSchema (value : String) : Bool :=
  handleSchema value || aiModelHandleSchema value

abbrev CanonicalHandle := { value : String // structuredCanonicalHandleSchema value = true }

/-- The slug of a mentioned model is the canonical handle of the mention. -/
inductive PlannerMentionTarget
  | vimla
  | aiAuto
  | aiModel (modelId : String) (modelSlug : CanonicalHandle)

structure PlannerInvocationMention where
  occurrenceId : String
  target : PlannerMentionTarget

def invocationTargetForPlannerMention (mention : PlannerInvocationMention) : InvocationTarget :=
  match mention.target with
  | .vimla => .vimla
  | .aiAuto => .aiAuto
  | .aiModel _ modelSlug => .aiModel modelSlug

inductive PlannerMentionRole | execution | evaluation
  deriving DecidableEq

inductive SemanticPlannerTargetHint
  | mention (occurrenceId : String) (semanticRole : PlannerMentionRole)
  | evaluator

structure SemanticPlannerInvocationDraft where
  id : String
  purpose : String
  targetHint : SemanticPlannerTargetHint
  outputs : List OutputDeclaration := []
  acceptanceCriteria : List AcceptanceCriteria := []
  riskHint : RiskClass := .readOnly
  failurePolicy : FailurePolicy := .failPlan
  joinPolicy : JoinPolicy := .allRequired

inductive SemanticPlannerDraft
  | plan (confidence : Rat) (goal : String) (invocations : List SemanticPlannerInvocationDraft)
    (dependencies : List InvocationDependency)
  | clarify (confidence : Rat) (clarificationQuestion : String)

inductive SemanticWorkflowPlannerResult
  | plan (confidence : Rat) (plan : ExecutionPlan)
  | clarify (confidence : Rat) (clarificationQuestion : String)
  deriving DecidableEq

namespace SEMANTIC_PLANNER_LIMITS

def minPlanConfidence : Rat := 65 / 100
def defaultMaxParallelism : Nat := 4

end SEMANTIC_PLANNER_LIMITS

/-- The target of an invocation and the mentions consumed with it. -/
def resolveTarget (hint : SemanticPlannerTargetHint) (mentions : List PlannerInvocationMention)
    (consumedMentions : List String) : Except SemanticPlannerError (InvocationTarget × List String) :=
  match hint with
  | .evaluator => .ok (.evaluator, consumedMentions)
  | .mention occurrenceId semanticRole =>
    -- Of two mentions with one occurrence id the map holds the later.
    match mentions.reverse.find? fun m => m.occurrenceId = occurrenceId with
    | none => .error ⟨.targetResolutionFailed,
        "Planner referenced unknown mention occurrence " ++ occurrenceId⟩
    | some mention =>
      if occurrenceId ∈ consumedMentions then
        .error ⟨.mentionConstraintViolation,
          "Mention occurrence " ++ occurrenceId ++ " was consumed more than once"⟩
      else if semanticRole ≠ .execution then
        .error ⟨.mentionConstraintViolation,
          "Explicit executor mention " ++ occurrenceId ++ " cannot be substituted by an evaluator node"⟩
      else .ok (invocationTargetForPlannerMention mention, consumedMentions ++ [occurrenceId])

def compileInvocation (invocation : SemanticPlannerInvocationDraft) (target : InvocationTarget) :
    Invocation :=
  let evaluationMode := invocation.acceptanceCriteria.head?.map AcceptanceCriteria.mode
  { id := invocation.id
    purpose := invocation.purpose
    target := target
    outputs := invocation.outputs
    acceptanceCriteria := invocation.acceptanceCriteria
    riskClass := if target = .evaluator then .readOnly else invocation.riskHint
    approvalPolicy :=
      if target = .evaluator then
        if evaluationMode = some .humanApproval then .humanApproval else .auto
      else if target = .vimla ∨ invocation.riskHint ≠ .readOnly then .userConfirmation
      else .auto
    failurePolicy := invocation.failurePolicy
    joinPolicy := invocation.joinPolicy }

/-- The map over the drafts, with the set of consumed mentions. -/
def compileInvocations (mentions : List PlannerInvocationMention) :
    List SemanticPlannerInvocationDraft → List String →
      Except SemanticPlannerError (List Invocation × List String)
  | [], consumedMentions => .ok ([], consumedMentions)
  | invocation :: rest, consumedMentions => do
    let resolved ← resolveTarget invocation.targetHint mentions consumedMentions
    let compiled ← compileInvocations mentions rest resolved.2
    return (compileInvocation invocation resolved.1 :: compiled.1, compiled.2)

def validateGraph (plan : ExecutionPlan) : Except SemanticPlannerError Unit :=
  match validateExecutionPlanGraph plan with
  | .ok _ => .ok ()
  | .error error => .error ⟨.graphInvalid, error.message⟩

def checkConsumed (mentions : List PlannerInvocationMention) (consumedMentions : List String) :
    Except SemanticPlannerError Unit :=
  if consumedMentions.length ≠ mentions.length then
    let missing := (mentions.filter fun m => m.occurrenceId ∉ consumedMentions).map
      PlannerInvocationMention.occurrenceId
    .error ⟨.mentionConstraintViolation,
      "Planner ignored explicit executor mention(s): " ++ String.intercalate ", " missing⟩
  else .ok ()

def compileSemanticPlannerDraft (localeCompare : String → String → Ordering)
    (mentions : List PlannerInvocationMention) (draft : SemanticPlannerDraft) :
    Except SemanticPlannerError SemanticWorkflowPlannerResult :=
  match draft with
  | .clarify confidence clarificationQuestion => .ok (.clarify confidence clarificationQuestion)
  | .plan confidence goal invocations dependencies =>
    if confidence < SEMANTIC_PLANNER_LIMITS.minPlanConfidence then
      .ok (.clarify confidence "Could you clarify the intended workflow before I create it?")
    else do
      let compiled ← compileInvocations mentions invocations []
      let provisional : ExecutionPlan := {
        goal := trim goal
        maxParallelism := min SEMANTIC_PLANNER_LIMITS.defaultMaxParallelism (max 1 invocations.length)
        invocations := compiled.1
        dependencies := dependencies }
      checkConsumed mentions compiled.2
      validateGraph provisional
      let normalized ← normalizeSemanticExecutionPlan localeCompare provisional
      match parseExecutionPlan normalized with
      | .error error => .error ⟨.graphInvalid, error.text⟩
      | .ok parsed => do
        validateGraph parsed
        return .plan confidence parsed

inductive SemanticPlanPolicyErrorCode
  | targetNotExecutable | outputNotExecutable | sideEffectNotExecutable | evaluatorInvalid
  deriving DecidableEq

structure SemanticPlanPolicyError where
  code : SemanticPlanPolicyErrorCode
  message : String
  deriving DecidableEq

/-- `throw new SemanticPlanPolicyError(code, message)` when `bad`. -/
def denyIf (bad : Prop) [Decidable bad] (code : SemanticPlanPolicyErrorCode) (message : String) :
    Except SemanticPlanPolicyError Unit :=
  if bad then .error ⟨code, message⟩ else .ok ()

def SUPPORTED_AI_OUTPUT_TYPES : List ArtifactType := [.text, .prompt, .document, .code, .plan, .patch]

def applyExternalAiPolicy (invocation : Invocation) : Except SemanticPlanPolicyError Invocation := do
  denyIf (invocation.riskClass ≠ .readOnly) .sideEffectNotExecutable
    "External AI side effects are not enabled for semantic workflows"
  denyIf (invocation.outputs.length ≠ 1) .outputNotExecutable
    "External AI invocations must declare exactly one output"
  denyIf (¬ ∃ output ∈ invocation.outputs.head?, output.artifactType ∈ SUPPORTED_AI_OUTPUT_TYPES)
    .outputNotExecutable "The selected AI executor cannot emit this artifact type yet"
  return { invocation with riskClass := .readOnly, approvalPolicy := .auto }

def applyEvaluatorPolicy (invocation : Invocation) : Except SemanticPlanPolicyError Invocation := do
  denyIf (invocation.outputs.length ≠ 1 ∨
      (invocation.outputs.head?.map OutputDeclaration.artifactType) ≠ some .json) .outputNotExecutable
    "Evaluator invocations must declare exactly one JSON outcome artifact"
  denyIf (invocation.acceptanceCriteria = []) .evaluatorInvalid
    "Evaluator invocations require at least one acceptance criterion"
  denyIf ((invocation.acceptanceCriteria.map AcceptanceCriteria.mode).dedup.length ≠ 1) .evaluatorInvalid
    "One evaluator invocation cannot mix evaluation modes"
  let mode := invocation.acceptanceCriteria.head?.map AcceptanceCriteria.mode
  denyIf (mode = some .humanApproval ∧ invocation.acceptanceCriteria.length ≠ 1) .evaluatorInvalid
    "Human evaluator invocations require exactly one acceptance criterion in v1"
  denyIf (mode = some .deterministic ∧ ∃ c ∈ invocation.acceptanceCriteria, c.binding = none)
    .evaluatorInvalid "Deterministic evaluator criteria require explicit artifact bindings"
  denyIf (mode ≠ some .deterministic ∧ ∃ c ∈ invocation.acceptanceCriteria, c.binding ≠ none)
    .evaluatorInvalid "Only deterministic evaluator criteria may declare deterministic bindings"
  return { invocation with
    riskClass := .readOnly
    approvalPolicy := if mode = some .humanApproval then .humanApproval else .auto }

def applyInvocationPolicy (invocation : Invocation) : Except SemanticPlanPolicyError Invocation :=
  match invocation.target with
  | .vimla => do
    denyIf (invocation.outputs.length > 0) .outputNotExecutable
      "Vimla actions cannot declare workflow artifacts yet"
    return { invocation with riskClass := .internalWrite, approvalPolicy := .userConfirmation }
  | .aiAuto | .aiModel _ => applyExternalAiPolicy invocation
  | .evaluator => applyEvaluatorPolicy invocation
  | .agent _ => .error ⟨.targetNotExecutable, "Agent execution is not available"⟩

def applySemanticPlanExecutionPolicy (plan : ExecutionPlan) :
    Except SemanticPlanPolicyError ExecutionPlan := do
  let invocations ← plan.invocations.mapM applyInvocationPolicy
  return { plan with invocations := invocations }

/-!
# What a planner cannot change

The plan that comes out of a draft invokes each mentioned executor once, and
nothing else but evaluators; who has to approve what is decided by the policy.
-/

/-- A name that the sorts leave as it is. -/
theorem CanonicalHandle.trim_eq (handle : CanonicalHandle) : trim handle.1 = handle.1 := by
  obtain ⟨value, valid⟩ := handle
  apply trim_eq_self
  have solid (c : Char) (h : c.isLower = true ∨ c.isDigit = true ∨ c = '.' ∨ c = '_' ∨ c = '-') :
      isSpace c = false := by
    obtain lower | digit | rfl | rfl | rfl := h
    · have bounds : 97 ≤ c.toNat ∧ c.toNat ≤ 122 := by simpa [Char.isLower, UInt32.le_iff_toNat_le] using lower
      simp [isSpace]
      omega
    · have bounds : 48 ≤ c.toNat ∧ c.toNat ≤ 57 := by simpa [Char.isDigit, UInt32.le_iff_toNat_le] using digit
      simp [isSpace]
      omega
    all_goals decide
  intro c mem
  apply solid
  rw [structuredCanonicalHandleSchema, Bool.or_eq_true, handleSchema, aiModelHandleSchema] at valid
  simp only [isHandle, decide_eq_true_eq, all_eq_true, Bool.or_eq_true] at valid
  obtain ⟨-, -, each, -⟩ | ⟨-, -, each, -⟩ := valid
  · have := each c mem
    simp at this
    obtain (h | h) | h | h := this <;> simp [h]
  · simpa [or_assoc] using each c mem

theorem invocationTargetForPlannerMention_ne (mention : PlannerInvocationMention) :
    invocationTargetForPlannerMention mention ≠ .evaluator := by
  unfold invocationTargetForPlannerMention
  cases mention.target <;> simp

/-- Mentioned targets pass the schema unchanged. -/
theorem parseInvocationTarget_mention {mention : PlannerInvocationMention} {path : String}
    {result : InvocationTarget}
    (h : parseInvocationTarget (invocationTargetForPlannerMention mention) path = .ok result) :
    result = invocationTargetForPlannerMention mention := by
  unfold invocationTargetForPlannerMention at h ⊢
  cases target : mention.target with
  | vimla | aiAuto =>
    rw [target] at h
    cases h
    rfl
  | aiModel modelId modelSlug =>
    rw [target] at h
    obtain ⟨slug, parsed, h⟩ := of_bind h
    cases h
    rw [parseBoundedString_ok parsed, if_pos rfl, modelSlug.trim_eq]

/-- The targets that are not evaluators. -/
def executorTargets (invocations : List Invocation) : List InvocationTarget :=
  (invocations.map Invocation.target).filter fun target => target ≠ .evaluator

variable {i result : Invocation} {order : List String} {proposal : ExecutionPlan}

theorem mem_executorTargets {invocations : List Invocation} (mem : i ∈ invocations)
    (executor : i.target ≠ .evaluator) : i.target ∈ executorTargets invocations :=
  mem_filter.2 ⟨mem_map.2 ⟨i, mem, rfl⟩, by simpa using executor⟩

section Compilation
variable {mentions : List PlannerInvocationMention} {consumedMentions : List String}

theorem resolveTarget_ok {hint : SemanticPlannerTargetHint}
    {result : InvocationTarget × List String}
    (h : resolveTarget hint mentions consumedMentions = .ok result) :
    (result.1 = .evaluator ∧ result.2 = consumedMentions) ∨
      ∃ m ∈ mentions, m.occurrenceId ∉ consumedMentions ∧
        result.1 = invocationTargetForPlannerMention m ∧
        result.2 = consumedMentions ++ [m.occurrenceId] := by
  cases hint with
  | evaluator =>
    cases h
    exact .inl ⟨rfl, rfl⟩
  | mention occurrenceId semanticRole =>
    right
    simp only [resolveTarget] at h
    split at h
    · cases h
    · rename_i m found
      have same : m.occurrenceId = occurrenceId := by simpa using find?_some found
      subst same
      split at h
      · cases h
      · rename_i fresh
        split at h
        · cases h
        · cases h
          exact ⟨m, mem_reverse.1 (mem_of_find?_eq_some found), fresh, rfl, rfl⟩

variable {drafts : List SemanticPlannerInvocationDraft}

/-- Each target that is not an evaluator is that of a mention consumed for it. -/
theorem compileInvocations_ok {result : List Invocation × List String}
    (h : compileInvocations mentions drafts consumedMentions = .ok result) (distinct : consumedMentions.Nodup) :
    ∃ taken : List PlannerInvocationMention, (∀ m ∈ taken, m ∈ mentions) ∧
      result.2 = consumedMentions ++ taken.map PlannerInvocationMention.occurrenceId ∧
      result.2.Nodup ∧ executorTargets result.1 = taken.map invocationTargetForPlannerMention := by
  induction drafts generalizing consumedMentions result with
  | nil =>
    cases h
    exact ⟨[], by simp, by simp, distinct, rfl⟩
  | cons draft drafts ih =>
    obtain ⟨resolved, resolution, h⟩ := of_bind h
    obtain ⟨compiled, rest, h⟩ := of_bind h
    cases h
    obtain ⟨evaluator, same⟩ | ⟨m, mem, fresh, target, consumed⟩ := resolveTarget_ok resolution
    · rw [same] at rest
      obtain ⟨taken, known, later, once, targets⟩ := ih rest distinct
      refine ⟨taken, known, later, once, ?_⟩
      rw [← targets]
      simp [executorTargets, compileInvocation, evaluator]
    · rw [consumed] at rest
      obtain ⟨taken, known, later, once, targets⟩ := ih rest
        (nodup_append.2 ⟨distinct, nodup_singleton _, fun a ha b hb same =>
          fresh (mem_singleton.1 hb ▸ same ▸ ha)⟩)
      refine ⟨m :: taken, ?_, by simpa using later, once, ?_⟩
      · intro m' hm'
        obtain rfl | hm' := mem_cons.1 hm'
        · exact mem
        · exact known m' hm'
      · rw [map_cons, ← targets, ← target]
        have executor := invocationTargetForPlannerMention_ne m
        rw [← target] at executor
        simp [executorTargets, compileInvocation, executor]

/-- When all mentions are consumed the targets are theirs. -/
theorem executorTargets_compileInvocations {result : List Invocation × List String}
    (h : compileInvocations mentions drafts [] = .ok result) (all : checkConsumed mentions result.2 = .ok ()) :
    mentions.Nodup ∧
      (executorTargets result.1).Perm (mentions.map invocationTargetForPlannerMention) := by
  obtain ⟨taken, known, consumed, once, targets⟩ := compileInvocations_ok h nodup_nil
  rw [consumed] at once all
  have length : taken.length = mentions.length := by
    unfold checkConsumed at all
    split at all
    · cases all
    · rename_i whole
      simpa using whole
  have perm : taken.Perm mentions :=
    ((Nodup.of_map _ once).subperm known).perm_of_length_le length.ge
  rw [targets]
  exact ⟨perm.nodup_iff.1 (Nodup.of_map _ once), perm.map _⟩

end Compilation

variable {localeCompare : String → String → Ordering}

/-- Whatever the comparison, a stable order that is returned has all ids. -/
theorem stableTopologicalOrder_perm {plan : ExecutionPlan} (distinct : plan.ids.Nodup)
    (h : stableTopologicalOrder localeCompare plan = .ok order) : order.Perm plan.ids := by
  unfold stableTopologicalOrder at h
  rw [check_bind, forM_eq_ok, idSet_eq distinct] at h
  obtain ⟨endpoints, h⟩ := h
  have known : ∀ e ∈ plan.edges, e.2 ∈ plan.ids := by
    intro e he
    obtain ⟨d, hd, rfl⟩ := mem_map.1 he
    have passed := endpoints d hd
    by_contra unknown
    rw [if_pos (Or.inr unknown)] at passed
    cases passed
  have perm (l : List String) := sort_perm (compareIds localeCompare plan) l
  have start : Chosen (fun _ _ => True) plan.edges plan.ids (readyIds localeCompare plan) := by
    refine init_chosen plan.edges distinct rfl rfl ?_ (pairwise_of_forall fun _ _ => trivial)
    rw [readyIds, idSet_eq distinct]
    exact perm _
  have loop (turns : Nat) {s : State String Unit}
      (chosen : Chosen (fun _ _ => True) plan.edges plan.ids s) :
      Chosen (fun _ _ => True) plan.edges plan.ids (orderLoop localeCompare plan turns s) := by
    induction turns generalizing s with
    | zero => exact chosen
    | succ turns ih =>
      rw [orderLoop]
      split
      · exact chosen
      · exact ih (chosen.visit perm (fun l _ => pairwise_of_forall fun _ _ => trivial) known
          (fun _ => trivial) fun u => perm _)
  have last := (loop plan.ids.length start).preferred
  by_cases complete : (orderLoop localeCompare plan plan.ids.length (readyIds localeCompare plan)).order.length =
      plan.ids.length
  · cases (if_neg (not_not.2 complete)).symm.trans h
    exact (last.ordered.nodup.subperm last.known).perm_of_length_le complete.ge
  · cases (if_pos complete).symm.trans h

theorem normalizeInvocation_ok {plan : ExecutionPlan} {id : String}
    (h : normalizeInvocation localeCompare plan order id = .ok result) :
    ∃ i, invocationById plan id = some i ∧ result.target = i.target := by
  unfold normalizeInvocation at h
  split at h
  · cases h
  · rename_i i found
    obtain ⟨newId, -, h⟩ := of_bind h
    cases h
    exact ⟨i, found, rfl⟩

/-- A normalized plan has the invocations of the plan, renamed. -/
theorem normalizeSemanticExecutionPlan_targets {plan result : ExecutionPlan} (distinct : plan.ids.Nodup)
    (h : normalizeSemanticExecutionPlan localeCompare plan = .ok result) :
    (result.invocations.map Invocation.target).Perm (plan.invocations.map Invocation.target) := by
  obtain ⟨order, stable, h⟩ := of_bind h
  obtain ⟨invocations, listed, h⟩ := of_bind h
  obtain ⟨dependencies, -, h⟩ := of_bind h
  cases h
  let targetOf (id : String) : Option InvocationTarget := (invocationById plan id).map Invocation.target
  have each : Forall₂ (fun id i => some i.target = targetOf id) order invocations := by
    refine (mapM_eq_ok.1 listed).imp fun id i passed => ?_
    obtain ⟨j, found, same⟩ := normalizeInvocation_ok passed
    rw [same, show targetOf id = _ from congrArg (Option.map _) found, Option.map_some]
  have taken : (invocations.map Invocation.target).map some = order.map targetOf := by
    rw [map_map]
    exact Matched.images_eq each fun id i same => same
  have own : plan.ids.map targetOf = (plan.invocations.map Invocation.target).map some := by
    rw [ExecutionPlan.ids, map_map, map_map]
    apply map_congr_left
    intro i mem
    rw [Function.comp_apply, show targetOf i.id = _ from congrArg (Option.map _)
      (invocationById_of_mem distinct mem)]
    rfl
  have perm := (stableTopologicalOrder_perm distinct stable).map targetOf
  rw [← taken, own] at perm
  exact (map_perm_map_iff (Option.some_injective _)).1 perm

/-- Agents are not invoked, Vimla acts when the user confirms, and evaluators
and what starts by itself only read. -/
structure Authorized (i : Invocation) : Prop where
  evaluator : i.target = .evaluator → i.riskClass = .readOnly
  agent : ∀ agentId, i.target ≠ .agent agentId
  vimla : i.target = .vimla → i.approvalPolicy = .userConfirmation
  automatic : i.approvalPolicy = .auto → i.riskClass = .readOnly

theorem applyInvocationPolicy_ok (h : applyInvocationPolicy i = .ok result) :
    result.target = i.target ∧ Authorized result := by
  unfold applyInvocationPolicy at h
  cases target : i.target with
  | vimla =>
    simp only [target] at h
    obtain ⟨-, h⟩ := check_bind.1 h
    cases h
    exact ⟨rfl, by simp, by simp, by simp, by simp⟩
  | aiAuto | aiModel modelSlug =>
    simp only [target, applyExternalAiPolicy] at h
    iterate 3 obtain ⟨-, h⟩ := check_bind.1 h
    cases h
    exact ⟨rfl, by simp, by simp, by simp, by simp⟩
  | evaluator =>
    simp only [target, applyEvaluatorPolicy] at h
    iterate 6 obtain ⟨-, h⟩ := check_bind.1 h
    cases h
    exact ⟨rfl, by simp, by simp, by simp, by simp⟩
  | agent agentId =>
    simp only [target] at h
    cases h

theorem validateGraph_ids {plan : ExecutionPlan} (h : validateGraph plan = .ok ()) : plan.ids.Nodup := by
  unfold validateGraph at h
  split at h
  · rename_i graph valid
    exact (validateExecutionPlanGraph_ok.1 valid).1.ids
  · cases h

/-- A parsed plan has the targets of the plan when these are mentioned ones. -/
theorem parseExecutionPlan_targets {mentions : List PlannerInvocationMention} {plan result : ExecutionPlan}
    (h : parseExecutionPlan plan = .ok result)
    (mentioned : ∀ i ∈ plan.invocations, i.target ≠ .evaluator →
      ∃ m ∈ mentions, i.target = invocationTargetForPlannerMention m) :
    result.invocations.map Invocation.target = plan.invocations.map Invocation.target := by
  have each := (forall₂_and_left _ _).2 ⟨mentioned, (parseExecutionPlan_ok h).2.1⟩
  refine Matched.images_eq each ?_
  rintro i i' ⟨known, path, parsed⟩
  obtain ⟨-, -, ⟨path', target⟩, -⟩ := parseInvocation_ok parsed
  by_cases evaluator : i.target = .evaluator
  · rw [evaluator] at target
    exact (Except.ok.inj target).symm.trans evaluator.symm
  · obtain ⟨m, -, same⟩ := known evaluator
    rw [same] at target ⊢
    exact parseInvocationTarget_mention target

theorem compileSemanticPlannerDraft_ok {mentions : List PlannerInvocationMention} {draft : SemanticPlannerDraft}
    {confidence : Rat} (h : compileSemanticPlannerDraft localeCompare mentions draft =
      .ok (.plan confidence proposal)) : mentions.Nodup ∧
      (executorTargets proposal.invocations).Perm (mentions.map invocationTargetForPlannerMention) := by
  cases draft with
  | clarify => cases h
  | plan confidence' goal invocations dependencies =>
    by_cases unsure : confidence' < SEMANTIC_PLANNER_LIMITS.minPlanConfidence
    · cases (if_pos unsure).symm.trans h
    · replace h := (if_neg unsure).symm.trans h
      obtain ⟨compiled, compilation, h⟩ := of_bind h
      obtain ⟨all, h⟩ := check_bind.1 h
      obtain ⟨valid, h⟩ := check_bind.1 h
      obtain ⟨normalized, normalization, h⟩ := of_bind h
      have targets := normalizeSemanticExecutionPlan_targets (validateGraph_ids valid) normalization
      obtain ⟨distinct, perm⟩ := executorTargets_compileInvocations compilation all
      replace perm : (executorTargets normalized.invocations).Perm
        (mentions.map invocationTargetForPlannerMention) := (targets.filter _).trans perm
      cases parse : parseExecutionPlan normalized with
      | error error =>
        rw [parse] at h
        cases h
      | ok parsed =>
        rw [parse] at h
        obtain ⟨-, h⟩ := check_bind.1 h
        cases h
        refine ⟨distinct, ?_⟩
        rw [executorTargets, parseExecutionPlan_targets parse]
        · exact perm
        · intro i mem executor
          obtain ⟨m, hm, same⟩ := mem_map.1 (perm.mem_iff.1 (mem_executorTargets mem executor))
          exact ⟨m, hm, same.symm⟩

theorem applySemanticPlanExecutionPolicy_ok {plan : ExecutionPlan}
    (h : applySemanticPlanExecutionPolicy proposal = .ok plan) :
    plan.invocations.map Invocation.target = proposal.invocations.map Invocation.target ∧
      ∀ i ∈ plan.invocations, Authorized i := by
  obtain ⟨invocations, listed, h⟩ := of_bind h
  cases h
  have each := mapM_eq_ok.1 listed
  refine ⟨Matched.images_eq each fun i i' passed => (applyInvocationPolicy_ok passed).1, ?_⟩
  intro i mem
  obtain ⟨i', -, passed⟩ := Matched.left ⟨_, .refl _, each.flip⟩ mem
  exact (applyInvocationPolicy_ok passed).2

/-- What the planner's answer becomes invokes each mentioned executor exactly
once and otherwise only evaluators, under the server's policy. -/
theorem compiled_plan_authorized {localeCompare : String → String → Ordering}
    {mentions : List PlannerInvocationMention} {draft : SemanticPlannerDraft} {confidence : Rat}
    {proposal plan : ExecutionPlan}
    (compiled : compileSemanticPlannerDraft localeCompare mentions draft = .ok (.plan confidence proposal))
    (policy : applySemanticPlanExecutionPolicy proposal = .ok plan)
    (valid : validateManualExecutionPlan plan = .ok ()) :
    plan.ids.Nodup ∧
      (∃ e : {m // m ∈ mentions} ≃ {i // i ∈ plan.invocations ∧ i.target ≠ .evaluator},
        ∀ m, (e m).1.target = invocationTargetForPlannerMention m.1) ∧
      ∀ i ∈ plan.invocations, Authorized i := by
  obtain ⟨distinct, perm⟩ := compileSemanticPlannerDraft_ok compiled
  obtain ⟨kept, authorized⟩ := applySemanticPlanExecutionPolicy_ok policy
  obtain ⟨graph, checked⟩ := validateManualExecutionPlan_graph valid
  have ids : plan.ids.Nodup := (validateExecutionPlanGraph_ok.1 checked).1.ids
  rw [executorTargets, ← kept, filter_map] at perm
  have executors : (plan.invocations.filter fun i => i.target ≠ .evaluator).Nodup :=
    (Nodup.of_map _ ids).filter _
  obtain ⟨e, same⟩ := (Matched.of_map_perm perm.symm).equiv distinct executors
  refine ⟨ids, ⟨e.trans (Equiv.subtypeEquivRight fun i => by simp), fun m => same m⟩, authorized⟩

namespace Reviewed

def mentions : List PlannerInvocationMention :=
  [⟨"occurrence", .aiModel "model" ⟨"gpt-5", by decide⟩⟩]

/-- A text by the mentioned model and its review, which the planner calls financial. -/
def draft : SemanticPlannerDraft :=
  .plan 1 "Write and review" [
    { id := "review"
      purpose := "Review the text"
      targetHint := .evaluator
      outputs := [⟨"outcome", .json, none⟩]
      acceptanceCriteria := [{ id := "clear", description := "The text is clear", mode := .aiEvaluator }]
      riskHint := .financial },
    { id := "write"
      purpose := "Write the text"
      targetHint := .mention "occurrence" .execution
      outputs := [⟨"text", .text, none⟩] }]
    [⟨"edge", "write", "review", .data, [⟨"text", "text", .text⟩]⟩]

def plan : ExecutionPlan where
  goal := "Write and review"
  maxParallelism := 2
  invocations := [
    { id := "step-01"
      purpose := "Write the text"
      target := .aiModel "gpt-5"
      outputs := [⟨"text", .text, none⟩] },
    { id := "step-02"
      purpose := "Review the text"
      target := .evaluator
      outputs := [⟨"outcome", .json, none⟩]
      acceptanceCriteria := [{ id := "clear", description := "The text is clear", mode := .aiEvaluator }] }]
  dependencies := [⟨"edge-01", "step-01", "step-02", .data, [⟨"text", "text", .text⟩]⟩]

end Reviewed

theorem reviewed_plan_authorized :
    Reviewed.plan.ids.Nodup ∧
      (∃ e : {m // m ∈ Reviewed.mentions} ≃
          {i // i ∈ Reviewed.plan.invocations ∧ i.target ≠ .evaluator},
        ∀ m, (e m).1.target = invocationTargetForPlannerMention m.1) ∧
      ∀ i ∈ Reviewed.plan.invocations, Authorized i :=
  have compiled : compileSemanticPlannerDraft compare Reviewed.mentions Reviewed.draft =
      .ok (.plan 1 Reviewed.plan) := by decide +kernel
  compiled_plan_authorized compiled (by decide +kernel) (by decide +kernel)

end Vimla.Orchestration
