import Vimla.Lib.Rows
import Vimla.Orchestration.Graph

/-!
# What the checks of a graph ask for

Each check of `validateExecutionPlanGraph` before the sort as a property of
the plan, and that it passes exactly when the property holds.
-/

namespace Vimla.Orchestration

open List Function Checks

variable {bad : Prop} {code : GraphValidationCode} {message : String} {α : Type} {invocation : Invocation}
  {availableInputs : List String}

theorem rejectIf_ok [Decidable bad] : rejectIf bad code message = .ok () ↔ ¬ bad := by
  constructor
  · exact of_rejectIf
  · intro good
    rw [rejectIf, if_neg good]

variable {a : α}

/-- A check and what follows it. -/
theorem rejectIf_bind [Decidable bad] {next : Unit → Except GraphValidationError α} :
    (rejectIf bad code message >>= next) = .ok a ↔ ¬ bad ∧ next () = .ok a := by
  rw [check_bind, rejectIf_ok]

theorem nodup_snoc {β : Type} {f : α → β} {l : List α} (nd : (l.map f).Nodup) :
    ((l ++ [a]).map f).Nodup ↔ f a ∉ l.map f := by
  rw [map_append, nodup_append]
  constructor
  · rintro ⟨-, -, apart⟩ mem
    exact apart _ mem _ (mem_singleton_self _) rfl
  · intro fresh
    refine ⟨nd, nodup_singleton _, ?_⟩
    rintro b hb c hc rfl
    exact fresh (mem_singleton.1 hc ▸ hb)

theorem uniqueOutputs_ok {outputs : List OutputDeclaration} : uniqueOutputs invocation = .ok outputs ↔
      (invocation.outputs.map OutputDeclaration.name).Nodup ∧ outputs = invocation.outputs := by
  have fold := foldlM_nil_eq_ok (f := fun result output => do
      rejectIf (∃ o ∈ result, o.name = output.name) .duplicateOutput
        ("Invocation " ++ invocation.id ++ " declares output " ++ output.name ++ " more than once")
      return result ++ [output])
    id (fun done => (done.map OutputDeclaration.name).Nodup) (fun _ => True) ?_ ?_ nodup_nil
    invocation.outputs outputs
  · unfold uniqueOutputs
    simpa using fold
  · intro done rest nd
    rw [map_append] at nd
    exact (nodup_append.1 nd).1
  · intro done output result nd
    rw [rejectIf_bind, nodup_snoc nd]
    simp [pure, Except.pure, eq_comm]

theorem uniqueInvocations_eq_ok {rest byId result : List Invocation}
    (nd : (byId.map Invocation.id).Nodup) :
    uniqueInvocations rest byId = .ok result ↔ ((byId ++ rest).map Invocation.id).Nodup ∧
      (∀ i ∈ rest, (i.outputs.map OutputDeclaration.name).Nodup) ∧ result = byId ++ rest := by
  induction rest generalizing byId with
  | nil => simp [uniqueInvocations, nd, eq_comm]
  | cons invocation rest ih =>
    have snoc : byId ++ invocation :: rest = byId ++ [invocation] ++ rest := by simp
    unfold uniqueInvocations
    rw [rejectIf_bind, bind_eq_ok, snoc]
    constructor
    · rintro ⟨fresh, outputs, unique, tail⟩
      have nd' : ((byId ++ [invocation]).map Invocation.id).Nodup := by
        rw [nodup_snoc nd]
        simpa using fresh
      obtain ⟨ids, each, rfl⟩ := (ih nd').1 tail
      refine ⟨ids, fun i hi => ?_, rfl⟩
      obtain rfl | hi := mem_cons.1 hi
      · exact (uniqueOutputs_ok.1 unique).1
      · exact each i hi
    · rintro ⟨ids, each, rfl⟩
      have nd' : ((byId ++ [invocation]).map Invocation.id).Nodup := by
        rw [map_append] at ids
        exact (nodup_append.1 ids).1
      refine ⟨?_, _, uniqueOutputs_ok.2 ⟨each invocation mem_cons_self, rfl⟩, ?_⟩
      · simpa using (nodup_snoc nd).1 nd'
      · exact (ih nd').2 ⟨ids, fun i hi => each i (mem_cons_of_mem _ hi), rfl⟩

/-- The inputs that dependencies bind of an invocation. -/
def boundNames (dependencies : List InvocationDependency) (id : String) : List String :=
  (dependencies.filter fun d => d.toInvocationId = id).flatMap fun d =>
    d.inputBindings.map InputBinding.inputName

/-- A declared output of the expected type. -/
def Matches (outputs : List OutputDeclaration) (binding : InputBinding) : Prop :=
  ∃ o ∈ outputs, o.name = binding.sourceOutputName ∧ o.artifactType = binding.expectedArtifactType

/-- An outcome has a name, and an evaluator's is a verdict. -/
def OutcomeOk (source : Invocation) (condition : DependencyCondition) : Prop :=
  ∀ outcome, condition = .outcome outcome → isBlank outcome = false ∧
    (source.target = .evaluator → outcome = "PASS" ∨ outcome = "FAIL")

structure DependencyOk (invocations : List Invocation) (d : InvocationDependency) : Prop where
  source : ∃ source ∈ invocations, source.id = d.fromInvocationId ∧ OutcomeOk source d.condition ∧
    ∀ b ∈ d.inputBindings, Matches source.outputs b
  target : ∃ target ∈ invocations, target.id = d.toInvocationId
  apart : d.fromInvocationId ≠ d.toInvocationId
  data : d.condition = .data ↔ d.inputBindings ≠ []

/-- No id, edge or input is used twice. -/
structure Distinct (dependencies : List InvocationDependency) : Prop where
  ids : (dependencies.map InvocationDependency.id).Nodup
  keys : (dependencies.map edgeKey).Nodup
  inputs : ∀ id, (boundNames dependencies id).Nodup

theorem boundNames_append (done rest : List InvocationDependency) (id : String) :
    boundNames (done ++ rest) id = boundNames done id ++ boundNames rest id := by
  simp [boundNames]

theorem Distinct.shorter {done rest : List InvocationDependency} (h : Distinct (done ++ rest)) :
    Distinct done := by
  obtain ⟨ids, keys, inputs⟩ := h
  rw [map_append] at ids keys
  refine ⟨(nodup_append.1 ids).1, (nodup_append.1 keys).1, fun id => ?_⟩
  have := inputs id
  rw [boundNames_append] at this
  exact (nodup_append.1 this).1

/-- What has been recorded of the dependencies so far. -/
def recorded (done : List InvocationDependency) : DependencyChecks where
  dependencyIds := done.map InvocationDependency.id
  edgeKeys := done.map edgeKey
  boundInputs := boundNames done
  incoming := fun id => done.filter fun d => d.toInvocationId = id
  outgoing := fun id => done.filter fun d => d.fromInvocationId = id

section
variable {d : InvocationDependency} {outputs : List OutputDeclaration}
  (distinct : (outputs.map OutputDeclaration.name).Nodup)
include distinct

variable {inputs result : List String}

theorem checkBinding_ok {binding : InputBinding} : checkBinding d outputs inputs binding = .ok result ↔
      Matches outputs binding ∧ binding.inputName ∉ inputs ∧ result = inputs ++ [binding.inputName] := by
  unfold checkBinding
  rw [rejectIf_bind]
  cases hfind : outputs.find? fun o => o.name = binding.sourceOutputName with
  | none =>
    have missing : ¬ Matches outputs binding := by
      rintro ⟨o, mem, name, -⟩
      simpa [name] using find?_eq_none.1 hfind o mem
    simp [missing]
  | some output =>
    have name := find?_some hfind
    rw [decide_eq_true_eq] at name
    have mem := mem_of_find?_eq_some hfind
    have matches_iff : Matches outputs binding ↔ output.artifactType = binding.expectedArtifactType := by
      constructor
      · rintro ⟨o, mem', name', type⟩
        rwa [Rows.eq_of_key distinct mem mem' (name.trans name'.symm)]
      · exact fun type => ⟨output, mem, name, type⟩
    simp only [rejectIf_bind, matches_iff, pure, Except.pure, Except.ok.injEq, not_not]
    constructor
    · rintro ⟨fresh, type, rfl⟩
      exact ⟨type, fresh, rfl⟩
    · rintro ⟨type, fresh, rfl⟩
      exact ⟨fresh, type, rfl⟩

theorem checkBindings_ok {bindings : List InputBinding} (nd : inputs.Nodup) :
    bindings.foldlM (checkBinding d outputs) inputs = .ok result ↔
      (∀ b ∈ bindings, Matches outputs b) ∧ (inputs ++ bindings.map InputBinding.inputName).Nodup ∧
        result = inputs ++ bindings.map InputBinding.inputName := by
  have fold := foldlM_nil_eq_ok (f := checkBinding d outputs)
    (fun done => inputs ++ done.map InputBinding.inputName)
    (fun done => (inputs ++ done.map InputBinding.inputName).Nodup) (Matches outputs) ?_ ?_
    (by simpa using nd) bindings result
  · simpa using fold
  · intro done rest h
    rw [map_append, ← append_assoc] at h
    exact (nodup_append.1 h).1
  · intro done b r h
    rw [checkBinding_ok distinct]
    have := nodup_snoc (f := id) (l := inputs ++ done.map InputBinding.inputName) (a := b.inputName)
      (by simpa using h)
    simp only [map_id, id_eq] at this
    rw [map_append, ← append_assoc, map_singleton, this]

end

variable {d : InvocationDependency} {source : Invocation}

theorem checkOutcome_ok : checkOutcome source d = .ok () ↔ OutcomeOk source d.condition := by
  unfold checkOutcome OutcomeOk
  cases d.condition with
  | data | onSuccess | onFailure | always => simp
  | outcome name =>
    simp only [rejectIf_bind, rejectIf_ok, DependencyCondition.outcome.injEq]
    constructor
    · rintro ⟨named, verdict⟩ outcome rfl
      refine ⟨by simpa using named, fun evaluator => ?_⟩
      by_contra other
      rw [not_or] at other
      exact verdict ⟨evaluator, other⟩
    · intro h
      obtain ⟨named, verdict⟩ := h name rfl
      refine ⟨by simp [named], ?_⟩
      rintro ⟨evaluator, notPass, notFail⟩
      obtain pass | fail := verdict evaluator
      · exact notPass pass
      · exact notFail fail

theorem boundNames_singleton (d : InvocationDependency) (id : String) :
    boundNames [d] id =
      if d.toInvocationId = id then d.inputBindings.map InputBinding.inputName else [] := by
  by_cases into : d.toInvocationId = id <;> simp [boundNames, into]

variable {done : List InvocationDependency}

theorem Distinct.snoc (h : Distinct done) :
    Distinct (done ++ [d]) ↔ d.id ∉ done.map InvocationDependency.id ∧
      edgeKey d ∉ done.map edgeKey ∧
      (boundNames done d.toInvocationId ++ d.inputBindings.map InputBinding.inputName).Nodup := by
  have own : boundNames (done ++ [d]) d.toInvocationId =
      boundNames done d.toInvocationId ++ d.inputBindings.map InputBinding.inputName := by
    rw [boundNames_append, boundNames_singleton, if_pos rfl]
  constructor
  · rintro ⟨ids, keys, inputs⟩
    exact ⟨(nodup_snoc h.ids).1 ids, (nodup_snoc h.keys).1 keys, own ▸ inputs d.toInvocationId⟩
  · rintro ⟨id, key, inputs⟩
    refine ⟨(nodup_snoc h.ids).2 id, (nodup_snoc h.keys).2 key, fun target => ?_⟩
    by_cases into : d.toInvocationId = target
    · rw [← into, own]
      exact inputs
    · rw [boundNames_append, boundNames_singleton, if_neg into, append_nil]
      exact h.inputs target

theorem recorded_snoc (done : List InvocationDependency) (d : InvocationDependency) :
    recorded (done ++ [d]) = {
      dependencyIds := (recorded done).dependencyIds ++ [d.id]
      edgeKeys := (recorded done).edgeKeys ++ [edgeKey d]
      boundInputs := update (recorded done).boundInputs d.toInvocationId
        (boundNames done d.toInvocationId ++ d.inputBindings.map InputBinding.inputName)
      incoming := update (recorded done).incoming d.toInvocationId
        ((recorded done).incoming d.toInvocationId ++ [d])
      outgoing := update (recorded done).outgoing d.fromInvocationId
        ((recorded done).outgoing d.fromInvocationId ++ [d]) } := by
  unfold recorded
  congr 1
  · simp
  · simp
  · funext id
    rw [boundNames_append, boundNames_singleton, update_apply]
    by_cases into : id = d.toInvocationId
    · rw [if_pos into, if_pos into.symm, into]
    · rw [if_neg into, if_neg (Ne.symm into), append_nil]
  · funext id
    by_cases into : id = d.toInvocationId
    · simp [into]
    · simp [into, Ne.symm into]
  · funext id
    by_cases out : id = d.fromInvocationId
    · simp [out]
    · simp [out, Ne.symm out]

section Fold
variable {invocations : List Invocation} (ids : (invocations.map Invocation.id).Nodup)
  (outputs : ∀ i ∈ invocations, (i.outputs.map OutputDeclaration.name).Nodup)
include ids

variable {d : InvocationDependency} {checks : DependencyChecks}

theorem source_of_find
    (found : (invocations.find? fun i => i.id = d.fromInvocationId) = some source) {P : Invocation → Prop} :
    (∃ i ∈ invocations, i.id = d.fromInvocationId ∧ P i) ↔ P source := by
  have name := find?_some found
  rw [decide_eq_true_eq] at name
  have mem := mem_of_find?_eq_some found
  constructor
  · rintro ⟨i, mem', name', h⟩
    rwa [Rows.eq_of_key ids mem mem' (name.trans name'.symm)]
  · exact fun h => ⟨source, mem, name, h⟩

include outputs

/-- One dependency passes when it is in order and repeats nothing. -/
theorem checkDependency_ok (distinct : Distinct done) :
    checkDependency invocations (recorded done) d = .ok checks ↔
      DependencyOk invocations d ∧ Distinct (done ++ [d]) ∧ checks = recorded (done ++ [d]) := by
  unfold checkDependency
  rw [rejectIf_bind, distinct.snoc, recorded_snoc]
  cases found : invocations.find? fun i => i.id = d.fromInvocationId with
  | none =>
    constructor
    · rintro ⟨-, ⟨⟩⟩
    · rintro ⟨⟨⟨source, mem, name, -⟩, -⟩, -⟩
      simpa [name] using find?_eq_none.1 found source mem
  | some source =>
    have named := outputs source (mem_of_find?_eq_some found)
    simp only [check_bind, rejectIf_ok, checkOutcome_ok]
    simp only [bind_eq_ok,
      checkBindings_ok named (show (boundNames done d.toInvocationId).Nodup from distinct.inputs _),
      show (recorded done).boundInputs = boundNames done from rfl]
    constructor
    · rintro ⟨fresh, target, apart, key, outcome, bound, unbound, _, ⟨each, inputs, rfl⟩, ⟨⟩⟩
      refine ⟨⟨(source_of_find ids found).2 ⟨outcome, each⟩, not_not.1 target, apart, ?_⟩,
        ⟨fresh, key, inputs⟩, rfl⟩
      constructor
      · exact fun data none => bound ⟨data, none⟩
      · intro some
        by_contra other
        exact unbound ⟨other, some⟩
    · rintro ⟨⟨binds, target, apart, data⟩, ⟨fresh, key, inputs⟩, rfl⟩
      obtain ⟨outcome, each⟩ := (source_of_find ids found).1 binds
      refine ⟨fresh, not_not.2 target, apart, key, outcome, ?_, ?_, _, ⟨each, inputs, rfl⟩, rfl⟩
      · rintro ⟨kind, none⟩
        exact data.1 kind none
      · rintro ⟨other, some⟩
        exact other (data.2 some)

theorem checkDependencies_ok {dependencies : List InvocationDependency} :
    dependencies.foldlM (checkDependency invocations) {} = .ok checks ↔
      (∀ d ∈ dependencies, DependencyOk invocations d) ∧ Distinct dependencies ∧
        checks = recorded dependencies := by
  refine foldlM_nil_eq_ok recorded Distinct (DependencyOk invocations)
    (fun _ _ => Distinct.shorter) ?_ ⟨nodup_nil, nodup_nil, fun _ => nodup_nil⟩ _ _
  intro done d result distinct
  exact checkDependency_ok ids outputs distinct

end Fold

/-- A binding reads a bound input, by a pointer that is one. -/
def BindingOk (availableInputs : List String) (binding : DeterministicCriterionBinding) : Prop :=
  binding.inputName ∈ availableInputs ∧
    ∀ inputName path value, binding = .jsonEquals inputName path value → isValidJsonPointer path = true

/-- An evaluator whose criteria are all of one mode. -/
structure EvaluatorOk (availableInputs : List String) (invocation : Invocation)
    (mode : EvaluationMode) : Prop where
  output : ∃ o, invocation.outputs = [o] ∧ o.artifactType = .json
  criteria : invocation.acceptanceCriteria ≠ []
  ids : (invocation.acceptanceCriteria.map AcceptanceCriteria.id).Nodup
  modes : ∀ c ∈ invocation.acceptanceCriteria, c.mode = mode
  human : mode = .humanApproval → invocation.acceptanceCriteria.length = 1
  risk : invocation.riskClass = .readOnly
  policy : invocation.approvalPolicy = if mode = .humanApproval then .humanApproval else .auto
  bound : ∀ c ∈ invocation.acceptanceCriteria, c.binding ≠ none ↔ mode = .deterministic
  inputs : mode = .aiEvaluator → availableInputs ≠ []
  bindings : ∀ c ∈ invocation.acceptanceCriteria, ∀ b, c.binding = some b → BindingOk availableInputs b

theorem checkCriterionBinding_ok {criterion : AcceptanceCriteria} :
    checkCriterionBinding availableInputs criterion = .ok () ↔
      ∀ b, criterion.binding = some b → BindingOk availableInputs b := by
  unfold checkCriterionBinding BindingOk
  cases criterion.binding with
  | none => simp [bind, Except.bind]
  | some binding =>
    cases binding with
    | artifactExists inputName | textContains inputName _ _ =>
      simp [rejectIf_ok, check_bind]
    | jsonEquals inputName path value => simp [rejectIf_ok, check_bind, and_comm]

/-- One mode: the set of the modes has one element. -/
theorem dedup_length_eq_one [DecidableEq α] {l : List α} : (a :: l).dedup.length = 1 ↔ ∀ b ∈ a :: l, b = a := by
  constructor
  · intro one b hb
    obtain ⟨c, eq⟩ := length_eq_one_iff.1 one
    have only : ∀ x ∈ a :: l, x = c := by
      intro x hx
      rw [← mem_dedup, eq] at hx
      exact mem_singleton.1 hx
    rw [only b hb, only a mem_cons_self]
  · intro same
    have nd := nodup_dedup (a :: l)
    have members : ∀ b ∈ (a :: l).dedup, b = a := fun b hb => same b (mem_dedup.1 hb)
    have head : a ∈ (a :: l).dedup := mem_dedup.2 mem_cons_self
    cases hd : (a :: l).dedup with
    | nil =>
      rw [hd] at head
      cases head
    | cons x rest =>
      rw [hd] at nd members
      cases rest with
      | nil => rfl
      | cons y rest =>
        have : x = y := by rw [members x (by simp), members y (by simp)]
        simp [this] at nd

theorem criterionIds_ok {criteria : List AcceptanceCriteria} {ids : List String} :
    criteria.foldlM (fun ids criterion => do
      rejectIf (criterion.id ∈ ids) .invalidEvaluator
        ("Evaluator " ++ invocation.id ++ " declares duplicate acceptance criterion " ++ criterion.id)
      return ids ++ [criterion.id]) [] = .ok ids ↔
      (criteria.map AcceptanceCriteria.id).Nodup ∧ ids = criteria.map AcceptanceCriteria.id := by
  have fold := foldlM_nil_eq_ok (f := fun ids (criterion : AcceptanceCriteria) => do
      rejectIf (criterion.id ∈ ids) .invalidEvaluator
        ("Evaluator " ++ invocation.id ++ " declares duplicate acceptance criterion " ++ criterion.id)
      return ids ++ [criterion.id])
    (fun done => done.map AcceptanceCriteria.id) (fun done => (done.map AcceptanceCriteria.id).Nodup)
    (fun _ => True) ?_ ?_ nodup_nil criteria ids
  · simpa using fold
  · intro done rest nd
    rw [map_append] at nd
    exact (nodup_append.1 nd).1
  · intro done criterion result nd
    rw [rejectIf_bind, nodup_snoc nd]
    simp [pure, Except.pure, eq_comm]

theorem checkEvaluator_ok : checkEvaluator availableInputs invocation = .ok () ↔
      ∃ mode, EvaluatorOk availableInputs invocation mode := by
  unfold checkEvaluator
  simp only [check_bind, rejectIf_ok]
  rw [bind_eq_ok]
  simp only [check_bind, rejectIf_ok, criterionIds_ok, forM_eq_ok, checkCriterionBinding_ok]
  by_cases empty : invocation.acceptanceCriteria = []
  · constructor
    · rintro ⟨some, -⟩
      exact absurd (.inr (.inr empty)) some
    · rintro ⟨mode, ok⟩
      exact absurd empty ok.criteria
  obtain ⟨first, rest, hcriteria⟩ := exists_cons_of_ne_nil empty
  have member : first ∈ invocation.acceptanceCriteria := hcriteria ▸ mem_cons_self
  have head : invocation.acceptanceCriteria.head?.map AcceptanceCriteria.mode = some first.mode := by
    rw [hcriteria]
    rfl
  have one : (invocation.acceptanceCriteria.map AcceptanceCriteria.mode).dedup.length = 1 ↔
      ∀ c ∈ invocation.acceptanceCriteria, c.mode = first.mode := by
    rw [hcriteria, map_cons, dedup_length_eq_one]
    simp
  simp only [head, one, Option.some.injEq, not_or, not_not, not_and, not_exists, ne_eq]
  constructor
  · rintro ⟨⟨single, json, -⟩, _, ⟨ids, rfl⟩, modes, human, risk, ⟨approved, auto⟩, bound, unbound,
      inputs, bindings⟩
    obtain ⟨o, only⟩ := length_eq_one_iff.1 single
    rw [only, head?_cons, Option.map_some, Option.some.injEq] at json
    refine ⟨first.mode, ⟨o, only, json⟩, empty, ids, modes, human, risk, ?_, ?_, inputs, bindings⟩
    · split
      · exact approved ‹_›
      · exact auto ‹_›
    · intro c hc
      constructor
      · intro some
        by_contra other
        exact some (unbound other c hc)
      · exact fun mode => bound mode c hc
  · rintro ⟨mode, ok⟩
    obtain rfl : first.mode = mode := ok.modes first member
    obtain ⟨o, only, json⟩ := ok.output
    refine ⟨⟨by simp [only], by simp [only, json], empty⟩, _, ⟨ok.ids, rfl⟩, ok.modes, ok.human, ok.risk,
      ⟨fun human => ?_, fun other => ?_⟩, ?_, ?_, ok.inputs, ok.bindings⟩
    · rw [ok.policy, if_pos human]
    · rw [ok.policy, if_neg other]
    · exact fun mode c hc => (ok.bound c hc).2 mode
    · intro other c hc
      by_contra some
      exact other ((ok.bound c hc).1 some)

/-- A join of one edge waits for all of them. -/
theorem checkInvocation_ok {plan : ExecutionPlan} {boundInputs : String → List String} :
    checkInvocation plan boundInputs invocation = .ok () ↔
      (invocation.joinPolicy ≠ .allRequired → 2 ≤ (incoming plan invocation.id).length) ∧
      (invocation.target = .evaluator → ∃ mode, EvaluatorOk (boundInputs invocation.id) invocation mode) := by
  unfold checkInvocation
  rw [rejectIf_bind, not_and_not_right, ← not_lt, not_imp_not]
  split
  · rename_i evaluator
    simp [evaluator, checkEvaluator_ok]
  · rename_i other
    simp [other]

end Vimla.Orchestration
