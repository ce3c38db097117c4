import Vimla.Orchestration.Unambiguous

/-!
# Normalization keeps the workflow

The canonical plan is the plan under the ids of its steps, with every list
sorted. The graph checks accept it when they accept the plan, its invocations
stand in a topological order, and normalizing it again changes nothing.
-/

namespace Vimla.Orchestration

open List Kahn Js

section Accepted
variable {f : String → String} {p q : ExecutionPlan} {limits : GraphLimits}

namespace InvocationRearranged
variable {i i' : Invocation} (r : InvocationRearranged f i i')
include r

theorem target : i'.target = i.target := (congrArg Invocation.target r.others :)

theorem joinPolicy : i'.joinPolicy = i.joinPolicy := (congrArg Invocation.joinPolicy r.others :)

theorem evaluatorOk {inputs inputs' : List String} (bound : inputs'.Perm inputs) {mode : EvaluationMode}
    (h : EvaluatorOk inputs i mode) : EvaluatorOk inputs' i' mode where
  output := by
    obtain ⟨o, only, json⟩ := h.output
    exact ⟨o, perm_singleton.1 (only ▸ r.outputs), json⟩
  criteria := fun none => h.criteria (nil_perm.1 (none ▸ r.acceptanceCriteria))
  ids := (r.acceptanceCriteria.map _).nodup_iff.2 h.ids
  modes := fun c hc => h.modes c (r.acceptanceCriteria.mem_iff.1 hc)
  human := fun human => r.acceptanceCriteria.length_eq.trans (h.human human)
  risk := (congrArg Invocation.riskClass r.others :).trans h.risk
  policy := (congrArg Invocation.approvalPolicy r.others :).trans h.policy
  bound := fun c hc => h.bound c (r.acceptanceCriteria.mem_iff.1 hc)
  inputs := fun model none => h.inputs model (nil_perm.1 (none ▸ bound))
  bindings := by
    intro c hc b given
    obtain ⟨known, pointer⟩ := h.bindings c (r.acceptanceCriteria.mem_iff.1 hc) b given
    exact ⟨bound.mem_iff.2 known, pointer⟩

end InvocationRearranged

namespace Rearranged
variable (r : Rearranged f p q)
include r

section
variable (known : ∀ d ∈ p.dependencies, d.fromInvocationId ∈ p.ids ∧ d.toInvocationId ∈ p.ids) {id : String}
  (mem : id ∈ p.ids)
include known mem

/-- The dependencies at one end, of an invocation and of its new name. -/
theorem endpoints :
    Matched (DependencyRearranged f) (outgoing p id) (outgoing q (f id)) ∧
      Matched (DependencyRearranged f) (incoming p id) (incoming q (f id)) := by
  have same {v : String} (hv : v ∈ p.ids) : f v = f id ↔ v = id :=
    ⟨fun same => r.injective hv mem same, fun same => same ▸ rfl⟩
  have matched := r.dependencies.mem
  constructor
  · refine (matched.filter fun d d' h => ?_).imp fun _ _ h => h.2
    rw [h.2.fromInvocationId, decide_eq_decide]
    exact same (known d h.1.1).1
  · refine (matched.filter fun d d' h => ?_).imp fun _ _ h => h.2
    rw [h.2.toInvocationId, decide_eq_decide]
    exact same (known d h.1.1).2

theorem boundNames_perm :
    (boundNames q.dependencies (f id)).Perm (boundNames p.dependencies id) :=
  (r.endpoints known mem).2.flatMap_perm fun _ _ h => h.inputBindings.map _

end

theorem dependencyOk (h : Checked p limits) {d d' : InvocationDependency} (mem : d ∈ p.dependencies)
    (renamed : DependencyRearranged f d d') : DependencyOk q.invocations d' := by
  obtain ⟨⟨source, hs, from_eq, outcome, outputs⟩, ⟨target, ht, to_eq⟩, apart, data⟩ := h.endpoints d mem
  obtain ⟨source', hs', rs⟩ := r.invocations.left hs
  obtain ⟨target', ht', rt⟩ := r.invocations.left ht
  have known := h.known mem
  refine ⟨⟨source', hs', ?_, ?_, ?_⟩, ⟨target', ht', ?_⟩, ?_, ?_⟩
  · rw [rs.id, from_eq, renamed.fromInvocationId]
  · intro verdict condition
    rw [renamed.condition] at condition
    rw [rs.target]
    exact outcome verdict condition
  · intro b hb
    obtain ⟨o, ho, matched⟩ := outputs b (renamed.inputBindings.mem_iff.1 hb)
    exact ⟨o, rs.outputs.mem_iff.2 ho, matched⟩
  · rw [rt.id, to_eq, renamed.toInvocationId]
  · intro same
    rw [renamed.fromInvocationId, renamed.toInvocationId] at same
    exact apart (r.injective known.1 known.2 same)
  · rw [renamed.condition, data, not_iff_not]
    constructor
    · exact fun none => perm_nil.1 (none ▸ renamed.inputBindings)
    · exact fun none => nil_perm.1 (none ▸ renamed.inputBindings)

/-- Edge keys are strings made of the ids, so that they stay apart is not a
matter of course. -/
theorem checked (h : Checked p limits) (keys : (q.dependencies.map edgeKey).Nodup) : Checked q limits where
  invocations := r.invocations.length_eq ▸ h.invocations
  dependencies := r.dependencies.length_eq ▸ h.dependencies
  ids := r.ids_nodup h.ids
  outputs := by
    intro i' mem
    obtain ⟨i, hi, ri⟩ := r.invocations.right mem
    exact (ri.outputs.map _).nodup_iff.2 (h.outputs i hi)
  endpoints := by
    intro d' mem
    obtain ⟨d, hd, rd⟩ := r.dependencies.right mem
    exact r.dependencyOk h hd rd
  distinct := by
    refine ⟨r.dependencyIds, keys, fun id => ?_⟩
    by_cases mem : id ∈ q.ids
    · obtain ⟨id, hid, rfl⟩ := r.mem_ids.1 mem
      exact (r.boundNames_perm (fun _ => h.known) hid).nodup_iff.2 (h.distinct.inputs id)
    · rw [boundNames, filter_eq_nil_iff.2, flatMap_nil]
      · exact nodup_nil
      · intro d' hd' into
        obtain ⟨d, hd, rd⟩ := r.dependencies.right hd'
        rw [decide_eq_true_eq, rd.toInvocationId] at into
        exact mem (r.mem_ids.2 ⟨d.toInvocationId, (h.known hd).2, into⟩)
  fanOut := by
    intro i' mem
    obtain ⟨i, hi, ri⟩ := r.invocations.right mem
    rw [ri.id, (r.endpoints (fun _ => h.known) (mem_map_of_mem hi)).1.length_eq]
    exact h.fanOut i hi
  joins := by
    intro i' mem policy
    obtain ⟨i, hi, ri⟩ := r.invocations.right mem
    rw [ri.joinPolicy] at policy
    rw [ri.id, (r.endpoints (fun _ => h.known) (mem_map_of_mem hi)).2.length_eq]
    exact h.joins i hi policy
  evaluators := by
    intro i' mem evaluator
    obtain ⟨i, hi, ri⟩ := r.invocations.right mem
    rw [ri.target] at evaluator
    obtain ⟨mode, ok⟩ := h.evaluators i hi evaluator
    rw [ri.id]
    exact ⟨mode, ri.evaluatorOk (r.boundNames_perm (fun _ => h.known) (mem_map_of_mem hi)) ok⟩

/-- A rearranged plan whose edge keys stay apart is accepted as well. -/
theorem accepted (h : Checked p limits) (acyclic : Acyclic p.edges)
    (short : ∀ u v n, Walk p.edges u v n → n ≤ limits.maxDepth)
    (keys : (q.dependencies.map edgeKey).Nodup) : ∃ graph, validateExecutionPlanGraph q limits = .ok graph := by
  apply (validateExecutionPlanGraph_spec q limits).2 (r.checked h keys) (r.acyclic h.closed acyclic)
  intro u' v' n walk
  cases n with
  | zero => exact Nat.zero_le _
  | succ n =>
    obtain ⟨w, -, edge⟩ := walk.last
    obtain ⟨e, he, same⟩ := r.mem_edges.1 edge
    cases same
    obtain ⟨u, -, -, old⟩ := r.walk_back h.closed walk (h.closed e he).2 rfl
    exact short u e.2 _ old

end Rearranged

/-- No walk of an accepted graph is too long. -/
theorem Validated.walk_le {graph : NormalizedExecutionGraph} (h : Validated p limits graph)
    (checked : Checked p limits) (u v : String) (n : Nat) (walk : Walk p.edges u v n) :
    n ≤ limits.maxDepth := by
  cases n with
  | zero => exact Nat.zero_le _
  | succ n =>
    obtain ⟨w, -, edge⟩ := walk.last
    obtain ⟨m, -, longest, le⟩ := h.depth v (checked.closed _ edge).2
    exact (longest.bound u _ walk).trans le

end Accepted

/-- Edges that stand at different places have different ids. -/
theorem edgeId_nodup : ((List.range' 0 99).map edgeId).Nodup := by decide +kernel

theorem stepId_length : ∀ i < EXECUTION_PLAN_RUNTIME_LIMITS.maxInvocations, (stepId i).length = 7 := by
  decide +kernel

theorem DependencyCondition.key_injective : Function.Injective DependencyCondition.key := by
  have start (name : String) : ("OUTCOME:" ++ name).toList.take 2 = ['O', 'U'] := by
    rw [String.toList_append]
    rfl
  intro a b same
  have chars := congrArg (fun key => key.toList.take 2) same
  cases a with
  | outcome name =>
    cases b with
    | outcome name' =>
      have tails := congrArg String.toList (show "OUTCOME:" ++ name = "OUTCOME:" ++ name' from same)
      rw [String.toList_append, String.toList_append] at tails
      rw [String.toList_inj.1 (append_cancel_left tails)]
    | data | onSuccess | onFailure | always =>
      simp only [DependencyCondition.key, start] at chars
      exact absurd chars (by decide)
  | data | onSuccess | onFailure | always =>
    cases b with
    | outcome name' =>
      simp only [DependencyCondition.key, start] at chars
      exact absurd chars (by decide)
    | data | onSuccess | onFailure | always => first | rfl | exact absurd same (by decide)

/-- Between ids of one length an edge key can be read back. -/
theorem edgeKey_injective {d e : InvocationDependency}
    (source : d.fromInvocationId.length = e.fromInvocationId.length)
    (target : d.toInvocationId.length = e.toInvocationId.length) (same : edgeKey d = edgeKey e) :
    d.fromInvocationId = e.fromInvocationId ∧ d.toInvocationId = e.toInvocationId ∧
      d.condition = e.condition := by
  have chars := congrArg String.toList same
  simp only [edgeKey, String.toList_append, append_assoc] at chars
  obtain ⟨sources, chars⟩ := append_inj chars source
  obtain ⟨targets, chars⟩ := append_inj (append_cancel_left chars) target
  exact ⟨String.toList_inj.1 sources, String.toList_inj.1 targets,
    DependencyCondition.key_injective (String.toList_inj.1 (append_cancel_left chars))⟩

section Canonical
variable {collation : Collation} {p : ExecutionPlan} {limits : GraphLimits} {order : List String}

/-- The plan with its goal as the canonical plan has it. -/
def trimmed (plan : ExecutionPlan) : ExecutionPlan := { plan with goal := trim plan.goal }

theorem Checked.trimmed (h : Checked p limits) : Checked (trimmed p) limits :=
  ⟨h.invocations, h.dependencies, h.ids, h.outputs, h.endpoints, h.distinct, h.fanOut, h.joins, h.evaluators⟩

def stepOf (order : List String) (id : String) : String := stepId (order.idxOf id)

theorem canonical_dependencyIds (few : p.dependencies.length ≤ 99) :
    ((canonicalPlan collation p order).dependencies.map InvocationDependency.id).Nodup := by
  have numbered (l : List InvocationDependency) :
      (l.zipIdx.map numberDependency).map InvocationDependency.id = (range' 0 l.length).map edgeId := by
    rw [← zipIdx_map_snd 0 l, map_map, map_map]
    rfl
  rw [canonicalPlan, numbered, (sort_perm _ _).length_eq, length_map]
  exact edgeId_nodup.sublist ((range'_sublist_right.2 few).map edgeId)

theorem canonical_rearranged (checked : Checked p limits) (perm : order.Perm p.ids)
    (steps : p.ids.length ≤ EXECUTION_PLAN_RUNTIME_LIMITS.maxInvocations)
    (few : p.dependencies.length ≤ 99) :
    Rearranged (stepOf order) (trimmed p) (canonicalPlan collation p order) where
  goal := rfl
  maxParallelism := rfl
  injective := step_injOn perm collation steps
  keys := fun _ mem => stepId_key _ (idxOf_lt perm steps mem)
  invocations := by
    have forms : Matched (InvocationRearranged (stepOf order)) p.invocations
        (p.invocations.map fun i => normalForm collation i (stepOf order i.id)) :=
      .of_map fun i _ => ⟨rfl, sort_perm _ _, sort_perm _ _, rfl⟩
    exact forms.perm (canonical_invocations checked.ids perm).symm
  dependencyIds := canonical_dependencyIds few
  dependencies := by
    have alike : (p.dependencies.map (anonymous ∘ relabel collation order)).Perm
        ((canonicalPlan collation p order).dependencies.map anonymous) := by
      rw [canonical_dependencies, map_map]
      exact (sort_perm _ _).symm
    refine (Matched.of_map_perm alike).imp fun d d' form => ⟨?_, ?_, ?_, ?_⟩
    · exact (congrArg InvocationDependency.fromInvocationId form :)
    · exact (congrArg InvocationDependency.toInvocationId form :)
    · exact (congrArg InvocationDependency.condition form :)
    · rw [show d'.inputBindings = _ from (congrArg InvocationDependency.inputBindings form :)]
      exact sort_perm _ _

variable {q : ExecutionPlan}

/-- The edge keys of the canonical plan stay apart as those of the plan do. -/
theorem canonical_keys (checked : Checked p limits) (perm : order.Perm p.ids)
    (steps : p.ids.length ≤ EXECUTION_PLAN_RUNTIME_LIMITS.maxInvocations)
    (r : Rearranged (stepOf order) (trimmed p) q) : (q.dependencies.map edgeKey).Nodup := by
  let ends (d : InvocationDependency) := (d.fromInvocationId, d.toInvocationId, d.condition)
  have once : (q.dependencies.map ends).Nodup := by
    have images : (q.dependencies.map ends).Perm (p.dependencies.map fun d =>
        (stepOf order d.fromInvocationId, stepOf order d.toInvocationId, d.condition)) :=
      r.dependencies.map_perm fun d d' h => by
        simp [ends, h.fromInvocationId, h.toInvocationId, h.condition]
    rw [images.nodup_iff, nodup_map_iff_inj_on checked.distinct.ids.of_map]
    intro d hd e he same
    simp only [Prod.mk.injEq] at same
    obtain ⟨source, target, condition⟩ := same
    have knownD := checked.known hd
    have knownE := checked.known he
    apply Rows.eq_of_key checked.distinct.keys hd he
    rw [edgeKey, edgeKey, r.injective knownD.1 knownE.1 source, r.injective knownD.2 knownE.2 target,
      condition]
  have long {d : InvocationDependency} (mem : d ∈ q.dependencies) :
      d.fromInvocationId.length = 7 ∧ d.toInvocationId.length = 7 := by
    obtain ⟨d₀, h₀, same⟩ := r.dependencies.right mem
    have known := checked.known (show d₀ ∈ p.dependencies from h₀)
    rw [same.fromInvocationId, same.toInvocationId]
    exact ⟨stepId_length _ (idxOf_lt perm steps known.1), stepId_length _ (idxOf_lt perm steps known.2)⟩
  rw [nodup_map_iff_inj_on r.dependencyIds.of_map]
  intro d hd e he same
  obtain ⟨source, target, condition⟩ := edgeKey_injective ((long hd).1.trans (long he).1.symm)
    ((long hd).2.trans (long he).2.symm) same
  apply Rows.eq_of_key once hd he
  simp [ends, source, target, condition]

theorem normalForm_normalForm (i : Invocation) (id id' : String) :
    normalForm collation (normalForm collation i id) id' = normalForm collation i id' := by
  simp [normalForm, sortOutputs, sortCriteria, sort_sort]

theorem sortKey_normalForm (i : Invocation) (id : String) :
    invocationSemanticSortKey collation.localeCompare (normalForm collation i id) =
      invocationSemanticSortKey collation.localeCompare i := by
  have outputs : sortOutputs collation.localeCompare (normalForm collation i id).outputs =
      sortOutputs collation.localeCompare i.outputs := sort_sort _
  have criteria : sortCriteria collation.localeCompare (normalForm collation i id).acceptanceCriteria =
      sortCriteria collation.localeCompare i.acceptanceCriteria := sort_sort _
  rw [invocationSemanticSortKey, outputs, criteria]
  rfl

section Again
variable (perm : order.Perm p.ids)
  (r : Rearranged (stepOf order) (trimmed p) (canonicalPlan collation p order))
include perm r

variable {id : String}

theorem stepOf_stepOf (mem : id ∈ p.ids) : stepOf (order.map (stepOf order)) (stepOf order id) = stepOf order id :=
  congrArg stepId (idxOf_map perm r.injective mem)

theorem relabel_canonical {d : InvocationDependency}
    (mem : d ∈ (canonicalPlan collation p order).dependencies) (known : ∀ d ∈ p.dependencies,
      d.fromInvocationId ∈ p.ids ∧ d.toInvocationId ∈ p.ids) :
    relabel collation (order.map (stepOf order)) d = d := by
  have listed : anonymous d ∈ (canonicalPlan collation p order).dependencies.map anonymous :=
    mem_map_of_mem mem
  rw [canonical_dependencies, mem_sort, map_map] at listed
  obtain ⟨d₀, h₀, form⟩ := mem_map.1 listed
  have source : stepOf order d₀.fromInvocationId = d.fromInvocationId :=
    (congrArg InvocationDependency.fromInvocationId form :)
  have target : stepOf order d₀.toInvocationId = d.toInvocationId :=
    (congrArg InvocationDependency.toInvocationId form :)
  have bindings : sort (compareBindings collation.localeCompare) d₀.inputBindings = d.inputBindings :=
    (congrArg InvocationDependency.inputBindings form :)
  have from_eq := stepOf_stepOf perm r (known d₀ h₀).1
  have to_eq := stepOf_stepOf perm r (known d₀ h₀).2
  rw [source, stepOf] at from_eq
  rw [target, stepOf] at to_eq
  have sorted : sort (compareBindings collation.localeCompare) d.inputBindings = d.inputBindings := by
    rw [← bindings, sort_sort]
  rw [relabel, from_eq, to_eq, sorted]

variable (distinct : p.ids.Nodup)
include distinct

theorem invocationById_canonical (mem : id ∈ p.ids) :
    invocationById (canonicalPlan collation p order) (stepOf order id) =
      (invocationById p id).map fun i => normalForm collation i (stepOf order id) := by
  obtain ⟨i, hi, rfl⟩ := mem_map.1 mem
  rw [invocationById_of_mem distinct hi, Option.map_some]
  have form : normalForm collation i (stepOf order i.id) ∈ (canonicalPlan collation p order).invocations :=
    (canonical_invocations distinct perm).mem_iff.2 (mem_map.2 ⟨i, hi, rfl⟩)
  exact invocationById_of_mem (r.ids_nodup distinct) form

/-- Sorted lists are sorted again to the same key. -/
theorem keyAt_canonical (mem : id ∈ p.ids) :
    keyAt collation.localeCompare (canonicalPlan collation p order) (stepOf order id) =
      keyAt collation.localeCompare p id := by
  obtain ⟨i, -, -, found⟩ := invocationById_of_id distinct mem
  rw [keyAt, keyAt, invocationById_canonical perm r distinct mem, found, Option.map_some, Option.map_some,
    Option.map_some, sortKey_normalForm]

end Again

theorem number_again (l : List InvocationDependency) :
    (l.zipIdx.map numberDependency).zipIdx.map numberDependency = l.zipIdx.map numberDependency := by
  apply ext_getElem
  · simp
  · intro k hk hk'
    simp [numberDependency]

theorem sort_canonical_dependencies : sort (compareDependencies collation.localeCompare)
    (canonicalPlan collation p order).dependencies = (canonicalPlan collation p order).dependencies := by
  have sorted : ((canonicalPlan collation p order).dependencies.map anonymous).Pairwise fun a b =>
      (compareDependencies collation.localeCompare a b).isLE := by
    rw [canonical_dependencies]
    exact sort_pairwise _
  exact (pairwise_map.1 sorted).insertionSort_eq

theorem canonicalPlan_congr {order' : List String} (goal : trim q.goal = trim p.goal)
    (maxParallelism : q.maxParallelism = p.maxParallelism)
    (invocations : order'.filterMap (canonicalInvocation collation q order') =
      order.filterMap (canonicalInvocation collation p order))
    (dependencies : (sort (compareDependencies collation.localeCompare)
        (q.dependencies.map (relabel collation order'))).zipIdx.map numberDependency =
      (sort (compareDependencies collation.localeCompare)
        (p.dependencies.map (relabel collation order))).zipIdx.map numberDependency) :
    canonicalPlan collation q order' = canonicalPlan collation p order := by
  rw [canonicalPlan, canonicalPlan, goal, maxParallelism, invocations, dependencies]

/-- The canonical plan of the canonical plan is itself. -/
theorem canonicalPlan_again (checked : Checked p limits) (perm : order.Perm p.ids)
    (r : Rearranged (stepOf order) (trimmed p) (canonicalPlan collation p order)) :
    canonicalPlan collation (canonicalPlan collation p order) (order.map (stepOf order)) =
      canonicalPlan collation p order := by
  have invocations : (order.map (stepOf order)).filterMap (canonicalInvocation collation
      (canonicalPlan collation p order) (order.map (stepOf order))) =
      order.filterMap (canonicalInvocation collation p order) := by
    rw [filterMap_map]
    apply filterMap_congr
    intro id mem
    have known := perm.mem_iff.1 mem
    obtain ⟨i, -, -, found⟩ := invocationById_of_id checked.ids known
    rw [Function.comp_apply, canonicalInvocation, invocationById_canonical perm r checked.ids known,
      canonicalInvocation, found, Option.map_some, Option.map_some, Option.map_some, normalForm_normalForm]
    exact congrArg (fun id => some (normalForm collation i id)) (stepOf_stepOf perm r known)
  have dependencies : (canonicalPlan collation p order).dependencies.map
      (relabel collation (order.map (stepOf order))) = (canonicalPlan collation p order).dependencies := by
    conv_rhs => rw [← map_id (canonicalPlan collation p order).dependencies]
    apply map_congr_left
    exact fun d mem => relabel_canonical perm r mem fun _ => checked.known
  refine canonicalPlan_congr (trim_trim p.goal) rfl invocations ?_
  rw [dependencies, sort_canonical_dependencies]
  exact number_again _

/-- The order is preferred by the sort keys, also where ids are no graph keys. -/
theorem stableTopologicalOrder_preferred (h : Orderable p) : ∃ order,
    stableTopologicalOrder collation.localeCompare p = .ok order ∧ PreferredOrder collation p order := by
  obtain ⟨order, stable, preferred, complete⟩ := stableTopologicalOrder_ok collation.localeCompare h
  refine ⟨order, stable, preferred.mono fun v hv w hw le => ?_, complete⟩
  rw [IdsLE, compareIds_eq _ h.distinct hv hw, compareKeyed, compareLex, Ordering.isLE_then_iff_and] at le
  exact le.1

end Canonical

section Unnamed
variable {localeCompare : String → String → Ordering} {plan : ExecutionPlan}

/-- The loop is the loop without its guard, cut short, and never takes an empty id. -/
theorem orderLoop_turns (turns : Nat) (s : State String Unit) :
    (∃ k, orderLoop localeCompare plan turns s = runSorted (sort (compareIds localeCompare plan))
      (outgoingIds localeCompare plan) k s) ∧
    ("" ∉ s.order → "" ∉ (orderLoop localeCompare plan turns s).order) := by
  induction turns generalizing s with
  | zero => exact ⟨⟨0, rfl⟩, fun fresh => fresh⟩
  | succ turns ih =>
    rw [orderLoop]
    split
    · exact ⟨⟨0, rfl⟩, fun fresh => fresh⟩
    · rename_i named
      obtain ⟨⟨k, run⟩, fresh⟩ := ih (visitSorted (sort (compareIds localeCompare plan))
        (outgoingIds localeCompare plan) s)
      refine ⟨⟨k + 1, run⟩, fun old => fresh ?_⟩
      unfold visitSorted
      cases hrest : s.rest with
      | nil => exact old
      | cons u rest =>
        rw [hrest, head?_cons, Option.some.injEq] at named
        rw [relaxesSorted_order]
        simpa [old] using Ne.symm named

/-- A plan in which an invocation has no name cannot be put in order. -/
theorem stableTopologicalOrder_unnamed [Std.TransCmp localeCompare] (distinct : plan.ids.Nodup)
    (known : ∀ e ∈ plan.edges, e.1 ∈ plan.ids ∧ e.2 ∈ plan.ids) (unnamed : "" ∈ plan.ids) :
    stableTopologicalOrder localeCompare plan =
      .error ⟨.graphInvalid, "Execution graph must be acyclic"⟩ := by
  obtain ⟨⟨k, run⟩, fresh⟩ := @orderLoop_turns localeCompare plan plan.ids.length
    (readyIds localeCompare plan)
  have fresh := fresh (by simp [readyIds])
  rw [stableTopologicalOrder_eq localeCompare distinct known rfl, if_pos]
  intro length
  obtain ⟨chosen, -⟩ := sortedRun_chosen localeCompare distinct known k
  rw [sortedRun, ← run] at chosen
  have subset := List.Nodup.subperm chosen.preferred.ordered.nodup fun v hv => chosen.preferred.known v hv
  exact fresh ((subset.perm_of_length_le length.ge).mem_iff.2 unnamed)

end Unnamed

/-- `q` is `p` under ids of its own, in order, and in normal form. -/
structure Normalized (collation : Collation) (limits : GraphLimits) (p q : ExecutionPlan) : Prop where
  accepted : ∃ graph, validateExecutionPlanGraph q limits = .ok graph
  isomorphic : ∃ f, Set.BijOn f {id | id ∈ p.ids} {id | id ∈ q.ids} ∧ Rearranged f (trimmed p) q
  ordered : ∀ d ∈ q.dependencies, q.ids.idxOf d.fromInvocationId < q.ids.idxOf d.toInvocationId
  fixed : normalizeSemanticExecutionPlan collation.localeCompare q = .ok q

/-- Normalization keeps the workflow of a plan that the graph checks accept,
unless an invocation has the empty id: then it fails. -/
theorem normalizeSemanticExecutionPlan_preserves (collation : Collation) {p : ExecutionPlan}
    {limits : GraphLimits} {graph : NormalizedExecutionGraph}
    (accepted : validateExecutionPlanGraph p limits = .ok graph) (invocations : p.invocations.length ≤ 64)
    (dependencies : p.dependencies.length ≤ 99) :
    ("" ∉ p.ids → ∃ q, normalizeSemanticExecutionPlan collation.localeCompare p = .ok q ∧
      Normalized collation limits p q) ∧
    ("" ∈ p.ids → normalizeSemanticExecutionPlan collation.localeCompare p =
      .error ⟨.graphInvalid, "Execution graph must be acyclic"⟩) := by
  obtain ⟨checked, validated⟩ := (validateExecutionPlanGraph_spec p limits).1 graph accepted
  have steps : p.ids.length ≤ EXECUTION_PLAN_RUNTIME_LIMITS.maxInvocations := by
    rw [ExecutionPlan.ids, length_map]
    exact invocations
  constructor
  · intro named
    have old : Orderable p := ⟨checked.ids, named, checked.closed, validated.acyclic⟩
    obtain ⟨order, stable, preferred⟩ := @stableTopologicalOrder_preferred collation p old
    have perm := preferred.perm checked.ids
    have r := @canonical_rearranged collation _ _ _ checked perm steps dependencies
    have keys := canonical_keys checked perm steps r
    have old' : Orderable (trimmed p) := ⟨checked.ids, named, checked.closed, validated.acyclic⟩
    have preferred' : PreferredOrder collation (trimmed p) order := ⟨preferred.preferred, preferred.complete⟩
    have new := r.sortable old'
    -- The steps are collated as the order has them, so it is chosen again.
    have again : stableTopologicalOrder collation.localeCompare (canonicalPlan collation p order) =
        .ok (order.map (stepOf order)) :=
      preferred'.chosen_of_keys old' r (fun v hv => keyAt_canonical perm r checked.ids hv)
        fun v hv w hw le => step_collated perm steps hw le
    have ids : (canonicalPlan collation p order).ids = order.map (stepOf order) :=
      canonical_ids checked.ids perm
    refine ⟨canonicalPlan collation p order, normalizeSemanticExecutionPlan_eq old stable perm, ?_, ?_, ?_, ?_⟩
    · exact r.accepted checked.trimmed validated.acyclic (validated.walk_le checked) keys
    · refine ⟨stepOf order, ⟨?_, r.injective, ?_⟩, r⟩
      · exact fun id mem => r.mem_ids.2 ⟨id, mem, rfl⟩
      · exact fun id mem => r.mem_ids.1 mem
    · obtain ⟨order', stable', sorted, complete⟩ :=
        stableTopologicalOrder_ok collation.localeCompare new.orderable
      rw [again] at stable'
      cases stable'
      intro d hd
      rw [ids]
      exact sorted.ordered.idxOf_lt (mem_map.2 ⟨d, hd, rfl⟩)
        (complete _ (new.known _ (mem_map.2 ⟨d, hd, rfl⟩)).2)
    · rw [normalizeSemanticExecutionPlan_eq new.orderable again (ids ▸ .refl _),
        canonicalPlan_again checked perm r]
  · intro unnamed
    rw [normalizeSemanticExecutionPlan, stableTopologicalOrder_unnamed checked.ids checked.closed unnamed]
    rfl

theorem normalizeSemanticExecutionPlan_preserves_twins : ∃ q,
    normalizeSemanticExecutionPlan codePoints.localeCompare Twins.plan = .ok q ∧
      Normalized codePoints DEFAULT_GRAPH_LIMITS Twins.plan q := by
  obtain ⟨graph, accepted⟩ := Twins.plan_wellFormed.graph
  exact (normalizeSemanticExecutionPlan_preserves codePoints accepted (by decide) (by decide)).1
    (by decide)

/-- The graph checks ask of ids only that they are distinct. -/
theorem normalizeSemanticExecutionPlan_unnamed : ¬ ∀ (collation : Collation) (p : ExecutionPlan),
    (∃ graph, validateExecutionPlanGraph p = .ok graph) → p.invocations.length ≤ 64 →
    p.dependencies.length ≤ 99 → ∃ q, normalizeSemanticExecutionPlan collation.localeCompare p = .ok q ∧
      Normalized collation DEFAULT_GRAPH_LIMITS p q := by
  intro kept
  obtain ⟨q, normal, -⟩ := kept codePoints ⟨"Keep the team posted", 1, [Twins.post ""], []⟩ ⟨_, rfl⟩
    (by decide) (by decide)
  have failed : (normalizeSemanticExecutionPlan codePoints.localeCompare
      ⟨"Keep the team posted", 1, [Twins.post ""], []⟩).toOption = none := by decide +kernel
  rw [normal] at failed
  cases failed

end Vimla.Orchestration
