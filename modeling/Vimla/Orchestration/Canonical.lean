import Vimla.Orchestration.CanonicalOrder

/-!
# What canonical plans depend on

`normalizeSemanticExecutionPlan` returns the same plan for all rearrangements
of a plan exactly when the plan is unambiguous: when what its sorts leave
undecided makes no difference.
-/

namespace Vimla.Orchestration

open List Function Js

section Form
variable (collation : Collation)

def normalForm (invocation : Invocation) (id : String) : Invocation :=
  { invocation with
    id := id
    outputs := sortOutputs collation.localeCompare invocation.outputs
    acceptanceCriteria := sortCriteria collation.localeCompare invocation.acceptanceCriteria }

def relabel (order : List String) (dependency : InvocationDependency) : InvocationDependency :=
  { dependency with
    fromInvocationId := stepId (order.idxOf dependency.fromInvocationId)
    toInvocationId := stepId (order.idxOf dependency.toInvocationId)
    inputBindings := sort (compareBindings collation.localeCompare) dependency.inputBindings }

def canonicalInvocation (plan : ExecutionPlan) (order : List String) (id : String) : Option Invocation :=
  (invocationById plan id).map fun i => normalForm collation i (stepId (order.idxOf id))

def canonicalPlan (plan : ExecutionPlan) (order : List String) : ExecutionPlan where
  goal := trim plan.goal
  maxParallelism := plan.maxParallelism
  invocations := order.filterMap (canonicalInvocation collation plan order)
  dependencies := (sort (compareDependencies collation.localeCompare)
    (plan.dependencies.map (relabel collation order))).zipIdx.map numberDependency

variable {collation} {p q : ExecutionPlan} {f : String → String} {order : List String}

theorem mapM_eq_filterMap {α β ε : Type} {f : α → Except ε β} {g : α → Option β} {l : List α}
    (each : ∀ a ∈ l, ∃ b, f a = .ok b ∧ g a = some b) : l.mapM f = .ok (l.filterMap g) := by
  induction l with
  | nil => rfl
  | cons a l ih =>
    obtain ⟨b, passed, same⟩ := each a mem_cons_self
    rw [mapM_cons, passed, ih fun a ha => each a (mem_cons_of_mem _ ha),
      filterMap_cons_some same]
    rfl

variable {id : String}

theorem requiredMappedId_ok (mem : id ∈ order) :
    requiredMappedId order id = .ok (stepId (order.idxOf id)) := by
  rw [requiredMappedId, canonicalId, if_pos mem]

theorem normalizeSemanticExecutionPlan_eq (h : Orderable p)
    (stable : stableTopologicalOrder collation.localeCompare p = .ok order)
    (perm : order.Perm p.ids) :
    normalizeSemanticExecutionPlan collation.localeCompare p = .ok (canonicalPlan collation p order) := by
  have invocations : order.mapM (normalizeInvocation collation.localeCompare p order) =
      .ok (order.filterMap (canonicalInvocation collation p order)) := by
    apply mapM_eq_filterMap
    intro id mem
    obtain ⟨i, hi, rfl, found⟩ := invocationById_of_id h.distinct (perm.mem_iff.1 mem)
    refine ⟨normalForm collation i (stepId (order.idxOf i.id)), ?_, ?_⟩
    · simp only [normalizeInvocation, found, requiredMappedId_ok mem]
      rfl
    · rw [canonicalInvocation, found, Option.map_some]
  have dependencies : p.dependencies.mapM (normalizeDependency collation.localeCompare order) =
      .ok (p.dependencies.filterMap (some ∘ relabel collation order)) := by
    apply mapM_eq_filterMap
    intro d hd
    have known := h.known _ (mem_map.2 ⟨d, hd, rfl⟩)
    refine ⟨relabel collation order d, ?_, rfl⟩
    rw [normalizeDependency, requiredMappedId_ok (perm.mem_iff.2 known.1),
      requiredMappedId_ok (perm.mem_iff.2 known.2)]
    rfl
  rw [filterMap_eq_map] at dependencies
  rw [normalizeSemanticExecutionPlan, stable]
  simp only [invocations, dependencies, bind, Except.bind, pure, Except.pure]
  rfl

instance : Std.TransCmp (compareBindings collation.localeCompare) :=
  transCmp_then (transCmp_key InputBinding.inputName) (transCmp_key InputBinding.sourceOutputName)

instance : Std.TransCmp (compareDependencies collation.localeCompare) :=
  transCmp_then (transCmp_then (transCmp_key InvocationDependency.fromInvocationId)
    (transCmp_key InvocationDependency.toInvocationId))
    (transCmp_key fun d : InvocationDependency => conditionSortKey d.condition)

/-- Dependencies that join the same invocations and are collated alike have
the same condition. -/
def ConditionsSettled (collation : Collation) (plan : ExecutionPlan) : Prop :=
  ∀ d ∈ plan.dependencies, ∀ e ∈ plan.dependencies,
    d.fromInvocationId = e.fromInvocationId → d.toInvocationId = e.toInvocationId →
    collation.localeCompare (conditionSortKey d.condition) (conditionSortKey e.condition) = .eq →
    d.condition = e.condition

theorem stepId_injective {i j : Nat} (hi : i < EXECUTION_PLAN_RUNTIME_LIMITS.maxInvocations)
    (hj : j < EXECUTION_PLAN_RUNTIME_LIMITS.maxInvocations)
    (same : collation.localeCompare (stepId i) (stepId j) = .eq) : i = j := by
  obtain less | rfl | more := Nat.lt_trichotomy i j
  · rw [collation.steps i j less hj] at same
    cases same
  · rfl
  · rw [show collation.localeCompare (stepId i) (stepId j) = _ from Std.OrientedCmp.eq_swap,
      collation.steps j i more hi] at same
    cases same

theorem sortBindings_eq (h : WellFormed p) {d : InvocationDependency} (mem : d ∈ p.dependencies)
    {bindings : List InputBinding} (perm : bindings.Perm d.inputBindings) :
    sort (compareBindings collation.localeCompare) bindings =
      sort (compareBindings collation.localeCompare) d.inputBindings := by
  refine (sort_eq_of_perm perm.symm fun a ha b hb same => ?_).symm
  rw [compareBindings, Ordering.then_eq_eq] at same
  have name := collation.keys _ _ (h.binding_key mem ha) (h.binding_key mem hb) same.1
  exact (h.checked.bound_once mem mem rfl hb ha name).2

/-- A dependency without its id. -/
def anonymous (dependency : InvocationDependency) : InvocationDependency := { dependency with id := "" }

/-- The ids a dependency had do not show in the sorted list. -/
theorem number_sort (l : List InvocationDependency) :
    (sort (compareDependencies collation.localeCompare) l).zipIdx.map numberDependency =
      (sort (compareDependencies collation.localeCompare) (l.map anonymous)).zipIdx.map
        numberDependency := by
  rw [← sort_map (f := anonymous) fun _ _ _ _ => rfl, zipIdx_map, map_map]
  rfl

section Indices
variable (perm : order.Perm p.ids)
include perm

section
variable (few : p.ids.length ≤ EXECUTION_PLAN_RUNTIME_LIMITS.maxInvocations)
include few

theorem idxOf_lt
    (mem : id ∈ p.ids) : order.idxOf id < EXECUTION_PLAN_RUNTIME_LIMITS.maxInvocations := by
  have := idxOf_lt_length_of_mem (perm.mem_iff.2 mem)
  have := perm.length_eq
  omega

/-- Steps that are collated as equal are of one invocation. -/
theorem step_settled {v w : String}
    (hv : v ∈ p.ids) (hw : w ∈ p.ids)
    (same : collation.localeCompare (stepId (order.idxOf v)) (stepId (order.idxOf w)) = .eq) : v = w :=
  (idxOf_inj (perm.mem_iff.2 hv)).1
    (stepId_injective (idxOf_lt perm few hv) (idxOf_lt perm few hw) same)

end

theorem step_injOn (collation : Collation)
    (few : p.ids.length ≤ EXECUTION_PLAN_RUNTIME_LIMITS.maxInvocations) :
    Set.InjOn (fun id => stepId (order.idxOf id)) {id | id ∈ p.ids} := by
  intro v hv w hw same
  apply @step_settled collation _ _ perm few _ _ hv hw
  rw [show stepId (order.idxOf v) = stepId (order.idxOf w) from same]
  exact Std.ReflCmp.compare_self

/-- Steps are collated in their order. -/
theorem step_collated (few : p.ids.length ≤ EXECUTION_PLAN_RUNTIME_LIMITS.maxInvocations) {v w : String}
    (hw : w ∈ p.ids) (le : order.idxOf v ≤ order.idxOf w) :
    (collation.localeCompare (stepId (order.idxOf v)) (stepId (order.idxOf w))).isLE := by
  obtain less | same := Nat.lt_or_eq_of_le le
  · rw [collation.steps _ _ less (idxOf_lt perm few hw)]
    rfl
  · rw [same, show collation.localeCompare (stepId (order.idxOf w)) (stepId (order.idxOf w)) = .eq from
      Std.ReflCmp.compare_self]
    rfl

/-- Dependencies whose canonical forms are sorted as equal are the same. -/
theorem relabel_settled (h : WellFormed p) (settled : ConditionsSettled collation p)
    {d e : InvocationDependency} (hd : d ∈ p.dependencies) (he : e ∈ p.dependencies)
    (same : compareDependencies collation.localeCompare (relabel collation order d)
      (relabel collation order e) = .eq) : d = e := by
  rw [compareDependencies, Ordering.then_eq_eq, Ordering.then_eq_eq] at same
  obtain ⟨⟨source, target⟩, condition⟩ := same
  have knownD := h.checked.known hd
  have knownE := h.checked.known he
  have source := step_settled perm h.length_le knownD.1 knownE.1 source
  have target := step_settled perm h.length_le knownD.2 knownE.2 target
  have condition := settled d hd e he source target condition
  apply Rows.eq_of_key h.checked.distinct.keys hd he
  rw [edgeKey, edgeKey, source, target, condition]

theorem idxOf_map (injective : Set.InjOn f {id | id ∈ p.ids}) (mem : id ∈ p.ids) :
    (order.map f).idxOf (f id) = order.idxOf id := by
  have known : ∀ v ∈ order, f v = f id → v = id := fun v hv same =>
    injective (perm.mem_iff.1 hv) mem same
  clear perm
  induction order with
  | nil => rfl
  | cons v order ih =>
    rw [map_cons, idxOf_cons, idxOf_cons, ih fun w hw => known w (mem_cons_of_mem v hw)]
    by_cases same : v = id
    · rw [same]
      simp
    · have differ : f v ≠ f id := fun e => same (known v mem_cons_self e)
      rw [show (f v == f id) = false by simpa using differ, show (v == id) = false by simpa using same]

end Indices

theorem canonicalInvocation_eq (distinct : p.ids.Nodup) {i : Invocation} (mem : i ∈ p.invocations) :
    canonicalInvocation collation p order i.id =
      some (normalForm collation i (stepId (order.idxOf i.id))) := by
  rw [canonicalInvocation, invocationById_of_mem distinct mem, Option.map_some]

theorem canonical_invocations (distinct : p.ids.Nodup) (perm : order.Perm p.ids) :
    (canonicalPlan collation p order).invocations.Perm
      (p.invocations.map fun i => normalForm collation i (stepId (order.idxOf i.id))) := by
  have listed : p.ids.filterMap (canonicalInvocation collation p order) =
      p.invocations.map fun i => normalForm collation i (stepId (order.idxOf i.id)) := by
    rw [ExecutionPlan.ids, filterMap_map, ← filterMap_eq_map]
    apply filterMap_congr
    intro i hi
    rw [comp_apply, canonicalInvocation_eq distinct hi]
    rfl
  rw [← listed]
  exact perm.filterMap _

theorem canonical_ids (distinct : p.ids.Nodup) (perm : order.Perm p.ids) :
    (canonicalPlan collation p order).ids = order.map fun id => stepId (order.idxOf id) := by
  have named : order.map (fun id => stepId (order.idxOf id)) =
      order.filterMap fun id => some (stepId (order.idxOf id)) := (congrFun filterMap_eq_map order).symm
  rw [ExecutionPlan.ids, canonicalPlan, map_filterMap, named]
  apply filterMap_congr
  intro id mem
  obtain ⟨i, hi, rfl⟩ := mem_map.1 (perm.mem_iff.1 mem)
  rw [canonicalInvocation_eq distinct hi]
  rfl

theorem normalForm_eq (h : WellFormed p) (settled : ∀ i ∈ p.invocations, CriteriaSettled i.acceptanceCriteria)
    {i i' : Invocation} (mem : i ∈ p.invocations) (r : InvocationRearranged f i i') (id : String) :
    normalForm collation i' id = normalForm collation i id := by
  have outputs := sortOutputs_eq collation h mem r.outputs
  have criteria := sortCriteria_eq collation h mem (settled i mem) r.acceptanceCriteria
  have body : normalForm collation i' id = normalForm collation
      { i' with id := i.id, outputs := i.outputs, acceptanceCriteria := i.acceptanceCriteria } id := by
    simp [normalForm, outputs, criteria]
  rw [body, r.others]

/-- A rearranged plan has the same canonical plan for the renamed order. -/
theorem canonicalPlan_rearranged (h : WellFormed p)
    (criteria : ∀ i ∈ p.invocations, CriteriaSettled i.acceptanceCriteria)
    (conditions : ConditionsSettled collation p) (rearranged : Rearranged f p q) (perm : order.Perm p.ids) :
    canonicalPlan collation q (order.map f) = canonicalPlan collation p order := by
  have index {id : String} (mem : id ∈ p.ids) := idxOf_map perm rearranged.injective mem
  have invocations : (order.map f).filterMap (canonicalInvocation collation q (order.map f)) =
      order.filterMap (canonicalInvocation collation p order) := by
    rw [filterMap_map]
    apply filterMap_congr
    intro id hid
    have known := perm.mem_iff.1 hid
    obtain ⟨i, hi, rfl, found⟩ := invocationById_of_id h.checked.ids known
    obtain ⟨i', hi', r⟩ := rearranged.invocations.left hi
    have found' := invocationById_of_mem (rearranged.sortable h.orderable).distinct hi'
    rw [r.id] at found'
    simp only [comp_apply, canonicalInvocation, found, found', Option.map_some, index known,
      normalForm_eq h criteria hi r]
  have relabeled : ((q.dependencies.map (relabel collation (order.map f))).map anonymous).Perm
      ((p.dependencies.map (relabel collation order)).map anonymous) := by
    rw [map_map, map_map]
    apply rearranged.dependencies.mem.map_perm
    rintro d d' ⟨⟨hd, -⟩, r⟩
    have known := h.checked.known hd
    simp only [comp_apply, anonymous, relabel, r.fromInvocationId, r.toInvocationId, r.condition,
      index known.1, index known.2, sortBindings_eq h hd r.inputBindings]
  have settled : ∀ a ∈ (p.dependencies.map (relabel collation order)).map anonymous,
      ∀ b ∈ (p.dependencies.map (relabel collation order)).map anonymous,
      compareDependencies collation.localeCompare a b = .eq → a = b := by
    simp only [map_map, mem_map]
    rintro _ ⟨d, hd, rfl⟩ _ ⟨e, he, rfl⟩ same
    rw [relabel_settled perm h conditions hd he same]
  unfold canonicalPlan
  rw [rearranged.goal, rearranged.maxParallelism, invocations, number_sort, number_sort (p.dependencies.map _),
    sort_eq_of_perm relabeled.symm settled]

end Form

end Vimla.Orchestration
