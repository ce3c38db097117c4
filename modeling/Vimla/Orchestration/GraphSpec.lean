import Vimla.Lib.LongestPaths
import Vimla.Orchestration.GraphChecks

/-!
# What graph validation accepts

Exactly the plans that pass the checks before the sort and have no cycle and
no path longer than the limit. What is returned with such a plan describes it:
the order, the depths as lengths of longest paths, the lists into and out of
each invocation.
-/

namespace Vimla.Orchestration

open List Checks Kahn

/-- The plan passes what is checked before the sort. -/
structure Checked (plan : ExecutionPlan) (limits : GraphLimits) : Prop where
  invocations : plan.invocations.length ≤ limits.maxInvocations
  dependencies : plan.dependencies.length ≤ limits.maxDependencies
  ids : plan.ids.Nodup
  outputs : ∀ i ∈ plan.invocations, (i.outputs.map OutputDeclaration.name).Nodup
  endpoints : ∀ d ∈ plan.dependencies, DependencyOk plan.invocations d
  distinct : Distinct plan.dependencies
  fanOut : ∀ i ∈ plan.invocations, (outgoing plan i.id).length ≤ limits.maxFanOut
  joins : ∀ i ∈ plan.invocations, i.joinPolicy ≠ .allRequired → 2 ≤ (incoming plan i.id).length
  evaluators : ∀ i ∈ plan.invocations, i.target = .evaluator →
    ∃ mode, EvaluatorOk (boundNames plan.dependencies i.id) i mode

/-- What the result says of the plan. -/
structure Validated (plan : ExecutionPlan) (limits : GraphLimits) (graph : NormalizedExecutionGraph) :
    Prop where
  plan_eq : graph.plan = plan
  acyclic : Acyclic plan.edges
  once : graph.topologicalOrder.Nodup
  every : ∀ id, id ∈ graph.topologicalOrder ↔ id ∈ plan.ids
  before : ∀ d ∈ plan.dependencies, graph.topologicalOrder.idxOf d.fromInvocationId <
    graph.topologicalOrder.idxOf d.toInvocationId
  depth : ∀ id ∈ plan.ids, ∃ n, graph.depthByInvocationId id = some n ∧
    Longest plan.edges id n ∧ n ≤ limits.maxDepth
  incoming : ∀ id, graph.incomingByInvocationId id = incoming plan id
  outgoing : ∀ id, graph.outgoingByInvocationId id = outgoing plan id
  incoming_all : (plan.ids.flatMap graph.incomingByInvocationId).Perm plan.dependencies
  outgoing_all : (plan.ids.flatMap graph.outgoingByInvocationId).Perm plan.dependencies
  edges : plan.dependencies.Pairwise fun d e => ¬ (d.fromInvocationId = e.fromInvocationId ∧
    d.toInvocationId = e.toInvocationId ∧ d.condition = e.condition)
  data : ∀ d ∈ plan.dependencies, d.condition = .data → ∀ b ∈ d.inputBindings,
    (∃ source ∈ plan.invocations, source.id = d.fromInvocationId ∧ Matches source.outputs b) ∧
    ∀ e ∈ plan.dependencies, e.toInvocationId = d.toInvocationId →
      ∀ c ∈ e.inputBindings, c.inputName = b.inputName → e = d ∧ c = b

variable {plan : ExecutionPlan} {limits : GraphLimits} {graph : NormalizedExecutionGraph}

theorem checkDepth_ok {depth : String → Option Nat} {invocation : Invocation} :
    checkDepth limits depth invocation = .ok () ↔
      ∃ n, depth invocation.id = some n ∧ n ≤ limits.maxDepth := by
  unfold checkDepth
  cases depth invocation.id with
  | none => simp
  | some n => simp [rejectIf_ok]

theorem validateExecutionPlanGraph_ok : validateExecutionPlanGraph plan limits = .ok graph ↔
    Checked plan limits ∧ (topologicalSort plan).order.length = plan.invocations.length ∧
      (∀ i ∈ plan.invocations, ∃ n, (topologicalSort plan).data i.id = some n ∧ n ≤ limits.maxDepth) ∧
      graph = ⟨plan, (recorded plan.dependencies).incoming, (recorded plan.dependencies).outgoing,
        (topologicalSort plan).order, (topologicalSort plan).data⟩ := by
  unfold validateExecutionPlanGraph
  rw [rejectIf_bind, bind_eq_ok]
  constructor
  · rintro ⟨size, invocations, unique, h⟩
    obtain ⟨ids, outputs, rfl⟩ := (uniqueInvocations_eq_ok (by simp)).1 unique
    obtain ⟨checks, dependencies, h⟩ := bind_eq_ok.1 h
    obtain ⟨endpoints, distinct, rfl⟩ := (checkDependencies_ok ids outputs).1 dependencies
    simp only [check_bind, forM_eq_ok, rejectIf_ok, checkInvocation_ok, checkDepth_ok,
      not_not, not_lt] at h
    obtain ⟨fanOut, invocations, length, depths, ⟨⟩⟩ := h
    rw [not_or, not_lt, not_lt] at size
    exact ⟨⟨size.1, size.2, ids, outputs, endpoints, distinct, fanOut, fun i hi => (invocations i hi).1,
      fun i hi => (invocations i hi).2⟩, length, depths, rfl⟩
  · rintro ⟨checked, length, depths, rfl⟩
    refine ⟨by simpa using ⟨checked.invocations, checked.dependencies⟩, plan.invocations,
      (uniqueInvocations_eq_ok (by simp)).2 ⟨checked.ids, checked.outputs, rfl⟩, ?_⟩
    rw [bind_eq_ok]
    refine ⟨_, (checkDependencies_ok checked.ids checked.outputs).2
      ⟨checked.endpoints, checked.distinct, rfl⟩, ?_⟩
    simp only [check_bind, forM_eq_ok, rejectIf_ok, checkInvocation_ok, checkDepth_ok,
      not_not, not_lt]
    exact ⟨checked.fanOut, fun i hi => ⟨checked.joins i hi, checked.evaluators i hi⟩, length, depths, rfl⟩

namespace Checked
variable (h : Checked plan limits)
include h

theorem known {d : InvocationDependency} (hd : d ∈ plan.dependencies) :
    d.fromInvocationId ∈ plan.ids ∧ d.toInvocationId ∈ plan.ids := by
  obtain ⟨source, hs, from_eq, -⟩ := (h.endpoints d hd).source
  obtain ⟨target, ht, to_eq⟩ := (h.endpoints d hd).target
  rw [← from_eq, ← to_eq]
  exact ⟨mem_map_of_mem hs, mem_map_of_mem ht⟩

theorem closed : ∀ e ∈ plan.edges, e.1 ∈ plan.ids ∧ e.2 ∈ plan.ids := by
  intro e he
  obtain ⟨d, hd, rfl⟩ := mem_map.1 he
  exact h.known hd

theorem sorted : Kahn.Sorted plan.edges plan.ids (topologicalSort plan) :=
  topologicalSort_sorted h.ids fun _ hd => (h.known hd).2

/-- The depths begin as those of the empty walks. -/
theorem deep : Deep plan.edges (topologicalSort plan) := by
  have start : Deep plan.edges (init plan.edges plan.ids (initialDepth plan)) := by
    refine ⟨?_, ?_, ?_⟩
    · intro v d hd
      simp only [init, initialDepth] at hd
      split at hd
      · cases hd
        exact ⟨v, .here v⟩
      · cases hd
    · intro v hv
      obtain ⟨hv, zero⟩ := mem_filter.1 hv
      exact ⟨0, if_pos ⟨hv, by simpa using zero⟩⟩
    · intro e _ taken
      cases taken
  exact start.run (init_sorted plan.edges h.ids _) (fun e he => (h.closed e he).2) _

theorem order_subset {id : String} (mem : id ∈ (topologicalSort plan).order) : id ∈ plan.ids :=
  h.sorted.counting.known id (mem_append_left _ mem)

/-- Without a cycle every invocation is taken. -/
theorem complete_of_acyclic (acyclic : Acyclic plan.edges) :
    (topologicalSort plan).order.length = plan.invocations.length := by
  have all := h.sorted.all acyclic (fun e he => (h.closed e he).1)
    (topologicalSort_exhausts h.ids fun _ hd => (h.known hd).2)
  have perm : (topologicalSort plan).order.Perm plan.ids :=
    (perm_ext_iff_of_nodup h.sorted.ordered.nodup h.ids).2
      fun id => ⟨h.order_subset, all id⟩
  rw [perm.length_eq, ExecutionPlan.ids, length_map]

/-- The lists by one end of the dependencies hold each of them once. -/
theorem partition {endpoint : InvocationDependency → String}
    (known : ∀ d ∈ plan.dependencies, endpoint d ∈ plan.ids) :
    (plan.ids.flatMap fun id => plan.dependencies.filter fun d => endpoint d = id).Perm
      plan.dependencies := by
  have nd : plan.dependencies.Nodup := h.distinct.ids.of_map
  rw [perm_ext_iff_of_nodup ?_ nd]
  · intro d
    simp only [mem_flatMap, mem_filter, decide_eq_true_eq]
    constructor
    · rintro ⟨_, -, hd, -⟩
      exact hd
    · exact fun hd => ⟨_, known d hd, hd, rfl⟩
  · rw [nodup_flatMap]
    refine ⟨fun id _ => nd.filter _, h.ids.imp ?_⟩
    intro a b apart d ha hb
    have ha := of_decide_eq_true (mem_filter.1 ha).2
    have hb := of_decide_eq_true (mem_filter.1 hb).2
    exact apart (ha.symm.trans hb)

/-- An input is bound once. -/
theorem bound_once {d e : InvocationDependency} (hd : d ∈ plan.dependencies) (he : e ∈ plan.dependencies)
    (into : e.toInvocationId = d.toInvocationId) {b c : InputBinding} (hb : b ∈ d.inputBindings)
    (hc : c ∈ e.inputBindings) (name : c.inputName = b.inputName) : e = d ∧ c = b := by
  have nd := h.distinct.inputs d.toInvocationId
  rw [boundNames, nodup_flatMap] at nd
  obtain ⟨each, apart⟩ := nd
  have own : d ∈ plan.dependencies.filter fun x => x.toInvocationId = d.toInvocationId :=
    mem_filter.2 ⟨hd, by simp⟩
  have other : e ∈ plan.dependencies.filter fun x => x.toInvocationId = d.toInvocationId :=
    mem_filter.2 ⟨he, by simpa using into⟩
  have same : e = d := by
    by_contra differ
    have symmetric : Std.Symm (Function.onFun List.Disjoint fun x : InvocationDependency =>
        x.inputBindings.map InputBinding.inputName) := ⟨fun _ _ dis => dis.symm⟩
    exact apart.forall other own differ (mem_map.2 ⟨c, hc, name⟩) (mem_map_of_mem hb)
  subst same
  exact ⟨rfl, Rows.eq_of_key (each e own) hc hb name⟩

/-- Edges of the same ends and condition have the same key. -/
theorem edges_distinct : plan.dependencies.Pairwise fun d e =>
    ¬ (d.fromInvocationId = e.fromInvocationId ∧ d.toInvocationId = e.toInvocationId ∧
      d.condition = e.condition) := by
  refine (pairwise_map.1 h.distinct.keys).imp ?_
  rintro d e apart ⟨source, target, condition⟩
  apply apart
  rw [edgeKey, edgeKey, source, target, condition]

end Checked

/-- Soundness and completeness of `validateExecutionPlanGraph`. -/
theorem validateExecutionPlanGraph_spec (plan : ExecutionPlan) (limits : GraphLimits) :
    (∀ graph, validateExecutionPlanGraph plan limits = .ok graph →
      Checked plan limits ∧ Validated plan limits graph) ∧
    (Checked plan limits → Acyclic plan.edges →
      (∀ u v n, Walk plan.edges u v n → n ≤ limits.maxDepth) →
      ∃ graph, validateExecutionPlanGraph plan limits = .ok graph) := by
  constructor
  · intro graph accepted
    obtain ⟨h, length, depths, rfl⟩ := validateExecutionPlanGraph_ok.1 accepted
    have sorted := h.sorted
    have complete := sorted.complete (by rw [length, ExecutionPlan.ids, length_map])
    have longest : ∀ id ∈ plan.ids, ∃ n, (topologicalSort plan).data id = some n ∧
        Longest plan.edges id n :=
      fun id hid => h.deep.longest sorted.ordered (complete id hid)
    refine ⟨h, rfl, ?_, sorted.ordered.nodup, fun id => ⟨h.order_subset, complete id⟩, ?_, ?_,
      fun _ => rfl, fun _ => rfl, h.partition fun d hd => (h.known hd).2,
      h.partition fun d hd => (h.known hd).1, h.edges_distinct, ?_⟩
    · intro v n cycle
      -- A cycle enters `v` by an edge, so `v` is in the plan and has a longest walk.
      obtain ⟨w, -, edge⟩ := cycle.last
      obtain ⟨m, -, most⟩ := longest v (h.closed _ edge).2
      exact most.no_cycle cycle
    · intro d hd
      exact sorted.ordered.idxOf_lt (mem_map.2 ⟨d, hd, rfl⟩) (complete _ (h.known hd).2)
    · intro id hid
      obtain ⟨n, depth, most⟩ := longest id hid
      obtain ⟨i, hi, rfl⟩ := mem_map.1 hid
      obtain ⟨n', depth', le⟩ := depths i hi
      rw [depth] at depth'
      cases depth'
      exact ⟨n, depth, most, le⟩
    · intro d hd _ b hb
      obtain ⟨source, hs, name, -, each⟩ := (h.endpoints d hd).source
      exact ⟨⟨source, hs, name, each b hb⟩,
        fun e he into c hc same => h.bound_once hd he into hb hc same⟩
  · intro h acyclic short
    refine ⟨_, validateExecutionPlanGraph_ok.2 ⟨h, h.complete_of_acyclic acyclic, ?_, rfl⟩⟩
    intro i hi
    have length := h.complete_of_acyclic acyclic
    have complete := h.sorted.complete (by rw [length, ExecutionPlan.ids, length_map])
    obtain ⟨n, depth, most⟩ := h.deep.longest h.sorted.ordered (complete i.id (mem_map_of_mem hi))
    obtain ⟨u, walk⟩ := most.walk
    exact ⟨n, depth, short u i.id n walk⟩

/-- Two edges join the same pair, and the depth of `c` is that of the longer way. -/
example : (validateExecutionPlanGraph ⟨"", 1, [{ id := "c", target := .vimla, joinPolicy := .anyRequired },
    { id := "b", target := .vimla }, { id := "a", target := .vimla }],
    [⟨"1", "a", "c", .onSuccess, []⟩, ⟨"2", "a", "b", .onSuccess, []⟩, ⟨"3", "a", "b", .onFailure, []⟩,
      ⟨"4", "b", "c", .always, []⟩]⟩).toOption.map (fun g => (g.topologicalOrder, g.depthByInvocationId "c")) =
    some (["a", "b", "c"], some 2) := by decide +kernel

end Vimla.Orchestration
