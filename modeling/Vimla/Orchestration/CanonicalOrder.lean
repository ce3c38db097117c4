import Vimla.Lib.Matching
import Vimla.Orchestration.GraphSpec
import Vimla.Orchestration.Normalization

/-!
# Plans that differ in ids and in the order of their lists

What a plan that passes the schema and the graph checks has, and what another
plan keeps of it whose ids are renamed and whose lists are rearranged.
-/

namespace Vimla.Orchestration

open List Function Kahn Js

variable {id : String}

/-- The plan passes the schema as it is, and the graph checks. -/
structure WellFormed (plan : ExecutionPlan) : Prop where
  schema : parseExecutionPlan plan = .ok plan
  graph : ∃ graph, validateExecutionPlanGraph plan = .ok graph

namespace WellFormed
variable {plan : ExecutionPlan} (h : WellFormed plan)
include h

theorem checked : Checked plan DEFAULT_GRAPH_LIMITS := by
  obtain ⟨graph, accepted⟩ := h.graph
  exact (validateExecutionPlanGraph_ok.1 accepted).1

theorem acyclic : Acyclic plan.edges := by
  obtain ⟨graph, accepted⟩ := h.graph
  obtain ⟨checked, length, -⟩ := validateExecutionPlanGraph_ok.1 accepted
  intro v n cycle
  obtain ⟨w, -, edge⟩ := cycle.last
  have complete := checked.sorted.complete (by rw [length, ExecutionPlan.ids, length_map])
  obtain ⟨m, -, most⟩ := checked.deep.longest checked.sorted.ordered (complete v (checked.closed _ edge).2)
  exact most.no_cycle cycle

variable {i : Invocation}

theorem invocation_parsed (hi : i ∈ plan.invocations) : ∃ path, parseInvocation i path = .ok i :=
  forall₂_same.1 (parseExecutionPlan_ok h.schema).2.1 i hi

theorem length_le : plan.ids.length ≤ EXECUTION_PLAN_RUNTIME_LIMITS.maxInvocations := by
  rw [ExecutionPlan.ids, length_map]
  exact (parseExecutionPlan_ok h.schema).1

theorem id_key (mem : id ∈ plan.ids) : GRAPH_KEY_PATTERN id = true := by
  obtain ⟨i, hi, rfl⟩ := mem_map.1 mem
  obtain ⟨path, parsed⟩ := h.invocation_parsed hi
  exact (parseInvocation_ok parsed).1

theorem output_key (hi : i ∈ plan.invocations) {o : OutputDeclaration} (ho : o ∈ i.outputs) :
    GRAPH_KEY_PATTERN o.name = true := by
  obtain ⟨path, parsed⟩ := h.invocation_parsed hi
  obtain ⟨path, parsed⟩ := forall₂_same.1 (parseInvocation_ok parsed).2.2.2.1 o ho
  exact parseOutputDeclaration_ok parsed

theorem criterion_key (hi : i ∈ plan.invocations) {c : AcceptanceCriteria} (hc : c ∈ i.acceptanceCriteria) :
    GRAPH_KEY_PATTERN c.id = true := by
  obtain ⟨path, parsed⟩ := h.invocation_parsed hi
  obtain ⟨path, parsed⟩ := forall₂_same.1 (parseInvocation_ok parsed).2.2.2.2.1 c hc
  exact (parseAcceptanceCriteria_ok parsed).1

theorem binding_key {d : InvocationDependency} (hd : d ∈ plan.dependencies) {b : InputBinding}
    (hb : b ∈ d.inputBindings) : GRAPH_KEY_PATTERN b.inputName = true := by
  obtain ⟨path, parsed⟩ := forall₂_same.1 (parseExecutionPlan_ok h.schema).2.2 d hd
  obtain ⟨path, parsed⟩ := forall₂_same.1 (parseInvocationDependency_ok parsed) b hb
  exact parseInputBinding_ok parsed

end WellFormed

/-- What the loop over the ready invocations needs: also no id is empty. -/
structure Orderable (plan : ExecutionPlan) : Prop where
  distinct : plan.ids.Nodup
  named : "" ∉ plan.ids
  known : ∀ e ∈ plan.edges, e.1 ∈ plan.ids ∧ e.2 ∈ plan.ids
  acyclic : Acyclic plan.edges

structure Sortable (plan : ExecutionPlan) : Prop where
  distinct : plan.ids.Nodup
  keys : ∀ id ∈ plan.ids, GRAPH_KEY_PATTERN id = true
  known : ∀ e ∈ plan.edges, e.1 ∈ plan.ids ∧ e.2 ∈ plan.ids
  acyclic : Acyclic plan.edges

variable {plan : ExecutionPlan}

theorem Sortable.orderable (h : Sortable plan) : Orderable plan :=
  ⟨h.distinct, fun empty => by simpa [GRAPH_KEY_PATTERN] using h.keys "" empty, h.known, h.acyclic⟩

theorem WellFormed.sortable (h : WellFormed plan) : Sortable plan :=
  ⟨h.checked.ids, fun _ => h.id_key, h.checked.closed, h.acyclic⟩

theorem WellFormed.orderable (h : WellFormed plan) : Orderable plan :=
  h.sortable.orderable

structure InvocationRearranged (f : String → String) (i i' : Invocation) : Prop where
  id : i'.id = f i.id
  outputs : i'.outputs.Perm i.outputs
  acceptanceCriteria : i'.acceptanceCriteria.Perm i.acceptanceCriteria
  others : { i' with id := i.id, outputs := i.outputs, acceptanceCriteria := i.acceptanceCriteria } = i

/-- A dependency's own id is free. -/
structure DependencyRearranged (f : String → String) (d d' : InvocationDependency) : Prop where
  fromInvocationId : d'.fromInvocationId = f d.fromInvocationId
  toInvocationId : d'.toInvocationId = f d.toInvocationId
  condition : d'.condition = d.condition
  inputBindings : d'.inputBindings.Perm d.inputBindings

/-- `q` is `p` with the invocations renamed by `f` to other graph keys, the
dependencies renamed anyhow, and every list rearranged. -/
structure Rearranged (f : String → String) (p q : ExecutionPlan) : Prop where
  goal : q.goal = p.goal
  maxParallelism : q.maxParallelism = p.maxParallelism
  injective : Set.InjOn f {id | id ∈ p.ids}
  keys : ∀ id ∈ p.ids, GRAPH_KEY_PATTERN (f id) = true
  invocations : Matched (InvocationRearranged f) p.invocations q.invocations
  dependencyIds : (q.dependencies.map InvocationDependency.id).Nodup
  dependencies : Matched (DependencyRearranged f) p.dependencies q.dependencies

namespace Rearranged
variable {f : String → String} {p q : ExecutionPlan} (h : Rearranged f p q)
include h

theorem ids_perm : q.ids.Perm (p.ids.map f) := by
  have images := h.invocations.map_perm fun _ _ r => r.id
  rwa [show p.ids.map f = p.invocations.map (fun i => f i.id) from map_map]

theorem mem_ids : id ∈ q.ids ↔ ∃ id' ∈ p.ids, f id' = id := by
  rw [h.ids_perm.mem_iff, mem_map]

theorem edges_perm : q.edges.Perm (p.edges.map fun e => (f e.1, f e.2)) := by
  have images : q.edges.Perm (p.dependencies.map fun d => (f d.fromInvocationId, f d.toInvocationId)) :=
    h.dependencies.map_perm fun d d' r => by rw [r.fromInvocationId, r.toInvocationId]
  rwa [show p.edges.map (fun e => (f e.1, f e.2)) =
    p.dependencies.map fun d => (f d.fromInvocationId, f d.toInvocationId) from map_map]

theorem mem_edges {e : String × String} : e ∈ q.edges ↔ ∃ e' ∈ p.edges, (f e'.1, f e'.2) = e := by
  rw [h.edges_perm.mem_iff, mem_map]

/-- A walk of the renamed plan to an invocation leads back along the old ids. -/
theorem walk_back (known : ∀ e ∈ p.edges, e.1 ∈ p.ids ∧ e.2 ∈ p.ids) {u' v' : String} {n : Nat}
    (walk : Walk q.edges u' v' n) {v : String} (mem : v ∈ p.ids) (target : f v = v') :
    ∃ u ∈ p.ids, f u = u' ∧ Walk p.edges u v n := by
  induction walk generalizing v with
  | here => exact ⟨v, mem, target, .here v⟩
  | step _ edge ih =>
    obtain ⟨e, he, same⟩ := h.mem_edges.1 edge
    cases same
    obtain rfl := h.injective (known e he).2 mem target.symm
    obtain ⟨u, hu, source, back⟩ := ih (known e he).1 rfl
    exact ⟨u, hu, source, .step back he⟩

theorem ids_nodup (distinct : p.ids.Nodup) : q.ids.Nodup := by
  rw [h.ids_perm.nodup_iff, nodup_map_iff_inj_on distinct]
  exact fun _ hx _ hy same => h.injective hx hy same

theorem acyclic (known : ∀ e ∈ p.edges, e.1 ∈ p.ids ∧ e.2 ∈ p.ids) (old : Acyclic p.edges) :
    Acyclic q.edges := by
  intro v' n cycle
  obtain ⟨w, -, edge⟩ := cycle.last
  obtain ⟨e, he, same⟩ := h.mem_edges.1 edge
  cases same
  obtain ⟨u, hu, source, walk⟩ := h.walk_back known cycle (known e he).2 rfl
  obtain rfl := h.injective hu (known e he).2 source
  exact old _ n walk

/-- The rearranged plan can be normalized as well. -/
theorem sortable (old : Orderable p) : Sortable q := by
  refine ⟨h.ids_nodup old.distinct, ?_, ?_, h.acyclic old.known old.acyclic⟩
  · intro id mem
    obtain ⟨id, hid, rfl⟩ := h.mem_ids.1 mem
    exact h.keys id hid
  · intro e mem
    obtain ⟨e, he, rfl⟩ := h.mem_edges.1 mem
    exact ⟨h.mem_ids.2 ⟨e.1, (old.known e he).1, rfl⟩, h.mem_ids.2 ⟨e.2, (old.known e he).2, rfl⟩⟩

end Rearranged

/-!
# The stable topological order

`stableTopologicalOrder` returns an order of all invocations that always takes
a least one of those whose sources are taken. Which of several least ones is
the choice of the ids; every choice is that of some ids.
-/

variable {v w : String}

section Order
variable (localeCompare : String → String → Ordering) [Std.TransCmp localeCompare]

section
variable {plan : ExecutionPlan} (distinct : plan.ids.Nodup)
include distinct

theorem idSet_eq : idSet plan = plan.ids := by
  rw [idSet, (nodup_reverse.2 distinct).dedup, reverse_reverse]

theorem invocationById_of_mem {i : Invocation}
    (mem : i ∈ plan.invocations) : invocationById plan i.id = some i := by
  unfold invocationById
  cases found : plan.invocations.reverse.find? fun j => j.id = i.id with
  | none => simpa using find?_eq_none.1 found i (mem_reverse.2 mem)
  | some j =>
    have same := find?_some found
    rw [decide_eq_true_eq] at same
    rw [Rows.eq_of_key distinct (mem_reverse.1 (mem_of_find?_eq_some found)) mem same]

theorem invocationById_of_id
    (mem : id ∈ plan.ids) : ∃ i ∈ plan.invocations, i.id = id ∧ invocationById plan id = some i := by
  obtain ⟨i, hi, rfl⟩ := mem_map.1 mem
  exact ⟨i, hi, rfl, invocationById_of_mem distinct hi⟩

end

/-- The key by which an id is compared first. -/
def keyAt (plan : ExecutionPlan) (id : String) : String :=
  ((invocationById plan id).map (invocationSemanticSortKey localeCompare)).getD ""

/-- The comparison of known ids, as one comparison of all strings. -/
def compareKeyed (plan : ExecutionPlan) : String → String → Ordering :=
  compareLex (fun v w => localeCompare (keyAt localeCompare plan v) (keyAt localeCompare plan w))
    localeCompare

instance (plan : ExecutionPlan) : Std.TransCmp (compareKeyed localeCompare plan) :=
  transCmp_then (transCmp_key (keyAt localeCompare plan)) inferInstance

omit [Std.TransCmp localeCompare] in
theorem compareIds_eq (distinct : plan.ids.Nodup) (hv : v ∈ plan.ids) (hw : w ∈ plan.ids) :
    compareIds localeCompare plan v w = compareKeyed localeCompare plan v w := by
  obtain ⟨i, -, -, atV⟩ := invocationById_of_id distinct hv
  obtain ⟨j, -, -, atW⟩ := invocationById_of_id distinct hw
  simp [compareIds, compareKeyed, compareLex, keyAt, atV, atW]

theorem compareIds_self (v : String) : compareIds localeCompare plan v v = .eq := by
  have refl (s : String) : localeCompare s s = .eq := Std.ReflCmp.compare_self
  cases found : invocationById plan v <;> simp [compareIds, found, refl]

/-- `compareIds` as a preference. -/
def IdsLE (plan : ExecutionPlan) (v w : String) : Prop := (compareIds localeCompare plan v w).isLE

theorem sort_compareIds (distinct : plan.ids.Nodup) {l : List String} (known : ∀ v ∈ l, v ∈ plan.ids) :
    (sort (compareIds localeCompare plan) l).Pairwise (IdsLE localeCompare plan) := by
  have same : ∀ a ∈ l, ∀ b ∈ l, compareKeyed localeCompare plan a b = compareIds localeCompare plan a b :=
    fun a ha b hb => (compareIds_eq localeCompare distinct (known a ha) (known b hb)).symm
  have sorted : (sort (compareKeyed localeCompare plan) l).Pairwise fun v w =>
      (compareKeyed localeCompare plan v w).isLE := sort_pairwise l
  rw [← sort_congr same] at sorted
  refine sorted.imp_of_mem fun {a b} ha hb le => ?_
  rw [IdsLE, ← same a (mem_sort.1 ha) b (mem_sort.1 hb)]
  exact le

omit [Std.TransCmp localeCompare] in
/-- No id is empty, so the loop runs on. -/
theorem orderLoop_eq (keys : "" ∉ plan.ids)
    {s : State String Unit} (visits : ∀ turns, ∀ v ∈ (runSorted
      (sort (compareIds localeCompare plan)) (outgoingIds localeCompare plan) turns s).rest, v ∈ plan.ids)
    (turns : Nat) : orderLoop localeCompare plan turns s =
      runSorted (sort (compareIds localeCompare plan)) (outgoingIds localeCompare plan) turns s := by
  induction turns generalizing s with
  | zero => rfl
  | succ turns ih =>
    have named : s.rest.head? ≠ some "" := fun empty =>
      keys (visits 0 "" (mem_of_mem_head? empty))
    rw [orderLoop, if_neg named, runSorted]
    exact ih fun turns => visits (turns + 1)

/-- The loop without its guard against an empty id. -/
def sortedRun (plan : ExecutionPlan) (turns : Nat) : State String Unit :=
  runSorted (sort (compareIds localeCompare plan)) (outgoingIds localeCompare plan) turns
    (readyIds localeCompare plan)

theorem sortedRun_chosen (distinct : plan.ids.Nodup)
    (known : ∀ e ∈ plan.edges, e.1 ∈ plan.ids ∧ e.2 ∈ plan.ids) (turns : Nat) :
    Chosen (IdsLE localeCompare plan) plan.edges plan.ids (sortedRun localeCompare plan turns) ∧
      (plan.ids.length ≤ turns → (sortedRun localeCompare plan turns).rest = []) := by
  have perm (l : List String) := sort_perm (compareIds localeCompare plan) l
  have pairwise (l : List String) := sort_compareIds localeCompare distinct (l := l)
  have reflexive (v : String) : IdsLE localeCompare plan v v := by
    rw [IdsLE, compareIds_self]
    rfl
  have listed (u : String) : (outgoingIds localeCompare plan u).Perm (successors plan.edges u) :=
    perm _
  have closed : ∀ e ∈ plan.edges, e.2 ∈ plan.ids := fun e he => (known e he).2
  have start : Chosen (IdsLE localeCompare plan) plan.edges plan.ids (readyIds localeCompare plan) := by
    refine init_chosen plan.edges distinct rfl rfl ?_ ?_
    · rw [readyIds, idSet_eq distinct]
      exact perm _
    · apply pairwise
      rw [idSet_eq distinct]
      exact fun v hv => (mem_filter.1 hv).1
  refine ⟨start.run perm pairwise closed reflexive listed turns, fun enough => ?_⟩
  exact runSorted_exhausts perm pairwise start closed reflexive listed
    (show plan.ids.length ≤ _ + turns from enough.trans (Nat.le_add_left _ _))

omit [Std.TransCmp localeCompare] in
/-- With known endpoints only the length of the order is checked. -/
theorem stableTopologicalOrder_eq (distinct : plan.ids.Nodup)
    (known : ∀ e ∈ plan.edges, e.1 ∈ plan.ids ∧ e.2 ∈ plan.ids) {order : List String} (run :
      (orderLoop localeCompare plan plan.ids.length (readyIds localeCompare plan)).order = order) :
    stableTopologicalOrder localeCompare plan =
      if order.length ≠ plan.ids.length then .error ⟨.graphInvalid, "Execution graph must be acyclic"⟩
      else .ok order := by
  have endpoints : plan.dependencies.forM (fun dependency =>
      if dependency.fromInvocationId ∉ plan.ids ∨ dependency.toInvocationId ∉ plan.ids then
        Except.error (SemanticPlannerError.mk .graphInvalid
          "Cannot normalize a graph with unknown invocation references")
      else .ok ()) = .ok () := by
    rw [Checks.forM_eq_ok]
    intro d hd
    obtain ⟨source, target⟩ := known _ (mem_map.2 ⟨d, hd, rfl⟩)
    exact if_neg (by simp [source, target])
  unfold stableTopologicalOrder
  rw [endpoints, idSet_eq distinct, run]
  rfl

/-- A plan without cycles has a stable order, of all its invocations. -/
theorem stableTopologicalOrder_ok (h : Orderable plan) : ∃ order,
    stableTopologicalOrder localeCompare plan = .ok order ∧
      Preferred plan.edges plan.ids (IdsLE localeCompare plan) order ∧
      ∀ id ∈ plan.ids, id ∈ order := by
  have run (turns : Nat) := sortedRun_chosen localeCompare h.distinct h.known turns
  have loop := orderLoop_eq localeCompare h.named
    (fun turns v hv => (run turns).1.counting.known v (mem_append_right _ hv)) plan.ids.length
  obtain ⟨last, done⟩ := run plan.ids.length
  have all := last.toSorted.all h.acyclic (fun e he => (h.known e he).1) (done le_rfl)
  have length := ((perm_ext_iff_of_nodup last.preferred.ordered.nodup h.distinct).2
    fun v => ⟨last.preferred.known v, all v⟩).length_eq
  refine ⟨_, ?_, last.preferred, all⟩
  rw [stableTopologicalOrder_eq localeCompare h.distinct h.known (congrArg State.order loop)]
  exact if_neg (not_not.2 length)

end Order

section Keys
variable (collation : Collation) {p q : ExecutionPlan} {f : String → String}

/-- Criteria of one id are the same. -/
def CriteriaSettled (criteria : List AcceptanceCriteria) : Prop :=
  ∀ c ∈ criteria, ∀ c' ∈ criteria, c.id = c'.id → c = c'

instance : Std.TransCmp fun a b : OutputDeclaration => collation.localeCompare a.name b.name :=
  transCmp_key OutputDeclaration.name

instance : Std.TransCmp fun a b : AcceptanceCriteria => collation.localeCompare a.id b.id :=
  transCmp_key AcceptanceCriteria.id

variable {i : Invocation}

theorem sortOutputs_eq (h : WellFormed p) (mem : i ∈ p.invocations) {outputs : List OutputDeclaration}
    (perm : outputs.Perm i.outputs) :
    sortOutputs collation.localeCompare outputs = sortOutputs collation.localeCompare i.outputs := by
  refine (sort_eq_of_perm perm.symm fun a ha b hb same => ?_).symm
  exact Rows.eq_of_key (h.checked.outputs i mem) ha hb
    (collation.keys _ _ (h.output_key mem ha) (h.output_key mem hb) same)

theorem sortCriteria_eq (h : WellFormed p) (mem : i ∈ p.invocations)
    (settled : CriteriaSettled i.acceptanceCriteria) {criteria : List AcceptanceCriteria}
    (perm : criteria.Perm i.acceptanceCriteria) : sortCriteria collation.localeCompare criteria =
      sortCriteria collation.localeCompare i.acceptanceCriteria := by
  refine (sort_eq_of_perm perm.symm fun a ha b hb same => ?_).symm
  exact settled a ha b hb
    (collation.keys _ _ (h.criterion_key mem ha) (h.criterion_key mem hb) same)

variable (h : WellFormed p) (settled : ∀ i ∈ p.invocations, CriteriaSettled i.acceptanceCriteria)
  (rearranged : Rearranged f p q)
include h settled

/-- The key of an invocation sorts its lists and does not read its id. -/
theorem sortKey_eq {i' : Invocation} (mem : i ∈ p.invocations) (r : InvocationRearranged f i i') :
    invocationSemanticSortKey collation.localeCompare i' =
      invocationSemanticSortKey collation.localeCompare i := by
  have others := r.others
  have purpose : i'.purpose = i.purpose := (congrArg Invocation.purpose others :)
  have target : i'.target = i.target := (congrArg Invocation.target others :)
  have risk : i'.riskClass = i.riskClass := (congrArg Invocation.riskClass others :)
  have approval : i'.approvalPolicy = i.approvalPolicy := (congrArg Invocation.approvalPolicy others :)
  have failure : i'.failurePolicy = i.failurePolicy := (congrArg Invocation.failurePolicy others :)
  have join : i'.joinPolicy = i.joinPolicy := (congrArg Invocation.joinPolicy others :)
  unfold invocationSemanticSortKey
  rw [purpose, target, risk, approval, failure, join, sortOutputs_eq collation h mem r.outputs,
    sortCriteria_eq collation h mem (settled i mem) r.acceptanceCriteria]

include rearranged

theorem keyAt_eq (mem : id ∈ p.ids) :
    keyAt collation.localeCompare q (f id) = keyAt collation.localeCompare p id := by
  obtain ⟨i, hi, rfl, found⟩ := invocationById_of_id h.checked.ids mem
  obtain ⟨i', hi', r⟩ := rearranged.invocations.left hi
  have found' := invocationById_of_mem (rearranged.sortable h.orderable).distinct hi'
  rw [r.id] at found'
  rw [keyAt, keyAt, found, found', Option.map_some, Option.map_some, sortKey_eq collation h settled hi r]

end Keys

section Preferred
variable (collation : Collation)

/-- An order of all invocations that always takes one whose key is least among
those whose sources are taken. -/
structure PreferredOrder (plan : ExecutionPlan) (order : List String) : Prop where
  preferred : Preferred plan.edges plan.ids (fun v w =>
    (collation.localeCompare (keyAt collation.localeCompare plan v)
      (keyAt collation.localeCompare plan w)).isLE) order
  complete : ∀ id ∈ plan.ids, id ∈ order

variable {collation} {p q : ExecutionPlan} {f : String → String}

/-- The order of a rearranged plan is a preferred one, renamed. -/
theorem stableTopologicalOrder_rearranged (h : WellFormed p)
    (settled : ∀ i ∈ p.invocations, CriteriaSettled i.acceptanceCriteria) (rearranged : Rearranged f p q) :
    ∃ order, stableTopologicalOrder collation.localeCompare q = .ok (order.map f) ∧
      PreferredOrder collation p order := by
  have old := h.sortable
  have new := rearranged.sortable old.orderable
  obtain ⟨order, stable, preferred, complete⟩ := stableTopologicalOrder_ok collation.localeCompare new.orderable
  let g := invFunOn f {id | id ∈ p.ids}
  have back {id : String} (mem : id ∈ p.ids) : g (f id) = id :=
    rearranged.injective (invFunOn_mem ⟨id, mem, rfl⟩) mem (invFunOn_eq ⟨id, mem, rfl⟩)
  have forth {id : String} (mem : id ∈ q.ids) : g id ∈ p.ids ∧ f (g id) = id := by
    obtain ⟨id, hid, rfl⟩ := rearranged.mem_ids.1 mem
    rw [back hid]
    exact ⟨hid, rfl⟩
  have renamed : (order.map g).map f = order := by
    rw [map_map]
    exact (map_congr_left fun id mem => (forth (preferred.known id mem)).2).trans (map_id _)
  refine ⟨order.map g, by rw [renamed, stable], ?_, ?_⟩
  · refine preferred.map ?_ new.known ?_ ?_ ?_
    · intro v hv w hw same
      rw [← (forth hv).2, ← (forth hw).2, same]
    · intro e
      constructor
      · intro mem
        refine ⟨_, rearranged.mem_edges.2 ⟨e, mem, rfl⟩, ?_⟩
        rw [back (old.known e mem).1, back (old.known e mem).2]
      · rintro ⟨e', mem, rfl⟩
        obtain ⟨e, he, rfl⟩ := rearranged.mem_edges.1 mem
        rwa [back (old.known e he).1, back (old.known e he).2]
    · intro id
      constructor
      · exact fun mem => ⟨f id, rearranged.mem_ids.2 ⟨id, mem, rfl⟩, back mem⟩
      · rintro ⟨id, mem, rfl⟩
        exact (forth mem).1
    · intro v hv w hw le
      rw [IdsLE, compareIds_eq _ new.distinct hv hw, compareKeyed, compareLex,
        Ordering.isLE_then_iff_and] at le
      rw [← keyAt_eq collation h settled rearranged (forth hv).1,
        ← keyAt_eq collation h settled rearranged (forth hw).1, (forth hv).2, (forth hw).2]
      exact le.1
  · intro id mem
    exact mem_map.2 ⟨f id, complete _ (rearranged.mem_ids.2 ⟨id, mem, rfl⟩), back mem⟩

/-- Collating ids leaves no two of them undecided. -/
theorem idsLE_antisymm (h : Sortable q) (hv : v ∈ q.ids) (hw : w ∈ q.ids)
    (le : IdsLE collation.localeCompare q v w) (ge : IdsLE collation.localeCompare q w v) : v = w := by
  rw [IdsLE, compareIds_eq _ h.distinct hv hw] at le
  rw [IdsLE, compareIds_eq _ h.distinct hw hv] at ge
  have same := eq_of_isLE le ge
  rw [compareKeyed, compareLex, Ordering.then_eq_eq] at same
  exact collation.keys v w (h.keys v hv) (h.keys w hw) same.2

variable {order : List String}

theorem PreferredOrder.perm (h : PreferredOrder collation p order) (distinct : p.ids.Nodup) : order.Perm p.ids :=
  (perm_ext_iff_of_nodup h.preferred.ordered.nodup distinct).2 fun v =>
    ⟨h.preferred.known v, h.complete v⟩

/-- Ids that are collated as a preferred order has them lead to that order. -/
theorem PreferredOrder.chosen_of_keys (chosen : PreferredOrder collation p order) (old : Orderable p)
    (rearranged : Rearranged f p q)
    (keys : ∀ v ∈ p.ids, keyAt collation.localeCompare q (f v) = keyAt collation.localeCompare p v)
    (collated : ∀ v ∈ p.ids, ∀ w ∈ p.ids,
      order.idxOf v ≤ order.idxOf w → (collation.localeCompare (f v) (f w)).isLE) :
    stableTopologicalOrder collation.localeCompare q = .ok (order.map f) := by
  have new := rearranged.sortable old
  obtain ⟨result, stable, preferred, complete⟩ :=
    stableTopologicalOrder_ok collation.localeCompare new.orderable
  have mapped : Preferred q.edges q.ids (IdsLE collation.localeCompare q) (order.map f) := by
    refine chosen.preferred.refine.map rearranged.injective old.known (fun e => rearranged.mem_edges)
      (fun id => rearranged.mem_ids) ?_
    rintro v hv w hw ⟨le, earlier⟩
    have known {id : String} (mem : id ∈ p.ids) : f id ∈ q.ids := rearranged.mem_ids.2 ⟨id, mem, rfl⟩
    rw [IdsLE, compareIds_eq _ new.distinct (known hv) (known hw), compareKeyed, compareLex,
      Ordering.isLE_then_iff_and, keys v hv, keys w hw]
    refine ⟨le, ?_⟩
    rw [or_iff_not_imp_left]
    intro undecided
    apply collated v hv w hw (earlier _)
    rw [show collation.localeCompare (keyAt collation.localeCompare p w)
      (keyAt collation.localeCompare p v) = _ from Std.OrientedCmp.eq_swap]
    cases hc : collation.localeCompare (keyAt collation.localeCompare p v)
      (keyAt collation.localeCompare p w) with
    | lt => exact absurd hc undecided
    | eq => rfl
    | gt => rw [hc] at le; cases le
  have lengths : result.length = (order.map f).length := by
    have all := (perm_ext_iff_of_nodup preferred.ordered.nodup new.distinct).2
      fun v => ⟨preferred.known v, complete v⟩
    rw [all.length_eq, rearranged.ids_perm.length_eq, length_map, length_map,
      (chosen.perm old.distinct).length_eq]
  rw [stable, preferred.unique mapped (fun v hv w hw => idsLE_antisymm new hv hw) lengths]

theorem PreferredOrder.chosen {order : List String} (chosen : PreferredOrder collation p order)
    (h : WellFormed p) (settled : ∀ i ∈ p.invocations, CriteriaSettled i.acceptanceCriteria)
    (rearranged : Rearranged f p q) (collated : ∀ v ∈ p.ids, ∀ w ∈ p.ids,
      order.idxOf v ≤ order.idxOf w → (collation.localeCompare (f v) (f w)).isLE) :
    stableTopologicalOrder collation.localeCompare q = .ok (order.map f) :=
  chosen.chosen_of_keys h.orderable rearranged
    (fun _ mem => keyAt_eq collation h settled rearranged mem) collated

end Preferred

end Vimla.Orchestration
