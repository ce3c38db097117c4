import Vimla.Orchestration.Canonical

/-!
# Which plans have one canonical form

The plan of `normalizeSemanticExecutionPlan` is the same for all
rearrangements of a well-formed plan exactly when criteria of one id are the
same, conditions between the same invocations are told apart, and all orders
that always take an invocation with a least key come from one another by
automorphisms of the plan.
-/

namespace Vimla.Orchestration

open List Js

/-- What the sorts leave undecided makes no difference. -/
structure Unambiguous (collation : Collation) (plan : ExecutionPlan) : Prop where
  criteria : ∀ i ∈ plan.invocations, CriteriaSettled i.acceptanceCriteria
  conditions : ConditionsSettled collation plan
  orders : ∀ order order', PreferredOrder collation plan order → PreferredOrder collation plan order' →
    ∃ f, order' = order.map f ∧ Rearranged f plan plan

variable {collation : Collation} {p q : ExecutionPlan} {f : String → String} {order order' : List String}

theorem rearranged_self (h : WellFormed p) : Rearranged id p p where
  goal := rfl
  maxParallelism := rfl
  injective := fun _ _ _ _ same => same
  keys := fun _ mem => h.id_key mem
  invocations := ⟨_, .refl _, forall₂_same.2 fun _ _ => ⟨rfl, .refl _, .refl _, rfl⟩⟩
  dependencyIds := h.checked.distinct.ids
  dependencies := ⟨_, .refl _, forall₂_same.2 fun _ _ => ⟨rfl, rfl, rfl, .refl _⟩⟩

/-- A rearranged plan is normalized along a preferred order of the old one. -/
theorem normalize_rearranged (h : WellFormed p)
    (settled : ∀ i ∈ p.invocations, CriteriaSettled i.acceptanceCriteria) (rearranged : Rearranged f p q) :
    ∃ order, PreferredOrder collation p order ∧
      normalizeSemanticExecutionPlan collation.localeCompare q =
        .ok (canonicalPlan collation q (order.map f)) := by
  obtain ⟨order, stable, preferred⟩ := @stableTopologicalOrder_rearranged collation _ _ _ h settled rearranged
  have perm := (preferred.perm h.checked.ids).map f
  exact ⟨order, preferred, normalizeSemanticExecutionPlan_eq (rearranged.sortable h.orderable).orderable stable
    (perm.trans rearranged.ids_perm.symm)⟩

theorem Unambiguous.canonical (u : Unambiguous collation p) (h : WellFormed p)
    (rearranged : Rearranged f p q) :
    normalizeSemanticExecutionPlan collation.localeCompare q =
      normalizeSemanticExecutionPlan collation.localeCompare p := by
  obtain ⟨order, preferred, same⟩ := normalize_rearranged h u.criteria rearranged
  obtain ⟨order', preferred', same'⟩ := normalize_rearranged h u.criteria (rearranged_self h)
  rw [map_id] at same'
  obtain ⟨g, rfl, automorphism⟩ := u.orders order order' preferred preferred'
  have perm := preferred.perm h.checked.ids
  rw [same, same', canonicalPlan_rearranged h u.criteria u.conditions rearranged perm,
    canonicalPlan_rearranged h u.criteria u.conditions automorphism perm]

def nameless (i : Invocation) : Invocation := { i with id := "" }

/-- The canonical invocations are the forms of the invocations, whatever the order. -/
theorem canonical_contents (h : Sortable q) (perm : order.Perm q.ids) :
    ((canonicalPlan collation q order).invocations.map nameless).Perm
      (q.invocations.map fun i => normalForm collation i "") := by
  have forms := (@canonical_invocations collation _ _ h.distinct perm).map nameless
  rwa [map_map] at forms

section Necessary
variable (h : WellFormed p) (same : ∀ f q, Rearranged f p q →
  normalizeSemanticExecutionPlan collation.localeCompare q =
    normalizeSemanticExecutionPlan collation.localeCompare p)
include h same

theorem criteria_settled {i : Invocation} (mem : i ∈ p.invocations) :
    CriteriaSettled i.acceptanceCriteria := by
  intro c hc c' hc' ids
  by_contra differ
  let rest := (i.acceptanceCriteria.erase c).erase c'
  have listed : (c :: c' :: rest).Perm i.acceptanceCriteria :=
    (((perm_cons_erase hc).trans
      ((perm_cons_erase ((mem_erase_of_ne (Ne.symm differ)).2 hc')).cons c))).symm
  -- `p` with the criteria of `i` in another order.
  let arranged (criteria : List AcceptanceCriteria) : ExecutionPlan :=
    { p with invocations := { i with acceptanceCriteria := criteria } :: p.invocations.erase i }
  have rearranged {criteria : List AcceptanceCriteria} (perm : criteria.Perm i.acceptanceCriteria) :
      Rearranged id p (arranged criteria) := by
    refine { rearranged_self h with invocations := ?_ }
    refine ⟨_, (perm_cons_erase mem).symm, .cons ⟨rfl, .refl _, perm, rfl⟩ ?_⟩
    exact forall₂_same.2 fun _ _ => ⟨rfl, .refl _, .refl _, rfl⟩
  have forms {criteria : List AcceptanceCriteria} (perm : criteria.Perm i.acceptanceCriteria) :
      ∃ plan, normalizeSemanticExecutionPlan collation.localeCompare p = .ok plan ∧
        (plan.invocations.map nameless).Perm (normalForm collation { i with acceptanceCriteria := criteria } "" ::
          (p.invocations.erase i).map fun i => normalForm collation i "") := by
    have sortable := (rearranged perm).sortable h.orderable
    obtain ⟨order, stable, preferred, complete⟩ :=
      stableTopologicalOrder_ok collation.localeCompare sortable.orderable
    have order_perm := (perm_ext_iff_of_nodup preferred.ordered.nodup sortable.distinct).2
      fun v => ⟨preferred.known v, complete v⟩
    refine ⟨_, ?_, canonical_contents sortable order_perm⟩
    rw [← same _ _ (rearranged perm)]
    exact normalizeSemanticExecutionPlan_eq sortable.orderable stable order_perm
  obtain ⟨plan, normal, contents⟩ := forms listed
  obtain ⟨plan', normal', contents'⟩ := forms ((List.Perm.swap c c' rest).trans listed)
  rw [normal] at normal'
  cases normal'
  have equal := Multiset.coe_eq_coe.2 (contents.symm.trans contents')
  rw [← Multiset.cons_coe, ← Multiset.cons_coe, Multiset.cons_inj_left] at equal
  have sorted := congrArg Invocation.acceptanceCriteria equal
  refine differ (sort_swap ?_ sorted)
  rw [ids]
  exact Std.ReflCmp.compare_self

omit h same in
theorem number_anonymous (l : List InvocationDependency) :
    (l.zipIdx.map numberDependency).map anonymous = l.map anonymous := by
  rw [map_map, show anonymous ∘ numberDependency = anonymous ∘ Prod.fst from rfl, ← map_map,
    zipIdx_map_fst]

omit h same in
/-- The canonical dependencies without their ids. -/
theorem canonical_dependencies (q : ExecutionPlan) (order : List String) :
    (canonicalPlan collation q order).dependencies.map anonymous =
      sort (compareDependencies collation.localeCompare)
        ((q.dependencies.map (relabel collation order)).map anonymous) := by
  rw [canonicalPlan, number_anonymous]
  exact sort_map fun _ _ _ _ => rfl

omit same in
/-- The order of the dependencies has no effect on that of the invocations. -/
theorem stableTopologicalOrder_same (settled : ∀ i ∈ p.invocations, CriteriaSettled i.acceptanceCriteria)
    (rearranged : Rearranged id p q) : stableTopologicalOrder collation.localeCompare q =
      stableTopologicalOrder collation.localeCompare p := by
  have old := h.sortable
  have new := rearranged.sortable old.orderable
  obtain ⟨order, stable, preferred, complete⟩ := stableTopologicalOrder_ok collation.localeCompare old.orderable
  obtain ⟨order', stable', preferred', complete'⟩ := stableTopologicalOrder_ok collation.localeCompare new.orderable
  have known {v : String} (mem : v ∈ p.ids) : v ∈ q.ids := rearranged.mem_ids.2 ⟨v, mem, rfl⟩
  have same {v : String} (mem : v ∈ p.ids) :
      keyAt collation.localeCompare q v = keyAt collation.localeCompare p v :=
    keyAt_eq collation h settled rearranged mem
  have mapped : Kahn.Preferred q.edges q.ids (IdsLE collation.localeCompare q) (order.map id) := by
    refine preferred.map rearranged.injective old.known (fun e => rearranged.mem_edges)
      (fun v => rearranged.mem_ids) ?_
    intro v hv w hw le
    rw [IdsLE, compareIds_eq _ old.distinct hv hw, compareKeyed, compareLex] at le
    rwa [id, id, IdsLE, compareIds_eq _ new.distinct (known hv) (known hw), compareKeyed, compareLex,
      same hv, same hw]
  rw [map_id] at mapped
  have lengths : order'.length = order.length := by
    rw [((perm_ext_iff_of_nodup preferred'.ordered.nodup new.distinct).2 fun v =>
      ⟨preferred'.known v, complete' v⟩).length_eq, rearranged.ids_perm.length_eq, length_map,
      ((perm_ext_iff_of_nodup preferred.ordered.nodup old.distinct).2 fun v =>
      ⟨preferred.known v, complete v⟩).length_eq]
  rw [stable, stable', preferred'.unique mapped (fun v hv w hw => idsLE_antisymm new hv hw) lengths]

theorem conditions_settled : ConditionsSettled collation p := by
  have settled := fun i mem => criteria_settled h same (i := i) mem
  intro d hd e he source target tie
  by_contra differ
  have other : e ≠ d := fun same => differ (congrArg InvocationDependency.condition same).symm
  let rest := (p.dependencies.erase d).erase e
  have listed : (d :: e :: rest).Perm p.dependencies :=
    ((perm_cons_erase hd).trans
      ((perm_cons_erase ((mem_erase_of_ne other).2 he)).cons d)).symm
  -- `p` with its dependencies in another order.
  have rearranged {dependencies : List InvocationDependency} (perm : dependencies.Perm p.dependencies) :
      Rearranged id p { p with dependencies := dependencies } := by
    refine { rearranged_self h with dependencyIds := ?_, dependencies := ?_ }
    · exact (perm.map _).nodup_iff.2 h.checked.distinct.ids
    · exact ⟨dependencies, perm, forall₂_same.2 fun _ _ => ⟨rfl, rfl, rfl, .refl _⟩⟩
  obtain ⟨order, stable, preferred, complete⟩ :=
    stableTopologicalOrder_ok collation.localeCompare h.orderable
  have order_perm := (perm_ext_iff_of_nodup preferred.ordered.nodup h.checked.ids).2
    fun v => ⟨preferred.known v, complete v⟩
  have forms {dependencies : List InvocationDependency} (perm : dependencies.Perm p.dependencies) :
      normalizeSemanticExecutionPlan collation.localeCompare p =
        .ok (canonicalPlan collation { p with dependencies := dependencies } order) := by
    rw [← same _ _ (rearranged perm)]
    refine normalizeSemanticExecutionPlan_eq ((rearranged perm).sortable h.orderable).orderable ?_ order_perm
    rw [stableTopologicalOrder_same h settled (rearranged perm), stable]
  have equal := Except.ok.inj ((forms listed).symm.trans (forms ((List.Perm.swap d e rest).trans listed)))
  have sorted := congrArg (fun plan => plan.dependencies.map anonymous) equal
  simp only [canonical_dependencies, map_cons] at sorted
  have refl (s : String) : collation.localeCompare s s = .eq := Std.ReflCmp.compare_self
  have tied : compareDependencies collation.localeCompare (anonymous (relabel collation order d))
      (anonymous (relabel collation order e)) = .eq := by
    simp [compareDependencies, anonymous, relabel, source, target, refl, tie]
  have alike := sort_swap tied sorted
  exact differ (congrArg InvocationDependency.condition alike :)

end Necessary

theorem stepId_key : ∀ i < EXECUTION_PLAN_RUNTIME_LIMITS.maxInvocations,
    GRAPH_KEY_PATTERN (stepId i) = true := by decide +kernel

/-- The plan with its invocations renamed. -/
def renamed (f : String → String) (plan : ExecutionPlan) : ExecutionPlan :=
  { plan with
    invocations := plan.invocations.map fun i => { i with id := f i.id }
    dependencies := plan.dependencies.map fun d =>
      { d with fromInvocationId := f d.fromInvocationId, toInvocationId := f d.toInvocationId } }

theorem renamed_rearranged (h : WellFormed p) (injective : Set.InjOn f {id | id ∈ p.ids})
    (keys : ∀ id ∈ p.ids, GRAPH_KEY_PATTERN (f id) = true) : Rearranged f p (renamed f p) where
  goal := rfl
  maxParallelism := rfl
  injective := injective
  keys := keys
  invocations := .of_map fun _ _ => ⟨rfl, .refl _, .refl _, rfl⟩
  dependencyIds := by
    rw [renamed, map_map]
    exact h.checked.distinct.ids
  dependencies := .of_map fun _ _ => ⟨rfl, rfl, rfl, .refl _⟩

/-- Named by their places in a preferred order, the invocations are put into it. -/
theorem normalize_chosen (h : WellFormed p) (criteria : ∀ i ∈ p.invocations, CriteriaSettled i.acceptanceCriteria)
    (conditions : ConditionsSettled collation p) (chosen : PreferredOrder collation p order) :
    ∃ f, Rearranged f p (renamed f p) ∧
      normalizeSemanticExecutionPlan collation.localeCompare (renamed f p) =
        .ok (canonicalPlan collation p order) := by
  have perm := chosen.perm h.checked.ids
  let f (id : String) : String := stepId (order.idxOf id)
  have rearranged : Rearranged f p (renamed f p) := by
    exact renamed_rearranged h (step_injOn perm collation h.length_le) fun id mem =>
      stepId_key _ (idxOf_lt perm h.length_le mem)
  have stable := chosen.chosen h criteria rearranged fun v hv w hw le =>
    step_collated perm h.length_le hw le
  refine ⟨f, rearranged, ?_⟩
  rw [normalizeSemanticExecutionPlan_eq (rearranged.sortable h.orderable).orderable stable
    ((perm.map _).trans rearranged.ids_perm.symm),
    canonicalPlan_rearranged h criteria conditions rearranged perm]

theorem filterMap_some_eq {α β : Type} {g k : α → Option β} {l : List α} (some : ∀ a ∈ l, (g a).isSome)
    (some' : ∀ a ∈ l, (k a).isSome) (same : l.filterMap g = l.filterMap k) : ∀ a ∈ l, g a = k a := by
  induction l with
  | nil => simp
  | cons a l ih =>
    obtain ⟨b, hb⟩ := Option.isSome_iff_exists.1 (some a mem_cons_self)
    obtain ⟨c, hc⟩ := Option.isSome_iff_exists.1 (some' a mem_cons_self)
    rw [filterMap_cons_some hb, filterMap_cons_some hc, cons.injEq] at same
    intro x hx
    obtain rfl | hx := mem_cons.1 hx
    · rw [hb, hc, same.1]
    · exact ih (fun a ha => some a (mem_cons_of_mem _ ha)) (fun a ha => some' a (mem_cons_of_mem _ ha))
        same.2 x hx

theorem invocationRearranged_of_form {i i' : Invocation} {v w : String} (name : i'.id = f i.id)
    (form : normalForm collation i v = normalForm collation i' w) : InvocationRearranged f i i' := by
  have outputs : sortOutputs collation.localeCompare i.outputs =
      sortOutputs collation.localeCompare i'.outputs := (congrArg Invocation.outputs form :)
  have criteria : sortCriteria collation.localeCompare i.acceptanceCriteria =
      sortCriteria collation.localeCompare i'.acceptanceCriteria :=
    (congrArg Invocation.acceptanceCriteria form :)
  refine ⟨name, ?_, ?_, ?_⟩
  · exact (perm_of_sort_eq outputs).symm
  · exact (perm_of_sort_eq criteria).symm
  · have others := congrArg (fun j : Invocation =>
      { j with id := i.id, outputs := i.outputs, acceptanceCriteria := i.acceptanceCriteria }) form
    exact others.symm

/-- Orders of the same canonical plan differ by an automorphism. -/
theorem automorphism (h : WellFormed p) (perm : order.Perm p.ids) (perm' : order'.Perm p.ids)
    (same : canonicalPlan collation p order = canonicalPlan collation p order') :
    ∃ f, order' = order.map f ∧ Rearranged f p p := by
  let f (id : String) : String := order'.getD (order.idxOf id) ""
  have nodup : order.Nodup := perm.nodup_iff.2 h.checked.ids
  have nodup' : order'.Nodup := perm'.nodup_iff.2 h.checked.ids
  have mapped : order' = order.map f := by
    apply ext_getElem
    · rw [length_map, perm.length_eq, perm'.length_eq]
    · intro k hk hk'
      rw [length_map] at hk'
      rw [getElem_map]
      simp only [f]
      rw [nodup.idxOf_getElem k hk', getD_eq_getElem?_getD, getElem?_eq_getElem hk, Option.getD_some]
  have injective : Set.InjOn f {id | id ∈ p.ids} := by
    have images : (order.map f).Nodup := mapped ▸ nodup'
    rw [nodup_map_iff_inj_on nodup] at images
    exact fun v hv w hw same => images v (perm.mem_iff.2 hv) w (perm.mem_iff.2 hw) same
  have index {id : String} (mem : id ∈ p.ids) : order'.idxOf (f id) = order.idxOf id := by
    rw [mapped]
    exact idxOf_map perm injective mem
  have known {id : String} (mem : id ∈ p.ids) : f id ∈ p.ids := by
    rw [← perm'.mem_iff, mapped]
    exact mem_map_of_mem (perm.mem_iff.2 mem)
  refine ⟨f, mapped, rfl, rfl, injective, fun id mem => h.id_key (known mem), ?_,
    h.checked.distinct.ids, ?_⟩
  · have ids : Matched (fun i i' : Invocation => i'.id = f i.id) p.invocations p.invocations := by
      apply Matched.of_map_perm
      have images := (perm.map f).symm.trans (mapped ▸ perm')
      rwa [ExecutionPlan.ids, map_map] at images
    have forms := congrArg ExecutionPlan.invocations same
    simp only [canonicalPlan] at forms
    rw [mapped, filterMap_map] at forms
    have found {id : String} (mem : id ∈ p.ids) (o : List String) :
        (canonicalInvocation collation p o id).isSome := by
      obtain ⟨i, -, -, found⟩ := invocationById_of_id h.checked.ids mem
      simp [canonicalInvocation, found]
    have each := filterMap_some_eq (fun id mem => found (perm.mem_iff.1 mem) order)
      (fun id mem => found (known (perm.mem_iff.1 mem)) (order.map f)) forms
    refine ids.mem.imp ?_
    rintro i i' ⟨⟨hi, hi'⟩, name⟩
    have hid : i.id ∈ p.ids := mem_map_of_mem hi
    have form := each i.id (perm.mem_iff.2 hid)
    rw [canonicalInvocation, canonicalInvocation,
      invocationById_of_mem h.checked.ids hi, ← name, invocationById_of_mem h.checked.ids hi',
      Option.map_some, Option.map_some, Option.some.injEq] at form
    exact invocationRearranged_of_form name form
  · have forms := congrArg (fun plan => plan.dependencies.map anonymous) same
    simp only [canonical_dependencies] at forms
    have alike := perm_of_sort_eq forms
    rw [map_map, map_map] at alike
    refine (Matched.of_map_perm alike).mem.imp ?_
    rintro d d' ⟨⟨hd, hd'⟩, form⟩
    have known' := h.checked.known hd'
    have knownD := h.checked.known hd
    have endpoint {v w : String} (hv : v ∈ p.ids) (hw : w ∈ p.ids)
        (same : stepId (order'.idxOf w) = stepId (order.idxOf v)) : w = f v := by
      apply (idxOf_inj (perm'.mem_iff.2 hw)).1
      rw [index hv]
      refine @stepId_injective collation _ _ (idxOf_lt perm' h.length_le hw) (idxOf_lt perm h.length_le hv) ?_
      rw [same]
      exact Std.ReflCmp.compare_self
    refine ⟨endpoint knownD.1 known'.1 (congrArg InvocationDependency.fromInvocationId form :),
      endpoint knownD.2 known'.2 (congrArg InvocationDependency.toInvocationId form :),
      (congrArg InvocationDependency.condition form :), ?_⟩
    have bindings : sort (compareBindings collation.localeCompare) d'.inputBindings =
        sort (compareBindings collation.localeCompare) d.inputBindings :=
      (congrArg InvocationDependency.inputBindings form :)
    exact perm_of_sort_eq bindings

/-- Which well-formed plans have the canonical plan of all their rearrangements. -/
theorem normalizeSemanticExecutionPlan_canonical (collation : Collation) {p : ExecutionPlan}
    (h : WellFormed p) : (∀ f q, Rearranged f p q →
      normalizeSemanticExecutionPlan collation.localeCompare q =
        normalizeSemanticExecutionPlan collation.localeCompare p) ↔ Unambiguous collation p := by
  constructor
  · intro same
    have criteria := fun i mem => criteria_settled h same (i := i) mem
    have conditions := conditions_settled h same
    refine ⟨criteria, conditions, fun order order' chosen chosen' => ?_⟩
    obtain ⟨f, rearranged, normal⟩ := normalize_chosen h criteria conditions chosen
    obtain ⟨f', rearranged', normal'⟩ := normalize_chosen h criteria conditions chosen'
    rw [same _ _ rearranged] at normal
    rw [same _ _ rearranged', normal] at normal'
    exact automorphism h (chosen.perm h.checked.ids) (chosen'.perm h.checked.ids) (Except.ok.inj normal')
  · exact fun u f q rearranged => u.canonical h rearranged

/-- By code points. Equal strings need not be read. -/
def compareCodePoints (a b : String) : Ordering :=
  if a = b then .eq else List.compareLex compare (a.toList.map Char.toNat) (b.toList.map Char.toNat)

theorem compareCodePoints_eq : compareCodePoints = fun a b =>
    List.compareLex compare (a.toList.map Char.toNat) (b.toList.map Char.toNat) := by
  funext a b
  unfold compareCodePoints
  split
  · subst_vars
    exact Std.ReflCmp.compare_self.symm
  · rfl

theorem compareCodePoints_trans : Std.TransCmp compareCodePoints := by
  rw [compareCodePoints_eq]
  exact transCmp_key _

def codePoints : Collation where
  localeCompare := compareCodePoints
  trans := compareCodePoints_trans
  keys := by
    intro a b _ _ same
    rw [compareCodePoints_eq] at same
    have chars := Std.LawfulEqCmp.eq_of_compare same
    have injective : Function.Injective Char.toNat := fun c d => Char.toNat_inj.1
    exact String.toList_inj.1 (map_injective_iff.2 injective chars)
  steps := by
    have trans := compareCodePoints_trans
    have next : ∀ i < EXECUTION_PLAN_RUNTIME_LIMITS.maxInvocations - 1,
        compareCodePoints (stepId i) (stepId (i + 1)) = .lt := by decide +kernel
    intro i j less bound
    induction j with
    | zero => omega
    | succ j ih =>
      have step := next j (by omega)
      obtain less | rfl := Nat.lt_or_eq_of_le (Nat.le_of_lt_succ less)
      · exact Std.TransCmp.lt_trans (ih less (by omega)) step
      · exact step

namespace Twins

def post (id : String) : Invocation where
  id := id
  purpose := "Post an update"
  target := .vimla
  riskClass := .internalWrite
  approvalPolicy := .userConfirmation

def followUp (source : String) : InvocationDependency where
  id := "then"
  fromInvocationId := source
  toInvocationId := "c"
  condition := .onSuccess

/-- Of three posts alike, the third follows the first. -/
def plan : ExecutionPlan := ⟨"Keep the team posted", 3, [post "a", post "b", post "c"], [followUp "a"]⟩

/-- The same with the first two ids exchanged. -/
def exchanged : ExecutionPlan := ⟨"Keep the team posted", 3, [post "b", post "a", post "c"], [followUp "b"]⟩

def exchange (id : String) : String := if id = "a" then "b" else if id = "b" then "a" else id

theorem plan_wellFormed : WellFormed plan := ⟨by decide +kernel, _, rfl⟩

theorem exchanged_wellFormed : WellFormed exchanged := ⟨by decide +kernel, _, rfl⟩

theorem exchanged_rearranged : Rearranged exchange plan exchanged := by
  have injective : ∀ v ∈ plan.ids, ∀ w ∈ plan.ids, exchange v = exchange w → v = w := by decide +kernel
  exact renamed_rearranged plan_wellFormed (fun v hv w hw => injective v hv w hw) (by decide +kernel)

end Twins

theorem Twins.plan_canonical_iff : (∀ f q, Rearranged f Twins.plan q →
    normalizeSemanticExecutionPlan codePoints.localeCompare q =
      normalizeSemanticExecutionPlan codePoints.localeCompare Twins.plan) ↔
    Unambiguous codePoints Twins.plan :=
  normalizeSemanticExecutionPlan_canonical codePoints Twins.plan_wellFormed

/-- Which of the first two posts is followed is the choice of their ids. -/
theorem normalizeSemanticExecutionPlan_twins : ¬ ∀ (collation : Collation) (p q : ExecutionPlan)
    (f : String → String), WellFormed p → WellFormed q → Rearranged f p q →
    normalizeSemanticExecutionPlan collation.localeCompare q =
      normalizeSemanticExecutionPlan collation.localeCompare p := by
  intro same
  have equal := same codePoints Twins.plan Twins.exchanged Twins.exchange Twins.plan_wellFormed
    Twins.exchanged_wellFormed Twins.exchanged_rearranged
  revert equal
  decide +kernel

end Vimla.Orchestration
