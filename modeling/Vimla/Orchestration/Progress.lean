import Vimla.Orchestration.Consistency

/-!
# No plan hangs

Each readiness pass but the last decides a pending invocation, so the passes end
in a state in which none can be decided. In an acyclic graph a pending
invocation all of whose sources have ended can be, and if any is pending while
nothing is under way there is such a one.
-/

namespace Vimla.Orchestration

open List World Nat

variable {options : OrchestrationRuntimeOptions} {now : Int} {seen cur : RuntimePlan}

def RuntimePlan.pendingCount (plan : RuntimePlan) : Nat :=
  plan.invocations.countP fun row => row.status = .pending

/-- No invocation that the map calls pending can be decided. -/
def Dispatching.Settled (seen : RuntimePlan) (s : Dispatching) : Prop :=
  ∀ row ∈ seen.invocations, s.stateById row.id = some .pending →
    decideReadiness seen row s.stateById = .pending

theorem statusOf_decided {policy : ApprovalPolicy} {decision : ReadinessDecision}
    (decided : decision ≠ .pending) : statusOf policy decision ≠ .pending := by
  cases policy <;> cases decision <;> first | exact absurd rfl decided | decide

/-- A write that takes a row from `PENDING` leaves fewer pending. -/
theorem transition_pendingCount {plan : RuntimePlan} {id : String} {next : InvocationStatus}
    (opened : next ≠ .pending) (holds : plan.holds id .pending = true) :
    (plan.transition id .pending next).pendingCount < plan.pendingCount := by
  obtain ⟨row, mem, rfl, pending⟩ := RuntimePlan.holds_iff.1 holds
  simp only [RuntimePlan.pendingCount, RuntimePlan.transition, RuntimePlan.rewrite, countP_map]
  apply Rows.countP_lt (x := row)
  · intro r _ still
    simp only [Function.comp_apply, decide_eq_true_eq] at still ⊢
    split at still
    · exact absurd still opened
    · exact still
  · exact mem
  · simp [pending]
  · simp [pending, opened]

/-- Deciding an invocation either changes nothing or leaves fewer pending. -/
theorem decideInvocation_cases (seen : RuntimePlan) (s : Dispatching) (row : RuntimeInvocation) :
    decideInvocation seen s row = s ∨
      (decideInvocation seen s row).changed = true ∧
        (decideInvocation seen s row).plan.pendingCount < s.plan.pendingCount := by
  unfold decideInvocation
  split
  · exact .inl rfl
  split
  · exact .inl rfl
  rename_i decided
  unfold Dispatching.move
  split
  · rename_i holds
    exact .inr ⟨rfl, transition_pendingCount (statusOf_decided decided) holds⟩
  · exact .inl rfl

variable {s : Dispatching} {definition : ExecutionPlan} {order : List String}

/-- Where nothing changes, the invocation is not pending or cannot be decided. -/
theorem decideInvocation_idle (tracks : s.Tracks seen cur) (drift : Drift seen cur) {row : RuntimeInvocation}
    (mem : row ∈ seen.invocations) (idle : (decideInvocation seen s row).changed = false)
    (pending : s.stateById row.id = some .pending) : decideReadiness seen row s.stateById = .pending := by
  unfold decideInvocation at idle
  rw [if_neg (not_not.2 pending)] at idle
  split at idle
  · assumption
  · rename_i decided
    obtain ⟨own, memOwn, defined⟩ := tracks.row_of_seen drift mem
    have same : own.id = row.id := congrArg Invocation.id defined
    have status := tracks.status_eq memOwn (same ▸ pending) (by decide)
    have holds : s.plan.holds row.id .pending = true := RuntimePlan.holds_iff.2 ⟨own, memOwn, same, status⟩
    rw [Dispatching.move, if_pos holds] at idle
    cases idle

theorem decideInvocations_pendingCount (rows : List RuntimeInvocation) (s : Dispatching) :
    (rows.foldl (decideInvocation seen) s).plan.pendingCount ≤ s.plan.pendingCount ∧
      ((rows.foldl (decideInvocation seen) s).changed = true → s.changed = true ∨
        (rows.foldl (decideInvocation seen) s).plan.pendingCount < s.plan.pendingCount) := by
  induction rows generalizing s with
  | nil => exact ⟨le_rfl, .inl⟩
  | cons row rows ih =>
    obtain ⟨fewer, changes⟩ := ih (decideInvocation seen s row)
    rw [foldl_cons]
    rcases decideInvocation_cases seen s row with same | ⟨-, less⟩
    · rw [same] at fewer changes ⊢
      exact ⟨fewer, changes⟩
    · exact ⟨fewer.trans less.le, fun _ => .inr (fewer.trans_lt less)⟩

theorem decideInvocations_idle (drift : Drift seen cur) (distinct : cur.definition.ids.Nodup)
    {rows : List RuntimeInvocation} (read : ∀ row ∈ rows, row ∈ seen.invocations) (tracks : s.Tracks seen cur)
    (idle : (rows.foldl (decideInvocation seen) s).changed = false) : rows.foldl (decideInvocation seen) s = s ∧
      ∀ row ∈ rows, s.stateById row.id = some .pending → decideReadiness seen row s.stateById = .pending := by
  induction rows generalizing s with
  | nil => exact ⟨rfl, by simp⟩
  | cons row rows ih =>
    rw [foldl_cons] at idle ⊢
    have mem := read row mem_cons_self
    obtain ⟨stops, rest⟩ := ih (fun r hr => read r (mem_cons_of_mem row hr))
      (tracks.decideInvocation drift distinct mem) idle
    rw [stops] at idle ⊢
    rcases decideInvocation_cases seen s row with same | ⟨changed, -⟩
    · rw [same] at rest
      refine ⟨same, ?_⟩
      intro r hr pending
      rcases mem_cons.1 hr with rfl | hr
      · exact decideInvocation_idle tracks drift mem idle pending
      · exact rest r hr pending
    · rw [changed] at idle
      cases idle

/-- More passes than there are pending invocations reach a settled state. -/
theorem readinessPasses_settled (drift : Drift seen cur) (distinct : cur.definition.ids.Nodup) {passes : Nat}
    (tracks : s.Tracks seen cur) (enough : s.plan.pendingCount < passes) :
    (readinessPasses seen passes s).Settled seen := by
  induction passes generalizing s with
  | zero => exact absurd enough (not_lt_zero _)
  | succ passes ih =>
    have start : Dispatching.Tracks seen cur { s with changed := false } :=
      ⟨tracks.rows, tracks.status, tracks.known, tracks.waits⟩
    unfold readinessPasses
    dsimp only
    cases changed : (readinessPass seen s).changed with
    | true =>
      rcases (decideInvocations_pendingCount seen.invocations { s with changed := false }).2 changed with
        h | less
      · cases h
      · exact ih (tracks.readinessPass drift distinct) (less.trans_le (le_of_lt_succ enough))
    | false =>
      obtain ⟨same, settled⟩ := decideInvocations_idle drift distinct (fun _ mem => mem) start changed
      intro row mem pending
      have stays : readinessPass seen s = { s with changed := false } := same
      rw [stays] at pending ⊢
      exact settled row mem pending

theorem dispatching_settled (options : OrchestrationRuntimeOptions) (now : Int) (drift : Drift seen cur)
    (distinctSeen : seen.definition.ids.Nodup) (distinct : cur.definition.ids.Nodup) :
    (dispatching options now seen cur).Settled seen := by
  have rechecked := rechecked_tracks options now drift distinctSeen distinct
  apply readinessPasses_settled drift distinct rechecked
  refine lt_succ_of_le ((countP_le_length).trans (le_of_eq ?_))
  obtain ⟨f, rows, -⟩ := rechecked.rows
  obtain ⟨g, rows', -⟩ := drift.rows
  rw [rows, rows', length_map, length_map]

/-- `READY`, `RUNNING` or waiting for something other than its sources. -/
def isUnderWay (status : InvocationStatus) : Bool :=
  status ∈ [InvocationStatus.ready, .running, .waitingApproval, .waitingForUsageCapacity,
    .blockedInsufficientUsage]

theorem pending_of_idle {status : InvocationStatus} (active : isTerminalInvocationStatus status = false)
    (idle : isUnderWay status = false) : status = .pending := by
  revert active idle
  cases status <;> decide

/-- If everything else has ended, a settled map has nothing pending. -/
theorem Dispatching.Settled.none_pending (settled : s.Settled seen) (sorted : Sorted definition order)
    (okSeen : seen.Ok definition) (okDefinition : s.plan.definition = definition)
    (known : ∀ row ∈ s.plan.invocations, s.stateById row.id = some row.status)
    (idle : ∀ row ∈ s.plan.invocations, isUnderWay row.status = false) :
    ∀ row ∈ s.plan.invocations, row.status ≠ .pending := by
  intro row mem pending
  have rowOf {plan : RuntimePlan} (defined : plan.definition = definition) {id : String}
      (listed : id ∈ definition.ids) : ∃ row ∈ plan.invocations, row.id = id := by
    rw [← defined, RuntimePlan.ids_eq] at listed
    exact mem_map.1 listed
  have idOf {row : RuntimeInvocation} (mem : row ∈ s.plan.invocations) : row.id ∈ definition.ids := by
    rw [← okDefinition, RuntimePlan.ids_eq]
    exact mem_map_of_mem mem
  -- The first pending invocation of the order: none of its sources is pending.
  obtain ⟨-, -, ⟨first, memFirst, rfl, pendingFirst⟩, sources⟩ := sorted.ordered.minimal
    (P := fun id => ∃ row ∈ s.plan.invocations, row.id = id ∧ row.status = .pending)
    ⟨row.id, sorted.complete _ (idOf mem), row, mem, rfl, pending⟩
  obtain ⟨read, memRead, same⟩ := rowOf okSeen.definition (idOf memFirst)
  have undecided := settled read memRead (by rw [same, known first memFirst, pendingFirst])
  refine absurd undecided (decideDependencyReadiness_settled ?_)
  intro d hd
  obtain ⟨memD, into⟩ := mem_filter.1 hd
  rw [okSeen.definition] at memD
  rw [decide_eq_true_eq, same] at into
  have edge : (d.fromInvocationId, d.toInvocationId) ∈ definition.edges :=
    mem_map_of_mem (f := fun d : InvocationDependency => (d.fromInvocationId, d.toInvocationId)) memD
  obtain ⟨-, opened⟩ := sources _ edge into
  obtain ⟨source, memSource, sameSource⟩ := rowOf okDefinition (sorted.known d memD).1
  have ended : isTerminalInvocationStatus source.status = true := by
    by_contra active
    rw [Bool.not_eq_true] at active
    exact opened ⟨source, memSource, sameSource, pending_of_idle active (idle source memSource)⟩
  refine ⟨⟨source.status, outcomeById seen d.fromInvocationId⟩, ?_, ended⟩
  rw [← sameSource, known source memSource]
  rfl

/-- The plan has ended or something is under way. -/
def RuntimePlan.IsMoving (plan : RuntimePlan) : Prop :=
  plan.status ∈ [PlanStatus.failed, .partially, .completed] ∨
    ∃ row ∈ plan.invocations, row.status ∈ [InvocationStatus.ready, .running, .waitingApproval,
      .waitingForUsageCapacity, .blockedInsufficientUsage]

/-- A human evaluator that waited when the plan was read and has been resolved since. -/
def ResolvedSince (seen cur : RuntimePlan) : Prop :=
  ∃ row ∈ seen.invocations, row.status = .waitingApproval ∧ row.invocation.isHumanEvaluator = true ∧
    ∃ row' ∈ cur.invocations, row'.id = row.id ∧ row'.status = .completed

theorem dispatchPlan_progress (sorted : Sorted definition order) (okSeen : seen.Ok definition)
    (ok : cur.Ok definition) (drift : Drift seen cur) (running : cur.status = .running) :
    (dispatchPlan options now seen cur).1.IsMoving ∨ ResolvedSince seen cur := by
  have distinctSeen := okSeen.distinct sorted.distinct
  have distinct := ok.distinct sorted.distinct
  have tracks := dispatching_tracks options now drift distinctSeen distinct
  have running' := tracks.status.trans running
  unfold dispatchPlan
  rw [if_neg (not_not.2 (drift.status.symm.trans running))]
  dsimp only
  split
  · refine .inl (.inl ?_)
    have failed : (failPlan (dispatching options now seen cur).plan ‹RuntimeInvocation›.id).status =
        .failed := by
      simp [failPlan, RuntimePlan.transitionPlan, running', RuntimePlan.cancelActive, RuntimePlan.rewrite]
    simp [failed]
  split
  · refine .inl (.inl ?_)
    rw [RuntimePlan.transitionPlan, if_pos running']
    split <;> simp
  · rename_i active
    by_cases busy : ∃ row ∈ (dispatching options now seen cur).plan.invocations,
        isUnderWay row.status = true
    · exact .inl (.inr (by simpa only [isUnderWay, decide_eq_true_eq] using busy))
    refine .inr ?_
    by_contra unresolved
    have idle : ∀ row ∈ (dispatching options now seen cur).plan.invocations,
        isUnderWay row.status = false := by
      simpa using busy
    have stayed : ∀ row ∈ (dispatching options now seen cur).plan.invocations,
        ¬ Left seen cur row.id := by
      intro row mem left
      have memCur := (tracks.waits row mem left).2
      obtain ⟨old, memOld, same, waiting, gone⟩ := left
      obtain ⟨row', mem', drifted⟩ := drift.rows.forth memOld
      obtain rfl := RuntimePlan.row_unique distinct mem' memCur
        ((congrArg Invocation.id drifted.invocation).trans same)
      cases drifted with
      | same => exact gone mem'
      | approved _ _ ready =>
        have := idle row' mem
        rw [ready] at this
        cases this
      | resolved _ _ human completed =>
        exact unresolved ⟨old, memOld, waiting, human, row', mem', same.symm, completed⟩
    have known := fun row mem => tracks.known row mem (stayed row mem)
    have settled := dispatching_settled options now drift distinctSeen distinct
    have none := settled.none_pending sorted okSeen (tracks.definition.trans ok.definition) known idle
    apply active
    apply all_eq_true.2
    intro status listed
    obtain ⟨read, memRead, maps⟩ := mem_filterMap.1 listed
    obtain ⟨row, mem, defined⟩ := tracks.row_of_seen drift memRead
    have same : row.id = read.id := congrArg Invocation.id defined
    rw [← same, known row mem] at maps
    obtain rfl := Option.some.inj maps
    by_contra open'
    rw [Bool.not_eq_true] at open'
    exact none row mem (pending_of_idle open' (idle row mem))

theorem World.step_dispatch {w : World} {age : Nat}
    (young : age ≤ w.unlocked) (read : w.read age = some seen) :
    (w.step options ⟨.dispatchPlan, age, now⟩).plan = (dispatchPlan options now seen w.plan).1 := by
  have admitted : ¬ (Transaction.dispatchPlan.byWorker = true ∧ w.unlocked < age) := by
    omega
  simp [step, read, if_neg admitted, Transaction.commit]

/-- After a dispatch no reachable state of an accepted graph is stuck. A dispatch
that read an older plan misses nothing but what a human has resolved since. -/
theorem dispatch_never_stuck {plan : ExecutionPlan} {graph : NormalizedExecutionGraph}
    (accepted : validateExecutionPlanGraph plan = .ok graph) (options : OrchestrationRuntimeOptions)
    (actions : List Action) (now : Int) :
    let w := run options (created plan) actions
    w.plan.status = .running →
      (w.step options ⟨.dispatchPlan, 0, now⟩).plan.IsMoving ∧
        ∀ age seen, age ≤ w.unlocked → w.read age = some seen →
          (w.step options ⟨.dispatchPlan, age, now⟩).plan.IsMoving ∨ ResolvedSince seen w.plan := by
  have sorted := validateExecutionPlanGraph_sorted accepted
  have ok := run_ok options sorted.distinct actions
  intro w running
  have okPlan := ok.plans w.plan mem_cons_self
  have aged (age : Nat) (seen : RuntimePlan) (young : age ≤ w.unlocked) (read : w.read age = some seen) :
      (w.step options ⟨.dispatchPlan, age, now⟩).plan.IsMoving ∨ ResolvedSince seen w.plan := by
    rw [step_dispatch young read]
    exact dispatchPlan_progress sorted (ok.plans seen (mem_of_getElem? read)) okPlan
      (ok.drift age young seen read) running
  refine ⟨?_, aged⟩
  rcases aged 0 w.plan (zero_le _) rfl with moving | ⟨row, mem, waiting, -, row', mem', same, completed⟩
  · exact moving
  · obtain rfl := RuntimePlan.row_unique (okPlan.distinct sorted.distinct) mem' mem same
    rw [waiting] at completed
    cases completed

/-- The draft has been written and nothing has been dispatched since. -/
def FirstPlan.drafted : List Action :=
  [{ transaction := .start },
    { transaction := .claimInvocation "draft" },
    { transaction := .persistExecutionResult "draft" 1 (.completed none), now := 1000 }]

theorem dispatch_never_stuck_drafted :
    let w := run {} (created FirstPlan.plan) FirstPlan.drafted
    w.plan.invocations.map RuntimeInvocation.status = [.completed, .pending] ∧
      (w.step {} ⟨.dispatchPlan, 0, 1000⟩).plan.IsMoving := by
  obtain ⟨graph, accepted⟩ := validateManualExecutionPlan_graph FirstPlan.valid
  have moving := dispatch_never_stuck accepted {} FirstPlan.drafted 1000
  exact ⟨by decide +kernel, (moving (by decide +kernel)).1⟩

end Vimla.Orchestration
