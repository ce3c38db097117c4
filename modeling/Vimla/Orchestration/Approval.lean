import Vimla.Orchestration.Consistency

/-!
# Approval before execution

An invocation that needs approval is claimed only after an approval of it, and
a human evaluator is never claimed: both are decided where an invocation
becomes `READY`, and it can become so only from `PENDING` without approval.
-/

namespace Vimla.Orchestration

open List World

/-- Whether an invocation may be handed to a worker, by what has happened before. -/
def MayRun (events : List Event) (invocation : Invocation) : Prop :=
  (invocation.approvalPolicy ≠ .auto → Event.approved invocation.id ∈ events) ∧
    invocation.isHumanEvaluator = false

variable {invocation : Invocation}

theorem MayRun.of_auto {events : List Event}
    (auto : invocation.approvalPolicy = .auto) : MayRun events invocation :=
  ⟨fun needed => absurd auto needed, by simp [Invocation.isHumanEvaluator, auto]⟩

theorem MayRun.append {events : List Event} (h : MayRun events invocation)
    (more : List Event) : MayRun (events ++ more) invocation :=
  ⟨fun needed => mem_append_left more (h.1 needed), h.2⟩

/-- The statuses in which an invocation is, or can come back to be, up for a claim. -/
def isCleared (status : InvocationStatus) : Bool :=
  status ∈ [InvocationStatus.ready, .running, .waitingForUsageCapacity, .blockedInsufficientUsage]

variable {options : OrchestrationRuntimeOptions} {now : Int} {plan : ExecutionPlan}
  {cur next : RuntimePlan} {t : Transaction} {events : List Event} {row row' : RuntimeInvocation}

/-- Which moves lead into these statuses from outside them. -/
theorem Move.clears (h : Move events row row') (cleared : isCleared row'.status = true) :
    isCleared row.status = true ∨ MayRun events row.invocation := by
  cases h with
  | stay | drop => exact .inl cleared
  | decide pending decision =>
    refine .inr (MayRun.of_auto ?_)
    cases decision with
    | pending | skipped => cases cleared
    | ready =>
      by_contra needed
      simp [statusOf, needed, isCleared] at cleared
  | resume waited => exact .inl (by rcases waited with e | e <;> rw [e] <;> rfl)
  | cancel | resolve => cases cleared
  | approve waiting machine told => exact .inr ⟨fun _ => told, machine⟩
  | claim ready => exact .inl (by rw [ready]; rfl)
  | settle running => exact .inl (by rw [running]; rfl)

/-- A run is one that was there before, one that is claimed or a human's decision. -/
theorem Move.run_cases (h : Move events row row') {run : InvocationRun} (mem : run ∈ row'.runs) :
    (∃ old ∈ row.runs, old.attempt = run.attempt) ∨ .claimed row.id run.attempt ∈ events ∨
      row.invocation.isHumanEvaluator = true := by
  cases h with
  | stay | decide | resume | cancel | approve => exact .inl ⟨run, mem, rfl⟩
  | resolve _ human => exact .inr (.inr human)
  | claim ready attempt started told =>
    rcases mem_append.1 mem with mem | mem
    · exact .inl ⟨run, mem, rfl⟩
    · obtain rfl := mem_singleton.1 mem
      exact .inr (.inl told)
  | settle _ runs _ attempt | drop _ runs _ attempt =>
    rcases mem_append.1 mem with mem | mem
    · exact .inl ⟨run, by simp [runs, mem], rfl⟩
    · obtain rfl := mem_singleton.1 mem
      exact .inl ⟨_, by simp [runs], attempt.symm⟩

/-- What is claimed was cleared. -/
theorem Change.claims (h : Change options now cur t next events) {before after : List Event}
    {id : String} {attempt : Nat} (claimed : events = before ++ .claimed id attempt :: after) :
    before = [] ∧ ∃ row ∈ cur.invocations, row.id = id ∧ row.status = .ready := by
  have mem : Event.claimed id attempt ∈ events := by simp [claimed]
  cases h with
  | idle | swept | resolved | ended | retried | dropped => cases mem
  | approved => simp at mem
  | @failed _ _ _ _ _ retryable => cases retryable <;> simp at mem
  | @claimed _ row run locked running status memRow ready =>
    obtain ⟨rfl, head, -⟩ : before = [] ∧ Event.claimed row.id run.attempt = .claimed id attempt ∧
        after = [] := by
      cases before with
      | nil => simpa using claimed
      | cons e before => simp at claimed
    cases head
    exact ⟨rfl, row, memRow, rfl, ready⟩

/-- The invariant: whatever is or can come to be up for a claim may run, and
whatever was claimed might at that time. -/
structure World.Approved (plan : ExecutionPlan) (w : World) : Prop where
  ok : w.Ok plan
  cleared : ∀ row ∈ w.plan.invocations, isCleared row.status = true → MayRun w.events row.invocation
  claimed : ∀ before after id attempt, w.events = before ++ .claimed id attempt :: after →
    ∃ invocation ∈ plan.invocations, invocation.id = id ∧ MayRun before invocation
  runs : ∀ row ∈ w.plan.invocations, ∀ run ∈ row.runs,
    .claimed row.id run.attempt ∈ w.events ∨ row.invocation.isHumanEvaluator = true

theorem World.Approved.step {w : World} (h : w.Approved plan) (distinct : plan.ids.Nodup)
    (action : Action) : (w.step options action).Approved plan := by
  refine ⟨h.ok.step distinct action, ?_, ?_, ?_⟩
  all_goals rcases w.step_cases h.ok distinct action with same | ⟨next, events, change, step⟩
  · rw [same]
    exact h.cleared
  · rw [step]
    intro row' hrow' cleared
    have okPlan := h.ok.plans w.plan mem_cons_self
    obtain ⟨row, hrow, move⟩ := (change.moves (okPlan.distinct distinct)).back hrow'
    rw [move.invocation]
    rcases move.clears cleared with before | told
    · exact (h.cleared row hrow before).append events
    · exact ⟨fun needed => mem_append_right _ (told.1 needed), told.2⟩
  · rw [same]
    exact h.claimed
  · rw [step]
    intro before after id attempt split
    -- The claim is either one of this transaction's events or an earlier one.
    have now {rest : List Event} (tail : events = rest ++ .claimed id attempt :: after) :
        ∃ invocation ∈ plan.invocations, invocation.id = id ∧ MayRun (w.events ++ rest) invocation := by
      obtain ⟨rfl, row, hrow, rfl, ready⟩ := change.claims tail
      have okPlan := h.ok.plans w.plan mem_cons_self
      refine ⟨row.invocation, ?_, rfl, ?_⟩
      · rw [← okPlan.definition]
        exact mem_map_of_mem hrow
      · rw [append_nil]
        exact h.cleared row hrow (by rw [ready]; rfl)
    rcases append_eq_append_iff.1 split with ⟨rest, rfl, tail⟩ | ⟨rest, old, tail⟩
    · exact now tail
    · cases rest with
      | nil =>
        have later : ∃ invocation ∈ plan.invocations, invocation.id = id ∧
            MayRun (w.events ++ []) invocation := now tail.symm
        rwa [old, append_nil, append_nil] at later
      | cons e rest =>
        obtain ⟨rfl, -⟩ := cons.inj tail
        exact h.claimed before rest id attempt old
  · rw [same]
    exact h.runs
  · rw [step]
    intro row' hrow' run hrun
    have okPlan := h.ok.plans w.plan mem_cons_self
    obtain ⟨row, hrow, move⟩ := (change.moves (okPlan.distinct distinct)).back hrow'
    rw [move.id, move.invocation]
    rcases move.run_cases hrun with ⟨old, hold, same⟩ | told | human
    · rw [← same]
      exact (h.runs row hrow old hold).imp_left (mem_append_left events)
    · exact .inl (mem_append_right _ told)
    · exact .inr human

theorem World.created_approved (plan : ExecutionPlan) : (created plan).Approved plan := by
  refine ⟨created_ok plan, ?_, ?_, ?_⟩
  · intro row hrow cleared
    obtain ⟨invocation, -, rfl⟩ := mem_map.1 hrow
    cases cleared
  · intro before after id attempt split
    simp [created] at split
  · intro row hrow run hrun
    obtain ⟨invocation, -, rfl⟩ := mem_map.1 hrow
    cases hrun

/-- Whatever was claimed in any run of a valid plan is no human evaluator, and
if it needs approval an approval of it was committed before. The runs there are
were claimed, but for the one in which a human's decision is recorded. -/
theorem claimed_only_approved {plan : ExecutionPlan} (valid : validateManualExecutionPlan plan = .ok ())
    (options : OrchestrationRuntimeOptions) (actions : List Action) :
    (∀ before after id attempt,
      (run options (created plan) actions).events =
          before ++ .claimed id attempt :: after →
        ∃ invocation ∈ plan.invocations, invocation.id = id ∧
          (invocation.approvalPolicy ≠ .auto → .approved id ∈ before) ∧
          ¬ (invocation.target = .evaluator ∧ invocation.approvalPolicy = .humanApproval)) ∧
    ∀ row ∈ (run options (created plan) actions).plan.invocations, ∀ run ∈ row.runs,
      .claimed row.id run.attempt ∈ (World.run options (World.created plan) actions).events ∨
        row.invocation.target = .evaluator ∧ row.invocation.approvalPolicy = .humanApproval := by
  obtain ⟨graph, accepted⟩ := validateManualExecutionPlan_graph valid
  have distinct := (validateExecutionPlanGraph_sorted accepted).distinct
  have reached : (run options (created plan) actions).Approved plan :=
    Runs.invariant (fun _ action h => h.step distinct action) actions (created_approved plan)
  constructor
  · intro before after id attempt split
    obtain ⟨invocation, mem, rfl, approved, machine⟩ := reached.claimed before after id attempt split
    refine ⟨invocation, mem, rfl, approved, ?_⟩
    simpa [Invocation.isHumanEvaluator] using machine
  · intro row hrow run hrun
    simpa [Invocation.isHumanEvaluator] using reached.runs row hrow run hrun

theorem claimed_only_approved_publish :
    (run {} (created FirstPlan.plan) FirstPlan.published).events =
        [.claimed "draft" 1, .approved "publish", .claimed "publish" 1] ∧
      ∀ before after id attempt,
        [.claimed "draft" 1, .approved "publish", .claimed "publish" 1] =
            before ++ Event.claimed id attempt :: after →
          ∃ invocation ∈ FirstPlan.plan.invocations, invocation.id = id ∧
            (invocation.approvalPolicy ≠ .auto → .approved id ∈ before) ∧
            ¬ (invocation.target = .evaluator ∧ invocation.approvalPolicy = .humanApproval) := by
  have told : (run {} (created FirstPlan.plan) FirstPlan.published).events =
      [.claimed "draft" 1, .approved "publish", .claimed "publish" 1] := by decide +kernel
  have approved := (claimed_only_approved FirstPlan.valid {} FirstPlan.published).1
  rw [told] at approved
  exact ⟨told, approved⟩

end Vimla.Orchestration
