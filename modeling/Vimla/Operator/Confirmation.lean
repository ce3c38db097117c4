import Vimla.Operator.Planning

/-!
# Confirmations

A tool call that requires confirmation has its effect only after it was accepted
with the latest token, and a canceled run stays canceled, in every run. Where no
planner pass is overtaken, a plan with such a call has no effect at all before
the user has accepted it.
-/

namespace Vimla.Operator

open Js (Json)
open List World Function Runs

variable {op : OperatorRuntime}

variable {tool : OperatorToolName} {args : Json} {w : World}

/-- Parsing the stored arguments again does not change whether the call requires confirmation. -/
theorem ToolInputSchemas.requires_parsed (schemas : ToolInputSchemas) {data : Json}
    (parsed : schemas.safeParse tool args = some data) :
    toolRequiresConfirmation tool data = toolRequiresConfirmation tool args := by
  have cancels_data (update : tool ∈ [.tasksUpdate, .remindersUpdate]) : cancels data = cancels args := by
    rw [cancels, cancels, schemas.status tool update args data parsed]
  by_cases update : tool ∈ [OperatorToolName.tasksUpdate, .remindersUpdate]
  · simp [toolRequiresConfirmation, cancels_data update]
  · have others : tool ≠ .tasksUpdate ∧ tool ≠ .remindersUpdate := by simpa using update
    simp [toolRequiresConfirmation, others.1, others.2]

section
variable {chats : Chats} {snapshot : Option ContextSnapshot} {point : Point} {T after : Tables}

/-- The history grows, and only by effects of steps that may run. -/
theorem Change.history (change : Change op chats snapshot T point after) : ∃ more, after.history = T.history ++ more ∧
    (∀ id tool args, .performed id tool args ∈ more → ∃ step, Performable op chats snapshot T step args ∧ step.id = id ∧
      step.toolName = tool) ∧
    (.canceled ∈ more → after.run.status = .CANCELED) := by
  cases change with
  | same | published | created | succeeded | failed | clarified | continued | revoked | stepFailed | finished =>
    exact ⟨[], (append_nil _).symm, by simp, by simp⟩
  | awaiting | began | rotated => exact ⟨_, rfl, by simp, by simp⟩
  | accepted => exact ⟨_, append_assoc _ _ _, by simp, by simp⟩
  | canceled => exact ⟨_, rfl, by simp, fun _ => rfl⟩
  | performed execution step args objectId performable =>
    refine ⟨_, rfl, fun id tool args' mem => ?_, by simp⟩
    obtain ⟨rfl, rfl, rfl⟩ : id = step.id ∧ tool = step.toolName ∧ args' = args := by simpa using mem
    exact ⟨step, performable, rfl, rfl⟩

/-- In a run that executes every step that requires confirmation has been accepted. -/
def Approved (T : Tables) : Prop :=
  T.run.status = .EXECUTING → ∀ s ∈ T.steps, s.requiresConfirmation = true → Accepted T.history s.id

theorem Approved.of_updateSteps (approved : Approved T) (executing : T.run.status = .EXECUTING) {which : RunStep → Bool}
    {f : RunStep → RunStep} (same : ∀ s, SameCall s (f s)) (steps : after.steps = (T.updateSteps which f).steps)
    (history : T.history <+: after.history) : Approved after := by
  intro _ s' mem requires
  rw [steps] at mem
  obtain ⟨s, here, call⟩ := Tables.updateSteps_rows same s' mem
  have required : s.requiresConfirmation = true := by
    rw [RunStep.requiresConfirmation, ← call.toolName, ← call.inputJson]
    exact requires
  obtain ⟨more, eq⟩ := history
  rw [call.id, ← eq]
  exact (approved executing s here required).append more

theorem Change.approved (injective : Injective op.hashConfirmationToken) (change : Change op chats snapshot T point after)
    (confirmations : ConfirmationsRecorded op T) (phased : Phased op T) (ok : point.Ok op T) (fresh : point.Fresh T.run)
    (approved : Approved T) : Approved after := by
  cases change with
  | same => exact approved
  | published _ opened | created _ _ opened | rotated _ _ opened =>
    exact fun executing => by simp [show T.run.status = .EXECUTING from executing] at opened
  | awaiting | succeeded | failed | clarified | continued | canceled => exact fun executing => by cases executing
  | revoked => exact fun executing => absurd executing (RunStatus.ne_of_terminal T.revokedStatus_isTerminal rfl)
  | finished execution =>
    exact fun executing => absurd executing (RunStatus.ne_of_terminal execution.status_isTerminal rfl)
  | began planned steps plain opened =>
    intro _ s mem requires
    obtain ⟨p, mem', row⟩ := rows_mem (complete_of_transitioning ok fresh opened).2 mem
    rw [row.requiresConfirmation] at requires
    exact absurd requires (any_eq_false.1 plain p mem')
  | accepted token now expiresAt opened hash expires inTime =>
    intro _ s' mem requires
    obtain ⟨s, here, call⟩ : ∃ s ∈ T.steps, SameCall s s' := by
      refine Tables.updateSteps_rows ?_ s' mem
      exact fun _ => ⟨rfl, rfl, rfl, rfl, rfl⟩
    have required : s.requiresConfirmation = true := by
      rw [RunStep.requiresConfirmation, ← call.toolName, ← call.inputJson]
      exact requires
    have waits : s.status = .NEEDS_CONFIRMATION := by
      rw [phased.initial (.inr opened) s here, RunStep.initialStatus, if_pos required]
    rw [call.id]
    exact confirmations.accepts injective opened hash expires inTime here waits
  | performed execution step args objectId performable =>
    refine approved.of_updateSteps performable.executing ?_ rfl (prefix_append _ _)
    exact fun _ => ⟨rfl, rfl, rfl, rfl, rfl⟩
  | stepFailed _ step code event executing =>
    refine approved.of_updateSteps executing ?_ rfl prefix_rfl
    exact fun _ => ⟨rfl, rfl, rfl, rfl, rfl⟩

end

/-- The facts that the event commits. -/
def commits (op : OperatorRuntime) (w : World) (ev : Event) : List Fact :=
  (w.step op ev).tables.history.drop w.tables.history.length

/-- The status is the only trace that a cancellation leaves. -/
def CanceledStays (T : Tables) : Prop := .canceled ∈ T.history → T.run.status = .CANCELED

/-- A call that requires confirmation was accepted when it commits, and a canceled run commits nothing more. -/
structure CallsGuarded (op : OperatorRuntime) (w : World) (ev : Event) : Prop where
  accepted : ∀ id tool args, .performed id tool args ∈ commits op w ev → toolRequiresConfirmation tool args = true →
    Accepted w.tables.history id
  canceled : .canceled ∈ w.tables.history → (w.step op ev).tables.run.status = .CANCELED ∧
    ∀ id tool args, .performed id tool args ∉ commits op w ev

/-- And no call of a plan commits before those of its calls that require confirmation were accepted. -/
structure ConfirmationSafe (op : OperatorRuntime) (w : World) (ev : Event) : Prop extends CallsGuarded op w ev where
  plan : ∀ id tool args, .performed id tool args ∈ commits op w ev → ∀ steps, w.tables.run.plan op = some steps →
    ∀ p ∈ steps, p.confirmationRequired = true → ∃ s ∈ w.tables.steps, IsRow p s ∧ Accepted w.tables.history s.id

variable {id stepId : Nat} {ev : Event}

theorem commits_turn {draw : Draw} (committed : .performed stepId tool args ∈ commits op w (.turn id draw)) :
    ∃ step, Performable op w.chats w.snapshot w.tables step args ∧ step.id = stepId ∧ step.toolName = tool := by
  obtain ⟨more, history, performed, -⟩ := (w.turn_change op id draw).history
  have eq : commits op w (.turn id draw) = more := by
    rw [commits, history, drop_left]
  exact performed stepId tool args (eq ▸ committed)

theorem commits_performed (committed : .performed stepId tool args ∈ commits op w ev) :
    ∃ step, Performable op w.chats w.snapshot w.tables step args ∧ step.id = stepId ∧ step.toolName = tool := by
  cases ev with
  | turn id draw => exact commits_turn committed
  | request id request =>
    rw [commits, request_tables, drop_length] at committed
    cases committed
  | chats chats =>
    rw [commits, step, drop_length] at committed
    cases committed

theorem CanceledStays.step (stays : CanceledStays w.tables) (ev : Event) : CanceledStays (w.step op ev).tables := by
  cases ev with
  | request id request =>
    rw [request_tables]
    exact stays
  | chats chats => exact stays
  | turn id draw =>
    have change := w.turn_change op id draw
    intro canceled
    obtain ⟨more, history, -, ends⟩ := change.history
    rw [history] at canceled
    obtain before | now := mem_append.1 canceled
    · rw [change.of_terminal (by rw [stays before]; rfl)]
      exact stays before
    · exact ends now

/-- In every run the calls that require confirmation were accepted, and a canceled run stays so. -/
structure ConfirmationInvariant (op : OperatorRuntime) (w : World) : Prop where
  confirmations : ConfirmationsRecorded op w.tables
  canceled : CanceledStays w.tables

theorem ConfirmationInvariant.step (injective : Injective op.hashConfirmationToken)
    (invariant : ConfirmationInvariant op w) (ev : Event) : ConfirmationInvariant op (w.step op ev) := by
  refine ⟨?_, invariant.canceled.step ev⟩
  cases ev with
  | request id request =>
    rw [request_tables]
    exact invariant.confirmations
  | chats chats => exact invariant.confirmations
  | turn id draw =>
    exact (w.turn_change op id draw).confirmationsRecorded
      injective invariant.confirmations

theorem ConfirmationInvariant.accepted (invariant : ConfirmationInvariant op w)
    (committed : .performed id tool args ∈ commits op w ev) (requires : toolRequiresConfirmation tool args = true) :
    Accepted w.tables.history id := by
  obtain ⟨step, performable, rfl, rfl⟩ := commits_performed committed
  rw [op.schemas.requires_parsed performable.parsed] at requires
  obtain pending | confirmed := performable.ready
  · rw [invariant.confirmations.pending step performable.mem pending] at requires
    cases requires
  · exact invariant.confirmations.confirmed step performable.mem confirmed

theorem CanceledStays.ends (stays : CanceledStays w.tables) (canceled : .canceled ∈ w.tables.history) :
    (w.step op ev).tables.run.status = .CANCELED ∧ ∀ id tool args, .performed id tool args ∉ commits op w ev := by
  have status := stays canceled
  constructor
  · refine stays.step ev ?_
    cases ev with
    | request id request => rw [request_tables]; exact canceled
    | chats chats => exact canceled
    | turn id draw =>
      obtain ⟨more, history, -, -⟩ := (w.turn_change op id draw).history
      rw [history]
      exact mem_append_left _ canceled
  · intro id tool args committed
    obtain ⟨step, performable, -, -⟩ := commits_performed committed
    rw [performable.executing] at status
    cases status

/-- Where no planner pass is overtaken, the calls of a plan wait for the confirmation that one of them requires. -/
structure PlanInvariant (op : OperatorRuntime) (w : World) : Prop where
  sound : w.Sound op
  confirmation : ConfirmationInvariant op w
  approved : Approved w.tables

theorem PlanInvariant.step (injective : Injective op.hashConfirmationToken)
    (fresh : Fresh w ev) (invariant : PlanInvariant op w) : PlanInvariant op (w.step op ev) := by
  refine ⟨step_sound fresh invariant.sound, invariant.confirmation.step injective ev, ?_⟩
  cases ev with
  | request id request =>
    rw [request_tables]
    exact invariant.approved
  | chats chats => exact invariant.approved
  | turn id draw =>
    exact (w.turn_change op id draw).approved injective
      invariant.confirmation.confirmations invariant.sound.phased (invariant.sound.calls id) fresh invariant.approved

theorem ConfirmationInvariant.guarded (ev : Event) (invariant : ConfirmationInvariant op w) :
    CallsGuarded op w ev where
  accepted := fun _ _ _ => invariant.accepted
  canceled := invariant.canceled.ends

theorem PlanInvariant.safe (ev : Event) (invariant : PlanInvariant op w) : ConfirmationSafe op w ev where
  toCallsGuarded := invariant.confirmation.guarded ev
  plan := by
    intro id tool args committed steps plan p mem requires
    obtain ⟨step, performable, -, -⟩ := commits_performed committed
    obtain ⟨⟨calls, stored, rows⟩, -⟩ := invariant.sound.phased.executing performable.executing
    obtain rfl := Option.some.inj (stored.symm.trans plan)
    obtain ⟨s, here, row⟩ := Matched.left ⟨_, .refl _, rows⟩ mem
    exact ⟨s, here, row, invariant.approved performable.executing s here (row.requiresConfirmation.trans requires)⟩

theorem NewRun.planInvariant (new : NewRun) : PlanInvariant op new.world :=
  ⟨new.sound, ⟨⟨by simp [NewRun.world], by simp [NewRun.world], by simp [NewRun.world, NewRun.row]⟩, by simp [CanceledStays, NewRun.world]⟩,
    by simp [Approved, NewRun.world]⟩

/-- In every run a call that requires confirmation waits for it and a canceled run is over; where no planner pass is
overtaken, all calls of a plan wait for the confirmation that one of them requires. -/
theorem confirmation_guards_effects (op : OperatorRuntime) (injective : Injective op.hashConfirmationToken) (new : NewRun)
    (events : List Event) :
    Along (step op) (CallsGuarded op) new.world events ∧
      (Along (step op) Fresh new.world events →
        Along (step op) (ConfirmationSafe op) new.world events) := by
  have start : PlanInvariant op new.world := new.planInvariant
  constructor
  · exact along_of_invariant (C := fun _ _ => True) (fun _ ev _ => ConfirmationInvariant.guarded ev)
      (fun _ ev _ invariant => invariant.step injective ev) (along_of_forall fun _ _ _ => trivial) start.confirmation
  · exact fun fresh => along_of_invariant (fun _ ev _ => PlanInvariant.safe ev) (fun _ _ => PlanInvariant.step injective)
      fresh start

namespace Overtaken

/-- The user confirms a plan that creates a task and mutes the notifications, and both are done. -/
def confirmed : List Event :=
  turns 0 4 mutes ++ .request 1 (.confirmRun "token") :: turns 1 8 asksWhen

/-- Call 0 asks for a clarification late, call 2 plans the first answer, and the user answers once more: call 3 stores a plan
that mutes the notifications, and call 2 starts the execution. -/
def mixed : List Event :=
  turns 0 2 asksWhen ++ .request 1 .createRun :: turns 1 4 asksWhen ++
    .request 2 (.continueRun "Tomorrow" "first") :: turns 2 3 creates ++ turns 0 1 asksWhen ++
    .request 3 (.continueRun "And mute" "second") :: turns 3 4 mutes ++ turns 2 3 asksWhen

def last : Event := .turn 2 (draw asksWhen)

end Overtaken

open Overtaken (runtime new confirmed mixed last)

theorem confirmation_guards_effects_confirmed : performedIds (new.world.run runtime confirmed).tables.history = [0, 1] ∧
    Along (step runtime) (ConfirmationSafe runtime) new.world confirmed := by
  have facts : performedIds (new.world.run runtime confirmed).tables.history = [0, 1] ∧
      Along (step runtime) Fresh new.world confirmed := by
    decide +kernel
  exact ⟨facts.1, (confirmation_guards_effects runtime (fun _ _ same => same) new confirmed).2 facts.2⟩

def Fact.isAcceptance : Fact → Bool
  | accepted _ _ _ => true
  | issued _ _ | performed _ _ _ | began | canceled => false

theorem Accepted.mem {history : List Fact} (accepted : Accepted history id) : history.any Fact.isAcceptance = true := by
  obtain ⟨before, after, token, expiresAt, now, stepIds, rfl, -⟩ := accepted
  simp [Fact.isAcceptance]

/-- A step commits while a plan is stored of which some call requires confirmation, and nothing was confirmed. -/
theorem unconfirmed_plan {before : List Event} {last : Event}
    (committed : id ∈ performedIds (commits op (w.run op before) last))
    (required : (((w.run op before).tables.run.plan op).getD []).any (·.confirmationRequired) = true)
    (unconfirmed : (w.run op before).tables.history.any Fact.isAcceptance = false) :
    ¬ Along (step op) (ConfirmationSafe op) w (before ++ [last]) := by
  intro along
  have safe : ConfirmationSafe op (w.run op before) last := (along_append.1 along).2.1
  obtain ⟨tool, args, performed⟩ := mem_performedIds.1 committed
  cases stored : (w.run op before).tables.run.plan op with
  | none => simp [stored] at required
  | some steps =>
    rw [stored] at required
    obtain ⟨p, mem, requires⟩ := any_eq_true.1 required
    obtain ⟨s, -, -, accepted⟩ := safe.plan id tool args performed steps stored p mem requires
    rw [accepted.mem] at unconfirmed
    cases unconfirmed

/-- A task is created under a plan that also mutes the notifications, and nothing was confirmed. -/
theorem mixed_plans_skip_confirmation :
    ¬ Along (step runtime) (ConfirmationSafe runtime) new.world (mixed ++ [last]) := by
  have facts : 0 ∈ performedIds (commits runtime (new.world.run runtime mixed) last) ∧
      (((new.world.run runtime mixed).tables.run.plan runtime).getD []).any (·.confirmationRequired) = true ∧
      (new.world.run runtime mixed).tables.history.any Fact.isAcceptance = false := by
    decide +kernel
  obtain ⟨committed, required, unconfirmed⟩ := facts
  exact unconfirmed_plan committed required unconfirmed

end Vimla.Operator
