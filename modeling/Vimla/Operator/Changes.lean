import Vimla.Operator.Transactions

/-!
# What one turn does to the tables

Every turn leaves the tables as they are or commits one of a few changes, each
under the guard of its transaction.
-/

namespace Vimla.Operator

open Js (Json)
open Option Tables

variable {op : OperatorRuntime}

def AuditEvent.okStep : AuditEvent → Option Nat
  | ok stepId _ _ => some stepId
  | confirmationAccepted _ _ | reconciliationRequired _ _ | failed _ _ _ => none

/-- The step that the executor's transaction runs. -/
structure Performable (op : OperatorRuntime) (chats : Chats) (snapshot : Option ContextSnapshot) (T : Tables) (step : RunStep)
    (args : Json) : Prop where
  executing : T.run.status = .EXECUTING
  mem : step ∈ T.steps
  ready : step.status = .PENDING ∨ step.status = .CONFIRMED
  consent : assertDirectChatRunEpochTx chats snapshot T.run = .ok ()
  tool : T.run.invocationScope = .DIRECT_CHAT → step.toolName = .tasksCreate
  parsed : op.schemas.safeParse step.toolName step.inputJson = some args

namespace Tables

/-- The effect of a step, with the status and the audit row that its transaction writes. -/
def perform (T : Tables) (step : RunStep) (args : Json) (objectId : Option String) : Tables :=
  ((T.updateSteps (·.id = step.id) fun step => { step with status := .EXECUTED, objectId := objectId, errorCode := none }).addAudit
    [.ok step.id step.toolName objectId]).record (.performed step.id step.toolName args)

/-- The steps that wait for confirmation are confirmed, and the run executes. -/
def accept (T : Tables) (token : String) (now : Nat) : Tables :=
  let confirmable := T.steps.filter (·.status = .NEEDS_CONFIRMATION)
  ((((T.updateSteps (·.status = .NEEDS_CONFIRMATION) fun step => { step with status := .CONFIRMED }).addAudit
    (confirmable.map fun step => .confirmationAccepted step.id step.toolName)).setRun
    { T.run with status := .EXECUTING, confirmationTokenHash := none, confirmationExpiresAt := none }).record
    (.accepted token now (confirmable.map (·.id)))).record .began

/-- The run is planned again, with the answer at the end of its text. -/
def restart (T : Tables) (content clientRequestId : String) : Tables where
  steps := []
  audit := T.audit
  nextStepId := T.nextStepId
  history := T.history
  run := { T.run with
    status := .PLANNING
    continueClientRequestId := some clientRequestId
    plannerOutput := none
    userText := T.run.userText ++ "\n" ++ content
    clarificationQuestion := none }

/-- The status of a run whose context is revoked. -/
def revokedStatus (T : Tables) : RunStatus :=
  if T.run.status = .EXECUTING ∧ T.steps.any (·.status = .EXECUTED) then
    if T.steps.any (·.status = .FAILED) || T.steps.any (·.status.isUnfinished) then .PARTIAL else .SUCCEEDED
  else .FAILED

/-- The unfinished steps end. -/
def endSteps (T : Tables) (status : StepStatus) (f : RunStep → Option String) : Tables :=
  T.updateSteps (·.status.isUnfinished) fun step => { step with status := status, errorCode := f step }

end Tables

/-- What the turn of a call at a point does to the tables. -/
inductive Change (op : OperatorRuntime) (chats : Chats) (snapshot : Option ContextSnapshot) (T : Tables) : Point → Tables → Prop
  | same (point : Point) : Change op chats snapshot T point T
  | published (planned : Planned) (opened : T.run.status = .PLANNING) (empty : T.run.plannerOutput = none) :
      Change op chats snapshot T (.publishing planned) (T.setRun { T.run with plannerOutput := some planned })
  | created (planned : Planned) (steps : List PreparedStep) (opened : T.run.status = .PLANNING) :
      Change op chats snapshot T (.replacing planned steps) (T.createSteps planned.userText steps)
  | awaiting (planned : Planned) (steps : List PreparedStep) (required : steps.any (·.confirmationRequired) = true)
      (token : String) (now : Nat) (opened : T.run.status = .PLANNING) :
      Change op chats snapshot T (.transitioning planned steps)
        ((T.setRun { T.run with status := .AWAITING_CONFIRMATION }).issueToken op token now)
  | began (planned : Planned) (steps : List PreparedStep) (plain : steps.any (·.confirmationRequired) = false)
      (opened : T.run.status = .PLANNING) :
      Change op chats snapshot T (.transitioning planned steps) ((T.setRun { T.run with status := .EXECUTING }).record .began)
  | succeeded (userText : String) (opened : T.run.status = .PLANNING ∨ T.run.status = .CREATED) :
      Change op chats snapshot T (.succeeding userText) (T.settle .SUCCEEDED none)
  | failed (userText errorCode : String) (opened : T.run.status = .PLANNING ∨ T.run.status = .CREATED) :
      Change op chats snapshot T (.failing userText errorCode) (T.settle .FAILED (some errorCode))
  | clarified (asked : Asked) (question : String) (opened : T.run.status = .EXECUTING ∨ T.run.status = .PLANNING) :
      Change op chats snapshot T (.clarifying asked) (T.setRun { T.run with
        status := .AWAITING_CLARIFICATION, clarificationQuestion := some { asked with question := question } })
  | rotated (token : String) (now : Nat) (opened : T.run.status = .AWAITING_CONFIRMATION) :
      Change op chats snapshot T .rotating (T.issueToken op token now)
  | accepted (token : String) (now expiresAt : Nat) (opened : T.run.status = .AWAITING_CONFIRMATION)
      (hash : T.run.confirmationTokenHash = some (op.hashConfirmationToken token))
      (expires : T.run.confirmationExpiresAt = some expiresAt) (inTime : now ≤ expiresAt) :
      Change op chats snapshot T (.accepting token) (T.accept token now)
  | continued (content clientRequestId : String) (scope : T.run.invocationScope ≠ .DIRECT_CHAT)
      (opened : T.run.status = .AWAITING_CLARIFICATION) :
      Change op chats snapshot T (.continuing content clientRequestId) (T.restart content clientRequestId)
  | canceled (opened : T.run.status = .AWAITING_CONFIRMATION) :
      Change op chats snapshot T .canceling (((T.endSteps .SKIPPED (·.errorCode)).setRun { T.run with
        status := .CANCELED, confirmationTokenHash := none, confirmationExpiresAt := none }).record .canceled)
  | revoked (opened : T.run.status.isTerminal = false) (errorCode : Option String) :
      Change op chats snapshot T .revoking
        ((T.endSteps .FAILED fun _ => some OperatorErrorCode.CONTEXT_REVOKED.stored).settle T.revokedStatus errorCode)
  | performed (execution : Execution) (step : RunStep) (args : Json) (objectId : Option String)
      (performable : Performable op chats snapshot T step args) :
      Change op chats snapshot T (.executing execution) (T.perform step args objectId)
  | stepFailed (point : Point) (step : RunStep) (code : String) (event : AuditEvent) (executing : T.run.status = .EXECUTING)
      (mem : step ∈ T.steps) (unexecuted : step.status ≠ .EXECUTED) (plain : event.okStep = none) :
      Change op chats snapshot T point ((T.failStep step.id code).addAudit [event])
  | finished (execution : Execution) (errorCode : Option String) (opened : T.run.status = .EXECUTING) :
      Change op chats snapshot T (.finishing execution) (T.settle execution.status errorCode)

section
variable {chats : Chats} {snapshot : Option ContextSnapshot} {T after : Tables} {next : Tables} {guard : Prop}

theorem committed_if [Decidable guard]
    (committed : (if guard then some next else none) = some after) : guard ∧ after = next := by
  rw [ite_none_right_eq_some] at committed
  exact ⟨committed.1, (some.inj committed.2).symm⟩

theorem committed_unless [Decidable (¬ guard)]
    (committed : (if ¬ guard then none else some next) = some after) : guard ∧ after = next := by
  rw [ite_none_left_eq_some, Classical.not_not] at committed
  exact ⟨committed.1, (some.inj committed.2).symm⟩

theorem replaceSteps_change {planned : Planned} {steps : List PreparedStep}
    (committed : T.replaceSteps planned.userText steps = some after) :
    Change op chats snapshot T (.replacing planned steps) after := by
  rw [replaceSteps] at committed
  split at committed
  · obtain rfl := some.inj committed
    exact .same _
  · obtain ⟨opened, rfl⟩ := committed_unless committed
    exact .created planned steps opened

theorem acceptConfirmation_change {token : String} {now : Nat} (opened : T.run.status = .AWAITING_CONFIRMATION)
    (committed : T.acceptConfirmation op token now = some after) : Change op chats snapshot T (.accepting token) after := by
  rw [acceptConfirmation] at committed
  split at committed
  · rename_i hash expiresAt hashed expires
    split at committed
    · cases committed
    · rename_i inTime
      obtain ⟨same, rfl⟩ := committed_unless committed
      refine .accepted token now expiresAt opened ?_ expires (by omega)
      rw [hashed, same]
  · cases committed

variable {service : ServiceResult} {outcome : StepOutcome} {assignee : Assignee}

theorem performStep_change {execution : Execution} {step : RunStep}
    (executing : T.run.status = .EXECUTING) (mem : step ∈ T.steps) (ready : step.status = .PENDING ∨ step.status = .CONFIRMED)
    (committed : T.performStep op chats snapshot step assignee service = .ok (after, outcome)) :
    Change op chats snapshot T (.executing execution) after := by
  rw [performStep] at committed
  split at committed
  · cases committed
  · rename_i consent
    split at committed
    · cases committed
    · rename_i tool
      split at committed
      · cases committed
      · rename_i args objectId ran
        cases committed
        refine .performed execution step args objectId ⟨executing, mem, ready, consent, by tauto, ?_⟩
        rw [executeStep, parseToolArgs] at ran
        cases parsed : op.schemas.safeParse step.toolName step.inputJson with
        | none => simp [parsed] at ran
        | some data =>
          simp only [parsed] at ran
          split at ran
          · cases ran
          · cases ran
            rfl

theorem executePersistedStep_change (execution : Execution) {id : Nat}
    (committed : T.executePersistedStep op chats snapshot id assignee service = .ok (after, outcome)) :
    Change op chats snapshot T (.executing execution) after := by
  rw [executePersistedStep] at committed
  split at committed
  · cases committed
    exact .same _
  · rename_i running
    have executing : T.run.status = .EXECUTING := Classical.not_not.1 running
    split at committed
    · cases committed
      exact .same _
    · rename_i step found
      have mem : step ∈ T.steps := List.mem_of_find?_eq_some found
      split at committed
      iterate 4
        · cases committed
          exact .same _
      · rename_i confirmed
        split at committed
        · exact performStep_change executing mem (.inr confirmed) committed
        · cases committed
          exact .stepFailed _ step _ _ executing mem (by simp [confirmed]) rfl
      · rename_i pending
        exact performStep_change executing mem (.inl pending) committed

theorem markStepFailed_change (T : Tables) (point : Point) (id : Nat) (code : String) :
    Change op chats snapshot T point (T.markStepFailed id code).1 := by
  rw [markStepFailed]
  split
  · exact .same _
  · rename_i step found
    have at_id : step.id = id := by simpa using List.find?_some found
    split
    · exact .same _
    · rename_i unexecuted
      split
      · exact .same _
      · rename_i guard
        subst at_id
        exact .stepFailed point step code _ (Classical.not_not.1 (not_or.1 guard).2) (List.mem_of_find?_eq_some found) unexecuted rfl

theorem closing_change {point : Point} {committed : Option Tables}
    (each : ∀ after, committed = some after → Change op chats snapshot T point after) :
    Change op chats snapshot T point (closing T committed).1 := by
  cases committed with
  | none => exact .same point
  | some after => exact each after rfl

end

theorem RunStatus.ne_of_terminal {status other : RunStatus} (terminal : status.isTerminal = true)
    (running : other.isTerminal = false) : status ≠ other := by
  rintro rfl
  rw [terminal] at running
  cases running

theorem Execution.status_isTerminal (execution : Execution) : execution.status.isTerminal = true := by
  rw [Execution.status]
  split
  · rfl
  · split <;> rfl

theorem Tables.revokedStatus_isTerminal (T : Tables) : T.revokedStatus.isTerminal = true := by
  rw [revokedStatus]
  split
  · split <;> rfl
  · rfl

theorem turn_change (op : OperatorRuntime) (chats : Chats) (snapshot : Option ContextSnapshot) (T : Tables) (draw : Draw)
    (point : Point) :
    Change op chats snapshot T point (turn op T chats snapshot draw point).1 := by
  cases point with
  | getting | confirming token | adopting => simp only [turn]; split <;> exact .same _
  | continuing content clientRequestId =>
    simp only [turn]
    split
    · exact .same _
    · rename_i scope
      split
      · rename_i committed
        obtain ⟨opened, rfl⟩ := committed_unless committed
        exact .continued content clientRequestId scope opened
      · exact .same _
  | canceling =>
    refine closing_change fun _ committed => ?_
    obtain ⟨opened, rfl⟩ := committed_unless committed
    exact .canceled opened
  | creating | resuming run | planning run | reloading | listing | done => exact .same _
  | publishing planned =>
    simp only [turn]
    split
    · rename_i committed
      obtain ⟨guard, rfl⟩ := committed_if committed
      exact .published planned guard.1 guard.2
    · exact .same _
  | replacing planned steps =>
    simp only [turn]
    split
    · exact replaceSteps_change ‹_›
    · exact .same _
  | transitioning planned steps =>
    simp only [turn]
    split
    · rename_i required
      split
      · rename_i committed
        obtain ⟨opened, rfl⟩ := committed_unless committed
        exact .awaiting planned steps required _ _ opened
      · exact .same _
    · rename_i plain
      split
      · rename_i committed
        obtain ⟨opened, rfl⟩ := committed_unless committed
        exact .began planned steps (Bool.eq_false_of_not_eq_true plain) opened
      · split <;> exact .same _
  | clarifying asked =>
    refine closing_change fun _ committed => ?_
    obtain ⟨opened, rfl⟩ := committed_if committed
    exact .clarified asked _ opened
  | succeeding userText =>
    refine closing_change fun _ committed => ?_
    obtain ⟨opened, rfl⟩ := committed_if committed
    exact .succeeded userText opened
  | failing userText errorCode =>
    refine closing_change fun _ committed => ?_
    obtain ⟨opened, rfl⟩ := committed_if committed
    exact .failed userText errorCode opened
  | rotating =>
    refine closing_change fun _ committed => ?_
    obtain ⟨opened, rfl⟩ := committed_unless committed
    exact .rotated _ _ opened
  | accepting token =>
    simp only [turn]
    split
    · rename_i opened
      split
      · exact acceptConfirmation_change opened ‹_›
      · exact .same _
    · split <;> exact .same _
  | revoking =>
    refine closing_change fun _ committed => ?_
    rw [failDirectChatContextRevoked, ite_none_left_eq_some] at committed
    obtain rfl := some.inj committed.2
    exact .revoked (Bool.eq_false_of_not_eq_true committed.1) _
  | executing execution =>
    simp only [turn]
    split
    · exact .same _
    · simp only [executeTurn]
      split
      · exact .same _
      · split
        · exact .same _
        · exact .same _
        · exact executePersistedStep_change execution ‹_›
  | marking execution stepId code => exact markStepFailed_change T _ stepId code
  | finishing execution =>
    refine closing_change fun _ committed => ?_
    obtain ⟨opened, rfl⟩ := committed_unless committed
    exact .finished execution _ opened

theorem World.turn_change (op : OperatorRuntime) (w : World) (id : Nat) (draw : Draw) :
    Change op w.chats w.snapshot w.tables (w.calls id) (w.step op (.turn id draw)).tables :=
  Operator.turn_change op w.chats w.snapshot w.tables draw (w.calls id)

theorem World.request_tables (op : OperatorRuntime) (w : World) (id : Nat) (request : Request) :
    (w.step op (.request id request)).tables = w.tables := by
  rw [step]
  split <;> rfl

end Vimla.Operator
