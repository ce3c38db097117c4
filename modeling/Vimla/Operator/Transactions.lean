import Vimla.Operator.Plans

/-!
# The transactions on a run

Each returns the tables it commits. `none` is a transaction that finds its guard
closed: it writes nothing.
-/

namespace Vimla.Operator

open Js (Json)

/-- What `resolveDirectChatAssignee` says of the hint; in a personal run only `self` is an owner. -/
inductive Assignee | self | peer | clarify | deny
  deriving DecidableEq

/-- What a service of the workspace returns: the object it wrote, or the code of its error. -/
abbrev ServiceResult := Except String (Option String)

/-- What ends a step of the executor with an error. -/
inductive StepError
  | clarificationRequired (question : String)
  | code (code : String)

/-- `resolveTaskOwner` for `tasks.create`, then the service; the other tools only call their service. -/
def dispatch (scope : InvocationScope) (tool : OperatorToolName) (assignee : Assignee) (service : ServiceResult) :
    Except StepError (Option String) :=
  let result := service.mapError StepError.code
  if tool = .tasksCreate then
    match scope, assignee with
    | _, .self | .DIRECT_CHAT, .peer => result
    | .DIRECT_CHAT, .clarify => .error (.clarificationRequired "Who should I assign this task to in this chat?")
    | _, _ => .error (.code OperatorErrorCode.TOOL_DENIED.stored)
  else result

/-- The arguments that the tool got, and what it returned. -/
def executeStep (op : OperatorRuntime) (scope : InvocationScope) (tool : OperatorToolName) (args : Json) (assignee : Assignee)
    (service : ServiceResult) : Except StepError (Json × Option String) :=
  match parseToolArgs op tool args with
  | .error e => .error (.code e.code.stored)
  | .ok parsed => match dispatch scope tool assignee service with
    | .error e => .error e
    | .ok objectId => .ok (parsed, objectId)

/-- The kinds of `executePersistedSteps`. -/
inductive StepOutcome | executed | failed | skipped
  deriving DecidableEq

/-- The row that `createMany` writes for a prepared step. -/
def PreparedStep.row (step : PreparedStep) (userText : String) (id : Nat) : RunStep where
  id := id
  sequence := step.sequence
  toolName := step.toolName
  status := if step.confirmationRequired then .NEEDS_CONFIRMATION else .PENDING
  inputJson := step.args
  objectId := none
  errorCode := none
  userText := userText

namespace Tables

variable (T : Tables)

@[simps] def setRun (run : OperatorRun) : Tables := { T with run := run }

@[simps] def record (fact : Fact) : Tables := { T with history := T.history ++ [fact] }

/-- `updateMany` on the steps that meet a condition. -/
@[simps] def updateSteps (which : RunStep → Bool) (f : RunStep → RunStep) : Tables :=
  { T with steps := T.steps.map fun step => if which step then f step else step }

@[simps] def addAudit (events : List AuditEvent) : Tables := { T with audit := T.audit ++ events }

/-- The compare-and-set on the planner's output. -/
def publish (planned : Planned) : Option Tables :=
  if T.run.status = .PLANNING ∧ T.run.plannerOutput = none then
    some (T.setRun { T.run with plannerOutput := some planned })
  else none

/-- The steps that `createMany` does not skip as duplicates. -/
def missingSteps (steps : List PreparedStep) : List PreparedStep := steps.filter fun p => ¬ T.steps.any (·.sequence = p.sequence)

/-- `createMany` with `skipDuplicates`. -/
def createSteps (userText : String) (steps : List PreparedStep) : Tables :=
  let missing := T.missingSteps steps
  { T with
    steps := T.steps ++ (missing.zipIdx T.nextStepId).map fun p => p.1.row userText p.2
    nextStepId := T.nextStepId + missing.length }

def replaceSteps (userText : String) (steps : List PreparedStep) : Option Tables :=
  if steps.length = 0 then some T
  else if T.run.status ≠ .PLANNING then none
  else some (T.createSteps userText steps)

/-- The columns that a new confirmation token is written to. -/
def issueToken (op : OperatorRuntime) (token : String) (now : Nat) : Tables :=
  (T.setRun { T.run with
    confirmationTokenHash := some (op.hashConfirmationToken token)
    confirmationExpiresAt := some (now + op.confirmationTtl) }).record (.issued token (now + op.confirmationTtl))

def awaitConfirmation (op : OperatorRuntime) (token : String) (now : Nat) : Option Tables :=
  if T.run.status ≠ .PLANNING then none
  else some ((T.setRun { T.run with status := .AWAITING_CONFIRMATION }).issueToken op token now)

def startExecuting : Option Tables :=
  if T.run.status ≠ .PLANNING then none
  else some ((T.setRun { T.run with status := .EXECUTING }).record .began)

/-- The run with a final status. -/
def settle (status : RunStatus) (errorCode : Option String) : Tables :=
  T.setRun { T.run with
    status := status
    errorCode := errorCode
    confirmationTokenHash := none
    confirmationExpiresAt := none }

def succeedWithoutTools : Option Tables :=
  if T.run.status = .PLANNING ∨ T.run.status = .CREATED then some (T.settle .SUCCEEDED none) else none

def failRun (errorCode : String) : Option Tables :=
  if T.run.status = .PLANNING ∨ T.run.status = .CREATED then some (T.settle .FAILED (some errorCode)) else none

def awaitClarification (op : OperatorRuntime) (asked : Asked) : Option Tables :=
  if T.run.status = .EXECUTING ∨ T.run.status = .PLANNING then
    some (T.setRun { T.run with
      status := .AWAITING_CLARIFICATION
      clarificationQuestion := some { asked with
        question := op.sanitizePublicText asked.question OPERATOR_RUNTIME_LIMITS.clarificationMax } })
  else none

def rotateConfirmationToken (op : OperatorRuntime) (token : String) (now : Nat) : Option Tables :=
  if T.run.status ≠ .AWAITING_CONFIRMATION then none else some (T.issueToken op token now)

/-- `acceptConfirmation` on a run that awaits confirmation; `none` is an error. -/
def acceptConfirmation (op : OperatorRuntime) (token : String) (now : Nat) : Option Tables :=
  match T.run.confirmationTokenHash, T.run.confirmationExpiresAt with
  | some hash, some expiresAt =>
    if expiresAt < now then none
    else if op.hashConfirmationToken token ≠ hash then none
    else
      let confirmable := T.steps.filter (·.status = .NEEDS_CONFIRMATION)
      some ((((((T.updateSteps (·.status = .NEEDS_CONFIRMATION) fun step => { step with status := .CONFIRMED }).addAudit
        (confirmable.map fun step => .confirmationAccepted step.id step.toolName)).setRun
        { T.run with status := .EXECUTING, confirmationTokenHash := none, confirmationExpiresAt := none })).record
        (.accepted token now (confirmable.map (·.id)))).record .began)
  | _, _ => none

/-- `continueRun` on a run that awaits clarification. -/
def continueRun (content clientRequestId : String) : Option Tables :=
  if T.run.status ≠ .AWAITING_CLARIFICATION then none
  else some { T with
    steps := []
    run := { T.run with
      status := .PLANNING
      continueClientRequestId := some clientRequestId
      plannerOutput := none
      userText := T.run.userText ++ "\n" ++ content
      clarificationQuestion := none } }

def cancelRun : Option Tables :=
  if T.run.status ≠ .AWAITING_CONFIRMATION then none
  else some (((T.updateSteps (·.status.isUnfinished) fun step => { step with status := .SKIPPED }).setRun
    { T.run with status := .CANCELED, confirmationTokenHash := none, confirmationExpiresAt := none }).record .canceled)

def failDirectChatContextRevoked : Option Tables :=
  if T.run.status.isTerminal then none
  else
    let hasExecuted := T.steps.any (·.status = .EXECUTED)
    let hasExistingFailure := T.steps.any (·.status = .FAILED)
    let hasUnfinished := T.steps.any (·.status.isUnfinished)
    let terminalStatus : RunStatus :=
      if T.run.status = .EXECUTING ∧ hasExecuted then
        if hasExistingFailure || hasUnfinished then .PARTIAL else .SUCCEEDED
      else .FAILED
    let errorCode := if terminalStatus = .FAILED then some OperatorErrorCode.CONTEXT_REVOKED.stored else none
    some ((T.updateSteps (·.status.isUnfinished) fun step =>
      { step with status := .FAILED, errorCode := some OperatorErrorCode.CONTEXT_REVOKED.stored }).settle terminalStatus errorCode)

/-- The step that has this id becomes `FAILED`. -/
def failStep (id : Nat) (errorCode : String) : Tables :=
  T.updateSteps (·.id = id) fun step => { step with status := .FAILED, errorCode := some errorCode }

/-- The acceptance that the executor looks for. -/
def isAccepted (id : Nat) : Bool :=
  T.audit.any fun
    | .confirmationAccepted stepId _ => stepId = id
    | _ => false

/-- The checks and the effect of the executor's transaction on a step that may run. -/
def performStep (op : OperatorRuntime) (chats : Chats) (snapshot : Option ContextSnapshot) (step : RunStep)
    (assignee : Assignee) (service : ServiceResult) : Except StepError (Tables × StepOutcome) :=
  match assertDirectChatRunEpochTx chats snapshot T.run with
  | .error e => .error (.code e.code.stored)
  | .ok () =>
    if T.run.invocationScope = .DIRECT_CHAT ∧ step.toolName ≠ .tasksCreate then
      .error (.code OperatorErrorCode.TOOL_DENIED.stored)
    else match executeStep op T.run.invocationScope step.toolName step.inputJson assignee service with
      | .error e => .error e
      | .ok (args, objectId) =>
        .ok ((((T.updateSteps (·.id = step.id) fun step =>
            { step with status := .EXECUTED, objectId := objectId, errorCode := none }).addAudit
            [.ok step.id step.toolName objectId]).record (.performed step.id step.toolName args)), .executed)

/-- The transaction of `executePersistedSteps` on one step. -/
def executePersistedStep (op : OperatorRuntime) (chats : Chats) (snapshot : Option ContextSnapshot) (id : Nat)
    (assignee : Assignee) (service : ServiceResult) : Except StepError (Tables × StepOutcome) :=
  if T.run.status ≠ .EXECUTING then .ok (T, .skipped)
  else match T.steps.find? (·.id = id) with
    | none => .ok (T, .skipped)
    | some step => match step.status with
      | .EXECUTED => .ok (T, .executed)
      | .FAILED | .NEEDS_CONFIRMATION => .ok (T, .failed)
      | .SKIPPED => .ok (T, .skipped)
      | .CONFIRMED =>
        if T.isAccepted step.id then T.performStep op chats snapshot step assignee service
        else .ok ((T.failStep step.id "operator_reconciliation_required").addAudit
          [.reconciliationRequired step.id step.toolName], .failed)
      | .PENDING => T.performStep op chats snapshot step assignee service

/-- `markStepFailed`; the flag says that the step counts as executed. -/
def markStepFailed (id : Nat) (code : String) : Tables × Bool :=
  match T.steps.find? (·.id = id) with
  | none => (T, false)
  | some step =>
    if step.status = .EXECUTED then (T, true)
    else if step.status = .FAILED ∨ T.run.status ≠ .EXECUTING then (T, false)
    else ((T.failStep id code).addAudit [.failed id step.toolName code], false)

def finishRun (status : RunStatus) : Option Tables :=
  if T.run.status ≠ .EXECUTING then none
  else
    let errorCode := ((T.steps.filter fun step => step.status = .FAILED ∧ step.errorCode ≠ none).head?.bind (·.errorCode)).getD
      "operator_plan_invalid"
    some (T.settle status (if status = .FAILED then some errorCode else none))

end Tables

/-!
# Calls on a run

The endpoints of `operator.service.ts` as calls that take turns. Between two
turns of a call any other call may take one, and a call that takes no more turns
has crashed.
-/

/-- `executePersistedSteps`: the steps it has still to run, and its counters. The text is the run's when it listed the steps. -/
structure Execution where
  userText : String
  todo : List Nat
  executed : Nat
  failed : Nat

/-- Where a call stands: what its next turn does. -/
inductive Point
  | getting
  | confirming (token : String)
  | continuing (content clientRequestId : String)
  | canceling
  | creating
  /-- `resumeExisting` on the row that was read. -/
  | resuming (run : OperatorRun)
  /-- `planAndMaybeExecute` on the row that was read. -/
  | planning (run : OperatorRun)
  | publishing (planned : Planned)
  | adopting
  | replacing (planned : Planned) (steps : List PreparedStep)
  | reloading
  | transitioning (planned : Planned) (steps : List PreparedStep)
  | clarifying (asked : Asked)
  | succeeding (userText : String)
  | failing (userText errorCode : String)
  | rotating
  | accepting (token : String)
  | revoking
  | listing
  | executing (execution : Execution)
  | marking (execution : Execution) (stepId : Nat) (code : String)
  | finishing (execution : Execution)
  | done

/-- What a turn meets outside the tables of the operator. -/
structure Draw where
  /-- The context of a Direct Chat is no longer authorised. -/
  revoked : Bool
  /-- What the planner answers, and what it answers with the context of the chat. -/
  trusted : String
  contextual : Option String
  /-- A new confirmation token. -/
  token : String
  now : Nat
  assignee : Assignee
  service : ServiceResult
  /-- The step's transaction fails with this code, whatever it was about to do. -/
  failure : Option String
  /-- The step's transaction commits and the call sees an error. -/
  acknowledged : Bool

variable (op : OperatorRuntime)

namespace Planned

/-- What follows `planAndMaybeExecute`'s choice of an output. -/
def next (scope : InvocationScope) (planned : Planned) : Point :=
  match decision op scope planned.output with
  | .invalid => .failing planned.userText "operator_plan_invalid"
  | .clarify question => .clarifying ⟨question, planned.userText⟩
  | .succeed => .succeeding planned.userText
  | .act steps => .replacing planned steps

end Planned

/-- The output that is proposed; the planner sees the context of a chat in the second answer only. -/
def proposal (run : OperatorRun) (draw : Draw) : Planned where
  output := match run.invocationScope, draw.contextual with
    | .DIRECT_CHAT, some contextual => selectDirectChatPlannerOutput op draw.trusted contextual
    | _, _ => draw.trusted
  userText := run.userText

/-- `failIfDirectChatContextRevoked` finds the context revoked. -/
def contextRevoked (run : OperatorRun) (draw : Draw) : Bool := run.invocationScope = .DIRECT_CHAT && draw.revoked

def resume (run : OperatorRun) (draw : Draw) : Point :=
  match run.status with
  | .CREATED | .PLANNING => .planning run
  | .EXECUTING => if contextRevoked run draw then .revoking else .listing
  | .AWAITING_CONFIRMATION => if contextRevoked run draw then .revoking else .rotating
  | .AWAITING_CLARIFICATION | .SUCCEEDED | .PARTIAL | .FAILED | .CANCELED => .done

def plan (run : OperatorRun) (draw : Draw) : Point :=
  if contextRevoked run draw then .revoking
  else match run.planned with
    | some planned => planned.next op run.invocationScope
    | none =>
      if ¬ op.plannerEnabled then .failing run.userText "vimla_core_unavailable"
      else .publishing (proposal op run draw)

namespace Execution

def count (execution : Execution) (outcome : StepOutcome) : Execution :=
  match outcome with
  | .executed => { execution with executed := execution.executed + 1 }
  | .failed => { execution with failed := execution.failed + 1 }
  | .skipped => execution

def status (execution : Execution) : RunStatus :=
  if execution.failed = 0 then .SUCCEEDED else if execution.executed = 0 then .FAILED else .PARTIAL

end Execution

/-- One turn of an executor on the step at the head of its list. -/
def executeTurn (T : Tables) (chats : Chats) (snapshot : Option ContextSnapshot) (execution : Execution) (id : Nat) (draw : Draw) :
    Tables × Point :=
  match draw.failure with
  | some code => (T, .marking execution id code)
  | none => match T.executePersistedStep op chats snapshot id draw.assignee draw.service with
    | .error (.clarificationRequired question) => (T, .clarifying ⟨question, execution.userText⟩)
    | .error (.code code) => (T, .marking execution id code)
    | .ok (after, outcome) =>
      (after, if draw.acknowledged then .executing (execution.count outcome) else .marking execution id "internal_error")

/-- A transaction that a call ends with, whether or not its guard is open. -/
def closing (T : Tables) (committed : Option Tables) : Tables × Point := (committed.getD T, .done)

def turn (T : Tables) (chats : Chats) (snapshot : Option ContextSnapshot) (draw : Draw) : Point → Tables × Point
  | .getting =>
    if T.run.status ≠ .AWAITING_CONFIRMATION then (T, .done)
    else (T, if contextRevoked T.run draw then .revoking else .rotating)
  | .confirming token =>
    if (T.run.status = .AWAITING_CONFIRMATION ∨ T.run.status = .EXECUTING) ∧ contextRevoked T.run draw then (T, .revoking)
    else (T, .accepting token)
  | .continuing content clientRequestId =>
    if T.run.invocationScope = .DIRECT_CHAT then (T, .done)
    else match T.continueRun content clientRequestId with
      | some after => (after, .planning after.run)
      | none => (T, .done)
  | .canceling => closing T T.cancelRun
  | .creating => (T, .resuming T.run)
  | .resuming run => (T, resume run draw)
  | .planning run => (T, plan op run draw)
  | .publishing planned => match T.publish planned with
    | some after => (after, planned.next op T.run.invocationScope)
    | none => (T, .adopting)
  | .adopting => match T.run.planned with
    | some planned => (T, planned.next op T.run.invocationScope)
    | none => (T, .done)
  | .replacing planned steps => match T.replaceSteps planned.userText steps with
    | some after => (after, .transitioning planned steps)
    | none => (T, .reloading)
  | .reloading => (T, .resuming T.run)
  | .transitioning _ steps =>
    if steps.any (·.confirmationRequired) then
      match T.awaitConfirmation op draw.token draw.now with
      | some after => (after, .done)
      | none => (T, .resuming T.run)
    else match T.startExecuting with
      | some after => (after, .listing)
      | none => if T.run.status = .EXECUTING then (T, .listing) else (T, .resuming T.run)
  | .clarifying asked => closing T (T.awaitClarification op asked)
  | .succeeding _ => closing T T.succeedWithoutTools
  | .failing _ errorCode => closing T (T.failRun errorCode)
  | .rotating => closing T (T.rotateConfirmationToken op draw.token draw.now)
  | .accepting token =>
    if T.run.status = .AWAITING_CONFIRMATION then
      match T.acceptConfirmation op token draw.now with
      | some after => (after, .resuming after.run)
      | none => (T, .done)
    else if T.run.status = .EXECUTING then (T, .resuming T.run)
    else (T, .done)
  | .revoking => closing T T.failDirectChatContextRevoked
  | .listing => (T, .executing ⟨T.run.userText, T.steps.map (·.id), 0, 0⟩)
  | .executing execution => match execution.todo with
    | [] => (T, .finishing execution)
    | id :: todo => executeTurn op T chats snapshot { execution with todo := todo } id draw
  | .marking execution stepId code =>
    let (after, executed) := T.markStepFailed stepId code
    (after, .executing (execution.count (if executed then .executed else .failed)))
  | .finishing execution => closing T (T.finishRun execution.status)
  | .done => (T, .done)

structure World where
  tables : Tables
  chats : Chats
  /-- Frozen when the run was created. -/
  snapshot : Option ContextSnapshot
  calls : Nat → Point

/-- What a client may ask for. -/
inductive Request
  | createRun
  | getRun
  | confirmRun (token : String)
  | continueRun (content clientRequestId : String)
  | cancelRun

def Request.point : Request → Point
  | createRun => .creating
  | getRun => .getting
  | confirmRun token => .confirming token
  | continueRun content clientRequestId => .continuing content clientRequestId
  | cancelRun => .canceling

inductive Event
  | request (id : Nat) (request : Request)
  | turn (id : Nat) (draw : Draw)
  /-- Whatever others do to the chats. -/
  | chats (chats : Chats)

namespace World

variable (w : World)

def step : Event → World
  | .request id request =>
    match w.calls id with
    | .done => { w with calls := Function.update w.calls id request.point }
    | _ => w
  | .turn id draw =>
    let (tables, point) := Operator.turn op w.tables w.chats w.snapshot draw (w.calls id)
    { w with tables := tables, calls := Function.update w.calls id point }
  | .chats chats => { w with chats := chats }

def run (events : List Event) : World := events.foldl (step op) w

end World

/-- What the transaction of `createRun` writes. -/
structure NewRun where
  userId : String
  userText : String
  invocationScope : InvocationScope
  directConversationId : Option String
  directInteractionEpoch : Option Int
  snapshot : Option ContextSnapshot
  chats : Chats

def NewRun.row (new : NewRun) : OperatorRun where
  userId := new.userId
  status := .PLANNING
  userText := new.userText
  plannerOutput := none
  clarificationQuestion := none
  errorCode := none
  confirmationTokenHash := none
  confirmationExpiresAt := none
  continueClientRequestId := none
  invocationScope := new.invocationScope
  directConversationId := new.directConversationId
  directInteractionEpoch := new.directInteractionEpoch

/-- The run after that transaction; the call that made it goes on to plan. -/
def NewRun.world (new : NewRun) : World where
  tables := ⟨new.row, [], [], 0, []⟩
  chats := new.chats
  snapshot := new.snapshot
  calls := Function.update (fun _ => .done) 0 (.planning new.row)

end Vimla.Operator
