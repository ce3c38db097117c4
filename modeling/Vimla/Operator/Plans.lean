import Vimla.DirectMessages.Messages

/-!
# What the operator reads in a planner's output

`planner-parse.ts`, `policy.ts` and `prepareSteps` of the operator. The output
is a text that should hold a JSON object; the object is a plan, and a plan that
acts is a list of tool calls.
-/

namespace Vimla.Operator

open Js (Json)

inductive OperatorErrorCode | PLAN_INVALID | TOOL_DENIED | CONTEXT_REVOKED
  deriving DecidableEq

structure OperatorError where
  code : OperatorErrorCode
  message : String

/-- `errorCodeOf`. -/
def OperatorErrorCode.stored : OperatorErrorCode → String
  | PLAN_INVALID => "plan_invalid"
  | TOOL_DENIED => "tool_denied"
  | CONTEXT_REVOKED => "direct_chat_context_revoked"

inductive InvocationScope | PERSONAL | DIRECT_CHAT
  deriving DecidableEq

inductive OperatorToolName
  | tasksList | tasksGet | tasksCreate | tasksUpdate | tasksDelete
  | remindersList | remindersGet | remindersCreate | remindersUpdate | remindersDelete
  | notesList | notesGet | notesCreate | notesUpdate | notesPin | notesDelete
  | listsList | listsGet | listsCreate | listsUpdate | listsAddItem | listsDelete
  | todayGet | profileGetSafe | notificationsGetPreferences | notificationsUpdatePreferences
  deriving DecidableEq

open OperatorToolName

def OperatorToolName.name : OperatorToolName → String
  | tasksList => "tasks.list"
  | tasksGet => "tasks.get"
  | tasksCreate => "tasks.create"
  | tasksUpdate => "tasks.update"
  | tasksDelete => "tasks.delete"
  | remindersList => "reminders.list"
  | remindersGet => "reminders.get"
  | remindersCreate => "reminders.create"
  | remindersUpdate => "reminders.update"
  | remindersDelete => "reminders.delete"
  | notesList => "notes.list"
  | notesGet => "notes.get"
  | notesCreate => "notes.create"
  | notesUpdate => "notes.update"
  | notesPin => "notes.pin"
  | notesDelete => "notes.delete"
  | listsList => "lists.list"
  | listsGet => "lists.get"
  | listsCreate => "lists.create"
  | listsUpdate => "lists.update"
  | listsAddItem => "lists.addItem"
  | listsDelete => "lists.delete"
  | todayGet => "today.get"
  | profileGetSafe => "profile.getSafe"
  | notificationsGetPreferences => "notifications.getPreferences"
  | notificationsUpdatePreferences => "notifications.updatePreferences"

def operatorToolNames : List OperatorToolName :=
  [tasksList, tasksGet, tasksCreate, tasksUpdate, tasksDelete, remindersList, remindersGet, remindersCreate, remindersUpdate,
    remindersDelete, notesList, notesGet, notesCreate, notesUpdate, notesPin, notesDelete, listsList, listsGet, listsCreate,
    listsUpdate, listsAddItem, listsDelete, todayGet, profileGetSafe, notificationsGetPreferences,
    notificationsUpdatePreferences]

/-- `isRegisteredTool`, with the tool that the name stands for. -/
def registeredTool (name : String) : Option OperatorToolName := operatorToolNames.find? (·.name = name)

def DENIED_TOOL_NAMES : List String :=
  ["prisma", "sql", "redis", "shell", "fs", "env", "http", "admin", "payment", "subscription", "password", "email.change", "mfa"]

def DESTRUCTIVE_TOOLS : List OperatorToolName := [tasksDelete, remindersDelete, notesDelete, listsDelete]

def SENSITIVE_WRITE_TOOLS : List OperatorToolName := [notificationsUpdatePreferences]

def DIRECT_CHAT_ALLOWED_TOOLS : List OperatorToolName := [tasksCreate]

def OPERATOR_RUNTIME_LIMITS.maxToolsPerRun : Nat := 8
def OPERATOR_RUNTIME_LIMITS.publicMessageMax : Nat := 2000
def OPERATOR_RUNTIME_LIMITS.clarificationMax : Nat := 500

/-- `args.status === "CANCELED"`. -/
def cancels (args : Json) : Bool := (args.field "status").bind Json.asString = some "CANCELED"

def toolRequiresConfirmation (name : OperatorToolName) (args : Json) : Bool :=
  name ∈ DESTRUCTIVE_TOOLS || name ∈ SENSITIVE_WRITE_TOOLS || (name = remindersUpdate && cancels args) ||
    (name = tasksUpdate && cancels args)

/-- `operatorToolInputSchemas`. The status of an update is one of an enumeration, and the schemas hand it on as it is. -/
structure ToolInputSchemas where
  safeParse : OperatorToolName → Json → Option Json
  status : ∀ tool ∈ [tasksUpdate, remindersUpdate], ∀ args data, safeParse tool args = some data →
    data.field "status" = args.field "status"

/-- What the operator is run with: what it reads texts with, and its configuration. -/
structure OperatorRuntime where
  jsonParse : String → Option Json
  schemas : ToolInputSchemas
  sanitizePublicText : String → Nat → String
  /-- With the secret of the server. -/
  hashConfirmationToken : String → String
  operatorMaxToolsPerRun : Nat
  /-- In milliseconds. -/
  confirmationTtl : Nat
  /-- The environment is `local` or `test`. -/
  plannerEnabled : Bool

inductive PlanIntent | act | clarify | refuse | answer
  deriving DecidableEq

structure ParsedCommand where
  tool : String
  args : Json

structure PlannerPlan where
  intent : PlanIntent
  userMessage : String
  clarificationQuestion : Option String
  commands : List ParsedCommand

/-- The text between the first occurrence of the mark and the end. -/
def textAfter (mark : List Char) : List Char → Option (List Char)
  | [] => none
  | c :: text => if mark.isPrefixOf (c :: text) then some ((c :: text).drop mark.length) else textAfter mark text

/-- The text before the first occurrence of the mark. -/
def textBefore (mark : List Char) : List Char → Option (List Char)
  | [] => none
  | c :: text => if mark.isPrefixOf (c :: text) then some [] else (textBefore mark text).map (c :: ·)

/-- The group of the expression for a fenced block; nothing in it can match in two ways. -/
def fenced (text : List Char) : Option (List Char) := do
  let mark := List.replicate 3 '\x60'
  let opened ← textAfter mark text
  let body := if (opened.take 4).map Char.toLower = "json".toList then opened.drop 4 else opened
  textBefore mark (body.dropWhile Js.isSpace)

/-- `trim`, on the characters of a text. -/
def trimmed (text : List Char) : List Char := ((text.dropWhile Js.isSpace).reverse.dropWhile Js.isSpace).reverse

def extractJsonObject (raw : String) : Option String :=
  let text := trimmed raw.toList
  let candidate := trimmed ((fenced text).getD text)
  if candidate.head? = some '\x7b' ∧ candidate.getLast? = some '\x7d' then some (String.ofList candidate)
  else
    let opened := candidate.dropWhile (· ≠ '\x7b')
    match (opened.reverse.dropWhile (· ≠ '\x7d')).reverse with
    | [] => none
    | object => some (String.ofList object)

/-- `z.string().trim().min(1).max(max)`. -/
def trimmedText (max : Nat) (value : Json) : Option String := do
  let text := Js.trim (← value.asString)
  if 1 ≤ Js.length text ∧ Js.length text ≤ max then some text else none

/-- `z.object({ … }).strict()` takes no other keys. -/
def isStrict (keys : List String) : Json → Bool
  | .object fields => fields.all (·.1 ∈ keys)
  | _ => false

def PlanIntent.ofName : String → Option PlanIntent
  | "act" => some act
  | "clarify" => some clarify
  | "refuse" => some refuse
  | "answer" => some answer
  | _ => none

def plannerCommandSchema (value : Json) : Option ParsedCommand :=
  if isStrict ["tool", "args"] value then
    match (value.field "tool").bind Json.asString, value.field "args" with
    | some tool, some (.object args) =>
      -- `z.record` leaves out a key of this name
      if (registeredTool tool).isSome then some ⟨tool, .object (args.filter (·.1 ≠ "__proto__"))⟩ else none
    | _, _ => none
  else none

def plannerOutputSchema (value : Json) : Option PlannerPlan := do
  if ¬ isStrict ["intent", "userMessage", "clarificationQuestion", "commands"] value then none
  let intent ← PlanIntent.ofName (← (← value.field "intent").asString)
  let userMessage ← trimmedText 2000 (← value.field "userMessage")
  let clarificationQuestion ← match value.field "clarificationQuestion" with
    | none | some .null => some none
    | some question => (trimmedText 500 question).map some
  let commands ← (← value.field "commands").asArray
  if commands.length > 8 then none
  return ⟨intent, userMessage, clarificationQuestion, ← commands.mapM plannerCommandSchema⟩

variable (op : OperatorRuntime)

def parsePlannerOutput (raw : String) : Except OperatorError PlannerPlan :=
  match extractJsonObject raw with
  | none => .error ⟨.PLAN_INVALID, "Planner output did not contain JSON"⟩
  | some jsonText => match op.jsonParse jsonText with
    | none => .error ⟨.PLAN_INVALID, "Planner output was not valid JSON"⟩
    | some parsedJson => match plannerOutputSchema parsedJson with
      | none => .error ⟨.PLAN_INVALID, "Planner output failed schema validation"⟩
      | some parsed =>
        if parsed.intent = .act ∧ parsed.commands.length = 0 then
          .error ⟨.PLAN_INVALID, "Act plan must include commands"⟩
        else if parsed.intent = .answer ∧ parsed.commands.length > 0 then
          .error ⟨.PLAN_INVALID, "Answer plan cannot include commands"⟩
        else if parsed.intent = .clarify ∧ parsed.clarificationQuestion = none then
          .error ⟨.PLAN_INVALID, "Clarification plan must include a question"⟩
        else .ok {
          intent := parsed.intent
          userMessage := op.sanitizePublicText parsed.userMessage OPERATOR_RUNTIME_LIMITS.publicMessageMax
          clarificationQuestion := parsed.clarificationQuestion.map
            (op.sanitizePublicText · OPERATOR_RUNTIME_LIMITS.clarificationMax)
          commands := parsed.commands }

def isPlainAnswer (plan : PlannerPlan) : Bool := plan.intent = .answer && plan.commands.length = 0

def selectDirectChatPlannerOutput (trustedRaw contextualRaw : String) : String :=
  match parsePlannerOutput op trustedRaw with
  | .error _ => trustedRaw
  | .ok trusted =>
    if ¬ isPlainAnswer trusted then trustedRaw
    else match parsePlannerOutput op contextualRaw with
      | .error _ => trustedRaw
      | .ok contextual => if isPlainAnswer contextual then contextualRaw else trustedRaw

structure PreparedStep where
  sequence : Nat
  toolName : OperatorToolName
  args : Json

def PreparedStep.confirmationRequired (step : PreparedStep) : Bool := toolRequiresConfirmation step.toolName step.args

def parseToolArgs (tool : OperatorToolName) (args : Json) : Except OperatorError Json :=
  match op.schemas.safeParse tool args with
  | none => .error ⟨.PLAN_INVALID, "Tool arguments failed validation"⟩
  | some data => .ok data

/-- The loop of `evaluatePlanPolicy` on one command. -/
def evaluateCommand (scope : InvocationScope) (command : ParsedCommand) : Except OperatorError Unit :=
  if command.tool ∈ DENIED_TOOL_NAMES then .error ⟨.TOOL_DENIED, "Tool is not allowed"⟩
  else match registeredTool command.tool with
    | none => .error ⟨.TOOL_DENIED, "Unknown operator tool"⟩
    | some tool =>
      if scope = .DIRECT_CHAT ∧ tool ∉ DIRECT_CHAT_ALLOWED_TOOLS then
        .error ⟨.TOOL_DENIED, "This tool is not available from a Direct Chat"⟩
      else match op.schemas.safeParse tool command.args with
        | none => .error ⟨.PLAN_INVALID, "Tool arguments failed validation"⟩
        | some _ => .ok ()

def evaluatePlanPolicy (commands : List ParsedCommand) (maxTools : Nat) (scope : InvocationScope) : Except OperatorError Unit :=
  if commands.length > maxTools then .error ⟨.PLAN_INVALID, "Plan exceeds the tool execution bound"⟩
  else commands.forM (evaluateCommand op scope)

def prepareStep (command : ParsedCommand) (index : Nat) : Except OperatorError PreparedStep :=
  match registeredTool command.tool with
  | none => .error ⟨.TOOL_DENIED, "Unknown operator tool"⟩
  | some tool => match parseToolArgs op tool command.args with
    | .error e => .error e
    | .ok args => .ok ⟨index, tool, args⟩

def prepareSteps (commands : List ParsedCommand) (scope : InvocationScope) : Except OperatorError (List PreparedStep) := do
  evaluatePlanPolicy op commands OPERATOR_RUNTIME_LIMITS.maxToolsPerRun scope
  commands.zipIdx.mapM fun command => prepareStep op command.1 command.2

/-- What `planAndMaybeExecute` does with an output. -/
inductive Decision
  | invalid
  | clarify (question : String)
  | succeed
  | act (steps : List PreparedStep)

@[irreducible] def decision (scope : InvocationScope) (output : String) : Decision :=
  match parsePlannerOutput op output with
  | .error _ => .invalid
  | .ok plan =>
    if plan.intent = .clarify then .clarify (plan.clarificationQuestion.getD "Could you clarify?")
    else if plan.intent = .answer ∨ plan.intent = .refuse ∨ plan.commands.length = 0 then .succeed
    else match prepareSteps op plan.commands scope with
      | .error _ => .invalid
      | .ok steps => .act (steps.take op.operatorMaxToolsPerRun)

/-!
# A run of the operator and the transactions on it

The row of `operator_run` with its steps, and the transactions of
`operator.service.ts` on them. Each locks the row of the run, so each is one
function. Titles, cards and the messages to the user decide nothing and are left
out.
-/

open Js (Json)
open DirectMessages (ChatStore)

inductive RunStatus
  | CREATED | PLANNING | AWAITING_CLARIFICATION | AWAITING_CONFIRMATION | EXECUTING | SUCCEEDED | PARTIAL | FAILED | CANCELED
  deriving DecidableEq

/-- `isTerminalOperatorRunStatus`. -/
def RunStatus.isTerminal : RunStatus → Bool
  | SUCCEEDED | PARTIAL | FAILED | CANCELED => true
  | CREATED | PLANNING | AWAITING_CLARIFICATION | AWAITING_CONFIRMATION | EXECUTING => false

inductive StepStatus | PENDING | NEEDS_CONFIRMATION | CONFIRMED | EXECUTED | FAILED | SKIPPED
  deriving DecidableEq

/-- The statuses that `failDirectChatContextRevoked` and `cancelRun` end. -/
def StepStatus.isUnfinished : StepStatus → Bool
  | PENDING | NEEDS_CONFIRMATION | CONFIRMED => true
  | EXECUTED | FAILED | SKIPPED => false

/-- A planner's output, and the text it was asked about. No column holds that text. -/
structure Planned where
  output : String
  userText : String
  deriving DecidableEq

/-- A clarification question, and the text that the planner was asked about. -/
structure Asked where
  question : String
  userText : String

structure OperatorRun where
  userId : String
  status : RunStatus
  userText : String
  plannerOutput : Option Planned
  clarificationQuestion : Option Asked
  errorCode : Option String
  confirmationTokenHash : Option String
  confirmationExpiresAt : Option Nat
  continueClientRequestId : Option String
  invocationScope : InvocationScope
  directConversationId : Option String
  directInteractionEpoch : Option Int

/-- An empty output counts as none. -/
def OperatorRun.planned (run : OperatorRun) : Option Planned := run.plannerOutput.filter (·.output ≠ "")

/-- A row of `operator_run_step`, and the text of its plan. The other unique index of the table is on
`(runId, sequence:toolName)` and follows from the one on `(runId, sequence)`. -/
structure RunStep where
  id : Nat
  sequence : Nat
  toolName : OperatorToolName
  status : StepStatus
  inputJson : Json
  objectId : Option String
  errorCode : Option String
  userText : String

/-- A row of `operator_audit_event`, by its operation; `stepId` is a column of an acceptance only. -/
inductive AuditEvent
  | confirmationAccepted (stepId : Nat) (toolName : OperatorToolName)
  | reconciliationRequired (stepId : Nat) (toolName : OperatorToolName)
  /-- The operation of the card, with the result `ok`. -/
  | ok (stepId : Nat) (toolName : OperatorToolName) (objectId : Option String)
  | failed (stepId : Nat) (toolName : OperatorToolName) (code : String)

/-- What has committed, in order. No table of the operator holds it. -/
inductive Fact
  | issued (token : String) (expiresAt : Nat)
  | accepted (token : String) (now : Nat) (stepIds : List Nat)
  /-- The effect of a tool, which got these arguments. -/
  | performed (stepId : Nat) (toolName : OperatorToolName) (args : Json)
  | began
  | canceled

structure Tables where
  run : OperatorRun
  steps : List RunStep
  audit : List AuditEvent
  nextStepId : Nat
  history : List Fact

/-- A row of `direct_conversation_member`. -/
structure ChatMember where
  conversationId : String
  userId : String
  shareOwnHistoryWithVimla : Bool
  includePeerHistoryWhenInvoking : Bool

structure Chats where
  store : ChatStore
  members : List ChatMember

/-- A row of the snapshot's items, with the fields of its metadata. -/
structure ContextItem where
  sourceType : String
  sourceId : String
  disclosureKind : Option String
  senderUserId : Option String

structure ContextSnapshot where
  directInteractionEpoch : Option Int
  items : List ContextItem

def revoked {α : Type} (message : String) : Except OperatorError α := .error ⟨.CONTEXT_REVOKED, message⟩

/-- The source message of an invocation, and the senders of the messages disclosed with it. -/
structure Provenance where
  sourceMessageId : Option String
  senders : List String

def readItems : List ContextItem → Provenance → Except OperatorError Provenance
  | [], found => .ok found
  | item :: items, found =>
    if item.sourceType ≠ "E2EE_DISCLOSURE" then readItems items found
    else if item.disclosureKind = some "CURRENT_REQUEST" then
      if found.sourceMessageId ≠ none then revoked "Direct Chat invocation provenance is invalid"
      else readItems items { found with sourceMessageId := some item.sourceId }
    else if item.disclosureKind ≠ some "L1_RAW" then readItems items found
    else match item.senderUserId with
      | none | some "" => revoked "Direct Chat context provenance is invalid"
      | some senderUserId => readItems items { found with senders := found.senders ++ [senderUserId] }

/-- The check of `assertDirectChatDisclosureConsentTx` on one message. -/
def assertMessageConsent (mine peer : ChatMember) (senderUserId : String) : Except OperatorError Unit :=
  if senderUserId = mine.userId then
    if ¬ mine.shareOwnHistoryWithVimla then revoked "Direct Chat self-history consent was revoked" else .ok ()
  else if senderUserId ≠ peer.userId ∨ ¬ mine.includePeerHistoryWhenInvoking ∨ ¬ peer.shareOwnHistoryWithVimla then
    revoked "Direct Chat peer-history consent was revoked"
  else .ok ()

def assertDirectChatDisclosureConsentTx (chats : Chats) (directConversationId actorUserId sourceMessageId : String)
    (interactionEpoch : Int) (senders : List String) : Except OperatorError Unit :=
  let members := chats.members.filter (·.conversationId = directConversationId)
  match members.find? (·.userId = actorUserId), members.find? (·.userId ≠ actorUserId) with
  | some mine, some peer =>
    if ¬ (chats.store.usersExist actorUserId peer.userId && chats.store.canInteract actorUserId peer.userId) then
      revoked "Direct Chat interaction is no longer available"
    else
      let source := chats.store.messages.find? fun m => m.id = sourceMessageId ∧ m.conversationId = directConversationId ∧
        m.senderUserId = actorUserId ∧ m.kind = .OPERATOR_INVOKE
      match chats.store.conversations.find? (·.id = directConversationId), source with
      | some conversation, some source =>
        if conversation.interactionEpoch ≠ interactionEpoch ∨ source.interactionEpoch ≠ interactionEpoch then
          revoked "Direct Chat interaction epoch changed"
        else senders.forM (assertMessageConsent mine peer)
      | _, _ => revoked "Direct Chat interaction epoch changed"
  | _, _ => revoked "Direct Chat membership changed"

def assertDirectChatRunEpochTx (chats : Chats) (snapshot : Option ContextSnapshot) (run : OperatorRun) : Except OperatorError Unit :=
  if run.invocationScope ≠ .DIRECT_CHAT then .ok ()
  else match run.directConversationId, run.directInteractionEpoch, snapshot with
    | some directConversationId, some interactionEpoch, some snapshot =>
      if snapshot.directInteractionEpoch ≠ some interactionEpoch then revoked "Direct Chat context snapshot is unavailable"
      else match readItems snapshot.items ⟨none, []⟩ with
        | .error e => .error e
        | .ok found => match found.sourceMessageId with
          | none | some "" => revoked "Direct Chat invocation provenance is unavailable"
          | some sourceMessageId => assertDirectChatDisclosureConsentTx chats directConversationId run.userId sourceMessageId
              interactionEpoch found.senders
    | some _, some _, none => revoked "Direct Chat context snapshot is unavailable"
    | _, _, _ => revoked "Direct Chat interaction epoch is unavailable"

end Vimla.Operator
