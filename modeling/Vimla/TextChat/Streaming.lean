import Vimla.Billing.Transactions
import Vimla.TextChat.Budget
import Vimla.Lib.Threads

/-!
# Requests, messages and the ledger

The tables that text chat reads and writes. A message's key is a counter value;
the key of a request is taken from a supply that never repeats, so each call may
use the key with its own number.
-/

namespace Vimla.TextChat

open Billing

/-- What `cuid()` returns. -/
structure Ids where
  cuid : Nat → String
  distinct : Function.Injective cuid

structure Config where
  aiMaxMessageBytes : Nat
  aiMaxContextBytes : Nat
  aiDefaultMaxOutputTokens : Int
  aiMaxReservationMicroRub : Int
  aiReservationSafetyBps : Int
  output : 1 ≤ aiDefaultMaxOutputTokens
  safety : 0 ≤ aiReservationSafetyBps

structure ResolvedModel where
  contextWindowTokens : Int
  maxOutputTokens : Int
  price : PriceVersionQuote

inductive AiRequestStatus
  | CREATED | RESERVED | PROVIDER_STARTED | STREAMING | SUCCEEDED | FAILED | RECONCILIATION_REQUIRED
  deriving DecidableEq

inductive FinancialStatus
  | NONE | RESERVED | SETTLED | RELEASED | ANOMALY | RECONCILIATION_HOLD
  deriving DecidableEq

def IN_PROGRESS_STATUSES : List AiRequestStatus := [.CREATED, .RESERVED, .PROVIDER_STARTED, .STREAMING]

structure AiRequest where
  id : String
  userId : Nat
  conversationId : String
  clientRequestId : String
  status : AiRequestStatus
  financialStatus : FinancialStatus
  estimatedInputTokens : Int
  maxOutputTokens : Int
  estimatedCostMicroRub : Int
  reservationId : Option Nat
  providerRequestId : Option String
  providerActualCostMicroRub : Option Int
  userSettledUsageMicroRub : Option Int
  outputText : Option String
  deriving DecidableEq

structure Message where
  id : Nat
  conversationId : String
  role : Role
  content : String
  aiRequestId : Option String

/-- A message's key, or the request's where there is no message. -/
inductive MessageRef
  | message (id : Nat)
  | request (id : String)
  deriving DecidableEq

inductive SseEvent
  | start (aiRequestId : String)
  | delta (text : String)
  | done (messageId : MessageRef) (aiRequestId : String)

/-- The database, and what each call has written to its client. -/
structure Store where
  requests : List AiRequest
  messages : List Message
  billing : World
  written : List (Nat × SseEvent)

/-- What the body of a call asks. -/
structure SendMessage where
  userId : Nat
  conversationId : String
  clientRequestId : String
  content : String
  correlationId : String
  deriving DecidableEq

def created (id : String) (input : SendMessage) : AiRequest where
  id := id
  userId := input.userId
  conversationId := input.conversationId
  clientRequestId := input.clientRequestId
  status := .CREATED
  financialStatus := .NONE
  estimatedInputTokens := 0
  maxOutputTokens := 1
  estimatedCostMicroRub := 0
  reservationId := none
  providerRequestId := none
  providerActualCostMicroRub := none
  userSettledUsageMicroRub := none
  outputText := none

/-- What is returned for a request that already succeeded. -/
structure Replay where
  aiRequestId : String
  messageId : MessageRef
  text : String
  deriving DecidableEq

namespace Store

def empty : Store := ⟨[], [], .empty, []⟩

variable (s : Store)

def request (id : String) : Option AiRequest := Rows.find AiRequest.id id s.requests

def messagesOf (id : String) : List Message := s.messages.filter fun m => m.aiRequestId = some id

def reservationsOf (id : String) : List UsageReservation :=
  s.billing.db.reservations.filter fun r => r.requestId = id

def findUnique (userId : Nat) (clientRequestId : String) : Option AiRequest :=
  s.requests.find? fun r => r.userId = userId ∧ r.clientRequestId = clientRequestId

def updateRequest (id : String) (f : AiRequest → AiRequest) : Store :=
  { s with requests := Rows.update AiRequest.id id f s.requests }

def createMessage (conversationId : String) (role : Role) (content : String) (aiRequestId : Option String) : Store :=
  { s with messages := s.messages ++ [⟨s.messages.length, conversationId, role, content, aiRequestId⟩] }

/-- `writeEvent`, for events written while the client is in one state. -/
def writeEvents (me : Nat) (isClientOpen : Bool) (events : List SseEvent) : Store :=
  if isClientOpen then { s with written := s.written ++ events.map (me, ·) } else s

/-- `assistant?.content || outputText || ""`. -/
def replayText (row : AiRequest) : String :=
  match (s.messagesOf row.id).find? fun m => m.role = .ASSISTANT with
  | some assistant => if assistant.content ≠ "" then assistant.content else row.outputText.getD ""
  | none => row.outputText.getD ""

def replayOf (row : AiRequest) : Replay where
  aiRequestId := row.id
  messageId := match (s.messagesOf row.id).find? fun m => m.role = .ASSISTANT with
    | some assistant => .message assistant.id
    | none => .request row.id
  text := s.replayText row

/-- The answer to a second use of a request's key. Both places that look the
key up give it; only the text of a conflict differs. -/
def reuse (input : SendMessage) (row : AiRequest) (conflict : String) : Except Thrown Replay :=
  let originalUserMessage := (s.messagesOf row.id).find? fun m => m.role = .USER
  if row.conversationId ≠ input.conversationId ∨ originalUserMessage.any (·.content ≠ input.content) then
    .error (.ai .IDEMPOTENCY_CONFLICT conflict 409)
  else if row.status = .SUCCEEDED then .ok (s.replayOf row)
  else if row.status ∈ IN_PROGRESS_STATUSES then
    .error (.ai .AI_REQUEST_IN_PROGRESS "This request is already in progress" 409)
  else .error (.ai .AI_RECONCILIATION_REQUIRED "Retry this request with a new clientRequestId" 409)

/-- What a replay writes to its client. -/
def replay (me : Nat) (isClientOpen : Bool) (r : Replay) : Store :=
  s.writeEvents me isClientOpen
    (.start r.aiRequestId :: (if r.text ≠ "" then [.delta r.text] else []) ++ [.done r.messageId r.aiRequestId])

/-- The transaction that opens a request; `false` where its key is taken. -/
def beginRequest (id : String) (input : SendMessage) : Bool × Store :=
  match s.findUnique input.userId input.clientRequestId with
  | some _ => (false, s)
  | none =>
    let s := { s with requests := s.requests ++ [created id input] }
    (true, s.createMessage input.conversationId .USER input.content (some id))

/-- A transaction of the billing engine. One that still fails after its retries
has written nothing. -/
def transaction {α : Type} (fails : Bool) (tx : Db → Except TxError (Db × α)) :
    Except Thrown α × Store :=
  if fails then
    (.error (.billing (.billing .financialOperationFailed "The financial operation could not be completed safely")), s)
  else
    match tx s.billing.db with
    | .error e => (.error (.billing e), s)
    | .ok (db, result) => (.ok result, { s with billing := { s.billing with db := db } })

end Store

/-!
# One streamed answer

`TextChatService.streamMessage` as a program of atomic steps: one for each
statement of the database, each transaction of the billing engine and each call
to the concurrency limiter and the provider. Between two steps any number of
other calls and transactions take theirs.
-/

open Threads Threads.Program

inductive Step
  | lookup | resolveThreadModel | begin | reread | acquire | history | capacity | update | reserve | emit
  | streamChat | events | settle | message | release | releaseSlot
  deriving DecidableEq

inductive ConversationKind | CHAT | OPERATOR
  deriving DecidableEq

/-- What a call finds on entry, apart from the request itself. -/
structure Entry where
  aiTextEnabled : Bool
  conversation : Option ConversationKind
  isClientOpen : Bool

inductive Slot | granted | refused | unavailable
  deriving DecidableEq

/-- A query or transaction at an instant; it may fail. -/
structure At where
  now : Int
  fails : Bool

structure AtSettle where
  clock : SettleClock
  fails : Bool

inductive ProviderStreamEvent
  | delta (text : String)
  | usage (usage : NormalizedUsage)
  | other

/-- The events of a session, each with whether the client was open, and what
interrupts it. -/
structure Delivery where
  events : List (ProviderStreamEvent × Bool)
  error : Option Thrown

abbrev Draw : Step → Type
  | .lookup => Entry
  | .resolveThreadModel => Except Thrown ResolvedModel
  | .reread | .emit => Bool
  | .acquire => Slot
  | .history => Bool
  | .capacity | .reserve | .release => At
  | .streamChat => Except Thrown (Option String)
  | .events => Delivery
  | .settle => AtSettle
  | .begin | .update | .message | .releaseSlot => Unit

abbrev Process := Program Step Draw Store Thrown

section Call
variable (c : Config) (ids : Ids) (me : Nat) (input : SendMessage)

/-- `aiRequest.update` on the call's own request. -/
def updateRequest (f : AiRequest → AiRequest) : Process Unit :=
  tell .update fun s _ => s.updateRequest (ids.cuid me) f

def emit (event : SseEvent) : Process Unit := tell .emit fun s isClientOpen => s.writeEvents me isClientOpen [event]

def createAssistantMessage (text : String) : Process Unit :=
  tell .message fun s _ => s.createMessage input.conversationId .ASSISTANT text (some (ids.cuid me))

def acquire : Process Unit :=
  (ask .acquire fun s (slot : Slot) => (slot, s)).bind fun slot =>
    match slot with
    | .granted => .pure ()
    | .refused => .fail (.http "Too many concurrent AI requests" 429)
    | .unavailable => .fail (.http "AI concurrency limiter unavailable" 503)

/-- The complete messages of the conversation. -/
def readHistory : Process (List ProviderChatMessage) :=
  (ask .history fun s fails =>
    (if fails then .error (.error "The message history could not be read")
      else .ok ((s.messages.filter fun m => m.conversationId = input.conversationId).map fun m => ⟨m.role, m.content⟩),
    s)).bind lift

/-- `getSpendableUsageState(…).availableMicroRub`. -/
def getSpendableUsage : Process Int :=
  (ask .capacity fun s d =>
    (if d.fails then .error (.error "The usage state could not be read")
      else .ok (Rows.total (fun b => b.locked.available) (s.billing.db.buckets.filter fun b =>
        b.userId = input.userId ∧ unexpired d.now b.expiresAt)),
    s)).bind lift

def reserveUsage (estimatedProviderCostMicroRub : Int) : Process (Except Thrown ReservationView) :=
  ask .reserve fun s d => s.transaction d.fails (Billing.reserveUsage d.now
    ⟨input.userId, ids.cuid me, estimatedProviderCostMicroRub, some input.correlationId⟩)

def settleUsage (reservationId : Nat) (actualMicroRub : Int) : Process (Except Thrown ReservationView) :=
  ask .settle fun s d => s.transaction d.fails (Billing.settleUsage d.clock
    ⟨input.userId, reservationId, actualMicroRub, some input.correlationId⟩)

def releaseUsage (reservationId : Nat) : Process (Except Thrown ReservationView) :=
  ask .release fun s d => s.transaction d.fails (Billing.releaseUsage d.now
    ⟨input.userId, reservationId, some input.correlationId⟩)

def failed (financialStatus : FinancialStatus) (settled : Option Int) (r : AiRequest) : AiRequest :=
  { r with status := .FAILED, financialStatus := financialStatus, userSettledUsageMicroRub := settled }

def onHold (r : AiRequest) : AiRequest :=
  { r with status := .RECONCILIATION_REQUIRED, financialStatus := .RECONCILIATION_HOLD }

def financialStatusOf (view : ReservationView) : FinancialStatus :=
  if view.status = .anomaly then .ANOMALY else .SETTLED

def reconciliation (message : String) : Thrown := .ai .AI_RECONCILIATION_REQUIRED message 503

/-- `status: "FAILED"` before anything is reserved. -/
def failUnreserved (error : Thrown) : Process String :=
  (updateRequest ids me fun r => { r with status := .FAILED }).bind fun _ => .fail error

def hold (error : Thrown) : Process String := (updateRequest ids me onHold).bind fun _ => .fail error

/-- `markReconciliation`, and the error that follows it. -/
def markReconciliation (assistantText : String) (error : Thrown) : Process String :=
  if assistantText ≠ "" then (createAssistantMessage ids me input assistantText).bind fun _ => hold ids me error
  else hold ids me error

def persistDurableUsage (outputText : Option String) (providerActualCostMicroRub : Int) : Process Unit :=
  updateRequest ids me fun r =>
    { r with providerActualCostMicroRub := some providerActualCostMicroRub, outputText := outputText }

/-- The funded bound, as both ends of a stream check it. -/
def exceedsFunding (usage : NormalizedUsage) (actual estimatedInputTokens maxOutputTokens estimatedCost : Int) : Bool :=
  usage.inputTokens > estimatedInputTokens || usage.outputTokens > maxOutputTokens || actual > estimatedCost

def handleProviderFailure (reservationId : Nat) (error : Thrown) : Process String :=
  let kind := match error with
    | .provider kind _ => kind
    | _ => .ambiguous
  let refused (thrown : Thrown) : Process String :=
    (releaseUsage input reservationId).bind fun released =>
      match released with
      | .error e => .fail e
      | .ok _ => (updateRequest ids me fun r => { r with status := .FAILED, financialStatus := .RELEASED }).bind
          fun _ => .fail thrown
  match kind with
  | .rejected => refused (.ai .PROVIDER_REJECTED "The AI provider rejected the request" 502)
  | .balance => refused (.ai .AI_PROVIDER_BALANCE_UNAVAILABLE "The AI provider is temporarily unavailable" 503)
  | .ambiguous => hold ids me (reconciliation "The provider outcome is uncertain and needs reconciliation")

/-- What the `try` around the session leaves behind. -/
structure Streamed where
  assistantText : String
  usageEvent : Option NormalizedUsage
  error : Option Thrown

/-- The loop over the events: the text, the last usage, and what the client is sent. -/
def consume (me : Nat) : List (ProviderStreamEvent × Bool) → String → Option NormalizedUsage → Store →
    (String × Option NormalizedUsage) × Store
  | [], text, usage, s => ((text, usage), s)
  | (.delta piece, isClientOpen) :: rest, text, usage, s =>
    consume me rest (text ++ piece) usage (s.writeEvents me isClientOpen [.delta piece])
  | (.usage u, _) :: rest, text, _, s => consume me rest text (some u) s
  | (.other, _) :: rest, text, usage, s => consume me rest text usage s

def stream : Process Streamed :=
  (ask .streamChat fun s (session : Except Thrown (Option String)) => (session, s)).bind fun session =>
    match session with
    | .error e => .pure ⟨"", none, some e⟩
    | .ok providerRequestId =>
      (updateRequest ids me fun r => { r with status := .STREAMING, providerRequestId := providerRequestId }).bind fun _ =>
        ask .events fun s d =>
          let ((text, usage), s) := consume me d.events "" none s
          (⟨text, usage, d.error⟩, s)

/-- What the request was funded for. -/
structure Funding where
  reservationId : Nat
  price : PriceVersionQuote
  estimatedInputTokens : Int
  maxOutputTokens : Int
  estimatedCostMicroRub : Int

variable (funding : Funding)

/-- The `catch`, where usage was seen before the interruption. -/
def interruptedWithUsage (assistantText : String) (usage : NormalizedUsage) : Process String :=
  match providerCostFromUsage usage funding.price with
  | .error _ =>
    markReconciliation ids me input assistantText (reconciliation "Interrupted provider usage could not be normalized")
  | .ok actual =>
    (persistDurableUsage ids me none actual).bind fun _ =>
      if exceedsFunding usage actual funding.estimatedInputTokens funding.maxOutputTokens
          funding.estimatedCostMicroRub then
        hold ids me (reconciliation "Interrupted provider usage exceeded the funded request bound")
      else
        (settleUsage input funding.reservationId actual).bind fun settlement =>
          match settlement with
          | .error _ => hold ids me (reconciliation "Interrupted provider usage needs settlement reconciliation")
          | .ok view => (updateRequest ids me (failed (financialStatusOf view) (some view.settledMicroRub))).bind
              fun _ => .fail (.ai .PROVIDER_AMBIGUOUS_FAILURE "Provider stream ended after usage was recorded" 502)

def interrupted (streamed : Streamed) (error : Thrown) : Process String :=
  match streamed.usageEvent with
  | some usage => interruptedWithUsage ids me input funding streamed.assistantText usage
  | none => handleProviderFailure ids me input funding.reservationId error

/-- The end of a settled stream: the message, the client's `done`, the request. -/
def succeed (assistantText : String) (view : ReservationView) : Process String :=
  (ask .message fun s _ => (s.messages.length,
      s.createMessage input.conversationId .ASSISTANT assistantText (some (ids.cuid me)))).bind fun assistantId =>
    (emit me (.done (.message assistantId) (ids.cuid me))).bind fun _ =>
      (updateRequest ids me fun r => { r with
        status := .SUCCEEDED
        financialStatus := financialStatusOf view
        userSettledUsageMicroRub := some view.settledMicroRub }).bind fun _ => .pure assistantText

/-- A settlement that failed: the text is kept, the reservation is held. -/
def unsettled (assistantText : String) : Process String :=
  (updateRequest ids me onHold).bind fun _ =>
    let error := reconciliation "Provider usage could not be settled and needs reconciliation"
    if assistantText ≠ "" then (createAssistantMessage ids me input assistantText).bind fun _ => .fail error
    else .fail error

def completed (streamed : Streamed) : Process String :=
  match streamed.usageEvent with
  | none => markReconciliation ids me input streamed.assistantText
      (reconciliation "Provider usage was not received; the request needs reconciliation")
  | some usage =>
    match providerCostFromUsage usage funding.price with
    | .error _ => markReconciliation ids me input streamed.assistantText
        (reconciliation "Provider usage could not be normalized and needs reconciliation")
    | .ok actual =>
      (persistDurableUsage ids me (some streamed.assistantText) actual).bind fun _ =>
        if exceedsFunding usage actual funding.estimatedInputTokens funding.maxOutputTokens
            funding.estimatedCostMicroRub then
          hold ids me (reconciliation "Provider usage exceeded the funded request bound")
        else
          (settleUsage input funding.reservationId actual).bind fun settlement =>
            match settlement with
            | .error _ => unsettled ids me input streamed.assistantText
            | .ok view => succeed ids me input streamed.assistantText view

/-- From the reservation to the end of the stream. -/
def reservedFlow : Process String :=
  (updateRequest ids me fun r => { r with
    reservationId := some funding.reservationId, status := .RESERVED, financialStatus := .RESERVED }).bind fun _ =>
  (emit me (.start (ids.cuid me))).bind fun _ =>
  (updateRequest ids me fun r => { r with status := .PROVIDER_STARTED }).bind fun _ =>
  (stream ids me).bind fun streamed =>
    match streamed.error with
    | some error => interrupted ids me input funding streamed error
    | none => completed ids me input funding streamed

def fundedFlow (model : ResolvedModel) (estimatedInputTokens : Int) (budget : FundedAiExecutionBudget) : Process String :=
  (updateRequest ids me fun r => { r with
    estimatedInputTokens := estimatedInputTokens
    maxOutputTokens := budget.selectedOutputTokens
    estimatedCostMicroRub := budget.estimatedCostMicroRub }).bind fun _ =>
  (reserveUsage ids me input budget.estimatedCostMicroRub).bind fun reserved =>
    match reserved with
    | .error e => failUnreserved ids me e
    | .ok view => reservedFlow ids me input
        ⟨view.id, model.price, estimatedInputTokens, budget.selectedOutputTokens, budget.estimatedCostMicroRub⟩

def budgetInput (model : ResolvedModel) (estimatedInputTokens availableMicroRub : Int) : BudgetInput :=
  let minimumOutputTokens := min (min (DEFAULT_AI_EXECUTION_BUDGET_PROFILES .STANDARD).minimumOutputTokens
    c.aiDefaultMaxOutputTokens) model.maxOutputTokens
  { profile := .STANDARD
    profiles := fun name => if name = .STANDARD then ⟨c.aiDefaultMaxOutputTokens, minimumOutputTokens⟩
      else DEFAULT_AI_EXECUTION_BUDGET_PROFILES name
    modelMaxOutputTokens := min model.maxOutputTokens (max 0 (model.contextWindowTokens - estimatedInputTokens))
    estimatedInputTokens := estimatedInputTokens
    availableMicroRub := availableMicroRub
    maxReservationMicroRub := c.aiMaxReservationMicroRub
    price := model.price
    safetyBps := c.aiReservationSafetyBps }

def runProviderFlow (model : ResolvedModel) : Process String :=
  (readHistory input).bind fun history =>
    let providerMessages := selectContextMessages history c.aiMaxContextBytes
    let estimatedInputTokens : Int := estimateProviderRequestInputTokens providerMessages
    let bounds := budgetInput c model estimatedInputTokens 0
    if bounds.modelMaxOutputTokens < (bounds.profiles .STANDARD).minimumOutputTokens then
      failUnreserved ids me (.ai .MODEL_UNAVAILABLE
        "The current context leaves insufficient room for a useful model response" 400)
    else
      (getSpendableUsage input).bind fun availableMicroRub =>
      (lift (resolveAiExecutionBudget (budgetInput c model estimatedInputTokens availableMicroRub))).bind fun result =>
        match result with
        | .FUNDED budget => fundedFlow ids me input model estimatedInputTokens budget
        | .REQUEST_COST_LIMIT => failUnreserved ids me
            (.ai .AI_REQUEST_COST_LIMIT "Estimated request cost exceeds the safety cap" 400)
        | .INSUFFICIENT_USAGE => failUnreserved ids me
            (.billing (.billing .insufficientUsage "Remaining AI allowance cannot fund the minimum useful response"))

/-- The checks on entry and the look at the request's key; `true` where the
stored answer was replayed. -/
def lookup : Process Bool :=
  (ask .lookup fun s d =>
    if d.aiTextEnabled then
      match d.conversation with
      | none => (.error (.http "Conversation was not found" 404), s)
      | some .OPERATOR => (.error (.http "Operator conversations use the operator API" 400), s)
      | some .CHAT =>
        match s.findUnique input.userId input.clientRequestId with
        | none => (.ok false, s)
        | some row =>
          match s.reuse input row "clientRequestId was already used in another conversation" with
          | .error e => (.error e, s)
          | .ok replay => (.ok true, s.replay me d.isClientOpen replay)
    else (.error (.ai .AI_DISABLED "Text AI is temporarily disabled" 503), s)).bind lift

/-- The look at the key after the transaction found it taken. -/
def reread : Process Unit :=
  (ask .reread fun s isClientOpen =>
    match s.findUnique input.userId input.clientRequestId with
    | none => (.error (.ai .AI_REQUEST_IN_PROGRESS "Duplicate request could not be loaded" 409), s)
    | some row =>
      match s.reuse input row "clientRequestId was already used for a different request" with
      | .error e => (.error e, s)
      | .ok replay => (.ok (), s.replay me isClientOpen replay)).bind lift

/-- The slot is released however the flow ends. -/
def withSlot (model : ResolvedModel) : Process Unit :=
  (runProviderFlow c ids me input model).attempt.bind fun result =>
    (tell .releaseSlot fun s _ => s).bind fun _ =>
      match result with
      | .ok _ => .pure ()
      | .error e => .fail e

def streamMessage : Process Unit :=
  (lookup me input).bind fun replayed =>
    if replayed then .pure ()
    else
      (lift (assertMessageSize input.content c.aiMaxMessageBytes)).bind fun _ =>
      ((ask .resolveThreadModel fun s (model : Except Thrown ResolvedModel) => (model, s)).bind lift).bind fun model =>
      (ask .begin fun s _ => s.beginRequest (ids.cuid me) input).bind fun isNew =>
        if isNew then acquire.bind fun _ => withSlot c ids me input model
        else reread me input

end Call

/-- What happens beside the calls: a transaction of the billing engine for
someone else, and a message that another service adds. -/
inductive Change
  | billing (op : Op)
  | message (conversationId : String) (role : Role) (content : String)

def Store.change (s : Store) : Change → Store
  | .billing op => { s with billing := s.billing.step op }
  | .message conversationId role content => s.createMessage conversationId role content none

def service (c : Config) (ids : Ids) : System Step Draw Store Thrown Unit SendMessage Change where
  program := streamMessage c ids
  environment := Store.change

end Vimla.TextChat
