import Vimla.E2ee.Envelope

/-!
# The outbox

The rows of the store `pendingSends` in `crypto-store.ts`, how their secret fields
are protected, and what each transaction does to the store. A transaction is given
how it seals: the same one with contents that are left as they are says what it
means.
-/

namespace Vimla.DirectChats

open E2ee (DirectMessageKind)

/-- `local-protection.ts`; the seal is made with a random `iv`. -/
structure LocalProtection where
  protectLocalString : (iv : Nat) → (plaintext aad : String) → String
  unprotectLocalString : (value aad : String) → Option String
  isProtectedLocalString : String → Bool

inductive OperatorRunStatus
  | CREATED | PLANNING | AWAITING_CLARIFICATION | AWAITING_CONFIRMATION | EXECUTING | SUCCEEDED | FAILED | CANCELED
  | PARTIAL
  deriving DecidableEq

structure OperatorContextMessage where
  messageId : String
  senderUserId : String
  sentAt : String
  text : String
  deriving DecidableEq

structure StoredOperatorOutput where
  id : String
  clientMessageId : String
  kind : DirectMessageKind
  plaintext : String
  delivered : Bool
  deriving DecidableEq

structure StoredOperatorOutputDraft where
  id : String
  kind : DirectMessageKind
  plaintext : String

structure StoredOperatorDelivery where
  runId : String
  runStatus : OperatorRunStatus
  runUpdatedAt : String
  outputs : List StoredOperatorOutput
  deriving DecidableEq

structure StoredOperatorIntent where
  clientRequestId : String
  content : String
  contextMessages : List OperatorContextMessage
  delivery : Option StoredOperatorDelivery := none
  deriving DecidableEq

structure StoredOperatorOutputLink where
  parentClientMessageId : String
  outputId : String
  deriving DecidableEq

/-- An envelope of a message for one device. -/
structure WireEnvelopeDto where
  recipientDeviceId : String
  headerB64 : String
  ciphertextB64 : String
  dhPublicB64 : String
  messageNumber : Nat
  previousChainLength : Nat
  senderSignatureB64 : String
  x3dhInit : Option E2ee.X3dhInitHeader
  deriving DecidableEq

structure StoredPendingSend where
  protectionVersion : Option Nat := none
  revision : Option Nat := none
  conversationId : String
  clientMessageId : String
  contentCommitmentB64 : Option String
  senderUserId : String
  senderDeviceId : String
  interactionEpoch : Int
  peerUserId : Option String := none
  kind : DirectMessageKind
  envelopes : List WireEnvelopeDto
  mentions : List String
  plaintext : String
  createdAt : String
  operatorIntent : Option StoredOperatorIntent := none
  operatorOutput : Option StoredOperatorOutputLink := none
  committedMessageId : Option String := none
  committedCreatedAt : Option String := none
  trustCancelledAt : Option String := none
  deriving DecidableEq

abbrev PendingSends := OrderedMap String StoredPendingSend

def LEGACY_LOCAL_PROTECTION_VERSION : Nat := 0
def LOCAL_PROTECTION_VERSION : Nat := 1

def pendingAad (clientMessageId field : String) : String := "vimla:e2ee:pending:" ++ clientMessageId ++ ":" ++ field

def pendingSendRevision (pending : StoredPendingSend) : Nat := pending.revision.getD 0

/-- `none` where the version is invalid. -/
def localProtectionVersion (pending : StoredPendingSend) : Option Nat :=
  pending.protectionVersion.filter fun version =>
    version = LEGACY_LOCAL_PROTECTION_VERSION ∨ version = LOCAL_PROTECTION_VERSION

/-- The secret fields with their associated data. -/
def StoredOperatorIntent.secrets (clientMessageId : String) (intent : StoredOperatorIntent) : List (String × String) :=
  (intent.content, pendingAad clientMessageId "operator-content") ::
    (intent.contextMessages.map fun m => (m.text, pendingAad clientMessageId ("context:" ++ m.messageId))) ++
    ((intent.delivery.map (·.outputs)).getD []).map fun o =>
      (o.plaintext, pendingAad clientMessageId ("operator-output:" ++ o.id))

def StoredPendingSend.secrets (pending : StoredPendingSend) : List (String × String) :=
  (pending.plaintext, pendingAad pending.clientMessageId "message-plaintext") ::
    (pending.operatorIntent.map (·.secrets pending.clientMessageId)).getD []

section
variable (sealing : (plaintext aad : String) → String)

def protectOutput (clientMessageId : String) (output : StoredOperatorOutput) : StoredOperatorOutput :=
  { output with
    plaintext := sealing output.plaintext (pendingAad clientMessageId ("operator-output:" ++ output.id)) }

def protectOperatorIntent (clientMessageId : String) (intent : StoredOperatorIntent) : StoredOperatorIntent :=
  { intent with
    content := sealing intent.content (pendingAad clientMessageId "operator-content")
    contextMessages := intent.contextMessages.map fun m =>
      { m with text := sealing m.text (pendingAad clientMessageId ("context:" ++ m.messageId)) }
    delivery := intent.delivery.map fun d => { d with outputs := d.outputs.map (protectOutput sealing clientMessageId) } }

def protectPendingSend (version : Option Nat) (pending : StoredPendingSend) : StoredPendingSend :=
  { pending with
    protectionVersion := version
    plaintext := sealing pending.plaintext (pendingAad pending.clientMessageId "message-plaintext")
    operatorIntent := pending.operatorIntent.map (protectOperatorIntent sealing pending.clientMessageId) }

end

/-- A field that may be absent. -/
def optionally {α : Type} (f : α → Option α) : Option α → Option (Option α)
  | none => some none
  | some a => (f a).map some

section
variable (opening : (value aad : String) → Option String)

def unprotectOutput (clientMessageId : String) (output : StoredOperatorOutput) : Option StoredOperatorOutput :=
  (opening output.plaintext (pendingAad clientMessageId ("operator-output:" ++ output.id))).map fun plaintext =>
    { output with plaintext }

def unprotectDelivery (clientMessageId : String) (delivery : StoredOperatorDelivery) : Option StoredOperatorDelivery :=
  (delivery.outputs.mapM (unprotectOutput opening clientMessageId)).map fun outputs => { delivery with outputs }

def unprotectOperatorIntent (clientMessageId : String) (intent : StoredOperatorIntent) : Option StoredOperatorIntent := do
  let contextMessages ← intent.contextMessages.mapM fun m =>
    (opening m.text (pendingAad clientMessageId ("context:" ++ m.messageId))).map fun text => { m with text }
  let delivery ← optionally (unprotectDelivery opening clientMessageId) intent.delivery
  let content ← opening intent.content (pendingAad clientMessageId "operator-content")
  return { intent with content, contextMessages, delivery }

/-- The row with its secret fields opened. -/
def openPendingSend (pending : StoredPendingSend) : Option StoredPendingSend := do
  let plaintext ← opening pending.plaintext (pendingAad pending.clientMessageId "message-plaintext")
  let operatorIntent ← optionally (unprotectOperatorIntent opening pending.clientMessageId) pending.operatorIntent
  return { pending with protectionVersion := none, plaintext, operatorIntent }

end

/-- Whether `assertLegacyPendingSendIsRaw` does not throw. -/
def assertLegacyPendingSendIsRaw (P : LocalProtection) (pending : StoredPendingSend) : Bool :=
  pending.secrets.all fun secret => ¬ P.isProtectedLocalString secret.1

/-- `none` where it throws. -/
def unprotectPendingSend (P : LocalProtection) (pending : StoredPendingSend) : Option StoredPendingSend :=
  match localProtectionVersion pending with
  | none => none
  | some version =>
    if version = LEGACY_LOCAL_PROTECTION_VERSION then
      if assertLegacyPendingSendIsRaw P pending then some { pending with protectionVersion := none } else none
    else openPendingSend P.unprotectLocalString pending

/-- How a transaction's contents are sealed and marked. -/
structure Mode where
  sealing : (plaintext aad : String) → String
  version : Option Nat

/-- Protected, with an `iv` for each associated data. -/
def LocalProtection.mode (P : LocalProtection) (iv : String → Nat) : Mode :=
  ⟨fun plaintext aad => P.protectLocalString (iv aad) plaintext aad, some LOCAL_PROTECTION_VERSION⟩

/-- Left as they are. -/
def Mode.plain : Mode := ⟨fun plaintext _ => plaintext, none⟩

def isTerminalOperatorStatus : OperatorRunStatus → Bool
  | .SUCCEEDED | .FAILED | .CANCELED | .PARTIAL | .AWAITING_CLARIFICATION => true
  | _ => false

/-- `dateParse` is `Date.parse`, `none` for `NaN`. -/
def isOlderOperatorDelivery (dateParse : String → Option Int) (incomingUpdatedAt currentUpdatedAt : String) : Bool :=
  match dateParse incomingUpdatedAt, dateParse currentUpdatedAt with
  | some incoming, some current => incoming < current
  | _, _ => Js.codeUnits incomingUpdatedAt < Js.codeUnits currentUpdatedAt

def StoredPendingSend.delivery (pending : StoredPendingSend) : Option StoredOperatorDelivery :=
  pending.operatorIntent.bind (·.delivery)

/-- The output that a link of this message names. -/
def StoredOperatorDelivery.linked (delivery : StoredOperatorDelivery) (link : StoredOperatorOutputLink)
    (clientMessageId : String) : Option StoredOperatorOutput :=
  delivery.outputs.find? fun candidate => candidate.id = link.outputId ∧ candidate.clientMessageId = clientMessageId

structure TrustScope where
  conversationId : Option String
  senderDeviceId : Option String
  peerUserId : Option String

def TrustScope.matches (scope : TrustScope) (row : StoredPendingSend) : Bool :=
  scope.conversationId.all (· = row.conversationId) ∧ scope.senderDeviceId.all (· = row.senderDeviceId) ∧
    scope.peerUserId.all (row.peerUserId = some ·)

def cancelRow (scope : TrustScope) (cancelledAt : String) (row : StoredPendingSend) : StoredPendingSend :=
  if scope.matches row ∧ row.trustCancelledAt = none then
    { row with revision := some (pendingSendRevision row + 1), trustCancelledAt := some cancelledAt }
  else row

def cancelPendingSendsForTrust (scope : TrustScope) (cancelledAt : String) (store : PendingSends) : Option PendingSends :=
  if scope.conversationId = none ∧ scope.peerUserId = none then none
  else some (store.mapValues (cancelRow scope cancelledAt))

/-- The part of `commitOutboundRatchets` in this store. -/
def commitPendingSend (mode : Mode) (pending : StoredPendingSend) (expectedPendingRevision : Option Nat)
    (store : PendingSends) : Option PendingSends :=
  let expected := (store.get pending.clientMessageId).map pendingSendRevision = expectedPendingRevision
  let parent := pending.operatorOutput.all fun link =>
    (((store.get link.parentClientMessageId).bind (·.delivery)).bind (·.linked link pending.clientMessageId)).any
      fun output => ¬ output.delivered
  if expected ∧ parent then
    some (store.set pending.clientMessageId (protectPendingSend mode.sealing mode.version pending))
  else none

/-- The row of an invocation that the server has taken. -/
def committedRow (current pending : StoredPendingSend) (operatorIntent : StoredOperatorIntent)
    (messageId serverCreatedAt : String) : StoredPendingSend :=
  { current with
    revision := some (max (pendingSendRevision current) (pendingSendRevision pending) + 1)
    operatorIntent := some operatorIntent
    committedMessageId := some messageId
    committedCreatedAt := some serverCreatedAt }

def markDelivered (outputId : String) (delivery : StoredOperatorDelivery) : StoredOperatorDelivery :=
  { delivery with
    outputs := delivery.outputs.map fun candidate =>
      if candidate.id = outputId then { candidate with delivered := true } else candidate }

/-- The parent's row when an output has reached the server. -/
def deliveredRow (parent : StoredPendingSend) (outputId : String) : StoredPendingSend :=
  { parent with
    revision := some (pendingSendRevision parent + 1)
    operatorIntent := parent.operatorIntent.map fun intent =>
      { intent with delivery := intent.delivery.map (markDelivered outputId) } }

def completePendingSend (mode : Mode) (pending : StoredPendingSend) (messageId serverCreatedAt : String)
    (store : PendingSends) : Option PendingSends :=
  match pending.operatorIntent, pending.operatorOutput with
  | some intent, _ =>
    match store.get pending.clientMessageId with
    | none => some store
    | some current =>
      match current.operatorIntent with
      | none => none
      | some currentIntent =>
        if currentIntent.clientRequestId ≠ intent.clientRequestId then none
        else
          let merged := if currentIntent.delivery.isSome then currentIntent
            else protectOperatorIntent mode.sealing pending.clientMessageId intent
          some (store.set pending.clientMessageId (committedRow current pending merged messageId serverCreatedAt))
  | none, some link =>
    match store.get link.parentClientMessageId with
    | none => some (store.erase pending.clientMessageId)
    | some parent =>
      match parent.delivery.bind (·.linked link pending.clientMessageId) with
      | none => none
      | some output =>
        if output.delivered then some (store.erase pending.clientMessageId)
        else some ((store.set link.parentClientMessageId (deliveredRow parent link.outputId)).erase pending.clientMessageId)
  | none, none => some (store.erase pending.clientMessageId)

structure DeliveryInput where
  parentClientMessageId : String
  runId : String
  runStatus : OperatorRunStatus
  runUpdatedAt : String
  outputs : List StoredOperatorOutputDraft

/-- The outputs with a draft when it is new. -/
def stageOutput (mode : Mode) (parentClientMessageId : String) (outputs : List StoredOperatorOutput)
    (draft : StoredOperatorOutput) : List StoredOperatorOutput :=
  if outputs.any (·.id = draft.id) then outputs else outputs ++ [protectOutput mode.sealing parentClientMessageId draft]

/-- The drafts as outputs; each has a client message id made for it. -/
def draftOutputs (newId : Nat → String) (drafts : List StoredOperatorOutputDraft) : List StoredOperatorOutput :=
  drafts.mapIdx fun i draft =>
    { id := draft.id, clientMessageId := newId i, kind := draft.kind, plaintext := draft.plaintext, delivered := false }

def stageOutputs (mode : Mode) (parentClientMessageId : String) (drafts outputs : List StoredOperatorOutput) :
    List StoredOperatorOutput :=
  drafts.foldl (stageOutput mode parentClientMessageId) outputs

def stagedRow (parent : StoredPendingSend) (intent : StoredOperatorIntent) (delivery : StoredOperatorDelivery) :
    StoredPendingSend :=
  { parent with
    revision := some (pendingSendRevision parent + 1)
    operatorIntent := some { intent with delivery := some delivery } }

/-- A delivery that is not to be replaced by the input's. -/
def newerDelivery (dateParse : String → Option Int) (input : DeliveryInput) (existing : StoredOperatorDelivery) : Bool :=
  isOlderOperatorDelivery dateParse input.runUpdatedAt existing.runUpdatedAt ∨
    (input.runUpdatedAt = existing.runUpdatedAt ∧ isTerminalOperatorStatus existing.runStatus ∧
      ¬ isTerminalOperatorStatus input.runStatus)

def stagePendingOperatorDelivery (dateParse : String → Option Int) (mode : Mode) (input : DeliveryInput)
    (newId : Nat → String) (store : PendingSends) : Option PendingSends :=
  match store.get input.parentClientMessageId with
  | none => none
  | some parent =>
    match parent.operatorIntent, parent.committedMessageId, parent.committedCreatedAt with
    | some intent, some _, some _ =>
      if intent.delivery.any (·.runId ≠ input.runId) then none
      else if intent.delivery.any (newerDelivery dateParse input) then some store
      else
        let outputs := stageOutputs mode input.parentClientMessageId (draftOutputs newId input.outputs)
          ((intent.delivery.map (·.outputs)).getD [])
        some (store.set input.parentClientMessageId (stagedRow parent intent {
          runId := input.runId, runStatus := input.runStatus, runUpdatedAt := input.runUpdatedAt, outputs }))
    | _, _, _ => none

def completePendingOperatorIntent (clientMessageId : String) (store : PendingSends) : Option PendingSends :=
  match store.get clientMessageId with
  | none => some store
  | some pending =>
    match pending.delivery with
    | none => none
    | some delivery =>
      if delivery.outputs.any (¬ ·.delivered) then none
      else if isTerminalOperatorStatus delivery.runStatus then some (store.erase clientMessageId)
      else some store

/-- The message id of the invocation that a pending send belongs to. -/
def operatorParent (pending : StoredPendingSend) : Option String :=
  if pending.operatorIntent.isSome then some pending.clientMessageId
  else pending.operatorOutput.map (·.parentClientMessageId)

/-- The rows that go with the pending send of an invocation. -/
def discards (pending : StoredPendingSend) (parent : String) (row : StoredPendingSend) : Bool :=
  (row.conversationId = pending.conversationId ∧ row.senderDeviceId = pending.senderDeviceId) ∧
    (row.clientMessageId = parent ∨ row.clientMessageId = pending.clientMessageId ∨
      row.operatorOutput.any (·.parentClientMessageId = parent))

def discardPendingSendForUnavailableInteraction (pending : StoredPendingSend) (store : PendingSends) :
    Option PendingSends :=
  match operatorParent pending with
  | none => some (store.erase pending.clientMessageId)
  | some parent => some (store.filterValues fun row => ¬ discards pending parent row)

/-- The row is still the one that was reconciled with the server. -/
def reconciled (expected current : StoredPendingSend) : Bool :=
  current.conversationId = expected.conversationId ∧ current.senderDeviceId = expected.senderDeviceId ∧
    expected.trustCancelledAt.isSome ∧ current.trustCancelledAt = expected.trustCancelledAt ∧
    pendingSendRevision current = pendingSendRevision expected ∧ current.senderUserId = expected.senderUserId ∧
    current.interactionEpoch = expected.interactionEpoch ∧ current.kind = expected.kind ∧
    current.committedMessageId = expected.committedMessageId

/-- An output row that depends on the invocation. -/
def dependsOn (expected current row : StoredPendingSend) : Bool :=
  (row.conversationId = expected.conversationId ∧ row.senderDeviceId = expected.senderDeviceId) ∧
    row.operatorOutput.any (·.parentClientMessageId = current.clientMessageId)

def pruneReconciledTrustCancelledPendingSend (expected : StoredPendingSend) (store : PendingSends) : Option PendingSends :=
  match store.get expected.clientMessageId with
  | none => some store
  | some current =>
    if reconciled expected current ∧ ¬ (current.operatorIntent.isSome ∧ store.anyValue (dependsOn expected current)) then
      some (store.erase expected.clientMessageId)
    else some store

/-- The transaction of `migratePendingSend` for a row that was read before. -/
def migratePendingSend (mode : Mode) (legacy : StoredPendingSend) (store : PendingSends) : Option PendingSends :=
  match store.get legacy.clientMessageId with
  | none => some store
  | some current =>
    match localProtectionVersion current with
    | none => none
    | some version =>
      if version = LEGACY_LOCAL_PROTECTION_VERSION ∧ current = legacy then
        some (store.set legacy.clientMessageId (protectPendingSend mode.sealing mode.version legacy))
      else some store

/-!
# Calls on the outbox

Each call of an exported function of `crypto-store.ts` that uses the outbox, one
transaction after the other, in any order with those of the others. Beside the
stored rows stands what they mean: the contents that were last written.
-/

inductive OutboxOp
  | loadPendingSend (clientMessageId : String)
  | loadPendingSends (conversationId senderDeviceId : String)
  | cancelPendingSendsForTrust (scope : TrustScope) (cancelledAt : String)
  | commitOutboundRatchets (pendingSend : StoredPendingSend) (expectedPendingRevision : Option Nat)
  | completePendingSend (pending : StoredPendingSend) (messageId serverCreatedAt : String)
  | stagePendingOperatorDelivery (input : DeliveryInput) (newId : Nat → String)
  | completePendingOperatorIntent (clientMessageId : String)
  | discardPendingSendForUnavailableInteraction (pending : StoredPendingSend)
  | pruneReconciledTrustCancelledPendingSend (expected : StoredPendingSend)

namespace OutboxOp

/-- The rows that the call loads before its own transaction, if it loads any. -/
def loads : OutboxOp → PendingSends → Option (List StoredPendingSend)
  | .loadPendingSend clientMessageId, store => some (store.get clientMessageId).toList
  | .loadPendingSends conversationId senderDeviceId, store =>
    some ((store.entries.map Prod.snd).filter fun row =>
      row.conversationId = conversationId ∧ row.senderDeviceId = senderDeviceId)
  | .completePendingSend pending _ _, store =>
    match pending.operatorOutput with
    | none => none
    | some link => some (store.get link.parentClientMessageId).toList
  | .stagePendingOperatorDelivery input _, store => some (store.get input.parentClientMessageId).toList
  | _, _ => none

/-- The call's own transaction; `none` when it aborts. -/
def apply (dateParse : String → Option Int) (mode : Mode) : OutboxOp → PendingSends → Option PendingSends
  | .loadPendingSend _, store => some store
  | .loadPendingSends _ _, store => some store
  | .cancelPendingSendsForTrust scope cancelledAt, store => DirectChats.cancelPendingSendsForTrust scope cancelledAt store
  | .commitOutboundRatchets pendingSend expected, store => commitPendingSend mode pendingSend expected store
  | .completePendingSend pending messageId serverCreatedAt, store =>
    DirectChats.completePendingSend mode pending messageId serverCreatedAt store
  | .stagePendingOperatorDelivery input newId, store =>
    DirectChats.stagePendingOperatorDelivery dateParse mode input newId store
  | .completePendingOperatorIntent clientMessageId, store =>
    DirectChats.completePendingOperatorIntent clientMessageId store
  | .discardPendingSendForUnavailableInteraction pending, store =>
    DirectChats.discardPendingSendForUnavailableInteraction pending store
  | .pruneReconciledTrustCancelledPendingSend expected, store =>
    DirectChats.pruneReconciledTrustCancelledPendingSend expected store

end OutboxOp

inductive OutboxPhase
  | begun
  /-- Rows that were read and are still to be migrated. -/
  | migrating (legacy : List StoredPendingSend)
  | done

structure OutboxCall where
  op : OutboxOp
  phase : OutboxPhase := .begun

structure Outbox where
  store : PendingSends
  /-- The contents that were last written to each row. -/
  written : PendingSends
  calls : Nat → Option OutboxCall

inductive OutboxEvent
  | begin (id : Nat) (op : OutboxOp)
  | read (id : Nat)
  | migrate (id : Nat) (iv : String → Nat)
  | apply (id : Nat) (iv : String → Nat)

namespace Outbox

def setCall (s : Outbox) (id : Nat) (call : OutboxCall) : Outbox :=
  { s with calls := Function.update s.calls id (some call) }

variable (P : LocalProtection) (dateParse : String → Option Int)

/-- What a transaction leaves: nothing changes when it aborts. -/
def commit (s : Outbox) (transaction : Mode → PendingSends → Option PendingSends) (iv : String → Nat) : Outbox :=
  { s with
    store := (transaction (P.mode iv) s.store).getD s.store
    written := (transaction .plain s.written).getD s.written }

/-- Rows are read; reading one with an invalid version throws. -/
def read (s : Outbox) (id : Nat) (call : OutboxCall) : Outbox :=
  match call.phase, call.op.loads s.store with
  | .begun, some rows =>
    if rows.all fun row => (localProtectionVersion row).isSome then
      s.setCall id { call with
        phase := .migrating (rows.filter fun row => localProtectionVersion row = some LEGACY_LOCAL_PROTECTION_VERSION) }
    else s.setCall id { call with phase := .done }
  | _, _ => s

/-- The next of the rows that were read is protected where it is still the same. -/
def migrate (s : Outbox) (id : Nat) (call : OutboxCall) (iv : String → Nat) : Outbox :=
  match call.phase with
  | .migrating (legacy :: rest) =>
    if assertLegacyPendingSendIsRaw P legacy then
      let store := (migratePendingSend (P.mode iv) legacy s.store).getD s.store
      { s with store }.setCall id { call with phase := .migrating rest }
    else s.setCall id { call with phase := .done }
  | _ => s

/-- Whether the call has come to its own transaction. -/
def ready (s : Outbox) (call : OutboxCall) : Bool :=
  match call.phase with
  | .begun => (call.op.loads s.store).isNone
  | .migrating [] => true
  | _ => false

def step (s : Outbox) : OutboxEvent → Outbox
  | .begin id op => match s.calls id with
    | none => s.setCall id { op }
    | some _ => s
  | .read id => match s.calls id with
    | none => s
    | some call => s.read id call
  | .migrate id iv => match s.calls id with
    | none => s
    | some call => s.migrate P id call iv
  | .apply id iv => match s.calls id with
    | none => s
    | some call =>
      if s.ready call then (s.commit P (call.op.apply dateParse) iv).setCall id { call with phase := .done } else s

end Outbox

end Vimla.DirectChats
