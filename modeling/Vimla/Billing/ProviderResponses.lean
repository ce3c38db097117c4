import Vimla.Billing.Payment
import Vimla.Lib.Json

/-!
# Where payment events come from

`paymentEventFromNotification` of `payment-events.ts`, and the events that
`refundOwnedPayment` and `reconcileRecord` of `payment-service.ts` send. The
hash of the notification fingerprint is a parameter.
-/

namespace Vimla.Billing

structure VerifiedTBankNotification where
  orderId : String
  paymentId : String
  status : String
  success : Bool
  amountMicroRub : Int
  paymentMethod : Option PaymentMethod := none
  rawProviderSource : Option String := none

/-- `createHash("sha256")…digest("hex")` is `sha256`. -/
def tbankNotificationFingerprint (sha256 : String → String) (notification : VerifiedTBankNotification) :
    String :=
  let canonical := String.intercalate ":" [
    notification.orderId,
    notification.paymentId,
    notification.status,
    toString notification.amountMicroRub,
    if notification.success then "true" else "false"]
  sha256 canonical

/-- The event type that notifications and reconciliation give a money event. -/
def eventTypeOf : ProviderMoneyEvent → PaymentEventType
  | .confirmed => .succeeded
  | .failed => .failed
  | .canceled => .canceled
  | .refunded => .refunded
  | .partiallyRefunded => .partiallyRefunded
  | .ignore | .pending => .status

def paymentEventFromNotification (sha256 : String → String) (provider : String)
    (notification : VerifiedTBankNotification) : PaymentEventInput where
  provider := provider
  providerEventId := tbankNotificationFingerprint sha256 notification
  providerPaymentId := some notification.paymentId
  orderId := some notification.orderId
  eventType := eventTypeOf (classifyTBankStatus notification.status)
  providerStatus := some notification.status
  amountMicroRub := some notification.amountMicroRub
  paymentMethod := notification.paymentMethod
  rawProviderPaymentMethod := notification.rawProviderSource

structure ProviderPaymentState where
  orderId : String
  providerPaymentId : String
  providerStatus : String
  amountMicroRub : Int
  paymentMethod : Option PaymentMethod := none
  rawProviderSource : Option String := none

/-- The event of a refund asked for by its owner. `amountMicroRub` is the part
to return, the whole when absent; `state` is the provider's answer. -/
def refundOwnedPaymentEvent (provider : String) (payment : Payment) (amountMicroRub : Option Int)
    (state : ProviderPaymentState) : PaymentEventInput where
  provider := provider
  providerEventId := String.intercalate ":" ["refund", toString payment.id, state.providerStatus,
    toString state.amountMicroRub]
  providerPaymentId := some state.providerPaymentId
  orderId := some state.orderId
  eventType := if classifyTBankStatus state.providerStatus = .partiallyRefunded
    then .partiallyRefunded else .refunded
  providerStatus := some state.providerStatus
  amountMicroRub := some payment.amountMicroRub
  refundAmountMicroRub := amountMicroRub

/-- A payment is reconciled while it is open and the provider has decided.
`state` is what `getState` answers, or `checkOrder` with the payment's amount. -/
def reconcileRecordEvent (provider : String) (payment : Payment) (state : ProviderPaymentState) :
    Option PaymentEventInput :=
  if payment.status ≠ .created ∧ payment.status ≠ .pending then none
  else
    let moneyEvent := classifyTBankStatus state.providerStatus
    if moneyEvent = .ignore ∨ moneyEvent = .pending then none
    else some {
      provider := provider
      providerEventId := String.intercalate ":" ["reconcile", toString payment.id,
        state.providerStatus]
      providerPaymentId := some state.providerPaymentId
      orderId := some payment.providerOrderId
      eventType := eventTypeOf moneyEvent
      providerStatus := some state.providerStatus
      amountMicroRub := some state.amountMicroRub
      paymentMethod := state.paymentMethod
      rawProviderPaymentMethod := state.rawProviderSource }

variable {event : PaymentEventInput}

/-- An event typed by its own status is the money event of that status. -/
theorem moneyEvent_of_status {status : String} (given : event.providerStatus = some status)
    (typed : event.eventType = eventTypeOf (classifyTBankStatus status)) :
    moneyEventFromInput event = classifyTBankStatus status := by
  have empty : classifyTBankStatus "" = .ignore := by decide +kernel
  unfold moneyEventFromInput
  rw [given, typed]
  by_cases blank : status = ""
  · subst blank
    simp [truthy, empty, eventTypeOf, Option.filter]
  · simp only [truthy, Option.filter_some, blank, ne_eq, not_false_eq_true, decide_true, if_true]
    cases classifyTBankStatus status <;> rfl

theorem moneyEvent_of_notification (sha256 : String → String) (provider : String)
    (notification : VerifiedTBankNotification) :
    moneyEventFromInput (paymentEventFromNotification sha256 provider notification) =
      classifyTBankStatus notification.status :=
  moneyEvent_of_status rfl rfl

theorem moneyEvent_of_reconcile {provider : String} {payment : Payment} {state : ProviderPaymentState}
    (h : reconcileRecordEvent provider payment state = some event) :
    moneyEventFromInput event = classifyTBankStatus state.providerStatus ∧
      (payment.status = .created ∨ payment.status = .pending) := by
  unfold reconcileRecordEvent at h
  split at h
  · cases h
  rename_i isOpen
  simp only at h
  split at h
  · cases h
  cases h
  refine ⟨moneyEvent_of_status rfl rfl, ?_⟩
  by_cases created : payment.status = .created
  · exact .inl created
  · exact .inr (not_not.1 fun pending => isOpen ⟨created, pending⟩)

/-!
# What the provider sends

The signature of `tbank-token.ts`, the readers of `tbank-provider.ts` and
`payment-method.ts`, and the paths of `payment-service.ts` from a message of
the provider to a payment event. SHA-256 is a parameter.
-/

open Js

def stringField (record : Json) (key : String) : Option String :=
  match record.field key with
  | some (.string s) => if s ≠ "" then some s else none
  | some (.number n) => if n.finite then some n.text else none
  | _ => none

/-- `/^\d+$/` and `BigInt` of what matches. -/
def digits (s : String) : Option Nat :=
  if s ≠ "" ∧ s.toList.all Char.isDigit then
    some (s.toList.foldl (fun n c => n * 10 + (c.toNat - '0'.toNat)) 0)
  else none

def numberishField (record : Json) (key : String) : Option Nat :=
  match record.field key with
  | some (.number n) => (n.integer.filter (0 ≤ ·)).map Int.toNat
  | some (.string s) => digits s
  | _ => none

def SOURCE_ALIASES : List (String × PaymentMethod) :=
  [("cards", .card), ("card", .card), ("acq", .card), ("sbp", .sbp), ("qrsbp", .sbp), ("nspk", .sbp),
    ("tinkoffpay", .tPay), ("tpay", .tPay), ("t-pay", .tPay), ("tinkoff_pay", .tPay)]

def normalizePaymentMethod (signedPanPresent : Bool) (signedSource getStateSource : Option String) :
    PaymentMethod × Option String :=
  if signedPanPresent then (.card, some "pan")
  else
    match truthy (signedSource.or getStateSource) with
    | none => (.unknown, none)
    | some raw =>
      let normalized := toLowerCase (trim raw)
      (((SOURCE_ALIASES.find? fun a => a.1 = normalized).map Prod.snd).getD .other, some raw)

def normalizeSignedPaymentMethod (record : Json) : PaymentMethod × Option String :=
  let signedPanPresent := (record.field "Pan").bind Json.asString |>.any (· ≠ "")
  normalizePaymentMethod signedPanPresent ((record.field "Source").bind Json.asString) none

/-- The first `Params` item of key `Source` whose value is a string. -/
def sourceFromParams (record : Json) : Option String :=
  (((record.field "Params").bind Json.asArray).getD []).findSome? fun item =>
    match (item.field "Key").bind Json.asString with
    | some "Source" => (item.field "Value").bind Json.asString
    | _ => none

def encodeRootScalar : Json → Option String
  | .null | .array _ | .object _ => none
  | .boolean b => some (if b then "true" else "false")
  | .number n => if n.finite then some n.text else none
  | .string s => some s

def canonicalTokenString (fields : List (String × Json)) (password : String) : String :=
  let pairs := fields.filterMap fun (key, value) =>
    if toLowerCase key = "token" then none else (encodeRootScalar value).map (key, ·)
  let sorted := (pairs ++ [("Password", password)]).mergeSort fun l r => codeUnits l.1 ≤ codeUnits r.1
  String.join (sorted.map Prod.snd)

def hexDigit (c : Char) : Option Nat :=
  if '0' ≤ c ∧ c ≤ '9' then some (c.toNat - '0'.toNat)
  else if 'a' ≤ c ∧ c ≤ 'f' then some (c.toNat - 'a'.toNat + 10)
  else if 'A' ≤ c ∧ c ≤ 'F' then some (c.toNat - 'A'.toNat + 10)
  else none

/-- `Buffer.from(s, "hex")` stops at the first pair that is not hexadecimal. -/
def hexBytes : List Char → List Nat
  | a :: b :: rest =>
    match hexDigit a, hexDigit b with
    | some high, some low => (high * 16 + low) :: hexBytes rest
    | _, _ => []
  | _ => []

def timingSafeEqualHex (left right : String) : Bool :=
  let leftBuffer := hexBytes left.toList
  let rightBuffer := hexBytes right.toList
  !leftBuffer.isEmpty && leftBuffer == rightBuffer

structure PaymentVerifierConfig where
  terminalKey : String
  password : String
  sha256 : String → String

def verifyTBankToken (verifier : PaymentVerifierConfig) (record : Json) (expectedToken : String) : Bool :=
  let fields := match record with
    | .object fields => fields
    | _ => []
  timingSafeEqualHex (verifier.sha256 (canonicalTokenString fields verifier.password)) expectedToken

structure NotificationRefused where
  code : String
  message : String

def verifyTBankNotification (verifier : PaymentVerifierConfig) (payload : Json) :
    Except NotificationRefused VerifiedTBankNotification :=
  let invalid := NotificationRefused.mk "PAYMENT_NOTIFICATION_INVALID"
  let token := ((payload.field "Token").bind Json.asString).getD ""
  if !payload.isRecord then .error (invalid "Invalid payment notification")
  else if token = "" ∨ !verifyTBankToken verifier payload token then
    .error (invalid "Invalid payment notification")
  else if (payload.field "TerminalKey").bind Json.asString ≠ some verifier.terminalKey then
    .error ⟨"PAYMENT_RECONCILIATION_REQUIRED", "Notification terminal does not match"⟩
  else
    match stringField payload "OrderId", stringField payload "PaymentId", stringField payload "Status",
        numberishField payload "Amount" with
    | some orderId, some paymentId, some status, some amount =>
      let (method, raw) := normalizeSignedPaymentMethod payload
      .ok {
        orderId := orderId
        paymentId := paymentId
        status := status
        success := match payload.field "Success" with
          | some (.boolean b) => b
          | some (.string s) => s = "true"
          | _ => false
        amountMicroRub := kopecksToMicroRub amount
        paymentMethod := some method
        rawProviderSource := raw }
    | _, _, _, _ => .error (invalid "Notification is missing required fields")

def parseStateResponse (payload : Json) : Except TxError ProviderPaymentState :=
  if !payload.isRecord then
    .error (.billing .paymentProviderUnavailable "Invalid provider status payload")
  else
    match numberishField payload "Amount", stringField payload "OrderId",
        stringField payload "PaymentId", stringField payload "Status" with
    | some amount, some orderId, some paymentId, some status =>
      let (method, raw) := normalizePaymentMethod false none (sourceFromParams payload)
      .ok {
        orderId := orderId
        providerPaymentId := paymentId
        providerStatus := status
        amountMicroRub := kopecksToMicroRub amount
        paymentMethod := some method
        rawProviderSource := raw }
    | _, _, _, _ => .error (.billing .paymentProviderUnavailable "Provider status is incomplete")

structure HostedCheckoutResult where
  providerPaymentId : String
  paymentUrl : String
  providerStatus : String
  deriving DecidableEq

/-- The payment that is read from a `CheckOrder` answer. -/
def firstPayment (payload : Json) : Option Json :=
  ((payload.field "Payments").bind Json.asArray).bind List.head?

/-- No amount is read. -/
def parseCheckOrder (payload : Json) : Option HostedCheckoutResult :=
  (firstPayment payload).bind fun first =>
    (truthy ((first.field "PaymentId").map Json.text)).map fun paymentId => {
      providerPaymentId := paymentId
      paymentUrl := ((payload.field "PaymentURL").bind Json.asString).getD ""
      providerStatus := ((first.field "Status").bind Json.asString).getD "NEW" }

/-- A message and the path it comes by: the webhook, or the answer to a
question of reconciliation. -/
inductive ProviderMessage
  | notification (payload : Json)
  | getState (payload : Json)
  | checkOrder (payload : Json)

/-- The amount the provider states for the payment. -/
def ProviderMessage.amountMicroRub : ProviderMessage → Option Int
  | notification payload | getState payload =>
    (numberishField payload "Amount").map kopecksToMicroRub
  | checkOrder payload =>
    ((firstPayment payload).bind (numberishField · "Amount")).map kopecksToMicroRub

/-- A payment whose provider's id is known is asked for by it, another by its
order. -/
def reconcileRecord (provider : String) (payment : Payment) (message : ProviderMessage) :
    Option PaymentEventInput :=
  match truthy payment.providerPaymentId, message with
  | some _, .getState payload =>
    (parseStateResponse payload).toOption.bind (reconcileRecordEvent provider payment)
  | none, .checkOrder payload => (parseCheckOrder payload).bind fun checked =>
    reconcileRecordEvent provider payment {
      orderId := payment.providerOrderId
      providerPaymentId := checked.providerPaymentId
      providerStatus := checked.providerStatus
      amountMicroRub := payment.amountMicroRub }
  | _, _ => none

/-- The event that a message leads to; `payment` is the record being reconciled. -/
def eventFromMessage (verifier : PaymentVerifierConfig) (provider : String) (payment : Payment) :
    ProviderMessage → Option PaymentEventInput
  | .notification payload => (verifyTBankNotification verifier payload).toOption.map
      (paymentEventFromNotification verifier.sha256 provider)
  | .getState payload => reconcileRecord provider payment (.getState payload)
  | .checkOrder payload => reconcileRecord provider payment (.checkOrder payload)

end Vimla.Billing
