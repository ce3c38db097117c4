import Vimla.Billing.ProviderResponses
import Vimla.Billing.PaymentMoves

/-!
# Grants and the amounts the provider states

An event grants only for the amount it carries. Notifications and `GetState`
answers carry the provider's amount; a `CheckOrder` answer is read without its
amount, and its event carries the payment's own.
-/

namespace Vimla.Billing

open Js World

variable {ctx : PaymentContext} {payment : Payment} {event : PaymentEventInput} {provider : String} {db db' : Db}

theorem grantFromSucceededPayment_amount {grant : Grant}
    (h : grantFromSucceededPayment ctx payment db = .ok (db', grant)) :
    payment.checkoutSnapshot.customerPaymentAmountMicroRub = payment.amountMicroRub := by
  unfold grantFromSucceededPayment at h
  by_contra differs
  simp [differs] at h

variable {result : ProcessPaymentResult}

theorem processPaymentEvent_grown
    (h : processPaymentEvent ctx event db = .ok (db', result)) (more : db.buckets.length < db'.buckets.length) :
    ∃ payment, lockPaymentId db event = some payment ∧ mismatched payment event = false ∧
      moneyEventFromInput event = .confirmed ∧
      payment.checkoutSnapshot.customerPaymentAmountMicroRub = payment.amountMicroRub := by
  obtain ⟨payment, lock, ⟨-, rfl⟩ | ⟨-, applied⟩⟩ := processPaymentEvent_cases h
  · omega
  · obtain ⟨good, money, -, granted, grant, run, -⟩ := applied.grown more
    exact ⟨payment, lock, good, money, grantFromSucceededPayment_amount run⟩

theorem amount_of_matched {amount : Int} (good : mismatched payment event = false)
    (given : event.amountMicroRub = some amount) : amount = payment.amountMicroRub := by
  simpa [given] using (Bool.or_eq_false_iff.1 good).2

variable {state : ProviderPaymentState}

theorem reconcileRecordEvent_amount (h : reconcileRecordEvent provider payment state = some event) :
    event.amountMicroRub = some state.amountMicroRub := by
  unfold reconcileRecordEvent at h
  split at h
  · cases h
  · simp only at h
    split at h
    · cases h
    · cases h
      rfl

variable {payload : Json}

theorem verifyTBankNotification_amount {verifier : PaymentVerifierConfig}
    {notification : VerifiedTBankNotification}
    (h : (verifyTBankNotification verifier payload).toOption = some notification) :
    (ProviderMessage.notification payload).amountMicroRub = some notification.amountMicroRub := by
  unfold verifyTBankNotification at h
  simp only at h
  iterate 3
    split at h
    · cases h
  split at h
  · rename_i amount
    cases h
    simp [ProviderMessage.amountMicroRub, amount]
  · cases h

theorem parseStateResponse_amount (h : (parseStateResponse payload).toOption = some state) :
    (ProviderMessage.getState payload).amountMicroRub = some state.amountMicroRub := by
  unfold parseStateResponse at h
  split at h
  · cases h
  split at h
  · rename_i amount _ _ _
    cases h
    simp [ProviderMessage.amountMicroRub, amount]
  · cases h

variable {message : ProviderMessage}

/-- An event carries the provider's amount, or is read from a `CheckOrder`
answer and carries the amount of the record. -/
theorem eventFromMessage_amount {verifier : PaymentVerifierConfig}
    (h : eventFromMessage verifier provider payment message = some event) :
    (∃ amount, message.amountMicroRub = some amount ∧ event.amountMicroRub = some amount) ∨
      ∃ payload checked, message = .checkOrder payload ∧ parseCheckOrder payload = some checked ∧
        event.amountMicroRub = some payment.amountMicroRub ∧
        moneyEventFromInput event = classifyTBankStatus checked.providerStatus := by
  cases message with
  | notification payload =>
    left
    obtain ⟨notification, verified, rfl⟩ := Option.map_eq_some_iff.1 h
    exact ⟨_, verifyTBankNotification_amount verified, rfl⟩
  | getState payload =>
    left
    simp only [eventFromMessage, reconcileRecord] at h
    split at h
    · rename_i given
      cases given
      obtain ⟨state, parsed, reconciled⟩ := Option.bind_eq_some_iff.1 h
      exact ⟨_, parseStateResponse_amount parsed, reconcileRecordEvent_amount reconciled⟩
    · rename_i given
      cases given
    · cases h
  | checkOrder payload =>
    right
    simp only [eventFromMessage, reconcileRecord] at h
    split at h
    · rename_i given
      cases given
    · rename_i given
      cases given
      obtain ⟨checked, parsed, reconciled⟩ := Option.bind_eq_some_iff.1 h
      exact ⟨payload, checked, rfl, parsed, reconcileRecordEvent_amount reconciled,
        (moneyEvent_of_reconcile reconciled).1⟩
    · cases h

/-- A confirmed `CheckOrder` answer that states another amount, or none. -/
def Unverified (message : ProviderMessage) (amount : Int) : Prop :=
  ∃ payload checked, message = .checkOrder payload ∧ parseCheckOrder payload = some checked ∧
    classifyTBankStatus checked.providerStatus = .confirmed ∧ message.amountMicroRub ≠ some amount

/-- Otherwise a bucket is granted for the amount the provider states, whatever
the tables hold. -/
theorem granted_verified {verifier : PaymentVerifierConfig} {read : Payment}
    (sent : eventFromMessage verifier provider read message = some event)
    (run : processPaymentEvent ctx event db = .ok (db', result))
    (more : db.buckets.length < db'.buckets.length) : ∃ payment, lockPaymentId db event = some payment ∧
      (¬ Unverified message payment.checkoutSnapshot.customerPaymentAmountMicroRub →
        message.amountMicroRub = some payment.checkoutSnapshot.customerPaymentAmountMicroRub) := by
  obtain ⟨payment, lock, good, money, snapshot⟩ := processPaymentEvent_grown run more
  refine ⟨payment, lock, fun verified => ?_⟩
  rcases eventFromMessage_amount sent with ⟨amount, stated, carried⟩ | ⟨payload, checked, e, parsed, -, same⟩
  · rw [stated, snapshot, amount_of_matched good carried]
  · by_contra differs
    exact verified ⟨payload, checked, e, parsed, same ▸ money, differs⟩

/-- In every run, a message grants a payment sold for `amount` only when it
states that amount. The record that is reconciled was read some steps before. -/
def VerifiesAmount (verifier : PaymentVerifierConfig) (provider : String) (message : ProviderMessage)
    (amount : Int) : Prop :=
  ∀ (before between : List Op) (read payment : Payment) (event : PaymentEventInput)
    (ctx : PaymentContext) (db' : Db) (result : ProcessPaymentResult),
    read ∈ (empty.run before).db.payments →
    eventFromMessage verifier provider read message = some event →
    processPaymentEvent ctx event (empty.run (before ++ between)).db = .ok (db', result) →
    (empty.run (before ++ between)).db.buckets.length < db'.buckets.length →
    lockPaymentId (empty.run (before ++ between)).db event = some payment →
    payment.checkoutSnapshot.customerPaymentAmountMicroRub = amount →
    message.amountMicroRub = some amount

namespace Unasked

/-- A subscription is sold, and the provider is not asked for a page. -/
def sale (provider : String) (amount : Int) : Op :=
  .createPendingPayment ⟨FirstRun.policy, [], [⟨1, amount, amount, 30⟩]⟩ 0 ⟨"", ""⟩ {
    userId := 7
    provider := provider
    providerOrderId := some "order"
    idempotencyKey := some "key"
    kind := .subscription
    amountMicroRub := amount
    planVersionId := some 1
    status := some .created }

def sold (provider : String) (amount : Int) : Payment := { FirstRun.openedTopup with
  provider := provider
  kind := .subscription
  amountMicroRub := amount
  planVersionId := some 1
  checkoutSnapshot := {
    kind := .subscription
    customerPaymentAmountMicroRub := amount
    providerBudgetGrantMicroRub := amount
    planVersionId := some 1
    subscriptionPeriodDays := some 30 } }

/-- The tables after it. -/
def shop (provider : String) (amount : Int) : Db := ⟨1, [], [], [], [], [sold provider amount], [], [], []⟩

variable {provider : String}

theorem payments_of_sale {amount : Int} (priced : 0 ≤ amount) :
    (empty.run [sale provider amount]).db = shop provider amount := by
  have price : ¬ amount < 0 := by omega
  simp [run, step, sale, createPendingPayment, buildCheckoutSnapshot, Rows.find, truthy,
    findByIdempotencyKey, empty, Db.createPayment, Db.providerPaymentTaken, price, Db.commit,
    bind, Except.bind, shop, sold, FirstRun.openedTopup, CheckoutStatus.toPaymentStatus]

/-- The event of a confirmed answer to `CheckOrder`. -/
def confirmation (provider : String) (amount : Int) (checked : HostedCheckoutResult) :
    PaymentEventInput where
  provider := provider
  providerEventId := String.intercalate ":" ["reconcile", toString 0, checked.providerStatus]
  providerPaymentId := some checked.providerPaymentId
  orderId := some "order"
  eventType := .succeeded
  providerStatus := some checked.providerStatus
  amountMicroRub := some amount

theorem truthy_order : truthy (some "order") = some "order" := by decide

theorem confirmation_sent (verifier : PaymentVerifierConfig) {amount : Int}
    {checked : HostedCheckoutResult} (parsed : parseCheckOrder payload = some checked)
    (confirmed : classifyTBankStatus checked.providerStatus = .confirmed) :
    eventFromMessage verifier provider (sold provider amount) (.checkOrder payload) =
      some (confirmation provider amount checked) := by
  simp [eventFromMessage, reconcileRecord, sold, FirstRun.openedTopup, truthy, parsed,
    reconcileRecordEvent, confirmed, eventTypeOf, confirmation]

/-- The sale is granted by the answer, whatever amount it states. -/
theorem sale_granted {amount : Int} (priced : 0 ≤ amount) {checked : HostedCheckoutResult}
    (confirmed : classifyTBankStatus checked.providerStatus = .confirmed) :
    lockPaymentId (empty.run [sale provider amount]).db (confirmation provider amount checked) =
      some (sold provider amount) ∧
    ∃ db' result, processPaymentEvent FirstRun.context (confirmation provider amount checked)
        (empty.run [sale provider amount]).db = .ok (db', result) ∧
      (empty.run [sale provider amount]).db.buckets.length < db'.buckets.length := by
  rw [payments_of_sale priced]
  have locked : lockPaymentId (shop provider amount) (confirmation provider amount checked) =
      some (sold provider amount) := by
    unfold lockPaymentId
    cases given : truthy (some checked.providerPaymentId) <;>
      simp [shop, confirmation, given, sold, FirstRun.openedTopup, truthy_order]
  have money : moneyEventFromInput (confirmation provider amount checked) = .confirmed := by
    have typed : (confirmation provider amount checked).eventType =
        eventTypeOf (classifyTBankStatus checked.providerStatus) := by
      rw [confirmed]
      rfl
    rw [moneyEvent_of_status rfl typed, confirmed]
  have good : mismatched (sold provider amount) (confirmation provider amount checked) = false := by
    simp [mismatched, sold, FirstRun.openedTopup, truthy, confirmation]
  have price : ¬ amount < 0 := by omega
  have method : (confirmation provider amount checked).paymentMethod = none := rfl
  refine ⟨locked, ?_⟩
  simp only [processPaymentEvent, locked, Db.createPaymentEvent, applyPaymentEvent, good, money]
  simp [confirmPayment, shop, sold, FirstRun.openedTopup, grantFromSucceededPayment, grantSubscription,
    Db.createSubscription, Db.createBucket, Db.appendLedger, bind, Except.bind, pure, Except.pure,
    Db.providerPaymentTaken, Db.updatePayment, ensurePaymentEconomics, Rows.find, FirstRun.context,
    estimateAcquiring, estimateFiscalization, findPublishedFiscalPolicy, latest, price, method]

theorem unverified_granted {verifier : PaymentVerifierConfig} {amount : Int}
    (priced : 0 ≤ amount) (unverified : Unverified message amount) :
    ¬ VerifiesAmount verifier provider message amount := by
  obtain ⟨payload, checked, rfl, parsed, confirmed, differs⟩ := unverified
  obtain ⟨locked, db', result, run, more⟩ := @sale_granted provider amount priced checked confirmed
  have read : sold provider amount ∈ (empty.run [sale provider amount]).db.payments := by
    rw [payments_of_sale priced]
    exact List.mem_singleton_self _
  intro verifies
  exact differs (verifies [sale provider amount] [] _ _ _ FirstRun.context db' result read
    (confirmation_sent verifier parsed confirmed) run more locked rfl)

end Unasked

/-- A message grants in some run a payment sold for an amount it does not state
exactly when it is a confirmed `CheckOrder` answer that states another. -/
theorem granted_only_verified (verifier : PaymentVerifierConfig) (provider : String)
    (message : ProviderMessage) (amount : Int) (priced : 0 ≤ amount) :
    VerifiesAmount verifier provider message amount ↔ ¬ Unverified message amount := by
  constructor
  · exact fun verifies unverified => Unasked.unverified_granted priced unverified verifies
  · intro verified before between read payment event ctx db' result _ sent run more locked snapshot
    obtain ⟨granted, lock, states⟩ := granted_verified sent run more
    rw [locked] at lock
    cases lock
    rw [← snapshot]
    exact states (snapshot ▸ verified)

namespace Unasked

def verifier : PaymentVerifierConfig := ⟨"terminal", "password", fun s => s⟩

/-- The order was paid with one rouble. -/
def underpaid : Json := .object [("Success", .boolean true), ("OrderId", .string "order"),
  ("Payments", .array [.object [("PaymentId", .string "payment"), ("Amount", int 100),
    ("Status", .string "CONFIRMED")]])]

end Unasked

open Unasked in
theorem granted_only_verified_notification :
    VerifiesAmount verifier "tbank" (.notification underpaid) 2000000 ↔
      ¬ Unverified (.notification underpaid) 2000000 :=
  granted_only_verified verifier "tbank" (.notification underpaid) 2000000 (by decide)

open Unasked in
/-- Two roubles were asked for, one is stated, and all of the usage is granted. -/
theorem underpaid_granted :
    ¬ VerifiesAmount verifier "tbank" (.checkOrder underpaid) 2000000 ∧
    (ProviderMessage.checkOrder underpaid).amountMicroRub = some 1000000 ∧
    ((eventFromMessage verifier "tbank" (sold "tbank" 2000000) (.checkOrder underpaid)).map fun event =>
      (empty.run [sale "tbank" 2000000, .processPaymentEvent FirstRun.context event]
        ).db.buckets.map UsageBucket.totalMicroRub) = some [2000000] := by
  refine ⟨unverified_granted (by decide) ⟨underpaid, ⟨"payment", "", "CONFIRMED"⟩, rfl, ?_, ?_, ?_⟩, ?_⟩ <;>
    decide +kernel

end Vimla.Billing
