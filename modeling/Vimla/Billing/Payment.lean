import Vimla.Billing.Economics

namespace Vimla.Billing

/-- The upper case of a character. Outside ASCII only those are listed whose
upper case is ASCII: no other character can turn into a status name. -/
def upperChar (c : Char) : List Char :=
  if c = 'ı' then ['I']
  else if c = 'ſ' then ['S']
  else if c = 'ß' then ['S', 'S']
  else if c = 'ﬀ' then ['F', 'F']
  else if c = 'ﬁ' then ['F', 'I']
  else if c = 'ﬂ' then ['F', 'L']
  else if c = 'ﬃ' then ['F', 'F', 'I']
  else if c = 'ﬄ' then ['F', 'F', 'L']
  else if c = 'ﬅ' ∨ c = 'ﬆ' then ['S', 'T']
  else [c.toUpper]

def toUpperCase (s : String) : String := String.ofList (s.toList.flatMap upperChar)

def IN_FLIGHT : List String :=
  ["NEW", "FORM_SHOWED", "AUTHORIZING", "3DS_CHECKING", "3DS_CHECKED", "AUTHORIZED", "CONFIRMING"]

def FAILURE : List String := ["REJECTED", "DEADLINE_EXPIRED", "AUTH_FAIL"]

inductive ProviderMoneyEvent
  | ignore | pending | confirmed | failed | canceled | refunded | partiallyRefunded
  deriving DecidableEq

def classifyTBankStatus (status : String) : ProviderMoneyEvent :=
  let normalized := toUpperCase status
  if normalized = "CONFIRMED" then .confirmed
  else if normalized ∈ IN_FLIGHT then .pending
  else if normalized ∈ FAILURE then .failed
  else if normalized = "CANCELED" ∨ normalized = "REVERSED" ∨ normalized = "PARTIAL_REVERSED" then
    .canceled
  else if normalized = "REFUNDED" then .refunded
  else if normalized = "PARTIAL_REFUNDED" then .partiallyRefunded
  else .ignore

def TERMINAL_PAID : List PaymentStatus :=
  [.succeeded, .refunded, .partiallyRefunded, .reconciliationRequired]

def nextDomainStatus (current : PaymentStatus) (event : ProviderMoneyEvent) : Option PaymentStatus :=
  match event with
  | .ignore | .pending => if current = .created then some .pending else none
  | .confirmed =>
    if current = .succeeded ∨ current = .refunded ∨ current = .partiallyRefunded then none
    else if current = .reconciliationRequired then none
    else if current = .created ∨ current = .pending then some .succeeded
    else none
  | .failed => if current ∈ TERMINAL_PAID ∨ current = .canceled then none else some .failed
  | .canceled =>
    if current = .succeeded ∨ current = .refunded ∨ current = .partiallyRefunded then none
    else if current = .failed then none
    else some .canceled
  | .refunded =>
    if current = .created ∨ current = .pending ∨ current = .failed ∨ current = .canceled then
      if current = .pending ∨ current = .created then some .canceled else none
    else some .refunded
  | .partiallyRefunded =>
    if current = .succeeded ∨ current = .partiallyRefunded then some .partiallyRefunded else none

def isPaidDomainStatus (status : PaymentStatus) : Bool := status = .succeeded

/-- Which money event a payment event is: by the provider's status when that
says one, else by the event's type. -/
def moneyEventFromInput (event : PaymentEventInput) : ProviderMoneyEvent :=
  let byType : ProviderMoneyEvent :=
    match event.eventType with
    | .succeeded => .confirmed
    | .failed => .failed
    | .canceled => .canceled
    | .refunded => .refunded
    | .partiallyRefunded => .partiallyRefunded
    | .chargeback | .status => .ignore
  match truthy event.providerStatus with
  | some status =>
    let classified := classifyTBankStatus status
    if classified ≠ .ignore then classified else byType
  | none => byType

/-!
# Payment events

`BillingEngine.processPaymentEvent` with the grant and the refund it makes, as
the body of one transaction. A column that an update gives as `undefined`
keeps its value.
-/

/-- What a payment transaction reads besides the tables it writes: the engine's
policy, the published fee policies and the clock. -/
structure PaymentContext where
  policy : BillingPolicy
  feePolicies : List PaymentFeePolicyVersion
  fiscalPolicies : List FiscalizationFeePolicyVersion
  correlationId : Option String
  startedAt : Int
  periodStart : Int
  fulfilledAt : Int

def lockPaymentId (db : Db) (event : PaymentEventInput) : Option Payment :=
  let byProvider := (truthy event.providerPaymentId).bind fun id =>
    db.payments.find? fun p => p.provider = event.provider ∧ p.providerPaymentId = some id
  match byProvider with
  | some payment => some payment
  | none => (truthy event.orderId).bind fun orderId =>
    db.payments.find? fun p => p.providerOrderId = orderId

structure Grant where
  bucketId : Nat
  subscriptionId : Option Nat

def dayMs : Int := 24 * 60 * 60 * 1000

def grantPeriodEnd (ctx : PaymentContext) (payment : Payment) : Int :=
  let periodDays :=
    payment.checkoutSnapshot.subscriptionPeriodDays.getD ctx.policy.subscriptionPeriodDays
  ctx.periodStart + periodDays * dayMs

def bucketGrantedEntry (ctx : PaymentContext) (payment : Payment) (planVersionId subscriptionId
    bucketId : Nat) : UsageLedgerEntry where
  userId := payment.userId
  bucketId := some bucketId
  paymentId := some payment.id
  type := .bucketGranted
  amountMicroRub := payment.checkoutSnapshot.providerBudgetGrantMicroRub
  metadata := {
    correlationId := ctx.correlationId
    subscriptionId := some subscriptionId
    planVersionId := some planVersionId }

def topupGrantedEntry (ctx : PaymentContext) (payment : Payment) (bucketId : Nat) :
    UsageLedgerEntry where
  userId := payment.userId
  bucketId := some bucketId
  paymentId := some payment.id
  type := .topupGranted
  amountMicroRub := payment.checkoutSnapshot.providerBudgetGrantMicroRub
  metadata := {
    correlationId := ctx.correlationId
    paidMicroRub := some payment.checkoutSnapshot.customerPaymentAmountMicroRub
    ratioBps := some (payment.checkoutSnapshot.topupRatioBps.getD
      ctx.policy.topupProviderCostRatioBps) }

def grantSubscription (ctx : PaymentContext) (payment : Payment) (planVersionId : Nat) (db : Db) :
    Except TxError (Db × Grant) :=
  let snapshot := payment.checkoutSnapshot
  let active : TxError := .billing .subscriptionAlreadyActive "User already has an active subscription"
  if db.subscriptions.any fun s => s.userId = payment.userId ∧ s.status = .active then .error active
  else
    let periodEnd := grantPeriodEnd ctx payment
    match db.createSubscription payment.userId planVersionId ctx.periodStart periodEnd with
    | .error (.uniqueConstraint _) => .error active
    | .error e => .error e
    | .ok (db, subscription) => do
      let (db, bucket) ← db.createBucket payment.userId .monthly
        snapshot.providerBudgetGrantMicroRub (some periodEnd) .subscription subscription.id
        ctx.startedAt
      let db := db.appendLedger
        (bucketGrantedEntry ctx payment planVersionId subscription.id bucket.id)
      return (db, ⟨bucket.id, some subscription.id⟩)

def grantTopup (ctx : PaymentContext) (payment : Payment) (db : Db) : Except TxError (Db × Grant) := do
  let (db, bucket) ← db.createBucket payment.userId .topup
    payment.checkoutSnapshot.providerBudgetGrantMicroRub none .payment payment.id ctx.startedAt
  let db := db.appendLedger (topupGrantedEntry ctx payment bucket.id)
  return (db, ⟨bucket.id, none⟩)

def grantFromSucceededPayment (ctx : PaymentContext) (payment : Payment) (db : Db) :
    Except TxError (Db × Grant) :=
  let snapshot := payment.checkoutSnapshot
  if snapshot.customerPaymentAmountMicroRub ≠ payment.amountMicroRub then
    .error (.billing .paymentReconciliationRequired
      "Checkout snapshot amount does not match the payment")
  else
    match payment.kind with
    | .subscription =>
      match snapshot.planVersionId.or payment.planVersionId with
      | none => .error (.billing .planNotFound "Subscription payment is missing a plan version")
      | some planVersionId => grantSubscription ctx payment planVersionId db
    | .topup => grantTopup ctx payment db

/-- Take back what is unused of the granted bucket, up to `revokeGrant`. -/
def revokeBucket (ctx : PaymentContext) (payment : Payment) (revokeGrant : Int) (db : Db) : Db :=
  match payment.grantedBucketId.bind fun id => Rows.find UsageBucket.id id db.buckets with
  | none => db
  | some bucket =>
    let unused := bucket.totalMicroRub - bucket.spentMicroRub - bucket.reservedMicroRub
    let revoke := if unused < revokeGrant then unused else revokeGrant
    let db := if revoke > 0 then
        (db.updateBucket bucket.id fun row =>
          { row with totalMicroRub := bucket.totalMicroRub - revoke }).appendLedger {
            userId := payment.userId
            bucketId := some bucket.id
            paymentId := some payment.id
            type := .bucketRevoked
            amountMicroRub := -revoke
            metadata := { correlationId := ctx.correlationId, reason := some "refund" } }
      else db
    if revoke < revokeGrant then
      db.appendLedger {
        userId := payment.userId
        bucketId := some bucket.id
        paymentId := some payment.id
        type := .adjustment
        amountMicroRub := 0
        metadata := {
          correlationId := ctx.correlationId
          reason := some "refund_shortfall"
          requestedMicroRub := some revokeGrant
          revokedMicroRub := some revoke } }
    else db

def cancelSubscription (payment : Payment) (db : Db) : Db :=
  match payment.grantedSubscriptionId with
  | none => db
  | some id => { db with subscriptions := db.subscriptions.map fun s =>
      if s.id = id ∧ s.userId = payment.userId ∧ s.status = .active then
        { s with status := .canceled }
      else s }

/-- `status` and `providerStatus` rewritten, the latter only when it is given. -/
def withStatus (status : PaymentStatus) (providerStatus : Option String) (p : Payment) : Payment :=
  { p with status := status, providerStatus := providerStatus.or p.providerStatus }

def Db.setPaymentStatus (db : Db) (id : Nat) (status : PaymentStatus)
    (providerStatus : Option String) : Db :=
  db.updatePayment id (withStatus status providerStatus)

/-- The provider budget a refund asks back. -/
def revokeAmount (payment : Payment) (event : PaymentEventInput) : Except TxError Int :=
  let snapshot := payment.checkoutSnapshot
  match event.eventType, event.refundAmountMicroRub, snapshot.topupRatioBps.filter (· ≠ 0) with
  | .partiallyRefunded, some amount, some ratio => topupProviderBudgetMicroRub amount ratio
  | _, _, _ => .ok snapshot.providerBudgetGrantMicroRub

def applyRefundAccounting (ctx : PaymentContext) (payment : Payment) (event : PaymentEventInput)
    (db : Db) : Except TxError (Db × PaymentStatus) :=
  let fullRefund : Bool := event.eventType ≠ .partiallyRefunded
  if !fullRefund ∧ payment.kind = .subscription then
    let db := db.appendLedger {
      userId := payment.userId
      paymentId := some payment.id
      bucketId := payment.grantedBucketId
      type := .adjustment
      amountMicroRub := 0
      metadata := {
        correlationId := ctx.correlationId
        reason := some "unsupported_partial_subscription_refund" } }
    .ok (db.setPaymentStatus payment.id .reconciliationRequired event.providerStatus,
      .reconciliationRequired)
  else do
    let revokeGrant ← revokeAmount payment event
    let db := revokeBucket ctx payment revokeGrant db
    let db := if fullRefund then cancelSubscription payment db else db
    let nextStatus : PaymentStatus := if fullRefund then .refunded else .partiallyRefunded
    let db := db.setPaymentStatus payment.id nextStatus event.providerStatus
    let refundedAmount :=
      if fullRefund then payment.amountMicroRub else event.refundAmountMicroRub.getD 0
    let db ← addRefundToEconomics payment.id refundedAmount db
    return (db, nextStatus)

/-- A confirmed payment is granted once; any other status is kept or refused. -/
def confirmPayment (ctx : PaymentContext) (payment : Payment) (event : PaymentEventInput) (db : Db) :
    Except TxError (Db × ProcessPaymentResult) :=
  match payment.status with
  | .succeeded | .refunded | .partiallyRefunded =>
    .ok (db, ⟨false, payment.id, payment.status, payment.grantedBucketId,
      payment.grantedSubscriptionId⟩)
  | .failed | .canceled | .reconciliationRequired =>
    .error (.billing .financialOperationFailed "Payment is not grantable from its current status")
  | .created | .pending => do
    let (db, grant) ← grantFromSucceededPayment ctx payment db
    let providerPaymentId := event.providerPaymentId.or payment.providerPaymentId
    if db.providerPaymentTaken payment.id payment.provider providerPaymentId then
      .error (.uniqueConstraint "payment_provider_providerPaymentId_key")
    else
      let paymentMethod := payment.paymentMethod.or event.paymentMethod
      let db := db.updatePayment payment.id fun p => { p with
        status := .succeeded
        providerStatus := some (event.providerStatus.getD "CONFIRMED")
        providerPaymentId := providerPaymentId
        grantedBucketId := some grant.bucketId
        grantedSubscriptionId := grant.subscriptionId
        fulfilledAt := some ctx.fulfilledAt
        paymentMethod := paymentMethod
        rawProviderPaymentMethod :=
          payment.rawProviderPaymentMethod.or event.rawProviderPaymentMethod }
      let db ← ensurePaymentEconomics ctx.feePolicies ctx.fiscalPolicies
        ⟨payment.id, payment.amountMicroRub, payment.provider, payment.createdAt, paymentMethod⟩ db
      return (db, ⟨false, payment.id, .succeeded, some grant.bucketId, grant.subscriptionId⟩)

/-- `failed`, `canceled` and `pending` follow the domain status table. -/
def moveStatus (payment : Payment) (event : PaymentEventInput) (moneyEvent : ProviderMoneyEvent)
    (db : Db) : Db × ProcessPaymentResult :=
  let next := nextDomainStatus payment.status moneyEvent
  let db := match next.filter (· ≠ payment.status) with
    | some status => db.setPaymentStatus payment.id status event.providerStatus
    | none =>
      if (truthy event.providerStatus).isSome ∧ isPaidDomainStatus payment.status = false ∧
          payment.status ≠ .refunded ∧ payment.status ≠ .partiallyRefunded ∧
          payment.status ≠ .reconciliationRequired then
        db.updatePayment payment.id fun p =>
          { p with providerStatus := event.providerStatus.or p.providerStatus }
      else db
  (db, ⟨false, payment.id, next.getD payment.status, none, none⟩)

def chargeback (ctx : PaymentContext) (payment : Payment) (event : PaymentEventInput) (db : Db) :
    Except TxError (Db × ProcessPaymentResult) := do
  let db := db.appendLedger {
    userId := payment.userId
    paymentId := some payment.id
    bucketId := payment.grantedBucketId
    type := .adjustment
    amountMicroRub := 0
    metadata := {
      correlationId := ctx.correlationId
      reason := some "chargeback"
      providerStatus := event.providerStatus } }
  let db := db.setPaymentStatus payment.id .reconciliationRequired
    (some (event.providerStatus.getD "CHARGEBACK"))
  let db ← addChargebackToEconomics payment.id payment.amountMicroRub db
  return (db, ⟨false, payment.id, .reconciliationRequired, payment.grantedBucketId,
    payment.grantedSubscriptionId⟩)

/-- An event whose payment id or amount is not the payment's own. -/
def mismatched (payment : Payment) (event : PaymentEventInput) : Bool :=
  (match truthy event.providerPaymentId, truthy payment.providerPaymentId with
    | some theirs, some ours => decide (theirs ≠ ours)
    | _, _ => false) ||
  (match event.amountMicroRub with
    | some amount => decide (amount ≠ payment.amountMicroRub)
    | none => false)

/-- The event is new and has been recorded. -/
def applyPaymentEvent (ctx : PaymentContext) (payment : Payment) (event : PaymentEventInput)
    (db : Db) : Except TxError (Db × ProcessPaymentResult) :=
  if mismatched payment event then
    .ok (db.setPaymentStatus payment.id .reconciliationRequired event.providerStatus,
      ⟨false, payment.id, .reconciliationRequired, none, none⟩)
  else
    match moneyEventFromInput event with
    | .confirmed => confirmPayment ctx payment event db
    | .refunded | .partiallyRefunded => do
      let (db, status) ← applyRefundAccounting ctx payment event db
      return (db, ⟨false, payment.id, status, payment.grantedBucketId,
        payment.grantedSubscriptionId⟩)
    | .failed => .ok (moveStatus payment event .failed db)
    | .canceled => .ok (moveStatus payment event .canceled db)
    | .pending => .ok (moveStatus payment event .pending db)
    | .ignore =>
      if event.eventType = .chargeback then chargeback ctx payment event db
      else .ok (db, ⟨false, payment.id, payment.status, payment.grantedBucketId,
        payment.grantedSubscriptionId⟩)

def processPaymentEvent (ctx : PaymentContext) (event : PaymentEventInput) (db : Db) :
    Except TxError (Db × ProcessPaymentResult) :=
  match lockPaymentId db event with
  | none => .error (.billing .paymentNotFound "Payment was not found")
  | some payment =>
    match db.createPaymentEvent ⟨event.provider, event.providerEventId, payment.id, event.eventType,
        event.providerStatus⟩ with
    | .error (.uniqueConstraint _) =>
      .ok (db, ⟨true, payment.id, payment.status, payment.grantedBucketId,
        payment.grantedSubscriptionId⟩)
    | .error e => .error e
    | .ok db => applyPaymentEvent ctx payment event db

/-!
# Opening a payment

`createPendingPayment`, `attachProviderCheckout` and `initializeHostedCheckout`.
The last waits for the payment provider between its read and its write, so it
is two steps: other transactions commit in between.
-/

structure TopupPolicyVersion where
  id : Nat
  status : PolicyStatus
  minPurchaseMicroRub : Int
  maxPurchaseMicroRub : Int
  usageGrantRatioBps : Int
  effectiveFrom : Int
  effectiveTo : Option Int

structure PlanVersion where
  id : Nat
  priceMicroRub : Int
  providerBudgetMicroRub : Int
  subscriptionPeriodDays : Int

/-- What a checkout reads of the published commercial terms. -/
structure Catalog where
  policy : BillingPolicy
  topupPolicies : List TopupPolicyVersion
  planVersions : List PlanVersion

def getPublishedTopupPolicy (catalog : Catalog) (now : Int) : Option TopupPolicyVersion :=
  latest TopupPolicyVersion.effectiveFrom <| catalog.topupPolicies.filter fun p =>
    inForce now p.status p.effectiveFrom p.effectiveTo

def validateTopupAmount (amountMicroRub minTopupMicroRub maxTopupMicroRub : Int) :
    Except TxError Unit :=
  if amountMicroRub ≤ 0 then
    .error (.billing .invalidTopupAmount "Top-up amount must be greater than zero")
  else if amountMicroRub < minTopupMicroRub then
    .error (.billing .invalidTopupAmount "Top-up amount is below the minimum")
  else if amountMicroRub > maxTopupMicroRub then
    .error (.billing .invalidTopupAmount "Top-up amount is above the maximum")
  else .ok ()

inductive CheckoutStatus | created | pending
  deriving DecidableEq

def CheckoutStatus.toPaymentStatus : CheckoutStatus → PaymentStatus
  | created => .created
  | pending => .pending

structure CreatePaymentInput where
  userId : Nat
  provider : String
  providerPaymentId : Option String := none
  providerOrderId : Option String := none
  idempotencyKey : Option String := none
  kind : PaymentKind
  amountMicroRub : Int
  planVersionId : Option Nat := none
  planCode : Option String := none
  status : Option CheckoutStatus := none
  paymentUrl : Option String := none
  providerStatus : Option String := none

def buildCheckoutSnapshot (catalog : Catalog) (now : Int) (input : CreatePaymentInput) :
    Except TxError CheckoutSnapshot :=
  match input.kind with
  | .topup => do
    let topupPolicy := getPublishedTopupPolicy catalog now
    let ratioBps := (topupPolicy.map TopupPolicyVersion.usageGrantRatioBps).getD
      catalog.policy.topupProviderCostRatioBps
    validateTopupAmount input.amountMicroRub
      ((topupPolicy.map TopupPolicyVersion.minPurchaseMicroRub).getD catalog.policy.minTopupMicroRub)
      ((topupPolicy.map TopupPolicyVersion.maxPurchaseMicroRub).getD catalog.policy.maxTopupMicroRub)
    let grant ← topupProviderBudgetMicroRub input.amountMicroRub ratioBps
    return {
      kind := .topup
      customerPaymentAmountMicroRub := input.amountMicroRub
      providerBudgetGrantMicroRub := grant
      topupRatioBps := some ratioBps
      topupPolicyVersionId := topupPolicy.map TopupPolicyVersion.id }
  | .subscription =>
    match input.planVersionId with
    | none => .error (.billing .planNotFound "Subscription payment requires a plan version")
    | some id =>
      match Rows.find PlanVersion.id id catalog.planVersions with
      | none => .error (.billing .planNotFound "Plan version was not found")
      | some planVersion =>
        if planVersion.priceMicroRub ≠ input.amountMicroRub then
          .error (.billing .financialOperationFailed
            "Payment amount must match the current plan price")
        else .ok {
          kind := .subscription
          customerPaymentAmountMicroRub := input.amountMicroRub
          providerBudgetGrantMicroRub := planVersion.providerBudgetMicroRub
          planVersionId := some planVersion.id
          planCode := input.planCode
          subscriptionPeriodDays := some planVersion.subscriptionPeriodDays }

/-- The unique keys of `payment` and its `CHECK`. -/
def Db.createPayment (db : Db) (payment : Payment) : Except TxError Db :=
  if db.providerPaymentTaken db.nextId payment.provider payment.providerPaymentId then
    .error (.uniqueConstraint "payment_provider_providerPaymentId_key")
  else if db.payments.any fun p => p.providerOrderId = payment.providerOrderId then
    .error (.uniqueConstraint "payment_providerOrderId_key")
  else if db.payments.any fun p => p.userId = payment.userId ∧ p.kind = payment.kind ∧
      p.idempotencyKey = payment.idempotencyKey then
    .error (.uniqueConstraint "payment_userId_kind_idempotencyKey_key")
  else if payment.amountMicroRub < 0 then .error (.checkConstraint "payment_amount_non_negative")
  else .ok { db with
    nextId := db.nextId + 1
    payments := db.payments ++ [{ payment with id := db.nextId }] }

def findByIdempotencyKey (db : Db) (userId : Nat) (kind : PaymentKind) (key : String) :
    Option Payment :=
  db.payments.find? fun p => p.userId = userId ∧ p.kind = kind ∧ p.idempotencyKey = key

structure CreatedPayment where
  paymentId : Nat
  providerOrderId : String

/-- The two `randomUUID()` values of a new payment. -/
structure FreshIds where
  orderId : String
  idempotencyKey : String

def createPendingPayment (catalog : Catalog) (now : Int) (fresh : FreshIds)
    (input : CreatePaymentInput) (db : Db) : Except TxError (Db × CreatedPayment) := do
  let snapshot ← buildCheckoutSnapshot catalog now input
  let existing := (truthy input.idempotencyKey).bind fun key =>
    findByIdempotencyKey db input.userId input.kind key
  match existing with
  | some existing => .ok (db, ⟨existing.id, existing.providerOrderId⟩)
  | none =>
    let payment : Payment := {
      id := db.nextId
      userId := input.userId
      provider := input.provider
      providerPaymentId := input.providerPaymentId
      providerOrderId := input.providerOrderId.getD fresh.orderId
      providerStatus := input.providerStatus
      paymentUrl := input.paymentUrl
      kind := input.kind
      amountMicroRub := snapshot.customerPaymentAmountMicroRub
      status := (input.status.getD .pending).toPaymentStatus
      planVersionId := snapshot.planVersionId
      topupPolicyVersionId := snapshot.topupPolicyVersionId
      paymentMethod := none
      rawProviderPaymentMethod := none
      idempotencyKey := input.idempotencyKey.getD fresh.idempotencyKey
      checkoutSnapshot := snapshot
      grantedBucketId := none
      grantedSubscriptionId := none
      fulfilledAt := none
      createdAt := now }
    -- A lost race on the key surfaces as a unique violation and is read again.
    match db.createPayment payment with
    | .ok db => .ok (db, ⟨payment.id, payment.providerOrderId⟩)
    | .error (.uniqueConstraint index) =>
      match (truthy input.idempotencyKey).bind fun key =>
          findByIdempotencyKey db input.userId input.kind key with
      | some existing => .ok (db, ⟨existing.id, existing.providerOrderId⟩)
      | none => .error (.uniqueConstraint index)
    | .error e => .error e

structure HostedCheckout where
  providerPaymentId : String
  paymentUrl : String
  providerStatus : Option String := none

/-- The write both checkout paths make. -/
def Db.recordCheckout (db : Db) (payment : Payment) (checkout : HostedCheckout) :
    Except TxError Db :=
  if db.providerPaymentTaken payment.id payment.provider (some checkout.providerPaymentId) then
    .error (.uniqueConstraint "payment_provider_providerPaymentId_key")
  else .ok (db.updatePayment payment.id fun p => { p with
    providerPaymentId := some checkout.providerPaymentId
    paymentUrl := some checkout.paymentUrl
    providerStatus := checkout.providerStatus.or p.providerStatus
    status := .pending })

structure AttachInput where
  paymentId : Nat
  userId : Nat
  checkout : HostedCheckout

def attachProviderCheckout (input : AttachInput) (db : Db) : Except TxError Db :=
  match db.payments.find? fun p => p.id = input.paymentId ∧ p.userId = input.userId with
  | none => .error (.billing .paymentNotFound "Payment was not found")
  | some payment => db.recordCheckout payment input.checkout

/-- The read of `initializeHostedCheckout`: a stored URL is returned, otherwise
the provider is asked. -/
def beginHostedCheckout (paymentId : Nat) (db : Db) : Except TxError (Option String) :=
  match Rows.find Payment.id paymentId db.payments with
  | none => .error (.billing .paymentNotFound "Payment was not found")
  | some payment => .ok (truthy payment.paymentUrl)

/-- Its write, once the provider has answered. -/
def finishHostedCheckout (paymentId : Nat) (checkout : HostedCheckout) (db : Db) : Except TxError Db :=
  match Rows.find Payment.id paymentId db.payments with
  | none => .error (.error "No Payment found")
  | some payment => db.recordCheckout payment checkout

end Vimla.Billing
