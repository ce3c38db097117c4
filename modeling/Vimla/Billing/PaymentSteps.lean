import Vimla.Billing.Transactions

/-!
# What a payment event can do

`Applied` lists the branches of `applyPaymentEvent` with their guards. Every
invariant of the payment tables is derived from it.
-/

namespace Vimla.Billing

open List Rows

/-- The event row that `processPaymentEvent` writes first. -/
def Db.note (db : Db) (event : PaymentEventInput) (payment : Payment) : Db :=
  { db with paymentEvents := db.paymentEvents ++
      [⟨event.provider, event.providerEventId, payment.id, event.eventType, event.providerStatus⟩] }

/-- The event has a row already. -/
def Db.recorded (db : Db) (event : PaymentEventInput) : Bool :=
  db.paymentEvents.any fun e => e.provider = event.provider ∧ e.providerEventId = event.providerEventId

/-- The payment row after a grant. -/
def grantedRow (ctx : PaymentContext) (payment : Payment) (event : PaymentEventInput) (grant : Grant) :
    Payment → Payment := fun p =>
  { p with
    status := .succeeded
    providerStatus := some (event.providerStatus.getD "CONFIRMED")
    providerPaymentId := event.providerPaymentId.or payment.providerPaymentId
    grantedBucketId := some grant.bucketId
    grantedSubscriptionId := grant.subscriptionId
    fulfilledAt := some ctx.fulfilledAt
    paymentMethod := payment.paymentMethod.or event.paymentMethod
    rawProviderPaymentMethod :=
      payment.rawProviderPaymentMethod.or event.rawProviderPaymentMethod }

/-- The branches taken by an event that is not a duplicate. -/
inductive Applied (ctx : PaymentContext) (payment : Payment) (event : PaymentEventInput) (db : Db) :
    Db → Prop
  | mismatch (bad : mismatched payment event = true) :
    Applied ctx payment event db
      (db.setPaymentStatus payment.id .reconciliationRequired event.providerStatus)
  | kept (good : mismatched payment event = false)
    (money : moneyEventFromInput event = .confirmed)
    (paid : payment.status = .succeeded ∨ payment.status = .refunded ∨
      payment.status = .partiallyRefunded) : Applied ctx payment event db db
  | granted (good : mismatched payment event = false)
    (money : moneyEventFromInput event = .confirmed)
    (unpaid : payment.status = .created ∨ payment.status = .pending) (granted : Db) (grant : Grant)
    (run : grantFromSucceededPayment ctx payment db = .ok (granted, grant))
    (free : granted.providerPaymentTaken payment.id payment.provider
      (event.providerPaymentId.or payment.providerPaymentId) = false) (db' : Db)
    (economics : ensurePaymentEconomics ctx.feePolicies ctx.fiscalPolicies
      ⟨payment.id, payment.amountMicroRub, payment.provider, payment.createdAt,
        payment.paymentMethod.or event.paymentMethod⟩
      (granted.updatePayment payment.id (grantedRow ctx payment event grant)) = .ok db') :
    Applied ctx payment event db db'
  | refunded (good : mismatched payment event = false)
    (money : moneyEventFromInput event = .refunded ∨ moneyEventFromInput event = .partiallyRefunded)
    (db' : Db) (status : PaymentStatus)
    (run : applyRefundAccounting ctx payment event db = .ok (db', status)) :
    Applied ctx payment event db db'
  | moved (good : mismatched payment event = false) (moneyEvent : ProviderMoneyEvent)
    (money : moneyEventFromInput event = moneyEvent)
    (table : moneyEvent = .failed ∨ moneyEvent = .canceled ∨ moneyEvent = .pending) :
    Applied ctx payment event db (moveStatus payment event moneyEvent db).1
  | chargeback (good : mismatched payment event = false)
    (money : moneyEventFromInput event = .ignore) (type : event.eventType = .chargeback) (db' : Db)
    (result : ProcessPaymentResult)
    (run : Billing.chargeback ctx payment event db = .ok (db', result)) :
    Applied ctx payment event db db'
  | ignored (good : mismatched payment event = false)
    (money : moneyEventFromInput event = .ignore) (type : event.eventType ≠ .chargeback) :
    Applied ctx payment event db db

variable {ctx : PaymentContext} {payment : Payment} {event : PaymentEventInput} {db db' : Db}
  {result : ProcessPaymentResult}

theorem confirmPayment_applied (good : mismatched payment event = false)
    (money : moneyEventFromInput event = .confirmed) (h : confirmPayment ctx payment event db = .ok (db', result)) :
    Applied ctx payment event db db' := by
  unfold confirmPayment at h
  cases hs : payment.status with
  | created | pending =>
    rw [hs] at h
    simp only [bind, Except.bind, pure, Except.pure] at h
    cases hgrant : grantFromSucceededPayment ctx payment db with
    | error e => rw [hgrant] at h; cases h
    | ok pair =>
      obtain ⟨granted, grant⟩ := pair
      rw [hgrant] at h
      simp only at h
      split at h
      · cases h
      rename_i free
      split at h
      · cases h
      rename_i db₂ economics
      cases h
      exact .granted good money (by simp [hs]) granted grant hgrant (by simpa using free) _ economics
  | succeeded => rw [hs] at h; cases h; exact .kept good money (.inl hs)
  | refunded => rw [hs] at h; cases h; exact .kept good money (.inr (.inl hs))
  | partiallyRefunded => rw [hs] at h; cases h; exact .kept good money (.inr (.inr hs))
  | failed | canceled | reconciliationRequired => rw [hs] at h; cases h

theorem applyPaymentEvent_applied (h : applyPaymentEvent ctx payment event db = .ok (db', result)) :
    Applied ctx payment event db db' := by
  unfold applyPaymentEvent at h
  cases good : mismatched payment event with
  | true =>
    rw [good] at h
    cases h
    exact .mismatch good
  | false =>
    rw [good] at h
    simp only [Bool.false_eq_true, if_false] at h
    cases money : moneyEventFromInput event with
    | confirmed => rw [money] at h; exact confirmPayment_applied good money h
    | refunded | partiallyRefunded =>
      rw [money] at h
      cases hrun : applyRefundAccounting ctx payment event db with
      | error e => rw [hrun] at h; cases h
      | ok pair =>
        rw [hrun] at h
        cases h
        exact .refunded good (by simp [money]) _ pair.2 hrun
    | failed => rw [money] at h; cases h; exact .moved good .failed money (.inl rfl)
    | canceled => rw [money] at h; cases h; exact .moved good .canceled money (.inr (.inl rfl))
    | pending => rw [money] at h; cases h; exact .moved good .pending money (.inr (.inr rfl))
    | ignore =>
      rw [money] at h
      simp only at h
      split at h
      · rename_i type
        exact .chargeback good money type db' result h
      · rename_i type
        cases h
        exact .ignored good money type

/-- An event finds its payment and is a duplicate, or is noted and applied. -/
theorem processPaymentEvent_cases (h : processPaymentEvent ctx event db = .ok (db', result)) :
    ∃ payment, lockPaymentId db event = some payment ∧
      ((db.recorded event = true ∧ db' = db) ∨
        (db.recorded event = false ∧ Applied ctx payment event (db.note event payment) db')) := by
  unfold processPaymentEvent at h
  cases hlock : lockPaymentId db event with
  | none => rw [hlock] at h; cases h
  | some payment =>
    rw [hlock] at h
    refine ⟨payment, rfl, ?_⟩
    simp only [Db.createPaymentEvent] at h
    cases hrec : db.recorded event with
    | true =>
      have : (db.paymentEvents.any fun e => decide (e.provider = event.provider ∧
        e.providerEventId = event.providerEventId)) = true := hrec
      simp only [this, if_true] at h
      cases h
      exact .inl ⟨rfl, rfl⟩
    | false =>
      have : (db.paymentEvents.any fun e => decide (e.provider = event.provider ∧
        e.providerEventId = event.providerEventId)) = false := hrec
      simp only [this, Bool.false_eq_true, if_false] at h
      exact .inr ⟨rfl, applyPaymentEvent_applied h⟩

theorem processPaymentEvent_known (ctx : PaymentContext) (lock : lockPaymentId db event = some payment)
    (known : db.recorded event = true) : ∃ result, processPaymentEvent ctx event db = .ok (db, result) := by
  have taken : (db.paymentEvents.any fun e => decide (e.provider = event.provider ∧
    e.providerEventId = event.providerEventId)) = true := known
  unfold processPaymentEvent
  simp only [lock, Db.createPaymentEvent, taken, if_true]
  exact ⟨_, rfl⟩

theorem processPaymentEvent_new (ctx : PaymentContext) (lock : lockPaymentId db event = some payment)
    (new : db.recorded event = false) :
    processPaymentEvent ctx event db = applyPaymentEvent ctx payment event (db.note event payment) := by
  have free : (db.paymentEvents.any fun e => decide (e.provider = event.provider ∧
    e.providerEventId = event.providerEventId)) = false := new
  unfold processPaymentEvent
  simp only [lock, Db.createPaymentEvent, free, Bool.false_eq_true, if_false]
  rfl

theorem lockPaymentId_mem (h : lockPaymentId db event = some payment) : payment ∈ db.payments := by
  unfold lockPaymentId at h
  simp only at h
  split at h
  · rename_i found hfound
    cases h
    obtain ⟨id, -, hfind⟩ := Option.bind_eq_some_iff.1 hfound
    exact mem_of_find?_eq_some hfind
  · obtain ⟨id, -, hfind⟩ := Option.bind_eq_some_iff.1 h
    exact mem_of_find?_eq_some hfind

/-- The rows one grant adds: a bucket, its ledger entry and, for a subscription
payment, the subscription. -/
structure Granting (payment : Payment) (db db' : Db) (grant : Grant) (bucket : UsageBucket)
    (entry : UsageLedgerEntry) (subscriptions : List Subscription) : Prop where
  rows : db' = { db with
    nextId := bucket.id + 1
    buckets := db.buckets ++ [bucket]
    ledger := db.ledger ++ [entry]
    subscriptions := db.subscriptions ++ subscriptions }
  bucketId : bucket.id = grant.bucketId
  fresh : db.nextId ≤ bucket.id
  total : 0 ≤ bucket.totalMicroRub
  unused : bucket.spentMicroRub = 0 ∧ bucket.reservedMicroRub = 0
  entered : entry.bucketId = some bucket.id ∧ entry.paymentId = some payment.id ∧
    entry.amountMicroRub = bucket.totalMicroRub ∧ entry.metadata.subscriptionId = grant.subscriptionId
  type : entry.type = .bucketGranted ∨ entry.type = .topupGranted
  created : (grant.subscriptionId = none ∧ subscriptions = []) ∨
    ∃ s, subscriptions = [s] ∧ grant.subscriptionId = some s.id ∧ s.id = db.nextId ∧
      s.id < bucket.id

theorem createBucket_cases {userId : Nat} {type : UsageBucketType} {total : Int} {expiresAt : Option Int}
    {sourceType : BucketSource} {sourceId : Nat} {now : Int} {bucket : UsageBucket}
    (h : db.createBucket userId type total expiresAt sourceType sourceId now = .ok (db', bucket)) : 0 ≤ total ∧
      bucket = ⟨db.nextId, userId, type, total, 0, 0, expiresAt, sourceType, sourceId, now⟩ ∧
      db' = { db with nextId := db.nextId + 1, buckets := db.buckets ++ [bucket] } := by
  unfold Db.createBucket at h
  split at h
  · cases h
  split at h
  · cases h
  cases h
  exact ⟨by omega, rfl, rfl⟩

variable {grant : Grant} {paymentId : Nat} {amount : Int}

/-- What a grant adds, of a subscription and of a top-up. -/
theorem grantFromSucceededPayment_cases (h : grantFromSucceededPayment ctx payment db = .ok (db', grant)) :
    0 ≤ payment.checkoutSnapshot.providerBudgetGrantMicroRub ∧
      ((∃ planVersionId, payment.kind = .subscription ∧
        (db.subscriptions.any fun s => s.userId = payment.userId ∧ s.status = .active) = false ∧
        grant = ⟨db.nextId + 1, some db.nextId⟩ ∧
        db' = { db with
          nextId := db.nextId + 2
          subscriptions := db.subscriptions ++ [⟨db.nextId, payment.userId, planVersionId, .active, ctx.periodStart,
            grantPeriodEnd ctx payment⟩]
          buckets := db.buckets ++ [⟨db.nextId + 1, payment.userId, .monthly,
            payment.checkoutSnapshot.providerBudgetGrantMicroRub, 0, 0, some (grantPeriodEnd ctx payment), .subscription,
            db.nextId, ctx.startedAt⟩]
          ledger := db.ledger ++ [bucketGrantedEntry ctx payment planVersionId db.nextId (db.nextId + 1)] }) ∨
      payment.kind = .topup ∧ grant = ⟨db.nextId, none⟩ ∧
        db' = { db with
          nextId := db.nextId + 1
          buckets := db.buckets ++ [⟨db.nextId, payment.userId, .topup,
            payment.checkoutSnapshot.providerBudgetGrantMicroRub, 0, 0, none, .payment, payment.id, ctx.startedAt⟩]
          ledger := db.ledger ++ [topupGrantedEntry ctx payment db.nextId] }) := by
  unfold grantFromSucceededPayment at h
  simp only at h
  split at h
  · cases h
  split at h
  · rename_i kind
    split at h
    · cases h
    rename_i planVersionId _
    cases taken : db.subscriptions.any fun s => s.userId = payment.userId ∧ s.status = .active with
    | true =>
      simp only [grantSubscription, taken, if_true] at h
      cases h
    | false =>
      simp only [grantSubscription, Db.createSubscription, taken, Bool.false_eq_true, if_false, bind,
        Except.bind, pure, Except.pure] at h
      split at h
      · cases h
      rename_i pair hbucket
      obtain ⟨mid, bucket⟩ := pair
      obtain ⟨nonneg, rfl, rfl⟩ := createBucket_cases hbucket
      cases h
      exact ⟨nonneg, .inl ⟨planVersionId, kind, rfl, rfl, rfl⟩⟩
  · rename_i kind
    simp only [grantTopup, bind, Except.bind, pure, Except.pure] at h
    split at h
    · cases h
    rename_i pair hbucket
    obtain ⟨mid, bucket⟩ := pair
    obtain ⟨nonneg, rfl, rfl⟩ := createBucket_cases hbucket
    cases h
    exact ⟨nonneg, .inr ⟨kind, rfl, rfl⟩⟩

theorem grantFromSucceededPayment_granting (h : grantFromSucceededPayment ctx payment db = .ok (db', grant)) :
    ∃ bucket entry subscriptions, Granting payment db db' grant bucket entry subscriptions := by
  obtain ⟨nonneg, ⟨planVersionId, -, -, rfl, rfl⟩ | ⟨-, rfl, rfl⟩⟩ := grantFromSucceededPayment_cases h
  · exact ⟨⟨db.nextId + 1, payment.userId, .monthly, _, 0, 0, _, .subscription, db.nextId, ctx.startedAt⟩, _, _, rfl, rfl,
      Nat.le_succ _, nonneg, ⟨rfl, rfl⟩, ⟨rfl, rfl, rfl, rfl⟩, .inl rfl, .inr ⟨_, rfl, rfl, rfl, Nat.lt_succ_self _⟩⟩
  · exact ⟨⟨db.nextId, payment.userId, .topup, _, 0, 0, none, .payment, payment.id, ctx.startedAt⟩, _, [],
      by rw [append_nil], rfl, Nat.le_refl _, nonneg, ⟨rfl, rfl⟩, ⟨rfl, rfl, rfl, rfl⟩, .inr rfl, .inl ⟨rfl, rfl⟩⟩

/-- The economics of a payment are appended once. -/
theorem ensurePaymentEconomics_cases {feePolicies : List PaymentFeePolicyVersion}
    {fiscalPolicies : List FiscalizationFeePolicyVersion} {input : EconomicsInput}
    (h : ensurePaymentEconomics feePolicies fiscalPolicies input db = .ok db') :
    ((∃ row ∈ db.economics, row.paymentId = input.paymentId) ∧ db' = db) ∨
      ((∀ row ∈ db.economics, row.paymentId ≠ input.paymentId) ∧
        ∃ row : PaymentEconomics, db' = { db with economics := db.economics ++ [row] } ∧
          row.paymentId = input.paymentId ∧ row.grossAmountMicroRub = input.grossAmountMicroRub ∧
          row.refundedAmountMicroRub = 0) := by
  unfold ensurePaymentEconomics at h
  cases hfind : find PaymentEconomics.paymentId input.paymentId db.economics with
  | some row =>
    rw [hfind] at h
    cases h
    obtain ⟨hmem, hid⟩ := mem_of_find hfind
    exact .inl ⟨⟨row, hmem, hid⟩, rfl⟩
  | none =>
    rw [hfind] at h
    have absent : ∀ row ∈ db.economics, row.paymentId ≠ input.paymentId := by
      intro row hrow e
      obtain ⟨found, hfound⟩ := find_isSome_of_mem hrow e
      rw [hfind] at hfound
      cases hfound
    simp only [bind, Except.bind] at h
    iterate 3
      split at h
      · cases h
    cases h
    exact .inr ⟨absent, _, rfl, rfl, rfl, rfl⟩

def setTotal (total : Int) (b : UsageBucket) : UsageBucket := { b with totalMicroRub := total }

/-- An entry that moves no money and reports no grant. -/
def Silent (e : UsageLedgerEntry) : Prop :=
  e.amountMicroRub = 0 ∧ e.type ≠ .bucketGranted ∧ e.type ≠ .topupGranted

theorem Silent.adjustment {e : UsageLedgerEntry} (type : e.type = .adjustment)
    (zero : e.amountMicroRub = 0) : Silent e :=
  ⟨zero, by rw [type]; decide, by rw [type]; decide⟩

/-- What is booked as refunded. -/
def refundedAmount (payment : Payment) (event : PaymentEventInput) : Int :=
  if event.eventType ≠ .partiallyRefunded then payment.amountMicroRub
  else event.refundAmountMicroRub.getD 0

def refundStatus (event : PaymentEventInput) : PaymentStatus :=
  if event.eventType ≠ .partiallyRefunded then .refunded else .partiallyRefunded

/-- The tables before the economics of a refund are written. -/
def refundRows (ctx : PaymentContext) (payment : Payment) (event : PaymentEventInput)
    (revokeGrant : Int) (db : Db) : Db :=
  let db := revokeBucket ctx payment revokeGrant db
  let db := if event.eventType ≠ .partiallyRefunded then cancelSubscription payment db else db
  db.setPaymentStatus payment.id (refundStatus event) event.providerStatus

/-- A partial refund of a subscription only asks for reconciliation. -/
def unsupportedRefund (payment : Payment) (event : PaymentEventInput) : Prop :=
  event.eventType = .partiallyRefunded ∧ payment.kind = .subscription

instance (payment : Payment) (event : PaymentEventInput) :
    Decidable (unsupportedRefund payment event) :=
  inferInstanceAs (Decidable (_ ∧ _))

theorem applyRefundAccounting_cases {status : PaymentStatus}
    (h : applyRefundAccounting ctx payment event db = .ok (db', status)) :
    (unsupportedRefund payment event ∧ status = .reconciliationRequired ∧
      ∃ entry, Silent entry ∧ entry.paymentId = some payment.id ∧
        db' = (db.appendLedger entry).setPaymentStatus payment.id .reconciliationRequired
          event.providerStatus) ∨
    (¬ unsupportedRefund payment event ∧ status = refundStatus event ∧
      ∃ revokeGrant, revokeAmount payment event = .ok revokeGrant ∧
        addRefundToEconomics payment.id (refundedAmount payment event)
          (refundRows ctx payment event revokeGrant db) = .ok db') := by
  unfold applyRefundAccounting at h
  by_cases unsupported : unsupportedRefund payment event
  · obtain ⟨part, hkind⟩ := unsupported
    simp only [part, hkind, ne_eq, not_true_eq_false, decide_false, Bool.not_false,
      and_self, if_true] at h
    cases h
    exact .inl ⟨⟨part, hkind⟩, rfl, _, Silent.adjustment rfl rfl, rfl, rfl⟩
  · have guard : ¬ ((!decide (event.eventType ≠ .partiallyRefunded)) = true ∧
        payment.kind = .subscription) := by
      rintro ⟨part, hkind⟩
      exact unsupported ⟨by simpa using part, hkind⟩
    simp only [guard, if_false, bind, Except.bind, pure, Except.pure] at h
    split at h
    · cases h
    rename_i revokeGrant hrevoke
    split at h
    · cases h
    rename_i db₂ heconomics
    cases h
    refine .inr ⟨unsupported, ?_, revokeGrant, hrevoke, ?_⟩
    · simp [refundStatus]
    · rw [← heconomics]
      simp [refundRows, refundStatus, refundedAmount]

theorem chargeback_cases (h : chargeback ctx payment event db = .ok (db', result)) :
    ∃ entry, Silent entry ∧ addChargebackToEconomics payment.id payment.amountMicroRub
      ((db.appendLedger entry).setPaymentStatus payment.id .reconciliationRequired
        (some (event.providerStatus.getD "CHARGEBACK"))) = .ok db' := by
  unfold chargeback at h
  simp only [bind, Except.bind, pure, Except.pure] at h
  split at h
  · cases h
  rename_i db₂ heconomics
  cases h
  exact ⟨_, Silent.adjustment rfl rfl, heconomics⟩

/-- The status an applied event leaves on its payment. -/
def engineStatus (payment : Payment) (event : PaymentEventInput) : PaymentStatus :=
  if mismatched payment event then .reconciliationRequired
  else
    match moneyEventFromInput event with
    | .confirmed => if payment.status = .created ∨ payment.status = .pending then .succeeded
        else payment.status
    | .refunded | .partiallyRefunded =>
      if unsupportedRefund payment event then .reconciliationRequired else refundStatus event
    | .failed => (nextDomainStatus payment.status .failed).getD payment.status
    | .canceled => (nextDomainStatus payment.status .canceled).getD payment.status
    | .pending => (nextDomainStatus payment.status .pending).getD payment.status
    | .ignore => if event.eventType = .chargeback then .reconciliationRequired else payment.status

/-- The columns no event changes. -/
structure SamePayment (p q : Payment) : Prop where
  id : q.id = p.id
  amount : q.amountMicroRub = p.amountMicroRub
  kind : q.kind = p.kind
  snapshot : q.checkoutSnapshot = p.checkoutSnapshot

/-- Neither the grant nor any column behind it is changed. -/
structure SameGrant (p q : Payment) : Prop extends SamePayment p q where
  bucket : q.grantedBucketId = p.grantedBucketId
  subscription : q.grantedSubscriptionId = p.grantedSubscriptionId

theorem SamePayment.refl (p : Payment) : SamePayment p p := ⟨rfl, rfl, rfl, rfl⟩

theorem SameGrant.refl (p : Payment) : SameGrant p p := ⟨.refl p, rfl, rfl⟩

theorem withStatus_grant (status : PaymentStatus) (providerStatus : Option String) (p : Payment) :
    SameGrant p (withStatus status providerStatus p) := ⟨⟨rfl, rfl, rfl, rfl⟩, rfl, rfl⟩

/-- What a refund takes out of the granted bucket, and the entries about it. -/
inductive TakenBack (db : Db) : List UsageBucket → List UsageLedgerEntry → Prop
  | nothing (entries : List UsageLedgerEntry) (silent : ∀ e ∈ entries, Silent e) : TakenBack db db.buckets entries
  | revoked (bucket : UsageBucket) (known : bucket ∈ db.buckets) (revoke : Int)
    (range : 0 < revoke ∧ revoke ≤ bucket.locked.available) (entry : UsageLedgerEntry)
    (amount : entry.bucketId = some bucket.id ∧ entry.amountMicroRub = -revoke) (type : entry.type = .bucketRevoked)
    (entries : List UsageLedgerEntry) (silent : ∀ e ∈ entries, Silent e) :
    TakenBack db (update UsageBucket.id bucket.id (setTotal (bucket.totalMicroRub - revoke)) db.buckets)
      (entry :: entries)

/-- A refund is added to the row of its payment, if there is one. -/
inductive Booked (id : Nat) (amount : Int) (rows : List PaymentEconomics) : List PaymentEconomics → Prop
  | absent (absent : ∀ row ∈ rows, row.paymentId ≠ id) : Booked id amount rows rows
  | added (existing : PaymentEconomics) (known : existing ∈ rows) (own : existing.paymentId = id)
    (nonneg : 0 ≤ existing.refundedAmountMicroRub + amount) (status : EconomicsStatus) :
    Booked id amount rows (update PaymentEconomics.paymentId id (fun row =>
      { row with refundedAmountMicroRub := existing.refundedAmountMicroRub + amount, economicsStatus := status }) rows)

/-- The tables after an event: of one that moves no money, of a grant, and of a refund. -/
inductive Written (ctx : PaymentContext) (payment : Payment) (event : PaymentEventInput) (db db' : Db) : Prop
  | noted (entries : List UsageLedgerEntry) (silent : ∀ e ∈ entries, Silent e) (f : Payment → Payment)
    (keeps : ∀ p, SameGrant p (f p)) (owner : ∀ p, (f p).userId = p.userId ∧ (f p).idempotencyKey = p.idempotencyKey)
    (status : (f payment).status = engineStatus payment event) (g : PaymentEconomics → PaymentEconomics)
    (same : ∀ row, (g row).paymentId = row.paymentId ∧ (g row).grossAmountMicroRub = row.grossAmountMicroRub ∧
      (g row).refundedAmountMicroRub = row.refundedAmountMicroRub)
    (aside : moneyEventFromInput event = .refunded ∨ moneyEventFromInput event = .partiallyRefunded →
      mismatched payment event = true ∨ unsupportedRefund payment event)
    (rows : db' = { db with
      ledger := db.ledger ++ entries
      payments := update Payment.id payment.id f db.payments
      economics := db.economics.map g })
  | granted (good : mismatched payment event = false) (money : moneyEventFromInput event = .confirmed)
    (unpaid : payment.status = .created ∨ payment.status = .pending) (granted : Db) (grant : Grant)
    (run : grantFromSucceededPayment ctx payment db = .ok (granted, grant))
    (economics : ensurePaymentEconomics ctx.feePolicies ctx.fiscalPolicies
      ⟨payment.id, payment.amountMicroRub, payment.provider, payment.createdAt,
        payment.paymentMethod.or event.paymentMethod⟩
      (granted.updatePayment payment.id (grantedRow ctx payment event grant)) = .ok db')
  | refunded (good : mismatched payment event = false)
    (money : moneyEventFromInput event = .refunded ∨ moneyEventFromInput event = .partiallyRefunded)
    (supported : ¬ unsupportedRefund payment event) (buckets : List UsageBucket) (entries : List UsageLedgerEntry)
    (taken : TakenBack db buckets entries) (g : Subscription → Subscription)
    (cancels : ∀ s, g s = s ∨ g s = { s with status := .canceled }) (economics : List PaymentEconomics)
    (booked : Booked payment.id (refundedAmount payment event) db.economics economics)
    (rows : db' = { db with
      buckets
      ledger := db.ledger ++ entries
      subscriptions := db.subscriptions.map g
      payments := update Payment.id payment.id (withStatus (refundStatus event) event.providerStatus) db.payments
      economics })

/-- What is taken back, with the shortfall that is noted. -/
theorem revokeBucket_cases (ctx : PaymentContext) (payment : Payment) (revokeGrant : Int) (db : Db) :
    ∃ buckets entries, TakenBack db buckets entries ∧
      revokeBucket ctx payment revokeGrant db = { db with buckets, ledger := db.ledger ++ entries } := by
  unfold revokeBucket
  cases hbucket : payment.grantedBucketId.bind fun id => find UsageBucket.id id db.buckets with
  | none => exact ⟨_, [], .nothing [] (by simp), by simp⟩
  | some bucket =>
    obtain ⟨id, -, hfind⟩ := Option.bind_eq_some_iff.1 hbucket
    have known := (mem_of_find hfind).1
    simp only
    generalize hrevoke : (if bucket.totalMicroRub - bucket.spentMicroRub - bucket.reservedMicroRub <
      revokeGrant then bucket.totalMicroRub - bucket.spentMicroRub - bucket.reservedMicroRub
      else revokeGrant) = revoke
    have fits : revoke ≤ bucket.locked.available := by
      simp only [LockedBucket.available, UsageBucket.locked, availableMicroRub]
      split at hrevoke <;> omega
    have silent (shortfall : UsageLedgerEntry) (h : Silent shortfall) : ∀ e ∈ [shortfall], Silent e := by
      intro e he
      obtain rfl := mem_singleton.1 he
      exact h
    by_cases positive : revoke > 0 <;> by_cases short : revoke < revokeGrant
    · simp only [positive, short, if_true, Db.appendLedger, append_assoc, singleton_append]
      exact ⟨_, _, .revoked bucket known revoke ⟨positive, fits⟩ _ ⟨rfl, rfl⟩ rfl _ (silent _ (.adjustment rfl rfl)), rfl⟩
    · simp only [positive, short, if_true, if_false]
      exact ⟨_, _, .revoked bucket known revoke ⟨positive, fits⟩ _ ⟨rfl, rfl⟩ rfl [] (by simp), rfl⟩
    · simp only [positive, short, if_true, if_false]
      exact ⟨_, _, .nothing _ (silent _ (.adjustment rfl rfl)), rfl⟩
    · simp only [positive, short, if_false]
      exact ⟨_, [], .nothing [] (by simp), by simp⟩

theorem refundRows_cases (ctx : PaymentContext) (payment : Payment) (event : PaymentEventInput) (revokeGrant : Int) (db : Db) :
    ∃ buckets entries, TakenBack db buckets entries ∧
      ∃ g : Subscription → Subscription, (∀ s, g s = s ∨ g s = { s with status := .canceled }) ∧
        refundRows ctx payment event revokeGrant db = { db with
          buckets
          ledger := db.ledger ++ entries
          subscriptions := db.subscriptions.map g
          payments := update Payment.id payment.id (withStatus (refundStatus event) event.providerStatus) db.payments } := by
  obtain ⟨buckets, entries, taken, rows⟩ := revokeBucket_cases ctx payment revokeGrant db
  refine ⟨buckets, entries, taken, ?_⟩
  simp only [refundRows, rows, cancelSubscription]
  split
  · split
    · exact ⟨id, fun _ => .inl rfl, by rw [map_id]; rfl⟩
    · refine ⟨_, fun s => ?_, rfl⟩
      split
      · exact .inr rfl
      · exact .inl rfl
  · exact ⟨id, fun _ => .inl rfl, by rw [map_id]; rfl⟩

theorem addRefundToEconomics_cases (h : addRefundToEconomics paymentId amount db = .ok db') :
    ∃ economics, Booked paymentId amount db.economics economics ∧ db' = { db with economics } := by
  unfold addRefundToEconomics at h
  split at h
  · rename_i absent
    cases h
    refine ⟨_, .absent fun row mem own => ?_, rfl⟩
    obtain ⟨found, hfound⟩ := find_isSome_of_mem mem own
    rw [absent] at hfound
    cases hfound
  · rename_i existing found
    simp only at h
    split at h
    · cases h
    · rename_i nonneg
      cases h
      obtain ⟨known, own⟩ := mem_of_find found
      exact ⟨_, .added existing known own (Int.not_lt.1 nonneg) _, rfl⟩

theorem addChargebackToEconomics_cases (h : addChargebackToEconomics paymentId amount db = .ok db') :
    ∃ g : PaymentEconomics → PaymentEconomics,
      (∀ row, (g row).paymentId = row.paymentId ∧ (g row).grossAmountMicroRub = row.grossAmountMicroRub ∧
        (g row).refundedAmountMicroRub = row.refundedAmountMicroRub) ∧ db' = { db with economics := db.economics.map g } := by
  unfold addChargebackToEconomics at h
  split at h
  · cases h
    exact ⟨id, fun _ => ⟨rfl, rfl, rfl⟩, by rw [map_id]⟩
  · simp only at h
    split at h
    · cases h
    · cases h
      refine ⟨_, fun row => ?_, rfl⟩
      split <;> exact ⟨rfl, rfl, rfl⟩

/-- A status by the domain table, or the provider's alone, or nothing. -/
theorem moveStatus_cases (payment : Payment) (event : PaymentEventInput) (moneyEvent : ProviderMoneyEvent) (db : Db) :
    ∃ f, (∀ p, SameGrant p (f p)) ∧ (∀ p, (f p).userId = p.userId ∧ (f p).idempotencyKey = p.idempotencyKey) ∧
      (f payment).status = (nextDomainStatus payment.status moneyEvent).getD payment.status ∧
      (moveStatus payment event moneyEvent db).1 = db.updatePayment payment.id f := by
  unfold moveStatus
  simp only
  cases hnext : (nextDomainStatus payment.status moneyEvent).filter (· ≠ payment.status) with
  | some status =>
    obtain ⟨hsome, -⟩ := Option.filter_eq_some_iff.1 hnext
    exact ⟨_, withStatus_grant status event.providerStatus, fun _ => ⟨rfl, rfl⟩, by rw [hsome]; rfl, rfl⟩
  | none =>
    have stays : (nextDomainStatus payment.status moneyEvent).getD payment.status = payment.status := by
      cases h : nextDomainStatus payment.status moneyEvent with
      | none => rfl
      | some status =>
        rw [h, Option.filter_some] at hnext
        by_cases same : status = payment.status
        · exact same
        · simp [same] at hnext
    rw [stays]
    dsimp only
    split
    · exact ⟨fun p => { p with providerStatus := event.providerStatus.or p.providerStatus },
        fun _ => ⟨⟨rfl, rfl, rfl, rfl⟩, rfl, rfl⟩, fun _ => ⟨rfl, rfl⟩, rfl, rfl⟩
    · exact ⟨id, SameGrant.refl, fun _ => ⟨rfl, rfl⟩, rfl, by simp [Db.updatePayment, update]⟩

theorem Written.ofPayment (f : Payment → Payment) (keeps : ∀ p, SameGrant p (f p))
    (owner : ∀ p, (f p).userId = p.userId ∧ (f p).idempotencyKey = p.idempotencyKey)
    (status : (f payment).status = engineStatus payment event)
    (aside : moneyEventFromInput event = .refunded ∨ moneyEventFromInput event = .partiallyRefunded →
      mismatched payment event = true) : Written ctx payment event db (db.updatePayment payment.id f) :=
  .noted [] (by simp) f keeps owner status id (fun _ => ⟨rfl, rfl, rfl⟩) (fun refund => .inl (aside refund))
    (by simp [Db.updatePayment])

/-- Every branch of an applied event writes in one of the three ways. -/
theorem Applied.written (h : Applied ctx payment event db db') : Written ctx payment event db db' := by
  have nothing (status : payment.status = engineStatus payment event)
      (aside : moneyEventFromInput event = .refunded ∨ moneyEventFromInput event = .partiallyRefunded →
        mismatched payment event = true) : Written ctx payment event db db := by
    have written : Written ctx payment event db (db.updatePayment payment.id id) :=
      .ofPayment id SameGrant.refl (fun _ => ⟨rfl, rfl⟩) status aside
    simpa [Db.updatePayment, update] using written
  cases h with
  | mismatch bad => exact .ofPayment _ (withStatus_grant _ _) (fun _ => ⟨rfl, rfl⟩) (by simp [engineStatus, bad, withStatus]) fun _ => bad
  | kept good money paid =>
    refine nothing ?_ (by simp [money])
    rcases paid with e | e | e <;> simp [engineStatus, good, money, e]
  | granted good money unpaid granted grant run free db' economics => exact .granted good money unpaid granted grant run economics
  | refunded good money db' status run =>
    have engine : engineStatus payment event = if unsupportedRefund payment event then
        .reconciliationRequired else refundStatus event := by
      rcases money with e | e <;> simp [engineStatus, good, e]
    rcases applyRefundAccounting_cases run with
      ⟨unsupported, -, entry, silent, -, rfl⟩ | ⟨supported, -, revokeGrant, -, heconomics⟩
    · exact .noted [entry] (by simpa using silent) _ (withStatus_grant _ _) (fun _ => ⟨rfl, rfl⟩)
        (by rw [engine, if_pos unsupported]; rfl) id (fun _ => ⟨rfl, rfl, rfl⟩) (fun _ => .inr unsupported) (by rw [map_id]; rfl)
    · obtain ⟨buckets, entries, taken, g, cancels, rows⟩ := refundRows_cases ctx payment event revokeGrant db
      rw [rows] at heconomics
      obtain ⟨economics, booked, rfl⟩ := addRefundToEconomics_cases heconomics
      exact .refunded good money supported buckets entries taken g cancels economics booked rfl
  | moved good moneyEvent money table =>
    obtain ⟨f, keeps, owner, status, rows⟩ := moveStatus_cases payment event moneyEvent db
    rw [rows]
    refine .ofPayment f keeps owner (status.trans ?_) ?_
    · rcases table with rfl | rfl | rfl <;> simp [engineStatus, good, money]
    · rcases table with rfl | rfl | rfl <;> simp [money]
  | chargeback good money type db' result run =>
    obtain ⟨entry, silent, heconomics⟩ := chargeback_cases run
    obtain ⟨g, same, rfl⟩ := addChargebackToEconomics_cases heconomics
    exact .noted [entry] (by simpa using silent) _ (withStatus_grant _ _) (fun _ => ⟨rfl, rfl⟩)
      (by simp [engineStatus, good, money, type, withStatus]) g same (by simp [money]) rfl
  | ignored good money type => exact nothing (by simp [engineStatus, good, money, type]) (by simp [money])

end Vimla.Billing
