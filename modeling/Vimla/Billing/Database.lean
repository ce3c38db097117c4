import Vimla.Billing.Types

/-!
# The billing tables and the statements run on them

One `INSERT` or `UPDATE` of the engine is one function on `Db`. A transaction
is a function into `Except TxError`: an error rolls every statement back.
-/

namespace Vimla.Billing

structure Db where
  nextId : Nat
  buckets : List UsageBucket
  reservations : List UsageReservation
  allocations : List UsageReservationAllocation
  ledger : List UsageLedgerEntry
  payments : List Payment
  paymentEvents : List PaymentEvent
  subscriptions : List Subscription
  economics : List PaymentEconomics
  deriving DecidableEq

namespace Db

def createReservation (db : Db) (userId : Nat) (requestId : String) (estimated : Int) :
    Db × UsageReservation :=
  let reservation : UsageReservation := ⟨db.nextId, userId, requestId, estimated, 0, .active⟩
  ({ db with nextId := db.nextId + 1, reservations := db.reservations ++ [reservation] }, reservation)

def updateReservation (db : Db) (id : Nat) (f : UsageReservation → UsageReservation) : Db :=
  { db with reservations := Rows.update UsageReservation.id id f db.reservations }

def createAllocation (db : Db) (reservationId bucketId : Nat) (reserved : Int) :
    Db × UsageReservationAllocation :=
  let allocation : UsageReservationAllocation := ⟨db.nextId, reservationId, bucketId, reserved, 0⟩
  ({ db with nextId := db.nextId + 1, allocations := db.allocations ++ [allocation] }, allocation)

def updateAllocation (db : Db) (id : Nat)
    (f : UsageReservationAllocation → UsageReservationAllocation) : Db :=
  { db with allocations := Rows.update UsageReservationAllocation.id id f db.allocations }

/-- `usage_bucket` rows are unique on their source and hold no negative total. -/
def createBucket (db : Db) (userId : Nat) (type : UsageBucketType) (total : Int)
    (expiresAt : Option Int) (sourceType : BucketSource) (sourceId : Nat) (now : Int) :
    Except TxError (Db × UsageBucket) :=
  if db.buckets.any fun b => b.sourceType = sourceType ∧ b.sourceId = sourceId then
    .error (.uniqueConstraint "usage_bucket_sourceType_sourceId_key")
  else if total < 0 then .error (.checkConstraint "usage_bucket_non_negative")
  else
    let bucket : UsageBucket :=
      ⟨db.nextId, userId, type, total, 0, 0, expiresAt, sourceType, sourceId, now⟩
    .ok ({ db with nextId := db.nextId + 1, buckets := db.buckets ++ [bucket] }, bucket)

def updateBucket (db : Db) (id : Nat) (f : UsageBucket → UsageBucket) : Db :=
  { db with buckets := Rows.update UsageBucket.id id f db.buckets }

def appendLedger (db : Db) (entry : UsageLedgerEntry) : Db :=
  { db with ledger := db.ledger ++ [entry] }

/-- A user has at most one `ACTIVE` subscription (`subscription_one_active_per_user`). -/
def createSubscription (db : Db) (userId : Nat) (planVersionId : Nat)
    (periodStart periodEnd : Int) : Except TxError (Db × Subscription) :=
  if db.subscriptions.any fun s => s.userId = userId ∧ s.status = .active then
    .error (.uniqueConstraint "subscription_one_active_per_user")
  else
    let subscription : Subscription :=
      ⟨db.nextId, userId, planVersionId, .active, periodStart, periodEnd⟩
    .ok ({ db with
      nextId := db.nextId + 1
      subscriptions := db.subscriptions ++ [subscription] }, subscription)

/-- `payment` rows are unique on `(provider, providerPaymentId)`; `NULL` never clashes. -/
def providerPaymentTaken (db : Db) (id : Nat) (provider : String) (providerPaymentId : Option String) :
    Bool :=
  providerPaymentId.isSome && db.payments.any fun p =>
    p.id ≠ id ∧ p.provider = provider ∧ p.providerPaymentId = providerPaymentId

def updatePayment (db : Db) (id : Nat) (f : Payment → Payment) : Db :=
  { db with payments := Rows.update Payment.id id f db.payments }

def createPaymentEvent (db : Db) (event : PaymentEvent) : Except TxError Db :=
  if db.paymentEvents.any fun e =>
      e.provider = event.provider ∧ e.providerEventId = event.providerEventId then
    .error (.uniqueConstraint "payment_event_provider_providerEventId_key")
  else .ok { db with paymentEvents := db.paymentEvents ++ [event] }

def updateEconomics (db : Db) (paymentId : Nat) (f : PaymentEconomics → PaymentEconomics) : Db :=
  { db with economics := Rows.update PaymentEconomics.paymentId paymentId f db.economics }

end Db

/-- A bucket row as `lockUserBuckets` returns it. -/
structure LockedBucket where
  id : Nat
  type : UsageBucketType
  totalMicroRub : Int
  spentMicroRub : Int
  reservedMicroRub : Int
  expiresAt : Option Int
  createdAt : Int

def UsageBucket.locked (b : UsageBucket) : LockedBucket :=
  ⟨b.id, b.type, b.totalMicroRub, b.spentMicroRub, b.reservedMicroRub, b.expiresAt, b.createdAt⟩

@[simp] theorem UsageBucket.locked_id (b : UsageBucket) : b.locked.id = b.id := rfl

/-- `(expiresAt IS NULL OR expiresAt > now)`. -/
def unexpired (now : Int) (expiresAt : Option Int) : Bool :=
  match expiresAt with
  | none => true
  | some t => decide (now < t)

end Vimla.Billing
