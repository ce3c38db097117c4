import Vimla.Lib.Rows

/-!
# Rows and inputs of the billing engine

The tables and records of `packages/billing` and of the `payment` part of the
schema. A `cuid()` key is a counter value (a `Nat`), a `BIGINT` or `bigint`
amount is an `Int`, a `Date` is its milliseconds. Columns that no modelled
function reads (`updatedAt`, `settledAt`, currency, the JSON form of the
checkout snapshot) are left out; amounts inside ledger metadata keep their
integer value.
-/

namespace Vimla.Billing

inductive BillingErrorCode
  | insufficientUsage | invalidTopupAmount | subscriptionAlreadyActive | reservationNotFound
  | reservationAlreadySettled | reservationAlreadyReleased | reservationConflict
  | financialOperationFailed | paymentNotFound | planNotFound | paymentAlreadyProcessed
  | paymentAmountInvalid | paymentReconciliationRequired | paymentProviderUnavailable
  deriving DecidableEq

/-- Why a transaction rolled back: a `BillingError`, a plain `Error`, or a
constraint of the database. -/
inductive TxError
  | billing (code : BillingErrorCode) (message : String)
  | error (message : String)
  | uniqueConstraint (index : String)
  | checkConstraint (name : String)
  deriving DecidableEq

inductive UsageBucketType | monthly | topup
  deriving DecidableEq

inductive BucketSource | subscription | payment
  deriving DecidableEq

inductive ReservationStatus | active | settled | released | anomaly
  deriving DecidableEq

inductive LedgerType
  | bucketGranted | topupGranted | bucketRevoked | reservationCreated | usageSettled
  | reservationReleased | adjustment
  deriving DecidableEq

inductive PaymentKind | subscription | topup
  deriving DecidableEq

inductive PaymentStatus
  | created | pending | succeeded | failed | canceled | refunded | partiallyRefunded
  | reconciliationRequired
  deriving DecidableEq

inductive PaymentMethod | card | sbp | tPay | other | unknown
  deriving DecidableEq

inductive SubscriptionStatus | active | canceled | expired
  deriving DecidableEq

inductive EconomicsStatus | actual | estimated | partialFees | unknown | reconciliationRequired
  deriving DecidableEq

inductive PaymentEventType
  | succeeded | failed | refunded | canceled | partiallyRefunded | chargeback | status
  deriving DecidableEq

structure UsageBucket where
  id : Nat
  userId : Nat
  type : UsageBucketType
  totalMicroRub : Int
  spentMicroRub : Int
  reservedMicroRub : Int
  expiresAt : Option Int
  sourceType : BucketSource
  sourceId : Nat
  createdAt : Int
  deriving DecidableEq

structure UsageReservation where
  id : Nat
  userId : Nat
  requestId : String
  estimatedMicroRub : Int
  settledMicroRub : Int
  status : ReservationStatus
  deriving DecidableEq

structure UsageReservationAllocation where
  id : Nat
  reservationId : Nat
  bucketId : Nat
  reservedMicroRub : Int
  settledMicroRub : Int
  deriving DecidableEq

structure LedgerMetadata where
  correlationId : Option String := none
  requestId : Option String := none
  reservedMicroRub : Option Int := none
  settledMicroRub : Option Int := none
  releasedMicroRub : Option Int := none
  subscriptionId : Option Nat := none
  planVersionId : Option Nat := none
  paidMicroRub : Option Int := none
  ratioBps : Option Int := none
  reason : Option String := none
  requestedMicroRub : Option Int := none
  revokedMicroRub : Option Int := none
  providerStatus : Option String := none
  deriving DecidableEq

structure UsageLedgerEntry where
  userId : Nat
  bucketId : Option Nat := none
  reservationId : Option Nat := none
  paymentId : Option Nat := none
  type : LedgerType
  amountMicroRub : Int
  metadata : LedgerMetadata
  deriving DecidableEq

structure CheckoutSnapshot where
  kind : PaymentKind
  customerPaymentAmountMicroRub : Int
  providerBudgetGrantMicroRub : Int
  planVersionId : Option Nat := none
  planCode : Option String := none
  subscriptionPeriodDays : Option Int := none
  topupRatioBps : Option Int := none
  topupPolicyVersionId : Option Nat := none
  deriving DecidableEq

structure Payment where
  id : Nat
  userId : Nat
  provider : String
  providerPaymentId : Option String
  providerOrderId : String
  providerStatus : Option String
  paymentUrl : Option String
  kind : PaymentKind
  amountMicroRub : Int
  status : PaymentStatus
  planVersionId : Option Nat
  topupPolicyVersionId : Option Nat
  paymentMethod : Option PaymentMethod
  rawProviderPaymentMethod : Option String
  idempotencyKey : String
  checkoutSnapshot : CheckoutSnapshot
  grantedBucketId : Option Nat
  grantedSubscriptionId : Option Nat
  fulfilledAt : Option Int
  createdAt : Int
  deriving DecidableEq

structure PaymentEvent where
  provider : String
  providerEventId : String
  paymentId : Nat
  eventType : PaymentEventType
  providerStatus : Option String
  deriving DecidableEq

structure Subscription where
  id : Nat
  userId : Nat
  planVersionId : Nat
  status : SubscriptionStatus
  periodStart : Int
  periodEnd : Int
  deriving DecidableEq

structure PaymentEconomics where
  paymentId : Nat
  grossAmountMicroRub : Int
  paymentMethod : PaymentMethod
  paymentFeePolicyVersionId : Option Nat
  estimatedAcquiringFeeMicroRub : Option Int
  estimatedAcquiringFeeVatMicroRub : Option Int
  fiscalizationFeePolicyVersionId : Option Nat
  estimatedFiscalizationFeeMicroRub : Option Int
  refundedAmountMicroRub : Int
  chargebackAmountMicroRub : Int
  economicsStatus : EconomicsStatus
  deriving DecidableEq

structure BillingPolicy where
  minTopupMicroRub : Int
  maxTopupMicroRub : Int
  topupProviderCostRatioBps : Int
  subscriptionPeriodDays : Int

structure PaymentEventInput where
  provider : String
  providerEventId : String
  providerPaymentId : Option String := none
  orderId : Option String := none
  eventType : PaymentEventType
  providerStatus : Option String := none
  amountMicroRub : Option Int := none
  refundAmountMicroRub : Option Int := none
  paymentMethod : Option PaymentMethod := none
  rawProviderPaymentMethod : Option String := none

structure ProcessPaymentResult where
  duplicate : Bool
  paymentId : Nat
  status : PaymentStatus
  bucketId : Option Nat
  subscriptionId : Option Nat

/-- A JavaScript truthiness test on an optional string. -/
def truthy (s : Option String) : Option String := s.filter (· ≠ "")

/-! Money arithmetic: `money.ts` and `fee-estimate.ts`. -/

def MICRORUB_PER_KOPECK : Int := 10000

def BASIS_POINTS_DENOMINATOR : Int := 10000

def microRubToKopecks (amount : Int) : Except TxError Int :=
  if amount < 0 then .error (.error "Money amounts must be non-negative")
  else if amount % MICRORUB_PER_KOPECK ≠ 0 then
    .error (.error "Amount is not representable as whole kopecks")
  else .ok (amount / MICRORUB_PER_KOPECK)

/-- A negative amount of kopecks, which throws, is excluded by the type. -/
def kopecksToMicroRub (kopecks : Nat) : Int := kopecks * MICRORUB_PER_KOPECK

def availableMicroRub (total spent reserved : Int) : Int := total - spent - reserved

/-- Integer division of a `bigint` truncates towards zero. -/
def topupProviderBudgetMicroRub (amountMicroRub : Int) (ratioBps : Int) :
    Except TxError Int :=
  if amountMicroRub < 0 ∨ ratioBps < 0 ∨ ratioBps > BASIS_POINTS_DENOMINATOR then
    .error (.error "Invalid top-up budget inputs")
  else .ok ((amountMicroRub * ratioBps).tdiv BASIS_POINTS_DENOMINATOR)

def applyBpsCeil (amountMicroRub : Int) (bps : Int) : Except TxError Int :=
  if amountMicroRub < 0 ∨ bps < 0 ∨ bps > BASIS_POINTS_DENOMINATOR then
    .error (.error "Invalid basis-point fee inputs")
  else if amountMicroRub = 0 ∨ bps = 0 then .ok 0
  else .ok ((amountMicroRub * bps + BASIS_POINTS_DENOMINATOR - 1).tdiv BASIS_POINTS_DENOMINATOR)

structure AcquiringFeePolicy where
  feeBps : Int
  feeVatBps : Int
  minimumFeeMicroRub : Option Int
  fixedFeeMicroRub : Option Int

structure EstimatedAcquiringFee where
  feeMicroRub : Int
  vatMicroRub : Int

def estimateAcquiringFee (grossMicroRub : Int) (policy : AcquiringFeePolicy) :
    Except TxError EstimatedAcquiringFee := do
  let percentage ← applyBpsCeil grossMicroRub policy.feeBps
  let fee := percentage + policy.fixedFeeMicroRub.getD 0
  let fee := match policy.minimumFeeMicroRub with
    | some minimum => if fee < minimum then minimum else fee
    | none => fee
  let vat ← applyBpsCeil fee policy.feeVatBps
  return ⟨fee, vat⟩

structure FiscalizationFeePolicy where
  percentageBps : Option Int
  fixedFeeMicroRub : Option Int

def estimateFiscalizationFee (grossMicroRub : Int) (policy : FiscalizationFeePolicy) :
    Except TxError Int := do
  let percentage ← match policy.percentageBps with
    | some bps => applyBpsCeil grossMicroRub bps
    | none => .ok 0
  return percentage + policy.fixedFeeMicroRub.getD 0

theorem topupProviderBudget_nonneg {amount ratio budget : Int}
    (h : topupProviderBudgetMicroRub amount ratio = .ok budget) : 0 ≤ budget := by
  unfold topupProviderBudgetMicroRub at h
  split at h
  · cases h
  · rename_i valid
    simp only [not_or, Int.not_lt] at valid
    obtain ⟨ha, hr, -⟩ := valid
    cases h
    exact Int.tdiv_nonneg (Int.mul_nonneg ha hr) (by decide)

end Vimla.Billing
