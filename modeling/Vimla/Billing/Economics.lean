import Vimla.Billing.Database

namespace Vimla.Billing

inductive PolicyStatus | draft | published | retired
  deriving DecidableEq

structure PaymentFeePolicyVersion where
  id : Nat
  provider : String
  paymentMethod : PaymentMethod
  feeBps : Int
  feeVatBps : Int
  minimumFeeMicroRub : Option Int
  fixedFeeMicroRub : Option Int
  status : PolicyStatus
  effectiveFrom : Int
  effectiveTo : Option Int

structure FiscalizationFeePolicyVersion where
  id : Nat
  provider : String
  percentageBps : Option Int
  fixedFeeMicroRub : Option Int
  status : PolicyStatus
  effectiveFrom : Int
  effectiveTo : Option Int

/-- `WHERE status = 'PUBLISHED' AND effectiveFrom <= at AND (effectiveTo IS NULL OR effectiveTo > at)`. -/
def inForce (instant : Int) (status : PolicyStatus) (effectiveFrom : Int) (effectiveTo : Option Int) :
    Bool :=
  status = .published ∧ effectiveFrom ≤ instant ∧ unexpired instant effectiveTo

/-- `findFirst` ordered by `effectiveFrom`, latest first. -/
def latest {π : Type} (effectiveFrom : π → Int) (rows : List π) : Option π :=
  (rows.insertionSort fun l r => effectiveFrom r ≤ effectiveFrom l).head?

def findPublishedFeePolicy (policies : List PaymentFeePolicyVersion) (provider : String)
    (paymentMethod : PaymentMethod) (instant : Int) : Option PaymentFeePolicyVersion :=
  latest PaymentFeePolicyVersion.effectiveFrom <| policies.filter fun p =>
    p.provider = provider ∧ p.paymentMethod = paymentMethod ∧
      inForce instant p.status p.effectiveFrom p.effectiveTo

def findPublishedFiscalPolicy (policies : List FiscalizationFeePolicyVersion) (provider : String)
    (instant : Int) : Option FiscalizationFeePolicyVersion :=
  latest FiscalizationFeePolicyVersion.effectiveFrom <| policies.filter fun p =>
    p.provider = provider ∧ inForce instant p.status p.effectiveFrom p.effectiveTo

def estimateAcquiring (grossMicroRub : Int) :
    Option PaymentFeePolicyVersion → Except TxError (Option EstimatedAcquiringFee)
  | none => .ok none
  | some p => (estimateAcquiringFee grossMicroRub
      ⟨p.feeBps, p.feeVatBps, p.minimumFeeMicroRub, p.fixedFeeMicroRub⟩).map some

def estimateFiscalization (grossMicroRub : Int) :
    Option FiscalizationFeePolicyVersion → Except TxError (Option Int)
  | none => .ok none
  | some p => (estimateFiscalizationFee grossMicroRub ⟨p.percentageBps, p.fixedFeeMicroRub⟩).map some

structure EconomicsInput where
  paymentId : Nat
  grossAmountMicroRub : Int
  provider : String
  occurredAt : Int
  paymentMethod : Option PaymentMethod

/-- The row is created once. Its `refundedAmountMicroRub` and
`chargebackAmountMicroRub` start at their default, zero. -/
def ensurePaymentEconomics (feePolicies : List PaymentFeePolicyVersion)
    (fiscalPolicies : List FiscalizationFeePolicyVersion) (input : EconomicsInput) (db : Db) :
    Except TxError Db :=
  match Rows.find PaymentEconomics.paymentId input.paymentId db.economics with
  | some _ => .ok db
  | none => do
    let method := input.paymentMethod.filter (· ≠ .unknown)
    let feePolicy := method.bind fun m =>
      findPublishedFeePolicy feePolicies input.provider m input.occurredAt
    let fiscalPolicy := findPublishedFiscalPolicy fiscalPolicies input.provider input.occurredAt
    let acquiring ← estimateAcquiring input.grossAmountMicroRub feePolicy
    let fiscalization ← estimateFiscalization input.grossAmountMicroRub fiscalPolicy
    if input.grossAmountMicroRub < 0 then
      .error (.checkConstraint "payment_economics_money_nonnegative")
    else
      let row : PaymentEconomics := {
        paymentId := input.paymentId
        grossAmountMicroRub := input.grossAmountMicroRub
        paymentMethod := method.getD .unknown
        paymentFeePolicyVersionId := feePolicy.map PaymentFeePolicyVersion.id
        estimatedAcquiringFeeMicroRub := acquiring.map EstimatedAcquiringFee.feeMicroRub
        estimatedAcquiringFeeVatMicroRub := acquiring.map EstimatedAcquiringFee.vatMicroRub
        fiscalizationFeePolicyVersionId := fiscalPolicy.map FiscalizationFeePolicyVersion.id
        estimatedFiscalizationFeeMicroRub := fiscalization
        refundedAmountMicroRub := 0
        chargebackAmountMicroRub := 0
        economicsStatus := if feePolicy.isSome then .estimated else .reconciliationRequired }
      .ok { db with economics := db.economics ++ [row] }

def addRefundToEconomics (paymentId : Nat) (refundedAmountMicroRub : Int) (db : Db) :
    Except TxError Db :=
  match Rows.find PaymentEconomics.paymentId paymentId db.economics with
  | none => .ok db
  | some existing =>
    let next := existing.refundedAmountMicroRub + refundedAmountMicroRub
    let status : EconomicsStatus :=
      if next > existing.grossAmountMicroRub ∨ refundedAmountMicroRub ≤ 0 then .reconciliationRequired
      else if existing.economicsStatus = .actual then .partialFees
      else existing.economicsStatus
    if next < 0 then .error (.checkConstraint "payment_economics_money_nonnegative")
    else .ok (db.updateEconomics paymentId fun row =>
      { row with refundedAmountMicroRub := next, economicsStatus := status })

def addChargebackToEconomics (paymentId : Nat) (amountMicroRub : Int) (db : Db) :
    Except TxError Db :=
  match Rows.find PaymentEconomics.paymentId paymentId db.economics with
  | none => .ok db
  | some existing =>
    let next := existing.chargebackAmountMicroRub + amountMicroRub
    if next < 0 then .error (.checkConstraint "payment_economics_money_nonnegative")
    else .ok (db.updateEconomics paymentId fun row =>
      { row with chargebackAmountMicroRub := next, economicsStatus := .reconciliationRequired })

end Vimla.Billing
