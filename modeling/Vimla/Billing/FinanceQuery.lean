import Vimla.Billing.Economics
import Vimla.Billing.TariffSimulator

/-!
# The finance reports

`finance-query.ts`: the overview and the daily series, with each `SUM` as the
sum over the rows that the query selects.
-/

namespace Vimla.Billing

open List Rows

/-- The `payment_economics` row with the fees that were reconciled. -/
structure FinanceEconomics extends PaymentEconomics where
  actualAcquiringFeeMicroRub : Option Int
  actualAcquiringFeeVatMicroRub : Option Int
  actualFiscalizationFeeMicroRub : Option Int

structure AiRequest where
  createdAt : Int
  reservationId : Option Nat
  providerActualCostMicroRub : Option Int

structure VariableCostEntry where
  amountMicroRub : Int
  occurredAt : Int

structure TaxReservePolicyVersion where
  enabled : Bool
  reserveBps : Int
  status : PolicyStatus
  effectiveFrom : Int
  effectiveTo : Option Int

structure FinanceTables where
  payments : List Payment
  economics : List FinanceEconomics
  buckets : List UsageBucket
  allocations : List UsageReservationAllocation
  aiRequests : List AiRequest
  variableCosts : List VariableCostEntry
  taxReserves : List TaxReservePolicyVersion

structure FinanceQueryFilter where
  from_ : Option Int := none
  to_ : Option Int := none
  planVersionId : Option Nat := none
  paymentKind : Option PaymentKind := none
  userId : Option Nat := none

inductive FinanceQuality | actual | estimated | partialFees | unknown | insufficientData
  deriving DecidableEq

structure FinanceOverview where
  grossRevenueMicroRub : Int
  refundsMicroRub : Int
  chargebackAmountMicroRub : Int
  netSalesMicroRub : Int
  estimatedPaymentFeesMicroRub : Int
  actualPaymentFeesMicroRub : Int
  usedPaymentFeesMicroRub : Int
  estimatedFiscalizationFeesMicroRub : Int
  actualFiscalizationFeesMicroRub : Int
  usedFiscalizationFeesMicroRub : Int
  realizedAiCogsMicroRub : Int
  knownVariableCostsMicroRub : Int
  outstandingMonthlyUsageMicroRub : Int
  outstandingTopupUsageMicroRub : Int
  totalOutstandingUsageMicroRub : Int
  expiredMonthlyUsageMicroRub : Int
  estimatedTaxReserveMicroRub : Option Int
  realizedContributionMicroRub : Int
  conservativeContributionMicroRub : Int
  realizedMarginBps : Option Int
  conservativeMarginBps : Option Int
  paymentFeeQuality : FinanceQuality
  fiscalizationFeeQuality : FinanceQuality
  overallQuality : FinanceQuality
  expectedMarginBps : Option Int
  expectedMarginQuality : FinanceQuality

structure UsageUtilization where
  grantMicroRub : Int
  consumedMicroRub : Int
  remainingMicroRub : Int
  expiredUnusedMicroRub : Int
  utilizationPercent : Option Int

structure FinanceTimeseriesPoint where
  date : String
  grossRevenueMicroRub : Int
  realizedAiCogsMicroRub : Int
  realizedContributionMicroRub : Int

def chooseFee (actual estimated : Option Int) : Int × FinanceQuality :=
  match actual with
  | some amount => (amount, .actual)
  | none =>
    match estimated with
    | some amount => (amount, .estimated)
    | none => (0, .unknown)

def mergeQuality (qualities : List FinanceQuality) : FinanceQuality :=
  let unique := qualities.dedup
  if unique.length = 0 ∨ (unique.length = 1 ∧ .unknown ∈ unique) then .unknown
  else if .partialFees ∈ unique then .partialFees
  else if .unknown ∈ unique ∧ unique.length > 1 then .partialFees
  else if .actual ∈ unique ∧ .estimated ∈ unique then .partialFees
  else if .actual ∈ unique then .actual
  else .estimated

/-- The time zones of the runtime and of the database: their names and the
calendar day of an instant. -/
structure Zones where
  supported : String → Bool
  day : String → Int → String

namespace FinanceQueryFilter

/-- `createdAtSql` and `occurredAtSql`. -/
def within (filter : FinanceQueryFilter) (instant : Int) : Bool :=
  (filter.from_.all fun start => start ≤ instant) && filter.to_.all fun stop => instant < stop

def paymentWhere (filter : FinanceQueryFilter) (p : Payment) : Bool :=
  (p.status = .succeeded ∨ p.status = .refunded ∨ p.status = .partiallyRefunded) &&
    filter.within p.createdAt &&
    (filter.planVersionId.all fun id => p.planVersionId = some id) &&
    (filter.paymentKind.all fun kind => p.kind = kind) && filter.userId.all fun id => p.userId = id

def unrestricted (filter : FinanceQueryFilter) : Bool :=
  filter.planVersionId.isNone && filter.paymentKind.isNone && filter.from_.isNone && filter.to_.isNone &&
    filter.userId.isNone

end FinanceQueryFilter

/-- A payment with its economics, if it has any. -/
abbrev SalesRow := Payment × Option FinanceEconomics

/-- `COALESCE(e.column, 0)`. -/
def SalesRow.amount (column : FinanceEconomics → Option Int) (r : SalesRow) : Int :=
  (r.2.bind column).getD 0

/-- `COALESCE(e.actual, e.estimated, 0)`. -/
def SalesRow.coalesce (actual estimated : FinanceEconomics → Option Int) (r : SalesRow) : Int :=
  ((r.2.bind actual).or (r.2.bind estimated)).getD 0

structure LoadedSales where
  gross : Int
  refunds : Int
  chargebacks : Int
  netSales : Int
  estimatedPaymentFees : Int
  actualPaymentFees : Int
  estimatedFiscalizationFees : Int
  actualFiscalizationFees : Int
  paymentCount : Nat
  economicsCount : Nat
  actualFeeCount : Nat

def mergeFeeQuality (sales : LoadedSales) : FinanceQuality :=
  if sales.paymentCount = 0 then .unknown
  else if sales.economicsCount < sales.paymentCount then
    if sales.actualFeeCount > 0 then .partialFees else .unknown
  else if sales.actualFeeCount = sales.paymentCount then .actual
  else if sales.actualFeeCount > 0 then .partialFees
  else if sales.estimatedPaymentFees > 0 then .estimated
  else .unknown

def mergeFiscalQuality (sales : LoadedSales) : FinanceQuality :=
  if sales.actualFiscalizationFees > 0 ∧ sales.estimatedFiscalizationFees > 0 then .partialFees
  else if sales.actualFiscalizationFees > 0 then .actual
  else if sales.estimatedFiscalizationFees > 0 then .estimated
  else .unknown

def UsageBucket.unspent (b : UsageBucket) : Int := b.totalMicroRub - b.spentMicroRub

def UsageBucket.monthlyOver (now : Int) (b : UsageBucket) : Bool :=
  b.type = .monthly && !unexpired now b.expiresAt

def AiRequest.cost (r : AiRequest) : Int := r.providerActualCostMicroRub.getD 0

namespace FinanceTables
variable (T : FinanceTables) (filter : FinanceQueryFilter) (now : Int)

/-- `payment p LEFT JOIN payment_economics e`, with the rows of the filter. -/
def salesRows : List SalesRow :=
  (T.payments.filter filter.paymentWhere).map fun p =>
    (p, T.economics.find? fun e => e.paymentId = p.id)

def loadSales : LoadedSales :=
  let rows := T.salesRows filter
  let gross := total (fun r : SalesRow => r.1.amountMicroRub) rows
  let refunds := total (SalesRow.amount fun e => some e.refundedAmountMicroRub) rows
  { gross
    refunds
    chargebacks := total (SalesRow.amount fun e => some e.chargebackAmountMicroRub) rows
    netSales := gross - refunds
    estimatedPaymentFees := total (fun r => SalesRow.amount (·.estimatedAcquiringFeeMicroRub) r +
      SalesRow.amount (·.estimatedAcquiringFeeVatMicroRub) r) rows
    actualPaymentFees := total (fun r => SalesRow.amount (·.actualAcquiringFeeMicroRub) r +
      SalesRow.amount (·.actualAcquiringFeeVatMicroRub) r) rows
    estimatedFiscalizationFees := total (SalesRow.amount (·.estimatedFiscalizationFeeMicroRub)) rows
    actualFiscalizationFees := total (SalesRow.amount (·.actualFiscalizationFeeMicroRub)) rows
    paymentCount := rows.length
    economicsCount := rows.countP fun r => r.2.isSome
    actualFeeCount := rows.countP fun r => (r.2.bind (·.actualAcquiringFeeMicroRub)).isSome }

/-- `usage_bucket b`, joined with the payments it comes from when there is a
filter. -/
def bucketRows : List UsageBucket :=
  if filter.unrestricted then T.buckets
  else T.buckets.flatMap fun b =>
    (T.payments.filter fun p =>
      ((b.sourceType = .payment && b.sourceId = p.id) ||
        (b.sourceType = .subscription && some b.sourceId = p.grantedSubscriptionId)) &&
      filter.paymentWhere p).map fun _ => b

/-- What is left in the buckets of a type that are not over. -/
def loadOutstanding (type : UsageBucketType) : Int :=
  total UsageBucket.unspent <| (T.bucketRows filter).filter fun b =>
    b.type = type && (b.type = .topup || b.type = .monthly && unexpired now b.expiresAt)

def loadExpiredMonthly : Int :=
  total UsageBucket.unspent ((T.bucketRows filter).filter (·.monthlyOver now))

def utilization : UsageUtilization :=
  let rows := T.bucketRows filter
  let grant := total UsageBucket.totalMicroRub rows
  let consumed := total UsageBucket.spentMicroRub rows
  { grantMicroRub := grant
    consumedMicroRub := consumed
    remainingMicroRub := total (fun b => if b.monthlyOver now then 0 else b.unspent) rows
    expiredUnusedMicroRub := total (fun b => if b.monthlyOver now then b.unspent else 0) rows
    utilizationPercent := if grant > 0 then some (usedPercentFloor consumed grant) else none }

/-- The requests with a cost and a date within the filter. -/
def costedRequests : List AiRequest :=
  T.aiRequests.filter fun r => r.providerActualCostMicroRub.isSome && filter.within r.createdAt

/-- `r.reservationId IN (SELECT DISTINCT a.reservationId ...)`. -/
def reservedBy (r : AiRequest) : Bool :=
  r.reservationId.any fun id => T.allocations.any fun a =>
    a.reservationId = id && (T.bucketRows filter).any fun b => b.id = a.bucketId

def loadAiCogs : Int :=
  total AiRequest.cost ((T.costedRequests filter).filter (T.reservedBy filter))

def loadVariableCosts : Int :=
  total VariableCostEntry.amountMicroRub (T.variableCosts.filter fun c => filter.within c.occurredAt)

def publishedTaxReserve : Option TaxReservePolicyVersion :=
  latest TaxReservePolicyVersion.effectiveFrom <| T.taxReserves.filter fun p =>
    p.enabled && inForce now p.status p.effectiveFrom p.effectiveTo

def taxReserve (netSales : Int) : Except TxError (Option Int) :=
  match T.publishedTaxReserve now with
  | none => .ok none
  | some policy =>
    if policy.enabled then (estimateTaxReserve netSales policy.reserveBps).map some else .ok none

/-- The fees of the sums of all payments: an actual fee is always there, as a
missing sum is read as zero. -/
def overview : Except TxError FinanceOverview := do
  let sales := T.loadSales filter
  let outstandingMonthly := T.loadOutstanding filter now .monthly
  let outstandingTopup := T.loadOutstanding filter now .topup
  let aiCogs := T.loadAiCogs filter
  let variableCosts := T.loadVariableCosts filter
  let usedPayment := chooseFee (some sales.actualPaymentFees) (some sales.estimatedPaymentFees)
  let usedFiscal := chooseFee (some sales.actualFiscalizationFees) (some sales.estimatedFiscalizationFees)
  let paymentFeeQuality := mergeFeeQuality sales
  let fiscalizationFeeQuality := mergeFiscalQuality sales
  let taxReserve ← T.taxReserve now sales.netSales
  let realizedContribution := sales.netSales - usedPayment.1 - usedFiscal.1 - aiCogs - variableCosts -
    taxReserve.getD 0
  let totalOutstanding := outstandingMonthly + outstandingTopup
  let conservativeContribution := realizedContribution - totalOutstanding
  let utilization := T.utilization filter now
  let expected : Option Int × FinanceQuality :=
    if utilization.consumedMicroRub > 0 ∧ utilization.grantMicroRub > 0 then
      let expectedAi := (utilization.grantMicroRub * utilization.utilizationPercent.getD 0).tdiv 100
      let expectedContribution := sales.netSales - usedPayment.1 - usedFiscal.1 - expectedAi -
        variableCosts - taxReserve.getD 0
      (marginBpsFloor expectedContribution sales.netSales, .estimated)
    else (none, .insufficientData)
  return {
    grossRevenueMicroRub := sales.gross
    refundsMicroRub := sales.refunds
    chargebackAmountMicroRub := sales.chargebacks
    netSalesMicroRub := sales.netSales
    estimatedPaymentFeesMicroRub := sales.estimatedPaymentFees
    actualPaymentFeesMicroRub := sales.actualPaymentFees
    usedPaymentFeesMicroRub := usedPayment.1
    estimatedFiscalizationFeesMicroRub := sales.estimatedFiscalizationFees
    actualFiscalizationFeesMicroRub := sales.actualFiscalizationFees
    usedFiscalizationFeesMicroRub := usedFiscal.1
    realizedAiCogsMicroRub := aiCogs
    knownVariableCostsMicroRub := variableCosts
    outstandingMonthlyUsageMicroRub := outstandingMonthly
    outstandingTopupUsageMicroRub := outstandingTopup
    totalOutstandingUsageMicroRub := totalOutstanding
    expiredMonthlyUsageMicroRub := T.loadExpiredMonthly filter now
    estimatedTaxReserveMicroRub := taxReserve
    realizedContributionMicroRub := realizedContribution
    conservativeContributionMicroRub := conservativeContribution
    realizedMarginBps := marginBpsFloor realizedContribution sales.netSales
    conservativeMarginBps := marginBpsFloor conservativeContribution sales.netSales
    paymentFeeQuality
    fiscalizationFeeQuality
    overallQuality := mergeQuality [paymentFeeQuality, fiscalizationFeeQuality, .actual]
    expectedMarginBps := expected.1
    expectedMarginQuality := expected.2 }

variable (zones : Zones) (timezone : String)

/-- The days of the full outer join of the two groupings. -/
def days : List String :=
  (((T.salesRows filter).map fun r => zones.day timezone r.1.createdAt) ++
    (T.costedRequests filter).map fun r => zones.day timezone r.createdAt).dedup.insertionSort (· ≤ ·)

/-- One row of the join: a grouping without rows of the day counts as zero. -/
def point (day : String) : FinanceTimeseriesPoint :=
  let sales := (T.salesRows filter).filter fun r => zones.day timezone r.1.createdAt = day
  let requests := (T.costedRequests filter).filter fun r => zones.day timezone r.createdAt = day
  let gross := total (fun r => r.1.amountMicroRub -
    SalesRow.amount (fun e => some e.refundedAmountMicroRub) r) sales
  let fees := total (fun r =>
    SalesRow.coalesce (·.actualAcquiringFeeMicroRub) (·.estimatedAcquiringFeeMicroRub) r +
    SalesRow.coalesce (·.actualAcquiringFeeVatMicroRub) (·.estimatedAcquiringFeeVatMicroRub) r +
    SalesRow.coalesce (·.actualFiscalizationFeeMicroRub) (·.estimatedFiscalizationFeeMicroRub) r) sales
  let cogs := total AiRequest.cost requests
  { date := day
    grossRevenueMicroRub := gross
    realizedAiCogsMicroRub := cogs
    realizedContributionMicroRub := gross - fees - cogs }

def timeseries : Except TxError (List FinanceTimeseriesPoint) :=
  if zones.supported timezone then .ok ((T.days filter zones timezone).map (T.point filter zones timezone))
  else .error (.error "Invalid reporting timezone")

end FinanceTables

/-!
# When the overview and the daily series agree

The series takes the estimate of a fee where no actual fee was recorded, row by
row; the overview adds up the actual fees alone.
-/

namespace SalesRow

/-- The fee of a row: the actual one if there is one, else the estimate, else zero. -/
def fee (actual estimated : FinanceEconomics → Option Int) (r : SalesRow) : Int :=
  (chooseFee (r.2.bind actual) (r.2.bind estimated)).1

/-- The estimate where it has to stand in for the actual fee. -/
def standIn (actual estimated : FinanceEconomics → Option Int) (r : SalesRow) : Int :=
  if (r.2.bind actual).isSome then 0 else r.amount estimated

def acquiring : SalesRow → Int := fee (·.actualAcquiringFeeMicroRub) (·.estimatedAcquiringFeeMicroRub)

def acquiringVat : SalesRow → Int :=
  fee (·.actualAcquiringFeeVatMicroRub) (·.estimatedAcquiringFeeVatMicroRub)

def fiscalization : SalesRow → Int :=
  fee (·.actualFiscalizationFeeMicroRub) (·.estimatedFiscalizationFeeMicroRub)

/-- The estimates of a row that no actual fee replaces. -/
def standIns (r : SalesRow) : Int :=
  r.standIn (·.actualAcquiringFeeMicroRub) (·.estimatedAcquiringFeeMicroRub) +
  r.standIn (·.actualAcquiringFeeVatMicroRub) (·.estimatedAcquiringFeeVatMicroRub) +
  r.standIn (·.actualFiscalizationFeeMicroRub) (·.estimatedFiscalizationFeeMicroRub)

variable (actual estimated : FinanceEconomics → Option Int) (r : SalesRow)

theorem coalesce_eq_fee : r.coalesce actual estimated = r.fee actual estimated := by
  unfold coalesce fee chooseFee
  cases r.2.bind actual with
  | some amount => rfl
  | none => cases r.2.bind estimated <;> rfl

theorem fee_eq : r.fee actual estimated = r.amount actual + r.standIn actual estimated := by
  unfold fee chooseFee amount standIn
  cases r.2.bind actual with
  | some amount => simp
  | none =>
    unfold amount
    cases r.2.bind estimated <;> simp

end SalesRow

namespace FinanceTables
variable {T : FinanceTables} {filter : FinanceQueryFilter} {now : Int} {zones : Zones} {timezone : String}

/-- Without a tax policy there is an overview, and this is its contribution. -/
theorem overview_ok (noTax : T.publishedTaxReserve now = none) :
    ∃ report, T.overview filter now = .ok report ∧
      report.usedPaymentFeesMicroRub = (T.loadSales filter).actualPaymentFees ∧
      report.usedFiscalizationFeesMicroRub = (T.loadSales filter).actualFiscalizationFees ∧
      report.realizedContributionMicroRub = (T.loadSales filter).netSales -
        (T.loadSales filter).actualPaymentFees - (T.loadSales filter).actualFiscalizationFees -
        T.loadAiCogs filter - T.loadVariableCosts filter := by
  refine ⟨_, by simp only [overview, taxReserve, noTax, bind, Except.bind]; rfl, rfl, rfl, ?_⟩
  simp [chooseFee]

theorem days_nodup : (T.days filter zones timezone).Nodup :=
  (perm_insertionSort _ _).nodup_iff.2 (nodup_dedup _)

theorem mem_days {day : String} : day ∈ T.days filter zones timezone ↔
    (∃ r ∈ T.salesRows filter, zones.day timezone r.1.createdAt = day) ∨
      ∃ r ∈ T.costedRequests filter, zones.day timezone r.createdAt = day := by
  unfold days
  rw [(perm_insertionSort _ _).mem_iff, mem_dedup, mem_append, mem_map, mem_map]

/-- The points of the series add up to the rows that they were grouped from. -/
theorem timeseries_total : total (·.realizedContributionMicroRub)
      ((T.days filter zones timezone).map (T.point filter zones timezone)) =
    (T.loadSales filter).netSales -
      total (fun r => r.acquiring + r.acquiringVat + r.fiscalization) (T.salesRows filter) -
      total AiRequest.cost (T.costedRequests filter) := by
  have sales (g : SalesRow → Int) : total (fun day => total g ((T.salesRows filter).filter
      fun r => zones.day timezone r.1.createdAt = day)) (T.days filter zones timezone) =
      total g (T.salesRows filter) :=
    total_groups _ days_nodup fun r mem => mem_days.2 (.inl ⟨r, mem, rfl⟩)
  have requests : total (fun day => total AiRequest.cost ((T.costedRequests filter).filter
      fun r => zones.day timezone r.createdAt = day)) (T.days filter zones timezone) =
      total AiRequest.cost (T.costedRequests filter) :=
    total_groups _ days_nodup fun r mem => mem_days.2 (.inr ⟨r, mem, rfl⟩)
  simp only [total_map, point, SalesRow.coalesce_eq_fee]
  rw [total_sub, total_sub, sales, sales, requests, total_sub]
  rfl

/-- What the rows stand for: each fee is the actual one or else the estimate. -/
theorem fees_total : total (fun r => r.acquiring + r.acquiringVat + r.fiscalization) (T.salesRows filter) =
    (T.loadSales filter).actualPaymentFees + (T.loadSales filter).actualFiscalizationFees +
      total SalesRow.standIns (T.salesRows filter) := by
  simp only [loadSales, ← total_add]
  refine total_congr fun r _ => ?_
  simp only [SalesRow.acquiring, SalesRow.acquiringVat, SalesRow.fiscalization, SalesRow.fee_eq,
    SalesRow.standIns]
  omega

end FinanceTables

/-- The overview and the series agree on the fees and on the contribution
exactly when the estimates that stand in for actual fees add up to nothing. -/
theorem reports_agree (T : FinanceTables) (filter : FinanceQueryFilter) (now : Int) (zones : Zones)
    (timezone : String) (known : zones.supported timezone) (noTax : T.publishedTaxReserve now = none)
    (noVariable : T.loadVariableCosts filter = 0)
    (sameRequests : ∀ r ∈ T.costedRequests filter, T.reservedBy filter r) :
    ∃ report points, T.overview filter now = .ok report ∧ T.timeseries filter zones timezone = .ok points ∧
      ((report.usedPaymentFeesMicroRub + report.usedFiscalizationFeesMicroRub =
          total (fun r => r.acquiring + r.acquiringVat + r.fiscalization) (T.salesRows filter) ∧
        report.realizedContributionMicroRub = total (·.realizedContributionMicroRub) points) ↔
      total SalesRow.standIns (T.salesRows filter) = 0) := by
  obtain ⟨report, ok, payment, fiscal, contribution⟩ := @FinanceTables.overview_ok T filter now noTax
  have cogs : T.loadAiCogs filter = total AiRequest.cost (T.costedRequests filter) := by
    rw [FinanceTables.loadAiCogs, filter_eq_self.2 sameRequests]
  have fees := @FinanceTables.fees_total T filter
  have series := @FinanceTables.timeseries_total T filter zones timezone
  refine ⟨report, _, ok, if_pos known, ?_⟩
  constructor
  · rintro ⟨same, -⟩
    omega
  · intro nothing
    constructor <;> omega

def paidTopup : Payment where
  id := 1
  userId := 7
  provider := "tbank"
  providerPaymentId := some "42"
  providerOrderId := "order"
  providerStatus := some "CONFIRMED"
  paymentUrl := none
  kind := .topup
  amountMicroRub := 1000000000
  status := .succeeded
  planVersionId := none
  topupPolicyVersionId := none
  paymentMethod := some .card
  rawProviderPaymentMethod := none
  idempotencyKey := "key"
  checkoutSnapshot := ⟨.topup, 1000000000, 350000000, none, none, none, some 3500, none⟩
  grantedBucketId := some 2
  grantedSubscriptionId := none
  fulfilledAt := some 5
  createdAt := 5

/-- Its economics with an estimate of ten rubles. -/
def paidTopupTables (actual : Option Int) : FinanceTables where
  payments := [paidTopup]
  economics := [{
    paymentId := 1
    grossAmountMicroRub := 1000000000
    paymentMethod := .card
    paymentFeePolicyVersionId := some 3
    estimatedAcquiringFeeMicroRub := some 10000000
    estimatedAcquiringFeeVatMicroRub := none
    fiscalizationFeePolicyVersionId := none
    estimatedFiscalizationFeeMicroRub := none
    refundedAmountMicroRub := 0
    chargebackAmountMicroRub := 0
    economicsStatus := .estimated
    actualAcquiringFeeMicroRub := actual
    actualAcquiringFeeVatMicroRub := none
    actualFiscalizationFeeMicroRub := none }]
  buckets := []
  allocations := []
  aiRequests := []
  variableCosts := []
  taxReserves := []

def utcOnly : Zones := ⟨fun zone => zone = "UTC", fun _ _ => "1970-01-01"⟩

/-- With the actual fee recorded the reports agree. -/
theorem reports_agree_actual :
    ∃ report points, (paidTopupTables (some 7000000)).overview {} 9 = .ok report ∧
      (paidTopupTables (some 7000000)).timeseries {} utcOnly "UTC" = .ok points ∧
      report.usedPaymentFeesMicroRub + report.usedFiscalizationFeesMicroRub =
        total (fun r => r.acquiring + r.acquiringVat + r.fiscalization)
          ((paidTopupTables (some 7000000)).salesRows {}) ∧
      report.realizedContributionMicroRub = total (·.realizedContributionMicroRub) points := by
  obtain ⟨report, points, ok, listed, agree⟩ := reports_agree (paidTopupTables (some 7000000)) {} 9 utcOnly "UTC"
    rfl rfl rfl (by decide)
  exact ⟨report, points, ok, listed, agree.2 (by decide +kernel)⟩

/-- With the estimate alone the overview counts no fee at all. -/
theorem estimate_is_ignored :
    ∃ report points, (paidTopupTables none).overview {} 9 = .ok report ∧
      (paidTopupTables none).timeseries {} utcOnly "UTC" = .ok points ∧
      report.usedPaymentFeesMicroRub + report.usedFiscalizationFeesMicroRub = 0 ∧
      total (fun r => r.acquiring + r.acquiringVat + r.fiscalization)
        ((paidTopupTables none).salesRows {}) = 10000000 ∧
      report.realizedContributionMicroRub = 1000000000 ∧
      total (·.realizedContributionMicroRub) points = 990000000 := by
  refine ⟨_, _, rfl, rfl, ?_, ?_, ?_, ?_⟩ <;> decide +kernel

end Vimla.Billing
