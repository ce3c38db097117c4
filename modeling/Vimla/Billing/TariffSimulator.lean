import Vimla.Billing.Types
import Vimla.Lib.Checks
import Vimla.Lib.Matching

namespace Vimla.Billing

open List Checks

/-- Despite the name the division truncates towards zero. -/
def marginBpsFloor (contributionMicroRub netSalesMicroRub : Int) : Option Int :=
  if netSalesMicroRub ≤ 0 then none
  else some ((contributionMicroRub * BASIS_POINTS_DENOMINATOR).tdiv netSalesMicroRub)

def usedPercentFloor (committed total : Int) : Int :=
  if total ≤ 0 then 0
  else if (committed * 100).tdiv total > 100 then 100
  else (committed * 100).tdiv total

def estimateTaxReserve (netSalesMicroRub reserveBps : Int) : Except TxError Int :=
  applyBpsCeil netSalesMicroRub reserveBps

theorem tdiv_lt_zero {n d : Int} (pos : 0 < d) : n.tdiv d < 0 ↔ n ≤ -d := by
  rcases Int.le_total 0 n with nonneg | nonpos
  · have quotient := Int.tdiv_nonneg nonneg pos.le
    omega
  · obtain ⟨m, rfl⟩ : ∃ m, n = -m := ⟨-n, by omega⟩
    rw [Int.neg_tdiv, Int.tdiv_eq_ediv_of_nonneg (by omega)]
    have one : 1 ≤ m / d ↔ 1 * d ≤ m := Int.le_ediv_iff_mul_le pos
    omega

theorem tdiv_lt_of_nonneg {n d t : Int} (pos : 0 < d) (nonneg : 0 ≤ n) : n.tdiv d < t ↔ n < t * d := by
  rw [Int.tdiv_eq_ediv_of_nonneg nonneg]
  exact Int.ediv_lt_iff_lt_mul pos

theorem applyBpsCeil_ok {amount bps : Int} (h : 0 ≤ amount) (low : 0 ≤ bps)
    (high : bps ≤ BASIS_POINTS_DENOMINATOR) : ∃ fee, applyBpsCeil amount bps = .ok fee ∧ 0 ≤ fee := by
  unfold applyBpsCeil
  rw [if_neg (by omega)]
  split
  · exact ⟨0, rfl, le_refl 0⟩
  · refine ⟨_, rfl, Int.tdiv_nonneg ?_ (by decide)⟩
    have product := Int.mul_nonneg h low
    omega

def AcquiringFeePolicy.Valid (p : AcquiringFeePolicy) : Prop :=
  0 ≤ p.feeBps ∧ p.feeBps ≤ BASIS_POINTS_DENOMINATOR ∧ 0 ≤ p.feeVatBps ∧
    p.feeVatBps ≤ BASIS_POINTS_DENOMINATOR ∧ ∀ fee ∈ p.fixedFeeMicroRub, 0 ≤ fee

def FiscalizationFeePolicy.Valid (p : FiscalizationFeePolicy) : Prop :=
  ∀ bps ∈ p.percentageBps, 0 ≤ bps ∧ bps ≤ BASIS_POINTS_DENOMINATOR

theorem estimateAcquiringFee_ok {gross : Int} {policy : AcquiringFeePolicy} (h : 0 ≤ gross)
    (valid : policy.Valid) : ∃ estimate, estimateAcquiringFee gross policy = .ok estimate := by
  obtain ⟨feeLow, feeHigh, vatLow, vatHigh, fixed⟩ := valid
  obtain ⟨percentage, ok, nonneg⟩ := applyBpsCeil_ok h feeLow feeHigh
  have fixed_nonneg : 0 ≤ policy.fixedFeeMicroRub.getD 0 := by
    cases given : policy.fixedFeeMicroRub with
    | none => exact le_refl 0
    | some fee => exact fixed fee given
  simp only [estimateAcquiringFee, ok, bind, Except.bind]
  cases policy.minimumFeeMicroRub with
  | none =>
    obtain ⟨vat, vat_ok, -⟩ := applyBpsCeil_ok (by omega : 0 ≤ percentage + policy.fixedFeeMicroRub.getD 0)
      vatLow vatHigh
    exact ⟨_, by rw [vat_ok]; rfl⟩
  | some minimum =>
    obtain ⟨vat, vat_ok, -⟩ := applyBpsCeil_ok
      (by split <;> omega : 0 ≤ if percentage + policy.fixedFeeMicroRub.getD 0 < minimum then minimum
        else percentage + policy.fixedFeeMicroRub.getD 0) vatLow vatHigh
    exact ⟨_, by rw [vat_ok]; rfl⟩

theorem estimateFiscalizationFee_ok {gross : Int} {policy : FiscalizationFeePolicy} (h : 0 ≤ gross)
    (valid : policy.Valid) : ∃ fee, estimateFiscalizationFee gross policy = .ok fee := by
  unfold estimateFiscalizationFee
  cases given : policy.percentageBps with
  | none => exact ⟨_, rfl⟩
  | some bps =>
    obtain ⟨low, high⟩ := valid bps given
    obtain ⟨percentage, ok, -⟩ := applyBpsCeil_ok h low high
    exact ⟨_, by simp only [ok, bind, Except.bind]; rfl⟩

/-!
# The tariff guardrail

`tariff-simulator.ts`: what a price earns with each payment method, and the
verdict on it.
-/

inductive GuardrailAssessment | safe | warning | negative
  deriving DecidableEq

/-- `Exclude<PaymentMethod, "UNKNOWN">`. -/
abbrev SimulatedMethod := { method : PaymentMethod // method ≠ .unknown }

def simulatedMethods : List SimulatedMethod :=
  [⟨.card, nofun⟩, ⟨.sbp, nofun⟩, ⟨.tPay, nofun⟩, ⟨.other, nofun⟩]

structure TariffSimulationAssumptions where
  priceMicroRub : Int
  monthlyUsageGrantMicroRub : Int
  paymentFees : SimulatedMethod → Option AcquiringFeePolicy
  fiscalization : Option FiscalizationFeePolicy := none
  taxReserveBps : Option Int := none
  otherVariableCostMicroRub : Option Int := none
  targetMinimumMarginBps : Option Int := none

structure PaymentMethodSimulation where
  paymentMethod : SimulatedMethod
  paymentCostMicroRub : Int
  fiscalizationCostMicroRub : Int
  taxReserveMicroRub : Option Int
  maxAiCommitmentMicroRub : Int
  conservativeContributionMicroRub : Int
  conservativeMarginBps : Option Int
  guardrail : GuardrailAssessment

structure TariffSimulationResult where
  methods : List PaymentMethodSimulation
  worstCase : Option PaymentMethodSimulation

def assessGuardrail (marginBps : Option Int) (targetMinimumMarginBps : Int) : GuardrailAssessment :=
  match marginBps with
  | none => .negative
  | some margin =>
    if margin < 0 then .negative
    else if margin < targetMinimumMarginBps then .warning
    else .safe

def TariffSimulationAssumptions.fiscalizationCost (input : TariffSimulationAssumptions) : Except TxError Int :=
  match input.fiscalization with
  | none => .ok 0
  | some policy => estimateFiscalizationFee input.priceMicroRub policy

def TariffSimulationAssumptions.taxReserve (input : TariffSimulationAssumptions) (netAfterFees : Int) :
    Except TxError (Option Int) :=
  match input.taxReserveBps with
  | none => .ok none
  | some bps => (estimateTaxReserve (if netAfterFees < 0 then 0 else netAfterFees) bps).map some

def TariffSimulationAssumptions.target (input : TariffSimulationAssumptions) : Int :=
  input.targetMinimumMarginBps.getD 0

def simulateOne (paymentMethod : SimulatedMethod) (feePolicy : AcquiringFeePolicy)
    (input : TariffSimulationAssumptions) : Except TxError PaymentMethodSimulation := do
  let acquiring ← estimateAcquiringFee input.priceMicroRub feePolicy
  let paymentCostMicroRub := acquiring.feeMicroRub + acquiring.vatMicroRub
  let fiscalizationCostMicroRub ← input.fiscalizationCost
  let netAfterFees := input.priceMicroRub - paymentCostMicroRub - fiscalizationCostMicroRub
  let taxReserveMicroRub ← input.taxReserve netAfterFees
  let other := input.otherVariableCostMicroRub.getD 0
  let tax := taxReserveMicroRub.getD 0
  let conservativeContributionMicroRub := input.priceMicroRub - paymentCostMicroRub -
    fiscalizationCostMicroRub - tax - other - input.monthlyUsageGrantMicroRub
  let conservativeMarginBps := marginBpsFloor conservativeContributionMicroRub input.priceMicroRub
  return {
    paymentMethod
    paymentCostMicroRub
    fiscalizationCostMicroRub
    taxReserveMicroRub
    maxAiCommitmentMicroRub := input.monthlyUsageGrantMicroRub
    conservativeContributionMicroRub
    conservativeMarginBps
    guardrail := assessGuardrail conservativeMarginBps input.target }

/-- `methods.reduce` by the smaller contribution. -/
def worstOf : List PaymentMethodSimulation → Option PaymentMethodSimulation
  | [] => none
  | first :: rest => some (rest.foldl (fun worst current =>
      if current.conservativeContributionMicroRub < worst.conservativeContributionMicroRub then current
      else worst) first)

/-- The methods for which there is a policy, in the order of the loop. -/
def TariffSimulationAssumptions.priced (input : TariffSimulationAssumptions) :
    List (SimulatedMethod × AcquiringFeePolicy) :=
  simulatedMethods.filterMap fun method => (input.paymentFees method).map (method, ·)

def simulateTariffEconomics (input : TariffSimulationAssumptions) : Except TxError TariffSimulationResult := do
  let methods ← input.priced.mapM fun priced => simulateOne priced.1 priced.2 input
  return { methods, worstCase := worstOf methods }

theorem mem_simulatedMethods (method : SimulatedMethod) : method ∈ simulatedMethods := by
  obtain ⟨method, known⟩ := method
  cases method with
  | unknown => exact absurd rfl known
  | _ => simp [simulatedMethods]

variable {input : TariffSimulationAssumptions} {method : SimulatedMethod} {policy : AcquiringFeePolicy}

theorem mem_priced : (method, policy) ∈ input.priced ↔ input.paymentFees method = some policy := by
  simp only [TariffSimulationAssumptions.priced, mem_filterMap, Option.map_eq_some_iff, Prod.mk.injEq]
  constructor
  · rintro ⟨_, -, _, given, rfl, rfl⟩
    exact given
  · exact fun given => ⟨method, mem_simulatedMethods method, policy, given, rfl, rfl⟩

/-- The verdict on a contribution in terms of the amounts themselves. -/
def verdict (contribution price target : Int) : GuardrailAssessment :=
  if contribution < 0 then .negative
  else if contribution * BASIS_POINTS_DENOMINATOR < target * price then .warning
  else .safe

/-- What is left of the price under a policy: its fee and the VAT on it, the
fiscalization and the tax reserve are those that the estimates give. -/
def Contributes (input : TariffSimulationAssumptions) (policy : AcquiringFeePolicy) (contribution : Int) :
    Prop :=
  ∃ acquiring fiscalization tax,
    estimateAcquiringFee input.priceMicroRub policy = .ok acquiring ∧
    input.fiscalizationCost = .ok fiscalization ∧
    input.taxReserve (input.priceMicroRub - (acquiring.feeMicroRub + acquiring.vatMicroRub) - fiscalization)
      = .ok tax ∧
    contribution = input.priceMicroRub - (acquiring.feeMicroRub + acquiring.vatMicroRub) - fiscalization -
      tax.getD 0 - input.otherVariableCostMicroRub.getD 0 - input.monthlyUsageGrantMicroRub

/-- Some method loses money, but less than a basis point of the price. -/
def LosesLessThanABasisPoint (input : TariffSimulationAssumptions) : Prop :=
  ∃ method policy contribution, input.paymentFees method = some policy ∧
    Contributes input policy contribution ∧ contribution < 0 ∧
    -input.priceMicroRub < contribution * BASIS_POINTS_DENOMINATOR

/-- What the claim asks of a result. -/
structure SoundGuardrail (input : TariffSimulationAssumptions) (result : TariffSimulationResult) : Prop where
  verdicts : ∀ m ∈ result.methods, m.guardrail = verdict
    (input.priceMicroRub - m.paymentCostMicroRub - m.fiscalizationCostMicroRub - m.taxReserveMicroRub.getD 0 -
      input.otherVariableCostMicroRub.getD 0 - input.monthlyUsageGrantMicroRub)
    input.priceMicroRub input.target
  simulated : ∀ method policy, input.paymentFees method = some policy →
    ∃ m ∈ result.methods, m.paymentMethod = method
  worst : ∀ m ∈ result.worstCase, m.guardrail = .safe → ∀ other ∈ result.methods, other.guardrail = .safe

variable {contribution price target : Int}

theorem assess_safe (pos : 0 < price) :
    assessGuardrail (marginBpsFloor contribution price) target = .safe ↔
      -price < contribution * BASIS_POINTS_DENOMINATOR ∧
        target ≤ (contribution * BASIS_POINTS_DENOMINATOR).tdiv price := by
  have sign := @tdiv_lt_zero (contribution * BASIS_POINTS_DENOMINATOR) price pos
  unfold marginBpsFloor
  rw [if_neg (by omega)]
  simp only [assessGuardrail]
  iterate 2
    split
    · simp only [reduceCtorEq, false_iff]
      omega
  · simp only [true_iff]
    omega

theorem assess_eq_verdict (pos : 0 < price) :
    assessGuardrail (marginBpsFloor contribution price) target = verdict contribution price target ↔
      ¬ (contribution < 0 ∧ -price < contribution * BASIS_POINTS_DENOMINATOR) := by
  have sign := @tdiv_lt_zero (contribution * BASIS_POINTS_DENOMINATOR) price pos
  unfold marginBpsFloor verdict
  rw [if_neg (by omega)]
  simp only [assessGuardrail]
  by_cases loss : contribution < 0
  · rw [if_pos loss]
    by_cases whole : contribution * BASIS_POINTS_DENOMINATOR ≤ -price
    · rw [if_pos (sign.2 whole)]
      simp only [true_iff]
      omega
    · rw [if_neg (by omega)]
      have not_negative : (if (contribution * BASIS_POINTS_DENOMINATOR).tdiv price < target then
          GuardrailAssessment.warning else .safe) ≠ .negative := by split <;> nofun
      simp only [not_negative, false_iff]
      omega
  · have gain : 0 ≤ contribution * BASIS_POINTS_DENOMINATOR := by
      simp only [BASIS_POINTS_DENOMINATOR]
      omega
    rw [if_neg (by omega), if_neg loss]
    simp only [tdiv_lt_of_nonneg pos gain, true_iff]
    omega

/-- A larger contribution is as safe. -/
theorem assess_mono {less more price target : Int} (pos : 0 < price) (le : less ≤ more)
    (safe : assessGuardrail (marginBpsFloor less price) target = .safe) :
    assessGuardrail (marginBpsFloor more price) target = .safe := by
  rw [assess_safe pos] at safe ⊢
  have scaled : less * BASIS_POINTS_DENOMINATOR ≤ more * BASIS_POINTS_DENOMINATOR := by
    simp only [BASIS_POINTS_DENOMINATOR]
    omega
  exact ⟨by omega, safe.2.trans (Int.tdiv_le_tdiv pos scaled)⟩

theorem simulateOne_ok {m : PaymentMethodSimulation} (h : simulateOne method policy input = .ok m) :
    m.paymentMethod = method ∧ Contributes input policy m.conservativeContributionMicroRub ∧
    m.conservativeContributionMicroRub = input.priceMicroRub - m.paymentCostMicroRub -
      m.fiscalizationCostMicroRub - m.taxReserveMicroRub.getD 0 -
      input.otherVariableCostMicroRub.getD 0 - input.monthlyUsageGrantMicroRub ∧
    m.guardrail = assessGuardrail
      (marginBpsFloor m.conservativeContributionMicroRub input.priceMicroRub) input.target := by
  simp only [simulateOne, bind_eq_ok] at h
  obtain ⟨acquiring, fee, fiscalization, fiscal, tax, reserve, made⟩ := h
  cases made
  exact ⟨rfl, ⟨acquiring, fiscalization, tax, fee, fiscal, reserve, rfl⟩, rfl, rfl⟩

theorem contributes_unique {c c' : Int} (h : Contributes input policy c) (h' : Contributes input policy c') :
    c = c' := by
  obtain ⟨_, _, _, fee, fiscal, tax, rfl⟩ := h
  obtain ⟨_, _, _, fee', fiscal', tax', rfl⟩ := h'
  cases fee.symm.trans fee'
  cases fiscal.symm.trans fiscal'
  cases tax.symm.trans tax'
  rfl

theorem worstOf_le {methods : List PaymentMethodSimulation} {worst : PaymentMethodSimulation}
    (h : worstOf methods = some worst) :
    worst ∈ methods ∧ ∀ m ∈ methods,
      worst.conservativeContributionMicroRub ≤ m.conservativeContributionMicroRub := by
  cases methods with
  | nil => cases h
  | cons first rest =>
    induction rest generalizing first with
    | nil =>
      cases h
      simp
    | cons next rest ih =>
      obtain ⟨mem, least⟩ := ih _ h
      simp only [mem_cons, forall_eq_or_imp] at mem least ⊢
      split at mem
      · rename_i smaller
        rw [if_pos smaller] at least
        exact ⟨.inr mem, by omega, least.1, least.2⟩
      · rename_i larger
        rw [if_neg larger] at least
        refine ⟨?_, least.1, by omega, least.2⟩
        rcases mem with first_worst | later
        · exact .inl first_worst
        · exact .inr (.inr later)

/-- Inputs whose estimates are all made. -/
structure TariffSimulationAssumptions.Valid (input : TariffSimulationAssumptions) : Prop where
  price : 0 ≤ input.priceMicroRub
  fees : ∀ method, ∀ policy ∈ input.paymentFees method, policy.Valid
  fiscalization : ∀ policy ∈ input.fiscalization, policy.Valid
  tax : ∀ bps ∈ input.taxReserveBps, 0 ≤ bps ∧ bps ≤ BASIS_POINTS_DENOMINATOR

theorem simulateOne_isOk (valid : input.Valid) (given : input.paymentFees method = some policy) :
    ∃ m, simulateOne method policy input = .ok m := by
  obtain ⟨acquiring, fee⟩ := estimateAcquiringFee_ok valid.price (valid.fees method policy given)
  obtain ⟨fiscalization, fiscal⟩ : ∃ fee, input.fiscalizationCost = .ok fee := by
    unfold TariffSimulationAssumptions.fiscalizationCost
    cases present : input.fiscalization with
    | none => exact ⟨0, rfl⟩
    | some p => exact estimateFiscalizationFee_ok valid.price (valid.fiscalization p present)
  obtain ⟨tax, reserve⟩ : ∃ tax, input.taxReserve
      (input.priceMicroRub - (acquiring.feeMicroRub + acquiring.vatMicroRub) - fiscalization) = .ok tax := by
    unfold TariffSimulationAssumptions.taxReserve
    cases present : input.taxReserveBps with
    | none => exact ⟨none, rfl⟩
    | some bps =>
      obtain ⟨low, high⟩ := valid.tax bps present
      obtain ⟨tax, ok, -⟩ := applyBpsCeil_ok (by split <;> omega : 0 ≤ if input.priceMicroRub -
        (acquiring.feeMicroRub + acquiring.vatMicroRub) - fiscalization < 0 then 0 else input.priceMicroRub -
        (acquiring.feeMicroRub + acquiring.vatMicroRub) - fiscalization) low high
      exact ⟨some tax, by simp only [estimateTaxReserve, ok]; rfl⟩
  exact ⟨_, by simp only [simulateOne, fee, fiscal, reserve, bind, Except.bind]; rfl⟩

/-- Whenever the estimates are made there is a result, and it is sound exactly
when no method loses less than a basis point of the price. -/
theorem guardrail_sound (input : TariffSimulationAssumptions) (price : 0 < input.priceMicroRub) :
    (input.Valid → ∃ result, simulateTariffEconomics input = .ok result) ∧
    ∀ result, simulateTariffEconomics input = .ok result →
      (SoundGuardrail input result ↔ ¬ LosesLessThanABasisPoint input) := by
  constructor
  · intro valid
    have each : ∀ l : List (SimulatedMethod × AcquiringFeePolicy), (∀ p ∈ l, p ∈ input.priced) →
        ∃ methods, Forall₂ (fun p m => simulateOne p.1 p.2 input = .ok m) l methods := by
      intro l
      induction l with
      | nil => exact fun _ => ⟨[], .nil⟩
      | cons p l ih =>
        intro sub
        obtain ⟨methods, all⟩ := ih fun q mem => sub q (mem_cons_of_mem p mem)
        obtain ⟨m, ok⟩ := simulateOne_isOk valid (mem_priced.1 (sub p mem_cons_self))
        exact ⟨m :: methods, .cons ok all⟩
    obtain ⟨methods, all⟩ := each input.priced fun _ => id
    exact ⟨⟨methods, worstOf methods⟩, by
      simp only [simulateTariffEconomics, mapM_eq_ok.2 all]; rfl⟩
  intro result h
  simp only [simulateTariffEconomics, bind_eq_ok, mapM_eq_ok] at h
  obtain ⟨methods, all, made⟩ := h
  cases made
  have matched : Matched (fun p m => simulateOne p.1 p.2 input = .ok m) input.priced methods :=
    ⟨input.priced, .refl _, all⟩
  have of_mem : ∀ m ∈ methods, ∃ policy, input.paymentFees m.paymentMethod = some policy ∧
      simulateOne m.paymentMethod policy input = .ok m := by
    intro m mem
    obtain ⟨p, hp, ok⟩ := matched.right mem
    have named := (simulateOne_ok ok).1
    exact ⟨p.2, mem_priced.1 (by rw [named]; exact hp), by rw [named]; exact ok⟩
  have simulated : ∀ method policy, input.paymentFees method = some policy →
      ∃ m ∈ methods, simulateOne method policy input = .ok m := by
    intro method policy given
    obtain ⟨m, mem, ok⟩ := matched.left (mem_priced.2 given)
    exact ⟨m, mem, ok⟩
  constructor
  · rintro sound ⟨method, policy, contribution, given, contributes, loss, small⟩
    obtain ⟨m, mem, ok⟩ := simulated method policy given
    obtain ⟨-, contributes', amount, guardrail⟩ := simulateOne_ok ok
    have same := contributes_unique contributes contributes'
    have verdict_m := sound.verdicts m mem
    rw [guardrail, ← amount, assess_eq_verdict price, ← same] at verdict_m
    exact verdict_m ⟨loss, small⟩
  · intro none_small
    refine ⟨fun m mem => ?_, fun method policy given => ?_, fun worst is_worst safe other mem => ?_⟩
    · obtain ⟨policy, given, ok⟩ := of_mem m mem
      obtain ⟨-, contributes, amount, guardrail⟩ := simulateOne_ok ok
      rw [guardrail, ← amount, assess_eq_verdict price]
      exact fun small => none_small ⟨m.paymentMethod, policy, _, given, contributes, small⟩
    · obtain ⟨m, mem, ok⟩ := simulated method policy given
      exact ⟨m, mem, (simulateOne_ok ok).1⟩
    · obtain ⟨worst_mem, least⟩ := worstOf_le is_worst
      obtain ⟨_, -, worst_ok⟩ := of_mem worst worst_mem
      obtain ⟨_, -, other_ok⟩ := of_mem other mem
      rw [(simulateOne_ok worst_ok).2.2.2] at safe
      rw [(simulateOne_ok other_ok).2.2.2]
      exact assess_mono price (least other mem) safe

/-- A plan of 199 rubles that can only be paid by SBP, at four percent. -/
def paidBySbp (grant : Int) : TariffSimulationAssumptions where
  priceMicroRub := 199000000
  monthlyUsageGrantMicroRub := grant
  paymentFees method := if method.1 = .sbp then some ⟨400, 0, none, none⟩ else none

/-- With a grant of 50 rubles its guardrail is sound. -/
theorem guardrail_sound_sbp :
    ∃ result, simulateTariffEconomics (paidBySbp 50000000) = .ok result ∧
      result.methods.map (·.guardrail) = [.safe] ∧ SoundGuardrail (paidBySbp 50000000) result := by
  refine ⟨_, rfl, rfl, ((guardrail_sound (paidBySbp 50000000) (by decide)).2 _ rfl).2 ?_⟩
  rintro ⟨method, policy, contribution, given, ⟨acquiring, fiscalization, tax, fee, fiscal, reserve, rfl⟩, loss, -⟩
  by_cases sbp : method.1 = .sbp
  · cases (if_pos sbp).symm.trans given
    have estimate : estimateAcquiringFee 199000000 ⟨400, 0, none, none⟩ = .ok ⟨7960000, 0⟩ := rfl
    cases fee.symm.trans estimate
    cases fiscal
    cases reserve
    exact absurd loss (by decide)
  · cases (if_neg sbp).symm.trans given

/-- One microRUB more than the price and the fee leave: a loss, and `SAFE`. -/
theorem small_loss_is_safe :
    ∃ result, simulateTariffEconomics (paidBySbp 191040001) = .ok result ∧
      (result.methods.map fun m => (m.conservativeContributionMicroRub, m.guardrail)) = [(-1, .safe)] ∧
      ¬ SoundGuardrail (paidBySbp 191040001) result := by
  refine ⟨_, rfl, rfl, fun sound => ?_⟩
  have claimed := sound.verdicts _ mem_cons_self
  exact absurd claimed (by decide)

end Vimla.Billing
