import Vimla.TextChat.Budget

/-!
# What a reservation covers

`usage.ts` and `cost.ts` again: the cost of a reported usage against the estimate
for its limits. Both round up, the cost once for each part and the estimate once
for the input and once for the output.
-/

namespace Vimla.TextChat

open Int

variable {price : PriceVersionQuote} {usage : NormalizedUsage} {E M safetyBps : Int}

structure ReportedUsage where
  inputTokens : Int
  outputTokens : Int
  reasoningTokens : Option Int := none
  cacheReadTokens : Option Int := none
  cacheWriteTokens : Option Int := none

def normalizeProviderUsage (input : ReportedUsage) : Except Thrown NormalizedUsage :=
  let usage : NormalizedUsage :=
    ⟨input.inputTokens, input.outputTokens, input.reasoningTokens.getD 0, input.cacheReadTokens.getD 0,
      input.cacheWriteTokens.getD 0⟩
  if usage.inputTokens < 0 ∨ usage.outputTokens < 0 ∨ usage.reasoningTokens < 0 ∨ usage.cacheReadTokens < 0 ∨
      usage.cacheWriteTokens < 0 then
    .error (.ai .PROVIDER_USAGE_INVALID "Provider usage contained negative tokens" 500)
  else if usage.cacheReadTokens > usage.inputTokens then
    .error (.ai .PROVIDER_USAGE_INVALID "cacheReadTokens cannot exceed inputTokens" 500)
  else if usage.cacheWriteTokens > usage.inputTokens then
    .error (.ai .PROVIDER_USAGE_INVALID "cacheWriteTokens cannot exceed inputTokens" 500)
  else if usage.reasoningTokens > usage.outputTokens then
    .error (.ai .PROVIDER_USAGE_INVALID "reasoningTokens cannot exceed outputTokens" 500)
  else .ok usage

structure NormalizedUsage.Normal (usage : NormalizedUsage) : Prop where
  output : 0 ≤ usage.outputTokens
  reasoning : 0 ≤ usage.reasoningTokens ∧ usage.reasoningTokens ≤ usage.outputTokens
  cacheRead : 0 ≤ usage.cacheReadTokens ∧ usage.cacheReadTokens ≤ usage.inputTokens
  cacheWrite : 0 ≤ usage.cacheWriteTokens ∧ usage.cacheWriteTokens ≤ usage.inputTokens

theorem normalizeProviderUsage_ok {reported : ReportedUsage} (ok : normalizeProviderUsage reported = .ok usage) :
    usage.Normal := by
  unfold normalizeProviderUsage at ok
  simp only at ok
  split at ok
  · cases ok
  iterate 3
    split at ok
    · cases ok
  cases ok
  constructor <;> simp only <;> omega

/-- Millionths, rounded up. -/
def perMillion (x : Int) : Int := (x + 999999) / 1000000

theorem perMillion_mono {x y : Int} (le : x ≤ y) : perMillion x ≤ perMillion y := by
  unfold perMillion
  omega

theorem tokenCost_eq {tokens price : Int} (h : 0 ≤ tokens) (h' : 0 ≤ price) :
    tokenCostMicroRub tokens price = .ok (perMillion (tokens * price)) := by
  unfold tokenCostMicroRub TOKENS_PER_MILLION
  rw [if_neg (by omega)]
  split
  · rename_i zero
    have none : tokens * price = 0 := by
      rcases zero with rfl | rfl
      · exact zero_mul price
      · exact mul_zero tokens
    rw [none]
    rfl
  · rw [perMillion, add_sub_assoc]
    rfl

theorem cacheCost_eq {tokens : Int} {price : Option Int} (h : 0 ≤ tokens) (h' : 0 ≤ price.getD 0) :
    cacheCost tokens price = .ok (perMillion (tokens * price.getD 0)) := by
  unfold cacheCost
  split
  · exact tokenCost_eq h h'
  · obtain rfl : tokens = 0 := by omega
    rw [zero_mul]
    rfl

namespace PriceVersionQuote
variable (price : PriceVersionQuote)

def readPrice : Int := price.cacheReadMicroRubPerMillion.getD 0

def writePrice : Int := price.cacheWriteMicroRubPerMillion.getD 0

/-- What the estimate takes for each token of the input. -/
def worstCaseInputPrice : Int := max price.inputMicroRubPerMillion price.readPrice + price.writePrice

theorem worstCaseInputPrice_nonneg : 0 ≤ price.worstCaseInputPrice := by
  have := price.input
  have write : 0 ≤ price.writePrice := price.cacheWrite
  unfold worstCaseInputPrice
  omega

end PriceVersionQuote

/-- The price of the input, before it is rounded. -/
def inputParts (usage : NormalizedUsage) (price : PriceVersionQuote) : Int × Int × Int :=
  ((usage.inputTokens - usage.cacheReadTokens) * price.inputMicroRubPerMillion, usage.cacheReadTokens * price.readPrice,
    usage.cacheWriteTokens * price.writePrice)

theorem providerCost_eq (normal : usage.Normal) (price : PriceVersionQuote) :
    providerCostFromUsage usage price = .ok (perMillion (inputParts usage price).1 +
      perMillion (usage.outputTokens * price.outputMicroRubPerMillion) + perMillion (inputParts usage price).2.1 +
      perMillion (inputParts usage price).2.2) := by
  have uncached : 0 ≤ usage.inputTokens - usage.cacheReadTokens := by
    have := normal.cacheRead
    omega
  unfold providerCostFromUsage
  rw [if_neg (by omega), tokenCost_eq uncached price.input, tokenCost_eq normal.output price.output,
    cacheCost_eq normal.cacheRead.1 price.cacheRead, cacheCost_eq normal.cacheWrite.1 price.cacheWrite]
  rfl

/-- The limits at the prices of the estimate, without the margin. -/
def limitCost (E M : Int) (price : PriceVersionQuote) : Int :=
  perMillion (E * price.worstCaseInputPrice) + perMillion (M * price.outputMicroRubPerMillion)

theorem limitCost_nonneg (input : 0 ≤ E) (output : 0 ≤ M) (price : PriceVersionQuote) : 0 ≤ limitCost E M price := by
  have inputs := mul_nonneg input price.worstCaseInputPrice_nonneg
  have outputs := mul_nonneg output price.output
  unfold limitCost perMillion
  omega

theorem estimateReservation_eq (input : 0 ≤ E) (output : 0 ≤ M) (safety : 0 ≤ safetyBps) (price : PriceVersionQuote) :
    estimateReservationMicroRub E M price safetyBps =
      .ok (max 1 ((limitCost E M price * (10000 + safetyBps) + 9999) / 10000)) := by
  have worst : (if price.inputMicroRubPerMillion > price.cacheReadMicroRubPerMillion.getD 0 then
      price.inputMicroRubPerMillion else price.cacheReadMicroRubPerMillion.getD 0) +
      price.cacheWriteMicroRubPerMillion.getD 0 = price.worstCaseInputPrice := by
    unfold PriceVersionQuote.worstCaseInputPrice PriceVersionQuote.readPrice PriceVersionQuote.writePrice
    split <;> omega
  have margin : applySafetyMargin (limitCost E M price) safetyBps =
      .ok ((limitCost E M price * (10000 + safetyBps) + 9999) / 10000) := by
    have := limitCost_nonneg input output price
    rw [applySafetyMargin, if_neg (by omega)]
  have inputs := tokenCost_eq input price.worstCaseInputPrice_nonneg
  have outputs := tokenCost_eq output price.output
  rw [limitCost] at margin
  simp only [estimateReservationMicroRub, worst, inputs, outputs, margin, bind, Except.bind, pure, Except.pure, limitCost]
  congr 1
  split <;> omega

/-- The margin comes on top, rounded up. -/
theorem with_margin (cost safetyBps : Int) :
    (cost * (10000 + safetyBps) + 9999) / 10000 = cost + (cost * safetyBps + 9999) / 10000 := by
  have split : cost * (10000 + safetyBps) = cost * 10000 + cost * safetyBps := by ring
  omega

/-- What rounding the parts of the input up one by one adds to rounding their sum up. -/
def splitRounding (usage : NormalizedUsage) (price : PriceVersionQuote) : Int :=
  let (uncached, read, written) := inputParts usage price
  perMillion uncached + perMillion read + perMillion written - perMillion (uncached + read + written)

/-- What the limits leave over, without the margin, if the input of the usage is rounded up once. -/
def leftOver (usage : NormalizedUsage) (price : PriceVersionQuote) (E M : Int) : Int :=
  let (uncached, read, written) := inputParts usage price
  limitCost E M price - (perMillion (uncached + read + written) +
    perMillion (usage.outputTokens * price.outputMicroRubPerMillion))

/-- The limits leave the rounding over, or the margin is as large as what is missing of it. -/
def RoundingCovered (usage : NormalizedUsage) (price : PriceVersionQuote) (E M safetyBps : Int) : Prop :=
  splitRounding usage price ≤ leftOver usage price E M ∨
    0 < safetyBps ∧ (splitRounding usage price ≤ leftOver usage price E M + 1 ∨ 10000 < limitCost E M price * safetyBps)

theorem inputParts_le (normal : usage.Normal) (input : usage.inputTokens ≤ E) :
    (inputParts usage price).1 + (inputParts usage price).2.1 + (inputParts usage price).2.2 ≤
      E * price.worstCaseInputPrice := by
  obtain ⟨readNonneg, readLe⟩ := normal.cacheRead
  obtain ⟨writeNonneg, writeLe⟩ := normal.cacheWrite
  have base : 0 ≤ max price.inputMicroRubPerMillion price.readPrice := by
    have := price.input
    omega
  have write : 0 ≤ price.writePrice := price.cacheWrite
  have uncached : (usage.inputTokens - usage.cacheReadTokens) * price.inputMicroRubPerMillion ≤
      (usage.inputTokens - usage.cacheReadTokens) * max price.inputMicroRubPerMillion price.readPrice :=
    mul_le_mul_of_nonneg_left (le_max_left _ _) (by omega)
  have read : usage.cacheReadTokens * price.readPrice ≤
      usage.cacheReadTokens * max price.inputMicroRubPerMillion price.readPrice :=
    mul_le_mul_of_nonneg_left (le_max_right _ _) readNonneg
  calc
    _ ≤ (usage.inputTokens - usage.cacheReadTokens) * max price.inputMicroRubPerMillion price.readPrice +
        usage.cacheReadTokens * max price.inputMicroRubPerMillion price.readPrice +
        usage.cacheWriteTokens * price.writePrice := by
      simp only [inputParts]
      omega
    _ = usage.inputTokens * max price.inputMicroRubPerMillion price.readPrice + usage.cacheWriteTokens * price.writePrice := by
      ring
    _ ≤ E * max price.inputMicroRubPerMillion price.readPrice + E * price.writePrice :=
      add_le_add (mul_le_mul_of_nonneg_right input base) (mul_le_mul_of_nonneg_right (by omega) write)
    _ = E * price.worstCaseInputPrice := by
      rw [PriceVersionQuote.worstCaseInputPrice]
      ring

/-- A usage within its limits costs no more than was reserved for them exactly if
the rounding of its parts is covered, and at most two micro-roubles more. -/
theorem usage_within_reservation (price : PriceVersionQuote) (safety : 0 ≤ safetyBps) {reported : ReportedUsage}
    (normalized : normalizeProviderUsage reported = .ok usage) (input : usage.inputTokens ≤ E)
    (output : usage.outputTokens ≤ M) :
    ∃ cost reserved, providerCostFromUsage usage price = .ok cost ∧
      estimateReservationMicroRub E M price safetyBps = .ok reserved ∧
      (cost ≤ reserved ↔ RoundingCovered usage price E M safetyBps) ∧ cost ≤ reserved + 2 := by
  have normal := normalizeProviderUsage_ok normalized
  have inputNonneg : 0 ≤ E := by
    have := normal.cacheRead
    omega
  have outputNonneg : 0 ≤ M := le_trans normal.output output
  refine ⟨_, _, providerCost_eq normal price, estimateReservation_eq inputNonneg outputNonneg safety price, ?_⟩
  rw [with_margin]
  have within := @inputParts_le price usage E normal input
  have sold : usage.outputTokens * price.outputMicroRubPerMillion ≤ M * price.outputMicroRubPerMillion :=
    mul_le_mul_of_nonneg_right output price.output
  have uncached : 0 ≤ (inputParts usage price).1 :=
    mul_nonneg (by have := normal.cacheRead; omega) price.input
  have read : 0 ≤ (inputParts usage price).2.1 := mul_nonneg normal.cacheRead.1 price.cacheRead
  have written : 0 ≤ (inputParts usage price).2.2 := mul_nonneg normal.cacheWrite.1 price.cacheWrite
  have spent : 0 ≤ usage.outputTokens * price.outputMicroRubPerMillion := mul_nonneg normal.output price.output
  unfold RoundingCovered splitRounding leftOver
  generalize inputParts usage price = parts at *
  obtain ⟨a, b, c⟩ := parts
  have limits : limitCost E M price = perMillion (E * price.worstCaseInputPrice) +
    perMillion (M * price.outputMicroRubPerMillion) := rfl
  have none : safetyBps = 0 → limitCost E M price * safetyBps = 0 := fun zero => by rw [zero, mul_zero]
  have some : 0 < safetyBps → 0 < limitCost E M price → 0 < limitCost E M price * safetyBps :=
    fun safety limit => mul_pos limit safety
  simp only at *
  unfold perMillion at *
  omega


/-- A hundred micro-roubles for a million tokens of each kind. -/
def cheap : PriceVersionQuote := ⟨100, 100, some 100, some 100, by decide, by decide, by decide, by decide⟩

theorem usage_within_reservation_uncached :
    ∃ cost reserved, providerCostFromUsage ⟨2, 1, 0, 0, 0⟩ cheap = .ok cost ∧
      estimateReservationMicroRub 2 1 cheap 0 = .ok reserved ∧
      (cost ≤ reserved ↔ RoundingCovered ⟨2, 1, 0, 0, 0⟩ cheap 2 1 0) ∧ cost ≤ reserved + 2 :=
  @usage_within_reservation ⟨2, 1, 0, 0, 0⟩ 2 1 0 cheap (by decide) ⟨2, 1, none, none, none⟩ rfl (by decide) (by decide)

/-- Each of four parts is rounded up to one micro-rouble, and three were reserved. -/
theorem usage_exceeds_reservation :
    normalizeProviderUsage ⟨2, 1, none, some 1, some 2⟩ = .ok ⟨2, 1, 0, 1, 2⟩ ∧
      providerCostFromUsage ⟨2, 1, 0, 1, 2⟩ cheap = .ok 4 ∧ estimateReservationMicroRub 2 1 cheap 2000 = .ok 3 := by
  decide

variable {input : BudgetInput}

/-- An output that no reservation within the ceiling covers. -/
def BudgetInput.Over (input : BudgetInput) (ceiling output : Int) : Prop :=
  ∀ cost, input.reservationCost output = .ok cost → ceiling < cost

section
variable (tokens : 0 ≤ input.estimatedInputTokens) (safety : 0 ≤ input.safetyBps)
include tokens safety

theorem BudgetInput.reservationCost_mono {output more cost costMore : Int} (nonneg : 0 ≤ output) (le : output ≤ more)
    (less : input.reservationCost output = .ok cost) (greater : input.reservationCost more = .ok costMore) :
    cost ≤ costMore := by
  unfold BudgetInput.reservationCost at less greater
  rw [estimateReservation_eq tokens nonneg safety] at less
  rw [estimateReservation_eq tokens (le_trans nonneg le) safety] at greater
  cases less
  cases greater
  have limits : limitCost input.estimatedInputTokens output input.price ≤ limitCost input.estimatedInputTokens more input.price :=
    Int.add_le_add_left (perMillion_mono (Int.mul_le_mul_of_nonneg_right le input.price.output)) _
  have margins : limitCost input.estimatedInputTokens output input.price * (10000 + input.safetyBps) ≤
      limitCost input.estimatedInputTokens more input.price * (10000 + input.safetyBps) :=
    mul_le_mul_of_nonneg_right limits (by omega)
  omega

theorem BudgetInput.Over.mono {ceiling output more : Int}
    (nonneg : 0 ≤ output) (past : input.Over ceiling output) (le : output ≤ more) : input.Over ceiling more := by
  intro costMore greater
  obtain ⟨cost, less, -⟩ := BudgetInput.cost_ok tokens safety output nonneg
  have := past cost less
  have := reservationCost_mono tokens safety nonneg le less greater
  omega

/-- The bisection keeps its choice below `low`, and what lies above `high` is too dear. -/
theorem BudgetInput.bisect_greatest {ceiling last low high selected cost : Int} {found : Int × Int} (positive : 0 ≤ low) (close : low ≤ selected + 1)
    (past : ∀ n, high < n → n ≤ last → input.Over ceiling n)
    (bisected : input.bisect ceiling low high selected cost = .ok found) :
    ∀ n, found.1 < n → n ≤ last → input.Over ceiling n := by
  fun_induction BudgetInput.bisect input ceiling low high selected cost with
  | case1 low high selected cost inside candidate e failed => cases bisected
  | case2 low high selected cost inside candidate candidateCost ok fits ih =>
    exact ih (by omega) (le_refl _) past bisected
  | case3 low high selected cost inside candidate candidateCost ok dear ih =>
    apply ih positive close ?_ bisected
    intro n above below
    have here : input.Over ceiling candidate := by
      intro cost' same
      rw [ok] at same
      cases same
      omega
    exact here.mono tokens safety (by omega) (by omega)
  | case4 low high selected cost outside =>
    cases bisected
    intro n above below
    exact past n (by omega) below

end

/-- The largest output between the bounds that the ceiling pays for. -/
structure BudgetInput.Greatest (input : BudgetInput) (budget : FundedAiExecutionBudget) : Prop where
  profile : budget.profile = input.profile
  bounds : budget.minimumOutputTokens = input.minimum ∧ budget.preferredOutputTokens = input.preferred
  affords : input.Affords input.ceiling input.minimum input.preferred (budget.selectedOutputTokens, budget.estimatedCostMicroRub)
  greatest : ∀ n cost, n ≤ input.preferred → input.reservationCost n = .ok cost → cost ≤ input.ceiling →
    n ≤ budget.selectedOutputTokens

/-- On valid inputs the result is told by the cost of the smallest output, and a
funded budget has the largest that can be paid for. Without any funds usage is
insufficient, whatever the cap. -/
theorem resolveAiExecutionBudget_greatest (valid : input.Valid) :
    ∃ minimumCost result, input.reservationCost input.minimum = .ok minimumCost ∧ resolveAiExecutionBudget input = .ok result ∧
      ((∃ budget, result = .FUNDED budget) ↔
        minimumCost ≤ input.maxReservationMicroRub ∧ minimumCost ≤ input.availableMicroRub) ∧
      (result = .REQUEST_COST_LIMIT ↔ input.maxReservationMicroRub < minimumCost ∧
        (0 < input.availableMicroRub ∨ input.maxReservationMicroRub ≤ 0)) ∧
      (result = .INSUFFICIENT_USAGE ↔ input.availableMicroRub < minimumCost ∧
        (minimumCost ≤ input.maxReservationMicroRub ∨ input.availableMicroRub ≤ 0 ∧ 0 < input.maxReservationMicroRub)) ∧
      ∀ budget, result = .FUNDED budget → input.Greatest budget := by
  obtain ⟨positive, below⟩ := valid.bounds
  obtain ⟨minimumCost, cheapest, atLeast⟩ := BudgetInput.cost_ok valid.tokens valid.safety input.minimum (by omega)
  obtain ⟨preferredCost, dearest, _⟩ := BudgetInput.cost_ok valid.tokens valid.safety input.preferred (by omega)
  have ceiling : input.ceiling = min input.availableMicroRub input.maxReservationMicroRub := rfl
  rw [resolveAiExecutionBudget_eq valid cheapest dearest]
  refine ⟨minimumCost, ?_⟩
  iterate 4
    split
    · exact ⟨_, cheapest, rfl, by simp; omega, by simp; omega, by simp; omega, by simp⟩
  split
  · rename_i fits
    refine ⟨_, cheapest, rfl, by simp; omega, by simp; omega, by simp; omega, ?_⟩
    rintro budget ⟨⟩
    exact ⟨rfl, ⟨rfl, rfl⟩, ⟨⟨below, le_refl _⟩, dearest, fits⟩, fun n cost le _ _ => le⟩
  · rename_i dear
    have start : input.Affords input.ceiling input.minimum input.preferred (input.minimum, minimumCost) :=
      ⟨⟨le_refl _, below⟩, cheapest, by omega⟩
    obtain ⟨found, bisected, affords⟩ := BudgetInput.bisect_affords valid.tokens valid.safety (by omega)
      (le_refl _) (le_refl _) start
    have nothing : ∀ n, input.preferred < n → n ≤ input.preferred → input.Over input.ceiling n :=
      fun n above below => absurd above (by omega)
    have greatest := BudgetInput.bisect_greatest valid.tokens valid.safety (by omega) (by omega) nothing bisected
    rw [bisected]
    refine ⟨_, cheapest, rfl, by simp; omega, by simp; omega, by simp; omega, ?_⟩
    rintro budget ⟨⟩
    refine ⟨rfl, ⟨rfl, rfl⟩, affords, fun n cost le same fits => ?_⟩
    by_contra above
    have := greatest n (by simpa using above) le cost same
    omega

theorem rouble : (0 : Int) ≤ 1000000 := by decide

theorem uncached : 0 ≤ (none : Option Int).getD 0 := by decide

/-- A short answer of a million-token quote at a rouble. -/
def shortAnswer (available cap : Int) : BudgetInput :=
  ⟨.SHORT, DEFAULT_AI_EXECUTION_BUDGET_PROFILES, 4096, 1000, available, cap,
    ⟨1000000, 1000000, none, none, rouble, rouble, uncached, uncached⟩, 2000⟩

theorem shortAnswer_valid (available cap : Int) : (shortAnswer available cap).Valid := by
  constructor <;> simp [shortAnswer, DEFAULT_AI_EXECUTION_BUDGET_PROFILES]

theorem resolveAiExecutionBudget_greatest_short :
    ∃ minimumCost result, (shortAnswer 1500 2000).reservationCost 128 = .ok minimumCost ∧
      resolveAiExecutionBudget (shortAnswer 1500 2000) = .ok result ∧
      ((∃ budget, result = .FUNDED budget) ↔ minimumCost ≤ 2000 ∧ minimumCost ≤ 1500) := by
  obtain ⟨minimumCost, result, cost, resolved, funded, -⟩ := resolveAiExecutionBudget_greatest (shortAnswer_valid 1500 2000)
  exact ⟨minimumCost, result, cost, resolved, funded⟩

/-- The cheapest answer exceeds the cap, but there are no funds. -/
theorem no_funds_before_cost_limit :
    (shortAnswer 0 1000).reservationCost (shortAnswer 0 1000).minimum = .ok 1354 ∧
      resolveAiExecutionBudget (shortAnswer 0 1000) = .ok .INSUFFICIENT_USAGE := by
  decide

end Vimla.TextChat
