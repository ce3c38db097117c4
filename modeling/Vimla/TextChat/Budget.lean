import Vimla.Billing.Types
import Vimla.Lib.Json

/-!
# What a request may cost

`cost.ts`, `estimate.ts` and `execution-budget.ts` of the AI package, for the
messages and the profile that text chat uses. Token counts and money are `Int`;
a quote carries the check constraint of its table.
-/

namespace Vimla.TextChat

open Int

inductive AiErrorCode
  | UNKNOWN_MODEL | INACTIVE_MODEL | MODEL_UNAVAILABLE | MESSAGE_TOO_LARGE | AI_DISABLED
  | AI_REQUEST_IN_PROGRESS | IDEMPOTENCY_CONFLICT | THREAD_TARGET_REQUIRED | THREAD_TARGET_INVALID
  | AI_REQUEST_COST_LIMIT | AI_PROVIDER_BALANCE_UNAVAILABLE | AI_RECONCILIATION_REQUIRED
  | PROVIDER_USAGE_INVALID | PROVIDER_REJECTED | PROVIDER_AMBIGUOUS_FAILURE
  deriving DecidableEq

inductive ProviderFailureKind | rejected | balance | ambiguous
  deriving DecidableEq

/-- What a call throws: an `AiError`, an error of the billing engine, one of the
HTTP exceptions, a `ProviderCallError`, or any other error. -/
inductive Thrown
  | ai (code : AiErrorCode) (message : String) (httpStatus : Nat)
  | billing (error : Billing.TxError)
  | http (message : String) (status : Nat)
  | provider (kind : ProviderFailureKind) (message : String)
  | error (message : String)
  deriving DecidableEq

structure NormalizedUsage where
  inputTokens : Int
  outputTokens : Int
  reasoningTokens : Int
  cacheReadTokens : Int
  cacheWriteTokens : Int
  deriving DecidableEq

structure PriceVersionQuote where
  inputMicroRubPerMillion : Int
  outputMicroRubPerMillion : Int
  cacheReadMicroRubPerMillion : Option Int
  cacheWriteMicroRubPerMillion : Option Int
  input : 0 ≤ inputMicroRubPerMillion
  output : 0 ≤ outputMicroRubPerMillion
  cacheRead : 0 ≤ cacheReadMicroRubPerMillion.getD 0
  cacheWrite : 0 ≤ cacheWriteMicroRubPerMillion.getD 0

def TOKENS_PER_MILLION : Int := 1000000

def tokenCostMicroRub (tokens priceMicroRubPerMillion : Int) : Except Thrown Int :=
  if tokens < 0 ∨ priceMicroRubPerMillion < 0 then
    .error (.ai .PROVIDER_USAGE_INVALID "Token cost inputs must be non-negative" 500)
  else if tokens = 0 ∨ priceMicroRubPerMillion = 0 then .ok 0
  else .ok ((tokens * priceMicroRubPerMillion + TOKENS_PER_MILLION - 1) / TOKENS_PER_MILLION)

def applySafetyMargin (costMicroRub safetyBps : Int) : Except Thrown Int :=
  if costMicroRub < 0 ∨ safetyBps < 0 then
    .error (.ai .PROVIDER_USAGE_INVALID "Safety margin inputs must be non-negative" 500)
  else .ok ((costMicroRub * (10000 + safetyBps) + 9999) / 10000)

/-- The cost of cached tokens: nothing where there are none or they have no price. -/
def cacheCost (tokens : Int) (price : Option Int) : Except Thrown Int :=
  if tokens > 0 then tokenCostMicroRub tokens (price.getD 0) else .ok 0

def providerCostFromUsage (usage : NormalizedUsage) (price : PriceVersionQuote) : Except Thrown Int :=
  let uncachedInput := usage.inputTokens - usage.cacheReadTokens
  if uncachedInput < 0 then
    .error (.ai .PROVIDER_USAGE_INVALID "cacheReadTokens cannot exceed inputTokens" 500)
  else do
    let input ← tokenCostMicroRub uncachedInput price.inputMicroRubPerMillion
    let output ← tokenCostMicroRub usage.outputTokens price.outputMicroRubPerMillion
    let read ← cacheCost usage.cacheReadTokens price.cacheReadMicroRubPerMillion
    let write ← cacheCost usage.cacheWriteTokens price.cacheWriteMicroRubPerMillion
    return input + output + read + write

def estimateReservationMicroRub (estimatedInputTokens maxOutputTokens : Int) (price : PriceVersionQuote)
    (safetyBps : Int) : Except Thrown Int := do
  let cacheReadPrice := price.cacheReadMicroRubPerMillion.getD 0
  let cacheWritePrice := price.cacheWriteMicroRubPerMillion.getD 0
  let baseInputPrice := if price.inputMicroRubPerMillion > cacheReadPrice then price.inputMicroRubPerMillion
    else cacheReadPrice
  let input ← tokenCostMicroRub estimatedInputTokens (baseInputPrice + cacheWritePrice)
  let output ← tokenCostMicroRub maxOutputTokens price.outputMicroRubPerMillion
  let reserved ← applySafetyMargin (input + output) safetyBps
  return if reserved < 1 then 1 else reserved

theorem tokenCost_ok (tokens price : Int) (h : 0 ≤ tokens) (h' : 0 ≤ price) :
    ∃ cost, tokenCostMicroRub tokens price = .ok cost ∧ 0 ≤ cost := by
  unfold tokenCostMicroRub TOKENS_PER_MILLION
  rw [if_neg (by omega)]
  split
  · exact ⟨0, rfl, by omega⟩
  · refine ⟨_, rfl, ediv_nonneg ?_ (by omega)⟩
    have := mul_nonneg h h'
    omega

theorem tokenCost_nonneg {tokens price cost : Int} (h : tokenCostMicroRub tokens price = .ok cost) : 0 ≤ cost := by
  by_cases signs : tokens < 0 ∨ price < 0
  · rw [tokenCostMicroRub, if_pos signs] at h
    cases h
  · obtain ⟨cost', same, nonneg⟩ := tokenCost_ok tokens price (by omega) (by omega)
    rw [h] at same
    cases same
    exact nonneg

theorem cacheCost_nonneg {tokens cost : Int} {price : Option Int} (h : cacheCost tokens price = .ok cost) : 0 ≤ cost := by
  unfold cacheCost at h
  split at h
  · exact tokenCost_nonneg h
  · cases h
    exact le_refl 0

theorem providerCost_nonneg {usage : NormalizedUsage} {price : PriceVersionQuote} {cost : Int}
    (h : providerCostFromUsage usage price = .ok cost) : 0 ≤ cost := by
  unfold providerCostFromUsage at h
  simp only at h
  split at h
  · cases h
  · simp only [bind, Except.bind, pure, Except.pure] at h
    split at h
    · cases h
    rename_i input okInput
    split at h
    · cases h
    rename_i output okOutput
    split at h
    · cases h
    rename_i read okRead
    split at h
    · cases h
    rename_i write okWrite
    cases h
    have := tokenCost_nonneg okInput
    have := tokenCost_nonneg okOutput
    have := cacheCost_nonneg okRead
    have := cacheCost_nonneg okWrite
    omega

/-- An estimate is never refused, and never free. -/
theorem estimateReservation_ok {inputTokens outputTokens safetyBps : Int} (price : PriceVersionQuote)
    (input : 0 ≤ inputTokens) (output : 0 ≤ outputTokens) (safety : 0 ≤ safetyBps) :
    ∃ cost, estimateReservationMicroRub inputTokens outputTokens price safetyBps = .ok cost ∧ 1 ≤ cost := by
  have base : 0 ≤ (if price.inputMicroRubPerMillion > price.cacheReadMicroRubPerMillion.getD 0 then
      price.inputMicroRubPerMillion else price.cacheReadMicroRubPerMillion.getD 0) +
      price.cacheWriteMicroRubPerMillion.getD 0 := by
    have := price.input
    have := price.cacheWrite
    split <;> omega
  obtain ⟨a, ha, _⟩ := tokenCost_ok _ _ input base
  obtain ⟨b, hb, _⟩ := tokenCost_ok _ _ output price.output
  have margin : applySafetyMargin (a + b) safetyBps = .ok (((a + b) * (10000 + safetyBps) + 9999) / 10000) := by
    rw [applySafetyMargin, if_neg (by omega)]
  simp only [estimateReservationMicroRub, ha, hb, margin, bind, Except.bind, pure, Except.pure]
  exact ⟨_, rfl, by split <;> omega⟩

inductive Role | USER | ASSISTANT
  deriving DecidableEq

/-- A message for the provider; text chat sends no tool calls and no tools. -/
structure ProviderChatMessage where
  role : Role
  content : String

def MESSAGE_OVERHEAD_BYTES : Nat := 24

def PROVIDER_REQUEST_FIXED_OVERHEAD_TOKENS : Nat := 4096

def PROVIDER_REQUEST_ITEM_OVERHEAD_TOKENS : Nat := 1024

def serializeBudgetMessage (message : ProviderChatMessage) : Js.Json :=
  .object [("role", .string (if message.role = .ASSISTANT then "assistant" else "user")),
    ("content", .string message.content)]

def estimateProviderRequestInputTokens (messages : List ProviderChatMessage) : Nat :=
  let wireShape := Js.Json.object [("messages", .array (messages.map serializeBudgetMessage))]
  let serializedBytes := wireShape.stringify.utf8ByteSize
  max 1 (serializedBytes + PROVIDER_REQUEST_FIXED_OVERHEAD_TOKENS +
    messages.length * PROVIDER_REQUEST_ITEM_OVERHEAD_TOKENS)

def assertMessageSize (content : String) (maxBytes : Nat) : Except Thrown Unit :=
  if content.utf8ByteSize > maxBytes then
    .error (.ai .MESSAGE_TOO_LARGE "Message exceeds the configured size limit" 400)
  else .ok ()

/-- The latest messages that fit, the last one whatever its size. -/
def selectContextMessages (messages : List ProviderChatMessage) (maxContextBytes : Nat) : List ProviderChatMessage :=
  go messages.reverse 0 []
where
  go : List ProviderChatMessage → Nat → List ProviderChatMessage → List ProviderChatMessage
    | [], _, selected => selected
    | message :: rest, used, selected =>
      let size := message.content.utf8ByteSize + MESSAGE_OVERHEAD_BYTES
      if selected ≠ [] ∧ used + size > maxContextBytes then selected
      else go rest (used + size) (message :: selected)

inductive AiExecutionBudgetProfileName | SHORT | STANDARD | LONG
  deriving DecidableEq

def AiExecutionBudgetProfileName.text : AiExecutionBudgetProfileName → String
  | .SHORT => "SHORT"
  | .STANDARD => "STANDARD"
  | .LONG => "LONG"

structure AiExecutionBudgetProfile where
  preferredOutputTokens : Int
  minimumOutputTokens : Int

def DEFAULT_AI_EXECUTION_BUDGET_PROFILES : AiExecutionBudgetProfileName → AiExecutionBudgetProfile
  | .SHORT => ⟨512, 128⟩
  | .STANDARD => ⟨2048, 768⟩
  | .LONG => ⟨4096, 2048⟩

structure FundedAiExecutionBudget where
  profile : AiExecutionBudgetProfileName
  preferredOutputTokens : Int
  minimumOutputTokens : Int
  selectedOutputTokens : Int
  estimatedCostMicroRub : Int
  deriving DecidableEq

inductive AiExecutionBudgetResult
  | FUNDED (budget : FundedAiExecutionBudget)
  | INSUFFICIENT_USAGE
  | REQUEST_COST_LIMIT
  deriving DecidableEq

structure BudgetInput where
  profile : AiExecutionBudgetProfileName
  profiles : AiExecutionBudgetProfileName → AiExecutionBudgetProfile
  modelMaxOutputTokens : Int
  estimatedInputTokens : Int
  availableMicroRub : Int
  maxReservationMicroRub : Int
  price : PriceVersionQuote
  safetyBps : Int

def assertPositiveInteger (value : Int) (field : String) : Except Thrown Unit :=
  if value ≤ 0 then .error (.error (field ++ " must be a positive integer")) else .ok ()

def assertNonNegativeInteger (value : Int) (field : String) : Except Thrown Unit :=
  if value < 0 then .error (.error (field ++ " must be a non-negative integer")) else .ok ()

def validateProfile (name : AiExecutionBudgetProfileName) (profile : AiExecutionBudgetProfile) : Except Thrown Unit := do
  assertPositiveInteger profile.minimumOutputTokens (name.text ++ ".minimumOutputTokens")
  assertPositiveInteger profile.preferredOutputTokens (name.text ++ ".preferredOutputTokens")
  if profile.minimumOutputTokens > profile.preferredOutputTokens then
    .error (.error (name.text ++ ".minimumOutputTokens must not exceed preferredOutputTokens"))
  else .ok ()

def BudgetInput.reservationCost (input : BudgetInput) (maxOutputTokens : Int) : Except Thrown Int :=
  estimateReservationMicroRub input.estimatedInputTokens maxOutputTokens input.price input.safetyBps

/-- The bisection for the largest output that the ceiling pays for. -/
def BudgetInput.bisect (input : BudgetInput) (spendCeiling low high selectedOutputTokens selectedCost : Int) :
    Except Thrown (Int × Int) :=
  if low ≤ high then
    let candidate := low + (high - low) / 2
    match input.reservationCost candidate with
    | .error e => .error e
    | .ok candidateCost =>
      if candidateCost ≤ spendCeiling then
        input.bisect spendCeiling (candidate + 1) high candidate candidateCost
      else input.bisect spendCeiling low (candidate - 1) selectedOutputTokens selectedCost
  else .ok (selectedOutputTokens, selectedCost)
termination_by (high + 1 - low).toNat

def resolveAiExecutionBudget (input : BudgetInput) : Except Thrown AiExecutionBudgetResult := do
  assertPositiveInteger input.modelMaxOutputTokens "modelMaxOutputTokens"
  assertNonNegativeInteger input.estimatedInputTokens "estimatedInputTokens"
  if input.maxReservationMicroRub ≤ 0 then return .REQUEST_COST_LIMIT
  else if input.availableMicroRub ≤ 0 then return .INSUFFICIENT_USAGE
  else
    let configured := input.profiles input.profile
    validateProfile input.profile configured
    let preferredOutputTokens := min configured.preferredOutputTokens input.modelMaxOutputTokens
    let minimumOutputTokens := min configured.minimumOutputTokens preferredOutputTokens
    let minimumCost ← input.reservationCost minimumOutputTokens
    if minimumCost > input.maxReservationMicroRub then return .REQUEST_COST_LIMIT
    else if minimumCost > input.availableMicroRub then return .INSUFFICIENT_USAGE
    else
      let spendCeiling := if input.availableMicroRub < input.maxReservationMicroRub then input.availableMicroRub
        else input.maxReservationMicroRub
      let preferredCost ← input.reservationCost preferredOutputTokens
      if preferredCost ≤ spendCeiling then
        return .FUNDED ⟨input.profile, preferredOutputTokens, minimumOutputTokens, preferredOutputTokens, preferredCost⟩
      else
        let selected ← input.bisect spendCeiling minimumOutputTokens preferredOutputTokens minimumOutputTokens minimumCost
        return .FUNDED ⟨input.profile, preferredOutputTokens, minimumOutputTokens, selected.1, selected.2⟩

/-- A choice of output: between the bounds, and at a cost that the ceiling pays for. -/
structure BudgetInput.Affords (input : BudgetInput) (spendCeiling low high : Int) (choice : Int × Int) : Prop where
  bounds : low ≤ choice.1 ∧ choice.1 ≤ high
  cost : input.reservationCost choice.1 = .ok choice.2
  within : choice.2 ≤ spendCeiling

variable {input : BudgetInput}

theorem BudgetInput.cost_ok (tokens : 0 ≤ input.estimatedInputTokens) (safety : 0 ≤ input.safetyBps) (output : Int)
    (h : 0 ≤ output) : ∃ cost, input.reservationCost output = .ok cost ∧ 1 ≤ cost :=
  estimateReservation_ok input.price tokens h safety

/-- The bisection ends with a choice that the ceiling pays for, if it starts from one. -/
theorem BudgetInput.bisect_affords (tokens : 0 ≤ input.estimatedInputTokens) (safety : 0 ≤ input.safetyBps)
    {ceiling first last low high : Int} {choice : Int × Int} (positive : 0 ≤ low) (lower : first ≤ low)
    (upper : high ≤ last) (start : input.Affords ceiling first last choice) :
    ∃ found, input.bisect ceiling low high choice.1 choice.2 = .ok found ∧ input.Affords ceiling first last found := by
  obtain ⟨selected, cost⟩ := choice
  fun_induction BudgetInput.bisect input ceiling low high selected cost with
  | case1 low high selected cost inside candidate e failed =>
    obtain ⟨cost', ok, -⟩ := cost_ok tokens safety candidate (by omega)
    rw [ok] at failed
    cases failed
  | case2 low high selected cost inside candidate candidateCost ok fits ih =>
    exact ih (by omega) (by omega) upper ⟨⟨by omega, by omega⟩, ok, fits⟩
  | case3 low high selected cost inside candidate candidateCost ok past ih =>
    exact ih positive lower (by omega) start
  | case4 low high selected cost outside => exact ⟨_, rfl, start⟩

/-- Inputs that the checks of the budget accept. -/
structure BudgetInput.Valid (input : BudgetInput) : Prop where
  model : 0 < input.modelMaxOutputTokens
  tokens : 0 ≤ input.estimatedInputTokens
  safety : 0 ≤ input.safetyBps
  minimum : 0 < (input.profiles input.profile).minimumOutputTokens
  ordered : (input.profiles input.profile).minimumOutputTokens ≤ (input.profiles input.profile).preferredOutputTokens

namespace BudgetInput
variable (input : BudgetInput)

def preferred : Int := min (input.profiles input.profile).preferredOutputTokens input.modelMaxOutputTokens

def minimum : Int := min (input.profiles input.profile).minimumOutputTokens input.preferred

/-- What can be spent on the request. -/
def ceiling : Int := min input.availableMicroRub input.maxReservationMicroRub

variable {input}

theorem Valid.bounds (valid : input.Valid) : 0 < input.minimum ∧ input.minimum ≤ input.preferred := by
  have := valid.model
  have := valid.minimum
  have := valid.ordered
  unfold BudgetInput.minimum BudgetInput.preferred
  omega

end BudgetInput

/-- What is resolved on valid inputs, where the checks pass. -/
theorem resolveAiExecutionBudget_eq (valid : input.Valid) {minimumCost preferredCost : Int}
    (cheapest : input.reservationCost input.minimum = .ok minimumCost)
    (dearest : input.reservationCost input.preferred = .ok preferredCost) : resolveAiExecutionBudget input =
      if input.maxReservationMicroRub ≤ 0 then .ok .REQUEST_COST_LIMIT
      else if input.availableMicroRub ≤ 0 then .ok .INSUFFICIENT_USAGE
      else if minimumCost > input.maxReservationMicroRub then .ok .REQUEST_COST_LIMIT
      else if minimumCost > input.availableMicroRub then .ok .INSUFFICIENT_USAGE
      else if preferredCost ≤ input.ceiling then
        .ok (.FUNDED ⟨input.profile, input.preferred, input.minimum, input.preferred, preferredCost⟩)
      else (input.bisect input.ceiling input.minimum input.preferred input.minimum minimumCost).map fun found =>
        .FUNDED ⟨input.profile, input.preferred, input.minimum, found.1, found.2⟩ := by
  have model : assertPositiveInteger input.modelMaxOutputTokens "modelMaxOutputTokens" = .ok () :=
    if_neg (by have := valid.model; omega)
  have tokens : assertNonNegativeInteger input.estimatedInputTokens "estimatedInputTokens" = .ok () :=
    if_neg (by have := valid.tokens; omega)
  have profile : validateProfile input.profile (input.profiles input.profile) = .ok () := by
    have := valid.minimum
    have := valid.ordered
    simp only [validateProfile, assertPositiveInteger, bind, Except.bind]
    rw [if_neg (by omega), if_neg (by omega)]
    exact if_neg (by omega)
  have ceiling : (if input.availableMicroRub < input.maxReservationMicroRub then input.availableMicroRub
      else input.maxReservationMicroRub) = input.ceiling := by
    unfold BudgetInput.ceiling
    split <;> omega
  rw [BudgetInput.minimum, BudgetInput.preferred] at cheapest
  rw [BudgetInput.preferred] at dearest
  unfold resolveAiExecutionBudget
  simp only [model, tokens, profile, ceiling, cheapest, dearest, bind, Except.bind, pure, Except.pure,
    BudgetInput.minimum, BudgetInput.preferred]
  all_goals first
    | rfl
    | simp_all

/-- On valid inputs a budget is resolved; a funded one costs something, and no
more than the user has and a request may reserve. -/
theorem resolveAiExecutionBudget_ok (valid : input.Valid) :
    ∃ result, resolveAiExecutionBudget input = .ok result ∧ ∀ budget, result = .FUNDED budget →
      input.Affords (min input.availableMicroRub input.maxReservationMicroRub) budget.minimumOutputTokens
        budget.preferredOutputTokens (budget.selectedOutputTokens, budget.estimatedCostMicroRub) ∧
      1 ≤ budget.estimatedCostMicroRub := by
  obtain ⟨positive, below⟩ := valid.bounds
  obtain ⟨minimumCost, cheapest, atLeast⟩ := BudgetInput.cost_ok valid.tokens valid.safety input.minimum (by omega)
  obtain ⟨preferredCost, dearest, _⟩ := BudgetInput.cost_ok valid.tokens valid.safety input.preferred (by omega)
  rw [resolveAiExecutionBudget_eq valid cheapest dearest]
  iterate 4
    split
    · exact ⟨_, rfl, by simp⟩
  split
  · refine ⟨_, rfl, ?_⟩
    rintro budget ⟨⟩
    exact ⟨⟨⟨below, le_refl _⟩, dearest, by assumption⟩, by assumption⟩
  · have start : input.Affords input.ceiling input.minimum input.preferred (input.minimum, minimumCost) :=
      ⟨⟨le_refl _, below⟩, cheapest, by unfold BudgetInput.ceiling; omega⟩
    obtain ⟨found, bisected, affords⟩ := BudgetInput.bisect_affords valid.tokens valid.safety (by omega)
      (le_refl _) (le_refl _) start
    rw [bisected]
    refine ⟨_, rfl, ?_⟩
    rintro budget ⟨⟩
    obtain ⟨cost, same, positive⟩ := BudgetInput.cost_ok valid.tokens valid.safety found.1
      (by have := affords.bounds; omega)
    refine ⟨affords, ?_⟩
    have agree := affords.cost
    rw [same] at agree
    cases agree
    exact positive

end Vimla.TextChat
