import Vimla.Context.Accounts

/-!
# What a packing leaves of a context window

`ContextBudgetService.resolve` takes the reserves off the window of a model, and
for an automatic choice off the smallest window that can be chosen, but never
gives less than 512 tokens.
-/

namespace Vimla.Context.Packing

open Js List

structure AiModel where
  slug : String
  active : Bool
  visible : Bool
  contextWindowTokens : Int
  maxOutputTokens : Int

structure ResolveContextBudgetInput where
  targetKind : ContextInvocationTargetKind
  targetModelSlug : Option String

structure ContextBudgetDefaults where
  internalContextWindowTokens : Option Int := none
  internalOutputReserveTokens : Option Int := none
  externalFallbackContextWindowTokens : Option Int := none
  externalFallbackOutputReserveTokens : Option Int := none
  systemToolReserveTokens : Option Int := none
  artifactReserveTokens : Option Int := none
  safetyMarginRatio : Option Rat := none
  compactedStateUtilizationRatio : Option Rat := none

def DEFAULT_INTERNAL_CONTEXT_WINDOW : Int := 32768
def DEFAULT_INTERNAL_OUTPUT_RESERVE : Int := 4096
def DEFAULT_EXTERNAL_CONTEXT_WINDOW : Int := 16384
def DEFAULT_EXTERNAL_OUTPUT_RESERVE : Int := 4096
def DEFAULT_SYSTEM_TOOL_RESERVE : Int := 2048
def DEFAULT_ARTIFACT_RESERVE : Int := 4096
def DEFAULT_SAFETY_MARGIN_RATIO : Rat := 8 / 100
def DEFAULT_COMPACTED_STATE_UTILIZATION_RATIO : Rat := 8 / 10

/-- `orderBy: [{ contextWindowTokens: "asc" }, { maxOutputTokens: "desc" }]`. -/
def compareModels (left right : AiModel) : Ordering :=
  (compare left.contextWindowTokens right.contextWindowTokens).then (compare right.maxOutputTokens left.maxOutputTokens)

def resolveModelBudget (catalog : List AiModel) (input : ResolveContextBudgetInput) : Option AiModel :=
  match input.targetKind, input.targetModelSlug.filter (· ≠ "") with
  | .AI_MODEL, some slug => catalog.find? (·.slug = slug)
  | .AI_AUTO, _ => (sort compareModels (catalog.filter fun model => model.active && model.visible)).head?
  | _, _ => none

def isExternalTarget (targetKind : ContextInvocationTargetKind) : Bool := isExternalModelTarget targetKind

section
variable (R : Runtime) (defaults : ContextBudgetDefaults) (catalog : List AiModel) (input : ResolveContextBudgetInput)

def resolve : ContextBudget :=
  let model := resolveModelBudget catalog input
  let contextWindowTokens : Int :=
    match model with
    | some model => model.contextWindowTokens
    | none =>
      if isExternalTarget input.targetKind then
        defaults.externalFallbackContextWindowTokens.getD DEFAULT_EXTERNAL_CONTEXT_WINDOW
      else defaults.internalContextWindowTokens.getD DEFAULT_INTERNAL_CONTEXT_WINDOW
  let outputReserveTokens : Int :=
    match model with
    | some model => model.maxOutputTokens
    | none =>
      if isExternalTarget input.targetKind then
        defaults.externalFallbackOutputReserveTokens.getD DEFAULT_EXTERNAL_OUTPUT_RESERVE
      else defaults.internalOutputReserveTokens.getD DEFAULT_INTERNAL_OUTPUT_RESERVE
  let systemToolReserveTokens := defaults.systemToolReserveTokens.getD DEFAULT_SYSTEM_TOOL_RESERVE
  let artifactReserveTokens := defaults.artifactReserveTokens.getD DEFAULT_ARTIFACT_RESERVE
  let safetyMarginRatio := defaults.safetyMarginRatio.getD DEFAULT_SAFETY_MARGIN_RATIO
  let safetyMarginTokens := max 1024 ⌊R.times contextWindowTokens safetyMarginRatio⌋
  let effectiveHistoryBudgetTokens :=
    (max 512
      (contextWindowTokens - outputReserveTokens - systemToolReserveTokens - artifactReserveTokens - safetyMarginTokens)).toNat
  let compactedStateUtilizationRatio := defaults.compactedStateUtilizationRatio.getD DEFAULT_COMPACTED_STATE_UTILIZATION_RATIO
  {
    contextWindowTokens := contextWindowTokens
    outputReserveTokens := outputReserveTokens
    systemToolReserveTokens := systemToolReserveTokens
    artifactReserveTokens := artifactReserveTokens
    safetyMarginTokens := safetyMarginTokens
    effectiveHistoryBudgetTokens := effectiveHistoryBudgetTokens
    compactedStateTriggerTokens := max 1 ⌊R.times effectiveHistoryBudgetTokens compactedStateUtilizationRatio⌋
  }

end

/-- The tokens that are kept for other things than context. -/
def ContextBudget.reserved (budget : ContextBudget) : Int :=
  budget.outputReserveTokens + budget.systemToolReserveTokens + budget.artifactReserveTokens + budget.safetyMarginTokens

/-- The models that may serve a target: the named one, or every active visible one. -/
def MayServe (catalog : List AiModel) (input : ResolveContextBudgetInput) (model : AiModel) : Prop :=
  model ∈ catalog ∧
    match input.targetKind with
    | .AI_MODEL => input.targetModelSlug = some model.slug ∧ model.slug ≠ ""
    | .AI_AUTO => model.active = true ∧ model.visible = true
    | _ => False

variable {R : Runtime} {defaults : ContextBudgetDefaults} {catalog : List AiModel} {input : ResolveContextBudgetInput} {model : AiModel}

/-- The model whose window is divided may serve, and no model that may serve has a smaller window. -/
theorem resolveModelBudget_least (slugs : (catalog.map (·.slug)).Nodup) (serves : MayServe catalog input model) :
    ∃ least, resolveModelBudget catalog input = some least ∧ MayServe catalog input least ∧
      least.contextWindowTokens ≤ model.contextWindowTokens := by
  obtain ⟨kind, slug⟩ := input
  obtain ⟨mem, serves⟩ := serves
  cases kind with
  | AI_MODEL =>
    obtain ⟨rfl, named⟩ := serves
    have named' : (some model.slug).filter (fun slug => decide (slug ≠ "")) = some model.slug := by simp [named]
    cases found : catalog.find? (·.slug = model.slug) with
    | none =>
      have other := find?_eq_none.1 found model mem
      simp at other
    | some row =>
      have slug : row.slug = model.slug := by simpa using find?_some found
      obtain rfl := inj_on_of_nodup_map slugs (mem_of_find?_eq_some found) mem slug
      refine ⟨row, ?_, ⟨mem, rfl, named⟩, Int.le_refl _⟩
      simp only [resolveModelBudget, named', found]
  | AI_AUTO =>
    have listed : model ∈ catalog.filter fun model => model.active && model.visible :=
      mem_filter.2 ⟨mem, by simpa using serves⟩
    cases head : (sort compareModels (catalog.filter fun model => model.active && model.visible)).head? with
    | none =>
      rw [head?_eq_none_iff] at head
      rw [← mem_sort, head] at listed
      cases listed
    | some first =>
      have ⟨chosen, least⟩ := @sort_head_key _ _ _ (fun a b : AiModel => a.contextWindowTokens ≤ b.contextWindowTokens)
        (fun _ => Int.le_refl _) (fun _ _ _ => Int.le_trans) (fun _ _ => isLE_then.1) (fun _ _ => isLE_then.2) _ head
      rw [mem_filter, Bool.and_eq_true] at chosen
      exact ⟨first, head, chosen, least model listed⟩
  | _ => cases serves

theorem resolve_eq {least : AiModel} (found : resolveModelBudget catalog input = some least) :
    (resolve R defaults catalog input).contextWindowTokens = least.contextWindowTokens ∧
      (resolve R defaults catalog input).outputReserveTokens = least.maxOutputTokens := by
  unfold resolve
  rw [found]
  exact ⟨rfl, rfl⟩

theorem effectiveHistoryBudgetTokens_eq (R : Runtime) (defaults : ContextBudgetDefaults) (catalog : List AiModel)
    (input : ResolveContextBudgetInput) : ((resolve R defaults catalog input).effectiveHistoryBudgetTokens : Int) =
      max 512 ((resolve R defaults catalog input).contextWindowTokens - (resolve R defaults catalog input).reserved) := by
  unfold ContextBudget.reserved resolve
  dsimp only
  omega

theorem packContextItems_within (R : Runtime) (input : PackContextItemsInput) :
    tokens (packContextItems R input).selections ≤ input.budget.effectiveHistoryBudgetTokens := by
  have sound := @selectAll_sound R input.budget.effectiveHistoryBudgetTokens (input.sourceCap R) (input.candidates R)
  have perm : (packContextItems R input).selections.Perm (input.totals R).selected := sort_perm _ _
  rw [tokens, (perm.map _).sum_eq]
  exact Nat.le_trans (Nat.le_of_eq sound.used.symm) sound.fits

/-- Where the divided window leaves 512 tokens beside the reserves, every packing fits every model that may
serve; where it does not, 512 tokens are given all the same. -/
theorem packing_fits (R : Runtime) (defaults : ContextBudgetDefaults) (catalog : List AiModel) (target : ResolveContextBudgetInput)
    (slugs : (catalog.map (·.slug)).Nodup) (model : AiModel) (serves : MayServe catalog target model) :
    let budget := resolve R defaults catalog target
    (∃ least, MayServe catalog target least ∧ budget.contextWindowTokens = least.contextWindowTokens ∧
      budget.outputReserveTokens = least.maxOutputTokens) ∧
    (512 ≤ budget.contextWindowTokens - budget.reserved → ∀ input : PackContextItemsInput, input.budget = budget →
      tokens (packContextItems R input).selections + budget.reserved ≤ model.contextWindowTokens) ∧
    (budget.contextWindowTokens - budget.reserved < 512 → budget.effectiveHistoryBudgetTokens = 512) := by
  obtain ⟨least, found, able, smallest⟩ := resolveModelBudget_least slugs serves
  obtain ⟨window, output⟩ := @resolve_eq R defaults catalog target least found
  have effective := effectiveHistoryBudgetTokens_eq R defaults catalog target
  refine ⟨⟨least, able, window, output⟩, ?_, ?_⟩
  · intro room input same
    have within := packContextItems_within R input
    rw [same] at within
    omega
  · intro short
    omega

def modelOf (contextWindowTokens maxOutputTokens : Int) : AiModel := ⟨"mini", true, true, contextWindowTokens, maxOutputTokens⟩

/-- One message of as many tokens as the smallest budget. -/
def oneMessage (budget : ContextBudget) : PackContextItemsInput where
  items := [sized "message" 1 .USER_MESSAGE ⟨"512", some 512, true⟩]
  targetKind := .AI_AUTO
  budget := budget
  maxSourceShare := none

theorem packing_overflows_window :
    let budget := resolve plain {} [modelOf 8192 4096] ⟨.AI_AUTO, none⟩
    MayServe [modelOf 8192 4096] ⟨.AI_AUTO, none⟩ (modelOf 8192 4096) ∧
      tokens (packContextItems plain (oneMessage budget)).selections = 512 ∧
      8192 < tokens (packContextItems plain (oneMessage budget)).selections + budget.reserved :=
  ⟨⟨mem_singleton_self _, rfl, rfl⟩, by decide +kernel, by decide +kernel⟩

theorem packing_fits_large :
    let budget := resolve plain {} [modelOf 131072 16384] ⟨.AI_MODEL, some "mini"⟩
    tokens (packContextItems plain (oneMessage budget)).selections + budget.reserved ≤ 131072 :=
  (packing_fits plain {} [modelOf 131072 16384] ⟨.AI_MODEL, some "mini"⟩ (by decide) (modelOf 131072 16384)
    ⟨mem_singleton_self _, rfl, by decide⟩).2.1 (by decide +kernel) _ rfl

end Vimla.Context.Packing
