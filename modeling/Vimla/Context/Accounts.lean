import Vimla.Context.Packing
import Vimla.Lib.Joined

/-!
# The accounts of a packing

Where every item of the input ends: selected, or excluded for a reason. An item
has a second reason only if the first pass refused it for the share of its group
and the second pass finds the budget taken.
-/

namespace Vimla.Context.Packing

open Js List

variable {R : Runtime} {B C : Nat} {input : PackContextItemsInput} {item : ContextSnapshotItemView}
  {items : List ContextSnapshotItemView} {e : ContextPackingExclusion}

def ContextPackingExclusion.key (e : ContextPackingExclusion) : String := e.item.id ++ ":" ++ e.reason.text

theorem reason_text (reason : ContextPackingExclusionReason) : ':' ∉ reason.text.toList := by
  cases reason <;> decide

theorem reason_injective : ∀ reason reason' : ContextPackingExclusionReason, reason.text.toList = reason'.text.toList →
    reason = reason' := by
  intro reason reason' same
  cases reason <;> cases reason' <;> first | rfl | exact absurd same (by decide)

variable {e' : ContextPackingExclusion}

theorem key_injective (told : Told items) (mem : e.item ∈ items) (mem' : e'.item ∈ items)
    (same : e.key = e'.key) : e = e' := by
  obtain ⟨i, reason⟩ := e
  obtain ⟨i', reason'⟩ := e'
  have texts := congrArg String.toList same
  simp only [ContextPackingExclusion.key, String.toList_append] at texts
  rw [show (":" : String).toList = [':'] from rfl, append_assoc, append_assoc] at texts
  obtain ⟨ids, reasons⟩ := Joined.cut_last (reason_text reason) (reason_text reason') texts
  obtain rfl := told i mem i' mem' (String.toList_injective ids)
  rw [reason_injective reason reason' reasons]

theorem dedupeExclusions_subset (exclusions : List ContextPackingExclusion) (seen : List String) :
    dedupeExclusions exclusions seen ⊆ exclusions := by
  induction exclusions generalizing seen with
  | nil => exact fun _ h => h
  | cons first exclusions ih =>
    intro e mem
    simp only [dedupeExclusions] at mem
    split at mem
    · exact mem_cons_of_mem _ (ih _ mem)
    · rcases mem_cons.1 mem with rfl | mem
      · exact mem_cons_self
      · exact mem_cons_of_mem _ (ih _ mem)

variable {exclusions : List ContextPackingExclusion}

theorem dedupeExclusions_key (seen : List String) (mem : e ∈ exclusions) :
    e.key ∈ seen ∨ ∃ e' ∈ dedupeExclusions exclusions seen, e'.key = e.key := by
  induction exclusions generalizing seen with
  | nil => cases mem
  | cons first exclusions ih =>
    simp only [dedupeExclusions]
    split
    · rename_i known
      rcases mem_cons.1 mem with rfl | mem
      · exact .inl known
      · exact ih seen mem
    · rcases mem_cons.1 mem with rfl | mem
      · exact .inr ⟨e, mem_cons_self, rfl⟩
      · rcases ih (first.key :: seen) mem with known | ⟨e', listed, same⟩
        · rcases mem_cons.1 known with same | known
          · exact .inr ⟨first, mem_cons_self, same.symm⟩
          · exact .inl known
        · exact .inr ⟨e', mem_cons_of_mem _ listed, same⟩

theorem dedupeExclusions_nodup (exclusions : List ContextPackingExclusion) (seen : List String) :
    (dedupeExclusions exclusions seen).Nodup ∧ ∀ e ∈ dedupeExclusions exclusions seen, e.key ∉ seen := by
  induction exclusions generalizing seen with
  | nil => exact ⟨nodup_nil, fun _ mem => absurd mem not_mem_nil⟩
  | cons first exclusions ih =>
    simp only [dedupeExclusions]
    split
    · exact ih seen
    · rename_i fresh
      obtain ⟨once, new⟩ := ih (first.key :: seen)
      refine ⟨nodup_cons.2 ⟨fun mem => new first mem mem_cons_self, once⟩, ?_⟩
      intro e mem
      rcases mem_cons.1 mem with rfl | mem
      · exact fresh
      · exact fun known => new e mem (mem_cons_of_mem _ known)

theorem mem_dedupeExclusions (told : Told items)
    (among : ∀ e ∈ exclusions, e.item ∈ items) : e ∈ dedupeExclusions exclusions [] ↔ e ∈ exclusions := by
  constructor
  · exact fun mem => dedupeExclusions_subset exclusions [] mem
  · intro mem
    rcases dedupeExclusions_key [] mem with known | ⟨e', listed, same⟩
    · cases known
    · have listed' := dedupeExclusions_subset exclusions [] listed
      rwa [← key_injective told (among e' listed') (among e mem) same]

theorem mem_dedupe (seen : List String) (mem : item ∈ items) :
    item ∈ (dedupe R items seen).1 ∨ ∃ e ∈ (dedupe R items seen).2, e.item = item := by
  induction items generalizing seen with
  | nil => cases mem
  | cons first items ih =>
    rw [dedupe]
    split
    · split
      · rcases mem_cons.1 mem with rfl | mem
        · exact .inr ⟨_, mem_cons_self, rfl⟩
        · rcases ih seen mem with kept | ⟨e, listed, same⟩
          · exact .inl kept
          · exact .inr ⟨e, mem_cons_of_mem _ listed, same⟩
      · rename_i key _ _
        rcases mem_cons.1 mem with rfl | mem
        · exact .inl mem_cons_self
        · exact (ih (key :: seen) mem).imp_left fun kept => mem_cons_of_mem _ kept
    · rcases mem_cons.1 mem with rfl | mem
      · exact .inl mem_cons_self
      · exact (ih seen mem).imp_left fun kept => mem_cons_of_mem _ kept

theorem dedupe_sublist (items : List ContextSnapshotItemView) (seen : List String) :
    (dedupe R items seen).1.Sublist items ∧ ((dedupe R items seen).2.map (·.item)).Sublist items := by
  induction items generalizing seen with
  | nil => simp [dedupe]
  | cons first items ih =>
    rw [dedupe]
    split
    · split
      · exact ⟨(ih seen).1.cons _, (ih seen).2.cons_cons _⟩
      · exact ⟨(ih _).1.cons_cons _, (ih _).2.cons _⟩
    · exact ⟨(ih seen).1.cons_cons _, (ih seen).2.cons _⟩

variable {seen : List String}

theorem dedupe_reason (mem : e ∈ (dedupe R items seen).2) : e.reason = .REDUNDANT_CANDIDATE := by
  induction items generalizing seen with
  | nil => cases mem
  | cons first items ih =>
    rw [dedupe] at mem
    split at mem
    · split at mem
      · rcases mem_cons.1 mem with rfl | mem
        · rfl
        · exact ih mem
      · exact ih mem
    · exact ih mem

/-- A candidate is kept or redundant, not both. -/
theorem dedupe_apart (once : items.Nodup) (mem : e ∈ (dedupe R items seen).2) :
    e.item ∉ (dedupe R items seen).1 := by
  induction items generalizing seen with
  | nil => cases mem
  | cons first items ih =>
    obtain ⟨new, once⟩ := nodup_cons.1 once
    rw [dedupe] at mem ⊢
    split at mem
    · split at mem
      · rename_i key _ known
        rw [if_pos known]
        rcases mem_cons.1 mem with rfl | mem
        · exact fun kept => new ((dedupe_sublist items seen).1.subset kept)
        · exact ih once mem
      · rename_i key _ fresh
        rw [if_neg fresh]
        intro kept
        rcases mem_cons.1 kept with same | kept
        · apply new
          rw [← same]
          exact (dedupe_sublist items _).2.subset (mem_map_of_mem mem)
        · exact ih once mem kept
    · intro kept
      rcases mem_cons.1 kept with same | kept
      · apply new
        rw [← same]
        exact (dedupe_sublist items _).2.subset (mem_map_of_mem mem)
      · exact ih once mem kept

theorem dedupe_keys (items : List ContextSnapshotItemView) (seen : List String) :
    (∀ i ∈ (dedupe R items seen).1, ∀ key ∈ semanticKey R i, key ∉ seen) ∧
      (dedupe R items seen).1.Pairwise fun i j => ∀ key ∈ semanticKey R i, key ∉ semanticKey R j := by
  induction items generalizing seen with
  | nil => simp [dedupe]
  | cons first items ih =>
    rw [dedupe]
    split
    · rename_i key same
      split
      · exact ih seen
      · rename_i fresh
        obtain ⟨other, distinct⟩ := ih (key :: seen)
        refine ⟨?_, pairwise_cons.2 ⟨?_, distinct⟩⟩
        · intro i mem key' has
          rcases mem_cons.1 mem with rfl | mem
          · rw [same] at has
            cases has
            exact fresh
          · exact fun known => other i mem key' has (mem_cons_of_mem _ known)
        · intro j mem key' has shared
          rw [same] at has
          cases has
          exact other j mem _ shared mem_cons_self
    · rename_i none
      obtain ⟨other, distinct⟩ := ih seen
      refine ⟨?_, pairwise_cons.2 ⟨?_, distinct⟩⟩
      · intro i mem key' has
        rcases mem_cons.1 mem with rfl | mem
        · rw [none] at has
          cases has
        · exact other i mem key' has
      · intro j _ key' has
        rw [none] at has
        cases has

def mandatory (deduped : List ContextSnapshotItemView) : List ContextSnapshotItemView := deduped.filter isMandatoryContextItem

def nonMandatory (deduped : List ContextSnapshotItemView) : List ContextSnapshotItemView :=
  deduped.filter fun item => !isMandatoryContextItem item

def best (R : Runtime) (deduped : List ContextSnapshotItemView) : List ContextSnapshotItemView :=
  bestPerGroup R (nonMandatory deduped) []

/-- The totals after the mandatory items. -/
def mandatoryTotals (R : Runtime) (B C : Nat) (deduped : List ContextSnapshotItemView) : Totals :=
  (mandatory deduped).foldl (attempt R B C) {}

/-- The totals after the best item of each group. -/
def bestTotals (R : Runtime) (B C : Nat) (deduped : List ContextSnapshotItemView) : Totals :=
  (best R deduped).foldl (attempt R B C) (mandatoryTotals R B C deduped)

variable {deduped : List ContextSnapshotItemView}

theorem bestPerGroup_sublist (items : List ContextSnapshotItemView) (seen : List String) :
    (bestPerGroup R items seen).Sublist items := by
  induction items generalizing seen with
  | nil => exact Sublist.refl _
  | cons first items ih =>
    rw [bestPerGroup]
    split
    · exact (ih _).cons _
    · exact (ih _).cons_cons _

theorem best_sublist (deduped : List ContextSnapshotItemView) : (best R deduped).Sublist (nonMandatory deduped) :=
  bestPerGroup_sublist _ _

theorem mem_nonMandatory : item ∈ nonMandatory deduped ↔ item ∈ deduped ∧ isMandatoryContextItem item = false := by
  rw [nonMandatory, mem_filter, Bool.not_eq_true']

theorem mem_mandatory : item ∈ mandatory deduped ↔ item ∈ deduped ∧ isMandatoryContextItem item = true := mem_filter

theorem selectAll_eq (deduped : List ContextSnapshotItemView) : selectAll R B C deduped =
    (nonMandatory deduped).foldl (attempt R B C) (bestTotals R B C deduped) := by
  have enforced (t : Totals) (items : List ContextSnapshotItemView) (none : ∀ i ∈ items, isMandatoryContextItem i = false) :
      items.foldl (trySelect R B C true) t = items.foldl (attempt R B C) t := by
    apply foldl_ext
    intro t' i mem
    rw [attempt, none i mem]
    rfl
  have free (t : Totals) : (mandatory deduped).foldl (trySelect R B C false) t = (mandatory deduped).foldl (attempt R B C) t := by
    apply foldl_ext
    intro t' i mem
    rw [attempt, (mem_mandatory.1 mem).2]
    rfl
  rw [bestTotals, mandatoryTotals, ← free, ← enforced _ (best R deduped), ← enforced _ (nonMandatory deduped)]
  · rfl
  · exact fun i mem => (mem_nonMandatory.1 mem).2
  · exact fun i mem => (mem_nonMandatory.1 ((best_sublist deduped).subset mem)).2

theorem selectAll_sound (deduped : List ContextSnapshotItemView) : (selectAll R B C deduped).Sound R B C := by
  rw [selectAll_eq]
  exact (((Totals.Sound.start R B C).attempts _).attempts _).attempts _

variable {all : List ContextSnapshotItemView}

section
variable (told : Told all) (among : deduped ⊆ all)
include told among

theorem mandatoryTotals_apart : (mandatoryTotals R B C deduped).Apart R B C all :=
  (Totals.Apart.start R B C all).attempts told fun _ mem => among (mem_mandatory.1 mem).1

theorem bestTotals_apart : (bestTotals R B C deduped).Apart R B C all :=
  (mandatoryTotals_apart told among).attempts told
    fun _ mem => among (mem_nonMandatory.1 ((best_sublist deduped).subset mem)).1

theorem selectAll_apart : (selectAll R B C deduped).Apart R B C all := by
  rw [selectAll_eq]
  exact (bestTotals_apart told among).attempts told fun _ mem => among (mem_nonMandatory.1 mem).1

end

theorem grows_selectAll (deduped : List ContextSnapshotItemView) : Grows (bestTotals R B C deduped) (selectAll R B C deduped) := by
  rw [selectAll_eq]
  exact grows_attempts _ _ _ _ _

theorem selectAll_covers (told : Told all) (among : deduped ⊆ all) (mem : item ∈ deduped) :
    (selectAll R B C deduped).Selects item ∨ (selectAll R B C deduped).Excludes item := by
  cases kind : isMandatoryContextItem item with
  | true =>
    have grows := (grows_attempts R B C (mandatoryTotals R B C deduped) (best R deduped)).trans (grows_selectAll deduped)
    rcases attempts_cover told (Totals.Apart.start R B C all) (fun _ m => among (mem_mandatory.1 m).1) (mem_mandatory.2 ⟨mem, kind⟩)
      with ⟨s, listed, same⟩ | ⟨e, listed, same⟩
    · exact .inl ⟨s, grows.selected listed, same⟩
    · exact .inr ⟨e, grows.exclusions listed, same⟩
  | false =>
    rw [selectAll_eq]
    exact attempts_cover told (bestTotals_apart told among) (fun _ m => among (mem_nonMandatory.1 m).1) (mem_nonMandatory.2 ⟨mem, kind⟩)

/-- The best item of its group is over the share of the group in the first pass and over the budget in the second. -/
def Squeezed (R : Runtime) (B C : Nat) (deduped : List ContextSnapshotItemView) (item : ContextSnapshotItemView) : Prop :=
  RefusedAt R B C (mandatoryTotals R B C deduped) (best R deduped) item .SOURCE_CONTRIBUTION_CAPPED ∧
    RefusedAt R B C (bestTotals R B C deduped) (nonMandatory deduped) item .CONTEXT_BUDGET_EXCLUDED

theorem mem_exclusions_selectAll (mem : e ∈ (selectAll R B C deduped).exclusions) :
    RefusedAt R B C {} (mandatory deduped) e.item e.reason ∨
      RefusedAt R B C (mandatoryTotals R B C deduped) (best R deduped) e.item e.reason ∨
      RefusedAt R B C (bestTotals R B C deduped) (nonMandatory deduped) e.item e.reason := by
  rw [selectAll_eq] at mem
  rcases mem_exclusions_attempts mem with mem | second
  · rcases mem_exclusions_attempts mem with mem | first
    · rcases mem_exclusions_attempts mem with mem | zeroth
      · cases mem
      · exact .inl zeroth
    · exact .inr (.inl first)
  · exact .inr (.inr second)

theorem refused_twice {reason reason' : ContextPackingExclusionReason}
    (first : RefusedAt R B C (mandatoryTotals R B C deduped) (best R deduped) item reason)
    (second : RefusedAt R B C (bestTotals R B C deduped) (nonMandatory deduped) item reason') :
    reason = reason' ∨ Squeezed R B C deduped item := by
  obtain ⟨before, after, split_, why⟩ := first
  obtain ⟨earlier, later, split', why'⟩ := second
  have grows : Grows (before.foldl (attempt R B C) (mandatoryTotals R B C deduped))
      (earlier.foldl (attempt R B C) (bestTotals R B C deduped)) := by
    apply Grows.trans _ (grows_attempts R B C _ earlier)
    rw [bestTotals, split_, foldl_append]
    exact grows_attempts R B C _ _
  rcases grows.refused_again why with again | ⟨rfl, again⟩
  · rw [why'] at again
    cases again
    cases reason with
    | CONTEXT_BUDGET_EXCLUDED => exact .inl rfl
    | SOURCE_CONTRIBUTION_CAPPED => exact .inr ⟨⟨before, after, split_, why⟩, ⟨earlier, later, split', why'⟩⟩
    | _ =>
      unfold refused refusal at why
      split at why
      · cases why
      · split at why <;> cases why
  · rw [why'] at again
    exact .inl (Option.some.inj again).symm

/-- Unless some item is squeezed, an item is refused for one reason. -/
theorem one_reason (once : deduped.Nodup) (mem : e ∈ (selectAll R B C deduped).exclusions)
    (mem' : e' ∈ (selectAll R B C deduped).exclusions) (same : e.item = e'.item) :
    e.reason = e'.reason ∨ Squeezed R B C deduped e.item := by
  have once' : (nonMandatory deduped).Nodup := once.filter _
  have free {reason : ContextPackingExclusionReason} (zeroth : RefusedAt R B C {} (mandatory deduped) e.item reason)
      (later : e.item ∈ nonMandatory deduped) : False := by
    have kind := (mem_mandatory.1 zeroth.mem).2
    rw [(mem_nonMandatory.1 later).2] at kind
    cases kind
  rcases mem_exclusions_selectAll mem with zeroth | first | second
  · rcases mem_exclusions_selectAll mem' with zeroth' | first' | second'
    · exact .inl (zeroth.unique (once.filter _) (same ▸ zeroth'))
    · exact (free zeroth (same ▸ (best_sublist deduped).subset first'.mem)).elim
    · exact (free zeroth (same ▸ second'.mem)).elim
  · rcases mem_exclusions_selectAll mem' with zeroth' | first' | second'
    · exact (free (same ▸ zeroth') ((best_sublist deduped).subset first.mem)).elim
    · exact .inl (first.unique ((best_sublist deduped).nodup once') (same ▸ first'))
    · exact refused_twice first (same ▸ second')
  · rcases mem_exclusions_selectAll mem' with zeroth' | first' | second'
    · exact (free (same ▸ zeroth') second.mem).elim
    · exact (refused_twice (same ▸ first') second).imp_left Eq.symm
    · exact .inl (second.unique once' (same ▸ second'))

/-- A squeezed item is excluded twice. -/
theorem Squeezed.excluded (told : Told all) (among : deduped ⊆ all) (once : deduped.Nodup) (squeezed : Squeezed R B C deduped item) :
    ⟨item, .SOURCE_CONTRIBUTION_CAPPED⟩ ∈ (selectAll R B C deduped).exclusions ∧
      ⟨item, .CONTEXT_BUDGET_EXCLUDED⟩ ∈ (selectAll R B C deduped).exclusions := by
  have tried := (mem_nonMandatory.1 squeezed.2.mem)
  have inBest : ∀ i ∈ best R deduped, i ∈ all := fun i m => among (mem_nonMandatory.1 ((best_sublist deduped).subset m)).1
  have inAll : ∀ i ∈ nonMandatory deduped, i ∈ all := fun i m => among (mem_nonMandatory.1 m).1
  have capped : ⟨item, .SOURCE_CONTRIBUTION_CAPPED⟩ ∈ (bestTotals R B C deduped).exclusions := by
    apply squeezed.1.excluded told (mandatoryTotals_apart told among) inBest
    rintro before ⟨after, split_⟩ ⟨s, listed, rfl⟩
    rcases mem_selected_attempts listed with listed | earlier
    · rcases mem_selected_attempts listed with listed | free
      · cases listed
      · rw [(mem_mandatory.1 free).2] at tried
        cases tried.2
    · have once' : (best R deduped).Nodup := (best_sublist deduped).nodup (once.filter _)
      rw [split_] at once'
      exact (nodup_middle.1 once').notMem (mem_append_left _ earlier)
  refine ⟨(grows_selectAll deduped).exclusions capped, ?_⟩
  rw [selectAll_eq]
  apply squeezed.2.excluded told (bestTotals_apart told among) inAll
  rintro before ⟨after, split_⟩ ⟨s, listed, same⟩
  have apart : (before.foldl (attempt R B C) (bestTotals R B C deduped)).Apart R B C all :=
    (bestTotals_apart told among).attempts told fun i m => inAll i (split_ ▸ mem_append_left _ m)
  have kept := (grows_attempts R B C (bestTotals R B C deduped) before).exclusions capped
  exact (apart.excluded _ kept).2.2 s listed (congrArg ContextSnapshotItemView.id same)

section
variable (R : Runtime) (input : PackContextItemsInput)

/-- The candidates that are neither ineligible nor redundant, in order. -/
def PackContextItemsInput.candidates : List ContextSnapshotItemView := (dedupe R (input.ranked R) []).1

/-- What a result says of its items, apart from how often an item is excluded. -/
structure Accounted (result : ContextPackingResult) : Prop where
  selected : ∀ s ∈ result.selections, s.item ∈ input.items
  excluded : ∀ e ∈ result.exclusions, e.item ∈ input.items
  covered : ∀ item ∈ input.items, (∃ s ∈ result.selections, s.item = item) ∨ ∃ e ∈ result.exclusions, e.item = item
  apart : ∀ s ∈ result.selections, ∀ e ∈ result.exclusions, s.item ≠ e.item
  once : (result.selections.map (·.item.id)).Nodup
  usedTokens : result.usedTokens = (result.selections.map (·.estimatedTokens)).sum
  fits : result.usedTokens ≤ input.budget.effectiveHistoryBudgetTokens
  share : ∀ group, ((result.selections.filter fun s => sourceGroup R s.item = group && !isMandatoryContextItem s.item).map
    (·.estimatedTokens)).sum ≤ input.sourceCap R
  current : ∀ s ∈ result.selections, (retrievalMetadata R s.item).superseded = false
  compacted : ∀ s ∈ result.selections, (retrievalMetadata R s.item).sourceKind = "L2_COMPACTED" →
    result.compactedStateRequired = true
  semantic : ∀ s ∈ result.selections, ∀ s' ∈ result.selections, ∀ key, semanticKey R s.item = some key →
    semanticKey R s'.item = some key → s = s'
  sensitive : usesModelContext input.targetKind → ∀ s ∈ result.selections, containsSensitiveData R s.item input.targetKind →
    isImmediateUserMessage R s.item

/-- Every item is selected once or excluded once. -/
def Partitioned (result : ContextPackingResult) : Prop :=
  (result.selections.map (·.item) ++ result.exclusions.map (·.item)).Perm input.items

end

theorem mem_ranked : item ∈ input.ranked R ↔ item ∈ input.items ∧ input.ineligible R item = none := by
  rw [PackContextItemsInput.ranked, mem_sort, mem_filter, decide_eq_true_eq]

theorem mem_filtered : e ∈ input.filtered R ↔ e.item ∈ input.items ∧ input.ineligible R e.item = some e.reason := by
  rw [PackContextItemsInput.filtered, mem_filterMap]
  constructor
  · rintro ⟨item, mem, same⟩
    obtain ⟨reason, why, rfl⟩ := Option.map_eq_some_iff.1 same
    exact ⟨mem, why⟩
  · rintro ⟨mem, why⟩
    exact ⟨e.item, mem, by rw [why]; rfl⟩

theorem ineligible_eq_none : input.ineligible R item = none ↔ (retrievalMetadata R item).superseded = false ∧
    ((retrievalMetadata R item).sourceKind = "L2_COMPACTED" → input.compactedStateRequired R = true) ∧
    (usesModelContext input.targetKind → containsSensitiveData R item input.targetKind → isImmediateUserMessage R item) := by
  dsimp only [PackContextItemsInput.ineligible]
  cases (retrievalMetadata R item).superseded with
  | true => simp
  | false =>
    by_cases compacted : (retrievalMetadata R item).sourceKind = "L2_COMPACTED" ∧ (!input.compactedStateRequired R) = true
    · rw [if_neg Bool.false_ne_true, if_pos compacted]
      simp_all
    · rw [if_neg Bool.false_ne_true, if_neg compacted, ite_eq_right_iff]
      simp only [reduceCtorEq, imp_false, not_and, Bool.not_eq_true', true_and]
      constructor
      · intro clean
        refine ⟨fun kind => by simpa [kind] using compacted, fun model secret => ?_⟩
        by_contra other
        exact clean model (Bool.eq_false_iff.2 other) secret
      · rintro ⟨-, clean⟩ model other secret
        rw [clean model secret] at other
        cases other

theorem candidates_subset : input.candidates R ⊆ input.items := fun _ mem =>
  (mem_ranked.1 ((dedupe_sublist _ _).1.subset mem)).1

section
variable (ids : (input.items.map (·.id)).Nodup)
include ids

theorem told_of_ids : Told input.items :=
  fun _ mem _ mem' same => inj_on_of_nodup_map ids mem mem' same

theorem ranked_nodup : (input.ranked R).Nodup :=
  (sort_perm _ _).nodup_iff.2 ((Nodup.of_map _ ids).filter _)

theorem candidates_nodup : (input.candidates R).Nodup :=
  (dedupe_sublist _ _).1.nodup (ranked_nodup ids)

end

theorem totals_apart (ids : (input.items.map (·.id)).Nodup) :
    (input.totals R).Apart R input.budget.effectiveHistoryBudgetTokens (input.sourceCap R) (input.candidates R) :=
  selectAll_apart (fun _ mem _ mem' => told_of_ids ids _ (candidates_subset mem) _ (candidates_subset mem')) fun _ mem => mem

/-- An exclusion is of a filtered, of a redundant or of a refused item. -/
theorem mem_exclusions (ids : (input.items.map (·.id)).Nodup) : e ∈ (packContextItems R input).exclusions ↔
    e ∈ input.filtered R ∨ e ∈ (dedupe R (input.ranked R) []).2 ∨ e ∈ (input.totals R).exclusions := by
  have among : ∀ e ∈ input.filtered R ++ (dedupe R (input.ranked R) []).2 ++ (input.totals R).exclusions, e.item ∈ input.items := by
    intro e mem
    rcases mem_append.1 mem with mem | refused
    · rcases mem_append.1 mem with filtered | redundant
      · exact (mem_filtered.1 filtered).1
      · exact (mem_ranked.1 ((dedupe_sublist _ _).2.subset (mem_map_of_mem redundant))).1
    · exact candidates_subset ((totals_apart ids).excluded e refused).1
  unfold packContextItems
  rw [mem_dedupeExclusions (told_of_ids ids) among, mem_append, mem_append, or_assoc]

variable {s : PackedContextSelection}

theorem mem_selections : s ∈ (packContextItems R input).selections ↔ s ∈ (input.totals R).selected :=
  mem_sort

section
variable (ids : (input.items.map (·.id)).Nodup)
include ids

theorem mem_items_of_excluded (mem : e ∈ (packContextItems R input).exclusions) :
    e.item ∈ input.items := by
  rcases (mem_exclusions ids).1 mem with filtered | redundant | refused
  · exact (mem_filtered.1 filtered).1
  · exact (mem_ranked.1 ((dedupe_sublist _ _).2.subset (mem_map_of_mem redundant))).1
  · exact candidates_subset ((totals_apart ids).excluded e refused).1

theorem covered (mem : item ∈ input.items) :
    (∃ s ∈ (packContextItems R input).selections, s.item = item) ∨ ∃ e ∈ (packContextItems R input).exclusions, e.item = item := by
  simp only [mem_exclusions ids, mem_selections]
  cases why : input.ineligible R item with
  | some reason => exact .inr ⟨⟨item, reason⟩, .inl (mem_filtered.2 ⟨mem, why⟩), rfl⟩
  | none =>
    rcases mem_dedupe [] (mem_ranked.2 ⟨mem, why⟩) with kept | ⟨e, redundant, same⟩
    · have told : Told (input.candidates R) :=
        fun _ mem _ mem' => told_of_ids ids _ (candidates_subset mem) _ (candidates_subset mem')
      rcases selectAll_covers told (fun _ mem => mem) kept with selects | ⟨e, refused, same⟩
      · exact .inl selects
      · exact .inr ⟨e, .inr (.inr refused), same⟩
    · exact .inr ⟨e, .inr (.inl redundant), same⟩

theorem apart (mem : s ∈ (packContextItems R input).selections)
    (mem' : e ∈ (packContextItems R input).exclusions) : s.item ≠ e.item := by
  intro same
  have kept := (totals_apart ids).selected s (mem_selections.1 mem)
  rw [same] at kept
  rcases (mem_exclusions ids).1 mem' with filtered | redundant | refused
  · have eligible := (mem_ranked.1 ((dedupe_sublist _ _).1.subset kept)).2
    rw [(mem_filtered.1 filtered).2] at eligible
    cases eligible
  · exact dedupe_apart (ranked_nodup ids) redundant kept
  · exact ((totals_apart ids).excluded e refused).2.2 s (mem_selections.1 mem) (congrArg ContextSnapshotItemView.id same)

theorem accounted : Accounted R input (packContextItems R input) := by
  have sound := @selectAll_sound R input.budget.effectiveHistoryBudgetTokens (input.sourceCap R) (input.candidates R)
  have perm : (packContextItems R input).selections.Perm (input.totals R).selected := sort_perm _ _
  have kept {s} (mem : s ∈ (packContextItems R input).selections) : s.item ∈ input.candidates R :=
    (totals_apart ids).selected s (mem_selections.1 mem)
  have eligible {s} (mem : s ∈ (packContextItems R input).selections) : input.ineligible R s.item = none :=
    (mem_ranked.1 ((dedupe_sublist _ _).1.subset (kept mem))).2
  refine ⟨fun s mem => candidates_subset (kept mem), fun e mem => mem_items_of_excluded ids mem, fun item mem => covered ids mem,
    fun s mem e mem' => apart ids mem mem', ?_, ?_, sound.fits, ?_, ?_, ?_, ?_, ?_⟩
  · exact (perm.map _).nodup_iff.2 sound.distinct
  · rw [(perm.map _).sum_eq]
    exact sound.used
  · intro group
    rw [((perm.filter _).map _).sum_eq]
    exact sound.share group
  · exact fun s mem => (ineligible_eq_none.1 (eligible mem)).1
  · exact fun s mem => (ineligible_eq_none.1 (eligible mem)).2.1
  · intro s mem s' mem' key has has'
    obtain ⟨-, distinct⟩ := dedupe_keys (R := R) (input.ranked R) []
    have same : s.item = s'.item := by
      by_contra different
      have symm : Std.Symm fun i j => ∀ key ∈ semanticKey R i, key ∉ semanticKey R j :=
        ⟨fun _ _ h key k k' => h key k' k⟩
      exact distinct.forall (kept mem) (kept mem') different key has has'
    have inj := inj_on_of_nodup_map ((perm.map (·.item.id)).nodup_iff.2 sound.distinct)
    exact inj mem mem' (congrArg ContextSnapshotItemView.id same)
  · exact fun model s mem => (ineligible_eq_none.1 (eligible mem)).2.2 model

theorem reasons
    (mem : e ∈ (packContextItems R input).exclusions) (mem' : e' ∈ (packContextItems R input).exclusions) (same : e.item = e'.item) :
    e.reason = e'.reason ∨ Squeezed R input.budget.effectiveHistoryBudgetTokens (input.sourceCap R) (input.candidates R) e.item := by
  have ranked {e : ContextPackingExclusion}
      (mem : e ∈ (dedupe R (input.ranked R) []).2 ∨ e ∈ (input.totals R).exclusions) : e.item ∈ input.ranked R := by
    rcases mem with redundant | refused
    · exact (dedupe_sublist _ _).2.subset (mem_map_of_mem redundant)
    · exact (dedupe_sublist _ _).1.subset ((totals_apart ids).excluded e refused).1
  have eligible {e e' : ContextPackingExclusion} (filtered : e ∈ input.filtered R)
      (mem : e'.item ∈ input.ranked R) (same : e.item = e'.item) : False := by
    have none := (mem_ranked.1 mem).2
    rw [← same, (mem_filtered.1 filtered).2] at none
    cases none
  have redundant_only {e e' : ContextPackingExclusion} (redundant : e ∈ (dedupe R (input.ranked R) []).2)
      (refused : e' ∈ (input.totals R).exclusions) (same : e.item = e'.item) : False :=
    dedupe_apart (ranked_nodup ids) redundant (same ▸ ((totals_apart ids).excluded e' refused).1)
  rcases (mem_exclusions ids).1 mem with filtered | late
  · rcases (mem_exclusions ids).1 mem' with filtered' | late'
    · have why := (mem_filtered.1 filtered).2
      rw [same, (mem_filtered.1 filtered').2] at why
      exact .inl (Option.some.inj why).symm
    · exact (eligible filtered (ranked late') same).elim
  · rcases (mem_exclusions ids).1 mem' with filtered' | late'
    · exact (eligible filtered' (ranked late) same.symm).elim
    · rcases late with redundant | refused
      · rcases late' with redundant' | refused'
        · exact .inl ((dedupe_reason redundant).trans (dedupe_reason redundant').symm)
        · exact (redundant_only redundant refused' same).elim
      · rcases late' with redundant' | refused'
        · exact (redundant_only redundant' refused same.symm).elim
        · exact one_reason (candidates_nodup ids) refused refused' same

end

/-- The selections and the exclusions partition the items unless the best item of a group is refused
for the share of its group and then finds the budget taken: such an item is reported with two reasons. -/
theorem packContextItems_accounts (R : Runtime) (input : PackContextItemsInput) (ids : (input.items.map (·.id)).Nodup) :
    Accounted R input (packContextItems R input) ∧ (Partitioned input (packContextItems R input) ↔
      ∀ item, ¬ Squeezed R input.budget.effectiveHistoryBudgetTokens (input.sourceCap R) (input.candidates R) item) := by
  have all := accounted (R := R) ids
  refine ⟨all, ?_, ?_⟩
  · intro partitioned item squeezed
    have told : Told (input.candidates R) :=
      fun _ mem _ mem' => told_of_ids ids _ (candidates_subset mem) _ (candidates_subset mem')
    obtain ⟨capped, past⟩ := squeezed.excluded told (fun _ mem => mem) (candidates_nodup ids)
    have once := (partitioned.nodup_iff.2 (Nodup.of_map _ ids)).of_append_right
    have same := inj_on_of_nodup_map once ((mem_exclusions ids).2 (.inr (.inr capped)))
      ((mem_exclusions ids).2 (.inr (.inr past))) rfl
    cases same
  · intro free
    unfold Partitioned
    rw [perm_ext_iff_of_nodup _ (Nodup.of_map _ ids)]
    · intro item
      rw [mem_append, mem_map, mem_map]
      constructor
      · rintro (⟨s, mem, rfl⟩ | ⟨e, mem, rfl⟩)
        · exact all.selected s mem
        · exact all.excluded e mem
      · exact all.covered item
    · refine nodup_append.2 ⟨?_, ?_, ?_⟩
      · apply Nodup.of_map (·.id)
        rw [map_map]
        exact all.once
      · refine (dedupeExclusions_nodup _ []).1.map_on ?_
        intro e mem e' mem' same
        obtain ⟨i, reason⟩ := e
        rcases reasons ids mem mem' same with reason | squeezed
        · cases same
          cases reason
          rfl
        · exact (free i squeezed).elim
      · rintro i selected j excluded rfl
        obtain ⟨s, mem, same⟩ := mem_map.1 selected
        obtain ⟨e, mem', same'⟩ := mem_map.1 excluded
        exact all.apart s mem e mem' (same.trans same'.symm)

/-- A runtime in which no pattern matches. -/
def plain : Runtime where
  localeCompare a b := compare a b
  toLocaleLowerCase := id
  normalizeNFKC := id
  dateParse _ := none
  value n := n.integer.getD 0
  times := (· * ·)
  contextPatterns := []
  SENSITIVE_PERSONAL_PATTERNS := []

def sized (id : String) (sequence : Int) (sourceType : ContextSourceType) (estimatedTokens : Js.Number) : ContextSnapshotItemView where
  id := id
  sequence := sequence
  sourceType := sourceType
  metadata := .object [("retrieval", .object [("estimatedTokens", .number estimatedTokens)])]

/-- Two sources, of which the larger is over its share alone and over the budget beside the other. -/
def crowded : PackContextItemsInput where
  items := [sized "memory" 1 .MEMORY ⟨"300", some 300, true⟩, sized "artifact" 2 .ARTIFACT ⟨"250", some 250, true⟩]
  targetKind := .AI_MODEL
  budget := ⟨8192, 4096, 1024, 1024, 1024, 512, 480⟩
  maxSourceShare := none

theorem packContextItems_reports_twice : ¬ Partitioned crowded (packContextItems plain crowded) := by
  intro partitioned
  have lengths := partitioned.length_eq
  have three : (packContextItems plain crowded).selections.length + (packContextItems plain crowded).exclusions.length = 3 := by
    decide +kernel
  rw [length_append, length_map, length_map, three] at lengths
  cases lengths

theorem packContextItems_accounts_crowded : Accounted plain crowded (packContextItems plain crowded) :=
  (packContextItems_accounts plain crowded (by decide)).1

end Vimla.Context.Packing
