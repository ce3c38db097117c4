import Vimla.Context.Accounts

/-!
# The order of arrival does not matter

`compareCandidates` is a lexicographic chain of preorders whose last key tells
the items apart, so the ranking does not depend on the order of the items.
Every later step starts from the ranking.
-/

namespace Vimla.Context.Packing

open Js

variable {R : Runtime} {input : PackContextItemsInput} {items : List ContextSnapshotItemView}

/-- True comes first. -/
theorem compareBoolean_eq (left right : Bool) : compareBoolean left right = compare (!left) (!right) := by
  cases left <;> cases right <;> rfl

instance compareBoolean_trans : Std.TransCmp compareBoolean := by
  rw [show compareBoolean = fun left right => compare (!left) (!right) from funext₂ compareBoolean_eq]
  exact transCmp_key Bool.not

/-- A date by its time, `none` where there is none. -/
def time (R : Runtime) (date : Option String) : Option Int := (date.filter (· ≠ "")).bind R.dateParse

/-- Later times come first and dates without a time come last, all as one class. -/
theorem compareDateDesc_eq (R : Runtime) (left right : Option String) : compareDateDesc R left right =
    (compare (time R left).isNone (time R right).isNone).then (compare ((time R right).getD 0) ((time R left).getD 0)) := by
  dsimp only [compareDateDesc, time]
  generalize (left.filter fun x => decide (x ≠ "")).bind R.dateParse = a
  generalize (right.filter fun x => decide (x ≠ "")).bind R.dateParse = b
  cases a with
  | none | some a =>
    cases b with
    | none | some b => rfl

instance compareDateDesc_trans (R : Runtime) : Std.TransCmp (compareDateDesc R) := by
  rw [funext₂ (compareDateDesc_eq R)]
  exact transCmp_then (transCmp_key fun date => (time R date).isNone) (transCmp_desc fun date => (time R date).getD 0)

instance compareCandidates_trans (R : Runtime) [Std.TransCmp R.localeCompare] : Std.TransCmp (compareCandidates R) :=
  transCmp_then (transCmp_key isMandatoryContextItem) <|
  transCmp_then (transCmp_key fun item => (retrievalMetadata R item).currentSurface) <|
  transCmp_then (transCmp_key fun item => (retrievalMetadata R item).directReference) <|
  transCmp_then (transCmp_key fun item => (retrievalMetadata R item).currentProject) <|
  transCmp_then (transCmp_desc fun item => authorityRank (retrievalMetadata R item).authority) <|
  transCmp_then (transCmp_key fun item => sourcePriority (retrievalMetadata R item).sourceKind) <|
  transCmp_then (transCmp_desc fun item => (retrievalMetadata R item).hybridScore) <|
  transCmp_then (transCmp_key fun item => !(retrievalMetadata R item).stale) <|
  transCmp_then (transCmp_key fun item => (retrievalMetadata R item).occurredAt) <|
  transCmp_then (transCmp_key ContextSnapshotItemView.sequence) (transCmp_key ContextSnapshotItemView.id)

theorem compareCandidates_eq {left right : ContextSnapshotItemView} (same : compareCandidates R left right = .eq) :
    R.localeCompare left.id right.id = .eq := by
  simp only [compareCandidates, Ordering.then_eq_eq] at same
  exact same.2.2.2.2.2.2.2.2.2.2

/-- The same items in another order. -/
def PackContextItemsInput.reorder (input : PackContextItemsInput) (items : List ContextSnapshotItemView) : PackContextItemsInput :=
  { input with items := items }

/-- Two results agree; the exclusions as a set. -/
structure SameResult (result result' : ContextPackingResult) : Prop where
  selections : result.selections = result'.selections
  usedTokens : result.usedTokens = result'.usedTokens
  rawHistoryTokens : result.rawHistoryTokens = result'.rawHistoryTokens
  compactedStateRequired : result.compactedStateRequired = result'.compactedStateRequired
  exclusions : ∀ e, e ∈ result.exclusions ↔ e ∈ result'.exclusions

theorem rawHistoryTokens_reorder (perm : input.items.Perm items) : input.rawHistoryTokens R = (input.reorder items).rawHistoryTokens R := by
  have largest : RightCommutative fun (largest : Rat) item => max largest ((retrievalMetadata R item).rawHistoryTokens.getD 0) :=
    ⟨fun a b c => max_right_comm a _ _⟩
  have selected := ((perm.filter fun item => (retrievalMetadata R item).sourceKind = "L1_RAW").map (estimateItemTokens R)).sum_eq
  have scanned := perm.foldl_eq (0 : Rat) (f := fun largest item => max largest ((retrievalMetadata R item).rawHistoryTokens.getD 0))
  unfold PackContextItemsInput.rawHistoryTokens PackContextItemsInput.reorder
  rw [selected, scanned]

theorem compactedStateRequired_reorder (perm : input.items.Perm items) :
    input.compactedStateRequired R = (input.reorder items).compactedStateRequired R := by
  unfold PackContextItemsInput.compactedStateRequired
  rw [rawHistoryTokens_reorder perm]
  rfl

theorem ineligible_reorder (perm : input.items.Perm items) (item : ContextSnapshotItemView) :
    input.ineligible R item = (input.reorder items).ineligible R item := by
  unfold PackContextItemsInput.ineligible
  rw [compactedStateRequired_reorder perm]
  rfl

theorem ranked_reorder [Std.TransCmp R.localeCompare] (perm : input.items.Perm items)
    (told : ∀ a ∈ input.items, ∀ b ∈ input.items, R.localeCompare a.id b.id = .eq → a = b) :
    input.ranked R = (input.reorder items).ranked R := by
  unfold PackContextItemsInput.ranked
  simp only [← ineligible_reorder perm]
  apply sort_eq_of_perm (perm.filter _)
  intro a mem b mem' same
  exact told a (List.mem_of_mem_filter mem) b (List.mem_of_mem_filter mem') (compareCandidates_eq same)

/-- A packing does not depend on the order in which the items arrive. -/
theorem packContextItems_reorder (R : Runtime) [Std.TransCmp R.localeCompare] (input : PackContextItemsInput)
    (items : List ContextSnapshotItemView) (perm : input.items.Perm items) (ids : (input.items.map (·.id)).Nodup)
    (distinguishes : ∀ a ∈ input.items, ∀ b ∈ input.items, R.localeCompare a.id b.id = .eq → a.id = b.id) :
    SameResult (packContextItems R input) (packContextItems R (input.reorder items)) := by
  have ids' : ((input.reorder items).items.map (·.id)).Nodup := (perm.map _).nodup_iff.1 ids
  have ranked := ranked_reorder (R := R) perm fun a mem b mem' same =>
    told_of_ids ids a mem b mem' (distinguishes a mem b mem' same)
  have totals : input.totals R = (input.reorder items).totals R := by
    unfold PackContextItemsInput.totals
    rw [ranked]
    rfl
  refine ⟨?_, ?_, rawHistoryTokens_reorder perm, compactedStateRequired_reorder perm, ?_⟩
  iterate 2
    · unfold packContextItems
      rw [totals]
  · intro e
    rw [mem_exclusions ids, mem_exclusions ids', mem_filtered, mem_filtered, ← ineligible_reorder perm, ranked, totals]
    exact or_congr_left (and_congr_left' perm.mem_iff)

theorem packContextItems_reorder_crowded :
    SameResult (packContextItems plain crowded) (packContextItems plain (crowded.reorder crowded.items.reverse)) := by
  have : Std.TransCmp plain.localeCompare := inferInstanceAs (Std.TransOrd String)
  refine packContextItems_reorder plain crowded _ (List.reverse_perm _).symm (by decide) ?_
  exact fun a _ b _ same => Std.LawfulEqOrd.eq_of_compare same

end Vimla.Context.Packing
