import Vimla.Context.Packer
import Vimla.Lib.Runs

/-!
# Every item is accounted for

What a run of `trySelect` keeps, whatever the items and their order: the totals
are those of the selections, and an item that was refused once is refused again,
since the totals only grow.
-/

namespace Vimla.Context.Packing

open Js List Option

variable {R : Runtime} {B C : Nat} {t t' : Totals} {item : ContextSnapshotItemView} {items : List ContextSnapshotItemView}

def tokens (selected : List PackedContextSelection) : Nat := (selected.map PackedContextSelection.estimatedTokens).sum

theorem tokens_append (selected more : List PackedContextSelection) : tokens (selected ++ more) = tokens selected + tokens more := by
  rw [tokens, map_append, sum_append]
  rfl

/-- The selections of a group. -/
def ofGroup (R : Runtime) (g : String) (selected : List PackedContextSelection) : List PackedContextSelection :=
  selected.filter fun s => sourceGroup R s.item = g

/-- Those of them that count towards its share. -/
def capped (R : Runtime) (g : String) (selected : List PackedContextSelection) : List PackedContextSelection :=
  selected.filter fun s => sourceGroup R s.item = g && !isMandatoryContextItem s.item

/-- An item is tried under the cap unless it is mandatory. -/
def attempt (R : Runtime) (B C : Nat) (t : Totals) (item : ContextSnapshotItemView) : Totals :=
  trySelect R B C (!isMandatoryContextItem item) t item

def refused (R : Runtime) (B C : Nat) (t : Totals) (item : ContextSnapshotItemView) : Option ContextPackingExclusionReason :=
  refusal R B C (!isMandatoryContextItem item) t item

/-- How an item is selected. -/
def pick (R : Runtime) (item : ContextSnapshotItemView) : PackedContextSelection :=
  ⟨item, estimateItemTokens R item, selectionReason R item⟩

def Totals.Selects (t : Totals) (item : ContextSnapshotItemView) : Prop := ∃ s ∈ t.selected, s.item = item

def Totals.Excludes (t : Totals) (item : ContextSnapshotItemView) : Prop := ∃ e ∈ t.exclusions, e.item = item

/-- What an attempt does. -/
theorem attempt_cases (R : Runtime) (B C : Nat) (t : Totals) (item : ContextSnapshotItemView) :
    ((∃ s ∈ t.selected, s.item.id = item.id) ∧ attempt R B C t item = t) ∨
    (∃ reason, (∀ s ∈ t.selected, s.item.id ≠ item.id) ∧ refused R B C t item = some reason ∧
      attempt R B C t item = { t with exclusions := t.exclusions ++ [⟨item, reason⟩] }) ∨
    ((∀ s ∈ t.selected, s.item.id ≠ item.id) ∧ refused R B C t item = none ∧
      (attempt R B C t item).selected = t.selected ++ [pick R item] ∧
      (attempt R B C t item).exclusions = t.exclusions ∧
      (attempt R B C t item).usedTokens = t.usedTokens + estimateItemTokens R item ∧
      ∀ g, (attempt R B C t item).sourceUsage g =
        t.sourceUsage g + if sourceGroup R item = g then estimateItemTokens R item else 0) := by
  by_cases known : ∃ s ∈ t.selected, s.item.id = item.id
  · refine .inl ⟨known, ?_⟩
    rw [attempt, trySelect, if_pos]
    simpa using known
  · have new : ∀ s ∈ t.selected, s.item.id ≠ item.id := fun s mem same => known ⟨s, mem, same⟩
    have absent : ¬ t.selected.any (·.item.id = item.id) = true := by simpa using new
    cases reason : refused R B C t item with
    | some reason' =>
      refine .inr (.inl ⟨reason', new, rfl, ?_⟩)
      rw [refused] at reason
      rw [attempt, trySelect, if_neg absent, reason]
    | none =>
      rw [refused] at reason
      refine .inr (.inr ⟨new, rfl, ?_⟩)
      rw [attempt, trySelect, if_neg absent, reason]
      refine ⟨rfl, rfl, rfl, fun g => ?_⟩
      by_cases here : sourceGroup R item = g
      · subst here
        simp
      · simp [here, Ne.symm here]

structure Totals.Sound (R : Runtime) (B C : Nat) (t : Totals) : Prop where
  estimated : ∀ s ∈ t.selected, s.estimatedTokens = estimateItemTokens R s.item
  used : t.usedTokens = tokens t.selected
  fits : t.usedTokens ≤ B
  usage : ∀ g, t.sourceUsage g = tokens (ofGroup R g t.selected)
  share : ∀ g, tokens (capped R g t.selected) ≤ C
  distinct : (t.selected.map (·.item.id)).Nodup

theorem tokens_capped_le (g : String) (selected : List PackedContextSelection) :
    tokens (capped R g selected) ≤ tokens (ofGroup R g selected) := by
  induction selected with
  | nil => exact Nat.le_refl 0
  | cons s selected ih =>
    unfold capped ofGroup tokens at *
    simp only [filter_cons]
    by_cases here : sourceGroup R s.item = g
    · cases isMandatoryContextItem s.item with
      | true | false => simp [here]; omega
    · simpa [here] using ih

theorem Totals.Sound.start (R : Runtime) (B C : Nat) : Totals.Sound R B C {} :=
  ⟨by simp, rfl, Nat.zero_le B, fun _ => rfl, fun _ => Nat.zero_le C, nodup_nil⟩

theorem Totals.Sound.attempt (sound : t.Sound R B C) (item : ContextSnapshotItemView) :
    (attempt R B C t item).Sound R B C := by
  rcases attempt_cases R B C t item with ⟨-, same⟩ | ⟨reason, -, -, same⟩ | ⟨new, accepted, selected, -, used, usage⟩
  · rwa [same]
  · rw [same]
    exact ⟨sound.estimated, sound.used, sound.fits, sound.usage, sound.share, sound.distinct⟩
  unfold refused refusal at accepted
  split at accepted
  · cases accepted
  split at accepted
  · cases accepted
  rename_i free
  have last (p : PackedContextSelection → Bool) : tokens ((t.selected ++ [pick R item]).filter p) =
      tokens (t.selected.filter p) + if p (pick R item) then estimateItemTokens R item else 0 := by
    rw [filter_append, tokens_append, filter_singleton]
    cases p (pick R item) <;> simp [tokens, pick]
  refine ⟨?_, ?_, ?_, ?_, ?_, ?_⟩
  · intro s mem
    rw [selected] at mem
    rcases mem_append.1 mem with old | new
    · exact sound.estimated s old
    · rw [mem_singleton.1 new]
      rfl
  · rw [used, selected, tokens_append, sound.used]
    simp [tokens, pick]
  · rw [used]
    omega
  · intro g
    rw [usage, selected, ofGroup, last, sound.usage]
    by_cases here : sourceGroup R item = g <;> simp [ofGroup, pick, here]
  · intro g
    rw [selected, capped, last]
    have before := sound.share g
    have le := @tokens_capped_le R g t.selected
    have counted := sound.usage g
    by_cases here : sourceGroup R item = g
    · cases mandatory : isMandatoryContextItem item with
      | true => simpa [here, mandatory, capped, pick] using before
      | false =>
        subst here
        simp only [mandatory, Bool.not_false, true_and, Nat.not_lt] at free
        simp only [pick, mandatory, decide_true, Bool.not_false, Bool.and_self, if_true]
        unfold capped at le
        omega
    · simpa [here, capped, pick] using before
  · rw [selected, map_append]
    refine nodup_append.2 ⟨sound.distinct, by simp, ?_⟩
    intro a old b added same
    obtain ⟨s, mem, rfl⟩ := mem_map.1 old
    rw [map_singleton, mem_singleton] at added
    exact new s mem (same.trans added)

theorem Totals.Sound.attempts (sound : t.Sound R B C) (items : List ContextSnapshotItemView) :
    (items.foldl (Packing.attempt R B C) t).Sound R B C :=
  Runs.invariant (fun _ item sound => sound.attempt item) items sound

structure Grows (t t' : Totals) : Prop where
  used : t.usedTokens ≤ t'.usedTokens
  usage : ∀ g, t.sourceUsage g ≤ t'.sourceUsage g
  selected : t.selected ⊆ t'.selected
  exclusions : t.exclusions ⊆ t'.exclusions

theorem Grows.refl (t : Totals) : Grows t t := ⟨Nat.le_refl _, fun _ => Nat.le_refl _, fun _ h => h, fun _ h => h⟩

theorem Grows.trans {t'' : Totals} (first : Grows t t') (second : Grows t' t'') : Grows t t'' :=
  ⟨Nat.le_trans first.used second.used, fun g => Nat.le_trans (first.usage g) (second.usage g),
    fun _ h => second.selected (first.selected h), fun _ h => second.exclusions (first.exclusions h)⟩

theorem grows_attempt (R : Runtime) (B C : Nat) (t : Totals) (item : ContextSnapshotItemView) : Grows t (attempt R B C t item) := by
  rcases attempt_cases R B C t item with ⟨-, same⟩ | ⟨reason, -, -, same⟩ | ⟨-, -, selected, exclusions, used, usage⟩
  · rw [same]
    exact .refl t
  · rw [same]
    exact ⟨Nat.le_refl _, fun _ => Nat.le_refl _, fun _ h => h, fun _ h => mem_append_left _ h⟩
  · refine ⟨by omega, fun g => ?_, fun _ h => ?_, fun _ h => exclusions ▸ h⟩
    · rw [usage]
      omega
    · rw [selected]
      exact mem_append_left _ h

theorem grows_attempts (R : Runtime) (B C : Nat) (t : Totals) (items : List ContextSnapshotItemView) :
    Grows t (items.foldl (attempt R B C) t) := by
  induction items generalizing t with
  | nil => exact .refl t
  | cons item items ih => exact (grows_attempt R B C t item).trans (ih _)

variable {reason : ContextPackingExclusionReason}

/-- What is refused stays refused, and for the budget if it was. -/
theorem Grows.refused_again (grows : Grows t t') (before : refused R B C t item = some reason) :
    refused R B C t' item = some .CONTEXT_BUDGET_EXCLUDED ∨
      reason = .SOURCE_CONTRIBUTION_CAPPED ∧ refused R B C t' item = some .SOURCE_CONTRIBUTION_CAPPED := by
  have used := grows.used
  have usage := grows.usage (sourceGroup R item)
  unfold refused refusal at *
  by_cases full : t'.usedTokens + estimateItemTokens R item > B
  · rw [if_pos full]
    exact .inl rfl
  · have fitted : ¬ t.usedTokens + estimateItemTokens R item > B := by omega
    rw [if_neg fitted] at before
    rw [if_neg full]
    split at before
    · rename_i past
      obtain ⟨enforced, past⟩ := past
      cases before
      rw [if_pos ⟨enforced, by omega⟩]
      exact .inr ⟨rfl, rfl⟩
    · cases before

/-- The ids tell the items apart. -/
def Told (items : List ContextSnapshotItemView) : Prop := ∀ a ∈ items, ∀ b ∈ items, a.id = b.id → a = b

variable {all : List ContextSnapshotItemView}

/-- What is excluded would be refused again, and is not selected. -/
structure Totals.Apart (R : Runtime) (B C : Nat) (all : List ContextSnapshotItemView) (t : Totals) : Prop where
  selected : ∀ s ∈ t.selected, s.item ∈ all
  excluded : ∀ e ∈ t.exclusions, e.item ∈ all ∧ refused R B C t e.item ≠ none ∧ ∀ s ∈ t.selected, s.item.id ≠ e.item.id

theorem Totals.Apart.start (R : Runtime) (B C : Nat) (all : List ContextSnapshotItemView) : Totals.Apart R B C all {} :=
  ⟨by simp, by simp⟩

theorem Grows.refused_some (grows : Grows t t') (before : refused R B C t item ≠ none) : refused R B C t' item ≠ none := by
  obtain ⟨reason, same⟩ := ne_none_iff_exists'.1 before
  rcases grows.refused_again same with again | ⟨-, again⟩
  iterate 2
    · rw [again]
      exact some_ne_none _

section
variable (told : Told all) (apart : t.Apart R B C all)
include told apart

theorem Totals.Apart.attempt (mem : item ∈ all) :
    (attempt R B C t item).Apart R B C all := by
  have grows := grows_attempt R B C t item
  rcases attempt_cases R B C t item with ⟨-, same⟩ | ⟨reason, new, why, same⟩ | ⟨new, accepted, selected, exclusions, -, -⟩
  · rwa [same]
  · constructor
    · rw [same]
      exact apart.selected
    · intro e listed
      rw [same] at listed
      rcases mem_append.1 listed with old | added
      · obtain ⟨known, before, others⟩ := apart.excluded e old
        refine ⟨known, grows.refused_some before, ?_⟩
        rw [same]
        exact others
      · rw [mem_singleton.1 added]
        refine ⟨mem, grows.refused_some (by rw [why]; exact some_ne_none _), ?_⟩
        rw [same]
        exact new
  · constructor
    · intro s listed
      rw [selected] at listed
      rcases mem_append.1 listed with old | added
      · exact apart.selected s old
      · rw [mem_singleton.1 added]
        exact mem
    · intro e listed
      rw [exclusions] at listed
      obtain ⟨known, before, others⟩ := apart.excluded e listed
      refine ⟨known, grows.refused_some before, ?_⟩
      intro s here same
      rw [selected] at here
      rcases mem_append.1 here with old | added
      · exact others s old same
      · rw [mem_singleton.1 added] at same
        rw [told e.item known item mem same.symm] at before
        exact before accepted

theorem Totals.Apart.attempts (among : ∀ item ∈ items, item ∈ all) :
    (items.foldl (Packing.attempt R B C) t).Apart R B C all := by
  induction items generalizing t with
  | nil => exact apart
  | cons item items ih =>
    rw [forall_mem_cons] at among
    exact ih (apart.attempt told among.1) among.2

theorem attempt_covers (mem : item ∈ all) :
    (attempt R B C t item).Selects item ∨ (attempt R B C t item).Excludes item := by
  rcases attempt_cases R B C t item with ⟨⟨s, listed, id⟩, same⟩ | ⟨reason, -, -, same⟩ | ⟨-, -, selected, -⟩
  · rw [same]
    exact .inl ⟨s, listed, told _ (apart.selected s listed) _ mem id⟩
  · rw [same]
    exact .inr ⟨⟨item, reason⟩, mem_append_right _ mem_cons_self, rfl⟩
  · refine .inl ⟨pick R item, ?_, rfl⟩
    rw [selected]
    exact mem_append_right _ mem_cons_self

theorem attempts_cover (among : ∀ item ∈ items, item ∈ all) (mem : item ∈ items) :
    (items.foldl (attempt R B C) t).Selects item ∨ (items.foldl (attempt R B C) t).Excludes item := by
  induction items generalizing t with
  | nil => cases mem
  | cons first items ih =>
    rw [forall_mem_cons] at among
    rcases mem_cons.1 mem with rfl | later
    · have grows := grows_attempts R B C (attempt R B C t item) items
      rcases attempt_covers told apart among.1 with ⟨s, listed, same⟩ | ⟨e, listed, same⟩
      · exact .inl ⟨s, grows.selected listed, same⟩
      · exact .inr ⟨e, grows.exclusions listed, same⟩
    · exact ih (apart.attempt told among.1) among.2 later

end

/-- At its turn, the item is refused for this reason. -/
def RefusedAt (R : Runtime) (B C : Nat) (t : Totals) (items : List ContextSnapshotItemView) (item : ContextSnapshotItemView)
    (reason : ContextPackingExclusionReason) : Prop :=
  ∃ before after, items = before ++ item :: after ∧ refused R B C (before.foldl (attempt R B C) t) item = some reason

theorem RefusedAt.mem (at_ : RefusedAt R B C t items item reason) : item ∈ items := by
  obtain ⟨before, after, rfl, -⟩ := at_
  simp

theorem RefusedAt.unique {reason' : ContextPackingExclusionReason} (once : items.Nodup)
    (at_ : RefusedAt R B C t items item reason) (at' : RefusedAt R B C t items item reason') : reason = reason' := by
  obtain ⟨before, after, rfl, why⟩ := at_
  obtain ⟨before', after', same, why'⟩ := at'
  have new := (nodup_middle.1 once).notMem
  obtain ⟨rfl, -⟩ := (append_cons_inj_of_notMem (fun m => new (mem_append_left _ m))
    (fun m => new (mem_append_right _ m))).1 same
  rw [why] at why'
  exact some.inj why'

/-- A selection is an item that was tried. -/
theorem mem_selected_attempts {s : PackedContextSelection} (mem : s ∈ (items.foldl (attempt R B C) t).selected) :
    s ∈ t.selected ∨ s.item ∈ items := by
  induction items generalizing t with
  | nil => exact .inl mem
  | cons item items ih =>
    rcases ih mem with old | later
    · rcases attempt_cases R B C t item with ⟨-, same⟩ | ⟨reason, -, -, same⟩ | ⟨-, -, selected, -⟩
      · exact .inl (same ▸ old)
      · rw [same] at old
        exact .inl old
      · rw [selected] at old
        rcases mem_append.1 old with older | added
        · exact .inl older
        · rw [mem_singleton.1 added]
          exact .inr mem_cons_self
    · exact .inr (mem_cons_of_mem _ later)

/-- An exclusion tells when its item was refused. -/
theorem mem_exclusions_attempts {e : ContextPackingExclusion} (mem : e ∈ (items.foldl (attempt R B C) t).exclusions) :
    e ∈ t.exclusions ∨ RefusedAt R B C t items e.item e.reason := by
  induction items generalizing t with
  | nil => exact .inl mem
  | cons item items ih =>
    rcases ih mem with old | ⟨before, after, rfl, why⟩
    · rcases attempt_cases R B C t item with ⟨-, same⟩ | ⟨reason, -, why, same⟩ | ⟨-, -, -, exclusions, -⟩
      · exact .inl (same ▸ old)
      · rw [same] at old
        rcases mem_append.1 old with older | added
        · exact .inl older
        · rw [mem_singleton.1 added]
          exact .inr ⟨[], items, rfl, why⟩
      · exact .inl (exclusions ▸ old)
    · exact .inr ⟨item :: before, after, rfl, why⟩

/-- What is refused at its turn is excluded for that reason, unless it was selected before. -/
theorem RefusedAt.excluded (told : Told all) (apart : t.Apart R B C all) (among : ∀ item ∈ items, item ∈ all)
    (at_ : RefusedAt R B C t items item reason)
    (new : ∀ before, (∃ after, items = before ++ item :: after) → ¬ (before.foldl (attempt R B C) t).Selects item) :
    ⟨item, reason⟩ ∈ (items.foldl (attempt R B C) t).exclusions := by
  obtain ⟨before, after, rfl, why⟩ := at_
  rw [foldl_append, foldl_cons]
  apply (grows_attempts R B C _ after).exclusions
  have mine := among item (mem_append_right _ mem_cons_self)
  have kept := apart.attempts told fun i mem => among i (mem_append_left _ mem)
  rcases attempt_cases R B C (before.foldl (attempt R B C) t) item with ⟨⟨s, listed, id⟩, -⟩ | ⟨reason', -, why', same⟩ | ⟨-, accepted, -⟩
  · exact absurd ⟨s, listed, told _ (kept.selected s listed) _ mine id⟩ (new before ⟨after, rfl⟩)
  · rw [why] at why'
    cases why'
    rw [same]
    exact mem_append_right _ mem_cons_self
  · rw [why] at accepted
    cases accepted

end Vimla.Context.Packing
