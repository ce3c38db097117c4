import Vimla.DirectChats.Protection

/-!
# What a transaction does to the contents

Each transaction on the rows does to what they mean what the same transaction does
with contents that are left as they are, unless it puts a seal into a row that is
marked as raw.
-/

namespace Vimla.DirectChats

open List Option OrderedMap

variable {P : LocalProtection}

/-- Every stored row means what was last written to it. -/
def Reads (P : LocalProtection) (store written : PendingSends) : Prop :=
  ∀ key, (store.get key = none ∧ written.get key = none) ∨
    ∃ r w, store.get key = some r ∧ written.get key = some w ∧ Means P r w

variable {r w : StoredPendingSend}

theorem Means.update (means : Means P r w) (f : StoredPendingSend → StoredPendingSend)
    (version : (f r).protectionVersion = r.protectionVersion)
    (opens : ∀ opening, RowOpens opening r w → RowOpens opening (f r) (f w)) : Means P (f r) (f w) := by
  obtain ⟨v, marked, row⟩ := means
  exact ⟨v, by rwa [localProtectionVersion, version], opens _ row⟩

/-- The public fields of a row and of what it means are the same. -/
theorem Means.public (means : Means P r w) : ∃ plaintext operatorIntent,
      w = { r with protectionVersion := none, plaintext := plaintext, operatorIntent := operatorIntent } := by
  obtain ⟨v, _, row⟩ := means
  exact ⟨_, _, row.same⟩

variable {opening : String → String → Option String}

variable {mode : Mode} {id : String} {dateParse : String → Option Int}

theorem intent_sealed (mode : Mode) (opens : ∀ text aad, opening (mode.sealing text aad) aad = some text)
    (id : String) (i : StoredOperatorIntent) :
    IntentOpens opening id (protectOperatorIntent mode.sealing id i) (protectOperatorIntent Mode.plain.sealing id i) where
  content := opens _ _
  messages := by
    rw [protectOperatorIntent, protectOperatorIntent, forall₂_map_left_iff, forall₂_map_right_iff]
    exact forall₂_same.2 fun m _ => ⟨opens _ _, rfl⟩
  delivery := by
    rw [protectOperatorIntent, protectOperatorIntent]
    cases i.delivery with
    | none => exact .none
    | some d =>
      refine .some ⟨?_, rfl⟩
      rw [forall₂_map_left_iff, forall₂_map_right_iff]
      exact forall₂_same.2 fun o _ => ⟨opens _ _, rfl⟩
  same := rfl

theorem pending_sealed {version : Option Nat} (opens : ∀ text aad, opening (mode.sealing text aad) aad = some text)
    (p : StoredPendingSend) :
    RowOpens opening (protectPendingSend mode.sealing version p) (protectPendingSend Mode.plain.sealing none p) where
  plaintext := opens _ _
  intent := by
    rw [protectPendingSend, protectPendingSend]
    cases p.operatorIntent with
    | none => exact .none
    | some i => exact .some (intent_sealed _ opens _ i)
  same := rfl

theorem sealed_opens (seals : Seals P) {iv : String → Nat} (text aad : String) :
    P.opening LOCAL_PROTECTION_VERSION ((P.mode iv).sealing text aad) aad = some text := seals.opens ..

theorem pending_means (seals : Seals P) (iv : String → Nat) (p : StoredPendingSend) :
    Means P (protectPendingSend (P.mode iv).sealing (P.mode iv).version p)
      (protectPendingSend Mode.plain.sealing Mode.plain.version p) :=
  ⟨LOCAL_PROTECTION_VERSION, rfl, pending_sealed (sealed_opens seals) p⟩

theorem plain_intent (id : String) (i : StoredOperatorIntent) : protectOperatorIntent Mode.plain.sealing id i = i := by
  obtain ⟨request, content, messages, delivery⟩ := i
  have outputs : ∀ l : List StoredOperatorOutput, l.map (protectOutput Mode.plain.sealing id) = l := fun l =>
    (map_congr_left fun o _ => rfl).trans (map_id l)
  cases delivery with
  | none => simp [protectOperatorIntent, Mode.plain]
  | some d => simp [protectOperatorIntent, Mode.plain, show d.outputs.map (protectOutput (fun t _ => t) id) = d.outputs from outputs _]

theorem plain_pending (p : StoredPendingSend) :
    protectPendingSend Mode.plain.sealing Mode.plain.version p = { p with protectionVersion := none } := by
  have intents : p.operatorIntent.map (protectOperatorIntent Mode.plain.sealing p.clientMessageId) = p.operatorIntent := by
    cases p.operatorIntent with
    | none => rfl
    | some i => rw [map_some, plain_intent]
  rw [protectPendingSend, intents]
  rfl

namespace Reads

variable {store written : PendingSends} (h : Reads P store written)
include h

theorem set (key : String) (means : Means P r w) :
    Reads P (store.set key r) (written.set key w) := by
  intro k
  by_cases same : k = key
  · subst same
    exact .inr ⟨r, w, by simp, by simp, means⟩
  · rw [get_set_ne same, get_set_ne same]
    exact h k

/-- A row is written again that means the same. -/
theorem rewrite {key : String} (found : written.get key = some w) (means : Means P r w) :
    Reads P (store.set key r) written := by
  intro k
  by_cases same : k = key
  · subst same
    exact .inr ⟨r, w, by simp, found, means⟩
  · rw [get_set_ne same]
    exact h k

theorem erase (key : String) : Reads P (store.erase key) (written.erase key) := by
  intro k
  by_cases same : k = key
  · subst same
    exact .inl ⟨by simp, by simp⟩
  · rw [get_erase_ne same, get_erase_ne same]
    exact h k

theorem mapValues {f : StoredPendingSend → StoredPendingSend} (means : ∀ r w, Means P r w → Means P (f r) (f w)) :
    Reads P (store.mapValues f) (written.mapValues f) := by
  intro k
  rw [get_mapValues, get_mapValues]
  obtain ⟨none, none'⟩ | ⟨r, w, found, found', row⟩ := h k
  · exact .inl ⟨by rw [none]; rfl, by rw [none']; rfl⟩
  · exact .inr ⟨_, _, by rw [found]; rfl, by rw [found']; rfl, means r w row⟩

section
variable {p : StoredPendingSend → Bool} (agree : ∀ r w, Means P r w → p r = p w)
include agree

theorem filterValues :
    Reads P (store.filterValues p) (written.filterValues p) := by
  intro k
  rw [get_filterValues, get_filterValues]
  obtain ⟨none, none'⟩ | ⟨r, w, found, found', row⟩ := h k
  · exact .inl ⟨by rw [none]; rfl, by rw [none']; rfl⟩
  · rw [found, found', filter_some, filter_some, agree r w row]
    split
    · exact .inr ⟨r, w, rfl, rfl, row⟩
    · exact .inl ⟨rfl, rfl⟩

theorem anyValue :
    store.anyValue p = written.anyValue p := by
  rw [Bool.eq_iff_iff, anyValue_iff, anyValue_iff]
  constructor
  · rintro ⟨k, r, found, holds⟩
    obtain ⟨none, _⟩ | ⟨r', w, found', other, row⟩ := h k
    · simp [found] at none
    · obtain rfl : r = r' := by simpa [found] using found'
      exact ⟨k, w, other, by rwa [← agree r w row]⟩
  · rintro ⟨k, w, found, holds⟩
    obtain ⟨_, none⟩ | ⟨r, w', other, found', row⟩ := h k
    · simp [found] at none
    · obtain rfl : w = w' := by simpa [found] using found'
      exact ⟨k, r, other, by rwa [agree r w row]⟩

end

end Reads

/-- Both abort, or both commit. -/
abbrev Simulates (P : LocalProtection) : Option PendingSends → Option PendingSends → Prop := Rel (Reads P)

variable {store written : PendingSends}

theorem cancelRow_means (scope : TrustScope) (cancelledAt : String) (means : Means P r w) :
    Means P (cancelRow scope cancelledAt r) (cancelRow scope cancelledAt w) := by
  obtain ⟨plaintext, intent, rfl⟩ := means.public
  by_cases cancels : scope.matches r ∧ r.trustCancelledAt = none
  · have row : Means P { r with revision := some (pendingSendRevision r + 1), trustCancelledAt := some cancelledAt } _ :=
      means.update (fun r => { r with revision := some (pendingSendRevision r + 1), trustCancelledAt := some cancelledAt })
        rfl fun _ opens => ⟨opens.plaintext, opens.intent, rfl⟩
    have other : scope.matches { r with protectionVersion := none, plaintext := plaintext, operatorIntent := intent } ∧
        r.trustCancelledAt = none := cancels
    rw [cancelRow, cancelRow, if_pos cancels, if_pos other]
    exact row
  · have other : ¬ (scope.matches { r with protectionVersion := none, plaintext := plaintext, operatorIntent := intent } ∧
        r.trustCancelledAt = none) := cancels
    rw [cancelRow, cancelRow, if_neg cancels, if_neg other]
    exact means

theorem cancel_simulates (h : Reads P store written) (scope : TrustScope) (cancelledAt : String) :
    Simulates P (cancelPendingSendsForTrust scope cancelledAt store) (cancelPendingSendsForTrust scope cancelledAt written) := by
  unfold cancelPendingSendsForTrust
  split
  · exact .none
  · exact Rel.some (h.mapValues fun _ _ => cancelRow_means scope cancelledAt)

variable {α β : Type} {p : α → Bool} {q : β → Bool}

theorem forall₂_find {R : α → β → Prop} {l : List α} {m : List β}
    (all : Forall₂ R l m) (agree : ∀ a b, R a b → p a = q b) : Rel R (l.find? p) (m.find? q) := by
  induction all with
  | nil => exact .none
  | cons related _ ih =>
    rw [find?_cons, find?_cons, ← agree _ _ related]
    split
    · exact .some related
    · exact ih

/-- The linked output in the row and in what the row means. -/
theorem linked_opens (means : Means P r w) (link : StoredOperatorOutputLink) (id : String) :
    ∃ opening, Rel (OutputOpens opening r.clientMessageId) (r.delivery.bind (·.linked link id))
      (w.delivery.bind (·.linked link id)) := by
  obtain ⟨v, _, row⟩ := means
  refine ⟨P.opening v, ?_⟩
  have intents := row.intent
  unfold StoredPendingSend.delivery
  generalize r.operatorIntent = i at intents
  generalize w.operatorIntent = j at intents
  obtain intent | _ := intents
  · have deliveries := intent.delivery
    simp only [bind_some]
    next i j =>
      generalize i.delivery = d at deliveries
      generalize j.delivery = e at deliveries
      obtain delivery | _ := deliveries
      · exact forall₂_find delivery.outputs fun o p opens => by rw [opens.same]
      · exact .none
  · exact .none

variable {a : Option α} {b : Option β}

theorem rel_any {R : α → β → Prop}
    (related : Rel R a b) (agree : ∀ a b, R a b → p a = q b) : a.any p = b.any q := by
  obtain here | _ := related
  · exact agree _ _ here
  · rfl

theorem rel_cases {R : α → β → Prop} (related : Rel R a b) :
    (a = none ∧ b = none) ∨ ∃ x y, a = some x ∧ b = some y ∧ R x y := by
  obtain here | _ := related
  · exact .inr ⟨_, _, rfl, rfl, here⟩
  · exact .inl ⟨rfl, rfl⟩

theorem commit_simulates (seals : Seals P) (h : Reads P store written) (iv : String → Nat) (pending : StoredPendingSend)
    (expected : Option Nat) :
    Simulates P (commitPendingSend (P.mode iv) pending expected store) (commitPendingSend Mode.plain pending expected written) := by
  have revision : (store.get pending.clientMessageId).map pendingSendRevision =
      (written.get pending.clientMessageId).map pendingSendRevision := by
    obtain ⟨none, none'⟩ | ⟨r, w, found, found', means⟩ := h pending.clientMessageId
    · rw [none, none']
    · obtain ⟨plaintext, intent, rfl⟩ := means.public
      rw [found, found']
      rfl
  have parent : pending.operatorOutput.all (fun link =>
        (((store.get link.parentClientMessageId).bind (·.delivery)).bind (·.linked link pending.clientMessageId)).any
          fun output => ¬ output.delivered) =
      pending.operatorOutput.all fun link =>
        (((written.get link.parentClientMessageId).bind (·.delivery)).bind (·.linked link pending.clientMessageId)).any
          fun output => ¬ output.delivered := by
    obtain _ | link := pending.operatorOutput
    · rfl
    · rw [all_some, all_some]
      obtain ⟨none, none'⟩ | ⟨r, w, found, found', means⟩ := h link.parentClientMessageId
      · rw [none, none']
      · rw [found, found', bind_some, bind_some]
        obtain ⟨opening, related⟩ := linked_opens means link pending.clientMessageId
        exact rel_any related fun o p opens => by rw [opens.same]
  unfold commitPendingSend
  simp only [revision, parent]
  split
  · exact Rel.some (h.set _ (pending_means seals iv pending))
  · exact .none

variable {l m : List StoredOperatorOutput}

theorem outputs_delivered {outputId : String}
    (all : Forall₂ (OutputOpens opening id) l m) : Forall₂ (OutputOpens opening id)
      (l.map fun o => if o.id = outputId then { o with delivered := true } else o)
      (m.map fun o => if o.id = outputId then { o with delivered := true } else o) := by
  rw [forall₂_map_left_iff, forall₂_map_right_iff]
  refine all.imp fun o p opens => ?_
  obtain ⟨opened, same⟩ := opens
  have id_eq : p.id = o.id := by rw [same]
  rw [id_eq]
  split
  · exact ⟨opened, by rw [same]⟩
  · exact ⟨opened, same⟩

theorem deliveredRow_means (outputId : String) (means : Means P r w) :
    Means P (deliveredRow r outputId) (deliveredRow w outputId) := by
  refine means.update (deliveredRow · outputId) rfl fun opening row => ?_
  obtain ⟨opened, intents, same⟩ := row
  have revision : pendingSendRevision w = pendingSendRevision r := by rw [same]; rfl
  refine ⟨opened, ?_, by rw [deliveredRow, deliveredRow, revision, same]⟩
  unfold deliveredRow
  generalize r.operatorIntent = i at intents
  generalize w.operatorIntent = j at intents
  obtain intent | _ := intents
  · refine .some ⟨intent.content, intent.messages, ?_, intent.same⟩
    have deliveries := intent.delivery
    next i j =>
      dsimp only
      generalize i.delivery = d at deliveries
      generalize j.delivery = e at deliveries
      obtain delivery | _ := deliveries
      · refine .some ⟨outputs_delivered delivery.outputs, ?_⟩
        rw [markDelivered, markDelivered, delivery.same]
      · exact .none
  · exact .none

theorem committedRow_means {pending r w : StoredPendingSend} {i j : StoredOperatorIntent} (messageId createdAt : String)
    {version : Nat} (marked : localProtectionVersion r = some version) (row : RowOpens (P.opening version) r w)
    (intent : IntentOpens (P.opening version) r.clientMessageId i j) :
    Means P (committedRow r pending i messageId createdAt) (committedRow w pending j messageId createdAt) := by
  have revision : pendingSendRevision w = pendingSendRevision r := by rw [row.same]; rfl
  exact ⟨version, marked, row.plaintext, .some intent, by rw [committedRow, committedRow, revision, row.same]⟩

/-- A transaction that puts a seal into a row that is marked as raw. -/
def Mixes (dateParse : String → Option Int) (store : PendingSends) : OutboxOp → Prop
  | .completePendingSend pending _ _ => ∃ intent current currentIntent,
    pending.operatorIntent = some intent ∧ store.get pending.clientMessageId = some current ∧
    current.protectionVersion = some LEGACY_LOCAL_PROTECTION_VERSION ∧ current.operatorIntent = some currentIntent ∧
    currentIntent.clientRequestId = intent.clientRequestId ∧ currentIntent.delivery = none
  | .stagePendingOperatorDelivery input _ => ∃ parent intent,
    store.get input.parentClientMessageId = some parent ∧
    parent.protectionVersion = some LEGACY_LOCAL_PROTECTION_VERSION ∧ parent.operatorIntent = some intent ∧
    parent.committedMessageId.isSome ∧ parent.committedCreatedAt.isSome ∧
    intent.delivery.all (·.runId = input.runId) ∧ ¬ intent.delivery.any (newerDelivery dateParse input) ∧
    ∃ draft ∈ input.outputs, ((intent.delivery.map (·.outputs)).getD []).all (·.id ≠ draft.id)
  | _ => False

/-- Rows are stored under their message id. -/
def Keyed (store : PendingSends) : Prop := ∀ key r, store.get key = some r → r.clientMessageId = key

theorem complete_simulates (seals : Seals P) (h : Reads P store written) (keyed : Keyed store) (iv : String → Nat)
    (pending : StoredPendingSend) (messageId createdAt : String)
    (unmixed : ¬ Mixes dateParse store (.completePendingSend pending messageId createdAt)) :
    Simulates P (completePendingSend (P.mode iv) pending messageId createdAt store)
      (completePendingSend Mode.plain pending messageId createdAt written) := by
  unfold completePendingSend
  cases own : pending.operatorIntent with
  | some intent =>
    obtain ⟨none, none'⟩ | ⟨r, w, found, found', means⟩ := h pending.clientMessageId
    · simpa [none, none'] using Rel.some h
    · simp only [found, found']
      have key := keyed _ _ found
      obtain ⟨version, marked, row⟩ := means
      obtain ⟨current, other⟩ | ⟨i, j, current, other, opens⟩ := rel_cases row.intent
      · simp only [current, other]
        exact .none
      simp only [current, other]
      rw [opens.same]
      split
      · exact .none
      next request =>
        rw [not_not] at request
        refine Rel.some (h.set _ (committedRow_means _ _ marked row ?_))
        obtain ⟨staged, staged'⟩ | ⟨d, e, staged, staged', _⟩ := rel_cases opens.delivery
        · have sealing : version = LOCAL_PROTECTION_VERSION := by
            have versions := filter_eq_some_iff.1 marked
            simp only [decide_eq_true_eq] at versions
            obtain ⟨legacy, rfl | rfl⟩ := versions
            · exact absurd ⟨intent, r, i, own, found, legacy, current, request, staged⟩ unmixed
            · rfl
          subst sealing
          simpa [key, staged, staged'] using intent_sealed (P.mode iv) (sealed_opens seals) pending.clientMessageId intent
        · simpa [staged, staged'] using opens
  | none =>
    cases linked : pending.operatorOutput with
    | none => exact Rel.some (h.erase _)
    | some link =>
      obtain ⟨none, none'⟩ | ⟨r, w, found, found', means⟩ := h link.parentClientMessageId
      · simpa [none, none'] using Rel.some (h.erase _)
      · simp only [found, found']
        obtain ⟨opening, related⟩ := linked_opens means link pending.clientMessageId
        generalize r.delivery.bind _ = o at related
        generalize w.delivery.bind _ = p at related
        obtain opens | _ := related
        · have delivered := congrArg StoredOperatorOutput.delivered opens.same
          dsimp only at delivered ⊢
          rw [delivered]
          split
          · exact Rel.some (h.erase _)
          · exact Rel.some ((h.set _ (deliveredRow_means _ means)).erase _)
        · exact .none

section
variable {opening : String → String → Option String} {mode : Mode} {id : String}

theorem ids_any (all : Forall₂ (OutputOpens opening id) l m) (o : String) :
    l.any (·.id = o) = m.any (·.id = o) := by
  induction all with
  | nil => rfl
  | cons opens _ ih => rw [any_cons, any_cons, ih, opens.same]

theorem stageOutputs_opens (mode : Mode) (opens : ∀ text aad, opening (mode.sealing text aad) aad = some text)
    (drafts : List StoredOperatorOutput) (all : Forall₂ (OutputOpens opening id) l m) :
    Forall₂ (OutputOpens opening id) (stageOutputs mode id drafts l) (stageOutputs Mode.plain id drafts m) := by
  induction drafts generalizing l m with
  | nil => exact all
  | cons draft drafts ih =>
    refine ih ?_
    rw [stageOutput, stageOutput, ids_any all]
    split
    · exact all
    · exact rel_append all (.cons ⟨opens _ _, rfl⟩ .nil)

/-- Drafts that are there already change nothing. -/
theorem stageOutputs_old {drafts l : List StoredOperatorOutput} (old : ∀ draft ∈ drafts, l.any (·.id = draft.id)) :
    stageOutputs mode id drafts l = l := by
  induction drafts with
  | nil => rfl
  | cons draft drafts ih =>
    have here : stageOutput mode id l draft = l := by rw [stageOutput, if_pos (old draft mem_cons_self)]
    rw [stageOutputs, foldl_cons, here]
    exact ih fun d mem => old d (mem_cons_of_mem _ mem)

theorem draftOutputs_ids {newId : Nat → String} {drafts : List StoredOperatorOutputDraft} {o : StoredOperatorOutput}
    (mem : o ∈ draftOutputs newId drafts) : ∃ draft ∈ drafts, o.id = draft.id := by
  obtain ⟨i, bound, rfl⟩ := mem_mapIdx.1 mem
  exact ⟨_, getElem_mem bound, rfl⟩

end

theorem rel_delivery {i j : Option StoredOperatorDelivery} (deliveries : Rel (DeliveryOpens opening id) i j) :
    Forall₂ (OutputOpens opening id) ((i.map (·.outputs)).getD []) ((j.map (·.outputs)).getD []) := by
  obtain opens | _ := deliveries
  · exact opens.outputs
  · exact .nil

theorem stage_simulates (seals : Seals P) (h : Reads P store written) (keyed : Keyed store) (iv : String → Nat)
    (input : DeliveryInput) (newId : Nat → String)
    (unmixed : ¬ Mixes dateParse store (.stagePendingOperatorDelivery input newId)) :
    Simulates P (stagePendingOperatorDelivery dateParse (P.mode iv) input newId store)
      (stagePendingOperatorDelivery dateParse Mode.plain input newId written) := by
  unfold stagePendingOperatorDelivery
  obtain ⟨none, none'⟩ | ⟨r, w, found, found', means⟩ := h input.parentClientMessageId
  · simp only [none, none']
    exact .none
  · simp only [found, found']
    have key := keyed _ _ found
    obtain ⟨version, marked, row⟩ := means
    have committed : w.committedMessageId = r.committedMessageId ∧ w.committedCreatedAt = r.committedCreatedAt := by
      rw [row.same]
      exact ⟨rfl, rfl⟩
    rw [committed.1, committed.2]
    have revision : pendingSendRevision w = pendingSendRevision r := by rw [row.same]; rfl
    obtain ⟨current, other⟩ | ⟨i, j, current, other, opens⟩ := rel_cases row.intent
    · simp only [current, other]
      exact .none
    simp only [current, other]
    cases message : r.committedMessageId with
    | none => exact .none
    | some messageId =>
      cases created : r.committedCreatedAt with
      | none => exact .none
      | some createdAt =>
        dsimp only
        have runs : j.delivery.any (·.runId ≠ input.runId) = i.delivery.any (·.runId ≠ input.runId) :=
          (rel_any opens.delivery fun d e opens => by rw [opens.same]).symm
        have newer : j.delivery.any (newerDelivery dateParse input) = i.delivery.any (newerDelivery dateParse input) :=
          (rel_any opens.delivery fun d e opens => by rw [newerDelivery, newerDelivery, opens.same]).symm
        rw [runs, newer]
        by_cases run : i.delivery.any (·.runId ≠ input.runId) = true
        · rw [if_pos run, if_pos run]
          exact .none
        rw [if_neg run, if_neg run]
        by_cases stale : i.delivery.any (newerDelivery dateParse input) = true
        · rw [if_pos stale, if_pos stale]
          exact Rel.some h
        rw [if_neg stale, if_neg stale]
        have before := rel_delivery opens.delivery
        have after : Forall₂ (OutputOpens (P.opening version) r.clientMessageId)
            (stageOutputs (P.mode iv) input.parentClientMessageId (draftOutputs newId input.outputs)
              ((i.delivery.map (·.outputs)).getD []))
            (stageOutputs Mode.plain input.parentClientMessageId (draftOutputs newId input.outputs)
              ((j.delivery.map (·.outputs)).getD [])) := by
          have versions := filter_eq_some_iff.1 marked
          simp only [decide_eq_true_eq] at versions
          obtain ⟨legacy, rfl | rfl⟩ := versions
          · have old : ∀ draft ∈ draftOutputs newId input.outputs,
                ((i.delivery.map (·.outputs)).getD []).any (·.id = draft.id) := by
              intro o mem
              obtain ⟨draft, listed, same⟩ := draftOutputs_ids mem
              by_contra fresh
              refine unmixed ⟨r, i, found, legacy, current, by simp [message], by simp [created], ?_, stale, draft,
                listed, ?_⟩
              · cases staged : i.delivery with
                | none => rfl
                | some d => simpa [staged] using run
              · simpa [same] using fresh
            rw [stageOutputs_old old, stageOutputs_old fun draft mem => (ids_any before draft.id) ▸ old draft mem]
            exact before
          · rw [← key]
            exact stageOutputs_opens (P.mode iv) (sealed_opens seals) _ before
        refine Rel.some (h.set _ ⟨version, marked, row.plaintext, .some ?_, ?_⟩)
        · exact ⟨opens.content, opens.messages, .some ⟨after, rfl⟩, opens.same⟩
        · rw [stagedRow, stagedRow, revision, row.same]

theorem completeIntent_simulates (h : Reads P store written) (clientMessageId : String) :
    Simulates P (completePendingOperatorIntent clientMessageId store) (completePendingOperatorIntent clientMessageId written) := by
  unfold completePendingOperatorIntent
  obtain ⟨none, none'⟩ | ⟨r, w, found, found', means⟩ := h clientMessageId
  · simpa [none, none'] using Rel.some h
  · simp only [found, found']
    obtain ⟨version, marked, row⟩ := means
    have intents := row.intent
    unfold StoredPendingSend.delivery
    generalize r.operatorIntent = i at intents
    generalize w.operatorIntent = j at intents
    obtain intent | _ := intents
    · have deliveries := intent.delivery
      simp only [bind_some]
      next i j =>
        generalize i.delivery = d at deliveries
        generalize j.delivery = e at deliveries
        obtain delivery | _ := deliveries
        · next d e =>
            have undelivered : e.outputs.any (¬ ·.delivered) = d.outputs.any (¬ ·.delivered) := by
              have outputs := delivery.outputs
              generalize d.outputs = l at outputs
              generalize e.outputs = m at outputs
              induction outputs with
              | nil => rfl
              | cons opens _ ih => rw [any_cons, any_cons, ih, opens.same]
            have status : e.runStatus = d.runStatus := by rw [delivery.same]
            simp only [undelivered, status]
            split
            · exact .none
            split
            · exact Rel.some (h.erase _)
            · exact Rel.some h
        · exact .none
    · exact .none

theorem discard_simulates (h : Reads P store written) (pending : StoredPendingSend) :
    Simulates P (discardPendingSendForUnavailableInteraction pending store)
      (discardPendingSendForUnavailableInteraction pending written) := by
  unfold discardPendingSendForUnavailableInteraction
  split
  · exact Rel.some (h.erase _)
  · refine Rel.some (h.filterValues fun r w means => ?_)
    obtain ⟨plaintext, intent, rfl⟩ := means.public
    rfl

theorem prune_simulates (h : Reads P store written) (expected : StoredPendingSend) :
    Simulates P (pruneReconciledTrustCancelledPendingSend expected store)
      (pruneReconciledTrustCancelledPendingSend expected written) := by
  unfold pruneReconciledTrustCancelledPendingSend
  obtain ⟨none, none'⟩ | ⟨r, w, found, found', means⟩ := h expected.clientMessageId
  · simpa [none, none'] using Rel.some h
  · simp only [found, found']
    have intents : w.operatorIntent.isSome = r.operatorIntent.isSome := by
      obtain ⟨version, marked, row⟩ := means
      have intents := row.intent
      generalize r.operatorIntent = i at intents
      generalize w.operatorIntent = j at intents
      obtain _ | _ := intents <;> rfl
    have same : reconciled expected w = reconciled expected r ∧ dependsOn expected w = dependsOn expected r := by
      obtain ⟨plaintext, intent, rfl⟩ := means.public
      exact ⟨rfl, rfl⟩
    have dependents := h.anyValue (p := dependsOn expected r) fun a b means => by
      obtain ⟨plaintext, intent, rfl⟩ := means.public
      rfl
    rw [intents, same.1, same.2, ← dependents]
    split
    · exact Rel.some (h.erase _)
    · exact Rel.some h

/-- Protecting a raw row changes nothing of what it means. -/
theorem migrate_reads (seals : Seals P) (h : Reads P store written) (iv : String → Nat) {legacy : StoredPendingSend} {s : PendingSends}
    (committed : migratePendingSend (P.mode iv) legacy store = some s) : Reads P s written := by
  unfold migratePendingSend at committed
  obtain ⟨none, none'⟩ | ⟨r, w, found, found', means⟩ := h legacy.clientMessageId
  · simp only [none, some.injEq] at committed
    rwa [← committed]
  · simp only [found] at committed
    obtain ⟨version, marked, row⟩ := means
    simp only [marked] at committed
    by_cases same : version = LEGACY_LOCAL_PROTECTION_VERSION ∧ r = legacy
    · rw [if_pos same, some.injEq] at committed
      obtain ⟨rfl, rfl⟩ := same
      subst committed
      refine h.rewrite found' ?_
      rw [raw_opens row, ← plain_pending]
      exact pending_means seals iv r
    · rw [if_neg same, some.injEq] at committed
      rwa [← committed]

end Vimla.DirectChats
