import Vimla.DirectChats.OutboxSteps
import Vimla.Lib.Runs

/-!
# Runs of the outbox

All stored rows stay readable exactly as long as no transaction seals into a row
that is still marked as raw. Such a row is found when it was changed between the
read and the write of its migration.
-/

namespace Vimla.DirectChats

open List Option Runs OrderedMap String

variable {P : LocalProtection} {dateParse : String → Option Int}

variable {op : OutboxOp}

theorem apply_simulates (seals : Seals P) {store written : PendingSends} (h : Reads P store written) (keyed : Keyed store)
    (iv : String → Nat) (unmixed : ¬ Mixes dateParse store op) :
    Simulates P (op.apply dateParse (P.mode iv) store) (op.apply dateParse Mode.plain written) := by
  cases op with
  | loadPendingSend | loadPendingSends => exact Rel.some h
  | cancelPendingSendsForTrust scope cancelledAt => exact cancel_simulates h scope cancelledAt
  | commitOutboundRatchets pending expected => exact commit_simulates seals h iv pending expected
  | completePendingSend pending messageId createdAt =>
    exact complete_simulates seals h keyed iv pending messageId createdAt unmixed
  | stagePendingOperatorDelivery input newId => exact stage_simulates seals h keyed iv input newId unmixed
  | completePendingOperatorIntent id => exact completeIntent_simulates h id
  | discardPendingSendForUnavailableInteraction pending => exact discard_simulates h pending
  | pruneReconciledTrustCancelledPendingSend expected => exact prune_simulates h expected

variable {mode : Mode} {r : StoredPendingSend} {key : String}

namespace Keyed

variable {store : PendingSends} (keyed : Keyed store)
include keyed

theorem set (own : r.clientMessageId = key) : Keyed (store.set key r) := by
  intro k r' found
  by_cases same : k = key
  · subst same
    obtain rfl : r = r' := by simpa using found
    exact own
  · rw [get_set_ne same] at found
    exact keyed k r' found

theorem erase (key : String) : Keyed (store.erase key) := by
  intro k r found
  by_cases same : k = key
  · subst same
    simp at found
  · rw [get_erase_ne same] at found
    exact keyed k r found

variable {s : PendingSends}

theorem apply (committed : op.apply dateParse mode store = some s) : Keyed s := by
  cases op with
  | loadPendingSend | loadPendingSends =>
    obtain rfl : store = s := some.inj committed
    exact keyed
  | cancelPendingSendsForTrust scope cancelledAt =>
    simp only [OutboxOp.apply, cancelPendingSendsForTrust] at committed
    split at committed
    · simp at committed
    · obtain rfl := some.inj committed
      intro key r found
      rw [get_mapValues] at found
      obtain ⟨r', found', rfl⟩ := map_eq_some_iff.1 found
      rw [← keyed key r' found', cancelRow]
      split <;> rfl
  | commitOutboundRatchets pending expected =>
    simp only [OutboxOp.apply, commitPendingSend] at committed
    split at committed
    · obtain rfl := some.inj committed
      exact keyed.set rfl
    · simp at committed
  | completePendingSend pending messageId createdAt =>
    simp only [OutboxOp.apply, completePendingSend] at committed
    split at committed
    · split at committed
      · obtain rfl := some.inj committed
        exact keyed
      next current found =>
        split at committed
        · simp at committed
        · split at committed
          · simp at committed
          · obtain rfl := some.inj committed
            refine keyed.set ?_
            exact keyed _ current found
    · split at committed
      · obtain rfl := some.inj committed
        exact keyed.erase _
      next parent found =>
        split at committed
        · simp at committed
        · split at committed
          · obtain rfl := some.inj committed
            exact keyed.erase _
          · obtain rfl := some.inj committed
            refine (keyed.set ?_).erase _
            exact keyed _ parent found
    · obtain rfl := some.inj committed
      exact keyed.erase _
  | stagePendingOperatorDelivery input newId =>
    simp only [OutboxOp.apply, stagePendingOperatorDelivery] at committed
    split at committed
    · simp at committed
    next parent found =>
      split at committed
      · split at committed
        · simp at committed
        · split at committed
          · obtain rfl := some.inj committed
            exact keyed
          · obtain rfl := some.inj committed
            refine keyed.set ?_
            exact keyed _ parent found
      · simp at committed
  | completePendingOperatorIntent id =>
    simp only [OutboxOp.apply, completePendingOperatorIntent] at committed
    split at committed
    · obtain rfl := some.inj committed
      exact keyed
    · split at committed
      · simp at committed
      · split at committed
        · simp at committed
        · split at committed <;> obtain rfl := some.inj committed
          · exact keyed.erase _
          · exact keyed
  | discardPendingSendForUnavailableInteraction pending =>
    simp only [OutboxOp.apply, discardPendingSendForUnavailableInteraction] at committed
    split at committed <;> obtain rfl := some.inj committed
    · exact keyed.erase _
    · intro key r found
      rw [get_filterValues] at found
      exact keyed key r (filter_eq_some_iff.1 found).1
  | pruneReconciledTrustCancelledPendingSend expected =>
    simp only [OutboxOp.apply, pruneReconciledTrustCancelledPendingSend] at committed
    split at committed
    · obtain rfl := some.inj committed
      exact keyed
    · split at committed <;> obtain rfl := some.inj committed
      · exact keyed.erase _
      · exact keyed

theorem migrate {legacy : StoredPendingSend}
    (committed : migratePendingSend mode legacy store = some s) : Keyed s := by
  unfold migratePendingSend at committed
  split at committed
  · obtain rfl := some.inj committed
    exact keyed
  · split at committed
    · simp at committed
    · split at committed <;> obtain rfl := some.inj committed
      · exact keyed.set rfl
      · exact keyed

end Keyed

theorem not_homogeneous (legacy : r.protectionVersion = some LEGACY_LOCAL_PROTECTION_VERSION)
    (secret : String × String) (mem : secret ∈ r.secrets) (marked : P.isProtectedLocalString secret.1 = true) :
    ¬ Homogeneous P r := by
  rintro (⟨version, _⟩ | ⟨_, raw⟩)
  · rw [legacy] at version
    exact absurd version (by decide)
  · rw [raw secret mem] at marked
    exact absurd marked (by decide)

variable {drafts l : List StoredOperatorOutput}

theorem mem_stageOutputs {id : String} {o : StoredOperatorOutput}
    (mem : o ∈ l) : o ∈ stageOutputs mode id drafts l := by
  induction drafts generalizing l with
  | nil => exact mem
  | cons draft drafts ih =>
    refine ih ?_
    rw [stageOutput]
    split
    · exact mem
    · exact mem_append_left _ mem

theorem stageOutputs_new (mode : Mode) (id : String)
    (new : ∃ draft ∈ drafts, ∀ o ∈ l, o.id ≠ draft.id) :
    ∃ draft ∈ drafts, protectOutput mode.sealing id draft ∈ stageOutputs mode id drafts l := by
  induction drafts generalizing l with
  | nil => simp at new
  | cons draft drafts ih =>
    rw [stageOutputs, foldl_cons]
    by_cases old : l.any (·.id = draft.id) = true
    · have here : stageOutput mode id l draft = l := by rw [stageOutput, if_pos old]
      rw [here]
      obtain ⟨d, mem, fresh⟩ := new
      obtain rfl | mem := mem_cons.1 mem
      · obtain ⟨o, there, same⟩ := any_eq_true.1 old
        exact absurd (by simpa using same) (fresh o there)
      · obtain ⟨d', mem', found⟩ := ih ⟨d, mem, fresh⟩
        exact ⟨d', mem_cons_of_mem _ mem', found⟩
    · have here : stageOutput mode id l draft = l ++ [protectOutput mode.sealing id draft] := by rw [stageOutput, if_neg old]
      rw [here]
      exact ⟨draft, mem_cons_self, mem_stageOutputs (by simp)⟩

/-- What is mixed cannot be read. -/
theorem Mixes.unreadable (seals : Seals P) {store : PendingSends} (mixes : Mixes dateParse store op)
    (iv : String → Nat) :
    ∃ s key r, op.apply dateParse (P.mode iv) store = some s ∧ s.get key = some r ∧ ¬ Homogeneous P r := by
  cases op with
  | completePendingSend pending messageId createdAt =>
    obtain ⟨intent, current, currentIntent, own, found, legacy, present, request, unstaged⟩ := mixes
    have stored : OutboxOp.apply dateParse (P.mode iv) (.completePendingSend pending messageId createdAt) store =
        some (store.set pending.clientMessageId (committedRow current pending
          (protectOperatorIntent (P.mode iv).sealing pending.clientMessageId intent) messageId createdAt)) := by
      simp [OutboxOp.apply, completePendingSend, own, found, present, request, unstaged]
    refine ⟨_, _, _, stored, get_set_self, ?_⟩
    refine not_homogeneous legacy (((P.mode iv).sealing intent.content
      (pendingAad pending.clientMessageId "operator-content"), pendingAad current.clientMessageId "operator-content")) ?_ (seals.marked ..)
    simp [StoredPendingSend.secrets, committedRow, StoredOperatorIntent.secrets, protectOperatorIntent]
  | stagePendingOperatorDelivery input newId =>
    obtain ⟨parent, intent, found, legacy, present, committed, created, run, current, draft, listed, fresh⟩ := mixes
    obtain ⟨messageId, committed⟩ := isSome_iff_exists.1 committed
    obtain ⟨createdAt, created⟩ := isSome_iff_exists.1 created
    have new : ∃ d ∈ draftOutputs newId input.outputs, ∀ o ∈ (intent.delivery.map (·.outputs)).getD [], o.id ≠ d.id := by
      obtain ⟨i, bound, rfl⟩ := mem_iff_getElem.1 listed
      refine ⟨_, mem_mapIdx.2 ⟨i, bound, rfl⟩, fun o mem => ?_⟩
      simpa using all_eq_true.1 fresh o mem
    obtain ⟨d, _, staged⟩ := stageOutputs_new (P.mode iv) input.parentClientMessageId new
    have matching : ¬ intent.delivery.any (·.runId ≠ input.runId) = true := by
      cases delivery : intent.delivery with
      | none => simp
      | some e => simpa [delivery] using run
    have stored : OutboxOp.apply dateParse (P.mode iv) (.stagePendingOperatorDelivery input newId) store =
        some (store.set input.parentClientMessageId (stagedRow parent intent {
          runId := input.runId, runStatus := input.runStatus, runUpdatedAt := input.runUpdatedAt,
          outputs := stageOutputs (P.mode iv) input.parentClientMessageId (draftOutputs newId input.outputs)
            ((intent.delivery.map (·.outputs)).getD []) })) := by
      simp only [OutboxOp.apply, stagePendingOperatorDelivery, found, present, committed, created]
      rw [if_neg matching, if_neg current]
    refine ⟨_, _, _, stored, get_set_self, ?_⟩
    refine not_homogeneous legacy (((protectOutput (P.mode iv).sealing input.parentClientMessageId d).plaintext,
      pendingAad parent.clientMessageId ("operator-output:" ++ d.id))) ?_ (seals.marked ..)
    exact mem_cons_of_mem _ (mem_append_right _ (mem_map.2 ⟨_, staged, rfl⟩))
  | _ => cases mixes

namespace Outbox

/-- A store that no call has used yet. -/
def start (P : LocalProtection) (store : PendingSends) : Outbox :=
  ⟨store, store.mapValues fun row => (unprotectPendingSend P row).getD row, fun _ => none⟩

/-- Every row is homogeneous, and loading it gives what was last written to it. -/
structure Readable (P : LocalProtection) (s : Outbox) : Prop where
  homogeneous : ∀ key row, s.store.get key = some row → Homogeneous P row
  loads : ∀ key, (s.store.get key).map (unprotectPendingSend P) = (s.written.get key).map some

/-- A call's own transaction does not seal into a row that is still raw. -/
def Unmixed (dateParse : String → Option Int) (s : Outbox) : OutboxEvent → Prop
  | .apply id _ => ∀ call, s.calls id = some call → s.ready call = true → ¬ Mixes dateParse s.store call.op
  | _ => True

structure Inv (P : LocalProtection) (s : Outbox) : Prop where
  reads : Reads P s.store s.written
  keyed : Keyed s.store

variable {s : Outbox}

theorem Inv.readable (inv : Inv P s) : s.Readable P where
  homogeneous key row found := by
    obtain ⟨none, _⟩ | ⟨r, w, found', _, means⟩ := inv.reads key
    · simp [found] at none
    · obtain rfl : row = r := by simpa [found] using found'
      exact homogeneous_iff.2 ⟨w, means⟩
  loads key := by
    obtain ⟨none, none'⟩ | ⟨r, w, found, found', means⟩ := inv.reads key
    · rw [none, none']
      rfl
    · rw [found, found', map_some, map_some, unprotectPendingSend_eq_some.2 means]

theorem Inv.start {store : PendingSends}
    (homogeneous : ∀ key row, store.get key = some row → Homogeneous P row) (keyed : Keyed store) :
    Inv P (Outbox.start P store) where
  keyed := keyed
  reads key := by
    simp only [Outbox.start, get_mapValues]
    cases found : store.get key with
    | none => exact .inl ⟨rfl, rfl⟩
    | some row =>
      obtain ⟨w, means⟩ := homogeneous_iff.1 (homogeneous key row found)
      exact .inr ⟨row, w, rfl, by simp [unprotectPendingSend_eq_some.2 means], means⟩

theorem Inv.committed (inv : Inv P s) (seals : Seals P) (unmixed : ¬ Mixes dateParse s.store op)
    (iv : String → Nat) : Inv P (s.commit P (op.apply dateParse) iv) := by
  have both := apply_simulates seals inv.reads inv.keyed iv unmixed
  unfold commit
  constructor
  · dsimp only
    generalize op.apply dateParse (P.mode iv) s.store = t at both
    generalize op.apply dateParse Mode.plain s.written = u at both
    obtain reads | _ := both
    · exact reads
    · exact inv.reads
  · dsimp only
    cases result : op.apply dateParse (P.mode iv) s.store with
    | none => exact inv.keyed
    | some t => exact inv.keyed.apply result

variable {e : OutboxEvent}

theorem Inv.step (seals : Seals P) (inv : Inv P s) (unmixed : s.Unmixed dateParse e) :
    Inv P (s.step P dateParse e) := by
  cases e with
  | begin id op =>
    simp only [Outbox.step]
    split
    · exact ⟨inv.reads, inv.keyed⟩
    · exact inv
  | read id =>
    simp only [Outbox.step]
    split
    · exact inv
    · unfold Outbox.read
      split
      · split <;> exact ⟨inv.reads, inv.keyed⟩
      · exact inv
  | migrate id iv =>
    simp only [Outbox.step]
    split
    · exact inv
    · unfold Outbox.migrate
      split
      · split
        next legacy _ _ _ =>
          cases result : migratePendingSend (P.mode iv) legacy s.store with
          | none => exact ⟨inv.reads, inv.keyed⟩
          | some t => exact ⟨migrate_reads seals inv.reads iv result, inv.keyed.migrate result⟩
        · exact ⟨inv.reads, inv.keyed⟩
      · exact inv
  | apply id iv =>
    simp only [Outbox.step]
    split
    · exact inv
    next call found =>
      split
      next ready =>
        have after := inv.committed seals (unmixed call found ready) iv
        exact ⟨after.reads, after.keyed⟩
      · exact inv

/-- A step that seals into a raw row leaves a row that cannot be read. -/
theorem Inv.unmixed (seals : Seals P)
    (readable : (s.step P dateParse e).Readable P) : s.Unmixed dateParse e := by
  cases e with
  | apply id iv =>
    intro call found ready mixes
    obtain ⟨t, key, r, committed, stored, unreadable⟩ := mixes.unreadable seals iv
    refine unreadable (readable.homogeneous key r ?_)
    simp [Outbox.step, found, ready, commit, setCall, committed, stored]
  | _ => trivial

end Outbox

/-- All rows stay readable in exactly the runs in which nothing is sealed into a raw row. -/
theorem outbox_readable (P : LocalProtection) (dateParse : String → Option Int) (seals : Seals P) (store : PendingSends)
    (homogeneous : ∀ key row, store.get key = some row → Homogeneous P row) (keyed : Keyed store)
    (events : List OutboxEvent) :
    Along (Outbox.step P dateParse) (Outbox.Unmixed dateParse) (.start P store) events ↔
      (Outbox.start P store).Readable P ∧
        Along (Outbox.step P dateParse) (fun s e => (s.step P dateParse e).Readable P) (.start P store) events := by
  have start := Outbox.Inv.start homogeneous keyed
  generalize Outbox.start P store = s at start
  constructor
  · intro admitted
    refine ⟨start.readable, along_of_invariant (P := Outbox.Inv P) ?_ ?_ admitted start⟩
    · exact fun s e unmixed inv => (inv.step seals unmixed).readable
    · exact fun s e unmixed inv => inv.step seals unmixed
  · rintro ⟨_, readable⟩
    induction events generalizing s with
    | nil => trivial
    | cons e events ih =>
      have unmixed := Outbox.Inv.unmixed seals readable.1
      exact ⟨unmixed, ih _ (start.step seals unmixed) readable.1 readable.2⟩

/-- Seals that name their associated data. -/
def labelled : LocalProtection where
  protectLocalString _ plaintext aad := ofList ('#' :: aad.toList ++ '#' :: plaintext.toList)
  unprotectLocalString value aad :=
    let label := '#' :: aad.toList ++ ['#']
    if label.isPrefixOf value.toList then some (ofList (value.toList.drop label.length)) else none
  isProtectedLocalString value := value.toList.head? = some '#'

theorem labelled_seals : Seals labelled where
  opens iv plaintext aad := by
    have split : '#' :: aad.toList ++ '#' :: plaintext.toList = ('#' :: aad.toList ++ ['#']) ++ plaintext.toList := by simp
    simp only [labelled, toList_ofList]
    rw [split, if_pos ( isPrefixOf_iff_prefix.2 (prefix_append _ _)), drop_left, ofList_toList]
  marked iv plaintext aad := by simp [labelled]

/-- The row of an invocation that was stored before rows were protected. -/
def legacyInvocation : StoredPendingSend where
  protectionVersion := some 0
  conversationId := "c"
  clientMessageId := "m"
  contentCommitmentB64 := none
  senderUserId := "u"
  senderDeviceId := "d"
  interactionEpoch := 1
  kind := .OPERATOR_INVOKE
  envelopes := []
  mentions := []
  plaintext := "ask"
  createdAt := "t"
  operatorIntent := some { clientRequestId := "r", content := "ask", contextMessages := [] }

def legacyOutbox : PendingSends := empty.set "m" legacyInvocation

theorem legacyOutbox_row {row : StoredPendingSend} (stored : legacyOutbox.get key = some row) :
    key = "m" ∧ row = legacyInvocation := by
  have mem : (key, row) ∈ [("m", legacyInvocation)] := get_eq_some.1 stored
  simpa using mem

/-- One tab recovers the row while another cancels it for trust. -/
def cancelledRecovery : List OutboxEvent :=
  [.begin 0 (.loadPendingSends "c" "d"), .read 0, .begin 1 (.cancelPendingSendsForTrust ⟨some "c", none, none⟩ "now"),
    .apply 1 fun _ => 0, .migrate 0 fun _ => 0, .apply 0 fun _ => 0,
    .begin 2 (.completePendingSend { legacyInvocation with protectionVersion := none } "s" "t"), .apply 2 fun _ => 0]

/-- The row was all raw; now loading it throws. -/
theorem recovery_mixes :
    Seals labelled ∧ Homogeneous labelled legacyInvocation ∧
    ((cancelledRecovery.foldl (Outbox.step labelled fun _ => none) (.start labelled legacyOutbox)).store.get "m").map
      (unprotectPendingSend labelled) = some none := by
  refine ⟨labelled_seals, .inr ⟨rfl, ?_⟩, ?_⟩
  · decide
  · decide +kernel

theorem outbox_readable_recovery :
    Along (Outbox.step labelled fun _ => none) (Outbox.Unmixed fun _ => none) (.start labelled legacyOutbox)
        [.begin 0 (.loadPendingSends "c" "d"), .read 0, .migrate 0 fun _ => 0] ↔
      (Outbox.start labelled legacyOutbox).Readable labelled ∧
        Along (Outbox.step labelled fun _ => none) (fun s e => (s.step labelled (fun _ => none) e).Readable labelled)
          (.start labelled legacyOutbox) [.begin 0 (.loadPendingSends "c" "d"), .read 0, .migrate 0 fun _ => 0] := by
  refine outbox_readable labelled (fun _ => none) labelled_seals legacyOutbox ?_ ?_ _
  · intro key row stored
    obtain ⟨rfl, rfl⟩ := legacyOutbox_row stored
    refine .inr ⟨rfl, ?_⟩
    decide
  · intro key row stored
    obtain ⟨rfl, rfl⟩ := legacyOutbox_row stored
    rfl

end Vimla.DirectChats
