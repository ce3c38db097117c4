import Vimla.Sync.Stream

/-!
# The rows of the sync stream

Under its locks a transaction counts on from what is committed, so the positions
of each user stay without gaps, and the rows up to a committed one do not change.
-/

namespace Vimla.Sync

open List Function Tables

/-- The positions after one, up to another. -/
def consecutive (a b : Int) : List Int := (List.range (b - a).toNat).map fun i : Nat => a + 1 + i

theorem consecutive_self (a : Int) : consecutive a a = [] := by simp [consecutive]

theorem consecutive_succ {a b : Int} (le : a ≤ b) : consecutive a (b + 1) = consecutive a b ++ [b + 1] := by
  have count : (b + 1 - a).toNat = (b - a).toNat + 1 := by omega
  rw [consecutive, count, range_succ, map_append, map_singleton, consecutive]
  congr 2
  omega

theorem mem_consecutive {a b x : Int} : x ∈ consecutive a b ↔ a < x ∧ x ≤ b := by
  rw [consecutive, mem_map]
  constructor
  · rintro ⟨i, mem, rfl⟩
    have := mem_range.1 mem
    omega
  · rintro ⟨low, high⟩
    exact ⟨(x - a - 1).toNat, mem_range.2 (by omega), by omega⟩

theorem consecutive_pairwise (a b : Int) : (consecutive a b).Pairwise (· < ·) := by
  rw [consecutive, pairwise_map]
  refine pairwise_lt_range.imp fun less => ?_
  omega

/-- A list in the order of its keys, cut at one of them. -/
theorem filter_split {α : Type} (key : α → Int) {l : List α} (ordered : (l.map key).Pairwise (· < ·)) {p m h : Int}
    (low : p ≤ m) (high : m ≤ h) : l.filter (fun x => p < key x ∧ key x ≤ h) =
      l.filter (fun x => p < key x ∧ key x ≤ m) ++ l.filter (fun x => m < key x ∧ key x ≤ h) := by
  induction l with
  | nil => rfl
  | cons x l ih =>
    rw [map_cons, pairwise_cons] at ordered
    by_cases before : key x ≤ m
    · by_cases within : p < key x
      · rw [filter_cons_of_pos (by simp; omega), filter_cons_of_pos (by simp; omega),
          filter_cons_of_neg (by simp; omega), ih ordered.2, cons_append]
      · rw [filter_cons_of_neg (by simp; omega), filter_cons_of_neg (by simp; omega),
          filter_cons_of_neg (by simp; omega), ih ordered.2]
    · have beyond : ∀ y ∈ x :: l, m < key y := by
        intro y mem
        obtain rfl | mem := mem_cons.1 mem
        · omega
        · have := ordered.1 (key y) (mem_map_of_mem mem)
          omega
      have none : (x :: l).filter (fun x => p < key x ∧ key x ≤ m) = [] := by
        rw [filter_eq_nil_iff]
        intro y mem
        have := beyond y mem
        simp only [decide_eq_true_eq, not_and, not_le]
        omega
      rw [none, nil_append]
      refine filter_congr fun y mem => ?_
      have := beyond y mem
      simp only [decide_eq_decide]
      omega

def Transaction.positions (tx : Transaction) : List (UserId × Int) := tx.call.elim [] (·.positions)

/-- The positions that the transaction has taken for a user. -/
def Transaction.taken (tx : Transaction) (userId : UserId) : List Int :=
  (tx.rows.filter (·.userId = userId)).map (·.position) ++ (tx.positions.filter (·.1 = userId)).map (·.2)

/-- A transaction that has written a user's state holds its lock and has taken the positions up to it. -/
def Holds (w : SyncStream) (t : Nat) (tx : Transaction) (userId : UserId) : Prop :=
  match tx.states userId with
  | none => tx.taken userId = []
  | some state => w.lockedBy userId = some t ∧ state.minRetainedPosition = w.tables.minRetainedPosition userId ∧
      w.tables.lastPosition userId ≤ state.lastPosition ∧ state.lastPosition ≤ MAX_BIGINT_64 ∧
      tx.taken userId = consecutive (w.tables.lastPosition userId) state.lastPosition

structure TransactionSound (F : Formats) (w : SyncStream) (t : Nat) (tx : Transaction) : Prop where
  holds : ∀ userId, Holds w t tx userId
  rows : ∀ row ∈ tx.rows, row.event.readable F = true
  event : ∀ call ∈ tx.call, call.event.readable F = true

structure StreamSound (F : Formats) (w : SyncStream) : Prop where
  tables : w.tables.Sound F
  transactions : ∀ t tx, w.transactions t = some tx → TransactionSound F w t tx

/-- What a reader may rely on from one statement to the next. -/
structure Grows (before after : Tables) : Prop where
  kept : ∀ userId, after.minRetainedPosition userId = before.minRetainedPosition userId
  later : ∀ userId, before.lastPosition userId ≤ after.lastPosition userId
  settled : ∀ userId position snapshotHead, snapshotHead ≤ before.lastPosition userId →
    after.between userId position snapshotHead = before.between userId position snapshotHead

theorem Grows.refl (tables : Tables) : Grows tables tables := ⟨fun _ => rfl, fun _ => le_rfl, fun _ _ _ _ => rfl⟩

section
variable {F : Formats} {w : SyncStream} {t : Nat} {tx : Transaction} {userId : UserId}

theorem Holds.congr {tx' : Transaction} (h : Holds w t tx userId)
    (states : tx'.states userId = tx.states userId) (taken : tx'.taken userId = tx.taken userId) :
    Holds w t tx' userId := by
  unfold Holds at h ⊢
  rw [states, taken]
  exact h

/-- The statements of other sessions do not concern a transaction. -/
theorem TransactionSound.elsewhere {v : SyncStream} (h : TransactionSound F w t tx)
    (locks : ∀ userId, w.lockedBy userId = some t → v.lockedBy userId = some t)
    (kept : ∀ userId, v.tables.minRetainedPosition userId = w.tables.minRetainedPosition userId)
    (last : ∀ userId, w.lockedBy userId = some t → v.tables.lastPosition userId = w.tables.lastPosition userId) :
    TransactionSound F v t tx := by
  refine ⟨fun userId => ?_, h.rows, h.event⟩
  have holds := h.holds userId
  unfold Holds at holds ⊢
  split
  · rename_i none
    rw [none] at holds
    exact holds
  · rename_i state some_
    rw [some_] at holds
    obtain ⟨locked, min, low, high, taken⟩ := holds
    rw [last userId locked, kept userId]
    exact ⟨locks userId locked, min, low, high, taken⟩

section
variable (h : StreamSound F w)
include h

theorem StreamSound.leave (t : Nat) : StreamSound F (w.leave t) := by
  refine ⟨h.tables, fun t' tx at_ => ?_⟩
  by_cases same : t' = t
  · subst same
    simp [SyncStream.leave] at at_
  · simp only [SyncStream.leave, update_of_ne same] at at_
    refine (h.transactions t' tx at_).elsewhere ?_ (fun _ => rfl) (fun _ _ => rfl)
    intro userId locked
    simp [SyncStream.leave, locked, if_neg same]

theorem StreamSound.put (sound : TransactionSound F w t tx) : StreamSound F (w.put t tx) := by
  refine ⟨h.tables, fun t' tx' at_ => ?_⟩
  by_cases same : t' = t
  · subst same
    simp only [SyncStream.put, update_self, Option.some.injEq] at at_
    subst at_
    exact sound.elsewhere (fun _ locked => locked) (fun _ => rfl) (fun _ _ => rfl)
  · simp only [SyncStream.put, update_of_ne same] at at_
    exact (h.transactions t' tx' at_).elsewhere (fun _ locked => locked) (fun _ => rfl) (fun _ _ => rfl)

theorem StreamSound.write {call : Option WriterCall}
    (readable : ∀ c ∈ call, c.event.readable F = true) : StreamSound F (w.write t call) := by
  unfold SyncStream.write
  split
  · rename_i rows states at_
    split
    · exact h.leave t
    · rename_i c
      have sound := h.transactions t _ at_
      exact h.put ⟨sound.holds, sound.rows, fun call made => by cases made; exact readable c rfl⟩
  · exact h

theorem StreamSound.create : StreamSound F (w.create t) := by
  unfold SyncStream.create
  split
  · rename_i positions event rows states at_
    have sound := h.transactions t _ at_
    have readable := sound.event _ rfl
    refine h.put ⟨fun userId => ?_, fun row mem => ?_, by simp⟩
    · have holds := sound.holds userId
      have same : Transaction.taken ⟨none, rows ++ positions.map fun taken => ⟨taken.1, taken.2, event⟩, states⟩ userId =
          Transaction.taken ⟨some ⟨[], positions, event⟩, rows, states⟩ userId := by
        simp [Transaction.taken, Transaction.positions, filter_map, comp_def]
      exact holds.congr rfl same
    · obtain old | new := mem_append.1 mem
      · exact sound.rows row old
      · obtain ⟨_, _, rfl⟩ := mem_map.1 new
        exact readable
  · exact h

theorem StreamSound.lock (free : w.lockedBy userId = none ∨ w.lockedBy userId = some t) :
    StreamSound F { w with lockedBy := update w.lockedBy userId (some t) } := by
  refine ⟨h.tables, fun t' tx at_ => (h.transactions t' tx at_).elsewhere (fun other locked => ?_) (fun _ => rfl) fun _ _ => rfl⟩
  by_cases same : other = userId
  · subst same
    obtain none | own := free
    · simp [none] at locked
    · simp only [update_self]
      exact own.symm.trans locked
  · simpa [update_of_ne same] using locked

/-- The state of a user after the next position is taken. -/
theorem StreamSound.next (at_ : w.transactions t = some tx) (userId : UserId) :
    let state : UserSyncState := ((tx.states userId).or (w.tables.states userId)).elim ⟨1, 0⟩ fun s =>
      { s with lastPosition := s.lastPosition + 1 }
    state.minRetainedPosition = w.tables.minRetainedPosition userId ∧
      w.tables.lastPosition userId ≤ state.lastPosition ∧
      tx.taken userId ++ [state.lastPosition] = consecutive (w.tables.lastPosition userId) state.lastPosition := by
  have holds := (h.transactions t tx at_).holds userId
  unfold Holds at holds
  cases own : tx.states userId with
  | none =>
    rw [own] at holds
    have single : ∀ a : Int, [a + 1] = consecutive a (a + 1) := fun a => by
      rw [consecutive_succ le_rfl, consecutive_self, nil_append]
    cases stored : w.tables.states userId with
    | none =>
      simp only [Option.or_none, Option.elim_none, minRetainedPosition, lastPosition, stored, holds,
        nil_append, true_and]
      exact ⟨by omega, single 0⟩
    | some s =>
      simp only [Option.none_or, Option.elim_some, minRetainedPosition, lastPosition, stored, holds,
        nil_append, true_and]
      exact ⟨by omega, single s.lastPosition⟩
  | some s =>
    rw [own] at holds
    obtain ⟨_, min, low, _, taken⟩ := holds
    simp only [Option.some_or, Option.elim_some]
    refine ⟨min, by omega, ?_⟩
    rw [taken, consecutive_succ low]

theorem StreamSound.upsert : StreamSound F (w.upsert t) := by
  unfold SyncStream.upsert
  split
  · rename_i userId todo positions event rows states at_
    split
    · rename_i free
      have next := h.next at_ userId
      dsimp only at next ⊢
      generalize ((states userId).or (w.tables.states userId)).elim (⟨1, 0⟩ : UserSyncState)
        (fun s => { s with lastPosition := s.lastPosition + 1 }) = state at next ⊢
      split
      · exact h.leave t
      · rename_i fits
        obtain ⟨min, low, taken⟩ := next
        have sound := h.transactions t _ at_
        have locked := h.lock free
        refine locked.put ⟨fun other => ?_, sound.rows, fun call made => ?_⟩
        · by_cases same : other = userId
          · subst same
            simp only [Holds, update_self]
            refine ⟨trivial, min, low, by omega, ?_⟩
            rw [← taken]
            simp [Transaction.taken, Transaction.positions]
          · have holds := (locked.transactions t _ at_).holds other
            have kept : Transaction.taken ⟨some ⟨todo, positions ++ [(userId, state.lastPosition)], event⟩, rows,
                update states userId (some state)⟩ other =
                Transaction.taken ⟨some ⟨userId :: todo, positions, event⟩, rows, states⟩ other := by
              simp [Transaction.taken, Transaction.positions, Ne.symm same]
            exact holds.congr (update_of_ne same ..) kept
        · cases made
          exact (sound.event ⟨userId :: todo, positions, event⟩ rfl : event.readable F = true)
    · exact h
  · exact h

end

theorem Tables.Sound.between_eq {tables : Tables} (sound : tables.Sound F) (userId : UserId) (position snapshotHead : Int) :
    tables.between userId position snapshotHead = (tables.recipients.filter (·.userId = userId)).filter
      fun row => position < row.position ∧ row.position ≤ snapshotHead := by
  have sub : (tables.recipients.filter fun row => row.userId = userId ∧ position < row.position ∧
      row.position ≤ snapshotHead) = (tables.recipients.filter (·.userId = userId)).filter
        fun row => position < row.position ∧ row.position ≤ snapshotHead := by
    rw [filter_filter]
    refine filter_congr fun row _ => ?_
    by_cases same : row.userId = userId <;> simp [same]
  have ordered := sound.ordered userId
  rw [pairwise_map] at ordered
  rw [between, Sync.between, Js.sort, sub]
  refine List.Pairwise.insertionSort_eq ?_
  refine (ordered.filter _).imp fun less => ?_
  rw [compare_lt_iff_lt.2 less]
  rfl

/-- The tables once a transaction has committed. -/
def Tables.with (tables : Tables) (rows : List Recipient) (states : UserId → Option UserSyncState) : Tables :=
  { tables with
    states := fun userId => (states userId).or (tables.states userId), recipients := tables.recipients ++ rows }

section
variable (h : StreamSound F w) {rows : List Recipient} {states : UserId → Option UserSyncState}
  (at_ : w.transactions t = some ⟨none, rows, states⟩)
include h at_

theorem StreamSound.counted (userId : UserId) :
    (w.tables.with rows states).minRetainedPosition userId = w.tables.minRetainedPosition userId ∧
      w.tables.lastPosition userId ≤ (w.tables.with rows states).lastPosition userId ∧
      (w.tables.with rows states).lastPosition userId ≤ MAX_BIGINT_64 ∧
      (rows.filter (·.userId = userId)).map (·.position) =
        consecutive (w.tables.lastPosition userId) ((w.tables.with rows states).lastPosition userId) := by
  have holds := (h.transactions t _ at_).holds userId
  have taken : Transaction.taken ⟨none, rows, states⟩ userId = (rows.filter (·.userId = userId)).map (·.position) := by
    simp [Transaction.taken, Transaction.positions]
  unfold Holds at holds
  rw [taken] at holds
  cases own : states userId with
  | none =>
    simp only [own] at holds
    have same : (w.tables.with rows states).states userId = w.tables.states userId := by simp [Tables.with, own]
    simp only [minRetainedPosition, lastPosition, same, holds, consecutive_self, true_and, and_true]
    exact ⟨le_rfl, (h.tables.bounded userId).2.2⟩
  | some s =>
    simp only [own] at holds
    have same : (w.tables.with rows states).states userId = some s := by simp [Tables.with, own]
    obtain ⟨_, min, low, high, positions⟩ := holds
    have last : (w.tables.with rows states).lastPosition userId = s.lastPosition := by
      simp [lastPosition, same]
    rw [last]
    refine ⟨?_, low, high, positions⟩
    simp only [minRetainedPosition, same, Option.elim_some] at min ⊢
    exact min

theorem StreamSound.committed :
    (w.tables.with rows states).Sound F ∧ Grows w.tables (w.tables.with rows states) := by
  have counted := h.counted at_
  have sound := h.tables
  have after : ∀ row ∈ rows, w.tables.lastPosition row.userId < row.position ∧
      row.position ≤ (w.tables.with rows states).lastPosition row.userId := by
    intro row mem
    rw [← mem_consecutive, ← (counted row.userId).2.2.2]
    exact mem_map_of_mem (mem_filter.2 ⟨mem, by simp⟩)
  have whole : (w.tables.with rows states).Sound F := by
    constructor
    · intro userId
      have bounded := sound.bounded userId
      have here := counted userId
      omega
    · intro userId
      simp only [Tables.with, filter_append, map_append, pairwise_append]
      refine ⟨sound.ordered userId, ?_, ?_⟩
      · rw [(counted userId).2.2.2]
        exact consecutive_pairwise _ _
      · intro x old y new
        rw [(counted userId).2.2.2, mem_consecutive] at new
        obtain ⟨row, mem, rfl⟩ := mem_map.1 old
        obtain ⟨mem, same⟩ := mem_filter.1 mem
        have below := sound.within row mem
        rw [decide_eq_true_iff] at same
        rw [same] at below
        omega
    · intro row mem
      obtain old | new := mem_append.1 mem
      · exact (sound.within row old).trans (counted row.userId).2.1
      · exact (after row new).2
    · intro userId position low high
      by_cases old : position ≤ w.tables.lastPosition userId
      · rw [(counted userId).1] at low
        obtain ⟨row, mem, here⟩ := sound.dense userId position low old
        exact ⟨row, mem_append_left _ mem, here⟩
      · have new := mem_consecutive.2 ⟨Int.not_le.1 old, high⟩
        rw [← (counted userId).2.2.2] at new
        obtain ⟨row, mem, rfl⟩ := mem_map.1 new
        obtain ⟨mem, same⟩ := mem_filter.1 mem
        exact ⟨row, mem_append_right _ mem, by simpa using same, rfl⟩
    · intro row mem
      obtain old | new := mem_append.1 mem
      · exact sound.readable row old
      · exact (h.transactions t _ at_).rows row new
  refine ⟨whole, fun userId => (counted userId).1, fun userId => (counted userId).2.1, fun userId position head reached => ?_⟩
  have none : rows.filter (fun row => row.userId = userId ∧ position < row.position ∧ row.position ≤ head) = [] := by
    rw [filter_eq_nil_iff]
    intro row mem
    have beyond := (after row mem).1
    simp only [decide_eq_true_eq, not_and, not_le]
    rintro rfl _
    omega
  simp only [Tables.between, Sync.between, Tables.with, filter_append, none, append_nil]

end

theorem StreamSound.commit (h : StreamSound F w) :
    StreamSound F (w.commit t) ∧ Grows w.tables (w.commit t).tables := by
  unfold SyncStream.commit
  split
  · rename_i rows states at_
    obtain ⟨sound, grows⟩ := h.committed at_
    refine ⟨⟨sound, fun t' tx there => ?_⟩, grows⟩
    have other : t' ≠ t := by
      rintro rfl
      simp [SyncStream.leave] at there
    simp only [SyncStream.leave, update_of_ne other] at there
    refine (h.transactions t' tx there).elsewhere (fun userId locked => ?_) grows.kept fun userId locked => ?_
    · simp [SyncStream.leave, locked, if_neg other]
    · -- the lock is the other one's, so this transaction has not written the row
      have holds := (h.transactions t _ at_).holds userId
      unfold Holds at holds
      cases own : states userId with
      | none => simp [lastPosition, own]
      | some s =>
        simp only [own] at holds
        exact absurd (Option.some.inj (locked.symm.trans holds.1)) other
  · exact ⟨h, .refl _⟩

theorem SyncStream.tables_write (w : SyncStream) (t : Nat) (call : Option WriterCall) : (w.write t call).tables = w.tables := by
  unfold SyncStream.write
  split
  · split <;> rfl
  · rfl

theorem SyncStream.tables_upsert (w : SyncStream) (t : Nat) : (w.upsert t).tables = w.tables := by
  unfold SyncStream.upsert
  split
  · split
    · dsimp only
      split <;> rfl
    · rfl
  · rfl

theorem SyncStream.tables_create (w : SyncStream) (t : Nat) : (w.create t).tables = w.tables := by
  unfold SyncStream.create
  split <;> rfl

theorem SyncStream.client_write (w : SyncStream) (t : Nat) (call : Option WriterCall) : (w.write t call).client = w.client := by
  unfold SyncStream.write
  split
  · split <;> rfl
  · rfl

theorem SyncStream.client_upsert (w : SyncStream) (t : Nat) : (w.upsert t).client = w.client := by
  unfold SyncStream.upsert
  split
  · split
    · dsimp only
      split <;> rfl
    · rfl
  · rfl

theorem SyncStream.client_create (w : SyncStream) (t : Nat) : (w.create t).client = w.client := by
  unfold SyncStream.create
  split <;> rfl

theorem SyncStream.client_commit (w : SyncStream) (t : Nat) : (w.commit t).client = w.client := by
  unfold SyncStream.commit
  split <;> rfl

/-- A query changes nothing but what the client has read. -/
theorem SyncStream.findState_eq (w : SyncStream) (hmac : Hmac) (secret : Text) (reader : UserId) (limit : Nat) :
    ∃ client, w.findState hmac secret reader limit = { w with client } := by
  unfold SyncStream.findState
  split
  · split
    · split <;> exact ⟨_, rfl⟩
    · exact ⟨_, rfl⟩
  · exact ⟨_, rfl⟩

theorem SyncStream.findRecipients_eq (w : SyncStream) (reader : UserId) :
    ∃ client, w.findRecipients reader = { w with client } := by
  unfold SyncStream.findRecipients
  split
  · dsimp only
    split <;> exact ⟨_, rfl⟩
  · exact ⟨_, rfl⟩

theorem SyncStream.findMembers_eq (w : SyncStream) (F : Formats) (hmac : Hmac) (secret : Text) (reader : UserId) :
    ∃ client, w.findMembers F hmac secret reader = { w with client } := by
  unfold SyncStream.findMembers
  split
  · split <;> exact ⟨_, rfl⟩
  · exact ⟨_, rfl⟩

/-- Every step keeps what a reader relies on. -/
theorem StreamSound.step (h : StreamSound F w) (hmac : Hmac) (secret : Text) (reader : UserId) (ev : StreamEvent) :
    StreamSound F (w.step F hmac secret reader ev) ∧ Grows w.tables (w.step F hmac secret reader ev).tables := by
  have unchanged : ∀ {v : SyncStream}, (∃ client, v = { w with client }) → StreamSound F v ∧ Grows w.tables v.tables := by
    rintro _ ⟨client, rfl⟩
    exact ⟨⟨h.tables, fun t tx at_ => (h.transactions t tx at_).elsewhere (fun _ locked => locked) (fun _ => rfl)
      fun _ _ => rfl⟩, .refl _⟩
  have within : ∀ {v : SyncStream}, StreamSound F v → v.tables = w.tables → StreamSound F v ∧ Grows w.tables v.tables :=
    fun sound same => ⟨sound, same ▸ .refl _⟩
  cases ev with
  | begin t =>
    simp only [SyncStream.step]
    split
    · exact ⟨h, .refl _⟩
    · exact within (h.put ⟨fun userId => rfl, by simp, by simp⟩) rfl
  | directMessageCreated t input =>
    exact within (h.write fun call made => readable_created (Option.mem_def.1 made)) (w.tables_write t _)
  | directReadUpdated t input eventId =>
    exact within (h.write fun call made => readable_read (Option.mem_def.1 made)) (w.tables_write t _)
  | upsert t => exact within h.upsert (w.tables_upsert t)
  | create t => exact within h.create (w.tables_create t)
  | commit t => exact h.commit
  | abort t => exact within (h.leave t) rfl
  | membership userId conversationId joined =>
    refine ⟨⟨⟨h.tables.bounded, h.tables.ordered, h.tables.within, h.tables.dense, h.tables.readable⟩, fun t tx at_ =>
      (h.transactions t tx at_).elsewhere (fun _ locked => locked) (fun _ => rfl) fun _ _ => rfl⟩, ?_⟩
    exact ⟨fun _ => rfl, fun _ => le_rfl, fun _ _ _ _ => rfl⟩
  | findState limit => exact unchanged (w.findState_eq hmac secret reader limit)
  | findRecipients => exact unchanged (w.findRecipients_eq reader)
  | findMembers => exact unchanged (w.findMembers_eq F hmac secret reader)

end

end Vimla.Sync
