import Mathlib

/-!
# The read position

`markRead` of one member of a conversation, from any devices, among the sends of
anyone. A call locks the member's row until it commits.
-/

namespace Vimla.DirectMessages

open List Nat

/-- The columns of `direct_message` that the position depends on. -/
structure MessageRow where
  id : String
  conversationId : String
  senderUserId : String
  sequence : Nat

structure MarkDirectChatRead where
  seenMessageIds : List String
  unique : seenMessageIds.Nodup

/-- A transaction that holds the row, with what it has read. -/
structure Marking where
  input : MarkDirectChatRead
  lastReadMessageSequence : Option Nat
  messages : Option (List MessageRow)

structure ReadTables where
  messages : List MessageRow
  lastMessageSequence : Nat
  lastReadMessageSequence : Option Nat
  running : Option Marking
  /-- The calls of `directReadUpdated`. -/
  events : Nat
  /-- What the calls that have committed list. -/
  listed : List MessageRow

inductive ReadEvent
  | send (id senderUserId : String)
  /-- A message of another conversation. -/
  | elsewhere (message : MessageRow)
  | lock (input : MarkDirectChatRead)
  | find
  | commit
  | abort

section
variable (conversationId userId : String)

def observedPeerSequence (messages : List MessageRow) : Nat :=
  messages.foldl (fun max m => if m.senderUserId ≠ userId ∧ m.sequence > max then m.sequence else max) 0

def Marking.next (r : Marking) (messages : List MessageRow) : Nat :=
  let currentSequence := r.lastReadMessageSequence.getD 0
  if observedPeerSequence userId messages > currentSequence then observedPeerSequence userId messages else currentSequence

def ReadTables.step (t : ReadTables) : ReadEvent → ReadTables
  | .send id senderUserId =>
    if t.messages.any (·.id = id) then t
    else { t with
      messages := t.messages ++ [⟨id, conversationId, senderUserId, t.lastMessageSequence + 1⟩]
      lastMessageSequence := t.lastMessageSequence + 1 }
  | .elsewhere message =>
    if message.conversationId = conversationId ∨ t.messages.any (·.id = message.id) then t
    else { t with messages := t.messages ++ [message] }
  | .lock input => if t.running.isSome then t else { t with running := some ⟨input, t.lastReadMessageSequence, none⟩ }
  | .find =>
    match t.running with
    | some ⟨input, last, none⟩ =>
      let messages := t.messages.filter fun m => m.conversationId = conversationId ∧ m.id ∈ input.seenMessageIds
      { t with running := if messages.length ≠ input.seenMessageIds.length then none else some ⟨input, last, some messages⟩ }
    | _ => t
  | .commit =>
    match t.running with
    | some ⟨input, last, some messages⟩ =>
      let nextSequence := Marking.next userId ⟨input, last, some messages⟩ messages
      { t with
        running := none
        lastReadMessageSequence := if input.seenMessageIds ≠ [] ∧ some nextSequence ≠ last then some nextSequence
          else t.lastReadMessageSequence
        events := if nextSequence > last.getD 0 then t.events + 1 else t.events
        listed := t.listed ++ messages }
    | _ => t
  | .abort => { t with running := none }

def ReadTables.start : ReadTables := ⟨[], 0, none, none, 0, []⟩

def ReadTables.run (events : List ReadEvent) : ReadTables := events.foldl (ReadTables.step conversationId userId) .start

def Peer (m : MessageRow) : Bool := m.conversationId = conversationId ∧ m.senderUserId ≠ userId

def ReadTables.unread (t : ReadTables) (m : MessageRow) : Bool :=
  Peer conversationId userId m ∧ t.lastReadMessageSequence.all (· < m.sequence)

/-- The inbox counts the same rows of each conversation. -/
def readUnreadCount (t : ReadTables) : Nat := t.messages.countP (t.unread conversationId userId)

def ReadTables.position (t : ReadTables) : Nat := t.lastReadMessageSequence.getD 0

/-- The greatest sequence of the peer's messages among these, or zero. -/
structure Greatest (messages : List MessageRow) (position : Nat) : Prop where
  bound : ∀ m ∈ messages, m.senderUserId ≠ userId → m.sequence ≤ position
  reached : position = 0 ∨ ∃ m ∈ messages, m.senderUserId ≠ userId ∧ m.sequence = position

structure ReadHolds (t : ReadTables) : Prop where
  listed : ∀ m ∈ t.listed, m ∈ t.messages ∧ m.conversationId = conversationId
  greatest : Greatest userId t.listed t.position
  unread : readUnreadCount conversationId userId t =
    t.messages.countP fun m => Peer conversationId userId m ∧ t.position < m.sequence
  later : ∀ earlier m rest, t.messages = earlier ++ m :: rest → Peer conversationId userId m → (∀ l ∈ t.listed, l ∈ earlier) →
    t.unread conversationId userId m

/-- What a step makes of the position: only a commit moves it, and one event tells
that it has; a call that lists a message of no row of the conversation ends. -/
structure StepHolds (t : ReadTables) (e : ReadEvent) (t' : ReadTables) : Prop where
  forward : t.position ≤ t'.position
  told : t'.events = t.events + if t.position < t'.position then 1 else 0
  quiet : e ≠ .commit → t'.lastReadMessageSequence = t.lastReadMessageSequence
  foreign : ∀ input last, e = .find → t.running = some ⟨input, last, none⟩ →
    (∃ id ∈ input.seenMessageIds, ∀ m ∈ t.messages, m.id = id → m.conversationId ≠ conversationId) → t' = { t with running := none }

end

structure ReadSound (conversationId userId : String) (t : ReadTables) : Prop where
  ids : (t.messages.map MessageRow.id).Nodup
  numbered : ∀ m ∈ t.messages, m.conversationId = conversationId → 0 < m.sequence ∧ m.sequence ≤ t.lastMessageSequence
  ordered : t.messages.Pairwise fun a b => a.conversationId = conversationId → b.conversationId = conversationId →
    a.sequence < b.sequence
  /-- What a transaction has read still stands. -/
  running : ∀ r, t.running = some r → r.lastReadMessageSequence = t.lastReadMessageSequence ∧
    ∀ found, r.messages = some found → found.length = r.input.seenMessageIds.length ∧
      ∀ m ∈ found, m ∈ t.messages ∧ m.conversationId = conversationId
  listed : ∀ m ∈ t.listed, m ∈ t.messages ∧ m.conversationId = conversationId
  greatest : Greatest userId t.listed t.position

variable {conversationId userId : String} {t : ReadTables}

theorem Greatest.append {l l' : List MessageRow} {n n' : Nat} (h : Greatest userId l n) (h' : Greatest userId l' n') :
    Greatest userId (l ++ l') (if n' > n then n' else n) := by
  refine ⟨fun m mem peer => ?_, ?_⟩
  · have bound := (mem_append.mp mem).imp (h.bound m · peer) (h'.bound m · peer)
    split <;> omega
  · split
    · exact h'.reached.imp id fun ⟨m, mem, has⟩ => ⟨m, mem_append_right _ mem, has⟩
    · exact h.reached.imp id fun ⟨m, mem, has⟩ => ⟨m, mem_append_left _ mem, has⟩

theorem observed_greatest (messages : List MessageRow) : Greatest userId messages (observedPeerSequence userId messages) := by
  induction messages using reverseRecOn with
  | nil => exact ⟨nofun, .inl rfl⟩
  | append_singleton messages m ih =>
    rw [observedPeerSequence, foldl_append, ← observedPeerSequence]
    by_cases own : m.senderUserId = userId
    · have single : Greatest userId [m] 0 := ⟨by simp [own], .inl rfl⟩
      simpa [own] using ih.append single
    · have single : Greatest userId [m] m.sequence := ⟨by simp, .inr ⟨m, by simp, own, rfl⟩⟩
      simpa [own] using ih.append single

variable {input : MarkDirectChatRead} {last : Option Nat}

/-- The position that a commit leaves. -/
theorem ReadSound.position_commit (sound : ReadSound conversationId userId t)
    {messages : List MessageRow} (found : t.running = some ⟨input, last, some messages⟩) :
    (t.step conversationId userId .commit).position = Marking.next userId ⟨input, last, some messages⟩ messages := by
  obtain ⟨is, reads⟩ := sound.running _ found
  obtain rfl : last = t.lastReadMessageSequence := is
  simp only [ReadTables.step, found, ReadTables.position]
  split
  · rfl
  next same =>
    by_cases none_ : input.seenMessageIds = []
    · obtain rfl : messages = [] := length_eq_zero_iff.mp ((reads _ rfl).1.trans (by simp [none_]))
      simp [Marking.next, observedPeerSequence]
    · conv_lhs => rw [← not_not.mp fun differs => same ⟨none_, differs⟩]
      rfl

theorem ReadSound.commit (sound : ReadSound conversationId userId t) : ReadSound conversationId userId (t.step conversationId userId .commit) := by
  match found : t.running with
  | some ⟨input, last, some messages⟩ =>
    have is : last = t.lastReadMessageSequence := (sound.running _ found).1
    have rows := ((sound.running _ found).2 _ rfl).2
    have greatest : Greatest userId (t.listed ++ messages) (t.step conversationId userId .commit).position := by
      rw [sound.position_commit found]
      exact (is ▸ sound.greatest : Greatest userId t.listed (last.getD 0)).append (observed_greatest messages)
    simp only [ReadTables.step, found] at greatest ⊢
    exact ⟨sound.ids, sound.numbered, sound.ordered, nofun, fun m mem => (mem_append.mp mem).elim (sound.listed m) (rows m), greatest⟩
  | none | some ⟨_, _, none⟩ => simpa only [ReadTables.step, found] using sound

/-- A new message. -/
theorem ReadSound.add (sound : ReadSound conversationId userId t) {m : MessageRow} {n : Nat} (fresh : ¬ t.messages.any (·.id = m.id))
    (le : t.lastMessageSequence ≤ n) (next : m.conversationId = conversationId → t.lastMessageSequence < m.sequence ∧ m.sequence ≤ n) :
    ReadSound conversationId userId { t with messages := t.messages ++ [m], lastMessageSequence := n } := by
  refine ⟨?_, fun l mem own => ?_, pairwise_append.mpr ⟨sound.ordered, pairwise_singleton _ _, fun l mem k is own own' => ?_⟩,
    fun r has => ?_, fun l mem => (sound.listed l mem).imp_left (mem_append_left _), sound.greatest⟩
  · rw [map_append, nodup_append]
    refine ⟨sound.ids, by simp, fun id mem id' is same => fresh ?_⟩
    obtain ⟨l, inside, rfl⟩ := mem_map.mp mem
    exact any_eq_true.mpr ⟨l, inside, decide_eq_true (same.trans (mem_singleton.mp is))⟩
  · rcases mem_append.mp mem with mem | mem
    · exact (sound.numbered l mem own).imp_right (le_trans · le)
    · obtain rfl := mem_singleton.mp mem
      exact (next own).imp_left (lt_of_le_of_lt (zero_le _))
  · obtain rfl := mem_singleton.mp is
    exact lt_of_le_of_lt (sound.numbered l mem own).2 (next own').1
  · obtain ⟨is, found⟩ := sound.running r has
    exact ⟨is, fun l has => (found l has).imp_right fun rows m mem => (rows m mem).imp_left (mem_append_left _)⟩

theorem ReadSound.step (sound : ReadSound conversationId userId t) (e : ReadEvent) :
    ReadSound conversationId userId (t.step conversationId userId e) := by
  cases e with
  | send id sender =>
    rw [ReadTables.step]
    split
    · exact sound
    next fresh => exact sound.add fresh (le_succ _) fun _ => ⟨lt_succ_self _, le_refl _⟩
  | elsewhere m =>
    rw [ReadTables.step]
    split
    · exact sound
    next other => exact sound.add (other ∘ .inr) (le_refl _) fun own => absurd (.inl own) other
  | lock input =>
    rw [ReadTables.step]
    split
    · exact sound
    · exact { sound with running := fun r is => Option.some.inj is ▸ ⟨rfl, nofun⟩ }
  | find =>
    match found : t.running with
    | some ⟨input, last, none⟩ =>
      simp only [ReadTables.step, found]
      refine { sound with running := fun r is => ?_ }
      split at is <;> cases is
      next all =>
        refine ⟨(sound.running _ found).1, fun messages is => ?_⟩
        cases is
        exact ⟨not_not.mp all, fun m mem => (mem_filter.mp mem).imp_right fun has => (of_decide_eq_true has).1⟩
    | none | some ⟨_, _, some _⟩ => simpa only [ReadTables.step, found] using sound
  | commit => exact sound.commit
  | abort => exact { sound with running := nofun }

theorem ReadSound.run (events : List ReadEvent) : ReadSound conversationId userId (.run conversationId userId events) := by
  induction events using reverseRecOn with
  | nil => exact ⟨.nil, nofun, .nil, nofun, nofun, nofun, .inl rfl⟩
  | append_singleton events e ih =>
    rw [ReadTables.run, foldl_append]
    exact ih.step e

theorem ReadSound.holds (sound : ReadSound conversationId userId t) : ReadHolds conversationId userId t where
  listed := sound.listed
  greatest := sound.greatest
  unread := by
    refine countP_congr fun m mem => ?_
    simp only [ReadTables.unread, decide_eq_true_iff]
    refine and_congr_right fun peer => ?_
    have pos := (sound.numbered m mem (of_decide_eq_true peer).1).1
    unfold ReadTables.position
    cases t.lastReadMessageSequence <;> simp [pos]
  later earlier m rest is peer listed := by
    have own := (of_decide_eq_true peer).1
    have ordered := sound.ordered
    rw [is] at ordered
    have beyond : t.position < m.sequence := by
      rcases sound.greatest.reached with zero | ⟨l, mem, -, reached⟩
      · rw [zero]
        exact (sound.numbered m (by simp [is]) own).1
      · rw [← reached]
        exact (pairwise_append.mp ordered).2.2 l (listed l mem) m mem_cons_self (sound.listed l mem).2 own
    simp only [ReadTables.unread, decide_eq_true_iff]
    refine ⟨peer, ?_⟩
    unfold ReadTables.position at beyond
    cases last : t.lastReadMessageSequence <;> simp_all

theorem step_quiet {e : ReadEvent} (quiet : e ≠ .commit) :
    (t.step conversationId userId e).lastReadMessageSequence = t.lastReadMessageSequence ∧
      (t.step conversationId userId e).events = t.events := by
  cases e with
  | commit => exact absurd rfl quiet
  | abort => exact ⟨rfl, rfl⟩
  | send | elsewhere | lock | find =>
    dsimp only [ReadTables.step]
    split <;> exact ⟨rfl, rfl⟩

theorem ReadSound.foreign (sound : ReadSound conversationId userId t) {id : String}
    (found : t.running = some ⟨input, last, none⟩) (seen : id ∈ input.seenMessageIds)
    (foreign : ∀ m ∈ t.messages, m.id = id → m.conversationId ≠ conversationId) :
    t.step conversationId userId .find = { t with running := none } := by
  simp only [ReadTables.step, found]
  refine congrArg (fun running => { t with running := running }) (if_pos fun all => ?_)
  have distinct := sound.ids.sublist ((filter_sublist (p := fun m => m.conversationId = conversationId ∧ m.id ∈ input.seenMessageIds)).map _)
  have perm : List.Perm _ input.seenMessageIds := (distinct.subperm fun id mem => by
    obtain ⟨m, inside, rfl⟩ := mem_map.mp mem
    exact (of_decide_eq_true (mem_filter.mp inside).2).2).perm_of_length_le (by rw [length_map]; exact le_of_eq all.symm)
  obtain ⟨m, mem, is⟩ := mem_map.mp (perm.mem_iff.mpr seen)
  exact foreign m (mem_filter.mp mem).1 is (of_decide_eq_true (mem_filter.mp mem).2).1

theorem ReadSound.stepHolds (sound : ReadSound conversationId userId t) (e : ReadEvent) :
    StepHolds conversationId t e (t.step conversationId userId e) := by
  have still (same : (t.step conversationId userId e).lastReadMessageSequence = t.lastReadMessageSequence ∧
      (t.step conversationId userId e).events = t.events) : StepHolds conversationId t e (t.step conversationId userId e) := by
    refine ⟨?_, ?_, fun _ => same.1, fun input last is found ⟨id, seen, foreign⟩ => is ▸ sound.foreign found seen foreign⟩
    all_goals simp [ReadTables.position, same]
  by_cases is : e = .commit
  · subst is
    match found : t.running with
    | some ⟨input, last, some messages⟩ =>
      have last_ : last.getD 0 = t.position := congrArg (Option.getD · 0) (sound.running _ found).1
      have le : t.position ≤ Marking.next userId ⟨input, last, some messages⟩ messages := by
        simp only [Marking.next, last_]
        split <;> omega
      refine ⟨sound.position_commit found ▸ le, ?_, absurd rfl, nofun⟩
      rw [sound.position_commit found]
      simp only [ReadTables.step, found, last_]
      split <;> rfl
    | none | some ⟨_, _, none⟩ => exact still (by simp [ReadTables.step, found])
  · exact still (step_quiet is)

end Vimla.DirectMessages
