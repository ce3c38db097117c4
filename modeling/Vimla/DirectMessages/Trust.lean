import Vimla.DirectMessages.Changes

/-!
# Trust epochs

What the epochs promise of sends: none is committed under a block or with an
epoch that has passed, one that is repeated is answered with its message, and
one that is refused stays refused.
-/

namespace Vimla.DirectMessages

open List Function Rows

variable {point : SendPoint} {ev : ChatEvent} {id : Nat} {taken : Nat} {newId : String}

namespace DirectChats

variable {S : Server} {w : DirectChats}

def run (S : Server) (w : DirectChats) (evs : List ChatEvent) : DirectChats := evs.foldl (step S) w

theorem turn_sends {id id' : Nat} {call : SendCall}
    (at_ : (w.step S (.turn id newId)).sends id' = some (call, point, taken)) :
    w.sends id' = some (call, point, taken) ∧ id ≠ id' ∨
    ∃ before earlier, id = id' ∧ w.sends id = some (call, before, earlier) ∧ taken = earlier + 1 ∧
      point = (call.turn S w.store w.now newId before).2 := by
  simp only [step, act, turn] at at_
  split at at_
  · rename_i none
    exact .inl ⟨at_, by rintro rfl; rw [none] at at_; cases at_⟩
  · rename_i call' before earlier found
    by_cases same : id' = id
    · subst same
      simp only [update_self, Option.some.injEq, Prod.mk.injEq] at at_
      obtain ⟨rfl, rfl, rfl⟩ := at_
      exact .inr ⟨before, earlier, rfl, found, rfl, rfl⟩
    · dsimp only at at_
      rw [update_of_ne same] at at_
      exact .inl ⟨at_, Ne.symm same⟩

/-- A call takes its own steps only. -/
theorem step_sends {call : SendCall} (at_ : (w.step S ev).sends id = some (call, point, taken)) :
    w.sends id = some (call, point, taken) ∨ w.sends id = none ∧ point = .member ∧ taken = 0 ∨
    ∃ newId before earlier, ev = .turn id newId ∧ w.sends id = some (call, before, earlier) ∧ taken = earlier + 1 ∧
      point = (call.turn S w.store w.now newId before).2 := by
  cases ev with
  | turn id' newId =>
    obtain ⟨kept, -⟩ | ⟨before, earlier, rfl, found, rest⟩ := turn_sends at_
    · exact .inl kept
    · exact .inr (.inr ⟨newId, before, earlier, rfl, found, rest⟩)
  | send id' call' =>
    simp only [step, act] at at_
    split at at_
    · exact .inl at_
    · rename_i fresh
      by_cases same : id = id'
      · subst same
        simp only [update_self, Option.some.injEq, Prod.mk.injEq] at at_
        exact .inr (.inl ⟨by simpa using fresh, at_.2.1.symm, at_.2.2.symm⟩)
      · dsimp only at at_
        rw [update_of_ne same] at at_
        exact .inl at_
  | signUp | blockUser | unblockUser | register => exact .inl at_
  | create | createCommit | prepareSend | revoke | revokeWrite =>
    simp only [step, act] at at_
    split at at_ <;> exact .inl at_

theorem Sound.step (sound : w.Sound) (ev : ChatEvent) : (w.step S ev).Sound := by
  have change := step_change (S := S) sound ev
  constructor
  · exact change.sound sound.store
  · intro id call point taken at_
    obtain kept | ⟨-, rfl, -⟩ | ⟨newId, before, earlier, rfl, found, -, rfl⟩ := step_sends at_
    · exact (sound.sends id call point taken kept).keeps change
    · exact .of_none rfl rfl
    · exact (SendCall.turn_held (sound.sends id call before earlier found)).keeps change
  · cases ev with
    | create actorUserId peerUserId peerProfile =>
      simp only [DirectChats.step, act]
      split
      · rename_i allowed
        simp only [ChatStore.createAllowed, Bool.and_eq_true, decide_eq_true_eq] at allowed
        intro pair mem
        obtain rfl | mem := mem_cons.1 mem
        · exact allowed.1.1.symm
        · exact sound.creating pair mem
      · exact sound.creating
    | signUp | blockUser | unblockUser | register => exact sound.creating
    | turn | createCommit | prepareSend | revoke | revokeWrite | send =>
      simp only [DirectChats.step, act, turn]
      split <;> exact sound.creating
  · have kept : ∀ answer ∈ w.prepared, ∃ c ∈ (w.step S ev).store.conversations,
        c.id = answer.1 ∧ answer.2 ≤ c.interactionEpoch := by
      intro answer mem
      obtain ⟨c, here, id, le⟩ := sound.prepared answer mem
      obtain ⟨c', here', id', -, -, le'⟩ := change.keeps here
      exact ⟨c', here', id'.trans id, le.trans le'⟩
    cases ev with
    | prepareSend actorUserId conversationId senderDeviceId =>
      intro answer mem
      simp only [DirectChats.step, act] at mem kept ⊢
      split at mem
      · exact sound.prepared answer mem
      · rename_i epoch issued
        obtain rfl | mem := mem_cons.1 mem
        · obtain ⟨c, at_, rfl⟩ := ChatStore.prepareSend_ok issued
          exact ⟨c, mem_of_find?_eq_some at_, by simpa using find?_some at_, Int.le_refl _⟩
        · exact sound.prepared answer mem
    | signUp | blockUser | unblockUser | register => exact kept
    | turn | createCommit | create | revoke | revokeWrite | send =>
      intro answer mem
      refine kept answer ?_
      revert mem
      simp only [DirectChats.step, act, turn]
      split <;> exact id

theorem Sound.run (sound : w.Sound) (evs : List ChatEvent) : (w.run S evs).Sound :=
  Runs.invariant (P := Sound) (fun _ ev sound => Sound.step sound ev) evs sound

/-- The commit of a message, from the state before it. -/
structure Commits (S : Server) (w : DirectChats) (id : Nat) (newId : String) (m : DirectMessage) : Prop where
  sent : ∃ call memberIds senderDevice since taken,
    w.sends id = some (call, .transaction memberIds senderDevice since, taken) ∧
    m = call.message senderDevice w.now newId ∧ SendCall.Sendable S call w.store memberIds m

variable {m : DirectMessage}

theorem commits_of_mem (sound : w.Sound) (mem : m ∈ (w.step S ev).store.messages) :
    m ∈ w.store.messages ∨ ∃ id newId, ev = .turn id newId ∧ Commits S w id newId m := by
  obtain ⟨id, newId, rfl⟩ | quiet | ⟨devices, same, -⟩ := step_cases (S := S) sound ev
  rotate_left
  · exact .inl (quiet.messages ▸ mem)
  · rw [same] at mem
    exact .inl mem
  · simp only [step, act, turn] at mem
    split at mem
    · exact .inl mem
    · rename_i call point taken at_
      cases point with
      | member | replay | device | devices | rejected | answered => exact .inl mem
      | transaction memberIds senderDevice since =>
        have outcome := SendCall.transaction_outcome S call w.store memberIds senderDevice w.now newId
        simp only [SendCall.turn] at mem
        generalize call.transaction S w.store memberIds senderDevice w.now newId = result at outcome mem
        cases outcome with
        | notUnique | answered => exact .inl mem
        | sent view sendable =>
          obtain mem | mem := mem_append.1 mem
          · exact .inl mem
          · obtain rfl := mem_singleton.1 mem
            exact .inr ⟨id, newId, rfl, ⟨call, memberIds, senderDevice, since, taken, at_, rfl, sendable⟩⟩

/-- Where a message may be committed: its conversation is open to its sender, at the epoch of the message. -/
structure Admits (store : ChatStore) (m : DirectMessage) : Prop where
  place : ∃ c ∈ store.conversations, c.id = m.conversationId ∧ m.senderUserId ∈ c.members ∧
    m.interactionEpoch = c.interactionEpoch ∧ ∀ peer ∈ c.members, peer ≠ m.senderUserId → ¬ store.Blocked m.senderUserId peer

section
variable (sound : w.Sound) {id : Nat} {newId : String} (commits : Commits S w id newId m)
include sound commits

theorem Commits.admits :
    Admits w.store m := by
  obtain ⟨call, memberIds, senderDevice, since, taken, at_, rfl, sendable⟩ := commits.sent
  have held := sound.sends id call _ taken at_
  have change := sendable.change sound.store (held.placed memberIds rfl)
  generalize same : { w.store with messages := w.store.messages ++ [call.message senderDevice w.now newId] } = after at change
  cases change with
  | quiet quiet =>
    have messages := quiet.messages
    rw [← same] at messages
    simp at messages
  | devices =>
    have messages := congrArg ChatStore.messages same
    simp at messages
  | sent m c mem id sender free epoch fresh written =>
    obtain rfl : call.message senderDevice w.now newId = m := by
      have messages := congrArg ChatStore.messages same
      simpa using messages
    refine ⟨c, mem, id, sender, epoch, fun peer mem_peer apart => ?_⟩
    exact (ChatStore.canInteract_iff.1 (free peer mem_peer)).resolve_left (Ne.symm apart)

/-- The message is what its call sends. -/
theorem Commits.repeats :
    ∃ call point taken, w.sends id = some (call, point, taken) ∧ m.key = call.key ∧ Repeats m call.input := by
  obtain ⟨call, memberIds, senderDevice, since, taken, at_, rfl, -⟩ := commits.sent
  have device : senderDevice.id = call.input.senderDeviceId := (sound.sends id call _ taken at_).device senderDevice rfl
  refine ⟨call, _, taken, at_, rfl, ⟨device, rfl, rfl, rfl, ?_, call.resolved⟩⟩
  exact device ▸ List.Perm.refl _

end

/-- Conversations keep their members and never go back to an epoch. -/
def Later (before after : ChatStore) : Prop :=
  ∀ c ∈ before.conversations, ∃ c' ∈ after.conversations, c'.id = c.id ∧ c.interactionEpoch ≤ c'.interactionEpoch

theorem passed (sound : w.Sound) (more : List ChatEvent) (mem : m ∈ (w.run S more).store.messages) :
    m ∈ w.store.messages ∨
      ∀ c ∈ w.store.conversations, c.id = m.conversationId → c.interactionEpoch ≤ m.interactionEpoch := by
  have all : (w.run S more).Sound ∧ Later w.store (w.run S more).store ∧ ∀ m ∈ (w.run S more).store.messages,
      m ∈ w.store.messages ∨
        ∀ c ∈ w.store.conversations, c.id = m.conversationId → c.interactionEpoch ≤ m.interactionEpoch := by
    refine Runs.invariant (P := fun w' : DirectChats => w'.Sound ∧ Later w.store w'.store ∧ ∀ m ∈ w'.store.messages,
      m ∈ w.store.messages ∨ ∀ c ∈ w.store.conversations, c.id = m.conversationId → c.interactionEpoch ≤ m.interactionEpoch)
      ?_ more ⟨sound, fun c mem => ⟨c, mem, rfl, Int.le_refl _⟩, fun m mem => .inl mem⟩
    rintro w' ev ⟨sound', later, before⟩
    refine ⟨sound'.step ev, fun c mem => ?_, fun m mem => ?_⟩
    · obtain ⟨c', mem', id, le⟩ := later c mem
      obtain ⟨c'', mem'', id', -, -, le'⟩ := (step_change (S := S) sound' ev).keeps mem'
      exact ⟨c'', mem'', id'.trans id, le.trans le'⟩
    · obtain old | ⟨id, newId, -, commits⟩ := commits_of_mem sound' mem
      · exact before m old
      · refine .inr fun c mem_c same => ?_
        obtain ⟨c', mem', id', -, epoch, -⟩ := (commits.admits sound').place
        obtain ⟨c'', mem'', id'', le⟩ := later c mem_c
        obtain rfl : c'' = c' := eq_of_key sound'.store.conversationIds mem'' mem' (id''.trans (same.trans id'.symm))
        rw [epoch]
        exact le
  exact all.2.2 m mem

variable {store : ChatStore}

theorem mem_bumped {left right : String} {c : DirectConversation} (mem : c ∈ store.conversations)
    (pair : c.pairKey = directPairKey left right) :
    { c with interactionEpoch := c.interactionEpoch + 1 } ∈ (store.bumpDirectInteractionEpoch left right).conversations :=
  mem_map.2 ⟨c, mem, if_pos pair⟩

/-- The epoch of the pair's conversation is advanced. -/
def Advances (before after : ChatStore) (a b : String) : Prop :=
  ∀ c ∈ before.conversations, c.pairKey = directPairKey a b →
    { c with interactionEpoch := c.interactionEpoch + 1 } ∈ after.conversations

variable {a b : String}

theorem blockUser_advances (apart : b ≠ a) (users : w.store.usersExist a b = true)
    (new : (⟨a, b⟩ : UserBlock) ∉ w.store.blocks) :
    (⟨a, b⟩ : UserBlock) ∈ (w.step S (.blockUser a (some b))).store.blocks ∧
      Advances w.store (w.step S (.blockUser a (some b))).store a b := by
  have done : w.store.blockUser a (some b) =
      some ({ w.store with blocks := w.store.blocks ++ [UserBlock.mk a b] }.bumpDirectInteractionEpoch a b) := by
    simp [ChatStore.blockUser, apart, users, new]
  simp only [step, act, withStore, done, Option.getD_some]
  exact ⟨mem_append_right _ (mem_singleton_self _), fun c mem pair => mem_bumped mem pair⟩

theorem unblockUser_advances (sound : w.Sound) (users : w.store.usersExist a b = true)
    (mem : (⟨a, b⟩ : UserBlock) ∈ w.store.blocks) :
    (⟨a, b⟩ : UserBlock) ∉ (w.step S (.unblockUser a (some b))).store.blocks ∧
      Advances w.store (w.step S (.unblockUser a (some b))).store a b := by
  have done : w.store.unblockUser a (some b) =
      some ({ w.store with blocks := w.store.blocks.filter (· ≠ UserBlock.mk a b) }.bumpDirectInteractionEpoch a b) := by
    simp [ChatStore.unblockUser, users, count_eq_one_of_mem sound.store.blocks mem]
  simp only [step, act, withStore, done, Option.getD_some]
  exact ⟨by simp [ChatStore.bumpDirectInteractionEpoch], fun c mem pair => mem_bumped mem pair⟩

/-- The answer to a call whose message is already there. -/
structure Replays (S : Server) (m : DirectMessage) (call : SendCall) (answer : Answer) : Prop where
  same : Repeats m call.input →
    answer = .ok ⟨toMessageView S.readInit m call.input.senderDeviceId (readMentions m), true⟩
  other : ¬ Repeats m call.input → ∃ message, answer = .error ⟨.TAMPERED, message⟩

section
variable (sound : w.Sound) {call : SendCall} (mem : m ∈ w.store.messages) (key : m.key = call.key)
include sound mem key

theorem findExactReplay_of_mem : call.findExactReplay S w.store = (replayOf S.readInit m call.input).map some := by
  have author : (w.store.conversations.any fun c => c.id = call.conversationId ∧ call.actorUserId ∈ c.members) = true := by
    obtain ⟨c, here, id, author⟩ := sound.store.authors m mem
    simp only [DirectMessage.key, SendCall.key, Prod.mk.injEq] at key
    exact any_eq_true.2 ⟨c, here, by simp [id, key.1, ← key.2.1, author]⟩
  have found : w.store.messages.find? (fun m => m.key = call.key ∧
      w.store.conversations.any fun c => c.id = call.conversationId ∧ call.actorUserId ∈ c.members) = some m := by
    simp only [author, and_true]
    exact find_eq_of_mem sound.store.messageKeys mem key
  rw [SendCall.findExactReplay, found]

theorem replays (memberIds : List String) (newId : String) :
    ∃ answer, (call.turn S w.store w.now newId (.replay memberIds)).2 = .answered answer ∧ Replays S m call answer := by
  obtain ⟨same, other⟩ := replayOf_eq (sound.store.written m mem) S.readInit call.input
  simp only [SendCall.turn, findExactReplay_of_mem sound mem key]
  by_cases repeats : Repeats m call.input
  · rw [same repeats]
    exact ⟨_, rfl, fun _ => rfl, fun other => absurd repeats other⟩
  · obtain ⟨message, failed⟩ := other repeats
    rw [failed]
    exact ⟨_, rfl, fun repeats' => absurd repeats' repeats, fun _ => ⟨message, rfl⟩⟩

theorem reads_member (newId : String) : ∃ memberIds, (call.turn S w.store w.now newId .member).2 = .replay memberIds := by
  obtain ⟨c, here, id, author⟩ := sound.store.authors m mem
  simp only [DirectMessage.key, SendCall.key, Prod.mk.injEq] at key
  simp only [SendCall.turn, ChatStore.requireMemberConversation]
  cases found : w.store.conversations.find? fun c => c.id = call.conversationId ∧ call.actorUserId ∈ c.members with
  | none =>
    have none := find?_eq_none.1 found c here
    simp [id, key.1, ← key.2.1, author] at none
  | some c => exact ⟨c.members, rfl⟩

end

theorem mem_step (sound : w.Sound) (ev : ChatEvent) (mem : m ∈ w.store.messages) : m ∈ (w.step S ev).store.messages := by
  have change := step_change (S := S) sound ev
  generalize (w.step S ev).store = after at change
  cases change with
  | quiet quiet => exact quiet.messages ▸ mem
  | devices => exact mem
  | sent => exact mem_append_left _ mem

/-- Where a call is that began when its message was there: it is answered by its second step. -/
inductive Repeating (S : Server) (m : DirectMessage) (call : SendCall) : SendPoint → Nat → Prop
  | member : Repeating S m call .member 0
  | replay (memberIds : List String) : Repeating S m call (.replay memberIds) 1
  | answered (answer : Answer) (taken : Nat) (replays : Replays S m call answer) : Repeating S m call (.answered answer) taken

theorem repeating_step {call : SendCall} (key : m.key = call.key) (ev : ChatEvent) {w' : DirectChats}
    (held : w'.Sound ∧ m ∈ w'.store.messages ∧ ∃ point taken,
      w'.sends id = some (call, point, taken) ∧ Repeating S m call point taken) :
    (w'.step S ev).Sound ∧ m ∈ (w'.step S ev).store.messages ∧ ∃ point taken,
      (w'.step S ev).sends id = some (call, point, taken) ∧ Repeating S m call point taken := by
  obtain ⟨sound', mem', point, taken, at_, repeating⟩ := held
  refine ⟨sound'.step ev, mem_step sound' ev mem', ?_⟩
  by_cases own : ∃ newId, ev = .turn id newId
  · obtain ⟨newId, rfl⟩ := own
    refine ⟨(call.turn S w'.store w'.now newId point).2, taken + 1, by simp [step, act, turn, at_], ?_⟩
    cases repeating with
    | member =>
      obtain ⟨memberIds, read⟩ := reads_member (S := S) sound' mem' key newId
      rw [read]
      exact .replay memberIds
    | replay memberIds =>
      obtain ⟨answer, answered, right⟩ := replays (S := S) sound' mem' key memberIds newId
      rw [answered]
      exact .answered answer _ right
    | answered answer taken right => exact .answered answer _ right
  · refine ⟨point, taken, ?_, repeating⟩
    cases ev with
    | turn id' newId =>
      have apart : id ≠ id' := fun same => own ⟨newId, by rw [same]⟩
      simp only [step, act, turn]
      split
      · exact at_
      · rw [← at_]
        exact update_of_ne apart _ _
    | send id' call' =>
      simp only [step, act]
      split
      · exact at_
      · rename_i free
        have apart : id ≠ id' := by
          rintro rfl
          simp [at_] at free
        rw [← at_]
        exact update_of_ne apart _ _
    | signUp | blockUser | unblockUser | register => exact at_
    | create | createCommit | prepareSend | revoke | revokeWrite =>
      simp only [step, act]
      split <;> exact at_

theorem repeats (sound : w.Sound) {call : SendCall} (mem : m ∈ w.store.messages) (key : m.key = call.key)
    (fresh : w.sends id = none) (more : List ChatEvent) :
    ∃ point taken, ((w.step S (.send id call)).run S more).sends id = some (call, point, taken) ∧
      Repeating S m call point taken := by
  have begun : (w.step S (.send id call)).sends id = some (call, .member, 0) := by simp [step, act, fresh]
  have all : ((w.step S (.send id call)).run S more).Sound ∧ m ∈ ((w.step S (.send id call)).run S more).store.messages ∧
      ∃ point taken, ((w.step S (.send id call)).run S more).sends id = some (call, point, taken) ∧
        Repeating S m call point taken := by
    refine Runs.invariant (P := fun w' : DirectChats => w'.Sound ∧ m ∈ w'.store.messages ∧ ∃ point taken,
      w'.sends id = some (call, point, taken) ∧ Repeating S m call point taken) (fun w' ev held => ?_) more
      ⟨sound.step (.send id call), mem_step sound _ mem, .member, 0, begun, .member⟩
    exact repeating_step key ev held
  exact all.2.2

/-- No message of an epoch up to `e` can be committed any more: a block stands, or the epoch has gone on. -/
def Barred (store : ChatStore) (conversationId a b : String) (e : Int) : Prop :=
  ∃ c ∈ store.conversations, c.id = conversationId ∧ c.pairKey = directPairKey a b ∧ b ∈ c.members ∧
    (store.Blocked a b ∧ e ≤ c.interactionEpoch ∨ e < c.interactionEpoch)

theorem Barred.change {store after : ChatStore} {conversationId a b : String} {e : Int} (change : store.Change after)
    (barred : Barred store conversationId a b e) : Barred after conversationId a b e := by
  obtain ⟨c, mem, id, pair, peer, why⟩ := barred
  have bumped : ∀ (blocks : List UserBlock) (left right : String),
      (store.Blocked a b ∧ e ≤ c.interactionEpoch → directPairKey left right ≠ directPairKey a b →
        ChatStore.Blocked { store with blocks := blocks } a b) →
      Barred ({ store with blocks := blocks }.bumpDirectInteractionEpoch left right) conversationId a b e := by
    intro blocks left right stands
    refine ⟨ChatStore.bumped left right c, mem_map_of_mem mem, by simp [id], by simp [pair], by simp [peer], ?_⟩
    by_cases same : c.pairKey = directPairKey left right
    · rw [ChatStore.bumped, if_pos same]
      obtain ⟨-, le⟩ | lt := why
      · exact .inr (by simpa using Int.lt_add_one_of_le le)
      · exact .inr (by simpa using Int.lt_add_one_of_le lt.le)
    · rw [ChatStore.bumped, if_neg same]
      refine why.imp (fun blocked => ⟨?_, blocked.2⟩) fun lt => lt
      exact stands blocked fun equal => same (pair.trans equal.symm)
  cases change with
  | sent | devices => exact ⟨c, mem, id, pair, peer, why⟩
  | quiet quiet =>
    cases quiet with
    | same | joined => exact ⟨c, mem, id, pair, peer, why⟩
    | blocked row new =>
      refine bumped _ _ _ fun blocked _ => ?_
      exact blocked.1.imp (mem_append_left _) (mem_append_left _)
    | unblocked row mem_row =>
      refine bumped _ _ _ fun blocked apart => ?_
      have kept : ∀ block : UserBlock, directPairKey block.blockerUserId block.blockedUserId = directPairKey a b →
          block ∈ store.blocks → block ∈ store.blocks.filter (· ≠ row) := by
        intro block same mem
        refine mem_filter.2 ⟨mem, ?_⟩
        simp only [ne_eq, decide_not, Bool.not_eq_eq_eq_not, Bool.not_true, decide_eq_false_iff_not]
        rintro rfl
        exact apart same
      exact blocked.1.imp (kept ⟨a, b⟩ rfl) (kept ⟨b, a⟩ (directPairKey_swap b a))
    | opened => exact ⟨c, mem_append_left _ mem, id, pair, peer, why⟩

/-- While it is barred, a message of the epoch is not admitted. -/
theorem Barred.refuses (sound : store.Sound) {b : String}
    (barred : Barred store m.conversationId m.senderUserId b m.interactionEpoch) (apart : b ≠ m.senderUserId) :
    ¬ Admits store m := by
  rintro ⟨c', mem', id', -, epoch, free⟩
  obtain ⟨c, mem, id, -, peer, why⟩ := barred
  obtain rfl : c = c' := eq_of_key sound.conversationIds mem mem' (id.trans id'.symm)
  obtain ⟨blocked, -⟩ | lt := why
  · exact free b peer apart blocked
  · exact absurd epoch lt.ne

end DirectChats

variable {answer : Answer}

namespace SendCall

variable {S : Server} {call : SendCall} {store : ChatStore}

theorem error_of_forM {α ε : Type} {f : α → Except ε Unit} {l : List α} {e : ε} (failed : l.forM f = .error e) :
    ∃ a ∈ l, f a = .error e := by
  induction l with
  | nil => cases failed
  | cons a l ih =>
    cases first : f a with
    | error e' =>
      have same : e' = e := by
        simp only [forM_eq_forM, forM_cons, first] at failed
        exact Except.error.inj failed
      exact ⟨a, mem_cons_self, same ▸ first⟩
    | ok _ =>
      simp only [forM_eq_forM, forM_cons, first] at failed
      obtain ⟨a', mem, failed⟩ := ih failed
      exact ⟨a', mem_cons_of_mem _ mem, failed⟩

theorem check_code {senderDevice : UserCryptoDevice} {memberDevices : List UserCryptoDevice} {e : DirectChatError}
    (failed : call.check S senderDevice memberDevices = .error (some e)) : e.code ≠ .FORBIDDEN := by
  simp only [check] at failed
  split at failed
  · cases failed
    decide
  · split at failed
    · cases failed
      decide
    · split at failed
      · cases failed
        decide
      · split at failed
        · cases failed
          decide
        · obtain ⟨envelope, -, failed⟩ := error_of_forM failed
          simp only [assertEnvelope] at failed
          split at failed
          · cases failed
            decide
          · split at failed
            · cases failed
              decide
            · split at failed
              · cases failed
              · cases failed
              · cases failed
                decide

/-- Only the transaction answers that the interaction is forbidden. -/
theorem turn_forbidden {now : Nat}
    (answered : (call.turn S store now newId point).2 = .answered answer) (unanswered : ∀ a, point ≠ .answered a)
    (forbidden : answer.isForbidden) :
    ∃ memberIds senderDevice since, point = .transaction memberIds senderDevice since ∧
      Refused S call store memberIds ∧ (call.turn S store now newId point).1 = store := by
  have code : ∀ {e : DirectChatError}, SendPoint.answered (.error e) = .answered answer → e.code ≠ .FORBIDDEN → False := by
    intro e same apart
    obtain rfl := SendPoint.answered.inj same
    exact apart forbidden
  have result : ∀ {r : SendResult}, SendPoint.answered (.ok r) = .answered answer → False := by
    intro r same
    obtain rfl := SendPoint.answered.inj same
    exact forbidden
  have replayed : ∀ {e : DirectChatError}, call.findExactReplay S store = .error e → e.code ≠ .FORBIDDEN := by
    intro e failed
    rw [findExactReplay_code failed]
    decide
  cases point with
  | member =>
    simp only [turn, ChatStore.requireMemberConversation] at answered
    split at answered
    · rename_i e failed
      split at failed
      · cases failed
        exact (code answered (by decide)).elim
      · cases failed
    · cases answered
  | replay memberIds =>
    simp only [turn] at answered
    split at answered
    · rename_i e failed
      exact (code answered (replayed failed)).elim
    · exact (result answered).elim
    · cases answered
  | device memberIds =>
    simp only [turn, ChatStore.requireActiveDevice] at answered
    split at answered
    · rename_i e failed
      split at failed
      · cases failed
        exact (code answered (by decide)).elim
      · split at failed
        · cases failed
          exact (code answered (by decide)).elim
        · cases failed
    · split at answered
      · exact (code answered (by decide)).elim
      · cases answered
  | devices memberIds senderDevice since =>
    simp only [turn] at answered
    split at answered
    · rename_i e failed
      exact (code answered (check_code failed)).elim
    · cases answered
    · cases answered
  | transaction memberIds senderDevice since =>
    refine ⟨memberIds, senderDevice, since, rfl, ?_⟩
    have outcome := transaction_outcome S call store memberIds senderDevice now newId
    simp only [turn] at answered ⊢
    generalize call.transaction S store memberIds senderDevice now newId = done at outcome answered
    cases outcome with
    | notUnique => cases answered
    | answered answer' why =>
      obtain rfl := SendPoint.answered.inj answered
      exact ⟨why forbidden, rfl⟩
    | sent => exact (result answered).elim
  | rejected =>
    simp only [turn] at answered
    split at answered
    · rename_i e failed
      exact (code answered (replayed failed)).elim
    · exact (result answered).elim
    · exact (code answered (by decide)).elim
  | answered a => exact absurd rfl (unanswered a)

/-- What a refusal says of the tables. -/
theorem Refused.barred {memberIds : List String} (sound : store.Sound) (placed : Placed store call memberIds)
    (refused : Refused S call store memberIds) :
    (∀ m ∈ store.messages, m.key ≠ call.key) ∧ ∃ peer, peer ≠ call.actorUserId ∧
      ∀ c ∈ store.conversations, c.id = call.conversationId → ∀ e ≤ c.interactionEpoch,
        DirectChats.Barred store call.conversationId call.actorUserId peer e := by
  obtain ⟨c, mem, id, actor, rfl⟩ := placed
  obtain ⟨a, b, apart, members, key, users⟩ := sound.pairs c mem
  have other : ∃ peer, c.members.find? (· ≠ call.actorUserId) = some peer ∧ peer ≠ call.actorUserId ∧ peer ∈ c.members ∧
      c.pairKey = directPairKey call.actorUserId peer ∧ call.actorUserId ∈ store.users ∧ peer ∈ store.users := by
    rw [members] at actor ⊢
    simp only [mem_cons, not_mem_nil, or_false] at actor
    obtain rfl | rfl := actor
    · exact ⟨b, by simp [apart.symm], apart.symm, by simp, key, users⟩
    · exact ⟨a, by simp [apart], apart, by simp, key.trans (directPairKey_swap _ _), users.symm⟩
  obtain ⟨peer, found, ne, mem_peer, pair, users⟩ := other
  obtain ⟨absent, closed⟩ := refused.peer peer found
  have blocked : store.Blocked call.actorUserId peer := by
    by_contra free
    have allowed := ChatStore.canInteract_iff.2 (.inr free : call.actorUserId = peer ∨ ¬ store.Blocked call.actorUserId peer)
    simp [ChatStore.usersExist, users.1, users.2, allowed] at closed
  refine ⟨fun m mem_m same => ?_, peer, ne, fun c' mem' id' e le => ?_⟩
  · simp only [findExactReplay] at absent
    split at absent
    · rename_i none
      have none := find?_eq_none.1 none m mem_m
      have author : (store.conversations.any fun c => c.id = call.conversationId ∧ call.actorUserId ∈ c.members) = true :=
        any_eq_true.2 ⟨c, mem, by simp [id, actor]⟩
      simp only [author, and_true, decide_eq_true_eq] at none
      exact none same
    · rename_i existing _
      cases result : replayOf S.readInit existing call.input with
      | error e | ok view => simp [result, Except.map] at absent
  · obtain rfl : c = c' := eq_of_key sound.conversationIds mem mem' (id.trans id'.symm)
    exact ⟨c, mem, id, pair, mem_peer, .inl ⟨blocked, le⟩⟩

end SendCall

namespace DirectChats

variable {S : Server} {w : DirectChats}

/-- What a FORBIDDEN answer says of the calls before it and after it. -/
theorem forbidden (sound : w.Sound) {call : SendCall}
    (at_ : w.sends id = some (call, point, taken)) (unanswered : ∀ a, point ≠ .answered a) {taken' : Nat}
    (answered : (w.step S ev).sends id = some (call, .answered answer, taken')) (forbidden : answer.isForbidden) :
    (∀ m ∈ (w.step S ev).store.messages, m.key ≠ call.key) ∧
    ∀ c ∈ w.store.conversations, c.id = call.conversationId → call.input.interactionEpoch ≤ c.interactionEpoch →
      ∀ more, ∀ m ∈ ((w.step S ev).run S more).store.messages,
        ¬ (m.key = call.key ∧ m.interactionEpoch = call.input.interactionEpoch) := by
  obtain kept | ⟨none, -⟩ | ⟨newId, before, earlier, rfl, found, -, turned⟩ := step_sends answered
  · rw [at_] at kept
    simp only [Option.some.injEq, Prod.mk.injEq, true_and] at kept
    exact absurd kept.1 (unanswered answer)
  · rw [at_] at none
    cases none
  · obtain ⟨rfl, rfl⟩ : before = point ∧ earlier = taken := by
      rw [at_] at found
      simp only [Option.some.injEq, Prod.mk.injEq, true_and] at found
      exact ⟨found.1.symm, found.2.symm⟩
    obtain ⟨memberIds, senderDevice, since, rfl, refused, unchanged⟩ :=
      SendCall.turn_forbidden turned.symm unanswered forbidden
    have same : (w.step S (.turn id newId)).store = w.store := by simp [step, act, turn, at_, unchanged]
    obtain ⟨absent, peer, apart, barred⟩ := refused.barred sound.store ((sound.sends id call _ _ at_).placed memberIds rfl)
    rw [same]
    refine ⟨absent, fun c mem here le more => ?_⟩
    have start : (w.step S (.turn id newId)).Sound ∧ Barred (w.step S (.turn id newId)).store call.conversationId
        call.actorUserId peer call.input.interactionEpoch ∧ ∀ m ∈ (w.step S (.turn id newId)).store.messages,
        ¬ (m.key = call.key ∧ m.interactionEpoch = call.input.interactionEpoch) :=
      ⟨sound.step _, same ▸ barred c mem here _ le, fun m mem both => absent m (same ▸ mem) both.1⟩
    suffices all : ((w.step S (.turn id newId)).run S more).Sound ∧ Barred ((w.step S (.turn id newId)).run S more).store
        call.conversationId call.actorUserId peer call.input.interactionEpoch ∧
        ∀ m ∈ ((w.step S (.turn id newId)).run S more).store.messages,
          ¬ (m.key = call.key ∧ m.interactionEpoch = call.input.interactionEpoch) from all.2.2
    refine Runs.invariant (P := fun w' : DirectChats => w'.Sound ∧
      Barred w'.store call.conversationId call.actorUserId peer call.input.interactionEpoch ∧
      ∀ m ∈ w'.store.messages, ¬ (m.key = call.key ∧ m.interactionEpoch = call.input.interactionEpoch)) ?_ more start
    rintro w' ev ⟨sound', barred', none⟩
    refine ⟨sound'.step ev, barred'.change (step_change sound' ev), fun m mem both => ?_⟩
    obtain old | ⟨id', newId', -, commits⟩ := commits_of_mem sound' mem
    · exact none m old both
    · obtain ⟨key, epoch⟩ := both
      simp only [DirectMessage.key, SendCall.key, Prod.mk.injEq] at key
      refine Barred.refuses sound'.store (b := peer) ?_ (key.2.1 ▸ apart) (commits.admits sound')
      rw [key.1, key.2.1, epoch]
      exact barred'

end DirectChats

/-- Tables that the calls begin with. -/
structure ChatStart where
  store : ChatStore
  sound : store.Sound

def ChatStart.chats (start : ChatStart) : DirectChats where
  store := start.store

theorem ChatStart.chats_sound (start : ChatStart) : start.chats.Sound where
  store := start.sound
  sends _ _ _ _ at_ := by cases at_
  creating _ mem := by cases mem
  prepared _ mem := by cases mem

/-- What holds in a state of the sends that are made from it on. -/
structure Guards (S : Server) (w : DirectChats) : Prop where
  /-- A message is committed by its call, where neither user blocks the other, with the epoch of that moment. -/
  commits : ∀ ev, ∀ m ∈ (w.step S ev).store.messages, m ∈ w.store.messages ∨ DirectChats.Admits w.store m ∧
    ∃ id call point taken, w.sends id = some (call, point, taken) ∧ m.key = call.key ∧ Repeats m call.input
  passed : ∀ more, ∀ m ∈ (w.run S more).store.messages, m ∈ w.store.messages ∨
    ∀ c ∈ w.store.conversations, c.id = m.conversationId → c.interactionEpoch ≤ m.interactionEpoch
  blocks : ∀ a b, b ≠ a → w.store.usersExist a b = true → (⟨a, b⟩ : UserBlock) ∉ w.store.blocks →
    (⟨a, b⟩ : UserBlock) ∈ (w.step S (.blockUser a (some b))).store.blocks ∧
      DirectChats.Advances w.store (w.step S (.blockUser a (some b))).store a b
  unblocks : ∀ a b, w.store.usersExist a b = true → (⟨a, b⟩ : UserBlock) ∈ w.store.blocks →
    (⟨a, b⟩ : UserBlock) ∉ (w.step S (.unblockUser a (some b))).store.blocks ∧
      DirectChats.Advances w.store (w.step S (.unblockUser a (some b))).store a b
  once : ∀ m ∈ w.store.messages, ∀ m' ∈ w.store.messages, m.key = m'.key → m = m'
  /-- A call whose message is there when it begins has its answer after two steps. -/
  repeats : ∀ m ∈ w.store.messages, ∀ id call, m.key = call.key → w.sends id = none → ∀ more, ∃ point taken,
    ((w.step S (.send id call)).run S more).sends id = some (call, point, taken) ∧
      (2 ≤ taken → ∃ answer, point = .answered answer ∧ DirectChats.Replays S m call answer)
  forbidden : ∀ ev id call point taken answer taken', w.sends id = some (call, point, taken) → (∀ a, point ≠ .answered a) →
    (w.step S ev).sends id = some (call, .answered answer, taken') → answer.isForbidden →
      (∀ m ∈ (w.step S ev).store.messages, m.key ≠ call.key) ∧
      ∀ c ∈ w.store.conversations, c.id = call.conversationId → call.input.interactionEpoch ≤ c.interactionEpoch →
        ∀ more, ∀ m ∈ ((w.step S ev).run S more).store.messages,
          ¬ (m.key = call.key ∧ m.interactionEpoch = call.input.interactionEpoch)
  /-- No epoch is handed out ahead of its conversation. -/
  issued : ∀ answer ∈ w.prepared, ∃ c ∈ w.store.conversations, c.id = answer.1 ∧ answer.2 ≤ c.interactionEpoch

/-- Trust epochs guard Direct sends. -/
theorem trust_epochs_guard (S : Server) (start : ChatStart) (evs : List ChatEvent) : Guards S (start.chats.run S evs) := by
  have sound : (start.chats.run S evs).Sound := start.chats_sound.run evs
  constructor
  · intro ev m mem
    refine (DirectChats.commits_of_mem sound mem).imp_right ?_
    rintro ⟨id, newId, -, commits⟩
    exact ⟨commits.admits sound, id, commits.repeats sound⟩
  · intro more m mem
    exact DirectChats.passed sound more mem
  · intro a b apart users new
    exact DirectChats.blockUser_advances apart users new
  · intro a b users mem
    exact DirectChats.unblockUser_advances sound users mem
  · intro m mem m' mem' same
    exact eq_of_key sound.store.messageKeys mem mem' same
  · intro m mem id call key fresh more
    obtain ⟨point, taken, at_, repeating⟩ := DirectChats.repeats sound mem key fresh more
    refine ⟨point, taken, at_, fun enough => ?_⟩
    cases repeating with
    | member | replay => omega
    | answered answer taken right => exact ⟨answer, rfl, right⟩
  · intro ev id call point taken answer taken' at_ unanswered answered forbidden
    exact DirectChats.forbidden sound at_ unanswered answered forbidden
  · exact sound.prepared

namespace Ahead

def server : Server where
  signatures := ⟨fun _ _ => [], fun _ _ _ => true⟩
  verifySignedPreKey _ _ _ _ := true
  serializeDirectRoutingMentions _ := []
  readInit _ := none

def start : ChatStart := ⟨{}, by constructor <;> simp⟩

def envelope (recipientDeviceId : String) : WireEnvelopeDto := ⟨recipientDeviceId, "", "", "", 0, 0, "", none⟩

def call (interactionEpoch : Int) : SendCall where
  actorUserId := "alice"
  conversationId := "chat"
  input := ⟨"m", none, "a", interactionEpoch, .OPERATOR_RESPONSE, [envelope "a", envelope "b"], []⟩
  resolvedMentions := []
  resolved := List.Perm.nil

def opened : List ChatEvent :=
  [.signUp "alice", .signUp "bob", .create "alice" "bob" true, .createCommit "alice" "bob" "chat",
    .register "alice" ⟨"a", "", "", 1, "", "", none⟩, .register "bob" ⟨"b", "", "", 1, "", "", none⟩]

def sent (id : Nat) (interactionEpoch : Int) : List ChatEvent :=
  .send id (call interactionEpoch) :: List.replicate 5 (.turn id "row")

/-- Alice sends with an epoch that the removal of the block will reach. -/
def refused : List ChatEvent := opened ++ .blockUser "bob" (some "alice") :: sent 0 2

def sentAgain : List ChatEvent := .unblockUser "bob" (some "alice") :: sent 1 2

end Ahead

/-- A request with an epoch that is still to come is refused and can be committed later; and a block that is there
already does not advance the epoch. -/
theorem ahead_is_committed :
    (((Ahead.start.chats.run Ahead.server Ahead.refused).sends 0).any fun call => match call.2.1 with
      | .answered (.error e) => e.code = .FORBIDDEN
      | _ => false) = true ∧
    ((Ahead.start.chats.run Ahead.server (Ahead.refused ++ Ahead.sentAgain)).store.messages.map fun m =>
      (m.key, m.interactionEpoch)) = [((Ahead.call 2).key, 2)] ∧
    (Ahead.start.chats.run Ahead.server (Ahead.refused ++ [.blockUser "bob" (some "alice")])).store.conversations =
      (Ahead.start.chats.run Ahead.server Ahead.refused).store.conversations := by
  decide +kernel

end Vimla.DirectMessages
