import Vimla.DirectMessages.Sending

/-!
# What a step does to the tables

A message is written where its sender may interact with the peer, and with the
epoch of the conversation; a block and its removal advance that epoch. An answer
that says the interaction is unavailable is given under a block.
-/

namespace Vimla.DirectMessages

open List Rows Except Int

theorem directPairKey_swap (left right : String) : directPairKey left right = directPairKey right left := by
  rw [directPairKey, directPairKey, sortedPair, sortedPair, sortTexts_eq_iff.2 (List.Perm.swap right left [])]

/-- The columns that say whether a device is active, after a step at `now`. -/
structure Follows (now : Nat) (before after : UserCryptoDevice) : Prop where
  id : after.id = before.id
  userId : after.userId = before.userId
  createdAt : after.createdAt = before.createdAt
  revokedAt : after.revokedAt = before.revokedAt ∨ after.revokedAt = some now

theorem Follows.refl (now : Nat) (d : UserCryptoDevice) : Follows now d d := ⟨rfl, rfl, rfl, .inl rfl⟩

structure DevicesStep (now : Nat) (before after : List UserCryptoDevice) : Prop where
  kept : ∀ d ∈ before, ∃ d' ∈ after, Follows now d d'
  origin : ∀ d' ∈ after, d'.createdAt = now ∨ ∃ d ∈ before, Follows now d d'

theorem DevicesStep.refl (now : Nat) (devices : List UserCryptoDevice) : DevicesStep now devices devices :=
  ⟨fun d mem => ⟨d, mem, .refl now d⟩, fun d mem => .inr ⟨d, mem, .refl now d⟩⟩

theorem DevicesStep.update {now : Nat} (devices : List UserCryptoDevice) (id : String)
    {f : UserCryptoDevice → UserCryptoDevice} (follows : ∀ d, Follows now d (f d)) :
    DevicesStep now devices (Rows.update (·.id) id f devices) := by
  have each : ∀ d : UserCryptoDevice, Follows now d (if d.id = id then f d else d) := by
    intro d
    split
    · exact follows d
    · exact .refl now d
  constructor
  · intro d mem
    exact ⟨_, mem_update.2 ⟨d, mem, rfl⟩, each d⟩
  · intro d' mem
    obtain ⟨d, here, rfl⟩ := mem_update.1 mem
    exact .inr ⟨d, here, each d⟩

namespace ChatStore

/-- One of the two blocks the other. -/
def Blocked (store : ChatStore) (a b : String) : Prop := ⟨a, b⟩ ∈ store.blocks ∨ ⟨b, a⟩ ∈ store.blocks

theorem canInteract_iff {store : ChatStore} {a b : String} : store.canInteract a b = true ↔ a = b ∨ ¬ store.Blocked a b := by
  simp only [canInteract, Bool.or_eq_true, decide_eq_true_eq, all_eq_true, Bool.and_eq_true]
  refine or_congr_right ⟨fun free blocked => ?_, fun free block mem => ?_⟩
  · obtain mem | mem := blocked
    · exact (free _ mem).1 ⟨rfl, rfl⟩
    · exact (free _ mem).2 ⟨rfl, rfl⟩
  · constructor
    · rintro ⟨rfl, rfl⟩
      exact free (.inl mem)
    · rintro ⟨rfl, rfl⟩
      exact free (.inr mem)

structure Sound (store : ChatStore) : Prop where
  conversationIds : (store.conversations.map (·.id)).Nodup
  pairs : ∀ c ∈ store.conversations, ∃ a b, a ≠ b ∧ c.members = [a, b] ∧ c.pairKey = directPairKey a b ∧
    a ∈ store.users ∧ b ∈ store.users
  blocks : store.blocks.Nodup
  messageKeys : (store.messages.map (·.key)).Nodup
  authors : ∀ m ∈ store.messages, ∃ c ∈ store.conversations, c.id = m.conversationId ∧ m.senderUserId ∈ c.members
  written : ∀ m ∈ store.messages, Written m

/-- What a step does that touches neither devices nor messages. -/
inductive Quiet (store : ChatStore) : ChatStore → Prop
  | same : Quiet store store
  | joined (userId : String) : Quiet store { store with users := userId :: store.users }
  | blocked (row : UserBlock) (new : row ∉ store.blocks) :
      Quiet store ({ store with blocks := store.blocks ++ [row] }.bumpDirectInteractionEpoch row.blockerUserId row.blockedUserId)
  | unblocked (row : UserBlock) (mem : row ∈ store.blocks) :
      Quiet store ({ store with blocks := store.blocks.filter (· ≠ row) }.bumpDirectInteractionEpoch row.blockerUserId
        row.blockedUserId)
  | opened (newId a b : String) (apart : a ≠ b) (users : a ∈ store.users ∧ b ∈ store.users)
      (fresh : ∀ c ∈ store.conversations, c.id ≠ newId) :
      Quiet store { store with conversations := store.conversations ++ [⟨newId, directPairKey a b, [a, b], 0⟩] }

/-- What one step does to the tables. -/
inductive Change (store : ChatStore) : ChatStore → Prop
  | quiet {after : ChatStore} (quiet : Quiet store after) : Change store after
  | devices (devices : List UserCryptoDevice) : Change store { store with devices := devices }
  | sent (m : DirectMessage) (c : DirectConversation) (mem : c ∈ store.conversations) (id : c.id = m.conversationId)
      (sender : m.senderUserId ∈ c.members) (free : ∀ peer ∈ c.members, store.canInteract m.senderUserId peer = true)
      (epoch : m.interactionEpoch = c.interactionEpoch) (fresh : ∀ other ∈ store.messages, other.key ≠ m.key)
      (written : Written m) :
      Change store { store with messages := store.messages ++ [m] }

section
variable {store after : ChatStore} {actorUserId : String} {target : Option String}

theorem blockUser_quiet
    (done : store.blockUser actorUserId target = some after) : Quiet store after := by
  cases target with
  | none => simp [blockUser] at done
  | some target =>
    simp only [blockUser] at done
    split at done
    · cases done
    · split at done
      · cases done
      · split at done
        · obtain rfl := Option.some.inj done
          exact .same
        · rename_i new
          obtain rfl := Option.some.inj done
          exact .blocked ⟨actorUserId, target⟩ new

theorem unblockUser_quiet
    (done : store.unblockUser actorUserId target = some after) : Quiet store after := by
  cases target with
  | none => simp [unblockUser] at done
  | some target =>
    simp only [unblockUser] at done
    split at done
    · cases done
    · split at done
      · cases done
      · rename_i once
        obtain rfl := Option.some.inj done
        have mem : (⟨actorUserId, target⟩ : UserBlock) ∈ store.blocks :=
          count_pos_iff.1 (by rw [Classical.not_not.1 once]; omega)
        exact .unblocked ⟨actorUserId, target⟩ mem

theorem create_quiet {newId a b : String} (apart : a ≠ b) (done : store.create newId a b = some after) :
    Quiet store after := by
  simp only [create] at done
  split at done
  · cases done
  · rename_i allowed
    have users : a ∈ store.users ∧ b ∈ store.users := by simp_all [usersExist]
    split at done
    · obtain rfl := Option.some.inj done
      exact .same
    · split at done
      · cases done
      · rename_i fresh
        obtain rfl := Option.some.inj done
        exact .opened newId a b apart users (by simpa using fresh)

theorem register_devices {verify : VerifySignedPrekey} {now : Nat} {input : RegisterCryptoDevice}
    (done : store.register verify now actorUserId input = .ok after) :
    ∃ devices, after = { store with devices := devices } ∧ DevicesStep now store.devices devices := by
  simp only [register] at done
  split at done
  · cases done
  · split at done
    · obtain rfl := ok.inj done
      refine ⟨_, rfl, ?_, ?_⟩
      · intro d mem
        exact ⟨d, mem_append_left _ mem, .refl now d⟩
      · intro d mem
        obtain mem | mem := mem_append.1 mem
        · exact .inr ⟨d, mem, .refl now d⟩
        · obtain rfl := mem_singleton.1 mem
          exact .inl rfl
    · split at done
      · cases done
      · split at done
        · cases done
        · split at done
          · cases done
          · obtain rfl := ok.inj done
            exact ⟨_, rfl, .update _ _ fun d => ⟨rfl, rfl, rfl, .inl rfl⟩⟩

theorem prepareSend_ok {userId conversationId senderDeviceId : String} {epoch : Int}
    (issued : store.prepareSend userId conversationId senderDeviceId = .ok epoch) :
    ∃ c, store.conversations.find? (·.id = conversationId) = some c ∧ epoch = c.interactionEpoch := by
  simp only [prepareSend] at issued
  split at issued
  · cases issued
  · split at issued
    · cases issued
    · split at issued
      · cases issued
      · split at issued
        · cases issued
        · split at issued
          · cases issued
          · rename_i current found
            exact ⟨current, found, (ok.inj issued).symm⟩

end

end ChatStore

def Answer.isForbidden : Answer → Prop
  | .error e => e.code = .FORBIDDEN
  | .ok _ => False

namespace SendCall

variable {S : Server} {call : SendCall} {store : ChatStore} {memberIds : List String} {senderDevice : UserCryptoDevice}
  {now : Nat} {newId : String}


structure Sendable (S : Server) (call : SendCall) (store : ChatStore) (memberIds : List String) (m : DirectMessage) : Prop where
  free : ∃ peer, memberIds.find? (· ≠ call.actorUserId) = some peer ∧ store.canInteract call.actorUserId peer = true
  absent : call.findExactReplay S store = .ok none
  current : ∃ c, store.conversations.find? (·.id = call.conversationId) = some c ∧
    c.interactionEpoch = call.input.interactionEpoch
  unique : store.unique m = true

/-- Why an answer is FORBIDDEN. -/
structure Refused (S : Server) (call : SendCall) (store : ChatStore) (memberIds : List String) : Prop where
  peer : ∀ peer, memberIds.find? (· ≠ call.actorUserId) = some peer → call.findExactReplay S store = .ok none ∧
    (store.usersExist call.actorUserId peer && store.canInteract call.actorUserId peer) = false

/-- What comes of the transaction. -/
inductive Outcome (S : Server) (call : SendCall) (store : ChatStore) (memberIds : List String) (m : DirectMessage) :
    TransactionResult → Prop
  | notUnique : Outcome S call store memberIds m .notUnique
  | answered (answer : Answer) (why : answer.isForbidden → Refused S call store memberIds) :
      Outcome S call store memberIds m (.done store answer)
  | sent (view : DirectMessageView) (sendable : Sendable S call store memberIds m) :
      Outcome S call store memberIds m (.done { store with messages := store.messages ++ [m] } (.ok ⟨view, false⟩))

theorem findExactReplay_code {e : DirectChatError} (failed : call.findExactReplay S store = .error e) : e.code = .TAMPERED := by
  simp only [findExactReplay] at failed
  split at failed
  · cases failed
  · simp only [replayOf] at failed
    split at failed
    · obtain rfl := error.inj failed
      rfl
    · split at failed
      · obtain rfl := error.inj failed
        rfl
      · cases failed

theorem transaction_outcome (S : Server) (call : SendCall) (store : ChatStore) (memberIds : List String)
    (senderDevice : UserCryptoDevice) (now : Nat) (newId : String) :
    Outcome S call store memberIds (call.message senderDevice now newId)
      (call.transaction S store memberIds senderDevice now newId) := by
  simp only [transaction]
  split
  · rename_i alone
    exact .answered _ fun _ => ⟨fun peer found => by rw [alone] at found; cases found⟩
  · rename_i peer found
    split
    · rename_i e failed
      refine .answered _ fun forbidden => ?_
      exact absurd ((findExactReplay_code failed).symm.trans forbidden) (by decide)
    · exact .answered _ False.elim
    · rename_i absent
      split
      · rename_i refused
        refine .answered _ fun _ => ⟨fun peer' found' => ?_⟩
        obtain rfl : peer = peer' := Option.some.inj (found.symm.trans found')
        exact ⟨absent, by simpa using refused⟩
      · rename_i allowed
        split
        · exact .answered _ fun forbidden : ErrorCode.CONFLICT = .FORBIDDEN => by cases forbidden
        · rename_i current
          split
          · rename_i unique
            refine .sent _ ⟨⟨peer, found, ?_⟩, absent, ?_, unique⟩
            · simp_all
            · cases at_ : store.conversations.find? (·.id = call.conversationId) with
              | none => simp [at_] at current
              | some c => exact ⟨c, rfl, by simpa [at_] using current⟩
          · exact .notUnique

end SendCall

namespace ChatStore

variable {store after : ChatStore}

def bumped (left right : String) (c : DirectConversation) : DirectConversation :=
  if c.pairKey = directPairKey left right then { c with interactionEpoch := c.interactionEpoch + 1 } else c

section
variable (left right : String) (c : DirectConversation)
include left right c

@[simp] theorem bumped_id : (bumped left right c).id = c.id := by
  rw [bumped]
  split <;> rfl

@[simp] theorem bumped_pairKey :
    (bumped left right c).pairKey = c.pairKey := by
  rw [bumped]
  split <;> rfl

@[simp] theorem bumped_members :
    (bumped left right c).members = c.members := by
  rw [bumped]
  split <;> rfl

theorem le_bumped :
    c.interactionEpoch ≤ (bumped left right c).interactionEpoch := by
  rw [bumped]
  split
  · exact le_add_of_nonneg_right (by decide)
  · exact le_refl _

end

theorem bump_conversations (left right : String) :
    (store.bumpDirectInteractionEpoch left right).conversations = store.conversations.map (bumped left right) := rfl

/-- Conversations stay, and their epochs never go back. -/
theorem Change.keeps (change : Change store after) {c : DirectConversation} (mem : c ∈ store.conversations) :
    ∃ c' ∈ after.conversations, c'.id = c.id ∧ c'.pairKey = c.pairKey ∧ c'.members = c.members ∧
      c.interactionEpoch ≤ c'.interactionEpoch := by
  cases change with
  | sent | devices => exact ⟨c, mem, rfl, rfl, rfl, le_refl _⟩
  | quiet quiet =>
    cases quiet with
    | same | joined => exact ⟨c, mem, rfl, rfl, rfl, le_refl _⟩
    | blocked row | unblocked row =>
      exact ⟨bumped row.blockerUserId row.blockedUserId c, mem_map_of_mem mem, by simp, by simp, by simp,
        le_bumped _ _ c⟩
    | opened => exact ⟨c, mem_append_left _ mem, rfl, rfl, rfl, le_refl _⟩

theorem Quiet.messages (quiet : Quiet store after) : after.messages = store.messages := by
  cases quiet <;> rfl

theorem Quiet.devices (quiet : Quiet store after) : after.devices = store.devices := by
  cases quiet <;> rfl

theorem Sound.bump (sound : store.Sound) (blocks : List UserBlock) (nodup : blocks.Nodup) (left right : String) :
    ({ store with blocks := blocks }.bumpDirectInteractionEpoch left right).Sound where
  conversationIds := by
    rw [bump_conversations, map_map]
    simpa [Function.comp_def] using sound.conversationIds
  pairs c mem := by
    obtain ⟨before, here, rfl⟩ := mem_map.1 mem
    obtain ⟨a, b, apart, members, key, users⟩ := sound.pairs before here
    exact ⟨a, b, apart, (bumped_members left right before).trans members, (bumped_pairKey left right before).trans key,
      users⟩
  blocks := nodup
  messageKeys := sound.messageKeys
  authors m mem := by
    obtain ⟨c, here, id, author⟩ := sound.authors m mem
    exact ⟨bumped left right c, mem_map_of_mem here, by simp [id], by simp [author]⟩
  written := sound.written

theorem Quiet.sound (quiet : Quiet store after) (sound : store.Sound) : after.Sound := by
  cases quiet with
  | same => exact sound
  | joined userId =>
    refine { sound with pairs := fun c mem => ?_ }
    obtain ⟨a, b, apart, members, key, ha, hb⟩ := sound.pairs c mem
    exact ⟨a, b, apart, members, key, mem_cons_of_mem _ ha, mem_cons_of_mem _ hb⟩
  | blocked row new =>
    apply sound.bump
    exact nodup_append.2 ⟨sound.blocks, nodup_singleton _, by
      rintro a ha b hb rfl
      exact new (mem_singleton.1 hb ▸ ha)⟩
  | unblocked row mem => exact sound.bump _ (sound.blocks.filter _) _ _
  | opened newId a b apart users fresh =>
    refine { sound with
      conversationIds := nodup_append sound.conversationIds fresh, pairs := fun c mem => ?_, authors := fun m mem => ?_ }
    · obtain mem | mem := mem_append.1 mem
      · exact sound.pairs c mem
      · obtain rfl := mem_singleton.1 mem
        exact ⟨a, b, apart, rfl, rfl, users⟩
    · obtain ⟨c, here, author⟩ := sound.authors m mem
      exact ⟨c, mem_append_left _ here, author⟩

theorem Change.sound (change : Change store after) (sound : store.Sound) : after.Sound := by
  cases change with
  | quiet quiet => exact quiet.sound sound
  | devices => exact { sound with }
  | sent m c mem id sender free epoch fresh written =>
    refine { sound with
      messageKeys := nodup_append sound.messageKeys fresh, authors := fun m' mem' => ?_, written := fun m' mem' => ?_ }
    · obtain mem' | mem' := mem_append.1 mem'
      · exact sound.authors m' mem'
      · obtain rfl := mem_singleton.1 mem'
        exact ⟨c, mem, id, sender⟩
    · obtain mem' | mem' := mem_append.1 mem'
      · exact sound.written m' mem'
      · obtain rfl := mem_singleton.1 mem'
        exact written

end ChatStore

/-- The conversation that a call has read. -/
def Placed (store : ChatStore) (call : SendCall) (memberIds : List String) : Prop :=
  ∃ c ∈ store.conversations, c.id = call.conversationId ∧ call.actorUserId ∈ c.members ∧ c.members = memberIds

namespace SendPoint

def memberIds : SendPoint → Option (List String)
  | replay memberIds | device memberIds | devices memberIds _ _ | transaction memberIds _ _ => some memberIds
  | _ => none

def senderDevice : SendPoint → Option UserCryptoDevice
  | devices _ senderDevice _ | transaction _ senderDevice _ => some senderDevice
  | _ => none

/-- What a call has read is still so. -/
structure Held (store : ChatStore) (call : SendCall) (point : SendPoint) : Prop where
  placed : ∀ memberIds ∈ point.memberIds, Placed store call memberIds
  device : ∀ senderDevice ∈ point.senderDevice, senderDevice.id = call.input.senderDeviceId

variable {store : ChatStore} {call : SendCall} {point : SendPoint}

theorem Held.of_none (members : point.memberIds = none) (device : point.senderDevice = none) :
    Held store call point := by
  constructor
  · simp [members]
  · simp [device]

theorem Held.keeps {after : ChatStore} (held : Held store call point) (change : store.Change after) :
    Held after call point where
  placed memberIds read := by
    obtain ⟨c, mem, id, actor, members⟩ := held.placed memberIds read
    obtain ⟨c', mem', id', -, members', -⟩ := change.keeps mem
    exact ⟨c', mem', id'.trans id, members'.symm ▸ actor, members'.trans members⟩
  device := held.device

end SendPoint

namespace SendCall

variable {S : Server} {call : SendCall} {store : ChatStore} {now : Nat} {newId : String}

variable {senderDevice : UserCryptoDevice}

theorem message_written
    (unique : store.unique (call.message senderDevice now newId) = true) : Written (call.message senderDevice now newId) := by
  refine ⟨⟨call.input.envelopes, rfl⟩, ?_⟩
  simp only [ChatStore.unique, Bool.and_eq_true, decide_eq_true_eq] at unique
  exact unique.1.1.2

/-- A message is sent where the sender may talk to every member. -/
theorem Sendable.change {memberIds : List String} (sound : store.Sound)
    (placed : Placed store call memberIds)
    (sendable : Sendable S call store memberIds (call.message senderDevice now newId)) :
    store.Change { store with messages := store.messages ++ [call.message senderDevice now newId] } := by
  obtain ⟨c, mem, id, actor, rfl⟩ := placed
  obtain ⟨peer, found, free⟩ := sendable.free
  obtain ⟨c', at_, epoch⟩ := sendable.current
  obtain rfl : c' = c := by
    obtain ⟨mem', id'⟩ := mem_of_find (at_ : Rows.find DirectConversation.id call.conversationId store.conversations = some c')
    exact eq_of_key sound.conversationIds mem' mem (id'.trans id.symm)
  refine .sent _ c' mem id actor (fun other mem_other => ?_) epoch.symm (fun other mem_other => ?_)
    (message_written sendable.unique)
  · obtain ⟨a, b, apart, members, -, -⟩ := sound.pairs c' mem
    by_cases self : call.actorUserId = other
    · exact ChatStore.canInteract_iff.2 (.inl self)
    · have same : peer = other := by
        grind
      exact same ▸ free
  · have unique := sendable.unique
    simp only [ChatStore.unique, Bool.and_eq_true, all_eq_true, decide_eq_true_eq] at unique
    exact (unique.1.1.1 other mem_other).2.1

variable {point : SendPoint}

theorem turn_change (sound : store.Sound) (held : point.Held store call) :
    store.Change (call.turn S store now newId point).1 := by
  cases point with
  | member | replay | device | devices | rejected | answered => exact .quiet .same
  | transaction memberIds senderDevice since =>
    have outcome := transaction_outcome S call store memberIds senderDevice now newId
    simp only [turn]
    generalize call.transaction S store memberIds senderDevice now newId = result at outcome
    cases outcome with
    | notUnique | answered => exact .quiet .same
    | sent view sendable => exact sendable.change sound (held.placed memberIds rfl)

theorem turn_held (held : point.Held store call) : (call.turn S store now newId point).2.Held store call := by
  cases point with
  | member =>
    simp only [turn, ChatStore.requireMemberConversation]
    split
    · exact .of_none rfl rfl
    · rename_i conversation found
      split at found
      · cases found
      · rename_i at_
        obtain rfl := ok.inj found
        have props := find?_some at_
        simp only [decide_eq_true_eq] at props
        refine ⟨?_, by simp [SendPoint.senderDevice]⟩
        rintro _ ⟨⟩
        exact ⟨_, mem_of_find?_eq_some at_, props.1, props.2, rfl⟩
  | replay memberIds =>
    simp only [turn]
    split
    · exact .of_none rfl rfl
    · exact .of_none rfl rfl
    · exact ⟨held.placed, by simp [SendPoint.senderDevice]⟩
  | device memberIds =>
    simp only [turn, ChatStore.requireActiveDevice]
    split
    · exact .of_none rfl rfl
    · rename_i device found
      split
      · exact .of_none rfl rfl
      · refine ⟨held.placed, ?_⟩
        split at found
        · cases found
        · rename_i at_
          split at found
          · cases found
          · obtain rfl := ok.inj found
            have props := find?_some at_
            simp only [decide_eq_true_eq] at props
            rintro _ ⟨⟩
            exact props.1
  | devices memberIds senderDevice since =>
    simp only [turn]
    split
    · exact .of_none rfl rfl
    · exact held
    · exact ⟨held.placed, held.device⟩
  | transaction memberIds senderDevice since | rejected =>
    simp only [turn]
    split <;> exact .of_none rfl rfl
  | answered => exact held

end SendCall

namespace DirectChats

variable {S : Server} {w : DirectChats}

structure Sound (w : DirectChats) : Prop where
  store : w.store.Sound
  sends : ∀ id call point taken, w.sends id = some (call, point, taken) → point.Held w.store call
  creating : ∀ pair ∈ w.creating, pair.1 ≠ pair.2
  prepared : ∀ answer ∈ w.prepared, ∃ c ∈ w.store.conversations, c.id = answer.1 ∧ answer.2 ≤ c.interactionEpoch

theorem withStore_quiet {store : Option ChatStore} (each : ∀ after ∈ store, w.store.Quiet after) :
    w.store.Quiet (w.withStore store).store := by
  cases store with
  | none => exact .same
  | some after => exact each after rfl

/-- A step is a turn of a send, or it writes at most devices. -/
theorem step_cases (sound : w.Sound) (ev : ChatEvent) :
    (∃ id newId, ev = .turn id newId) ∨ w.store.Quiet (w.step S ev).store ∨
      ∃ devices, (w.step S ev).store = { w.store with devices := devices } ∧ DevicesStep w.now w.store.devices devices := by
  cases ev with
  | turn id newId => exact .inl ⟨id, newId, rfl⟩
  | signUp userId => exact .inr (.inl (.joined userId))
  | blockUser => exact .inr (.inl (withStore_quiet fun _ done => ChatStore.blockUser_quiet done))
  | unblockUser => exact .inr (.inl (withStore_quiet fun _ done => ChatStore.unblockUser_quiet done))
  | createCommit actorUserId peerUserId newId =>
    refine .inr (.inl ?_)
    simp only [step, act]
    split
    · rename_i called
      exact withStore_quiet fun _ done => ChatStore.create_quiet (sound.creating _ called) done
    · exact .same
  | create | prepareSend | send | revoke =>
    refine .inr (.inl ?_)
    simp only [step, act]
    split <;> exact .same
  | register actorUserId input =>
    cases result : w.store.register S.verifySignedPreKey w.now actorUserId input with
    | error e => exact .inr (.inl (by simpa [step, act, result, Except.toOption, withStore] using .same))
    | ok after => exact .inr (.inr (by simpa [step, act, result, Except.toOption, withStore] using ChatStore.register_devices result))
  | revokeWrite deviceId =>
    simp only [step, act]
    split
    · exact .inr (.inr ⟨_, rfl, .update _ _ fun d => ⟨rfl, rfl, rfl, .inr rfl⟩⟩)
    · exact .inr (.inl .same)

theorem step_change (sound : w.Sound) (ev : ChatEvent) : w.store.Change (w.step S ev).store := by
  obtain ⟨id, newId, rfl⟩ | quiet | ⟨devices, same, -⟩ := step_cases (S := S) sound ev
  · simp only [step, act, turn]
    split
    · exact .quiet .same
    · rename_i call point taken at_
      exact SendCall.turn_change sound.store (sound.sends id call point taken at_)
  · exact .quiet quiet
  · exact same ▸ .devices devices

end DirectChats

end Vimla.DirectMessages
