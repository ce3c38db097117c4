import Vimla.DirectMessages.Trust

/-!
# Which devices a message is for

The devices are read before the transaction and not in it. A message covers the
devices that are active at its commit when none of them has changed since.
-/

namespace Vimla.DirectMessages

open List Runs

/-- One envelope for each active device of a member, none for another one, and an active sender. -/
structure CoversMembers (store : ChatStore) (members : List String) (m : DirectMessage) : Prop where
  distinct : (m.envelopes.map (·.recipientDeviceId)).Nodup
  active : ∀ id ∈ m.envelopes.map (·.recipientDeviceId),
    ∃ d ∈ store.devices, d.id = id ∧ d.userId ∈ members ∧ d.revokedAt = none
  all : ∀ d ∈ store.devices, d.userId ∈ members → d.revokedAt = none → d.id ∈ m.envelopes.map (·.recipientDeviceId)
  sender : ∃ d ∈ store.devices, d.id = m.senderDeviceId ∧ d.userId = m.senderUserId ∧ d.revokedAt = none

instance (store : ChatStore) (members : List String) (m : DirectMessage) : Decidable (CoversMembers store members m) :=
  decidable_of_iff (((m.envelopes.map (·.recipientDeviceId)).Nodup ∧ ∀ id ∈ m.envelopes.map (·.recipientDeviceId),
    ∃ d ∈ store.devices, d.id = id ∧ d.userId ∈ members ∧ d.revokedAt = none) ∧
    (∀ d ∈ store.devices, d.userId ∈ members → d.revokedAt = none → d.id ∈ m.envelopes.map (·.recipientDeviceId)) ∧
    ∃ d ∈ store.devices, d.id = m.senderDeviceId ∧ d.userId = m.senderUserId ∧ d.revokedAt = none)
    ⟨fun h => ⟨h.1.1, h.1.2, h.2.1, h.2.2⟩, fun h => ⟨⟨h.distinct, h.active⟩, h.all, h.sender⟩⟩

namespace DirectChats

variable {S : Server} {w : DirectChats}

/-- Each message that the step commits covers the devices of this moment. -/
def Covers (S : Server) (w : DirectChats) (ev : ChatEvent) : Prop :=
  ∀ m ∈ (w.step S ev).store.messages, m ∈ w.store.messages ∨
    ∀ c ∈ w.store.conversations, c.id = m.conversationId → CoversMembers w.store c.members m

instance (ev : ChatEvent) : Decidable (Covers S w ev) := inferInstanceAs (Decidable (∀ m ∈ _, _ ∨ ∀ c ∈ _, _))

/-- At its transaction, no device of a member has been registered or revoked since the call first read one. -/
def devicesSettled (w : DirectChats) : ChatEvent → Bool
  | .turn id _ => match w.sends id with
    | some (_, .transaction memberIds _ since, _) => w.store.devices.all fun d =>
      d.userId ∉ memberIds || (d.createdAt < since && d.revokedAt.all (· < since))
    | _ => true
  | _ => true

/-- Not revoked before the step. -/
def ActiveAt (since : Nat) (d : UserCryptoDevice) : Prop := ∀ t ∈ d.revokedAt, since ≤ t

theorem ActiveAt.of_none {since : Nat} {d : UserCryptoDevice} (active : d.revokedAt = none) : ActiveAt since d := by
  simp [ActiveAt, active]

theorem ActiveAt.follows {since now : Nat} {d d' : UserCryptoDevice} (active : ActiveAt since d) (follows : Follows now d d')
    (past : since ≤ now) : ActiveAt since d' := by
  intro t at_
  obtain same | revoked := follows.revokedAt
  · exact active t (same ▸ at_)
  · rw [revoked] at at_
    cases at_
    exact past

def SenderRead (devices : List UserCryptoDevice) (call : SendCall) (senderDevice : UserCryptoDevice) (since : Nat) : Prop :=
  ∃ d ∈ devices, d.id = senderDevice.id ∧ d.userId = call.actorUserId ∧ ActiveAt since d

structure MembersRead (devices : List UserCryptoDevice) (call : SendCall) (memberIds : List String) (since : Nat) : Prop where
  active : ∀ id ∈ call.input.envelopes.map (·.recipientDeviceId),
    ∃ d ∈ devices, d.id = id ∧ d.userId ∈ memberIds ∧ ActiveAt since d
  all : ∀ d ∈ devices, d.userId ∈ memberIds → d.createdAt < since → d.revokedAt = none →
    d.id ∈ call.input.envelopes.map (·.recipientDeviceId)

def Read (devices : List UserCryptoDevice) (now : Nat) (call : SendCall) : SendPoint → Prop
  | .devices _ senderDevice since => since < now ∧ SenderRead devices call senderDevice since
  | .transaction memberIds senderDevice since =>
    since < now ∧ SenderRead devices call senderDevice since ∧ MembersRead devices call memberIds since
  | _ => True

section
variable {devices devices' : List UserCryptoDevice} {now since : Nat} {call : SendCall} {memberIds : List String}
  {senderDevice : UserCryptoDevice} {point : SendPoint}

theorem SenderRead.follows (read : SenderRead devices call senderDevice since) (step : DevicesStep now devices devices')
    (past : since ≤ now) : SenderRead devices' call senderDevice since := by
  obtain ⟨d, mem, id, owner, active⟩ := read
  obtain ⟨d', mem', follows⟩ := step.kept d mem
  exact ⟨d', mem', follows.id.trans id, follows.userId.trans owner, active.follows follows past⟩

theorem MembersRead.follows (read : MembersRead devices call memberIds since) (step : DevicesStep now devices devices')
    (past : since ≤ now) : MembersRead devices' call memberIds since where
  active id mem := by
    obtain ⟨d, mem, id, owner, active⟩ := read.active id mem
    obtain ⟨d', mem', follows⟩ := step.kept d mem
    exact ⟨d', mem', follows.id.trans id, follows.userId.symm ▸ owner, active.follows follows past⟩
  all d' mem' owner early active := by
    obtain new | ⟨d, mem, follows⟩ := step.origin d' mem'
    · omega
    · have still : d.revokedAt = none := by
        obtain same | revoked := follows.revokedAt
        · exact same.symm.trans active
        · rw [active] at revoked
          cases revoked
      rw [follows.id]
      exact read.all d mem (follows.userId ▸ owner) (follows.createdAt ▸ early) still

theorem Read.follows (read : Read devices now call point) (step : DevicesStep now devices devices') :
    Read devices' (now + 1) call point := by
  cases point with
  | devices memberIds senderDevice since => exact ⟨by have := read.1; omega, read.2.follows step read.1.le⟩
  | transaction memberIds senderDevice since =>
    obtain ⟨past, sender, members⟩ := read
    exact ⟨by omega, sender.follows step past.le, members.follows step past.le⟩
  | member | replay | device | rejected | answered => trivial

end

variable {call : SendCall} {memberDevices : List UserCryptoDevice}

theorem covers_iff (covers : call.covers memberDevices = true) (id : String) :
    id ∈ memberDevices.map (·.id) ↔ id ∈ call.input.envelopes.map (·.recipientDeviceId) := by
  simp only [SendCall.covers, Bool.and_eq_true, decide_eq_true_eq, all_eq_true] at covers
  have distinct : (memberDevices.map (·.id)).dedup.Nodup := nodup_dedup _
  have perm := (distinct.subperm covers.2).perm_of_length_le covers.1.ge
  have same := perm.mem_iff (a := id)
  rwa [mem_dedup, mem_dedup] at same

theorem check_covers {senderDevice : UserCryptoDevice}
    (checked : call.check S senderDevice memberDevices = .ok ()) : call.covers memberDevices = true := by
  simp only [SendCall.check] at checked
  split at checked
  · cases checked
  · split at checked
    · cases checked
    · simp_all

/-- A turn reads what is there at its step. -/
theorem turn_read {store : ChatStore} {now : Nat} {newId : String} {point : SendPoint}
    (read : Read store.devices now call point) :
    Read store.devices (now + 1) call (call.turn S store now newId point).2 := by
  cases point with
  | member | replay | rejected | transaction memberIds senderDevice since =>
    simp only [SendCall.turn]
    split <;> trivial
  | device memberIds =>
    simp only [SendCall.turn, ChatStore.requireActiveDevice]
    split
    · trivial
    · rename_i device found
      split at found
      · cases found
      · rename_i at_
        split at found
        · cases found
        · rename_i active
          obtain rfl := Except.ok.inj found
          split
          · trivial
          · have props := find?_some at_
            simp only [decide_eq_true_eq] at props
            exact ⟨by omega, _, mem_of_find?_eq_some at_, rfl, props.2, .of_none (by simpa using active)⟩
  | devices memberIds senderDevice since =>
    obtain ⟨past, sender⟩ := read
    simp only [SendCall.turn]
    split
    · trivial
    · exact ⟨by omega, sender⟩
    · rename_i checked
      have same := covers_iff (check_covers checked)
      refine ⟨by omega, sender, fun id mem => ?_, fun d mem owner early active => ?_⟩
      · obtain ⟨d, read, rfl⟩ := mem_map.1 ((same id).2 mem)
        obtain ⟨here, props⟩ := mem_filter.1 read
        simp only [decide_eq_true_eq] at props
        exact ⟨d, here, rfl, props.1, .of_none props.2⟩
      · exact (same d.id).1 (mem_map_of_mem (mem_filter.2 ⟨mem, by simp [owner, active]⟩))
  | answered => trivial

/-- Every call has read what is still so, but for what has changed since. -/
structure Tracked (w : DirectChats) : Prop where
  sound : w.Sound
  reads : ∀ id call point taken, w.sends id = some (call, point, taken) → Read w.store.devices w.now call point

theorem turn_devices (id : Nat) (newId : String) : (w.step S (.turn id newId)).store.devices = w.store.devices := by
  simp only [step, act, turn]
  split
  · rfl
  · rename_i call point taken at_
    cases point with
    | member | replay | device | devices | rejected | answered => rfl
    | transaction memberIds senderDevice since =>
      have outcome := SendCall.transaction_outcome S call w.store memberIds senderDevice w.now newId
      simp only [SendCall.turn]
      generalize call.transaction S w.store memberIds senderDevice w.now newId = result at outcome
      cases outcome <;> rfl

theorem step_devices (sound : w.Sound) (ev : ChatEvent) :
    DevicesStep w.now w.store.devices (w.step S ev).store.devices := by
  obtain ⟨id, newId, rfl⟩ | quiet | ⟨devices, same, step⟩ := step_cases (S := S) sound ev
  · exact turn_devices (S := S) (w := w) id newId ▸ .refl _ _
  · exact quiet.devices ▸ .refl _ _
  · rw [same]
    exact step

theorem Tracked.step (tracked : w.Tracked) (ev : ChatEvent) : (w.step S ev).Tracked := by
  refine ⟨tracked.sound.step ev, fun id call point taken at_ => ?_⟩
  have changed := step_devices (S := S) tracked.sound ev
  obtain kept | ⟨-, rfl, -⟩ | ⟨newId, before, earlier, rfl, found, -, rfl⟩ := step_sends at_
  · exact (tracked.reads id call point taken kept).follows changed
  · trivial
  · rw [turn_devices]
    exact turn_read (tracked.reads id call before earlier found)

/-- Where the devices are settled, a commit covers them. -/
theorem Tracked.covers (tracked : w.Tracked) {ev : ChatEvent} (settled : w.devicesSettled ev = true) : Covers S w ev := by
  intro m mem
  refine (commits_of_mem tracked.sound mem).imp_right ?_
  rintro ⟨id, newId, rfl, commits⟩ c mem_c place
  obtain ⟨call, memberIds, senderDevice, since, taken, at_, rfl, sendable⟩ := commits.sent
  obtain ⟨past, ⟨d, mem_d, sender_id, owner, active⟩, members⟩ := tracked.reads id call _ taken at_
  obtain ⟨c', mem_c', id', actor, rfl⟩ := (tracked.sound.sends id call _ taken at_).placed memberIds rfl
  obtain rfl : c = c' := Rows.eq_of_key tracked.sound.store.conversationIds mem_c mem_c' (place.trans id'.symm)
  simp only [devicesSettled, at_, all_eq_true, Bool.or_eq_true, Bool.and_eq_true, decide_eq_true_eq] at settled
  have recipients : (call.message senderDevice w.now newId).envelopes.map (·.recipientDeviceId) =
      call.input.envelopes.map (·.recipientDeviceId) := by
    simp [SendCall.message, storedEnvelope]
  have still : ∀ d ∈ w.store.devices, d.userId ∈ c.members → ActiveAt since d → d.revokedAt = none := by
    intro d mem owner active
    obtain other | ⟨-, early⟩ := settled d mem
    · exact absurd owner other
    · cases revoked : d.revokedAt with
      | none => rfl
      | some t =>
        have late := active t revoked
        simp only [revoked, Option.all_some, decide_eq_true_eq] at early
        omega
  constructor
  · exact (SendCall.message_written sendable.unique).distinct
  · intro id mem
    rw [recipients] at mem
    obtain ⟨d, mem, same, owner, active⟩ := members.active id mem
    exact ⟨d, mem, same, owner, still d mem owner active⟩
  · intro d mem owner active
    rw [recipients]
    obtain other | ⟨early, -⟩ := settled d mem
    · exact absurd owner other
    · exact members.all d mem owner early active
  · exact ⟨d, mem_d, sender_id, owner, still d mem_d (owner ▸ actor) active⟩

end DirectChats

theorem ChatStart.tracked (start : ChatStart) : start.chats.Tracked where
  sound := start.chats_sound
  reads _ _ _ _ at_ := by cases at_

/-- Messages cover the devices of their commit in runs that settle the devices between the reads of a send and its commit. -/
theorem settled_sends_cover (S : Server) (start : ChatStart) (evs : List ChatEvent)
    (settled : Along (DirectChats.step S) (fun w ev => w.devicesSettled ev = true) start.chats evs) :
    Along (DirectChats.step S) (DirectChats.Covers S) start.chats evs :=
  along_of_invariant (P := DirectChats.Tracked) (fun _ _ settled tracked => tracked.covers settled)
    (fun _ ev _ tracked => tracked.step ev) settled start.tracked

theorem settled_sends_cover_alice :
    Along (DirectChats.step Ahead.server) (DirectChats.Covers Ahead.server) Ahead.start.chats
      (Ahead.opened ++ Ahead.sent 0 0) ∧
    ((Ahead.start.chats.run Ahead.server (Ahead.opened ++ Ahead.sent 0 0)).store.messages.map (·.id)) = ["row"] :=
  ⟨settled_sends_cover Ahead.server Ahead.start (Ahead.opened ++ Ahead.sent 0 0) (by decide +kernel), by decide +kernel⟩

namespace Unsettled

/-- Up to the transaction. -/
def begun : List ChatEvent := Ahead.opened ++ .send 0 (Ahead.call 0) :: List.replicate 4 (.turn 0 "row")

/-- Alice's device is revoked while its message is on the way. -/
def revoked : List ChatEvent := begun ++ [.revoke "alice" "a", .revokeWrite "a", .turn 0 "row"]

/-- Bob registers another device meanwhile. -/
def registered : List ChatEvent := begun ++ [.register "bob" ⟨"c", "", "", 1, "", "", none⟩, .turn 0 "row"]

end Unsettled

/-- A revoked device sends and receives, and a registered one is left out. -/
theorem unsettled_sends_miss :
    ¬ Along (DirectChats.step Ahead.server) (DirectChats.Covers Ahead.server) Ahead.start.chats Unsettled.revoked ∧
    ¬ Along (DirectChats.step Ahead.server) (DirectChats.Covers Ahead.server) Ahead.start.chats Unsettled.registered := by
  decide +kernel

end Vimla.DirectMessages
