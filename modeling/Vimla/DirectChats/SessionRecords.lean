import Vimla.DirectChats.SessionCalls
import Vimla.Lib.Checks

/-!
# What a commit writes

A record that is written decodes to the session that was committed, and a commit
passes where the versions that it expects are stored.
-/

namespace Vimla.DirectChats

open List

/-- What is relied on of the protection of sessions. -/
structure RatchetSeals (L : RatchetProtection) : Prop where
  opens : ∀ iv state aad, L.unprotectLocalJson (L.protectLocalJson iv state aad) aad = some state
  marked : ∀ iv state aad, L.isProtectedLocalString (L.protectLocalJson iv state aad) = true

/-- What a record can hold. -/
def RatchetSnapshot.Valid (snapshot : RatchetSnapshot) : Prop :=
  snapshot.pendingX3dhInit.all isX3dhInitHeader = true ∧ (snapshot.stateVersion = 0 → snapshot.pendingX3dhInit = none)

section
variable {L : RatchetProtection} {scope other : RatchetScope} {snapshot : RatchetSnapshot} {value : Option RatchetRecord}
  {current : Option RatchetSnapshot}

/-- A record is bound to its place and its device. -/
theorem decode_congr (place : ratchetStorageKey scope = ratchetStorageKey other)
    (device : scope.localDeviceId = other.localDeviceId) :
    decodePersistedRatchet L value scope = decodePersistedRatchet L value other := by
  have aad (version : Nat) : ratchetStateAad scope version = ratchetStateAad other version :=
    congrArg (fun key => "vimla:e2ee:ratchet" ++ ":" ++ key ++ ":" ++ toString version) place
  simp [decodePersistedRatchet, aad, device]

theorem decode_protect (seals : RatchetSeals L) (named : scope.localDeviceId ≠ "") (valid : snapshot.Valid) (iv : Nat) :
    decodePersistedRatchet L (some (protectRatchetRecord L iv scope snapshot)) scope = some (some snapshot) := by
  obtain ⟨version, state, pending⟩ := snapshot
  obtain ⟨init, fresh⟩ := valid
  dsimp only at init fresh
  simp only [protectRatchetRecord, decodePersistedRatchet, isProtectedRatchetRecord, seals.marked, named, ne_eq,
    not_false_eq_true, and_self, decide_true, if_true, seals.opens, Option.bind_some]
  by_cases zero : version = 0
  · simp [zero, decodeStoredRatchet, named, fresh zero]
  · rw [if_neg zero]
    have positive : 1 ≤ version := Nat.one_le_iff_ne_zero.2 zero
    simp [decodeStoredRatchet, named, init, positive]

variable {localDeviceId : String}

theorem decodeStored_valid (read : decodeStoredRatchet value localDeviceId = some (some snapshot)) : snapshot.Valid := by
  unfold decodeStoredRatchet at read
  split at read
  · cases read
  · split at read
    · rename_i version state pending allowed
      cases read
      refine ⟨allowed.2.2.1, fun zero => ?_⟩
      dsimp only at zero
      omega
    · cases read
  · split at read
    · cases read
      exact ⟨rfl, fun _ => rfl⟩
    · cases read
  · cases read

theorem decode_valid (read : decodePersistedRatchet L value scope = some (some snapshot)) : snapshot.Valid := by
  unfold decodePersistedRatchet at read
  split at read
  · split at read
    · obtain ⟨state, _, stored⟩ := Option.bind_eq_some_iff.1 read
      exact decodeStored_valid stored
    · cases read
  · exact decodeStored_valid read

theorem decodeStored_version {owner : String} {version : Nat} {state : E2ee.SerializedRatchetState}
    {pending : Option E2ee.X3dhInitHeader} (read : decodeStoredRatchet
      (some (if version = 0 then .legacy owner state else .stored owner version state pending)) localDeviceId = some current) :
    snapshotVersion current = version := by
  by_cases zero : version = 0
  · simp only [zero, if_true, decodeStoredRatchet] at read
    split at read
    · cases read
      exact zero.symm
    · cases read
  · simp only [zero, if_false, decodeStoredRatchet] at read
    split at read
    · cases read
      rfl
    · cases read

/-- The version check passes where that version can be read. -/
theorem assertVersion_iff (read : decodePersistedRatchet L value scope = some current) (expected : Nat) :
    assertPersistedRatchetVersion L value scope.localDeviceId expected = .ok () ↔ snapshotVersion current = expected := by
  unfold decodePersistedRatchet at read
  split at read
  · split at read
    · rename_i mine
      obtain ⟨state, _, stored⟩ := Option.bind_eq_some_iff.1 read
      have version := decodeStored_version stored
      simp only [assertPersistedRatchetVersion]
      split <;> simp_all
    · cases read
  · simp only [assertPersistedRatchetVersion, read]
    split <;> simp_all

/-- A record that is not protected is read as it is. -/
theorem decode_raw {record : RatchetRecord} (raw : isProtectedRatchetRecord L record = false) (scope : RatchetScope) :
    decodePersistedRatchet L (some record) scope = decodeStoredRatchet (some record) scope.localDeviceId := by
  unfold decodePersistedRatchet
  split
  · rename_i same
    cases same
    simp [raw, decodeStoredRatchet]
  · rfl

end

theorem ratchetStorageKey_peer {group : SessionGroup} {peer other : String}
    (same : ratchetStorageKey (group.scope peer) = ratchetStorageKey (group.scope other)) : peer = other := by
  have chars := congrArg String.toList same
  simp only [ratchetStorageKey, SessionGroup.scope, String.toList_append, append_cancel_right_eq,
    append_cancel_left_eq] at chars
  exact String.toList_injective chars

section
variable {L : RatchetProtection} {group : SessionGroup} {iv : String → Nat} {mode : Mode} {db after : Stores}

/-- The session that can be read, if the record can. -/
def Stores.session (L : RatchetProtection) (db : Stores) (scope : RatchetScope) : Option (Option RatchetSnapshot) :=
  decodePersistedRatchet L (db.ratchets (ratchetStorageKey scope)) scope

theorem Stores.session_congr {scope other : RatchetScope} (place : ratchetStorageKey scope = ratchetStorageKey other)
    (device : scope.localDeviceId = other.localDeviceId) : db.session L scope = db.session L other := by
  unfold Stores.session
  rw [place]
  exact decode_congr place device

def SessionGroup.key (group : SessionGroup) (update : RatchetUpdate) : String :=
  ratchetStorageKey (group.scope update.peerDeviceId)

variable {updates : List RatchetUpdate} {ratchets : Ratchets}

theorem putAll_other {key : String} (other : ∀ u ∈ updates, group.key u ≠ key) :
    updates.foldl (group.putNext L iv) ratchets key = ratchets key := by
  induction updates generalizing ratchets with
  | nil => rfl
  | cons u updates ih =>
    rw [foldl_cons, ih fun v mem => other v (mem_cons_of_mem _ mem)]
    exact Function.update_of_ne (other u mem_cons_self).symm _ _

theorem putAll_self (distinct : (updates.map (·.peerDeviceId)).Nodup) {u : RatchetUpdate}
    (mem : u ∈ updates) : updates.foldl (group.putNext L iv) ratchets (group.key u) =
      some (protectRatchetRecord L (iv u.peerDeviceId) (group.scope u.peerDeviceId) u.next) := by
  induction updates generalizing ratchets with
  | nil => cases mem
  | cons v updates ih =>
    rw [map_cons, nodup_cons] at distinct
    rw [foldl_cons]
    obtain rfl | later := mem_cons.1 mem
    · rw [putAll_other]
      · exact Function.update_self _ _ _
      · intro w among same
        exact distinct.1 (ratchetStorageKey_peer same ▸ mem_map_of_mem among)
    · exact ih distinct.2 later

/-- What a commit leaves in the other stores. -/
def RatchetCommit.Beside (mode : Mode) (db after : Stores) : RatchetCommit → Prop
  | .outbound _ pendingSend expected =>
    (db.pendingSends.get pendingSend.clientMessageId).map pendingSendRevision = expected ∧
      commitPendingSend mode pendingSend expected db.pendingSends = some after.pendingSends ∧
      after.plaintexts = db.plaintexts
  | .inbound _ plaintext =>
    after.pendingSends = db.pendingSends ∧
      after.plaintexts = putPlaintext db.plaintexts (protectPlaintext mode plaintext)
  | .handshake _ => after.pendingSends = db.pendingSends ∧ after.plaintexts = db.plaintexts

/-- A transaction that commits: it has checked every version, and has written all sessions. -/
structure RatchetCommit.Commits (L : RatchetProtection) (group : SessionGroup) (mode : Mode) (iv : String → Nat)
    (db : Stores) (commit : RatchetCommit) (after : Stores) : Prop where
  filled : commit.updates ≠ []
  distinct : (commit.updates.map (·.peerDeviceId)).Nodup
  checked : ∀ u ∈ commit.updates, group.assertVersion L db.ratchets u = .ok ()
  ratchets : after.ratchets = commit.updates.foldl (group.putNext L iv) db.ratchets
  beside : commit.Beside mode db after

theorem commitRatchet_ok {update : RatchetUpdate} {plaintext : Option StoredPlaintext} :
    commitRatchet L group mode iv update plaintext db = .ok after ↔
      group.assertVersion L db.ratchets update = .ok () ∧
        after = { db with
          ratchets := group.putNext L iv db.ratchets update
          plaintexts := plaintext.elim db.plaintexts fun row =>
            Function.update db.plaintexts row.messageId (some (protectPlaintext mode row)) } := by
  rw [commitRatchet, Checks.check_bind]
  refine and_congr_right fun _ => ?_
  constructor
  · rintro wrote
    exact (Except.ok.inj wrote).symm
  · rintro rfl
    rfl

theorem commitOutbound_ok {pending : StoredPendingSend} {expected : Option Nat} :
    commitOutboundRatchets L group mode iv updates pending expected db = .ok after ↔
      updates ≠ [] ∧ (updates.map (·.peerDeviceId)).Nodup ∧
        (db.pendingSends.get pending.clientMessageId).map pendingSendRevision = expected ∧
        (∀ u ∈ updates, group.assertVersion L db.ratchets u = .ok ()) ∧
        ∃ pendingSends, commitPendingSend mode pending expected db.pendingSends = some pendingSends ∧
          after = { db with ratchets := updates.foldl (group.putNext L iv) db.ratchets, pendingSends } := by
  unfold commitOutboundRatchets
  by_cases filled : updates = []
  · simp [filled, bind, Except.bind, throw, throwThe, MonadExceptOf.throw]
  by_cases distinct : (updates.map (·.peerDeviceId)).Nodup
  swap
  · simp [filled, distinct, bind, Except.bind, throw, throwThe, MonadExceptOf.throw]
  by_cases revision : (db.pendingSends.get pending.clientMessageId).map pendingSendRevision = expected
  swap
  · simp [filled, distinct, revision, bind, Except.bind, throw, throwThe, MonadExceptOf.throw]
  simp only [filled, distinct, revision, not_true_eq_false, if_false, ne_eq, not_false_eq_true, true_and]
  split
  · rename_i aborted
    simp [aborted, throw, throwThe, MonadExceptOf.throw]
  · rename_i pendingSends wrote
    rw [Checks.check_bind, Checks.forM_eq_ok]
    refine and_congr_right fun _ => ?_
    constructor
    · intro same
      exact ⟨pendingSends, wrote, (Except.ok.inj same).symm⟩
    · rintro ⟨others, same, rfl⟩
      cases wrote.symm.trans same
      rfl

theorem run_ok {commit : RatchetCommit} :
    commit.run L group mode iv db = .ok after ↔ commit.Commits L group mode iv db after := by
  obtain ⟨ratchets, pendingSends, plaintexts⟩ := after
  cases commit with
  | outbound updates pending expected =>
    rw [RatchetCommit.run, commitOutbound_ok]
    constructor
    · rintro ⟨filled, distinct, revision, checked, _, wrote, same⟩
      cases same
      exact ⟨filled, distinct, checked, rfl, revision, wrote, rfl⟩
    · rintro ⟨filled, distinct, checked, rfl, revision, wrote, rfl⟩
      exact ⟨filled, distinct, revision, checked, _, wrote, rfl⟩
  | inbound update plaintext | handshake update =>
    rw [RatchetCommit.run, commitRatchet_ok]
    constructor
    · rintro ⟨checked, same⟩
      cases same
      exact ⟨by simp [RatchetCommit.updates], by simp [RatchetCommit.updates], by simpa [RatchetCommit.updates] using checked,
        rfl, rfl, rfl⟩
    · rintro ⟨_, _, checked, rfl, rfl, rfl⟩
      exact ⟨checked update (by simp [RatchetCommit.updates]), rfl⟩

end

end Vimla.DirectChats
