import Vimla.DirectChats.SessionSteps
import Vimla.E2ee.Skipping

/-!
# Message keys are used once

A ratchet public key belongs to one session, or to an attempt that has generated
it. With it a session only counts on, so that no two committed envelopes have the
same key and message number.
-/

namespace Vimla.DirectChats

open Base64 (Bytes)
open Function List
open List
open E2ee (bytesToB64 deserializeRatchet)

def RatchetSnapshot.ownKey (snapshot : RatchetSnapshot) : Option (Bytes × Nat) :=
  (deserializeRatchet snapshot.state).map (·.own)

section
variable {C : Client} {previous : Option RatchetSnapshot} {draw : Draw} {k : Bytes} {n : Nat}

theorem ownKey_next {state : E2ee.RatchetState} {update : RatchetUpdate} (state_eq : update.state = E2ee.serializeRatchet state)
    {own : Bytes × Nat} (key : update.next.ownKey = some own) : own = state.own := by
  obtain ⟨t, read, rfl⟩ := Option.map_eq_some_iff.1 key
  rw [show update.next.state = update.state from rfl, state_eq] at read
  exact E2ee.deserialize_own read

/-- The key and number of an envelope, and those that are left for the next one. -/
theorem encryptForDevice_key {input : EncryptInput} {device : CryptoDeviceView} {m : RatchetUpdate × WireEnvelopeDto}
    (made : input.encryptForDevice C device previous draw = some m) :
    ∃ key, m.2.dhPublicB64 = bytesToB64 key ∧
      (previous.bind (·.ownKey) = some (key, m.2.messageNumber) ∨ key = C.primitives.publicKey draw.ratchet) ∧
      ∀ own, m.1.next.ownKey = some own → own = (key, m.2.messageNumber + 1) := by
  obtain ⟨⟨state, init⟩, session, made⟩ := Option.bind_eq_some_iff.1 made
  dsimp only at made
  split at made
  · cases made
  · rename_i envelope state' sealed
    cases made
    obtain ⟨⟨pub, number⟩, key, count⟩ := E2ee.encryptEnvelope_own sealed
    refine ⟨state.dhsPublic, pub, ?_, fun own read => ?_⟩
    · cases previous with
      | none =>
        right
        obtain ⟨⟨_, _⟩, begun, same⟩ := Option.map_eq_some_iff.1 session
        cases same
        iterate 2 obtain ⟨_, _, begun⟩ := Option.bind_eq_some_iff.1 begun
        obtain ⟨_, _, same⟩ := Option.bind_eq_some_iff.1 begun
        cases same
        rfl
      | some snapshot =>
        left
        obtain ⟨t, read, same⟩ := Option.map_eq_some_iff.1 session
        cases same
        simp [RatchetSnapshot.ownKey, read, E2ee.RatchetState.own, number]
    · rw [ownKey_next rfl read]
      simp [E2ee.RatchetState.own, key, count, number]

theorem decryptWith_opened {input : DecryptInput} {state state' : E2ee.RatchetState} {fresh : Bytes} {text : String}
    (opened : input.decryptWith C state fresh = .opened state' text) :
    (state'.own = state.own ∧ (state.dhrPublic.isSome ∨ state.skipped ≠ .empty)) ∨
      state'.own = (C.primitives.publicKey fresh, 0) := by
  unfold DecryptInput.decryptWith at opened
  split at opened
  · cases opened
  · split at opened
    · cases opened
    · rename_i plaintext after decrypts
      cases opened
      unfold E2ee.decryptEnvelope at decrypts
      split at decrypts
      · cases decrypts
      · split at decrypts
        · cases decrypts
        · rename_i opens
          cases decrypts
          exact E2ee.ratchetDecrypt_own opens

/-- A session keeps its key and counts on, or takes the key that was drawn. -/
theorem Computed.key {next : RatchetSnapshot} (computed : Computed C previous draw next) (own : next.ownKey = some (k, n)) :
    (∃ m, previous.bind (·.ownKey) = some (k, m) ∧ m ≤ n) ∨ k = C.primitives.publicKey draw.ratchet := by
  cases computed with
  | encrypted input device update envelope made =>
    obtain ⟨key, _, from_, after⟩ := encryptForDevice_key made
    cases after _ own
    obtain same | fresh := from_
    · exact .inl ⟨_, same, Nat.le_succ _⟩
    · exact .inr fresh
  | decrypted input state text opened =>
    have key := ownKey_next rfl own
    unfold DecryptInput.openMessage at opened
    split at opened
    · rename_i snapshot
      split at opened
      · cases opened
      · rename_i before read
        obtain ⟨same, _⟩ | fresh := decryptWith_opened opened
        · refine .inl ⟨n, ?_, Nat.le_refl n⟩
          simp [RatchetSnapshot.ownKey, read, ← same, ← key]
        · rw [← key] at fresh
          exact .inr (congrArg Prod.fst fresh)
    · split at opened
      · cases opened
      · split at opened
        · cases opened
        · rename_i signed before responds
          obtain ⟨shared, _, same⟩ := Option.map_eq_some_iff.1 responds
          obtain ⟨_, known⟩ | fresh := decryptWith_opened opened
          · rw [← same] at known
            simp [E2ee.initRatchetResponder] at known
          · rw [← key] at fresh
            exact .inr (congrArg Prod.fst fresh)
    · cases opened
  | acknowledged peerDeviceId snapshot loaded =>
    left
    rw [loaded]
    exact ⟨n, own, Nat.le_refl n⟩

end

/-- The session at a place, or the turn of an attempt. -/
inductive Holder
  | session (place : String)
  | draft (id i : Nat)

/-- What an attempt has drawn, in turn. -/
def SessionPhase.draws : SessionPhase → List Draw
  | .loading loaded => loaded.map (·.draw)
  | .committing loaded => loaded.map (·.draw)
  | .migrating loaded _ => loaded.map (·.draw)
  | _ => []

namespace SessionWorld

section
variable (C : Client) (L : RatchetProtection)

def HasKey (db : Stores) (place : String) (k : Bytes) (n : Nat) : Prop :=
  ∃ (scope : RatchetScope) (snapshot : RatchetSnapshot), scope.localDeviceId = C.material.deviceId ∧
    ratchetStorageKey scope = place ∧ db.session L scope = some (some snapshot) ∧ snapshot.ownKey = some (k, n)

def Holds (s : SessionWorld) : Holder → Bytes → Prop
  | .session place, k => ∃ n, HasKey C L s.db place k n
  | .draft id i, k =>
    ∃ call draw, s.calls id = some call ∧ call.phase.draws[i]? = some draw ∧ k = C.primitives.publicKey draw.ratchet

def envelopes (s : SessionWorld) : List WireEnvelopeDto := s.staged.flatMap (·.envelopes)

def slot (e : WireEnvelopeDto) : String × Nat := (e.dhPublicB64, e.messageNumber)

/-- A key of a committed envelope is drawn no more, and its session has counted on. -/
structure Spent (s : SessionWorld) (e : WireEnvelopeDto) (k : Bytes) : Prop where
  key : e.dhPublicB64 = bytesToB64 k
  generated : k ∈ s.generated
  undrawn : ∀ id i, ¬ s.Holds C L (.draft id i) k
  passed : ∀ place n, HasKey C L s.db place k n → e.messageNumber < n

structure KeysApart (s : SessionWorld) : Prop where
  generated : ∀ h k, s.Holds C L h k → k ∈ s.generated
  apart : ∀ h h' k, s.Holds C L h k → s.Holds C L h' k → h = h'
  spent : ∀ e ∈ s.envelopes, ∃ k, s.Spent C L e k
  distinct : (s.envelopes.map slot).Nodup

end

section
variable {C : Client} {P : LocalProtection} {L : RatchetProtection} {s s' : SessionWorld} {id : Nat} {call : SessionCall}

/-- The sessions stay as they are, and at most one attempt draws a key, which is new. -/
theorem KeysApart.draws (keys : s.KeysApart C L)
    (sessions : ∀ place k n, HasKey C L s'.db place k n → HasKey C L s.db place k n) (generated : s.generated ⊆ s'.generated)
    (staged : s'.staged = s.staged) (id i : Nat)
    (drafts : ∀ id' i' k, s'.Holds C L (.draft id' i') k →
      s.Holds C L (.draft id' i') k ∨ (k ∉ s.generated ∧ k ∈ s'.generated ∧ id' = id ∧ i' = i)) : s'.KeysApart C L := by
  have back : ∀ h k, s'.Holds C L h k →
      s.Holds C L h k ∨ (k ∉ s.generated ∧ k ∈ s'.generated ∧ h = .draft id i) := by
    rintro (place | ⟨id', i'⟩) k holds
    · obtain ⟨n, has⟩ := holds
      exact .inl ⟨n, sessions place k n has⟩
    · obtain old | ⟨new, here, rfl, rfl⟩ := drafts id' i' k holds
      · exact .inl old
      · exact .inr ⟨new, here, rfl⟩
  have envelopes : s'.envelopes = s.envelopes := by rw [SessionWorld.envelopes, staged, SessionWorld.envelopes]
  refine ⟨fun h k holds => ?_, fun h h' k holds holds' => ?_, fun e mem => ?_, ?_⟩
  · obtain old | ⟨_, here, _⟩ := back h k holds
    · exact generated (keys.generated h k old)
    · exact here
  · obtain old | ⟨new, _, rfl⟩ := back h k holds
    · obtain old' | ⟨new, _, _⟩ := back h' k holds'
      · exact keys.apart h h' k old old'
      · exact absurd (keys.generated h k old) new
    · obtain old' | ⟨_, _, rfl⟩ := back h' k holds'
      · exact absurd (keys.generated h' k old') new
      · rfl
  · rw [envelopes] at mem
    obtain ⟨k, spent⟩ := keys.spent e mem
    refine ⟨k, spent.key, generated spent.generated, fun id' i' holds => ?_,
      fun place n has => spent.passed place n (sessions place k n has)⟩
    obtain old | ⟨new, _⟩ := drafts id' i' k holds
    · exact spent.undrawn id' i' old
    · exact new spent.generated
  · rw [envelopes]
    exact keys.distinct

section Commit
variable {loaded : List Loaded} {commit : RatchetCommit} {mode : Mode} {iv : String → Nat} {db : Stores}

variable {k : Bytes} {n : Nat}

theorem HasKey.of_session {scope : RatchetScope} {snapshot : RatchetSnapshot}
    (device : scope.localDeviceId = C.material.deviceId) (stored : db.session L scope = some (some snapshot))
    (own : snapshot.ownKey = some (k, n)) : HasKey C L db (ratchetStorageKey scope) k n :=
  ⟨scope, snapshot, device, rfl, stored, own⟩

variable {u : RatchetUpdate} {i : Nat} {l : Loaded} {e : WireEnvelopeDto}

/-- Where a committed session has its key from. -/
theorem replaces_held (at_ : s.calls id = some call) (phase : call.phase = .committing loaded)
    (replaces : Replaces C L s.db db call loaded u i l) (own : u.next.ownKey = some (k, n)) :
    (∃ m, HasKey C L s.db ((call.op.group C).key u) k m ∧ m ≤ n) ∨ s.Holds C L (.draft id i) k := by
  obtain ⟨m, before, le⟩ | fresh := replaces.computed.key own
  · obtain ⟨snapshot, existing, key⟩ := Option.bind_eq_some_iff.1 before
    have stored := replaces.before
    rw [existing] at stored
    exact .inl ⟨m, .of_session (group_device call.op) stored key, le⟩
  · refine .inr ⟨call, l.draw, at_, ?_, fresh⟩
    simp [phase, SessionPhase.draws, replaces.at_]

/-- A key in the stores after a commit was there before, or is that of a committed session. -/
theorem hasKey_after (seals : RatchetSeals L) (tracks : call.Tracks C L s.db) (phase : call.phase = .committing loaded)
    (made : call.op.prepare C loaded = .commits commit) (wrote : commit.Commits L (call.op.group C) mode iv s.db db)
    {place : String} (has : HasKey C L db place k n) :
    (HasKey C L s.db place k n ∧ ∀ u ∈ commit.updates, (call.op.group C).key u ≠ place) ∨
      ∃ u ∈ commit.updates, ∃ i l, Replaces C L s.db db call loaded u i l ∧ (call.op.group C).key u = place ∧
        u.next.ownKey = some (k, n) := by
  obtain ⟨scope, snapshot, device, rfl, stored, own⟩ := has
  by_cases written : ∃ u ∈ commit.updates, (call.op.group C).key u = ratchetStorageKey scope
  · obtain ⟨u, mem, place⟩ := written
    obtain ⟨i, l, replaces⟩ := commit_replaces seals tracks phase made wrote mem
    have same : ((call.op.group C).scope u.peerDeviceId).localDeviceId = scope.localDeviceId :=
      (group_device call.op).trans device.symm
    have next := replaces.next
    rw [Stores.session_congr place same, stored] at next
    cases next
    exact .inr ⟨u, mem, i, l, replaces, place, own⟩
  · have other : ∀ u ∈ commit.updates, (call.op.group C).key u ≠ ratchetStorageKey scope :=
      fun u mem place => written ⟨u, mem, place⟩
    rw [wrote.elsewhere other] at stored
    exact .inl ⟨.of_session device stored own, other⟩

/-- Two sessions that a commit writes do not share a key. -/
theorem held_once (keys : s.KeysApart C L) {v : RatchetUpdate} {j : Nat} {m : Loaded}
    (first : Replaces C L s.db db call loaded u i l) (second : Replaces C L s.db db call loaded v j m)
    (heldU : (∃ n, HasKey C L s.db ((call.op.group C).key u) k n) ∨ s.Holds C L (.draft id i) k)
    (heldV : (∃ n, HasKey C L s.db ((call.op.group C).key v) k n) ∨ s.Holds C L (.draft id j) k) :
    u.peerDeviceId = v.peerDeviceId := by
  have places : Holder.session ((call.op.group C).key u) = .session ((call.op.group C).key v) →
      u.peerDeviceId = v.peerDeviceId := fun same => ratchetStorageKey_peer (Holder.session.inj same)
  obtain hasU | draftU := heldU
  · obtain hasV | draftV := heldV
    · exact places (keys.apart (.session _) (.session _) k hasU hasV)
    · cases keys.apart (.session _) (.draft id j) k hasU draftV
  · obtain hasV | draftV := heldV
    · cases keys.apart (.draft id i) (.session _) k draftU hasV
    · cases keys.apart (.draft id i) (.draft id j) k draftU draftV
      exact Option.some.inj (first.peer.symm.trans second.peer)

/-- An envelope of a commit, with its session. -/
structure SealedBy (C : Client) (L : RatchetProtection) (s : SessionWorld) (id : Nat) (db : Stores) (call : SessionCall)
    (loaded : List Loaded) (e : WireEnvelopeDto) (u : RatchetUpdate) (i : Nat) (l : Loaded) (k : Bytes) : Prop where
  replaces : Replaces C L s.db db call loaded u i l
  recipient : e.recipientDeviceId = u.peerDeviceId
  key : e.dhPublicB64 = bytesToB64 k
  held : HasKey C L s.db ((call.op.group C).key u) k e.messageNumber ∨ s.Holds C L (.draft id i) k
  left : ∀ own, u.next.ownKey = some own → own = (k, e.messageNumber + 1)

theorem commit_sealed (seals : RatchetSeals L) (tracks : call.Tracks C L s.db) (at_ : s.calls id = some call)
    (phase : call.phase = .committing loaded) (made : call.op.prepare C loaded = .commits commit)
    (wrote : commit.Commits L (call.op.group C) mode iv s.db db) (mem : e ∈ commit.staged.flatMap (·.envelopes)) :
    ∃ u ∈ commit.updates, ∃ i l k, SealedBy C L s id db call loaded e u i l k := by
  cases op : call.op with
  | encryptForDevices input =>
    rw [op] at made
    obtain ⟨parts, now, outbound, _, rfl⟩ := prepare_outbound made
    simp only [RatchetCommit.staged, flatMap_cons, flatMap_nil, append_nil, EncryptInput.pendingSend] at mem
    obtain ⟨m, among, rfl⟩ := mem_map.1 mem
    have memU : m.1 ∈ parts.map Prod.fst := mem_map_of_mem among
    obtain ⟨i, ⟨device, l⟩, there, item⟩ := forall₂_mem_right outbound m among
    obtain ⟨atDevice, atLoaded⟩ := getElem?_zip_eq_some.1 there
    obtain ⟨peer, version, recipient⟩ := encryptForDevice_update item
    have among' : (call.op.peers C)[i]? = some m.1.peerDeviceId := by simp [op, SessionOp.peers, atDevice, peer]
    have replaces := wrote.replaces seals tracks phase memU atLoaded among' version (.encrypted input device m.1 m.2 item)
    obtain ⟨k, key, held, left⟩ := encryptForDevice_key item
    refine ⟨m.1, memU, i, l, k, replaces, recipient.trans peer.symm, key, ?_, left⟩
    obtain own | fresh := held
    · obtain ⟨snapshot, existing, own⟩ := Option.bind_eq_some_iff.1 own
      have stored := replaces.before
      rw [existing] at stored
      exact .inl (.of_session (group_device call.op) stored own)
    · refine .inr ⟨call, l.draw, at_, ?_, fresh⟩
      simp [phase, SessionPhase.draws, atLoaded]
  | decryptMessageWithStatus input =>
    rw [op] at made
    obtain ⟨_, _, _, _, _, rfl⟩ := prepare_inbound made
    simp [RatchetCommit.staged] at mem
  | acknowledgeRatchetHandshake conversationId peer epoch =>
    rw [op] at made
    obtain ⟨_, _, _, _, rfl⟩ := prepare_handshake made
    simp [RatchetCommit.staged] at mem

theorem commit_recipients (made : call.op.prepare C loaded = .commits commit)
    (wrote : commit.Commits L (call.op.group C) mode iv s.db db) :
    ((commit.staged.flatMap (·.envelopes)).map (·.recipientDeviceId)).Nodup := by
  have distinct := wrote.distinct
  cases op : call.op with
  | encryptForDevices input =>
    rw [op] at made
    obtain ⟨parts, now, outbound, _, rfl⟩ := prepare_outbound made
    have same : (parts.map Prod.snd).map (·.recipientDeviceId) = (parts.map Prod.fst).map (·.peerDeviceId) := by
      rw [map_map, map_map]
      refine map_congr_left fun m among => ?_
      obtain ⟨i, l, _, item⟩ := forall₂_mem_right outbound m among
      obtain ⟨peer, _, recipient⟩ := encryptForDevice_update item
      exact recipient.trans peer.symm
    simp only [RatchetCommit.staged, flatMap_cons, flatMap_nil, append_nil, EncryptInput.pendingSend]
    rw [same]
    exact distinct
  | decryptMessageWithStatus input =>
    rw [op] at made
    obtain ⟨_, _, _, _, _, rfl⟩ := prepare_inbound made
    exact nodup_nil
  | acknowledgeRatchetHandshake conversationId peer epoch =>
    rw [op] at made
    obtain ⟨_, _, _, _, rfl⟩ := prepare_handshake made
    exact nodup_nil

theorem SealedBy.held_any (sealed : SealedBy C L s id db call loaded e u i l k) :
    (∃ n, HasKey C L s.db ((call.op.group C).key u) k n) ∨ s.Holds C L (.draft id i) k :=
  sealed.held.imp_left fun has => ⟨_, has⟩

/-- The state after a commit. -/
structure Committed (C : Client) (L : RatchetProtection) (s s' : SessionWorld) (id : Nat) (call : SessionCall)
    (loaded : List Loaded) (commit : RatchetCommit) (mode : Mode) (iv : String → Nat) : Prop where
  tracks : call.Tracks C L s.db
  at_ : s.calls id = some call
  phase : call.phase = .committing loaded
  made : call.op.prepare C loaded = .commits commit
  wrote : commit.Commits L (call.op.group C) mode iv s.db s'.db
  generated : s'.generated = s.generated
  staged : s'.staged = s.staged ++ commit.staged
  drafts : ∀ id' i k, s'.Holds C L (.draft id' i) k → s.Holds C L (.draft id' i) k ∧ id' ≠ id

namespace Committed

variable {h h' : Holder} {k : Bytes}

section
variable (seals : RatchetSeals L)
include seals

/-- Who has held a key before: the same session, or the attempt that has committed it. -/
theorem source (did : Committed C L s s' id call loaded commit mode iv)
    (holds : s'.Holds C L h k) :
    (s.Holds C L h k ∧ (∀ u ∈ commit.updates, h ≠ .session ((call.op.group C).key u)) ∧ ∀ i, h ≠ .draft id i) ∨
      ∃ u ∈ commit.updates, ∃ i l, Replaces C L s.db s'.db call loaded u i l ∧ h = .session ((call.op.group C).key u) ∧
        ((∃ n, HasKey C L s.db ((call.op.group C).key u) k n) ∨ s.Holds C L (.draft id i) k) := by
  cases h with
  | session place =>
    obtain ⟨n, has⟩ := holds
    obtain ⟨before, other⟩ | ⟨u, mem, i, l, replaces, rfl, own⟩ := hasKey_after seals did.tracks did.phase did.made did.wrote has
    · refine .inl ⟨⟨n, before⟩, fun u mem same => other u mem (Holder.session.inj same).symm, fun i same => by cases same⟩
    · refine .inr ⟨u, mem, i, l, replaces, rfl, ?_⟩
      exact (replaces_held did.at_ did.phase replaces own).imp_left fun ⟨m, has, _⟩ => ⟨m, has⟩
  | draft id' i' =>
    obtain ⟨before, other⟩ := did.drafts id' i' k holds
    refine .inl ⟨before, fun u mem same => ?_, fun i same => ?_⟩
    · cases same
    · cases same
      exact other rfl

theorem apart (keys : s.KeysApart C L) (did : Committed C L s s' id call loaded commit mode iv)
    (holds : s'.Holds C L h k) (holds' : s'.Holds C L h' k) : h = h' := by
  -- what stays cannot hold the key of a session that was committed
  have clash : ∀ {h u i}, s.Holds C L h k → h ≠ .session ((call.op.group C).key u) → h ≠ .draft id i →
      (∃ n, HasKey C L s.db ((call.op.group C).key u) k n) ∨ s.Holds C L (.draft id i) k → False := by
    rintro h u i held session draft (has | drawn)
    · exact session (keys.apart h (.session _) k held has)
    · exact draft (keys.apart h (.draft id i) k held drawn)
  obtain ⟨old, session, draft⟩ | ⟨u, memU, i, l, replacesU, rfl, heldU⟩ := did.source seals holds
  · obtain ⟨old', _, _⟩ | ⟨v, memV, j, m, _, rfl, heldV⟩ := did.source seals holds'
    · exact keys.apart h h' k old old'
    · exact (clash old (session v memV) (draft j) heldV).elim
  · obtain ⟨old', session', draft'⟩ | ⟨v, memV, j, m, replacesV, rfl, heldV⟩ := did.source seals holds'
    · exact (clash old' (session' u memU) (draft' i) heldU).elim
    · have peer := held_once keys replacesU replacesV heldU heldV
      simp [SessionGroup.key, peer]

variable {e : WireEnvelopeDto}

theorem spent_old (did : Committed C L s s' id call loaded commit mode iv) (spent : s.Spent C L e k) :
    s'.Spent C L e k := by
  refine ⟨spent.key, did.generated ▸ spent.generated, fun id' i holds => spent.undrawn id' i (did.drafts id' i k holds).1,
    fun place n has => ?_⟩
  obtain ⟨before, _⟩ | ⟨u, mem, i, l, replaces, rfl, own⟩ := hasKey_after seals did.tracks did.phase did.made did.wrote has
  · exact spent.passed place n before
  · obtain ⟨m, before, le⟩ | drawn := replaces_held did.at_ did.phase replaces own
    · exact (spent.passed _ m before).trans_le le
    · exact (spent.undrawn id i drawn).elim

section
variable (keys : s.KeysApart C L) (did : Committed C L s s' id call loaded commit mode iv)
include keys did

theorem spent_new (mem : u ∈ commit.updates)
    (sealed : SealedBy C L s id s'.db call loaded e u i l k) : s'.Spent C L e k := by
  refine ⟨sealed.key, ?_, fun id' j holds => ?_, fun place n has => ?_⟩
  · rw [did.generated]
    obtain has | drawn := sealed.held
    · exact keys.generated (.session _) k ⟨_, has⟩
    · exact keys.generated (.draft id i) k drawn
  · obtain ⟨before, other⟩ := did.drafts id' j k holds
    obtain has | drawn := sealed.held
    · cases keys.apart (.draft id' j) (.session _) k before ⟨_, has⟩
    · cases keys.apart (.draft id' j) (.draft id i) k before drawn
      exact other rfl
  · obtain ⟨before, other⟩ | ⟨v, _, j, m, replaces, rfl, own⟩ :=
      hasKey_after seals did.tracks did.phase did.made did.wrote has
    · obtain has' | drawn := sealed.held
      · have same := keys.apart (.session place) (.session _) k ⟨n, before⟩ ⟨_, has'⟩
        exact (other u mem (Holder.session.inj same).symm).elim
      · cases keys.apart (.session place) (.draft id i) k ⟨n, before⟩ drawn
    · have heldV := (replaces_held did.at_ did.phase replaces own).imp_left fun ⟨m, has, _⟩ =>
        (⟨m, has⟩ : ∃ m, HasKey C L s.db ((call.op.group C).key v) k m)
      have peer := held_once keys sealed.replaces replaces sealed.held_any heldV
      have next := sealed.replaces.next
      rw [peer, replaces.next] at next
      have own' := own
      rw [Option.some.inj (Option.some.inj next)] at own'
      have left := sealed.left _ own'
      have count : n = e.messageNumber + 1 := congrArg Prod.snd left
      omega

theorem distinct :
    (s'.envelopes.map slot).Nodup := by
  have sealed := fun e => commit_sealed (e := e) seals did.tracks did.at_ did.phase did.made did.wrote
  have recipients := commit_recipients did.made did.wrote
  have together : s'.envelopes = s.envelopes ++ commit.staged.flatMap (·.envelopes) := by
    simp [SessionWorld.envelopes, did.staged, flatMap_append]
  rw [together, map_append]
  refine Nodup.append keys.distinct ?_ ?_
  · -- envelopes of one commit are for different sessions
    refine Nodup.map_on (fun e mem f mem' same => ?_) recipients.of_map
    obtain ⟨u, _, i, l, k, sealedE⟩ := sealed e mem
    obtain ⟨v, _, j, m, k', sealedF⟩ := sealed f mem'
    obtain ⟨pub, _⟩ := Prod.mk.inj same
    obtain rfl : k = k' := by
      apply E2ee.bytesToB64_injective
      rw [← sealedE.key, ← sealedF.key, pub]
    have peer := held_once keys sealedE.replaces sealedF.replaces sealedE.held_any sealedF.held_any
    refine inj_on_of_nodup_map recipients mem mem' ?_
    rw [sealedE.recipient, sealedF.recipient, peer]
  · rintro pair old new
    obtain ⟨e, mem, rfl⟩ := mem_map.1 old
    obtain ⟨f, mem', same⟩ := mem_map.1 new
    obtain ⟨k', spent⟩ := keys.spent e mem
    obtain ⟨u, _, i, l, k, sealedF⟩ := sealed f mem'
    obtain ⟨pub, number⟩ := Prod.mk.inj same
    obtain rfl : k = k' := by
      apply E2ee.bytesToB64_injective
      rw [← sealedF.key, ← spent.key, pub]
    obtain has | drawn := sealedF.held
    · have := spent.passed _ _ has
      omega
    · exact spent.undrawn id i drawn

theorem keysApart : s'.KeysApart C L := by
  refine ⟨fun h k holds => ?_, fun h h' k holds holds' => did.apart seals keys holds holds', fun e mem => ?_,
    did.distinct seals keys⟩
  · rw [did.generated]
    obtain ⟨old, _⟩ | ⟨u, _, i, l, _, _, has | drawn⟩ := did.source seals holds
    · exact keys.generated h k old
    · exact keys.generated (.session _) k has
    · exact keys.generated (.draft id i) k drawn
  · simp only [SessionWorld.envelopes, did.staged, flatMap_append] at mem
    obtain old | new := mem_append.1 mem
    · obtain ⟨k, spent⟩ := keys.spent e old
      exact ⟨k, did.spent_old seals spent⟩
    · obtain ⟨u, memU, i, l, k, sealed⟩ := commit_sealed seals did.tracks did.at_ did.phase did.made did.wrote new
      exact ⟨k, did.spent_new seals keys memU sealed⟩

end

end

end Committed

end Commit

section Steps
variable {e : SessionEvent}

/-- What is drawn in a step is new. -/
def Fresh (C : Client) (s : SessionWorld) (e : SessionEvent) : Prop :=
  ∀ drawn ∈ e.draw, C.primitives.publicKey drawn.ratchet ∉ s.generated

variable {t : SessionWorld}

/-- A call that goes on with what it has drawn, and perhaps one more key. -/
theorem KeysApart.goesOn (keys : s.KeysApart C L) {next : SessionCall} (at_ : s.calls id = some call)
    (sessions : ∀ scope : RatchetScope, scope.localDeviceId = C.material.deviceId →
      t.db.session L scope = s.db.session L scope) (calls : t.calls = s.calls)
    (generated : s.generated ⊆ t.generated) (staged : t.staged = s.staged) (i : Nat)
    (drafts : ∀ i' d, next.phase.draws[i']? = some d → call.phase.draws[i']? = some d ∨
      (i' = i ∧ C.primitives.publicKey d.ratchet ∉ s.generated ∧ C.primitives.publicKey d.ratchet ∈ t.generated)) :
    (t.setCall id next).KeysApart C L := by
  refine keys.draws ?_ generated staged id i ?_
  · rintro place k n ⟨scope, snapshot, device, rfl, stored, own⟩
    exact .of_session device ((sessions scope device).symm.trans stored) own
  · rintro id' i' k ⟨other, d, there, drawn, rfl⟩
    by_cases here : id' = id
    · subst here
      simp only [setCall, update_self, Option.some.injEq] at there
      subst there
      obtain same | ⟨rfl, new, now⟩ := drafts i' d drawn
      · exact .inl ⟨call, d, at_, same, rfl⟩
      · exact .inr ⟨new, now, rfl, rfl⟩
    · simp only [setCall, update_of_ne here, calls] at there
      exact .inl ⟨other, d, there, drawn, rfl⟩

theorem Prepared.draws (loaded : List Loaded) (p : Prepared) :
    (p.phase loaded).draws = [] ∨ (p.phase loaded).draws = loaded.map (·.draw) := by
  cases p with
  | threw | returned => exact .inl rfl
  | more | commits => exact .inr rfl

theorem Entered.draws {plaintexts : String → Option StoredPlaintext} {phase : SessionPhase}
    (into : Entered call plaintexts phase) : phase.draws = [] := by
  cases into with
  | checking | loading | undecrypted => rfl
  | settled phase settled => cases phase <;> first | rfl | cases settled

/-- One more key is drawn. -/
theorem KeysApart.drawn (keys : s.KeysApart C L) {loaded : List Loaded} (at_ : s.calls id = some call)
    (phase : call.phase.draws = loaded.map (·.draw)) (fresh : C.primitives.publicKey l.draw.ratchet ∉ s.generated)
    (sessions : ∀ scope : RatchetScope, scope.localDeviceId = C.material.deviceId →
      t.db.session L scope = s.db.session L scope) (calls : t.calls = s.calls)
    (generated : t.generated = s.generated) (staged : t.staged = s.staged) :
    ((t.generate C l.draw).proceed C id call (loaded ++ [l])).KeysApart C L := by
  refine keys.goesOn (t := t.generate C l.draw) at_ sessions calls ?_ staged loaded.length fun i d there => ?_
  · intro k mem
    rw [← generated] at mem
    exact mem_cons_of_mem _ mem
  · obtain none | all := Prepared.draws (loaded ++ [l]) (call.op.prepare C (loaded ++ [l]))
    · have there' := there
      rw [none] at there'
      simp at there'
    · dsimp only at there
      rw [all, map_append] at there
      rw [phase]
      obtain within | beyond := Nat.lt_or_ge i (loaded.map (·.draw)).length
      · rw [getElem?_append_left within] at there
        exact .inl there
      · rw [getElem?_append_right beyond, map_singleton, getElem?_singleton] at there
        split at there
        · rename_i last
          cases there
          rw [length_map] at last beyond
          exact .inr ⟨by omega, fresh, mem_cons_self⟩
        · cases there

theorem turn_keysApart (seals : RatchetSeals L) (keys : s.KeysApart C L) (tracks : call.Tracks C L s.db)
    (at_ : s.calls id = some call) (fresh : Fresh C s e) (turn : Turn C P L s id call e s') : s'.KeysApart C L := by
  have same : ∀ scope : RatchetScope, scope.localDeviceId = C.material.deviceId →
      s.db.session L scope = s.db.session L scope := fun _ _ => rfl
  cases turn with
  | idle => exact keys
  | entered phase into =>
    refine keys.goesOn at_ same rfl (Subset.refl _) rfl 0 fun i d there => ?_
    simp [Entered.draws into] at there
  | repeated =>
    refine keys.goesOn at_ same rfl (Subset.refl _) rfl 0 fun i d there => ?_
    simp [SessionPhase.draws] at there
  | read loaded scope existing drawn draws phase next found =>
    refine keys.drawn (l := ⟨existing, drawn⟩) at_ ?_ (fresh drawn draws) same rfl rfl rfl
    simp [phase, SessionPhase.draws]
  | raw loaded scope snapshot phase next found =>
    refine keys.goesOn at_ same rfl (Subset.refl _) rfl 0 fun i d there => .inl ?_
    simpa [phase, SessionPhase.draws] using there
  | migrated loaded scope snapshot drawn iv ratchets draws phase next wrote =>
    refine keys.drawn (l := ⟨some snapshot, drawn⟩) (t := s.setRatchets ratchets) at_ ?_ (fresh drawn draws) ?_ rfl rfl rfl
    · simp [phase, SessionPhase.draws]
    · exact fun other device => migrated_session seals tracks phase next wrote device
  | committed loaded commit iv db event phase made wrote =>
    refine (?_ : Committed C L s _ id call loaded commit (P.mode iv) iv).keysApart seals keys
    refine ⟨tracks, at_, phase, made, wrote, rfl, rfl, ?_⟩
    rintro id' i k ⟨other, d, there, drawn, rfl⟩
    by_cases here : id' = id
    · subst here
      simp only [setCall, update_self, Option.some.injEq] at there
      subst there
      simp [SessionPhase.draws] at drawn
    · simp only [setCall, update_of_ne here] at there
      exact ⟨⟨other, d, there, drawn, rfl⟩, here⟩

theorem change_keysApart (seals : RatchetSeals L) (keys : s.KeysApart C L) (tracked : s.Tracked C L)
    (fresh : Fresh C s e) (change : Change C P L s e s') : s'.KeysApart C L := by
  cases change with
  | idle => exact keys
  | turn id call s' at_ turn => exact turn_keysApart seals keys (tracked id call at_) at_ fresh turn
  | begun id op phase free new =>
    refine keys.draws (fun _ _ _ has => has) (Subset.refl _) rfl 0 0 ?_
    rintro id' i k ⟨other, d, there, drawn, rfl⟩
    by_cases here : id' = id
    · subst here
      simp only [setCall, update_self, Option.some.injEq] at there
      subst there
      obtain rfl | rfl := new <;> simp [SessionPhase.draws] at drawn
    · simp only [setCall, update_of_ne here] at there
      exact .inl ⟨other, d, there, drawn, rfl⟩
  | outside pendingSends plaintexts kept =>
    exact keys.draws (fun _ _ _ has => has) (Subset.refl _) rfl 0 0 fun _ _ _ holds => .inl holds

end Steps

end

end SessionWorld

end Vimla.DirectChats
