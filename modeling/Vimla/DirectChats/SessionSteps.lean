import Vimla.DirectChats.SessionRecords

/-!
# What a step does to the sessions

A session changes only where a call commits it, and the call has then loaded
exactly the session that it replaces: what a call has loaded is the stored session,
or one of an older version.
-/

namespace Vimla.DirectChats

open Function List Option

section
variable {C : Client} {op : SessionOp} {loaded : List Loaded} {commit : RatchetCommit}

theorem forall₂_mem_right {α β : Type} {R : α → β → Prop} {l : List α} {r : List β} (related : List.Forall₂ R l r) :
    ∀ b ∈ r, ∃ (i : Nat) (a : α), l[i]? = some a ∧ R a b := by
  induction related with
  | nil => simp
  | @cons a b l r head _ ih =>
    intro c mem
    obtain rfl | mem := mem_cons.1 mem
    · exact ⟨0, a, rfl, head⟩
    · obtain ⟨i, a', at_, rel⟩ := ih c mem
      exact ⟨i + 1, a', by simpa using at_, rel⟩

/-- The devices of an outbound commit, with what was loaded for them. -/
def Outbound (C : Client) (input : EncryptInput) (loaded : List Loaded) (made : List (RatchetUpdate × WireEnvelopeDto)) :
    Prop :=
  List.Forall₂ (fun l m => input.encryptForDevice C l.1 l.2.existing l.2.draw = some m) ((input.activeDevices C).zip loaded)
    made

variable {input : EncryptInput} {draw : Draw}

theorem prepare_outbound (prepared : (SessionOp.encryptForDevices input).prepare C loaded = .commits commit) :
    ∃ made now, Outbound C input loaded made ∧ (input.activeDevices C).length ≤ loaded.length ∧
      commit = .outbound (made.map Prod.fst) (input.pendingSend C (made.map Prod.snd) now) input.expectedPendingRevision := by
  simp only [SessionOp.prepare] at prepared
  split at prepared
  · cases prepared
  · rename_i made some
    split at prepared
    · cases prepared
    · rename_i enough
      cases prepared
      exact ⟨made, _, Checks.mapM_eq_some.1 some, by omega, rfl⟩

theorem prepare_inbound {input : DecryptInput}
    (prepared : (SessionOp.decryptMessageWithStatus input).prepare C loaded = .commits commit) :
    ∃ l state text, loaded = [l] ∧ input.openMessage C l.existing l.draw = .opened state text ∧
      commit = .inbound (input.update l.existing state) (input.plaintext text) := by
  obtain _ | ⟨l, _ | ⟨more, rest⟩⟩ := loaded
  · simp [SessionOp.prepare] at prepared
  · simp only [SessionOp.prepare] at prepared
    split at prepared <;> cases prepared
    exact ⟨l, _, _, rfl, by assumption, rfl⟩
  · simp [SessionOp.prepare] at prepared

theorem prepare_handshake {conversationId peerDeviceId : String} {epoch : Int}
    (prepared : (SessionOp.acknowledgeRatchetHandshake conversationId peerDeviceId epoch).prepare C loaded = .commits commit) :
    ∃ l snapshot, loaded = [l] ∧ l.existing = some snapshot ∧ commit = .handshake (acknowledgeUpdate peerDeviceId snapshot) := by
  obtain _ | ⟨l, _ | ⟨more, rest⟩⟩ := loaded
  · simp [SessionOp.prepare] at prepared
  · simp only [SessionOp.prepare] at prepared
    split at prepared
    · cases prepared
    · rename_i snapshot found
      split at prepared <;> cases prepared
      exact ⟨l, snapshot, rfl, found, rfl⟩
  · simp [SessionOp.prepare] at prepared

theorem encryptForDevice_update {device : CryptoDeviceView} {existing : Option RatchetSnapshot}
    {m : RatchetUpdate × WireEnvelopeDto} (made : input.encryptForDevice C device existing draw = some m) :
    m.1.peerDeviceId = device.id ∧ m.1.expectedVersion = snapshotVersion existing ∧ m.2.recipientDeviceId = device.id := by
  obtain ⟨⟨state, init⟩, _, made⟩ := bind_eq_some_iff.1 made
  dsimp only at made
  split at made
  · cases made
  · cases made
    exact ⟨rfl, rfl, rfl⟩

/-- Each update is computed from the session that was loaded for its device. -/
theorem prepare_computed (prepared : op.prepare C loaded = .commits commit) :
    ∀ u ∈ commit.updates, ∃ (i : Nat) (l : Loaded), loaded[i]? = some l ∧ (op.peers C)[i]? = some u.peerDeviceId ∧
      u.expectedVersion = snapshotVersion l.existing ∧ Computed C l.existing l.draw u.next := by
  intro u mem
  cases op with
  | encryptForDevices input =>
    obtain ⟨made, now, outbound, _, rfl⟩ := prepare_outbound prepared
    obtain ⟨m, among, rfl⟩ := mem_map.1 mem
    obtain ⟨i, ⟨device, l⟩, at_, item⟩ := forall₂_mem_right outbound m among
    obtain ⟨atDevice, atLoaded⟩ := getElem?_zip_eq_some.1 at_
    obtain ⟨peer, version, _⟩ := encryptForDevice_update item
    refine ⟨i, l, atLoaded, ?_, version, .encrypted input device m.1 m.2 item⟩
    simp [SessionOp.peers, atDevice, peer]
  | decryptMessageWithStatus input =>
    obtain ⟨l, state, text, rfl, opened, rfl⟩ := prepare_inbound prepared
    obtain rfl := mem_singleton.1 mem
    exact ⟨0, l, rfl, rfl, rfl, .decrypted input state text opened⟩
  | acknowledgeRatchetHandshake conversationId peerDeviceId epoch =>
    obtain ⟨l, snapshot, rfl, found, rfl⟩ := prepare_handshake prepared
    obtain rfl := mem_singleton.1 mem
    exact ⟨0, l, rfl, rfl, by rw [found]; rfl, .acknowledged peerDeviceId snapshot found⟩

theorem group_device (op : SessionOp) : (op.group C).localDeviceId = C.material.deviceId := by
  cases op <;> rfl

theorem isX3dhInitHeader_initiated {identity : E2ee.IdentityKeyPair} {bundle : E2ee.PublicPreKeyBundle} {fresh : Base64.Bytes}
    {initiated : E2ee.X3dhInitiation}
    (begun : E2ee.x3dhInitiate C.primitives C.signatures C.hkdfSha256 identity bundle fresh = some initiated) :
    isX3dhInitHeader initiated.initHeader = true := by
  iterate 6 obtain ⟨_, _, begun⟩ := bind_eq_some_iff.1 begun
  cases begun
  cases bundle.oneTimePrekeyId <;> simp [isX3dhInitHeader]

theorem Computed.valid {previous : Option RatchetSnapshot} {next : RatchetSnapshot}
    (computed : Computed C previous draw next) (before : ∀ snapshot, previous = some snapshot → snapshot.Valid) :
    next.Valid := by
  refine ⟨?_, fun zero => ?_⟩
  · cases computed with
    | encrypted input device update envelope made =>
      obtain ⟨⟨state, init⟩, session, made⟩ := bind_eq_some_iff.1 made
      dsimp only at made
      split at made
      · cases made
      · cases made
        cases previous with
        | none =>
          obtain ⟨⟨_, header⟩, begun, same⟩ := map_eq_some_iff.1 session
          cases same
          iterate 2 obtain ⟨_, _, begun⟩ := bind_eq_some_iff.1 begun
          obtain ⟨initiated, agreed, same⟩ := bind_eq_some_iff.1 begun
          cases same
          simpa [RatchetUpdate.next] using isX3dhInitHeader_initiated agreed
        | some snapshot =>
          obtain ⟨_, _, same⟩ := map_eq_some_iff.1 session
          cases same
          exact (before snapshot rfl).1
    | decrypted input state text =>
      cases previous with
      | none => rfl
      | some snapshot => exact (before snapshot rfl).1
    | acknowledged => rfl
  · cases computed <;> simp [RatchetUpdate.next] at zero

end

/-- The sessions that an attempt has loaded, in turn. -/
def SessionPhase.existings : SessionPhase → List (Option RatchetSnapshot)
  | .loading loaded => loaded.map (·.existing)
  | .committing loaded => loaded.map (·.existing)
  | .migrating loaded snapshot => loaded.map (·.existing) ++ [some snapshot]
  | _ => []

/-- Nothing is computed or committed any more. -/
def SessionPhase.Settled : SessionPhase → Prop
  | .finishing _ => True
  | .ended _ => True
  | .reloading => True
  | _ => False

/-- What has been loaded when a call goes on to this phase. -/
inductive Entered (call : SessionCall) (plaintexts : String → Option StoredPlaintext) : SessionPhase → Prop
  | checking (input : DecryptInput) (op : call.op = .decryptMessageWithStatus input) (at_ : call.phase = .begun) :
      Entered call plaintexts .checking
  | loading (op : ∀ input, call.op ≠ .decryptMessageWithStatus input) (at_ : call.phase = .begun) :
      Entered call plaintexts (.loading [])
  | undecrypted (input : DecryptInput) (op : call.op = .decryptMessageWithStatus input) (at_ : call.phase = .checking)
      (absent : plaintexts input.message.id = none) : Entered call plaintexts (.loading [])
  | settled (phase : SessionPhase) (settled : phase.Settled) : Entered call plaintexts phase

variable {plaintexts : String → Option StoredPlaintext} {phase : SessionPhase}

namespace SessionWorld

section
variable (C : Client) (P : LocalProtection) (L : RatchetProtection)

/-- What a call with the id can do in a step. -/
inductive Turn (s : SessionWorld) (id : Nat) (call : SessionCall) (e : SessionEvent) : SessionWorld → Prop
  | idle : Turn s id call e s
  | entered (phase : SessionPhase) (into : Entered call s.db.plaintexts phase) :
      Turn s id call e (s.setCall id { call with phase })
  | repeated (op : ∀ conversationId peer epoch, call.op ≠ .acknowledgeRatchetHandshake conversationId peer epoch) :
      Turn s id call e (s.setCall id { call with attempt := call.attempt + 1, phase := .begun })
  | read (loaded : List Loaded) (scope : RatchetScope) (existing : Option RatchetSnapshot) (drawn : Draw)
      (draws : e.draw = some drawn) (at_ : call.phase = .loading loaded) (next : nextScope C call loaded = some scope)
      (found : s.db.session L scope = some existing) :
      Turn s id call e ((s.generate C drawn).proceed C id call (loaded ++ [⟨existing, drawn⟩]))
  | raw (loaded : List Loaded) (scope : RatchetScope) (snapshot : RatchetSnapshot) (at_ : call.phase = .loading loaded)
      (next : nextScope C call loaded = some scope) (found : s.db.session L scope = some (some snapshot)) :
      Turn s id call e (s.setCall id { call with phase := .migrating loaded snapshot })
  | migrated (loaded : List Loaded) (scope : RatchetScope) (snapshot : RatchetSnapshot) (drawn : Draw) (iv : Nat)
      (ratchets : Ratchets) (draws : e.draw = some drawn) (at_ : call.phase = .migrating loaded snapshot)
      (next : nextScope C call loaded = some scope)
      (wrote : migrateLegacyRatchet L iv scope snapshot s.db.ratchets = some ratchets) :
      Turn s id call e
        (((s.setRatchets ratchets).generate C drawn).proceed C id call (loaded ++ [⟨some snapshot, drawn⟩]))
  | committed (loaded : List Loaded) (commit : RatchetCommit) (iv : String → Nat) (db : Stores)
      (event : e = .commit id iv) (at_ : call.phase = .committing loaded) (made : call.op.prepare C loaded = .commits commit)
      (wrote : commit.Commits L (call.op.group C) (P.mode iv) iv s.db db) :
      Turn s id call e ({ s with db, staged := s.staged ++ commit.staged }.setCall id
        { call with phase := .finishing commit.result, commits := call.commits + 1 })

inductive Change (s : SessionWorld) (e : SessionEvent) : SessionWorld → Prop
  | idle : Change s e s
  | turn (id : Nat) (call : SessionCall) (s' : SessionWorld) (at_ : s.calls id = some call)
      (turn : Turn C P L s id call e s') : Change s e s'
  | begun (id : Nat) (op : SessionOp) (phase : SessionPhase) (free : s.calls id = none)
      (fresh : phase = .begun ∨ phase = .ended none) : Change s e (s.setCall id { op, phase })
  | outside (pendingSends : PendingSends) (plaintexts : String → Option StoredPlaintext)
      (kept : ∀ m, s.db.plaintexts m ≠ none → plaintexts m ≠ none) :
      Change s e { s with db := { s.db with pendingSends, plaintexts } }

end

section
variable {C : Client} {P : LocalProtection} {L : RatchetProtection} {dateParse : String → Option Int}
  {s : SessionWorld} {id : Nat} {call : SessionCall} {e : SessionEvent}

theorem Turn.settles (settled : phase.Settled) :
    Turn C P L s id call e (s.setCall id { call with phase }) :=
  .entered phase (.settled phase settled)

theorem turn_retry : Turn C P L s id call e (s.retry id call) := by
  unfold retry
  split
  · exact .settles trivial
  · rename_i other
    split
    · exact .repeated other
    · exact .settles trivial

theorem turn_lock : Turn C P L s id call e (s.lock id call) := by
  unfold lock
  split
  · rename_i input at_ op
    exact .entered _ (.checking input op at_)
  · rename_i at_ other
    exact .entered _ (.loading other at_)
  · exact .idle

theorem turn_lose : Turn C P L s id call e (s.lose id call) := by
  unfold lose
  split
  · exact turn_retry
  · exact turn_retry
  · exact .idle

theorem turn_finish : Turn C P L s id call e (s.finish id call) := by
  unfold finish
  split
  · exact .settles trivial
  · exact .idle

theorem turn_check : Turn C P L s id call e (s.check P id call) := by
  unfold check
  split
  · rename_i input at_ op
    split
    · rename_i absent
      exact .entered _ (.undecrypted input op at_ absent)
    · split
      · exact .settles trivial
      · exact .settles trivial
  · exact .idle

theorem turn_reload : Turn C P L s id call e (s.reload C P id call) := by
  unfold reload
  split
  · split
    · exact .settles trivial
    · split
      · exact .settles trivial
      · exact .settles trivial
  · exact .idle

variable {drawn : Draw}

theorem turn_load : Turn C P L s id call (.load id drawn) (s.load C L id call drawn) := by
  unfold load
  split
  · rename_i loaded at_
    split
    · exact .idle
    · rename_i scope next
      dsimp only
      split
      · exact .settles trivial
      · rename_i found
        exact .read loaded scope none drawn rfl at_ next found
      · rename_i snapshot found
        split
        · exact .read loaded scope (some snapshot) drawn rfl at_ next found
        · exact .raw loaded scope snapshot at_ next found
  · exact .idle

theorem turn_migrate {iv : Nat} : Turn C P L s id call (.migrate id drawn iv) (s.migrate C L id call drawn iv) := by
  unfold migrate
  split
  · rename_i loaded snapshot at_
    split
    · exact .idle
    · rename_i scope next
      split
      · exact .settles trivial
      · rename_i ratchets wrote
        exact .migrated loaded scope snapshot drawn iv ratchets rfl at_ next wrote
  · exact .idle

variable {iv : String → Nat}

theorem turn_commit : Turn C P L s id call (.commit id iv) (s.commit C P L id call iv) := by
  unfold commit
  split
  · rename_i loaded at_
    split
    · rename_i commit made
      split
      · rename_i db wrote
        exact .committed loaded commit iv db rfl at_ made (run_ok.1 wrote)
      · exact turn_retry
      · exact .settles trivial
      · exact .settles trivial
    · exact .idle
  · exact .idle

theorem putPlaintext_kept {row : StoredPlaintext} {m : String}
    (stored : plaintexts m ≠ none) : putPlaintext plaintexts row m ≠ none := by
  unfold putPlaintext
  by_cases same : m = row.messageId
  · subst same
    simp
  · rwa [update_of_ne same]

theorem act_change {action : SessionCall → SessionWorld}
    (turns : ∀ call, s.calls id = some call → Turn C P L s id call e (action call)) :
    Change C P L s e (s.act id action) := by
  unfold act
  split
  · exact .idle
  · rename_i call at_
    exact .turn id call _ at_ (turns call at_)

theorem change_begin {op : SessionOp} : Change C P L s e (s.begin C id op) := by
  unfold begin
  split
  · rename_i free
    refine .begun id _ _ free ?_
    split
    · exact .inr rfl
    · exact .inl rfl
  · rename_i free _
    exact .begun id _ .begun free (.inl rfl)
  · exact .idle

theorem change_outbox {op : OutboxOp} : Change C P L s e (s.outbox P dateParse op iv) := by
  unfold outbox
  split
  · exact .idle
  · split
    · exact .idle
    · refine .outside _ _ fun m stored => ?_
      obtain none | row := op.plaintext
      · exact stored
      · exact putPlaintext_kept stored

theorem change_migratePlaintext {legacy : StoredPlaintext} :
    Change C P L s e (s.migratePlaintext P legacy iv) := by
  unfold migratePlaintext
  split
  · exact .idle
  · split
    · exact .outside s.db.pendingSends _ fun m stored => putPlaintext_kept stored
    · exact .idle

theorem step_change (e : SessionEvent) : Change C P L s e (s.step C P L dateParse e) := by
  cases e with
  | call id op => exact change_begin
  | lock id => exact act_change fun call _ => turn_lock
  | lose id => exact act_change fun call _ => turn_lose
  | check id => exact act_change fun call _ => turn_check
  | load id draw => exact act_change fun call _ => turn_load
  | migrate id draw iv => exact act_change fun call _ => turn_migrate
  | commit id iv => exact act_change fun call _ => turn_commit
  | reload id => exact act_change fun call _ => turn_reload
  | finish id => exact act_change fun call _ => turn_finish
  | outbox op iv => exact change_outbox
  | migratePendingSend legacy iv => exact .outside _ s.db.plaintexts fun _ stored => stored
  | migratePlaintext legacy iv => exact change_migratePlaintext

end

end SessionWorld

/-- What has been loaded is stored still, or an older version of it. -/
def Behind (existing now : Option RatchetSnapshot) : Prop :=
  snapshotVersion existing < snapshotVersion now ∨ existing = now

/-- Each session stays as it is, or the next version is computed from it. -/
def Linear (C : Client) (L : RatchetProtection) (db after : Stores) : Prop :=
  ∀ scope : RatchetScope, scope.localDeviceId = C.material.deviceId →
    after.session L scope = db.session L scope ∨
      ∃ before draw next, db.session L scope = some before ∧ after.session L scope = some (some next) ∧
        next.stateVersion = snapshotVersion before + 1 ∧ Computed C before draw next

/-- What the call has loaded, it has loaded from the sessions that are stored. -/
def SessionCall.Tracks (C : Client) (L : RatchetProtection) (db : Stores) (call : SessionCall) : Prop :=
  ∀ (i : Nat) (existing : Option RatchetSnapshot) (peer : String), call.phase.existings[i]? = some existing →
    (call.op.peers C)[i]? = some peer →
      ∃ now, db.session L ((call.op.group C).scope peer) = some now ∧ Behind existing now

variable {snapshot : RatchetSnapshot} {other : RatchetScope} {ratchets : Ratchets}

section
variable {C : Client} {L : RatchetProtection} {db after : Stores} {call : SessionCall} {loaded : List Loaded}
  {scope : RatchetScope}

theorem Linear.of_ratchets (same : after.ratchets = db.ratchets) : Linear C L db after := by
  intro scope _
  left
  simp [Stores.session, same]

theorem Linear.tracks (linear : Linear C L db after) (tracks : call.Tracks C L db) : call.Tracks C L after := by
  intro i existing peer at_ among
  obtain ⟨now, stored, behind⟩ := tracks i existing peer at_ among
  obtain same | ⟨before, draw, next, was, becomes, version, _⟩ :=
    linear ((call.op.group C).scope peer) (group_device call.op)
  · exact ⟨now, by rw [same, stored], behind⟩
  · cases stored.symm.trans was
    refine ⟨some next, becomes, .inl ?_⟩
    have later : snapshotVersion (some next) = snapshotVersion now + 1 := version
    obtain less | rfl := behind
    · omega
    · omega

variable {u : RatchetUpdate} {commit : RatchetCommit} {mode : Mode} {iv : String → Nat}

/-- A commit passes where the loaded session is stored still. -/
theorem SessionCall.Tracks.current (tracks : call.Tracks C L db) (at_ : call.phase = .committing loaded) {i : Nat}
    {l : Loaded} (atLoaded : loaded[i]? = some l) (peer : (call.op.peers C)[i]? = some u.peerDeviceId)
    (version : u.expectedVersion = snapshotVersion l.existing) :
    (call.op.group C).assertVersion L db.ratchets u = .ok () ↔
      db.session L ((call.op.group C).scope u.peerDeviceId) = some l.existing := by
  have existing : call.phase.existings[i]? = some l.existing := by simp [at_, SessionPhase.existings, atLoaded]
  obtain ⟨now, stored, behind⟩ := tracks i l.existing u.peerDeviceId existing peer
  have passes := assertVersion_iff stored u.expectedVersion
  refine passes.trans ?_
  rw [stored, version]
  constructor
  · intro same
    obtain less | rfl := behind
    · omega
    · rfl
  · intro same
    rw [some.inj same]

variable {group : SessionGroup}

theorem RatchetCommit.Commits.written (seals : RatchetSeals L) (named : group.localDeviceId ≠ "")
    (wrote : commit.Commits L group mode iv db after) (mem : u ∈ commit.updates) (valid : u.next.Valid) :
    after.session L (group.scope u.peerDeviceId) = some (some u.next) := by
  have put : commit.updates.foldl (group.putNext L iv) db.ratchets (group.key u) =
      some (protectRatchetRecord L (iv u.peerDeviceId) (group.scope u.peerDeviceId) u.next) :=
    putAll_self wrote.distinct mem
  simp only [Stores.session, wrote.ratchets]
  rw [SessionGroup.key] at put
  rw [put]
  exact decode_protect seals named valid _

theorem RatchetCommit.Commits.elsewhere (wrote : commit.Commits L group mode iv db after)
    (other : ∀ u ∈ commit.updates, group.key u ≠ ratchetStorageKey scope) :
    after.session L scope = db.session L scope := by
  simp [Stores.session, wrote.ratchets, putAll_other other]

/-- What a commit of a call puts in the place of what. -/
structure Replaces (C : Client) (L : RatchetProtection) (db after : Stores) (call : SessionCall) (loaded : List Loaded)
    (u : RatchetUpdate) (i : Nat) (l : Loaded) : Prop where
  at_ : loaded[i]? = some l
  peer : (call.op.peers C)[i]? = some u.peerDeviceId
  before : db.session L ((call.op.group C).scope u.peerDeviceId) = some l.existing
  next : after.session L ((call.op.group C).scope u.peerDeviceId) = some (some u.next)
  version : u.next.stateVersion = snapshotVersion l.existing + 1
  computed : Computed C l.existing l.draw u.next

section
variable (seals : RatchetSeals L) (tracks : call.Tracks C L db) (at_ : call.phase = .committing loaded)
include seals tracks at_

theorem RatchetCommit.Commits.replaces (wrote : commit.Commits L (call.op.group C) mode iv db after)
    (mem : u ∈ commit.updates) {i : Nat} {l : Loaded} (atLoaded : loaded[i]? = some l)
    (peer : (call.op.peers C)[i]? = some u.peerDeviceId) (version : u.expectedVersion = snapshotVersion l.existing)
    (computed : Computed C l.existing l.draw u.next) : Replaces C L db after call loaded u i l := by
  have before := (tracks.current at_ atLoaded peer version).1 (wrote.checked u mem)
  have named : (call.op.group C).localDeviceId ≠ "" := by
    rw [group_device]
    exact C.material.named
  have valid : u.next.Valid := by
    refine computed.valid fun snapshot found => ?_
    rw [found] at before
    exact decode_valid before
  exact ⟨atLoaded, peer, before, wrote.written seals named mem valid, by simp [RatchetUpdate.next, version], computed⟩

section
variable (made : call.op.prepare C loaded = .commits commit)
  (wrote : commit.Commits L (call.op.group C) mode iv db after)
include made wrote

theorem commit_replaces (mem : u ∈ commit.updates) :
    ∃ i l, Replaces C L db after call loaded u i l := by
  obtain ⟨i, l, atLoaded, peer, version, computed⟩ := prepare_computed made u mem
  exact ⟨i, l, wrote.replaces seals tracks at_ mem atLoaded peer version computed⟩

theorem commit_linear : Linear C L db after := by
  intro scope device
  by_cases written : ∃ u ∈ commit.updates, (call.op.group C).key u = ratchetStorageKey scope
  · obtain ⟨u, mem, place⟩ := written
    obtain ⟨i, l, replaces⟩ := commit_replaces seals tracks at_ made wrote mem
    have same : ((call.op.group C).scope u.peerDeviceId).localDeviceId = scope.localDeviceId :=
      (group_device call.op).trans device.symm
    right
    rw [← Stores.session_congr place same, ← Stores.session_congr place same]
    exact ⟨l.existing, l.draw, u.next, replaces.before, replaces.next, replaces.version, replaces.computed⟩
  · left
    refine wrote.elsewhere fun u mem place => written ⟨u, mem, place⟩

end

end

/-- Protecting a record leaves its session as it is. -/
theorem migrate_session (seals : RatchetSeals L) {iv : Nat}
    (named : scope.localDeviceId ≠ "") (wrote : migrateLegacyRatchet L iv scope snapshot db.ratchets = some ratchets)
    {now : Option RatchetSnapshot} (stored : db.session L scope = some now) (behind : Behind (some snapshot) now)
    (device : other.localDeviceId = scope.localDeviceId) :
    ({ db with ratchets } : Stores).session L other = db.session L other := by
  unfold migrateLegacyRatchet at wrote
  split at wrote
  · cases wrote
    rfl
  · rename_i current record
    split at wrote
    · cases wrote
      rfl
    · rename_i raw
      split at wrote
      · cases wrote
      · cases wrote
        rfl
      · rename_i found read
        split at wrote
        · cases wrote
          rfl
        · rename_i version
          cases wrote
          have decoded : now = some found := by
            have := decode_raw (Bool.eq_false_iff.2 raw) scope
            rw [Stores.session, record, this, read] at stored
            exact (some.inj stored).symm
          obtain rfl : snapshot = found := by
            rw [decoded] at behind
            obtain less | same := behind
            · simp only [snapshotVersion, elim_some] at less
              omega
            · exact some.inj same
          by_cases place : ratchetStorageKey other = ratchetStorageKey scope
          · rw [Stores.session_congr place device, Stores.session_congr place device, stored, decoded]
            simp only [Stores.session, Ratchets.put, update_self]
            exact decode_protect seals named (decodeStored_valid read) iv
          · simp [Stores.session, Ratchets.put, update_of_ne place]

end

section
variable {C : Client} {P : LocalProtection} {L : RatchetProtection} {dateParse : String → Option Int} {db : Stores}
  {call next : SessionCall} {loaded : List Loaded}

theorem SessionCall.Tracks.nothing (none : call.phase.existings = []) : call.Tracks C L db := by
  intro i existing peer at_
  simp [none] at at_

theorem SessionCall.Tracks.snoc (tracks : call.Tracks C L db) (op : next.op = call.op) (existing : Option RatchetSnapshot)
    (more : next.phase.existings = call.phase.existings ++ [existing])
    (read : ∀ peer, (call.op.peers C)[call.phase.existings.length]? = some peer →
      db.session L ((call.op.group C).scope peer) = some existing) : next.Tracks C L db := by
  intro i e peer at_ among
  rw [op] at among ⊢
  rw [more] at at_
  obtain within | beyond := Nat.lt_or_ge i call.phase.existings.length
  · rw [getElem?_append_left within] at at_
    exact tracks i e peer at_ among
  · rw [getElem?_append_right beyond, getElem?_singleton] at at_
    split at at_
    · rename_i last
      cases at_
      obtain rfl : i = call.phase.existings.length := by omega
      exact ⟨_, read peer among, .inr rfl⟩
    · cases at_

theorem SessionCall.Tracks.same (tracks : call.Tracks C L db) (op : next.op = call.op)
    (same : next.phase.existings = call.phase.existings) : next.Tracks C L db := by
  unfold SessionCall.Tracks
  rw [op, same]
  exact tracks

theorem Prepared.existings (loaded : List Loaded) (p : Prepared) :
    (p.phase loaded).existings = [] ∨ (p.phase loaded).existings = loaded.map (·.existing) := by
  cases p with
  | threw | returned => exact .inl rfl
  | more | commits => exact .inr rfl

theorem Entered.existings (into : Entered call plaintexts phase) : phase.existings = [] := by
  cases into with
  | checking | loading | undecrypted => rfl
  | settled phase settled => cases phase <;> first | rfl | cases settled

variable {scope : RatchetScope}

theorem nextScope_peer (next : SessionWorld.nextScope C call loaded = some scope) :
    ∃ peer, (call.op.peers C)[loaded.length]? = some peer ∧ (call.op.group C).scope peer = scope := by
  obtain ⟨peer, at_, same⟩ := map_eq_some_iff.1 next
  exact ⟨peer, at_, same⟩

namespace SessionWorld

variable {s s' : SessionWorld} {id : Nat} {e : SessionEvent}

def Tracked (C : Client) (L : RatchetProtection) (s : SessionWorld) : Prop :=
  ∀ id call, s.calls id = some call → call.Tracks C L s.db

theorem Tracked.setCall {t : SessionWorld} (linear : Linear C L s.db t.db) (calls : t.calls = s.calls)
    (tracked : s.Tracked C L) (own : next.Tracks C L t.db) : (t.setCall id next).Tracked C L := by
  intro other call at_
  by_cases here : other = id
  · subst here
    simp only [SessionWorld.setCall, update_self, some.injEq] at at_
    rw [← at_]
    exact own
  · simp only [SessionWorld.setCall, update_of_ne here, calls] at at_
    exact linear.tracks (tracked other call at_)

section
variable (seals : RatchetSeals L)
include seals

/-- The migration of an attempt leaves every session as it is. -/
theorem migrated_session (tracks : call.Tracks C L s.db)
    {iv : Nat} (at_ : call.phase = .migrating loaded snapshot)
    (next : nextScope C call loaded = some scope)
    (wrote : migrateLegacyRatchet L iv scope snapshot s.db.ratchets = some ratchets)
    (device : other.localDeviceId = C.material.deviceId) :
    (s.setRatchets ratchets).db.session L other = s.db.session L other := by
  obtain ⟨peer, among, rfl⟩ := nextScope_peer next
  have last : call.phase.existings[loaded.length]? = some (some snapshot) := by
    simp [at_, SessionPhase.existings]
  obtain ⟨now, stored, behind⟩ := tracks _ _ peer last among
  have named : ((call.op.group C).scope peer).localDeviceId ≠ "" := by
    change (call.op.group C).localDeviceId ≠ ""
    rw [group_device]
    exact C.material.named
  exact migrate_session seals named wrote stored behind (device.trans (group_device call.op).symm)

theorem turn_linear (tracks : call.Tracks C L s.db) (turn : Turn C P L s id call e s') :
    Linear C L s.db s'.db := by
  cases turn with
  | idle | entered | repeated | read | raw => exact .of_ratchets rfl
  | migrated loaded scope snapshot drawn iv ratchets draws at_ next wrote =>
    exact fun other device => .inl (migrated_session seals tracks at_ next wrote device)
  | committed loaded commit iv db event at_ made wrote => exact commit_linear seals tracks at_ made wrote

theorem turn_tracked (tracked : s.Tracked C L) (at_ : s.calls id = some call)
    (turn : Turn C P L s id call e s') : s'.Tracked C L := by
  have tracks := tracked id call at_
  have linear := turn_linear seals tracks turn
  cases turn with
  | idle => exact tracked
  | entered phase into => exact tracked.setCall linear rfl (.nothing into.existings)
  | repeated | committed loaded commit iv db event phase made wrote => exact tracked.setCall linear rfl (.nothing rfl)
  | read loaded scope existing drawn draws phase next found =>
    obtain ⟨peer, among, rfl⟩ := nextScope_peer next
    refine tracked.setCall linear rfl ?_
    obtain none | all := Prepared.existings (loaded ++ [⟨existing, drawn⟩])
      (call.op.prepare C (loaded ++ [⟨existing, drawn⟩]))
    · exact .nothing none
    · refine tracks.snoc rfl existing ?_ fun peer' there => ?_
      · exact all.trans (by simp [phase, SessionPhase.existings])
      · simp only [phase, SessionPhase.existings, length_map] at there
        cases among.symm.trans there
        exact found
  | raw loaded scope snapshot phase next found =>
    obtain ⟨peer, among, rfl⟩ := nextScope_peer next
    refine tracked.setCall linear rfl (tracks.snoc rfl (some snapshot) ?_ fun peer' there => ?_)
    · simp [phase, SessionPhase.existings]
    · simp only [phase, SessionPhase.existings, length_map] at there
      cases among.symm.trans there
      exact found
  | migrated loaded scope snapshot drawn iv ratchets draws phase next wrote =>
    refine tracked.setCall linear rfl ?_
    obtain none | all := Prepared.existings (loaded ++ [⟨some snapshot, drawn⟩])
      (call.op.prepare C (loaded ++ [⟨some snapshot, drawn⟩]))
    · exact .nothing none
    · refine (linear.tracks tracks).same rfl (all.trans ?_)
      simp [phase, SessionPhase.existings]

/-- The committed sessions follow one another, whatever the calls do. -/
theorem change_linear (tracked : s.Tracked C L) (change : Change C P L s e s') :
    Linear C L s.db s'.db ∧ s'.Tracked C L := by
  cases change with
  | idle => exact ⟨.of_ratchets rfl, tracked⟩
  | turn id call s' at_ turn => exact ⟨turn_linear seals (tracked id call at_) turn, turn_tracked seals tracked at_ turn⟩
  | begun id op phase free fresh =>
    refine ⟨.of_ratchets rfl, tracked.setCall (.of_ratchets rfl) rfl (.nothing ?_)⟩
    obtain rfl | rfl := fresh <;> rfl
  | outside pendingSends plaintexts kept =>
    have linear : Linear C L s.db { s.db with pendingSends, plaintexts } := .of_ratchets rfl
    exact ⟨linear, fun id call at_ => linear.tracks (tracked id call at_)⟩

end

end SessionWorld

end

end Vimla.DirectChats
