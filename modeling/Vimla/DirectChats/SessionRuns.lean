import Vimla.DirectChats.OutboxRuns
import Vimla.DirectChats.SessionCommits
import Vimla.E2ee.ConversationRuns

/-!
# Ratchet persistence is linear

Every run of the calls of any number of tabs, from any stored sessions with keys of
their own.
-/

namespace Vimla.DirectChats

open List Option Runs Prod

open Base64 (Bytes)
open Function

/-- What a commit has written beside the sessions. -/
def RatchetCommit.Wrote (mode : Mode) (db after : Stores) : RatchetCommit → Prop
  | .outbound _ pendingSend _ =>
    after.pendingSends = db.pendingSends.set pendingSend.clientMessageId
        (protectPendingSend mode.sealing mode.version pendingSend) ∧
      after.plaintexts = db.plaintexts
  | .inbound _ plaintext =>
    after.pendingSends = db.pendingSends ∧
      after.plaintexts = putPlaintext db.plaintexts (protectPlaintext mode plaintext)
  | .handshake _ => after.pendingSends = db.pendingSends ∧ after.plaintexts = db.plaintexts

/-- The parent of an operator output still waits for it. -/
def EncryptInput.awaited (input : EncryptInput) (store : PendingSends) : Bool :=
  input.operatorOutput.all fun link =>
    (((store.get link.parentClientMessageId).bind (·.delivery)).bind (·.linked link input.clientMessageId)).any
      fun output => ¬ output.delivered

/-- A call that has committed comes to commit again, and the row that it has staged is gone (or was made anew under
the revision that it expects), while its sessions are those that it has loaded. -/
structure SessionCall.Repeats (C : Client) (L : RatchetProtection) (db : Stores) (call : SessionCall)
    (input : EncryptInput) (loaded : List Loaded) : Prop where
  op : call.op = .encryptForDevices input
  phase : call.phase = .committing loaded
  committed : 0 < call.commits
  gone : (db.pendingSends.get input.clientMessageId).map pendingSendRevision = input.expectedPendingRevision
  awaited : input.awaited db.pendingSends = true
  current : ∀ (i : Nat) (l : Loaded) (peer : String), loaded[i]? = some l → (call.op.peers C)[i]? = some peer →
    (db.session L ((input.group C).scope peer)).map snapshotVersion = some (snapshotVersion l.existing)

variable {generated : List Bytes}

namespace SessionWorld

section
variable (C : Client) (P : LocalProtection) (L : RatchetProtection) (dateParse : String → Option Int)

/-- A commit writes everything or nothing. -/
def Together (s : SessionWorld) (e : SessionEvent) : Prop :=
  ∀ id iv call loaded commit, e = .commit id iv → s.calls id = some call → call.phase = .committing loaded →
    call.op.prepare C loaded = .commits commit →
      (s.step C P L dateParse e).db = s.db ∨
        (∀ u ∈ commit.updates, (s.step C P L dateParse e).db.session L ((call.op.group C).scope u.peerDeviceId) =
          some (some u.next)) ∧
        commit.Wrote (P.mode iv) s.db (s.step C P L dateParse e).db

/-- A call that decrypts and throws has committed nothing, and leaves every session as it is. -/
def ThrowsUnchanged (s : SessionWorld) (e : SessionEvent) : Prop :=
  ∀ id call input call', s.calls id = some call → call.op = .decryptMessageWithStatus input → call.phase.Working →
    (s.step C P L dateParse e).calls id = some call' → call'.phase = .ended none →
      call.commits = 0 ∧ ∀ scope : RatchetScope, scope.localDeviceId = C.material.deviceId →
        (s.step C P L dateParse e).db.session L scope = s.db.session L scope

/-- Committed envelopes for one recipient under one key and number have one ciphertext. -/
def NoReuse (s : SessionWorld) : Prop :=
  ∀ p ∈ s.staged, ∀ q ∈ s.staged, ∀ e ∈ p.envelopes, ∀ f ∈ q.envelopes, e.recipientDeviceId = f.recipientDeviceId →
    e.dhPublicB64 = f.dhPublicB64 → e.messageNumber = f.messageNumber → e.ciphertextB64 = f.ciphertextB64

/-- No call that decrypts or acknowledges has committed twice. -/
def OthersOnce (s : SessionWorld) : Prop :=
  ∀ id call, s.calls id = some call → (∀ input, call.op ≠ .encryptForDevices input) → call.commits ≤ 1

/-- What holds of every step. -/
structure Persists (s : SessionWorld) (e : SessionEvent) : Prop where
  linear : Linear C L s.db (s.step C P L dateParse e).db
  together : s.Together C P L dateParse e
  throws : s.ThrowsUnchanged C P L dateParse e
  reuse : (s.step C P L dateParse e).NoReuse
  once : (s.step C P L dateParse e).OthersOnce

/-- No call has committed twice, though it may have been repeated. -/
def CommitsOnce (s : SessionWorld) : Prop := ∀ id call, s.calls id = some call → call.commits ≤ 1

/-- The step does not repeat a commit whose row is gone. -/
def Keeps (s : SessionWorld) (e : SessionEvent) : Prop :=
  ∀ id iv call input loaded, e = .commit id iv → s.calls id = some call → ¬ call.Repeats C L s.db input loaded

def start (db : Stores) (generated : List Bytes) : SessionWorld := ⟨db, generated, [], fun _ => none⟩

/-- Sessions that are stored at the start have keys of their own. -/
structure Begins (db : Stores) (generated : List Bytes) : Prop where
  generated : ∀ place k n, HasKey C L db place k n → k ∈ generated
  apart : ∀ place place' k n n', HasKey C L db place k n → HasKey C L db place' k n' → place = place'

/-- What every step preserves. -/
structure Inv (s : SessionWorld) : Prop where
  tracked : s.Tracked C L
  keys : s.KeysApart C L
  steady : s.Steady C

end

section
variable {C : Client} {P : LocalProtection} {L : RatchetProtection} {dateParse : String → Option Int}
  {s s' : SessionWorld} {id : Nat} {call : SessionCall} {e : SessionEvent}

theorem inv_start {db : Stores} (begins : Begins C L db generated) :
    (start db generated).Inv C L := by
  refine ⟨fun id call none => ?_, ⟨?_, ?_, ?_, ?_⟩, fun id call none => ?_⟩
  · cases none
  · rintro (place | ⟨id, i⟩) k holds
    · obtain ⟨n, has⟩ := holds
      exact begins.generated place k n has
    · obtain ⟨_, _, none, _⟩ := holds
      cases none
  · rintro (place | ⟨id, i⟩) h' k holds holds'
    · obtain ⟨n, has⟩ := holds
      cases h' with
      | session place' =>
        obtain ⟨n', has'⟩ := holds'
        rw [begins.apart place place' k n n' has has']
      | draft id i =>
        obtain ⟨_, _, none, _⟩ := holds'
        cases none
    · obtain ⟨_, _, none, _⟩ := holds
      cases none
  · intro e mem
    cases mem
  · exact nodup_nil
  · cases none

theorem Inv.step (seals : RatchetSeals L) (inv : s.Inv C L) (fresh : Fresh C s e) :
    (s.step C P L dateParse e).Inv C L := by
  have change : Change C P L s e (s.step C P L dateParse e) := step_change e
  exact ⟨(change_linear seals inv.tracked change).2, change_keysApart seals inv.keys inv.tracked fresh change,
    change_steady inv.steady change⟩

theorem KeysApart.noReuse (keys : s.KeysApart C L) : s.NoReuse := by
  intro p memP q memQ e memE f memF _ pub number
  have inE : e ∈ s.envelopes := mem_flatMap.2 ⟨p, memP, memE⟩
  have inF : f ∈ s.envelopes := mem_flatMap.2 ⟨q, memQ, memF⟩
  rw [inj_on_of_nodup_map keys.distinct inE inF (Prod.ext pub number)]

theorem retry_db : (s.retry id call).db = s.db := by
  unfold retry
  split
  · rfl
  · split <;> rfl

variable {commit : RatchetCommit}

theorem Commits.wrote {group : SessionGroup} {mode : Mode} {iv : String → Nat} {db after : Stores}
    (wrote : commit.Commits L group mode iv db after) : commit.Wrote mode db after := by
  have beside := wrote.beside
  cases commit with
  | outbound updates pending expected =>
    obtain ⟨_, staged, same⟩ := beside
    refine ⟨?_, same⟩
    simp only [commitPendingSend] at staged
    split at staged
    · exact (some.inj staged).symm
    · cases staged
  | inbound | handshake => exact beside

theorem Inv.together (seals : RatchetSeals L) (inv : s.Inv C L) (e : SessionEvent) : s.Together C P L dateParse e := by
  rintro id iv call loaded commit rfl at_ phase made
  have stepped : s.step C P L dateParse (.commit id iv) = s.commit C P L id call iv := by
    simp [SessionWorld.step, act, at_]
  rw [stepped]
  simp only [SessionWorld.commit, phase, made]
  split
  · rename_i db wrote
    have wrote := run_ok.1 wrote
    refine .inr ⟨fun u mem => ?_, Commits.wrote wrote⟩
    obtain ⟨i, l, replaces⟩ := commit_replaces seals (inv.tracked id call at_) phase made wrote mem
    exact replaces.next
  · exact .inl retry_db
  · exact .inl rfl
  · exact .inl rfl

variable {call' : SessionCall}

/-- A turn that ends with an error leaves the sessions as they are. -/
theorem turn_throws (seals : RatchetSeals L) (tracks : call.Tracks C L s.db) (turn : Turn C P L s id call e s')
    (after : s'.calls id = some call') (threw : call'.phase = .ended none) {scope : RatchetScope}
    (device : scope.localDeviceId = C.material.deviceId) : s'.db.session L scope = s.db.session L scope := by
  cases turn with
  | idle | entered | repeated | read | raw => rfl
  | migrated loaded scope' snapshot drawn iv ratchets draws at_ next wrote =>
    exact migrated_session seals tracks at_ next wrote device
  | committed loaded commit iv db event at_ made wrote =>
    simp only [setCall, update_self, some.injEq] at after
    rw [← after] at threw
    cases threw

theorem turn_others (turn : Turn C P L s id call e s') {other : Nat} (differ : other ≠ id) :
    s'.calls other = s.calls other := by
  cases turn with
  | idle => rfl
  | entered | repeated | read | raw | migrated | committed => exact update_of_ne differ _ _

theorem Inv.throws (seals : RatchetSeals L) (inv : s.Inv C L) (e : SessionEvent) :
    s.ThrowsUnchanged C P L dateParse e := by
  intro id call input call' at_ op working after threw
  have active : ¬ s.calls id = (s.step C P L dateParse e).calls id := by
    intro same
    rw [at_, after] at same
    cases same
    rw [threw] at working
    exact working
  refine ⟨?_, fun scope device => ?_⟩
  · by_contra committed
    exact ((inv.steady id call at_).decrypted input op (Nat.pos_of_ne_zero committed)).2.2 working
  · have change : Change C P L s e (s.step C P L dateParse e) := step_change e
    generalize s.step C P L dateParse e = s' at *
    cases change with
    | idle | begun | outside => rfl
    | turn other call₂ s' there turn =>
      by_cases here : id = other
      · subst here
        exact turn_throws seals (inv.tracked id call₂ there) turn after threw device
      · exact absurd (turn_others turn here).symm active

/-- A commit that stages a message again passes exactly where the call repeats one that is gone. -/
theorem repeats_iff (inv : s.Inv C L) (at_ : s.calls id = some call) {input : EncryptInput}
    (op : call.op = .encryptForDevices input) {loaded : List Loaded} (phase : call.phase = .committing loaded)
    (committed : 0 < call.commits) (made : call.op.prepare C loaded = .commits commit)
    (mode : Mode) (iv : String → Nat) :
    (∃ db, commit.Commits L (call.op.group C) mode iv s.db db) ↔ call.Repeats C L s.db input loaded := by
  have tracks := inv.tracked id call at_
  have made' := made
  rw [op] at made'
  obtain ⟨parts, now, outbound, enough, rfl⟩ := prepare_outbound made'
  have peers : (parts.map fst).map (·.peerDeviceId) = call.op.peers C := by
    rw [outbound_peers outbound enough, op, SessionOp.peers]
  have group : call.op.group C = input.group C := by rw [op, SessionOp.group]
  have passes : ∀ (u : RatchetUpdate) (i : Nat) (l : Loaded), loaded[i]? = some l →
      (call.op.peers C)[i]? = some u.peerDeviceId → u.expectedVersion = snapshotVersion l.existing →
      ((call.op.group C).assertVersion L s.db.ratchets u = .ok () ↔
        (s.db.session L ((input.group C).scope u.peerDeviceId)).map snapshotVersion = some (snapshotVersion l.existing)) := by
    intro u i l atLoaded peer version
    have existing : call.phase.existings[i]? = some l.existing := by simp [phase, SessionPhase.existings, atLoaded]
    obtain ⟨now, stored, _⟩ := tracks i l.existing u.peerDeviceId existing peer
    have assert := assertVersion_iff stored u.expectedVersion
    rw [← group, stored, map_some, some.injEq, ← version]
    exact assert
  constructor
  · rintro ⟨db, wrote⟩
    obtain ⟨revision, staged, _⟩ := wrote.beside
    refine ⟨op, phase, committed, revision, ?_, fun i l peer atLoaded atPeer => ?_⟩
    · simp only [commitPendingSend] at staged
      split at staged
      · rename_i waits
        exact waits.2
      · cases staged
    · -- the update of this device was checked
      have there : ((parts.map fst).map (·.peerDeviceId))[i]? = some peer := peers ▸ atPeer
      obtain ⟨u, atUpdate, rfl⟩ : ∃ u, (parts.map fst)[i]? = some u ∧ u.peerDeviceId = peer := by
        simpa using there
      obtain ⟨j, l', atLoaded', peer', version, _⟩ := prepare_computed made u (mem_of_getElem? atUpdate)
      have distinct := wrote.distinct
      rw [RatchetCommit.updates, peers] at distinct
      obtain rfl : i = j := (List.getElem?_inj (List.getElem?_eq_some_iff.1 atPeer).1 distinct).1 (atPeer.trans peer'.symm)
      cases atLoaded.symm.trans atLoaded'
      exact (passes u i l atLoaded atPeer version).1 (wrote.checked u (mem_of_getElem? atUpdate))
  · intro repeats
    obtain ⟨distinct, filled⟩ := (inv.steady id call at_).encrypted input op committed
    have staged : ∃ pendingSends, commitPendingSend mode (input.pendingSend C (parts.map snd) now)
        input.expectedPendingRevision s.db.pendingSends = some pendingSends := by
      simp only [commitPendingSend]
      rw [if_pos ⟨repeats.gone, repeats.awaited⟩]
      exact ⟨_, rfl⟩
    obtain ⟨pendingSends, staged⟩ := staged
    refine ⟨{ s.db with
      ratchets := (parts.map fst).foldl ((call.op.group C).putNext L iv) s.db.ratchets, pendingSends }, ?_, ?_, ?_,
      rfl, repeats.gone, staged, rfl⟩
    · rintro (none : parts.map fst = [])
      rw [none] at peers
      exact filled peers.symm
    · rw [RatchetCommit.updates, peers]
      exact distinct
    · intro u mem
      obtain ⟨i, l, atLoaded, peer, version, _⟩ := prepare_computed made u mem
      exact (passes u i l atLoaded peer version).2 (repeats.current i l _ atLoaded peer)

/-- How often a call has committed after a step. -/
theorem turn_commits (turn : Turn C P L s id call e s') :
    (∀ call', s'.calls id = some call' → s.calls id = some call → call'.op = call.op ∧ call'.commits = call.commits) ∨
      ∃ loaded commit iv db, e = .commit id iv ∧ call.phase = .committing loaded ∧ call.op.prepare C loaded = .commits commit ∧
        commit.Commits L (call.op.group C) (P.mode iv) iv s.db db ∧
        ∀ call', s'.calls id = some call' → call'.op = call.op ∧ call'.commits = call.commits + 1 := by
  have own : ∀ {t : SessionWorld} {next call' : SessionCall}, (t.setCall id next).calls id = some call' → next = call' := by
    simpa [setCall] using at_
  cases turn with
  | idle =>
    left
    intro call' after before
    cases before.symm.trans after
    exact ⟨rfl, rfl⟩
  | entered | repeated | read | raw | migrated =>
    left
    intro call' after _
    rw [← own after]
    exact ⟨rfl, rfl⟩
  | committed loaded commit iv db event phase made wrote =>
    right
    refine ⟨loaded, commit, iv, db, event, phase, made, wrote, fun call' after => ?_⟩
    rw [← own after]
    exact ⟨rfl, rfl⟩

/-- Calls that do not encrypt commit once; one that does commits again where it repeats a commit that is gone. -/
theorem Inv.commits (inv : s.Inv C L) {id' : Nat} (after : (s.step C P L dateParse e).calls id' = some call') :
    call'.commits ≤ 1 ∨ (∃ call, s.calls id' = some call ∧ call'.commits = call.commits) ∨
      ∃ iv call input loaded, e = .commit id' iv ∧ s.calls id' = some call ∧ call'.op = .encryptForDevices input ∧
        call.Repeats C L s.db input loaded := by
  have change : Change C P L s e (s.step C P L dateParse e) := step_change e
  generalize s.step C P L dateParse e = s' at *
  cases change with
  | idle | outside => exact .inr (.inl ⟨call', after, rfl⟩)
  | begun id op phase free fresh =>
    by_cases here : id' = id
    · subst here
      simp only [setCall, update_self, some.injEq] at after
      rw [← after]
      exact .inl (Nat.zero_le 1)
    · simp only [setCall, update_of_ne here] at after
      exact .inr (.inl ⟨call', after, rfl⟩)
  | turn id call s' at_ turn =>
    by_cases here : id' = id
    swap
    · rw [turn_others turn here] at after
      exact .inr (.inl ⟨call', after, rfl⟩)
    subst here
    obtain same | ⟨loaded, commit, iv, db, event, phase, made, wrote, counts⟩ := turn_commits turn
    · exact .inr (.inl ⟨call, at_, (same call' after at_).2⟩)
    obtain ⟨op', count⟩ := counts call' after
    obtain zero | committed := Nat.eq_zero_or_pos call.commits
    · exact .inl (by omega)
    have working : call.phase.Working := by simp [phase, SessionPhase.Working]
    have steady := inv.steady id' call at_
    cases op : call.op with
    | encryptForDevices input =>
      have repeats := (repeats_iff inv at_ op phase committed made _ _).1 ⟨db, wrote⟩
      exact .inr (.inr ⟨iv, call, input, loaded, event, at_, op'.trans op, repeats⟩)
    | decryptMessageWithStatus input => exact absurd working (steady.decrypted input op committed).2.2
    | acknowledgeRatchetHandshake conversationId peer epoch =>
      exact absurd working (steady.acknowledged conversationId peer epoch op committed).2.idle

theorem Inv.once_iff (inv : s.Inv C L) (once : s.CommitsOnce) (e : SessionEvent) :
    (s.step C P L dateParse e).CommitsOnce ↔ s.Keeps C L e := by
  constructor
  · rintro after id iv call input loaded rfl at_ repeats
    have steady := inv.steady id call at_
    obtain ⟨commit, made⟩ := steady.ready loaded repeats.phase
    obtain ⟨db, wrote⟩ := (repeats_iff inv at_ repeats.op repeats.phase repeats.committed made (P.mode iv) iv).2
      repeats
    have count := after id { call with phase := .finishing commit.result, commits := call.commits + 1 } ?_
    · have committed := repeats.committed
      dsimp only at count
      omega
    · simp [SessionWorld.step, act, at_, SessionWorld.commit, repeats.phase, made, run_ok.2 wrote, setCall]
  · intro keeps id call' after
    obtain few | ⟨call, at_, same⟩ | ⟨iv, call, input, loaded, event, at_, _, repeats⟩ := inv.commits after
    · exact few
    · exact same.trans_le (once id call at_)
    · exact absurd repeats (keeps id iv call input loaded event at_)

theorem Steady.othersOnce (steady : s.Steady C) : s.OthersOnce := by
  intro id call at_ other
  by_contra many
  have committed : 0 < call.commits := by omega
  cases op : call.op with
  | encryptForDevices input => exact other input op
  | decryptMessageWithStatus input =>
    have := ((steady id call at_).decrypted input op committed).1
    omega
  | acknowledgeRatchetHandshake conversationId peer epoch =>
    have := ((steady id call at_).acknowledged conversationId peer epoch op committed).1
    omega

theorem Inv.persists (seals : RatchetSeals L) (inv : s.Inv C L) (fresh : Fresh C s e) : s.Persists C P L dateParse e where
  linear := (change_linear seals inv.tracked (step_change e)).1
  together := inv.together seals e
  throws := inv.throws seals e
  reuse := (Inv.step seals inv fresh).keys.noReuse
  once := (Inv.step seals inv fresh).steady.othersOnce

end

end SessionWorld

section
variable (C : Client) (P : LocalProtection) (L : RatchetProtection) (dateParse : String → Option Int)

/-- Ratchet persistence. -/
theorem ratchets_persist (seals : RatchetSeals L) (db : Stores) (generated : List Bytes)
    (begins : SessionWorld.Begins C L db generated) (events : List SessionEvent)
    (fresh : Along (SessionWorld.step C P L dateParse) (SessionWorld.Fresh C) (.start db generated) events) :
    Along (SessionWorld.step C P L dateParse) (SessionWorld.Persists C P L dateParse) (.start db generated) events ∧
      (Along (SessionWorld.step C P L dateParse) (SessionWorld.Keeps C L) (.start db generated) events ↔
        Along (SessionWorld.step C P L dateParse) (fun s e => (s.step C P L dateParse e).CommitsOnce)
          (.start db generated) events) := by
  have start := SessionWorld.inv_start begins
  constructor
  · exact along_of_invariant (P := SessionWorld.Inv C L) (fun s e fresh inv => inv.persists seals fresh)
      (fun s e fresh inv => inv.step seals fresh) fresh start
  · have once : (SessionWorld.start db generated).CommitsOnce := by
      intro id call none
      cases none
    generalize SessionWorld.start db generated = s at start once fresh
    induction events generalizing s with
    | nil => exact Iff.rfl
    | cons e events ih =>
      have here : (s.step C P L dateParse e).CommitsOnce ↔ s.Keeps C L e := start.once_iff once e
      constructor
      · rintro ⟨keeps, rest⟩
        have next := here.2 keeps
        exact ⟨next, (ih _ (start.step seals fresh.1) next fresh.2).1 rest⟩
      · rintro ⟨next, rest⟩
        exact ⟨here.1 next, (ih _ (start.step seals fresh.1) next fresh.2).2 rest⟩

end

namespace Written

/-- A text that tells where it ends. -/
def putText : List Char → List Char
  | [] => ['.']
  | c :: text => if c = '.' ∨ c = ',' then ',' :: c :: putText text else c :: putText text

def takeText : List Char → Option (List Char × List Char)
  | [] => none
  | [c] => if c = '.' then some ([], []) else none
  | c :: d :: rest =>
    if c = '.' then some ([], d :: rest)
    else if c = ',' then (takeText rest).map fun parts => (d :: parts.1, parts.2)
    else (takeText (d :: rest)).map fun parts => (c :: parts.1, parts.2)

theorem putText_cons (text : List Char) : ∃ d more, putText text = d :: more := by
  cases text with
  | nil => exact ⟨_, _, rfl⟩
  | cons c text =>
    rw [putText]
    split <;> exact ⟨_, _, rfl⟩

theorem takeText_put (text rest : List Char) : takeText (putText text ++ rest) = some (text, rest) := by
  induction text with
  | nil => cases rest <;> rfl
  | cons c text ih =>
    rw [putText]
    split
    · simp [takeText, ih]
    · rename_i plain
      obtain ⟨dot, comma⟩ := not_or.1 plain
      obtain ⟨d, more, text_eq⟩ := putText_cons text
      rw [text_eq, cons_append] at ih
      simp [text_eq, takeText, dot, comma, ih]

def putAll : List (List Char) → List Char
  | [] => []
  | text :: texts => putText text ++ putAll texts

/-- So many texts. -/
def takeAll : Nat → List Char → Option (List (List Char))
  | 0, _ => some []
  | count + 1, chars => (takeText chars).bind fun parts => (takeAll count parts.2).map (parts.1 :: ·)

theorem takeAll_put (texts : List (List Char)) : takeAll texts.length (putAll texts) = some texts := by
  induction texts with
  | nil => rfl
  | cons text texts ih => simp [putAll, takeAll, takeText_put, ih]

def optionalText : Option String → List Char
  | none => []
  | some text => '=' :: text.toList

def readOptional : List Char → Option String
  | [] => none
  | _ :: text => some (String.ofList text)

theorem readOptional_text (text : Option String) : readOptional (optionalText text) = text := by
  cases text <;> simp [optionalText, readOptional]

def count (n : Nat) : List Char := replicate n '|'

def pairTexts : List (String × String) → List (List Char)
  | [] => []
  | (key, value) :: entries => key.toList :: value.toList :: pairTexts entries

def readPairs : List (List Char) → List (String × String)
  | key :: value :: rest => (String.ofList key, String.ofList value) :: readPairs rest
  | _ => []

theorem readPairs_texts (entries : List (String × String)) : readPairs (pairTexts entries) = entries := by
  induction entries with
  | nil => rfl
  | cons entry entries ih => simp [pairTexts, readPairs, ih]

def texts (state : E2ee.SerializedRatchetState) : List (List Char) :=
  state.dhsSecret.toList :: state.dhsPublic.toList :: optionalText state.dhrPublic :: state.rootKey.toList ::
    optionalText state.sendingChainKey :: optionalText state.receivingChainKey :: count state.ns :: count state.nr ::
    count state.pn :: pairTexts state.skipped.entries

def readTexts : List (List Char) → Option E2ee.SerializedRatchetState
  | dhsSecret :: dhsPublic :: dhrPublic :: rootKey :: sendingChainKey :: receivingChainKey :: ns :: nr :: pn :: skipped =>
    some {
      dhsSecret := String.ofList dhsSecret, dhsPublic := String.ofList dhsPublic, dhrPublic := readOptional dhrPublic,
      rootKey := String.ofList rootKey, sendingChainKey := readOptional sendingChainKey,
      receivingChainKey := readOptional receivingChainKey, ns := ns.length, nr := nr.length, pn := pn.length,
      skipped := .ofEntries (readPairs skipped) }
  | _ => none

theorem readTexts_texts (state : E2ee.SerializedRatchetState) : readTexts (texts state) = some state := by
  simp [texts, readTexts, readOptional_text, readPairs_texts, count, OrderedMap.ofEntries_entries]

/-- The number of texts, and the texts. -/
def write (state : E2ee.SerializedRatchetState) : List Char :=
  putText (count (texts state).length) ++ putAll (texts state)

def read (chars : List Char) : Option E2ee.SerializedRatchetState :=
  (takeText chars).bind fun parts => (takeAll parts.1.length parts.2).bind readTexts

theorem read_write (state : E2ee.SerializedRatchetState) : read (write state) = some state := by
  simp only [read, write, takeText_put, bind_some]
  rw [show (count (texts state).length).length = (texts state).length by simp [count], takeAll_put, bind_some,
    readTexts_texts]

/-- A sealed state, with what it is for. -/
def openSealed (aad : String) : List Char → Option E2ee.SerializedRatchetState
  | '#' :: chars => (takeText chars).bind fun parts => if parts.1 = aad.toList then read parts.2 else none
  | _ => none

end Written

/-- Seals that name what they are for. -/
def labelledRatchets : RatchetProtection where
  protectLocalJson _ state aad := String.ofList ('#' :: (Written.putText aad.toList ++ Written.write state))
  unprotectLocalJson value aad := Written.openSealed aad value.toList
  isProtectedLocalString value := value.toList.head? = some '#'

theorem labelledRatchets_seals : RatchetSeals labelledRatchets where
  opens iv state aad := by
    simp [labelledRatchets, Written.openSealed, Written.takeText_put, Written.read_write]
  marked iv state aad := by simp [labelledRatchets]

/-! ### A pending send that is completed between two attempts -/

def browser : Client where
  primitives := E2ee.symbolic
  signatures := ⟨fun _ _ => [], fun _ _ _ => true⟩
  hkdfSha256 ikm _ _ := ikm
  localeCompare := compare
  serializeDirectRoutingMentions _ := []
  directHumanClientMessageId _ := some "m"
  directHumanContentCommitment _ := some "c"
  textDecoder _ := ""
  material := {
    deviceId := "d", named := by decide, identity := ⟨[], [], [], []⟩, signedPrekeys := .empty, oneTimePrekeys := .empty }

def peerBundle : E2ee.PublicPreKeyBundle where
  deviceId := "p"
  identityEd25519Public := E2ee.bytesToB64 (replicate 32 1)
  identityX25519Public := E2ee.bytesToB64 (replicate 32 2)
  signedPrekeyId := 1
  signedPrekeyPublic := E2ee.bytesToB64 (replicate 32 3)
  signedPrekeySignature := E2ee.bytesToB64 (replicate 64 0)
  oneTimePrekeyId := none
  oneTimePrekeyPublic := none

def letter : EncryptInput where
  conversationId := "v"
  interactionEpoch := 1
  senderUserId := "u"
  peerUserId := none
  clientMessageId := "m"
  contentCommitmentB64 := some "c"
  kind := .HUMAN
  plaintext := "hello"
  devices := [⟨"p", "w", false⟩]
  mentions := []
  operatorIntent := none
  operatorOutput := none
  expectedPendingRevision := none

def draws (n : UInt8) : Draw := ⟨some [peerBundle], [n], [n], "now"⟩

def emptyStores : Stores := ⟨fun _ => none, .empty, fun _ => none⟩

theorem emptyStores_begins : SessionWorld.Begins browser labelledRatchets emptyStores generated where
  generated := by
    rintro place k n ⟨scope, snapshot, _, _, none, _⟩
    cases none
  apart := by
    rintro place place' k n n' ⟨scope, snapshot, _, _, none, _⟩
    cases none

theorem bytes_lawful : LawfulBEq Base64.Bytes := inferInstance

instance (s : SessionWorld) (e : SessionEvent) : Decidable (SessionWorld.Fresh browser s e) := by
  unfold SessionWorld.Fresh
  have := bytes_lawful
  infer_instance

/-- The message is staged, the lease is lost, and the attempt is repeated. -/
def repeated : List SessionEvent :=
  [.call 0 (.encryptForDevices letter), .lock 0, .load 0 (draws 1), .commit 0 fun _ => 0, .lose 0, .lock 0,
    .load 0 (draws 2), .commit 0 fun _ => 0]

theorem ratchets_persist_repeated :
    Along (SessionWorld.step browser labelled labelledRatchets fun _ => none)
        (SessionWorld.Persists browser labelled labelledRatchets fun _ => none) (.start emptyStores []) repeated ∧
      (Along (SessionWorld.step browser labelled labelledRatchets fun _ => none)
          (SessionWorld.Keeps browser labelledRatchets) (.start emptyStores []) repeated ↔
        Along (SessionWorld.step browser labelled labelledRatchets fun _ => none)
          (fun s e => (s.step browser labelled labelledRatchets (fun _ => none) e).CommitsOnce) (.start emptyStores [])
          repeated) :=
  ratchets_persist browser labelled labelledRatchets (fun _ => none) labelledRatchets_seals emptyStores []
    emptyStores_begins repeated (by decide +kernel)

/-- Meanwhile another tab has sent the message and completed it. -/
def recovered : List SessionEvent :=
  repeated.take 5 ++ .outbox (.completePendingSend (letter.pendingSend browser [] "now") "s" "t") (fun _ => 0) ::
    repeated.drop 5

theorem completed_staged_again :
    SessionWorld.Begins browser labelledRatchets emptyStores [] ∧ RatchetSeals labelledRatchets ∧
    Along (SessionWorld.step browser labelled labelledRatchets fun _ => none) (SessionWorld.Fresh browser)
      (.start emptyStores []) recovered ∧
    let s := recovered.foldl (SessionWorld.step browser labelled labelledRatchets fun _ => none) (.start emptyStores [])
    (s.calls 0).map (·.commits) = some 2 ∧ s.staged.map (·.clientMessageId) = ["m", "m"] ∧
      s.staged.map (fun p => p.envelopes.map (·.messageNumber)) = [[0], [1]] := by
  refine ⟨emptyStores_begins, labelledRatchets_seals, ?_, ?_⟩
  · decide +kernel
  · decide +kernel

end Vimla.DirectChats
