import Vimla.DirectChats.SessionKeys

/-!
# How often a call commits

A call that decrypts finds its plaintext when it is repeated, and a handshake is
not repeated. A call that encrypts commits again exactly where the outbox no longer
holds what it has staged.
-/

namespace Vimla.DirectChats

open List

/-- Sessions are loaded or about to be committed. -/
def SessionPhase.Working : SessionPhase → Prop
  | .loading _ => True
  | .migrating _ _ => True
  | .committing _ => True
  | _ => False

theorem SessionPhase.Settled.idle {phase : SessionPhase} (settled : phase.Settled) : ¬ phase.Working := by
  cases phase <;> first | exact id | cases settled

/-- What is known of a call that has committed. -/
structure SessionCall.Steady (C : Client) (plaintexts : String → Option StoredPlaintext) (call : SessionCall) : Prop where
  ready : ∀ loaded, call.phase = .committing loaded → ∃ commit, call.op.prepare C loaded = .commits commit
  decrypted : ∀ input, call.op = .decryptMessageWithStatus input → 0 < call.commits →
    call.commits = 1 ∧ plaintexts input.message.id ≠ none ∧ ¬ call.phase.Working
  acknowledged : ∀ conversationId peer epoch, call.op = .acknowledgeRatchetHandshake conversationId peer epoch →
    0 < call.commits → call.commits = 1 ∧ call.phase.Settled
  encrypted : ∀ input, call.op = .encryptForDevices input → 0 < call.commits →
    (call.op.peers C).Nodup ∧ call.op.peers C ≠ []

section
variable {C : Client} {P : LocalProtection} {L : RatchetProtection} {call : SessionCall} {loaded : List Loaded}
  {commit : RatchetCommit} {plaintexts : String → Option StoredPlaintext}

theorem SessionCall.Steady.keep (steady : call.Steady C plaintexts) {others : String → Option StoredPlaintext}
    (kept : ∀ m, plaintexts m ≠ none → others m ≠ none) : call.Steady C others :=
  { steady with
    decrypted := fun input op committed =>
      have ⟨once, stored, idle⟩ := steady.decrypted input op committed
      ⟨once, kept _ stored, idle⟩ }

variable {phase : SessionPhase}

/-- The call has begun, and has not committed. -/
theorem SessionCall.Steady.start {op : SessionOp} (fresh : phase = .begun ∨ phase = .ended none) :
    ({ op, phase } : SessionCall).Steady C plaintexts := by
  refine ⟨fun loaded at_ => ?_, fun _ _ committed => ?_, fun _ _ _ _ committed => ?_, fun _ _ committed => ?_⟩
  · obtain rfl | rfl := fresh <;> cases at_
  all_goals exact absurd committed (Nat.lt_irrefl 0)

section
variable (steady : call.Steady C plaintexts)
include steady

/-- A phase in which nothing is computed. -/
theorem SessionCall.Steady.move {attempt : Nat}
    (uncommitting : ∀ loaded, phase ≠ .committing loaded)
    (decrypt : ∀ input, call.op = .decryptMessageWithStatus input → 0 < call.commits → ¬ phase.Working)
    (acknowledge : ∀ conversationId peer epoch, call.op = .acknowledgeRatchetHandshake conversationId peer epoch →
      0 < call.commits → phase.Settled) : SessionCall.Steady C plaintexts { call with attempt, phase } where
  ready loaded at_ := absurd at_ (uncommitting loaded)
  decrypted input op committed :=
    have ⟨once, stored, _⟩ := steady.decrypted input op committed
    ⟨once, stored, decrypt input op committed⟩
  acknowledged conversationId peer epoch op committed :=
    have ⟨once, _⟩ := steady.acknowledged conversationId peer epoch op committed
    ⟨once, acknowledge conversationId peer epoch op committed⟩
  encrypted := steady.encrypted

theorem SessionCall.Steady.settle (settled : phase.Settled) :
    SessionCall.Steady C plaintexts { call with phase } := by
  refine steady.move ?_ (fun _ _ _ => settled.idle) (fun _ _ _ _ _ => settled)
  rintro loaded rfl
  exact settled

/-- Working calls that decrypt or acknowledge have not committed. -/
theorem SessionCall.Steady.work (working : call.phase.Working)
    (ready : ∀ loaded, phase = .committing loaded → ∃ commit, call.op.prepare C loaded = .commits commit) :
    SessionCall.Steady C plaintexts { call with phase } where
  ready := ready
  decrypted input op committed := absurd working (steady.decrypted input op committed).2.2
  acknowledged conversationId peer epoch op committed :=
    absurd working (steady.acknowledged conversationId peer epoch op committed).2.idle
  encrypted := steady.encrypted

theorem SessionCall.Steady.proceed (working : call.phase.Working) (loaded : List Loaded) :
    SessionCall.Steady C plaintexts { call with phase := (call.op.prepare C loaded).phase loaded } := by
  refine steady.work working fun loaded' at_ => ?_
  cases prepared : call.op.prepare C loaded with
  | commits commit =>
    rw [prepared] at at_
    cases at_
    exact ⟨commit, prepared⟩
  | threw | returned | more => simp [prepared, Prepared.phase] at at_

theorem SessionCall.Steady.enter (into : Entered call plaintexts phase) :
    SessionCall.Steady C plaintexts { call with phase } := by
  cases into with
  | checking input op at_ =>
    refine steady.move (by simp) (fun _ _ _ => id) fun conversationId peer epoch other committed => ?_
    rw [op] at other
    cases other
  | loading op at_ =>
    refine steady.move (by simp) (fun input other => absurd other (op input)) fun conversationId peer epoch same committed => ?_
    have settled := (steady.acknowledged conversationId peer epoch same committed).2
    rw [at_] at settled
    cases settled
  | undecrypted input op at_ absent =>
    refine steady.move (by simp) (fun other same committed => ?_) fun conversationId peer epoch other committed => ?_
    · cases op.symm.trans same
      exact absurd absent (steady.decrypted input op committed).2.1
    · rw [op] at other
      cases other
  | settled phase settled => exact steady.settle settled

end

/-- The devices of an outbound commit are all that were to be loaded. -/
theorem outbound_peers {input : EncryptInput} {parts : List (RatchetUpdate × WireEnvelopeDto)}
    (outbound : Outbound C input loaded parts) (enough : (input.activeDevices C).length ≤ loaded.length) :
    (parts.map Prod.fst).map (·.peerDeviceId) = (input.activeDevices C).map (·.id) := by
  have whole : ((input.activeDevices C).zip loaded).map Prod.fst = input.activeDevices C := map_fst_zip enough
  rw [← whole, map_map, map_map]
  unfold Outbound at outbound
  generalize (input.activeDevices C).zip loaded = items at outbound
  induction outbound with
  | nil => rfl
  | cons item _ ih =>
    rw [map_cons, map_cons, ih]
    exact congrArg (· :: _) (encryptForDevice_update item).1

variable {iv : String → Nat} {db after : Stores}

theorem SessionCall.Steady.committed (steady : call.Steady C plaintexts) (at_ : call.phase = .committing loaded)
    (made : call.op.prepare C loaded = .commits commit) {mode : Mode}
    (wrote : commit.Commits L (call.op.group C) mode iv db after) (result : SessionResult) :
    SessionCall.Steady C after.plaintexts { call with phase := .finishing result, commits := call.commits + 1 } := by
  have working : call.phase.Working := by simp [at_, SessionPhase.Working]
  refine ⟨fun loaded none => ?_, fun input op _ => ?_, fun conversationId peer epoch op _ => ?_, fun input op _ => ?_⟩
  · cases none
  · have first : call.commits = 0 := by
      by_contra committed
      exact (steady.decrypted input op (Nat.pos_of_ne_zero committed)).2.2 working
    refine ⟨by simp [first], ?_, id⟩
    rw [op] at made
    obtain ⟨l, state, text, _, _, rfl⟩ := prepare_inbound made
    have stored := wrote.beside.2
    rw [stored]
    simp [putPlaintext, protectPlaintext, DecryptInput.plaintext]
  · have first : call.commits = 0 := by
      by_contra committed
      exact (steady.acknowledged conversationId peer epoch op (Nat.pos_of_ne_zero committed)).2.idle working
    exact ⟨by simp [first], trivial⟩
  · have op' : call.op = .encryptForDevices input := op
    rw [op'] at made
    obtain ⟨parts, now, outbound, enough, rfl⟩ := prepare_outbound made
    have peers := outbound_peers outbound enough
    have distinct := wrote.distinct
    have filled := wrote.filled
    rw [op', SessionOp.peers, ← peers]
    exact ⟨distinct, fun empty => filled (map_eq_nil_iff.1 empty)⟩

namespace SessionWorld

variable {s s' : SessionWorld} {id : Nat} {e : SessionEvent}

def Steady (C : Client) (s : SessionWorld) : Prop :=
  ∀ id call, s.calls id = some call → call.Steady C s.db.plaintexts

theorem Steady.setCall {t : SessionWorld} (steady : s.Steady C) (calls : t.calls = s.calls)
    (kept : ∀ m, s.db.plaintexts m ≠ none → t.db.plaintexts m ≠ none) {next : SessionCall}
    (own : next.Steady C t.db.plaintexts) : (t.setCall id next).Steady C := by
  intro other call at_
  by_cases here : other = id
  · subst here
    simp only [SessionWorld.setCall, Function.update_self, Option.some.injEq] at at_
    rw [← at_]
    exact own
  · simp only [SessionWorld.setCall, Function.update_of_ne here, calls] at at_
    exact (steady other call at_).keep kept

theorem commits_plaintexts {mode : Mode} {group : SessionGroup}
    (wrote : commit.Commits L group mode iv db after) (m : String) (stored : db.plaintexts m ≠ none) :
    after.plaintexts m ≠ none := by
  have beside := wrote.beside
  cases commit with
  | outbound =>
    rw [beside.2.2]
    exact stored
  | inbound update plaintext =>
    rw [beside.2]
    exact putPlaintext_kept stored
  | handshake =>
    rw [beside.2]
    exact stored

theorem turn_steady (steady : s.Steady C) (at_ : s.calls id = some call) (turn : Turn C P L s id call e s') :
    s'.Steady C := by
  have own := steady id call at_
  cases turn with
  | idle => exact steady
  | entered phase into => exact steady.setCall rfl (fun _ stored => stored) (own.enter into)
  | repeated op =>
    refine steady.setCall rfl (fun _ stored => stored) (own.move (by simp) (fun _ _ _ working => working) fun conversationId peer epoch same _ => ?_)
    exact absurd same (op conversationId peer epoch)
  | read loaded scope existing drawn draws phase | migrated loaded scope snapshot drawn iv ratchets draws phase =>
    exact steady.setCall rfl (fun _ stored => stored) (own.proceed (by simp [phase, SessionPhase.Working]) _)
  | raw loaded scope snapshot phase =>
    exact steady.setCall rfl (fun _ stored => stored) (own.work (by simp [phase, SessionPhase.Working]) (by simp))
  | committed loaded commit iv db event phase made wrote =>
    exact steady.setCall (t := { s with db, staged := s.staged ++ commit.staged }) rfl (commits_plaintexts wrote)
      (own.committed phase made wrote _)

theorem change_steady (steady : s.Steady C) (change : Change C P L s e s') : s'.Steady C := by
  cases change with
  | idle => exact steady
  | turn id call s' at_ turn => exact turn_steady steady at_ turn
  | begun id op phase free fresh => exact steady.setCall rfl (fun _ stored => stored) (.start fresh)
  | outside pendingSends plaintexts kept => exact fun id call at_ => (steady id call at_).keep kept

end SessionWorld

end

end Vimla.DirectChats
