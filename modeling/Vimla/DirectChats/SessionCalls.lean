import Vimla.DirectChats.Sessions
import Vimla.Lib.Runs

/-!
# Calls on sessions

The calls of all tabs of a browser, one transaction at a time and in any order.
A call can lose its lease at any time: it learns of it when it is about to return,
and begins again. One that stands still has crashed with its tab.
-/

namespace Vimla.DirectChats

open Base64 (Bytes)

inductive SessionOp
  | encryptForDevices (input : EncryptInput)
  | decryptMessageWithStatus (input : DecryptInput)
  | acknowledgeRatchetHandshake (conversationId peerDeviceId : String) (interactionEpoch : Int)

/-- A session as an attempt has loaded it. -/
structure Loaded where
  existing : Option RatchetSnapshot
  draw : Draw

inductive SessionResult
  | pending (pending : StoredPendingSend)
  | message (result : DecryptMessageResult)
  | acknowledged

inductive SessionPhase
  /-- A lease is asked for. -/
  | begun
  /-- It is looked up whether the message has been decrypted. -/
  | checking
  | loading (loaded : List Loaded)
  /-- The session that was loaded last is to be protected. -/
  | migrating (loaded : List Loaded) (snapshot : RatchetSnapshot)
  | committing (loaded : List Loaded)
  | reloading
  | finishing (result : SessionResult)
  /-- `none` when an error was thrown. -/
  | ended (result : Option SessionResult)

structure SessionCall where
  op : SessionOp
  attempt : Nat := 0
  phase : SessionPhase := .begun
  /-- How often it has committed. -/
  commits : Nat := 0

def RATCHET_COORDINATION_ATTEMPTS : Nat := 3

/-- What a call commits. -/
inductive RatchetCommit
  | outbound (updates : List RatchetUpdate) (pendingSend : StoredPendingSend) (expectedPendingRevision : Option Nat)
  | inbound (update : RatchetUpdate) (plaintext : StoredPlaintext)
  | handshake (update : RatchetUpdate)

inductive Prepared
  | threw
  | returned (result : SessionResult)
  /-- Other sessions are loaded first. -/
  | more
  | commits (commit : RatchetCommit)

def Prepared.phase (loaded : List Loaded) : Prepared → SessionPhase
  | .threw => .ended none
  | .returned result => .finishing result
  | .more => .loading loaded
  | .commits _ => .committing loaded

def RatchetCommit.updates : RatchetCommit → List RatchetUpdate
  | .outbound updates _ _ => updates
  | .inbound update _ => [update]
  | .handshake update => [update]

def RatchetCommit.staged : RatchetCommit → List StoredPendingSend
  | .outbound _ pendingSend _ => [pendingSend]
  | _ => []

def RatchetCommit.result : RatchetCommit → SessionResult
  | .outbound _ pendingSend _ => .pending pendingSend
  | .inbound _ plaintext => .message ⟨some plaintext.text, false⟩
  | .handshake _ => .acknowledged

def RatchetCommit.run (L : RatchetProtection) (group : SessionGroup) (mode : Mode) (iv : String → Nat) (db : Stores) :
    RatchetCommit → Except CommitError Stores
  | .outbound updates pendingSend expected => commitOutboundRatchets L group mode iv updates pendingSend expected db
  | .inbound update plaintext => commitRatchet L group mode iv update (some plaintext) db
  | .handshake update => commitRatchet L group mode iv update none db

namespace SessionOp

section
variable (C : Client)

def group : SessionOp → SessionGroup
  | .encryptForDevices input => input.group C
  | .decryptMessageWithStatus input => input.group C
  | .acknowledgeRatchetHandshake conversationId _ interactionEpoch =>
    ⟨conversationId, C.material.deviceId, interactionEpoch⟩

/-- The devices whose sessions are loaded, in turn. -/
def peers : SessionOp → List String
  | .encryptForDevices input => (input.activeDevices C).map (·.id)
  | .decryptMessageWithStatus input => [input.message.senderDeviceId]
  | .acknowledgeRatchetHandshake _ peerDeviceId _ => [peerDeviceId]

/-- What is made of the sessions that have been loaded. -/
def prepare : SessionOp → List Loaded → Prepared
  | .encryptForDevices input, loaded =>
    match ((input.activeDevices C).zip loaded).mapM fun l => input.encryptForDevice C l.1 l.2.existing l.2.draw with
    | none => .threw
    | some made =>
      if loaded.length < (input.activeDevices C).length then .more
      else .commits (.outbound (made.map Prod.fst)
        (input.pendingSend C (made.map Prod.snd) ((loaded.getLast?.map (·.draw.now)).getD ""))
        input.expectedPendingRevision)
  | .decryptMessageWithStatus input, [l] =>
    match input.openMessage C l.existing l.draw with
    | .threw => .threw
    | .returned result => .returned (.message result)
    | .opened state text => .commits (.inbound (input.update l.existing state) (input.plaintext text))
  | .acknowledgeRatchetHandshake _ peerDeviceId _, [l] =>
    match l.existing with
    | none => .returned .acknowledged
    | some snapshot =>
      if snapshot.pendingX3dhInit = none then .returned .acknowledged
      else .commits (.handshake (acknowledgeUpdate peerDeviceId snapshot))
  | _, _ => .more

end

end SessionOp

structure SessionWorld where
  db : Stores
  /-- The public keys of the ratchet key pairs that were generated. -/
  generated : List Bytes
  /-- The pending sends that were committed. -/
  staged : List StoredPendingSend
  calls : Nat → Option SessionCall

inductive SessionEvent
  | call (id : Nat) (op : SessionOp)
  | lock (id : Nat)
  | lose (id : Nat)
  | check (id : Nat)
  | load (id : Nat) (draw : Draw)
  | migrate (id : Nat) (draw : Draw) (iv : Nat)
  | commit (id : Nat) (iv : String → Nat)
  | reload (id : Nat)
  | finish (id : Nat)
  /-- Another transaction on the outbox. -/
  | outbox (op : OutboxOp) (iv : String → Nat)
  | migratePendingSend (legacy : StoredPendingSend) (iv : String → Nat)
  | migratePlaintext (legacy : StoredPlaintext) (iv : String → Nat)

/-- The plaintext that `completePendingSend` writes. -/
def completedPlaintext (pending : StoredPendingSend) (messageId serverCreatedAt : String) : StoredPlaintext where
  conversationId := pending.conversationId
  messageId := messageId
  text := pending.plaintext
  kind := pending.kind
  senderUserId := pending.senderUserId
  clientMessageId := some pending.clientMessageId
  contentCommitmentB64 := pending.contentCommitmentB64
  senderDeviceId := some pending.senderDeviceId
  interactionEpoch := some pending.interactionEpoch
  createdAt := serverCreatedAt

def OutboxOp.plaintext : OutboxOp → Option StoredPlaintext
  | .completePendingSend pending messageId serverCreatedAt => some (completedPlaintext pending messageId serverCreatedAt)
  | _ => none

def putPlaintext (plaintexts : String → Option StoredPlaintext) (row : StoredPlaintext) :
    String → Option StoredPlaintext :=
  Function.update plaintexts row.messageId (some row)

/-- What is drawn in the step. -/
def SessionEvent.draw : SessionEvent → Option Draw
  | .load _ draw => some draw
  | .migrate _ draw _ => some draw
  | _ => none

namespace SessionWorld

def setCall (s : SessionWorld) (id : Nat) (call : SessionCall) : SessionWorld :=
  { s with calls := Function.update s.calls id (some call) }

/-- `retryRatchetCoordination`, when an attempt ends with an error that it repeats. -/
def retry (s : SessionWorld) (id : Nat) (call : SessionCall) : SessionWorld :=
  match call.op with
  | .acknowledgeRatchetHandshake .. => s.setCall id { call with phase := .ended none }
  | _ =>
    if call.attempt + 1 < RATCHET_COORDINATION_ATTEMPTS then
      s.setCall id { call with attempt := call.attempt + 1, phase := .begun }
    else s.setCall id { call with phase := .ended none }

section
variable (C : Client) (P : LocalProtection) (L : RatchetProtection) (dateParse : String → Option Int)

/-- Goes on with one more session. -/
def proceed (s : SessionWorld) (id : Nat) (call : SessionCall) (loaded : List Loaded) : SessionWorld :=
  s.setCall id { call with phase := (call.op.prepare C loaded).phase loaded }

def generate (s : SessionWorld) (draw : Draw) : SessionWorld :=
  { s with generated := C.primitives.publicKey draw.ratchet :: s.generated }

def setRatchets (s : SessionWorld) (ratchets : Ratchets) : SessionWorld := { s with db := { s.db with ratchets } }

/-- The record of the session that an attempt loads next, with its scope. -/
def nextScope (call : SessionCall) (loaded : List Loaded) : Option RatchetScope :=
  ((call.op.peers C)[loaded.length]?).map (call.op.group C).scope

def load (s : SessionWorld) (id : Nat) (call : SessionCall) (draw : Draw) : SessionWorld :=
  match call.phase with
  | .loading loaded =>
    match nextScope C call loaded with
    | none => s
    | some scope =>
      let value := s.db.ratchets (ratchetStorageKey scope)
      match decodePersistedRatchet L value scope with
      | none => s.setCall id { call with phase := .ended none }
      | some none => (s.generate C draw).proceed C id call (loaded ++ [⟨none, draw⟩])
      | some (some snapshot) =>
        if value.any (isProtectedRatchetRecord L) then
          (s.generate C draw).proceed C id call (loaded ++ [⟨some snapshot, draw⟩])
        else s.setCall id { call with phase := .migrating loaded snapshot }
  | _ => s

def migrate (s : SessionWorld) (id : Nat) (call : SessionCall) (draw : Draw) (iv : Nat) : SessionWorld :=
  match call.phase with
  | .migrating loaded snapshot =>
    match nextScope C call loaded with
    | none => s
    | some scope =>
      match migrateLegacyRatchet L iv scope snapshot s.db.ratchets with
      | none => s.setCall id { call with phase := .ended none }
      | some ratchets =>
        ((s.setRatchets ratchets).generate C draw).proceed C id call (loaded ++ [⟨some snapshot, draw⟩])
  | _ => s

/-- `loadPlaintext`, and what is made of it. -/
def check (s : SessionWorld) (id : Nat) (call : SessionCall) : SessionWorld :=
  match call.phase, call.op with
  | .checking, .decryptMessageWithStatus input =>
    match s.db.plaintexts input.message.id with
    | none => s.setCall id { call with phase := .loading [] }
    | some stored =>
      match unprotectPlaintext P stored with
      | none => s.setCall id { call with phase := .ended none }
      | some committed =>
        let text := if input.matchesMessage committed then some committed.text else none
        s.setCall id { call with phase := .finishing (.message ⟨text, false⟩) }
  | _, _ => s

def commit (s : SessionWorld) (id : Nat) (call : SessionCall) (iv : String → Nat) : SessionWorld :=
  match call.phase with
  | .committing loaded =>
    match call.op.prepare C loaded with
    | .commits commit =>
      match commit.run L (call.op.group C) (P.mode iv) iv s.db with
      | .ok db =>
        { s with db, staged := s.staged ++ commit.staged }.setCall id
          { call with phase := .finishing commit.result, commits := call.commits + 1 }
      | .error .ratchetStateConflict => s.retry id call
      | .error .pendingSendConflict => s.setCall id { call with phase := .reloading }
      | .error _ => s.setCall id { call with phase := .ended none }
    | _ => s
  | _ => s

/-- `loadPendingSend` after another call has staged the message. -/
def reload (s : SessionWorld) (id : Nat) (call : SessionCall) : SessionWorld :=
  match call.phase, call.op with
  | .reloading, .encryptForDevices input =>
    match (s.db.pendingSends.get input.clientMessageId).bind (unprotectPendingSend P) with
    | none => s.setCall id { call with phase := .ended none }
    | some existing =>
      if input.pendingSendMatchesInput C existing then s.setCall id { call with phase := .finishing (.pending existing) }
      else s.setCall id { call with phase := .ended none }
  | _, _ => s

def lock (s : SessionWorld) (id : Nat) (call : SessionCall) : SessionWorld :=
  match call.phase, call.op with
  | .begun, .decryptMessageWithStatus _ => s.setCall id { call with phase := .checking }
  | .begun, _ => s.setCall id { call with phase := .loading [] }
  | _, _ => s

def lose (s : SessionWorld) (id : Nat) (call : SessionCall) : SessionWorld :=
  match call.phase with
  | .begun => s.retry id call
  | .finishing _ => s.retry id call
  | _ => s

def finish (s : SessionWorld) (id : Nat) (call : SessionCall) : SessionWorld :=
  match call.phase with
  | .finishing result => s.setCall id { call with phase := .ended (some result) }
  | _ => s

/-- A transaction on the outbox that is not of a call here. -/
def outbox (s : SessionWorld) (op : OutboxOp) (iv : String → Nat) : SessionWorld :=
  match op with
  | .commitOutboundRatchets .. => s
  | op =>
    match op.apply dateParse (P.mode iv) s.db.pendingSends with
    | none => s
    | some pendingSends =>
      { s with db := { s.db with
          pendingSends
          plaintexts := op.plaintext.elim s.db.plaintexts fun row =>
            putPlaintext s.db.plaintexts (protectPlaintext (P.mode iv) row) } }

def migratePlaintext (s : SessionWorld) (legacy : StoredPlaintext) (iv : String → Nat) : SessionWorld :=
  match s.db.plaintexts legacy.messageId with
  | none => s
  | some current =>
    if ¬ P.isProtectedLocalString legacy.text ∧ current.protectionVersion = some LEGACY_LOCAL_PROTECTION_VERSION ∧
        current.text = legacy.text ∧ current.conversationId = legacy.conversationId then
      { s with db := { s.db with plaintexts := putPlaintext s.db.plaintexts (protectPlaintext (P.mode iv) legacy) } }
    else s

/-- What the call with the id does, if there is one. -/
def act (s : SessionWorld) (id : Nat) (action : SessionCall → SessionWorld) : SessionWorld :=
  match s.calls id with
  | none => s
  | some call => action call

/-- A call of `encryptForDevices` may throw before it asks for a lease. -/
def begin (s : SessionWorld) (id : Nat) (op : SessionOp) : SessionWorld :=
  match s.calls id, op with
  | none, .encryptForDevices input =>
    s.setCall id { op, phase := if input.refused C then .ended none else .begun }
  | none, _ => s.setCall id { op }
  | some _, _ => s

def step (s : SessionWorld) : SessionEvent → SessionWorld
  | .call id op => s.begin C id op
  | .lock id => s.act id (s.lock id)
  | .lose id => s.act id (s.lose id)
  | .check id => s.act id (s.check P id)
  | .load id draw => s.act id fun call => s.load C L id call draw
  | .migrate id draw iv => s.act id fun call => s.migrate C L id call draw iv
  | .commit id iv => s.act id fun call => s.commit C P L id call iv
  | .reload id => s.act id (s.reload C P id)
  | .finish id => s.act id (s.finish id)
  | .outbox op iv => s.outbox P dateParse op iv
  | .migratePendingSend legacy iv =>
    { s with db := { s.db with
        pendingSends := (DirectChats.migratePendingSend (P.mode iv) legacy s.db.pendingSends).getD s.db.pendingSends } }
  | .migratePlaintext legacy iv => s.migratePlaintext P legacy iv

end

end SessionWorld

end Vimla.DirectChats
