import Vimla.DirectChats.RatchetStore
import Vimla.Lib.Sorting

/-!
# What calls compute

`session.ts`: what `encryptForDevices` and `decryptMessageWithStatus` make of the
session that they have loaded, before they commit it.
-/

namespace Vimla.DirectChats

open Base64 (Bytes)
open E2ee (DirectMessageKind Primitives Signatures IdentityKeyPair KeyPair PublicPreKeyBundle RatchetState X3dhInitHeader
  WireEnvelope EnvelopeAssociatedData serializeRatchet deserializeRatchet b64ToBytes)
open Js (Units units utf8)

/-- The device of this browser, as its material is decoded. -/
structure StoredDeviceMaterial where
  deviceId : String
  named : deviceId ≠ ""
  identity : IdentityKeyPair
  signedPrekeys : OrderedMap String KeyPair
  oneTimePrekeys : OrderedMap String KeyPair

/-- What the calls are given. -/
structure Client where
  primitives : Primitives
  signatures : Signatures
  hkdfSha256 : (ikm : Bytes) → (info : String) → (length : Nat) → Bytes
  localeCompare : String → String → Ordering
  serializeDirectRoutingMentions : List String → Units
  directHumanClientMessageId : String → Option String
  directHumanContentCommitment : String → Option String
  textDecoder : Bytes → String
  material : StoredDeviceMaterial

structure CryptoDeviceView where
  id : String
  userId : String
  revoked : Bool

structure EncryptInput where
  conversationId : String
  interactionEpoch : Int
  senderUserId : String
  peerUserId : Option String
  clientMessageId : String
  contentCommitmentB64 : Option String
  kind : DirectMessageKind
  plaintext : String
  devices : List CryptoDeviceView
  mentions : List String
  operatorIntent : Option StoredOperatorIntent
  operatorOutput : Option StoredOperatorOutputLink
  expectedPendingRevision : Option Nat

/-- What an attempt fetches, generates and reads off the clock while it loads a session; `none` when the bundles
cannot be fetched. -/
structure Draw where
  bundles : Option (List PublicPreKeyBundle)
  ephemeral : Bytes
  ratchet : Bytes
  now : String

structure DirectMessageView where
  id : String
  senderUserId : String
  senderDeviceId : String
  clientMessageId : String
  contentCommitmentB64 : Option String
  kind : DirectMessageKind
  interactionEpoch : Int
  createdAt : String
  mentions : List String

/-- A message with an envelope whose sender's identity is known. -/
structure DecryptInput where
  conversationId : String
  message : DirectMessageView
  envelope : WireEnvelopeDto
  senderIdentityEd25519Public : String

/-- The text is what is given to `decodeDirectPlaintext`. -/
structure DecryptMessageResult where
  text : Option String
  needsBootstrap : Bool

namespace EncryptInput

section
variable (C : Client) (input : EncryptInput)

def group : SessionGroup := ⟨input.conversationId, C.material.deviceId, input.interactionEpoch⟩

def activeDevices : List CryptoDeviceView :=
  Js.sort (fun left right => C.localeCompare left.id right.id) (input.devices.filter fun item => ¬ item.revoked)

/-- Whether it throws before it asks for a lease. -/
def refused : Bool :=
  (input.kind = .HUMAN ∧ (C.directHumanClientMessageId input.plaintext ≠ some input.clientMessageId ∨
    C.directHumanContentCommitment input.plaintext ≠ input.contentCommitmentB64)) ∨
  (input.kind ≠ .HUMAN ∧ input.contentCommitmentB64.isSome) ∨ input.activeDevices C = []

def routingContext (mentions : List String) : Option Units :=
  if mentions = [] then none else some (C.serializeDirectRoutingMentions mentions)

def associatedData (device : CryptoDeviceView) : EnvelopeAssociatedData where
  conversationId := units input.conversationId
  senderUserId := units input.senderUserId
  senderDeviceId := units C.material.deviceId
  clientMessageId := units input.clientMessageId
  contentCommitmentB64 := input.contentCommitmentB64.map units
  recipientDeviceId := units device.id
  kind := input.kind
  interactionEpoch := input.interactionEpoch
  routingContext := routingContext C input.mentions

/-- A session with a device that has none yet. -/
def initiate (device : CryptoDeviceView) (draw : Draw) : Option (RatchetState × X3dhInitHeader) := do
  let bundles ← draw.bundles
  let bundle ← bundles.find? (·.deviceId = device.id)
  let initiated ← E2ee.x3dhInitiate C.primitives C.signatures C.hkdfSha256 C.material.identity bundle draw.ephemeral
  return (E2ee.initRatchetInitiator C.primitives initiated.sharedKey initiated.remoteRatchetPublic draw.ratchet,
    initiated.initHeader)

/-- The state to encrypt with, and the init header to attach. -/
def session (device : CryptoDeviceView) (existing : Option RatchetSnapshot) (draw : Draw) :
    Option (RatchetState × Option X3dhInitHeader) :=
  match existing with
  | none => (initiate C device draw).map fun begun => (begun.1, some begun.2)
  | some snapshot => (deserializeRatchet snapshot.state).map fun state => (state, snapshot.pendingX3dhInit)

/-- The turn of the loop for one device; `none` where it throws. -/
def encryptForDevice (device : CryptoDeviceView) (existing : Option RatchetSnapshot) (draw : Draw) :
    Option (RatchetUpdate × WireEnvelopeDto) := do
  let (state, x3dhInit) ← session C device existing draw
  match E2ee.encryptEnvelope C.primitives C.signatures C.material.identity.ed25519Secret state
    (utf8 input.plaintext.toList) (input.associatedData C device) x3dhInit with
  | (.error _, _) => none
  | (.ok envelope, state) =>
    some ({
      peerDeviceId := device.id, expectedVersion := snapshotVersion existing, state := serializeRatchet state,
      pendingX3dhInit := x3dhInit },
    { recipientDeviceId := device.id, headerB64 := envelope.headerB64, ciphertextB64 := envelope.ciphertextB64,
      dhPublicB64 := envelope.dhPublicB64, messageNumber := envelope.messageNumber,
      previousChainLength := envelope.previousChainLength, senderSignatureB64 := envelope.senderSignatureB64,
      x3dhInit := envelope.x3dhInit })

def pendingSend (envelopes : List WireEnvelopeDto) (createdAt : String) : StoredPendingSend where
  revision := some (input.expectedPendingRevision.elim 1 (· + 1))
  conversationId := input.conversationId
  clientMessageId := input.clientMessageId
  contentCommitmentB64 := input.contentCommitmentB64
  senderUserId := input.senderUserId
  senderDeviceId := C.material.deviceId
  interactionEpoch := input.interactionEpoch
  peerUserId := input.peerUserId
  kind := input.kind
  envelopes := envelopes
  mentions := input.mentions
  plaintext := input.plaintext
  createdAt := createdAt
  operatorIntent := input.operatorIntent
  operatorOutput := input.operatorOutput

def pendingSendMatchesInput (pending : StoredPendingSend) : Bool :=
  pending.conversationId = input.conversationId ∧ pending.senderUserId = input.senderUserId ∧
    pending.senderDeviceId = C.material.deviceId ∧ pending.contentCommitmentB64 = input.contentCommitmentB64 ∧
    pending.interactionEpoch = input.interactionEpoch ∧ pending.kind = input.kind ∧ pending.plaintext = input.plaintext ∧
    pending.mentions = input.mentions ∧
    pending.operatorIntent.map (·.clientRequestId) = input.operatorIntent.map (·.clientRequestId) ∧
    pending.operatorOutput.map (·.parentClientMessageId) = input.operatorOutput.map (·.parentClientMessageId) ∧
    pending.operatorOutput.map (·.outputId) = input.operatorOutput.map (·.outputId)

end

end EncryptInput

namespace DecryptInput

section
variable (C : Client) (input : DecryptInput)

def group : SessionGroup := ⟨input.conversationId, C.material.deviceId, input.message.interactionEpoch⟩

def associatedData : EnvelopeAssociatedData where
  conversationId := units input.conversationId
  senderUserId := units input.message.senderUserId
  senderDeviceId := units input.message.senderDeviceId
  clientMessageId := units input.message.clientMessageId
  contentCommitmentB64 := input.message.contentCommitmentB64.map units
  recipientDeviceId := units input.envelope.recipientDeviceId
  kind := input.message.kind
  interactionEpoch := input.message.interactionEpoch
  routingContext := EncryptInput.routingContext C input.message.mentions

def toWire (envelope : WireEnvelopeDto) : WireEnvelope where
  headerB64 := envelope.headerB64
  ciphertextB64 := envelope.ciphertextB64
  dhPublicB64 := envelope.dhPublicB64
  messageNumber := envelope.messageNumber
  previousChainLength := envelope.previousChainLength
  senderSignatureB64 := envelope.senderSignatureB64
  x3dhInit := envelope.x3dhInit

inductive Opening
  | returned (result : DecryptMessageResult)
  | threw
  | opened (state : RatchetState) (text : String)

/-- The session that an init header begins. -/
def respond (signed : KeyPair) (init : X3dhInitHeader) : Option RatchetState :=
  let otk := init.oneTimePrekeyId.bind fun id => C.material.oneTimePrekeys.get (toString id)
  (E2ee.x3dhRespond C.primitives C.hkdfSha256 C.material.identity signed.secret (otk.map (·.secret)) init).map
    fun shared => E2ee.initRatchetResponder shared.sharedKey signed

def decryptWith (state : RatchetState) (fresh : Bytes) : Opening :=
  match b64ToBytes input.senderIdentityEd25519Public with
  | none => .threw
  | some sender =>
    match E2ee.decryptEnvelope C.primitives C.signatures sender state (toWire input.envelope) (input.associatedData C)
      fresh with
    | (.error _, _) => .threw
    | (.ok plaintext, state) => .opened state (C.textDecoder plaintext)

def openMessage (existing : Option RatchetSnapshot) (draw : Draw) : Opening :=
  match existing, input.envelope.x3dhInit with
  | some snapshot, _ =>
    match deserializeRatchet snapshot.state with
    | none => .threw
    | some state => input.decryptWith C state draw.ratchet
  | none, some init =>
    match C.material.signedPrekeys.get (toString init.signedPrekeyId) with
    | none => .returned ⟨none, false⟩
    | some signed =>
      match respond C signed init with
      | none => .threw
      | some state => input.decryptWith C state draw.ratchet
  | none, none => .returned ⟨none, true⟩

def update (existing : Option RatchetSnapshot) (state : RatchetState) : RatchetUpdate where
  peerDeviceId := input.message.senderDeviceId
  expectedVersion := snapshotVersion existing
  state := serializeRatchet state
  pendingX3dhInit := existing.bind (·.pendingX3dhInit)

def plaintext (text : String) : StoredPlaintext where
  conversationId := input.conversationId
  messageId := input.message.id
  text := text
  kind := input.message.kind
  senderUserId := input.message.senderUserId
  clientMessageId := some input.message.clientMessageId
  contentCommitmentB64 := input.message.contentCommitmentB64
  senderDeviceId := some input.message.senderDeviceId
  interactionEpoch := some input.message.interactionEpoch
  createdAt := input.message.createdAt

/-- `cachedDirectPlaintextMatchesMessage`. -/
def matchesMessage (cached : StoredPlaintext) : Bool :=
  { cached with protectionVersion := none, text := "" } = input.plaintext ""

end

end DecryptInput

/-- `state` is the one that was loaded. -/
def acknowledgeUpdate (peerDeviceId : String) (state : RatchetSnapshot) : RatchetUpdate where
  peerDeviceId := peerDeviceId
  expectedVersion := state.stateVersion
  state := state.state
  pendingX3dhInit := none

/-- How a committed session follows from the one before it, with what was drawn for it. -/
inductive Computed (C : Client) (previous : Option RatchetSnapshot) (draw : Draw) : RatchetSnapshot → Prop
  | encrypted (input : EncryptInput) (device : CryptoDeviceView) (update : RatchetUpdate) (envelope : WireEnvelopeDto)
      (made : input.encryptForDevice C device previous draw = some (update, envelope)) : Computed C previous draw update.next
  | decrypted (input : DecryptInput) (state : RatchetState) (text : String)
      (opened : input.openMessage C previous draw = .opened state text) :
      Computed C previous draw (input.update previous state).next
  | acknowledged (peerDeviceId : String) (snapshot : RatchetSnapshot) (loaded : previous = some snapshot) :
      Computed C previous draw (acknowledgeUpdate peerDeviceId snapshot).next

end Vimla.DirectChats
