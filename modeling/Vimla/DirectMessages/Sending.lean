import Vimla.DirectMessages.Messages

/-!
# Sends and what runs beside them

A call of `sendWithStatus` goes read by read to its transaction, which is one
step: it holds the lock of the pair. Between two steps of a call any others can
be taken; a call that fails for a reason of its own takes no further one.
-/

namespace Vimla.DirectMessages

open Base64 (Bytes)
open E2ee (Signatures EnvelopeAssociatedData signaturePayload buildAssociatedData b64ToBytes bytesToB64)
open Js (Units units)

/-- What the service is given. -/
structure Server where
  signatures : Signatures
  verifySignedPreKey : VerifySignedPrekey
  serializeDirectRoutingMentions : List MessageMentionInput → Units
  readInit : ReadInit
  maxCiphertextBytes : Nat := 65536
  maxEnvelopes : Nat := 32

/-- A call, with the mentions as the router has resolved them. -/
structure SendCall where
  actorUserId : String
  conversationId : String
  input : SendDirectMessage
  resolvedMentions : List MessageMentionView := []
  resolved : (resolvedMentions.map (·.toMessageMentionInput)).Perm input.mentions

structure SendResult where
  message : DirectMessageView
  replayed : Bool

abbrev Answer := Except DirectChatError SendResult

/-- The next thing that a call does; `since` is the step of its first read of a device. -/
inductive SendPoint
  | member
  | replay (memberIds : List String)
  | device (memberIds : List String)
  | devices (memberIds : List String) (senderDevice : UserCryptoDevice) (since : Nat)
  | transaction (memberIds : List String) (senderDevice : UserCryptoDevice) (since : Nat)
  | rejected
  | answered (answer : Answer)

def hexDigits (byte : UInt8) : List Char := [Nat.digitChar (byte.toNat / 16), Nat.digitChar (byte.toNat % 16)]

/-- `none` for `null`. -/
def humanClientIdFromCommitment (commitmentB64 : String) : Option String := do
  let hash ← b64ToBytes commitmentB64
  guard (hash.length = 32 ∧ bytesToB64 hash = commitmentB64)
  let bytes := ((hash.take 16).modify 6 fun b => (b &&& 0x0f) ||| 0x40).modify 8 fun b => (b &&& 0x3f) ||| 0x80
  let h := bytes.flatMap hexDigits
  return String.ofList (h.take 8 ++ '-' :: (h.drop 8).take 4 ++ '-' :: (h.drop 12).take 4 ++ '-' :: (h.drop 16).take 4 ++
    '-' :: h.drop 20)

namespace SendCall

variable (call : SendCall) (S : Server)

def key : String × String × String := (call.conversationId, call.actorUserId, call.input.clientMessageId)

def routingContext : Option Units :=
  if call.input.mentions = [] then none else some (S.serializeDirectRoutingMentions call.input.mentions)

def associatedData (senderDevice : UserCryptoDevice) (envelope : WireEnvelopeDto) : EnvelopeAssociatedData where
  conversationId := units call.conversationId
  senderUserId := units call.actorUserId
  senderDeviceId := units senderDevice.id
  clientMessageId := units call.input.clientMessageId
  contentCommitmentB64 := call.input.contentCommitmentB64.map units
  recipientDeviceId := units envelope.recipientDeviceId
  kind := call.input.kind
  interactionEpoch := call.input.interactionEpoch
  routingContext := call.routingContext S

/-- The signature is the sender device's; `none` where a text is not base64. -/
def signatureValid (senderDevice : UserCryptoDevice) (envelope : WireEnvelopeDto) : Option Bool := do
  let header ← b64ToBytes envelope.headerB64
  let ciphertext ← b64ToBytes envelope.ciphertextB64
  let identity ← b64ToBytes senderDevice.identityEd25519Public
  let signature ← b64ToBytes envelope.senderSignatureB64
  return S.signatures.verify identity
    (signaturePayload header ciphertext (buildAssociatedData (call.associatedData S senderDevice envelope)) envelope.x3dhInit)
    signature

/-- The error of a text that cannot be decoded is not one of Direct Chats. -/
def assertEnvelope (senderDevice : UserCryptoDevice) (memberDevices : List UserCryptoDevice) (envelope : WireEnvelopeDto) :
    Except (Option DirectChatError) Unit :=
  if Js.length envelope.ciphertextB64 > S.maxCiphertextBytes then
    .error (some ⟨.VALIDATION_ERROR, "Ciphertext is too large"⟩)
  else if memberDevices.all fun d => d.id ≠ envelope.recipientDeviceId then
    .error (some ⟨.TAMPERED, "Envelope recipient is not an active chat device"⟩)
  else match call.signatureValid S senderDevice envelope with
    | none => .error none
    | some true => .ok ()
    | some false => .error (some ⟨.TAMPERED, "Envelope signature is invalid"⟩)

/-- The envelopes cover every active device of a member. -/
def covers (memberDevices : List UserCryptoDevice) : Bool :=
  let requiredDeviceIds := (memberDevices.map (·.id)).dedup
  let providedDeviceIds := (call.input.envelopes.map (·.recipientDeviceId)).dedup
  requiredDeviceIds.length = providedDeviceIds.length && requiredDeviceIds.all (· ∈ providedDeviceIds)

/-- What is checked once the devices are read. -/
def check (senderDevice : UserCryptoDevice) (memberDevices : List UserCryptoDevice) : Except (Option DirectChatError) Unit :=
  if memberDevices.all fun d => d.userId = call.actorUserId then
    .error (some ⟨.RECIPIENT_DEVICE_MISSING, "The other participant has no active device"⟩)
  else if ¬ call.covers memberDevices then
    .error (some ⟨.VALIDATION_ERROR, "Envelopes must cover every active member device"⟩)
  else if call.input.kind = .HUMAN ∧
      ¬ call.input.contentCommitmentB64.any (fun commitment => commitment ≠ "" ∧
        humanClientIdFromCommitment commitment = some call.input.clientMessageId) then
    .error (some ⟨.TAMPERED, "HUMAN content commitment is invalid"⟩)
  else if call.input.kind ≠ .HUMAN ∧ call.input.contentCommitmentB64.isSome then
    .error (some ⟨.TAMPERED, "Unexpected content commitment"⟩)
  else call.input.envelopes.forM (call.assertEnvelope S senderDevice memberDevices)

def findExactReplay (store : ChatStore) : Except DirectChatError (Option DirectMessageView) :=
  match store.messages.find? fun m => m.key = call.key ∧
      store.conversations.any fun c => c.id = call.conversationId ∧ call.actorUserId ∈ c.members with
  | none => .ok none
  | some existing => (replayOf S.readInit existing call.input).map some

/-- The rows that the transaction creates. -/
def message (senderDevice : UserCryptoDevice) (now : Nat) (newId : String) : DirectMessage where
  id := newId
  conversationId := call.conversationId
  senderUserId := call.actorUserId
  senderDeviceId := senderDevice.id
  clientMessageId := call.input.clientMessageId
  contentCommitmentB64 := call.input.contentCommitmentB64
  kind := call.input.kind
  interactionEpoch := call.input.interactionEpoch
  createdAt := now
  envelopes := call.input.envelopes.map (storedEnvelope senderDevice.id)
  mentions := call.resolvedMentions

end SendCall

/-- The unique columns of an envelope. -/
def StoredEnvelope.key (e : StoredEnvelope) : String × String × String × Nat :=
  (e.senderDeviceId, e.recipientDeviceId, e.dhPublicB64, e.messageNumber)

/-- The unique indexes that a new message must meet. -/
def ChatStore.unique (store : ChatStore) (m : DirectMessage) : Bool :=
  (store.messages.all fun other => other.id ≠ m.id ∧ other.key ≠ m.key ∧
    (m.envelopes.all fun e => other.envelopes.all fun e' => e'.key ≠ e.key) ∧
    (m.mentions.all fun mention => other.mentions.all fun mention' => mention'.id ≠ mention.id)) &&
  (m.envelopes.map (·.recipientDeviceId)).Nodup && (m.mentions.map (·.id)).Nodup &&
    (m.mentions.map fun mention => (mention.startOffset, mention.endOffset)).Nodup

inductive TransactionResult
  | done (store : ChatStore) (answer : Answer)
  | notUnique

namespace SendCall

variable (call : SendCall) (S : Server)

def transaction (store : ChatStore) (memberIds : List String) (senderDevice : UserCryptoDevice) (now : Nat) (newId : String) :
    TransactionResult :=
  let unavailable : Answer := .error ⟨.FORBIDDEN, "Direct Chat interaction is unavailable"⟩
  match memberIds.find? (· ≠ call.actorUserId) with
  | none => .done store unavailable
  | some peerUserId =>
    let usersExist := store.usersExist call.actorUserId peerUserId
    match call.findExactReplay S store with
    | .error e => .done store (.error e)
    | .ok (some transactionalReplay) => .done store (.ok ⟨transactionalReplay, true⟩)
    | .ok none =>
      if ¬ (usersExist && store.canInteract call.actorUserId peerUserId) then .done store unavailable
      else if (store.conversations.find? (·.id = call.conversationId)).all
          fun current => current.interactionEpoch ≠ call.input.interactionEpoch then
        .done store (.error ⟨.CONFLICT, "Direct Chat interaction state changed"⟩)
      else
        let message := call.message senderDevice now newId
        if store.unique message then
          .done { store with messages := store.messages ++ [message] }
            (.ok ⟨toMessageView S.readInit message senderDevice.id call.resolvedMentions, false⟩)
        else .notUnique

/-- A step of the call; an error of another kind leaves it without an answer. -/
def turn (store : ChatStore) (now : Nat) (newId : String) : SendPoint → ChatStore × SendPoint
  | .member => (store, match store.requireMemberConversation call.actorUserId call.conversationId with
    | .error e => .answered (.error e)
    | .ok conversation => .replay conversation.members)
  | .replay memberIds => (store, match call.findExactReplay S store with
    | .error e => .answered (.error e)
    | .ok (some replay) => .answered (.ok ⟨replay, true⟩)
    | .ok none => .device memberIds)
  | .device memberIds => (store, match store.requireActiveDevice call.actorUserId call.input.senderDeviceId with
    | .error e => .answered (.error e)
    | .ok senderDevice =>
      if call.input.envelopes.length > S.maxEnvelopes then .answered (.error ⟨.VALIDATION_ERROR, "Too many envelopes"⟩)
      else .devices memberIds senderDevice now)
  | .devices memberIds senderDevice since =>
    let memberDevices := store.devices.filter fun d => d.userId ∈ memberIds ∧ d.revokedAt = none
    (store, match call.check S senderDevice memberDevices with
    | .error (some e) => .answered (.error e)
    | .error none => .devices memberIds senderDevice since
    | .ok () => .transaction memberIds senderDevice since)
  | .transaction memberIds senderDevice _ =>
    match call.transaction S store memberIds senderDevice now newId with
    | .done store answer => (store, .answered answer)
    | .notUnique => (store, .rejected)
  | .rejected => (store, match call.findExactReplay S store with
    | .error e => .answered (.error e)
    | .ok (some replay) => .answered (.ok ⟨replay, true⟩)
    | .ok none => .answered (.error ⟨.TAMPERED, "Message envelope was rejected"⟩))
  | .answered answer => (store, .answered answer)

end SendCall

structure DirectChats where
  now : Nat := 0
  store : ChatStore
  /-- Calls with the steps they have taken. -/
  sends : Nat → Option (SendCall × SendPoint × Nat) := fun _ => none
  /-- Calls of `create` that have passed their checks. -/
  creating : List (String × String) := []
  /-- Devices that calls of `revoke` have read. -/
  revoking : List String := []
  /-- The epochs that `prepareSend` has answered with. -/
  prepared : List (String × Int) := []

inductive ChatEvent
  | signUp (userId : String)
  | blockUser (actorUserId : String) (target : Option String)
  | unblockUser (actorUserId : String) (target : Option String)
  | create (actorUserId peerUserId : String) (peerProfile : Bool)
  | createCommit (actorUserId peerUserId newId : String)
  | prepareSend (actorUserId conversationId senderDeviceId : String)
  | send (id : Nat) (call : SendCall)
  | turn (id : Nat) (newId : String)
  | register (actorUserId : String) (input : RegisterCryptoDevice)
  | revoke (actorUserId deviceId : String)
  | revokeWrite (deviceId : String)

namespace DirectChats

variable (S : Server) (w : DirectChats)

def withStore (store : Option ChatStore) : DirectChats := { w with store := store.getD w.store }

def turn (id : Nat) (newId : String) : DirectChats :=
  match w.sends id with
  | none => w
  | some (call, point, taken) =>
    let (store, point) := call.turn S w.store w.now newId point
    { w with store := store, sends := Function.update w.sends id (some (call, point, taken + 1)) }

def act : ChatEvent → DirectChats
  | .signUp userId => { w with store := { w.store with users := userId :: w.store.users } }
  | .blockUser actorUserId target => w.withStore (w.store.blockUser actorUserId target)
  | .unblockUser actorUserId target => w.withStore (w.store.unblockUser actorUserId target)
  | .create actorUserId peerUserId peerProfile =>
    if w.store.createAllowed actorUserId peerUserId peerProfile then
      { w with creating := (actorUserId, peerUserId) :: w.creating }
    else w
  | .createCommit actorUserId peerUserId newId =>
    if (actorUserId, peerUserId) ∈ w.creating then w.withStore (w.store.create newId actorUserId peerUserId) else w
  | .prepareSend actorUserId conversationId senderDeviceId =>
    match w.store.prepareSend actorUserId conversationId senderDeviceId with
    | .error _ => w
    | .ok epoch => { w with prepared := (conversationId, epoch) :: w.prepared }
  | .send id call => if (w.sends id).isSome then w else { w with sends := Function.update w.sends id (some (call, .member, 0)) }
  | .turn id newId => w.turn S id newId
  | .register actorUserId input => w.withStore (w.store.register S.verifySignedPreKey w.now actorUserId input).toOption
  | .revoke actorUserId deviceId =>
    if w.store.revocable actorUserId deviceId then { w with revoking := deviceId :: w.revoking } else w
  | .revokeWrite deviceId => if deviceId ∈ w.revoking then w.withStore (w.store.revoke w.now deviceId) else w

def step (ev : ChatEvent) : DirectChats := { w.act S ev with now := w.now + 1 }

end DirectChats

end Vimla.DirectMessages
