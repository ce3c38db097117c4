import Vimla.E2ee.Ratchet
import Vimla.Lib.Utf16

/-!
# Envelopes

`envelope.ts`: what is encrypted, what is signed with it, and what is checked
before it is decrypted. Ed25519 is a parameter.
-/

namespace Vimla.E2ee

open Base64 (Bytes)
open Js (Units units utf8)

/-- A value of the arrays and objects that are signed. -/
inductive Scalar
  | text (s : Units)
  | number (n : Int)
  | null

def Scalar.json : Scalar → List Char
  | .text s => s.literal
  | .number n => (toString n).toList
  | .null => "null".toList

def Scalar.optional (s : Option Units) : Scalar := s.elim .null .text

/-- Items with commas between them. -/
def commas : List (List Char) → List Char
  | [] => []
  | [item] => item
  | item :: rest => item ++ ',' :: commas rest

/-- `JSON.stringify` of an array. -/
def jsonArray (items : List Scalar) : List Char := '[' :: (commas (items.map Scalar.json) ++ [']'])

/-- `JSON.stringify` of an object. -/
def jsonObject (fields : List (String × Scalar)) : List Char :=
  '\x7b' :: (commas (fields.map fun f => (units f.1).literal ++ ':' :: f.2.json) ++ ['\x7d'])

inductive DirectMessageKind | HUMAN | OPERATOR_INVOKE | OPERATOR_RESPONSE | OPERATOR_ACTION
  deriving DecidableEq

def DirectMessageKind.name : DirectMessageKind → String
  | HUMAN => "HUMAN"
  | OPERATOR_INVOKE => "OPERATOR_INVOKE"
  | OPERATOR_RESPONSE => "OPERATOR_RESPONSE"
  | OPERATOR_ACTION => "OPERATOR_ACTION"

/-- `none` where a field is absent or `null`. -/
structure EnvelopeAssociatedData where
  conversationId : Units
  senderUserId : Units
  senderDeviceId : Units
  clientMessageId : Units
  contentCommitmentB64 : Option Units
  recipientDeviceId : Units
  kind : DirectMessageKind
  interactionEpoch : Int
  routingContext : Option Units

structure X3dhInitHeader where
  identityEd25519Public : Units
  identityX25519Public : Units
  ephemeralPublic : Units
  signedPrekeyId : Int
  oneTimePrekeyId : Option Int
  deriving DecidableEq

structure WireEnvelope where
  headerB64 : String
  ciphertextB64 : String
  dhPublicB64 : String
  messageNumber : Nat
  previousChainLength : Nat
  senderSignatureB64 : String
  x3dhInit : Option X3dhInitHeader

def EnvelopeAssociatedData.items (input : EnvelopeAssociatedData) : List Scalar :=
  [.text (units "VimlaDirectAD5"), .text input.conversationId, .text input.senderUserId, .text input.senderDeviceId,
    .text input.clientMessageId, .optional input.contentCommitmentB64, .text input.recipientDeviceId,
    .text (units input.kind.name), .number input.interactionEpoch, .optional input.routingContext]

def buildAssociatedData (input : EnvelopeAssociatedData) : Bytes := utf8 (jsonArray input.items)

def X3dhInitHeader.fields (init : X3dhInitHeader) : List (String × Scalar) :=
  [("identityEd25519Public", .text init.identityEd25519Public), ("identityX25519Public", .text init.identityX25519Public),
    ("ephemeralPublic", .text init.ephemeralPublic), ("signedPrekeyId", .number init.signedPrekeyId),
    ("oneTimePrekeyId", init.oneTimePrekeyId.elim .null .number)]

def serializedInit (x3dhInit : Option X3dhInitHeader) : Bytes :=
  utf8 (x3dhInit.elim [] fun init => jsonObject init.fields)

def signaturePayload (header ciphertext associatedData : Bytes) (x3dhInit : Option X3dhInitHeader) : Bytes :=
  utf8 "VimlaDirectV1".toList ++ (header ++ (ciphertext ++ (associatedData ++ serializedInit x3dhInit)))

def readU32be : Bytes → Nat
  | [a, b, c, d] => ((a.toNat * 256 + b.toNat) * 256 + c.toNat) * 256 + d.toNat
  | _ => 0

def decodeHeader (bytes : Bytes) : Option RatchetHeader :=
  if bytes.length ≠ 40 then none
  else some {
    dhPublic := bytes.take 32, pn := readU32be ((bytes.drop 32).take 4), n := readU32be ((bytes.drop 36).take 4) }

structure Signatures where
  sign : (secret payload : Bytes) → Bytes
  verify : (publicKey payload signature : Bytes) → Bool

inductive EnvelopeError
  | invalidBase64
  | invalidSignature
  | invalidHeader
  | ratchet (e : RatchetError)
  deriving DecidableEq

section
variable (P : Primitives) (S : Signatures)

def encryptEnvelope (ed25519Secret : Bytes) (s : RatchetState) (plaintext : Bytes) (ad : EnvelopeAssociatedData)
    (x3dhInit : Option X3dhInitHeader) : Attempt WireEnvelope :=
  let associated := buildAssociatedData ad
  (ratchetEncrypt P s plaintext associated).andThen fun sealed s =>
    let headerBytes := encodeHeader sealed.1
    let signature := S.sign ed25519Secret (signaturePayload headerBytes sealed.2 associated x3dhInit)
    (.ok {
      headerB64 := bytesToB64 headerBytes, ciphertextB64 := bytesToB64 sealed.2,
      dhPublicB64 := bytesToB64 sealed.1.dhPublic, messageNumber := sealed.1.n, previousChainLength := sealed.1.pn,
      senderSignatureB64 := bytesToB64 signature, x3dhInit := x3dhInit }, s)

/-- The parts that are checked, or why they are refused. -/
def openEnvelope (senderIdentityEd25519Public : Bytes) (envelope : WireEnvelope) (ad : EnvelopeAssociatedData) :
    Except EnvelopeError (RatchetHeader × Bytes) :=
  match b64ToBytes envelope.headerB64, b64ToBytes envelope.ciphertextB64, b64ToBytes envelope.senderSignatureB64 with
  | some headerBytes, some ciphertext, some signature =>
    let payload := signaturePayload headerBytes ciphertext (buildAssociatedData ad) envelope.x3dhInit
    if S.verify senderIdentityEd25519Public payload signature then
      match decodeHeader headerBytes with
      | none => .error .invalidHeader
      | some header => .ok (header, ciphertext)
    else .error .invalidSignature
  | _, _, _ => .error .invalidBase64

def decryptEnvelope (senderIdentityEd25519Public : Bytes) (s : RatchetState) (envelope : WireEnvelope)
    (ad : EnvelopeAssociatedData) (fresh : Bytes) : Except EnvelopeError Bytes × RatchetState :=
  match openEnvelope S senderIdentityEd25519Public envelope ad with
  | .error e => (.error e, s)
  | .ok (header, ciphertext) =>
    match ratchetDecrypt P s header ciphertext (buildAssociatedData ad) fresh with
    | (.error e, s) => (.error (.ratchet e), s)
    | (.ok plaintext, s) => (.ok plaintext, s)

end

/-!
# X3DH

`x3dh.ts`: how two devices come to a shared key from the prekeys that one of them
has published.
-/

open Base64 (Bytes)
open Js (Units units utf8)

structure IdentityKeyPair where
  ed25519Secret : Bytes
  ed25519Public : Bytes
  x25519Secret : Bytes
  x25519Public : Bytes

structure PublicPreKeyBundle where
  deviceId : String
  identityEd25519Public : String
  identityX25519Public : String
  signedPrekeyId : Nat
  signedPrekeyPublic : String
  signedPrekeySignature : String
  oneTimePrekeyId : Option Nat
  oneTimePrekeyPublic : Option String

structure X3dhInitiation where
  sharedKey : Bytes
  associatedData : Bytes
  initHeader : X3dhInitHeader
  remoteRatchetPublic : Bytes

/-- `none` where the text is not the Base64 of so many bytes. -/
def decodeFixed (value : String) (length : Nat) : Option Bytes := (b64ToBytes value).filter (·.length = length)

def decodePublicKey (value : String) : Option Bytes := decodeFixed value 32

/-- The text of code units that are all ASCII, as those of Base64 are. -/
def asciiText (value : Units) : Option String :=
  (value.mapM fun u => if u.toNat < 128 then some (Char.ofNat u.toNat) else none).map String.ofList

def signedPrekeyMessage (keyId : Nat) (publicKey : Bytes) : Bytes :=
  utf8 ("VimlaSignedPreKeyV1:" ++ toString keyId ++ ":" ++ bytesToB64 publicKey).toList

section
variable (P : Primitives) (S : Signatures) (hkdfSha256 : (ikm : Bytes) → (info : String) → (length : Nat) → Bytes)

def verifySignedPreKey (identityEd25519Public : Bytes) (keyId : Nat) (signedPrekeyPublic signature : Bytes) : Bool :=
  S.verify identityEd25519Public (signedPrekeyMessage keyId signedPrekeyPublic) signature

/-- The part of a one-time prekey; an empty text stands for none. -/
def oneTimePart (secret : Bytes) : Option String → Option Bytes
  | none => some []
  | some text => if text = "" then some [] else (decodePublicKey text).map (P.dh secret)

/-- `fresh` is the ephemeral secret that is generated. -/
def x3dhInitiate (owner : IdentityKeyPair) (remote : PublicPreKeyBundle) (fresh : Bytes) : Option X3dhInitiation := do
  let remoteIdentityEd ← decodePublicKey remote.identityEd25519Public
  let remoteIdentityX ← decodePublicKey remote.identityX25519Public
  let remoteSigned ← decodePublicKey remote.signedPrekeyPublic
  let signature ← decodeFixed remote.signedPrekeySignature 64
  guard (verifySignedPreKey S remoteIdentityEd remote.signedPrekeyId remoteSigned signature)
  let ephemeral := P.keyPair fresh
  let dh1 := P.dh owner.x25519Secret remoteSigned
  let dh2 := P.dh ephemeral.secret remoteIdentityX
  let dh3 := P.dh ephemeral.secret remoteSigned
  let dh4 ← oneTimePart P ephemeral.secret remote.oneTimePrekeyPublic
  return {
    sharedKey := hkdfSha256 (dh1 ++ dh2 ++ dh3 ++ dh4) "VimlaX3DH" 32
    associatedData := owner.ed25519Public ++ remoteIdentityEd
    initHeader := {
      identityEd25519Public := units (bytesToB64 owner.ed25519Public)
      identityX25519Public := units (bytesToB64 owner.x25519Public)
      ephemeralPublic := units (bytesToB64 ephemeral.publicKey)
      signedPrekeyId := remote.signedPrekeyId
      oneTimePrekeyId := remote.oneTimePrekeyId.map (↑) }
    remoteRatchetPublic := remoteSigned }

structure X3dhResponse where
  sharedKey : Bytes
  associatedData : Bytes

def x3dhRespond (owner : IdentityKeyPair) (signedPrekeySecret : Bytes) (oneTimeSecret : Option Bytes)
    (init : X3dhInitHeader) : Option X3dhResponse := do
  let remoteIdentityEd ← (asciiText init.identityEd25519Public).bind decodePublicKey
  let remoteIdentityX ← (asciiText init.identityX25519Public).bind decodePublicKey
  let ephemeral ← (asciiText init.ephemeralPublic).bind decodePublicKey
  let dh1 := P.dh signedPrekeySecret remoteIdentityX
  let dh2 := P.dh owner.x25519Secret ephemeral
  let dh3 := P.dh signedPrekeySecret ephemeral
  let dh4 := oneTimeSecret.elim [] fun secret => P.dh secret ephemeral
  return {
    sharedKey := hkdfSha256 (dh1 ++ dh2 ++ dh3 ++ dh4) "VimlaX3DH" 32
    associatedData := remoteIdentityEd ++ owner.ed25519Public }

end

end Vimla.E2ee
