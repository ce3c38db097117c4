import Vimla.E2ee.Authenticity

/-!
# First contact

`keys.ts`: the prekeys that a device publishes, and the conversation that another
device begins with them. One key of a device signs its prekeys and its messages.
-/

namespace Vimla.E2ee

open Base64 (Bytes)
open List World
open Js (units utf8 utf8_append)

structure SignedPreKeyPair where
  keyId : Nat
  secret : Bytes
  publicKey : Bytes
  signature : Bytes

structure OneTimePreKeyPair where
  keyId : Nat
  secret : Bytes
  publicKey : Bytes

section
variable (P : Primitives) (S : Signatures) (ed25519Public : Bytes → Bytes)

/-- `ed` and `x` are the secrets that are generated. -/
def generateIdentity (ed x : Bytes) : IdentityKeyPair where
  ed25519Secret := ed
  ed25519Public := ed25519Public ed
  x25519Secret := x
  x25519Public := P.publicKey x

def generateSignedPreKey (identity : IdentityKeyPair) (keyId : Nat) (fresh : Bytes) : SignedPreKeyPair where
  keyId := keyId
  secret := fresh
  publicKey := P.publicKey fresh
  signature := S.sign identity.ed25519Secret (signedPrekeyMessage keyId (P.publicKey fresh))

def generateOneTimePreKey (keyId : Nat) (fresh : Bytes) : OneTimePreKeyPair where
  keyId := keyId
  secret := fresh
  publicKey := P.publicKey fresh

def publicBundleFrom (deviceId : String) (identity : IdentityKeyPair) (signed : SignedPreKeyPair)
    (oneTime : Option OneTimePreKeyPair) : PublicPreKeyBundle where
  deviceId := deviceId
  identityEd25519Public := bytesToB64 identity.ed25519Public
  identityX25519Public := bytesToB64 identity.x25519Public
  signedPrekeyId := signed.keyId
  signedPrekeyPublic := bytesToB64 signed.publicKey
  signedPrekeySignature := bytesToB64 signed.signature
  oneTimePrekeyId := oneTime.map (·.keyId)
  oneTimePrekeyPublic := oneTime.map fun pair => bytesToB64 pair.publicKey

/-- A first contact, by the secrets that are drawn for it. -/
structure Contact where
  initiatorEd : Bytes
  initiatorX : Bytes
  responderEd : Bytes
  responderX : Bytes
  deviceId : String
  signedId : Nat
  signed : Bytes
  oneTime : Option (Nat × Bytes)
  ephemeral : Bytes
  first : Bytes

namespace Contact
variable (c : Contact)

def initiator : IdentityKeyPair := generateIdentity P ed25519Public c.initiatorEd c.initiatorX

def responder : IdentityKeyPair := generateIdentity P ed25519Public c.responderEd c.responderX

def signedPrekey : SignedPreKeyPair := generateSignedPreKey P S (c.responder P ed25519Public) c.signedId c.signed

def oneTimePrekey : Option OneTimePreKeyPair := c.oneTime.map fun drawn => generateOneTimePreKey P drawn.1 drawn.2

def bundle : PublicPreKeyBundle :=
  publicBundleFrom c.deviceId (c.responder P ed25519Public) (c.signedPrekey P S ed25519Public) (c.oneTimePrekey P)

variable (hkdfSha256 : Bytes → String → Nat → Bytes)

def initiation : Option X3dhInitiation :=
  x3dhInitiate P S hkdfSha256 (c.initiator P ed25519Public) (c.bundle P S ed25519Public) c.ephemeral

def response (init : X3dhInitHeader) : Option X3dhResponse :=
  x3dhRespond P hkdfSha256 (c.responder P ed25519Public) (c.signedPrekey P S ed25519Public).secret
    ((c.oneTimePrekey P).map (·.secret)) init

/-- The two sessions that follow from the keys that each side has come to. -/
def opened (initiated : X3dhInitiation) (responded : X3dhResponse) : World where
  state
    | .initiator => initRatchetInitiator P initiated.sharedKey initiated.remoteRatchetPublic c.first
    | .responder =>
      let signed := c.signedPrekey P S ed25519Public
      initRatchetResponder responded.sharedKey ⟨signed.secret, signed.publicKey⟩
  generated := [P.publicKey c.first, (c.signedPrekey P S ed25519Public).publicKey]
  sent := []
  delivered := []

/-- Keys and signatures have the lengths that they have in X25519 and Ed25519. -/
structure Sized : Prop where
  identities : ∀ secret ∈ [c.initiatorEd, c.responderEd], (ed25519Public secret).length = 32
  keys : ∀ secret ∈ [c.initiatorX, c.responderX, c.signed, c.ephemeral] ++ (c.oneTime.map (·.2)).toList,
    (P.publicKey secret).length = 32
  signature : (c.signedPrekey P S ed25519Public).signature.length = 64

/-- Both sides come to the same, from the prekeys that the header names. -/
structure Agree (initiated : X3dhInitiation) (responded : X3dhResponse) : Prop where
  initiates : c.initiation P S ed25519Public hkdfSha256 = some initiated
  responds : c.response P S ed25519Public hkdfSha256 initiated.initHeader = some responded
  signedId : initiated.initHeader.signedPrekeyId = c.signedId
  oneTimeId : initiated.initHeader.oneTimePrekeyId = c.oneTime.map (↑·.1)
  ratchet : initiated.remoteRatchetPublic = P.publicKey c.signed
  sharedKey : responded.sharedKey = initiated.sharedKey
  associatedData : responded.associatedData = initiated.associatedData

end Contact
end

theorem decodeFixed_bytesToB64 {bytes : Bytes} {length : Nat} (whole : bytes.length = length) :
    decodeFixed (bytesToB64 bytes) length = some bytes := by
  simp [decodeFixed, b64ToBytes_bytesToB64, whole]

theorem mapM_ascii {text : List Char} (ascii : ∀ c ∈ text, c.toNat < 128) :
    (text.map Js.Units.unit).mapM (fun u => if u.toNat < 128 then some (Char.ofNat u.toNat) else none) = some text := by
  induction text with
  | nil => rfl
  | cons c text ih =>
    obtain ⟨low, rest⟩ := forall_mem_cons.1 ascii
    simp [Js.Units.unit_toNat (show c.toNat < 0x10000 by omega), low, ih rest, Char.ofNat_toNat]

theorem asciiText_bytesToB64 (bytes : Bytes) : asciiText (units (bytesToB64 bytes)) = some (bytesToB64 bytes) := by
  rw [asciiText, units_bytesToB64, mapM_ascii (Base64.encode_ascii bytes)]
  rfl

section
variable {P : Primitives} {S : Signatures} {ed25519Public : Bytes → Bytes} {hkdfSha256 : Bytes → String → Nat → Bytes}

variable (hkdfSha256) in
theorem Contact.agree {c : Contact} (ideal : Ideal P) (sized : c.Sized P S ed25519Public)
    (verifies : verifySignedPreKey S (ed25519Public c.responderEd) c.signedId (P.publicKey c.signed)
      (c.signedPrekey P S ed25519Public).signature = true) :
    ∃ initiated responded, c.Agree P S ed25519Public hkdfSha256 initiated responded := by
  have keys := sized.keys
  have initiatorEd := decodeFixed_bytesToB64 (sized.identities c.initiatorEd (by simp))
  have responderEd := decodeFixed_bytesToB64 (sized.identities c.responderEd (by simp))
  have initiatorX := decodeFixed_bytesToB64 (keys c.initiatorX (by simp))
  have responderX := decodeFixed_bytesToB64 (keys c.responderX (by simp))
  have signed := decodeFixed_bytesToB64 (keys c.signed (by simp))
  have ephemeral := decodeFixed_bytesToB64 (keys c.ephemeral (by simp))
  have signature := decodeFixed_bytesToB64 sized.signature
  have oneTime : oneTimePart P c.ephemeral ((c.oneTimePrekey P).map fun pair => bytesToB64 pair.publicKey) =
      some (((c.oneTimePrekey P).map (·.secret)).elim [] fun secret => P.dh secret (P.publicKey c.ephemeral)) := by
    unfold oneTimePrekey
    cases drawn : c.oneTime with
    | none => rfl
    | some pair =>
      have whole : (P.publicKey pair.2).length = 32 := keys _ (by simp [drawn])
      have filled : bytesToB64 (P.publicKey pair.2) ≠ "" := by
        intro empty
        have := Base64.encode_eq_nil.1 (String.ofList_inj.1 empty)
        simp [this] at whole
      simp [oneTimePart, generateOneTimePreKey, filled, decodePublicKey, decodeFixed_bytesToB64 whole,
        ideal.dh_comm c.ephemeral]
  simp only [signedPrekey, responder, generateSignedPreKey, generateIdentity] at verifies signature
  apply Exists.intro
  apply Exists.intro
  constructor
  · simp only [initiation, bundle, publicBundleFrom, x3dhInitiate, signedPrekey, responder, initiator, generateSignedPreKey,
      generateIdentity, decodePublicKey, responderEd, responderX, signed, signature, verifies, Primitives.keyPair, oneTime,
      Option.bind_eq_bind, Option.bind_some, guard_true, Option.pure_def]
    rfl
  · simp only [response, x3dhRespond, signedPrekey, responder, generateSignedPreKey, generateIdentity,
      asciiText_bytesToB64, Option.bind_some, decodePublicKey, initiatorEd, initiatorX, ephemeral, Option.bind_eq_bind,
      Option.pure_def]
    rfl
  · rfl
  · simp [oneTimePrekey, generateOneTimePreKey, Function.comp_def]
  · rfl
  · rw [ideal.dh_comm c.initiatorX, ideal.dh_comm c.ephemeral c.responderX, ideal.dh_comm c.ephemeral c.signed]
  · rfl

variable (P S ed25519Public hkdfSha256) in
/-- Both sides of a first contact come to one key, and the sessions begun with it deliver. -/
theorem first_contact_delivers (ideal : Ideal P)
    (verifies : ∀ secret payload, S.verify (ed25519Public secret) payload (S.sign secret payload) = true)
    (c : Contact) (sized : c.Sized P S ed25519Public) (distinct : P.publicKey c.first ≠ P.publicKey c.signed) :
    ∃ initiated responded, c.Agree P S ed25519Public hkdfSha256 initiated responded ∧
      ∀ evs, Runs.Along (step P) (Admitted P) (c.opened P S ed25519Public initiated responded) evs →
        Runs.Along (step P) (Delivers P) (c.opened P S ed25519Public initiated responded) evs := by
  obtain ⟨initiated, responded, agree⟩ := Contact.agree hkdfSha256 ideal sized (verifies _ _)
  have start : c.opened P S ed25519Public initiated responded = World.start P initiated.sharedKey c.signed c.first := by
    rw [Contact.opened, agree.ratchet, agree.sharedKey]
    rfl
  refine ⟨initiated, responded, agree, fun evs admitted => ?_⟩
  rw [start] at admitted ⊢
  exact Runs.along_of_invariant (fun _ => Consistent.delivers ideal) (fun _ => Consistent.step ideal) admitted
    (consistent_start distinct)

end

/-- Signatures that are the secret, which is the public key too, and what is signed, cut off. -/
def cutOff : Signatures where
  sign secret payload := (secret ++ payload ++ replicate 64 0).take 64
  verify publicKey payload signature := signature = (publicKey ++ payload ++ replicate 64 0).take 64

def anaToBoris : Contact where
  initiatorEd := replicate 32 1
  initiatorX := replicate 31 2
  responderEd := replicate 32 3
  responderX := replicate 31 4
  deviceId := "d"
  signedId := 7
  signed := replicate 31 5
  oneTime := some (8, replicate 31 6)
  ephemeral := replicate 31 7
  first := replicate 31 8

theorem anaToBoris_sized : anaToBoris.Sized symbolic cutOff id := ⟨by decide, by decide, by
  rw [Contact.signedPrekey, generateSignedPreKey, cutOff, length_take, length_append, length_replicate]
  omega⟩

theorem first_contact_delivers_anaToBoris :
    ∃ initiated responded, anaToBoris.Agree symbolic cutOff id (fun ikm _ _ => ikm) initiated responded := by
  obtain ⟨initiated, responded, agree, _⟩ := first_contact_delivers symbolic cutOff id (fun ikm _ _ => ikm)
    symbolic_ideal (fun secret payload => by simp [cutOff]) anaToBoris anaToBoris_sized (by decide)
  exact ⟨initiated, responded, agree⟩

end Vimla.E2ee
