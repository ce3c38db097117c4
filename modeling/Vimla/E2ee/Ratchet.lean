import Vimla.Lib.Base64
import Vimla.Lib.OrderedMap

/-!
# The double ratchet

`ratchet.ts`. The primitives are parameters. A call changes its state in place,
so what it leaves behind is there also where it throws.
-/

namespace Vimla.E2ee

open Base64 (Bytes)

structure Derived where
  rootKey : Bytes
  chainKey : Bytes

structure ChainStep where
  chainKey : Bytes
  messageKey : Bytes

/-- X25519, the key derivations and the AEAD cipher. -/
structure Primitives where
  publicKey : Bytes → Bytes
  dh : Bytes → Bytes → Bytes
  kdfRoot : Bytes → Bytes → Derived
  kdfChain : Bytes → ChainStep
  aeadEncrypt : (messageKey plaintext associatedData : Bytes) → Bytes
  aeadDecrypt : (messageKey ciphertext associatedData : Bytes) → Option Bytes

def bytesToB64 (bytes : Bytes) : String := String.ofList (Base64.encode bytes)

def b64ToBytes (value : String) : Option Bytes := Base64.decode value.toList

def u32be (n : Nat) : Bytes :=
  [UInt8.ofNat (n / 2 ^ 24), UInt8.ofNat (n / 2 ^ 16), UInt8.ofNat (n / 2 ^ 8), UInt8.ofNat n]

def MAX_SKIP : Nat := 200

structure RatchetHeader where
  dhPublic : Bytes
  n : Nat
  pn : Nat
  deriving DecidableEq

structure SerializedRatchetState where
  dhsSecret : String
  dhsPublic : String
  dhrPublic : Option String
  rootKey : String
  sendingChainKey : Option String
  receivingChainKey : Option String
  ns : Nat
  nr : Nat
  pn : Nat
  skipped : OrderedMap String String

structure RatchetState where
  dhsSecret : Bytes
  dhsPublic : Bytes
  dhrPublic : Option Bytes
  rootKey : Bytes
  sendingChainKey : Option Bytes
  receivingChainKey : Option Bytes
  ns : Nat
  nr : Nat
  pn : Nat
  skipped : OrderedMap String Bytes

inductive RatchetError
  | sendingChainNotInitialized
  | receivingChainNotInitialized
  | tooManySkipped
  | noRemoteKey
  | authenticationFailed
  deriving DecidableEq

/-- What a call comes to, and the state it leaves behind. -/
abbrev Attempt (α : Type) := Except RatchetError α × RatchetState

def Attempt.andThen {α β : Type} (a : Attempt α) (f : α → RatchetState → Attempt β) : Attempt β :=
  match a with
  | (.error e, s) => (.error e, s)
  | (.ok x, s) => f x s

structure KeyPair where
  secret : Bytes
  publicKey : Bytes

variable (P : Primitives)

def Primitives.keyPair (secret : Bytes) : KeyPair := ⟨secret, P.publicKey secret⟩

/-- `fresh` is the secret of the pair that is generated. -/
def initRatchetInitiator (sharedKey remoteRatchetPublic fresh : Bytes) : RatchetState :=
  let pair := P.keyPair fresh
  let derived := P.kdfRoot sharedKey (P.dh pair.secret remoteRatchetPublic)
  { dhsSecret := pair.secret, dhsPublic := pair.publicKey, dhrPublic := some remoteRatchetPublic,
    rootKey := derived.rootKey, sendingChainKey := some derived.chainKey, receivingChainKey := none,
    ns := 0, nr := 0, pn := 0, skipped := .empty }

def initRatchetResponder (sharedKey : Bytes) (localRatchet : KeyPair) : RatchetState :=
  { dhsSecret := localRatchet.secret, dhsPublic := localRatchet.publicKey, dhrPublic := none,
    rootKey := sharedKey, sendingChainKey := none, receivingChainKey := none,
    ns := 0, nr := 0, pn := 0, skipped := .empty }

def encodeHeader (header : RatchetHeader) : Bytes := header.dhPublic ++ u32be header.pn ++ u32be header.n

def skippedKey (dhPublic : Bytes) (n : Nat) : String := bytesToB64 dhPublic ++ ":" ++ toString n

def ratchetEncrypt (s : RatchetState) (plaintext associatedData : Bytes) : Attempt (RatchetHeader × Bytes) :=
  match s.sendingChainKey with
  | none => (.error .sendingChainNotInitialized, s)
  | some chain =>
    let derived := P.kdfChain chain
    let header : RatchetHeader := { dhPublic := s.dhsPublic, n := s.ns, pn := s.pn }
    let s := { s with sendingChainKey := some derived.chainKey, ns := s.ns + 1 }
    (.ok (header, P.aeadEncrypt derived.messageKey plaintext (associatedData ++ encodeHeader header)), s)

/-- The turns of the loop in `skipMessageKeys`. -/
def skipLoop : Nat → Bytes → RatchetState → Attempt Unit
  | 0, _, s => (.ok (), s)
  | count + 1, chain, s =>
    let derived := P.kdfChain chain
    let s := { s with receivingChainKey := some derived.chainKey }
    match s.dhrPublic with
    | none => (.error .noRemoteKey, s)
    | some remote =>
      skipLoop count derived.chainKey
        { s with skipped := s.skipped.set (skippedKey remote s.nr) derived.messageKey, nr := s.nr + 1 }

def skipMessageKeys (s : RatchetState) (limit : Nat) : Attempt Unit :=
  match s.receivingChainKey with
  | none => (.ok (), s)
  | some chain =>
    if limit > s.nr + MAX_SKIP then (.error .tooManySkipped, s) else skipLoop P (limit - s.nr) chain s

def decryptWith (s : RatchetState) (messageKey : Bytes) (header : RatchetHeader) (ciphertext associatedData : Bytes) :
    Attempt Bytes :=
  match P.aeadDecrypt messageKey ciphertext (associatedData ++ encodeHeader header) with
  | none => (.error .authenticationFailed, s)
  | some plaintext => (.ok plaintext, s)

def dhRatchet (s : RatchetState) (header : RatchetHeader) (fresh : Bytes) : RatchetState :=
  let recv := P.kdfRoot s.rootKey (P.dh s.dhsSecret header.dhPublic)
  let next := P.keyPair fresh
  let send := P.kdfRoot recv.rootKey (P.dh next.secret header.dhPublic)
  { s with
    pn := s.ns, ns := 0, nr := 0, dhrPublic := some header.dhPublic, receivingChainKey := some recv.chainKey,
    dhsSecret := next.secret, dhsPublic := next.publicKey, rootKey := send.rootKey,
    sendingChainKey := some send.chainKey }

/-- The next key of the receiving chain. -/
def receiveNext (s : RatchetState) (header : RatchetHeader) (ciphertext associatedData : Bytes) : Attempt Bytes :=
  match s.receivingChainKey with
  | none => (.error .receivingChainNotInitialized, s)
  | some chain =>
    let derived := P.kdfChain chain
    decryptWith P { s with receivingChainKey := some derived.chainKey, nr := s.nr + 1 } derived.messageKey header
      ciphertext associatedData

def ratchetDecrypt (s : RatchetState) (header : RatchetHeader) (ciphertext associatedData fresh : Bytes) :
    Attempt Bytes :=
  let key := skippedKey header.dhPublic header.n
  match s.skipped.get key with
  | some messageKey => decryptWith P { s with skipped := s.skipped.erase key } messageKey header ciphertext associatedData
  | none =>
    let turned : Attempt Unit :=
      if s.dhrPublic = some header.dhPublic then (.ok (), s)
      else (skipMessageKeys P s header.pn).andThen fun _ s => (.ok (), dhRatchet P s header fresh)
    (turned.andThen fun _ s => skipMessageKeys P s header.n).andThen fun _ s =>
      receiveNext P s header ciphertext associatedData

def serializeRatchet (s : RatchetState) : SerializedRatchetState :=
  { dhsSecret := bytesToB64 s.dhsSecret, dhsPublic := bytesToB64 s.dhsPublic, dhrPublic := s.dhrPublic.map bytesToB64,
    rootKey := bytesToB64 s.rootKey, sendingChainKey := s.sendingChainKey.map bytesToB64,
    receivingChainKey := s.receivingChainKey.map bytesToB64, ns := s.ns, nr := s.nr, pn := s.pn,
    skipped := .ofEntries (s.skipped.entries.map fun e => (e.1, bytesToB64 e.2)) }

/-- An empty text stands for no key. -/
def optionalKey : Option String → Option (Option Bytes)
  | none => some none
  | some text => if text = "" then some none else (b64ToBytes text).map some

def deserializeRatchet (t : SerializedRatchetState) : Option RatchetState := do
  let entries ← t.skipped.entries.mapM fun e => (b64ToBytes e.2).map fun value => (e.1, value)
  let dhsSecret ← b64ToBytes t.dhsSecret
  let dhsPublic ← b64ToBytes t.dhsPublic
  let dhrPublic ← optionalKey t.dhrPublic
  let rootKey ← b64ToBytes t.rootKey
  let sendingChainKey ← optionalKey t.sendingChainKey
  let receivingChainKey ← optionalKey t.receivingChainKey
  return { dhsSecret, dhsPublic, dhrPublic, rootKey, sendingChainKey, receivingChainKey,
           ns := t.ns, nr := t.nr, pn := t.pn, skipped := .ofEntries entries }

end Vimla.E2ee
