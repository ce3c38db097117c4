import Vimla.E2ee.Turns
import Vimla.E2ee.Envelope

/-!
# Skipped keys and stored states

What `skipMessageKeys` leaves behind, and that a state is read back as it was
written.
-/

namespace Vimla.E2ee

open Base64 (Bytes)
open Option Function OrderedMap String

section Skipping
variable {P : Primitives} {s : RatchetState} {remote chain : Bytes}

/-- The keys of a chain are kept under their numbers. -/
def gather (P : Primitives) (remote : Bytes) : Nat → Bytes → Nat → OrderedMap String Bytes → OrderedMap String Bytes
  | 0, _, _, m => m
  | count + 1, chain, nr, m =>
    gather P remote count (P.next chain) (nr + 1) (m.set (skippedKey remote nr) (P.kdfChain chain).messageKey)

variable {nr limit : Nat} {m : OrderedMap String Bytes} {a : Except RatchetError Unit} {s' : RatchetState}

theorem gather_get_other {key : String} (count : Nat)
    (other : ∀ i, nr ≤ i → i < nr + count → key ≠ skippedKey remote i) :
    (gather P remote count chain nr m).get key = m.get key := by
  induction count generalizing chain nr m with
  | zero => rfl
  | succ count ih =>
    rw [gather, ih fun i low high => other i (by omega) (by omega)]
    exact get_set_ne (other nr (by omega) (by omega))

theorem gather_get (count : Nat) {i : Nat} (within : i < count) :
    (gather P remote count chain nr m).get (skippedKey remote (nr + i)) =
      some (P.kdfChain (P.next^[i] chain)).messageKey := by
  induction count generalizing chain nr m i with
  | zero => omega
  | succ count ih =>
    rw [gather]
    cases i with
    | zero =>
      rw [gather_get_other]
      · exact get_set_self
      · intro i low _ same
        have := (skippedKey_inj.1 same).2
        omega
    | succ i =>
      rw [show nr + (i + 1) = nr + 1 + i by omega, ih (by omega), iterate_succ_apply]

theorem skipLoop_ok (count : Nat) (at_ : s.receivingChainKey = some chain) (known : s.dhrPublic = some remote) :
    skipLoop P count chain s = (.ok (), { s with
      receivingChainKey := some (P.next^[count] chain), nr := s.nr + count,
      skipped := gather P remote count chain s.nr s.skipped }) := by
  induction count generalizing s chain with
  | zero =>
    cases s
    simp only at at_
    simp [skipLoop, gather, at_]
  | succ count ih =>
    cases s
    subst at_ known
    simp only [skipLoop]
    rw [ih rfl rfl]
    simp [gather, iterate_succ_apply, Primitives.next, Nat.add_assoc, Nat.add_comm 1 count]

theorem skipMessageKeys_ok (at_ : s.receivingChainKey = some chain) (known : s.dhrPublic = some remote)
    (few : limit ≤ s.nr + MAX_SKIP) : skipMessageKeys P s limit = (.ok (), { s with
      receivingChainKey := some (P.next^[limit - s.nr] chain), nr := s.nr + (limit - s.nr),
      skipped := gather P remote (limit - s.nr) chain s.nr s.skipped }) := by
  rw [skipMessageKeys, at_]
  simp only [Nat.not_lt.2 few, if_false]
  exact skipLoop_ok _ at_ known

theorem skipMessageKeys_closed (at_ : s.receivingChainKey = none) : skipMessageKeys P s limit = (.ok (), s) := by
  rw [skipMessageKeys, at_]

/-- However far it comes, the root key and the own key pair stay. -/
theorem skipLoop_keeps (count : Nat) (h : skipLoop P count chain s = (a, s')) :
    s'.rootKey = s.rootKey ∧ s'.dhsSecret = s.dhsSecret := by
  induction count generalizing s chain with
  | zero =>
    obtain ⟨rfl, rfl⟩ := Prod.mk.inj h
    exact ⟨rfl, rfl⟩
  | succ count ih =>
    simp only [skipLoop] at h
    split at h
    · obtain ⟨rfl, rfl⟩ := Prod.mk.inj h
      exact ⟨rfl, rfl⟩
    · have kept := ih h
      exact kept

theorem skipMessageKeys_keeps (h : skipMessageKeys P s limit = (a, s')) :
    s'.rootKey = s.rootKey ∧ s'.dhsSecret = s.dhsSecret := by
  unfold skipMessageKeys at h
  iterate 2
    split at h
    · obtain ⟨rfl, rfl⟩ := Prod.mk.inj h
      exact ⟨rfl, rfl⟩
  · exact skipLoop_keeps _ h

end Skipping

/-- No key of the state is empty. -/
def Storable (s : RatchetState) : Prop :=
  s.dhrPublic ≠ some [] ∧ s.sendingChainKey ≠ some [] ∧ s.receivingChainKey ≠ some []

theorem b64ToBytes_bytesToB64 (bytes : Bytes) : b64ToBytes (bytesToB64 bytes) = some bytes := by
  rw [b64ToBytes, bytesToB64, toList_ofList, Base64.decode_encode]

theorem optionalKey_read {key : Option Bytes} (solid : key ≠ some []) :
    optionalKey (key.map bytesToB64) = some key := by
  cases key with
  | none => rfl
  | some bytes =>
    have written : bytesToB64 bytes ≠ "" := by
      intro empty
      have list := congrArg String.toList empty
      simp only [bytesToB64, toList_ofList, toList_empty] at list
      exact solid (congrArg some (Base64.encode_eq_nil.1 list))
    simp [map_some, optionalKey, if_neg written, b64ToBytes_bytesToB64]

/-- A stored state is read back as it was. -/
theorem deserialize_serialize {s : RatchetState} (solid : Storable s) :
    deserializeRatchet (serializeRatchet s) = some s := by
  have entries : (ofEntries (s.skipped.entries.map fun e => (e.1, bytesToB64 e.2))).entries =
      s.skipped.entries.map fun e => (e.1, bytesToB64 e.2) :=
    entries_ofEntries (by simpa [comp_def] using s.skipped.nodup)
  have read : ((s.skipped.entries.map fun e => (e.1, bytesToB64 e.2)).mapM fun e =>
      (b64ToBytes e.2).map fun value => (e.1, value)) = some s.skipped.entries := by
    generalize s.skipped.entries = entries
    induction entries with
    | nil => rfl
    | cons e rest ih => simp [b64ToBytes_bytesToB64, ih]
  simp only [deserializeRatchet, serializeRatchet, entries, read, optionalKey_read solid.1, optionalKey_read solid.2.1,
    optionalKey_read solid.2.2, b64ToBytes_bytesToB64, bind_eq_bind, bind_some, ofEntries_entries]
  rfl

/-!
# The own key pair

Encrypting counts on with the own key pair; decrypting keeps it, or takes one that
is generated.
-/

section
variable {P : Primitives} {S : Signatures} {s s' : RatchetState} {header : RatchetHeader}

theorem ratchetEncrypt_own {plaintext ad ciphertext : Bytes}
    (sealed : ratchetEncrypt P s plaintext ad = (.ok (header, ciphertext), s')) :
    (header.dhPublic = s.dhsPublic ∧ header.n = s.ns) ∧ s'.dhsPublic = s.dhsPublic ∧ s'.ns = s.ns + 1 := by
  unfold ratchetEncrypt at sealed
  split at sealed
  · cases sealed
  · cases sealed
    exact ⟨⟨rfl, rfl⟩, rfl, rfl⟩

theorem encryptEnvelope_own {secret plaintext : Bytes} {ad : EnvelopeAssociatedData} {init : Option X3dhInitHeader}
    {envelope : WireEnvelope} (sealed : encryptEnvelope P S secret s plaintext ad init = (.ok envelope, s')) :
    (envelope.dhPublicB64 = bytesToB64 s.dhsPublic ∧ envelope.messageNumber = s.ns) ∧
      s'.dhsPublic = s.dhsPublic ∧ s'.ns = s.ns + 1 := by
  simp only [encryptEnvelope] at sealed
  cases attempt : ratchetEncrypt P s plaintext (buildAssociatedData ad) with
  | mk result t =>
    cases result with
    | error e => simp [attempt, Attempt.andThen] at sealed
    | ok parts =>
      obtain ⟨⟨key, number⟩, own⟩ := ratchetEncrypt_own attempt
      simp only [attempt, Attempt.andThen, Prod.mk.injEq, Except.ok.injEq] at sealed
      obtain ⟨rfl, rfl⟩ := sealed
      exact ⟨⟨congrArg bytesToB64 key, number⟩, own⟩

/-- The own key pair and what has been sent with it. -/
def RatchetState.own (s : RatchetState) : Bytes × Nat := (s.dhsPublic, s.ns)

theorem skipLoop_own {count : Nat} {result : Except RatchetError Unit}
    (skips : skipLoop P count chain s = (result, s')) : s'.own = s.own := by
  induction count generalizing chain s with
  | zero =>
    cases skips
    rfl
  | succ count ih =>
    simp only [skipLoop] at skips
    split at skips
    · cases skips
      rfl
    · exact (ih skips).trans rfl

theorem skipMessageKeys_own {limit : Nat} {result : Except RatchetError Unit}
    (skips : skipMessageKeys P s limit = (result, s')) : s'.own = s.own := by
  unfold skipMessageKeys at skips
  split at skips
  · cases skips
    rfl
  · split at skips
    · cases skips
      rfl
    · exact skipLoop_own skips

variable {result : Except RatchetError Bytes}

theorem decryptWith_own {key ciphertext ad : Bytes}
    (opens : decryptWith P s key header ciphertext ad = (result, s')) : s' = s := by
  unfold decryptWith at opens
  split at opens <;> cases opens <;> rfl

theorem receiveNext_own {ciphertext ad : Bytes}
    (opens : receiveNext P s header ciphertext ad = (result, s')) : s'.own = s.own := by
  unfold receiveNext at opens
  split at opens
  · cases opens
    rfl
  · rw [decryptWith_own opens]
    rfl

theorem Attempt.andThen_ok {α β : Type} {a : Attempt α} {f : α → RatchetState → Attempt β} {y : β}
    (ok : a.andThen f = (.ok y, s')) : ∃ x t, a = (.ok x, t) ∧ f x t = (.ok y, s') := by
  obtain ⟨_ | x, t⟩ := a
  · cases ok
  · exact ⟨x, t, rfl, ok⟩

/-- A call that decrypts keeps the own key pair, or has generated a new one; the first message of a responder brings one. -/
theorem ratchetDecrypt_own {ciphertext ad fresh plaintext : Bytes}
    (opens : ratchetDecrypt P s header ciphertext ad fresh = (.ok plaintext, s')) :
    (s'.own = s.own ∧ (s.dhrPublic.isSome ∨ s.skipped ≠ .empty)) ∨ s'.own = (P.publicKey fresh, 0) := by
  simp only [ratchetDecrypt] at opens
  split at opens
  · rename_i kept
    refine .inl ⟨by rw [decryptWith_own opens]; rfl, .inr ?_⟩
    intro empty
    simp [empty, OrderedMap.get, OrderedMap.empty] at kept
  · obtain ⟨_, t, gone, opens⟩ := Attempt.andThen_ok opens
    obtain ⟨_, r, turned, skips⟩ := Attempt.andThen_ok gone
    have after : s'.own = r.own := (receiveNext_own opens).trans (skipMessageKeys_own skips)
    split at turned
    · rename_i known
      cases turned
      exact .inl ⟨after, .inl (by simp [known])⟩
    · obtain ⟨_, q, _, same⟩ := Attempt.andThen_ok turned
      cases same
      exact .inr after

theorem deserialize_own {t : RatchetState} (read : deserializeRatchet (serializeRatchet s) = some t) : t.own = s.own := by
  iterate 2 obtain ⟨_, _, read⟩ := bind_eq_some_iff.1 read
  obtain ⟨pub, kept, read⟩ := bind_eq_some_iff.1 read
  iterate 4 obtain ⟨_, _, read⟩ := bind_eq_some_iff.1 read
  cases read
  rw [show (serializeRatchet s).dhsPublic = bytesToB64 s.dhsPublic from rfl, b64ToBytes_bytesToB64] at kept
  cases kept
  rfl

end

end Vimla.E2ee
