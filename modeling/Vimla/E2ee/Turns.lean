import Vimla.E2ee.Ratchet

/-!
# Turns

Each turn of the ratchet adds a key pair, of one party and the other in turn. A
turn is the list of the secrets so far, the last one first; the first of all is
the signed prekey. The root key of a turn and the chain that is sent on in it
follow from the list.
-/

namespace Vimla.E2ee

open Base64 (Bytes)
open List Function Nat

def Primitives.next (P : Primitives) (chain : Bytes) : Bytes := (P.kdfChain chain).chainKey

/-- What is relied on: both sides of a Diffie-Hellman exchange agree, the cipher
opens what it has sealed and fails under another key, and distinct derivations
give distinct keys, so that none leads back to where it began. -/
structure Ideal (P : Primitives) : Prop where
  dh_comm : ∀ a b, P.dh a (P.publicKey b) = P.dh b (P.publicKey a)
  decrypts : ∀ key plaintext ad, P.aeadDecrypt key (P.aeadEncrypt key plaintext ad) ad = some plaintext
  otherKey : ∀ key other plaintext ad ad', other ≠ key → P.aeadDecrypt other (P.aeadEncrypt key plaintext ad) ad' = none
  chain_injective : ∀ r d r' d', (P.kdfRoot r d).chainKey = (P.kdfRoot r' d').chainKey → r = r' ∧ d = d'
  next_injective : Injective P.next
  message_injective : Injective fun chain => (P.kdfChain chain).messageKey
  chain_acyclic : ∀ chain n, 0 < n → P.next^[n] chain ≠ chain
  root_acyclic : ∀ r ds, ds ≠ [] → ds.foldl (fun r d => (P.kdfRoot r d).rootKey) r ≠ r
  public_ne_nil : ∀ secret, P.publicKey secret ≠ []
  chain_ne_nil : ∀ r d, (P.kdfRoot r d).chainKey ≠ []
  next_ne_nil : ∀ chain, P.next chain ≠ []

section Keys
variable (P : Primitives) (shared : Bytes)

def rootKey : List Bytes → Bytes
  | a :: b :: rest => (P.kdfRoot (rootKey (b :: rest)) (P.dh a (P.publicKey b))).rootKey
  | _ => shared

/-- The chain that is sent on in a turn, after so many messages. -/
def chainKey (n : Nat) : List Bytes → Bytes
  | a :: b :: rest => P.next^[n] (P.kdfRoot (rootKey P shared (b :: rest)) (P.dh a (P.publicKey b))).chainKey
  | _ => []

def messageKey (n : Nat) (turn : List Bytes) : Bytes := (P.kdfChain (chainKey P shared n turn)).messageKey

variable {P shared} {turn : List Bytes} {a b : Bytes} {n : Nat}

theorem next_chainKey : P.next (chainKey P shared n (a :: b :: turn)) = chainKey P shared (n + 1) (a :: b :: turn) := by
  simp [chainKey, iterate_succ_apply']

theorem iterate_chainKey (m : Nat) :
    P.next^[m] (chainKey P shared n (a :: b :: turn)) = chainKey P shared (n + m) (a :: b :: turn) := by
  simp [chainKey, ← iterate_add_apply, add_comm n m]

end Keys

section Distinct
variable {P : Primitives} (ideal : Ideal P) {shared : Bytes}
include ideal

variable {n : Nat} {turn : List Bytes}

theorem iterate_ne {chain : Bytes} {m : Nat} (less : m < n) : P.next^[m] chain ≠ P.next^[n] chain := by
  intro same
  obtain ⟨k, rfl⟩ := Nat.exists_eq_add_of_lt less
  rw [show m + k + 1 = m + (k + 1) by omega, iterate_add_apply] at same
  exact ideal.chain_acyclic chain (k + 1) (by omega) (ideal.next_injective.iterate m same).symm

/-- Two places of one chain have two keys. -/
theorem messageKey_ne {m : Nat} (long : 2 ≤ turn.length) (other : m ≠ n) :
    messageKey P shared m turn ≠ messageKey P shared n turn := by
  intro same
  obtain _ | ⟨a, _ | ⟨b, rest⟩⟩ := turn
  · simp at long
  · simp at long
  · have chains := ideal.message_injective same
    obtain less | more := lt_or_gt_of_ne other
    · exact iterate_ne ideal less chains
    · exact iterate_ne ideal more chains.symm

omit ideal in
theorem rootKey_append (before : List Bytes) (started : turn ≠ []) :
    ∃ ds : List Bytes, ds.length = before.length ∧ rootKey P shared (before ++ turn) =
      ds.foldl (fun r d => (P.kdfRoot r d).rootKey) (rootKey P shared turn) := by
  induction before with
  | nil => exact ⟨[], rfl, rfl⟩
  | cons a before ih =>
    obtain ⟨ds, length, root⟩ := ih
    obtain ⟨b, rest, split⟩ := exists_cons_of_ne_nil (l := before ++ turn) (by simp [started])
    refine ⟨ds ++ [P.dh a (P.publicKey b)], by simp [length], ?_⟩
    rw [foldl_append, ← root, cons_append, split]
    rfl

variable {later : List Bytes}

/-- The root key of a later turn is another one. -/
theorem rootKey_ne (started : turn ≠ []) (suffix : turn <:+ later) (other : turn ≠ later) :
    rootKey P shared later ≠ rootKey P shared turn := by
  obtain ⟨before, rfl⟩ := suffix
  obtain ⟨ds, length, root⟩ : ∃ ds : List Bytes, ds.length = before.length ∧ rootKey P shared (before ++ turn) =
    ds.foldl (fun r d => (P.kdfRoot r d).rootKey) (rootKey P shared turn) := rootKey_append before started
  rw [root]
  apply ideal.root_acyclic
  rintro rfl
  exact other (by simp [length_eq_zero_iff.1 length.symm])

/-- A chain that is derived in a later turn gives none of the keys of this one. -/
theorem messageKey_ne_of_later {a d : Bytes} (started : turn ≠ []) (suffix : turn <:+ later)
    (other : turn ≠ later) : (P.kdfChain (P.next^[n] (P.kdfRoot (rootKey P shared later) d).chainKey)).messageKey ≠
      messageKey P shared n (a :: turn) := by
  intro same
  obtain ⟨b, rest, rfl⟩ := exists_cons_of_ne_nil started
  have chains := ideal.next_injective.iterate n (ideal.message_injective same)
  exact rootKey_ne ideal started suffix other (ideal.chain_injective _ _ _ _ chains).1

theorem chainKey_ne_nil {a b : Bytes} {rest : List Bytes} : chainKey P shared n (a :: b :: rest) ≠ [] := by
  cases n with
  | zero => exact ideal.chain_ne_nil _ _
  | succ n =>
    rw [← next_chainKey]
    exact ideal.next_ne_nil _

end Distinct

theorem bytesToB64_injective : Injective bytesToB64 := fun _ _ same =>
  Base64.encode_injective (String.ofList_inj.1 same)

theorem toString_injective : Injective (toString : Nat → String) := by
  intro m n same
  have digits := congrArg String.toList same
  simp only [toString_eq_repr, toList_repr] at digits
  rw [← ofDigitChars_ten_toDigits (n := m), digits, ofDigitChars_ten_toDigits]

theorem skippedKey_inj {a b : Bytes} {m n : Nat} : skippedKey a m = skippedKey b n ↔ a = b ∧ m = n := by
  constructor
  · intro same
    have lists := congrArg String.toList same
    have colon : ':' ∉ Base64.encode a := fun mem => (Base64.encode_solid a ':' mem).2 rfl
    have digits : ':' ∉ (toString m).toList := by
      intro mem
      rw [toString_eq_repr, toList_repr] at mem
      have digit := isDigit_of_mem_toDigits (by decide) (by decide) mem
      simp at digit
    simp only [skippedKey, bytesToB64, String.toList_append, String.toList_ofList, append_assoc] at lists
    obtain ⟨bytes, _, number⟩ := (append_cons_inj_of_notMem colon digits).1 lists
    exact ⟨Base64.encode_injective bytes, toString_injective (String.toList_injective number)⟩
  · rintro ⟨rfl, rfl⟩
    rfl

end Vimla.E2ee
