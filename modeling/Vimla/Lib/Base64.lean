import Mathlib

/-!
# Base64

Bytes as text in the alphabet of 64 characters with padding, and back. A decoder
leaves out white space and takes text without padding as well.
-/

namespace Base64

open List

abbrev Bytes := List UInt8

def digit (n : Nat) : Char :=
  if n < 26 then Char.ofNat (65 + n)
  else if n < 52 then Char.ofNat (71 + n)
  else if n < 62 then Char.ofNat (n - 4)
  else if n = 62 then '+'
  else '/'

def value (c : Char) : Option Nat :=
  let n := c.toNat
  if 65 ≤ n ∧ n ≤ 90 then some (n - 65)
  else if 97 ≤ n ∧ n ≤ 122 then some (n - 71)
  else if 48 ≤ n ∧ n ≤ 57 then some (n + 4)
  else if n = 43 then some 62
  else if n = 47 then some 63
  else none

/-- Three bytes as four numbers below 64. -/
def sextets : Bytes → List Nat
  | a :: b :: c :: rest =>
    a.toNat / 4 :: (a.toNat % 4 * 16 + b.toNat / 16) :: (b.toNat % 16 * 4 + c.toNat / 64) :: c.toNat % 64 ::
      sextets rest
  | [a, b] => [a.toNat / 4, a.toNat % 4 * 16 + b.toNat / 16, b.toNat % 16 * 4]
  | [a] => [a.toNat / 4, a.toNat % 4 * 16]
  | [] => []

/-- Bits that do not fill a byte at the end are dropped. -/
def octets : List Nat → Bytes
  | w :: x :: y :: z :: rest =>
    UInt8.ofNat (w * 4 + x / 16) :: UInt8.ofNat (x % 16 * 16 + y / 4) :: UInt8.ofNat (y % 4 * 64 + z) :: octets rest
  | [w, x, y] => [UInt8.ofNat (w * 4 + x / 16), UInt8.ofNat (x % 16 * 16 + y / 4)]
  | [w, x] => [UInt8.ofNat (w * 4 + x / 16)]
  | _ => []

def encode (bytes : Bytes) : List Char :=
  (sextets bytes).map digit ++ List.replicate ((3 - bytes.length % 3) % 3) '='

def isSpace (c : Char) : Bool := c = ' ' || c = '\t' || c = '\n' || c = '\x0c' || c = '\r'

/-- One or two signs of padding, where the text is whole with them. -/
def unpad (text : List Char) : List Char :=
  if text.length % 4 = 0 then
    match text.reverse with
    | '=' :: '=' :: rest => rest.reverse
    | '=' :: rest => rest.reverse
    | _ => text
  else text

def decode (text : List Char) : Option Bytes :=
  let digits := unpad (text.filter fun c => !isSpace c)
  if digits.length % 4 = 1 then none else (digits.mapM value).map octets

theorem value_digit {n : Nat} (small : n < 64) : value (digit n) = some n := by
  have all : ∀ n : Fin 64, value (digit n) = some n.val := by decide
  exact all ⟨n, small⟩

theorem digit_plain {n : Nat} (small : n < 64) : isSpace (digit n) = false ∧ digit n ≠ '=' ∧ digit n ≠ ':' := by
  have all : ∀ n : Fin 64, isSpace (digit n) = false ∧ digit n ≠ '=' ∧ digit n ≠ ':' := by decide
  exact all ⟨n, small⟩

theorem sextets_small (bytes : Bytes) : ∀ n ∈ sextets bytes, n < 64 := by
  induction bytes using sextets.induct with
  | case1 a b c rest ih =>
    have := a.toNat_lt
    have := b.toNat_lt
    have := c.toNat_lt
    simp only [sextets, forall_mem_cons]
    exact ⟨by omega, by omega, by omega, by omega, ih⟩
  | case2 a b =>
    have := a.toNat_lt
    have := b.toNat_lt
    simp only [sextets, forall_mem_cons]
    exact ⟨by omega, by omega, by omega, by simp⟩
  | case3 a =>
    have := a.toNat_lt
    simp only [sextets, forall_mem_cons]
    exact ⟨by omega, by omega, by simp⟩
  | case4 => simp [sextets]

theorem octets_sextets (bytes : Bytes) : octets (sextets bytes) = bytes := by
  have whole (b : UInt8) {n : Nat} (same : n = b.toNat) : UInt8.ofNat n = b := by
    rw [same, UInt8.ofNat_toNat]
  induction bytes using sextets.induct with
  | case1 a b c rest ih =>
    have := b.toNat_lt
    have := c.toNat_lt
    rw [sextets, octets, ih, whole a (by omega), whole b (by omega), whole c (by omega)]
  | case2 a b =>
    have := b.toNat_lt
    rw [sextets, octets, whole a (by omega), whole b (by omega)]
  | case3 a => rw [sextets, octets, whole a (by omega)]
  | case4 => rfl

theorem sextets_length (bytes : Bytes) :
    (sextets bytes).length = bytes.length / 3 * 4 + (if bytes.length % 3 = 0 then 0 else bytes.length % 3 + 1) := by
  induction bytes using sextets.induct with
  | case1 a b c rest ih =>
    have turn : (rest.length + 3) % 3 = rest.length % 3 := by omega
    simp only [sextets, length_cons, ih, Nat.add_assoc, Nat.reduceAdd, turn]
    omega
  | case2 | case3 | case4 => simp [sextets]

theorem encode_length (bytes : Bytes) : (encode bytes).length % 4 = 0 := by
  have length := sextets_length bytes
  simp only [encode, length_append, length_map, length_replicate]
  split at length <;> omega

theorem unpad_padded {text : List Char} (plain : ∀ c ∈ text, c ≠ '=') {count : Nat} (few : count ≤ 2)
    (whole : (text ++ List.replicate count '=').length % 4 = 0) :
    unpad (text ++ List.replicate count '=') = text := by
  have first : ∀ rest, text.reverse ≠ '=' :: rest := by
    intro rest begins
    exact plain '=' (mem_reverse.1 (by simp [begins])) rfl
  unfold unpad
  rw [if_pos whole, reverse_append, reverse_replicate]
  obtain rfl | rfl | rfl : count = 0 ∨ count = 1 ∨ count = 2 := by omega
  · simp only [replicate_zero, nil_append, append_nil]
    split
    iterate 2
      · rename_i begins
        exact absurd begins (first _)
    · rfl
  · simp only [replicate_one, singleton_append]
    exact reverse_reverse text
  · simp

theorem forall_encode {p : Char → Prop} (digits : ∀ n < 64, p (digit n)) (pad : p '=') (bytes : Bytes) :
    ∀ c ∈ encode bytes, p c := by
  intro c mem
  obtain mem | mem := mem_append.1 mem
  · obtain ⟨n, among, rfl⟩ := mem_map.1 mem
    exact digits n (sextets_small bytes n among)
  · rwa [(mem_replicate.1 mem).2]

theorem encode_solid : ∀ bytes, ∀ c ∈ encode bytes, isSpace c = false ∧ c ≠ ':' := forall_encode (by decide) (by decide)

theorem encode_ascii : ∀ bytes, ∀ c ∈ encode bytes, c.toNat < 128 := forall_encode (by decide) (by decide)

theorem decode_encode (bytes : Bytes) : decode (encode bytes) = some bytes := by
  have solid : (encode bytes).filter (fun c => !isSpace c) = encode bytes :=
    filter_eq_self.2 fun c mem => by simp [(encode_solid bytes c mem).1]
  have plain : ∀ c ∈ (sextets bytes).map digit, c ≠ '=' := by
    intro c mem
    obtain ⟨n, among, rfl⟩ := mem_map.1 mem
    exact (digit_plain (sextets_small bytes n among)).2.1
  have digits : unpad (encode bytes) = (sextets bytes).map digit :=
    unpad_padded plain (by omega) (encode_length bytes)
  have values : ((sextets bytes).map digit).mapM value = some (sextets bytes) := by
    have small := sextets_small bytes
    generalize sextets bytes = numbers at small
    induction numbers with
    | nil => rfl
    | cons n numbers ih =>
      simp only [forall_mem_cons] at small
      simp [value_digit small.1, ih small.2]
  have length := sextets_length bytes
  unfold decode
  rw [solid, digits, if_neg, values, Option.map_some, octets_sextets]
  simp only [length_map]
  split at length <;> omega

theorem encode_injective : Function.Injective encode := by
  intro a b same
  have round := decode_encode a
  rw [same, decode_encode b] at round
  exact (Option.some.inj round).symm

theorem encode_eq_nil {bytes : Bytes} : encode bytes = [] ↔ bytes = [] := by
  constructor
  · intro empty
    exact encode_injective empty
  · rintro rfl
    rfl

end Base64
