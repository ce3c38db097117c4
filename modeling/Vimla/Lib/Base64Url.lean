import Vimla.Lib.Utf16

/-!
# Base64 for addresses

The alphabet with `-` and `_`, without padding. A decoder takes both alphabets
and leaves out everything else.
-/

namespace Base64.Url

open Js (utf8)
open List

def digit (n : Nat) : Char :=
  if n = 62 then '-' else if n = 63 then '_' else Base64.digit n

def value (c : Char) : Option Nat :=
  if c = '-' then some 62 else if c = '_' then some 63 else Base64.value c

def isDigit (c : Char) : Bool := c.isAlphanum || c = '-' || c = '_'

def encode (bytes : Bytes) : List Char := (sextets bytes).map digit

def decode (text : List Char) : Bytes := octets (text.filterMap value)

theorem digit_facts {n : Nat} (small : n < 64) : value (digit n) = some n ∧ isDigit (digit n) = true := by
  have all : ∀ n : Fin 64, value (digit n) = some n.val ∧ isDigit (digit n) = true := by decide
  exact all ⟨n, small⟩

theorem decode_encode (bytes : Bytes) : decode (encode bytes) = bytes := by
  have read : ((sextets bytes).map digit).filterMap value = sextets bytes := by
    have small := sextets_small bytes
    generalize sextets bytes = numbers at small
    induction numbers with
    | nil => rfl
    | cons n numbers ih =>
      rw [map_cons, filterMap_cons_some (digit_facts (small n mem_cons_self)).1]
      rw [ih fun m mem => small m (mem_cons_of_mem n mem)]
  rw [decode, encode, read, octets_sextets]

theorem encode_digits (bytes : Bytes) : ∀ c ∈ encode bytes, isDigit c = true := by
  intro c mem
  obtain ⟨n, within, rfl⟩ := mem_map.1 mem
  exact (digit_facts (sextets_small bytes n within)).2

theorem encode_length (bytes : Bytes) : (encode bytes).length ≤ 2 * bytes.length := by
  rw [encode, length_map]
  induction bytes using sextets.induct with
  | case1 a b c rest ih =>
    simp only [sextets, length_cons]
    omega
  | case2 | case3 | case4 => simp [sextets]

theorem encode_ne_nil {bytes : Bytes} (filled : bytes ≠ []) : encode bytes ≠ [] := by
  intro empty
  rw [← decode_encode bytes, empty] at filled
  exact filled rfl

end Base64.Url

namespace Js

open Base64 (Bytes)

/-- The rest of a character: what is known of it, how many bytes are still to come,
and between which bounds the next one lies. -/
structure Partial where
  point : Nat
  needed : Nat
  lower : Nat := 0x80
  upper : Nat := 0xBF

def leadByte (b : UInt8) : Char ⊕ Partial :=
  let n := b.toNat
  if n ≤ 0x7F then .inl (Char.ofNat n)
  else if 0xC2 ≤ n ∧ n ≤ 0xDF then .inr { point := n - 0xC0, needed := 1 }
  else if 0xE0 ≤ n ∧ n ≤ 0xEF then
    .inr { point := n - 0xE0, needed := 2, lower := if n = 0xE0 then 0xA0 else 0x80,
           upper := if n = 0xED then 0x9F else 0xBF }
  else if 0xF0 ≤ n ∧ n ≤ 0xF4 then
    .inr { point := n - 0xF0, needed := 3, lower := if n = 0xF0 then 0x90 else 0x80,
           upper := if n = 0xF4 then 0x8F else 0xBF }
  else .inl '\uFFFD'

/-- `TextDecoder.decode`: a sequence that is broken off becomes one replacement character. -/
def textOf : Option Partial → Bytes → List Char
  | none, [] => []
  | some _, [] => ['\uFFFD']
  | none, b :: rest =>
    match leadByte b with
    | .inl c => c :: textOf none rest
    | .inr p => textOf (some p) rest
  | some p, b :: rest =>
    if p.lower ≤ b.toNat ∧ b.toNat ≤ p.upper then
      let point := p.point * 0x40 + (b.toNat - 0x80)
      if p.needed = 1 then Char.ofNat point :: textOf none rest
      else textOf (some { point, needed := p.needed - 1 }) rest
    else
      '\uFFFD' :: match leadByte b with
        | .inl c => c :: textOf none rest
        | .inr p => textOf (some p) rest

def utf8Text (bytes : Bytes) : List Char := textOf none bytes

theorem utf8Text_ascii {text : List Char} (ascii : ∀ c ∈ text, c.toNat ≤ 0x7F) : utf8Text (utf8 text) = text := by
  induction text with
  | nil => rfl
  | cons c text ih =>
    have small := ascii c List.mem_cons_self
    have byte : (UInt8.ofNat c.toNat).toNat = c.toNat := by
      rw [UInt8.toNat_ofNat']
      omega
    rw [utf8, List.flatMap_cons, encoded_ascii small, List.singleton_append, utf8Text, textOf, leadByte]
    simp only [byte, small, if_true, Char.ofNat_toNat]
    rw [← utf8, ← utf8Text, ih fun d mem => ascii d (List.mem_cons_of_mem c mem)]

end Js
