import Vimla.Lib.Base64
import Vimla.Lib.Json

/-!
# JSON texts of strings of code units

A string is a list of code units, in which a surrogate can stand alone. Its JSON
literal escapes such a surrogate, so that the text is one of characters. In its
bytes no quote follows another byte than the backslash of an escape.
-/

namespace Js

open Base64 (Bytes)
open List Nat

abbrev Units := List UInt16

def units (s : String) : Units := (codeUnits s).map UInt16.ofNat

namespace Units

def isHigh (u : UInt16) : Prop := 0xD800 ≤ u.toNat ∧ u.toNat ≤ 0xDBFF

def isLow (u : UInt16) : Prop := 0xDC00 ≤ u.toNat ∧ u.toNat ≤ 0xDFFF

instance (u : UInt16) : Decidable (isHigh u) := inferInstanceAs (Decidable (_ ∧ _))

instance (u : UInt16) : Decidable (isLow u) := inferInstanceAs (Decidable (_ ∧ _))

/-- The character of two surrogates. -/
def pair (high low : UInt16) : Char := Char.ofNat (0x10000 + (high.toNat - 0xD800) * 0x400 + (low.toNat - 0xDC00))

def escapeUnicode (u : UInt16) : List Char :=
  ['\\', 'u', digitChar (u.toNat / 4096), digitChar (u.toNat / 256 % 16), digitChar (u.toNat / 16 % 16),
    digitChar (u.toNat % 16)]

def escape (u : UInt16) : List Char :=
  if u = 0x22 then ['\\', '"']
  else if u = 0x5C then ['\\', '\\']
  else if u = 0x08 then ['\\', 'b']
  else if u = 0x09 then ['\\', 't']
  else if u = 0x0A then ['\\', 'n']
  else if u = 0x0C then ['\\', 'f']
  else if u = 0x0D then ['\\', 'r']
  else if u.toNat < 0x20 ∨ isHigh u ∨ isLow u then escapeUnicode u
  else [Char.ofNat u.toNat]

def body : Units → List Char
  | high :: low :: rest =>
    if isHigh high ∧ isLow low then pair high low :: body rest else escape high ++ body (low :: rest)
  | [u] => escape u
  | [] => []

/-- `JSON.stringify` of a string. -/
def literal (s : Units) : List Char := '"' :: (body s ++ ['"'])

variable {n : Nat} {u : UInt16}

theorem toNat_char (small : n < 0xD800 ∨ 0xDFFF < n ∧ n < 0x110000) : (Char.ofNat n).toNat = n := by
  have valid : n.isValidChar := small
  simp [Char.ofNat, valid, Char.toNat, Char.ofNatAux]

theorem plain_char (high : ¬ isHigh u) (low : ¬ isLow u) : (Char.ofNat u.toNat).toNat = u.toNat := by
  have bound := u.toNat_lt
  simp only [isHigh, isLow] at high low
  exact toNat_char (by omega)

theorem utf16_plain (high : ¬ isHigh u) (low : ¬ isLow u) : (utf16 (Char.ofNat u.toNat)).map UInt16.ofNat = [u] := by
  have bound := u.toNat_lt
  simp [utf16, plain_char high low, show u.toNat < 0x10000 by omega]

variable {high low : UInt16}

theorem pair_toNat (isH : isHigh high) (isL : isLow low) :
    (pair high low).toNat = 0x10000 + (high.toNat - 0xD800) * 0x400 + (low.toNat - 0xDC00) := by
  simp only [isHigh, isLow] at isH isL
  exact toNat_char (by omega)

theorem utf16_pair (isH : isHigh high) (isL : isLow low) :
    (utf16 (pair high low)).map UInt16.ofNat = [high, low] := by
  have number := pair_toNat isH isL
  simp only [isHigh, isLow] at isH isL
  have first : 0xD800 + ((pair high low).toNat - 0x10000) / 0x400 = high.toNat := by omega
  have second : 0xDC00 + ((pair high low).toNat - 0x10000) % 0x400 = low.toNat := by omega
  rw [utf16, if_neg (by omega), first, second]
  simp

end Units

/-- `TextEncoder.encode` of a text of characters. -/
def utf8 (text : List Char) : Bytes := text.flatMap String.utf8EncodeChar

theorem utf8_append (a b : List Char) : utf8 (a ++ b) = utf8 a ++ utf8 b := flatMap_append

theorem utf8_injective : Function.Injective utf8 := by
  intro a b same
  have bytes : a.utf8Encode = b.utf8Encode := by
    simpa [utf8Encode, utf8] using congrArg toByteArray same
  have decoded := congrArg ByteArray.utf8Decode? bytes
  simpa using decoded

variable {c : Char} {text : List Char}

theorem encoded_ascii (ascii : c.toNat ≤ 0x7F) : String.utf8EncodeChar c = [UInt8.ofNat c.toNat] := by
  exact if_pos ascii

theorem encoded_high (high : 0x7F < c.toNat) : ∀ b ∈ String.utf8EncodeChar c, 0x7F < b.toNat := by
  have whole : ¬ c.val.toNat ≤ 0x7F := Nat.not_le.2 high
  unfold String.utf8EncodeChar
  simp only [if_neg whole]
  split
  · simp
    omega
  split
  · simp
    omega
  · simp
    omega

/-- Each quote comes after the backslash that escapes it. -/
def Quoted (bytes : Bytes) : Prop := ∀ before after, bytes = before ++ 0x22 :: after → ∃ rest, before = rest ++ [0x5C]

theorem quoted_of_notMem {bytes : Bytes} (none : 0x22 ∉ bytes) : Quoted bytes := by
  rintro before after rfl
  simp at none

theorem Quoted.append {a b : Bytes} (ha : Quoted a) (hb : Quoted b) : Quoted (a ++ b) := by
  intro before after same
  obtain ⟨more, rfl, right⟩ | ⟨more, left, right⟩ := append_eq_append_iff.1 same
  · obtain ⟨rest, rfl⟩ := hb more after right
    exact ⟨a ++ rest, by simp⟩
  · obtain _ | ⟨x, more⟩ := more
    · obtain ⟨rest, empty⟩ := hb [] after (by simpa using right.symm)
      simp at empty
    · obtain ⟨rfl, rfl⟩ := cons.inj right
      exact ha before more left

theorem quote_notMem (other : c ≠ '"') : 0x22 ∉ String.utf8EncodeChar c := by
  intro mem
  by_cases ascii : c.toNat ≤ 0x7F
  · rw [encoded_ascii ascii, mem_singleton] at mem
    have same := congrArg UInt8.toNat mem
    simp at same
    refine other (Char.toNat_inj.1 ?_)
    rw [← mod_eq_of_lt (show c.toNat < 256 by omega), ← same]
    rfl
  · have high := encoded_high (Nat.lt_of_not_le ascii) _ mem
    simp at high

theorem quote_notMem_utf8 (plain : '"' ∉ text) : 0x22 ∉ utf8 text := by
  intro mem
  obtain ⟨c, among, mem⟩ := mem_flatMap.1 mem
  refine quote_notMem ?_ mem
  rintro rfl
  exact plain among

theorem quoted_text (plain : '"' ∉ text) : Quoted (utf8 text) :=
  quoted_of_notMem (quote_notMem_utf8 plain)

namespace Units

theorem digit_ne_quote {n : Nat} (small : n < 16) : digitChar n ≠ '"' := by
  have all : ∀ n : Fin 16, Nat.digitChar n ≠ '"' := by decide
  exact all ⟨n, small⟩

theorem quote_notMem_escape {u : UInt16} (other : u ≠ 0x22) : '"' ∉ escape u := by
  have bound := u.toNat_lt
  unfold escape
  rw [if_neg other]
  repeat' split
  iterate 6 simp
  · simp only [escapeUnicode, mem_cons, not_mem_nil, or_false, not_or]
    refine ⟨by decide, by decide, ?_, ?_, ?_, ?_⟩
    all_goals exact (digit_ne_quote (by omega)).symm
  · rename_i plain
    simp only [not_or] at plain
    rw [mem_singleton]
    intro same
    have number := congrArg Char.toNat same
    rw [plain_char plain.2.1 plain.2.2] at number
    exact other (UInt16.toNat_inj.1 number.symm)

theorem quoted_escape (u : UInt16) : Quoted (utf8 (escape u)) := by
  by_cases quote : u = 0x22
  · subst quote
    intro before after same
    obtain _ | ⟨x, _ | ⟨y, before⟩⟩ := before
    · simp [escape, utf8, String.utf8EncodeChar] at same
    · simp [escape, utf8, String.utf8EncodeChar] at same
      exact ⟨[], by rw [← same.1]; rfl⟩
    · simp [escape, utf8, String.utf8EncodeChar] at same
  · exact quoted_text (quote_notMem_escape quote)

theorem quoted_body (s : Units) : Quoted (utf8 (body s)) := by
  induction s using body.induct with
  | case1 high low tail surrogates ih =>
    have number := pair_toNat surrogates.1 surrogates.2
    have plain : '"' ∉ [pair high low] := by
      rw [mem_singleton]
      intro same
      rw [← same] at number
      simp at number
      omega
    rw [body, if_pos surrogates, ← singleton_append, utf8_append]
    exact (quoted_text plain).append ih
  | case2 high low tail apart ih =>
    rw [body, if_neg apart, utf8_append]
    exact (quoted_escape high).append ih
  | case3 u =>
    exact quoted_escape u
  | case4 => exact quoted_of_notMem (by simp [body, utf8])

end Units

/-- Three bytes do not stand next to each other. -/
def Absent (p q r : UInt8) (bytes : Bytes) : Prop := ∀ before after, bytes ≠ before ++ p :: q :: r :: after

variable {p q r x : UInt8} {a b : Bytes}

theorem Absent.cons (h : Absent p q r b) (other : x ≠ p) : Absent p q r (x :: b) := by
  intro before after same
  obtain _ | ⟨y, before⟩ := before
  · exact other (cons.inj same).1
  · exact h before after (cons.inj same).2

/-- What is put together at a byte that can only be the first of the three. -/
theorem Absent.append (ha : Absent p q r a) (hb : Absent p q r (x :: b)) (second : x ≠ q) (third : x ≠ r) :
    Absent p q r (a ++ x :: b) := by
  intro before after same
  obtain ⟨more, rfl, right⟩ | ⟨more, rfl, right⟩ := append_eq_append_iff.1 same
  · exact hb more after right
  · obtain _ | ⟨y, _ | ⟨z, _ | ⟨w, more⟩⟩⟩ := more
    · exact hb [] after right.symm
    · exact second (cons.inj (cons.inj right).2).1.symm
    · exact third (cons.inj (cons.inj (cons.inj right).2).2).1.symm
    · simp only [cons_append, cons.injEq] at right
      obtain ⟨rfl, rfl, rfl, _⟩ := right
      exact ha before more rfl

/-- A quote in a literal ends it or is escaped. -/
theorem absent_literal (s : Units) (slash : p ≠ 0x5C) (first : p ≠ 0x22) (last : r ≠ 0x22) :
    Absent p 0x22 r (utf8 (Units.literal s)) := by
  have bytes : utf8 (Units.literal s) = 0x22 :: (utf8 (Units.body s) ++ [0x22]) := by
    rw [Units.literal, ← singleton_append, utf8_append, utf8_append]
    rfl
  rw [bytes]
  refine Absent.cons ?_ first.symm
  intro before after same
  obtain rfl | ⟨after, z, rfl⟩ := eq_nil_or_concat' after
  · have ends := congrArg getLast? same
    simp at ends
    exact last ends.symm
  · have cut : utf8 (Units.body s) ++ [0x22] = (before ++ p :: 0x22 :: r :: after) ++ [z] := by simpa using same
    obtain ⟨rest, ends⟩ := Units.quoted_body s (before ++ [p]) (r :: after) (by
      simpa using (append_inj' cut rfl).1)
    exact slash (singleton_inj.1 (append_inj' ends rfl).2)

theorem toNat_valid (c : Char) : c.toNat < 0xD800 ∨ 0xDFFF < c.toNat ∧ c.toNat < 0x110000 := c.valid

theorem utf16_cons_inj {d : Char} {rest more : List Nat} (same : utf16 c ++ rest = utf16 d ++ more) :
    c = d ∧ rest = more := by
  have hc := toNat_valid c
  have hd := toNat_valid d
  by_cases small : c.toNat < 0x10000
  · by_cases small' : d.toNat < 0x10000
    · simp only [utf16, if_pos small, if_pos small', singleton_append, cons.injEq] at same
      exact ⟨Char.toNat_inj.1 same.1, same.2⟩
    · simp only [utf16, if_pos small, if_neg small', cons_append, cons.injEq] at same
      omega
  · by_cases small' : d.toNat < 0x10000
    · simp only [utf16, if_neg small, if_pos small', cons_append, cons.injEq] at same
      omega
    · simp only [utf16, if_neg small, if_neg small', cons_append, nil_append, cons.injEq] at same
      exact ⟨Char.toNat_inj.1 (by omega), same.2.2⟩

theorem utf16_ne_nil (c : Char) : utf16 c ≠ [] := by
  rw [utf16]
  split <;> simp

theorem codeUnits_injective : Function.Injective codeUnits := by
  have lists : Function.Injective fun text : List Char => text.flatMap utf16 := by
    intro a b same
    induction a generalizing b with
    | nil =>
      cases b with
      | nil => rfl
      | cons d b => exact absurd same.symm (append_ne_nil_of_left_ne_nil (utf16_ne_nil d) _)
    | cons c a ih =>
      cases b with
      | nil => exact absurd same (append_ne_nil_of_left_ne_nil (utf16_ne_nil c) _)
      | cons d b =>
        obtain ⟨rfl, rest⟩ := utf16_cons_inj same
        rw [ih rest]
  exact fun s t same => String.toList_injective (lists same)

end Js
