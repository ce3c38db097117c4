import Vimla.Lib.Utf16

/-!
# JSON values with strings of code units

`JSON.stringify` and `JSON.parse` for strings in which a surrogate can stand
alone. What is printed is read back, so that a text has one value.
-/

namespace Js

open List Bool

def isNumeralChar (c : Char) : Bool := c.isDigit || c = '-' || c = '+' || c = '.' || c = 'e' || c = 'E'

def isDigits (text : List Char) : Bool := !text.isEmpty && text.all Char.isDigit

/-- `([eE][+-]?[0-9]+)?` -/
def isExponent : List Char → Bool
  | [] => true
  | [_] => false
  | e :: c :: rest => (e = 'e' || e = 'E') && if c = '+' || c = '-' then isDigits rest else isDigits (c :: rest)

/-- `(\.[0-9]+)?`, then an exponent. -/
def isFraction : List Char → Bool
  | [] => true
  | c :: rest =>
    if c = '.' then isDigits (rest.takeWhile Char.isDigit) && isExponent (rest.dropWhile Char.isDigit)
    else isExponent (c :: rest)

def isUnsigned : List Char → Bool
  | [] => false
  | c :: rest => if c = '0' then isFraction rest else c.isDigit && isFraction (rest.dropWhile Char.isDigit)

/-- A number as JSON writes it. -/
def isNumeral : List Char → Bool
  | [] => false
  | c :: rest => if c = '-' then isUnsigned rest else isUnsigned (c :: rest)

structure Numeral where
  text : List Char
  valid : isNumeral text = true

variable {text : List Char}

theorem isDigits_chars (digits : isDigits text = true) : ∀ c ∈ text, isNumeralChar c = true := by
  intro c mem
  rw [isDigits, and_eq_true] at digits
  rw [isNumeralChar, all_eq_true.1 digits.2 c mem]
  rfl

theorem isExponent_chars (exponent : isExponent text = true) : ∀ c ∈ text, isNumeralChar c = true := by
  cases text with
  | nil => simp
  | cons e text =>
    cases text with
    | nil => cases exponent
    | cons s rest =>
      rw [isExponent, and_eq_true] at exponent
      obtain ⟨letter, digits⟩ := exponent
      have e_char : isNumeralChar e = true := by
        rcases or_eq_true_iff.1 letter with same | same <;>
          rw [of_decide_eq_true same] <;> rfl
      rw [forall_mem_cons]
      refine ⟨e_char, ?_⟩
      split at digits
      · rename_i signed
        have s_char : isNumeralChar s = true := by
          rcases or_eq_true_iff.1 signed with same | same <;>
            rw [of_decide_eq_true same] <;> rfl
        exact forall_mem_cons.2 ⟨s_char, isDigits_chars digits⟩
      · exact isDigits_chars digits

theorem digits_then {p : List Char → Bool} (chars : ∀ rest, p rest = true → ∀ c ∈ rest, isNumeralChar c = true)
    (rest : p (text.dropWhile Char.isDigit) = true) : ∀ c ∈ text, isNumeralChar c = true := by
  intro c mem
  rw [← takeWhile_append_dropWhile (p := Char.isDigit) (l := text)] at mem
  rcases mem_append.1 mem with digit | later
  · have digit' := mem_takeWhile_imp digit
    rw [isNumeralChar, digit']
    rfl
  · exact chars _ rest c later

theorem isFraction_chars (fraction : isFraction text = true) : ∀ c ∈ text, isNumeralChar c = true := by
  cases text with
  | nil => simp
  | cons c rest =>
    rw [isFraction] at fraction
    split at fraction
    · rename_i point
      rw [and_eq_true] at fraction
      subst point
      exact forall_mem_cons.2 ⟨rfl, digits_then (fun _ => isExponent_chars) fraction.2⟩
    · exact isExponent_chars fraction

theorem isUnsigned_chars (number : isUnsigned text = true) : ∀ c ∈ text, isNumeralChar c = true := by
  cases text with
  | nil => simp
  | cons c rest =>
    rw [isUnsigned] at number
    split at number
    · rename_i zero
      subst zero
      exact forall_mem_cons.2 ⟨rfl, isFraction_chars number⟩
    · rw [and_eq_true] at number
      refine forall_mem_cons.2 ⟨?_, digits_then (fun _ => isFraction_chars) number.2⟩
      rw [isNumeralChar, number.1]
      rfl

theorem Numeral.chars (n : Numeral) : ∀ c ∈ n.text, isNumeralChar c = true := by
  obtain ⟨text, valid⟩ := n
  cases text with
  | nil => cases valid
  | cons c rest =>
    rw [isNumeral] at valid
    split at valid
    · rename_i minus
      subst minus
      exact forall_mem_cons.2 ⟨rfl, isUnsigned_chars valid⟩
    · exact isUnsigned_chars valid

theorem Numeral.ne_nil (n : Numeral) : n.text ≠ [] := by
  intro empty
  have valid := n.valid
  rw [empty] at valid
  cases valid

/-- A number stands for what its numeral denotes. -/
inductive Wide
  | null
  | boolean (value : Bool)
  | number (value : Numeral)
  | string (value : Units)
  | array (items : List Wide)
  | object (fields : List (Units × Wide))

namespace Wide

mutual
/-- `JSON.stringify(value)`. -/
def stringify : Wide → List Char
  | null => ['n', 'u', 'l', 'l']
  | boolean true => ['t', 'r', 'u', 'e']
  | boolean false => ['f', 'a', 'l', 's', 'e']
  | number n => n.text
  | string s => Units.literal s
  | array items => '[' :: (List.intercalate [','] (elements items) ++ [']'])
  | object fields => '\x7b' :: (List.intercalate [','] (members fields) ++ ['\x7d'])

def elements : List Wide → List (List Char)
  | [] => []
  | item :: items => stringify item :: elements items

def members : List (Units × Wide) → List (List Char)
  | [] => []
  | (key, value) :: fields => (Units.literal key ++ ':' :: stringify value) :: members fields
end

end Wide

namespace Units

def unit (c : Char) : UInt16 := UInt16.ofNat c.toNat

/-- The code units of a text of characters. -/
def ofText (text : List Char) : Units := text.flatMap fun c => (utf16 c).map UInt16.ofNat

/-- White space of JSON. -/
def skip (text : Units) : Units := text.dropWhile fun u => u = 0x20 || u = 0x09 || u = 0x0A || u = 0x0D

/-- What follows a word. -/
def after : List Char → Units → Option Units
  | [], text => some text
  | _ :: _, [] => none
  | c :: word, u :: text => if u = unit c then after word text else none

def hexDigit (u : UInt16) : Option Nat :=
  if 48 ≤ u.toNat ∧ u.toNat ≤ 57 then some (u.toNat - 48)
  else if 65 ≤ u.toNat ∧ u.toNat ≤ 70 then some (u.toNat - 55)
  else if 97 ≤ u.toNat ∧ u.toNat ≤ 102 then some (u.toNat - 87)
  else none

def hexNumber (a b c d : UInt16) : Option UInt16 := do
  let a ← hexDigit a
  let b ← hexDigit b
  let c ← hexDigit c
  let d ← hexDigit d
  return UInt16.ofNat (((a * 16 + b) * 16 + c) * 16 + d)

/-- The unit of a backslash and one more. -/
def escaped (u : UInt16) : Option UInt16 :=
  if u = unit '"' ∨ u = unit '\\' ∨ u = unit '/' then some u
  else if u = unit 'b' then some 0x08
  else if u = unit 'f' then some 0x0C
  else if u = unit 'n' then some 0x0A
  else if u = unit 'r' then some 0x0D
  else if u = unit 't' then some 0x09
  else none

/-- A string after its first quote, and what follows it. -/
def readString : Units → Option (Units × Units)
  | [] => none
  | u :: rest =>
    if u = unit '"' then some ([], rest)
    else if u = unit '\\' then
      match rest with
      | e :: rest =>
        if e = unit 'u' then
          match rest with
          | a :: b :: c :: d :: rest =>
            (hexNumber a b c d).bind fun v => (readString rest).map fun read => (v :: read.1, read.2)
          | _ => none
        else (escaped e).bind fun v => (readString rest).map fun read => (v :: read.1, read.2)
      | [] => none
    else if u.toNat < 0x20 then none
    else (readString rest).map fun read => (u :: read.1, read.2)

def isNumeralUnit (u : UInt16) : Bool := u.toNat < 0x80 && isNumeralChar (Char.ofNat u.toNat)

/-- The longest run of what numerals are made of must be one. -/
def readNumeral (text : Units) : Option (Numeral × Units) :=
  let run := (text.takeWhile isNumeralUnit).map fun u => Char.ofNat u.toNat
  if valid : isNumeral run = true then some (⟨run, valid⟩, text.dropWhile isNumeralUnit) else none

mutual
/-- A value and what follows it. The fuel bounds the depth and the length of lists. -/
def readValue : Nat → Units → Option (Wide × Units)
  | 0, _ => none
  | fuel + 1, text =>
    match skip text with
    | [] => none
    | u :: rest =>
      if u = unit '"' then (readString rest).map fun read => (.string read.1, read.2)
      else if u = unit '[' then
        match after [']'] (skip rest) with
        | some rest => some (.array [], rest)
        | none => (readItems fuel rest).map fun read => (.array read.1, read.2)
      else if u = unit '\x7b' then
        match after ['\x7d'] (skip rest) with
        | some rest => some (.object [], rest)
        | none => (readFields fuel rest).map fun read => (.object read.1, read.2)
      else if u = unit 'n' then (after ['u', 'l', 'l'] rest).map fun rest => (.null, rest)
      else if u = unit 't' then (after ['r', 'u', 'e'] rest).map fun rest => (.boolean true, rest)
      else if u = unit 'f' then (after ['a', 'l', 's', 'e'] rest).map fun rest => (.boolean false, rest)
      else (readNumeral (u :: rest)).map fun read => (.number read.1, read.2)

/-- At least one item, up to the closing bracket. -/
def readItems : Nat → Units → Option (List Wide × Units)
  | 0, _ => none
  | fuel + 1, text =>
    (readValue fuel text).bind fun read =>
      match after [','] (skip read.2) with
      | some rest => (readItems fuel rest).map fun more => (read.1 :: more.1, more.2)
      | none => (after [']'] (skip read.2)).map fun rest => ([read.1], rest)

/-- At least one member, up to the closing brace. -/
def readFields : Nat → Units → Option (List (Units × Wide) × Units)
  | 0, _ => none
  | fuel + 1, text =>
    (after ['"'] (skip text)).bind fun rest =>
    (readString rest).bind fun key =>
    (after [':'] (skip key.2)).bind fun rest =>
    (readValue fuel rest).bind fun read =>
      match after [','] (skip read.2) with
      | some rest => (readFields fuel rest).map fun more => ((key.1, read.1) :: more.1, more.2)
      | none => (after ['\x7d'] (skip read.2)).map fun rest => ([(key.1, read.1)], rest)
end

/-- The value of a whole text, with the members as they are written. -/
def readText (text : Units) : Option Wide :=
  (readValue (text.length + 1) text).bind fun read => if skip read.2 = [] then some read.1 else none

end Units

namespace Wide

/-- Of two members with one key the later counts, at the place of the earlier. -/
def put : List (Units × Wide) → Units → Wide → List (Units × Wide)
  | [], key, value => [(key, value)]
  | field :: fields, key, value => if field.1 = key then (key, value) :: fields else field :: put fields key value

mutual
def collapse : Wide → Wide
  | array items => .array (collapseItems items)
  | object fields => .object (collapseFields fields [])
  | value => value

def collapseItems : List Wide → List Wide
  | [] => []
  | item :: items => collapse item :: collapseItems items

def collapseFields : List (Units × Wide) → List (Units × Wide) → List (Units × Wide)
  | [], seen => seen
  | (key, value) :: fields, seen => collapseFields fields (put seen key (collapse value))
end

/-- `record[key]`; `none` is `undefined`. -/
def field (key : Units) : Wide → Option Wide
  | object fields => (fields.find? fun f => f.1 = key).map Prod.snd
  | _ => none

/-- `JSON.parse(text)`; `none` is a `SyntaxError`. -/
def parse (text : Units) : Option Wide := (Units.readText text).map collapse

end Wide

end Js
