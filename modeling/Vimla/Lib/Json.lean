import Mathlib

/-!
# JSON values as JavaScript reads them

What `JSON.parse` returns and the questions that programs ask of it. The keys
of an object are distinct.
-/

namespace Js

open List String

/-- A number: what `String(value)` prints, its value when `Number.isInteger`
holds, and `Number.isFinite`. -/
structure Number where
  text : String
  integer : Option Int := none
  finite : Bool := true
  deriving DecidableEq

inductive Json
  | null
  | boolean (value : Bool)
  | number (value : Number)
  | string (value : String)
  | array (items : List Json)
  | object (fields : List (String × Json))

def int (value : Int) : Json := .number { text := toString value, integer := some value }

namespace Json

/-- `typeof value === "object"`, without `null`. -/
def isRecord : Json → Bool
  | array _ | object _ => true
  | _ => false

/-- `record[key]`; `none` is `undefined`. -/
def field (key : String) : Json → Option Json
  | object fields => (fields.find? fun f => f.1 = key).map Prod.snd
  | _ => none

def asString : Json → Option String
  | string s => some s
  | _ => none

def asArray : Json → Option (List Json)
  | array items => some items
  | _ => none

mutual
/-- `String(value)`. -/
def text : Json → String
  | null => "null"
  | boolean true => "true"
  | boolean false => "false"
  | number n => n.text
  | string s => s
  | array items => intercalate "," (texts items)
  | object _ => "[object Object]"

/-- `join` prints nothing for `null`. -/
def texts : List Json → List String
  | [] => []
  | null :: items => "" :: texts items
  | item :: items => text item :: texts items
end

/-- A string literal: what JSON does not allow between quotes is escaped. -/
def quoteChar (c : Char) : List Char :=
  match c with
  | '"' => ['\\', '"']
  | '\\' => ['\\', '\\']
  | '\x08' => ['\\', 'b']
  | '\t' => ['\\', 't']
  | '\n' => ['\\', 'n']
  | '\x0c' => ['\\', 'f']
  | '\r' => ['\\', 'r']
  | c =>
    if c.toNat < 0x20 then
      ['\\', 'u', '0', '0', Nat.digitChar (c.toNat / 16), Nat.digitChar (c.toNat % 16)]
    else [c]

def quote (s : String) : String := ofList ('"' :: s.toList.flatMap quoteChar ++ ['"'])

mutual
/-- `JSON.stringify(value)`. -/
def stringify : Json → String
  | null => "null"
  | boolean true => "true"
  | boolean false => "false"
  | number n => if n.finite then n.text else "null"
  | string s => quote s
  | array items => "[" ++ intercalate "," (elements items) ++ "]"
  | object fields => "\x7b" ++ intercalate "," (members fields) ++ "\x7d"

def elements : List Json → List String
  | [] => []
  | item :: items => stringify item :: elements items

def members : List (String × Json) → List String
  | [] => []
  | (key, value) :: fields => (quote key ++ ":" ++ stringify value) :: members fields
end

end Json

/-- The code units of a character. -/
def utf16 (c : Char) : List Nat :=
  if c.toNat < 0x10000 then [c.toNat]
  else [0xD800 + (c.toNat - 0x10000) / 0x400, 0xDC00 + (c.toNat - 0x10000) % 0x400]

/-- The order of `<` on strings. -/
def codeUnits (s : String) : List Nat := s.toList.flatMap utf16

/-- `s.length`. -/
def length (s : String) : Nat := (codeUnits s).length

def isSpace (c : Char) : Bool :=
  c.toNat ∈ [0x09, 0x0A, 0x0B, 0x0C, 0x0D, 0x20, 0xA0, 0x1680, 0x2028, 0x2029, 0x202F, 0x205F, 0x3000,
    0xFEFF] || (0x2000 ≤ c.toNat && c.toNat ≤ 0x200A)

def trim (s : String) : String :=
  ofList (((s.toList.dropWhile isSpace).reverse.dropWhile isSpace).reverse)

theorem trim_eq_self {s : String} (solid : ∀ c ∈ s.toList, isSpace c = false) : trim s = s := by
  have kept {l : List Char} (h : ∀ c ∈ l, isSpace c = false) : l.dropWhile isSpace = l := by
    cases l with
    | nil => rfl
    | cons c l => rw [dropWhile_cons_of_neg (by simp [h c mem_cons_self])]
  rw [trim, kept solid, kept fun c hc => solid c (mem_reverse.1 hc), reverse_reverse,
    ofList_toList]

theorem trim_trim (s : String) : trim (trim s) = trim s := by
  have trim_eq (l : List Char) : trim (ofList l) =
      ofList ((l.dropWhile isSpace).rdropWhile isSpace) := by
    rw [trim, toList_ofList, rdropWhile]
  -- What is left of a text that begins solid begins so too.
  have first {l : List Char} (solid : l.dropWhile isSpace = l) :
      (l.rdropWhile isSpace).dropWhile isSpace = l.rdropWhile isSpace := by
    rw [dropWhile_eq_self_iff] at solid ⊢
    intro nonempty
    have kept : l.rdropWhile isSpace <+: l := rdropWhile_prefix isSpace l
    rw [kept.getElem]
    exact solid (Nat.lt_of_lt_of_le nonempty kept.length_le)
  rw [← s.ofList_toList, trim_eq, trim_eq, first (dropWhile_idempotent _ _),
    rdropWhile_idempotent]

def startsWith (s start : String) : Bool := start.toList.isPrefixOf s.toList

/-- `s.slice(0, limit)`; a pair of code units that is cut in two is left out. -/
def takeUnits (limit : Nat) (s : String) : String := ofList (go limit s.toList)
where
  go (left : Nat) : List Char → List Char
    | [] => []
    | c :: rest => if (utf16 c).length ≤ left then c :: go (left - (utf16 c).length) rest else []

/-- The lower case of a character. Outside ASCII only the Kelvin sign has a
lower case that is ASCII, and no other is needed to compare with ASCII names. -/
def lowerChar (c : Char) : Char := if c.toNat = 0x212A then 'k' else c.toLower

def toLowerCase (s : String) : String := ofList (s.toList.map lowerChar)

end Js
