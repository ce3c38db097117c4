import Vimla.Lib.Joined
import Vimla.Lib.Wide

/-!
# What is printed is read back

The reader applied to a printed value returns the value and what follows it.
-/

namespace Js

open List Wide Nat

namespace Units

open Joined

theorem ofText_append (a b : List Char) : ofText (a ++ b) = ofText a ++ ofText b := flatMap_append

theorem ofText_cons (c : Char) (text : List Char) : ofText (c :: text) = (utf16 c).map UInt16.ofNat ++ ofText text :=
  flatMap_cons

variable {c : Char}

/-- A character that is one code unit. -/
theorem ofText_unit (small : c.toNat < 0x10000) (text : List Char) : ofText (c :: text) = unit c :: ofText text := by
  rw [ofText_cons, utf16, if_pos small]
  rfl

theorem hexDigit_digit {n : Nat} (small : n < 16) : hexDigit (unit (digitChar n)) = some n := by
  have all : ∀ n : Fin 16, hexDigit (unit (digitChar n)) = some n.val := by decide
  exact all ⟨n, small⟩

theorem digitChar_small {n : Nat} (small : n < 16) : (digitChar n).toNat < 0x10000 := by
  have all : ∀ n : Fin 16, (digitChar n).toNat < 0x10000 := by decide
  exact all ⟨n, small⟩

theorem readString_quote (rest : Units) : readString (unit '"' :: rest) = some ([], rest) := by
  rw [readString.eq_def]
  exact if_pos rfl

theorem readString_plain {u : UInt16} (quote : u ≠ unit '"') (slash : u ≠ unit '\\') (shown : ¬ u.toNat < 0x20) (rest : Units) :
    readString (u :: rest) = (readString rest).map fun read => (u :: read.1, read.2) := by
  rw [readString.eq_def]
  dsimp only
  rw [if_neg quote, if_neg slash, if_neg shown]

theorem readString_escaped {v : UInt16} (small : c.toNat < 0x10000) (other : unit c ≠ unit 'u')
    (reads : escaped (unit c) = some v) (rest : Units) :
    readString (ofText ['\\', c] ++ rest) = (readString rest).map fun read => (v :: read.1, read.2) := by
  rw [ofText_unit (by decide), ofText_unit small, cons_append, cons_append, readString.eq_def]
  dsimp only
  rw [if_neg (by decide), if_pos rfl, if_neg other, reads]
  rfl

theorem readString_unicode (u : UInt16) (rest : Units) :
    readString (ofText (escapeUnicode u) ++ rest) = (readString rest).map fun read => (u :: read.1, read.2) := by
  have bound := u.toNat_lt
  have number : ((u.toNat / 4096 * 16 + u.toNat / 256 % 16) * 16 + u.toNat / 16 % 16) * 16 + u.toNat % 16 = u.toNat := by
    omega
  have hex : hexNumber (unit (digitChar (u.toNat / 4096))) (unit (digitChar (u.toNat / 256 % 16)))
      (unit (digitChar (u.toNat / 16 % 16))) (unit (digitChar (u.toNat % 16))) = some u := by
    unfold hexNumber
    rw [hexDigit_digit (by omega), hexDigit_digit (by omega), hexDigit_digit (by omega), hexDigit_digit (by omega)]
    simp only [Option.bind_eq_bind, Option.bind_some, number, UInt16.ofNat_toNat, Option.pure_def]
  rw [escapeUnicode, ofText_unit (by decide), ofText_unit (by decide), ofText_unit (digitChar_small (by omega)),
    ofText_unit (digitChar_small (by omega)), ofText_unit (digitChar_small (by omega)), ofText_unit (digitChar_small (by omega))]
  simp only [cons_append]
  rw [readString.eq_def]
  dsimp only
  rw [if_neg (by decide), if_pos rfl, if_pos rfl, hex]
  rfl

theorem readString_escape (u : UInt16) (rest : Units) :
    readString (ofText (escape u) ++ rest) = (readString rest).map fun read => (u :: read.1, read.2) := by
  unfold escape
  iterate 7
    split
    · subst_vars
      exact readString_escaped (by decide) (by decide) rfl rest
  split
  · exact readString_unicode u rest
  · rename_i quote slash _ _ _ _ _ plain
    simp only [not_or] at plain
    have text : ofText [Char.ofNat u.toNat] = [u] := by
      rw [ofText_cons, utf16_plain plain.2.1 plain.2.2]
      rfl
    rw [text, singleton_append]
    exact readString_plain quote slash plain.1 rest

theorem readString_body (s rest : Units) : readString (ofText (body s) ++ unit '"' :: rest) = some (s, rest) := by
  induction s using body.induct with
  | case1 high low tail surrogates ih =>
    have shown : ∀ u : UInt16, isHigh u ∨ isLow u → u ≠ unit '"' ∧ u ≠ unit '\\' ∧ ¬ u.toNat < 0x20 := by
      intro u surrogate
      have large : 0xD800 ≤ u.toNat := by
        simp only [isHigh, isLow] at surrogate
        omega
      refine ⟨?_, ?_, by omega⟩
      iterate 2
        · rintro rfl
          exact absurd large (by decide)
    obtain ⟨q, s, c⟩ := shown high (.inl surrogates.1)
    obtain ⟨q', s', c'⟩ := shown low (.inr surrogates.2)
    rw [body, if_pos surrogates, ofText_cons, utf16_pair surrogates.1 surrogates.2]
    simp only [cons_append, nil_append]
    rw [readString_plain q s c, readString_plain q' s' c', ih]
    rfl
  | case2 high low tail apart ih =>
    rw [body, if_neg apart, ofText_append, append_assoc, readString_escape, ih]
    rfl
  | case3 u =>
    rw [body, readString_escape, readString_quote]
    rfl
  | case4 =>
    exact readString_quote rest

theorem ofText_literal (s rest : Units) : ofText (literal s) ++ rest = unit '"' :: (ofText (body s) ++ unit '"' :: rest) := by
  rw [literal, ofText_unit (by decide), ofText_append, ofText_unit (by decide)]
  simp [ofText]

/-- A literal tells where it ends. -/
theorem literal_inj {s t : Units} {rest more : List Char} (same : literal s ++ rest = literal t ++ more) :
    s = t ∧ rest = more := by
  have read := congrArg (fun text => (readString (ofText text).tail).map Prod.fst) same
  simp only [ofText_append, ofText_literal, tail_cons, readString_body, Option.map_some, Option.some.injEq] at read
  subst read
  exact ⟨rfl, append_cancel_left same⟩

theorem isNumeralChar_small (char : isNumeralChar c = true) : c.toNat < 0x80 := by
  simp only [isNumeralChar, Char.isDigit, Bool.or_eq_true, Bool.and_eq_true, decide_eq_true_eq, UInt32.le_iff_toNat_le] at char
  rcases char with ((((digit | rfl) | rfl) | rfl) | rfl) | rfl
  · have bound : c.toNat ≤ 57 := digit.2
    omega
  all_goals decide

theorem unit_toNat (small : c.toNat < 0x10000) : (unit c).toNat = c.toNat := by
  rw [unit, UInt16.toNat_ofNat', mod_eq_of_lt small]

theorem isNumeralUnit_unit (char : isNumeralChar c = true) : isNumeralUnit (unit c) = true := by
  have small := isNumeralChar_small char
  rw [isNumeralUnit, unit_toNat (by omega), Char.ofNat_toNat, char]
  simpa using small

theorem ofText_small {text : List Char} (small : ∀ c ∈ text, c.toNat < 0x10000) : ofText text = text.map unit := by
  induction text with
  | nil => rfl
  | cons c text ih =>
    rw [forall_mem_cons] at small
    rw [ofText_unit small.1, ih small.2, map_cons]

/-- What may follow a numeral. -/
def Ends (rest : Units) : Prop := ∀ u ∈ rest.head?, isNumeralUnit u = false

variable {rest : Units}

theorem readNumeral_text (n : Numeral) (ends : Ends rest) : readNumeral (ofText n.text ++ rest) = some (n, rest) := by
  have small : ∀ c ∈ n.text, c.toNat < 0x10000 := fun c mem => by
    have := isNumeralChar_small (n.chars c mem)
    omega
  have numeral : ∀ u ∈ n.text.map unit, isNumeralUnit u = true := by
    intro u mem
    obtain ⟨c, among, rfl⟩ := mem_map.1 mem
    exact isNumeralUnit_unit (n.chars c among)
  have stop : rest.takeWhile isNumeralUnit = [] ∧ rest.dropWhile isNumeralUnit = rest := by
    cases rest with
    | nil => exact ⟨rfl, rfl⟩
    | cons u rest =>
      have other := ends u rfl
      simp [other]
  have run : (n.text.map unit).map (fun u => Char.ofNat u.toNat) = n.text := by
    rw [map_map]
    calc n.text.map ((fun u => Char.ofNat u.toNat) ∘ unit) = n.text.map id := by
          apply map_congr_left
          intro c mem
          rw [Function.comp_apply, unit_toNat (small c mem), Char.ofNat_toNat]
          rfl
      _ = n.text := map_id _
  unfold readNumeral
  rw [ofText_small small, takeWhile_append_of_pos numeral, dropWhile_append_of_pos numeral, stop.1, stop.2, append_nil,
    run]
  exact dif_pos n.valid

/-- A unit with which a value can begin. -/
def Begins (u : UInt16) : Prop := isNumeralUnit u = true ∨ u ∈ ['"', '[', '\x7b', 'n', 't', 'f'].map unit

theorem Begins.solid {u : UInt16} (begins : Begins u) : ¬ (u = 0x20 || u = 0x09 || u = 0x0A || u = 0x0D) = true ∧ u ≠ unit ']' := by
  rcases begins with numeral | mem
  · constructor
    · simp only [Bool.or_eq_true, decide_eq_true_eq, not_or]
      refine ⟨⟨⟨?_, ?_⟩, ?_⟩, ?_⟩
      all_goals
        rintro rfl
        exact absurd numeral (by decide)
    · rintro rfl
      exact absurd numeral (by decide)
  · simp only [map_cons, map_nil, mem_cons, not_mem_nil, or_false] at mem
    rcases mem with rfl | rfl | rfl | rfl | rfl | rfl <;> decide

theorem skip_solid {u : UInt16} (begins : Begins u) (rest : Units) : skip (u :: rest) = u :: rest :=
  dropWhile_cons_of_neg begins.solid.1

theorem begins_stringify (v : Wide) : ∃ u rest, ofText v.stringify = u :: rest ∧ Begins u := by
  cases v with
  | null => exact ⟨_, _, rfl, .inr (by decide)⟩
  | boolean value => cases value <;> exact ⟨_, _, rfl, .inr (by decide)⟩
  | number n =>
    cases text : n.text with
    | nil => exact absurd text n.ne_nil
    | cons c rest =>
      have char := n.chars c (by rw [text]; exact mem_cons_self)
      have small := isNumeralChar_small char
      rw [Wide.stringify, text, ofText_unit (by omega)]
      exact ⟨_, _, rfl, .inl (isNumeralUnit_unit char)⟩
  | string s =>
    exact ⟨_, _, rfl, .inr (by decide)⟩
  | array items | object fields =>
    exact ⟨_, _, rfl, .inr (by decide)⟩

mutual
/-- Fuel that is enough to read a value. -/
def need : Wide → Nat
  | .array items => 1 + needItems items
  | .object fields => 1 + needFields fields
  | _ => 1

def needItems : List Wide → Nat
  | [] => 0
  | item :: items => 1 + need item + needItems items

def needFields : List (Units × Wide) → Nat
  | [] => 0
  | (_, value) :: fields => 1 + need value + needFields fields
end

theorem ends_cons {u : UInt16} (other : isNumeralUnit u = false) (rest : Units) : Ends (u :: rest) := by
  intro v head
  rw [← Option.some.inj head]
  exact other

theorem readValue_numeral (n : Numeral) (fuel : Nat) (ends : Ends rest) :
    readValue (fuel + 1) (ofText n.text ++ rest) = some (.number n, rest) := by
  obtain ⟨u, tail, text, begins⟩ := begins_stringify (.number n)
  rw [Wide.stringify] at text
  have read := readNumeral_text n ends
  have numeral : isNumeralUnit u = true := by
    cases chars : n.text with
    | nil => exact absurd chars n.ne_nil
    | cons c more =>
      have char := n.chars c (by rw [chars]; exact mem_cons_self)
      have small := isNumeralChar_small char
      rw [chars, ofText_unit (by omega)] at text
      rw [← (cons.inj text).1]
      exact isNumeralUnit_unit char
  have other : ∀ c ∈ ['"', '[', '\x7b', 'n', 't', 'f'], u ≠ unit c := by
    rintro c mem rfl
    simp only [mem_cons, not_mem_nil, or_false] at mem
    rcases mem with rfl | rfl | rfl | rfl | rfl | rfl <;> exact absurd numeral (by decide)
  simp only [forall_mem_cons] at other
  obtain ⟨quote, bracket, brace, n', t, f, -⟩ := other
  rw [text, cons_append] at read ⊢
  rw [readValue, skip_solid begins]
  dsimp only
  rw [if_neg quote, if_neg bracket, if_neg brace, if_neg n', if_neg t, if_neg f, read]
  rfl

theorem begins_elements (item : Wide) (items : List Wide) :
    ∃ u rest, ofText (List.intercalate [','] (elements (item :: items))) = u :: rest ∧ Begins u := by
  obtain ⟨u, tail, text, begins⟩ := begins_stringify item
  cases items with
  | nil => exact ⟨u, tail, by rw [elements, elements, intercalate_one, text], begins⟩
  | cons next items =>
    rw [elements, elements, intercalate_cons, ofText_append, text]
    exact ⟨u, _, rfl, begins⟩

theorem begins_members (field : Units × Wide) (fields : List (Units × Wide)) :
    ∃ rest, ofText (List.intercalate [','] (members (field :: fields))) = unit '"' :: rest := by
  cases fields with
  | nil =>
    rw [Wide.members, Wide.members, intercalate_one, ofText_append]
    exact ⟨_, ofText_literal _ _⟩
  | cons next fields =>
    rw [Wide.members, Wide.members, intercalate_cons, ofText_append, ofText_append, append_assoc]
    exact ⟨_, ofText_literal _ _⟩

theorem after_comma (text : Units) : after [','] (skip (unit ',' :: text)) = some text := rfl

theorem readFields_key (key : Units) (fuel : Nat) (text : Units) :
    readFields (fuel + 1) (ofText (literal key) ++ unit ':' :: text) = (readValue fuel text).bind fun read =>
      match after [','] (skip read.2) with
      | some rest => (readFields fuel rest).map fun more => ((key, read.1) :: more.1, more.2)
      | none => (after ['\x7d'] (skip read.2)).map fun rest => ([(key, read.1)], rest) := by
  rw [ofText_literal, readFields, skip_solid (.inr (by decide))]
  rw [show after ['"'] (unit '"' :: (ofText (body key) ++ unit '"' :: unit ':' :: text)) =
    some (ofText (body key) ++ unit '"' :: unit ':' :: text) from rfl, Option.bind_some, readString_body, Option.bind_some]
  rfl

mutual
theorem readValue_stringify : ∀ (v : Wide) (fuel : Nat) (rest : Units), need v ≤ fuel → Ends rest →
    readValue fuel (ofText v.stringify ++ rest) = some (v, rest)
  | v, 0, _, enough, _ => by
    cases v <;> simp [need] at enough
  | .null, fuel + 1, rest, _, _ => by
    rw [readValue]
    rfl
  | .boolean true, fuel + 1, rest, _, _ => by
    rw [readValue]
    rfl
  | .boolean false, fuel + 1, rest, _, _ => by
    rw [readValue]
    rfl
  | .number n, fuel + 1, rest, _, ends => readValue_numeral n fuel ends
  | .string s, fuel + 1, rest, _, _ => by
    rw [Wide.stringify, ofText_literal, readValue, skip_solid (.inr (by decide))]
    dsimp only
    rw [if_pos rfl, readString_body]
    rfl
  | .array [], fuel + 1, rest, _, _ => by
    rw [readValue]
    rfl
  | .array (item :: items), fuel + 1, rest, enough, _ => by
    rw [need] at enough
    have read := readItems_elements (item :: items) fuel rest (cons_ne_nil _ _) (by omega)
    obtain ⟨u, tail, text, begins⟩ := begins_elements item items
    rw [Wide.stringify, ofText_unit (by decide), ofText_append, cons_append, append_assoc, readValue,
      skip_solid (.inr (by decide))]
    rw [show ofText [']'] ++ rest = unit ']' :: rest from rfl]
    dsimp only
    rw [if_neg (by decide), if_pos rfl, read, text, cons_append, skip_solid begins, after, if_neg begins.solid.2]
    rfl
  | .object [], fuel + 1, rest, _, _ => by
    rw [readValue]
    rfl
  | .object (field :: fields), fuel + 1, rest, enough, _ => by
    rw [need] at enough
    have read := readFields_members (field :: fields) fuel rest (cons_ne_nil _ _) (by omega)
    obtain ⟨tail, text⟩ := begins_members field fields
    rw [Wide.stringify, ofText_unit (by decide), ofText_append, cons_append, append_assoc, readValue,
      skip_solid (.inr (by decide))]
    rw [show ofText ['\x7d'] ++ rest = unit '\x7d' :: rest from rfl]
    dsimp only
    rw [if_neg (by decide), if_neg (by decide), if_pos rfl, read, text, cons_append, skip_solid (.inr (by decide)), after,
      if_neg (by decide)]
    rfl

theorem readItems_elements : ∀ (items : List Wide) (fuel : Nat) (rest : Units), items ≠ [] → needItems items ≤ fuel →
    readItems fuel (ofText (List.intercalate [','] (Wide.elements items)) ++ unit ']' :: rest) = some (items, rest)
  | [], _, _, nonempty, _ => absurd rfl nonempty
  | item :: items, 0, _, _, enough => by
    rw [needItems] at enough
    omega
  | [item], fuel + 1, rest, _, enough => by
    rw [needItems] at enough
    have read := readValue_stringify item fuel (unit ']' :: rest) (by omega) (ends_cons (by decide) rest)
    rw [Wide.elements, Wide.elements, intercalate_one, readItems, read]
    rfl
  | item :: next :: items, fuel + 1, rest, _, enough => by
    rw [needItems] at enough
    have read := readItems_elements (next :: items) fuel rest (cons_ne_nil _ _) (by omega)
    rw [Wide.elements, Wide.elements, intercalate_cons, ofText_append, ofText_unit (by decide), append_assoc, cons_append,
      readItems, readValue_stringify item fuel _ (by omega) (ends_cons (by decide) _), Option.bind_some]
    rw [Wide.elements] at read
    dsimp only
    rw [after_comma]
    dsimp only
    rw [read]
    rfl

theorem readFields_members : ∀ (fields : List (Units × Wide)) (fuel : Nat) (rest : Units), fields ≠ [] → needFields fields ≤ fuel →
    readFields fuel (ofText (List.intercalate [','] (Wide.members fields)) ++ unit '\x7d' :: rest) = some (fields, rest)
  | [], _, _, nonempty, _ => absurd rfl nonempty
  | field :: fields, 0, _, _, enough => by
    rw [needFields] at enough
    omega
  | [(key, value)], fuel + 1, rest, _, enough => by
    rw [needFields] at enough
    have read := readValue_stringify value fuel (unit '\x7d' :: rest) (by omega) (ends_cons (by decide) rest)
    rw [Wide.members, Wide.members, intercalate_one, ofText_append, ofText_unit (by decide), append_assoc, cons_append,
      readFields_key, read]
    rfl
  | (key, value) :: next :: fields, fuel + 1, rest, _, enough => by
    rw [needFields] at enough
    have read := readFields_members (next :: fields) fuel rest (cons_ne_nil _ _) (by omega)
    obtain ⟨key', value'⟩ := next
    rw [Wide.members, Wide.members, intercalate_cons, ofText_append, ofText_append, ofText_unit (by decide),
      ofText_unit (by decide), append_assoc, append_assoc, cons_append, cons_append, readFields_key,
      readValue_stringify value fuel _ (by omega) (ends_cons (by decide) _), Option.bind_some]
    rw [Wide.members] at read
    dsimp only
    rw [after_comma]
    dsimp only
    rw [read]
    rfl
end

mutual
theorem need_le : ∀ v : Wide, need v ≤ v.stringify.length
  | .null | .boolean true | .boolean false => by decide
  | .number n => by
    have some_ := length_pos_iff.2 n.ne_nil
    rw [need, Wide.stringify]
    · exact some_
    all_goals simp
  | .string s => by
    rw [need, Wide.stringify, literal, length_cons]
    · omega
    all_goals simp
  | .array items => by
    have bound := needItems_le items
    rw [need, Wide.stringify, length_cons, length_append, length_singleton]
    omega
  | .object fields => by
    have bound := needFields_le fields
    rw [need, Wide.stringify, length_cons, length_append, length_singleton]
    omega

theorem needItems_le : ∀ items : List Wide, needItems items ≤ (List.intercalate [','] (Wide.elements items)).length + 1
  | [] => by simp [needItems]
  | [item] => by
    have bound := need_le item
    rw [needItems, needItems, Wide.elements, Wide.elements, intercalate_one]
    omega
  | item :: next :: items => by
    have bound := need_le item
    have more := needItems_le (next :: items)
    rw [Wide.elements] at more
    rw [needItems, Wide.elements, Wide.elements, intercalate_cons, length_append, length_cons]
    omega

theorem needFields_le : ∀ fields : List (Units × Wide),
    needFields fields ≤ (List.intercalate [','] (Wide.members fields)).length + 1
  | [] => by simp [needFields]
  | [(key, value)] => by
    have bound := need_le value
    rw [needFields, needFields, Wide.members, Wide.members, intercalate_one, length_append, length_cons]
    omega
  | (key, value) :: (key', value') :: fields => by
    have bound := need_le value
    have more := needFields_le ((key', value') :: fields)
    rw [Wide.members] at more
    rw [needFields, Wide.members, Wide.members, intercalate_cons, length_append, length_append, length_cons,
      length_cons]
    omega
end

theorem length_le_ofText (text : List Char) : text.length ≤ (ofText text).length := by
  induction text with
  | nil => exact Nat.le_refl 0
  | cons c text ih =>
    have some_ := length_pos_iff.2 (utf16_ne_nil c)
    rw [ofText_cons, length_append, length_map, length_cons]
    omega

theorem readText_stringify (v : Wide) : readText (ofText v.stringify) = some v := by
  have bound := Nat.le_trans (need_le v) (length_le_ofText v.stringify)
  have read := readValue_stringify v ((ofText v.stringify).length + 1) [] (by omega) (by simp [Ends])
  rw [append_nil] at read
  rw [readText, read]
  rfl

end Units

namespace Wide

/-- A text is printed for one value only. -/
theorem stringify_injective : Function.Injective stringify := by
  intro v w same
  have read := Units.readText_stringify v
  rw [same, Units.readText_stringify] at read
  exact (Option.some.inj read).symm

theorem parse_stringify (v : Wide) : parse (Units.ofText v.stringify) = some (collapse v) := by
  rw [parse, Units.readText_stringify]
  rfl

theorem put_new {seen : List (Units × Wide)} {key : Units} (fresh : key ∉ seen.map Prod.fst) (value : Wide) :
    put seen key value = seen ++ [(key, value)] := by
  induction seen with
  | nil => rfl
  | cons field seen ih =>
    rw [map_cons, mem_cons, not_or] at fresh
    rw [put, if_neg (Ne.symm fresh.1), ih fresh.2, cons_append]

/-- Members with different keys stay where they are. -/
theorem collapseFields_nodup {fields seen : List (Units × Wide)} (distinct : ((seen ++ fields).map Prod.fst).Nodup) :
    collapseFields fields seen = seen ++ fields.map fun f => (f.1, collapse f.2) := by
  induction fields generalizing seen with
  | nil => rw [collapseFields, map_nil, append_nil]
  | cons field fields ih =>
    have fresh : field.1 ∉ seen.map Prod.fst := by
      rw [map_append, map_cons, nodup_append] at distinct
      intro mem
      exact distinct.2.2 _ mem _ mem_cons_self rfl
    rw [collapseFields, put_new fresh, ih (by simpa using distinct), append_assoc]
    rfl

variable {fields : List (Units × Wide)}

theorem collapse_object (distinct : (fields.map Prod.fst).Nodup) :
    collapse (object fields) = object (fields.map fun f => (f.1, collapse f.2)) := by
  exact congrArg object (collapseFields_nodup distinct)

theorem mem_of_field {key : Units} {value : Wide}
    (found : field key (object fields) = some value) : (key, value) ∈ fields := by
  obtain ⟨f, first, rfl⟩ := Option.map_eq_some_iff.1 found
  have same : f.1 = key := by simpa using find?_some first
  rw [← same]
  exact mem_of_find?_eq_some first

theorem field_collapsed (key : Units) (fields : List (Units × Wide)) :
    field key (object (fields.map fun f => (f.1, collapse f.2))) = (field key (object fields)).map collapse := by
  simp only [field, find?_map, Option.map_map]
  rfl

end Wide

end Js
