import Vimla.Lib.Json
import Vimla.Lib.Sorting

/-!
# Fingerprints of artifact content

`fingerprint.ts`, and what the database returns of a JSON value that it stores:
`jsonb` keeps the values and drops the order of an object's keys.
-/

namespace Vimla.Artifacts

open Js

/-- What the service is given: the collation, the digest and the column type. -/
structure Runtime where
  localeCompare : String → String → Ordering
  trans : Std.TransCmp localeCompare
  sha256 : String → String
  jsonb : Json → Json

inductive ArtifactContent
  | CONTENT_REF (ref : String)
  | INLINE_JSON (value : Json)

section
variable (R : Runtime)

mutual
/-- The entries are sorted after their values are printed, which is the same. -/
def canonicalJson : Json → String
  | .null => "null"
  | .string s => Json.quote s
  | .number n => n.text
  | .boolean value => if value then "true" else "false"
  | .array items => "[" ++ String.intercalate "," (canonicalItems items) ++ "]"
  | .object fields => "\x7b" ++ String.intercalate ","
      ((Js.sort (fun left right => R.localeCompare left.1 right.1) (canonicalEntries fields)).map
        fun entry => Json.quote entry.1 ++ ":" ++ entry.2) ++ "\x7d"

def canonicalItems : List Json → List String
  | [] => []
  | item :: items => canonicalJson item :: canonicalItems items

def canonicalEntries : List (String × Json) → List (String × String)
  | [] => []
  | (key, value) :: fields => (key, canonicalJson value) :: canonicalEntries fields
end

def fingerprintArtifactContent (content : ArtifactContent) : String :=
  let payload := match content with
    | .CONTENT_REF ref => "ref:" ++ ref
    | .INLINE_JSON value => "json:" ++ canonicalJson R value
  "sha256:" ++ R.sha256 payload

mutual
/-- The same value with the entries of its objects in another order. -/
inductive Reordered : Json → Json → Prop
  | null : Reordered .null .null
  | boolean (value : Bool) : Reordered (.boolean value) (.boolean value)
  | number (value : Js.Number) : Reordered (.number value) (.number value)
  | string (value : String) : Reordered (.string value) (.string value)
  | array (items items' : List Json) (each : ReorderedItems items items') : Reordered (.array items) (.array items')
  | object (fields fields' shuffled : List (String × Json)) (each : ReorderedFields fields fields')
      (perm : fields'.Perm shuffled) : Reordered (.object fields) (.object shuffled)

inductive ReorderedItems : List Json → List Json → Prop
  | nil : ReorderedItems [] []
  | cons (item item' : Json) (items items' : List Json) (head : Reordered item item') (tail : ReorderedItems items items') :
      ReorderedItems (item :: items) (item' :: items')

inductive ReorderedFields : List (String × Json) → List (String × Json) → Prop
  | nil : ReorderedFields [] []
  | cons (key : String) (value value' : Json) (fields fields' : List (String × Json)) (head : Reordered value value')
      (tail : ReorderedFields fields fields') : ReorderedFields ((key, value) :: fields) ((key, value') :: fields')
end

mutual
theorem Reordered.refl : ∀ value, Reordered value value
  | .null => .null
  | .boolean value => .boolean value
  | .number value => .number value
  | .string value => .string value
  | .array items => .array items items (ReorderedItems.refl items)
  | .object fields => .object fields fields fields (ReorderedFields.refl fields) (List.Perm.refl fields)

theorem ReorderedItems.refl : ∀ items, ReorderedItems items items
  | [] => .nil
  | item :: items => .cons item item items items (Reordered.refl item) (ReorderedItems.refl items)

theorem ReorderedFields.refl : ∀ fields, ReorderedFields fields fields
  | [] => .nil
  | (key, value) :: fields => .cons key value value fields fields (Reordered.refl value) (ReorderedFields.refl fields)
end

mutual
/-- No two keys of one object compare as equal. -/
def Told : Json → Prop
  | .array items => ToldItems items
  | .object fields => (fields.map Prod.fst).Pairwise (fun a b => R.localeCompare a b ≠ .eq) ∧ ToldFields fields
  | _ => True

def ToldItems : List Json → Prop
  | [] => True
  | item :: items => Told item ∧ ToldItems items

def ToldFields : List (String × Json) → Prop
  | [] => True
  | (_, value) :: fields => Told value ∧ ToldFields fields
end

end

section Canonical
variable {R : Runtime}

theorem canonicalEntries_keys (fields : List (String × Json)) :
    (canonicalEntries R fields).map Prod.fst = fields.map Prod.fst := by
  induction fields with
  | nil => rfl
  | cons field fields ih => simp [canonicalEntries, ih]

theorem canonicalEntries_eq (fields : List (String × Json)) :
    canonicalEntries R fields = fields.map fun field => (field.1, canonicalJson R field.2) := by
  induction fields with
  | nil => rfl
  | cons field fields ih => simp [canonicalEntries, ih]

/-- Entries that the comparison tells apart are printed in one order. -/
theorem sort_entries {entries entries' : List (String × String)} (perm : entries.Perm entries')
    (told : (entries.map Prod.fst).Pairwise fun a b => R.localeCompare a b ≠ .eq) :
    Js.sort (fun left right => R.localeCompare left.1 right.1) entries =
      Js.sort (fun left right => R.localeCompare left.1 right.1) entries' := by
  have byKey := R.trans
  exact Js.sort_eq_of_told perm told

mutual
/-- Printing forgets the order of the entries. -/
theorem canonicalJson_reordered {value value' : Json} (told : Told R value) : Reordered value value' →
    canonicalJson R value' = canonicalJson R value
  | .null => rfl
  | .boolean _ => rfl
  | .number _ => rfl
  | .string _ => rfl
  | .array items items' each => by
    rw [canonicalJson, canonicalJson, canonicalItems_reordered told each]
  | .object fields fields' shuffled each perm => by
    obtain ⟨keys, values⟩ := told
    have same := canonicalEntries_reordered values each
    have entries : (canonicalEntries R fields).Perm (canonicalEntries R shuffled) := by
      rw [← same, canonicalEntries_eq, canonicalEntries_eq]
      exact perm.map _
    rw [canonicalJson, canonicalJson, sort_entries entries (canonicalEntries_keys fields ▸ keys)]

theorem canonicalItems_reordered {items items' : List Json} (told : ToldItems R items) : ReorderedItems items items' →
    canonicalItems R items' = canonicalItems R items
  | .nil => rfl
  | .cons item item' items items' head tail => by
    rw [canonicalItems, canonicalItems, canonicalJson_reordered told.1 head, canonicalItems_reordered told.2 tail]

theorem canonicalEntries_reordered {fields fields' : List (String × Json)} (told : ToldFields R fields) :
    ReorderedFields fields fields' → canonicalEntries R fields' = canonicalEntries R fields
  | .nil => rfl
  | .cons key value value' fields fields' head tail => by
    rw [canonicalEntries, canonicalEntries, canonicalJson_reordered told.1 head, canonicalEntries_reordered told.2 tail]
end

end Canonical

end Vimla.Artifacts
