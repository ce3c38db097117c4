import Vimla.Context.Lineage
import Vimla.Context.Packer
import Vimla.Lib.WideText

/-!
# Fingerprints of context

`fingerprint.ts`. The encoder prints one text for the values that differ in the
order of keys only, and no text for two other values: it is `JSON.stringify`
after all objects are sorted, and a printed value can be read back.
-/

namespace Vimla.Context.Fingerprint

open Js Base64 Packing List Function Wide Nat

/-- The collation and the digest of bytes. -/
structure Runtime where
  localeCompare : Units → Units → Ordering
  trans : Std.TransCmp localeCompare
  digest : Bytes → Bytes

section
variable (R : Runtime)

mutual
/-- The entries are sorted after their values are printed, which is the same. -/
def canonicalJson : Wide → List Char
  | .null => ['n', 'u', 'l', 'l']
  | .string s => Units.literal s
  | .number n => n.text
  | .boolean value => if value then ['t', 'r', 'u', 'e'] else ['f', 'a', 'l', 's', 'e']
  | .array items => '[' :: (intercalate [','] (canonicalItems items) ++ [']'])
  | .object fields => '\x7b' :: (intercalate [',']
      ((sort (fun left right => R.localeCompare left.1 right.1) (canonicalEntries fields)).map
        fun entry => Units.literal entry.1 ++ ':' :: entry.2) ++ ['\x7d'])

def canonicalItems : List Wide → List (List Char)
  | [] => []
  | item :: items => canonicalJson item :: canonicalItems items

def canonicalEntries : List (Units × Wide) → List (Units × List Char)
  | [] => []
  | (key, value) :: fields => (key, canonicalJson value) :: canonicalEntries fields
end

def hex (bytes : Bytes) : List Char := bytes.flatMap fun b => [digitChar (b.toNat / 16), digitChar (b.toNat % 16)]

def sha256 (value : List Char) : List Char := ['s', 'h', 'a', '2', '5', '6', ':'] ++ hex (R.digest (utf8 value))

/-- `none` where a field is absent or `null`. -/
structure ContextSnapshotItemInput where
  sourceType : ContextSourceType
  sourceId : Units
  sourceVersion : Option Units
  classification : Classification
  contentRef : Option Units
  metadata : Option Wide

def classificationText : Classification → String
  | .PUBLIC => "PUBLIC"
  | .INTERNAL => "INTERNAL"
  | .PRIVATE => "PRIVATE"
  | .RESTRICTED => "RESTRICTED"

def orNull : Option Units → Wide
  | some s => .string s
  | none => .null

def itemFields (item : ContextSnapshotItemInput) : List (Units × Wide) :=
  [
    (units "sourceType", .string (units item.sourceType.text)),
    (units "sourceId", .string item.sourceId),
    (units "sourceVersion", orNull item.sourceVersion),
    (units "classification", .string (units (classificationText item.classification))),
    (units "contentRef", orNull item.contentRef),
    (units "metadata", item.metadata.getD .null)
  ]

def fingerprintContextItem (item : ContextSnapshotItemInput) : List Char := sha256 R (canonicalJson R (.object (itemFields item)))

def fingerprintContextSnapshot (items : List ContextSnapshotItemInput) : List Char :=
  sha256 R (intercalate ['\n'] (items.map (fingerprintContextItem R)))

mutual
/-- The same value with the entries of its objects in another order. -/
inductive Reordered : Wide → Wide → Prop
  | null : Reordered .null .null
  | boolean (value : Bool) : Reordered (.boolean value) (.boolean value)
  | number (value : Numeral) : Reordered (.number value) (.number value)
  | string (value : Units) : Reordered (.string value) (.string value)
  | array (items items' : List Wide) (each : ReorderedItems items items') : Reordered (.array items) (.array items')
  | object (fields fields' shuffled : List (Units × Wide)) (each : ReorderedFields fields fields')
      (perm : fields'.Perm shuffled) : Reordered (.object fields) (.object shuffled)

inductive ReorderedItems : List Wide → List Wide → Prop
  | nil : ReorderedItems [] []
  | cons (item item' : Wide) (items items' : List Wide) (head : Reordered item item') (tail : ReorderedItems items items') :
      ReorderedItems (item :: items) (item' :: items')

inductive ReorderedFields : List (Units × Wide) → List (Units × Wide) → Prop
  | nil : ReorderedFields [] []
  | cons (key : Units) (value value' : Wide) (fields fields' : List (Units × Wide)) (head : Reordered value value')
      (tail : ReorderedFields fields fields') : ReorderedFields ((key, value) :: fields) ((key, value') :: fields')
end

mutual
/-- No two keys of one object compare as equal. -/
def Told : Wide → Prop
  | .array items => ToldItems items
  | .object fields => (fields.map Prod.fst).Pairwise (fun a b => R.localeCompare a b ≠ .eq) ∧ ToldFields fields
  | _ => True

def ToldItems : List Wide → Prop
  | [] => True
  | item :: items => Told item ∧ ToldItems items

def ToldFields : List (Units × Wide) → Prop
  | [] => True
  | (_, value) :: fields => Told value ∧ ToldFields fields
end

mutual
/-- The value with the entries of its objects sorted. -/
def canonical : Wide → Wide
  | .array items => .array (canonicalValues items)
  | .object fields => .object (sort (fun left right => R.localeCompare left.1 right.1) (canonicalFields fields))
  | value => value

def canonicalValues : List Wide → List Wide
  | [] => []
  | item :: items => canonical item :: canonicalValues items

def canonicalFields : List (Units × Wide) → List (Units × Wide)
  | [] => []
  | (key, value) :: fields => (key, canonical value) :: canonicalFields fields
end

end

variable {R : Runtime}

theorem members_eq (fields : List (Units × Wide)) :
    members fields = fields.map fun field => Units.literal field.1 ++ ':' :: field.2.stringify := by
  induction fields with
  | nil => rfl
  | cons field fields ih => rw [members, ih, map_cons]

theorem canonicalFields_eq (fields : List (Units × Wide)) :
    canonicalFields R fields = fields.map fun field => (field.1, canonical R field.2) := by
  induction fields with
  | nil => rfl
  | cons field fields ih => rw [canonicalFields, ih, map_cons]

mutual
/-- The encoder prints the sorted value. -/
theorem canonicalJson_eq : ∀ value, canonicalJson R value = (canonical R value).stringify
  | .null => rfl
  | .boolean true => rfl
  | .boolean false => rfl
  | .number _ => rfl
  | .string _ => rfl
  | .array items => by
    rw [canonicalJson, canonical, stringify, canonicalItems_eq items]
  | .object fields => by
    have sorted := @sort_map _ _ (fun left right => R.localeCompare left.1 right.1) (canonicalFields R fields)
      (fun field => (field.1, field.2.stringify)) (fun left right => R.localeCompare left.1 right.1) fun _ _ _ _ => rfl
    rw [canonicalJson, canonical, stringify, canonicalEntries_eq fields, ← sorted, map_map, members_eq]
    rfl

theorem canonicalItems_eq : ∀ items, canonicalItems R items = elements (canonicalValues R items)
  | [] => rfl
  | item :: items => by
    rw [canonicalItems, canonicalValues, elements, canonicalJson_eq item, canonicalItems_eq items]

theorem canonicalEntries_eq : ∀ fields,
    canonicalEntries R fields = (canonicalFields R fields).map fun field => (field.1, field.2.stringify)
  | [] => rfl
  | (key, value) :: fields => by
    rw [canonicalEntries, canonicalFields, map_cons, canonicalJson_eq value, canonicalEntries_eq fields]
end

mutual
/-- Sorting forgets the order of the entries. -/
theorem canonical_reordered {value value' : Wide} (told : Told R value) : Reordered value value' →
    canonical R value = canonical R value'
  | .null => rfl
  | .boolean _ => rfl
  | .number _ => rfl
  | .string _ => rfl
  | .array items items' each => by
    rw [canonical, canonical, canonicalValues_reordered told each]
  | .object fields fields' shuffled each perm => by
    obtain ⟨keys, values⟩ := told
    have order := R.trans
    have shuffle : (canonicalFields R fields).Perm (canonicalFields R shuffled) := by
      rw [canonicalFields_reordered values each, canonicalFields_eq, canonicalFields_eq]
      exact perm.map _
    have same : (canonicalFields R fields).map Prod.fst = fields.map Prod.fst := by
      rw [canonicalFields_eq, map_map]
      rfl
    rw [canonical, canonical, sort_eq_of_told shuffle (same ▸ keys)]

theorem canonicalValues_reordered {items items' : List Wide} (told : ToldItems R items) : ReorderedItems items items' →
    canonicalValues R items = canonicalValues R items'
  | .nil => rfl
  | .cons item item' items items' head tail => by
    rw [canonicalValues, canonicalValues, canonical_reordered told.1 head, canonicalValues_reordered told.2 tail]

theorem canonicalFields_reordered {fields fields' : List (Units × Wide)} (told : ToldFields R fields) :
    ReorderedFields fields fields' → canonicalFields R fields = canonicalFields R fields'
  | .nil => rfl
  | .cons key value value' fields fields' head tail => by
    rw [canonicalFields, canonicalFields, canonical_reordered told.1 head, canonicalFields_reordered told.2 tail]
end

mutual
/-- Values that are sorted to one value differ in order only. -/
theorem reordered_of_canonical : ∀ value value', canonical R value = canonical R value' → Reordered value value'
  | .null, value', same => by
    cases value' <;> simp only [canonical, reduceCtorEq] at same
    exact .null
  | .boolean b, value', same => by
    cases value' <;> simp only [canonical, reduceCtorEq, boolean.injEq] at same
    exact same ▸ .boolean b
  | .number n, value', same => by
    cases value' <;> simp only [canonical, reduceCtorEq, number.injEq] at same
    exact same ▸ .number n
  | .string s, value', same => by
    cases value' <;> simp only [canonical, reduceCtorEq, string.injEq] at same
    exact same ▸ .string s
  | .array items, value', same => by
    cases value' <;> simp only [canonical, reduceCtorEq, array.injEq] at same
    exact .array _ _ (reorderedItems_of_canonical items _ same)
  | .object fields, value', same => by
    cases value' <;> simp only [canonical, reduceCtorEq, object.injEq] at same
    rename_i fields'
    have perm := perm_of_sort_eq same
    have each : Forall₂ (fun field field' => field = (field'.1, canonical R field'.2)) (canonicalFields R fields') fields' := by
      rw [canonicalFields_eq, forall₂_map_left_iff]
      exact forall₂_same.2 fun _ _ => rfl
    obtain ⟨between, same', shuffle⟩ := perm_comp_forall₂ perm each
    refine .object _ between _ (reorderedFields_of_canonical fields between ?_) shuffle
    rw [canonicalFields_eq between]
    exact forall₂_eq_eq_eq ▸ (forall₂_map_right_iff.2 same')

theorem reorderedItems_of_canonical : ∀ items items', canonicalValues R items = canonicalValues R items' → ReorderedItems items items'
  | [], [], _ => .nil
  | [], _ :: _, same => by cases same
  | _ :: _, [], same => by cases same
  | item :: items, item' :: items', same => by
    obtain ⟨head, tail⟩ := cons.inj same
    exact .cons _ _ _ _ (reordered_of_canonical item item' head) (reorderedItems_of_canonical items items' tail)

theorem reorderedFields_of_canonical : ∀ fields fields', canonicalFields R fields = canonicalFields R fields' →
    ReorderedFields fields fields'
  | [], [], _ => .nil
  | [], _ :: _, same => by cases same
  | _ :: _, [], same => by cases same
  | (key, value) :: fields, (key', value') :: fields', same => by
    obtain ⟨head, tail⟩ := cons.inj same
    obtain ⟨rfl, values⟩ := Prod.mk.inj head
    exact .cons _ _ _ _ _ (reordered_of_canonical value value' values) (reorderedFields_of_canonical fields fields' tail)
end

theorem canonicalJson_iff {value value' : Wide} (told : Told R value) :
    canonicalJson R value = canonicalJson R value' ↔ Reordered value value' := by
  rw [canonicalJson_eq, canonicalJson_eq, stringify_injective.eq_iff]
  exact ⟨reordered_of_canonical value value', canonical_reordered told⟩

/-- Two items agree field by field, the metadata up to the order of keys. -/
structure SameItem (item item' : ContextSnapshotItemInput) : Prop where
  sourceType : item.sourceType = item'.sourceType
  sourceId : item.sourceId = item'.sourceId
  sourceVersion : item.sourceVersion = item'.sourceVersion
  classification : item.classification = item'.classification
  contentRef : item.contentRef = item'.contentRef
  metadata : Reordered (item.metadata.getD .null) (item'.metadata.getD .null)

theorem ReorderedFields.mem {fields fields' : List (Units × Wide)} {key : Units} {value : Wide} :
    ReorderedFields fields fields' → (key, value) ∈ fields → ∃ value', (key, value') ∈ fields' ∧ Reordered value value'
  | .nil, mem => by cases mem
  | .cons _ _ value' _ _ head tail, mem => by
    rcases mem_cons.1 mem with same | mem
    · cases same
      exact ⟨value', mem_cons_self, head⟩
    · obtain ⟨value', mem', same⟩ := tail.mem mem
      exact ⟨value', mem_cons_of_mem _ mem', same⟩

/-- The value of a key in a reordered object. -/
theorem Reordered.value {fields fields' : List (Units × Wide)} {key : Units} {value value' : Wide}
    (same : Reordered (.object fields) (.object fields')) (keys : (fields'.map Prod.fst).Nodup)
    (mem : (key, value) ∈ fields) (mem' : (key, value') ∈ fields') : Reordered value value' := by
  cases same with
  | object _ between _ each perm =>
    obtain ⟨other, listed, reordered⟩ := each.mem mem
    have entry := inj_on_of_nodup_map keys (perm.mem_iff.1 listed) mem' rfl
    rw [← (Prod.mk.inj entry).2]
    exact reordered

theorem Reordered.string_eq {a b : Units} (same : Reordered (.string a) (.string b)) : a = b := by
  cases same
  rfl

theorem Reordered.orNull_eq {a b : Option Units} (same : Reordered (orNull a) (orNull b)) : a = b := by
  cases a with
  | none =>
    cases b with
    | none => rfl
    | some b => cases same
  | some a =>
    cases b with
    | none => cases same
    | some b => rw [same.string_eq]

theorem itemFields_keys (item : ContextSnapshotItemInput) : ((itemFields item).map Prod.fst).Nodup := by
  rw [show (itemFields item).map Prod.fst = [units "sourceType", units "sourceId", units "sourceVersion", units "classification",
    units "contentRef", units "metadata"] from rfl]
  decide

theorem sourceType_injective {a b : ContextSourceType} (same : units a.text = units b.text) : a = b := by
  revert same
  cases a <;> cases b <;> first | exact fun _ => rfl | exact fun same => absurd same (by decide)

theorem classification_injective {a b : Classification} (same : units (classificationText a) = units (classificationText b)) :
    a = b := by
  revert same
  cases a <;> cases b <;> first | exact fun _ => rfl | exact fun same => absurd same (by decide)

theorem canonicalJson_item {item item' : ContextSnapshotItemInput} (told : Told R (item.metadata.getD .null)) :
    canonicalJson R (.object (itemFields item)) = canonicalJson R (.object (itemFields item')) ↔ SameItem item item' := by
  constructor
  · intro same
    rw [canonicalJson_eq, canonicalJson_eq, stringify_injective.eq_iff] at same
    have reordered := reordered_of_canonical _ _ same
    have field {key : Units} {value value' : Wide} (mem : (key, value) ∈ itemFields item) (mem' : (key, value') ∈ itemFields item') :
        Reordered value value' := reordered.value (itemFields_keys item') mem mem'
    refine ⟨?_, ?_, ?_, ?_, ?_, ?_⟩
    · exact sourceType_injective (field (.head _) (.head _)).string_eq
    · exact (field (.tail _ (.head _)) (.tail _ (.head _))).string_eq
    · exact (field (.tail _ (.tail _ (.head _))) (.tail _ (.tail _ (.head _)))).orNull_eq
    · exact classification_injective
        (field (.tail _ (.tail _ (.tail _ (.head _)))) (.tail _ (.tail _ (.tail _ (.head _))))).string_eq
    · exact (field (.tail _ (.tail _ (.tail _ (.tail _ (.head _))))) (.tail _ (.tail _ (.tail _ (.tail _ (.head _)))))).orNull_eq
    · exact field (.tail _ (.tail _ (.tail _ (.tail _ (.tail _ (.head _))))))
        (.tail _ (.tail _ (.tail _ (.tail _ (.tail _ (.head _))))))
  · rintro ⟨sourceType, sourceId, sourceVersion, classification, contentRef, metadata⟩
    have values := canonical_reordered told metadata
    have fields : canonicalFields R (itemFields item) = canonicalFields R (itemFields item') := by
      simp [itemFields, canonicalFields, sourceType, sourceId, sourceVersion, classification, contentRef, values]
    rw [canonicalJson_eq, canonicalJson_eq, canonical, canonical, fields]

theorem digit_injective {m n : Nat} (small : m < 16) (small' : n < 16) (same : digitChar m = digitChar n) : m = n := by
  have all : ∀ m n : Fin 16, digitChar m = digitChar n → m = n := by decide
  exact congrArg Fin.val (all ⟨m, small⟩ ⟨n, small'⟩ same)

theorem hex_injective : Injective hex := by
  intro a
  induction a with
  | nil =>
    intro b same
    cases b with
    | nil => rfl
    | cons y b => cases same
  | cons x a ih =>
    intro b same
    cases b with
    | nil => cases same
    | cons y b =>
      simp only [hex, flatMap_cons, cons_append, nil_append, cons.injEq] at same
      obtain ⟨high, low, rest⟩ := same
      have bound := x.toNat_lt
      have bound' := y.toNat_lt
      have high' := digit_injective (by omega) (by omega) high
      have low' := digit_injective (by omega) (by omega) low
      rw [ih rest, UInt8.toNat_inj.1 (by omega : x.toNat = y.toNat)]

theorem sha256_injective (free : Injective R.digest) : Injective (sha256 R) := by
  intro a b same
  exact utf8_injective (free (hex_injective (append_cancel_left same)))

theorem newline_notMem_sha256 (text : List Char) : '\n' ∉ sha256 R text := by
  have digits : ∀ n : Fin 16, digitChar n ≠ '\n' := by decide
  rw [sha256, mem_append, not_or]
  refine ⟨by decide, fun mem => ?_⟩
  obtain ⟨b, -, mem⟩ := mem_flatMap.1 mem
  have bound := b.toNat_lt
  simp only [mem_cons, not_mem_nil, or_false] at mem
  rcases mem with high | low
  · exact digits ⟨b.toNat / 16, by omega⟩ high.symm
  · exact digits ⟨b.toNat % 16, by omega⟩ low.symm

/-- Canonical texts are equal only for values that are equal up to the order of keys, and fingerprints
of snapshots only for lists that agree item by item. -/
theorem fingerprintContextSnapshot_iff (R : Runtime) (free : Injective R.digest) :
    (∀ value value', Told R value → (canonicalJson R value = canonicalJson R value' ↔ Reordered value value')) ∧
    ∀ items items' : List ContextSnapshotItemInput, (∀ item ∈ items, Told R (item.metadata.getD .null)) →
      (fingerprintContextSnapshot R items = fingerprintContextSnapshot R items' ↔ Forall₂ SameItem items items') := by
  refine ⟨fun value value' told => canonicalJson_iff told, fun items items' told => ?_⟩
  have line (items : List ContextSnapshotItemInput) : ∀ text ∈ items.map (fingerprintContextItem R), text ≠ [] ∧ '\n' ∉ text := by
    intro text mem
    obtain ⟨item, -, rfl⟩ := mem_map.1 mem
    exact ⟨cons_ne_nil _ _, newline_notMem_sha256 _⟩
  have texts : fingerprintContextSnapshot R items = fingerprintContextSnapshot R items' ↔
      items.map (fingerprintContextItem R) = items'.map (fingerprintContextItem R) := by
    constructor
    · exact fun same => Joined.joined_injective (line items) (line items') (sha256_injective free same)
    · intro same
      rw [fingerprintContextSnapshot, fingerprintContextSnapshot, same]
  rw [texts, ← forall₂_eq_eq_eq, forall₂_map_left_iff, forall₂_map_right_iff]
  have item_iff {item item' : ContextSnapshotItemInput} (mem : item ∈ items) :
      fingerprintContextItem R item = fingerprintContextItem R item' ↔ SameItem item item' := by
    rw [fingerprintContextItem, fingerprintContextItem, (sha256_injective free).eq_iff]
    exact canonicalJson_item (told item mem)
  constructor
  · intro all
    exact ((forall₂_and_left _ _).2 ⟨fun _ mem => mem, all⟩).imp fun _ _ both => (item_iff both.1).1 both.2
  · intro all
    exact ((forall₂_and_left _ _).2 ⟨fun _ mem => mem, all⟩).imp fun _ _ both => (item_iff both.1).2 both.2

/-- Code units in order, and a digest without collisions. -/
def ordinal : Runtime where
  localeCompare a b := compare a b
  trans := inferInstanceAs (Std.TransOrd (List UInt16))
  digest := id

/-- A message with two entries of metadata. -/
def noted (metadata : List (Units × Wide)) : ContextSnapshotItemInput where
  sourceType := .USER_MESSAGE
  sourceId := units "message-1"
  sourceVersion := some (units "v1")
  classification := .PRIVATE
  contentRef := none
  metadata := some (.object metadata)

theorem fingerprintContextSnapshot_swapped :
    fingerprintContextSnapshot ordinal [noted [(units "b", .boolean true), (units "a", .null)]] =
      fingerprintContextSnapshot ordinal [noted [(units "a", .null), (units "b", .boolean true)]] := by
  refine ((fingerprintContextSnapshot_iff ordinal injective_id).2 _ _ ?_).2 (.cons ⟨rfl, rfl, rfl, rfl, rfl, ?_⟩ .nil)
  · intro item mem
    rw [mem_singleton.1 mem]
    exact ⟨by decide, trivial, trivial, trivial⟩
  · exact .object _ [(units "b", .boolean true), (units "a", .null)] _
      (.cons _ _ _ _ _ (.boolean true) (.cons _ _ _ _ _ .null .nil)) (.swap _ _ _)

end Vimla.Context.Fingerprint
