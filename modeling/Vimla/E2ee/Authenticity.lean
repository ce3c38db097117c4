import Vimla.E2ee.ConversationRuns
import Vimla.Lib.WideText

/-!
# What a signature binds

The signed bytes are put together without lengths. The header has a fixed length;
the associated data and the init header each begin with bytes that do not occur
in them again, so that they can be told apart from what comes before.
-/

namespace Vimla.E2ee

open Base64 (Bytes)
open List Function Nat
open Js (Units units utf8 utf8_append Absent absent_literal)

theorem units_bytesToB64 (bytes : Bytes) : units (bytesToB64 bytes) = (Base64.encode bytes).map Js.Units.unit := by
  rw [← Js.Units.ofText_small fun c mem => (Base64.encode_ascii bytes c mem).trans (by decide), units, Js.codeUnits, map_flatMap,
    bytesToB64, String.toList_ofList]
  rfl

variable {bytes : Bytes}

section
variable {p q r : UInt8}

/-- A text begins with three bytes that do not occur in it again. -/
structure Marked (p q r : UInt8) (bytes : Bytes) : Prop where
  begins : ∃ rest, bytes = p :: q :: r :: rest
  once : Absent p q r bytes.tail

theorem Marked.not_within {a b more : Bytes} (ha : Marked p q r a) (hb : Marked p q r b) (split : a = more ++ b) :
    more = [] := by
  obtain _ | ⟨x, more⟩ := more
  · rfl
  · obtain ⟨rest, rfl⟩ := hb.begins
    have once := ha.once
    rw [split] at once
    exact absurd rfl (once more rest)

/-- Marked texts at the end of the same bytes are the same. -/
theorem Marked.split {x y a b : Bytes} (ha : Marked p q r a) (hb : Marked p q r b) (same : x ++ a = y ++ b) :
    x = y ∧ a = b := by
  obtain ⟨more, rfl, right⟩ | ⟨more, rfl, right⟩ := append_eq_append_iff.1 same
  · obtain rfl := ha.not_within hb right
    exact ⟨by simp, right⟩
  · obtain rfl := hb.not_within ha right
    exact ⟨by simp, right.symm⟩

theorem absent_of_notMem (none : q ∉ bytes) : Absent p q r bytes := by
  rintro before after rfl
  simp at none

variable {c : Char}

theorem utf8_cons_ascii (ascii : c.toNat ≤ 0x7F) (text : List Char) :
    utf8 (c :: text) = UInt8.ofNat c.toNat :: utf8 text := by
  simp [utf8, Js.encoded_ascii ascii]

/-- The marks of an array or object: no bracket, brace or separator among the other two. -/
structure Marks (p r : UInt8) : Prop where
  slash : p ≠ 0x5C
  quote : p ≠ 0x22
  last : r ≠ 0x22
  comma : (0x2C : UInt8) ≠ p ∧ (0x2C : UInt8) ≠ r
  colon : (0x3A : UInt8) ≠ p ∧ (0x3A : UInt8) ≠ r

theorem digit_chars {m : Nat} (mem : c ∈ (toString m).toList) : c.isDigit = true := by
  rw [toString_eq_repr, toList_repr] at mem
  exact isDigit_of_mem_toDigits (by decide) (by decide) mem

theorem number_chars {n : Int} (mem : c ∈ (toString n).toList) : c.isDigit = true ∨ c = '-' := by
  cases n with
  | ofNat m => exact .inl (digit_chars (m := m) mem)
  | negSucc m =>
    have text : toString (Int.negSucc m) = "-" ++ toString (m + 1) := rfl
    rw [text, String.toList_append] at mem
    obtain minus | mem := mem_append.1 mem
    · exact .inr (by simpa using minus)
    · exact .inl (digit_chars mem)

theorem absent_json (marks : Marks p r) (s : Scalar) : Absent p 0x22 r (utf8 s.json) := by
  cases s with
  | text s => exact absent_literal s marks.slash marks.quote marks.last
  | null => exact absent_of_notMem (by decide)
  | number n =>
    refine absent_of_notMem (Js.quote_notMem_utf8 fun mem => ?_)
    obtain digit | minus := number_chars mem
    · simp at digit
    · simp at minus

theorem absent_commas (marks : Marks p r) {close : Char} (ascii : close.toNat ≤ 0x7F)
    (second : UInt8.ofNat close.toNat ≠ 0x22) (third : UInt8.ofNat close.toNat ≠ r) {items : List (List Char)}
    (each : ∀ item ∈ items, Absent p 0x22 r (utf8 item)) : Absent p 0x22 r (utf8 (commas items ++ [close])) := by
  have ending : Absent p 0x22 r [UInt8.ofNat close.toNat] := by
    intro before after same
    have := congrArg length same
    simp only [length_cons, length_nil, length_append] at this
    omega
  have closing : utf8 [close] = [UInt8.ofNat close.toNat] := utf8_cons_ascii ascii []
  induction items with
  | nil =>
    rw [commas, nil_append, closing]
    exact ending
  | cons item rest ih =>
    obtain _ | ⟨next, rest⟩ := rest
    · rw [commas, utf8_append, closing]
      exact (each item (by simp)).append ending second third
    · have ih := ih fun item mem => each item (mem_cons_of_mem _ mem)
      rw [commas, append_assoc, utf8_append, cons_append, utf8_cons_ascii (by decide)]
      refine (each item (by simp)).append (ih.cons marks.comma.1) (by decide) marks.comma.2
      simp

end

variable {n : Int} {rest more : List Char}

theorem number_inj {m : Int} (same : toString m = toString n) : m = n := by
  have minus : ∀ k : Nat, toString (Int.negSucc k) = "-" ++ toString (k + 1) := fun _ => rfl
  have apart : ∀ j k : Nat, toString (Int.ofNat j) ≠ toString (Int.negSucc k) := by
    intro j k same
    have sign : '-' ∈ (toString j).toList := by
      have text : toString j = "-" ++ toString (k + 1) := same
      rw [text, String.toList_append]
      exact mem_append_left _ (by decide)
    simpa using digit_chars sign
  cases m with
  | ofNat j =>
    cases n with
    | ofNat k => exact congrArg Int.ofNat (toString_injective same)
    | negSucc k => exact absurd same (apart j k)
  | negSucc j =>
    cases n with
    | ofNat k => exact absurd same.symm (apart k j)
    | negSucc k =>
      rw [minus, minus] at same
      have lists := congrArg String.toList same
      simp only [String.toList_append] at lists
      have numbers := toString_injective (String.toList_injective (append_cancel_left lists))
      rw [add_right_cancel numbers]

theorem number_ne_nil (n : Int) : (toString n).toList ≠ [] := by
  cases n with
  | ofNat m =>
    change (toString m).toList ≠ []
    rw [toString_eq_repr, toList_repr]
    exact toDigits_ne_nil
  | negSucc m =>
    have text : toString (Int.negSucc m) = "-" ++ toString (m + 1) := rfl
    rw [text, String.toList_append]
    simp

/-- A value that is not a number does not begin as one. -/
theorem number_begins {c : Char} (same : (toString n).toList ++ rest = c :: more) : c.isDigit = true ∨ c = '-' := by
  obtain ⟨d, digits, split⟩ := exists_cons_of_ne_nil (number_ne_nil n)
  rw [split] at same
  rw [← (cons.inj same).1]
  exact number_chars (by rw [split]; exact mem_cons_self)

/-- What may follow a value. -/
def Separated (rest : List Char) : Prop := ∃ c more, rest = c :: more ∧ (c = ',' ∨ c = ']' ∨ c = '\x7d')

theorem number_ends (ends : Separated rest) :
    ((toString n).toList ++ rest).takeWhile (fun c => c.isDigit || c = '-') = (toString n).toList := by
  obtain ⟨c, more, rfl, separator⟩ := ends
  rw [takeWhile_append_of_pos, takeWhile_cons_of_neg, append_nil]
  · obtain rfl | rfl | rfl := separator <;> decide
  · intro c mem
    simpa using number_chars mem

theorem Scalar.json_inj {s t : Scalar} (ends : Separated rest) (ends' : Separated more)
    (same : s.json ++ rest = t.json ++ more) : s = t ∧ rest = more := by
  cases s with
  | text s =>
    cases t with
    | text t =>
      obtain ⟨rfl, rfl⟩ := Js.Units.literal_inj same
      exact ⟨rfl, rfl⟩
    | number n => simpa using number_begins same.symm
    | null => simp [json, Js.Units.literal] at same
  | number m =>
    cases t with
    | text t => simpa using number_begins same
    | number n =>
      have read := congrArg (takeWhile fun c => c.isDigit || c = '-') same
      simp only [json] at read same
      rw [number_ends ends, number_ends ends'] at read
      rw [read] at same
      rw [number_inj (String.toList_injective read)]
      exact ⟨rfl, append_cancel_left same⟩
    | null =>
      have begins : 'n'.isDigit = true ∨ 'n' = '-' := number_begins same
      exact absurd begins (by decide)
  | null =>
    cases t with
    | text t => simp [json, Js.Units.literal] at same
    | number n =>
      have begins : 'n'.isDigit = true ∨ 'n' = '-' := number_begins same.symm
      exact absurd begins (by decide)
    | null => exact ⟨rfl, append_cancel_left same⟩

/-- Items that tell where they end can be read back from between their commas. -/
theorem commas_inj {α : Type} {f : α → List Char}
    (inj : ∀ a b rest more, Separated rest → Separated more → f a ++ rest = f b ++ more → a = b ∧ rest = more)
    {l m : List α} {close : Char} (ends : close = ']' ∨ close = '\x7d') (length : l.length = m.length)
    (same : commas (l.map f) ++ [close] = commas (m.map f) ++ [close]) : l = m := by
  have closed : Separated [close] := ⟨close, [], rfl, .inr ends⟩
  have comma : ∀ rest, Separated (',' :: rest) := fun rest => ⟨',', rest, rfl, .inl rfl⟩
  induction l generalizing m with
  | nil => exact (length_eq_zero_iff.1 length.symm).symm
  | cons s l ih =>
    obtain _ | ⟨t, m⟩ := m
    · simp at length
    have lengths : l.length = m.length := by simpa using length
    obtain _ | ⟨s', l⟩ := l
    · obtain rfl := length_eq_zero_iff.1 lengths.symm
      rw [(inj _ _ _ _ closed closed same).1]
    · obtain _ | ⟨t', m⟩ := m
      · simp at lengths
      simp only [map_cons, commas, append_assoc, cons_append] at same
      obtain ⟨rfl, rest⟩ := inj _ _ _ _ (comma _) (comma _) same
      rw [ih lengths (cons.inj rest).2]

def fieldJson (f : Units × Scalar) : List Char := f.1.literal ++ ':' :: f.2.json

theorem fieldJson_inj {a b : Units × Scalar} (ends : Separated rest) (ends' : Separated more)
    (same : fieldJson a ++ rest = fieldJson b ++ more) : a = b ∧ rest = more := by
  simp only [fieldJson, append_assoc, cons_append] at same
  obtain ⟨names, values⟩ := Js.Units.literal_inj same
  obtain ⟨value, rests⟩ := Scalar.json_inj ends ends' (cons.inj values).2
  exact ⟨Prod.ext names value, rests⟩

theorem marks_array : Marks 0x5B 0x56 := ⟨by decide, by decide, by decide, by decide, by decide⟩

theorem marks_object : Marks 0x7B 0x69 := ⟨by decide, by decide, by decide, by decide, by decide⟩

theorem buildAssociatedData_marked (ad : EnvelopeAssociatedData) : Marked 0x5B 0x22 0x56 (buildAssociatedData ad) := by
  have opens : buildAssociatedData ad = 0x5B :: utf8 (commas (ad.items.map Scalar.json) ++ [']']) :=
    utf8_cons_ascii (by decide) _
  constructor
  · exact ⟨(utf8 (commas (ad.items.map Scalar.json) ++ [']'])).drop 2, by rw [opens]; rfl⟩
  · rw [opens, tail_cons]
    refine absent_commas marks_array (by decide) (by decide) (by decide) fun item mem => ?_
    obtain ⟨s, _, rfl⟩ := mem_map.1 mem
    exact absent_json marks_array s

theorem serializedInit_marked (init : X3dhInitHeader) : Marked 0x7B 0x22 0x69 (serializedInit (some init)) := by
  have opens : serializedInit (some init) = 0x7B :: utf8 (commas (init.fields.map fun f =>
      (units f.1).literal ++ ':' :: f.2.json) ++ ['\x7d']) := utf8_cons_ascii (by decide) _
  constructor
  · obtain ⟨name, begins⟩ : ∃ name, (units "identityEd25519Public").literal = '"' :: 'i' :: name :=
      ⟨(units "identityEd25519Public").literal.drop 2, by decide⟩
    have text : ∃ rest, jsonObject init.fields = '\x7b' :: '"' :: 'i' :: rest := by
      simp only [jsonObject, X3dhInitHeader.fields, map_cons, commas, begins, cons_append]
      exact ⟨_, rfl⟩
    obtain ⟨rest, text⟩ := text
    rw [serializedInit, Option.elim_some, text, utf8_cons_ascii (by decide), utf8_cons_ascii (by decide),
      utf8_cons_ascii (by decide)]
    exact ⟨utf8 rest, rfl⟩
  · rw [opens, tail_cons]
    refine absent_commas marks_object (by decide) (by decide) (by decide) fun item mem => ?_
    obtain ⟨f, _, rfl⟩ := mem_map.1 mem
    rw [utf8_append, utf8_cons_ascii (by decide)]
    refine (absent_literal _ marks_object.slash marks_object.quote marks_object.last).append ?_ (by decide) (by decide)
    exact (absent_json marks_object f.2).cons (by decide)

theorem buildAssociatedData_ends (ad : EnvelopeAssociatedData) : ∃ rest, buildAssociatedData ad = rest ++ [0x5D] := by
  rw [buildAssociatedData, jsonArray, ← cons_append, utf8_append]
  exact ⟨utf8 ('[' :: commas (ad.items.map Scalar.json)), rfl⟩

theorem serializedInit_ends (init : X3dhInitHeader) : ∃ rest, serializedInit (some init) = rest ++ [0x7D] := by
  rw [serializedInit, Option.elim_some, jsonObject, ← cons_append, utf8_append]
  generalize '\x7b' :: commas (init.fields.map fun f => (units f.1).literal ++ ':' :: f.2.json) = front
  exact ⟨utf8 front, rfl⟩

theorem optional_injective : Injective Scalar.optional := by
  intro a b same
  cases a <;> cases b <;> simp_all [Scalar.optional]

theorem kind_injective : Injective fun k : DirectMessageKind => units k.name := by
  intro a b same
  cases a <;> cases b <;> first | rfl | exact absurd same (by decide)

theorem buildAssociatedData_injective : Injective buildAssociatedData := by
  intro a b same
  have texts : jsonArray a.items = jsonArray b.items := Js.utf8_injective same
  have items := commas_inj (fun _ _ _ _ => Scalar.json_inj) (l := a.items) (m := b.items) (.inl rfl) rfl (cons.inj texts).2
  cases a
  simp only [EnvelopeAssociatedData.items, cons.injEq, Scalar.text.injEq, Scalar.number.injEq, true_and, and_true,
    optional_injective.eq_iff] at items
  obtain ⟨rfl, rfl, rfl, rfl, rfl, rfl, kind, rfl, rfl⟩ := items
  rw [kind_injective kind]

theorem serializedInit_ne_nil (init : X3dhInitHeader) : serializedInit (some init) ≠ serializedInit none := by
  intro same
  obtain ⟨rest, ends⟩ := serializedInit_ends init
  rw [ends] at same
  exact append_ne_nil_of_right_ne_nil rest (by decide) same

theorem serializedInit_injective : Injective serializedInit := by
  intro a b same
  cases a with
  | none =>
    cases b with
    | none => rfl
    | some b => exact absurd same.symm (serializedInit_ne_nil b)
  | some a =>
    cases b with
    | none => exact absurd same (serializedInit_ne_nil a)
    | some b =>
      have texts : jsonObject a.fields = jsonObject b.fields := Js.utf8_injective same
      have inner : commas ((a.fields.map fun f => (units f.1, f.2)).map fieldJson) ++ ['\x7d'] =
          commas ((b.fields.map fun f => (units f.1, f.2)).map fieldJson) ++ ['\x7d'] := by
        rw [map_map, map_map]
        exact (cons.inj texts).2
      have fields := commas_inj (fun _ _ _ _ => fieldJson_inj) (.inr rfl) (by simp [X3dhInitHeader.fields]) inner
      have numbers : Injective fun n : Option Int => n.elim Scalar.null Scalar.number := by
        intro m n same
        cases m <;> cases n <;> simp_all
      cases a
      simp only [X3dhInitHeader.fields, map_cons, map_nil, cons.injEq, Prod.mk.injEq, Scalar.text.injEq,
        Scalar.number.injEq, true_and, and_true, numbers.eq_iff] at fields
      obtain ⟨rfl, rfl, rfl, rfl, rfl⟩ := fields
      rfl

/-- The signed bytes determine each part that is put into them. -/
theorem signaturePayload_injective {header header' ciphertext ciphertext' : Bytes} {ad ad' : EnvelopeAssociatedData}
    {init init' : Option X3dhInitHeader} (whole : header.length = 40) (whole' : header'.length = 40)
    (same : signaturePayload header ciphertext (buildAssociatedData ad) init =
      signaturePayload header' ciphertext' (buildAssociatedData ad') init') :
    header = header' ∧ ciphertext = ciphertext' ∧ ad = ad' ∧ serializedInit init = serializedInit init' := by
  obtain ⟨rfl, rest⟩ := append_inj (append_cancel_left same) (whole.trans whole'.symm)
  have unpack : ciphertext ++ buildAssociatedData ad = ciphertext' ++ buildAssociatedData ad' →
      ciphertext = ciphertext' ∧ ad = ad' := by
    intro parts
    obtain ⟨rfl, bytes⟩ := (buildAssociatedData_marked ad).split (buildAssociatedData_marked ad') parts
    exact ⟨rfl, buildAssociatedData_injective bytes⟩
  rw [← append_assoc, ← append_assoc] at rest
  have apart : ∀ (x : Bytes) (ad : EnvelopeAssociatedData) (y : Bytes) (init : X3dhInitHeader),
      (x ++ buildAssociatedData ad) ++ serializedInit none ≠ y ++ serializedInit (some init) := by
    intro x ad y init same
    obtain ⟨before, ends⟩ := buildAssociatedData_ends ad
    obtain ⟨after, closes⟩ := serializedInit_ends init
    have joined : (x ++ before) ++ [0x5D] = (y ++ after) ++ [0x7D] := by
      rw [ends, closes, ← append_assoc, ← append_assoc] at same
      exact (append_nil _).symm.trans same
    have last := (append_inj' joined rfl).2
    simp at last
  cases init with
  | none =>
    cases init' with
    | none =>
      obtain ⟨rfl, rfl⟩ := unpack (append_cancel_right rest)
      exact ⟨rfl, rfl, rfl, rfl⟩
    | some init' => exact absurd rest (apart _ _ _ _)
  | some init =>
    cases init' with
    | none => exact absurd rest.symm (apart _ _ _ _)
    | some init' =>
      obtain ⟨parts, headers⟩ := (serializedInit_marked init).split (serializedInit_marked init') rest
      obtain ⟨rfl, rfl⟩ := unpack parts
      exact ⟨rfl, rfl, rfl, headers⟩

/-- What a sender passes to `encryptEnvelope`. -/
structure Sending where
  s : RatchetState
  plaintext : Bytes
  ad : EnvelopeAssociatedData
  x3dhInit : Option X3dhInitHeader

section
variable (P : Primitives) (S : Signatures)

/-- The envelope that a call of `encryptEnvelope` comes to. -/
def Sending.envelope (secret : Bytes) (call : Sending) : Except RatchetError WireEnvelope :=
  (encryptEnvelope P S secret call.s call.plaintext call.ad call.x3dhInit).1

/-- What the call passes to `sign`. -/
def Sending.payload (call : Sending) : Option Bytes :=
  match (ratchetEncrypt P call.s call.plaintext (buildAssociatedData call.ad)).1 with
  | .error _ => none
  | .ok made => some (signaturePayload (encodeHeader made.1) made.2 (buildAssociatedData call.ad) call.x3dhInit)

variable {P S} {call : Sending}

theorem Sending.payload_eq (secret : Bytes) (signed : call.payload P = some bytes) :
    ∃ header ciphertext wire, header.dhPublic = call.s.dhsPublic ∧
      bytes = signaturePayload (encodeHeader header) ciphertext (buildAssociatedData call.ad) call.x3dhInit ∧
      call.envelope P S secret = .ok wire ∧ wire.headerB64 = bytesToB64 (encodeHeader header) ∧
      wire.ciphertextB64 = bytesToB64 ciphertext ∧ wire.senderSignatureB64 = bytesToB64 (S.sign secret bytes) ∧
      wire.x3dhInit = call.x3dhInit := by
  unfold payload ratchetEncrypt at signed
  unfold envelope encryptEnvelope ratchetEncrypt
  cases chain : call.s.sendingChainKey with
  | none => simp [chain] at signed
  | some key =>
    simp only [chain, Option.some.injEq] at signed
    exact ⟨_, _, _, rfl, signed.symm, rfl, rfl, rfl, by rw [← signed], rfl⟩

variable {ad : EnvelopeAssociatedData} {envelope : WireEnvelope}

theorem openEnvelope_ok {senderPublic : Bytes} {header : RatchetHeader} {ciphertext : Bytes}
    (accepted : openEnvelope S senderPublic envelope ad = .ok (header, ciphertext)) :
    ∃ headerBytes signature, b64ToBytes envelope.headerB64 = some headerBytes ∧ headerBytes.length = 40 ∧
      b64ToBytes envelope.ciphertextB64 = some ciphertext ∧
      S.verify senderPublic (signaturePayload headerBytes ciphertext (buildAssociatedData ad) envelope.x3dhInit)
        signature = true := by
  unfold openEnvelope at accepted
  split at accepted
  next headerBytes bytes signature readHeader readBytes _ =>
    dsimp only at accepted
    split_ifs at accepted with valid
    unfold decodeHeader at accepted
    by_cases short : headerBytes.length ≠ 40
    · simp [short] at accepted
    · simp only [if_neg short, Except.ok.injEq, Prod.mk.injEq] at accepted
      obtain ⟨_, rfl⟩ := accepted
      exact ⟨headerBytes, signature, readHeader, Decidable.not_not.1 short, readBytes, valid⟩
  · simp at accepted

/-- An envelope as it was made passes every check. -/
theorem openEnvelope_made {secret senderPublic ciphertext : Bytes} {header : RatchetHeader}
    (made : (ratchetEncrypt P call.s call.plaintext (buildAssociatedData call.ad)).1 = .ok (header, ciphertext))
    (decoded : decodeHeader (encodeHeader header) = some header)
    (valid : ∀ bytes, call.payload P = some bytes → S.verify senderPublic bytes (S.sign secret bytes) = true) :
    ∃ wire, call.envelope P S secret = .ok wire ∧ openEnvelope S senderPublic wire call.ad = .ok (header, ciphertext) := by
  have signed := valid _ (by rw [Sending.payload, made])
  simp only [Sending.envelope, encryptEnvelope]
  generalize ratchetEncrypt P call.s call.plaintext (buildAssociatedData call.ad) = attempt at made ⊢
  obtain ⟨result, state⟩ := attempt
  obtain rfl : result = .ok (header, ciphertext) := made
  refine ⟨_, rfl, ?_⟩
  simp only [openEnvelope, b64ToBytes_bytesToB64]
  rw [if_pos signed, decoded]

theorem decryptEnvelope_ok {senderPublic fresh plaintext : Bytes} {s : RatchetState}
    (accepted : (decryptEnvelope P S senderPublic s envelope ad fresh).1 = .ok plaintext) :
    ∃ parts, openEnvelope S senderPublic envelope ad = .ok parts := by
  unfold decryptEnvelope at accepted
  cases opened : openEnvelope S senderPublic envelope ad with
  | error e => simp [opened] at accepted
  | ok parts => exact ⟨parts, rfl⟩

theorem encodeHeader_length {header : RatchetHeader} (whole : header.dhPublic.length = 32) :
    (encodeHeader header).length = 40 := by
  simp [encodeHeader, u32be, whole]

/-- The envelope has the parts of one that the sender made for this context. -/
structure Genuine (P : Primitives) (S : Signatures) (secret : Bytes) (call : Sending) (envelope : WireEnvelope)
    (ad : EnvelopeAssociatedData) (wire : WireEnvelope) : Prop where
  made : call.envelope P S secret = .ok wire
  header : b64ToBytes envelope.headerB64 = b64ToBytes wire.headerB64
  ciphertext : b64ToBytes envelope.ciphertextB64 = b64ToBytes wire.ciphertextB64
  associated : ad = call.ad
  init : envelope.x3dhInit = wire.x3dhInit

end

def letter : Sending where
  s := { initRatchetInitiator symbolic [5] [9, 20] [7] with dhsPublic := List.replicate 32 7 }
  plaintext := [104, 105]
  ad := {
    conversationId := units "c", senderUserId := units "\"u\",", senderDeviceId := units "d",
    clientMessageId := units "m", contentCommitmentB64 := none, recipientDeviceId := [0xD800], kind := .HUMAN,
    interactionEpoch := 0, routingContext := none }
  x3dhInit := some {
    identityEd25519Public := units "a", identityX25519Public := units "b", ephemeralPublic := units "e",
    signedPrekeyId := 1, oneTimePrekeyId := none }

/-- Signatures that are the payload itself, of which one was made. -/
def signedOnce : Signatures where
  sign _ payload := payload
  verify _ payload signature := payload = signature ∧ letter.payload symbolic = some payload

def letterWire : WireEnvelope := (letter.envelope symbolic signedOnce [1]).toOption.getD ⟨"", "", "", 0, 0, "", none⟩

theorem letterWire_opens : ∃ parts, openEnvelope signedOnce [2] letterWire letter.ad = .ok parts ∧
    (ratchetEncrypt symbolic letter.s letter.plaintext (buildAssociatedData letter.ad)).1 = .ok parts := by
  obtain ⟨⟨header, ciphertext⟩, made⟩ :
      ∃ parts, (ratchetEncrypt symbolic letter.s letter.plaintext (buildAssociatedData letter.ad)).1 = .ok parts := ⟨_, rfl⟩
  have decoded : decodeHeader (encodeHeader header) = some header := by
    have own : (⟨letter.s.dhsPublic, letter.s.ns, letter.s.pn⟩ : RatchetHeader) = header :=
      congrArg Prod.fst (Except.ok.inj made)
    rw [← own]
    decide +kernel
  obtain ⟨wire, sent, opened⟩ := @openEnvelope_made symbolic signedOnce letter [1] [2] ciphertext header made decoded
    fun bytes signed => by simp [signedOnce, signed]
  have same : letterWire = wire := by
    rw [letterWire, sent]
    rfl
  exact ⟨_, same ▸ opened, made⟩

end Vimla.E2ee
