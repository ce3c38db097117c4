import Vimla.DirectMessages.Sending

/-!
# Human payloads

A plaintext carries a text, what it answers and a key of its own. Its identity is a
keyed digest of the first two, so that no other content passes for it.
-/

namespace Vimla.DirectChats.HumanWire

open Base64 (Bytes)
open E2ee (bytesToB64)
open Js Wide
open List

/-- `two` is a numeral that JSON may write in other ways as well. -/
structure Runtime where
  hmacSha256 : Bytes → Bytes → Bytes
  equalsTwo : Numeral → Bool
  two : equalsTwo ⟨['2'], rfl⟩ = true

structure DirectReplyReference where
  clientMessageId : Units
  contentCommitmentB64 : Units
  senderUserId : Units
  senderDeviceId : Units
  deriving DecidableEq

def isOneOf (chars : List Char) (u : UInt16) : Bool := u ∈ chars.map Units.unit

def isHex (u : UInt16) : Bool := (Units.hexDigit u).isSome

def isMatch : List (UInt16 → Bool) → Units → Bool
  | [], [] => true
  | shape :: shapes, u :: text => shape u && isMatch shapes text
  | _, _ => false

/-- `/^[0-9a-f]{8}-[0-9a-f]{4}-[1-8][0-9a-f]{3}-[89ab][0-9a-f]{3}-[0-9a-f]{12}$/i` -/
def uuid : List (UInt16 → Bool) :=
  replicate 8 isHex ++ isOneOf ['-'] :: replicate 4 isHex ++ isOneOf ['-'] :: isOneOf "12345678".toList ::
    replicate 3 isHex ++ isOneOf ['-'] :: isOneOf "89abAB".toList :: replicate 3 isHex ++ isOneOf ['-'] ::
    replicate 12 isHex

/-- `/^[A-Za-z0-9+/]{43}=$/` -/
def commitment : List (UInt16 → Bool) :=
  replicate 43 (fun u => u.toNat < 0x80 && (Base64.value (Char.ofNat u.toNat)).isSome) ++ [isOneOf ['=']]

def DirectReplyReference.Formed (ref : DirectReplyReference) : Prop :=
  isMatch commitment ref.contentCommitmentB64 ∧ isMatch uuid ref.clientMessageId ∧
  1 ≤ ref.senderUserId.length ∧ ref.senderUserId.length ≤ 128 ∧ isMatch uuid ref.senderDeviceId

instance (ref : DirectReplyReference) : Decidable ref.Formed := inferInstanceAs (Decidable (_ ∧ _))

def readDirectReplyReference (input : Wide) : Option DirectReplyReference :=
  match input with
  | .object value =>
    match input.field (units "contentCommitmentB64"), input.field (units "clientMessageId"),
      input.field (units "senderUserId"), input.field (units "senderDeviceId") with
    | some (.string contentCommitmentB64), some (.string clientMessageId), some (.string senderUserId),
        some (.string senderDeviceId) =>
      let ref := { clientMessageId, contentCommitmentB64, senderUserId, senderDeviceId }
      if value.length = 4 ∧ ref.Formed then some ref else none
    | _, _, _, _ => none
  | _ => none

structure HumanPayload where
  text : Units
  replyTo : Option DirectReplyReference
  deriving DecidableEq

def canonicalContent (payload : HumanPayload) : List Char :=
  (array [.string payload.text,
    match payload.replyTo with
    | some ref => .array [.string ref.clientMessageId, .string ref.contentCommitmentB64, .string ref.senderUserId,
        .string ref.senderDeviceId]
    | none => .null]).stringify

def DOMAIN : Bytes := utf8 "VimlaHumanContentIdentityV2\x00".toList

def b64ToBytes (value : Units) : Option Bytes := Base64.decode (value.map fun u => Char.ofNat u.toNat)

variable (R : Runtime)

def computeHumanContentCommitment (secretB64 : Units) (canonicalContent : List Char) : Option String := do
  let secret ← b64ToBytes secretB64
  if secret.length ≠ 32 ∨ units (bytesToB64 secret) ≠ secretB64 then none
  else return bytesToB64 (R.hmacSha256 secret (DOMAIN ++ utf8 canonicalContent))

def boundHumanContentCommitment (secretB64 : Units) (canonicalContent : List Char) : Option String :=
  computeHumanContentCommitment R secretB64 canonicalContent

def boundHumanClientMessageId (secretB64 : Units) (canonicalContent : List Char) : Option String :=
  match computeHumanContentCommitment R secretB64 canonicalContent with
  | some commitment => if commitment = "" then none else DirectMessages.humanClientIdFromCommitment commitment
  | none => none

def wire (text : Units) (replyTo : Option Wide) (bindingKey : Units) : List (Units × Wide) :=
  [(units "type", .string (units "human")), (units "version", .number ⟨['2'], rfl⟩), (units "text", .string text)] ++
  (replyTo.map fun value => (units "replyTo", value)).toList ++ [(units "bindingKey", .string bindingKey)]

/-- A reference is an object, given by its members; `none` is a throw. -/
def encodeDirectHumanPayload (bindingKey : Bytes) (text : Units) (replyTo : Option (List (Units × Wide))) :
    Option Units :=
  if replyTo.any fun value => (readDirectReplyReference (.object value)).isNone then none
  else some (Units.ofText (object (wire text (replyTo.map .object) (units (bytesToB64 bindingKey)))).stringify)

def wireKeys : List Units := ["type", "version", "text", "replyTo", "bindingKey"].map units

/-- The payload and its key. -/
def parseWire (text : Units) : Option (HumanPayload × Units) :=
  match parse text with
  | some (.object fields) =>
    let value := object fields
    match value.field (units "type"), value.field (units "version"), value.field (units "text"),
      value.field (units "bindingKey") with
    | some (.string type), some (.number version), some (.string text), some (.string bindingKey) =>
      if type = units "human" ∧ R.equalsTwo version ∧ ∀ f ∈ fields, f.1 ∈ wireKeys then
        match value.field (units "replyTo") with
        | none => some ({ text, replyTo := none }, bindingKey)
        | some reply => (readDirectReplyReference reply).map fun ref => ({ text, replyTo := some ref }, bindingKey)
      else none
    | _, _, _, _ => none
  | _ => none

def directHumanContentCommitment (plaintext : Units) : Option String :=
  (parseWire R plaintext).bind fun parsed => boundHumanContentCommitment R parsed.2 (canonicalContent parsed.1)

def directHumanClientMessageId (plaintext : Units) : Option String :=
  (parseWire R plaintext).bind fun parsed => boundHumanClientMessageId R parsed.2 (canonicalContent parsed.1)

structure DirectHumanMessage where
  clientMessageId : String
  contentCommitmentB64 : String
  plaintext : Units

/-- `bindingKey` is what `generateHumanBindingKey` draws. -/
def createDirectHumanMessage (bindingKey : Bytes) (text : Units) (replyTo : Option (List (Units × Wide))) :
    Option DirectHumanMessage := do
  let plaintext ← encodeDirectHumanPayload bindingKey text replyTo
  let clientMessageId ← directHumanClientMessageId R plaintext
  let contentCommitmentB64 ← directHumanContentCommitment R plaintext
  if clientMessageId = "" ∨ contentCommitmentB64 = "" then none
  else return { clientMessageId, contentCommitmentB64, plaintext }

/-- The outer `none` of an expected value is `undefined`. -/
def decodeDirectHumanPayload (text : Units) (expectedClientMessageId : Option Units)
    (expectedContentCommitmentB64 : Option (Option Units)) : Option HumanPayload := do
  let parsed ← parseWire R text
  let actualId ← directHumanClientMessageId R text
  let full ← directHumanContentCommitment R text
  if actualId = "" ∨ full = "" ∨ (∃ id ∈ expectedClientMessageId, units actualId ≠ id) ∨
      (expectedClientMessageId.isSome ∧
        (expectedContentCommitmentB64.join = none ∨ expectedContentCommitmentB64.join = some [])) ∨
      ∃ expected ∈ expectedContentCommitmentB64, some (units full) ≠ expected then none
  else return parsed.1

def DirectReplyReference.entries (ref : DirectReplyReference) : List (Units × Wide) :=
  [(units "contentCommitmentB64", .string ref.contentCommitmentB64), (units "clientMessageId", .string ref.clientMessageId),
    (units "senderUserId", .string ref.senderUserId), (units "senderDeviceId", .string ref.senderDeviceId)]

theorem entries_distinct (ref : DirectReplyReference) : (ref.entries.map Prod.fst).Nodup := by
  have names : [units "contentCommitmentB64", units "clientMessageId", units "senderUserId", units "senderDeviceId"].Nodup := by
    decide
  exact names

variable {fields : List (Units × Wide)} {ref : DirectReplyReference}

theorem read_iff : readDirectReplyReference (.object fields) = some ref ↔
    fields.length = 4 ∧ ref.Formed ∧ ∀ e ∈ ref.entries, field e.1 (.object fields) = some e.2 := by
  simp only [DirectReplyReference.entries, forall_mem_cons, not_mem_nil, false_imp_iff, implies_true, and_true]
  constructor
  · intro read
    rw [readDirectReplyReference] at read
    split at read
    · rename_i commitment id user device
      simp only at read
      split at read
      · rename_i accepted
        rw [← Option.some.inj read]
        exact ⟨accepted.1, accepted.2, commitment, id, user, device⟩
      · cases read
    · cases read
  · rintro ⟨four, formed, commitment, id, user, device⟩
    simp [readDirectReplyReference, commitment, id, user, device, four, formed]

/-- A reference is read from its own members only, in whatever order. -/
theorem read_perm (read : readDirectReplyReference (.object fields) = some ref) : ref.entries.Perm fields := by
  obtain ⟨four, _, found⟩ := read_iff.1 read
  have among : ref.entries ⊆ fields := fun e mem => mem_of_field (found e mem)
  exact (subperm_of_subset (entries_distinct ref).of_map among).perm_of_length_le (by rw [four]; rfl)

theorem read_collapse (read : readDirectReplyReference (.object fields) = some ref) :
    readDirectReplyReference (collapse (.object fields)) = some ref := by
  obtain ⟨four, formed, found⟩ := read_iff.1 read
  rw [collapse_object (((read_perm read).map Prod.fst).nodup_iff.1 (entries_distinct ref))]
  refine read_iff.2 ⟨by rw [length_map, four], formed, ?_⟩
  intro e mem
  rw [field_collapsed, found e mem]
  simp only [DirectReplyReference.entries, mem_cons, not_mem_nil, or_false] at mem
  obtain rfl | rfl | rfl | rfl := mem <;> rfl

variable {R} {key : Bytes} {text plaintext : Units} {replyTo : Option (List (Units × Wide))}

theorem wire_sublist (text : Units) (reply : Option Wide) (bindingKey : Units) :
    ((wire text reply bindingKey).map Prod.fst).Sublist wireKeys := by
  have without : (["type", "version", "text", "bindingKey"].map units).Sublist wireKeys := by decide
  cases reply with
  | none => exact without
  | some reply => exact Sublist.refl _

theorem wire_fields (text : Units) (reply : Option Wide) (bindingKey : Units) :
    let value := object (wire text reply bindingKey)
    value.field (units "type") = some (.string (units "human")) ∧ value.field (units "version") = some (.number ⟨['2'], rfl⟩) ∧
    value.field (units "text") = some (.string text) ∧ value.field (units "replyTo") = reply ∧
    value.field (units "bindingKey") = some (.string bindingKey) := by
  cases reply <;> exact ⟨rfl, rfl, rfl, rfl, rfl⟩

theorem parse_wire (reply : Option Wide) (bindingKey : Units) :
    parse (Units.ofText (object (wire text reply bindingKey)).stringify) =
      some (.object (wire text (reply.map collapse) bindingKey)) := by
  have distinct : wireKeys.Nodup := by decide
  rw [parse_stringify, collapse_object ((wire_sublist text reply bindingKey).nodup distinct)]
  cases reply <;> rfl

theorem parseWire_encode (encoded : encodeDirectHumanPayload key text replyTo = some plaintext) :
    parseWire R plaintext = some (⟨text, replyTo.bind fun value => readDirectReplyReference (.object value)⟩,
      units (bytesToB64 key)) := by
  rw [encodeDirectHumanPayload] at encoded
  split at encoded
  · cases encoded
  · rename_i accepted
    obtain rfl := Option.some.inj encoded
    obtain ⟨type, version, content, reply, bindingKey⟩ :=
      wire_fields text ((replyTo.map object).map collapse) (units (bytesToB64 key))
    have keys : ∀ f ∈ wire text ((replyTo.map object).map collapse) (units (bytesToB64 key)), f.1 ∈ wireKeys :=
      fun f mem => (wire_sublist ..).subset (mem_map_of_mem mem)
    simp only [parseWire, parse_wire, type, version, content, reply, bindingKey, R.two, true_and]
    rw [if_pos keys]
    cases replyTo with
    | none => rfl
    | some fields =>
      obtain ⟨ref, read⟩ := Option.ne_none_iff_exists'.1 (by simpa using accepted)
      simp [read_collapse read, read]

theorem b64ToBytes_units (bytes : Bytes) : b64ToBytes (units (bytesToB64 bytes)) = some bytes := by
  have back : ((Base64.encode bytes).map Units.unit).map (fun u => Char.ofNat u.toNat) = Base64.encode bytes := by
    rw [map_map]
    refine (map_congr_left fun c mem => ?_).trans (map_id _)
    rw [Function.comp_apply, Units.unit_toNat ((Base64.encode_ascii bytes c mem).trans (by decide)), Char.ofNat_toNat, id]
  rw [b64ToBytes, E2ee.units_bytesToB64, back, Base64.decode_encode]

theorem bytesToB64_units_inj {a b : Bytes} (same : units (bytesToB64 a) = units (bytesToB64 b)) : a = b := by
  have read := congrArg b64ToBytes same
  rw [b64ToBytes_units, b64ToBytes_units] at read
  exact Option.some.inj read

theorem canonicalContent_injective : Function.Injective canonicalContent := by
  intro p q same
  obtain ⟨text, replyTo⟩ := p
  obtain ⟨text', replyTo'⟩ := q
  have values := stringify_injective same
  simp only [array.injEq, cons.injEq, string.injEq, and_true] at values
  obtain ⟨rfl, references⟩ := values
  rcases replyTo with _ | ⟨id, commitment, user, device⟩ <;> rcases replyTo' with _ | ⟨id', commitment', user', device'⟩
  · rfl
  · cases references
  · cases references
  · simp only [array.injEq, cons.injEq, string.injEq, and_true] at references
    obtain ⟨rfl, rfl, rfl, rfl⟩ := references
    rfl

/-- The key and the message of the digest of a plaintext. -/
def hashed (R : Runtime) (plaintext : Units) : Option (Bytes × Bytes) :=
  (parseWire R plaintext).bind fun parsed =>
    (b64ToBytes parsed.2).map fun secret => (secret, DOMAIN ++ utf8 (canonicalContent parsed.1))

def digest (R : Runtime) (secret : Bytes) (payload : HumanPayload) : Bytes :=
  R.hmacSha256 secret (DOMAIN ++ utf8 (canonicalContent payload))

variable {payload : HumanPayload} {secret : Bytes} {full : String}

section
variable (parsed : parseWire R plaintext = some (payload, units (bytesToB64 secret)))
include parsed

theorem commitment_of_parsed (long : secret.length = 32) : directHumanContentCommitment R plaintext = some (bytesToB64 (digest R secret payload)) := by
  simp [directHumanContentCommitment, parsed, boundHumanContentCommitment, computeHumanContentCommitment,
    b64ToBytes_units, long, digest]

theorem hashed_of_parsed :
    hashed R plaintext = some (secret, DOMAIN ++ utf8 (canonicalContent payload)) := by
  simp [hashed, parsed, b64ToBytes_units]

end

theorem clientMessageId_of_commitment (found : directHumanContentCommitment R plaintext = some full) (filled : full ≠ "") :
    directHumanClientMessageId R plaintext = DirectMessages.humanClientIdFromCommitment full := by
  obtain ⟨parsed, wire, bound⟩ := Option.bind_eq_some_iff.1 found
  rw [directHumanClientMessageId, wire, Option.bind_some, boundHumanClientMessageId]
  rw [boundHumanContentCommitment] at bound
  rw [bound]
  exact if_neg filled

/-- A commitment is that of a key of 32 bytes. -/
theorem parsed_of_commitment (found : directHumanContentCommitment R plaintext = some full) :
    ∃ payload secret, parseWire R plaintext = some (payload, units (bytesToB64 secret)) ∧ secret.length = 32 ∧
      full = bytesToB64 (digest R secret payload) := by
  obtain ⟨⟨payload, bindingKey⟩, parsed, bound⟩ := Option.bind_eq_some_iff.1 found
  obtain ⟨secret, read, rest⟩ := Option.bind_eq_some_iff.1 bound
  split at rest
  · cases rest
  · rename_i canonical
    obtain ⟨long, same⟩ := not_or.1 canonical
    rw [not_not] at long same
    exact ⟨payload, secret, by rw [same]; exact parsed, long, (Option.some.inj rest).symm⟩

variable {hash : Bytes}

theorem clientId_length {id : String}
    (found : DirectMessages.humanClientIdFromCommitment (bytesToB64 hash) = some id) : hash.length = 32 := by
  rw [DirectMessages.humanClientIdFromCommitment, E2ee.b64ToBytes_bytesToB64] at found
  by_contra short
  simp [short] at found

theorem clientId_of_length (long : hash.length = 32) :
    ∃ id, DirectMessages.humanClientIdFromCommitment (bytesToB64 hash) = some id ∧ id ≠ "" := by
  refine ⟨_, by simp [DirectMessages.humanClientIdFromCommitment, E2ee.b64ToBytes_bytesToB64, long]; rfl, ?_⟩
  intro empty
  have chars := congrArg String.toList empty
  simp at chars

/-- What an accepted plaintext passes under. -/
theorem decode_some {expectedId : Option Units} {expected : Option (Option Units)}
    (accepted : decodeDirectHumanPayload R plaintext expectedId expected = some payload) :
    ∃ secret, parseWire R plaintext = some (payload, units (bytesToB64 secret)) ∧ secret.length = 32 ∧
      (∀ commitment ∈ expected, commitment = some (units (bytesToB64 (digest R secret payload)))) ∧
      ∀ id ∈ expectedId, expected.isSome ∧
        (DirectMessages.humanClientIdFromCommitment (bytesToB64 (digest R secret payload))).map units = some id := by
  obtain ⟨parsed, wire, accepted⟩ := Option.bind_eq_some_iff.1 accepted
  obtain ⟨actualId, named, accepted⟩ := Option.bind_eq_some_iff.1 accepted
  obtain ⟨full, found, accepted⟩ := Option.bind_eq_some_iff.1 accepted
  split at accepted
  · cases accepted
  · rename_i passes
    simp only [not_or, not_exists, not_and, not_not] at passes
    obtain ⟨_, filled, sameId, given, same⟩ := passes
    obtain ⟨payload', secret, parsed', long, rfl⟩ := parsed_of_commitment found
    obtain rfl := Option.some.inj accepted
    obtain rfl := Option.some.inj (wire.symm.trans parsed')
    rw [clientMessageId_of_commitment found filled] at named
    refine ⟨secret, wire, long, fun commitment mem => (same commitment mem).symm, ?_⟩
    intro id mem
    refine ⟨?_, by rw [named, Option.map_some, sameId id mem]⟩
    cases expected with
    | none => exact absurd rfl (given (Option.isSome_of_mem mem)).1
    | some commitment => rfl

/-- A plaintext of which the commitment is known, and so the identity. -/
theorem decode_of_parsed (parsed : parseWire R plaintext = some (payload, units (bytesToB64 secret)))
    (long : secret.length = 32) (whole : (digest R secret payload).length = 32) :
    ∃ id, id ≠ "" ∧ bytesToB64 (digest R secret payload) ≠ "" ∧ directHumanClientMessageId R plaintext = some id ∧
      decodeDirectHumanPayload R plaintext (some (units id)) (some (some (units (bytesToB64 (digest R secret payload))))) =
        some payload := by
  have found := commitment_of_parsed parsed long
  obtain ⟨id, named, solid⟩ := clientId_of_length whole
  have filled : bytesToB64 (digest R secret payload) ≠ "" := by
    intro empty
    rw [empty] at named
    cases named
  have written : units (bytesToB64 (digest R secret payload)) ≠ [] := by
    intro empty
    have read := b64ToBytes_units (digest R secret payload)
    rw [empty] at read
    rw [← Option.some.inj read] at whole
    cases whole
  have same := (clientMessageId_of_commitment found filled).trans named
  refine ⟨id, solid, filled, same, ?_⟩
  simp [decodeDirectHumanPayload, parsed, same, found, solid, filled, written]

/-- A message is read back as it was created. Where the digest is injective, a commitment has one
content; and an identity alone lets nothing pass. -/
theorem decodeDirectHumanPayload_bound (R : Runtime) :
    ((∀ secret message, (R.hmacSha256 secret message).length = 32) →
      ∀ (bindingKey : Bytes) (text : Units) (replyTo : Option (List (Units × Wide))), bindingKey.length = 32 →
      (∀ value ∈ replyTo, (readDirectReplyReference (.object value)).isSome) →
      ∃ message, createDirectHumanMessage R bindingKey text replyTo = some message ∧
        decodeDirectHumanPayload R message.plaintext (some (units message.clientMessageId))
          (some (some (units message.contentCommitmentB64))) =
          some ⟨text, replyTo.bind fun value => readDirectReplyReference (.object value)⟩) ∧
    (∀ pairs : Set (Bytes × Bytes), pairs.InjOn (fun pair => R.hmacSha256 pair.1 pair.2) →
      ∀ (p q : Units) (id id' : Option Units) (commitment : Option Units) (a b : HumanPayload),
      decodeDirectHumanPayload R p id (some commitment) = some a →
      decodeDirectHumanPayload R q id' (some commitment) = some b →
      (∀ pair ∈ hashed R p, pair ∈ pairs) → (∀ pair ∈ hashed R q, pair ∈ pairs) → a = b) ∧
    ∀ (plaintext id : Units) (commitment : Option (Option Units)) (payload : HumanPayload),
      decodeDirectHumanPayload R plaintext (some id) commitment = some payload →
      ∃ secret, hashed R plaintext = some (secret, DOMAIN ++ utf8 (canonicalContent payload)) ∧
        (digest R secret payload).length = 32 ∧
        commitment = some (some (units (bytesToB64 (digest R secret payload)))) ∧
        (DirectMessages.humanClientIdFromCommitment (bytesToB64 (digest R secret payload))).map units = some id := by
  refine ⟨?_, ?_, ?_⟩
  · intro digests bindingKey text replyTo long readable
    obtain ⟨plaintext, encoded⟩ : ∃ plaintext, encodeDirectHumanPayload bindingKey text replyTo = some plaintext := by
      rw [encodeDirectHumanPayload, if_neg]
      · exact ⟨_, rfl⟩
      · cases replyTo with
        | none => exact Bool.false_ne_true
        | some value => simpa using Option.isSome_iff_ne_none.1 (readable value rfl)
    have parsed := parseWire_encode (R := R) encoded
    obtain ⟨id, solid, filled, named, decoded⟩ := decode_of_parsed parsed long (digests _ _)
    refine ⟨⟨id, bytesToB64 (digest R bindingKey _), plaintext⟩, ?_, decoded⟩
    simp [createDirectHumanMessage, encoded, named, commitment_of_parsed parsed long, solid, filled]
  · intro pairs injective p q id id' commitment a b left right inP inQ
    obtain ⟨secret, parsed, _, same, _⟩ := decode_some left
    obtain ⟨secret', parsed', _, same', _⟩ := decode_some right
    have bytes : digest R secret a = digest R secret' b :=
      bytesToB64_units_inj (Option.some.inj ((same _ rfl).symm.trans (same' _ rfl)))
    have both := injective (inP _ (hashed_of_parsed parsed)) (inQ _ (hashed_of_parsed parsed')) bytes
    exact canonicalContent_injective (utf8_injective (append_cancel_left (Prod.mk.inj both).2))
  · intro plaintext id commitment payload accepted
    obtain ⟨secret, parsed, _, same, identity⟩ := decode_some accepted
    obtain ⟨given, named⟩ := identity id rfl
    obtain ⟨expected, rfl⟩ := Option.isSome_iff_exists.1 given
    obtain ⟨actual, found, _⟩ := Option.map_eq_some_iff.1 named
    exact ⟨secret, hashed_of_parsed parsed, clientId_length found, by rw [same expected rfl], named⟩

def keyOf32 : Bytes := (range 32).map UInt8.ofNat

def digestOfHi : Bytes :=
  [14, 78, 128, 156, 184, 29, 150, 0, 98, 28, 47, 102, 73, 98, 12, 4, 118, 75, 14, 178, 69, 89, 117, 240, 51, 100, 9, 178,
    101, 0, 75, 206]

def answered : DirectReplyReference where
  clientMessageId := units "6f9619ff-8b86-4d01-b42d-00cf4fc964ff"
  contentCommitmentB64 := replicate 43 (Units.unit 'A') ++ units "="
  senderUserId := units "u"
  senderDeviceId := units "0f9619ff-8b86-4d01-b42d-00cf4fc964ff"

def hi : HumanPayload := ⟨units "hi" ++ [0xD800], some answered⟩

/-- The digest of one input is the one that HMAC has for it. -/
def oneDigest : Runtime where
  hmacSha256 secret message :=
    if secret = keyOf32 ∧ message = DOMAIN ++ utf8 (canonicalContent hi) then digestOfHi else replicate 32 0
  equalsTwo n := n.text = ['2'] || n.text = ['2', '.', '0']
  two := rfl

def idOfHi : Units := units "0e4e809c-b81d-4600-a21c-2f6649620c04"

/-- Another order, white space, another numeral and a member that counts for nothing. -/
def rewritten : Units :=
  Units.ofText "\x7b \"bindingKey\": \"AAECAwQFBgcICQoLDA0ODxAREhMUFRYXGBkaGxwdHh8=\", \"text\": 1, \"version\": 2.0, \"replyTo\": ".toList ++
  Units.ofText (object answered.entries).stringify ++
  Units.ofText ", \"text\": \"h\\u0069\\uD800\", \"type\": \"human\"\x7d".toList

def plain : Units := Units.ofText (object (wire hi.text (some (.object answered.entries)) (units (bytesToB64 keyOf32)))).stringify

theorem decodeDirectHumanPayload_hi :
    (∃ message, createDirectHumanMessage oneDigest keyOf32 hi.text (some answered.entries) = some message ∧
      decodeDirectHumanPayload oneDigest message.plaintext (some (units message.clientMessageId))
        (some (some (units message.contentCommitmentB64))) = some hi) ∧
    (∃ a b, decodeDirectHumanPayload oneDigest plain (some idOfHi) (some (some (units (bytesToB64 digestOfHi)))) = some a ∧
      decodeDirectHumanPayload oneDigest rewritten (some idOfHi) (some (some (units (bytesToB64 digestOfHi)))) = some b ∧
      a = b) ∧
    ∃ secret, hashed oneDigest rewritten = some (secret, DOMAIN ++ utf8 (canonicalContent hi)) := by
  obtain ⟨created, unique, bound⟩ := decodeDirectHumanPayload_bound oneDigest
  have digests (secret message : Bytes) : (oneDigest.hmacSha256 secret message).length = 32 := by
    simp only [oneDigest]
    split <;> rfl
  have read : readDirectReplyReference (.object answered.entries) = some answered := by decide +kernel
  have hashes : ∀ p ∈ [plain, rewritten], hashed oneDigest p = some (keyOf32, DOMAIN ++ utf8 (canonicalContent hi)) := by
    decide +kernel
  have one (p : Units) (mem : p ∈ [plain, rewritten]) (pair : Bytes × Bytes) (found : pair ∈ hashed oneDigest p) :
      pair ∈ ({(keyOf32, DOMAIN ++ utf8 (canonicalContent hi))} : Set (Bytes × Bytes)) := by
    rw [hashes p mem] at found
    exact (Option.some.inj found).symm
  have passes : ∀ p ∈ [plain, rewritten], decodeDirectHumanPayload oneDigest p (some idOfHi)
      (some (some (units (bytesToB64 digestOfHi)))) = some hi := by decide +kernel
  have left := passes plain (by simp)
  have right := passes rewritten (by simp)
  refine ⟨?_, ⟨hi, hi, left, right, ?_⟩, ?_⟩
  · obtain ⟨message, made, decoded⟩ := created digests keyOf32 hi.text (some answered.entries) rfl (by simp [read])
    refine ⟨message, made, decoded.trans ?_⟩
    rfl
  · exact unique _ (Set.injOn_singleton _ _) plain rewritten _ _ _ hi hi left right (one plain (by simp)) (one rewritten (by simp))
  · obtain ⟨secret, found, _⟩ := bound rewritten _ _ hi right
    exact ⟨secret, found⟩

end Vimla.DirectChats.HumanWire
