import Vimla.Lib.Base64Url

/-!
# Cursors of the sync stream

`sync-cursor.codec.ts`: a position and the head of a snapshot, signed for the user
they were made for.
-/

namespace Vimla.Sync

open Base64 (Bytes)
open List Nat
open Js (utf8 utf8Text)

abbrev Text := List Char

/-- The id of a row; the column holds no NUL. -/
structure UserId where
  text : Text
  solid : '\x00' ∉ text
  deriving DecidableEq

/-- HMAC-SHA-256, by its key and message. -/
structure Hmac where
  digest : Bytes → Bytes → Bytes
  length_digest : ∀ key message, (digest key message).length = 32

def MAX_BIGINT_64 : Int := 9223372036854775807

def CURSOR_DOMAIN : Text := "vimla-sync-cursor-v1".toList

def maxCursorBytes : Nat := 512

/-- `syncCursorSchema`. -/
def isSyncCursor (cursor : Text) : Bool :=
  1 ≤ cursor.length && cursor.length ≤ maxCursorBytes && match cursor.splitOn '.' with
  | [payload, signature] =>
    payload ≠ [] && signature ≠ [] && payload.all Base64.Url.isDigit && signature.all Base64.Url.isDigit
  | _ => false

structure SyncCursorState where
  position : Int
  snapshotHead : Int

def SyncCursorState.valid (state : SyncCursorState) : Bool :=
  0 ≤ state.position ∧ state.position ≤ MAX_BIGINT_64 ∧ 0 ≤ state.snapshotHead ∧
    state.snapshotHead ≤ MAX_BIGINT_64 ∧ state.position ≤ state.snapshotHead

def decimal (n : Int) : Text := (toString n).toList

def SyncCursorState.payload (state : SyncCursorState) : Text :=
  '1' :: ':' :: (decimal state.position ++ ':' :: decimal state.snapshotHead)

/-- `0|[1-9]\d{0,18}` -/
def isDecimal : Text → Bool
  | [] => false
  | first :: rest => (first = '0' && rest = []) || (first ≠ '0' && first.isDigit && rest.all Char.isDigit && rest.length ≤ 18)

def matchPayload (payload : Text) : Option SyncCursorState :=
  match payload.splitOn ':' with
  | [version, position, snapshotHead] =>
    if version = ['1'] ∧ isDecimal position ∧ isDecimal snapshotHead then
      some ⟨ofDigitChars 10 position 0, ofDigitChars 10 snapshotHead 0⟩
    else none
  | _ => none

namespace SyncCursorCodec

variable (hmac : Hmac) (secret : Text)

def message (userId : UserId) (payload : Text) : Bytes :=
  utf8 (CURSOR_DOMAIN ++ '\x00' :: (userId.text ++ '\x00' :: payload))

def sign (userId : UserId) (payload : Text) : Text :=
  Base64.Url.encode (hmac.digest (utf8 secret) (message userId payload))

/-- `none` where it throws. -/
def encode (userId : UserId) (state : SyncCursorState) : Option Text := do
  guard state.valid
  let cursor := Base64.Url.encode (utf8 state.payload) ++ '.' :: sign hmac secret userId state.payload
  guard (isSyncCursor cursor)
  return cursor

/-- `none` where it throws. -/
def decode (userId : UserId) (cursor : Text) : Option SyncCursorState := do
  guard (isSyncCursor cursor)
  match cursor.splitOn '.' with
  | [encodedPayload, encodedSignature] =>
    let payload := utf8Text (Base64.Url.decode encodedPayload)
    let supplied := Base64.Url.decode encodedSignature
    let expected := Base64.Url.decode (sign hmac secret userId payload)
    guard (supplied = expected)
    let state ← matchPayload payload
    guard state.valid
    return state
  | _ => none

end SyncCursorCodec

variable {n : Nat} {c : Char}

theorem digits_ascii : ∀ c ∈ toDigits 10 n, c.isDigit = true := fun _ mem =>
  isDigit_of_mem_toDigits (by decide) (by decide) mem

theorem head_toDigits (n : Nat) : (toDigits 10 n).head? = some '0' ↔ n = 0 := by
  induction n using Nat.strongRecOn with
  | _ n ih =>
    by_cases small : n < 10
    · rw [toDigits_of_lt_base small]
      have all : ∀ n : Fin 10, [n.val.digitChar].head? = some '0' ↔ n.val = 0 := by decide
      exact all ⟨n, small⟩
    · have earlier := ih (n / 10) (by omega)
      rw [toDigits_of_base_le (by decide) (by omega), head?_append_of_ne_nil _ toDigits_ne_nil, earlier]
      omega

theorem isDecimal_toDigits (bounded : n < 10 ^ 19) : isDecimal (toDigits 10 n) = true := by
  have zero := head_toDigits n
  have digits := digits_ascii (n := n)
  have few := (length_toDigits_le_iff (b := 10) (n := n) (k := 19) (by decide) (by decide)).2 bounded
  cases written : toDigits 10 n with
  | nil => exact absurd written toDigits_ne_nil
  | cons first rest =>
    rw [written] at zero digits few
    obtain ⟨digit, others⟩ := forall_mem_cons.1 digits
    rw [length_cons] at few
    unfold isDecimal
    by_cases first0 : first = '0'
    · subst first0
      rw [zero.1 rfl, toDigits_zero] at written
      obtain rfl : rest = [] := (cons.inj written).2.symm
      rfl
    · simp only [ne_eq, first0, not_false_eq_true, decide_true, Bool.true_and, digit, Bool.and_eq_true, Bool.or_eq_true,
        all_eq_true, decide_eq_true_eq]
      exact .inr ⟨others, by omega⟩

theorem decimal_natCast (n : Nat) : decimal (n : Int) = toDigits 10 n := by
  rw [decimal, show toString (n : Int) = toString n from rfl, toString_eq_repr, toList_repr]

theorem digit_facts (digit : c.isDigit = true) : c ≠ ':' ∧ c.toNat ≤ 0x7F := by
  rw [Char.isDigit, Bool.and_eq_true, decide_eq_true_eq, decide_eq_true_eq] at digit
  constructor
  · rintro rfl
    exact absurd digit.2 (by decide)
  · exact le_trans (UInt32.le_iff_toNat_le.1 digit.2) (by decide)

theorem digitChar_of_isDigit (digit : c.isDigit = true) : ∃ d < 10, c = d.digitChar ∧ c.toNat - '0'.toNat = d := by
  rw [Char.isDigit, Bool.and_eq_true, decide_eq_true_eq, decide_eq_true_eq] at digit
  have low : 48 ≤ c.toNat := UInt32.le_iff_toNat_le.1 digit.1
  have high : c.toNat ≤ 57 := UInt32.le_iff_toNat_le.1 digit.2
  have all : ∀ d : Fin 10, Char.ofNat (48 + d.val) = d.val.digitChar := by decide
  refine ⟨c.toNat - 48, by omega, ?_, rfl⟩
  rw [← all ⟨c.toNat - 48, by omega⟩, show 48 + (c.toNat - 48) = c.toNat by omega, Char.ofNat_toNat]

theorem toDigits_ofDigitChars {digits : Text} (all : ∀ c ∈ digits, c.isDigit = true) (positive : 0 < n) :
    toDigits 10 (ofDigitChars 10 digits n) = toDigits 10 n ++ digits := by
  induction digits generalizing n with
  | nil => simp
  | cons c digits ih =>
    obtain ⟨d, small, rfl, value⟩ := digitChar_of_isDigit (all c mem_cons_self)
    rw [ofDigitChars_cons, value, ih (fun e mem => all e (mem_cons_of_mem _ mem)) (by omega),
      ← toDigits_append_toDigits (by decide) positive small, toDigits_of_lt_base small, append_assoc]
    rfl

variable {text : Text}

/-- A number is written as it was read. -/
theorem decimal_ofDigitChars (number : isDecimal text = true) :
    decimal (ofDigitChars 10 text 0) = text := by
  rw [decimal_natCast]
  cases text with
  | nil => cases number
  | cons first rest =>
    simp only [isDecimal, Bool.or_eq_true, Bool.and_eq_true, decide_eq_true_eq, all_eq_true] at number
    obtain ⟨rfl, rfl⟩ | ⟨⟨⟨nonzero, digit⟩, digits⟩, _⟩ := number
    · decide
    · obtain ⟨d, small, rfl, value⟩ := digitChar_of_isDigit digit
      have positive : 0 < d := by
        rw [pos_iff_ne_zero]
        rintro rfl
        exact nonzero rfl
      rw [ofDigitChars_cons, value, mul_zero, zero_add, toDigits_ofDigitChars digits positive,
        toDigits_of_lt_base small]
      rfl

section Payload
variable {state : SyncCursorState}

theorem SyncCursorState.valid_iff : state.valid = true ↔ ∃ p h : Nat, state = ⟨p, h⟩ ∧ p ≤ h ∧ h < 2 ^ 63 := by
  rw [valid, decide_eq_true_iff, MAX_BIGINT_64]
  constructor
  · rintro ⟨low, _, lowHead, high, below⟩
    obtain ⟨p, at_⟩ := Int.eq_ofNat_of_zero_le low
    obtain ⟨h, head⟩ := Int.eq_ofNat_of_zero_le lowHead
    refine ⟨p, h, ?_, by omega, by omega⟩
    cases state
    simp only at at_ head
    rw [at_, head]
  · rintro ⟨p, h, rfl, below, high⟩
    dsimp only
    omega

theorem payload_ascii {p h : Nat} : ∀ c ∈ (SyncCursorState.mk p h).payload, c.toNat ≤ 0x7F := by
  have ascii : ∀ n : Nat, ∀ c ∈ toDigits 10 n, c.toNat ≤ 0x7F := fun n c mem => (digit_facts (digits_ascii c mem)).2
  intro c mem
  simp only [SyncCursorState.payload, decimal_natCast, mem_cons, mem_append] at mem
  obtain rfl | rfl | mem | rfl | mem := mem
  · decide
  · decide
  · exact ascii p c mem
  · decide
  · exact ascii h c mem

theorem matchPayload_payload {p h : Nat} (first : p < 10 ^ 19) (second : h < 10 ^ 19) :
    matchPayload (SyncCursorState.mk p h).payload = some ⟨p, h⟩ := by
  have plain : ∀ n : Nat, ':' ∉ toDigits 10 n := fun n mem => (digit_facts (digits_ascii _ mem)).1 rfl
  have split : (SyncCursorState.mk p h).payload.splitOn ':' = [['1'], toDigits 10 p, toDigits 10 h] := by
    simp only [SyncCursorState.payload, decimal_natCast]
    rw [show '1' :: ':' :: (toDigits 10 p ++ ':' :: toDigits 10 h) =
      [':'].intercalate [['1'], toDigits 10 p, toDigits 10 h] by simp]
    apply splitOn_intercalate ':'
    · simp only [mem_cons, not_mem_nil, or_false, forall_eq_or_imp, forall_eq]
      exact ⟨by decide, plain p, plain h⟩
    · simp
  simp [matchPayload, split, isDecimal_toDigits first, isDecimal_toDigits second]

theorem payload_of_match {payload : Text} (matched : matchPayload payload = some state) : payload = state.payload := by
  unfold matchPayload at matched
  split at matched
  · rename_i version position snapshotHead parts
    split at matched
    · rename_i shaped
      obtain ⟨rfl, first, second⟩ := shaped
      cases matched
      have joined : [':'].intercalate (payload.splitOn ':') = payload := intercalate_splitOn ':'
      rw [← joined, parts]
      simp [SyncCursorState.payload, decimal_ofDigitChars first, decimal_ofDigitChars second, intercalate]
    · cases matched
  · cases matched

end Payload
section
variable {hmac : Hmac} {secret : Text} {userId : UserId} {p h : Nat}

theorem payload_length (first : p < 10 ^ 19) (second : h < 10 ^ 19) :
    (utf8 (SyncCursorState.mk p h).payload).length ≤ 41 := by
  have digits : ∀ n : Nat, n < 10 ^ 19 → (toDigits 10 n).length ≤ 19 := fun n bounded =>
    (length_toDigits_le_iff (by decide) (by decide)).2 bounded
  have bytes : ∀ text : Text, (∀ c ∈ text, c.toNat ≤ 0x7F) → (utf8 text).length = text.length := by
    intro text ascii
    induction text with
    | nil => rfl
    | cons c text ih =>
      rw [utf8, flatMap_cons, Js.encoded_ascii (ascii c mem_cons_self), singleton_append, length_cons]
      exact congrArg (· + 1) (ih fun d mem => ascii d (mem_cons_of_mem c mem))
  rw [bytes _ payload_ascii]
  have one := digits p first
  have two := digits h second
  simp only [SyncCursorState.payload, decimal_natCast, length_cons, length_append]
  omega

theorem dot_notMem (bytes : Bytes) : '.' ∉ Base64.Url.encode bytes := fun mem =>
  absurd (Base64.Url.encode_digits bytes '.' mem) (by decide)

theorem split_cursor (a b : Bytes) :
    (Base64.Url.encode a ++ '.' :: Base64.Url.encode b).splitOn '.' = [Base64.Url.encode a, Base64.Url.encode b] := by
  rw [show Base64.Url.encode a ++ '.' :: Base64.Url.encode b =
    ['.'].intercalate [Base64.Url.encode a, Base64.Url.encode b] by simp]
  apply splitOn_intercalate '.'
  · simp only [mem_cons, not_mem_nil, or_false, forall_eq_or_imp, forall_eq]
    exact ⟨dot_notMem a, dot_notMem b⟩
  · simp

theorem isSyncCursor_encode {a b : Bytes} (filled : a ≠ []) (signed : b ≠ [])
    (short : a.length + b.length ≤ 255) : isSyncCursor (Base64.Url.encode a ++ '.' :: Base64.Url.encode b) = true := by
  have first := Base64.Url.encode_length a
  have second := Base64.Url.encode_length b
  have digits : ∀ bytes, (Base64.Url.encode bytes).all Base64.Url.isDigit = true := fun bytes =>
    all_eq_true.2 (Base64.Url.encode_digits bytes)
  simp only [isSyncCursor, split_cursor, maxCursorBytes, length_append, length_cons, digits, Bool.and_true,
    Bool.and_eq_true, decide_eq_true_eq]
  refine ⟨⟨by omega, by omega⟩, ?_⟩
  exact ⟨by simp [Base64.Url.encode_ne_nil filled], by simp [Base64.Url.encode_ne_nil signed]⟩

namespace SyncCursorCodec

/-- The cursor of a position and the head of its snapshot. -/
def cursor (hmac : Hmac) (secret : Text) (userId : UserId) (state : SyncCursorState) : Text :=
  Base64.Url.encode (utf8 state.payload) ++ '.' :: sign hmac secret userId state.payload

variable {state : SyncCursorState}

section
variable (valid : state.valid = true)
include valid

theorem cursor_shaped : isSyncCursor (cursor hmac secret userId state) = true := by
  obtain ⟨p, h, rfl, below, high⟩ := SyncCursorState.valid_iff.1 valid
  have length := payload_length (p := p) (h := h) (by omega) (by omega)
  have digest := hmac.length_digest (utf8 secret) (message userId (SyncCursorState.mk p h).payload)
  apply isSyncCursor_encode
  · simp [utf8, SyncCursorState.payload, String.utf8EncodeChar]
  · intro empty
    simp [empty] at digest
  · omega

theorem encode_valid :
    encode hmac secret userId state = some (cursor hmac secret userId state) := by
  have shaped : isSyncCursor (cursor hmac secret userId state) = true := cursor_shaped valid
  rw [cursor] at shaped ⊢
  simp [encode, valid, shaped]

theorem decode_cursor (reader : UserId) :
    decode hmac secret reader (cursor hmac secret userId state) =
      if hmac.digest (utf8 secret) (message userId state.payload) = hmac.digest (utf8 secret) (message reader state.payload)
      then some state else none := by
  have shaped : isSyncCursor (cursor hmac secret userId state) = true := cursor_shaped valid
  obtain ⟨p, h, rfl, below, high⟩ := SyncCursorState.valid_iff.1 valid
  have split := split_cursor (utf8 (SyncCursorState.mk p h).payload)
    (hmac.digest (utf8 secret) (message userId (SyncCursorState.mk p h).payload))
  rw [cursor, sign] at shaped ⊢
  simp only [decode, shaped, split, Base64.Url.decode_encode, sign, Js.utf8Text_ascii payload_ascii,
    matchPayload_payload (show p < 10 ^ 19 by omega) (show h < 10 ^ 19 by omega)]
  by_cases same : hmac.digest (utf8 secret) (message userId (SyncCursorState.mk p h).payload) =
      hmac.digest (utf8 secret) (message reader (SyncCursorState.mk p h).payload)
  · simp [same, valid]
  · simp only [same, if_false]
    rfl

/-- `decode` inverts `encode`. -/
theorem decode_encode :
    (encode hmac secret userId state).bind (decode hmac secret userId) = some state := by
  rw [encode_valid valid, Option.bind_some, decode_cursor valid, if_pos rfl]

end

theorem append_nul_inj {a b rest more : Text} (first : '\x00' ∉ a) (second : '\x00' ∉ b)
    (same : a ++ '\x00' :: rest = b ++ '\x00' :: more) : a = b ∧ rest = more := by
  have splits := congrArg (takeWhile (· ≠ '\x00')) same
  have taken : ∀ x y : Text, '\x00' ∉ x → (x ++ '\x00' :: y).takeWhile (· ≠ '\x00') = x := by
    intro x y solid
    rw [takeWhile_append_of_pos]
    · simp
    · intro c mem
      simpa using fun equal : c = '\x00' => solid (equal ▸ mem)
  rw [taken a rest first, taken b more second] at splits
  subst splits
  exact ⟨rfl, (cons.inj (append_cancel_left same)).2⟩

theorem message_inj {other : UserId} {payload payload' : Text}
    (same : message userId payload = message other payload') : userId = other ∧ payload = payload' := by
  have texts := append_cancel_left (Js.utf8_injective same)
  obtain ⟨user, rest⟩ := append_nul_inj userId.solid other.solid (cons.inj texts).2
  refine ⟨?_, rest⟩
  cases userId
  subst user
  rfl

/-- A signature that is presented is of none but signed messages, and these have different ones. -/
structure Unforged (hmac : Hmac) (secret : Text) (signed : List Bytes) (signature : Bytes) : Prop where
  known : ∀ message, hmac.digest (utf8 secret) message = signature → message ∈ signed
  apart : ∀ m ∈ signed, ∀ n ∈ signed, hmac.digest (utf8 secret) m = hmac.digest (utf8 secret) n → m = n

/-- The bytes of the signature that a cursor carries. -/
def signatureOf (cursor : Text) : Bytes := ((cursor.splitOn '.')[1]?.map Base64.Url.decode).getD []

theorem decode_signed (accepted : decode hmac secret userId text = some state) :
    hmac.digest (utf8 secret) (message userId state.payload) = signatureOf text := by
  obtain ⟨_, _, accepted⟩ := Option.bind_eq_some_iff.1 accepted
  split at accepted
  · rename_i encodedPayload encodedSignature parts
    obtain ⟨_, supplied, accepted⟩ := Option.bind_eq_some_iff.1 accepted
    obtain ⟨read, matched, accepted⟩ := Option.bind_eq_some_iff.1 accepted
    obtain ⟨_, _, same⟩ := Option.bind_eq_some_iff.1 accepted
    cases same
    have signed : Base64.Url.decode encodedSignature =
        Base64.Url.decode (sign hmac secret userId (utf8Text (Base64.Url.decode encodedPayload))) := by
      by_contra other
      simp [other] at supplied
    rw [signatureOf, parts, ← payload_of_match matched]
    simp [signed, sign, Base64.Url.decode_encode]
  · cases accepted

/-- What is accepted was signed for this very user. -/
theorem decode_unforged {signed : List Bytes}
    (unforged : Unforged hmac secret signed (signatureOf text))
    (accepted : decode hmac secret userId text = some state) :
    message userId state.payload ∈ signed ∧ ∀ other : UserId, ∀ s : SyncCursorState,
      message other s.payload ∈ signed → encode hmac secret other s = some text → other = userId := by
  have valid := decode_signed accepted
  have made := unforged.known _ valid
  refine ⟨made, fun other s issued encoded => ?_⟩
  have signature : signatureOf text = hmac.digest (utf8 secret) (message other s.payload) := by
    obtain ⟨_, _, encoded⟩ := Option.bind_eq_some_iff.1 encoded
    obtain ⟨_, _, same⟩ := Option.bind_eq_some_iff.1 encoded
    cases same
    simp [signatureOf, sign, split_cursor, Base64.Url.decode_encode]
  exact (message_inj (unforged.apart _ issued _ made (signature.symm.trans valid.symm))).1

end SyncCursorCodec

end

end Vimla.Sync
