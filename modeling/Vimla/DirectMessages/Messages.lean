import Vimla.E2ee.Authenticity
import Vimla.Lib.Rows
import Vimla.Lib.Sorting

/-!
# Messages and their repetitions

`direct-chat-service.ts`: the rows that a send writes, and how a send that is
repeated is told from another one under the same id.
-/

namespace Vimla.DirectMessages

open E2ee (DirectMessageKind X3dhInitHeader jsonObject)
open List Function OrderedMap Js

inductive ErrorCode
  | NOT_FOUND | DISABLED | VALIDATION_ERROR | FORBIDDEN | CONFLICT | DEVICE_REVOKED | RECIPIENT_DEVICE_MISSING | TAMPERED
  deriving DecidableEq

structure DirectChatError where
  code : ErrorCode
  message : String

inductive MentionKind | USER | SYSTEM_AGENT | AI_AUTO | AI_MODEL
  deriving DecidableEq

def MentionKind.name : MentionKind → String
  | USER => "USER"
  | SYSTEM_AGENT => "SYSTEM_AGENT"
  | AI_AUTO => "AI_AUTO"
  | AI_MODEL => "AI_MODEL"

structure MessageMentionInput where
  handleId : String
  kind : MentionKind
  canonicalHandle : String
  startOffset : Nat
  endOffset : Nat
  /-- Handles are of letters, digits and separators. -/
  plain : '\x00' ∉ canonicalHandle.toList
  deriving DecidableEq

/-- A mention with its target; it is also a row of `direct_message_mention`. -/
structure MessageMentionView extends MessageMentionInput where
  id : String
  targetId : Option String
  deriving DecidableEq

structure WireEnvelopeDto where
  recipientDeviceId : String
  headerB64 : String
  ciphertextB64 : String
  dhPublicB64 : String
  messageNumber : Nat
  previousChainLength : Nat
  senderSignatureB64 : String
  x3dhInit : Option X3dhInitHeader := none
  deriving DecidableEq

structure SendDirectMessage where
  clientMessageId : String
  contentCommitmentB64 : Option String
  senderDeviceId : String
  interactionEpoch : Int
  kind : DirectMessageKind
  envelopes : List WireEnvelopeDto
  mentions : List MessageMentionInput := []

/-- A row of `direct_message_envelope`. -/
structure StoredEnvelope where
  recipientDeviceId : String
  senderDeviceId : String
  headerB64 : String
  ciphertextB64 : String
  dhPublicB64 : String
  messageNumber : Nat
  previousChainLength : Nat
  senderSignatureB64 : String
  x3dhInitJson : Option (List Char)
  deriving DecidableEq

/-- A row of `direct_message` with its envelopes and its mentions. -/
structure DirectMessage where
  id : String
  conversationId : String
  senderUserId : String
  senderDeviceId : String
  clientMessageId : String
  contentCommitmentB64 : Option String
  kind : DirectMessageKind
  interactionEpoch : Int
  createdAt : Nat
  envelopes : List StoredEnvelope
  mentions : List MessageMentionView
  deriving DecidableEq

/-- The columns of the unique index. -/
def DirectMessage.key (m : DirectMessage) : String × String × String := (m.conversationId, m.senderUserId, m.clientMessageId)

/-- `JSON.stringify` of the header. -/
def x3dhInitText (init : X3dhInitHeader) : List Char := jsonObject init.fields

def storedEnvelope (senderDeviceId : String) (envelope : WireEnvelopeDto) : StoredEnvelope where
  recipientDeviceId := envelope.recipientDeviceId
  senderDeviceId := senderDeviceId
  headerB64 := envelope.headerB64
  ciphertextB64 := envelope.ciphertextB64
  dhPublicB64 := envelope.dhPublicB64
  messageNumber := envelope.messageNumber
  previousChainLength := envelope.previousChainLength
  senderSignatureB64 := envelope.senderSignatureB64
  x3dhInitJson := envelope.x3dhInit.map x3dhInitText

structure DirectEnvelopeView where
  recipientDeviceId : String
  headerB64 : String
  ciphertextB64 : String
  dhPublicB64 : String
  messageNumber : Nat
  previousChainLength : Nat
  senderSignatureB64 : String
  x3dhInit : Option X3dhInitHeader

structure DirectMessageView where
  id : String
  conversationId : String
  senderUserId : String
  senderDeviceId : String
  clientMessageId : String
  contentCommitmentB64 : Option String
  kind : DirectMessageKind
  interactionEpoch : Int
  createdAt : Nat
  envelope : Option DirectEnvelopeView
  mentions : List MessageMentionView

/-- Reading a header back through its schema. -/
abbrev ReadInit := List Char → Option X3dhInitHeader

def toEnvelopeView (readInit : ReadInit) (envelope : StoredEnvelope) : DirectEnvelopeView where
  recipientDeviceId := envelope.recipientDeviceId
  headerB64 := envelope.headerB64
  ciphertextB64 := envelope.ciphertextB64
  dhPublicB64 := envelope.dhPublicB64
  messageNumber := envelope.messageNumber
  previousChainLength := envelope.previousChainLength
  senderSignatureB64 := envelope.senderSignatureB64
  x3dhInit := envelope.x3dhInitJson.bind readInit

def toMessageView (readInit : ReadInit) (row : DirectMessage) (deviceId : String) (mentions : List MessageMentionView) :
    DirectMessageView where
  id := row.id
  conversationId := row.conversationId
  senderUserId := row.senderUserId
  senderDeviceId := row.senderDeviceId
  clientMessageId := row.clientMessageId
  contentCommitmentB64 := row.contentCommitmentB64
  kind := row.kind
  interactionEpoch := row.interactionEpoch
  createdAt := row.createdAt
  envelope := (row.envelopes.find? (·.recipientDeviceId = deviceId)).map (toEnvelopeView readInit)
  mentions := mentions

def sameReplayEnvelopes (stored : List StoredEnvelope) (incoming : List WireEnvelopeDto) : Bool :=
  let incomingByRecipient := ofEntries (incoming.map fun envelope => (envelope.recipientDeviceId, envelope))
  stored.length = incoming.length && incomingByRecipient.entries.length = incoming.length &&
    stored.all fun envelope => match incomingByRecipient.get envelope.recipientDeviceId with
      | none => false
      | some candidate =>
        candidate.headerB64 = envelope.headerB64 && candidate.ciphertextB64 = envelope.ciphertextB64 &&
          candidate.dhPublicB64 = envelope.dhPublicB64 && candidate.messageNumber = envelope.messageNumber &&
          candidate.previousChainLength = envelope.previousChainLength &&
          candidate.senderSignatureB64 = envelope.senderSignatureB64 &&
          candidate.x3dhInit.elim "null".toList x3dhInitText = envelope.x3dhInitJson.getD "null".toList

/-- The text that mentions are compared by. -/
def MessageMentionInput.canonical (mention : MessageMentionInput) : String :=
  mention.handleId ++ "\x00" ++ mention.kind.name ++ "\x00" ++ mention.canonicalHandle ++ "\x00" ++
    toString mention.startOffset ++ "\x00" ++ toString mention.endOffset

/-- `texts.sort()`. -/
def sortTexts (texts : List String) : List String :=
  sort (fun left right => compare (codeUnits left) (codeUnits right)) texts

def sameReplayMentions (stored : List MessageMentionView) (incoming : List MessageMentionInput) : Bool :=
  stored.length = incoming.length &&
    sortTexts (stored.map (·.toMessageMentionInput.canonical)) = sortTexts (incoming.map (·.canonical))

/-- The mentions of a message, in their order. -/
def readMentions (row : DirectMessage) : List MessageMentionView :=
  sort (fun left right => compare left.startOffset right.startOffset) row.mentions

/-- What `findExactReplay` makes of the row that it has found. -/
def replayOf (readInit : ReadInit) (existing : DirectMessage) (input : SendDirectMessage) :
    Except DirectChatError DirectMessageView :=
  if existing.senderDeviceId ≠ input.senderDeviceId then .error ⟨.TAMPERED, "Message replay sender device does not match"⟩
  else if existing.kind ≠ input.kind ∨ existing.contentCommitmentB64 ≠ input.contentCommitmentB64 ∨
      existing.interactionEpoch ≠ input.interactionEpoch ∨ ¬ sameReplayEnvelopes existing.envelopes input.envelopes ∨
      ¬ sameReplayMentions (readMentions existing) input.mentions then
    .error ⟨.TAMPERED, "Message replay payload does not match the original"⟩
  else .ok (toMessageView readInit existing input.senderDeviceId (readMentions existing))

/-- The row is one that a send of this payload writes. -/
structure Repeats (row : DirectMessage) (input : SendDirectMessage) : Prop where
  senderDeviceId : row.senderDeviceId = input.senderDeviceId
  kind : row.kind = input.kind
  contentCommitmentB64 : row.contentCommitmentB64 = input.contentCommitmentB64
  interactionEpoch : row.interactionEpoch = input.interactionEpoch
  envelopes : row.envelopes.Perm (input.envelopes.map (storedEnvelope input.senderDeviceId))
  mentions : (row.mentions.map (·.toMessageMentionInput)).Perm input.mentions

theorem split_last {sep : Char} {a b c d : List Char} (hb : sep ∉ b) (hd : sep ∉ d)
    (same : a ++ sep :: b = c ++ sep :: d) : a = c ∧ b = d := by
  obtain ⟨more, rfl, right⟩ | ⟨more, rfl, right⟩ := append_eq_append_iff.1 same
  · cases more with
    | nil => exact ⟨by simp, (cons.inj right).2⟩
    | cons x more =>
      obtain ⟨rfl, rest⟩ := cons.inj right
      exact absurd (rest ▸ mem_append_right more mem_cons_self) hb
  · cases more with
    | nil => exact ⟨by simp, (cons.inj right).2.symm⟩
    | cons x more =>
      obtain ⟨rfl, rest⟩ := cons.inj right
      exact absurd (rest ▸ mem_append_right more mem_cons_self) hd

theorem number_plain (n : Nat) : '\x00' ∉ (toString n).toList := by
  intro mem
  exact absurd (E2ee.digit_chars mem) (by decide)

theorem kind_plain (kind : MentionKind) : '\x00' ∉ kind.name.toList := by
  cases kind <;> decide

theorem canonical_toList (m : MessageMentionInput) : m.canonical.toList =
    (((m.handleId.toList ++ '\x00' :: m.kind.name.toList) ++ '\x00' :: m.canonicalHandle.toList) ++
      '\x00' :: (toString m.startOffset).toList) ++ '\x00' :: (toString m.endOffset).toList := by
  simp [MessageMentionInput.canonical]

theorem canonical_injective : Injective MessageMentionInput.canonical := by
  intro a b same
  have texts := congrArg String.toList same
  rw [canonical_toList, canonical_toList] at texts
  obtain ⟨texts, ends⟩ := split_last (number_plain _) (number_plain _) texts
  obtain ⟨texts, starts⟩ := split_last (number_plain _) (number_plain _) texts
  obtain ⟨texts, handles⟩ := split_last a.plain b.plain texts
  obtain ⟨ids, kinds⟩ := split_last (kind_plain _) (kind_plain _) texts
  have names : Injective MentionKind.name := by
    intro k l same
    cases k <;> cases l <;> first | rfl | exact absurd same (by decide)
  cases a
  cases b
  simp only [MessageMentionInput.mk.injEq]
  exact ⟨String.toList_injective ids, names (String.toList_injective kinds), String.toList_injective handles,
    E2ee.toString_injective (String.toList_injective starts), E2ee.toString_injective (String.toList_injective ends)⟩

theorem sortTexts_eq_iff {a b : List String} : sortTexts a = sortTexts b ↔ a.Perm b := by
  constructor
  · exact perm_of_sort_eq
  · intro perm
    have order : Std.TransCmp fun left right => compare (codeUnits left) (codeUnits right) := transCmp_key codeUnits
    apply sort_eq_of_perm perm
    intro s _ t _ equal
    exact codeUnits_injective (Std.LawfulEqCmp.eq_of_compare equal)

theorem sameReplayMentions_iff {stored : List MessageMentionView} {incoming : List MessageMentionInput} :
    sameReplayMentions stored incoming = true ↔ (stored.map (·.toMessageMentionInput)).Perm incoming := by
  have texts : stored.map (·.toMessageMentionInput.canonical) =
      (stored.map (·.toMessageMentionInput)).map MessageMentionInput.canonical := by rw [map_map]; rfl
  simp only [sameReplayMentions, Bool.and_eq_true, decide_eq_true_eq, sortTexts_eq_iff, texts,
    map_perm_map_iff canonical_injective]
  constructor
  · exact fun same => same.2
  · exact fun perm => ⟨by simpa using perm.length_eq, perm⟩

theorem x3dhInitText_injective : Injective x3dhInitText := by
  intro a b same
  have bytes : E2ee.serializedInit (some a) = E2ee.serializedInit (some b) := congrArg utf8 same
  exact Option.some.inj (E2ee.serializedInit_injective bytes)

theorem initText_eq_iff {a b : Option X3dhInitHeader} :
    a.elim "null".toList x3dhInitText = (b.map x3dhInitText).getD "null".toList ↔ a = b := by
  have null : ∀ init : X3dhInitHeader, x3dhInitText init ≠ "null".toList := by
    intro init same
    exact absurd (congrArg head? same) (by simp [x3dhInitText, E2ee.jsonObject])
  cases a with
  | none =>
    cases b with
    | none => simp
    | some b => simpa using (null b).symm
  | some a =>
    cases b with
    | none => simpa using null a
    | some b => simpa using x3dhInitText_injective.eq_iff

theorem storedEnvelope_injective (senderDeviceId : String) : Injective (storedEnvelope senderDeviceId) := by
  intro a b same
  cases a
  cases b
  simp only [storedEnvelope, StoredEnvelope.mk.injEq, (Option.map_injective x3dhInitText_injective).eq_iff, true_and] at same
  simpa using same

/-- Envelopes are the same when they are the same ones in some order. -/
theorem sameReplayEnvelopes_iff {senderDeviceId : String} {sent incoming : List WireEnvelopeDto}
    (distinct : (sent.map (·.recipientDeviceId)).Nodup) :
    sameReplayEnvelopes (sent.map (storedEnvelope senderDeviceId)) incoming = true ↔ sent.Perm incoming := by
  have whole : (ofEntries (incoming.map fun e => (e.recipientDeviceId, e))).entries.length = incoming.length ↔
      (incoming.map (·.recipientDeviceId)).Nodup := by
    have keys : (incoming.map fun e => (e.recipientDeviceId, e)).map Prod.fst = incoming.map (·.recipientDeviceId) := by
      rw [map_map]
      rfl
    rw [← keys, ← length_ofEntries, length_map]
  have found : (incoming.map (·.recipientDeviceId)).Nodup → ∀ e : WireEnvelopeDto, ∀ key,
      (ofEntries (incoming.map fun e => (e.recipientDeviceId, e))).get key = some e ↔
        e ∈ incoming ∧ e.recipientDeviceId = key := by
    intro nd e key
    rw [get_eq_some, entries_ofEntries (by simpa [comp_def] using nd)]
    constructor
    · intro mem
      obtain ⟨e', here, same⟩ := mem_map.1 mem
      obtain ⟨rfl, rfl⟩ := Prod.mk.inj same
      exact ⟨here, rfl⟩
    · rintro ⟨mem, rfl⟩
      exact mem_map.2 ⟨e, mem, rfl⟩
  have matches_ : ∀ (e candidate : WireEnvelopeDto), candidate.recipientDeviceId = e.recipientDeviceId →
      ((candidate.headerB64 = e.headerB64 && candidate.ciphertextB64 = e.ciphertextB64 &&
        candidate.dhPublicB64 = e.dhPublicB64 && candidate.messageNumber = e.messageNumber &&
        candidate.previousChainLength = e.previousChainLength && candidate.senderSignatureB64 = e.senderSignatureB64 &&
        candidate.x3dhInit.elim "null".toList x3dhInitText = (e.x3dhInit.map x3dhInitText).getD "null".toList : Bool) = true ↔
          candidate = e) := by
    intro e candidate key
    cases e
    cases candidate
    simp only [Bool.and_eq_true, decide_eq_true_eq, initText_eq_iff, WireEnvelopeDto.mk.injEq] at key ⊢
    tauto
  simp only [sameReplayEnvelopes, Bool.and_eq_true, decide_eq_true_eq, length_map, whole, all_map,
    all_eq_true, comp_apply, storedEnvelope]
  constructor
  · rintro ⟨⟨length, nd⟩, each⟩
    have among : sent ⊆ incoming := by
      intro e mem
      have here := each e mem
      split at here
      · simp at here
      · rename_i candidate at_
        obtain ⟨mem, key⟩ := (found nd candidate _).1 at_
        exact (matches_ e candidate key).1 here ▸ mem
    exact (distinct.of_map.subperm among).perm_of_length_le length.ge
  · intro perm
    have nd := (perm.map (·.recipientDeviceId)).nodup_iff.1 distinct
    refine ⟨⟨perm.length_eq, nd⟩, fun e mem => ?_⟩
    rw [(found nd e e.recipientDeviceId).2 ⟨perm.mem_iff.1 mem, rfl⟩]
    exact (matches_ e e rfl).2 rfl

/-- The columns as a send writes them. -/
structure Written (row : DirectMessage) : Prop where
  envelopes : ∃ sent : List WireEnvelopeDto, row.envelopes = sent.map (storedEnvelope row.senderDeviceId)
  distinct : (row.envelopes.map (·.recipientDeviceId)).Nodup

theorem replayOf_eq {row : DirectMessage} (written : Written row) (readInit : ReadInit) (input : SendDirectMessage) :
    (Repeats row input →
      replayOf readInit row input = .ok (toMessageView readInit row input.senderDeviceId (readMentions row))) ∧
    (¬ Repeats row input → ∃ message, replayOf readInit row input = .error ⟨.TAMPERED, message⟩) := by
  obtain ⟨sent, rows⟩ := written.envelopes
  have distinct : (sent.map (·.recipientDeviceId)).Nodup := by
    have distinct := written.distinct
    rwa [rows, map_map] at distinct
  have mentions : sameReplayMentions (readMentions row) input.mentions = true ↔
      (row.mentions.map (·.toMessageMentionInput)).Perm input.mentions := by
    rw [sameReplayMentions_iff]
    exact ((sort_perm _ row.mentions).map _).congr_left _
  have envelopes : sameReplayEnvelopes row.envelopes input.envelopes = true ↔ sent.Perm input.envelopes := by
    rw [rows]
    exact sameReplayEnvelopes_iff distinct
  by_cases device : row.senderDeviceId = input.senderDeviceId
  · have repeats : Repeats row input ↔ row.kind = input.kind ∧ row.contentCommitmentB64 = input.contentCommitmentB64 ∧
        row.interactionEpoch = input.interactionEpoch ∧ sameReplayEnvelopes row.envelopes input.envelopes = true ∧
        sameReplayMentions (readMentions row) input.mentions = true := by
      rw [envelopes, mentions, ← map_perm_map_iff (storedEnvelope_injective row.senderDeviceId), ← rows]
      constructor
      · rintro ⟨-, kind, commitment, epoch, envelopes, mentions⟩
        exact ⟨kind, commitment, epoch, device ▸ envelopes, mentions⟩
      · rintro ⟨kind, commitment, epoch, envelopes, mentions⟩
        exact ⟨device, kind, commitment, epoch, device ▸ envelopes, mentions⟩
    simp only [replayOf, device, ne_eq, not_true_eq_false, if_false, repeats]
    constructor
    · rintro ⟨kind, commitment, epoch, envelopes, mentions⟩
      simp [kind, commitment, epoch, envelopes, mentions]
    · intro other
      rw [if_pos (by tauto)]
      exact ⟨_, rfl⟩
  · constructor
    · intro repeats
      exact absurd repeats.senderDeviceId device
    · intro _
      exact ⟨_, by rw [replayOf, if_pos device]⟩

/-!
# Who may talk to whom

The tables of Direct Chats, and the transactions on a pair of users: `policy.ts`
and `service.ts` of trust, `device-service.ts`, and the opening of a chat in
`direct-chat-service.ts`.
-/

structure UserBlock where
  blockerUserId : String
  blockedUserId : String
  deriving DecidableEq

structure DirectConversation where
  id : String
  pairKey : String
  members : List String
  interactionEpoch : Int := 0
  deriving DecidableEq

/-- A row of `user_crypto_device`; times are the steps they are written at. -/
structure UserCryptoDevice where
  id : String
  userId : String
  identityEd25519Public : String
  identityX25519Public : String
  signedPrekeyId : Nat
  signedPrekeyPublic : String
  signedPrekeySignature : String
  label : Option String := none
  revokedAt : Option Nat := none
  createdAt : Nat

structure ChatStore where
  users : List String := []
  blocks : List UserBlock := []
  conversations : List DirectConversation := []
  messages : List DirectMessage := []
  devices : List UserCryptoDevice := []

/-- `[left, right].sort()`. -/
def sortedPair (left right : String) : List String := sortTexts [left, right]

/-- `directPairKey` of two distinct users. -/
def directPairKey (left right : String) : String := ":".intercalate (sortedPair left right)

namespace ChatStore

variable (store : ChatStore)

/-- The result of `lockTrustUserPair`; the lock itself makes each transaction on the pair one step. -/
def usersExist (left right : String) : Bool := left = right || (left ∈ store.users && right ∈ store.users)

def canInteract (left right : String) : Bool :=
  left = right || store.blocks.all fun block =>
    ¬ (block.blockerUserId = left ∧ block.blockedUserId = right) && ¬ (block.blockerUserId = right ∧ block.blockedUserId = left)

def bumpDirectInteractionEpoch (left right : String) : ChatStore :=
  { store with conversations := store.conversations.map fun c =>
      if c.pairKey = directPairKey left right then { c with interactionEpoch := c.interactionEpoch + 1 } else c }

/-- `blockUser` once the handle is resolved; `none` where it throws. -/
def blockUser (actorUserId : String) : Option String → Option ChatStore
  | none => none
  | some target =>
    let row : UserBlock := ⟨actorUserId, target⟩
    if target = actorUserId then none
    else if ¬ store.usersExist actorUserId target then none
    else if row ∈ store.blocks then some store
    else some ({ store with blocks := store.blocks ++ [row] }.bumpDirectInteractionEpoch actorUserId target)

/-- `unblockUser` once the handle is resolved. -/
def unblockUser (actorUserId : String) : Option String → Option ChatStore
  | none => none
  | some target =>
    let row : UserBlock := ⟨actorUserId, target⟩
    if ¬ store.usersExist actorUserId target then none
    else if store.blocks.count row ≠ 1 then none
    else some ({ store with blocks := store.blocks.filter (· ≠ row) }.bumpDirectInteractionEpoch actorUserId target)

/-- What `create` checks before its transaction. -/
def createAllowed (actorUserId peerUserId : String) (peerProfile : Bool) : Bool :=
  peerUserId ≠ actorUserId && store.canInteract actorUserId peerUserId && peerProfile

/-- The transaction of `create`, with the id of a new row. -/
def create (newId actorUserId peerUserId : String) : Option ChatStore :=
  let pairKey := directPairKey actorUserId peerUserId
  if ¬ (store.usersExist actorUserId peerUserId && store.canInteract actorUserId peerUserId) then none
  else if store.conversations.any (·.pairKey = pairKey) then some store
  else if store.conversations.any (·.id = newId) then none
  else some { store with conversations := store.conversations ++ [⟨newId, pairKey, [actorUserId, peerUserId], 0⟩] }

def requireMemberConversation (userId conversationId : String) : Except DirectChatError DirectConversation :=
  match store.conversations.find? fun c => c.id = conversationId ∧ userId ∈ c.members with
  | none => .error ⟨.NOT_FOUND, "Direct Chat was not found"⟩
  | some conversation => .ok conversation

def requireActiveDevice (userId deviceId : String) : Except DirectChatError UserCryptoDevice :=
  match store.devices.find? fun d => d.id = deviceId ∧ d.userId = userId with
  | none => .error ⟨.NOT_FOUND, "Device was not found"⟩
  | some device => if device.revokedAt.isSome then .error ⟨.DEVICE_REVOKED, "This device was revoked"⟩ else .ok device

/-- The epoch that `prepareSend` answers with. -/
def prepareSend (userId conversationId senderDeviceId : String) : Except DirectChatError Int :=
  match store.requireMemberConversation userId conversationId with
  | .error e => .error e
  | .ok conversation => match conversation.members.find? (· ≠ userId) with
    | none => .error ⟨.FORBIDDEN, "Direct Chat interaction is unavailable"⟩
    | some peerUserId => match store.requireActiveDevice userId senderDeviceId with
      | .error e => .error e
      | .ok _ =>
        if ¬ (store.usersExist userId peerUserId && store.canInteract userId peerUserId) then
          .error ⟨.FORBIDDEN, "Direct Chat interaction is unavailable"⟩
        else match store.conversations.find? (·.id = conversationId) with
          | none => .error ⟨.NOT_FOUND, "Direct Chat was not found"⟩
          | some current => .ok current.interactionEpoch

end ChatStore

structure RegisterCryptoDevice where
  deviceId : String
  identityEd25519Public : String
  identityX25519Public : String
  signedPrekeyId : Nat
  signedPrekeyPublic : String
  signedPrekeySignature : String
  label : Option String := none

/-- `verifySignedPreKey` of decoded texts; `false` also where a text does not decode. -/
abbrev VerifySignedPrekey := (identity : String) → (keyId : Nat) → (key signature : String) → Bool

namespace ChatStore

variable (store : ChatStore)

def register (verify : VerifySignedPrekey) (now : Nat) (actorUserId : String) (input : RegisterCryptoDevice) :
    Except DirectChatError ChatStore :=
  if ¬ verify input.identityEd25519Public input.signedPrekeyId input.signedPrekeyPublic input.signedPrekeySignature then
    .error ⟨.VALIDATION_ERROR, "Signed prekey is invalid"⟩
  else match store.devices.find? (·.id = input.deviceId) with
    | none =>
      .ok { store with devices := store.devices ++ [{
        id := input.deviceId, userId := actorUserId, identityEd25519Public := input.identityEd25519Public,
        identityX25519Public := input.identityX25519Public, signedPrekeyId := input.signedPrekeyId,
        signedPrekeyPublic := input.signedPrekeyPublic, signedPrekeySignature := input.signedPrekeySignature,
        label := input.label, createdAt := now }] }
    | some existing =>
      if existing.userId ≠ actorUserId then .error ⟨.FORBIDDEN, "Device id is already registered"⟩
      else if existing.revokedAt.isSome then .error ⟨.DEVICE_REVOKED, "This device was revoked"⟩
      else if existing.identityEd25519Public ≠ input.identityEd25519Public ∨
          existing.identityX25519Public ≠ input.identityX25519Public then
        .error ⟨.TAMPERED, "Device identity does not match the registered device"⟩
      else
        .ok { store with devices := Rows.update (·.id) existing.id (fun d => { d with
          signedPrekeyId := input.signedPrekeyId, signedPrekeyPublic := input.signedPrekeyPublic,
          signedPrekeySignature := input.signedPrekeySignature, label := input.label.or d.label }) store.devices }

/-- What `revoke` reads: the device is to be revoked. -/
def revocable (actorUserId deviceId : String) : Bool :=
  (store.devices.find? fun d => d.id = deviceId ∧ d.userId = actorUserId).any (·.revokedAt.isNone)

/-- What it writes. -/
def revoke (now : Nat) (deviceId : String) : ChatStore :=
  { store with devices := Rows.update (·.id) deviceId (fun d => { d with revokedAt := some now }) store.devices }

end ChatStore

end Vimla.DirectMessages
