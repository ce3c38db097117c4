import Vimla.TextChat.Mentions
import Vimla.TextChat.Streaming

/-!
# Sending a message

`sendMessage` as a program of atomic steps on the tables of text chat and the
registry. A message that mentions nobody but its author is streamed, and its
mentions are attached afterwards; any other is stored with its mentions in one
transaction and planned.
-/

namespace Vimla.TextChat

open Threads Threads.Program

/-- A call to `sendMessage`. -/
structure SendMessageInput extends SendMessage where
  mentions : List MessageMentionInput

structure Conversation where
  id : String
  userId : Nat
  kind : ConversationKind

structure ChatMessageSubmission where
  userId : Nat
  conversationId : String
  clientRequestId : String
  messageId : Nat

/-- A row of `message_mention`. -/
structure MessageMention where
  messageId : Nat
  view : MessageMentionView

/-- `sent` lists the calls whose message was stored; no query reads it. -/
structure Chat where
  text : Store
  conversations : List Conversation
  handles : List Handle
  models : List AiModel
  submissions : List ChatMessageSubmission
  mentions : List MessageMention
  sent : List Nat

structure PersistedRoutingResult where
  messageId : Nat
  route : ChatMessageRoute
  mentions : List MessageMentionView
  deriving DecidableEq

/-- What a call has answered when it ends without an error; a planned message is
answered before it is planned. -/
inductive Answer
  | CHAT
  | ORCHESTRATION (result : PersistedRoutingResult) (workflow : Except Thrown String)
  deriving DecidableEq

namespace Chat

def empty : Chat := ⟨.empty, [], [], [], [], [], []⟩

variable (s : Chat)

def conversationKind (userId : Nat) (id : String) : Option ConversationKind :=
  (s.conversations.find? fun row => row.id = id ∧ row.userId = userId).map Conversation.kind

def submission (userId : Nat) (clientRequestId : String) : Option ChatMessageSubmission :=
  s.submissions.find? fun row => row.userId = userId ∧ row.clientRequestId = clientRequestId

/-- `readForMessage`. -/
def readForMessage (messageId : Nat) : List MessageMentionView :=
  Js.sort (fun left right => compare left.startOffset right.startOffset)
    ((s.mentions.filter fun row => row.messageId = messageId).map MessageMention.view)

/-- The foreign key of `handleId`. -/
def HandlesExist (mentions : List MessageMentionView) : Prop := ∀ view ∈ mentions, ∃ handle ∈ s.handles, handle.id = view.handleId

instance (mentions : List MessageMentionView) : Decidable (s.HandlesExist mentions) :=
  inferInstanceAs (Decidable (∀ view ∈ mentions, ∃ handle ∈ s.handles, handle.id = view.handleId))

def insertMentions (messageId : Nat) (mentions : List MessageMentionView) : Chat :=
  { s with mentions := s.mentions ++ mentions.map (⟨messageId, ·⟩) }

/-- `createMany` with `skipDuplicates`, on the unique key of a message and a range. -/
def insertNewMentions (messageId : Nat) (mentions : List MessageMentionView) : Chat :=
  s.insertMentions messageId (mentions.filter fun view => !s.mentions.any fun row =>
    row.messageId = messageId && row.view.startOffset = view.startOffset && row.view.endOffset = view.endOffset)

/-- A step of text chat taken by a call. -/
def withText (me : Nat) (text : Store) : Chat :=
  { s with
    text := text
    sent := if s.text.requests.length < text.requests.length then s.sent ++ [me] else s.sent }

end Chat

inductive Statement
  | getConversation | handles | textEnabled | conversation | submission | plan | question
  | models (handles : List Handle)
  | text (l : Step)
  | persist (resolved : List MessageMentionView)
  | createMentions (messageId : Nat) (resolved : List MessageMentionView)
  | content (messageId : Nat)
  | mentions (messageId : Nat)

/-- A statement of a call. -/
abbrev Label := Nat × Statement

abbrev Reply : Label → Type
  | (_, .models _) => Int
  | (_, .textEnabled) => Bool
  | (_, .text l) => Draw l
  | (_, .plan) => Except Thrown String
  | _ => Unit

abbrev Sending := Program Label Reply Chat Thrown

section Call
variable (c : Config) (ids : Ids) (me : Nat) (input : SendMessageInput)

/-- Text chat reads the call's conversation from the table. -/
def located : (l : Step) → Chat → Draw l → Draw l
  | .lookup, s, d => { d with conversation := s.conversationKind input.userId input.conversationId }
  | _, _, d => d

/-- The steps of text chat, as steps of the call. -/
def ofText {α : Type} (p : Process α) : Sending α :=
  p.within (fun l => (me, .text l)) Chat.text (Chat.withText · me) (located input)

def getConversation : Sending Unit :=
  (ask (me, .getConversation) fun s _ =>
    (if s.conversationKind input.userId input.conversationId = some .CHAT then .ok ()
      else .error (.http "Conversation was not found" 404), s)).bind lift

def resolveMentions : Sending (List MessageMentionView) :=
  if overlap (ordered input.mentions) then .fail (invalidMention "Mention ranges cannot overlap")
  else
    (ask (me, .handles) fun s _ => (mentionedHandles s.handles (ordered input.mentions), s)).bind fun handles =>
      (ask (me, .models handles) fun s now =>
        (resolveOrdered input.userId input.content (ordered input.mentions) handles s.models now, s)).bind lift

def assertTextEnabled : Sending Unit :=
  (ask (me, .textEnabled) fun s (enabled : Bool) =>
    (if enabled then .ok () else .error (.ai .AI_DISABLED "Text AI is temporarily disabled" 503), s)).bind lift

/-- The user's message of the request under the call's key. -/
def question : Sending (Option Nat) :=
  ask (me, .question) fun s _ =>
    ((s.text.findUnique input.userId input.clientRequestId).bind fun row =>
      ((s.text.messagesOf row.id).find? fun m => m.role = .USER).map Message.id, s)

def attachToAiRequest (resolved : List MessageMentionView) : Sending Unit :=
  if resolved = [] then .pure ()
  else (question me input).bind fun messageId =>
    match messageId with
    | none => .pure ()
    | some messageId =>
      (ask (me, .createMentions messageId resolved) fun s _ =>
        if s.HandlesExist resolved then (.ok (), s.insertNewMentions messageId resolved)
        else (.error (.error "Foreign key constraint violated"), s)).bind lift

/-- What the transaction of `persist` leaves: the new message, or `none` where
the key is taken. The ranges do not overlap, so no other key can be. -/
def persistTransaction (resolved : List MessageMentionView) (s : Chat) : Except Thrown (Option Nat) × Chat :=
  if ¬ s.HandlesExist resolved then (.error (.error "Foreign key constraint violated"), s)
  else
    match s.submission input.userId input.clientRequestId with
    | some _ => (.ok none, s)
    | none =>
      let messageId := s.text.messages.length
      let s := { s with text := s.text.createMessage input.conversationId .USER input.content none }
      let s := s.insertMentions messageId resolved
      (.ok (some messageId), { s with
        submissions := s.submissions ++ [⟨input.userId, input.conversationId, input.clientRequestId, messageId⟩]
        sent := s.sent ++ [me] })

/-- The answer where the key was taken. -/
def replayPersisted (resolved : List MessageMentionView) : Sending PersistedRoutingResult :=
  (ask (me, .submission) fun s _ => (s.submission input.userId input.clientRequestId, s)).bind fun replay =>
    match replay with
    | none => .fail (invalidMention "Message request could not be replayed")
    | some replay =>
      if replay.conversationId ≠ input.conversationId then
        .fail (invalidMention "Message request could not be replayed")
      else
        (ask (me, .content replay.messageId) fun s _ =>
          (s.text.messages.find? fun m => m.id = replay.messageId, s)).bind fun message =>
        (ask (me, .mentions replay.messageId) fun s _ => (s.readForMessage replay.messageId, s)).bind fun mentions =>
          -- a view's JSON text is compared, which differs where a field does
          if message.any (·.content = input.content) ∧ mentions = resolved then
            .pure ⟨replay.messageId, routeFor mentions, mentions⟩
          else .fail (.http "clientRequestId was already used for a different message payload" 409)

def persist (resolved : List MessageMentionView) : Sending PersistedRoutingResult :=
  ((ask (me, .conversation) fun s _ =>
    (if s.conversationKind input.userId input.conversationId = some .CHAT then .ok ()
      else .error (.http "Conversation was not found" 404), s)).bind lift).bind fun _ =>
  ((ask (me, .persist resolved) fun s _ => persistTransaction me input resolved s).bind lift).bind fun stored =>
    match stored with
    | some messageId => .pure ⟨messageId, routeFor resolved, resolved⟩
    | none => replayPersisted me input resolved

def planMessage : Sending (Except Thrown String) :=
  ask (me, .plan) fun s (workflow : Except Thrown String) => (workflow, s)

def sendMessage : Sending Answer :=
  (lift (assertMessageSize input.content c.aiMaxMessageBytes)).bind fun _ =>
  (getConversation me input).bind fun _ =>
  (resolveMentions me input).bind fun resolved =>
    if routeFor resolved = .CHAT then
      (assertTextEnabled me).bind fun _ =>
      (ofText me input (streamMessage c ids me input.toSendMessage)).bind fun _ =>
      (attachToAiRequest me input resolved).bind fun _ => .pure .CHAT
    else
      (persist me input resolved).bind fun result =>
      (planMessage me).bind fun workflow => .pure (.ORCHESTRATION result workflow)

end Call

/-- What happens beside the calls: a change of text chat's own tables, a new
conversation, and a registry of other handles, models and prices. A handle that
a stored mention names is not deleted. -/
inductive ChatChange
  | text (change : Change)
  | conversation (row : Conversation)
  | registry (handles : List Handle) (models : List AiModel)

def Chat.change (s : Chat) : ChatChange → Chat
  | .text change => { s with text := s.text.change change }
  | .conversation row => { s with conversations := s.conversations ++ [row] }
  | .registry handles models =>
    let changed := { s with handles := handles, models := models }
    if changed.HandlesExist (s.mentions.map MessageMention.view) then changed else s

/-- The `n`-th call asks what `calls n` says. -/
def conversationsController (c : Config) (ids : Ids) (calls : Nat → SendMessageInput) :
    System Label Reply Chat Thrown Answer Unit ChatChange where
  program me _ := sendMessage c ids me (calls me)
  environment := Chat.change

end Vimla.TextChat
