import Vimla.TextChat.Ownership
import Vimla.TextChat.Submissions

/-!
# What the tables say of the stored messages

Each message that a call stored is the one message of that call: under its
request where the call is streamed, under its submission where it is planned. No
two calls with one key have stored a message.
-/

namespace Vimla.TextChat

open Threads List

def ChatMessageSubmission.key (row : ChatMessageSubmission) : Nat × String := (row.userId, row.clientRequestId)

def SendMessageInput.key (input : SendMessageInput) : Nat × String := (input.userId, input.clientRequestId)

/-- The same conversation, content and mentions under the same key. The order in
which a body lists its mentions is not kept. -/
structure Repeats (first again : SendMessageInput) : Prop where
  key : first.key = again.key
  conversationId : first.conversationId = again.conversationId
  content : first.content = again.content
  mentions : ordered first.mentions = ordered again.mentions

instance (first again : SendMessageInput) : Decidable (Repeats first again) :=
  decidable_of_iff (first.key = again.key ∧ first.conversationId = again.conversationId ∧
      first.content = again.content ∧ ordered first.mentions = ordered again.mentions)
    ⟨fun ⟨h, h', h'', h'''⟩ => ⟨h, h', h'', h'''⟩, fun ⟨h, h', h'', h'''⟩ => ⟨h, h', h'', h'''⟩⟩

/-- Another content or mention list under the same key. -/
def Differs (first again : SendMessageInput) : Prop :=
  first.key = again.key ∧ (first.content ≠ again.content ∨ ordered first.mentions ≠ ordered again.mentions)

variable {first again : SendMessageInput}

theorem Repeats.route (repeats : Repeats first again) :
    routeOf first.mentions = routeOf again.mentions := by
  rw [← routeOf_ordered first.mentions, repeats.mentions, routeOf_ordered]

theorem Repeats.not_differs (repeats : Repeats first again) : ¬ Differs first again := by
  rintro ⟨-, content | mentions⟩
  · exact content repeats.content
  · exact mentions repeats.mentions

/-- The messages stored for one key. -/
def Chat.userMessages (s : Chat) (key : Nat × String) : List Message :=
  s.text.messages.filter fun m => m.role = .USER ∧
    ((∃ row ∈ s.text.requests, (row.userId, row.clientRequestId) = key ∧ m.aiRequestId = some row.id) ∨
      ∃ row ∈ s.submissions, row.key = key ∧ row.messageId = m.id)

def Store.writtenTo (s : Store) (me : Nat) : List SseEvent := (s.written.filter (·.1 = me)).map Prod.snd

section Tables
variable (c : Config) (ids : Ids) (calls : Nat → SendMessageInput)

/-- The message is what the call asked. -/
structure Asked (n : Nat) (m : Message) : Prop where
  role : m.role = .USER
  conversationId : m.conversationId = (calls n).conversationId
  content : m.content = (calls n).content

/-- The message is stored for the call. -/
def MessageOf (s : Chat) (n : Nat) (m : Message) : Prop :=
  m ∈ s.text.messages ∧ Asked calls n m ∧ (m.aiRequestId = some (ids.cuid n) ∨ m.aiRequestId = none ∧
    ∃ row ∈ s.submissions, row.key = (calls n).key ∧ row.messageId = m.id)

structure OfRequest (n : Nat) (row : AiRequest) : Prop where
  id : row.id = ids.cuid n
  key : (row.userId, row.clientRequestId) = (calls n).key
  conversationId : row.conversationId = (calls n).conversationId
  route : routeOf (calls n).mentions = .CHAT

structure OfSubmission (s : Chat) (n : Nat) (row : ChatMessageSubmission) : Prop where
  key : row.key = (calls n).key
  conversationId : row.conversationId = (calls n).conversationId
  route : routeOf (calls n).mentions = .ORCHESTRATION
  message : ∃ m ∈ s.text.messages, m.id = row.messageId ∧ m.aiRequestId = none ∧ Asked calls n m
  mentions : List.Forall₂ (Fits (calls n).userId) (ordered (calls n).mentions) (s.readForMessage row.messageId)

/-- A call that stored its message passed its checks. -/
structure Accepted (s : Chat) (n : Nat) : Prop where
  size : assertMessageSize (calls n).content c.aiMaxMessageBytes = .ok ()
  conversation : s.conversationKind (calls n).userId (calls n).conversationId = some .CHAT
  apart : overlap (ordered (calls n).mentions) = false
  stored : (routeOf (calls n).mentions = .CHAT ∧ (∃ row ∈ s.text.requests, OfRequest ids calls n row) ∧
      ∃ m, (s.text.messagesOf (ids.cuid n)).filter (·.role = .USER) = [m] ∧ Asked calls n m) ∨
    ∃ row ∈ s.submissions, OfSubmission calls s n row

structure Consistent (s : Chat) : Prop where
  numbered : s.text.messages.map Message.id = List.range s.text.messages.length
  keys : (s.sent.map fun n => (calls n).key).Nodup
  requests : ∀ row ∈ s.text.requests, ∃ n ∈ s.sent, OfRequest ids calls n row
  distinct : (s.submissions.map ChatMessageSubmission.key).Nodup
  submissions : ∀ row ∈ s.submissions, ∃ n ∈ s.sent, OfSubmission calls s n row
  questions : ∀ m ∈ s.text.messages, m.role = .USER → ∀ id, m.aiRequestId = some id → ∃ n ∈ s.sent, id = ids.cuid n
  sent : ∀ n ∈ s.sent, Accepted c ids calls s n
  mentions : ∀ row ∈ s.mentions, row.messageId < s.text.messages.length
  exist : s.HandlesExist (s.mentions.map MessageMention.view)

end Tables

section Facts
variable {c : Config} {ids : Ids} {calls : Nat → SendMessageInput} {s t : Chat} {n n' : Nat} {m m' : Message}

theorem Consistent.empty : Consistent c ids calls .empty :=
  ⟨rfl, nodup_nil, by simp [Chat.empty, Store.empty], nodup_nil, by simp [Chat.empty],
    by simp [Chat.empty, Store.empty], by simp [Chat.empty], by simp [Chat.empty], by simp [Chat.empty, Chat.HandlesExist]⟩

section
variable (consistent : Consistent c ids calls s)
include consistent

theorem Consistent.lt_length (mem : m ∈ s.text.messages) :
    m.id < s.text.messages.length := by
  have here : m.id ∈ s.text.messages.map Message.id := mem_map_of_mem mem
  rw [consistent.numbered] at here
  exact mem_range.1 here

theorem Consistent.message_eq (mem : m ∈ s.text.messages)
    (mem' : m' ∈ s.text.messages) (same : m.id = m'.id) : m = m' := by
  have distinct : (s.text.messages.map Message.id).Nodup := by
    rw [consistent.numbered]
    exact nodup_range
  exact Rows.eq_of_key distinct mem mem' same

section
variable (mem : n ∈ s.sent)
include mem

/-- Two calls with one key that both stored a message are one. -/
theorem Consistent.call_eq (mem' : n' ∈ s.sent)
    (same : (calls n).key = (calls n').key) : n = n' :=
  inj_on_of_nodup_map consistent.keys mem mem' same

/-- A request under a call's key is that of the call. -/
theorem Consistent.request_of {row : AiRequest}
    (found : row ∈ s.text.requests) (same : (row.userId, row.clientRequestId) = (calls n).key) : OfRequest ids calls n row := by
  obtain ⟨n', mem', of⟩ := consistent.requests row found
  rwa [consistent.call_eq mem mem' (same.symm.trans of.key)]

theorem Consistent.submission_of {row : ChatMessageSubmission}
    (found : row ∈ s.submissions) (same : row.key = (calls n).key) : OfSubmission calls s n row := by
  obtain ⟨n', mem', of⟩ := consistent.submissions row found
  rwa [consistent.call_eq mem mem' (same.symm.trans of.key)]

theorem Consistent.stored_chat (chat : routeOf (calls n).mentions = .CHAT) : (∃ row ∈ s.text.requests, OfRequest ids calls n row) ∧
      ∃ m, (s.text.messagesOf (ids.cuid n)).filter (·.role = .USER) = [m] ∧ Asked calls n m := by
  rcases (consistent.sent n mem).stored with ⟨-, here⟩ | ⟨row, -, of⟩
  · exact here
  · rw [of.route] at chat
    cases chat

theorem Consistent.stored_orchestration (planned : routeOf (calls n).mentions = .ORCHESTRATION) : ∃ row ∈ s.submissions, OfSubmission calls s n row := by
  rcases (consistent.sent n mem).stored with ⟨chat, -⟩ | here
  · rw [planned] at chat
    cases chat
  · exact here

end

end

theorem mem_question {m₀ : Message} (only : (s.text.messagesOf (ids.cuid n)).filter (·.role = .USER) = [m₀]) :
    m ∈ s.text.messages ∧ m.role = .USER ∧ m.aiRequestId = some (ids.cuid n) ↔ m = m₀ := by
  have members : m ∈ (s.text.messagesOf (ids.cuid n)).filter (·.role = .USER) ↔ m ∈ [m₀] := by rw [only]
  simpa [Store.messagesOf, and_assoc] using members

/-- At most one message is stored for a key. -/
theorem Consistent.userMessages_le_one (consistent : Consistent c ids calls s) (key : Nat × String) :
    (s.userMessages key).length ≤ 1 := by
  have distinct : (s.userMessages key).Nodup := by
    have all : s.text.messages.Nodup := by
      apply List.Nodup.of_map Message.id
      rw [consistent.numbered]
      exact nodup_range
    exact all.filter _
  have one : ∀ m ∈ s.userMessages key, ∀ m' ∈ s.userMessages key, m = m' := by
    intro m hm m' hm'
    simp only [Chat.userMessages, mem_filter, decide_eq_true_eq] at hm hm'
    obtain ⟨mem, user, of⟩ := hm
    obtain ⟨mem', user', of'⟩ := hm'
    rcases of with ⟨row, found, same, under⟩ | ⟨row, found, same, id⟩
    · obtain ⟨n, sent, ofn⟩ := consistent.requests row found
      obtain ⟨-, m₀, only, -⟩ := consistent.stored_chat sent ofn.route
      have first : m = m₀ := (mem_question only).1 ⟨mem, user, by rw [under, ofn.id]⟩
      rcases of' with ⟨row', found', same', under'⟩ | ⟨row', found', same', -⟩
      · have ofn' := consistent.request_of sent found' (same'.trans (same.symm.trans ofn.key))
        exact first.trans ((mem_question only).1 ⟨mem', user', by rw [under', ofn'.id]⟩).symm
      · have ofn' := consistent.submission_of sent found' (same'.trans (same.symm.trans ofn.key))
        have routes := ofn.route
        rw [ofn'.route] at routes
        cases routes
    · obtain ⟨n, sent, ofn⟩ := consistent.submissions row found
      rcases of' with ⟨row', found', same', -⟩ | ⟨row', found', same', id'⟩
      · have ofn' := consistent.request_of sent found' (same'.trans (same.symm.trans ofn.key))
        have routes := ofn'.route
        rw [ofn.route] at routes
        cases routes
      · have one : row = row' := Rows.eq_of_key consistent.distinct found found' (same.trans same'.symm)
        exact consistent.message_eq mem mem' (by rw [← id, ← id', one])
  cases listed : s.userMessages key with
  | nil => simp
  | cons m rest =>
    cases rest with
    | nil => simp
    | cons m' rest =>
      rw [listed] at distinct one
      have same := one m mem_cons_self m' (mem_cons_of_mem _ mem_cons_self)
      rw [same] at distinct
      simp at distinct

end Facts

end Vimla.TextChat
