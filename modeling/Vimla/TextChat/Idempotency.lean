import Vimla.TextChat.SubmissionSteps

/-!
# One message for each key

In every interleaving of any number of calls at most one user message is stored
for a user's `clientRequestId`. A call that repeats the one that stored it is
answered from it, and a call that asks something else under its key is refused
and leaves it alone. The two routes keep their keys apart and resolve mentions
before they look, so all this needs the care of `Careful`.
-/

namespace Vimla.TextChat

open Threads Threads.Program List Discipline

section Care
variable (calls : Nat → SendMessageInput)

/-- A succeeded request with this conversation and content has these mentions. -/
def Kept (s : Chat) (me : Nat) : Prop :=
  ∀ n ∈ s.sent, (calls n).key = (calls me).key → (calls n).conversationId = (calls me).conversationId →
    (calls n).content = (calls me).content →
    (∃ row ∈ s.text.requests, (row.userId, row.clientRequestId) = (calls me).key ∧ row.status = .SUCCEEDED) →
    ordered (calls n).mentions = ordered (calls me).mentions

instance (s : Chat) (me : Nat) : Decidable (Kept calls s me) := inferInstanceAs (Decidable (∀ n ∈ s.sent, _))

/-- What a step must find for its call to keep the key to one message: a message
that the call repeats still resolves as it was stored, and the key is not in the
table of the other route. -/
def Careful : (l : Label) → Chat → Reply l → Prop
  | (me, .models handles), s, now => ∀ n ∈ s.sent, Repeats (calls n) (calls me) →
      (resolveOrdered (calls me).userId (calls me).content (ordered (calls me).mentions) handles s.models now).isOk
  | (me, .text .lookup), s, d => d.aiTextEnabled → Kept calls s me
  | (me, .text .reread), s, _ => Kept calls s me
  | (me, .text .resolveThreadModel), s, model => ∀ n ∈ s.sent, Repeats (calls n) (calls me) → Except.isOk model
  | (me, .text .begin), s, _ => ∀ row ∈ s.submissions, row.key ≠ (calls me).key
  | (me, .persist resolved), s, _ =>
    (s.HandlesExist resolved → ∀ row ∈ s.text.requests, (row.userId, row.clientRequestId) ≠ (calls me).key) ∧
      ∀ n ∈ s.sent, Repeats (calls n) (calls me) → ∀ row ∈ s.submissions, row.key = (calls me).key →
        s.readForMessage row.messageId = resolved
  | (me, .createMentions _ resolved), s, _ => ∀ n ∈ s.sent, n ≠ me → Repeats (calls n) (calls me) → s.HandlesExist resolved
  | _, _, _ => True

instance (l : Label) (s : Chat) (d : Reply l) : Decidable (Careful calls l s d) := by
  unfold Careful
  split <;> infer_instance

end Care

/-- What no step takes back. -/
structure Extends (s t : Chat) : Prop where
  sent : ∀ n ∈ s.sent, n ∈ t.sent
  messages : ∀ m ∈ s.text.messages, m ∈ t.text.messages
  conversations : ∀ userId id kind, s.conversationKind userId id = some kind → t.conversationKind userId id = some kind
  submissions : ∀ row ∈ s.submissions, row ∈ t.submissions
  reads : ∀ row ∈ s.submissions, t.readForMessage row.messageId = s.readForMessage row.messageId

theorem Extends.refl (s : Chat) : Extends s s := ⟨fun _ => id, fun _ => id, fun _ _ _ => id, fun _ => id, fun _ _ => rfl⟩

theorem Extends.trans {r s t : Chat} (h : Extends r s) (h' : Extends s t) : Extends r t :=
  ⟨fun n mem => h'.sent n (h.sent n mem), fun m mem => h'.messages m (h.messages m mem),
    fun userId id kind same => h'.conversations _ _ _ (h.conversations userId id kind same),
    fun row mem => h'.submissions row (h.submissions row mem),
    fun row mem => (h'.reads row (h.submissions row mem)).trans (h.reads row mem)⟩

section Discipline
variable (c : Config) (ids : Ids) (calls : Nat → SendMessageInput)

/-- The mentions of a message that the call does not repeat stay. -/
def Undisturbed (me : Nat) (s t : Chat) : Prop :=
  ∀ n ∈ s.sent, n ≠ me → ¬ Repeats (calls n) (calls me) → ∀ m, MessageOf ids calls s n m →
    t.mentions.filter (·.messageId = m.id) = s.mentions.filter (·.messageId = m.id)

def sending : Discipline Label Reply Chat where
  inv := Consistent c ids calls
  admits := Careful calls
  rely me s t := Extends s t ∧ (me ∈ t.sent → me ∈ s.sent) ∧ t.text.writtenTo me = s.text.writtenTo me
  guarantee me s t := Extends s t ∧ (∀ n, n ≠ me → (n ∈ t.sent → n ∈ s.sent) ∧ t.text.writtenTo n = s.text.writtenTo n) ∧
    Undisturbed ids calls me s t
  refl _ s := ⟨.refl s, id, rfl⟩
  trans _ _ _ _ h h' := ⟨h.1.trans h'.1, fun mem => h.2.1 (h'.2.1 mem), h'.2.2.trans h.2.2⟩
  compatible me _ _ _ ne _ kept := ⟨kept.1, kept.2.1 me ne.symm⟩

instance : ∀ l s d, Decidable ((sending c ids calls).admits l s d) :=
  fun l s d => inferInstanceAs (Decidable (Careful calls l s d))

end Discipline

def SseEvent.Names (id : String) : SseEvent → Prop
  | .start aiRequestId => aiRequestId = id
  | .delta _ => True
  | .done _ aiRequestId => aiRequestId = id

section Ends
variable (ids : Ids) (calls : Nat → SendMessageInput)

/-- The error that a request which has not succeeded gives to its repetition. -/
def unanswered (row : AiRequest) : Thrown :=
  if row.status ∈ IN_PROGRESS_STATUSES then .ai .AI_REQUEST_IN_PROGRESS "This request is already in progress" 409
  else .ai .AI_RECONCILIATION_REQUIRED "Retry this request with a new clientRequestId" 409

/-- The call is answered from the message of call `n`, by the route of that
message: from its stored answer, or with the status of its request, or by
planning it again. -/
def AnsweredFrom (s : Chat) (me n : Nat) : Except Thrown Answer → Prop
  | .ok .CHAT => routeOf (calls n).mentions = .CHAT ∧ ∀ event ∈ s.text.writtenTo me, event.Names (ids.cuid n)
  | .ok (.ORCHESTRATION result _) => routeOf (calls n).mentions = .ORCHESTRATION ∧ result.route = .ORCHESTRATION ∧
      (∃ m, MessageOf ids calls s n m ∧ m.id = result.messageId) ∧ result.mentions = s.readForMessage result.messageId
  | .error e => routeOf (calls n).mentions = .CHAT ∧ (e = .ai .AI_DISABLED "Text AI is temporarily disabled" 503 ∨
      ∃ row ∈ s.text.requests, row.id = ids.cuid n ∧ row.status ≠ .SUCCEEDED ∧ e = unanswered row)

/-- A repetition of a stored message is answered from it, and another content or
mention list under its key is refused. -/
def EndsWell (me : Nat) (r : Except Thrown Answer) (s : Chat) : Prop :=
  ∀ n ∈ s.sent, n ≠ me → (Repeats (calls n) (calls me) → AnsweredFrom ids calls s me n r) ∧
    (Differs (calls n) (calls me) → ∃ e, r = .error e)

end Ends

section Rules
variable {c : Config} {ids : Ids} {calls : Nat → SendMessageInput} {s t : Chat} {me n : Nat} {r : Except Thrown Answer}

theorem EndsWell.of_own (consistent : Consistent c ids calls s) (own : me ∈ s.sent) : EndsWell ids calls me r s := by
  intro n mem other
  constructor
  · intro repeats
    exact absurd (consistent.call_eq mem own repeats.key) other
  · intro differs
    exact absurd (consistent.call_eq mem own differs.1) other

variable {e : Thrown}

theorem EndsWell.of_error (new : ∀ n ∈ s.sent, n ≠ me → ¬ Repeats (calls n) (calls me)) :
    EndsWell ids calls me (.error e) s :=
  fun n mem other => ⟨fun repeats => absurd repeats (new n mem other), fun _ => ⟨e, rfl⟩⟩

theorem keeps_refl : (sending c ids calls).guarantee me s s :=
  ⟨.refl s, fun _ _ => ⟨id, rfl⟩, fun _ _ _ _ _ _ => rfl⟩

theorem keeps_modest {text : Store} (modest : Modest s.text text)
    (written : ∀ n, n ≠ me → text.writtenTo n = s.text.writtenTo n) :
    (sending c ids calls).guarantee me s { s with text := text } :=
  ⟨⟨fun _ => id, fun _ mem => modest.grows.subset mem, fun _ _ _ => id, fun _ => id, fun _ _ => rfl⟩,
    fun n other => ⟨id, written n other⟩, fun _ _ _ _ _ _ => rfl⟩

theorem keeps_opened (absent : s.text.findUnique (calls me).userId (calls me).clientRequestId = none) :
    (sending c ids calls).guarantee me s (s.withText me (opened ids calls me s.text)) := by
  rw [opened_eq absent]
  refine ⟨⟨fun _ => mem_append_left _, fun _ => mem_append_left _, fun _ _ _ => id, fun _ => id, fun _ _ => rfl⟩,
    fun n other => ⟨fun mem => ?_, rfl⟩, fun _ _ _ _ _ _ => rfl⟩
  rcases mem_append.1 mem with old | new
  · exact old
  · exact absurd (mem_singleton.1 new) other

/-- Rows are added under one message only. -/
theorem filter_insertMentions {messageId other : Nat} (views : List MessageMentionView) (ne : other ≠ messageId) :
    (s.insertMentions messageId views).mentions.filter (·.messageId = other) = s.mentions.filter (·.messageId = other) := by
  have none : (views.map fun view => (⟨messageId, view⟩ : MessageMention)).filter (·.messageId = other) = [] := by
    simp [filter_eq_nil_iff, ne.symm]
  rw [Chat.insertMentions, filter_append, none, append_nil]

theorem keeps_submitted (consistent : Consistent c ids calls s) (resolved : List MessageMentionView) :
    (sending c ids calls).guarantee me s (submitted calls me resolved s) := by
  refine ⟨⟨fun _ => mem_append_left _, fun _ => mem_append_left _, fun _ _ _ => id, fun _ => mem_append_left _,
    fun row mem => ?_⟩, fun n other => ⟨fun mem => ?_, rfl⟩, fun n mem other _ m of => ?_⟩
  · obtain ⟨n, -, of⟩ := consistent.submissions row mem
    obtain ⟨m, mem, id, -⟩ := of.message
    have before := consistent.lt_length mem
    exact read_other resolved (by omega)
  · rcases mem_append.1 mem with old | new
    · exact old
    · exact absurd (mem_singleton.1 new) other
  · exact filter_insertMentions resolved (Nat.ne_of_lt (consistent.lt_length of.1))

/-- Mentions are attached to a message that the call repeats, or to its own. -/
theorem keeps_insertMentions (consistent : Consistent c ids calls s) {m : Message} (mem : m ∈ s.text.messages)
    (under : m.aiRequestId = some (ids.cuid n)) (repeats : Repeats (calls n) (calls me)) (views : List MessageMentionView) :
    (sending c ids calls).guarantee me s (s.insertMentions m.id views) := by
  refine ⟨⟨fun _ => id, fun _ => id, fun _ _ _ => id, fun _ => id, fun row found => ?_⟩, fun n other => ⟨id, rfl⟩,
    fun n' sent other new m' of => ?_⟩
  · obtain ⟨n, -, of⟩ := consistent.submissions row found
    obtain ⟨m', mem', id, none, -⟩ := of.message
    apply read_other
    intro same
    rw [consistent.message_eq mem' mem (id.trans same), under] at none
    cases none
  · apply filter_insertMentions
    intro same
    rw [consistent.message_eq of.1 mem same] at of
    rcases of.2.2 with this | ⟨none, -⟩
    · rw [under] at this
      exact new (ids.distinct (Option.some.inj this) ▸ repeats)
    · rw [under] at none
      cases none

theorem rely_sent (rely : (sending c ids calls).rely me s t) (mem : n ∈ s.sent) : n ∈ t.sent := rely.1.sent n mem

/-- The call has stored and written nothing yet. -/
structure Waits (s : Chat) (me : Nat) : Prop where
  unsent : me ∉ s.sent
  silent : s.text.writtenTo me = []

theorem Waits.rely (waits : Waits s me) (rely : (sending c ids calls).rely me s t) : Waits t me :=
  ⟨fun mem => waits.unsent (rely.2.1 mem), rely.2.2.trans waits.silent⟩

theorem Checked.rely (checked : Checked c calls s me) (rely : (sending c ids calls).rely me s t) : Checked c calls t me :=
  ⟨checked.size, rely.1.conversations _ _ _ checked.conversation, checked.apart⟩

/-- The streamed message that the call goes on from is its own, or one that it
repeats and has been sent nothing else of. -/
structure Streams (ids : Ids) (calls : Nat → SendMessageInput) (s : Chat) (me n : Nat) : Prop where
  sent : n ∈ s.sent
  repeats : Repeats (calls n) (calls me)
  route : routeOf (calls n).mentions = .CHAT
  named : n ≠ me → ∀ event ∈ s.text.writtenTo me, event.Names (ids.cuid n)

theorem Streams.rely (streams : Streams ids calls s me n) (rely : (sending c ids calls).rely me s t) :
    Streams ids calls t me n :=
  ⟨rely_sent rely streams.sent, streams.repeats, streams.route, fun other => rely.2.2 ▸ streams.named other⟩

theorem Streams.ends (streams : Streams ids calls s me n) (consistent : Consistent c ids calls s) :
    EndsWell ids calls me (.ok .CHAT) s := by
  intro n' mem other
  have one (same : (calls n').key = (calls me).key) : n' = n :=
    consistent.call_eq mem streams.sent (same.trans streams.repeats.key.symm)
  constructor
  · intro repeats
    obtain rfl := one repeats.key
    exact ⟨streams.route, streams.named other⟩
  · intro differs
    obtain rfl := one differs.1
    exact absurd differs streams.repeats.not_differs

/-- The weakest precondition of what is left of a call. -/
def Sends (c : Config) (ids : Ids) (calls : Nat → SendMessageInput) (me : Nat) {α : Type} (ends : Except Thrown α → Chat → Prop)
    (p : Sending α) (h : History Reply) (s : Chat) : Prop :=
  (sending c ids calls).wp me (fun _ _ _ => True) (fun r _ => ends r) p h s

variable {α β : Type} {h : History Reply} {ends : Except Thrown β → Chat → Prop} {k : α → Sending β} {l : Statement}

theorem Sends.read {f : Chat → Reply (me, l) → α}
    (each : ∀ t d h, Consistent c ids calls t → (sending c ids calls).rely me s t → Careful calls (me, l) t d →
      Sends c ids calls me ends (k (f t d)) h t) :
    Sends c ids calls me ends ((ask (me, l) fun s d => (f s d, s)).bind k) h s := by
  apply wp_ask
  intro t consistent rely
  refine ⟨trivial, fun d careful => ?_⟩
  exact ⟨consistent, keeps_refl, each t d _ consistent rely careful⟩

theorem Sends.write {f : Chat → Reply (me, l) → α × Chat}
    (each : ∀ t d h, Consistent c ids calls t → (sending c ids calls).rely me s t → Careful calls (me, l) t d →
      Consistent c ids calls (f t d).2 ∧ (sending c ids calls).guarantee me t (f t d).2 ∧
        Sends c ids calls me ends (k (f t d).1) h (f t d).2) :
    Sends c ids calls me ends ((ask (me, l) f).bind k) h s := by
  apply wp_ask
  intro t consistent rely
  exact ⟨trivial, fun d careful => each t d _ consistent rely careful⟩

theorem Streams.attaches (streams : Streams ids calls s me n) (consistent : Consistent c ids calls s)
    (resolved : List MessageMentionView) :
    Sends c ids calls me (EndsWell ids calls me) ((attachToAiRequest me (calls me) resolved).bind fun _ => .pure .CHAT) h s := by
  unfold attachToAiRequest
  split
  · exact streams.ends consistent
  rw [bind_assoc]
  apply Sends.read
  intro t _ h consistent rely _
  have here := streams.rely rely
  have message : ∀ messageId, ((t.text.findUnique (calls me).userId (calls me).clientRequestId).bind fun row =>
      ((t.text.messagesOf row.id).find? fun m => m.role = .USER).map Message.id) = some messageId →
      ∃ m ∈ t.text.messages, m.aiRequestId = some (ids.cuid n) ∧ m.id = messageId := by
    intro messageId found
    obtain ⟨row, first, rest⟩ := Option.bind_eq_some_iff.1 found
    obtain ⟨m, asked, id⟩ := Option.map_eq_some_iff.1 rest
    have key : (row.userId, row.clientRequestId) = (calls n).key := by
      have same := find?_some first
      simp only [decide_eq_true_eq] at same
      rw [here.repeats.key, same.1, same.2, SendMessageInput.key]
    have of := consistent.request_of here.sent (mem_of_find?_eq_some first) key
    have mem := mem_of_find?_eq_some asked
    simp only [Store.messagesOf, mem_filter, decide_eq_true_eq] at mem
    exact ⟨m, mem.1, of.id ▸ mem.2, id⟩
  generalize ((t.text.findUnique (calls me).userId (calls me).clientRequestId).bind fun row =>
    ((t.text.messagesOf row.id).find? fun m => m.role = .USER).map Message.id) = messageId at message
  cases messageId with
  | none => exact here.ends consistent
  | some messageId =>
    obtain ⟨m, mem, under, rfl⟩ := message messageId rfl
    rw [bind_assoc]
    apply Sends.write
    intro u _ h consistent rely careful
    have now := here.rely rely
    split
    · rename_i exist
      have fewer : u.HandlesExist (resolved.filter fun view => !u.mentions.any fun row => row.messageId = m.id &&
          row.view.startOffset = view.startOffset && row.view.endOffset = view.endOffset) :=
        fun view kept => exist view (mem_of_mem_filter kept)
      have stays := rely.1.messages m mem
      have attached := consistent.insertMentions stays (by simp [under]) fewer
      have keeps := keeps_insertMentions consistent stays under now.repeats (resolved.filter fun view =>
        !u.mentions.any fun row => row.messageId = m.id && row.view.startOffset = view.startOffset &&
          row.view.endOffset = view.endOffset)
      exact ⟨attached, keeps, Streams.ends ⟨now.sent, now.repeats, now.route, now.named⟩ attached⟩
    · rename_i missing
      refine ⟨consistent, keeps_refl, ?_⟩
      by_cases own : n = me
      · exact EndsWell.of_own consistent (own ▸ now.sent)
      · exact absurd (careful n now.sent own now.repeats) missing

variable {row : AiRequest}

theorem mem_findUnique {userId : Nat} {clientRequestId : String} {text : Store}
    (found : text.findUnique userId clientRequestId = some row) :
    row ∈ text.requests ∧ (row.userId, row.clientRequestId) = (userId, clientRequestId) := by
  have same := find?_some found
  simp only [decide_eq_true_eq] at same
  exact ⟨mem_of_find?_eq_some found, by rw [same.1, same.2]⟩

variable {conflict : String}

section
variable (consistent : Consistent c ids calls s) (mem : n ∈ s.sent) {row : AiRequest}
include consistent mem

/-- The question that a streamed call stored. -/
theorem Consistent.question (of : OfRequest ids calls n row) :
    ∃ m, (s.text.messagesOf row.id).find? (fun m => m.role = .USER) = some m ∧ m.content = (calls n).content := by
  obtain ⟨-, m, only, asked⟩ := consistent.stored_chat mem of.route
  refine ⟨m, ?_, asked.content⟩
  rw [of.id, ← head?_filter, only, head?_cons]

theorem Consistent.reuse_eq (of : OfRequest ids calls n row) (input : SendMessage) (conflict : String) :
    s.text.reuse input row conflict =
      if (calls n).conversationId ≠ input.conversationId ∨ (calls n).content ≠ input.content then
        .error (.ai .IDEMPOTENCY_CONFLICT conflict 409)
      else if row.status = .SUCCEEDED then .ok (s.text.replayOf row)
      else .error (unanswered row) := by
  obtain ⟨m, asked, content⟩ := consistent.question mem of
  simp only [Store.reuse, asked, Option.any_some, content, of.conversationId, decide_eq_true_eq, unanswered]
  split
  · rfl
  · split
    · rfl
    · split <;> rfl

theorem EndsWell.of_reuse (found : row ∈ s.text.requests) (of : OfRequest ids calls n row) (same : (calls n).key = (calls me).key)
    (refused : s.text.reuse (calls me).toSendMessage row conflict = .error e) :
    EndsWell ids calls me (.error e) s := by
  intro n' mem' other
  refine ⟨fun repeats => ?_, fun _ => ⟨e, rfl⟩⟩
  obtain rfl := consistent.call_eq mem' mem (repeats.key.trans same.symm)
  rw [consistent.reuse_eq mem of, if_neg (by simp [repeats.conversationId, repeats.content])] at refused
  split at refused
  · cases refused
  · rename_i unfinished
    cases refused
    exact ⟨of.route, .inr ⟨row, found, of.id, unfinished, rfl⟩⟩

end

theorem names_replay (text : Store) (isClientOpen : Bool) (replay : Replay) (silent : text.writtenTo me = []) :
    ∀ event ∈ (text.replay me isClientOpen replay).writtenTo me, event.Names replay.aiRequestId := by
  have none : text.written.filter (·.1 = me) = [] := map_eq_nil_iff.1 silent
  intro event mem
  unfold Store.replay Store.writeEvents Store.writtenTo at mem
  split at mem
  · rw [filter_append, none, nil_append, mem_map] at mem
    obtain ⟨written, mem, rfl⟩ := mem
    obtain ⟨event, inside, rfl⟩ := mem_map.1 (mem_of_mem_filter mem)
    rcases mem_append.1 inside with (first | last)
    · rcases mem_cons.1 first with rfl | text
      · rfl
      split at text
      · rw [mem_singleton.1 text]
        trivial
      · cases text
    · rw [mem_singleton.1 last]
      rfl
  · rw [none] at mem
    cases mem

/-- A replay that the call is given: nothing is stored, and the call goes on from
the message that it repeats. -/
theorem Streams.replayed (consistent : Consistent c ids calls s) (waits : Waits s me) (mem : n ∈ s.sent)
    (found : row ∈ s.text.requests) (of : OfRequest ids calls n row) (same : (calls n).key = (calls me).key)
    (kept : Kept calls s me) {replay : Replay}
    (ok : s.text.reuse (calls me).toSendMessage row conflict = .ok replay) (isClientOpen : Bool) :
    Modest s.text (s.text.replay me isClientOpen replay) ∧
      (∀ n, n ≠ me → (s.text.replay me isClientOpen replay).writtenTo n = s.text.writtenTo n) ∧
      Streams ids calls { s with text := s.text.replay me isClientOpen replay } me n := by
  rw [consistent.reuse_eq mem of] at ok
  split at ok
  · cases ok
  rename_i alike
  simp only [not_or, not_not] at alike
  split at ok
  · rename_i done
    cases ok
    have key := of.key.trans same
    have mentions := kept n mem same alike.1 alike.2 ⟨row, found, key, done⟩
    refine ⟨modest_writeEvents _ _ _, fun _ other => writtenTo_writeEvents _ _ _ other, mem, ⟨same, alike.1, alike.2, mentions⟩,
      of.route, fun _ => ?_⟩
    have named := names_replay s.text isClientOpen (s.text.replayOf row) waits.silent
    rwa [show (s.text.replayOf row).aiRequestId = ids.cuid n from of.id] at named
  · cases ok

/-- What the call that found its key taken is told. -/
theorem Waits.reuses (waits : Waits s me) (consistent : Consistent c ids calls s)
    (found : s.text.findUnique (calls me).userId (calls me).clientRequestId = some row) (kept : Kept calls s me)
    (conflict : String) :
    (∃ e, s.text.reuse (calls me).toSendMessage row conflict = .error e ∧ EndsWell ids calls me (.error e) s) ∨
      ∃ replay n, s.text.reuse (calls me).toSendMessage row conflict = .ok replay ∧ ∀ isClientOpen,
        Modest s.text (s.text.replay me isClientOpen replay) ∧
        (∀ n, n ≠ me → (s.text.replay me isClientOpen replay).writtenTo n = s.text.writtenTo n) ∧
        Streams ids calls { s with text := s.text.replay me isClientOpen replay } me n := by
  obtain ⟨mem, key⟩ := mem_findUnique found
  obtain ⟨n, sent, of⟩ := consistent.requests row mem
  have same : (calls n).key = (calls me).key := of.key.symm.trans key
  cases result : s.text.reuse (calls me).toSendMessage row conflict with
  | error e => exact .inl ⟨e, rfl, EndsWell.of_reuse consistent sent mem of same result⟩
  | ok replay => exact .inr ⟨replay, n, rfl, Streams.replayed consistent waits sent mem of same kept result⟩

/-- A streamed call's key stays taken. -/
theorem Consistent.findUnique_isSome (consistent : Consistent c ids calls s) (mem : n ∈ s.sent)
    (same : (calls n).key = (calls me).key) (chat : routeOf (calls n).mentions = .CHAT) :
    ∃ row, s.text.findUnique (calls me).userId (calls me).clientRequestId = some row := by
  obtain ⟨⟨row, found, of⟩, -⟩ := consistent.stored_chat mem chat
  have key := of.key.trans same
  simp only [SendMessageInput.key, Prod.mk.injEq] at key
  apply Option.isSome_iff_exists.1
  rw [Store.findUnique, find?_isSome]
  exact ⟨row, found, by simpa using key⟩

section
variable {γ : Type} {l : Step} {f : Store → Draw l → α × Store} {k : α → Process γ} {rest : γ → Sending β}

theorem Sends.text (each : ∀ t d h, Consistent c ids calls t → (sending c ids calls).rely me s t → Careful calls (me, .text l) t d →
      Consistent c ids calls (t.withText me (f t.text (located (calls me) l t d)).2) ∧
        (sending c ids calls).guarantee me t (t.withText me (f t.text (located (calls me) l t d)).2) ∧
        Sends c ids calls me ends ((ofText me (calls me) (k (f t.text (located (calls me) l t d)).1)).bind rest) h
          (t.withText me (f t.text (located (calls me) l t d)).2)) :
    Sends c ids calls me ends ((ofText me (calls me) ((ask l f).bind k)).bind rest) h s :=
  fun t consistent rely => ⟨trivial, fun d careful => each t d _ consistent rely careful⟩

/-- A step of text chat that writes nothing. -/
theorem Sends.readText (reads : ∀ s d, (f s d).2 = s)
    (each : ∀ t d h, Consistent c ids calls t → (sending c ids calls).rely me s t → Careful calls (me, .text l) t d →
      Sends c ids calls me ends ((ofText me (calls me) (k (f t.text (located (calls me) l t d)).1)).bind rest) h t) :
    Sends c ids calls me ends ((ofText me (calls me) ((ask l f).bind k)).bind rest) h s := by
  apply Sends.text
  intro t d h consistent rely careful
  rw [reads, withText_modest (.refl _)]
  exact ⟨consistent, keeps_refl, each t d h consistent rely careful⟩

end

section Streaming
variable {rest : Unit → Sending Answer}
  (after : ∀ n t h, Streams ids calls t me n → Consistent c ids calls t → Sends c ids calls me (EndsWell ids calls me) (rest ()) h t)
include after

/-- The flow of a call that opened its request. -/
theorem Sends.flow (consistent : Consistent c ids calls s) (own : me ∈ s.sent) (chat : routeOf (calls me).mentions = .CHAT)
    (model : ResolvedModel) : Sends c ids calls me (EndsWell ids calls me)
      ((ofText me (calls me) (acquire.bind fun _ => withSlot c ids me (calls me).toSendMessage model)).bind rest) h s := by
  have acts : (ofText me (calls me) (acquire.bind fun _ => withSlot c ids me (calls me).toSendMessage model)).Acts
      fun _ act => ∀ s, Consistent c ids calls s → me ∈ s.sent → ∀ d, Consistent c ids calls (act s d) ∧
        (sending c ids calls).guarantee me s (act s d) ∧ me ∈ (act s d).sent := by
    apply acts_within (acts_withSlot model)
    intro l act harmless s consistent own d
    obtain ⟨modest, written⟩ := harmless s.text (located (calls me) l s d)
    dsimp only
    rw [withText_modest modest]
    exact ⟨consistent.modest modest, keeps_modest modest written, own⟩
  apply wp_bind
  refine wp_acts (K := fun s => me ∈ s.sent) (fun s t rely => rely_sent rely) ?_ ?_ acts consistent own
  · intro l act keeps s consistent own h
    exact ⟨trivial, fun d _ => keeps s consistent own d⟩
  · intro r h s consistent own
    cases r with
    | error e => exact EndsWell.of_own consistent own
    | ok _ => exact after me s h ⟨own, ⟨rfl, rfl, rfl, rfl⟩, chat, fun other => absurd rfl other⟩ consistent

/-- The look at the key after the transaction found it taken. -/
theorem Sends.reread (waits : Waits s me) (mem : n ∈ s.sent) (same : (calls n).key = (calls me).key)
    (chat : routeOf (calls n).mentions = .CHAT) : Sends c ids calls me (EndsWell ids calls me)
      ((ofText me (calls me) (TextChat.reread me (calls me).toSendMessage)).bind rest) h s := by
  apply Sends.text
  intro t d h consistent rely careful
  have now := waits.rely rely
  obtain ⟨row, found⟩ := consistent.findUnique_isSome (rely_sent rely mem) same chat
  simp only [found]
  rcases now.reuses consistent found careful "clientRequestId was already used for a different request" with
    ⟨e, refused, ends⟩ | ⟨replay, n, ok, given⟩
  · simp only [refused, withText_modest (.refl _)]
    exact ⟨consistent, keeps_refl, ends⟩
  · obtain ⟨modest, written, streams⟩ := given (located (calls me) .reread t d)
    simp only [ok, withText_modest modest]
    have later := consistent.modest modest
    exact ⟨later, keeps_modest modest written, after n _ h streams later⟩

section
variable (waits : Waits s me) (checked : Checked c calls s me) (chat : routeOf (calls me).mentions = .CHAT)
include waits checked chat

/-- A call that found its key free: it opens a request, or finds one that another
call has opened since. -/
theorem Sends.begins :
    Sends c ids calls me (EndsWell ids calls me) ((ofText me (calls me)
      ((lift (assertMessageSize (calls me).content c.aiMaxMessageBytes)).bind fun _ =>
        ((ask .resolveThreadModel fun s (model : Except Thrown ResolvedModel) => (model, s)).bind lift).bind fun model =>
        (ask .begin fun s _ => s.beginRequest (ids.cuid me) (calls me).toSendMessage).bind fun isNew =>
          if isNew then acquire.bind fun _ => withSlot c ids me (calls me).toSendMessage model
          else TextChat.reread me (calls me).toSendMessage)).bind rest) h s := by
  rw [checked.size]
  simp only [lift, Program.bind, bind_assoc]
  apply Sends.readText fun _ _ => rfl
  intro t model h _ rely careful
  cases model with
  | error e =>
    apply EndsWell.of_error
    intro n mem _ repeats
    exact absurd (careful n mem repeats) (by simp [Except.isOk, Except.toBool])
  | ok model =>
    have waits := waits.rely rely
    have checked := checked.rely rely
    apply Sends.text
    intro t d h consistent rely careful
    have now := waits.rely rely
    cases absent : t.text.findUnique (calls me).userId (calls me).clientRequestId with
    | some row =>
      obtain ⟨mem, key⟩ := mem_findUnique absent
      obtain ⟨n, sent, of⟩ := consistent.requests row mem
      simp only [Store.beginRequest, absent, withText_modest (.refl _)]
      exact ⟨consistent, keeps_refl, Sends.reread after now sent (of.key.symm.trans key) of.route⟩
    | none =>
      have free : Free calls t me := ⟨findUnique_free absent, careful⟩
      have stored := consistent.opened now.unsent (checked.rely rely) absent free chat
      have own : me ∈ (t.withText me (opened ids calls me t.text)).sent := by
        rw [opened_eq absent]
        exact mem_append_right _ (mem_singleton_self me)
      have isNew : (t.text.beginRequest (ids.cuid me) (calls me).toSendMessage).1 = true := by
        simp [Store.beginRequest, absent]
      refine ⟨stored, keeps_opened absent, ?_⟩
      rw [isNew]
      exact Sends.flow after stored own chat model

/-- A call that is streamed, from the checks on entry. -/
theorem Sends.streamMessage :
    Sends c ids calls me (EndsWell ids calls me)
      ((ofText me (calls me) (TextChat.streamMessage c ids me (calls me).toSendMessage)).bind rest) h s := by
  unfold TextChat.streamMessage lookup
  rw [bind_assoc]
  apply Sends.text
  intro t d h consistent rely careful
  have now := waits.rely rely
  have at_ := checked.rely rely
  simp only [located, at_.conversation]
  cases enabled : d.aiTextEnabled with
  | false =>
    simp only [Bool.false_eq_true, if_false, withText_modest (.refl _)]
    refine ⟨consistent, keeps_refl, fun n mem other => ⟨fun repeats => ?_, fun _ => ⟨_, rfl⟩⟩⟩
    exact ⟨repeats.route.trans chat, .inl rfl⟩
  | true =>
    simp only [if_true]
    cases found : t.text.findUnique (calls me).userId (calls me).clientRequestId with
    | some row =>
      rcases now.reuses consistent found (careful enabled)
        "clientRequestId was already used in another conversation" with ⟨e, refused, ends⟩ | ⟨replay, n, ok, given⟩
      · simp only [refused, withText_modest (.refl _)]
        exact ⟨consistent, keeps_refl, ends⟩
      · obtain ⟨modest, written, streams⟩ := given d.isClientOpen
        simp only [ok, withText_modest modest]
        have later := consistent.modest modest
        exact ⟨later, keeps_modest modest written, after n _ h streams later⟩
    | none =>
      simp only [withText_modest (.refl _)]
      exact ⟨consistent, keeps_refl, Sends.begins after now at_ chat⟩

end

end Streaming

/-- The key is taken by call `n`, whose message is stored as it would be now if
the call repeats it. -/
structure Taken (calls : Nat → SendMessageInput) (s : Chat) (me n : Nat) (row : ChatMessageSubmission)
    (resolved : List MessageMentionView) : Prop where
  sent : n ∈ s.sent
  same : (calls n).key = (calls me).key
  stored : row ∈ s.submissions
  key : row.key = (calls me).key
  kept : Repeats (calls n) (calls me) → s.readForMessage row.messageId = resolved

section Planning
variable {row : ChatMessageSubmission} {resolved : List MessageMentionView}

section
variable (taken : Taken calls s me n row resolved)
include taken

theorem Taken.rely (rely : (sending c ids calls).rely me s t) :
    Taken calls t me n row resolved :=
  ⟨rely_sent rely taken.sent, taken.same, rely.1.submissions row taken.stored, taken.key,
    fun repeats => (rely.1.reads row taken.stored).trans (taken.kept repeats)⟩

section
variable (consistent : Consistent c ids calls s)
include consistent

theorem Taken.of : OfSubmission calls s n row :=
  consistent.submission_of taken.sent taken.stored (taken.key.trans taken.same.symm)

/-- An error is in order where the call repeats nothing. -/
theorem Taken.refused
    (new : ¬ Repeats (calls n) (calls me)) : EndsWell ids calls me (.error e) s := by
  apply EndsWell.of_error
  intro n' mem _ repeats
  rw [consistent.call_eq mem taken.sent (repeats.key.trans taken.same.symm)] at repeats
  exact new repeats

/-- The submission of the key, as a query finds it. -/
theorem Taken.found :
    s.submission (calls me).userId (calls me).clientRequestId = some row := by
  have key := taken.key
  simp only [ChatMessageSubmission.key, SendMessageInput.key, Prod.mk.injEq] at key
  have some : (s.submission (calls me).userId (calls me).clientRequestId).isSome := by
    rw [Chat.submission, find?_isSome]
    exact ⟨row, taken.stored, by simpa using key⟩
  obtain ⟨row', found⟩ := Option.isSome_iff_exists.1 some
  have key' := find?_some found
  simp only [decide_eq_true_eq] at key'
  have same : row' = row := by
    apply Rows.eq_of_key consistent.distinct (mem_of_find?_eq_some found) taken.stored
    simp [ChatMessageSubmission.key, key, key']
  rw [found, same]

theorem Taken.content (content : String) :
    (s.text.messages.find? fun m => m.id = row.messageId).any (·.content = content) ↔ (calls n).content = content := by
  obtain ⟨m, mem, id, -, asked⟩ := (taken.of consistent).message
  have some : (s.text.messages.find? fun m => m.id = row.messageId).isSome := by
    rw [find?_isSome]
    exact ⟨m, mem, by simpa using id⟩
  obtain ⟨m', found⟩ := Option.isSome_iff_exists.1 some
  have id' := find?_some found
  rw [decide_eq_true_eq] at id'
  rw [consistent.message_eq (mem_of_find?_eq_some found) mem (id'.trans id.symm)] at found
  rw [found, Option.any_some, decide_eq_true_eq, asked.content]

/-- A replay of the stored message. -/
theorem Taken.answers (content : (calls n).content = (calls me).content) {views : List MessageMentionView}
    (read : views = s.readForMessage row.messageId)
    (fits : Forall₂ (Fits (calls me).userId) (ordered (calls me).mentions) views) (workflow : Except Thrown String) :
    EndsWell ids calls me (.ok (.ORCHESTRATION ⟨row.messageId, routeFor views, views⟩ workflow)) s := by
  have of := taken.of consistent
  have mentions : ordered (calls n).mentions = ordered (calls me).mentions := mentions_eq_of_fits of.mentions (read ▸ fits)
  intro n' mem other
  have one (same : (calls n').key = (calls me).key) : n' = n := consistent.call_eq mem taken.sent (same.trans taken.same.symm)
  constructor
  · intro repeats
    obtain rfl := one repeats.key
    obtain ⟨m, mem, id, none, asked⟩ := of.message
    refine ⟨of.route, ?_, ⟨m, ⟨mem, asked, .inr ⟨none, row, taken.stored, of.key, id.symm⟩⟩, id⟩, read⟩
    rw [read, routeFor_eq of.mentions, routeOf_ordered, of.route]
  · intro differs
    obtain rfl := one differs.1
    rcases differs.2 with content' | mentions'
    · exact absurd content content'
    · exact absurd mentions mentions'

end

end

theorem Sends.plans {result : PersistedRoutingResult}
    (ends : ∀ t workflow, Consistent c ids calls t → (sending c ids calls).rely me s t →
      EndsWell ids calls me (.ok (.ORCHESTRATION result workflow)) t) :
    Sends c ids calls me (EndsWell ids calls me)
      ((planMessage me).bind fun workflow => .pure (.ORCHESTRATION result workflow)) h s := by
  apply Sends.read
  intro t workflow _ consistent rely _
  exact ends t workflow consistent rely

theorem Taken.replays (taken : Taken calls s me n row resolved)
    (fits : Forall₂ (Fits (calls me).userId) (ordered (calls me).mentions) resolved) :
    Sends c ids calls me (EndsWell ids calls me) ((replayPersisted me (calls me) resolved).bind fun result =>
      (planMessage me).bind fun workflow => .pure (.ORCHESTRATION result workflow)) h s := by
  unfold replayPersisted
  rw [bind_assoc]
  apply Sends.read
  intro t _ h consistent rely _
  have taken := taken.rely rely
  rw [taken.found consistent]
  dsimp only
  split
  · rename_i elsewhere
    apply taken.refused consistent
    intro repeats
    exact elsewhere ((taken.of consistent).conversationId.trans repeats.conversationId)
  rw [bind_assoc]
  apply Sends.read
  intro t _ h consistent rely _
  have taken := taken.rely rely
  have content := taken.content consistent (calls me).content
  rw [bind_assoc]
  apply Sends.read
  intro u _ h consistent rely _
  have taken := taken.rely rely
  split
  · rename_i alike
    rw [content] at alike
    apply Sends.plans
    intro v workflow consistent rely
    exact (taken.rely rely).answers consistent alike.1 (rely.1.reads row taken.stored).symm (alike.2 ▸ fits) workflow
  · rename_i another
    rw [content] at another
    apply taken.refused consistent
    intro repeats
    exact another ⟨repeats.content, taken.kept repeats⟩

theorem Sends.persist (checked : Checked c calls s me)
    (planned : routeOf (calls me).mentions = .ORCHESTRATION)
    (fits : Forall₂ (Fits (calls me).userId) (ordered (calls me).mentions) resolved) :
    Sends c ids calls me (EndsWell ids calls me) ((persist me (calls me) resolved).bind fun result =>
      (planMessage me).bind fun workflow => .pure (.ORCHESTRATION result workflow)) h s := by
  unfold TextChat.persist
  simp only [bind_assoc]
  apply Sends.read
  intro t _ h _ rely _
  have checked := checked.rely rely
  rw [if_pos checked.conversation]
  apply Sends.write
  intro t _ h consistent rely careful
  by_cases exist : t.HandlesExist resolved
  · cases absent : t.submission (calls me).userId (calls me).clientRequestId with
    | some row =>
      have key := find?_some absent
      simp only [decide_eq_true_eq] at key
      have key : row.key = (calls me).key := by rw [ChatMessageSubmission.key, key.1, key.2, SendMessageInput.key]
      obtain ⟨n, sent, of⟩ := consistent.submissions row (mem_of_find?_eq_some absent)
      have taken : Taken calls t me n row resolved := ⟨sent, of.key.symm.trans key, mem_of_find?_eq_some absent, key,
        fun repeats => careful.2 n sent repeats row (mem_of_find?_eq_some absent) key⟩
      simp only [persistTransaction, not_true_eq_false, if_false, absent, exist]
      exact ⟨consistent, keeps_refl, taken.replays fits⟩
    | none =>
      have free : Free calls t me := by
        refine ⟨careful.1 exist, fun row mem same => ?_⟩
        simp only [ChatMessageSubmission.key, SendMessageInput.key, Prod.mk.injEq] at same
        have none := find?_eq_none.1 absent row mem
        simp [same.1, same.2] at none
      have stored := consistent.submitted (checked.rely rely) free planned fits exist
      have transaction : persistTransaction me (calls me) resolved t =
          (.ok (some t.text.messages.length), submitted calls me resolved t) := by
        simp only [persistTransaction, not_true_eq_false, if_false, absent, exist]
        rfl
      rw [transaction]
      refine ⟨stored, keeps_submitted consistent resolved, ?_⟩
      apply Sends.plans
      intro u workflow consistent rely
      apply EndsWell.of_own consistent
      exact rely_sent rely (mem_append_right _ (mem_singleton_self me))
  · simp only [persistTransaction, exist, not_false_eq_true, if_true]
    refine ⟨consistent, keeps_refl, EndsWell.of_error fun n mem _ repeats => exist ?_⟩
    obtain ⟨row, found, of⟩ := consistent.stored_orchestration mem (repeats.route.trans planned)
    rw [← careful.2 n mem repeats row found (of.key.trans repeats.key)]
    intro view read
    rw [Chat.readForMessage, Js.mem_sort] at read
    obtain ⟨kept, inside, rfl⟩ := mem_map.1 read
    exact consistent.exist _ (mem_map_of_mem (mem_of_mem_filter inside))

end Planning

theorem Sends.resolves {k : List MessageMentionView → Sending Answer}
    (after : ∀ t resolved h, Consistent c ids calls t → (sending c ids calls).rely me s t →
      overlap (ordered (calls me).mentions) = false →
      Forall₂ (Fits (calls me).userId) (ordered (calls me).mentions) resolved →
      Sends c ids calls me (EndsWell ids calls me) (k resolved) h t)
    (consistent : Consistent c ids calls s) :
    Sends c ids calls me (EndsWell ids calls me) ((resolveMentions me (calls me)).bind k) h s := by
  unfold resolveMentions
  split
  · rename_i overlapping
    apply EndsWell.of_error
    intro n mem _ repeats
    have apart := (consistent.sent n mem).apart
    rw [repeats.mentions, overlapping] at apart
    cases apart
  · rename_i apart
    rw [bind_assoc]
    apply Sends.read
    intro t _ h _ rely _
    rw [bind_assoc]
    apply Sends.read
    intro u now h consistent later careful
    have rely := (sending c ids calls).trans me s t u rely later
    cases resolved : resolveOrdered (calls me).userId (calls me).content (ordered (calls me).mentions)
        (mentionedHandles t.handles (ordered (calls me).mentions)) u.models now with
    | error e =>
      apply EndsWell.of_error
      intro n mem _ repeats
      have fine := careful n mem repeats
      rw [resolved] at fine
      cases fine
    | ok views => exact after u views h consistent rely (by simpa using apart) ((Checks.mapM_eq_ok.1 resolved).imp fun _ _ => resolveMention_fits)

theorem Sends.sendMessage (consistent : Consistent c ids calls s) (waits : Waits s me) :
    Sends c ids calls me (EndsWell ids calls me) (sendMessage c ids me (calls me)) h s := by
  unfold TextChat.sendMessage
  cases size : assertMessageSize (calls me).content c.aiMaxMessageBytes with
  | error e =>
    apply EndsWell.of_error
    intro n mem _ repeats
    have fine := (consistent.sent n mem).size
    rw [repeats.content, size] at fine
    cases fine
  | ok _ =>
    simp only [lift, Program.bind, getConversation, bind_assoc]
    apply Sends.read
    intro t _ h consistent rely _
    have waits := waits.rely rely
    by_cases conversation : t.conversationKind (calls me).userId (calls me).conversationId = some .CHAT
    · rw [if_pos conversation]
      apply Sends.resolves
      · intro u resolved h consistent rely apart fits
        have waits := waits.rely rely
        have checked : Checked c calls u me := ⟨size, rely.1.conversations _ _ _ conversation, apart⟩
        have route := (routeFor_eq fits).trans (routeOf_ordered (calls me).mentions)
        split
        · rename_i chat
          rw [route] at chat
          simp only [assertTextEnabled, bind_assoc]
          apply Sends.read
          intro v enabled h consistent rely _
          cases enabled with
          | true =>
            exact Sends.streamMessage (fun n t h streams consistent => streams.attaches consistent resolved)
              (waits.rely rely) (checked.rely rely) chat
          | false =>
            intro n mem other
            exact ⟨fun repeats => ⟨repeats.route.trans chat, .inl rfl⟩, fun _ => ⟨_, rfl⟩⟩
        · rename_i planned
          rw [route] at planned
          apply Sends.persist checked _ fits
          cases other : routeOf (calls me).mentions with
          | CHAT => exact absurd other planned
          | ORCHESTRATION => rfl
      · exact consistent
    · rw [if_neg conversation]
      apply EndsWell.of_error
      intro n mem _ repeats
      have fine := (consistent.sent n mem).conversation
      have key := repeats.key
      simp only [SendMessageInput.key, Prod.mk.injEq] at key
      rw [key.1, repeats.conversationId] at fine
      exact conversation fine

end Rules

end Vimla.TextChat
