import Vimla.TextChat.SubmissionTables

/-!
# What each step does to the stored messages

Every write of a call keeps the tables consistent: the transactions of the two
routes, the mentions that are attached, and the steps of a streamed answer, which
touch no user message at all.
-/

namespace Vimla.TextChat

open Threads Threads.Program List Billing

variable {c : Config} {ids : Ids} {calls : Nat → SendMessageInput} {s t : Chat} {n me : Nat} {m : Message}

theorem OfSubmission.carry {row : ChatMessageSubmission} (of : OfSubmission calls s n row)
    (messages : ∀ m ∈ s.text.messages, m ∈ t.text.messages)
    (read : t.readForMessage row.messageId = s.readForMessage row.messageId) : OfSubmission calls t n row := by
  obtain ⟨m, mem, rest⟩ := of.message
  exact ⟨of.key, of.conversationId, of.route, ⟨m, messages m mem, rest⟩, read ▸ of.mentions⟩

theorem Accepted.carry (accepted : Accepted c ids calls s n)
    (conversations : ∀ userId id kind, s.conversationKind userId id = some kind → t.conversationKind userId id = some kind)
    (requests : ∀ row ∈ s.text.requests, OfRequest ids calls n row → ∃ row' ∈ t.text.requests, OfRequest ids calls n row')
    (questions : (t.text.messagesOf (ids.cuid n)).filter (·.role = .USER) =
      (s.text.messagesOf (ids.cuid n)).filter (·.role = .USER))
    (submissions : ∀ row ∈ s.submissions, OfSubmission calls s n row → row ∈ t.submissions ∧ OfSubmission calls t n row) :
    Accepted c ids calls t n := by
  refine ⟨accepted.size, conversations _ _ _ accepted.conversation, accepted.apart, ?_⟩
  rcases accepted.stored with ⟨chat, ⟨row, found, of⟩, m, only, asked⟩ | ⟨row, found, of⟩
  · exact .inl ⟨chat, requests row found of, m, questions.trans only, asked⟩
  · exact .inr ⟨row, submissions row found of⟩

def AiRequest.columns (row : AiRequest) : String × Nat × String × String :=
  (row.id, row.userId, row.clientRequestId, row.conversationId)

/-- The requests keep their keys, and a message that is added is not a user's
message of a request. -/
structure Modest (s t : Store) : Prop where
  requests : t.requests.map AiRequest.columns = s.requests.map AiRequest.columns
  messages : t.messages = s.messages ∨ ∃ m, t.messages = s.messages ++ [m] ∧ m.id = s.messages.length ∧
    (m.role = .USER → m.aiRequestId = none)

theorem Modest.refl (s : Store) : Modest s s := ⟨rfl, .inl rfl⟩

theorem OfRequest.of_columns {row row' : AiRequest} (same : row'.columns = row.columns) (of : OfRequest ids calls n row) :
    OfRequest ids calls n row' := by
  simp only [AiRequest.columns, Prod.mk.injEq] at same
  obtain ⟨id, userId, clientRequestId, conversationId⟩ := same
  exact ⟨id.trans of.id, by rw [userId, clientRequestId, of.key], conversationId.trans of.conversationId, of.route⟩

theorem exists_columns {rows rows' : List AiRequest} (same : rows'.map AiRequest.columns = rows.map AiRequest.columns)
    {row : AiRequest} (mem : row ∈ rows) : ∃ row' ∈ rows', row'.columns = row.columns := by
  have here : row.columns ∈ rows'.map AiRequest.columns := same ▸ mem_map_of_mem mem
  exact mem_map.1 here

theorem Modest.grows {s t : Store} (modest : Modest s t) : s.messages <+: t.messages := by
  rcases modest.messages with same | ⟨m, added, -⟩
  · exact same ▸ prefix_rfl
  · exact ⟨[m], added.symm⟩

theorem Modest.questions {s t : Store} (modest : Modest s t) (id : String) :
    (t.messagesOf id).filter (·.role = .USER) = (s.messagesOf id).filter (·.role = .USER) := by
  rcases modest.messages with same | ⟨m, added, -, apart⟩
  · rw [Store.messagesOf, Store.messagesOf, same]
  · rw [Store.messagesOf, Store.messagesOf, added, filter_append, filter_append]
    have none : ([m].filter fun m => m.aiRequestId = some id).filter (·.role = .USER) = [] := by
      rw [filter_filter, filter_eq_nil_iff]
      intro x mem
      rw [mem_singleton.1 mem]
      simp only [Bool.and_eq_true, decide_eq_true_eq, not_and]
      intro user under
      rw [apart user] at under
      cases under
    rw [none, append_nil]

theorem numbered_append {messages : List Message} (numbered : messages.map Message.id = range messages.length)
    (id : m.id = messages.length) : (messages ++ [m]).map Message.id = range (messages ++ [m]).length := by
  rw [map_append, numbered, length_append, length_singleton, range_succ, map_singleton, id]

variable {text : Store}

theorem Consistent.modest (consistent : Consistent c ids calls s) (modest : Modest s.text text) :
    Consistent c ids calls { s with text := text } := by
  have messages : ∀ m ∈ s.text.messages, m ∈ text.messages := fun m mem => modest.grows.subset mem
  have carried (n : Nat) (row : ChatMessageSubmission) (of : OfSubmission calls s n row) :
      OfSubmission calls { s with text := text } n row := of.carry messages rfl
  refine ⟨?_, consistent.keys, ?_, consistent.distinct, ?_, ?_, ?_, ?_, consistent.exist⟩
  · rcases modest.messages with same | ⟨m, added, id, -⟩
    · simpa [same] using consistent.numbered
    · simpa [added] using numbered_append consistent.numbered id
  · intro row found
    obtain ⟨row', found', same⟩ := exists_columns modest.requests.symm found
    obtain ⟨n, mem, of⟩ := consistent.requests row' found'
    exact ⟨n, mem, of.of_columns same.symm⟩
  · intro row found
    obtain ⟨n, mem, of⟩ := consistent.submissions row found
    exact ⟨n, mem, carried n row of⟩
  · intro m mem user id under
    rcases modest.messages with same | ⟨new, added, -, apart⟩
    · exact consistent.questions m (same ▸ mem) user id under
    · rcases mem_append.1 (added ▸ mem) with old | last
      · exact consistent.questions m old user id under
      · rw [mem_singleton.1 last] at user under
        rw [apart user] at under
        cases under
  · intro n mem
    refine (consistent.sent n mem).carry (fun _ _ _ same => same) (fun row found of => ?_) (modest.questions _)
      fun row found of => ⟨found, carried n row of⟩
    obtain ⟨row', found', same⟩ := exists_columns modest.requests found
    exact ⟨row', found', of.of_columns same⟩
  · intro row found
    exact Nat.lt_of_lt_of_le (consistent.mentions row found) modest.grows.length_le

theorem withText_modest (modest : Modest s.text text) : s.withText me text = { s with text := text } := by
  have same : text.requests.length = s.text.requests.length := by
    simpa using congrArg length modest.requests
  unfold Chat.withText
  rw [if_neg (by omega)]

/-- A step that stores no user message and writes to no other client. -/
def Harmless (me : Nat) (l : Step) (act : Store → Draw l → Store) : Prop :=
  ∀ s d, Modest s (act s d) ∧ ∀ n, n ≠ me → (act s d).writtenTo n = s.writtenTo n

section Flow
variable {input : SendMessage}

theorem acts_reading {α : Type} {l : Step} {f : Store → Draw l → α × Store} (reads : ∀ s d, (f s d).2 = s) :
    (ask l f : Process α).Acts (Harmless me) := by
  apply acts_ask
  intro s d
  dsimp only
  rw [reads]
  exact ⟨.refl s, fun _ _ => rfl⟩

theorem writtenTo_writeEvents (s : Store) (isClientOpen : Bool) (events : List SseEvent) (other : n ≠ me) :
    (s.writeEvents me isClientOpen events).writtenTo n = s.writtenTo n := by
  unfold Store.writeEvents Store.writtenTo
  split
  · have none : (events.map (me, ·)).filter (·.1 = n) = [] := by simp [other.symm]
    simp [none]
  · rfl

theorem modest_writeEvents (s : Store) (isClientOpen : Bool) (events : List SseEvent) :
    Modest s (s.writeEvents me isClientOpen events) := by
  obtain ⟨requests, messages, -⟩ := writeEvents_tables (s := s) me isClientOpen events
  exact ⟨by rw [requests], .inl messages⟩

theorem harmless_consume (events : List (ProviderStreamEvent × Bool)) (text : String) (usage : Option NormalizedUsage)
    (s : Store) : Modest s (consume me events text usage s).2 ∧
      ∀ n, n ≠ me → (consume me events text usage s).2.writtenTo n = s.writtenTo n := by
  obtain ⟨requests, messages, -⟩ := consume_tables me events text usage s
  refine ⟨⟨by rw [requests], .inl messages⟩, fun n other => ?_⟩
  clear requests messages
  induction events generalizing text usage s with
  | nil => rfl
  | cons event events ih =>
    obtain ⟨event, isClientOpen⟩ := event
    cases event with
    | delta piece => exact (ih _ _ _).trans (writtenTo_writeEvents s isClientOpen _ other)
    | usage u | other => exact ih _ _ _

theorem acts_updateRequest {f : AiRequest → AiRequest} (keeps : ∀ row, (f row).columns = row.columns) :
    (updateRequest ids me f).Acts (Harmless me) :=
  acts_ask fun _ _ => ⟨⟨Rows.map_update keeps, .inl rfl⟩, fun _ _ => rfl⟩

theorem acts_emit (event : SseEvent) : (emit me event).Acts (Harmless me) :=
  acts_ask fun s d => ⟨modest_writeEvents s d [event], fun _ other => writtenTo_writeEvents s d [event] other⟩

theorem acts_createAssistantMessage (text : String) : (createAssistantMessage ids me input text).Acts (Harmless me) :=
  acts_ask fun _ _ => ⟨⟨rfl, .inr ⟨_, rfl, rfl, nofun⟩⟩, fun _ _ => rfl⟩

theorem acts_transaction {α : Type} {l : Step} {fails : Draw l → Bool}
    {tx : Draw l → Db → Except TxError (Db × α)} :
    (ask l fun s d => s.transaction (fails d) (tx d) : Process (Except Thrown α)).Acts (Harmless me) := by
  apply acts_ask
  intro s d
  dsimp only [Store.transaction]
  split
  · exact ⟨.refl s, fun _ _ => rfl⟩
  · split
    · exact ⟨.refl s, fun _ _ => rfl⟩
    · exact ⟨⟨rfl, .inl rfl⟩, fun _ _ => rfl⟩

theorem acts_hold (error : Thrown) : (hold ids me error).Acts (Harmless me) :=
  acts_bind (acts_updateRequest fun _ => rfl) fun _ => trivial

theorem acts_failUnreserved (error : Thrown) : (failUnreserved ids me error).Acts (Harmless me) :=
  acts_bind (acts_updateRequest fun _ => rfl) fun _ => trivial

theorem acts_markReconciliation (text : String) (error : Thrown) :
    (markReconciliation ids me input text error).Acts (Harmless me) := by
  unfold markReconciliation
  split
  · exact acts_bind (acts_createAssistantMessage text) fun _ => acts_hold error
  · exact acts_hold error

theorem acts_handleProviderFailure (reservationId : Nat) (error : Thrown) :
    (handleProviderFailure ids me input reservationId error).Acts (Harmless me) := by
  unfold handleProviderFailure
  dsimp only
  split
  case h_3 => exact acts_hold _
  all_goals
    apply acts_bind acts_transaction
    intro released
    cases released with
    | error e => trivial
    | ok view => exact acts_bind (acts_updateRequest fun _ => rfl) fun _ => trivial

theorem acts_settled {k : ReservationView → Process String} {failing : Process String} (reservationId : Nat) (actual : Int)
    (failed : failing.Acts (Harmless me)) (settled : ∀ view, (k view).Acts (Harmless me)) :
    ((settleUsage input reservationId actual).bind fun settlement => match settlement with
      | .error _ => failing
      | .ok view => k view).Acts (Harmless me) := by
  apply acts_bind acts_transaction
  intro settlement
  cases settlement with
  | error e => exact failed
  | ok view => exact settled view

theorem acts_interrupted (funding : Funding) (streamed : Streamed) (error : Thrown) :
    (interrupted ids me input funding streamed error).Acts (Harmless me) := by
  unfold interrupted
  split
  · unfold interruptedWithUsage
    split
    · exact acts_markReconciliation _ _
    · apply acts_bind
      · exact acts_updateRequest fun _ => rfl
      intro _
      split
      · exact acts_hold _
      · exact acts_settled _ _ (acts_hold _) fun view => acts_bind (acts_updateRequest fun _ => rfl) fun _ => trivial
  · exact acts_handleProviderFailure _ _

theorem acts_succeed (text : String) (view : ReservationView) :
    (succeed ids me input text view).Acts (Harmless me) := by
  have message : (ask .message fun s _ => (s.messages.length,
      s.createMessage input.conversationId .ASSISTANT text (some (ids.cuid me))) : Process Nat).Acts (Harmless me) :=
    acts_ask fun s _ => ⟨⟨rfl, .inr ⟨_, rfl, rfl, nofun⟩⟩, fun _ _ => rfl⟩
  apply acts_bind message
  intro assistantId
  apply acts_bind (acts_emit _)
  intro _
  exact acts_bind (acts_updateRequest fun _ => rfl) fun _ => trivial

theorem acts_unsettled (text : String) : (unsettled ids me input text).Acts (Harmless me) := by
  apply acts_bind
  · exact acts_updateRequest fun _ => rfl
  intro _
  split
  · exact acts_bind (acts_createAssistantMessage text) fun _ => trivial
  · trivial

theorem acts_completed (funding : Funding) (streamed : Streamed) :
    (completed ids me input funding streamed).Acts (Harmless me) := by
  unfold completed
  split
  · exact acts_markReconciliation _ _
  · split
    · exact acts_markReconciliation _ _
    · apply acts_bind
      · exact acts_updateRequest fun _ => rfl
      intro _
      split
      · exact acts_hold _
      · exact acts_settled _ _ (acts_unsettled _) fun view => acts_succeed _ view

theorem acts_stream : (stream ids me).Acts (Harmless me) := by
  apply acts_bind (acts_reading fun _ _ => rfl)
  intro session
  cases session with
  | error e => trivial
  | ok providerRequestId =>
    apply acts_bind
    · exact acts_updateRequest fun _ => rfl
    intro _
    exact acts_ask fun s d => harmless_consume d.events "" none s

theorem acts_reservedFlow (funding : Funding) : (reservedFlow ids me input funding).Acts (Harmless me) := by
  apply acts_bind
  · exact acts_updateRequest fun _ => rfl
  intro _
  apply acts_bind (acts_emit _)
  intro _
  apply acts_bind
  · exact acts_updateRequest fun _ => rfl
  intro _
  apply acts_bind acts_stream
  intro streamed
  cases streamed.error with
  | none => exact acts_completed funding streamed
  | some error => exact acts_interrupted funding streamed error

theorem acts_fundedFlow (model : ResolvedModel) (estimated : Int) (budget : FundedAiExecutionBudget) :
    (fundedFlow ids me input model estimated budget).Acts (Harmless me) := by
  apply acts_bind
  · exact acts_updateRequest fun _ => rfl
  intro _
  apply acts_bind acts_transaction
  intro reserved
  cases reserved with
  | error e => exact acts_failUnreserved e
  | ok view => exact acts_reservedFlow _

theorem acts_runProviderFlow (model : ResolvedModel) : (runProviderFlow c ids me input model).Acts (Harmless me) := by
  apply acts_bind (acts_bind (acts_reading fun _ _ => rfl) fun _ => acts_lift _)
  intro history
  dsimp only
  split
  · exact acts_failUnreserved _
  · apply acts_bind (acts_bind (acts_reading fun _ _ => rfl) fun _ => acts_lift _)
    intro available
    apply acts_bind (acts_lift _)
    intro result
    cases result with
    | FUNDED budget => exact acts_fundedFlow model _ budget
    | REQUEST_COST_LIMIT | INSUFFICIENT_USAGE => exact acts_failUnreserved _

/-- What follows the opening of a request. -/
theorem acts_withSlot (model : ResolvedModel) :
    (acquire.bind fun _ => withSlot c ids me input model).Acts (Harmless me) := by
  have acquired : acquire.Acts (Harmless me) := by
    apply acts_bind (acts_reading fun _ _ => rfl)
    intro slot
    cases slot <;> trivial
  apply acts_bind acquired
  intro _
  apply acts_bind (acts_attempt (acts_runProviderFlow model))
  intro result
  apply acts_bind (acts_reading fun _ _ => rfl)
  intro _
  cases result <;> trivial

end Flow

/-- What a call has checked before it stores its message. -/
structure Checked (c : Config) (calls : Nat → SendMessageInput) (s : Chat) (me : Nat) : Prop where
  size : assertMessageSize (calls me).content c.aiMaxMessageBytes = .ok ()
  conversation : s.conversationKind (calls me).userId (calls me).conversationId = some .CHAT
  apart : overlap (ordered (calls me).mentions) = false

/-- The key is in neither table. -/
structure Free (calls : Nat → SendMessageInput) (s : Chat) (me : Nat) : Prop where
  requests : ∀ row ∈ s.text.requests, (row.userId, row.clientRequestId) ≠ (calls me).key
  submissions : ∀ row ∈ s.submissions, row.key ≠ (calls me).key

theorem findUnique_free (absent : s.text.findUnique (calls me).userId (calls me).clientRequestId = none) :
    ∀ row ∈ s.text.requests, (row.userId, row.clientRequestId) ≠ (calls me).key := by
  intro row mem same
  simp only [SendMessageInput.key, Prod.mk.injEq] at same
  have none := find?_eq_none.1 absent row mem
  simp [same.1, same.2] at none

section
variable (consistent : Consistent c ids calls s)
include consistent

theorem Consistent.key_ne (free : Free calls s me) (mem : n ∈ s.sent) :
    (calls n).key ≠ (calls me).key := by
  intro same
  rcases (consistent.sent n mem).stored with ⟨-, ⟨row, found, of⟩, -⟩ | ⟨row, found, of⟩
  · exact free.requests row found (of.key.trans same)
  · exact free.submissions row found (of.key.trans same)

theorem Consistent.keys_append (free : Free calls s me) :
    ((s.sent ++ [me]).map fun n => (calls n).key).Nodup := by
  rw [map_append, nodup_append]
  refine ⟨consistent.keys, nodup_singleton _, ?_⟩
  intro key old key' new same
  obtain ⟨n, mem, rfl⟩ := mem_map.1 old
  rw [map_singleton, mem_singleton] at new
  exact consistent.key_ne free mem (same.trans new)

theorem Consistent.questions_nil (unsent : me ∉ s.sent) :
    (s.text.messagesOf (ids.cuid me)).filter (·.role = .USER) = [] := by
  rw [Store.messagesOf, filter_filter, filter_eq_nil_iff]
  intro m mem found
  simp only [Bool.and_eq_true, decide_eq_true_eq] at found
  obtain ⟨n, sent, same⟩ := consistent.questions m mem found.1 _ found.2
  exact unsent (ids.distinct same ▸ sent)

end

/-- The store after a request is opened. -/
def opened (ids : Ids) (calls : Nat → SendMessageInput) (me : Nat) (s : Store) : Store :=
  (s.beginRequest (ids.cuid me) (calls me).toSendMessage).2

theorem opened_eq (absent : s.text.findUnique (calls me).userId (calls me).clientRequestId = none) :
    s.withText me (opened ids calls me s.text) =
      { s with
        text := { s.text with
          requests := s.text.requests ++ [created (ids.cuid me) (calls me).toSendMessage]
          messages := s.text.messages ++ [⟨s.text.messages.length, (calls me).conversationId, .USER, (calls me).content,
            some (ids.cuid me)⟩] }
        sent := s.sent ++ [me] } := by
  simp [opened, Store.beginRequest, absent, Chat.withText, Store.createMessage]

theorem Consistent.opened (consistent : Consistent c ids calls s) (unsent : me ∉ s.sent) (checked : Checked c calls s me)
    (absent : s.text.findUnique (calls me).userId (calls me).clientRequestId = none) (free : Free calls s me)
    (chat : routeOf (calls me).mentions = .CHAT) : Consistent c ids calls (s.withText me (opened ids calls me s.text)) := by
  rw [opened_eq absent]
  have carried (n : Nat) (row : ChatMessageSubmission) (of : OfSubmission calls s n row) := of.carry
    (t := { s with
      text := { s.text with
        requests := s.text.requests ++ [created (ids.cuid me) (calls me).toSendMessage]
        messages := s.text.messages ++ [⟨s.text.messages.length, (calls me).conversationId, .USER, (calls me).content,
          some (ids.cuid me)⟩] }
      sent := s.sent ++ [me] }) (fun m mem => mem_append_left _ mem) rfl
  have mine : OfRequest ids calls me (created (ids.cuid me) (calls me).toSendMessage) := ⟨rfl, rfl, rfl, chat⟩
  refine ⟨numbered_append consistent.numbered rfl, consistent.keys_append free, ?_, consistent.distinct, ?_, ?_, ?_, ?_,
    consistent.exist⟩
  · intro row found
    rcases mem_append.1 found with old | new
    · obtain ⟨n, mem, of⟩ := consistent.requests row old
      exact ⟨n, mem_append_left _ mem, of⟩
    · rw [mem_singleton.1 new]
      exact ⟨me, by simp, mine⟩
  · intro row found
    obtain ⟨n, mem, of⟩ := consistent.submissions row found
    exact ⟨n, mem_append_left _ mem, carried n row of⟩
  · intro m mem user id under
    rcases mem_append.1 mem with old | new
    · obtain ⟨n, sent, same⟩ := consistent.questions m old user id under
      exact ⟨n, mem_append_left _ sent, same⟩
    · rw [mem_singleton.1 new] at under
      exact ⟨me, by simp, (Option.some.inj under).symm⟩
  · intro n mem
    rcases mem_append.1 mem with old | new
    · have other : ids.cuid me ≠ ids.cuid n := fun same => unsent (ids.distinct same ▸ old)
      refine (consistent.sent n old).carry (fun _ _ _ same => same) (fun row found of => ?_) ?_ fun row found of =>
        ⟨found, carried n row of⟩
      · exact ⟨row, mem_append_left _ found, of⟩
      · simp [Store.messagesOf, other]
    · rw [mem_singleton.1 new]
      refine ⟨checked.size, checked.conversation, checked.apart, .inl ⟨chat, ⟨_, by simp, mine⟩, ⟨s.text.messages.length,
        (calls me).conversationId, .USER, (calls me).content, some (ids.cuid me)⟩, ?_, rfl, rfl, rfl⟩⟩
      have none := consistent.questions_nil unsent
      simp only [Store.messagesOf] at none
      simp [Store.messagesOf, none]
  · intro row found
    have old := consistent.mentions row found
    simp only [length_append, length_singleton]
    omega

instance : Std.TransCmp compareOffsets :=
  Js.transCmp_then (Js.transCmp_key MessageMentionInput.startOffset) (Js.transCmp_key MessageMentionInput.endOffset)

theorem startOffset_le {a b : MessageMentionInput} (le : (compareOffsets a b).isLE) : a.startOffset ≤ b.startOffset := by
  by_contra gt
  have order : compare a.startOffset b.startOffset = .gt := Nat.compare_eq_gt.2 (Nat.lt_of_not_le gt)
  simp [compareOffsets, order] at le

variable {userId messageId : Nat} {views : List MessageMentionView}

/-- Resolved mentions are read back in their own order. -/
theorem sort_resolved {mentions : List MessageMentionInput}
    (fits : Forall₂ (Fits userId) (ordered mentions) views) :
    Js.sort (fun left right : MessageMentionView => compare left.startOffset right.startOffset) views = views := by
  have starts : views.map MessageMentionView.startOffset = (ordered mentions).map MessageMentionInput.startOffset := by
    generalize ordered mentions = l at fits
    induction fits with
    | nil => rfl
    | cons first rest ih => rw [map_cons, map_cons, ih, first.startOffset]
  have sorted : (views.map MessageMentionView.startOffset).Pairwise (· ≤ ·) := by
    rw [starts, pairwise_map]
    exact (Js.sort_pairwise mentions).imp startOffset_le
  apply Pairwise.insertionSort_eq
  exact (pairwise_map.1 sorted).imp Nat.isLE_compare.2

theorem read_other {other : Nat} (views : List MessageMentionView) (ne : other ≠ messageId) :
    (s.insertMentions messageId views).readForMessage other = s.readForMessage other := by
  have none : (views.map fun view => (⟨messageId, view⟩ : MessageMention)).filter (·.messageId = other) = [] := by
    simp [ne.symm]
  rw [Chat.readForMessage, Chat.readForMessage, Chat.insertMentions, filter_append, none, append_nil]

theorem read_inserted (views : List MessageMentionView) (none : ∀ row ∈ s.mentions, row.messageId ≠ messageId) :
    (s.insertMentions messageId views).readForMessage messageId =
      Js.sort (fun left right => compare left.startOffset right.startOffset) views := by
  have old : s.mentions.filter (·.messageId = messageId) = [] := by
    simpa using none
  have new : ((views.map fun view => (⟨messageId, view⟩ : MessageMention)).filter (·.messageId = messageId)).map
      MessageMention.view = views := by
    rw [filter_eq_self.2 (by simp), map_map]
    exact map_id views
  rw [Chat.readForMessage, Chat.insertMentions, filter_append, old, nil_append, new]

theorem exist_append (exist : s.HandlesExist (s.mentions.map MessageMention.view)) (here : s.HandlesExist views) :
    s.HandlesExist ((s.insertMentions messageId views).mentions.map MessageMention.view) := by
  intro view mem
  rw [Chat.insertMentions, map_append, mem_append, map_map] at mem
  rcases mem with old | new
  · exact exist view old
  · exact here view (by simpa using new)

/-- The tables after the transaction of `persist` stored a message. -/
def submitted (calls : Nat → SendMessageInput) (me : Nat) (resolved : List MessageMentionView) (s : Chat) : Chat :=
  { (({ s with text := s.text.createMessage (calls me).conversationId .USER (calls me).content none } : Chat).insertMentions
      s.text.messages.length resolved) with
    submissions := s.submissions ++ [⟨(calls me).userId, (calls me).conversationId, (calls me).clientRequestId,
      s.text.messages.length⟩]
    sent := s.sent ++ [me] }

theorem createMessage_modest (s : Store) (conversationId : String) (role : Role) (content : String) :
    Modest s (s.createMessage conversationId role content none) :=
  ⟨rfl, .inr ⟨_, rfl, rfl, fun _ => rfl⟩⟩

theorem Consistent.submitted (consistent : Consistent c ids calls s) (checked : Checked c calls s me)
    (free : Free calls s me) (planned : routeOf (calls me).mentions = .ORCHESTRATION) {resolved : List MessageMentionView}
    (fits : Forall₂ (Fits (calls me).userId) (ordered (calls me).mentions) resolved) (exist : s.HandlesExist resolved) :
    Consistent c ids calls (submitted calls me resolved s) := by
  have base := consistent.modest (createMessage_modest s.text (calls me).conversationId .USER (calls me).content)
  have fresh : ∀ row ∈ s.mentions, row.messageId ≠ s.text.messages.length := fun row mem =>
    Nat.ne_of_lt (consistent.mentions row mem)
  have carried (n : Nat) (row : ChatMessageSubmission) (of : OfSubmission calls s n row) :
      OfSubmission calls (TextChat.submitted calls me resolved s) n row := by
    apply of.carry fun m mem => mem_append_left _ mem
    obtain ⟨m, mem, id, -⟩ := of.message
    have before := consistent.lt_length mem
    exact read_other resolved (by omega)
  have mine : OfSubmission calls (TextChat.submitted calls me resolved s) me
      ⟨(calls me).userId, (calls me).conversationId, (calls me).clientRequestId, s.text.messages.length⟩ := by
    refine ⟨rfl, rfl, planned, ⟨_, mem_append_right _ (mem_singleton_self _), rfl, rfl, rfl, rfl, rfl⟩, ?_⟩
    have read := @read_inserted { s with
      text := s.text.createMessage (calls me).conversationId .USER (calls me).content none } _ resolved fresh
    rw [sort_resolved fits] at read
    exact read.symm ▸ fits
  refine ⟨base.numbered, consistent.keys_append free, ?_, ?_, ?_, ?_, ?_, ?_, exist_append consistent.exist exist⟩
  · intro row found
    obtain ⟨n, mem, of⟩ := consistent.requests row found
    exact ⟨n, mem_append_left _ mem, of⟩
  · simp only [TextChat.submitted, map_append, map_singleton, nodup_append]
    refine ⟨consistent.distinct, nodup_singleton _, ?_⟩
    intro key old key' new same
    obtain ⟨row, found, rfl⟩ := mem_map.1 old
    rw [mem_singleton] at new
    exact free.submissions row found (same.trans new)
  · intro row found
    rcases mem_append.1 found with old | new
    · obtain ⟨n, mem, of⟩ := consistent.submissions row old
      exact ⟨n, mem_append_left _ mem, carried n row of⟩
    · rw [mem_singleton.1 new]
      exact ⟨me, mem_append_right _ (mem_singleton_self _), mine⟩
  · intro m mem user id under
    obtain ⟨n, sent, same⟩ := base.questions m mem user id under
    exact ⟨n, mem_append_left _ sent, same⟩
  · intro n mem
    rcases mem_append.1 mem with old | new
    · refine (consistent.sent n old).carry (fun _ _ _ same => same) (fun row found of => ⟨row, found, of⟩)
        ((createMessage_modest _ _ _ _).questions _) fun row found of => ⟨mem_append_left _ found, carried n row of⟩
    · rw [mem_singleton.1 new]
      exact ⟨checked.size, checked.conversation, checked.apart,
        .inr ⟨_, mem_append_right _ (mem_singleton_self _), mine⟩⟩
  · intro row found
    have longer : (TextChat.submitted calls me resolved s).text.messages.length = s.text.messages.length + 1 :=
      length_append
    rw [longer]
    rcases mem_append.1 found with old | new
    · have before := consistent.mentions row old
      omega
    · obtain ⟨view, -, rfl⟩ := mem_map.1 new
      exact Nat.lt_succ_self _

/-- A change of what no row of the calls depends on. -/
theorem Consistent.reread (consistent : Consistent c ids calls s) {conversations : List Conversation} {handles : List Handle}
    {models : List AiModel} {mentions : List MessageMention}
    (carried : ∀ n row, OfSubmission calls s n row → OfSubmission calls { s with conversations, handles, models, mentions } n row)
    (kinds : ∀ userId id kind, s.conversationKind userId id = some kind →
      { s with conversations, handles, models, mentions : Chat }.conversationKind userId id = some kind)
    (below : ∀ row ∈ mentions, row.messageId < s.text.messages.length)
    (exist : { s with conversations, handles, models, mentions : Chat }.HandlesExist (mentions.map MessageMention.view)) :
    Consistent c ids calls { s with conversations, handles, models, mentions } := by
  refine ⟨consistent.numbered, consistent.keys, consistent.requests, consistent.distinct, fun row found => ?_, consistent.questions,
    fun n sent => ?_, below, exist⟩
  · obtain ⟨n, sent, of⟩ := consistent.submissions row found
    exact ⟨n, sent, carried n row of⟩
  · exact (consistent.sent n sent).carry kinds (fun row found of => ⟨row, found, of⟩) rfl fun row found of => ⟨found, carried n row of⟩

theorem Consistent.insertMentions (consistent : Consistent c ids calls s) (mem : m ∈ s.text.messages)
    (streamed : m.aiRequestId ≠ none) (exist : s.HandlesExist views) :
    Consistent c ids calls (s.insertMentions m.id views) := by
  have carried (n : Nat) (row : ChatMessageSubmission) (of : OfSubmission calls s n row) :
      OfSubmission calls (s.insertMentions m.id views) n row := by
    refine of.carry (fun m mem => mem) ?_
    obtain ⟨m', mem', id, none, -⟩ := of.message
    apply read_other
    intro same
    exact streamed (consistent.message_eq mem mem' (same.symm.trans id.symm) ▸ none)
  refine consistent.reread carried (fun _ _ _ => id) (fun row found => ?_) (exist_append consistent.exist exist)
  rcases mem_append.1 found with old | new
  · exact consistent.mentions row old
  · obtain ⟨view, -, rfl⟩ := mem_map.1 new
    exact consistent.lt_length mem

theorem conversationKind_append {row : Conversation} {id : String} {kind : ConversationKind}
    (same : s.conversationKind userId id = some kind) :
    ({ s with conversations := s.conversations ++ [row] } : Chat).conversationKind userId id = some kind := by
  obtain ⟨found, here, is⟩ := Option.map_eq_some_iff.1 same
  rw [Chat.conversationKind, find?_append, here]
  exact congrArg some is

theorem Consistent.change (consistent : Consistent c ids calls s) (change : ChatChange) :
    Consistent c ids calls (s.change change) := by
  cases change with
  | text change =>
    cases change with
    | billing op => exact consistent.modest ⟨rfl, .inl rfl⟩
    | message conversationId role content => exact consistent.modest (createMessage_modest _ _ _ _)
  | conversation row =>
    exact consistent.reread (fun _ _ of => of.carry (fun _ mem => mem) rfl) (fun _ _ _ => conversationKind_append) consistent.mentions
      consistent.exist
  | registry handles models =>
    simp only [Chat.change]
    split
    · rename_i exist
      exact consistent.reread (fun _ _ of => of.carry (fun _ mem => mem) rfl) (fun _ _ _ => id) consistent.mentions exist
    · exact consistent

end Vimla.TextChat
