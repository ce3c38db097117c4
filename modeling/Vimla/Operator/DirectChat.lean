import Vimla.DirectMessages.Changes
import Vimla.Lib.Checks
import Vimla.Operator.Confirmation

/-!
# What a Direct Chat gives the operator

The history of a chat that is disclosed to the planner can only change the words
of a plain answer. A tool call that is invoked in a chat creates a task, and it
commits where the chat still permits what it was invoked with.
-/

namespace Vimla.Operator

open List

open Js (Json)

section
variable (op : OperatorRuntime)

/-- The intent and the steps of an output, or the error that rejects it. -/
def planOutcome (output : String) : Except OperatorError (PlanIntent × List PreparedStep) :=
  match parsePlannerOutput op output with
  | .error e => .error e
  | .ok plan => match prepareSteps op plan.commands .DIRECT_CHAT with
    | .error e => .error e
    | .ok steps => .ok (plan.intent, steps.take op.operatorMaxToolsPerRun)

/-- The output is a plain answer. -/
def Answers (output : String) : Prop := ∃ plan, parsePlannerOutput op output = .ok plan ∧ isPlainAnswer plan = true

variable {op}

theorem planOutcome_of_answers {output : String} (answers : Answers op output) : planOutcome op output = .ok (.answer, []) := by
  obtain ⟨plan, parsed, plain⟩ := answers
  rw [isPlainAnswer, Bool.and_eq_true, decide_eq_true_eq, decide_eq_true_eq] at plain
  obtain ⟨intent, none⟩ := plain
  have nothing : prepareSteps op [] .DIRECT_CHAT = .ok [] := by
    simp [prepareSteps, evaluatePlanPolicy, pure, Except.pure, bind, Except.bind]
  rw [planOutcome, parsed]
  dsimp only
  rw [length_eq_zero_iff.1 none, intent, nothing]
  dsimp only
  rw [take_nil]

/-- The contextual output is only taken where it and the trusted one are plain answers. -/
theorem select_cases (op : OperatorRuntime) (trusted contextual : String) : selectDirectChatPlannerOutput op trusted contextual = trusted ∨
    selectDirectChatPlannerOutput op trusted contextual = contextual ∧ Answers op trusted ∧ Answers op contextual := by
  rw [selectDirectChatPlannerOutput]
  cases trusts : parsePlannerOutput op trusted with
  | error e => exact .inl rfl
  | ok plan =>
    dsimp only
    split
    · exact .inl rfl
    · rename_i plain
      cases reads : parsePlannerOutput op contextual with
      | error e => exact .inl rfl
      | ok other =>
        dsimp only
        split
        · rename_i answers
          exact .inr ⟨rfl, ⟨plan, trusts, Classical.not_not.1 plain⟩, ⟨other, reads, answers⟩⟩
        · exact .inl rfl

theorem planOutcome_select (trusted contextual : String) :
    planOutcome op (selectDirectChatPlannerOutput op trusted contextual) = planOutcome op trusted := by
  obtain same | ⟨taken, trusts, answers⟩ := select_cases op trusted contextual
  · rw [same]
  · rw [taken, planOutcome_of_answers trusts, planOutcome_of_answers answers]

end

/-- A message of the snapshot: an item that discloses its text. -/
def ContextItem.isMessage (item : ContextItem) : Bool :=
  item.sourceType = "E2EE_DISCLOSURE" && item.disclosureKind = some "L1_RAW"

/-- The consent that the message of a sender needs: its sender's to share, and the invoker's to include that of the peer. -/
def Consented (mine peer : ChatMember) (senderUserId : String) : Prop :=
  senderUserId = mine.userId ∧ mine.shareOwnHistoryWithVimla = true ∨
    senderUserId = peer.userId ∧ mine.includePeerHistoryWhenInvoking = true ∧ peer.shareOwnHistoryWithVimla = true

/-- The chat permits what a run was invoked with: its epoch is the frozen one, its two members may interact, and each message of
the frozen snapshot has its consents. -/
structure Authorised (chats : Chats) (new : NewRun) : Prop where
  epoch : ∃ conversation ∈ chats.store.conversations, some conversation.id = new.directConversationId ∧
    some conversation.interactionEpoch = new.directInteractionEpoch
  members : ∃ mine ∈ chats.members, ∃ peer ∈ chats.members, some mine.conversationId = new.directConversationId ∧
    some peer.conversationId = new.directConversationId ∧ mine.userId = new.userId ∧ peer.userId ≠ new.userId ∧
    ¬ chats.store.Blocked mine.userId peer.userId ∧
    ∃ snapshot, new.snapshot = some snapshot ∧ snapshot.directInteractionEpoch = new.directInteractionEpoch ∧
      ∀ item ∈ snapshot.items, item.isMessage = true → ∃ senderUserId, item.senderUserId = some senderUserId ∧
        Consented mine peer senderUserId

section
variable {items : List ContextItem} {found result : Provenance} (read : readItems items found = .ok result)
include read

theorem readItems_kept :
    found.senders ⊆ result.senders := by
  induction items generalizing found with
  | nil =>
    cases read
    exact List.Subset.refl _
  | cons item items ih =>
    rw [readItems] at read
    split at read
    · exact ih read
    · split at read
      · split at read
        · cases read
        · have kept := ih read
          exact kept
      · split at read
        · exact ih read
        · split at read
          · cases read
          · cases read
          · exact fun sender mem => ih read (mem_append_left _ mem)

/-- The sender of each disclosed message is read. -/
theorem readItems_messages :
    ∀ item ∈ items, item.isMessage = true → ∃ senderUserId ∈ result.senders, item.senderUserId = some senderUserId := by
  induction items generalizing found with
  | nil => simp
  | cons item items ih =>
    intro item' mem message
    rw [readItems] at read
    obtain rfl | mem := mem_cons.1 mem
    · rw [ContextItem.isMessage, Bool.and_eq_true, decide_eq_true_eq, decide_eq_true_eq] at message
      rw [if_neg (by simp [message.1]), if_neg (by simp [message.2]), if_neg (by simp [message.2])] at read
      split at read
      · cases read
      · cases read
      · rename_i senderUserId _ stored
        exact ⟨senderUserId, readItems_kept read (mem_append_right _ mem_cons_self), stored⟩
    · split at read
      · exact ih read item' mem message
      · split at read
        · split at read
          · cases read
          · exact ih read item' mem message
        · split at read
          · exact ih read item' mem message
          · split at read
            · cases read
            · cases read
            · exact ih read item' mem message

end

theorem assertMessageConsent_consented {mine peer : ChatMember} {senderUserId : String}
    (asserted : assertMessageConsent mine peer senderUserId = .ok ()) : Consented mine peer senderUserId := by
  rw [assertMessageConsent] at asserted
  split at asserted
  · rename_i own
    split at asserted
    · cases asserted
    · rename_i shares
      exact .inl ⟨own, Classical.not_not.1 shares⟩
  · split at asserted
    · cases asserted
    · rename_i permitted
      simp only [not_or, Classical.not_not] at permitted
      exact .inr permitted

variable {chats : Chats} {new : NewRun} {w : World}

theorem disclosure_consented {directConversationId actorUserId sourceMessageId : String} {interactionEpoch : Int}
    {senders : List String}
    (asserted : assertDirectChatDisclosureConsentTx chats directConversationId actorUserId sourceMessageId interactionEpoch senders =
      .ok ()) : (∃ conversation ∈ chats.store.conversations, conversation.id = directConversationId ∧
      conversation.interactionEpoch = interactionEpoch) ∧
    ∃ mine ∈ chats.members, ∃ peer ∈ chats.members, mine.conversationId = directConversationId ∧
      peer.conversationId = directConversationId ∧ mine.userId = actorUserId ∧ peer.userId ≠ actorUserId ∧
      ¬ chats.store.Blocked mine.userId peer.userId ∧ ∀ senderUserId ∈ senders, Consented mine peer senderUserId := by
  unfold assertDirectChatDisclosureConsentTx at asserted
  dsimp only at asserted
  split at asserted
  · rename_i mine peer is_mine is_peer
    have member {m : ChatMember} {p : ChatMember → Bool}
        (found : (chats.members.filter (·.conversationId = directConversationId)).find? p = some m) :
        m ∈ chats.members ∧ m.conversationId = directConversationId := by
      have mem := mem_filter.1 (mem_of_find?_eq_some found)
      exact ⟨mem.1, of_decide_eq_true mem.2⟩
    have actor : mine.userId = actorUserId := by simpa using find?_some is_mine
    have other : peer.userId ≠ actorUserId := by simpa using find?_some is_peer
    split at asserted
    · cases asserted
    · rename_i permitted
      obtain ⟨-, interacts⟩ := Bool.and_eq_true_iff.1 (Classical.not_not.1 permitted)
      split at asserted
      · rename_i conversation source stored _
        split at asserted
        · cases asserted
        · rename_i epochs
          simp only [not_or, Classical.not_not] at epochs
          have conversation_id : conversation.id = directConversationId := by simpa using find?_some stored
          refine ⟨⟨conversation, mem_of_find?_eq_some stored, conversation_id, epochs.1⟩, mine, (member is_mine).1, peer,
            (member is_peer).1, (member is_mine).2, (member is_peer).2, actor, other, ?_, fun sender mem => ?_⟩
          · rw [actor]
            exact (DirectMessages.ChatStore.canInteract_iff.1 interacts).resolve_left fun same => other same.symm
          · exact assertMessageConsent_consented (Checks.forM_eq_ok.1 asserted sender mem)
      · cases asserted
  · cases asserted

/-- The invocation's snapshot and the row of the run are those that were frozen. -/
structure Frozen (new : NewRun) (w : World) : Prop where
  snapshot : w.snapshot = new.snapshot
  userId : w.tables.run.userId = new.userId
  invocationScope : w.tables.run.invocationScope = new.invocationScope
  directConversationId : w.tables.run.directConversationId = new.directConversationId
  directInteractionEpoch : w.tables.run.directInteractionEpoch = new.directInteractionEpoch

variable {op : OperatorRuntime}

/-- What was frozen with the run stays in its row. -/
theorem Change.frozen {snapshot : Option ContextSnapshot} {point : Point} {T after : Tables}
    (change : Change op chats snapshot T point after) : after.run.userId = T.run.userId ∧
      after.run.invocationScope = T.run.invocationScope ∧ after.run.directConversationId = T.run.directConversationId ∧
      after.run.directInteractionEpoch = T.run.directInteractionEpoch := by
  cases change <;> exact ⟨rfl, rfl, rfl, rfl⟩

theorem Frozen.step (frozen : Frozen new w) (ev : Event) : Frozen new (w.step op ev) := by
  cases ev with
  | chats chats => exact ⟨frozen.snapshot, frozen.userId, frozen.invocationScope, frozen.directConversationId,
      frozen.directInteractionEpoch⟩
  | request id request =>
    rw [World.step]
    split
    · exact ⟨frozen.snapshot, frozen.userId, frozen.invocationScope, frozen.directConversationId, frozen.directInteractionEpoch⟩
    · exact frozen
  | turn id draw =>
    obtain ⟨userId, scope, conversation, epoch⟩ := (w.turn_change op id draw).frozen
    exact ⟨frozen.snapshot, userId.trans frozen.userId, scope.trans frozen.invocationScope,
      conversation.trans frozen.directConversationId, epoch.trans frozen.directInteractionEpoch⟩

theorem authorised_of_consent (frozen : Frozen new w) (direct : new.invocationScope = .DIRECT_CHAT)
    (consent : assertDirectChatRunEpochTx w.chats w.snapshot w.tables.run = .ok ()) : Authorised w.chats new := by
  unfold assertDirectChatRunEpochTx at consent
  rw [if_neg (by simp [frozen.invocationScope, direct]), frozen.directConversationId, frozen.directInteractionEpoch,
    frozen.snapshot, frozen.userId] at consent
  split at consent
  · rename_i directConversationId interactionEpoch snapshot conversationId epoch stored
    split at consent
    · cases consent
    · rename_i same_epoch
      split at consent
      · cases consent
      · rename_i found read
        split at consent
        · cases consent
        · cases consent
        · obtain ⟨⟨conversation, stored_conversation, id, same⟩, mine, is_mine, peer, is_peer, mine_in, peer_in, actor, other, free,
            consents⟩ := disclosure_consented consent
          refine ⟨⟨conversation, stored_conversation, by rw [id, conversationId], by rw [same, epoch]⟩, mine, is_mine, peer, is_peer,
            by rw [mine_in, conversationId], by rw [peer_in, conversationId], actor, other, free, snapshot, stored, ?_, ?_⟩
          · rw [epoch]
            exact Classical.not_not.1 same_epoch
          · intro item mem message
            obtain ⟨sender, read_sender, sent⟩ := readItems_messages read item mem message
            exact ⟨sender, sent, consents sender read_sender⟩
  · cases consent
  · cases consent

/-- What a tool call of a Direct Chat commits, and under which rights. -/
def CommitsInChat (op : OperatorRuntime) (new : NewRun) (w : World) (ev : Event) : Prop :=
  ∀ id tool args, .performed id tool args ∈ commits op w ev → tool = .tasksCreate ∧ Authorised w.chats new

theorem Frozen.commits {ev : Event} (frozen : Frozen new w) (direct : new.invocationScope = .DIRECT_CHAT) :
    CommitsInChat op new w ev := by
  intro id tool args committed
  obtain ⟨step, performable, -, rfl⟩ := commits_performed committed
  exact ⟨performable.tool (frozen.invocationScope.trans direct), authorised_of_consent frozen direct performable.consent⟩

/-- The history that is disclosed to the planner changes neither the intent of its output nor its steps nor its rejection, and
only replaces one plain answer by another; and in every run invoked from a Direct Chat an effect creates a task, where the chat
permits what it was invoked with at that moment. -/
theorem direct_chat_limits_operator (op : OperatorRuntime) :
    (∀ trusted contextual contextual' : String,
      planOutcome op (selectDirectChatPlannerOutput op trusted contextual) =
        planOutcome op (selectDirectChatPlannerOutput op trusted contextual') ∧
      planOutcome op (selectDirectChatPlannerOutput op trusted contextual) = planOutcome op trusted ∧
      (selectDirectChatPlannerOutput op trusted contextual = trusted ∨
        Answers op trusted ∧ Answers op (selectDirectChatPlannerOutput op trusted contextual))) ∧
    ∀ (new : NewRun) (events : List Event), new.invocationScope = .DIRECT_CHAT →
      Runs.Along (World.step op) (CommitsInChat op new) new.world events := by
  constructor
  · intro trusted contextual contextual'
    refine ⟨(planOutcome_select trusted contextual).trans (planOutcome_select trusted contextual').symm,
      planOutcome_select trusted contextual, ?_⟩
    obtain same | ⟨taken, trusts, answers⟩ := select_cases op trusted contextual
    · exact .inl same
    · refine .inr ⟨trusts, ?_⟩
      rw [taken]
      exact answers
  · intro new events direct
    exact Runs.along_of_invariant (C := fun _ _ => True) (P := Frozen new) (fun _ _ _ frozen => frozen.commits direct)
      (fun _ ev _ frozen => frozen.step ev) (Runs.along_of_forall fun _ _ _ => trivial) ⟨rfl, rfl, rfl, rfl, rfl⟩

namespace Overtaken

def invocation : DirectMessages.DirectMessage :=
  ⟨"m", "c", "alice", "a", "k", none, .OPERATOR_INVOKE, 1, 0, [], []⟩

/-- Alice invokes the operator in her chat with Bob, who shares his history. -/
def chat : Chats where
  store := { users := ["alice", "bob"], conversations := [⟨"c", "alice:bob", ["alice", "bob"], 1⟩], messages := [invocation] }
  members := [⟨"c", "alice", false, true⟩, ⟨"c", "bob", true, false⟩]

def invoked : NewRun where
  userId := "alice"
  userText := "Call Bob"
  invocationScope := .DIRECT_CHAT
  directConversationId := some "c"
  directInteractionEpoch := some 1
  snapshot := some ⟨some 1, [⟨"E2EE_DISCLOSURE", "m", some "CURRENT_REQUEST", none⟩,
    ⟨"E2EE_DISCLOSURE", "n", some "L1_RAW", some "bob"⟩]⟩
  chats := chat

end Overtaken

open Overtaken (runtime invoked turns creates)

theorem direct_chat_limits_operator_invoked :
    performedIds (invoked.world.run runtime (turns 0 6 creates)).tables.history = [0] ∧
      Runs.Along (World.step runtime) (CommitsInChat runtime invoked) invoked.world (turns 0 6 creates) :=
  ⟨by decide +kernel, (direct_chat_limits_operator runtime).2 invoked (turns 0 6 creates) rfl⟩

end Vimla.Operator
