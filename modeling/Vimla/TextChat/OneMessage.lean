import Vimla.TextChat.Agreement
import Vimla.TextChat.Idempotency

/-!
# Runs of `sendMessage`

In every careful run each step keeps the key of a stored message to that
message. Without that care it does not: the two routes look in two tables, and
mentions are resolved before either is read.
-/

namespace Vimla.TextChat

open Threads Threads.Program World Runs

section Runs
variable (c : Config) (ids : Ids) (calls : Nat → SendMessageInput)

/-- What holds of one event: at most one message is stored for a key, by
a call that asked for it; a call that ends ends well; and no call touches the
content or the mentions of a message that it does not repeat. -/
def Idempotent (w : World Label Reply Chat Thrown Answer Unit) (e : Event Label Reply Unit ChatChange) : Prop :=
  let t := (w.step (conversationsController c ids calls) e).state
  (∀ key, (t.userMessages key).length ≤ 1 ∧
    ∀ m ∈ t.userMessages key, ∃ n ∈ t.sent, (calls n).key = key ∧ MessageOf ids calls t n m) ∧
  match e with
  | .arrive _ => ∀ r, (sendMessage c ids w.threads.length (calls w.threads.length)).result = some r →
      EndsWell ids calls w.threads.length r w.state
  | .advance me answers => ∀ thread, w.threads[me]? = some thread → ¬ thread.program.Done →
      (∀ r, (thread.advance w.state answers).1.program.result = some r → EndsWell ids calls me r t) ∧
      ∀ n ∈ w.state.sent, n ≠ me → ¬ Repeats (calls n) (calls me) → ∀ m, MessageOf ids calls w.state n m →
        m ∈ t.text.messages ∧ t.mentions.filter (·.messageId = m.id) = w.state.mentions.filter (·.messageId = m.id)
  | .other _ => True

variable {c ids calls}

theorem change_rely (s : Chat) (change : ChatChange) (me : Nat) :
    (sending c ids calls).rely me s (s.change change) := by
  cases change with
  | text change =>
    cases change with
    | billing op => exact ⟨⟨fun _ => id, fun _ => id, fun _ _ _ => id, fun _ => id, fun _ _ => rfl⟩, id, rfl⟩
    | message conversationId role content =>
      exact ⟨⟨fun _ => id, fun _ => List.mem_append_left _, fun _ _ _ => id, fun _ => id, fun _ _ => rfl⟩, id, rfl⟩
  | conversation row =>
    exact ⟨⟨fun _ => id, fun _ => id, fun _ _ _ => conversationKind_append, fun _ => id, fun _ _ => rfl⟩, id, rfl⟩
  | registry handles models =>
    simp only [Chat.change]
    split
    · exact ⟨⟨fun _ => id, fun _ => id, fun _ _ _ => id, fun _ => id, fun _ _ => rfl⟩, id, rfl⟩
    · exact ⟨.refl s, id, rfl⟩

variable (c ids calls) in
def outline : Outline (conversationsController c ids calls) (sending c ids calls) fun _ _ => True where
  idle me s := Waits s me
  ends me _ := EndsWell ids calls me
  idle_rely _ _ _ rely waits := waits.rely rely
  programs _ _ _ consistent waits := Sends.sendMessage consistent waits
  environment s change consistent _ := ⟨consistent.change change, change_rely s change⟩

/-- A stored message is that of the one call that stored it. -/
theorem Consistent.messageOf {s : Chat} (consistent : Consistent c ids calls s) {key : Nat × String} {m : Message}
    (mem : m ∈ s.userMessages key) : ∃ n ∈ s.sent, (calls n).key = key ∧ MessageOf ids calls s n m := by
  simp only [Chat.userMessages, List.mem_filter, decide_eq_true_eq] at mem
  obtain ⟨mem, user, ⟨row, found, same, under⟩ | ⟨row, found, same, id⟩⟩ := mem
  · obtain ⟨n, sent, of⟩ := consistent.requests row found
    obtain ⟨-, m₀, only, asked⟩ := consistent.stored_chat sent of.route
    rw [of.id] at under
    obtain rfl := (mem_question only).1 ⟨mem, user, under⟩
    exact ⟨n, sent, of.key.symm.trans same, mem, asked, .inl under⟩
  · obtain ⟨n, sent, of⟩ := consistent.submissions row found
    obtain ⟨m', mem', id', none, asked⟩ := of.message
    obtain rfl := consistent.message_eq mem mem' (id.symm.trans id'.symm)
    exact ⟨n, sent, of.key.symm.trans same, mem, asked, .inr ⟨none, row, found, of.key, id⟩⟩

theorem Idempotent.of_holds {w : World Label Reply Chat Thrown Answer Unit} {e : Event Label Reply Unit ChatChange}
    (admitted : Admitted (sending c ids calls) (fun _ _ => True) w e) (holds : (outline c ids calls).Holds w) :
    Idempotent c ids calls w e := by
  have after := (holds.step admitted).1
  refine ⟨fun key => ⟨after.userMessages_le_one key, fun m mem => after.messageOf mem⟩, ?_⟩
  cases e with
  | arrive i => exact fun r ended => holds.arrived (i := i) ended
  | other change => trivial
  | advance me answers =>
    intro thread found runs
    obtain ⟨kept, ends⟩ := holds.moved admitted found runs
    simp only [World.step, found]
    exact ⟨ends, fun n sent other new m of => ⟨kept.1.messages m of.1, kept.2.2 n sent other new m of⟩⟩

/-- In every careful run of any number of calls each key keeps to one message. -/
theorem sendMessage_idempotent (c : Config) (ids : Ids) (calls : Nat → SendMessageInput)
    (events : List (Event Label Reply Unit ChatChange))
    (careful : Along (step (conversationsController c ids calls)) (Admitted (sending c ids calls) fun _ _ => True)
      ⟨.empty, []⟩ events) :
    Along (step (conversationsController c ids calls)) (Idempotent c ids calls) ⟨.empty, []⟩ events := by
  apply along_of_invariant (P := (outline c ids calls).Holds) _ _ careful
  · apply Outline.start Consistent.empty
    exact fun me => ⟨by simp [Chat.empty], rfl⟩
  · exact fun w e admitted holds => Idempotent.of_holds admitted holds
  · exact fun w e admitted holds => holds.step admitted

end Runs

namespace Retries

def supply : Ids := Greeting.supply

def config : Config := Greeting.config

def model : ResolvedModel := Greeting.model

def vimla : Handle := ⟨"system:vimla", "vimla", "vimla", .SYSTEM_AGENT, .ACTIVE, none, none, some "VIMLA"⟩

def asked : SendMessageInput where
  userId := 7
  conversationId := "conversation"
  clientRequestId := "key"
  content := "@vimla hi"
  correlationId := ""
  mentions := [⟨"system:vimla", .SYSTEM_AGENT, "vimla", 0, 6, by decide⟩]

def other : SendMessageInput := { asked with content := "@vimla no" }

def unmentioned : SendMessageInput := { asked with mentions := [] }

/-- No slot is free for a streamed answer. -/
def replies : (l : Label) → Reply l
  | (_, .models _) => (0 : Int)
  | (_, .textEnabled) => true
  | (_, .plan) => .ok "PLANNED"
  | (_, .text .lookup) => (⟨true, none, true⟩ : Entry)
  | (_, .text .resolveThreadModel) => .ok model
  | (_, .text .acquire) => Slot.refused
  | (_, .text .reread) | (_, .text .emit) | (_, .text .history) => true
  | (_, .text .capacity) | (_, .text .reserve) | (_, .text .release) => (⟨0, false⟩ : At)
  | (_, .text .streamChat) => .ok none
  | (_, .text .events) => (⟨[], none⟩ : Delivery)
  | (_, .text .settle) => Greeting.answers .refused .settle
  | (_, .text .begin) | (_, .text .update) | (_, .text .message) | (_, .text .releaseSlot)
  | (_, .getConversation) | (_, .handles) | (_, .conversation) | (_, .submission) | (_, .question)
  | (_, .persist _) | (_, .createMentions _ _) | (_, .content _) | (_, .mentions _) => ()

def events (steps : List (Nat × Nat)) : List (Event Label Reply Unit ChatChange) :=
  [.other (.conversation ⟨"conversation", 7, .CHAT⟩), .other (.registry [vimla] [])] ++
    steps.flatMap fun (me, steps) => .arrive () :: List.replicate steps (.advance me replies)

def world (calls : Nat → SendMessageInput) (events : List (Event Label Reply Unit ChatChange)) :
    World Label Reply Chat Thrown Answer Unit :=
  events.foldl (step (conversationsController config supply calls)) ⟨.empty, []⟩

def results (w : World Label Reply Chat Thrown Answer Unit) : List (Option (Except Thrown Answer)) :=
  w.threads.map fun thread => thread.program.result

/-- The second call asks something else, the third repeats the first. -/
def calls : Nat → SendMessageInput
  | 1 => other
  | _ => asked

def stored : PersistedRoutingResult :=
  ⟨0, .ORCHESTRATION, [⟨"system:vimla", .SYSTEM_AGENT, .system "VIMLA", "vimla", 0, 6⟩]⟩

def start : World Label Reply Chat Thrown Answer Unit := ⟨.empty, []⟩

/-- The first call mentions nobody, so its message is streamed. -/
def reworded : Nat → SendMessageInput
  | 0 => unmentioned
  | _ => asked

/-- The handle that was mentioned is retired, and the message is sent again. -/
def retired : List (Event Label Reply Unit ChatChange) :=
  events [(0, 6)] ++ [.other (.registry [{ vimla with status := .RETIRED }] []), .arrive (), .advance 1 replies,
    .advance 1 replies]

theorem retired_calls : 1 < (world (fun _ => asked) retired).threads.length := by decide +kernel

end Retries

open Retries in
/-- A message, another one under its key, and a repetition. -/
theorem sendMessage_idempotent_retries :
    Along (step (conversationsController config supply calls)) (Idempotent config supply calls) ⟨.empty, []⟩
        (events [(0, 6), (1, 8), (2, 9)]) ∧
      results (world calls (events [(0, 6), (1, 8), (2, 9)])) = [some (.ok (.ORCHESTRATION stored (.ok "PLANNED"))),
        some (.error (.http "clientRequestId was already used for a different message payload" 409)),
        some (.ok (.ORCHESTRATION stored (.ok "PLANNED")))] :=
  ⟨sendMessage_idempotent config supply calls _ (by decide +kernel), by decide +kernel⟩

open Retries in
/-- A second message is stored for a key by the other route, and a repetition is
refused once its handle is retired. -/
theorem sendMessage_not_idempotent :
    ¬ Along (step (conversationsController config supply reworded)) (Idempotent config supply reworded) start
        (events [(0, 8), (1, 5)] ++ [.advance 1 replies]) ∧
      ((world reworded (events [(0, 8), (1, 5)] ++ [.advance 1 replies])).state.userMessages (7, "key")).length = 2 ∧
      ¬ Along (step (conversationsController config supply fun _ => asked))
          (Idempotent config supply fun _ => asked) start (retired ++ [.advance 1 replies]) ∧
      results (world (fun _ => asked) (retired ++ [.advance 1 replies])) =
        [some (.ok (.ORCHESTRATION stored (.ok "PLANNED"))), some (.error (invalidMention "Mention target is not active"))] := by
  have two : ((world reworded (events [(0, 8), (1, 5)] ++ [.advance 1 replies])).state.userMessages (7, "key")).length = 2 := by
    decide +kernel
  refine ⟨fun along => ?_, two, fun along => ?_, by decide +kernel⟩
  · have last := (along_append.1 along).2.1
    have one := (last.1 (7, "key")).1
    exact absurd (two ▸ one) (by decide)
  · have last := (along_append.1 along).2.1.2
    obtain ⟨ends, -⟩ := last _ (List.getElem?_eq_getElem retired_calls) (by decide +kernel)
    have refused := ends (.error (invalidMention "Mention target is not active")) (by decide +kernel)
    have mem : 0 ∈ ((world (fun _ => asked) retired).step (conversationsController config supply fun _ => asked)
        (.advance 1 replies)).state.sent := by decide +kernel
    obtain ⟨chat, -⟩ := (refused 0 mem (by decide)).1 ⟨rfl, rfl, rfl, rfl⟩
    exact absurd chat (by decide +kernel)

end Vimla.TextChat
