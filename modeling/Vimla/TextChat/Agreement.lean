import Vimla.TextChat.Flow

/-!
# Requests and the ledger agree

The whole call meets its contract, so in every interleaving of any number of
calls each one that has ended left its request and its reservation in agreement,
unless one of the answers of `Fails` came between. A request that succeeded is
replayed as it was streamed.
-/

namespace Vimla.TextChat

open Threads Threads.Program List Discipline World Rows

variable {c : Config} {ids : Ids} {me : Nat} {input : SendMessage} {h : History Draw} {s t : Store} {row : AiRequest}
  {messages : List Message} {α β : Type}

theorem Meets.mono_bind {p : Process α} {k : Except Thrown α → Process β} (holds : Meets ids me input p h s)
    (rest : ∀ result h' t, Ended ids me input h' t → Meets ids me input (k result) h' t) :
    Meets ids me input (p.attempt.bind k) h s := by
  apply wp_bind
  apply wp_attempt
  exact wp_mono (fun result h' t ended => rest result h' t ended) holds

/-- However the flow ended, the slot is released after it. -/
theorem Ended.releaseSlot (ended : Ended ids me input h s) (result : Except Thrown String) : Meets ids me input
    ((tell .releaseSlot fun s _ => s).bind fun _ => match result with
      | .ok _ => (.pure () : Process Unit)
      | .error e => .fail e) h s := by
  refine wp_ask fun t sound rely => ?_
  have now := ended.same rely.1
  refine ⟨now.1, fun d _ => ⟨sound, ⟨fun id _ => .refl id t, fun _ _ _ => .refl _ t⟩, ?_⟩⟩
  have later : Ended ids me input (h ++ [⟨.releaseSlot, d⟩]) t := now.step id rfl
  cases result with
  | ok _ | error e => exact later

theorem Meets.withSlot {model : ResolvedModel} (holds : Meets ids me input (runProviderFlow c ids me input model) h s) :
    Meets ids me input (TextChat.withSlot c ids me input model) h s :=
  holds.mono_bind fun result _ _ ended => ended.releaseSlot result

theorem Live.opened (live : Live ids me input h s row messages [] "") (created : row.status = .CREATED)
    (unreserved : row.financialStatus = .NONE) (fresh : messages.find? (fun m => m.role = .ASSISTANT) = none)
    {model : ResolvedModel} (produces : 0 < model.maxOutputTokens) :
    Meets ids me input (acquire.bind fun _ => TextChat.withSlot c ids me input model) h s := by
  have progress : row.status ∈ IN_PROGRESS_STATUSES := by
    rw [created]
    decide
  rw [acquire, bind_assoc]
  refine live.step fun t now slot => ⟨now.sound, fun id _ => .refl id t, ?_⟩
  have refused (fails : Fails ⟨.acquire, slot⟩) : Ended ids me input (h ++ [⟨.acquire, slot⟩]) t :=
    (now.stuck progress fun clean => (clean_append.1 clean).2 fails).ended
  cases slot with
  | granted =>
    have next : Live ids me input (h ++ [⟨.acquire, .granted⟩]) t row messages [] "" :=
      now.next now.sound now.owned now.mine now.unfinished (by simp [Fails]) rfl
    exact (next.runProviderFlow created unreserved fresh produces).withSlot
  | refused | unavailable => exact refused (by simp [Fails])

theorem Stuck.opened (stuck : Stuck ids me h s row) {model : ResolvedModel} (silent : model.maxOutputTokens ≤ 0) :
    Meets ids me input (acquire.bind fun _ => TextChat.withSlot c ids me input model) h s := by
  rw [acquire, bind_assoc]
  refine stuck.read (fun _ _ => rfl) fun t slot stuck => ?_
  cases slot with
  | granted => exact (stuck.runProviderFlow silent).withSlot
  | refused | unavailable => exact stuck.ended

/-- A call that has no request. -/
structure Absent (ids : Ids) (me : Nat) (s : Store) : Prop where
  request : s.request (ids.cuid me) = none
  messages : s.messagesOf (ids.cuid me) = []
  reservations : s.reservationsOf (ids.cuid me) = []

theorem Absent.same (absent : Absent ids me s) (same : Same (ids.cuid me) s t) : Absent ids me t :=
  ⟨same.request.trans absent.request, same.messages.trans absent.messages, same.reservations.trans absent.reservations⟩

theorem Absent.replayable (absent : Absent ids me s) (h : History Draw) : Replayable ids me input h s := by
  intro row found
  rw [absent.request] at found
  cases found

theorem Absent.ended (absent : Absent ids me s) : Ended ids me input h s := by
  refine ⟨absent.replayable h, fun row found => ?_⟩
  rw [absent.request] at found
  cases found

/-- The tables are as they were; only clients were sent something. -/
def Unwritten (s t : Store) : Prop := t.requests = s.requests ∧ t.messages = s.messages ∧ t.billing = s.billing

theorem Unwritten.refl (s : Store) : Unwritten s s := ⟨rfl, rfl, rfl⟩

variable {l : Step} {id : String}

section
variable (absent : Absent ids me s)
include absent

variable {k : α → Process β}

/-- A step that writes at most to the client. -/
theorem Absent.reading {f : Store → Draw l → α × Store} (tables : ∀ t d, Unwritten t (f t d).2)
    (each : ∀ t d, Sound t → Absent ids me (f t d).2 → Meets ids me input (k (f t d).1) (h ++ [⟨l, d⟩]) (f t d).2) :
    Meets ids me input ((ask l f).bind k) h s := by
  refine wp_ask fun t sound rely => ?_
  have now := absent.same rely.1
  refine ⟨now.replayable _, fun d _ => ?_⟩
  have same (id : String) : Same id t (f t d).2 := Same.of_tables (tables t d) id
  exact ⟨sound.of_tables (tables t d), ⟨fun id _ => same id, fun _ _ _ => same _⟩, each t d sound (now.same (same _))⟩

theorem Absent.lift (result : Except Thrown α)
    (each : ∀ a, result = .ok a → Meets ids me input (k a) h s) :
    Meets ids me input ((Program.lift result).bind k) h s := by
  cases result with
  | error e => exact absent.ended
  | ok a => exact each a rfl

theorem Absent.answer {α : Type} (result : Except Thrown α) :
    Meets ids me input (Program.lift result) h s := by
  cases result with
  | error e | ok a => exact absent.ended

theorem Absent.reread : Meets ids me input (TextChat.reread me input) h s := by
  refine absent.reading (fun t d => ?_) fun t d _ absent => absent.answer _
  cases t.findUnique input.userId input.clientRequestId with
  | none => exact .refl t
  | some row =>
    simp only
    split
    · exact .refl t
    · exact writeEvents_tables me d _

end

theorem findUnique_none {userId : Nat} {clientRequestId : String} (absent : s.findUnique userId clientRequestId = none) :
    ∀ r ∈ s.requests, (r.userId, r.clientRequestId) ≠ (userId, clientRequestId) := by
  intro r hr same
  obtain ⟨user, key⟩ := Prod.mk.inj same
  have unused := find?_eq_none.1 absent r hr
  simp [user, key] at unused

theorem request_none (absent : s.request id = none) : ∀ r ∈ s.requests, r.id ≠ id := by
  intro r hr
  simpa using find?_eq_none.1 absent r hr

/-- The transaction finds the key taken, or opens the request with its question. -/
theorem beginRequest_spec (sound : Sound s) (absent : Absent ids me s) (input : SendMessage) :
    s.beginRequest (ids.cuid me) input = (false, s) ∨ ∃ m t, s.beginRequest (ids.cuid me) input = (true, t) ∧
      Sound t ∧ (∀ id, id ≠ ids.cuid me → Same id s t) ∧ Owned (ids.cuid me) t (created (ids.cuid me) input) [m] [] ∧
      m.role = .USER ∧ m.content = input.content := by
  unfold Store.beginRequest
  cases taken : s.findUnique input.userId input.clientRequestId with
  | some row => exact .inl rfl
  | none =>
    let row := created (ids.cuid me) input
    let m : Message := ⟨s.messages.length, input.conversationId, .USER, input.content, some (ids.cuid me)⟩
    let opened : Store := { s with requests := s.requests ++ [row] }
    have missing := request_none absent.request
    have keys : ((s.requests ++ [row]).map fun r => (r.userId, r.clientRequestId)).Nodup :=
      nodup_append sound.keys (findUnique_none taken)
    refine .inr ⟨m, opened.createMessage input.conversationId .USER input.content (some (ids.cuid me)), rfl,
      ⟨sound.balanced, nodup_append (x := row) sound.ids missing, keys⟩, fun id ne => ⟨?_, ?_, rfl⟩,
      ⟨?_, ?_, absent.reservations⟩, rfl, rfl⟩
    · simp [Store.request, Store.createMessage, find, find?_append, row, opened, created, Ne.symm ne]
    · rw [messagesOf_createMessage, if_neg fun same => ne (Option.some.inj same).symm, append_nil]
      rfl
    · have before := absent.request
      simp only [Store.request, find] at before
      simp [Store.request, Store.createMessage, find, find?_append, before, row, opened, created]
    · have before : opened.messagesOf (ids.cuid me) = [] := absent.messages
      rw [messagesOf_createMessage, before, if_pos rfl]
      rfl

theorem lookup_unwritten (t : Store) (d : Entry) : Unwritten t
    (if d.aiTextEnabled then
      match d.conversation with
      | none => ((.error (.http "Conversation was not found" 404) : Except Thrown Bool), t)
      | some .OPERATOR => (.error (.http "Operator conversations use the operator API" 400), t)
      | some .CHAT =>
        match t.findUnique input.userId input.clientRequestId with
        | none => (.ok false, t)
        | some row =>
          match t.reuse input row "clientRequestId was already used in another conversation" with
          | .error e => (.error e, t)
          | .ok replay => (.ok true, t.replay me d.isClientOpen replay)
    else (.error (.ai .AI_DISABLED "Text AI is temporarily disabled" 503), t)).2 := by
  split
  · split
    · exact .refl t
    · exact .refl t
    · split
      · exact .refl t
      · split
        · exact .refl t
        · exact writeEvents_tables me _ _
  · exact .refl t

/-- The transaction that opens the request, and what is left of the call. -/
theorem Absent.begin (absent : Absent ids me s) {model : ResolvedModel} (silent : streamed h = "")
    (clean : Clean h ↔ 0 < model.maxOutputTokens) : Meets ids me input
      ((ask .begin fun s _ => s.beginRequest (ids.cuid me) input).bind fun isNew =>
        if isNew then acquire.bind fun _ => withSlot c ids me input model else TextChat.reread me input) h s := by
  refine wp_ask fun t sound rely => ?_
  have now := absent.same rely.1
  refine ⟨now.replayable _, fun d _ => ?_⟩
  rcases beginRequest_spec sound now input with same | ⟨m, u, same, sound', others, owned, role, content⟩
  · rw [same]
    exact ⟨sound, ⟨fun id _ => .refl id t, fun _ _ _ => .refl _ t⟩, now.reread⟩
  · rw [same]
    refine ⟨sound', ⟨others, fun row found _ => ?_⟩, ?_⟩
    · rw [now.request] at found
      cases found
    have clean' : Clean (h ++ [⟨.begin, d⟩]) ↔ 0 < model.maxOutputTokens := by
      rw [clean_append, ← clean]
      exact and_iff_left id
    by_cases produces : 0 < model.maxOutputTokens
    · have live : Live ids me input (h ++ [⟨.begin, d⟩]) u (created (ids.cuid me) input) [m] [] "" := by
        refine ⟨sound', owned, ⟨rfl, rfl, rfl, by simp [role, content]⟩, by simp [created], clean'.2 produces, ?_⟩
        rw [streamed_append, silent]
        rfl
      exact live.opened rfl rfl (by simp [role]) produces
    · have stuck : Stuck ids me (h ++ [⟨.begin, d⟩]) u (created (ids.cuid me) input) :=
        ⟨sound', owned.request, by simp [created, IN_PROGRESS_STATUSES], fun ok => produces (clean'.1 ok)⟩
      exact stuck.opened (by omega)

theorem Absent.streamMessage (absent : Absent ids me s) :
    Meets ids me input (TextChat.streamMessage c ids me input) [] s := by
  rw [TextChat.streamMessage, lookup, bind_assoc]
  refine absent.reading lookup_unwritten fun t d _ absent => absent.lift _ fun replayed _ => ?_
  cases replayed with
  | true => exact absent.ended
  | false =>
    refine absent.lift _ fun _ _ => ?_
    rw [bind_assoc]
    refine absent.reading (fun t _ => .refl t) fun t drawn _ absent => ?_
    cases drawn with
    | error e => exact absent.ended
    | ok model =>
      refine absent.begin rfl ?_
      simp [Clean, Fails]

/-- The change is a transaction for the request `id`, or on its reservation. -/
def Change.Concerns (s : Store) (id : String) : Change → Prop
  | .billing op => (∃ now input, op = .reserveUsage now input ∧ input.requestId = id) ∨
      ∃ r ∈ s.billing.db.reservations, op.On r ∧ r.requestId = id
  | .message _ _ _ => False

/-- What happens beside the calls leaves the reservations of their requests. -/
def Changes (ids : Ids) (s : Store) (change : Change) : Prop :=
  ∀ id, (∃ me, id = ids.cuid me) ∨ (∃ row, s.request id = some row) → ¬ change.Concerns s id

theorem change_sound (sound : Sound s) (change : Change) : Sound (s.change change) := by
  cases change with
  | billing op => exact ⟨Billing.World.step_balanced sound.balanced op, sound.ids, sound.keys⟩
  | message conversationId role content => exact ⟨sound.balanced, sound.ids, sound.keys⟩

theorem change_same (sound : Sound s) {change : Change} (other : ¬ change.Concerns s id) :
    Same id s (s.change change) := by
  cases change with
  | message conversationId role content => exact createMessage_same (by simp)
  | billing op =>
    have move := s.billing.reservations_move sound.balanced op
    have same : Same id s (s.withLedger (s.billing.step op).db) := withLedger_same move
      (fun now input opens same => other (.inl ⟨now, input, opens, same⟩))
      (fun r hr on same => other (.inr ⟨r, hr, on, same⟩)) sound
    exact ⟨same.request, same.messages, same.reservations⟩

def contract (c : Config) (ids : Ids) : Contract (service c ids) (discipline ids) (Changes ids) where
  idle := Absent ids
  during me input _ := Replayable ids me input
  ends me input _ := Ended ids me input
  idle_rely _ _ _ rely absent := absent.same rely.1
  ends_rely _ _ _ _ _ _ rely ended := ended.same rely.1
  programs _ _ _ _ absent := absent.streamMessage
  environment _ _ sound allowed := ⟨change_sound sound _, fun me => ⟨change_same sound (allowed _ (.inl ⟨me, rfl⟩)),
    fun id row found _ => change_same sound (allowed id (.inr ⟨row, found⟩))⟩⟩

/-- The same question under the same key. -/
structure SendMessage.Repeats (again first : SendMessage) : Prop where
  userId : again.userId = first.userId
  conversationId : again.conversationId = first.conversationId
  clientRequestId : again.clientRequestId = first.clientRequestId
  content : again.content = first.content

/-- A call finds its request answered: it returns at once, and only its client is
sent something. -/
structure Replays (w w' : World Step Draw Store Thrown Unit SendMessage) (n : Nat)
    (caller : Thread Step Draw Store Thrown Unit SendMessage) (seen : Sigma Draw) (isClientOpen : Bool) (r : Replay) : Prop where
  returns : w'.threads[n]? = some ⟨caller.input, .pure (), caller.history ++ [seen]⟩
  writes : w'.state = w.state.replay n isClientOpen r

theorem findUnique_request (sound : Sound s) (found : s.request id = some row) :
    s.findUnique row.userId row.clientRequestId = some row := by
  obtain ⟨mem, -⟩ := mem_of_find found
  cases other : s.findUnique row.userId row.clientRequestId with
  | none => exact absurd rfl (findUnique_none other row mem)
  | some row' =>
    have mem' := mem_of_find?_eq_some other
    have same : row'.userId = row.userId ∧ row'.clientRequestId = row.clientRequestId := by
      simpa using find?_some other
    rw [eq_of_key sound.keys mem' mem (Prod.ext same.1 same.2)]

/-- Asking again for a request that succeeded. -/
theorem reuse_succeeded {asked again : SendMessage} (mine : Mine asked row (s.messagesOf row.id)) (done : row.status = .SUCCEEDED)
    (conversation : again.conversationId = asked.conversationId) (content : again.content = asked.content)
    (conflict : String) : s.reuse again row conflict = .ok (s.replayOf row) := by
  have question : ¬ ((s.messagesOf row.id).find? fun m => m.role = .USER).any (·.content ≠ again.content) := by
    have asked' := mine.question
    rw [content]
    cases found : (s.messagesOf row.id).find? fun m => m.role = .USER with
    | none => simp
    | some m => simpa [found] using asked'
  unfold Store.reuse
  rw [if_neg, if_pos done]
  rintro (other | other)
  · exact other (mine.conversationId.trans conversation.symm)
  · exact question other

theorem Meets.replayable {α : Type} {p : Process α} (sound : Sound s) (holds : Meets ids me input p h s) :
    Replayable ids me input h s := by
  cases p with
  | pure a | fail e => exact holds.1
  | step l act next => exact (holds s sound ((discipline ids).refl me s)).1

/-- The next step of a call that replays an answer and returns. -/
theorem Replays.of_ask {w : World Step Draw Store Thrown Unit SendMessage} {n : Nat}
    {caller : Thread Step Draw Store Thrown Unit SendMessage} {answers : ∀ l, Draw l} {α : Type}
    {f : Store → Draw l → α × Store} {k : α → Process Unit} {isClientOpen : Bool} {r : Replay} {a : α}
    (called : w.threads[n]? = some caller) (asks : caller.program = (ask l f).bind k)
    (answered : f w.state (answers l) = (a, w.state.replay n isClientOpen r)) (ends : k a = .pure ()) :
    Replays w (w.step (service c ids) (.advance n answers)) n caller ⟨l, answers l⟩ isClientOpen r := by
  have inside : n < w.threads.length := (List.getElem?_eq_some_iff.1 called).1
  have next : caller.advance w.state answers =
      (⟨caller.input, k (f w.state (answers l)).1, caller.history ++ [⟨l, answers l⟩]⟩, (f w.state (answers l)).2) := by
    simp only [Thread.advance, asks]
    rfl
  rw [answered, ends] at next
  constructor
  · simp [World.step, called, next, getElem?_set_self inside]
  · simp [World.step, called, next]

/-- In every interleaving: a call that has ended left its request and the ledger
in agreement exactly if none of its answers was one of `Fails`, and a request
that succeeded is replayed as it was streamed. -/
theorem requests_agree_iff (c : Config) (ids : Ids) (events : List (Event Step Draw SendMessage Change))
    (admitted : Runs.Along (step (service c ids)) (Admitted (discipline ids) (Changes ids)) ⟨.empty, []⟩ events)
    (me : Nat) (thread : Thread Step Draw Store Thrown Unit SendMessage) (row : AiRequest) :
    let w := events.foldl (step (service c ids)) ⟨.empty, []⟩
    w.threads[me]? = some thread → w.state.request (ids.cuid me) = some row →
      (thread.program.Done → (Agrees w.state row ↔ Clean thread.history)) ∧
      (row.status = .SUCCEEDED → ∀ n caller answers, w.threads[n]? = some caller →
        caller.input.Repeats thread.input →
        ∃ r : Replay, r.aiRequestId = row.id ∧ r.text = streamed thread.history ∧
          (caller.program = streamMessage c ids n caller.input → (answers .lookup).aiTextEnabled = true →
            (answers .lookup).conversation = some .CHAT → Replays w (w.step (service c ids) (.advance n answers)) n caller
              ⟨.lookup, answers .lookup⟩ (answers .lookup).isClientOpen r) ∧
          (caller.program = reread n caller.input → Replays w (w.step (service c ids) (.advance n answers)) n caller
            ⟨.reread, answers .reread⟩ (answers .reread) r)) := by
  intro w found request
  have sound : Sound Store.empty := ⟨Billing.Opening.empty.balanced, nodup_nil, nodup_nil⟩
  have holds : (contract c ids).Holds w :=
    Contract.run admitted (Contract.start sound fun me => ⟨rfl, rfl, rfl⟩)
  have spec : Meets ids me thread.input thread.program thread.history w.state := holds.thread found
  refine ⟨fun done => ?_, fun succeeded n caller answers called same => ?_⟩
  · obtain ⟨result, ended⟩ := wp_done spec done
    exact ended.2 row request
  · have own := request_id request
    obtain ⟨mine, text⟩ := Meets.replayable holds.1 spec row request succeeded
    rw [← own] at mine
    have user : row.userId = caller.input.userId := mine.userId.trans same.userId.symm
    have key : row.clientRequestId = caller.input.clientRequestId :=
      mine.clientRequestId.trans same.clientRequestId.symm
    have unique := findUnique_request holds.1 request
    rw [user, key] at unique
    have reuse := reuse_succeeded mine succeeded same.conversationId same.content
    refine ⟨w.state.replayOf row, rfl, text, fun starts enabled chat => ?_, fun rereads => ?_⟩
    · rw [streamMessage, lookup, bind_assoc] at starts
      refine .of_ask called starts (a := .ok true) ?_ rfl
      simp [enabled, chat, unique, reuse]
    · refine .of_ask called rereads (a := .ok ()) ?_ rfl
      simp [unique, reuse]

namespace Greeting

def supply : Ids := ⟨fun n => String.ofList (List.replicate n 'c'), fun a b h => by simpa using congrArg String.length h⟩

def config : Config := ⟨1000, 10000, 2048, 10000000, 2000, by decide, by decide⟩

def model : ResolvedModel :=
  ⟨100000, 4096, ⟨1000000, 2000000, none, none, by decide, by decide, by decide, by decide⟩⟩

def answers (slot : Slot) : ∀ l, Draw l
  | .lookup => ⟨true, some .CHAT, true⟩
  | .resolveThreadModel => .ok model
  | .reread | .emit => true
  | .acquire => slot
  | .history => false
  | .capacity | .reserve | .release => ⟨0, false⟩
  | .streamChat => .ok none
  | .events => ⟨[(.delta "Hel", true), (.delta "lo", true), (.usage ⟨100, 20, 0, 0, 0⟩, true)], none⟩
  | .settle => ⟨⟨0, 0, by decide⟩, false⟩
  | .begin | .update | .message | .releaseSlot => ()

def message : SendMessage := ⟨7, "conversation", "key", "Hello", ""⟩

/-- A top-up is paid, then the question is asked and asked again. -/
def events (slot : Slot) (steps : Nat) : List (Event Step Draw SendMessage Change) :=
  [.other (.billing Billing.FirstRun.topup), .other (.billing Billing.FirstRun.confirmed), .arrive message] ++
    List.replicate steps (.advance 0 (answers slot)) ++ [.arrive message]

def world (slot : Slot) (steps : Nat) : World Step Draw Store Thrown Unit SendMessage :=
  (events slot steps).foldl (step (service config supply)) ⟨.empty, []⟩

theorem admitted (slot : Slot) (steps : Nat) : Runs.Along (step (service config supply))
    (Admitted (discipline supply) (Changes supply)) ⟨.empty, []⟩ (events slot steps) := by
  apply Runs.along_of_forall
  intro w e mem
  have bought (op : Billing.Op) (h : op = Billing.FirstRun.topup ∨ op = Billing.FirstRun.confirmed) :
      Changes supply w.state (.billing op) := by
    rintro id - (⟨now, input, same, -⟩ | ⟨r, -, on, -⟩)
    · rcases h with rfl | rfl <;> cases same
    · rcases h with rfl | rfl <;> cases on
  simp only [events, mem_append, mem_cons, mem_replicate, not_mem_nil, or_false] at mem
  rcases mem with ((rfl | rfl | rfl) | ⟨-, rfl⟩) | rfl
  · exact bought _ (.inl rfl)
  · exact bought _ (.inr rfl)
  · trivial
  · exact fun _ _ _ _ _ _ => trivial
  · trivial

/-- What the first call leaves in its request. -/
def answered : AiRequest where
  id := ""
  userId := 7
  conversationId := "conversation"
  clientRequestId := "key"
  status := .SUCCEEDED
  financialStatus := .SETTLED
  estimatedInputTokens := 5168
  maxOutputTokens := 2048
  estimatedCostMicroRub := 11117
  reservationId := some 2
  providerRequestId := none
  providerActualCostMicroRub := some 140
  userSettledUsageMicroRub := some 140
  outputText := some "Hello"

/-- The second call, which has not taken a step. -/
def again : Thread Step Draw Store Thrown Unit SendMessage := ⟨message, streamMessage config supply 1 message, []⟩

theorem threads_eq (slot : Slot) (steps : Nat) (alone : (world slot steps).threads.length = 2) :
    ∃ first, (world slot steps).threads = [first, again] := by
  obtain ⟨before, arrived⟩ : ∃ before : World Step Draw Store Thrown Unit SendMessage,
      world slot steps = before.step (service config supply) (.arrive message) := ⟨_, foldl_append⟩
  have arrived : (world slot steps).threads = _ ++ [_] := congrArg threads arrived
  rw [arrived, length_append, length_singleton] at alone
  obtain ⟨first, only⟩ := length_eq_one_iff.1 (Nat.succ.inj alone)
  exact ⟨first, by rw [arrived, only]; rfl⟩

end Greeting

open Greeting in
/-- A greeting that is answered, paid for and replayed. -/
theorem requests_agree_iff_greeting : ∃ first, (world .granted 20).threads = [first, again] ∧
    (Agrees (world .granted 20).state answered ↔ Clean first.history) ∧
    ∃ r : Replay, r.text = streamed first.history ∧ Replays (world .granted 20)
      ((world .granted 20).step (service config supply) (.advance 1 (answers .granted))) 1 again
      ⟨.lookup, answers .granted .lookup⟩ true r := by
  obtain ⟨first, threads⟩ := threads_eq .granted 20 (by decide +kernel)
  have found : (world .granted 20).threads[0]? = some first := by rw [threads]; rfl
  have called : (world .granted 20).threads[1]? = some again := by rw [threads]; rfl
  have ended : ∀ t ∈ (world .granted 20).threads.head?, t.program.Done ∧ t.input = message := by decide +kernel
  obtain ⟨done, input⟩ := ended first (by rw [threads]; rfl)
  have request : (world .granted 20).state.request (supply.cuid 0) = some answered := by decide +kernel
  obtain ⟨agree, replays⟩ := requests_agree_iff config supply (events .granted 20) (admitted .granted 20) 0 first answered
    found request
  obtain ⟨r, -, text, atOnce, -⟩ := replays rfl 1 again (answers .granted) called (input ▸ ⟨rfl, rfl, rfl, rfl⟩)
  exact ⟨first, threads, agree done, r, text, atOnce rfl rfl rfl⟩

open Greeting in
/-- No slot is free: the call throws, its request stays `CREATED`, and the key is
in progress for ever. -/
theorem request_left_created : ∃ first, (world .refused 20).threads = [first, again] ∧ first.program.Done ∧
    ∃ row, (world .refused 20).state.request (supply.cuid 0) = some row ∧ row.status = .CREATED ∧
      ¬ Agrees (world .refused 20).state row ∧ (world .refused 20).state.reuse message row "" =
        .error (.ai .AI_REQUEST_IN_PROGRESS "This request is already in progress" 409) := by
  obtain ⟨first, threads⟩ := threads_eq .refused 20 (by decide +kernel)
  have ended : ∀ t ∈ (world .refused 20).threads.head?, t.program.Done := by decide +kernel
  have request : (world .refused 20).state.request (supply.cuid 0) = some (created "" message) := by decide +kernel
  refine ⟨first, threads, ended first (by rw [threads]; rfl), _, request, rfl, fun agrees => ?_, by decide +kernel⟩
  exact agrees.final (by decide)

end Vimla.TextChat
