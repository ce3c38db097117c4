import Vimla.TextChat.Ownership

/-!
# The exits of a streamed answer

Every way out of `streamMessage`, with what it leaves in the request and in the
ledger. `Live` is what a call knows while its request is open; each step of the
program has one rule that carries it on, and each exit ends in `Ended`.
-/

namespace Vimla.TextChat

open Threads Threads.Program Billing String

/-- The request is in a final status, and its financial status says what became
of the reservation. -/
structure Agrees (s : Store) (row : AiRequest) : Prop where
  final : row.status ∉ IN_PROGRESS_STATUSES
  settled : row.financialStatus = .SETTLED ∨ row.financialStatus = .ANOMALY ↔
    ∃ r ∈ s.reservationsOf row.id, r.status = .settled ∨ r.status = .anomaly
  released : row.financialStatus = .RELEASED ↔ ∃ r ∈ s.reservationsOf row.id, r.status = .released
  held : row.financialStatus = .RECONCILIATION_HOLD ↔ ∃ r ∈ s.reservationsOf row.id, r.status = .active
  none : row.financialStatus = .NONE ↔ s.reservationsOf row.id = []

/-- The answers after which the call throws without ending its request: no slot,
a read that fails before anything is reserved, a model that can produce no
output, a release that fails. -/
def Fails : Sigma Draw → Prop
  | ⟨.acquire, slot⟩ => slot ≠ .granted
  | ⟨.history, fails⟩ => fails = true
  | ⟨.capacity, d⟩ => d.fails = true
  | ⟨.resolveThreadModel, .ok model⟩ => model.maxOutputTokens ≤ 0
  | ⟨.release, d⟩ => d.fails = true
  | _ => False

def Clean (h : History Draw) : Prop := ∀ x ∈ h, ¬ Fails x

variable {x : Sigma Draw}

theorem clean_append {h : History Draw} : Clean (h ++ [x]) ↔ Clean h ∧ ¬ Fails x := by
  simp [Clean, or_imp, forall_and]

/-- The text of the deltas, in order. -/
def textOf : List (ProviderStreamEvent × Bool) → String
  | [] => ""
  | (.delta piece, _) :: rest => piece ++ textOf rest
  | _ :: rest => textOf rest

/-- What the provider streamed to a call. -/
def streamed : History Draw → String
  | [] => ""
  | ⟨.events, d⟩ :: h => textOf d.events ++ streamed h
  | _ :: h => streamed h

theorem streamed_append (h h' : History Draw) : streamed (h ++ h') = streamed h ++ streamed h' := by
  induction h with
  | nil => simp [streamed]
  | cons x h ih =>
    obtain ⟨l, d⟩ := x
    cases l <;> simp [streamed, ih, append_assoc]

theorem consume_text (me : Nat) (events : List (ProviderStreamEvent × Bool)) (text : String)
    (usage : Option NormalizedUsage) (s : Store) : (consume me events text usage s).1.1 = text ++ textOf events := by
  induction events generalizing text usage s with
  | nil => simp [consume, textOf]
  | cons event events ih =>
    obtain ⟨event, isClientOpen⟩ := event
    cases event <;> simp [consume, textOf, ih, append_assoc]

section Knowledge
variable (ids : Ids) (me : Nat) (input : SendMessage)

/-- The request and its messages are those of the call's input. -/
structure Mine (row : AiRequest) (messages : List Message) : Prop where
  userId : row.userId = input.userId
  conversationId : row.conversationId = input.conversationId
  clientRequestId : row.clientRequestId = input.clientRequestId
  question : messages.find? (fun m => m.role = .USER) |>.all (·.content = input.content)

/-- A replay of the request would return what was streamed. -/
def Replayable (h : History Draw) (s : Store) : Prop :=
  ∀ row, s.request (ids.cuid me) = some row → row.status = .SUCCEEDED →
    Mine input row (s.messagesOf (ids.cuid me)) ∧ s.replayText row = streamed h

/-- Where a call returns or throws. -/
def Ended (h : History Draw) (s : Store) : Prop :=
  Replayable ids me input h s ∧ ∀ row, s.request (ids.cuid me) = some row → (Agrees s row ↔ Clean h)

/-- A call whose request is open and that nothing has gone wrong for. -/
structure Live (h : History Draw) (s : Store) (row : AiRequest) (messages : List Message)
    (reservations : List UsageReservation) (text : String) : Prop where
  sound : Sound s
  owned : Owned (ids.cuid me) s row messages reservations
  mine : Mine input row messages
  unfinished : row.status ≠ .SUCCEEDED
  clean : Clean h
  text : streamed h = text

variable {ids me input} {h : History Draw} {s t : Store} {row : AiRequest} {messages : List Message}
  {reservations : List UsageReservation} {text : String}

theorem Same.replayText (same : Same (ids.cuid me) s t) (own : row.id = ids.cuid me) :
    t.replayText row = s.replayText row := by
  unfold Store.replayText
  rw [own, same.messages]

theorem Same.agrees (same : Same (ids.cuid me) s t) (own : row.id = ids.cuid me) : Agrees t row ↔ Agrees s row := by
  have ledger : t.reservationsOf row.id = s.reservationsOf row.id := by rw [own, same.reservations]
  constructor
  · rintro ⟨final, settled, released, held, none⟩
    exact ⟨final, ledger ▸ settled, ledger ▸ released, ledger ▸ held, ledger ▸ none⟩
  · rintro ⟨final, settled, released, held, none⟩
    exact ⟨final, ledger.symm ▸ settled, ledger.symm ▸ released, ledger.symm ▸ held, ledger.symm ▸ none⟩

theorem Replayable.same (replayable : Replayable ids me input h s) (same : Same (ids.cuid me) s t) :
    Replayable ids me input h t := by
  intro row found done
  rw [same.request] at found
  obtain ⟨mine, text⟩ := replayable row found done
  rw [same.messages, same.replayText (request_id found)]
  exact ⟨mine, text⟩

theorem Ended.same (ended : Ended ids me input h s) (same : Same (ids.cuid me) s t) : Ended ids me input h t := by
  refine ⟨ended.1.same same, fun row found => ?_⟩
  rw [same.request] at found
  rw [same.agrees (request_id found)]
  exact ended.2 row found

/-- A step that fails nothing and streams nothing. -/
theorem Ended.step (ended : Ended ids me input h s) (fine : ¬ Fails x) (silent : streamed [x] = "") :
    Ended ids me input (h ++ [x]) s := by
  have same : streamed (h ++ [x]) = streamed h := by rw [streamed_append, silent, append_empty]
  refine ⟨fun row found done => ?_, fun row found => ?_⟩
  · rw [same]
    exact ended.1 row found done
  · rw [ended.2 row found, clean_append]
    exact ⟨fun clean => ⟨clean, fine⟩, And.left⟩

theorem Live.replayable (live : Live ids me input h s row messages reservations text) (h' : History Draw) :
    Replayable ids me input h' s := by
  intro row' found done
  rw [live.owned.request] at found
  cases found
  exact absurd done live.unfinished

theorem Live.rely (live : Live ids me input h s row messages reservations text) (sound : Sound t)
    (rely : (discipline ids).rely me s t) : Live ids me input h t row messages reservations text :=
  ⟨sound, live.owned.same rely.1, live.mine, live.unfinished, live.clean, live.text⟩

/-- A call that an answer has failed before it could end its request. -/
structure Stuck (ids : Ids) (me : Nat) (h : History Draw) (s : Store) (row : AiRequest) : Prop where
  sound : Sound s
  request : s.request (ids.cuid me) = some row
  progress : row.status ∈ IN_PROGRESS_STATUSES
  failing : ¬ Clean h

theorem Stuck.replayable (stuck : Stuck ids me h s row) (h' : History Draw) : Replayable ids me input h' s := by
  intro row' found done
  rw [stuck.request] at found
  cases found
  have progress := stuck.progress
  rw [done] at progress
  exact absurd progress (by decide)

theorem Stuck.ended (stuck : Stuck ids me h s row) : Ended ids me input h s := by
  refine ⟨stuck.replayable h, fun row' found => ?_⟩
  rw [stuck.request] at found
  cases found
  exact ⟨fun agrees => absurd stuck.progress agrees.final, fun clean => absurd clean stuck.failing⟩

theorem Live.stuck (live : Live ids me input h s row messages reservations text) (progress : row.status ∈ IN_PROGRESS_STATUSES)
    {h' : History Draw} (failing : ¬ Clean h') : Stuck ids me h' s row :=
  ⟨live.sound, live.owned.request, progress, failing⟩

/-- An exit that leaves the request and the ledger in agreement. -/
theorem Live.ended (live : Live ids me input h s row messages reservations text) (agrees : Agrees s row) :
    Ended ids me input h s := by
  refine ⟨live.replayable _, fun row' found => ?_⟩
  rw [live.owned.request] at found
  cases found
  exact ⟨fun _ => live.clean, fun _ => agrees⟩

/-- The weakest precondition of what is left of the call. -/
def Meets (ids : Ids) (me : Nat) (input : SendMessage) {α : Type} (p : Process α) (h : History Draw) (s : Store) : Prop :=
  (discipline ids).wp me (fun _ h s => Replayable ids me input h s) (fun _ h s => Ended ids me input h s) p h s

variable {α β : Type}

/-- A step of a call whose request is open. -/
theorem Live.step (live : Live ids me input h s row messages reservations text) {l : Step} {f : Store → Draw l → α × Store}
    {k : α → Process β} (each : ∀ t, Live ids me input h t row messages reservations text → ∀ d,
      Sound (f t d).2 ∧ (∀ id, id ≠ ids.cuid me → Same id t (f t d).2) ∧
        Meets ids me input (k (f t d).1) (h ++ [⟨l, d⟩]) (f t d).2) : Meets ids me input ((ask l f).bind k) h s := by
  refine Discipline.wp_ask fun t sound rely => ?_
  have now := live.rely sound rely
  refine ⟨now.replayable _, fun d _ => ?_⟩
  obtain ⟨sound', others, rest⟩ := each t now d
  refine ⟨sound', ⟨others, fun row' found done => ?_⟩, rest⟩
  rw [now.owned.request] at found
  cases found
  exact absurd done now.unfinished

/-- A step of a stuck call that writes nothing. -/
theorem Stuck.read (stuck : Stuck ids me h s row) {l : Step} {f : Store → Draw l → α × Store} {k : α → Process β}
    (reads : ∀ t d, (f t d).2 = t)
    (each : ∀ t d, Stuck ids me (h ++ [⟨l, d⟩]) t row → Meets ids me input (k (f t d).1) (h ++ [⟨l, d⟩]) t) :
    Meets ids me input ((ask l f).bind k) h s := by
  refine Discipline.wp_ask fun t sound rely => ?_
  have request : t.request (ids.cuid me) = some row := rely.1.request.trans stuck.request
  have now : Stuck ids me h t row := ⟨sound, request, stuck.progress, stuck.failing⟩
  refine ⟨now.replayable _, fun d _ => ?_⟩
  rw [reads]
  have later : Stuck ids me (h ++ [⟨l, d⟩]) t row :=
    ⟨sound, request, stuck.progress, fun clean => stuck.failing (clean_append.1 clean).1⟩
  exact ⟨sound, ⟨fun id _ => .refl id t, fun _ _ _ => .refl _ t⟩, each t d later⟩

/-- A step that keeps the call's knowledge of its text and fails nothing. -/
theorem Live.next (live : Live ids me input h s row messages reservations text) {row' : AiRequest} {messages' : List Message}
    {reservations' : List UsageReservation} (sound : Sound t)
    (owned : Owned (ids.cuid me) t row' messages' reservations') (mine : Mine input row' messages')
    (unfinished : row'.status ≠ .SUCCEEDED) (fine : ¬ Fails x) (silent : streamed [x] = "") :
    Live ids me input (h ++ [x]) t row' messages' reservations' text :=
  ⟨sound, owned, mine, unfinished, clean_append.2 ⟨live.clean, fine⟩,
    by rw [streamed_append, live.text, silent, append_empty]⟩

/-- A change of the request's own columns that keeps its key. -/
structure Keeps (f : AiRequest → AiRequest) : Prop where
  id : ∀ r, (f r).id = r.id
  userId : ∀ r, (f r).userId = r.userId
  conversationId : ∀ r, (f r).conversationId = r.conversationId
  clientRequestId : ∀ r, (f r).clientRequestId = r.clientRequestId

theorem Keeps.mine {f : AiRequest → AiRequest} (keeps : Keeps f) (mine : Mine input row messages) : Mine input (f row) messages :=
  ⟨(keeps.userId row).trans mine.userId, (keeps.conversationId row).trans mine.conversationId,
    (keeps.clientRequestId row).trans mine.clientRequestId, mine.question⟩

variable {k : Unit → Process β}

theorem Live.update (live : Live ids me input h s row messages reservations text) {f : AiRequest → AiRequest}
    (keeps : Keeps f) (unfinished : (f row).status ≠ .SUCCEEDED)
    (rest : ∀ t h', Live ids me input h' t (f row) messages reservations text → Meets ids me input (k ()) h' t) :
    Meets ids me input ((updateRequest ids me f).bind k) h s := by
  refine live.step fun t now d => ?_
  have sound : Sound (t.updateRequest (ids.cuid me) f) :=
    updateRequest_sound now.sound keeps.id fun r => ⟨keeps.userId r, keeps.clientRequestId r⟩
  refine ⟨sound, fun id ne => updateRequest_same keeps.id ne, rest _ _ ?_⟩
  have next := now.next sound (now.owned.update keeps.id) (keeps.mine now.mine) unfinished (x := ⟨.update, d⟩) id rfl
  exact next

theorem Live.emit (live : Live ids me input h s row messages reservations text) (event : SseEvent)
    (rest : ∀ t h', Live ids me input h' t row messages reservations text → Meets ids me input (k ()) h' t) :
    Meets ids me input ((TextChat.emit me event).bind k) h s := by
  refine live.step fun t now d => ?_
  have tables := writeEvents_tables (s := t) me d [event]
  refine ⟨now.sound.of_tables tables, fun id _ => Same.of_tables tables id, rest _ _ ?_⟩
  have next := now.next (now.sound.of_tables tables) (now.owned.same (Same.of_tables tables _)) now.mine now.unfinished
    (x := ⟨.emit, d⟩) id rfl
  exact next

theorem Mine.answer (mine : Mine input row messages) {m : Message} (role : m.role = .ASSISTANT) :
    Mine input row (messages ++ [m]) := by
  refine ⟨mine.userId, mine.conversationId, mine.clientRequestId, ?_⟩
  have question := mine.question
  rw [List.find?_append]
  cases found : messages.find? fun m => m.role = .USER with
  | some asked =>
    rw [found] at question
    exact question
  | none => simp [role]

theorem Live.message (live : Live ids me input h s row messages reservations text) (content : String)
    {γ : Type} {k : γ → Process β} {reply : Store → Draw .message → γ}
    (rest : ∀ t h' m a, m.role = .ASSISTANT → m.content = content →
      Live ids me input h' t row (messages ++ [m]) reservations text → Meets ids me input (k a) h' t) :
    Meets ids me input ((ask .message fun s d =>
      (reply s d, s.createMessage input.conversationId .ASSISTANT content (some (ids.cuid me)))).bind k) h s := by
  refine live.step fun t now d => ?_
  let m : Message := ⟨t.messages.length, input.conversationId, .ASSISTANT, content, some (ids.cuid me)⟩
  have owned : Owned (ids.cuid me) (t.createMessage input.conversationId .ASSISTANT content (some (ids.cuid me))) row
      (messages ++ [m]) reservations := by
    refine ⟨now.owned.request, ?_, now.owned.reservations⟩
    rw [messagesOf_createMessage, if_pos rfl, now.owned.messages]
  have sound : Sound (t.createMessage input.conversationId .ASSISTANT content (some (ids.cuid me))) :=
    ⟨now.sound.balanced, now.sound.ids, now.sound.keys⟩
  refine ⟨sound, fun id ne => createMessage_same fun same => ne (Option.some.inj same).symm, rest _ _ m _ rfl rfl ?_⟩
  have next := now.next sound owned (now.mine.answer rfl) now.unfinished (x := ⟨.message, d⟩) id rfl
  exact next

theorem Live.reserve (live : Live ids me input h s row messages [] text) (amount : Int)
    {k : Except Thrown ReservationView → Process β}
    (refused : ∀ e t h', Live ids me input h' t row messages [] text → Meets ids me input (k (.error e)) h' t)
    (granted : ∀ view r t h', r.id = view.id → r.userId = input.userId → r.status = .active →
      Live ids me input h' t row messages [r] text → Meets ids me input (k (.ok view)) h' t) :
    Meets ids me input ((reserveUsage ids me input amount).bind k) h s := by
  refine live.step fun t now d => ?_
  generalize run : t.transaction d.fails (Billing.reserveUsage d.now
    ⟨input.userId, ids.cuid me, amount, some input.correlationId⟩) = result
  obtain ⟨sound, others, outcome⟩ := reserve_spec now.sound now.owned d _ _ _ run
  refine ⟨sound, others, ?_⟩
  rcases outcome with ⟨e, failed, owned⟩ | ⟨view, r, ok, hid, user, active, owned⟩
  · rw [failed]
    have next := now.next sound owned now.mine now.unfinished (x := ⟨.reserve, d⟩) id rfl
    exact refused e _ _ next
  · rw [ok]
    have next := now.next sound owned now.mine now.unfinished (x := ⟨.reserve, d⟩) id rfl
    exact granted view r _ _ hid user active next

section Ending
variable {r : UsageReservation}

section
variable (live : Live ids me input h s row messages [r] text) (active : r.status = .active)
  (user : r.userId = input.userId)
include live active user

variable {k : Except Thrown ReservationView → Process β}

theorem Live.settle {actual : Int} (nonneg : 0 ≤ actual)
    (failed : ∀ e t h', Live ids me input h' t row messages [r] text → Meets ids me input (k (.error e)) h' t)
    (settled : ∀ view r' t h', r'.status = .settled ∨ r'.status = .anomaly →
      Live ids me input h' t row messages [r'] text → Meets ids me input (k (.ok view)) h' t) :
    Meets ids me input ((settleUsage input r.id actual).bind k) h s := by
  refine live.step fun t now d => ?_
  generalize run : t.transaction d.fails (Billing.settleUsage d.clock
    ⟨input.userId, r.id, actual, some input.correlationId⟩) = result
  have accepted : ¬ (Op.settleUsage d.clock ⟨input.userId, r.id, actual, some input.correlationId⟩).Refused r := by
    simp only [Op.Refused, user, ne_eq, not_true, or_false]
    omega
  have on : (Op.settleUsage d.clock ⟨input.userId, r.id, actual, some input.correlationId⟩).On r := rfl
  obtain ⟨sound, others, outcome⟩ := ended_spec now.sound now.owned active on accepted (fun _ => rfl) d.fails run
  refine ⟨sound, others, ?_⟩
  rcases outcome with ⟨-, ⟨e, thrown⟩, owned⟩ | ⟨view, r', -, ok, leaves, owned⟩
  · rw [thrown]
    have next := now.next sound owned now.mine now.unfinished (x := ⟨.settle, d⟩) id rfl
    exact failed e _ _ next
  · rw [ok]
    have next := now.next sound owned now.mine now.unfinished (x := ⟨.settle, d⟩) id rfl
    exact settled view r' _ _ leaves next

/-- A release that fails leaves the request open; one that does not ends the reservation. -/
theorem Live.release
    (failed : ∀ e t h', ¬ Clean h' → Live ids me input h t row messages [r] text → Meets ids me input (k (.error e)) h' t)
    (released : ∀ view r' t h', r'.status = .released →
      Live ids me input h' t row messages [r'] text → Meets ids me input (k (.ok view)) h' t) :
    Meets ids me input ((releaseUsage input r.id).bind k) h s := by
  refine live.step fun t now d => ?_
  generalize run : t.transaction d.fails (Billing.releaseUsage d.now
    ⟨input.userId, r.id, some input.correlationId⟩) = result
  have accepted : ¬ (Op.releaseUsage d.now ⟨input.userId, r.id, some input.correlationId⟩).Refused r := by
    simp [Op.Refused, user]
  have on : (Op.releaseUsage d.now ⟨input.userId, r.id, some input.correlationId⟩).On r := rfl
  obtain ⟨sound, others, outcome⟩ := ended_spec now.sound now.owned active on accepted (fun _ => rfl) d.fails run
  refine ⟨sound, others, ?_⟩
  rcases outcome with ⟨fails, ⟨e, thrown⟩, owned⟩ | ⟨view, r', fine, ok, leaves, owned⟩
  · rw [thrown]
    refine failed e _ _ (fun clean => ?_) ⟨sound, owned, now.mine, now.unfinished, now.clean, now.text⟩
    exact (clean_append.1 clean).2 fails
  · rw [ok]
    have ok' : ¬ Fails ⟨.release, d⟩ := fun fails => by
      have fails : d.fails = true := fails
      rw [fine] at fails
      cases fails
    have next := now.next sound owned now.mine now.unfinished (x := ⟨.release, d⟩) ok' rfl
    exact released view r' _ _ leaves next

end

end Ending

end Knowledge

end Vimla.TextChat
