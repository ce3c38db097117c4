import Vimla.Billing.Outcome
import Vimla.TextChat.Streaming

/-!
# What a call owns

A call writes only the rows under its own request's key: the request, its
messages and its reservation. Once a request has succeeded nobody writes them.
-/

namespace Vimla.TextChat

open Threads Rows List Billing

/-- The rows under a request's key are the same in both stores. -/
structure Same (id : String) (s t : Store) : Prop where
  request : t.request id = s.request id
  messages : t.messagesOf id = s.messagesOf id
  reservations : t.reservationsOf id = s.reservationsOf id

theorem Same.refl (id : String) (s : Store) : Same id s s := ⟨rfl, rfl, rfl⟩

theorem Same.trans {id : String} {r s t : Store} (h : Same id r s) (h' : Same id s t) : Same id r t :=
  ⟨h'.request.trans h.request, h'.messages.trans h.messages, h'.reservations.trans h.reservations⟩

/-- What the tables satisfy in every reachable state. -/
structure Sound (s : Store) : Prop where
  balanced : Balanced s.billing.db .none
  ids : (s.requests.map AiRequest.id).Nodup
  keys : (s.requests.map fun r => (r.userId, r.clientRequestId)).Nodup

def discipline (ids : Ids) : Discipline Step Draw Store where
  inv := Sound
  admits _ _ _ := True
  rely me s t := Same (ids.cuid me) s t ∧ ∀ id row, s.request id = some row → row.status = .SUCCEEDED → Same id s t
  guarantee me s t := (∀ id, id ≠ ids.cuid me → Same id s t) ∧
    ∀ row, s.request (ids.cuid me) = some row → row.status = .SUCCEEDED → Same (ids.cuid me) s t
  refl me s := ⟨.refl _ s, fun id _ _ _ => .refl id s⟩
  trans me r s t h h' := by
    refine ⟨h.1.trans h'.1, fun id row found done => ?_⟩
    have first := h.2 id row found done
    exact first.trans (h'.2 id row (first.request.trans found) done)
  compatible me other s t ne _ kept := by
    refine ⟨kept.1 _ fun same => ne (ids.distinct same).symm, fun id row found done => ?_⟩
    by_cases own : id = ids.cuid other
    · subst own
      exact kept.2 row found done
    · exact kept.1 id own

/-- What a call knows of its rows. -/
structure Owned (id : String) (s : Store) (row : AiRequest) (messages : List Message)
    (reservations : List UsageReservation) : Prop where
  request : s.request id = some row
  messages : s.messagesOf id = messages
  reservations : s.reservationsOf id = reservations

variable {reservations : List UsageReservation}

theorem Owned.same {id : String} {s t : Store} {row : AiRequest} {messages : List Message}
    (owned : Owned id s row messages reservations) (same : Same id s t) :
    Owned id t row messages reservations :=
  ⟨same.request.trans owned.request, same.messages.trans owned.messages, same.reservations.trans owned.reservations⟩

section Writes
variable {s : Store} {id : String}

theorem request_id {row : AiRequest} (h : s.request id = some row) : row.id = id := (mem_of_find h).2

variable {f : AiRequest → AiRequest}

theorem request_updateRequest (keeps : ∀ r, (f r).id = r.id) (other : String) :
    (s.updateRequest id f).request other = if other = id then (s.request other).map f else s.request other :=
  find_update keeps other

theorem updateRequest_sound (sound : Sound s) (ids : ∀ r, (f r).id = r.id)
    (keys : ∀ r, (f r).userId = r.userId ∧ (f r).clientRequestId = r.clientRequestId) : Sound (s.updateRequest id f) := by
  refine ⟨sound.balanced, ?_, ?_⟩
  · simp only [Store.updateRequest, map_update ids]
    exact sound.ids
  · have same : (Rows.update AiRequest.id id f s.requests).map (fun r => (r.userId, r.clientRequestId)) =
        s.requests.map fun r => (r.userId, r.clientRequestId) :=
      map_update (g := fun r : AiRequest => (r.userId, r.clientRequestId)) fun r => by rw [(keys r).1, (keys r).2]
    exact same.symm ▸ sound.keys

theorem updateRequest_same (keeps : ∀ r, (f r).id = r.id) {other : String} (ne : other ≠ id) :
    Same other s (s.updateRequest id f) :=
  ⟨by rw [request_updateRequest keeps, if_neg ne], rfl, rfl⟩

theorem Owned.update {row : AiRequest} {messages : List Message}
    (owned : Owned id s row messages reservations) (keeps : ∀ r, (f r).id = r.id) :
    Owned id (s.updateRequest id f) (f row) messages reservations :=
  ⟨by rw [request_updateRequest keeps, if_pos rfl, owned.request, Option.map_some], owned.messages, owned.reservations⟩

theorem messagesOf_createMessage (conversationId : String) (role : Role) (content : String) (request : Option String) :
    (s.createMessage conversationId role content request).messagesOf id =
      s.messagesOf id ++ if request = some id then [⟨s.messages.length, conversationId, role, content, request⟩] else [] := by
  simp only [Store.messagesOf, Store.createMessage, filter_append]
  by_cases here : request = some id <;> simp [here]

theorem createMessage_same {conversationId : String} {role : Role} {content : String} {request : Option String}
    (ne : request ≠ some id) : Same id s (s.createMessage conversationId role content request) :=
  ⟨rfl, by rw [messagesOf_createMessage, if_neg ne, append_nil], rfl⟩

theorem writeEvents_tables (me : Nat) (isClientOpen : Bool) (events : List SseEvent) :
    (s.writeEvents me isClientOpen events).requests = s.requests ∧
      (s.writeEvents me isClientOpen events).messages = s.messages ∧
      (s.writeEvents me isClientOpen events).billing = s.billing := by
  unfold Store.writeEvents
  split <;> exact ⟨rfl, rfl, rfl⟩

section
variable {t : Store} (h : t.requests = s.requests ∧ t.messages = s.messages ∧ t.billing = s.billing)
include h

/-- A store that differs only in what clients were sent. -/
theorem Same.of_tables (id : String) : Same id s t := by
  obtain ⟨requests, messages, billing⟩ := h
  exact ⟨by rw [Store.request, requests]; rfl, by rw [Store.messagesOf, messages]; rfl,
    by rw [Store.reservationsOf, billing]; rfl⟩

theorem Sound.of_tables (sound : Sound s) : Sound t := by
  obtain ⟨requests, -, billing⟩ := h
  exact ⟨by rw [billing]; exact sound.balanced, by rw [requests]; exact sound.ids, by rw [requests]; exact sound.keys⟩

end

theorem consume_tables (me : Nat) (events : List (ProviderStreamEvent × Bool)) (text : String)
    (usage : Option NormalizedUsage) (s : Store) : (consume me events text usage s).2.requests = s.requests ∧
      (consume me events text usage s).2.messages = s.messages ∧ (consume me events text usage s).2.billing = s.billing := by
  induction events generalizing text usage s with
  | nil => exact ⟨rfl, rfl, rfl⟩
  | cons event events ih =>
    obtain ⟨event, isClientOpen⟩ := event
    cases event with
    | delta piece =>
      obtain ⟨requests, messages, billing⟩ := ih (text ++ piece) usage (s.writeEvents me isClientOpen [.delta piece])
      obtain ⟨requests', messages', billing'⟩ := writeEvents_tables (s := s) me isClientOpen [.delta piece]
      exact ⟨requests.trans requests', messages.trans messages', billing.trans billing'⟩
    | usage u => exact ih text (some u) s
    | other => exact ih text usage s

end Writes

section Engine
variable {s : Store} {id : String}

def Store.withLedger (s : Store) (db : Db) : Store := { s with billing := { s.billing with db := db } }

variable {op : Op} {r : UsageReservation}

/-- A transaction on other requests' reservations. -/
theorem withLedger_same {db : Db} (move : ReservationMove s.billing.db op db)
    (opens : ∀ now input, op = .reserveUsage now input → input.requestId ≠ id)
    (ends : ∀ r ∈ s.billing.db.reservations, op.On r → r.requestId ≠ id) (sound : Sound s) :
    Same id s (s.withLedger db) := by
  refine ⟨rfl, rfl, ?_⟩
  unfold Store.reservationsOf Store.withLedger
  cases move with
  | still op db' same => rw [same]
  | opened now input db' added =>
    have := opens now input rfl
    rw [added, filter_append]
    simp [this]
  | ended op db' r mem on f rewrites leaves updated =>
    rw [updated, filter_update fun row => by rw [rewrites.requestId]]
    apply update_eq_self
    intro row hrow same
    obtain ⟨hmem, hid⟩ := mem_filter.1 hrow
    rw [eq_of_key sound.balanced.keys.reservations hmem mem same] at hid
    exact ends r mem on (by simpa using hid)

theorem Owned.reservation_mem {row : AiRequest} {messages : List Message} (owned : Owned id s row messages [r]) :
    r ∈ s.billing.db.reservations ∧ r.requestId = id := by
  have mem : r ∈ s.reservationsOf id := by rw [owned.reservations]; exact mem_singleton_self r
  simpa [Store.reservationsOf] using mem

variable {row : AiRequest} {messages : List Message}

/-- A reservation is opened for a request that has none, or nothing is written. -/
theorem reserve_spec (sound : Sound s) (owned : Owned id s row messages []) (d : At) (userId : Nat) (amount : Int)
    (correlationId : Option String) {result : Except Thrown ReservationView × Store}
    (run : s.transaction d.fails (Billing.reserveUsage d.now ⟨userId, id, amount, correlationId⟩) = result) :
    Sound result.2 ∧ (∀ other, other ≠ id → Same other s result.2) ∧
      ((∃ e, result.1 = .error e ∧ Owned id result.2 row messages []) ∨
        ∃ view r, result.1 = .ok view ∧ r.id = view.id ∧ r.userId = userId ∧ r.status = .active ∧
          Owned id result.2 row messages [r]) := by
  have nothing (e : Thrown) (same : result = (.error e, s)) : Sound result.2 ∧ (∀ other, other ≠ id → Same other s result.2) ∧
      ((∃ e, result.1 = .error e ∧ Owned id result.2 row messages []) ∨ ∃ view r, result.1 = .ok view ∧ r.id = view.id ∧
        r.userId = userId ∧ r.status = .active ∧ Owned id result.2 row messages [r]) := by
    rw [same]
    exact ⟨sound, fun other _ => .refl other s, .inl ⟨e, rfl, owned⟩⟩
  unfold Store.transaction at run
  split at run
  · exact nothing _ run.symm
  cases tx : Billing.reserveUsage d.now ⟨userId, id, amount, correlationId⟩ s.billing.db with
  | error e =>
    rw [tx] at run
    exact nothing _ run.symm
  | ok answer =>
    obtain ⟨db, view⟩ := answer
    rw [tx] at run
    subst run
    have fresh : ∀ r ∈ s.billing.db.reservations, r.requestId ≠ id := fun r hr same => by
      have mem : r ∈ s.reservationsOf id := mem_filter.2 ⟨hr, by simpa using same⟩
      rw [owned.reservations] at mem
      cases mem
    obtain ⟨answer, added⟩ := reserveUsage_fresh sound.balanced fresh tx
    have move : ReservationMove s.billing.db (.reserveUsage d.now ⟨userId, id, amount, correlationId⟩) db :=
      .opened _ _ _ added
    refine ⟨⟨reserveUsage_balanced sound.balanced tx, sound.ids, sound.keys⟩, fun other ne => ?_, .inr ?_⟩
    · refine withLedger_same move (fun now input same => ?_) (fun r _ on => by cases on) sound
      cases same
      exact fun same => ne same.symm
    · refine ⟨view, ⟨s.billing.db.nextId, userId, id, amount, 0, .active⟩, rfl, answer.symm, rfl, rfl, owned.request,
        owned.messages, ?_⟩
      have before := owned.reservations
      simp only [Store.reservationsOf] at before ⊢
      rw [added, filter_append, before]
      simp

/-- A settle or release that is in order ends the reservation; it fails only
where the database does. -/
theorem ended_spec {α : Type} {tx : Db → Except TxError (Db × α)} (sound : Sound s)
    (owned : Owned id s row messages [r]) (active : r.status = .active) (on : op.On r) (accepted : ¬ op.Refused r)
    (steps : ∀ w : World, w.step op = { w with db := w.db.commit (tx w.db) }) (fails : Bool)
    {result : Except Thrown α × Store} (run : s.transaction fails tx = result) :
    Sound result.2 ∧ (∀ other, other ≠ id → Same other s result.2) ∧
      ((fails = true ∧ (∃ e, result.1 = .error e) ∧ Owned id result.2 row messages [r]) ∨
        ∃ a r', fails = false ∧ result.1 = .ok a ∧ op.Leaves r'.status ∧ Owned id result.2 row messages [r']) := by
  obtain ⟨mem, request⟩ := owned.reservation_mem
  obtain ⟨f, rewrites, leaves, updated⟩ := active_move sound.balanced mem active on accepted
    (s.billing.reservations_move sound.balanced op)
  have balanced := World.step_balanced sound.balanced op
  have move := s.billing.reservations_move sound.balanced op
  simp only [steps] at updated balanced move
  unfold Store.transaction at run
  cases fails with
  | true =>
    subst run
    exact ⟨sound, fun other _ => .refl other s, .inl ⟨rfl, ⟨_, rfl⟩, owned⟩⟩
  | false =>
    cases answer : tx s.billing.db with
    | error e =>
      obtain ⟨row', hrow', hid, ended⟩ := (active_ends sound.balanced mem active on accepted).closed
      simp only [steps, answer, Db.commit] at hrow'
      rw [eq_of_key sound.balanced.keys.reservations hrow' mem hid] at ended
      exact absurd active ended
    | ok answered =>
      obtain ⟨db, a⟩ := answered
      simp only [answer, Db.commit, Bool.false_eq_true, if_false] at run updated balanced move
      subst run
      refine ⟨⟨balanced, sound.ids, sound.keys⟩, fun other ne => ?_, .inr ⟨a, f r, rfl, rfl, leaves r, owned.request,
        owned.messages, ?_⟩⟩
      · refine withLedger_same move (fun now input same => ?_) (fun r' hr' on' => ?_) sound
        · subst same
          cases on
        · have same : r'.id = r.id := by
            cases op with
            | settleUsage clock input | releaseUsage now input => exact on'.symm.trans on
            | _ => cases on
          rw [eq_of_key sound.balanced.keys.reservations hr' mem same, request]
          exact ne.symm
      · have before := owned.reservations
        simp only [Store.reservationsOf] at before ⊢
        rw [updated, filter_update fun row => by rw [rewrites.requestId], before]
        simp [Rows.update]

end Engine

end Vimla.TextChat
