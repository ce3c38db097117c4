import Vimla.Notifications.Delivering
import Vimla.Notifications.Dispatch

/-!
# The lifecycle of deliveries holds

Every run of any number of processors and reconcilers.
-/

namespace Vimla.Notifications

open Threads Threads.Program Workspace List World

variable {c : Config} {s t : State} {me : Nat}

/-- What stands before the last colons of two lists, where as many follow. -/
theorem before_colon {a b i j : List Char} (same : a ++ ':' :: i = b ++ ':' :: j) (colons : i.count ':' = j.count ':') : a = b := by
  rcases append_eq_append_iff.1 same with ⟨x, rfl, rest⟩ | ⟨x, rfl, rest⟩
  iterate 2
    · cases x with
      | nil => simp
      | cons y x =>
        obtain ⟨rfl, rfl⟩ := cons.inj rest
        simp at colons
        omega

/-- The key of an occurrence names the reminder. -/
theorem reminder_of_occurrenceKey {id id' : String} {at_ at' : Int}
    (same : reminderOccurrenceKey id at_ = reminderOccurrenceKey id' at') : id = id' := by
  have lists := congrArg String.toList same
  simp only [reminderOccurrenceKey, String.toList_append, append_assoc] at lists
  have lists := append_cancel_left (append_cancel_left lists)
  have colons : (Js.toISOString at_).toList.count ':' = (Js.toISOString at').toList.count ':' := by
    rw [Js.toISOString_colons, Js.toISOString_colons]
  exact String.toList_injective (before_colon lists colons)

variable {r r' : NotificationDelivery}

theorem Sound.unique (sound : Sound c s) (mem : r ∈ s.deliveries) (mem' : r' ∈ s.deliveries)
    (occurrence : r.occurrenceKey = r'.occurrenceKey) (channel : r.channel = r'.channel) : r = r' := by
  have source : r.sourceId = r'.sourceId := by
    have key := (sound.rows r mem).occurrence
    have key' := (sound.rows r' mem').occurrence
    exact reminder_of_occurrenceKey (key.symm.trans (occurrence.trans key'))
  refine Rows.eq_of_key sound.keys mem mem' ?_
  cases h : r.sourceType
  cases h' : r'.sourceType
  simp [NotificationDelivery.key, h, h', source, occurrence, channel]

/-- What a step does to the deliveries under a claim: an update of an outcome
writes one delivery, the recovery several, any other step leaves them so. -/
def Touches : (l : Step) → State → Draw l → State → Prop
  | .query (.recover _), _, _, _ => True
  | .query (.outcome lease _ _), s, d, t => t = s ∨ d.fate ≠ .undone ∧ ∀ r ∈ s.deliveries, r.id ≠ lease.deliveryId → r ∈ t.deliveries
  | _, s, _, t => ∀ r ∈ s.deliveries, r.status = .PROCESSING → ∃ r' ∈ t.deliveries, r'.id = r.id ∧ r'.status = .PROCESSING

variable {l : Step}

theorem touches_same {d : Draw l} (calm : l.calm = true) (effect : Effect c me l s d t) : Touches l s d t := by
  have same := effect_same calm effect
  unfold Touches
  split
  · trivial
  · cases calm
  · exact fun r mem processing => ⟨r, same.deliveries ▸ mem, rfl, processing⟩

theorem Effect.touches {d : Draw l} (effect : Effect c me l s d t) : Touches l s d t := by
  cases l with
  | incr _ | send _ => exact touches_same rfl effect
  | query q =>
    cases q with
    | recover now => trivial
    | outcome lease channel o =>
      refine effect.imp id fun ⟨executed, now, written⟩ => ⟨executed, fun r mem other => ?_⟩
      rw [written]
      exact Rows.mem_update_of_ne mem other
    | claim deliveryId now =>
      intro r mem processing
      rcases effect with rfl | ⟨-, -, rfl⟩
      · exact ⟨r, mem, rfl, processing⟩
      · refine ⟨_, mem_map_of_mem mem, ?_⟩
        split
        · exact ⟨rfl, rfl⟩
        · exact ⟨rfl, processing⟩
    | create e =>
      intro r mem processing
      rcases effect with rfl | ⟨-, now, -, rfl⟩
      · exact ⟨r, mem, rfl, processing⟩
      · exact ⟨r, mem_append_left _ mem, rfl, processing⟩
    | _ => exact touches_same rfl effect

theorem touches_call (me : Nat) (input : Input) : (call c me input).Steps Touches :=
  steps_mono (fun _ _ _ _ effects => Effect.touches effects.2) (effects_call input)

abbrev Workers := World Step Draw State Failure Result Input

/-- What holds of `w`, and of a later `w'`. -/
structure LifecycleHolds (c : Config) (w w' : Workers) : Prop where
  unique : ∀ r ∈ w.state.deliveries, ∀ r' ∈ w.state.deliveries, r.userId = r'.userId → r.notificationType = r'.notificationType →
    r.occurrenceKey = r'.occurrenceKey → r.channel = r'.channel → r = r'
  /-- A delivery that was delivered, failed or skipped stays so. -/
  final : Final w.state w'.state
  /-- A step takes a delivery out of `PROCESSING` only as its current claim's
  worker, or as the recovery of a lease that is over. -/
  holder : ∀ (me : Nat) (thread : Thread Step Draw State Failure Result Input),
    w.threads[me]? = some thread → ∀ l act next, thread.program = .step l act next → ∀ d, (discipline c).admits l w.state d →
    ∀ r ∈ w.state.deliveries, r.status = .PROCESSING → ∀ r' ∈ (act w.state d).deliveries, r'.id = r.id → r'.status ≠ .PROCESSING →
      Held w.state me r ∨ thread.input = .reconcile ∧ Over w.state r
  attempts : ∀ r ∈ w.state.deliveries, w.state.claimsOf r.id ≤ c.maxAttempts

theorem Sound.attempts (sound : Sound c s) {r : NotificationDelivery} (mem : r ∈ s.deliveries) : s.claimsOf r.id ≤ c.maxAttempts := by
  rw [(sound.rows r mem).claims]
  exact (sound.rows r mem).bound

/-- A processor takes a delivery out of `PROCESSING` as the worker of its claim. -/
theorem held_of_left {d : Draw l} {deliveryId : String} (sound : Sound c s) (sound' : Sound c t)
    (during : During me s (.process deliveryId) l) (admitted : (discipline c).admits l s d) (touches : Touches l s d t)
    (mem : r ∈ s.deliveries) (processing : r.status = .PROCESSING) (mem' : r' ∈ t.deliveries)
    (same : r'.id = r.id) (left : r'.status ≠ .PROCESSING) : Held s me r := by
  unfold Touches at touches
  split at touches
  · exact during.elim
  · rename_i lease channel o d
    obtain ⟨claimed, knows⟩ := during
    rcases touches with rfl | ⟨executed, others⟩
    · exact absurd (sound.eq_of_id mem' mem same ▸ processing) left
    by_cases own : r.id = lease.deliveryId
    · have there := knows.there (admitted.2.live executed)
      exact sound.eq_of_id there mem (knows.id.trans own.symm) ▸ knows.held
    · exact absurd (sound'.eq_of_id mem' (others r mem own) same ▸ processing) left
  · obtain ⟨r'', mem'', same', stays⟩ := touches r mem processing
    exact absurd (sound'.eq_of_id mem' mem'' (same.trans same'.symm) ▸ stays) left

/-- In a run whose steps are careful, at any moment and at any later one. -/
theorem lifecycle_holds (c : Config) (s : State) (sound : Sound c s) (events more : List (Event Step Draw Input Change))
    (careful : Runs.Along (step (platform c)) (Admitted (discipline c) fun _ _ => True) ⟨s, []⟩ (events ++ more)) :
    LifecycleHolds c (events.foldl (step (platform c)) ⟨s, []⟩) ((events ++ more).foldl (step (platform c)) ⟨s, []⟩) := by
  obtain ⟨first, rest⟩ := Runs.along_append.1 careful
  have holds := Contract.run first ((contract c).start sound fun _ => trivial)
  have touches := @acts _ _ _ _ _ _ _ _ (platform c) ⟨s, []⟩ touches_call events nofun
  rw [foldl_append]
  generalize events.foldl (step (platform c)) ⟨s, []⟩ = w at holds touches rest
  have sound : Sound c w.state := holds.1
  have final : Final w.state (more.foldl (step (platform c)) w).state := by
    refine Contract.later (R := Final) (fun s r mem _ => ⟨r, mem, rfl, rfl⟩) (fun _ _ _ first second r mem final => ?_)
      (fun _ _ _ _ (keeps : Keeps _ _ _) => keeps.final) (fun s change _ _ r mem _ => ?_) rest holds
    · obtain ⟨r', mem', id, status⟩ := first r mem final
      obtain ⟨r'', mem'', id', status'⟩ := second r' mem' (status ▸ final)
      exact ⟨r'', mem'', id'.trans id, status'.trans status⟩
    · cases change <;> exact ⟨r, mem, rfl, rfl⟩
  refine ⟨fun r mem r' mem' _ _ occurrence channel => sound.unique mem mem' occurrence channel, final, ?_, fun r mem => sound.attempts mem⟩
  intro me thread found l act next is d admitted r mem processing r' mem' same left
  obtain ⟨during, sound', keeps, -⟩ := holds.advance found is admitted
  have touched := touches thread (mem_of_getElem? found)
  rw [is] at touched
  cases kind : thread.input with
  | process deliveryId =>
    have during : During me w.state (.process deliveryId) l := kind ▸ during
    exact .inl (held_of_left sound sound' during admitted (touched.1 w.state d) mem processing mem' same left)
  | reconcile => exact (keeps.leaves r mem processing r' mem' same left).imp id fun past => ⟨rfl, past⟩

namespace Ana

def config : Config where
  maxLatenessMinutes := 1440
  maxAttempts := 1
  maxAttempts_pos := Nat.one_pos
  backoffBaseMs := 5000
  backoffCapMs := 300000
  leaseSeconds := 120
  batchSize := 100
  emailPerDestPerHour := 8
  emailPerIpPerHour := 20
  emailGlobalPerMinute := 40
  failClosed := true

def reminder : WorkspaceObject where
  id := "r"
  kind := .REMINDER
  personalOwnerUserId := "ana"
  archivedAt := none
  deletedAt := none
  task := none
  reminder := some ⟨"Call", none, 500, "UTC", .PENDING, none, none, none⟩
  list := none
  note := none

/-- The e-mail of Ana's reminder waits for a worker. -/
def tables : State where
  objects := [reminder]
  users := [⟨"ana", "ana@example.org", true, some ⟨some false, some true⟩⟩]
  deliveries := [EnsureDelivery.row ⟨"ana", "r", 500, .EMAIL, false⟩ "d" 500]
  notifications := []
  keys := []
  now := 1000
  claims := []
  accepted := []
  created := ["d"]

theorem sound : Sound config tables := by
  refine ⟨by decide, by decide, fun r mem => ?_, by decide, by decide, nofun⟩
  rw [mem_singleton.1 mem]
  exact ⟨rfl, by decide, by decide, rfl, by decide, fun _ => by decide⟩

/-- A step at this time, with this token; the provider accepts. -/
def answers (time : Int) (fate : Fate) (token : String) (count : Nat) : ∀ l, Draw l
  | .query _ => ⟨time, fate, token, 0⟩
  | .incr _ => .ok count
  | .send _ => .ok none

def steps (me n : Nat) (time : Int) (token : String) : List (Event Step Draw Input Change) :=
  List.replicate n (.advance me (answers time .done token 1))

def run (events : List (Event Step Draw Input Change)) : Workers := events.foldl (step (platform config)) ⟨tables, []⟩

/-- What a test sees of the deliveries, with the claims of each. -/
def seen (w : Workers) : List (DeliveryStatus × Nat) := w.state.deliveries.map fun r => (r.status, w.state.claimsOf r.id)

/-- A worker delivers, and a reconciler finds nothing to do. -/
def sent : List (Event Step Draw Input Change) := .arrive (.process "d") :: steps 0 13 1000 "a"

def reconciled : List (Event Step Draw Input Change) := .arrive .reconcile :: steps 1 5 1000 "b"

/-- A worker claims the delivery and stalls, its lease ends, and another one delivers. -/
def takenOver : List (Event Step Draw Input Change) :=
  [.arrive (.process "d"), .arrive (.process "d")] ++ steps 0 6 1000 "a" ++ [.other (.tick 200000)] ++ steps 1 13 201000 "b"

/-- The first worker meets the rate limit, and writes its failure. -/
def failure (me : Nat) : List (Event Step Draw Input Change) := [.advance me (answers 201000 .done "a" 9)] ++ steps me 2 201000 "a"

end Ana

open Ana in
theorem lifecycle_holds_ana : LifecycleHolds config (run sent) (run (sent ++ reconciled)) ∧
    seen (run (sent ++ reconciled)) = [(.DELIVERED, 1)] :=
  ⟨lifecycle_holds config tables sound sent reconciled (by decide +kernel), by decide +kernel⟩

open Ana in
/-- A stale worker makes a delivered delivery a failed one, and a lease that ran
out at the last attempt is followed by one more. So does a worker alone, where the
update of the reminder fails after the delivery was written. -/
theorem stale_worker_reopens_delivery :
    (seen (run takenOver) = [(.DELIVERED, 2)] ∧ config.maxAttempts = 1 ∧ seen (run (takenOver ++ failure 0)) = [(.FAILED, 2)]) ∧
    seen (run ([.arrive (.process "d")] ++ steps 0 12 1000 "a")) = [(.DELIVERED, 1)] ∧
    seen (run ([.arrive (.process "d")] ++ steps 0 12 1000 "a" ++ [.advance 0 (answers 1000 .undone "a" 1)] ++ steps 0 2 1000 "a")) =
      [(.FAILED, 1)] := by
  decide +kernel

/-!
# Reminder e-mail holds

Every run of any number of processors and reconcilers within the life of the
dispatch keys. A worker that stalls is one that crashed.
-/

open Threads Threads.Program

/-- A delivered e-mail was accepted by the provider, and none was accepted twice. -/
structure MailHolds (s : State) : Prop where
  sent : ∀ r ∈ s.deliveries, r.channel = .EMAIL → r.status = .DELIVERED → r.id ∈ s.accepted
  once : s.accepted.Nodup

/-- In a run where a worker that finds a key taken finds its e-mail accepted. -/
theorem mail_holds (c : Config) (s : State) (sound : Dispatch.Accounted s) (events : List (Event Step Draw Input Change))
    (careful : Runs.Along (step (platform c)) (Admitted Dispatch.discipline fun _ _ => True) ⟨s, []⟩ events) :
    MailHolds (events.foldl (step (platform c)) ⟨s, []⟩).state := by
  have holds := Contract.run careful ((Dispatch.contract c).start sound fun _ => trivial)
  have sound : Dispatch.Accounted (events.foldl (step (platform c)) ⟨s, []⟩).state := holds.1
  exact ⟨sound.delivered, sound.once⟩

namespace Ana

theorem accounted : Dispatch.Accounted tables :=
  ⟨by decide, by decide, by decide, by decide, nofun, by decide⟩

/-- What a test sees of the e-mail: the deliveries, and what was accepted. -/
def mail (w : Workers) : List (String × DeliveryStatus) × List String :=
  (w.state.deliveries.map fun r => (r.id, r.status), w.state.accepted)

/-- A worker delivers; after it another one is too late. -/
def twice : List (Event Step Draw Input Change) := sent ++ .arrive (.process "d") :: steps 1 2 1000 "b"

/-- A worker that has set the key, and does not call the provider. -/
def crashed : List (Event Step Draw Input Change) := .arrive (.process "d") :: steps 0 10 1000 "a"

/-- Its lease ends, and another one takes over. -/
def recovered : List (Event Step Draw Input Change) :=
  crashed ++ [.other (.tick 200000), .arrive (.process "d")] ++ steps 1 12 201000 "b"

/-- The first worker calls the provider after all: the message is rejected, and
the delivery that was marked stays so. -/
def rejected : List (Event Step Draw Input Change) :=
  recovered ++ [.advance 0 fun
    | .query _ => ⟨201000, .done, "a", 0⟩
    | .incr _ => .ok 1
    | .send _ => .error .rejected] ++ steps 0 1 201000 "a"

end Ana

open Ana in
theorem mail_holds_ana : MailHolds (run twice).state ∧ mail (run twice) = ([("d", .DELIVERED)], ["d"]) :=
  ⟨mail_holds config tables accounted twice (by decide +kernel), by decide +kernel⟩

open Ana in
/-- The key of a worker that crashed, or is still sending, makes the next one mark
the e-mail as delivered. -/
theorem duplicate_loses_mail :
    Runs.Along (step (platform config)) (Admitted Dispatch.withinLife fun _ _ => True) ⟨tables, []⟩ rejected ∧
    mail (run recovered) = ([("d", .DELIVERED)], []) ∧ mail (run rejected) = ([("d", .DELIVERED)], []) := by
  decide +kernel

end Vimla.Notifications
