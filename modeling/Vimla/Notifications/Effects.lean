import Vimla.Notifications.Processor

/-!
# What each step does

The effect of every step of the programs on the state, by its label.
-/

namespace Vimla.Notifications

open Threads Threads.Program

variable {c : Config} {s t : State} {me : Nat}

/-- A step that has nothing to do with the deliveries. -/
def Step.calm : Step → Bool
  | .query (.claim _ _) | .query (.outcome _ _ _) | .query (.create _) | .query (.recover _) => false
  | _ => true

/-- A step of `sendEmailOnce`. -/
def Step.mail : Step → Bool
  | .incr _ | .query (.setNx _) | .send _ | .query (.del _) => true
  | _ => false

/-- The steps that a call takes. -/
def Input.takes : Input → Step → Bool
  | .process _, .query (.create _) | .process _, .query (.recover _) => false
  | .process _, _ => true
  | .reconcile, .query (.claim _ _) | .reconcile, .query (.outcome _ _ _) => false
  | .reconcile, l => !l.mail

/-- What a query that is executed makes of the state. -/
def Written (c : Config) (me : Nat) (s : State) (d : At) (t : State) : Query → Prop
  | .claim deliveryId now => s.deliveries.any (claimable now deliveryId) = true ∧ t = { s with
      deliveries := s.deliveries.map fun r =>
        if claimable now deliveryId r then r.claimed d.uuid (now + c.leaseSeconds * 1000) else r
      claims := s.claims ++ [⟨deliveryId, d.uuid, me⟩] }
  | .outcome lease _ o => ∃ now, t = { s with
      deliveries := Rows.update NotificationDelivery.id lease.deliveryId (fun r => o.apply now r) s.deliveries }
  | .create input => ∃ now, (s.deliveries.any fun r => r.key = (input.row d.uuid now).key) = false ∧ t = { s with
      deliveries := s.deliveries ++ [input.row d.uuid now], created := s.created ++ [d.uuid] }
  | .recover now => t = { s with deliveries := s.deliveries.map fun r => if recoverable now r then r.recovered now else r }
  | .setNx id => (s.keys.any fun k => k.notificationId = id ∧ s.now < k.expiresAt) = false ∧ t = { s with
      keys := s.keys.filter (fun k => k.notificationId ≠ id) ++ [⟨id, s.now + IDEMPOTENCY_TTL_SECONDS * 1000, me⟩] }
  | .del id => t = { s with keys := s.keys.filter fun k => k.notificationId ≠ id }
  | .createNotification _ _ => ∃ notifications, t = { s with notifications := notifications }
  | .reminderDelivered _ id => ∃ now, t = { s with objects := s.objects.map (Workspace.delivered id now) }
  | .expire id => t = { s with objects := s.objects.map (Workspace.expired id) }
  | _ => False

def Effect (c : Config) (me : Nat) : (l : Step) → State → Draw l → State → Prop
  | .query q, s, d, t => t = s ∨ d.fate ≠ .undone ∧ Written c me s d t q
  | .incr _, s, _, t => t = s
  | .send id, s, d, t => t = match d with
    | .ok _ => { s with accepted := s.accepted ++ [id] }
    | .error _ => s

/-- The effects of a program that takes these steps. -/
def Effects (c : Config) (me : Nat) (takes : Step → Bool) (l : Step) (s : State) (d : Draw l) (t : State) : Prop :=
  takes l = true ∧ Effect c me l s d t

variable {takes : Step → Bool} {α : Type}

theorem effects_query {q : Query} {f : State → At → Except Failure (α × State)} (allowed : takes (.query q) = true)
    (writes : ∀ s d a t, f s d = .ok (a, t) → t = s ∨ Written c me s d t q) : (query q f).Steps (Effects c me takes) :=
  steps_transact (fun _ _ => ⟨allowed, .inl rfl⟩) fun s d a t ok fate =>
    ⟨allowed, (writes s d a t ok).imp id fun written => ⟨fate, written⟩⟩

theorem effects_read {q : Query} {f : State → α} (allowed : takes (.query q) = true) : (read q f).Steps (Effects c me takes) :=
  effects_query allowed fun s d a t ok => by
    cases ok
    exact .inl rfl

theorem effects_clock (allowed : takes (.query .clock) = true) : clock.Steps (Effects c me takes) :=
  acts_ask fun _ _ => ⟨allowed, .inl rfl⟩

variable {deliveryId : String}

theorem effects_enforce (allowed : ∀ scope, takes (.incr scope) = true) (scope : Scope) (max : Nat) :
    (enforce scope max).Steps (Effects c me takes) := by
  refine acts_bind (acts_bind (acts_ask fun s d => ⟨allowed _, rfl⟩) fun count => ?_) fun count => ?_
  · cases count <;> trivial
  · split <;> trivial

theorem effects_consumeBudget (allowed : ∀ scope, takes (.incr scope) = true) : (consumeBudget c).Steps (Effects c me takes) := by
  refine acts_bind (acts_attempt ?_) fun result => ?_
  · exact acts_bind (effects_enforce allowed _ _) fun _ => acts_bind (effects_enforce allowed _ _) fun _ =>
      effects_enforce allowed _ _
  · split
    · trivial
    · trivial
    · split <;> trivial

theorem effects_sendEmailOnce (allowed : ∀ l, l.mail = true → takes l = true) (id : String) :
    (sendEmailOnce c me id).Steps (Effects c me takes) := by
  refine acts_bind (effects_consumeBudget fun _ => allowed _ rfl) fun _ => acts_bind (effects_query (allowed _ rfl) fun s d a t ok => ?_) fun claimed => ?_
  · split at ok
    · cases ok
      exact .inl rfl
    · rename_i free
      cases ok
      exact .inr ⟨Bool.eq_false_iff.2 free, rfl⟩
  split
  swap
  · trivial
  refine acts_bind (acts_attempt (acts_bind (acts_ask fun s d => ⟨allowed _ rfl, ?_⟩) fun r => acts_lift r)) fun result => ?_
  · cases d <;> rfl
  split
  · trivial
  · refine acts_bind (effects_query (allowed _ rfl) fun s d a t ok => ?_) fun _ => trivial
    cases ok
    exact .inr rfl

theorem effects_deliverInApp (create : ∀ userId key, takes (.query (.createNotification userId key)) = true)
    (find : ∀ userId key, takes (.query (.findNotification userId key)) = true) (userId : String) (reminder : ReminderSourceState)
    (key : String) : (deliverInApp userId reminder key).Steps (Effects c me takes) := by
  refine acts_bind (acts_attempt (effects_query (create _ _) fun s d a t ok => ?_)) fun result => ?_
  · split at ok <;> cases ok
    exact .inr ⟨_, rfl⟩
  split
  · trivial
  · refine acts_bind (effects_read (find _ _)) fun existing => ?_
    cases existing <;> trivial
  · trivial

theorem effects_markReminderDelivered (channel : Channel) (id : String) (now : Int)
    (allowed : takes (.query (.reminderDelivered channel id)) = true) :
    (markReminderDelivered channel id now).Steps (Effects c me takes) :=
  effects_query allowed fun _ _ _ _ ok => by
    cases ok
    exact .inr ⟨now, rfl⟩

theorem process_takes_mail (l : Step) (mail : l.mail = true) : (Input.process deliveryId).takes l = true := by
  unfold Step.mail at mail
  split at mail <;> first | rfl | cases mail

theorem effects_settle (lease : Lease) (channel : Channel) (o : Outcome) (now : Int) :
    (settle lease channel o now).Steps (Effects c me (Input.process deliveryId).takes) := by
  refine effects_query rfl fun s d a t ok => ?_
  split at ok <;> cases ok
  exact .inr ⟨now, rfl⟩

theorem effects_handleError (lease : Lease) (found : NotificationDelivery) (now : Int) (e : Failure) :
    (handleError c lease found now e).Steps (Effects c me (Input.process deliveryId).takes) := by
  unfold handleError
  simp only
  split
  · exact acts_bind (acts_ask fun s d => ⟨rfl, .inl rfl⟩) fun jitter => acts_bind (effects_settle lease .EMAIL _ now) fun _ => trivial
  · exact acts_bind (effects_settle lease .EMAIL _ now) fun _ => trivial

theorem effects_deliver (lease : Lease) (found : NotificationDelivery) (now : Int) :
    (deliver c me lease found now).Steps (Effects c me (Input.process deliveryId).takes) := by
  refine acts_bind (effects_read rfl) fun reminder => acts_bind (effects_read rfl) fun user => ?_
  split
  · exact acts_bind (effects_settle _ _ _ _) fun _ => trivial
  split
  · split
    · exact acts_bind (effects_deliverInApp (fun _ _ => rfl) (fun _ _ => rfl) _ _ _) fun _ => acts_bind (effects_settle _ _ _ _)
        fun _ => acts_bind (effects_markReminderDelivered _ _ _ rfl) fun _ => trivial
    · refine acts_bind (acts_attempt ?_) fun result => ?_
      · exact acts_bind (effects_sendEmailOnce process_takes_mail _) fun _ => acts_bind (effects_settle _ _ _ _) fun _ =>
          acts_bind (effects_markReminderDelivered _ _ _ rfl) fun _ => trivial
      · split
        · trivial
        · exact effects_handleError _ _ _ _
  · exact acts_bind (effects_settle _ _ _ _) fun _ => trivial

theorem effects_claim (id : String) (now : Int) (allowed : takes (.query (.claim id now)) = true) :
    (claim c me id now).Steps (Effects c me takes) := by
  refine effects_query allowed fun s d a t ok => ?_
  split at ok
  · rename_i hit
    cases ok
    exact .inr ⟨hit, rfl⟩
  · cases ok
    exact .inl rfl

theorem effects_process (id : String) : (process c me id).Steps (Effects c me (Input.process deliveryId).takes) := by
  refine acts_bind (effects_clock rfl) fun now => acts_bind (effects_read rfl) fun existing => ?_
  split
  · trivial
  split
  · trivial
  refine acts_bind (effects_claim id now rfl) fun lease => ?_
  split
  · trivial
  refine acts_bind (effects_read rfl) fun found => ?_
  split
  · trivial
  · exact effects_deliver _ _ _

theorem effects_ensureDelivery (e : EnsureDelivery) (now : Int) : (ensureDelivery e now).Steps (Effects c me Input.reconcile.takes) := by
  refine acts_bind (acts_attempt (effects_query rfl fun s d a t ok => ?_)) fun result => ?_
  · simp only at ok
    split at ok
    · cases ok
    rename_i free
    cases ok
    exact .inr ⟨now, Bool.eq_false_iff.2 free, rfl⟩
  · split <;> trivial

theorem effects_ensureChannels (reminder : Due) (expired : Bool) (now : Int) (channels : List Channel)
    (counters : ReminderReconcileCounters) : (ensureChannels reminder expired now channels counters).Steps (Effects c me Input.reconcile.takes) := by
  induction channels generalizing counters with
  | nil => trivial
  | cons channel rest ih => exact acts_bind (effects_ensureDelivery _ now) fun created => ih _

theorem effects_createDue (users : List User) (now : Int) (due : List Due) (counters : ReminderReconcileCounters) :
    (createDue c users now due counters).Steps (Effects c me Input.reconcile.takes) := by
  induction due generalizing counters with
  | nil => trivial
  | cons reminder rest ih =>
    unfold createDue
    split
    · exact ih _
    split
    · refine acts_bind (effects_query rfl fun s d a t ok => ?_) fun _ =>
        acts_bind (effects_ensureChannels _ _ _ _ _) fun counters => ih _
      cases ok
      exact .inr rfl
    split
    · exact ih _
    · exact acts_bind (effects_ensureChannels _ _ _ _ _) fun counters => ih _

theorem effects_rounds (now : Int) (left : Nat) (counters : ReminderReconcileCounters) :
    (rounds c now left counters).Steps (Effects c me Input.reconcile.takes) := by
  induction left generalizing counters with
  | zero => trivial
  | succ left ih =>
    refine acts_bind (acts_bind (effects_read rfl) fun due => acts_bind (effects_read rfl) fun users => ?_) fun (dueCount, after) => ?_
    · exact acts_bind (effects_createDue _ _ _ _) fun counters => trivial
    · simp only
      split
      · trivial
      · exact ih _

theorem effects_enqueueAll (allowed : ∀ id, takes (.query (.enqueue id)) = true) (ids : List String)
    (counters : ReminderReconcileCounters) : (enqueueAll ids counters).Steps (Effects c me takes) := by
  induction ids generalizing counters with
  | nil => trivial
  | cons id rest ih =>
    refine acts_bind (acts_attempt (effects_query (allowed id) fun s d a t ok => ?_)) fun result => ?_
    · cases ok
      exact .inl rfl
    · split
      · exact ih _
      · exact ih _

theorem effects_reconcile : (reconcile c).Steps (Effects c me Input.reconcile.takes) := by
  refine acts_bind (effects_clock rfl) fun now => acts_bind (effects_rounds now 20 _) fun counters => ?_
  refine acts_bind (effects_query rfl fun s d a t ok => ?_) fun _ => ?_
  · cases ok
    exact .inr rfl
  · exact acts_bind (effects_read rfl) fun ids => effects_enqueueAll (fun _ => rfl) ids counters

theorem effects_call (input : Input) : (call c me input).Steps (Effects c me input.takes) := by
  cases input with
  | process deliveryId => exact acts_bind (effects_process deliveryId) fun _ => trivial
  | reconcile => exact acts_bind effects_reconcile fun _ => trivial

end Vimla.Notifications
