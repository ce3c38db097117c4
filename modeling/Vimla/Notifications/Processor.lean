import Vimla.Notifications.Deliveries

/-!
# The delivery processor and the reconciler

`NotificationDeliveryProcessor.process` with `sendEmailOnce`, and
`ReminderReconciler.reconcile`, as programs of atomic steps: one for each query,
each operation of the coordination store and each call of the e-mail provider.
-/

namespace Vimla.Notifications

open Threads Threads.Program Workspace

/-- `notify:idemp:…` in the coordination store; no operation reads the owner. -/
structure DispatchKey where
  notificationId : String
  expiresAt : Int
  owner : Nat

/-- A claim that was executed. -/
structure Claim where
  deliveryId : String
  token : String
  worker : Nat

/-- The tables, the store and the time; no step reads the last three. -/
structure State where
  objects : List WorkspaceObject
  users : List User
  deliveries : List NotificationDelivery
  notifications : List UserNotification
  keys : List DispatchKey
  now : Int
  claims : List Claim
  /-- The deliveries whose e-mail the provider has accepted. -/
  accepted : List String
  /-- Every id of a delivery. -/
  created : List String

structure Config where
  maxLatenessMinutes : Int
  maxAttempts : Nat
  maxAttempts_pos : 0 < maxAttempts
  backoffBaseMs : Int
  backoffCapMs : Int
  leaseSeconds : Int
  batchSize : Nat
  emailPerDestPerHour : Nat
  emailPerIpPerHour : Nat
  emailGlobalPerMinute : Nat
  failClosed : Bool

inductive Failure
  | delivery (category : NotificationErrorCategory)
  | abuse
  /-- A conflict on a unique index. -/
  | unique
  | other

def deliveryErrorCategory : Failure → NotificationErrorCategory
  | .delivery category => category
  | .abuse => .abuse
  | .unique | .other => .ambiguous

inductive ProcessOutcome
  | missing | already_terminal | not_claimed | delivered | delivered_duplicate | retryable | failed
  | skipped (reason : DeliverySkipReason)

structure ReminderReconcileCounters where
  checked : Nat
  due : Nat
  deliveryCreated : Nat
  requeued : Nat
  skipped : Nat
  failed : Nat

/-- The claim of a worker. The source passes the id of the delivery only. -/
structure Lease where
  deliveryId : String
  token : String
  until_ : Int

/-- What an update by id makes of a delivery. -/
inductive Outcome
  | delivered (userNotificationId : Option String) (providerMessageId : Option (Option String))
  | skipped (reason : DeliverySkipReason)
  | retryable (retryAt : Int) (category : NotificationErrorCategory) (errorClass : DeliveryErrorClass)
  | failed (category : NotificationErrorCategory) (errorClass : DeliveryErrorClass)

/-- The input of `ensureDelivery`. -/
structure EnsureDelivery where
  userId : String
  sourceId : String
  scheduledFor : Int
  channel : Channel
  expired : Bool

inductive Query
  | clock | random
  | find (deliveryId : String) | claim (deliveryId : String) (now : Int) | reload (deliveryId : String)
  | reminder (sourceId : String) | user (userId : String)
  | createNotification (userId occurrenceKey : String) | findNotification (userId occurrenceKey : String)
  | outcome (lease : Lease) (channel : Channel) (outcome : Outcome)
  | reminderDelivered (channel : Channel) (reminderId : String)
  | setNx (notificationId : String) | del (notificationId : String)
  | due | owners | expire (objectId : String) | create (input : EnsureDelivery)
  | recover (now : Int) | executable | enqueue (deliveryId : String)

/-- The counters of the budget. -/
inductive Scope | dest | ip | global
  deriving DecidableEq

inductive Step
  | query (q : Query)
  | incr (scope : Scope)
  | send (notificationId : String)

/-- `now()`, what becomes of the query, `randomUUID()` and the jitter. -/
structure At where
  clock : Int
  fate : Fate
  uuid : String
  jitter : Int

abbrev Draw : Step → Type
  | .query _ => At
  | .incr _ => Except Unit Nat
  | .send _ => Except NotificationErrorCategory (Option String)

abbrev Process := Program Step Draw State Failure

def query {α : Type} (q : Query) (f : State → At → Except Failure (α × State)) : Process α :=
  transact (.query q) At.fate .other f

def read {α : Type} (q : Query) (f : State → α) : Process α := query q fun s _ => .ok (f s, s)

def clock : Process Int := ask (.query .clock) fun s (d : At) => (d.clock, s)

def delivery (deliveryId : String) (s : State) : Option NotificationDelivery :=
  Rows.find NotificationDelivery.id deliveryId s.deliveries

def IDEMPOTENCY_TTL_SECONDS : Int := 86400

structure SendResult where
  duplicate : Bool
  providerMessageId : Option String

section
variable (c : Config)

def incr (scope : Scope) : Process Nat :=
  (ask (.incr scope) fun s (d : Except Unit Nat) => (d, s)).bind fun count =>
    match count with
    | .ok count => .pure count
    | .error _ => .fail .other

def enforce (scope : Scope) (max : Nat) : Process Unit :=
  (incr scope).bind fun count => if count > max then .fail .abuse else .pure ()

def consumeBudget : Process Unit :=
  ((enforce .dest c.emailPerDestPerHour).bind fun _ => (enforce .ip c.emailPerIpPerHour).bind fun _ =>
    enforce .global c.emailGlobalPerMinute).attempt.bind fun result =>
  match result with
  | .ok _ => .pure ()
  | .error .abuse => .fail .abuse
  | .error _ => if c.failClosed then .fail .abuse else .pure ()

/-- `SET … EX NX`: a key whose time is over is not there. -/
def claimDispatch (me : Nat) (notificationId : String) : Process Bool :=
  query (.setNx notificationId) fun s _ =>
    if s.keys.any fun k => k.notificationId = notificationId ∧ s.now < k.expiresAt then .ok (false, s)
    else .ok (true, { s with
      keys := s.keys.filter (fun k => k.notificationId ≠ notificationId) ++
        [⟨notificationId, s.now + IDEMPOTENCY_TTL_SECONDS * 1000, me⟩] })

def releaseDispatch (notificationId : String) : Process Unit :=
  query (.del notificationId) fun s _ =>
    .ok ((), { s with keys := s.keys.filter fun k => k.notificationId ≠ notificationId })

/-- The call of the provider; the state remembers that it has accepted. -/
def sendEmail (notificationId : String) : Process (Option String) :=
  (ask (.send notificationId) fun s (d : Except NotificationErrorCategory (Option String)) =>
    match d with
    | .ok messageId => (.ok messageId, { s with accepted := s.accepted ++ [notificationId] })
    | .error category => (.error (.delivery category), s)).bind lift

def sendEmailOnce (me : Nat) (notificationId : String) : Process SendResult :=
  (consumeBudget c).bind fun _ =>
  (claimDispatch me notificationId).bind fun claimed =>
  if claimed then
    (sendEmail notificationId).attempt.bind fun result =>
    match result with
    | .ok providerMessageId => .pure ⟨false, providerMessageId⟩
    | .error error => (releaseDispatch notificationId).bind fun _ => .fail error
  else .pure ⟨true, none⟩

def claimable (now : Int) (deliveryId : String) (r : NotificationDelivery) : Bool :=
  r.id = deliveryId ∧ (r.status = .PENDING ∨ r.status = .RETRYABLE ∨ r.status = .PROCESSING ∧ r.processingUntil.any (· < now))

def NotificationDelivery.claimed (token : String) (until_ : Int) (r : NotificationDelivery) : NotificationDelivery :=
  { r with
    status := .PROCESSING
    processingToken := some token
    processingUntil := some until_
    attemptCount := r.attemptCount + 1 }

/-- The lease, where one row was updated. -/
def claim (me : Nat) (deliveryId : String) (now : Int) : Process (Option Lease) :=
  query (.claim deliveryId now) fun s d =>
    let lease : Lease := ⟨deliveryId, d.uuid, now + c.leaseSeconds * 1000⟩
    if s.deliveries.any (claimable now deliveryId) then
      .ok (some lease, { s with
        deliveries := s.deliveries.map fun r => if claimable now deliveryId r then r.claimed lease.token lease.until_ else r
        claims := s.claims ++ [⟨deliveryId, lease.token, me⟩] })
    else .ok (none, s)

def Outcome.apply (now : Int) (r : NotificationDelivery) : Outcome → NotificationDelivery
  | .delivered userNotificationId providerMessageId => { r with
      status := .DELIVERED
      deliveredAt := some now
      nextAttemptAt := none
      processingToken := none
      processingUntil := none
      errorCode := none
      errorClass := none
      userNotificationId := userNotificationId.or r.userNotificationId
      providerMessageId := providerMessageId.getD r.providerMessageId }
  | .skipped reason => { r with
      status := .SKIPPED
      skippedAt := some now
      nextAttemptAt := none
      processingToken := none
      processingUntil := none
      errorCode := some (.skipped reason)
      errorClass := some .final }
  | .retryable retryAt category errorClass => { r with
      status := .RETRYABLE
      nextAttemptAt := some retryAt
      processingToken := none
      processingUntil := none
      errorCode := some (.category category)
      errorClass := some errorClass }
  | .failed category errorClass => { r with
      status := .FAILED
      failedAt := some now
      nextAttemptAt := none
      processingToken := none
      processingUntil := none
      errorCode := some (.category category)
      errorClass := some (if errorClass = .retryable then .final else errorClass) }

/-- `update({ where: { id } })`. -/
def settle (lease : Lease) (channel : Channel) (outcome : Outcome) (now : Int) : Process Unit :=
  query (.outcome lease channel outcome) fun s _ =>
    if s.deliveries.any fun r => r.id = lease.deliveryId then
      .ok ((), { s with
        deliveries := Rows.update NotificationDelivery.id lease.deliveryId (fun r => outcome.apply now r) s.deliveries })
    else .error .other

def loadReminder (sourceId : String) : Process (Option ReminderSourceState) :=
  read (.reminder sourceId) fun s =>
    (s.objects.find? fun row => row.id = sourceId ∧ row.kind = .REMINDER).bind fun row =>
      row.reminder.map fun reminder =>
        ⟨row.id, row.personalOwnerUserId, reminder.status, reminder.scheduledAt, row.archivedAt, row.deletedAt⟩

def markReminderDelivered (channel : Channel) (reminderId : String) (now : Int) : Process Unit :=
  query (.reminderDelivered channel reminderId) fun s _ =>
    .ok ((), { s with objects := s.objects.map (Workspace.delivered reminderId now) })

def deliverInApp (userId : String) (reminder : ReminderSourceState) (occurrenceKey : String) : Process String :=
  (query (.createNotification userId occurrenceKey) fun s d =>
    if s.notifications.any fun n => n.userId = userId ∧ n.type = .REMINDER_DUE ∧ n.occurrenceKey = occurrenceKey then
      .error .unique
    else .ok (d.uuid, { s with notifications := s.notifications ++
      [⟨d.uuid, userId, .REMINDER_DUE, .WORKSPACE_REMINDER, reminder.reminderId, occurrenceKey⟩] })).attempt.bind fun result =>
  match result with
  | .ok id => .pure id
  | .error .unique =>
    (read (.findNotification userId occurrenceKey) fun s =>
      s.notifications.find? fun n => n.userId = userId ∧ n.type = .REMINDER_DUE ∧ n.occurrenceKey = occurrenceKey).bind fun existing =>
    match existing with
    | none => .fail .unique
    | some existing => .pure existing.id
  | .error error => .fail error

/-- What the processor does on an error of the e-mail. -/
def handleError (lease : Lease) (delivery : NotificationDelivery) (now : Int) (error : Failure) : Process ProcessOutcome :=
  let category := deliveryErrorCategory error
  let errorClass := classifyDeliveryError category
  if shouldRetry errorClass delivery.attemptCount c.maxAttempts then
    (ask (.query .random) fun s (d : At) => (d.jitter, s)).bind fun jitter =>
    let retryAt := nextAttemptAt delivery.attemptCount now c.backoffBaseMs c.backoffCapMs jitter
    (settle lease .EMAIL (.retryable retryAt category errorClass) now).bind fun _ => .pure .retryable
  else (settle lease .EMAIL (.failed category errorClass) now).bind fun _ => .pure .failed

/-- The `try` of the e-mail. -/
def attemptEmail (me : Nat) (lease : Lease) (delivery : NotificationDelivery) (reminder : ReminderSourceState) (now : Int) :
    Process ProcessOutcome :=
  (sendEmailOnce c me delivery.id).bind fun result =>
  let providerMessageId := result.providerMessageId.or (if result.duplicate then some "duplicate" else none)
  (settle lease .EMAIL (.delivered none (some providerMessageId)) now).bind fun _ =>
  (markReminderDelivered .EMAIL reminder.reminderId now).bind fun _ =>
  .pure (if result.duplicate then .delivered_duplicate else .delivered)

def deliverEmail (me : Nat) (lease : Lease) (delivery : NotificationDelivery) (reminder : ReminderSourceState) (now : Int) :
    Process ProcessOutcome :=
  (attemptEmail c me lease delivery reminder now).attempt.bind fun result =>
  match result with
  | .ok outcome => .pure outcome
  | .error error => handleError c lease delivery now error

/-- What follows the claim. -/
def deliver (me : Nat) (lease : Lease) (delivery : NotificationDelivery) (now : Int) : Process ProcessOutcome :=
  (loadReminder delivery.sourceId).bind fun reminder =>
  (read (.user delivery.userId) fun s => Rows.find User.id delivery.userId s.users).bind fun user =>
  match evaluateReminderDelivery
      { deliveryUserId := delivery.userId
        channel := delivery.channel
        occurrenceKey := delivery.occurrenceKey
        scheduledFor := delivery.scheduledFor
        now := now
        maxLatenessMinutes := c.maxLatenessMinutes
        reminder := reminder
        preferences := resolveReminderPreferences (user.bind User.preference)
        emailVerified := user.any User.emailVerified
        hasEmail := user.any fun user => user.email ≠ "" } with
  | some reason => (settle lease delivery.channel (.skipped reason) now).bind fun _ => .pure (.skipped reason)
  | none =>
    match reminder, user with
    | some reminder, some _ =>
      match delivery.channel with
      | .IN_APP =>
        (deliverInApp delivery.userId reminder delivery.occurrenceKey).bind fun notificationId =>
        (settle lease .IN_APP (.delivered (some notificationId) none) now).bind fun _ =>
        (markReminderDelivered .IN_APP reminder.reminderId now).bind fun _ => .pure .delivered
      | .EMAIL => deliverEmail c me lease delivery reminder now
    | _, _ => (settle lease delivery.channel (.skipped .source_unavailable) now).bind fun _ =>
        .pure (.skipped .source_unavailable)

def process (me : Nat) (deliveryId : String) : Process ProcessOutcome :=
  clock.bind fun now =>
  (read (.find deliveryId) (delivery deliveryId)).bind fun existing =>
  match existing with
  | none => .pure .missing
  | some existing =>
    if existing.status.terminal then .pure .already_terminal
    else
      (claim c me deliveryId now).bind fun lease =>
      match lease with
      | none => .pure .not_claimed
      | some lease =>
        (read (.reload deliveryId) (delivery deliveryId)).bind fun found =>
        match found with
        | none => .pure .missing
        | some found => deliver c me lease found now

/-- A due reminder with its object. -/
structure Due where
  objectId : String
  personalOwnerUserId : String
  scheduledAt : Int

def dueReminders (now : Int) (s : State) : List Due :=
  (Js.sort (fun (left right : Due) => (compare left.scheduledAt right.scheduledAt).then (compare left.objectId right.objectId))
    (s.objects.filterMap fun row => row.reminder.bind fun reminder =>
      if row.kind = .REMINDER ∧ row.deletedAt = none ∧ row.archivedAt = none ∧ reminder.status = .PENDING ∧
          reminder.scheduledAt ≤ now then
        some ⟨row.id, row.personalOwnerUserId, reminder.scheduledAt⟩
      else none)).take c.batchSize

/-- The row that `create` inserts. -/
def EnsureDelivery.row (input : EnsureDelivery) (id : String) (now : Int) : NotificationDelivery where
  id := id
  userId := input.userId
  notificationType := .REMINDER_DUE
  sourceType := .WORKSPACE_REMINDER
  sourceId := input.sourceId
  occurrenceKey := reminderOccurrenceKey input.sourceId input.scheduledFor
  channel := input.channel
  status := if input.expired then .SKIPPED else .PENDING
  scheduledFor := input.scheduledFor
  nextAttemptAt := if input.expired then none else some input.scheduledFor
  attemptCount := 0
  processingToken := none
  processingUntil := none
  deliveredAt := none
  failedAt := none
  skippedAt := if input.expired then some now else none
  providerMessageId := none
  errorCode := if input.expired then some (.skipped .expired) else none
  errorClass := if input.expired then some .final else none
  userNotificationId := none

/-- The columns of the unique index. -/
def NotificationDelivery.key (r : NotificationDelivery) : SourceType × String × String × Channel :=
  (r.sourceType, r.sourceId, r.occurrenceKey, r.channel)

def ensureDelivery (input : EnsureDelivery) (now : Int) : Process Bool :=
  (query (.create input) fun s d =>
    let row := input.row d.uuid now
    if s.deliveries.any fun r => r.key = row.key then .error .unique
    else .ok ((), { s with deliveries := s.deliveries ++ [row], created := s.created ++ [row.id] })).attempt.bind fun result =>
  match result with
  | .ok _ => .pure true
  | .error .unique => .pure false
  | .error error => .fail error

def expireReminder (objectId : String) : Process Unit :=
  query (.expire objectId) fun s _ => .ok ((), { s with objects := s.objects.map (Workspace.expired objectId) })

def ensureChannels (reminder : Due) (expired : Bool) (now : Int) :
    List Channel → ReminderReconcileCounters → Process ReminderReconcileCounters
  | [], counters => .pure counters
  | channel :: rest, counters =>
    (ensureDelivery ⟨reminder.personalOwnerUserId, reminder.objectId, reminder.scheduledAt, channel, expired⟩ now).bind fun created =>
    ensureChannels reminder expired now rest
      { counters with
        deliveryCreated := if created then counters.deliveryCreated + 1 else counters.deliveryCreated
        skipped := if expired then counters.skipped + 1 else counters.skipped }

def createDue (users : List User) (now : Int) : List Due → ReminderReconcileCounters → Process ReminderReconcileCounters
  | [], counters => .pure counters
  | reminder :: rest, counters =>
    match Rows.find User.id reminder.personalOwnerUserId users with
    | none => createDue users now rest { counters with skipped := counters.skipped + 1 }
    | some user =>
      if isPastMaxLateness reminder.scheduledAt now c.maxLatenessMinutes then
        (expireReminder reminder.objectId).bind fun _ =>
        (ensureChannels reminder true now [.IN_APP, .EMAIL] counters).bind fun counters => createDue users now rest counters
      else
        match desiredReminderChannels (resolveReminderPreferences user.preference) with
        | [] => createDue users now rest { counters with skipped := counters.skipped + 1 }
        | channels => (ensureChannels reminder false now channels counters).bind fun counters => createDue users now rest counters

def createDueDeliveries (now : Int) (counters : ReminderReconcileCounters) : Process (Nat × ReminderReconcileCounters) :=
  (read .due (dueReminders c now)).bind fun due =>
  (read .owners fun s => s.users.filter fun user => due.any fun reminder => reminder.personalOwnerUserId = user.id).bind fun users =>
  (createDue c users now due { counters with checked := counters.checked + due.length, due := counters.due + due.length }).bind
    fun counters => .pure (due.length, counters)

/-- The rounds that are left. -/
def rounds (now : Int) : Nat → ReminderReconcileCounters → Process ReminderReconcileCounters
  | 0, counters => .pure counters
  | left + 1, before =>
    (createDueDeliveries c now before).bind fun (dueCount, counters) =>
    if dueCount < c.batchSize ∨ ¬ (counters.deliveryCreated > before.deliveryCreated ∨ counters.skipped > before.skipped) then
      .pure counters
    else rounds now left counters

def recoverable (now : Int) (r : NotificationDelivery) : Bool := r.status = .PROCESSING ∧ r.processingUntil.any (· < now)

def NotificationDelivery.recovered (now : Int) (r : NotificationDelivery) : NotificationDelivery :=
  { r with status := .RETRYABLE, nextAttemptAt := some now, processingToken := none, processingUntil := none }

/-- The update of the rows whose lease is over. -/
def recover (now : Int) : Process Unit :=
  query (.recover now) fun s _ =>
    .ok ((), { s with deliveries := s.deliveries.map fun r => if recoverable now r then r.recovered now else r })

def executable (now : Int) (s : State) : List String :=
  ((Js.sort (fun (left right : NotificationDelivery) =>
      (compare left.scheduledFor right.scheduledFor).then (compare left.id right.id))
    (s.deliveries.filter fun r => (r.status = .PENDING ∨ r.status = .RETRYABLE) ∧ r.nextAttemptAt.all (· ≤ now))).take
      (min (c.batchSize * 10) 2000)).map NotificationDelivery.id

def enqueueAll : List String → ReminderReconcileCounters → Process ReminderReconcileCounters
  | [], counters => .pure counters
  | deliveryId :: rest, counters =>
    (query (.enqueue deliveryId) fun s _ => .ok ((), s)).attempt.bind fun result =>
    match result with
    | .ok _ => enqueueAll rest { counters with requeued := counters.requeued + 1 }
    | .error _ => enqueueAll rest { counters with failed := counters.failed + 1 }

def requeueExecutable (now : Int) (counters : ReminderReconcileCounters) : Process ReminderReconcileCounters :=
  (recover now).bind fun _ =>
  (read .executable (executable c now)).bind fun ids => enqueueAll ids counters

def reconcile : Process ReminderReconcileCounters :=
  clock.bind fun now =>
  (rounds c now 20 ⟨0, 0, 0, 0, 0, 0⟩).bind fun counters => requeueExecutable c now counters

inductive Input
  | process (deliveryId : String)
  | reconcile

inductive Result
  | processed (outcome : ProcessOutcome)
  | reconciled (counters : ReminderReconcileCounters)

def call (me : Nat) : Input → Process Result
  | .process deliveryId => (process c me deliveryId).bind fun outcome => .pure (.processed outcome)
  | .reconcile => (reconcile c).bind fun counters => .pure (.reconciled counters)

/-- Time passes; the workspace and the accounts are edited. -/
inductive Change
  | tick (elapsed : Nat)
  | edit (objects : List WorkspaceObject) (users : List User)

def State.change (s : State) : Change → State
  | .tick elapsed => { s with now := s.now + elapsed }
  | .edit objects users => { s with objects := objects, users := users }

def platform : System Step Draw State Failure Result Input Change where
  program := call c
  environment := State.change

end

end Vimla.Notifications
