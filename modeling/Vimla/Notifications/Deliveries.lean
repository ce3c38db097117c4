import Vimla.Workspace.Objects

/-!
# Notification deliveries

The tables of the reminder delivery, what decides whether a reminder is
delivered, and when a failed attempt is repeated.
-/

namespace Vimla.Notifications

open Workspace (WorkspaceObject ReminderStatus)

inductive NotificationType | REMINDER_DUE
  deriving DecidableEq

inductive SourceType | WORKSPACE_REMINDER
  deriving DecidableEq

inductive Channel | IN_APP | EMAIL
  deriving DecidableEq

inductive DeliveryStatus | PENDING | PROCESSING | DELIVERED | RETRYABLE | FAILED | SKIPPED
  deriving DecidableEq

inductive NotificationErrorCategory | timeout | rejected | ambiguous | network | config | abuse | duplicate
  deriving DecidableEq

inductive DeliveryErrorClass | retryable | final | ambiguous
  deriving DecidableEq

inductive DeliverySkipReason
  | canceled | rescheduled | archived | deleted | expired | preference_disabled | source_unavailable | no_verified_email | invalid
  deriving DecidableEq

inductive ErrorCode
  | skipped (reason : DeliverySkipReason)
  | category (category : NotificationErrorCategory)
  deriving DecidableEq

structure NotificationDelivery where
  id : String
  userId : String
  notificationType : NotificationType
  sourceType : SourceType
  sourceId : String
  occurrenceKey : String
  channel : Channel
  status : DeliveryStatus
  scheduledFor : Int
  nextAttemptAt : Option Int
  attemptCount : Nat
  processingToken : Option String
  processingUntil : Option Int
  deliveredAt : Option Int
  failedAt : Option Int
  skippedAt : Option Int
  providerMessageId : Option String
  errorCode : Option ErrorCode
  errorClass : Option DeliveryErrorClass
  userNotificationId : Option String
  deriving DecidableEq

structure UserNotification where
  id : String
  userId : String
  type : NotificationType
  sourceType : SourceType
  sourceId : String
  occurrenceKey : String

structure Preference where
  reminderInAppEnabled : Option Bool
  reminderEmailEnabled : Option Bool

structure User where
  id : String
  email : String
  emailVerified : Bool
  preference : Option Preference

def DeliveryStatus.terminal : DeliveryStatus → Bool
  | .DELIVERED | .FAILED | .SKIPPED => true
  | _ => false

structure ReminderChannelPreferences where
  inAppEnabled : Bool
  emailEnabled : Bool

def DEFAULT_REMINDER_PREFERENCES : ReminderChannelPreferences := ⟨true, false⟩

def resolveReminderPreferences (stored : Option Preference) : ReminderChannelPreferences where
  inAppEnabled := (stored.bind Preference.reminderInAppEnabled).getD DEFAULT_REMINDER_PREFERENCES.inAppEnabled
  emailEnabled := (stored.bind Preference.reminderEmailEnabled).getD DEFAULT_REMINDER_PREFERENCES.emailEnabled

def desiredReminderChannels (preferences : ReminderChannelPreferences) : List Channel :=
  (if preferences.inAppEnabled then [.IN_APP] else []) ++ if preferences.emailEnabled then [.EMAIL] else []

def reminderOccurrenceKey (reminderId : String) (scheduledAt : Int) : String :=
  "reminder" ++ ":" ++ reminderId ++ ":" ++ Js.toISOString scheduledAt

def isPastMaxLateness (scheduledFor now maxLatenessMinutes : Int) : Bool := now - scheduledFor > maxLatenessMinutes * 60000

structure ReminderSourceState where
  reminderId : String
  ownerUserId : String
  status : ReminderStatus
  scheduledAt : Int
  archivedAt : Option Int
  deletedAt : Option Int

/-- What a delivery is decided on. -/
structure DeliveryQuestion where
  deliveryUserId : String
  channel : Channel
  occurrenceKey : String
  scheduledFor : Int
  now : Int
  maxLatenessMinutes : Int
  reminder : Option ReminderSourceState
  preferences : ReminderChannelPreferences
  emailVerified : Bool
  hasEmail : Bool

/-- `none` is to deliver. -/
def evaluateReminderDelivery (input : DeliveryQuestion) : Option DeliverySkipReason :=
  match input.reminder with
  | none => some .source_unavailable
  | some reminder =>
    if reminder.deletedAt.isSome then some .deleted
    else if reminder.archivedAt.isSome then some .archived
    else if reminder.ownerUserId ≠ input.deliveryUserId then some .source_unavailable
    else if reminder.status = .CANCELED then some .canceled
    else if reminder.status ≠ .PENDING ∧ reminder.status ≠ .DELIVERED then some .invalid
    else if reminderOccurrenceKey reminder.reminderId reminder.scheduledAt ≠ input.occurrenceKey then some .rescheduled
    else if isPastMaxLateness input.scheduledFor input.now input.maxLatenessMinutes then some .expired
    else if input.channel = .IN_APP ∧ ¬ input.preferences.inAppEnabled then some .preference_disabled
    else if input.channel = .EMAIL ∧ ¬ input.preferences.emailEnabled then some .preference_disabled
    else if input.channel = .EMAIL ∧ (¬ input.emailVerified ∨ ¬ input.hasEmail) then some .no_verified_email
    else none

def classifyDeliveryError (category : NotificationErrorCategory) : DeliveryErrorClass :=
  match category with
  | .network | .timeout | .abuse => .retryable
  | .rejected | .config => .final
  | .ambiguous | .duplicate => .ambiguous

def shouldRetry (errorClass : DeliveryErrorClass) (attemptCount maxAttempts : Nat) : Bool :=
  errorClass = .retryable ∧ attemptCount < maxAttempts

/-- `jitter` is `Math.floor(delay * 0.1 * Math.random())`. -/
def nextAttemptAt (attemptCount : Nat) (now backoffBaseMs backoffCapMs jitter : Int) : Int :=
  now + min backoffCapMs (backoffBaseMs * 2 ^ (attemptCount - 1)) + jitter

end Vimla.Notifications
