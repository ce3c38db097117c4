import Vimla.Lib.Dates
import Vimla.Lib.Rows
import Vimla.Lib.Sorting
import Vimla.Lib.Transactions
import Vimla.Lib.Utf16

/-!
# Workspace objects

`update` of the task, reminder, list and note services, as programs of atomic
steps: the read of the row, the read of a linked task, the write and the read
that answers. The two statements of the reminder delivery are changes from outside.
-/

namespace Vimla.Workspace

open Threads Threads.Program

inductive Kind | TASK | REMINDER | LIST | NOTE
  deriving DecidableEq

inductive TaskStatus | TODO | IN_PROGRESS | DONE | CANCELED
  deriving DecidableEq

inductive TaskPriority | LOW | NORMAL | HIGH
  deriving DecidableEq

inductive ReminderStatus | PENDING | CANCELED | DELIVERED | FAILED
  deriving DecidableEq

inductive ListType | PLAIN | CHECKLIST
  deriving DecidableEq

structure WorkspaceTask where
  title : String
  description : Option String
  status : TaskStatus
  priority : Option TaskPriority
  dueAt : Option Int
  completedAt : Option Int
  assignedByUserId : Option String
  deriving DecidableEq

structure WorkspaceReminder where
  title : String
  description : Option String
  scheduledAt : Int
  timezone : String
  status : ReminderStatus
  linkedTaskObjectId : Option String
  canceledAt : Option Int
  deliveredAt : Option Int
  deriving DecidableEq

structure WorkspaceListItem where
  id : String
  text : String
  position : Int
  completedAt : Option Int
  deriving DecidableEq

structure WorkspaceList where
  type : ListType
  title : String
  description : Option String
  items : List WorkspaceListItem
  deriving DecidableEq

structure WorkspaceNote where
  title : String
  contentMarkdown : String
  pinnedAt : Option Int
  deriving DecidableEq

/-- A row with the row of its kind. -/
structure WorkspaceObject where
  id : String
  kind : Kind
  personalOwnerUserId : String
  archivedAt : Option Int
  deletedAt : Option Int
  task : Option WorkspaceTask
  reminder : Option WorkspaceReminder
  list : Option WorkspaceList
  note : Option WorkspaceNote
  deriving DecidableEq

inductive WorkspaceErrorCode | NOT_FOUND | INVALID_TIMEZONE | PAYLOAD_TOO_LARGE | STATUS_INVALID
  deriving DecidableEq

inductive Failure
  | workspace (code : WorkspaceErrorCode) (message : String)
  /-- A query that failed. -/
  | database

/-- A field is `none` where the key is absent, and `some none` where it is `null`. -/
structure UpdateTask where
  title : Option String
  description : Option (Option String)
  status : Option TaskStatus
  priority : Option (Option TaskPriority)
  dueAt : Option (Option Int)
  archived : Option Bool
  deriving DecidableEq

inductive AskedStatus | PENDING | CANCELED
  deriving DecidableEq

structure UpdateReminder where
  title : Option String
  description : Option (Option String)
  scheduledAt : Option Int
  timezone : Option String
  linkedTaskId : Option (Option String)
  status : Option AskedStatus
  archived : Option Bool
  deriving DecidableEq

structure UpdateList where
  title : Option String
  description : Option (Option String)
  archived : Option Bool
  deriving DecidableEq

structure UpdateNote where
  title : Option String
  contentMarkdown : Option String
  pinned : Option Bool
  archived : Option Bool
  deriving DecidableEq

inductive Update
  | task (input : UpdateTask)
  | reminder (input : UpdateReminder)
  | list (input : UpdateList)
  | note (input : UpdateNote)
  deriving DecidableEq

/-- A call of `update` of the service of the input's kind. -/
structure Call where
  userId : String
  id : String
  input : Update

inductive View
  | task (id title : String) (description : Option String) (status : TaskStatus) (priority : Option TaskPriority)
      (dueAt completedAt archivedAt assignedByUserId : Option String)
  | reminder (id title : String) (description : Option String) (scheduledAt timezone : String) (status : ReminderStatus)
      (linkedTaskId archivedAt : Option String)
  | list (id : String) (type : ListType) (title : String) (description : Option String)
      (items : List (String × String × Int × Option String)) (archivedAt : Option String)
  | note (id title contentMarkdown : String) (pinnedAt archivedAt : Option String)

def Update.kind : Update → Kind
  | .task _ => .TASK
  | .reminder _ => .REMINDER
  | .list _ => .LIST
  | .note _ => .NOTE

def notFound : Kind → Failure
  | .TASK => .workspace .NOT_FOUND "Task not found"
  | .REMINDER => .workspace .NOT_FOUND "Reminder not found"
  | .LIST => .workspace .NOT_FOUND "List not found"
  | .NOTE => .workspace .NOT_FOUND "Note not found"

def iso (value : Option Int) : Option String := value.map Js.toISOString

def toView (row : WorkspaceObject) : Kind → Except Failure View
  | .TASK => match row.task with
    | none => .error (notFound .TASK)
    | some task => .ok (.task row.id task.title task.description task.status task.priority (iso task.dueAt)
        (iso task.completedAt) (iso row.archivedAt) task.assignedByUserId)
  | .REMINDER => match row.reminder with
    | none => .error (notFound .REMINDER)
    | some reminder => .ok (.reminder row.id reminder.title reminder.description (Js.toISOString reminder.scheduledAt)
        reminder.timezone reminder.status reminder.linkedTaskObjectId (iso row.archivedAt))
  | .LIST => match row.list with
    | none => .error (notFound .LIST)
    | some list =>
      let items := Js.sort (fun left right => compare left.position right.position) list.items
      .ok (.list row.id list.type list.title list.description
        (items.map fun item => (item.id, item.text, item.position, iso item.completedAt)) (iso row.archivedAt))
  | .NOTE => match row.note with
    | none => .error (notFound .NOTE)
    | some note => .ok (.note row.id note.title note.contentMarkdown (iso note.pinnedAt) (iso row.archivedAt))

/-- What the services take from outside. -/
structure Config where
  isIanaTimeZone : String → Bool

def noteContentMax : Nat := 50000

def assertNoteContentSize (content : String) : Except Failure Unit :=
  if Js.length content > noteContentMax then .error (.workspace .PAYLOAD_TOO_LARGE "Note is too large") else .ok ()

def assertIanaTimeZone (c : Config) (value : String) : Except Failure String :=
  if c.isIanaTimeZone value then .ok value else .error (.workspace .INVALID_TIMEZONE "Invalid timezone")

def completedAtForStatus (status : TaskStatus) (at_ : Int) : Option Int := if status = .DONE then some at_ else none

/-- `archived` and `pinned`: a flag that is kept as the time it was set. -/
def stamped (flag : Option Bool) (existing : Option Int) (now : Int) : Option Int :=
  match flag with
  | none => existing
  | some true => some (existing.getD now)
  | some false => none

/-- The columns that an update writes, from the row it has read. -/
structure Data where
  archivedAt : Option Int
  task : WorkspaceTask → WorkspaceTask
  reminder : WorkspaceReminder → WorkspaceReminder
  list : WorkspaceList → WorkspaceList
  note : WorkspaceNote → WorkspaceNote

def taskData (input : UpdateTask) (archivedAt : Option Int) (existing : WorkspaceTask) (now : Int) : Data :=
  let nextStatus := input.status.getD existing.status
  let completedAt := completedAtForStatus nextStatus (existing.completedAt.getD now)
  { archivedAt := stamped input.archived archivedAt now
    task := fun row => { row with
      title := input.title.getD existing.title
      description := input.description.getD existing.description
      status := nextStatus
      priority := input.priority.getD existing.priority
      dueAt := input.dueAt.getD existing.dueAt
      completedAt := completedAt }
    reminder := id
    list := id
    note := id }

/-- `status` and `canceledAt` of an update of a reminder. -/
def nextStatus (asked : Option AskedStatus) (existing : WorkspaceReminder) (now : Int) :
    Except Failure (ReminderStatus × Option Int) :=
  match asked with
  | some .CANCELED => .ok (.CANCELED, some (existing.canceledAt.getD now))
  | some .PENDING =>
    if existing.status = .DELIVERED ∨ existing.status = .FAILED then
      .error (.workspace .STATUS_INVALID "Delivered reminders cannot be reopened")
    else .ok (.PENDING, none)
  | none => .ok (existing.status, existing.canceledAt)

def nextTimezone (c : Config) (asked : Option String) (existing : WorkspaceReminder) : Except Failure String :=
  match asked with
  | none => .ok existing.timezone
  | some timezone => if timezone = "" then .ok existing.timezone else assertIanaTimeZone c timezone

def reminderData (c : Config) (input : UpdateReminder) (archivedAt : Option Int) (existing : WorkspaceReminder) (now : Int) :
    Except Failure Data := do
  let (status, canceledAt) ← nextStatus input.status existing now
  let timezone ← nextTimezone c input.timezone existing
  .ok
    { archivedAt := stamped input.archived archivedAt now
      task := id
      reminder := fun row => { row with
        title := input.title.getD existing.title
        description := input.description.getD existing.description
        scheduledAt := input.scheduledAt.getD existing.scheduledAt
        timezone := timezone
        status := status
        canceledAt := canceledAt
        linkedTaskObjectId := input.linkedTaskId.getD existing.linkedTaskObjectId }
      list := id
      note := id }

def listData (input : UpdateList) (archivedAt : Option Int) (existing : WorkspaceList) (now : Int) : Data where
  archivedAt := stamped input.archived archivedAt now
  task := id
  reminder := id
  list := fun row => { row with
    title := input.title.getD existing.title
    description := input.description.getD existing.description }
  note := id

def noteData (input : UpdateNote) (archivedAt : Option Int) (existing : WorkspaceNote) (now : Int) : Except Failure Data := do
  input.contentMarkdown.forM assertNoteContentSize
  .ok
    { archivedAt := stamped input.archived archivedAt now
      task := id
      reminder := id
      list := id
      note := fun _ =>
        { title := input.title.getD existing.title
          contentMarkdown := input.contentMarkdown.getD existing.contentMarkdown
          pinnedAt := stamped input.pinned existing.pinnedAt now } }

/-- What an update makes of the row it has read. -/
def merge (c : Config) (input : Update) (existing : WorkspaceObject) (now : Int) : Except Failure Data :=
  match input with
  | .task input => match existing.task with
    | none => .error (notFound .TASK)
    | some task => .ok (taskData input existing.archivedAt task now)
  | .reminder input => match existing.reminder with
    | none => .error (notFound .REMINDER)
    | some reminder => reminderData c input existing.archivedAt reminder now
  | .list input => match existing.list with
    | none => .error (notFound .LIST)
    | some list => .ok (listData input existing.archivedAt list now)
  | .note input => match existing.note with
    | none => .error (notFound .NOTE)
    | some note => noteData input existing.archivedAt note now

/-- The row of its kind is there. -/
def WorkspaceObject.has (row : WorkspaceObject) : Kind → Bool
  | .TASK => row.task.isSome
  | .REMINDER => row.reminder.isSome
  | .LIST => row.list.isSome
  | .NOTE => row.note.isSome

def WorkspaceObject.written (data : Data) (row : WorkspaceObject) : WorkspaceObject :=
  { row with
    archivedAt := data.archivedAt
    task := row.task.map data.task
    reminder := row.reminder.map data.reminder
    list := row.list.map data.list
    note := row.note.map data.note }

inductive Step
  | load (call : Call)
  | linkedTask (call : Call) (taskId : String)
  | write (call : Call) (existing : WorkspaceObject)
  | get (call : Call)

/-- `new Date()` and what becomes of the query. -/
structure At where
  clock : Int
  fate : Fate

abbrev Draw : Step → Type := fun _ => At

/-- What one write supplies. -/
inductive Patch
  | call (input : Update)
  | delivered
  | expired
  deriving DecidableEq

/-- A write to the object `id`, and the thread that made it. -/
structure Entry where
  id : String
  writer : Option Nat
  patch : Patch

/-- The table; no statement reads the log. -/
structure Tables where
  objects : List WorkspaceObject
  log : List Entry

abbrev Process := Program Step Draw Tables Failure

def query {α : Type} (l : Step) (f : Tables → At → Except Failure (α × Tables)) : Process α :=
  transact l At.fate .database f

def Tables.find (s : Tables) (userId id : String) (kind : Kind) : Option WorkspaceObject :=
  s.objects.find? fun row => row.id = id ∧ row.personalOwnerUserId = userId ∧ row.kind = kind ∧ row.deletedAt = none

def load (l : Step) (call : Call) : Process WorkspaceObject :=
  query l fun s _ =>
    match s.find call.userId call.id call.input.kind with
    | none => .error (notFound call.input.kind)
    | some row => .ok (row, s)

def assertLinkedTask (call : Call) : Option String → Process Unit
  | none => .pure ()
  | some taskId => query (.linkedTask call taskId) fun s _ =>
    match s.find call.userId taskId .TASK with
    | none => .error (.workspace .NOT_FOUND "Linked task not found")
    | some _ => .ok ((), s)

/-- The linked task of an update that names one. -/
def Update.linked : Update → Option String
  | .reminder input => input.linkedTaskId.join.filter (· ≠ "")
  | _ => none

section
variable (c : Config)

def write (me : Nat) (call : Call) (existing : WorkspaceObject) : Process Unit :=
  query (.write call existing) fun s d =>
    match merge c call.input existing d.clock with
    | .error e => .error e
    | .ok data =>
      if s.objects.any fun row => row.id = call.id ∧ row.has call.input.kind then
        .ok ((), { objects := Rows.update WorkspaceObject.id call.id (WorkspaceObject.written data) s.objects
                   log := s.log ++ [⟨call.id, some me, .call call.input⟩] })
      else .error .database

def update (me : Nat) (call : Call) : Process View :=
  (load (.load call) call).bind fun existing =>
  (lift (toView existing call.input.kind)).bind fun _ =>
  (assertLinkedTask call call.input.linked).bind fun _ =>
  (write c me call existing).bind fun _ =>
  (load (.get call) call).bind fun row => lift (toView row call.input.kind)

end

/-- `updateMany` of the pending reminder of an object. -/
def updatePending (id : String) (p : WorkspaceReminder → Bool) (f : WorkspaceReminder → WorkspaceReminder)
    (row : WorkspaceObject) : WorkspaceObject :=
  if row.id = id then { row with reminder := row.reminder.map fun r => if r.status = .PENDING ∧ p r then f r else r } else row

/-- The statement of `markReminderDelivered`. -/
def delivered (id : String) (now : Int) : WorkspaceObject → WorkspaceObject :=
  updatePending id (fun r => r.scheduledAt ≤ now) fun r => { r with status := .DELIVERED, deliveredAt := some now }

/-- The statement of the reconciler on a reminder that is too late. -/
def expired (id : String) : WorkspaceObject → WorkspaceObject :=
  updatePending id (fun _ => true) fun r => { r with status := .FAILED }

inductive Change
  | delivered (id : String) (now : Int)
  | expired (id : String)

/-- The statement and, if it has changed the row, its entry. -/
def Tables.apply (s : Tables) (id : String) (f : WorkspaceObject → WorkspaceObject) (patch : Patch) : Tables where
  objects := s.objects.map f
  log := if s.objects.map f = s.objects then s.log else s.log ++ [⟨id, none, patch⟩]

def Tables.change (s : Tables) : Change → Tables
  | .delivered id now => s.apply id (Workspace.delivered id now) .delivered
  | .expired id => s.apply id (Workspace.expired id) .expired

def service (c : Config) : System Step Draw Tables Failure View Call Change where
  program := update c
  environment := Tables.change

end Vimla.Workspace
