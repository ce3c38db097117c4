import Vimla.Lib.Patches
import Vimla.Workspace.Objects

/-!
# The fields of an object

What a caller may supply, as fields of the object, and that the merge in memory
writes what the patch supplies where the row is as it was read.
-/

namespace Vimla.Workspace

open Patches Option

inductive TaskField | title | description | status | priority | dueAt
  deriving DecidableEq

inductive ReminderField | title | description | scheduledAt | timezone | linkedTaskId | status
  deriving DecidableEq

inductive ListField | title | description
  deriving DecidableEq

inductive NoteField | title | contentMarkdown | pinned
  deriving DecidableEq

inductive Field
  | archived
  | task (field : TaskField)
  | reminder (field : ReminderField)
  | list (field : ListField)
  | note (field : NoteField)
  deriving DecidableEq

abbrev TaskField.Value : TaskField → Type
  | .title => String
  | .description => Option String
  | .status => TaskStatus
  | .priority => Option TaskPriority
  | .dueAt => Option Int

abbrev ReminderField.Value : ReminderField → Type
  | .title | .timezone => String
  | .description | .linkedTaskId => Option String
  | .scheduledAt => Int
  | .status => ReminderStatus

abbrev ListField.Value : ListField → Type
  | .title => String
  | .description => Option String

abbrev NoteField.Value : NoteField → Type
  | .title | .contentMarkdown => String
  | .pinned => Bool

/-- A field of another kind has no value. -/
abbrev Field.Value : Field → Type
  | .archived => Bool
  | .task f => Option f.Value
  | .reminder f => Option f.Value
  | .list f => Option f.Value
  | .note f => Option f.Value

instance (f : Field) : DecidableEq f.Value := by
  rcases f with _ | f | f | f | f <;> try cases f
  all_goals infer_instance

def WorkspaceTask.get (row : WorkspaceTask) : (f : TaskField) → f.Value
  | .title => row.title
  | .description => row.description
  | .status => row.status
  | .priority => row.priority
  | .dueAt => row.dueAt

def WorkspaceReminder.get (row : WorkspaceReminder) : (f : ReminderField) → f.Value
  | .title => row.title
  | .description => row.description
  | .scheduledAt => row.scheduledAt
  | .timezone => row.timezone
  | .linkedTaskId => row.linkedTaskObjectId
  | .status => row.status

def WorkspaceList.get (row : WorkspaceList) : (f : ListField) → f.Value
  | .title => row.title
  | .description => row.description

def WorkspaceNote.get (row : WorkspaceNote) : (f : NoteField) → f.Value
  | .title => row.title
  | .contentMarkdown => row.contentMarkdown
  | .pinned => row.pinnedAt.isSome

def WorkspaceObject.get (row : WorkspaceObject) : (f : Field) → f.Value
  | .archived => row.archivedAt.isSome
  | .task f => row.task.map (·.get f)
  | .reminder f => row.reminder.map (·.get f)
  | .list f => row.list.map (·.get f)
  | .note f => row.note.map (·.get f)

def UpdateTask.get (input : UpdateTask) : (f : TaskField) → Option f.Value
  | .title => input.title
  | .description => input.description
  | .status => input.status
  | .priority => input.priority
  | .dueAt => input.dueAt

def AskedStatus.toStatus : AskedStatus → ReminderStatus
  | .PENDING => .PENDING
  | .CANCELED => .CANCELED

def UpdateReminder.get (input : UpdateReminder) : (f : ReminderField) → Option f.Value
  | .title => input.title
  | .description => input.description
  | .scheduledAt => input.scheduledAt
  | .timezone => input.timezone.filter (· ≠ "")
  | .linkedTaskId => input.linkedTaskId
  | .status => input.status.map AskedStatus.toStatus

def UpdateList.get (input : UpdateList) : (f : ListField) → Option f.Value
  | .title => input.title
  | .description => input.description

def UpdateNote.get (input : UpdateNote) : (f : NoteField) → Option f.Value
  | .title => input.title
  | .contentMarkdown => input.contentMarkdown
  | .pinned => input.pinned

def Update.archived : Update → Option Bool
  | .task input => input.archived
  | .reminder input => input.archived
  | .list input => input.archived
  | .note input => input.archived

def Patch.given : Patch → (f : Field) → Option f.Value
  | .call input, .archived => input.archived
  | .call (.task input), .task f => (input.get f).map some
  | .call (.reminder input), .reminder f => (input.get f).map some
  | .call (.list input), .list f => (input.get f).map some
  | .call (.note input), .note f => (input.get f).map some
  | .delivered, .reminder .status => some (some .DELIVERED)
  | .expired, .reminder .status => some (some .FAILED)
  | _, _ => none

/-- What an entry supplies to the object `id`. -/
def Entry.given (id : String) (entry : Entry) (f : Field) : Option f.Value :=
  if entry.id = id then entry.patch.given f else none

def Field.all : List Field :=
  .archived :: ([.title, .description, .status, .priority, .dueAt].map .task) ++
    ([.title, .description, .scheduledAt, .timezone, .linkedTaskId, .status].map .reminder) ++
    ([.title, .description].map .list) ++ ([.title, .contentMarkdown, .pinned].map .note)

theorem Field.mem_all (f : Field) : f ∈ Field.all := by
  cases f with
  | archived => exact List.mem_cons_self
  | task f | reminder f | list f | note f => cases f <;> decide

/-- The row has every field that the update does not supply as it was read. -/
def AsRead (input : Update) (existing row : WorkspaceObject) : Prop :=
  ∀ f : Field, (Patch.call input).given f = none → row.get f = existing.get f

instance (input : Update) (existing row : WorkspaceObject) : Decidable (AsRead input existing row) :=
  decidable_of_iff (∀ f ∈ Field.all, (Patch.call input).given f = none → row.get f = existing.get f)
    ⟨fun each f => each f f.mem_all, fun each f _ => each f⟩

variable {c : Config} {existing row : WorkspaceObject} {now : Int} {data : Data}

theorem stamped_isSome (flag : Option Bool) (at_ : Option Int) : (stamped flag at_ now).isSome = flag.getD at_.isSome := by
  cases flag with
  | none => rfl
  | some flag => cases flag <;> rfl

theorem getD_congr {α : Type} {given : Option α} {old new : α} (same : given = none → old = new) :
    given.getD new = given.getD old := by
  cases given with
  | none => exact (same rfl).symm
  | some v => rfl

/-- A flag: set as asked, or as it was read. -/
theorem stamped_writes {flag : Option Bool} {read at_ : Option Int} (same : flag = none → at_.isSome = read.isSome) :
    (stamped flag read now).isSome = flag.getD at_.isSome := by
  rw [stamped_isSome]
  exact getD_congr same

variable {at_ : Option Int}

theorem task_writes {input : UpdateTask} {old new : WorkspaceTask}
    (same : ∀ f, input.get f = none → new.get f = old.get f) (f : TaskField) :
    (((taskData input at_ old now).task new).get f) = (input.get f).getD (new.get f) := by
  have asked := getD_congr (same f)
  cases f <;> exact asked

theorem list_writes {input : UpdateList} {old new : WorkspaceList}
    (same : ∀ f, input.get f = none → new.get f = old.get f) (f : ListField) :
    (((listData input at_ old now).list new).get f) = (input.get f).getD (new.get f) := by
  have asked := getD_congr (same f)
  cases f <;> exact asked

theorem note_writes {input : UpdateNote} {old new : WorkspaceNote}
    (ok : noteData input at_ old now = .ok data) (same : ∀ f, input.get f = none → new.get f = old.get f) (f : NoteField) :
    (data.note new).get f = (input.get f).getD (new.get f) := by
  have asked := getD_congr (same f)
  simp only [noteData, bind, Except.bind] at ok
  split at ok
  · cases ok
  cases ok
  cases f with
  | pinned => exact stamped_writes (same .pinned)
  | title | contentMarkdown => exact asked

variable {old : WorkspaceReminder}

theorem nextStatus_ok {asked : Option AskedStatus} {state : ReminderStatus × Option Int}
    (ok : nextStatus asked old now = .ok state) : state.1 = (asked.map AskedStatus.toStatus).getD old.status := by
  unfold nextStatus at ok
  split at ok
  · cases ok
    rfl
  · split at ok
    · cases ok
    · cases ok
      rfl
  · cases ok
    rfl

theorem nextTimezone_ok {asked : Option String} {timezone : String}
    (ok : nextTimezone c asked old = .ok timezone) : timezone = (asked.filter (· ≠ "")).getD old.timezone := by
  unfold nextTimezone at ok
  split at ok
  · cases ok
    rfl
  split at ok
  · rename_i empty
    cases ok
    simp [empty, Option.filter]
  rename_i some
  unfold assertIanaTimeZone at ok
  split at ok
  · cases ok
    simp [some, Option.filter]
  · cases ok

theorem reminder_writes {input : UpdateReminder} {old new : WorkspaceReminder}
    (ok : reminderData c input at_ old now = .ok data) (same : ∀ f, input.get f = none → new.get f = old.get f)
    (f : ReminderField) : (data.reminder new).get f = (input.get f).getD (new.get f) := by
  have asked := getD_congr (same f)
  simp only [reminderData, bind, Except.bind] at ok
  split at ok
  · cases ok
  rename_i state status
  split at ok
  · cases ok
  rename_i timezone zone
  cases ok
  cases f with
  | title | description | scheduledAt | linkedTaskId => exact asked
  | timezone => exact (nextTimezone_ok zone).trans asked
  | status => exact (nextStatus_ok status).trans asked

variable {input : Update}

/-- An update stamps the object and writes no other kind. -/
theorem merge_shape (ok : merge c input existing now = .ok data) :
    data.archivedAt = stamped input.archived existing.archivedAt now ∧ (input.kind ≠ .TASK → data.task = id) ∧
      (input.kind ≠ .REMINDER → data.reminder = id) ∧ (input.kind ≠ .LIST → data.list = id) ∧
      (input.kind ≠ .NOTE → data.note = id) := by
  unfold merge at ok
  cases input <;> simp only [reminderData, noteData, bind, Except.bind] at ok <;> repeat' split at ok
  all_goals cases ok
  all_goals simp [Update.kind, Update.archived, taskData, listData]

theorem map_given {α β : Type} {given : Option α} {get : β → α} {row : Option β} {f : β → β} {new : β} (here : row = some new)
    (writes : get (f new) = given.getD (get new)) :
    (row.map f).map get = (given.map some).getD (row.map get) := by
  subst here
  cases given <;> simpa using writes

/-- What an update writes is its patch on the row, where the row is as it was read. -/
theorem merge_writes (ok : merge c input existing now = .ok data) (has : row.has input.kind)
    (asRead : AsRead input existing row) :
    Writes WorkspaceObject.get Patch.given (.call input) row (row.written data) := by
  obtain ⟨archived, task, reminder, list, note⟩ := merge_shape ok
  intro f
  cases f with
  | archived =>
    show data.archivedAt.isSome = _
    rw [archived]
    exact stamped_writes (asRead .archived)
  | task f =>
    cases input with
    | task input =>
      obtain ⟨new, here⟩ := isSome_iff_exists.1 has
      simp only [merge] at ok
      split at ok
      · cases ok
      rename_i old there
      cases ok
      refine map_given here (task_writes (fun f absent => ?_) f)
      simpa [WorkspaceObject.get, here, there] using asRead (.task f) (by simp [Patch.given, absent])
    | _ => simp [WorkspaceObject.get, WorkspaceObject.written, Patch.given, task nofun]
  | reminder f =>
    cases input with
    | reminder input =>
      obtain ⟨new, here⟩ := isSome_iff_exists.1 has
      simp only [merge] at ok
      split at ok
      · cases ok
      rename_i old there
      refine map_given here (reminder_writes ok (fun f absent => ?_) f)
      simpa [WorkspaceObject.get, here, there] using asRead (.reminder f) (by simp [Patch.given, absent])
    | _ => simp [WorkspaceObject.get, WorkspaceObject.written, Patch.given, reminder nofun]
  | list f =>
    cases input with
    | list input =>
      obtain ⟨new, here⟩ := isSome_iff_exists.1 has
      simp only [merge] at ok
      split at ok
      · cases ok
      rename_i old there
      cases ok
      refine map_given here (list_writes (fun f absent => ?_) f)
      simpa [WorkspaceObject.get, here, there] using asRead (.list f) (by simp [Patch.given, absent])
    | _ => simp [WorkspaceObject.get, WorkspaceObject.written, Patch.given, list nofun]
  | note f =>
    cases input with
    | note input =>
      obtain ⟨new, here⟩ := isSome_iff_exists.1 has
      simp only [merge] at ok
      split at ok
      · cases ok
      rename_i old there
      refine map_given here (note_writes ok (fun f absent => ?_) f)
      simpa [WorkspaceObject.get, here, there] using asRead (.note f) (by simp [Patch.given, absent])
    | _ => simp [WorkspaceObject.get, WorkspaceObject.written, Patch.given, note nofun]

/-- What is written of a task: nothing, or `completedAt` with the status. -/
theorem merge_task (ok : merge c input existing now = .ok data) :
    data.task = id ∨ ∀ task, (data.task task).status = .DONE ↔ (data.task task).completedAt.isSome := by
  cases input with
  | task input =>
    simp only [merge] at ok
    split at ok
    · cases ok
    cases ok
    right
    simp only [taskData, completedAtForStatus]
    split <;> simp [*]
  | _ => exact .inl ((merge_shape ok).2.1 nofun)

end Vimla.Workspace
