import Vimla.Operator.Records

/-!
# Plans of the text that the run has now

`continueRun` adds an answer to the text of the run and takes it back to where
its first planner pass began. A pass that began before knows nothing of the
answer.
-/

namespace Vimla.Operator

open List Option Tables

variable {op : OperatorRuntime}

/-- The planner's output, the steps and the question that are stored were computed from the text of the run. -/
structure FromCurrentText (T : Tables) : Prop where
  output : ∀ planned ∈ T.run.plannerOutput, planned.userText = T.run.userText
  steps : ∀ s ∈ T.steps, s.userText = T.run.userText
  question : ∀ asked ∈ T.run.clarificationQuestion, asked.userText = T.run.userText

/-- The text behind an output, steps or a question that the turn stores. -/
def Point.stores (T : Tables) : Point → Option String
  | publishing planned => if T.run.status = .PLANNING ∧ T.run.plannerOutput = none then some planned.userText else none
  | replacing planned steps =>
    if T.run.status = .PLANNING ∧ (T.missingSteps steps).length ≠ 0 then some planned.userText else none
  | clarifying asked => if T.run.status = .EXECUTING ∨ T.run.status = .PLANNING then some asked.userText else none
  | _ => none

namespace FromCurrentText

variable {T after : Tables} (current : FromCurrentText T)
include current

theorem of_rows (rows : ∀ s' ∈ after.steps, ∃ s ∈ T.steps, SameCall s s')
    (output : after.run.plannerOutput = T.run.plannerOutput) (userText : after.run.userText = T.run.userText)
    (question : after.run.clarificationQuestion = T.run.clarificationQuestion) : FromCurrentText after where
  output := by rw [output, userText]; exact current.output
  steps := by
    rw [userText]
    intro s' mem
    obtain ⟨s, here, same⟩ := rows s' mem
    rw [same.userText]
    exact current.steps s here
  question := by rw [question, userText]; exact current.question

theorem of_run (steps : after.steps = T.steps) (output : after.run.plannerOutput = T.run.plannerOutput)
    (userText : after.run.userText = T.run.userText)
    (question : after.run.clarificationQuestion = T.run.clarificationQuestion) : FromCurrentText after :=
  current.of_rows (fun s mem => ⟨s, steps ▸ mem, .refl s⟩) output userText question

end FromCurrentText

variable {chats : Chats} {snapshot : Option ContextSnapshot} {point : Point} {T : Tables}

/-- A turn that stores nothing of an older text leaves nothing of an older text. -/
theorem Change.fromCurrentText {after : Tables} (change : Change op chats snapshot T point after)
    (current : FromCurrentText T) (stores : ∀ userText ∈ point.stores T, userText = T.run.userText) :
    FromCurrentText after := by
  cases change with
  | same => exact current
  | published planned opened empty =>
    have now : planned.userText = T.run.userText := stores _ (if_pos ⟨opened, empty⟩)
    refine ⟨fun planned' stored => ?_, current.steps, current.question⟩
    obtain rfl := some.inj stored
    exact now
  | created planned steps opened =>
    refine ⟨current.output, fun s mem => ?_, current.question⟩
    obtain mem | ⟨p, id, rfl, missing, -, -⟩ := mem_createSteps mem
    · exact current.steps s mem
    · exact stores _ (if_pos ⟨opened, (length_pos_of_mem missing).ne'⟩)
  | clarified asked question opened =>
    have now : asked.userText = T.run.userText := stores _ (if_pos opened)
    refine ⟨current.output, current.steps, fun asked' stored => ?_⟩
    obtain rfl := some.inj stored
    exact now
  | awaiting | began | succeeded | failed | rotated | finished => exact current.of_run rfl rfl rfl rfl
  | continued => exact ⟨by simp [restart], by simp [restart], by simp [restart]⟩
  | accepted | canceled | revoked | performed | stepFailed =>
    refine current.of_rows (updateSteps_rows ?_) rfl rfl rfl
    exact fun _ => ⟨rfl, rfl, rfl, rfl, rfl⟩

/-- What is left of an older text shows that the turn stored it. -/
theorem stores_current {draw : Draw} (current : FromCurrentText (turn op T chats snapshot draw point).1) :
    ∀ userText ∈ point.stores T, userText = T.run.userText := by
  intro userText stored
  cases point with
  | publishing planned =>
    simp only [Point.stores] at stored
    split at stored
    · rename_i guard
      obtain rfl := some.inj stored
      rw [turn, publish, if_pos guard] at current
      exact current.output planned rfl
    · cases stored
  | replacing planned steps =>
    simp only [Point.stores] at stored
    split at stored
    · rename_i guard
      obtain rfl := some.inj stored
      have some_steps : steps.length ≠ 0 := fun none => by
        rw [length_eq_zero_iff.1 none] at guard
        exact guard.2 rfl
      rw [turn, replaceSteps, if_neg some_steps, if_neg (by simp [guard.1])] at current
      obtain ⟨p, missing⟩ := exists_mem_of_length_pos (Nat.pos_of_ne_zero guard.2)
      obtain ⟨i, bound, rfl⟩ := getElem_of_mem missing
      have numbered : ((T.missingSteps steps)[i], T.nextStepId + i) ∈ (T.missingSteps steps).zipIdx T.nextStepId :=
        mk_add_mem_zipIdx_iff_getElem?.2 (getElem?_eq_getElem bound)
      exact current.steps _ (mem_append_right _ (mem_map.2 ⟨_, numbered, rfl⟩))
    · cases stored
  | clarifying asked =>
    simp only [Point.stores] at stored
    split at stored
    · rename_i guard
      obtain rfl := some.inj stored
      rw [turn, closing, awaitClarification, if_pos guard] at current
      exact current.question
        ⟨op.sanitizePublicText asked.question OPERATOR_RUNTIME_LIMITS.clarificationMax, asked.userText⟩ rfl
    · cases stored
  | _ => cases stored

/-- No turn stores what was computed from an older text. -/
def StoresCurrent (w : World) : Event → Prop
  | .turn id _ => ∀ userText ∈ (w.calls id).stores w.tables, userText = w.tables.run.userText
  | .request _ _ | .chats _ => True

theorem storesCurrent_iff {w : World} (ev : Event) (current : FromCurrentText w.tables) :
    StoresCurrent w ev ↔ FromCurrentText (w.step op ev).tables := by
  cases ev with
  | request id request =>
    rw [World.request_tables]
    exact iff_of_true trivial current
  | chats chats => exact iff_of_true trivial current
  | turn id draw => exact ⟨(w.turn_change op id draw).fromCurrentText current, stores_current⟩

/-- What a run stores is computed from its text, in every state of exactly those runs in which no turn stores what was
computed from an older one. -/
theorem planning_fresh (op : OperatorRuntime) (new : NewRun) (events : List Event) :
    Runs.Along (World.step op) StoresCurrent new.world events ↔
      Runs.Along (World.step op) (fun w ev => FromCurrentText (w.step op ev).tables) new.world events := by
  have start : FromCurrentText new.world.tables := by constructor <;> simp [NewRun.world, NewRun.row]
  exact Runs.along_iff (P := fun w => FromCurrentText w.tables) (fun w ev current => storesCurrent_iff ev current)
    (fun w ev stores current => (storesCurrent_iff ev current).1 stores) start

namespace Overtaken

open Js (Json)

/-- The planner asks when. -/
def asksWhen : String :=
  "\x7b\"intent\":\"clarify\",\"userMessage\":\"?\",\"clarificationQuestion\":\"?\",\"commands\":[]\x7d"

def asksWhenPlan : Json :=
  .object [("intent", .string "clarify"), ("userMessage", .string "?"), ("clarificationQuestion", .string "?"), ("commands", .array [])]

/-- The planner creates a task. -/
def creates : String :=
  "\x7b\"intent\":\"act\",\"userMessage\":\".\",\"commands\":[\x7b\"tool\":\"tasks.create\",\"args\":\x7b\"title\":\"A\"\x7d\x7d]\x7d"

def create : Json := .object [("tool", .string "tasks.create"), ("args", .object [("title", .string "A")])]

/-- The planner creates a task and changes the notifications, for which it needs a confirmation. -/
def mutes : String :=
  "\x7b\"intent\":\"act\",\"userMessage\":\".\",\"commands\":[\x7b\"tool\":\"tasks.create\",\"args\":\x7b\"title\":\"A\"\x7d\x7d,\x7b\"tool\":\"notifications.updatePreferences\",\"args\":\x7b\"reminderEmailEnabled\":false\x7d\x7d]\x7d"

def mute : Json :=
  .object [("tool", .string "notifications.updatePreferences"), ("args", .object [("reminderEmailEnabled", .boolean false)])]

def acts (commands : List Json) : Json :=
  .object [("intent", .string "act"), ("userMessage", .string "."), ("commands", .array commands)]

/-- Reads the outputs above, whose arguments pass their schemas and whose texts hold nothing to strip. -/
def runtime : OperatorRuntime where
  jsonParse text :=
    if text = asksWhen then some asksWhenPlan
    else if text = creates then some (acts [create])
    else if text = mutes then some (acts [create, mute])
    else none
  schemas := ⟨fun _ args => some args, fun _ _ args data parsed => by rw [some.inj parsed]⟩
  sanitizePublicText text _ := text
  hashConfirmationToken token := token
  operatorMaxToolsPerRun := 8
  confirmationTtl := 900000
  plannerEnabled := true

def new : NewRun := ⟨"alice", "Call Bob", .PERSONAL, none, none, none, ⟨{}, []⟩⟩

/-- A turn in which the planner, if it is asked, answers this. -/
def draw (answer : String) (now : Nat := 0) : Draw := ⟨false, answer, none, "token", now, .self, .ok none, none, true⟩

def turns (id count : Nat) (answer : String) : List Event := List.replicate count (.turn id (draw answer))

/-- Call 0 has asked the planner; call 1 plans the same run and asks the user, who answers; then call 0 goes on. -/
def overtaken : List Event :=
  turns 0 1 asksWhen ++ .request 1 .createRun :: turns 1 5 asksWhen ++
    .request 2 (.continueRun "Tomorrow" "answer") :: turns 2 1 asksWhen ++ turns 0 1 asksWhen

theorem overtaken_stored : (new.world.run runtime overtaken).tables.run.plannerOutput = some ⟨asksWhen, "Call Bob"⟩ ∧
    (new.world.run runtime overtaken).tables.run.userText = "Call Bob\nTomorrow" := by
  decide +kernel

end Overtaken

/-- The first pass stores its output on the run that has been answered. -/
theorem overtaken_pass_is_stale :
    ¬ FromCurrentText (Overtaken.new.world.run Overtaken.runtime Overtaken.overtaken).tables := by
  intro current
  obtain ⟨stored, userText⟩ := Overtaken.overtaken_stored
  have same := current.output _ stored
  rw [userText] at same
  exact absurd same (by decide)

end Vimla.Operator
