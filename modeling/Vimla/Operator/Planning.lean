import Vimla.Lib.Matching
import Vimla.Operator.Freshness

/-!
# Runs whose planner passes are not overtaken

While no pass that works from an older text finds its guard open, all passes
work from one output. The steps are those of its plan, a run that executes does
not go back to its planner, and no executor outlives the steps it listed.
-/

namespace Vimla.Operator

open Js (Json)
open List Option Tables Function

variable {op : OperatorRuntime}

/-- The text that a planner pass works from, where it is about to write. -/
def Point.passText : Point → Option String
  | publishing planned | replacing planned _ | transitioning planned _ => some planned.userText
  | clarifying asked => some asked.userText
  | succeeding userText | failing userText _ => some userText
  | _ => none

/-- The guard of what a planner pass is about to write. -/
def Point.opens (run : OperatorRun) : Point → Bool
  | publishing _ => run.status = .PLANNING ∧ run.plannerOutput = none
  | replacing _ _ | transitioning _ _ => run.status = .PLANNING
  | clarifying _ => run.status = .EXECUTING ∨ run.status = .PLANNING
  | succeeding _ | failing _ _ => run.status = .PLANNING ∨ run.status = .CREATED
  | _ => false

/-- A planner pass that finds its guard open works from the text that the run has now. -/
def Point.Fresh (run : OperatorRun) (point : Point) : Prop :=
  point.opens run = true → ∀ userText ∈ point.passText, userText = run.userText

/-- The turn is not one of an overtaken pass. -/
def Fresh (w : World) : Event → Prop
  | .turn id _ => (w.calls id).Fresh w.tables.run
  | .request _ _ | .chats _ => True

instance (run : OperatorRun) (point : Point) : Decidable (point.Fresh run) :=
  inferInstanceAs (Decidable (point.opens run = true → ∀ userText ∈ point.passText, userText = run.userText))

instance (w : World) : ∀ ev, Decidable (Fresh w ev)
  | .turn id _ => inferInstanceAs (Decidable ((w.calls id).Fresh w.tables.run))
  | .request _ _ | .chats _ => isTrue trivial

variable {T : Tables} {rows : List RunStep} {point : Point}

theorem Point.Fresh.stores (fresh : point.Fresh T.run) :
    ∀ userText ∈ point.stores T, userText = T.run.userText := by
  intro userText stored
  cases point with
  | publishing planned | clarifying asked =>
    simp only [Point.stores] at stored
    split at stored
    · exact fresh (decide_eq_true ‹_›) userText stored
    · cases stored
  | replacing planned steps =>
    simp only [Point.stores] at stored
    split at stored
    · rename_i guard
      exact fresh (decide_eq_true guard.1) userText stored
    · cases stored
  | _ => cases stored

def Decision.steps : Decision → Option (List PreparedStep)
  | act steps => some steps
  | invalid | clarify _ | succeed => none

/-- The tool calls of the plan that is stored. -/
def OperatorRun.plan (op : OperatorRuntime) (run : OperatorRun) : Option (List PreparedStep) :=
  run.plannerOutput.bind fun planned => (decision op run.invocationScope planned.output).steps

structure IsRow (p : PreparedStep) (s : RunStep) : Prop where
  sequence : s.sequence = p.sequence
  toolName : s.toolName = p.toolName
  inputJson : s.inputJson = p.args

/-- The steps are those of the plan that is stored. -/
def Complete (op : OperatorRuntime) (T : Tables) : Prop := ∃ steps, T.run.plan op = some steps ∧ Forall₂ IsRow steps T.steps

def RunStep.requiresConfirmation (s : RunStep) : Bool := toolRequiresConfirmation s.toolName s.inputJson

variable {p : PreparedStep} {s : RunStep} {planned : Planned}

theorem IsRow.requiresConfirmation (row : IsRow p s) : s.requiresConfirmation = p.confirmationRequired := by
  rw [RunStep.requiresConfirmation, PreparedStep.confirmationRequired, row.toolName, row.inputJson]

theorem IsRow.same {s s' : RunStep} (row : IsRow p s) (same : SameCall s s') : IsRow p s' :=
  ⟨same.sequence.trans row.sequence, same.toolName.trans row.toolName, same.inputJson.trans row.inputJson⟩

variable {steps : List PreparedStep}

theorem rows_mem (complete : Forall₂ IsRow steps rows) (mem : s ∈ rows) :
    ∃ p ∈ steps, IsRow p s :=
  Matched.right ⟨_, .refl _, complete⟩ mem

theorem rows_map {g : RunStep → RunStep} (same : ∀ s, SameCall s (g s))
    (complete : Forall₂ IsRow steps rows) : Forall₂ IsRow steps (rows.map g) :=
  forall₂_map_right_iff.2 (complete.imp fun _ s row => row.same (same s))

namespace Tables

variable {T : Tables}

/-- Nothing is missing of a plan whose rows are there. -/
theorem missingSteps_eq_nil (complete : Forall₂ IsRow steps T.steps) : T.missingSteps steps = [] := by
  refine filter_eq_nil_iff.2 fun p mem missing => ?_
  obtain ⟨i, bound, rfl⟩ := getElem_of_mem mem
  have length := complete.length_eq
  have row := (forall₂_iff_get.1 complete).2 i bound (length ▸ bound)
  refine of_decide_eq_true missing (any_eq_true.2 ⟨_, getElem_mem (length ▸ bound), ?_⟩)
  exact decide_eq_true row.sequence

variable {userText : String}

theorem createSteps_complete (complete : Forall₂ IsRow steps T.steps) :
    (T.createSteps userText steps).steps = T.steps := by
  simp [createSteps, missingSteps_eq_nil complete]

theorem createSteps_empty (empty : T.steps = []) :
    Forall₂ IsRow steps (T.createSteps userText steps).steps := by
  have all : T.missingSteps steps = steps := filter_eq_self.2 fun p _ => by simp [empty]
  rw [createSteps, all, empty, nil_append, forall₂_map_right_iff]
  refine forall₂_iff_get.2 ⟨(length_zipIdx).symm, fun i bound bound' => ?_⟩
  simp only [get_eq_getElem, getElem_zipIdx]
  exact ⟨rfl, rfl, rfl⟩

end Tables

def RunStep.initialStatus (s : RunStep) : StepStatus := if s.requiresConfirmation then .NEEDS_CONFIRMATION else .PENDING

/-- What the status of the run says about its steps. -/
structure Phased (op : OperatorRuntime) (T : Tables) : Prop where
  current : FromCurrentText T
  planning : T.run.status = .PLANNING → T.steps = [] ∨ Complete op T
  awaiting : T.run.status = .AWAITING_CONFIRMATION → Complete op T
  initial : T.run.status = .PLANNING ∨ T.run.status = .AWAITING_CONFIRMATION → ∀ s ∈ T.steps, s.status = s.initialStatus
  executing : T.run.status = .EXECUTING → Complete op T ∧ ∀ s ∈ T.steps, s.status ≠ .NEEDS_CONFIRMATION ∧ s.status ≠ .SKIPPED
  begins : T.run.status = .EXECUTING → .began ∈ T.history
  began : .began ∈ T.history → T.run.status = .EXECUTING ∨ T.run.status.isTerminal = true ∨
    T.run.status = .AWAITING_CLARIFICATION ∧ T.run.invocationScope = .DIRECT_CHAT

/-- A planner's output as a pass may hold it: of an older text, or the one that is stored. -/
structure Backed (T : Tables) (planned : Planned) : Prop where
  bound : planned.userText.length ≤ T.run.userText.length
  stored : planned.userText = T.run.userText → T.run.plannerOutput = some planned

/-- A row that was read some time ago. -/
structure RecordOk (T : Tables) (run : OperatorRun) : Prop where
  scope : run.invocationScope = T.run.invocationScope
  bound : run.userText.length ≤ T.run.userText.length
  output : ∀ planned ∈ run.plannerOutput, Backed T planned
  began : run.status = .EXECUTING → .began ∈ T.history

/-- What a call holds agrees with the tables. -/
def Point.Ok (op : OperatorRuntime) (T : Tables) : Point → Prop
  | resuming run | planning run => RecordOk T run
  | publishing planned => planned.userText.length ≤ T.run.userText.length
  | replacing planned steps => Backed T planned ∧ decision op T.run.invocationScope planned.output = .act steps
  | transitioning planned steps => (Backed T planned ∧ decision op T.run.invocationScope planned.output = .act steps) ∧
      (planned.userText = T.run.userText → T.run.status = .PLANNING → Forall₂ IsRow steps T.steps)
  | clarifying asked => T.run.invocationScope = .DIRECT_CHAT ∨
      ∃ planned, Backed T planned ∧ planned.userText = asked.userText ∧
        (decision op T.run.invocationScope planned.output).steps = none
  | listing | executing _ | marking _ _ _ | finishing _ => .began ∈ T.history
  | _ => True

/-- The steps that are executed or failed stay so. -/
structure Advances (steps steps' : List RunStep) : Prop where
  rows : ∃ g : RunStep → RunStep, (∀ s, SameCall s (g s)) ∧ steps' = steps.map g ∧
    ∀ s ∈ steps, s.status = .EXECUTED ∨ s.status = .FAILED → (g s).status = s.status

theorem Advances.refl (steps : List RunStep) : Advances steps steps :=
  ⟨id, .refl, (map_id _).symm, fun _ _ _ => rfl⟩

/-- What the tables keep from one turn to the next. -/
structure Extends (op : OperatorRuntime) (T T' : Tables) : Prop where
  scope : T'.run.invocationScope = T.run.invocationScope
  history : T.history <+: T'.history
  text : T'.run.userText = T.run.userText ∨ T.run.userText.length < T'.run.userText.length
  output : T'.run.userText = T.run.userText → ∀ planned ∈ T.run.plannerOutput, T'.run.plannerOutput = some planned
  rows : T'.run.userText = T.run.userText → T'.run.status = .PLANNING → T.run.status = .PLANNING ∧
    ∀ steps, T.run.plan op = some steps → Forall₂ IsRow steps T.steps → Forall₂ IsRow steps T'.steps
  executing : T'.run.status = .EXECUTING → .began ∈ T.history → T.run.status = .EXECUTING ∧ Advances T.steps T'.steps

namespace Extends

variable {T T' : Tables} (extends_ : Extends op T T')
include extends_

theorem began (began : .began ∈ T.history) : .began ∈ T'.history := extends_.history.subset began

variable {text : String}

theorem bound (bound : text.length ≤ T.run.userText.length) : text.length ≤ T'.run.userText.length := by
  obtain same | grown := extends_.text
  · rw [same]
    exact bound
  · omega

/-- A text that is the current one was so before. -/
theorem current (bound : text.length ≤ T.run.userText.length) (now : text = T'.run.userText) :
    T'.run.userText = T.run.userText := by
  obtain same | grown := extends_.text
  · exact same
  · rw [now] at bound
    omega

theorem backed (backed : Backed T planned) : Backed T' planned where
  bound := extends_.bound backed.bound
  stored := fun now => by
    have same := extends_.current backed.bound now
    exact extends_.output same planned (backed.stored (now.trans same))

theorem recordOk {run : OperatorRun} (ok : RecordOk T run) : RecordOk T' run where
  scope := ok.scope.trans extends_.scope.symm
  bound := extends_.bound ok.bound
  output := fun planned stored => extends_.backed (ok.output planned stored)
  began := fun executing => extends_.began (ok.began executing)

theorem pointOk (ok : point.Ok op T) : point.Ok op T' := by
  cases point with
  | resuming run | planning run => exact extends_.recordOk ok
  | publishing planned => exact extends_.bound ok
  | replacing planned steps => exact ⟨extends_.backed ok.1, extends_.scope ▸ ok.2⟩
  | transitioning planned steps =>
    refine ⟨⟨extends_.backed ok.1.1, extends_.scope ▸ ok.1.2⟩, fun now planning => ?_⟩
    have same := extends_.current ok.1.1.bound now
    obtain ⟨before, kept⟩ := extends_.rows same planning
    refine kept steps ?_ (ok.2 (now.trans same) before)
    simp [OperatorRun.plan, ok.1.1.stored (now.trans same), ok.1.2, Decision.steps]
  | clarifying asked =>
    obtain direct | ⟨planned, backed, text, none⟩ := ok
    · exact .inl (extends_.scope.trans direct)
    · exact .inr ⟨planned, extends_.backed backed, text, extends_.scope ▸ none⟩
  | listing | executing | marking | finishing => exact extends_.began ok
  | _ => trivial

end Extends

theorem Tables.updateSteps_advances {which : RunStep → Bool} {f : RunStep → RunStep} (same : ∀ s, SameCall s (f s))
    (unfinished : ∀ s ∈ T.steps, which s = true → s.status = .EXECUTED ∨ s.status = .FAILED → (f s).status = s.status) :
    Advances T.steps (T.updateSteps which f).steps := by
  refine ⟨fun s => if which s then f s else s, fun s => (same s).ite, rfl, fun s mem ended => ?_⟩
  dsimp only
  split
  · exact unfinished s mem ‹_› ended
  · rfl

namespace Extends

variable {T T' : Tables}

/-- The row of the run keeps its text and its output, and does not go back to its planner. -/
theorem of_status (scope : T'.run.invocationScope = T.run.invocationScope) (history : T.history <+: T'.history)
    (text : T'.run.userText = T.run.userText)
    (output : ∀ planned ∈ T.run.plannerOutput, T'.run.plannerOutput = some planned) (left : T'.run.status ≠ .PLANNING)
    (executing : T'.run.status = .EXECUTING → .began ∈ T.history → T.run.status = .EXECUTING ∧ Advances T.steps T'.steps) :
    Extends op T T' where
  scope := scope
  history := history
  text := .inl text
  output := fun _ => output
  rows := fun _ planning => absurd planning left
  executing := executing

end Extends

/-- A run that has begun is not planned and does not await confirmation. -/
theorem Phased.not_began (phased : Phased op T) (early : T.run.status = .PLANNING ∨ T.run.status = .CREATED ∨
    T.run.status = .AWAITING_CONFIRMATION) : .began ∉ T.history := by
  intro began
  have later := phased.began began
  obtain early | early | early := early
  all_goals simp [early, RunStatus.isTerminal] at later

theorem length_answered (text content : String) : text.length < (text ++ "\n" ++ content).length := by
  simp only [String.length_append]
  have newline : "\n".length = 1 := rfl
  omega

/-- A pass of the current text holds the plan that is stored. -/
theorem Backed.plan_eq (backed : Backed T planned)
    (acts : decision op T.run.invocationScope planned.output = .act steps)
    (now : planned.userText = T.run.userText) : T.run.plan op = some steps := by
  simp [OperatorRun.plan, backed.stored now, acts, Decision.steps]

section
variable {chats : Chats} {snapshot : Option ContextSnapshot} {point : Point} {T after : Tables}

theorem Change.extends (change : Change op chats snapshot T point after) (recorded : EffectsRecorded T) (phased : Phased op T)
    (ok : point.Ok op T) (fresh : point.Fresh T.run) : Extends op T after := by
  cases change with
  | same => exact ⟨rfl, prefix_rfl, .inl rfl, fun _ _ stored => stored, fun _ planning => ⟨planning, fun _ _ rows => rows⟩,
      fun executing _ => ⟨executing, .refl _⟩⟩
  | published planned opened empty =>
    refine ⟨rfl, prefix_rfl, .inl rfl, fun _ p stored => ?_, fun _ planning => ⟨planning, fun steps stored => ?_⟩,
      fun executing => ?_⟩
    · rw [empty] at stored
      cases stored
    · simp [OperatorRun.plan, empty] at stored
    · rw [show T.run.status = .EXECUTING from executing] at opened
      cases opened
  | created planned steps opened =>
    refine ⟨rfl, prefix_rfl, .inl rfl, fun _ _ stored => stored, fun _ planning => ⟨planning, fun steps' stored rows => ?_⟩,
      fun executing => ?_⟩
    · have now : planned.userText = T.run.userText := fresh (decide_eq_true opened) _ rfl
      obtain rfl : steps' = steps := some.inj (stored.symm.trans (ok.1.plan_eq ok.2 now))
      rw [createSteps_complete rows]
      exact rows
    · rw [show T.run.status = .EXECUTING from executing] at opened
      cases opened
  | awaiting planned steps required token now opened =>
    exact .of_status rfl (prefix_append _ _) rfl (fun _ stored => stored) (by simp [issueToken])
      (by simp [issueToken])
  | began planned steps plain opened =>
    refine .of_status rfl (prefix_append _ _) rfl (fun _ stored => stored) (by simp) fun _ began => ?_
    exact absurd began (phased.not_began (.inl opened))
  | succeeded | failed | clarified =>
    exact .of_status rfl prefix_rfl rfl (fun _ stored => stored) (by simp [settle]) (by simp [settle])
  | finished execution =>
    have left {status : RunStatus} := @RunStatus.ne_of_terminal _ status execution.status_isTerminal
    exact .of_status rfl prefix_rfl rfl (fun _ stored => stored) (left rfl) fun executing => absurd executing (left rfl)
  | rotated token now opened =>
    exact .of_status rfl (prefix_append _ _) rfl (fun _ stored => stored) (by simp [issueToken, opened])
      (by simp [issueToken, opened])
  | accepted token now expiresAt opened =>
    refine .of_status rfl ⟨_, (append_assoc _ _ _).symm⟩ rfl (fun _ stored => stored) (by simp [accept]) fun _ began => ?_
    exact absurd began (phased.not_began (.inr (.inr opened)))
  | continued content key =>
    have grown : T.run.userText.length < (T.restart content key).run.userText.length := length_answered _ _
    refine ⟨rfl, prefix_rfl, .inr grown, fun same => ?_, fun same => ?_, fun executing => ?_⟩
    · exact absurd (congrArg String.length same) grown.ne'
    · exact absurd (congrArg String.length same) grown.ne'
    · cases executing
  | canceled => exact .of_status rfl (prefix_append _ _) rfl (fun _ stored => stored) (by simp) (by simp)
  | revoked =>
    have left {status : RunStatus} := @RunStatus.ne_of_terminal _ status T.revokedStatus_isTerminal
    exact .of_status rfl prefix_rfl rfl (fun _ stored => stored) (left rfl) fun executing => absurd executing (left rfl)
  | performed execution step args objectId performable =>
    have left : T.run.status ≠ .PLANNING := by simp [performable.executing]
    refine .of_status rfl (prefix_append _ _) rfl (fun _ stored => stored) left fun _ _ => ⟨performable.executing, ?_⟩
    refine updateSteps_advances (fun _ => ⟨rfl, rfl, rfl, rfl, rfl⟩) fun s mem chosen ended => ?_
    rw [recorded.eq_of_id mem performable.mem (of_decide_eq_true chosen)] at ended
    obtain ready | ready := performable.ready
    all_goals simp [ready] at ended
  | stepFailed _ step code event executing mem unexecuted =>
    refine .of_status rfl prefix_rfl rfl (fun _ stored => stored) (by simp [failStep, executing]) fun _ _ => ⟨executing, ?_⟩
    refine updateSteps_advances (fun _ => ⟨rfl, rfl, rfl, rfl, rfl⟩) fun s here chosen ended => ?_
    rw [recorded.eq_of_id here mem (of_decide_eq_true chosen)] at ended ⊢
    obtain ended | ended := ended
    · exact absurd ended unexecuted
    · exact ended.symm

/-- In a run whose status is final, or that awaits an answer, only the text behind what is stored matters. -/
theorem Phased.of_rest (current : FromCurrentText after) (rest : after.run.status.isTerminal = true ∨
    after.run.status = .AWAITING_CLARIFICATION)
    (began : .began ∈ after.history → after.run.status = .AWAITING_CLARIFICATION → after.run.invocationScope = .DIRECT_CHAT) :
    Phased op after := by
  have not_running {status : RunStatus} (running : status.isTerminal = false) (other : status ≠ .AWAITING_CLARIFICATION) :
      after.run.status ≠ status := by
    obtain terminal | waiting := rest
    · exact RunStatus.ne_of_terminal terminal running
    · exact waiting ▸ other.symm
  refine ⟨current, fun h => ?_, fun h => ?_, fun h => ?_, fun h => ?_, fun h => ?_, fun h => ?_⟩
  · exact absurd h (not_running rfl (by simp))
  · exact absurd h (not_running rfl (by simp))
  · obtain h | h := h
    · exact absurd h (not_running rfl (by simp))
    · exact absurd h (not_running rfl (by simp))
  · exact absurd h (not_running rfl (by simp))
  · exact absurd h (not_running rfl (by simp))
  · obtain terminal | waiting := rest
    · exact .inr (.inl terminal)
    · exact .inr (.inr ⟨waiting, began h waiting⟩)

/-- A step of a run that executes ends. -/
theorem Phased.of_execution (phased : Phased op T) (current : FromCurrentText after) (executing : T.run.status = .EXECUTING)
    (run : after.run = T.run) (history : T.history <+: after.history) (which : RunStep → Bool) (f : RunStep → RunStep)
    (same : ∀ s, SameCall s (f s)) (ended : ∀ s, (f s).status ≠ .NEEDS_CONFIRMATION ∧ (f s).status ≠ .SKIPPED)
    (steps : after.steps = (T.updateSteps which f).steps) : Phased op after := by
  have still : after.run.status = .EXECUTING := by rw [run, executing]
  have complete : Complete op after := by
    obtain ⟨calls, plan, rows⟩ := (phased.executing executing).1
    refine ⟨calls, by rw [run, plan], ?_⟩
    rw [steps]
    exact rows_map (fun s => (same s).ite) rows
  refine ⟨current, fun h => ?_, fun h => ?_, fun h => ?_, fun _ => ⟨complete, fun s' mem => ?_⟩, fun _ => ?_, fun _ => .inl still⟩
  iterate 3 · simp [still] at h
  · rw [steps] at mem
    obtain ⟨s, here, rfl⟩ := mem_map.1 mem
    split
    · exact ended s
    · exact (phased.executing executing).2 s here
  · exact history.subset (phased.begins executing)

theorem Complete.of_run (run : after.run.plan op = T.run.plan op) (steps : after.steps = T.steps) (complete : Complete op T) :
    Complete op after := by
  obtain ⟨calls, plan, rows⟩ := complete
  exact ⟨calls, run.trans plan, steps ▸ rows⟩

/-- A pass that starts the execution works from the plan that is stored, and its steps are there. -/
theorem complete_of_transitioning (ok : (Point.transitioning planned steps).Ok op T)
    (fresh : (Point.transitioning planned steps).Fresh T.run) (opened : T.run.status = .PLANNING) :
    T.run.plan op = some steps ∧ Forall₂ IsRow steps T.steps := by
  have now : planned.userText = T.run.userText := fresh (decide_eq_true opened) _ rfl
  exact ⟨ok.1.1.plan_eq ok.1.2 now, ok.2 now opened⟩

theorem Change.phased (change : Change op chats snapshot T point after) (phased : Phased op T) (ok : point.Ok op T)
    (fresh : point.Fresh T.run) : Phased op after := by
  have current : FromCurrentText after := change.fromCurrentText phased.current fresh.stores
  cases change with
  | same => exact phased
  | published planned opened empty =>
    refine ⟨current, fun _ => .inl ?_, by simp [opened], fun _ => phased.initial (.inl opened), by simp [opened],
      by simp [opened], fun began => absurd began (phased.not_began (.inl opened))⟩
    obtain none | ⟨steps, plan, rows⟩ := phased.planning opened
    · exact none
    · simp [OperatorRun.plan, empty] at plan
  | created planned steps opened =>
    have now : planned.userText = T.run.userText := fresh (decide_eq_true opened) _ rfl
    have plan : T.run.plan op = some steps := ok.1.plan_eq ok.2 now
    have still : (T.createSteps planned.userText steps).run.status = .PLANNING := opened
    refine ⟨current, fun _ => .inr ⟨steps, plan, ?_⟩, by simp [still], fun _ s mem => ?_, by simp [still], by simp [still],
      fun began => absurd began (phased.not_began (.inl opened))⟩
    · obtain none | ⟨calls, stored, rows⟩ := phased.planning opened
      · exact createSteps_empty none
      · obtain rfl := some.inj (stored.symm.trans plan)
        rw [createSteps_complete rows]
        exact rows
    · obtain mem | ⟨p, id, rfl, -, -, -⟩ := mem_createSteps mem
      · exact phased.initial (.inl opened) s mem
      · rfl
  | awaiting planned steps required token now opened =>
    have complete : Complete op T := ⟨steps, complete_of_transitioning ok fresh opened⟩
    refine ⟨current, by simp [issueToken], fun _ => complete.of_run rfl rfl, fun _ => phased.initial (.inl opened),
      by simp [issueToken], by simp [issueToken], fun began => ?_⟩
    simp only [issueToken, record_history, setRun_history, mem_append, mem_singleton,
      reduceCtorEq, or_false] at began
    exact absurd began (phased.not_began (.inl opened))
  | began planned steps plain opened =>
    obtain ⟨plan, rows⟩ := complete_of_transitioning ok fresh opened
    refine ⟨current, by simp, by simp, by simp, fun _ => ⟨⟨steps, plan, rows⟩, fun s mem => ?_⟩, by simp, by simp⟩
    obtain ⟨p, mem', row⟩ := rows_mem rows mem
    have plain_row : s.requiresConfirmation = false := by
      rw [row.requiresConfirmation]
      exact Bool.eq_false_of_not_eq_true (any_eq_false.1 plain p mem')
    simp [phased.initial (.inl opened) s mem, RunStep.initialStatus, plain_row]
  | succeeded | failed | canceled => exact .of_rest current (.inl rfl) fun _ waiting => by cases waiting
  | finished execution =>
    have terminal := execution.status_isTerminal
    exact .of_rest current (.inl terminal) fun _ waiting => absurd waiting (RunStatus.ne_of_terminal terminal rfl)
  | clarified asked question opened =>
    refine .of_rest current (.inr rfl) fun began _ => ?_
    obtain opened | opened := opened
    · obtain direct | ⟨planned, backed, text, none⟩ := ok
      · exact direct
      · -- a run that executes has a plan with tool calls, and this pass a plan without
        have now : asked.userText = T.run.userText := fresh (decide_eq_true (.inl opened)) _ rfl
        obtain ⟨⟨steps, plan, -⟩, -⟩ := phased.executing opened
        simp [OperatorRun.plan, backed.stored (text.trans now), none] at plan
    · exact absurd began (phased.not_began (.inl opened))
  | rotated token now opened =>
    refine ⟨current, by simp [issueToken, opened], fun _ => (phased.awaiting opened).of_run rfl rfl,
      fun _ => phased.initial (.inr opened), by simp [issueToken, opened], by simp [issueToken, opened],
      fun began => ?_⟩
    simp only [issueToken, record_history, setRun_history, mem_append, mem_singleton,
      reduceCtorEq, or_false] at began
    exact absurd began (phased.not_began (.inr (.inr opened)))
  | accepted token now expiresAt opened =>
    obtain ⟨steps, plan, rows⟩ := phased.awaiting opened
    refine ⟨current, by simp [accept], by simp [accept], by simp [accept],
      fun _ => ⟨⟨steps, plan, rows_map (fun s => SameCall.ite ⟨rfl, rfl, rfl, rfl, rfl⟩) rows⟩, fun s' mem => ?_⟩,
      fun _ => by simp [accept], fun _ => .inl rfl⟩
    obtain ⟨s, here, rfl⟩ := mem_map.1 mem
    have initial := phased.initial (.inr opened) s here
    rw [RunStep.initialStatus] at initial
    split at initial
    all_goals simp [initial]
  | continued content key scope opened =>
    refine ⟨current, fun _ => .inl rfl, by simp [restart], by simp [restart], by simp [restart],
      by simp [restart], fun began => ?_⟩
    obtain running | terminal | ⟨-, direct⟩ := phased.began began
    · simp [opened] at running
    · simp [opened, RunStatus.isTerminal] at terminal
    · exact absurd direct scope
  | revoked =>
    have terminal := T.revokedStatus_isTerminal
    exact .of_rest current (.inl terminal) fun _ waiting => absurd waiting (RunStatus.ne_of_terminal terminal rfl)
  | performed execution step args objectId performable =>
    refine phased.of_execution current performable.executing rfl (prefix_append _ _) _ _ ?_ ?_ rfl
    · exact fun _ => ⟨rfl, rfl, rfl, rfl, rfl⟩
    · simp
  | stepFailed _ step code event executing =>
    refine phased.of_execution current executing rfl prefix_rfl _ _ ?_ ?_ rfl
    · exact fun _ => ⟨rfl, rfl, rfl, rfl, rfl⟩
    · simp

end

theorem RecordOk.self (phased : Phased op T) : RecordOk T T.run where
  scope := rfl
  bound := Nat.le_refl _
  output := fun planned stored => ⟨Nat.le_of_eq (by rw [phased.current.output planned stored]), fun _ => stored⟩
  began := phased.begins

theorem Planned.next_ok (backed : Backed T planned) : (planned.next op T.run.invocationScope).Ok op T := by
  rw [Planned.next]
  cases decided : decision op T.run.invocationScope planned.output with
  | invalid | succeed => exact True.intro
  | clarify question => exact .inr ⟨planned, backed, rfl, by rw [decided]; rfl⟩
  | act steps => exact ⟨backed, decided⟩

/-- Only the owner of a task in a Direct Chat is asked for by the executor. -/
theorem executePersistedStep_clarifies {chats : Chats} {snapshot : Option ContextSnapshot} {id : Nat}
    {assignee : Assignee} {service : ServiceResult} {question : String}
    (asks : T.executePersistedStep op chats snapshot id assignee service = .error (.clarificationRequired question)) :
    T.run.invocationScope = .DIRECT_CHAT := by
  have dispatched {tool : OperatorToolName} {scope : InvocationScope}
      (asks : dispatch scope tool assignee service = .error (.clarificationRequired question)) : scope = .DIRECT_CHAT := by
    have answered : service.mapError StepError.code ≠ .error (.clarificationRequired question) := by
      cases service with
      | error code | ok objectId => simp [Except.mapError]
    simp only [dispatch] at asks
    split at asks
    · split at asks
      · exact absurd asks answered
      · exact absurd asks answered
      · rfl
      · cases asks
    · exact absurd asks answered
  have performs {step : RunStep} (asks : T.performStep op chats snapshot step assignee service =
      .error (.clarificationRequired question)) : T.run.invocationScope = .DIRECT_CHAT := by
    rw [performStep] at asks
    split at asks
    · cases asks
    · split at asks
      · cases asks
      · split at asks
        · rename_i e failed
          cases asks
          rw [executeStep] at failed
          split at failed
          · cases failed
          · split at failed
            · rename_i inner
              cases failed
              exact dispatched inner
            · cases failed
        · cases asks
  rw [executePersistedStep] at asks
  split at asks
  · cases asks
  · split at asks
    · cases asks
    · split at asks
      iterate 4 · cases asks
      · split at asks
        · exact performs asks
        · cases asks
      · exact performs asks

section
variable {chats : Chats} {snapshot : Option ContextSnapshot} {T : Tables}

theorem replacing_ok {after : Tables} (phased : Phased op T)
    (ok : (Point.replacing planned steps).Ok op T) (extends_ : Extends op T after)
    (committed : T.replaceSteps planned.userText steps = some after) : (Point.transitioning planned steps).Ok op after := by
  refine ⟨⟨extends_.backed ok.1, extends_.scope ▸ ok.2⟩, fun now planning => ?_⟩
  have same := extends_.current ok.1.bound now
  have opened := (extends_.rows same planning).1
  have plan : T.run.plan op = some steps := ok.1.plan_eq ok.2 (now.trans same)
  have rows := phased.planning opened
  rw [replaceSteps] at committed
  split at committed
  · rename_i none
    obtain rfl := some.inj committed
    obtain rfl := length_eq_zero_iff.1 none
    obtain empty | ⟨calls, stored, rows⟩ := rows
    · rw [empty]
      exact .nil
    · obtain rfl := some.inj (stored.symm.trans plan)
      exact rows
  · rw [if_neg (by simp [opened])] at committed
    obtain rfl := some.inj committed
    obtain empty | ⟨calls, stored, rows⟩ := rows
    · exact createSteps_empty empty
    · obtain rfl := some.inj (stored.symm.trans plan)
      rw [createSteps_complete rows]
      exact rows

theorem turn_ok (draw : Draw) (point : Point) (recorded : EffectsRecorded T) (phased : Phased op T) (ok : point.Ok op T)
    (fresh : point.Fresh T.run) :
    (turn op T chats snapshot draw point).2.Ok op (turn op T chats snapshot draw point).1 := by
  have change := turn_change op chats snapshot T draw point
  have extends_ := change.extends recorded phased ok fresh
  have phased' := change.phased phased ok fresh
  cases point with
  | getting =>
    simp only [turn]
    split
    · trivial
    · split <;> trivial
  | confirming token => simp only [turn]; split <;> trivial
  | continuing content key =>
    by_cases direct : T.run.invocationScope = .DIRECT_CHAT
    · simp only [turn, if_pos direct]
      trivial
    · cases committed : T.continueRun content key with
      | none =>
        simp only [turn, if_neg direct, committed]
        trivial
      | some after =>
        simp only [turn, if_neg direct, committed] at phased' ⊢
        exact RecordOk.self phased'
  | creating | reloading => exact RecordOk.self phased
  | resuming run =>
    simp only [turn, resume]
    split
    · exact ok
    · exact ok
    · rename_i executing
      split
      · trivial
      · exact ok.began executing
    · split <;> trivial
    all_goals trivial
  | planning run =>
    simp only [turn, plan]
    split
    · trivial
    · split
      · rename_i planned stored
        rw [ok.scope]
        exact Planned.next_ok (ok.output planned (mem_filter_iff.1 stored).1)
      · split
        · trivial
        · exact ok.bound
  | publishing planned =>
    simp only [turn]
    split
    · rename_i after committed
      rw [publish] at committed
      split at committed
      · obtain rfl := some.inj committed
        exact Planned.next_ok (T := T.setRun _) ⟨ok, fun _ => rfl⟩
      · cases committed
    · trivial
  | adopting =>
    simp only [turn]
    split
    · rename_i planned stored
      exact Planned.next_ok ((RecordOk.self phased).output planned (mem_filter_iff.1 stored).1)
    · trivial
  | replacing planned steps =>
    cases committed : T.replaceSteps planned.userText steps with
    | none =>
      simp only [turn, committed]
      trivial
    | some after =>
      simp only [turn, committed] at extends_ ⊢
      exact replacing_ok phased ok extends_ committed
  | transitioning planned steps =>
    simp only [turn]
    split
    · split
      · trivial
      · exact RecordOk.self phased
    · split
      · rename_i after committed
        rw [startExecuting] at committed
        split at committed
        · cases committed
        · obtain rfl := some.inj committed
          exact mem_append_right _ mem_cons_self
      · split
        · exact phased.begins ‹_›
        · exact RecordOk.self phased
  | accepting token =>
    by_cases awaiting : T.run.status = .AWAITING_CONFIRMATION
    · cases committed : T.acceptConfirmation op token draw.now with
      | none =>
        simp only [turn, if_pos awaiting, committed]
        trivial
      | some after =>
        simp only [turn, if_pos awaiting, committed] at phased' ⊢
        exact RecordOk.self phased'
    · simp only [turn, if_neg awaiting]
      split
      · exact RecordOk.self phased
      · trivial
  | listing => exact ok
  | executing execution =>
    simp only [turn]
    split
    · exact ok
    · simp only [executeTurn]
      split
      · exact ok
      · split
        · exact .inl (executePersistedStep_clarifies ‹_›)
        · exact ok
        · rename_i after outcome committed
          have began := (executePersistedStep_change execution committed).extends recorded phased ok fresh |>.began ok
          split
          · exact began
          · exact began
  | marking execution stepId code => exact extends_.began ok
  | _ => trivial

end

/-- The calls and the tables agree. -/
structure World.Sound (op : OperatorRuntime) (w : World) : Prop where
  recorded : EffectsRecorded w.tables
  phased : Phased op w.tables
  calls : ∀ id, (w.calls id).Ok op w.tables

theorem Request.point_ok (request : Request) (T : Tables) : request.point.Ok op T := by
  cases request <;> trivial

theorem World.step_sound {w : World} {ev : Event} (fresh : Fresh w ev) (sound : w.Sound op) : (w.step op ev).Sound op := by
  cases ev with
  | chats chats => exact ⟨sound.recorded, sound.phased, sound.calls⟩
  | request id request =>
    rw [World.step]
    split
    · refine ⟨sound.recorded, sound.phased, fun id' => ?_⟩
      dsimp only
      rw [update_apply]
      split
      · exact request.point_ok _
      · exact sound.calls id'
    · exact sound
  | turn id draw =>
    have change := w.turn_change op id draw
    refine ⟨change.effectsRecorded sound.recorded, change.phased sound.phased (sound.calls id) fresh, fun id' => ?_⟩
    simp only [World.step, update_apply]
    split
    · exact turn_ok draw (w.calls id) sound.recorded sound.phased (sound.calls id) fresh
    · exact (change.extends sound.recorded sound.phased (sound.calls id) fresh).pointOk (sound.calls id')

theorem NewRun.sound (new : NewRun) : new.world.Sound op where
  recorded := ⟨nodup_nil, by simp [NewRun.world], by simp [NewRun.world, performedIds], nodup_nil, rfl,
    by simp [NewRun.world]⟩
  phased := by
    refine ⟨⟨by simp [NewRun.world, NewRun.row], by simp [NewRun.world], by simp [NewRun.world, NewRun.row]⟩, fun _ => .inl rfl,
      by simp [NewRun.world, NewRun.row], by simp [NewRun.world], by simp [NewRun.world, NewRun.row],
      by simp [NewRun.world, NewRun.row], by simp [NewRun.world]⟩
  calls := by
    intro id
    simp only [NewRun.world, update_apply]
    split
    · exact ⟨rfl, Nat.le_refl _, by simp [NewRun.row], by simp [NewRun.row]⟩
    · trivial

end Vimla.Operator
