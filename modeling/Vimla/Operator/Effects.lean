import Vimla.Operator.Confirmation

/-!
# Effects and the status that reports them

Each step has its effect at most once, and a run that has ended stays as it is,
in every run. Where no planner pass is overtaken, and the context of a run that
asks for an owner is not revoked after an effect, the final status of a run that
executed agrees with its steps.
-/

namespace Vimla.Operator

open Js (Json)
open List World Function Runs

variable {op : OperatorRuntime}

/-- The counters of an executor, of the steps before the one it is at. -/
structure Counted (T : Tables) (execution : Execution) (current : List Nat) : Prop where
  split : ∃ before rest : List RunStep, T.steps = before ++ rest ∧ rest.map (·.id) = current ++ execution.todo ∧
    (∀ s ∈ before, s.status = .EXECUTED ∨ s.status = .FAILED) ∧
    (execution.executed = 0 ↔ ∀ s ∈ before, s.status ≠ .EXECUTED) ∧
    (execution.failed = 0 ↔ ∀ s ∈ before, s.status ≠ .FAILED)

/-- While the run executes, the counters of its executors are right. -/
def Point.Counts (T : Tables) : Point → Prop
  | executing execution => T.run.status = .EXECUTING → Counted T execution []
  | marking execution stepId _ => T.run.status = .EXECUTING → Counted T execution [stepId]
  | finishing execution => T.run.status = .EXECUTING → Counted T { execution with todo := [] } []
  | _ => True

/-- The status that a step has after it was counted. -/
def StepOutcome.reached : StepOutcome → StepStatus → Prop
  | executed, status => status = .EXECUTED
  | failed, status => status = .FAILED
  | skipped, _ => False

section
variable {T after : Tables} {execution : Execution}

theorem Counted.start (T : Tables) (userText : String) : Counted T ⟨userText, T.steps.map (·.id), 0, 0⟩ [] :=
  ⟨[], T.steps, rfl, rfl, by simp, by simp, by simp⟩

theorem Counted.advances {current : List Nat} (counted : Counted T execution current) (advances : Advances T.steps after.steps) :
    Counted after execution current := by
  obtain ⟨before, rest, split, ids, ended, executed, failed⟩ := counted.split
  obtain ⟨g, same, steps, kept⟩ := advances.rows
  have status {s : RunStep} (mem : s ∈ before) : (g s).status = s.status :=
    kept s (split ▸ mem_append_left _ mem) (ended s mem)
  refine ⟨before.map g, rest.map g, by rw [steps, split, map_append], ?_, ?_, ?_, ?_⟩
  · rw [map_map, ← ids]
    exact map_congr_left fun s _ => (same s).id
  · intro s' mem
    obtain ⟨s, here, rfl⟩ := mem_map.1 mem
    rw [status here]
    exact ended s here
  · rw [executed, forall_mem_map]
    exact forall₂_congr fun s here => by rw [status here]
  · rw [failed, forall_mem_map]
    exact forall₂_congr fun s here => by rw [status here]

variable {id : Nat} {outcome : StepOutcome} {chats : Chats} {snapshot : Option ContextSnapshot}

/-- The step that an executor is at is counted by the status it has reached. -/
theorem Counted.count (counted : Counted T execution [id])
    (reached : ∀ s ∈ T.steps, s.id = id → outcome.reached s.status) : Counted T (execution.count outcome) [] := by
  obtain ⟨before, rest, split, ids, ended, executed, failed⟩ := counted.split
  cases rest with
  | nil => simp at ids
  | cons s rest =>
    simp only [map_cons, singleton_append, cons.injEq] at ids
    have now := reached s (by simp [split]) ids.1
    cases outcome with
    | skipped => cases now
    | executed =>
      have is_executed : s.status = .EXECUTED := now
      refine ⟨before ++ [s], rest, by simp [split], ids.2, ?_, ?_, ?_⟩
      · intro s' mem
        obtain mem | mem := mem_append.1 mem
        · exact ended s' mem
        · exact .inl (mem_singleton.1 mem ▸ is_executed)
      · simp [Execution.count, is_executed]
      · simp only [Execution.count, failed, forall_mem_append, forall_mem_singleton, is_executed]
        simp
    | failed =>
      have is_failed : s.status = .FAILED := now
      refine ⟨before ++ [s], rest, by simp [split], ids.2, ?_, ?_, ?_⟩
      · intro s' mem
        obtain mem | mem := mem_append.1 mem
        · exact ended s' mem
        · exact .inr (mem_singleton.1 mem ▸ is_failed)
      · simp only [Execution.count, executed, forall_mem_append, forall_mem_singleton, is_failed]
        simp
      · simp [Execution.count, is_failed]

theorem Counted.mem (counted : Counted T execution [id]) : ∃ s ∈ T.steps, s.id = id := by
  obtain ⟨before, rest, split, ids, -⟩ := counted.split
  cases rest with
  | nil => simp at ids
  | cons s rest =>
    simp only [map_cons, singleton_append, cons.injEq] at ids
    exact ⟨s, by simp [split], ids.1⟩

/-- The step that is updated has the status of the update. -/
theorem updateSteps_at {f : RunStep → RunStep} (status : StepStatus) (updated : ∀ s, (f s).status = status)
    (steps : after.steps = (T.updateSteps (·.id = id) f).steps) : ∀ s ∈ after.steps, s.id = id → s.status = status := by
  rw [steps]
  intro s' mem same
  obtain ⟨s, -, rfl⟩ := mem_map.1 mem
  by_cases this_step : s.id = id
  · simp [this_step, updated]
  · simp [this_step] at same

/-- The one step with the id. -/
theorem EffectsRecorded.found (recorded : EffectsRecorded T) (present : ∃ s ∈ T.steps, s.id = id) :
    ∃ step ∈ T.steps, T.steps.find? (·.id = id) = some step ∧ step.id = id ∧ ∀ s ∈ T.steps, s.id = id → s = step := by
  obtain ⟨s, mem, same⟩ := present
  obtain ⟨step, found⟩ := Option.isSome_iff_exists.1 (find?_isSome (p := (·.id = id)).2 ⟨s, mem, decide_eq_true same⟩)
  have at_id : step.id = id := by simpa using find?_some found
  have mem := mem_of_find?_eq_some found
  exact ⟨step, mem, found, at_id, fun s here same => recorded.eq_of_id here mem (same.trans at_id.symm)⟩

/-- What the transaction on a step says of it, while the run executes. -/
theorem executePersistedStep_reaches {assignee : Assignee} {service : ServiceResult} (recorded : EffectsRecorded T)
    (phased : Phased op T) (executing : T.run.status = .EXECUTING) (present : ∃ s ∈ T.steps, s.id = id)
    (committed : T.executePersistedStep op chats snapshot id assignee service = .ok (after, outcome)) :
    ∀ s ∈ after.steps, s.id = id → outcome.reached s.status := by
  have performs {step : RunStep} (at_id : step.id = id)
      (committed : T.performStep op chats snapshot step assignee service = .ok (after, outcome)) :
      ∀ s ∈ after.steps, s.id = id → outcome.reached s.status := by
    rw [Tables.performStep] at committed
    split at committed
    · cases committed
    · split at committed
      · cases committed
      · split at committed
        · cases committed
        · cases committed
          subst at_id
          exact updateSteps_at .EXECUTED (fun _ => rfl) rfl
  rw [Tables.executePersistedStep, if_neg (by simp [executing])] at committed
  obtain ⟨step, mem, found, at_id, only⟩ := recorded.found present
  rw [found] at committed
  dsimp only at committed
  split at committed
  iterate 2
    · cases committed
      intro s here same
      rw [only s here same]
      exact ‹step.status = _›
  · exact absurd ‹step.status = _› ((phased.executing executing).2 step mem).1
  · exact absurd ‹step.status = _› ((phased.executing executing).2 step mem).2
  · split at committed
    · exact performs at_id committed
    · cases committed
      subst at_id
      exact updateSteps_at .FAILED (fun _ => rfl) rfl
  · exact performs at_id committed

theorem markStepFailed_reaches {code : String} (recorded : EffectsRecorded T)
    (executing : T.run.status = .EXECUTING) (present : ∃ s ∈ T.steps, s.id = id) :
    ∀ s ∈ (T.markStepFailed id code).1.steps, s.id = id →
      (if (T.markStepFailed id code).2 then StepOutcome.executed else StepOutcome.failed).reached s.status := by
  rw [Tables.markStepFailed]
  obtain ⟨step, _, found, _, only⟩ := recorded.found present
  rw [found]
  dsimp only
  split
  · intro s here same
    rw [only s here same]
    exact ‹step.status = _›
  · split
    · rename_i ended
      intro s here same
      rw [only s here same]
      exact ended.resolve_right (by simp [executing])
    · exact updateSteps_at .FAILED (fun _ => rfl) rfl

/-- What a call has counted stays right under the turns of the others. -/
theorem Point.Counts.extends {point : Point} (counts : point.Counts T) (ok : point.Ok op T) (extends_ : Extends op T after) :
    point.Counts after := by
  cases point with
  | executing execution | marking execution stepId code | finishing execution =>
    intro executing
    obtain ⟨before, advances⟩ := extends_.executing executing ok
    exact (counts before).advances advances
  | _ => trivial

theorem Planned.next_counts (scope : InvocationScope) (planned : Planned) : (planned.next op scope).Counts T := by
  rw [Planned.next]
  cases decision op scope planned.output with
  | invalid | clarify | succeed | act => trivial

theorem resume_counts (run : OperatorRun) (draw : Draw) : (resume run draw).Counts T := by
  rw [resume]
  split
  · trivial
  · trivial
  · split <;> trivial
  · split <;> trivial
  all_goals trivial

theorem plan_counts (run : OperatorRun) (draw : Draw) : (plan op run draw).Counts T := by
  rw [plan]
  split
  · trivial
  · split
    · exact Planned.next_counts _ _
    · split <;> trivial

theorem turn_counts (draw : Draw) (point : Point) (recorded : EffectsRecorded T) (phased : Phased op T)
    (ok : point.Ok op T) (fresh : point.Fresh T.run) (counts : point.Counts T) :
    (turn op T chats snapshot draw point).2.Counts (turn op T chats snapshot draw point).1 := by
  have extends_ := (turn_change op chats snapshot T draw point).extends recorded phased ok fresh
  cases point with
  | listing => exact fun _ => .start T _
  | executing execution =>
    simp only [turn]
    cases todo : execution.todo with
    | nil =>
      intro executing
      obtain ⟨before, after, split, ids, counters⟩ := (counts executing).split
      exact ⟨before, after, split, by rw [ids, todo], counters⟩
    | cons id rest =>
      have current (executing : T.run.status = .EXECUTING) : Counted T { execution with todo := rest } [id] := by
        obtain ⟨before, after, split, ids, counters⟩ := (counts executing).split
        exact ⟨before, after, split, by rw [ids, todo]; rfl, counters⟩
      simp only [executeTurn]
      cases failure : draw.failure with
      | some code => exact current
      | none =>
        cases committed : T.executePersistedStep op chats snapshot id draw.assignee draw.service with
        | error e => cases e with
          | clarificationRequired question => trivial
          | code code => exact current
        | ok result =>
          have grown := (executePersistedStep_change execution committed).extends recorded phased ok fresh
          dsimp only
          split
          · intro executing
            obtain ⟨before, advances⟩ := grown.executing executing ok
            exact ((current before).advances advances).count
              (executePersistedStep_reaches recorded phased before (current before).mem committed)
          · intro executing
            obtain ⟨before, advances⟩ := grown.executing executing ok
            exact (current before).advances advances
  | marking execution stepId code =>
    intro executing
    obtain ⟨before, advances⟩ := extends_.executing executing ok
    exact ((counts before).advances advances).count (markStepFailed_reaches recorded before (counts before).mem)
  | getting | continuing content key =>
    simp only [turn]
    split
    · trivial
    · split <;> trivial
  | confirming token | replacing planned steps => simp only [turn]; split <;> trivial
  | resuming run => exact resume_counts run draw
  | planning run => exact plan_counts run draw
  | publishing planned =>
    simp only [turn]
    split
    · exact planned.next_counts _
    · trivial
  | adopting =>
    simp only [turn]
    split
    · exact Planned.next_counts _ _
    · trivial
  | transitioning planned steps =>
    simp only [turn]
    split
    · split <;> trivial
    · split
      · trivial
      · split <;> trivial
  | accepting token =>
    simp only [turn]
    split
    · split <;> trivial
    · split <;> trivial
  | canceling | creating | reloading | clarifying | succeeding | failing | rotating | revoking | finishing | done =>
    trivial

end

/-- What a final status reports of the steps. -/
def RunStatus.Reports (steps : List RunStep) : RunStatus → Prop
  | SUCCEEDED => ∀ s ∈ steps, s.status = .EXECUTED
  | FAILED => ∀ s ∈ steps, s.status ≠ .EXECUTED
  | PARTIAL => (∃ s ∈ steps, s.status = .EXECUTED) ∧ ∃ s ∈ steps, s.status = .FAILED
  | _ => True

/-- The status of a run that executed and has ended says what became of its steps. -/
def Agrees (T : Tables) : Prop := .began ∈ T.history → T.run.status.Reports T.steps

/-- The context of a run that asks for an owner is not revoked after an effect. -/
def Point.RevokedInTime (T : Tables) : Point → Prop
  | revoking => T.run.status = .AWAITING_CLARIFICATION → ∀ s ∈ T.steps, s.status ≠ .EXECUTED
  | _ => True

section
variable {chats : Chats} {snapshot : Option ContextSnapshot} {point : Point} {T after : Tables}

theorem Agrees.of_open (running : after.run.status.isTerminal = false) : Agrees after := by
  intro _
  cases status : after.run.status with
  | SUCCEEDED | PARTIAL | FAILED | CANCELED => simp [status, RunStatus.isTerminal] at running
  | CREATED | PLANNING | AWAITING_CLARIFICATION | AWAITING_CONFIRMATION | EXECUTING => trivial

theorem Agrees.of_status {status : RunStatus} (opened : T.run.status = status) (running : status.isTerminal = false)
    (same : after.run.status = T.run.status) : Agrees after :=
  .of_open (by rw [same, opened, running])

theorem Counted.agrees {execution : Execution} (counted : Counted T { execution with todo := [] } []) (errorCode : Option String) :
    Agrees (T.settle execution.status errorCode) := by
  intro _
  obtain ⟨before, rest, split, ids, ended, executed, failed⟩ := counted.split
  obtain rfl : rest = [] := map_eq_nil_iff.1 ids
  rw [append_nil] at split
  have some_executed (some : execution.executed ≠ 0) : ∃ s ∈ before, s.status = .EXECUTED := by
    by_contra none
    exact some (executed.2 fun s mem now => none ⟨s, mem, now⟩)
  have some_failed (some : execution.failed ≠ 0) : ∃ s ∈ before, s.status = .FAILED := by
    by_contra none
    exact some (failed.2 fun s mem now => none ⟨s, mem, now⟩)
  change execution.status.Reports T.steps
  rw [split]
  by_cases no_failure : execution.failed = 0
  · rw [show execution.status = .SUCCEEDED from if_pos no_failure]
    exact fun s mem => (ended s mem).resolve_right (failed.1 no_failure s mem)
  · by_cases no_effect : execution.executed = 0
    · rw [show execution.status = .FAILED from (if_neg no_failure).trans (if_pos no_effect)]
      exact executed.1 no_effect
    · rw [show execution.status = .PARTIAL from (if_neg no_failure).trans (if_neg no_effect)]
      exact ⟨some_executed no_effect, some_failed no_failure⟩

/-- The steps of a run whose context is revoked. -/
theorem endSteps_status {code : Option String} {s' : RunStep} (mem : s' ∈ (T.endSteps .FAILED fun _ => code).steps) :
    ∃ s ∈ T.steps, if s.status.isUnfinished then s'.status = .FAILED else s' = s := by
  obtain ⟨s, here, rfl⟩ := mem_map.1 mem
  refine ⟨s, here, ?_⟩
  split <;> rfl

theorem mem_endSteps (code : Option String) {s : RunStep} (mem : s ∈ T.steps) :
    ∃ s' ∈ (T.endSteps .FAILED fun _ => code).steps, if s.status.isUnfinished then s'.status = .FAILED else s' = s := by
  refine ⟨_, mem_map.2 ⟨s, mem, rfl⟩, ?_⟩
  split <;> rfl

theorem revoked_agrees (phased : Phased op T) (opened : T.run.status.isTerminal = false) (inTime : Point.revoking.RevokedInTime T)
    (code errorCode : Option String) : Agrees ((T.endSteps .FAILED fun _ => code).settle T.revokedStatus errorCode) := by
  intro began
  by_cases effect : T.run.status = .EXECUTING ∧ T.steps.any (·.status = .EXECUTED) = true
  · obtain ⟨executing, some_executed⟩ := effect
    obtain ⟨s, mem, now⟩ := any_eq_true.1 some_executed
    have executed : s.status = .EXECUTED := of_decide_eq_true now
    by_cases unfinished : (T.steps.any (·.status = .FAILED) || T.steps.any (·.status.isUnfinished)) = true
    · rw [Tables.revokedStatus, if_pos ⟨executing, some_executed⟩, if_pos unfinished]
      constructor
      · obtain ⟨s', here, kept⟩ := mem_endSteps code mem
        rw [if_neg (by simp [executed, StepStatus.isUnfinished])] at kept
        exact ⟨s', here, by rw [kept, executed]⟩
      · obtain some_failed | some_open := Bool.or_eq_true_iff.1 unfinished
        · obtain ⟨s, mem, now⟩ := any_eq_true.1 some_failed
          have failed : s.status = .FAILED := of_decide_eq_true now
          obtain ⟨s', here, kept⟩ := mem_endSteps code mem
          rw [if_neg (by simp [failed, StepStatus.isUnfinished])] at kept
          exact ⟨s', here, by rw [kept, failed]⟩
        · obtain ⟨s, mem, now⟩ := any_eq_true.1 some_open
          obtain ⟨s', here, ends⟩ := mem_endSteps code mem
          rw [if_pos now] at ends
          exact ⟨s', here, ends⟩
    · rw [Tables.revokedStatus, if_pos ⟨executing, some_executed⟩, if_neg unfinished]
      intro s' mem'
      obtain ⟨s, here, kept⟩ := endSteps_status mem'
      simp only [Bool.or_eq_true, any_eq_true, not_or, not_exists, not_and, decide_eq_true_eq] at unfinished
      have plain := (phased.executing executing).2 s here
      have unfailed := unfinished.1 s here
      have ended := unfinished.2 s here
      rw [if_neg ended] at kept
      rw [kept]
      cases now : s.status with
      | EXECUTED => rfl
      | FAILED => exact absurd now unfailed
      | SKIPPED => exact absurd now plain.2
      | PENDING | NEEDS_CONFIRMATION | CONFIRMED => simp [now, StepStatus.isUnfinished] at ended
  · rw [Tables.revokedStatus, if_neg effect]
    intro s' mem now
    obtain ⟨s, here, kept⟩ := endSteps_status mem
    split at kept
    · rw [kept] at now
      cases now
    · have executed : s.status = .EXECUTED := kept ▸ now
      obtain running | terminal | ⟨waiting, -⟩ := phased.began began
      · exact effect ⟨running, any_eq_true.2 ⟨s, here, decide_eq_true executed⟩⟩
      · rw [terminal] at opened
        cases opened
      · exact inTime waiting s here executed

theorem Change.agrees (change : Change op chats snapshot T point after) (phased : Phased op T) (counts : point.Counts T)
    (inTime : point.RevokedInTime T) (agrees : Agrees T) : Agrees after := by
  cases change with
  | same => exact agrees
  | published _ opened | created _ _ opened | rotated _ _ opened =>
    exact .of_status opened rfl rfl
  | performed execution step args objectId performable =>
    exact .of_status performable.executing rfl rfl
  | stepFailed _ step code event executing => exact .of_status executing rfl rfl
  | awaiting | began | clarified | accepted | continued => exact .of_open rfl
  | succeeded userText opened | failed userText errorCode opened =>
    exact fun began => absurd began (phased.not_began (by tauto))
  | canceled => exact fun _ => trivial
  | revoked opened errorCode => exact revoked_agrees phased opened inTime _ _
  | finished execution errorCode opened => exact (counts opened).agrees errorCode

end

/-- Each step has its effect at most once, and what was executed and audited is what had an effect. -/
structure EffectsExact (op : OperatorRuntime) (w : World) (ev : Event) : Prop where
  once : (performedIds (w.step op ev).tables.history).Nodup
  executed : ∀ s ∈ (w.step op ev).tables.steps, s.status = .EXECUTED ↔ s.id ∈ performedIds (w.step op ev).tables.history
  audited : ∀ s ∈ (w.step op ev).tables.steps, (okIds (w.step op ev).tables.audit).count s.id = if s.status = .EXECUTED then 1 else 0
  ended : w.tables.run.status.isTerminal = true → (w.step op ev).tables.run.status = w.tables.run.status

/-- And the status of a run that executed agrees with its steps once it is final. -/
structure EffectsReported (op : OperatorRuntime) (w : World) (ev : Event) : Prop extends EffectsExact op w ev where
  agrees : Agrees (w.step op ev).tables

def RevokesInTime (w : World) : Event → Prop
  | .turn id _ => (w.calls id).RevokedInTime w.tables
  | .request _ _ | .chats _ => True

/-- The turn is not one of an overtaken pass, and revokes no context too late. -/
def Settled (w : World) (ev : Event) : Prop := Fresh w ev ∧ RevokesInTime w ev

instance (T : Tables) (point : Point) : Decidable (point.RevokedInTime T) := by
  unfold Point.RevokedInTime
  split <;> infer_instance

instance (w : World) : ∀ ev, Decidable (Settled w ev)
  | .turn id draw => inferInstanceAs (Decidable (Fresh w (.turn id draw) ∧ (w.calls id).RevokedInTime w.tables))
  | .request _ _ | .chats _ => isTrue ⟨trivial, trivial⟩

variable {w : World}

theorem World.step_recorded (recorded : EffectsRecorded w.tables) (ev : Event) :
    EffectsRecorded (w.step op ev).tables := by
  cases ev with
  | request id request =>
    rw [request_tables]
    exact recorded
  | chats chats => exact recorded
  | turn id draw =>
    exact (w.turn_change op id draw).effectsRecorded recorded

theorem World.step_ended (ended : w.tables.run.status.isTerminal = true) (ev : Event) :
    (w.step op ev).tables.run.status = w.tables.run.status := by
  cases ev with
  | request id request => rw [request_tables]
  | chats chats => rfl
  | turn id draw => rw [(w.turn_change op id draw).of_terminal ended]

theorem EffectsRecorded.exact (ev : Event) (recorded : EffectsRecorded w.tables) : EffectsExact op w ev := by
  have after : EffectsRecorded (w.step op ev).tables := step_recorded recorded ev
  refine ⟨after.once, after.executed, fun s mem => ?_, fun ended => step_ended ended ev⟩
  rw [after.audited]
  split
  · rename_i executed
    exact count_eq_one_of_mem after.once ((after.executed s mem).1 executed)
  · rename_i unexecuted
    exact count_eq_zero_of_not_mem fun performed => unexecuted ((after.executed s mem).2 performed)

structure EffectInvariant (op : OperatorRuntime) (w : World) : Prop where
  sound : w.Sound op
  counts : ∀ id, (w.calls id).Counts w.tables
  agrees : Agrees w.tables

theorem EffectInvariant.step {ev : Event} (settled : Settled w ev) (invariant : EffectInvariant op w) :
    EffectInvariant op (w.step op ev) := by
  obtain ⟨fresh, inTime⟩ := settled
  refine ⟨step_sound fresh invariant.sound, ?_, ?_⟩
  · cases ev with
    | chats chats => exact invariant.counts
    | request id request =>
      rw [World.step]
      split
      · intro id'
        dsimp only
        rw [update_apply]
        split
        · cases request <;> trivial
        · exact invariant.counts id'
      · exact invariant.counts
    | turn id draw =>
      have change := w.turn_change op id draw
      intro id'
      simp only [World.step, update_apply]
      split
      · exact turn_counts draw _ invariant.sound.recorded invariant.sound.phased (invariant.sound.calls id) fresh
          (invariant.counts id)
      · exact (invariant.counts id').extends (invariant.sound.calls id')
          (change.extends invariant.sound.recorded invariant.sound.phased (invariant.sound.calls id) fresh)
  · cases ev with
    | chats chats => exact invariant.agrees
    | request id request =>
      rw [request_tables]
      exact invariant.agrees
    | turn id draw =>
      exact (w.turn_change op id draw).agrees
        invariant.sound.phased (invariant.counts id) inTime invariant.agrees

theorem EffectInvariant.reported {ev : Event} (settled : Settled w ev) (invariant : EffectInvariant op w) :
    EffectsReported op w ev where
  toEffectsExact := invariant.sound.recorded.exact ev
  agrees := (invariant.step settled).agrees

theorem NewRun.effectInvariant (new : NewRun) : EffectInvariant op new.world where
  sound := new.sound
  counts := by
    intro id
    simp only [NewRun.world, update_apply]
    split <;> trivial
  agrees := by simp [Agrees, NewRun.world]

/-- In every run each step has its effect at most once and a final status stays; where no planner pass is overtaken and no
context is revoked too late, the final status of a run that executed agrees with its steps. -/
theorem effects_are_reported (op : OperatorRuntime) (new : NewRun) (events : List Event) :
    Along (step op) (EffectsExact op) new.world events ∧
      (Along (step op) Settled new.world events →
        Along (step op) (EffectsReported op) new.world events) := by
  have start : EffectInvariant op new.world := new.effectInvariant
  constructor
  · exact along_of_invariant (C := fun _ _ => True) (P := fun w => EffectsRecorded w.tables)
      (fun _ ev _ recorded => recorded.exact ev) (fun _ ev _ recorded => step_recorded recorded ev)
      (along_of_forall fun _ _ _ => trivial) start.sound.recorded
  · exact fun settled => along_of_invariant (fun _ _ settled invariant => invariant.reported settled)
      (fun _ _ => EffectInvariant.step) settled start

namespace Overtaken

/-- Call 2 has executed the plan of the first answer when call 0 asks for a clarification late; the user answers once more, and
call 3 starts to execute the plan of that answer. -/
def restarted : List Event :=
  turns 0 2 asksWhen ++ .request 1 .createRun :: turns 1 4 asksWhen ++
    .request 2 (.continueRun "Tomorrow" "first") :: turns 2 8 creates ++ turns 0 1 asksWhen ++
    .request 3 (.continueRun "At noon" "second") :: turns 3 5 creates

end Overtaken

open Overtaken (runtime new confirmed restarted last)

theorem effects_are_reported_confirmed : (new.world.run runtime confirmed).tables.run.status = .SUCCEEDED ∧
    Along (step runtime) (EffectsReported runtime) new.world confirmed := by
  have facts : (new.world.run runtime confirmed).tables.run.status = .SUCCEEDED ∧
      Along (step runtime) Settled new.world confirmed := by
    decide +kernel
  exact ⟨facts.1, (effects_are_reported runtime new confirmed).2 facts.2⟩

/-- A run reports success while a step of it waits. -/
theorem unreported_step {before : List Event} {last : Event}
    (began : (w.run op (before ++ [last])).tables.history.any (fun fact => fact matches .began) = true)
    (succeeded : (w.run op (before ++ [last])).tables.run.status = .SUCCEEDED)
    (waits : (w.run op (before ++ [last])).tables.steps.any (·.status ≠ .EXECUTED) = true) :
    ¬ Along (step op) (EffectsReported op) w (before ++ [last]) := by
  intro along
  have reported : EffectsReported op (w.run op before) last := (along_append.1 along).2.1
  have now : (w.run op (before ++ [last])) = (w.run op before).step op last := by simp [run]
  have agrees := reported.agrees
  rw [← now] at agrees
  obtain ⟨fact, mem, is_began⟩ := any_eq_true.1 began
  have started : .began ∈ (w.run op (before ++ [last])).tables.history := by
    cases fact with
    | began => exact mem
    | issued | accepted | performed | canceled => cases is_began
  have all := agrees started
  rw [succeeded] at all
  obtain ⟨s, mem, unexecuted⟩ := any_eq_true.1 waits
  exact of_decide_eq_true unexecuted (all s mem)

/-- The first executor reports success for steps that it never listed. -/
theorem restarted_run_is_misreported :
    ¬ Along (step runtime) (EffectsReported runtime) new.world (restarted ++ [last]) := by
  have facts : (new.world.run runtime (restarted ++ [last])).tables.history.any (fun fact => fact matches .began) = true ∧
      (new.world.run runtime (restarted ++ [last])).tables.run.status = .SUCCEEDED ∧
      (new.world.run runtime (restarted ++ [last])).tables.steps.any (·.status ≠ .EXECUTED) = true := by
    decide +kernel
  exact unreported_step facts.1 facts.2.1 facts.2.2

end Vimla.Operator
