import Vimla.Orchestration.VimlaExecutor

/-!
# A Vimla invocation has one effect

At most one tool effect commits for an invocation, with the row that names it,
in every interleaving of its runs. A run that has passed its checks can still be
overtaken, but not by two: the row of the key is inserted before the tool runs.
-/

namespace Vimla.Orchestration

open Js (Json)
open List Option
open Operator (OperatorRuntime OperatorToolName PlannerPlan PreparedStep toolRequiresConfirmation)

variable {op : OperatorRuntime} {invocation : VimlaInvocation} {w : ExecutorWorld} {me i j : Nat} {run : ExecutorRun}

/-- The row is the completed one of the effect. -/
structure ToolExecution.Names (invocation : VimlaInvocation) (row : ToolExecution) (effect : Effect) : Prop where
  status : row.status = .COMPLETED
  key : row.idempotencyKey = invocation.key
  run : row.invocationRunId = effect.runId
  tool : row.toolName = effect.toolName
  objectType : row.objectType = some effect.result.kind.upper
  objectId : row.objectId = effect.result.objectId

/-- A call that requires confirmation was approved. -/
def Permitted (invocation : VimlaInvocation) (tool : OperatorToolName) (args : Json) : Prop :=
  toolRequiresConfirmation tool args = true → invocation.approvalPolicy ≠ .auto

def ExecutorStage.Fits (invocation : VimlaInvocation) (w : ExecutorWorld) (me : Nat) (runId : String) : ExecutorStage → Prop
  | .replaying step | .creating step => Permitted invocation step.toolName step.args
  | .profiling step row | .executing step row =>
    Permitted invocation step.toolName step.args ∧ row = runningRow invocation runId step
  | .completing effect row => effect.run = me ∧ Permitted invocation effect.toolName effect.args ∧
      row.idempotencyKey = invocation.key ∧ row.invocationRunId = effect.runId ∧ row.toolName = effect.toolName
  | .committing effect row => effect.run = me ∧ Permitted invocation effect.toolName effect.args ∧ row.Names invocation effect
  | .returned (.completed (some outcome)) => outcome ≠ "NO_ACTION" → w.workspace ≠ []
  | _ => True

structure OneEffect (invocation : VimlaInvocation) (w : ExecutorWorld) : Prop where
  table : w.toolExecutions = [] ∧ w.workspace = [] ∨
    ∃ row effect, w.toolExecutions = [row] ∧ w.workspace = [effect] ∧ row.Names invocation effect
  alone : ∀ (i j : Nat) (run other : ExecutorRun), w.runs[i]? = some run → w.runs[j]? = some other → run.stage.holds → other.stage.holds → i = j
  first : ∀ (i : Nat) (run : ExecutorRun), w.runs[i]? = some run → run.stage.holds → w.workspace = []
  fits : ∀ (i : Nat) (run : ExecutorRun), w.runs[i]? = some run → run.stage.Fits invocation w i run.runId
  permitted : ∀ effect ∈ w.workspace, Permitted invocation effect.toolName effect.args
  own : ∀ effect ∈ w.workspace, ∃ run : ExecutorRun, w.runs[effect.run]? = some run ∧ run.stage = .returned (.completed (some "PASS"))

theorem OneEffect.start : OneEffect invocation .start :=
  ⟨.inl ⟨rfl, rfl⟩, by simp [ExecutorWorld.start], by simp [ExecutorWorld.start], by simp [ExecutorWorld.start],
    by simp [ExecutorWorld.start], by simp [ExecutorWorld.start]⟩

theorem OneEffect.rows_nil (one : OneEffect invocation w) (none : w.workspace = []) : w.toolExecutions = [] := by
  rcases one.table with ⟨rows, -⟩ | ⟨row, effect, -, some, -⟩
  · exact rows
  · rw [none] at some
    cases some

/-- A row that a query finds is completed, and its effect is there. -/
theorem OneEffect.found (one : OneEffect invocation w) {row : ToolExecution} (found : w.findUnique invocation.key = some row) :
    row.status = .COMPLETED ∧ w.workspace ≠ [] := by
  have mem := mem_of_find?_eq_some found
  rcases one.table with ⟨rows, -⟩ | ⟨row', effect, rows, workspace, names⟩
  · rw [rows] at mem
    cases mem
  · rw [rows, mem_singleton] at mem
    rw [mem, workspace]
    exact ⟨names.status, by simp⟩

theorem OneEffect.findUnique_none (one : OneEffect invocation w) (none : w.findUnique invocation.key = none) :
    w.workspace = [] := by
  rcases one.table with ⟨-, workspace⟩ | ⟨row, effect, rows, -, names⟩
  · exact workspace
  · simp [ExecutorWorld.findUnique, rows, names.key] at none

theorem runs_moveTo (w : ExecutorWorld) (me : Nat) (stage : ExecutorStage) (i : Nat) :
    (w.moveTo me stage).runs[i]? =
      if me = i then (w.runs[i]?).map fun run => { run with stage := stage } else w.runs[i]? := by
  simp only [ExecutorWorld.moveTo, getElem?_modify]
  by_cases here : me = i
  · simp [here]
  · simp [here]

variable {stage : ExecutorStage} {runId : String} {effect : Effect} {row : ToolExecution}

/-- A run that has not committed takes its next stage. -/
theorem OneEffect.moveTo (one : OneEffect invocation w) (found : w.runs[me]? = some run)
    (fits : stage.Fits invocation w me run.runId)
    (alone : stage.holds → w.workspace = [] ∧ ∀ j other, w.runs[j]? = some other → other.stage.holds → j = me)
    (own : run.stage = .returned (.completed (some "PASS")) → stage = run.stage) :
    OneEffect invocation (w.moveTo me stage) := by
  have moved (i : Nat) (run' : ExecutorRun) (here : (w.moveTo me stage).runs[i]? = some run') :
      i = me ∧ run' = { run with stage := stage } ∨ i ≠ me ∧ w.runs[i]? = some run' := by
    rw [runs_moveTo] at here
    split at here
    · rename_i same
      subst same
      rw [found] at here
      exact .inl ⟨rfl, (some.inj here).symm⟩
    · rename_i other
      exact .inr ⟨Ne.symm other, here⟩
  refine ⟨one.table, ?_, ?_, ?_, one.permitted, ?_⟩
  · intro i j run₁ run₂ here there holds holds'
    rcases moved i run₁ here with ⟨rfl, rfl⟩ | ⟨-, old⟩
    · rcases moved j run₂ there with ⟨rfl, -⟩ | ⟨-, old'⟩
      · rfl
      · exact ((alone holds).2 j run₂ old' holds').symm
    · rcases moved j run₂ there with ⟨rfl, rfl⟩ | ⟨-, old'⟩
      · exact (alone holds').2 i run₁ old holds
      · exact one.alone i j run₁ run₂ old old' holds holds'
  · intro i run' here holds
    rcases moved i run' here with ⟨rfl, rfl⟩ | ⟨-, old⟩
    · exact (alone holds).1
    · exact one.first i run' old holds
  · intro i run' here
    rcases moved i run' here with ⟨rfl, rfl⟩ | ⟨-, old⟩
    · exact fits
    · exact one.fits i run' old
  · intro effect mem
    obtain ⟨run', there, done⟩ := one.own effect mem
    by_cases same : me = effect.run
    · subst same
      rw [found] at there
      cases there
      refine ⟨{ run with stage := stage }, ?_, (own done).trans done⟩
      rw [runs_moveTo, if_pos rfl, found, map_some]
    · exact ⟨run', by rw [runs_moveTo, if_neg same, there], done⟩

variable {planned : PlannerPlan}

theorem resolvePlan_calls {step : PreparedStep}
    (calls : resolvePlan op invocation planned = .calls step) : Permitted invocation step.toolName step.args := by
  unfold resolvePlan at calls
  split at calls
  · split at calls <;> cases calls
  · cases calls
  · cases calls
  · split at calls
    · cases calls
    · split at calls
      · cases calls
      · rename_i allowed
        cases calls
        exact fun requires auto => allowed ⟨requires, auto⟩
    · cases calls

theorem resolvePlan_returns {outcome : String}
    (returns : resolvePlan op invocation planned = .returns (.completed (some outcome))) : outcome = "NO_ACTION" := by
  unfold resolvePlan at returns
  split at returns
  · split at returns
    · cases returns
    · cases returns
      rfl
  · cases returns
  · cases returns
  · split at returns
    · cases returns
    · split at returns <;> cases returns
    · cases returns

theorem callTool_ok {step : PreparedStep} {tool : Except Failure ToolHandlerResult}
    (called : callTool op me runId step tool = .ok effect)
    (permitted : Permitted invocation step.toolName step.args) :
    effect.run = me ∧ effect.runId = runId ∧ effect.toolName = step.toolName ∧
      Permitted invocation effect.toolName effect.args := by
  unfold callTool Operator.parseToolArgs at called
  cases parsed : op.schemas.safeParse step.toolName step.args with
  | none =>
    rw [parsed] at called
    cases called
  | some args =>
    rw [parsed] at called
    cases tool with
    | error e => cases called
    | ok result =>
      cases called
      refine ⟨rfl, rfl, rfl, fun requires => permitted ?_⟩
      rw [← op.schemas.requires_parsed parsed]
      exact requires

/-- The stage holds nothing and claims nothing. -/
def ExecutorStage.Idle : ExecutorStage → Prop
  | .returned (.completed _) => False
  | .replaying _ | .creating _ | .profiling _ _ | .executing _ _ | .completing _ _ | .committing _ _ => False
  | _ => True

theorem ExecutorStage.Idle.fits (idle : stage.Idle) (w : ExecutorWorld) (runId : String) :
    stage.Fits invocation w me runId ∧ stage.holds = false := by
  cases stage with
  | returned result =>
    cases result with
    | completed outcome => exact absurd idle id
    | _ => exact ⟨trivial, rfl⟩
  | replaying | creating | profiling | executing | completing | committing => exact absurd idle id
  | _ => exact ⟨trivial, rfl⟩

theorem classify_idle (e : Failure) : (ExecutorStage.returned (classifyVimlaExecutionError e)).Idle := by
  cases e <;> trivial

theorem rolledBack_idle (e : Failure) : (rolledBack e).Idle := by
  cases e <;> trivial

/-- A stage that a statement leads to. -/
def Follows (invocation : VimlaInvocation) (w : ExecutorWorld) (me : Nat) (run : ExecutorRun) (stage : ExecutorStage) : Prop :=
  stage.Fits invocation w me run.runId ∧ (stage.holds → run.stage.holds ∨
    w.workspace = [] ∧ ∀ j other, w.runs[j]? = some other → other.stage.holds → j = me)

theorem Follows.of_idle (idle : stage.Idle) : Follows invocation w me run stage := by
  obtain ⟨fits, free⟩ := @ExecutorStage.Idle.fits invocation me stage idle w run.runId
  exact ⟨fits, fun holds => by rw [free] at holds; cases holds⟩

theorem not_waits (free : w.waits me = false) {other : ExecutorRun} (found : w.runs[j]? = some other)
    (holds : other.stage.holds = true) : j = me := by
  by_contra ne
  have mem : (other, j) ∈ w.runs.zipIdx := by
    rw [mem_zipIdx_iff_getElem?]
    exact found
  have waiting := any_eq_false.1 free (other, j) mem
  simp [ne, holds] at waiting

/-- The next statement of the run is the commit. -/
def ExecutorStage.commits : ExecutorStage → Bool
  | .committing _ _ => true
  | _ => false

theorem OneEffect.follows (one : OneEffect invocation w) (found : w.runs[me]? = some run) (a : ExecutorAnswer)
    (uncommitted : run.stage.commits = false) :
    Follows invocation w me run (nextStage op invocation w me run.runId a run.stage) := by
  have fits := one.fits me run found
  have done : ∀ row, w.findUnique invocation.key = some row → ∀ outcome,
      (ExecutorStage.returned (.completed (some outcome))).Fits invocation w me run.runId :=
    fun row existing _ _ => (one.found existing).2
  cases at_ : run.stage with
  | finding =>
    simp only [nextStage]
    split <;> exact Follows.of_idle trivial
  | checking =>
    simp only [nextStage]
    split
    · exact Follows.of_idle trivial
    · split
      · exact Follows.of_idle trivial
      · rename_i existing here
        rw [if_pos (one.found here).1]
        exact ⟨done existing here _, nofun⟩
  | planning =>
    simp only [nextStage]
    split
    · exact Follows.of_idle (classify_idle _)
    · split
      · rename_i result resolved
        cases result with
        | completed outcome =>
          cases outcome with
          | none => exact ⟨trivial, nofun⟩
          | some outcome => exact ⟨fun acted => absurd (resolvePlan_returns resolved) acted, nofun⟩
        | _ => exact Follows.of_idle trivial
      · exact Follows.of_idle (classify_idle _)
      · rename_i resolved
        exact ⟨resolvePlan_calls resolved, nofun⟩
  | replaying step =>
    rw [at_] at fits
    simp only [nextStage]
    split
    · exact Follows.of_idle (rolledBack_idle _)
    · split
      · exact ⟨fits, nofun⟩
      · rename_i existing here
        rw [if_pos (one.found here).1]
        exact ⟨done existing here _, nofun⟩
  | creating step =>
    rw [at_] at fits
    simp only [nextStage]
    split
    · exact ⟨fits, nofun⟩
    · rename_i free
      split
      · exact Follows.of_idle (rolledBack_idle _)
      · split
        · exact Follows.of_idle (rolledBack_idle _)
        · rename_i fresh
          refine ⟨⟨fits, rfl⟩, fun _ => .inr ⟨?_, fun j other there => not_waits (by simpa using free) there⟩⟩
          rcases one.table with ⟨-, none⟩ | ⟨row, effect, rows, -, names⟩
          · exact none
          · simp [rows, names.key] at fresh
  | profiling step row =>
    rw [at_] at fits
    simp only [nextStage]
    split
    · exact Follows.of_idle (rolledBack_idle _)
    · split
      · exact ⟨fits, fun _ => .inl (by rw [at_]; rfl)⟩
      · exact Follows.of_idle (rolledBack_idle _)
  | executing step row =>
    rw [at_] at fits
    obtain ⟨permitted, rfl⟩ := fits
    simp only [nextStage]
    split
    · exact Follows.of_idle (rolledBack_idle _)
    · rename_i effect called
      obtain ⟨mine, runId, tool, allowed⟩ := callTool_ok called permitted
      exact ⟨⟨mine, allowed, rfl, runId.symm, tool.symm⟩, fun _ => .inl (by rw [at_]; rfl)⟩
  | completing effect row =>
    rw [at_] at fits
    obtain ⟨mine, permitted, key, runId, tool⟩ := fits
    simp only [nextStage]
    split
    · exact Follows.of_idle (rolledBack_idle _)
    · exact ⟨⟨mine, permitted, rfl, key, runId, tool, rfl, rfl⟩, fun _ => .inl (by rw [at_]; rfl)⟩
  | committing effect row =>
    rw [at_] at uncommitted
    cases uncommitted
  | rereading error =>
    simp only [nextStage]
    split
    · exact Follows.of_idle (classify_idle _)
    · split
      · rename_i existing here
        rw [if_pos (one.found here).1]
        exact ⟨done existing here _, nofun⟩
      · exact Follows.of_idle (classify_idle _)
  | returned result =>
    rw [at_] at fits
    exact ⟨fits, nofun⟩
  | threw | crashed => exact Follows.of_idle trivial

theorem OneEffect.follow (one : OneEffect invocation w) (found : w.runs[me]? = some run)
    (follows : Follows invocation w me run stage)
    (own : run.stage = .returned (.completed (some "PASS")) → stage = run.stage) :
    OneEffect invocation (w.moveTo me stage) := by
  apply one.moveTo found follows.1 _ own
  intro holds
  rcases follows.2 holds with held | alone
  · exact ⟨one.first me run found held, fun j other there holds' => one.alone j me other run there found holds' held⟩
  · exact alone

/-- The commit: the first effect, with its row. -/
theorem OneEffect.commit (one : OneEffect invocation w)
    (found : w.runs[me]? = some ⟨runId, .committing effect row⟩) :
    OneEffect invocation { w.moveTo me (.returned (.completed (some "PASS"))) with
      toolExecutions := [row]
      workspace := [effect] } := by
  obtain ⟨mine, permitted, names⟩ := one.fits me _ found
  have stands (i : Nat) (run' : ExecutorRun)
      (here : (w.moveTo me (.returned (.completed (some "PASS")))).runs[i]? = some run') :
      run'.stage = .returned (.completed (some "PASS")) ∨ w.runs[i]? = some run' ∧ run'.stage.holds = false := by
    rw [runs_moveTo] at here
    split at here
    · rename_i same
      subst same
      rw [found, map_some] at here
      cases here
      exact .inl rfl
    · rename_i other
      refine .inr ⟨here, ?_⟩
      by_contra holds
      exact other (one.alone me i _ run' found here rfl (by simpa using holds))
  refine ⟨.inr ⟨row, effect, rfl, rfl, names⟩, ?_, ?_, ?_, ?_, ?_⟩
  · intro i j run₁ run₂ here _ holds _
    rcases stands i run₁ here with done | ⟨-, free⟩
    · rw [done] at holds
      cases holds
    · rw [free] at holds
      cases holds
  · intro i run' here holds
    rcases stands i run' here with done | ⟨-, free⟩
    · rw [done] at holds
      cases holds
    · rw [free] at holds
      cases holds
  · intro i run' here
    rcases stands i run' here with done | ⟨old, free⟩
    · rw [done]
      exact fun _ => by simp
    · have fits := one.fits i run' old
      cases at_ : run'.stage with
      | replaying step | creating step =>
        rw [at_] at fits
        exact fits
      | profiling step row | executing step row | completing effect row | committing effect row =>
        rw [at_] at free
        cases free
      | returned result =>
        cases result with
        | completed outcome =>
          cases outcome with
          | none => trivial
          | some outcome => exact fun _ => by simp
        | _ => trivial
      | _ => trivial
  · intro effect' mem
    rw [mem_singleton.1 mem]
    exact permitted
  · intro effect' mem
    rw [mem_singleton.1 mem, mine]
    refine ⟨⟨runId, .returned (.completed (some "PASS"))⟩, ?_, rfl⟩
    have there := runs_moveTo w me (.returned (.completed (some "PASS"))) me
    rwa [if_pos rfl, found] at there

theorem step_advance (found : w.runs[me]? = some run) (a : ExecutorAnswer)
    (uncommitted : run.stage.commits = false) :
    w.step op invocation (.advance me a) = w.moveTo me (nextStage op invocation w me run.runId a run.stage) := by
  have none : commitOf a run.stage = ([], []) := by
    unfold commitOf
    split
    · rename_i effect row at_
      rw [at_] at uncommitted
      cases uncommitted
    · rfl
  rw [ExecutorWorld.step, found]
  simp only [none, append_nil]
  rfl

/-- A commit that fails leaves nothing. -/
theorem OneEffect.commits (one : OneEffect invocation w)
    (found : w.runs[me]? = some ⟨runId, .committing effect row⟩) (a : ExecutorAnswer) :
    OneEffect invocation (w.step op invocation (.advance me a)) := by
  rw [ExecutorWorld.step, found]
  cases fails : a.fails with
  | true =>
    simp only [commitOf, nextStage, fails, if_true, append_nil]
    apply one.follow found (Follows.of_idle (rolledBack_idle .other))
    intro done
    cases done
  | false =>
    have none := one.first me _ found rfl
    have committed := one.commit found
    simp only [commitOf, nextStage, fails, none, one.rows_nil none, nil_append]
    exact committed

theorem OneEffect.step (one : OneEffect invocation w) (event : ExecutorEvent) :
    OneEffect invocation (w.step op invocation event) := by
  cases event with
  | arrive runId =>
    have old (i : Nat) (run : ExecutorRun) (here : (w.runs ++ [⟨runId, .finding⟩])[i]? = some run) :
        run.stage = .finding ∨ w.runs[i]? = some run := by
      rw [getElem?_append] at here
      split at here
      · exact .inr here
      · have new := mem_of_getElem? here
        rw [mem_singleton.1 new]
        exact .inl rfl
    refine ⟨one.table, ?_, ?_, ?_, one.permitted, ?_⟩
    · intro i j run₁ run₂ here there holds holds'
      rcases old i run₁ here with new | before
      · rw [new] at holds
        cases holds
      · rcases old j run₂ there with new | before'
        · rw [new] at holds'
          cases holds'
        · exact one.alone i j run₁ run₂ before before' holds holds'
    · intro i run here holds
      rcases old i run here with new | before
      · rw [new] at holds
        cases holds
      · exact one.first i run before holds
    · intro i run here
      rcases old i run here with new | before
      · rw [new]
        trivial
      · exact one.fits i run before
    · intro effect mem
      obtain ⟨run, there, done⟩ := one.own effect mem
      refine ⟨run, ?_, done⟩
      exact List.getElem?_append_left (List.getElem?_eq_some_iff.1 there).1 ▸ there
  | advance me a =>
    cases found : w.runs[me]? with
    | none =>
      rw [ExecutorWorld.step, found]
      exact one
    | some run =>
      cases uncommitted : run.stage.commits with
      | true =>
        obtain ⟨runId, stage⟩ := run
        cases stage with
        | committing effect row => exact one.commits found a
        | _ => cases uncommitted
      | false =>
        rw [step_advance found a uncommitted]
        apply one.follow found (one.follows found a uncommitted)
        intro done
        rw [done]
        rfl
  | crash me =>
    rw [ExecutorWorld.step]
    cases found : w.runs[me]? with
    | none => exact one
    | some run =>
      simp only
      split
      · exact one
      · exact one
      · rename_i returned _
        have idle : ExecutorStage.crashed.Idle := trivial
        apply one.follow found (Follows.of_idle idle)
        intro done
        exact absurd done (returned _)

/-- Where a run can be that began after the commit. -/
def ExecutorStage.Replays : ExecutorStage → Prop
  | .finding | .checking | .threw | .crashed => True
  | .returned result => result = .completed (some "REPLAYED")
  | _ => False

structure Later (n : Nat) (w : ExecutorWorld) : Prop where
  committed : w.workspace ≠ []
  replays : ∀ (i : Nat) (run : ExecutorRun), n ≤ i → w.runs[i]? = some run → run.stage.Replays

theorem OneEffect.findUnique (one : OneEffect invocation w) (committed : w.workspace ≠ []) :
    ∃ row, w.findUnique invocation.key = some row ∧ row.status = .COMPLETED := by
  cases found : w.findUnique invocation.key with
  | none => exact absurd (one.findUnique_none found) committed
  | some row => exact ⟨row, rfl, (one.found found).1⟩

theorem OneEffect.replays (one : OneEffect invocation w) (committed : w.workspace ≠ []) (a : ExecutorAnswer)
    (replays : stage.Replays) : (nextStage op invocation w me runId a stage).Replays := by
  obtain ⟨row, found, status⟩ := one.findUnique committed
  cases stage with
  | finding =>
    simp only [nextStage]
    split <;> trivial
  | checking =>
    simp only [nextStage]
    split
    · trivial
    · rw [found]
      simp only [if_pos status]
      rfl
  | returned | threw | crashed => exact replays
  | planning | replaying | creating | profiling | executing | completing | committing | rereading =>
    exact absurd replays id

theorem Later.moveTo {n : Nat} (later : Later n w) (replays : n ≤ me → stage.Replays) : Later n (w.moveTo me stage) := by
  refine ⟨later.committed, ?_⟩
  intro i run after here
  rw [runs_moveTo] at here
  split at here
  · rename_i same
    subst same
    obtain ⟨old, -, rfl⟩ := map_eq_some_iff.1 here
    exact replays after
  · exact later.replays i run after here

theorem Later.step {n : Nat} (one : OneEffect invocation w) (later : Later n w) (event : ExecutorEvent) :
    Later n (w.step op invocation event) := by
  cases event with
  | arrive runId =>
    refine ⟨later.committed, ?_⟩
    intro i run after here
    rw [ExecutorWorld.step, getElem?_append] at here
    split at here
    · exact later.replays i run after here
    · have new := mem_of_getElem? here
      rw [mem_singleton.1 new]
      trivial
  | advance me a =>
    cases found : w.runs[me]? with
    | none =>
      rw [ExecutorWorld.step, found]
      exact later
    | some run =>
      have uncommitted : run.stage.commits = false := by
        by_contra commits
        refine later.committed (one.first me run found ?_)
        cases at_ : run.stage with
        | committing => rfl
        | _ => simp [at_, ExecutorStage.commits] at commits
      rw [step_advance found a uncommitted]
      apply later.moveTo
      intro after
      exact one.replays later.committed a (later.replays me run after found)
  | crash me =>
    rw [ExecutorWorld.step]
    cases w.runs[me]? with
    | none => exact later
    | some run =>
      simp only
      split
      · exact later
      · exact later
      · exact later.moveTo fun _ => trivial

/-- The run is the only one that may hold a row, and nothing is committed. -/
structure Solo (w : ExecutorWorld) (me : Nat) (runId : String) (stage : ExecutorStage) : Prop where
  here : w.runs[me]? = some ⟨runId, stage⟩
  free : ∀ (j : Nat) (other : ExecutorRun), w.runs[j]? = some other → other.stage.holds → j = me
  empty : w.toolExecutions = []

theorem Solo.waits (solo : Solo w me runId stage) : w.waits me = false := by
  apply any_eq_false.2
  intro pair mem
  obtain ⟨other, j⟩ := pair
  rw [mem_zipIdx_iff_getElem?] at mem
  intro waiting
  simp only [Bool.and_eq_true, decide_eq_true_eq] at waiting
  exact waiting.1 (solo.free j other mem waiting.2)

theorem Solo.advance (solo : Solo w me runId stage) (a : ExecutorAnswer) (uncommitted : stage.commits = false)
    {after : ExecutorStage} (leads : nextStage op invocation w me runId a stage = after) :
    Solo (w.step op invocation (.advance me a)) me runId after := by
  rw [step_advance solo.here a uncommitted]
  simp only [leads]
  refine ⟨?_, ?_, solo.empty⟩
  · rw [runs_moveTo, if_pos rfl, solo.here, map_some]
  · intro j other here holds
    rw [runs_moveTo] at here
    split at here
    · rename_i same
      exact same.symm
    · exact solo.free j other here holds

theorem Solo.fresh (solo : Solo w me runId stage) : w.findUnique invocation.key = none := by
  rw [ExecutorWorld.findUnique, solo.empty]
  rfl

/-- Nothing fails, the planner answers this plan and the tool this result. -/
def favourable (planned : PlannerPlan) (result : ToolHandlerResult) : ExecutorAnswer := ⟨false, .ok planned, true, .ok result⟩

/-- The nine statements of a run, none of which fails. -/
def wholeRun (me : Nat) (planned : PlannerPlan) (result : ToolHandlerResult) : List ExecutorEvent :=
  List.replicate 9 (.advance me (favourable planned result))

variable {a : ExecutorAnswer}

theorem runs_committed (found : w.runs[me]? = some ⟨runId, .committing effect row⟩)
    (fails : a.fails = false) :
    (w.step op invocation (.advance me a)).runs[me]? = some ⟨runId, .returned (.completed (some "PASS"))⟩ := by
  rw [ExecutorWorld.step, found]
  simp only [nextStage, fails]
  rw [runs_moveTo, if_pos rfl, found]
  rfl

section Favourable
variable {planned : PlannerPlan} {step : PreparedStep} {args : Json} {runId : String}

theorem Solo.completes (solo : Solo w me runId .finding) (calls : resolvePlan op invocation planned = .calls step)
    (parsed : Operator.parseToolArgs op step.toolName step.args = .ok args) (result : ToolHandlerResult) :
    ((wholeRun me planned result).foldl (ExecutorWorld.step op invocation) w).runs[me]? =
      some ⟨runId, .returned (.completed (some "PASS"))⟩ := by
  rw [wholeRun]
  obtain ⟨a, answers⟩ : ∃ a, a = favourable planned result := ⟨_, rfl⟩
  have fails : a.fails = false := by rw [answers]; rfl
  have plan : a.planned = .ok planned := by rw [answers]; rfl
  have user : a.userFound = true := by rw [answers]; rfl
  have tool : a.tool = .ok result := by rw [answers]; rfl
  rw [← answers]
  have next {w : ExecutorWorld} {stage after : ExecutorStage} (solo : Solo w me runId stage) (uncommitted : stage.commits = false)
      (leads : nextStage op invocation w me runId a stage = after) := solo.advance a uncommitted leads
  have checking : Solo _ me runId .checking := next solo rfl (by simp [nextStage, fails])
  have planning : Solo _ me runId .planning := next checking rfl (by simp [nextStage, fails, checking.fresh])
  have replaying : Solo _ me runId (.replaying step) := next planning rfl (by simp [nextStage, plan, calls])
  have creating : Solo _ me runId (.creating step) := next replaying rfl (by simp [nextStage, fails, replaying.fresh])
  have profiling : Solo _ me runId (.profiling step (runningRow invocation runId step)) :=
    next creating rfl (by simp [nextStage, fails, creating.waits, creating.empty])
  have executing : Solo _ me runId (.executing step (runningRow invocation runId step)) :=
    next profiling rfl (by simp [nextStage, fails, user])
  have completing : Solo _ me runId (.completing ⟨me, runId, step.toolName, args, result⟩ (runningRow invocation runId step)) :=
    next executing rfl (by simp [nextStage, callTool, parsed, tool])
  have committing := next completing rfl (by simp only [nextStage, fails]; rfl)
  simp only [replicate, foldl_cons, foldl_nil]
  exact runs_committed committing.here fails

/-- The second statement of a later run finds the row. -/
theorem OneEffect.replayed (one : OneEffect invocation w) (committed : w.workspace ≠ [])
    (here : w.runs[me]? = some ⟨runId, .finding⟩) (fails : a.fails = false) :
    ([.advance me a, .advance me a].foldl (ExecutorWorld.step op invocation) w).runs[me]? =
      some ⟨runId, .returned (.completed (some "REPLAYED"))⟩ := by
  have checking : w.step op invocation (.advance me a) = w.moveTo me .checking := by
    rw [step_advance here a rfl]
    simp [nextStage, fails]
  have moved : (w.moveTo me .checking).runs[me]? = some ⟨runId, .checking⟩ := by
    rw [runs_moveTo, if_pos rfl, here]
    rfl
  obtain ⟨row, found, status⟩ := one.findUnique committed
  have stays : (w.moveTo me .checking).findUnique invocation.key = some row := found
  rw [foldl_cons, foldl_cons, foldl_nil, checking, step_advance moved a rfl, runs_moveTo, if_pos rfl, moved]
  simp [nextStage, fails, stays, status]

/-- A worker that stops rolls its transaction back. -/
theorem OneEffect.released (op : OperatorRuntime) (one : OneEffect invocation w) :
    ∃ more : List ExecutorEvent, (more.foldl (ExecutorWorld.step op invocation) w).runs.length = w.runs.length ∧
      ∀ (i : Nat) (run : ExecutorRun), (more.foldl (ExecutorWorld.step op invocation) w).runs[i]? = some run →
        run.stage.holds = false := by
  by_cases held : ∃ (i : Nat) (run : ExecutorRun), w.runs[i]? = some run ∧ run.stage.holds = true
  · obtain ⟨i, run, found, holds⟩ := held
    have crashed : w.step op invocation (.crash i) = w.moveTo i .crashed := by
      rw [ExecutorWorld.step, found]
      cases at_ : run.stage with
      | profiling | executing | completing | committing => simp [at_]
      | _ => simp [at_, ExecutorStage.holds] at holds
    refine ⟨[.crash i], ?_, ?_⟩
    · rw [foldl_cons, foldl_nil, crashed, ExecutorWorld.moveTo, length_modify]
    · intro j other here
      rw [foldl_cons, foldl_nil, crashed, runs_moveTo] at here
      split at here
      · obtain ⟨old, -, rfl⟩ := map_eq_some_iff.1 here
        rfl
      · rename_i apart
        by_contra holds'
        exact apart (one.alone i j run other found here holds (by simpa using holds'))
  · refine ⟨[], rfl, ?_⟩
    intro i run here
    by_contra holds
    exact held ⟨i, run, here, by simpa using holds⟩

theorem OneEffect.resumes (one : OneEffect invocation w) (calls : resolvePlan op invocation planned = .calls step)
    (parsed : Operator.parseToolArgs op step.toolName step.args = .ok args) (result : ToolHandlerResult) (runId : String) :
    ∃ (more : List ExecutorEvent) (outcome : String), (outcome = "PASS" ∨ outcome = "REPLAYED") ∧
      (more.foldl (ExecutorWorld.step op invocation) w).runs[w.runs.length]? =
        some ⟨runId, .returned (.completed (some outcome))⟩ := by
  obtain ⟨released, length, free⟩ := one.released op
  obtain ⟨w₁, same⟩ : ∃ w₁, w₁ = released.foldl (ExecutorWorld.step op invocation) w := ⟨_, rfl⟩
  have one₁ : OneEffect invocation w₁ := same ▸ Runs.invariant (fun _ event one => one.step event) released one
  rw [← same] at length free
  have here : (w₁.step op invocation (.arrive runId)).runs[w.runs.length]? = some ⟨runId, .finding⟩ := by
    rw [ExecutorWorld.step, ← length]
    exact getElem?_concat_length
  have arrived : OneEffect invocation (w₁.step op invocation (.arrive runId)) := one₁.step (.arrive runId)
  by_cases committed : w₁.workspace = []
  · have solo : Solo (w₁.step op invocation (.arrive runId)) w.runs.length runId .finding := by
      refine ⟨here, ?_, one₁.rows_nil committed⟩
      intro j other there holds
      rw [ExecutorWorld.step, getElem?_append] at there
      split at there
      · rw [free j other there] at holds
        cases holds
      · have new := mem_of_getElem? there
        rw [mem_singleton.1 new] at holds
        cases holds
    refine ⟨released ++ .arrive runId :: wholeRun w.runs.length planned result, "PASS", .inl rfl, ?_⟩
    rw [foldl_append, ← same, foldl_cons]
    exact solo.completes calls parsed result
  · refine ⟨released ++ .arrive runId :: replicate 2 (.advance w.runs.length (favourable planned result)),
      "REPLAYED", .inr rfl, ?_⟩
    rw [foldl_append, ← same, foldl_cons]
    exact arrived.replayed committed here rfl

end Favourable

namespace Overlap

/-- Reads no texts; the arguments of every call pass their schema. -/
def operator : OperatorRuntime where
  jsonParse _ := none
  schemas := Operator.Overtaken.runtime.schemas
  sanitizePublicText text _ := text
  hashConfirmationToken token := token
  operatorMaxToolsPerRun := 8
  confirmationTtl := 900000
  plannerEnabled := true

def create : VimlaInvocation := ⟨"create", .internalWrite, .auto⟩

def calls (title : String) : PlannerPlan := ⟨.act, ".", none, [⟨"tasks.create", .object [("title", .string title)]⟩]⟩

def advances (me count : Nat) (title : String) : List ExecutorEvent :=
  List.replicate count (.advance me (favourable (calls title) ⟨.task, some title⟩))

/-- Two runs plan different calls and reach the insert; the second waits for the first, collides and
reads its row. A third begins later. -/
def events : List ExecutorEvent :=
  [.arrive "r0", .arrive "r1"] ++ advances 0 4 "A" ++ advances 1 4 "B" ++ advances 0 1 "A" ++ advances 1 1 "B" ++
    advances 0 4 "A" ++ advances 1 2 "B" ++ .arrive "r2" :: advances 2 2 "C"

def outcomes (w : ExecutorWorld) : List (Option InvocationExecutionResult) :=
  w.runs.map fun run => match run.stage with
    | .returned result => some result
    | _ => none

end Overlap

end Vimla.Orchestration
