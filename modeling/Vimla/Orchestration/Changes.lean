import Vimla.Orchestration.Moves

/-!
# What a transaction changes

`Change` says in terms of the plan at the commit what any of the transactions
can do to it. A worker's transaction has read an older plan, but between its
read and its commit only invocations that wait for approval move.
-/

namespace Vimla.Orchestration

open List

structure RuntimePlan.Ok (definition : ExecutionPlan) (plan : RuntimePlan) : Prop where
  definition : plan.definition = definition
  rows : ∀ row ∈ plan.invocations, row.Ok
  closed : isTerminalPlanStatus plan.status = true →
    ∀ row ∈ plan.invocations, isTerminalInvocationStatus row.status = true
  unopened : plan.status = .planned ∨ plan.status = .planning →
    ∀ row ∈ plan.invocations, row.status = .pending
  parallel : plan.runningCount ≤ plan.maxParallelism

inductive Drifted (row : RuntimeInvocation) : RuntimeInvocation → Prop
  | same : Drifted row row
  | approved {row' : RuntimeInvocation} (waiting : row.status = .waitingApproval)
    (invocation : row'.invocation = row.invocation) (ready : row'.status = .ready) : Drifted row row'
  | resolved {row' : RuntimeInvocation} (waiting : row.status = .waitingApproval)
    (invocation : row'.invocation = row.invocation) (human : row.invocation.isHumanEvaluator = true)
    (completed : row'.status = .completed) : Drifted row row'

structure Drift (seen cur : RuntimePlan) : Prop where
  status : cur.status = seen.status
  rows : Rewrites Drifted seen cur

theorem Drifted.invocation {row row' : RuntimeInvocation} (h : Drifted row row') :
    row'.invocation = row.invocation := by
  cases h with
  | same => rfl
  | approved _ invocation | resolved _ invocation => exact invocation

variable {row row' : RuntimeInvocation} {R : RuntimeInvocation → RuntimeInvocation → Prop} {next : RuntimePlan}

theorem Drifted.fixed (h : Drifted row row') (settled : row.status ≠ .waitingApproval) : row' = row := by
  cases h with
  | same => rfl
  | approved waiting | resolved waiting => exact absurd waiting settled

theorem Drift.refl (plan : RuntimePlan) : Drift plan plan :=
  ⟨rfl, Rewrites.refl fun _ => .same⟩

/-- A row that does not wait for approval is still as it was read. -/
theorem Drift.kept {seen cur : RuntimePlan} (h : Drift seen cur) (hrow : row ∈ seen.invocations)
    (settled : row.status ≠ .waitingApproval) : row ∈ cur.invocations := by
  obtain ⟨row', mem, drifted⟩ := h.rows.forth hrow
  exact drifted.fixed settled ▸ mem

/-- A run that is `RUNNING`, as are its invocation and its plan: it is the last. -/
structure Live (plan : RuntimePlan) (row : RuntimeInvocation) (before : List InvocationRun)
    (run : InvocationRun) : Prop where
  started : plan.status = .running
  mem : row ∈ plan.invocations
  active : row.status = .running
  runs : row.runs = before ++ [run]
  running : run.status = .running

/-- Moves that touch the status only and need nobody's word. -/
inductive Swept (row : RuntimeInvocation) : RuntimeInvocation → Prop
  | stay : Swept row row
  | decide (pending : row.status = .pending) (decision : ReadinessDecision) :
    Swept row { row with status := statusOf row.invocation.approvalPolicy decision }
  | resume (waited : row.status = .waitingForUsageCapacity ∨ row.status = .blockedInsufficientUsage) :
    Swept row { row with status := .ready }
  | cancel (active : isTerminalInvocationStatus row.status = false) :
    Swept row { row with status := .canceled }

/-- `row` becomes `row'` and the others stay. -/
def Becomes (row row' r r' : RuntimeInvocation) : Prop :=
  r' = if r.id = row.id then row' else r

/-- `row` becomes `row'` and the others may be canceled. -/
def BecomesOverSwept (row row' r r' : RuntimeInvocation) : Prop :=
  if r.id = row.id then r' = row' else Swept r r'

def RuntimePlan.Closed (plan : RuntimePlan) : Prop :=
  isTerminalPlanStatus plan.status = true ∧
    ∀ row ∈ plan.invocations, isTerminalInvocationStatus row.status = true

inductive Change (options : OrchestrationRuntimeOptions) (now : Int) (cur : RuntimePlan) :
    Transaction → RuntimePlan → List Event → Prop
  | idle {t : Transaction} : Change options now cur t cur []
  | swept {t : Transaction} {next : RuntimePlan} (locked : t.locks cur = true)
    (active : isTerminalPlanStatus cur.status = false) (rows : Rewrites Swept cur next)
    (ends : next.status = .running ∨ next.Closed) :
    Change options now cur t next []
  | approved {t : Transaction} {next : RuntimePlan} {row : RuntimeInvocation}
    (running : cur.status = .running) (status : next.status = cur.status)
    (mem : row ∈ cur.invocations) (waiting : row.status = .waitingApproval)
    (machine : row.invocation.isHumanEvaluator = false)
    (rows : Rewrites (Becomes row { row with status := .ready }) cur next) :
    Change options now cur t next [.approved row.id]
  | resolved {t : Transaction} {next : RuntimePlan} {row : RuntimeInvocation} {run : InvocationRun}
    (running : cur.status = .running) (status : next.status = cur.status)
    (mem : row ∈ cur.invocations) (waiting : row.status = .waitingApproval)
    (human : row.invocation.isHumanEvaluator = true) (attempt : run.attempt = row.nextAttempt)
    (ended : run.status = .completed)
    (rows : Rewrites (Becomes row { row with status := .completed, runs := row.runs ++ [run] }) cur next) :
    Change options now cur t next []
  | claimed {t : Transaction} {next : RuntimePlan} {row : RuntimeInvocation} {run : InvocationRun}
    (locked : t.locks cur = true) (running : cur.status = .running) (status : next.status = cur.status)
    (mem : row ∈ cur.invocations) (ready : row.status = .ready)
    (room : cur.runningCount < cur.maxParallelism) (attempt : run.attempt = row.nextAttempt)
    (started : run.status = .running)
    (rows : Rewrites (Becomes row { row with status := .running, runs := row.runs ++ [run] }) cur next) :
    Change options now cur t next [.claimed row.id run.attempt]
  | ended {t : Transaction} {next : RuntimePlan} {row : RuntimeInvocation} {before : List InvocationRun}
    {run run' : InvocationRun} {outcome : InvocationStatus} (locked : t.locks cur = true)
    (live : Live cur row before run)
    (status : next.status = cur.status) (attempt : run'.attempt = run.attempt)
    (unfailed : run'.status ≠ .failed) (settles : Settles run'.status outcome)
    (rows : Rewrites (Becomes row { row with status := outcome, runs := before ++ [run'] }) cur next) :
    Change options now cur t next []
  | retried {t : Transaction} {next : RuntimePlan} {row : RuntimeInvocation}
    {before : List InvocationRun} {run run' : InvocationRun} (locked : t.locks cur = true)
    (live : Live cur row before run) (status : next.status = cur.status) (attempt : run'.attempt = run.attempt)
    (failed : run'.status = .failed) (left : run.attempt < options.maxAttempts)
    (rows : Rewrites (Becomes row { row with status := .ready, runs := before ++ [run'] }) cur next) :
    Change options now cur t next []
  | failed {t : Transaction} {next : RuntimePlan} {row : RuntimeInvocation}
    {before : List InvocationRun} {run run' : InvocationRun} {retryable : Bool}
    (locked : t.locks cur = true) (live : Live cur row before run)
    (attempt : run'.attempt = run.attempt) (failed : run'.status = .failed) (cause : t.failure options now cur = some (row, run, retryable))
    (spent : retryable = true → options.maxAttempts ≤ run.attempt)
    (rows : Rewrites (BecomesOverSwept row { row with status := .failed, runs := before ++ [run'] })
      cur next)
    (ends : next.status = .running ∨ next.Closed) :
    Change options now cur t next (if retryable then [] else [.nonRetryable row.id])
  | dropped {t : Transaction} {next : RuntimePlan} {row : RuntimeInvocation}
    {before : List InvocationRun} {run run' : InvocationRun} (locked : t.locks cur = true)
    (status : next.status = cur.status) (mem : row ∈ cur.invocations) (gone : row.status ≠ .running) (runs : row.runs = before ++ [run])
    (live : run.status = .running) (attempt : run'.attempt = run.attempt) (ended : run'.status = .canceled)
    (rows : Rewrites (Becomes row { row with runs := before ++ [run'] }) cur next) :
    Change options now cur t next []

variable {events : List Event}

theorem Swept.move (h : Swept row row') : Move events row row' := by
  cases h with
  | stay => exact .stay
  | decide pending decision => exact .decide pending decision
  | resume waited => exact .resume waited
  | cancel active => exact .cancel active

theorem Swept.invocation (h : Swept row row') : row'.invocation = row.invocation := by
  cases h <;> rfl

theorem Swept.canceled (row : RuntimeInvocation) :
    Swept row (if row.status ∈ ACTIVE_INVOCATION_STATUSES then { row with status := .canceled } else row) := by
  split
  · exact .cancel ((mem_active_iff _).1 ‹_›)
  · exact .stay

theorem Swept.trans {row'' : RuntimeInvocation} (h : Swept row row') (k : Swept row' row'') : Swept row row'' := by
  cases h with
  | stay => exact k
  | decide pending decision =>
    cases k with
    | stay => exact .decide pending decision
    | decide _ decision' => exact .decide pending decision'
    | resume waited =>
      rcases waited with e | e <;> exact absurd e (statusOf_ne (by decide))
    | cancel => exact .cancel (by rw [pending]; rfl)
  | resume waited =>
    cases k with
    | stay => exact .resume waited
    | decide pending => cases pending
    | resume again => rcases again with e | e <;> cases e
    | cancel => exact .cancel (by rcases waited with e | e <;> rw [e] <;> rfl)
  | cancel active =>
    cases k with
    | stay => exact .cancel active
    | decide pending => cases pending
    | resume waited => rcases waited with e | e <;> cases e
    | cancel again => cases again

theorem Swept.not_running (h : Swept row row') (running : row'.status = .running) : row.status = .running := by
  cases h with
  | stay => exact running
  | decide => exact absurd running (statusOf_ne (by decide))
  | resume | cancel => cases running

variable {definition : ExecutionPlan} {cur : RuntimePlan}

/-- Where one row becomes another, every row is in a reflexive relation that these two are in. -/
theorem Becomes.rewrites (distinct : cur.definition.ids.Nodup) (mem : row ∈ cur.invocations)
    (rows : Rewrites (Becomes row row') cur next) (own : R row row') (stay : ∀ r, R r r) : Rewrites R cur next := by
  apply rows.mono
  rintro r hr r' rfl
  by_cases same : r.id = row.id
  · obtain rfl := RuntimePlan.row_unique distinct hr mem same
    rw [if_pos rfl]
    exact own
  · rw [if_neg same]
    exact stay r

theorem BecomesOverSwept.rewrites (distinct : cur.definition.ids.Nodup) (mem : row ∈ cur.invocations)
    (rows : Rewrites (BecomesOverSwept row row') cur next) (own : R row row') (sweep : ∀ r r', Swept r r' → R r r') :
    Rewrites R cur next := by
  apply rows.mono
  intro r hr r' becomes
  by_cases same : r.id = row.id
  · obtain rfl := RuntimePlan.row_unique distinct hr mem same
    rw [BecomesOverSwept, if_pos rfl] at becomes
    exact becomes ▸ own
  · rw [BecomesOverSwept, if_neg same] at becomes
    exact sweep r r' becomes

theorem Change.moves {options : OrchestrationRuntimeOptions} {now : Int} {t : Transaction}
    (h : Change options now cur t next events) (distinct : cur.definition.ids.Nodup) :
    Rewrites (Move events) cur next := by
  cases h with
  | idle => exact Rewrites.refl fun _ => .stay
  | swept locked active rows => exact rows.mono fun _ _ _ => Swept.move
  | approved running status mem waiting machine rows =>
    exact Becomes.rewrites distinct mem rows (.approve waiting machine (mem_singleton_self _)) fun _ => .stay
  | resolved running status mem waiting human attempt ended rows =>
    exact Becomes.rewrites distinct mem rows (.resolve waiting human attempt ended) fun _ => .stay
  | claimed locked running status mem ready room attempt started rows =>
    exact Becomes.rewrites distinct mem rows
      (.claim ready attempt started (mem_singleton_self _)) fun _ => .stay
  | ended locked live status attempt unfailed settles rows =>
    exact Becomes.rewrites distinct live.mem rows
      (.settle live.active live.runs live.running attempt settles) fun _ => .stay
  | retried locked live status attempt failed left rows =>
    exact Becomes.rewrites distinct live.mem rows
      (.settle live.active live.runs live.running attempt (by rw [failed]; exact trivial)) fun _ => .stay
  | failed locked live attempt failed cause spent rows =>
    exact BecomesOverSwept.rewrites distinct live.mem rows
      (.settle live.active live.runs live.running attempt (by rw [failed]; exact trivial))
      fun _ _ => Swept.move
  | dropped locked status mem gone runs live attempt ended rows =>
    exact Becomes.rewrites distinct mem rows (.drop gone runs live attempt ended) fun _ => .stay

section Whole
variable {options : OrchestrationRuntimeOptions} {now : Int} {t : Transaction} {next : RuntimePlan}
  {events : List Event}

/-- Without the plan's lock only invocations that wait for approval move. -/
theorem Change.drift (h : Change options now cur t next events) (distinct : cur.definition.ids.Nodup)
    (unlocked : t.locks cur = false) : Drift cur next := by
  have free (locked : t.locks cur = true) : Drift cur next := by
    rw [unlocked] at locked
    cases locked
  cases h with
  | idle => exact .refl cur
  | swept locked | claimed locked | ended locked | retried locked | failed locked | dropped locked =>
    exact free locked
  | approved running status mem waiting machine rows =>
    exact ⟨status, Becomes.rewrites distinct mem rows (.approved waiting rfl rfl) fun _ => .same⟩
  | resolved running status mem waiting human attempt ended rows =>
    exact ⟨status, Becomes.rewrites distinct mem rows (.resolved waiting rfl human rfl) fun _ => .same⟩

/-- A plan keeps its status, is started or is closed with all its invocations. -/
theorem Change.lifecycle (h : Change options now cur t next events) :
    next.status = cur.status ∨
      isTerminalPlanStatus cur.status = false ∧ (next.status = .running ∨ next.Closed) := by
  cases h with
  | idle => exact .inl rfl
  | swept locked active rows ends => exact .inr ⟨active, ends⟩
  | failed locked live attempt failed cause spent rows ends => exact .inr ⟨by rw [live.started]; rfl, ends⟩
  | approved running status | resolved running status | claimed locked running status | ended locked live status =>
    exact .inl status
  | retried locked live status | dropped locked status => exact .inl status

/-- Where no row becomes `RUNNING` the count does not grow. -/
theorem runningCount_le
    (rows : Rewrites (fun row row' => row'.status = .running → row.status = .running) cur next) :
    next.runningCount ≤ cur.runningCount := by
  obtain ⟨f, invocations, -, -, -, each⟩ := rows
  rw [RuntimePlan.runningCount, invocations, countP_map]
  apply countP_mono_left
  intro row hrow running
  rw [Function.comp_apply, decide_eq_true_eq] at running
  exact decide_eq_true (each row hrow running)

section
variable (h : Change options now cur t next events)
include h

/-- Only a claim makes an invocation `RUNNING`, and only one. -/
theorem Change.parallel (distinct : cur.definition.ids.Nodup)
    (bounded : cur.runningCount ≤ cur.maxParallelism) : next.runningCount ≤ cur.maxParallelism := by
  have quiet {row row' : RuntimeInvocation} (mem : row ∈ cur.invocations)
      (rows : Rewrites (Becomes row row') cur next)
      (still : row'.status = .running → row.status = .running) : next.runningCount ≤ cur.maxParallelism :=
    (runningCount_le (Becomes.rewrites distinct mem rows still fun _ => id)).trans bounded
  cases h with
  | idle => exact bounded
  | swept locked active rows =>
    exact (runningCount_le (rows.mono fun _ _ _ => Swept.not_running)).trans bounded
  | approved running status mem waiting machine rows | resolved running status mem waiting human attempt ended rows =>
    exact quiet mem rows (by simp)
  | @claimed _ row run locked running status mem ready room attempt started rows =>
    obtain ⟨f, invocations, -, -, -, each⟩ := rows
    have nodup : cur.invocations.Nodup := by
      rw [RuntimePlan.ids_eq] at distinct
      exact Nodup.of_map _ distinct
    have more : next.runningCount ≤ cur.runningCount + 1 := by
      rw [RuntimePlan.runningCount, invocations, countP_map]
      apply Rows.countP_le_succ (x := row) nodup
      intro r hr other running
      have stays := each r hr
      rw [Becomes, if_neg fun same => other (RuntimePlan.row_unique distinct hr mem same)] at stays
      rwa [Function.comp_apply, stays] at running
    omega
  | ended locked live status attempt unfailed settles rows =>
    exact quiet live.mem rows fun _ => live.active
  | retried locked live status attempt failed left rows => exact quiet live.mem rows fun _ => live.active
  | failed locked live attempt failed cause spent rows =>
    have still := BecomesOverSwept.rewrites distinct live.mem rows (fun _ => live.active)
      fun _ _ => Swept.not_running
    exact (runningCount_le still).trans bounded
  | dropped locked status mem gone runs live attempt ended rows => exact quiet mem rows id

/-- Nothing happens to a plan that is not started but its start and its end. -/
theorem Change.unopened (ok : cur.Ok definition)
    (unopened : next.status = .planned ∨ next.status = .planning) : next = cur := by
  have started {status : PlanStatus} (running : status = .running)
      (unopened : status = .planned ∨ status = .planning) : False := by
    rw [running] at unopened
    rcases unopened with e | e <;> cases e
  have ended (ends : next.status = .running ∨ next.Closed) : False := by
    rcases ends with running | ⟨terminal, -⟩
    · exact started running unopened
    · rcases unopened with e | e <;>
      · rw [e] at terminal
        cases terminal
  cases h with
  | idle => rfl
  | swept locked active rows ends | failed locked live attempt failed cause spent rows ends => exact (ended ends).elim
  | approved running status | resolved running status | claimed locked running status =>
    exact (started running (status ▸ unopened)).elim
  | ended locked live status | retried locked live status => exact (started live.started (status ▸ unopened)).elim
  | @dropped _ row before run _ locked status mem gone runs =>
    have pending := ok.unopened (status ▸ unopened) row mem
    have none := (ok.rows row mem).unclaimed (by simp [pending])
    simp [none] at runs

theorem Change.ok (ok : cur.Ok definition)
    (distinct : definition.ids.Nodup) : next.Ok definition := by
  have distinct' : cur.definition.ids.Nodup := ok.definition ▸ distinct
  have moves := h.moves distinct'
  refine ⟨?_, ?_, ?_, ?_, ?_⟩
  · exact (moves.definition fun _ _ => Move.invocation).trans ok.definition
  · intro row' hrow'
    obtain ⟨row, hrow, move⟩ := moves.back hrow'
    exact move.ok (ok.rows row hrow)
  · intro terminal row' hrow'
    rcases h.lifecycle with same | ⟨-, running | closed⟩
    · obtain ⟨row, hrow, move⟩ := moves.back hrow'
      have before := ok.closed (same ▸ terminal) row hrow
      rw [move.terminal before]
      exact before
    · rw [running] at terminal
      cases terminal
    · exact closed.2 row' hrow'
  · intro unopened
    obtain rfl := h.unopened ok unopened
    exact ok.unopened unopened
  · have width : next.maxParallelism = cur.maxParallelism := by
      obtain ⟨-, -, -, width, -⟩ := moves
      exact width
    rw [width]
    exact h.parallel distinct' ok.parallel

end

end Whole

end Vimla.Orchestration
