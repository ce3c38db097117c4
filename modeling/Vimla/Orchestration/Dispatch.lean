import Vimla.Orchestration.Commits

/-!
# A dispatch

The maps of a dispatch and the rows it writes agree, except where an invocation
that waited for approval has moved since the plan was read.
-/

namespace Vimla.Orchestration

open List Function

variable {options : OrchestrationRuntimeOptions} {now : Int} {seen cur : RuntimePlan}

/-- An invocation that has moved under a transaction which saw it wait for approval. -/
def Left (seen cur : RuntimePlan) (id : String) : Prop :=
  ∃ row ∈ seen.invocations, row.id = id ∧ row.status = .waitingApproval ∧ row ∉ cur.invocations

/-- The plan a dispatch is writing, and what its map says of each row. -/
structure Dispatching.Tracks (seen cur : RuntimePlan) (s : Dispatching) : Prop where
  rows : Rewrites Swept cur s.plan
  status : s.plan.status = cur.status
  known : ∀ row ∈ s.plan.invocations, ¬ Left seen cur row.id → s.stateById row.id = some row.status
  waits : ∀ row ∈ s.plan.invocations, Left seen cur row.id →
    s.stateById row.id = some .waitingApproval ∧ row ∈ cur.invocations

namespace Dispatching.Tracks
variable {s : Dispatching}

theorem definition (h : s.Tracks seen cur) : s.plan.definition = cur.definition :=
  h.rows.definition fun _ _ swept => swept.invocation

variable {row : RuntimeInvocation}

/-- A row read has its row in the plan being written. -/
theorem row_of_seen (h : s.Tracks seen cur) (drift : Drift seen cur) (mem : row ∈ seen.invocations) :
    ∃ row' ∈ s.plan.invocations, row'.invocation = row.invocation := by
  obtain ⟨mid, memMid, drifted⟩ := drift.rows.forth mem
  obtain ⟨row', mem', swept⟩ := h.rows.forth memMid
  exact ⟨row', mem', swept.invocation.trans drifted.invocation⟩

theorem seen_of_row (h : s.Tracks seen cur) (drift : Drift seen cur) {row' : RuntimeInvocation}
    (mem : row' ∈ s.plan.invocations) :
    ∃ row ∈ seen.invocations, row'.invocation = row.invocation := by
  obtain ⟨mid, memMid, swept⟩ := h.rows.back mem
  obtain ⟨row, memRow, drifted⟩ := drift.rows.back memMid
  exact ⟨row, memRow, swept.invocation.trans drifted.invocation⟩

theorem init (drift : Drift seen cur) (distinctSeen : seen.definition.ids.Nodup)
    (distinct : cur.definition.ids.Nodup) :
    Tracks seen cur
      { stateById := fun id => (seen.find id).map RuntimeInvocation.status, plan := cur } := by
  refine ⟨Rewrites.refl fun _ => .stay, rfl, ?_, ?_⟩
  · intro row' mem' stayed
    obtain ⟨row, mem, drifted⟩ := drift.rows.back mem'
    have same : row'.id = row.id := congrArg Invocation.id drifted.invocation
    have fixed : row' = row := by
      by_cases waiting : row.status = .waitingApproval
      · by_cases kept : row ∈ cur.invocations
        · exact RuntimePlan.row_unique distinct mem' kept same
        · exact absurd ⟨row, mem, same.symm, waiting, kept⟩ stayed
      · exact drifted.fixed waiting
    subst fixed
    simp [RuntimePlan.find_eq distinctSeen mem]
  · rintro row' mem' ⟨row, mem, same, waiting, -⟩
    exact ⟨by simp [← same, RuntimePlan.find_eq distinctSeen mem, waiting], mem'⟩

section
variable (h : s.Tracks seen cur)
include h

/-- A guarded write that is recorded keeps map and rows together. -/
theorem move (distinct : cur.definition.ids.Nodup) {id : String}
    {status next : InvocationStatus} (stayed : ¬ Left seen cur id)
    (sweeps : ∀ row ∈ s.plan.invocations, row.id = id → row.status = status →
      Swept row { row with status := next }) : (s.move id status next).Tracks seen cur := by
  unfold Dispatching.move
  split
  · rename_i holds
    obtain ⟨own, memOwn, rfl, has⟩ := RuntimePlan.holds_iff.1 holds
    have distinct' : s.plan.definition.ids.Nodup := h.definition ▸ distinct
    have written : Rewrites Swept s.plan (s.plan.transition own.id status next) := by
      apply Rewrites.of_rewrite
      intro row mem
      split
      · rename_i hits
        exact sweeps row mem hits.1 hits.2
      · exact .stay
    refine ⟨h.rows.trans written fun _ _ _ _ => Swept.trans, h.status, ?_, ?_⟩
    · intro row' mem' still
      obtain ⟨row, mem, rfl⟩ := mem_map.1 mem'
      by_cases same : row.id = own.id
      · obtain rfl := RuntimePlan.row_unique distinct' mem memOwn same
        rw [if_pos ⟨rfl, has⟩]
        exact update_self _ _ _
      · rw [if_neg fun hits => same hits.1] at still ⊢
        dsimp only
        rw [update_of_ne same]
        exact h.known row mem still
    · intro row' mem' left
      obtain ⟨row, mem, rfl⟩ := mem_map.1 mem'
      by_cases same : row.id = own.id
      · obtain rfl := RuntimePlan.row_unique distinct' mem memOwn same
        rw [if_pos ⟨rfl, has⟩] at left
        exact absurd left stayed
      · rw [if_neg fun hits => same hits.1] at left ⊢
        dsimp only
        rw [update_of_ne same]
        exact h.waits row mem left
  · exact h

theorem recheckUsage (distinctSeen : seen.definition.ids.Nodup)
    (distinct : cur.definition.ids.Nodup) (mem : row ∈ seen.invocations) :
    (recheckUsage options now s row).Tracks seen cur := by
  unfold Orchestration.recheckUsage
  split
  · exact h
  have waited : row.status = .waitingForUsageCapacity ∨ row.status = .blockedInsufficientUsage := by
    tauto
  split
  · exact h
  split
  · exact h
  dsimp only
  split
  · exact h
  apply h.move distinct
  · rintro ⟨other, memOther, same, waiting, -⟩
    obtain rfl := RuntimePlan.row_unique distinctSeen memOther mem same
    rw [waiting] at waited
    rcases waited with e | e <;> cases e
  · rintro r - - status
    exact .resume (status ▸ waited)

section
variable (drift : Drift seen cur) (distinct : cur.definition.ids.Nodup)
include drift distinct

theorem decideInvocation (mem : row ∈ seen.invocations) : (decideInvocation seen s row).Tracks seen cur := by
  unfold Orchestration.decideInvocation
  split
  · exact h
  rename_i pending
  rw [not_not] at pending
  obtain ⟨own, memOwn, defined⟩ := h.row_of_seen drift mem
  have same : own.id = row.id := congrArg Invocation.id defined
  split
  · exact h
  apply h.move distinct
  · intro left
    have waits := (h.waits own memOwn (same ▸ left)).1
    rw [same, pending] at waits
    cases waits
  · intro r memR sameR status
    have distinct' : s.plan.definition.ids.Nodup := h.definition ▸ distinct
    obtain rfl := RuntimePlan.row_unique distinct' memR memOwn (sameR.trans same.symm)
    rw [← defined]
    exact .decide status _

theorem readinessPass :
    (readinessPass seen s).Tracks seen cur := by
  have start : Tracks seen cur { s with changed := false } := ⟨h.rows, h.status, h.known, h.waits⟩
  apply foldlRecOn _ _ start
  intro s h row mem
  exact h.decideInvocation drift distinct mem

theorem readinessPasses (passes : Nat) :
    (readinessPasses seen passes s).Tracks seen cur := by
  induction passes generalizing s with
  | zero => exact h
  | succ passes ih =>
    have pass := h.readinessPass drift distinct
    unfold Orchestration.readinessPasses
    dsimp only
    split
    · exact ih pass
    · exact pass

end

/-- What the map says of an invocation that does not wait for approval is so. -/
theorem status_eq (mem : row ∈ s.plan.invocations) {status : InvocationStatus}
    (maps : s.stateById row.id = some status) (settled : status ≠ .waitingApproval) : row.status = status := by
  by_cases left : Left seen cur row.id
  · rw [(h.waits row mem left).1] at maps
    exact absurd (Option.some.inj maps).symm settled
  · rw [h.known row mem left] at maps
    exact Option.some.inj maps

/-- The statuses of the map are those of the rows read. -/
theorem mem_statuses (drift : Drift seen cur) (mem : row ∈ s.plan.invocations) :
    ∃ status ∈ seen.invocations.filterMap fun row => s.stateById row.id, s.stateById row.id = some status := by
  have mapped : ∃ status, s.stateById row.id = some status := by
    by_cases left : Left seen cur row.id
    · exact ⟨_, (h.waits row mem left).1⟩
    · exact ⟨_, h.known row mem left⟩
  obtain ⟨status, maps⟩ := mapped
  obtain ⟨own, memOwn, defined⟩ := h.seen_of_row drift mem
  have same : row.id = own.id := congrArg Invocation.id defined
  exact ⟨status, mem_filterMap.2 ⟨own, memOwn, same ▸ maps⟩, maps⟩

end

end Dispatching.Tracks

/-- The maps and rows with which the passes begin. -/
theorem rechecked_tracks (options : OrchestrationRuntimeOptions) (now : Int) (drift : Drift seen cur)
    (distinctSeen : seen.definition.ids.Nodup) (distinct : cur.definition.ids.Nodup) :
    (seen.invocations.foldl (recheckUsage options now)
      { stateById := fun id => (seen.find id).map RuntimeInvocation.status, plan := cur }).Tracks
        seen cur := by
  apply foldlRecOn _ _ (Dispatching.Tracks.init drift distinctSeen distinct)
  intro s h row mem
  exact h.recheckUsage distinctSeen distinct mem

theorem dispatching_tracks (options : OrchestrationRuntimeOptions) (now : Int) (drift : Drift seen cur)
    (distinctSeen : seen.definition.ids.Nodup) (distinct : cur.definition.ids.Nodup) :
    (dispatching options now seen cur).Tracks seen cur :=
  (rechecked_tracks options now drift distinctSeen distinct).readinessPasses drift distinct _

theorem dispatchPlan_change (drift : Drift seen cur) (distinctSeen : seen.definition.ids.Nodup)
    (distinct : cur.definition.ids.Nodup) :
    Change options now cur .dispatchPlan (dispatchPlan options now seen cur).1 [] := by
  unfold dispatchPlan
  split
  · exact .idle
  rename_i started
  have running : cur.status = .running := drift.status.trans (not_not.1 started)
  have tracks := dispatching_tracks options now drift distinctSeen distinct
  have active : isTerminalPlanStatus cur.status = false := by rw [running]; rfl
  have running' := tracks.status.trans running
  dsimp only
  split
  · rename_i row found
    have failed := find?_some found
    rw [decide_eq_true_eq] at failed
    refine .swept rfl active (tracks.rows.trans (failPlan_rows _ _) ?_) (.inr (failPlan_closed running' ?_))
    · intro r _ r' r'' swept canceled
      split at canceled
      · exact canceled ▸ swept
      · exact swept.trans canceled
    · intro r mem own
      rw [tracks.status_eq mem (own ▸ failed.1) (by decide)]
      rfl
  split
  · rename_i ended
    refine .swept rfl active ?_ (.inr ?_)
    · rw [RuntimePlan.transitionPlan, if_pos running']
      exact tracks.rows
    · rw [RuntimePlan.transitionPlan, if_pos running']
      refine ⟨by dsimp only; split <;> rfl, ?_⟩
      intro row mem
      obtain ⟨status, listed, maps⟩ := tracks.mem_statuses drift mem
      have terminal := all_eq_true.1 ended status listed
      rw [tracks.status_eq mem maps (by rintro rfl; cases terminal)]
      exact terminal
  · exact .swept rfl active tracks.rows (.inl running')

end Vimla.Orchestration
