import Vimla.Orchestration.PlanningClaims

/-!
# One owner at a time

What the changes of the row keep, when the claim hashes of two requests
differ: the owner has had its claim, a claim that was taken over is lost, and
the rows of the plan are those of the one request that ended the shell with it.
-/

namespace Vimla.Orchestration.Planning

open Js List

def DistinctClaims (rt : Runtime) : Prop :=
  ∀ planId r o, planningClaimHash rt planId r = planningClaimHash rt planId o → r = o

theorem not_pending (rt : Runtime) (planId : String) (r : Nat) :
    planningClaimHash rt planId r ≠ PLANNING_PENDING_HASH := by
  intro same
  have start : startsWith (planningClaimHash rt planId r) PLANNING_CLAIM_PREFIX = true := by
    simp [startsWith, planningClaimHash]
  rw [same] at start
  exact absurd start (by decide)

theorem claimedAs_iff {p : PersistedPlan} {planHash : String} :
    p.claimedAs planHash = true ↔ p.status = .PLANNING ∧ p.planHash = planHash := by
  simp [PersistedPlan.claimedAs]

/-- The hash is the claim of a request that has had it. -/
def Claim (rt : Runtime) (planId : String) (history : List Fact) (claimHash : String) : Prop :=
  ∃ r stamp, claimHash = planningClaimHash rt planId r ∧ Took history r stamp

theorem Claim.mono {rt : Runtime} {planId : String} {history : List Fact} {claimHash : String}
    (h : Claim rt planId history claimHash) (fact : Fact) : Claim rt planId (history ++ [fact]) claimHash := by
  obtain ⟨r, stamp, same, took⟩ := h
  exact ⟨r, stamp, same, took.mono fact⟩

/-- The rows are those of the plan that ended the shell, and none before that. -/
def RowsOf (rt : Runtime) (history : List Fact) (p : PersistedPlan) : Prop :=
  (∀ r plan, .finalized r plan ∈ history →
    p.invocations = invocationRows rt p.id plan ∧ p.dependencies = dependencyRows rt p.id plan) ∧
  ((∀ r plan, .finalized r plan ∉ history) → p.invocations = [] ∧ p.dependencies = [])

/-- After a claim was taken over, its request does not end the shell. -/
def Yields (rt : Runtime) (planId : String) (earlier later : Fact) : Prop :=
  ∀ r o time stamp, earlier = .stole r (planningClaimHash rt planId o) time stamp → ¬ later.Closes o

structure Owned (rt : Runtime) (p : PersistedPlan) (history : List Fact) : Prop where
  owner : p.status = .PLANNING → p.planHash = PLANNING_PENDING_HASH ∨ Claim rt p.id history p.planHash
  lost : ∀ r claimHash time stamp, .stole r claimHash time stamp ∈ history →
    Claim rt p.id history claimHash ∧ p.claimedAs claimHash = false
  yields : history.Pairwise (Yields rt p.id)
  ended : ∀ r plan, .finalized r plan ∈ history → p.status ≠ .PLANNING
  once : (history.filter Fact.isFinalized).length ≤ 1
  rows : RowsOf rt history p

/-- Others end the shell or leave it as it is. -/
theorem Other.apply_keeps (change : Other) (now : Int) (p : PersistedPlan) :
    let q := change.apply now p
    q.id = p.id ∧ q.invocations = p.invocations ∧ q.dependencies = p.dependencies ∧
      (q.status = .PLANNING → q = p) := by
  cases change with
  | start | stop | recover =>
    simp only [Other.apply]
    split <;> exact ⟨rfl, rfl, rfl, by simp [PersistedPlan.fail]⟩
  | settle status =>
    simp only [Other.apply]
    split
    · rename_i ends
      refine ⟨rfl, rfl, rfl, fun planning => ?_⟩
      simp only at planning
      simp [planning] at ends
    · exact ⟨rfl, rfl, rfl, fun _ => rfl⟩

section Owned
variable {rt : Runtime} {p p' : PersistedPlan} {history : List Fact} {fact : Fact}

theorem Owned.fresh (id : String) (stamp : Int) : Owned rt { id := id, updatedAt := stamp } [] where
  owner _ := .inl rfl
  lost _ _ _ _ mem := by cases mem
  yields := .nil
  ended _ _ mem := by cases mem
  once := Nat.zero_le 1
  rows := ⟨fun _ _ mem => (by cases mem), fun _ => ⟨rfl, rfl⟩⟩

/-- An update of a shell that is `PLANNING`, with its fact. -/
theorem Owned.append (h : Owned rt p history) (planning : p.status = .PLANNING) (id : p'.id = p.id)
    (owner : p'.status = .PLANNING → p'.planHash = PLANNING_PENDING_HASH ∨
      Claim rt p.id (history ++ [fact]) p'.planHash)
    (lost : ∀ claimHash, Claim rt p.id history claimHash → p.claimedAs claimHash = false →
      p'.claimedAs claimHash = false)
    (steals : ∀ r claimHash time stamp, fact = .stole r claimHash time stamp →
      Claim rt p.id history claimHash ∧ p'.claimedAs claimHash = false)
    (closes : ∀ o, fact.Closes o → p.claimedAs (planningClaimHash rt p.id o) = true)
    (ends : fact.isFinalized = true → p'.status ≠ .PLANNING)
    (rows : RowsOf rt [fact] p') : Owned rt p' (history ++ [fact]) := by
  have before (r : Nat) (plan : ExecutionPlan) : .finalized r plan ∉ history :=
    fun mem => h.ended r plan mem planning
  have only {r : Nat} {plan : ExecutionPlan} (mem : .finalized r plan ∈ history ++ [fact]) :
      .finalized r plan ∈ [fact] :=
    (mem_append.1 mem).resolve_left (before r plan)
  constructor
  · exact id.symm ▸ owner
  · intro r claimHash time stamp mem
    rw [id]
    obtain mem | mem := mem_append.1 mem
    · obtain ⟨claim, past⟩ := h.lost r claimHash time stamp mem
      exact ⟨claim.mono fact, lost claimHash claim past⟩
    · obtain ⟨claim, past⟩ := steals r claimHash time stamp (mem_singleton.1 mem).symm
      exact ⟨claim.mono fact, past⟩
  · rw [id, pairwise_append]
    refine ⟨h.yields, pairwise_singleton _ _, fun earlier mem later mem' => ?_⟩
    rw [mem_singleton.1 mem']
    rintro r o time stamp rfl closed
    have past := (h.lost _ _ _ _ mem).2
    rw [closes o closed] at past
    cases past
  · intro r plan mem
    refine ends ?_
    rw [← mem_singleton.1 (only mem)]
    rfl
  · have none : history.filter Fact.isFinalized = [] := by
      rw [filter_eq_nil_iff]
      intro old mem isFinal
      cases old with
      | finalized r plan => exact before r plan mem
      | claimed | stole | renewed | failed | clarified => cases isFinal
    rw [filter_append, none]
    exact length_filter_le _ _
  · exact ⟨fun r plan mem => rows.1 r plan (only mem),
      fun absent => rows.2 fun r plan mem => absent r plan (mem_append_right _ mem)⟩

theorem Owned.no_rows (h : Owned rt p history) (planning : p.status = .PLANNING) :
    p.invocations = [] ∧ p.dependencies = [] :=
  h.rows.2 fun r plan mem => h.ended r plan mem planning

/-- A request that has had no claim gets the shell, from nobody or from its owner. -/
theorem Owned.take (distinct : DistinctClaims rt) (h : Owned rt p history) (planning : p.status = .PLANNING)
    {r : Nat} {stamp : Int} (early : ∀ stamp, ¬ Took history r stamp) (took : Took (history ++ [fact]) r stamp)
    (opens : ∀ o, ¬ fact.Closes o) (notFinal : fact.isFinalized = false)
    (steals : ∀ o claimHash time stamp, fact = .stole o claimHash time stamp → Claim rt p.id history claimHash) :
    Owned rt (p.claim (planningClaimHash rt p.id r) stamp) (history ++ [fact]) := by
  have other {claimHash : String} (claim : Claim rt p.id history claimHash) :
      (p.claim (planningClaimHash rt p.id r) stamp).claimedAs claimHash = false := by
    obtain ⟨o, before, rfl, tookBefore⟩ := claim
    rw [Bool.eq_false_iff, Ne, claimedAs_iff]
    rintro ⟨-, same⟩
    cases distinct p.id r o same
    exact early before tookBefore
  refine h.append planning rfl (fun _ => .inr ⟨r, stamp, rfl, took⟩) (fun _ claim _ => other claim)
    (fun o claimHash time stamp same => ?_) (fun o closes => absurd closes (opens o)) ?_ ?_
  · have claim := steals o claimHash time stamp same
    exact ⟨claim, other claim⟩
  · rw [notFinal]
    exact fun h => by cases h
  · refine ⟨fun o plan mem => ?_, fun _ => h.no_rows planning⟩
    rw [← mem_singleton.1 mem] at notFinal
    cases notFinal

/-- The owner ends the shell. -/
theorem Owned.close (h : Owned rt p history) {r : Nat}
    (owned : p.claimedAs (planningClaimHash rt p.id r) = true) (id : p'.id = p.id)
    (ends : p'.status ≠ .PLANNING) (closes : ∀ o, fact.Closes o → o = r)
    (notStole : ∀ o claimHash time stamp, fact ≠ .stole o claimHash time stamp) (rows : RowsOf rt [fact] p') :
    Owned rt p' (history ++ [fact]) := by
  have late (claimHash : String) : p'.claimedAs claimHash = false := by
    rw [Bool.eq_false_iff, Ne, claimedAs_iff]
    exact fun both => ends both.1
  refine h.append (claimedAs_iff.1 owned).1 id (fun planning => absurd planning ends)
    (fun claimHash _ _ => late claimHash) (fun o claimHash time stamp same => absurd same (notStole _ _ _ _))
    (fun o closed => ?_) (fun _ => ends) rows
  rw [closes o closed]
  exact owned

variable {shell : Option PersistedPlan}

theorem Owned.change {s : State} {ev : Event} (distinct : DistinctClaims rt) (requests : Requests rt s)
    (unused : s.shell = none → s.history = []) (owned : ∀ p, s.shell = some p → Owned rt p s.history)
    {history : List Fact} (change : Change rt s ev shell history) :
    (shell = none → history = []) ∧ ∀ p, shell = some p → Owned rt p history := by
  cases change with
  | keep => exact ⟨unused, owned⟩
  | create absent id stamp past =>
    refine ⟨by simp, ?_⟩
    rintro _ ⟨⟩
    rw [unused absent]
    exact .fresh id stamp
  | claim r p at_ pending phase stamp past =>
    refine ⟨by simp, ?_⟩
    rintro _ ⟨⟩
    obtain ⟨planning, -⟩ := claimedAs_iff.1 pending
    have early := (requests.early r (by simp [phase, Phase.early])).2
    exact (owned p at_).take distinct planning early (.inl (by simp)) (by simp [Fact.Closes]) rfl
      (by simp)
  | steal r p current at_ matched phase turn free stamp past =>
    refine ⟨by simp, ?_⟩
    rintro _ ⟨⟩
    obtain ⟨planning, same⟩ := claimedAs_iff.1 matched
    have early := (requests.early r (by simp [phase, Phase.early])).2
    have claimed := (requests.stealing r current phase).2.1
    have claim : Claim rt p.id s.history current.planHash := by
      obtain pending | claim := (owned p at_).owner planning
      · rw [← same, pending] at claimed
        exact absurd claimed (by decide)
      · exact same ▸ claim
    refine (owned p at_).take distinct planning early (.inr ⟨current.planHash, s.now, by simp⟩)
      (by simp [Fact.Closes]) rfl ?_
    rintro _ _ _ _ ⟨⟩
    exact claim
  | renew r p at_ mine stamp beat =>
    refine ⟨by simp, ?_⟩
    rintro _ ⟨⟩
    obtain ⟨planning, same⟩ := claimedAs_iff.1 mine
    refine (owned p at_).append planning rfl (fun _ => ?_) (fun _ _ past => past) (by simp)
      (by simp [Fact.Closes]) (by simp [Fact.isFinalized]) ⟨by simp, fun _ => (owned p at_).no_rows planning⟩
    exact ((owned p at_).owner planning).imp id fun claim => claim.mono _
  | fail r p at_ mine =>
    refine ⟨by simp, ?_⟩
    rintro _ ⟨⟩
    exact (owned p at_).close mine rfl (by simp [PersistedPlan.fail]) (fun o closes => closes.symm) (by simp)
      ⟨by simp, fun _ => (owned p at_).no_rows (claimedAs_iff.1 mine).1⟩
  | clarify r p at_ mine question =>
    refine ⟨by simp, ?_⟩
    rintro _ ⟨⟩
    exact (owned p at_).close mine rfl (by simp [PersistedPlan.clarify]) (fun o closes => closes.symm) (by simp)
      ⟨by simp, fun _ => (owned p at_).no_rows (claimedAs_iff.1 mine).1⟩
  | finalize r p at_ mine plan =>
    refine ⟨by simp, ?_⟩
    rintro _ ⟨⟩
    refine (owned p at_).close mine rfl (by simp [PersistedPlan.finalize]) (fun o closes => closes.symm)
      (by simp) ⟨fun o plan' mem => ?_, fun absent => absurd (mem_singleton.2 rfl) (absent r plan)⟩
    cases mem_singleton.1 mem
    exact ⟨rfl, rfl⟩
  | other p at_ change =>
    refine ⟨by simp, ?_⟩
    rintro _ ⟨⟩
    obtain ⟨id, invocations, dependencies, planning⟩ := change.apply_keeps s.now p
    have before := owned p at_
    constructor
    · intro still
      rw [planning still]
      exact before.owner (planning still ▸ still)
    · intro r claimHash time stamp mem
      rw [id]
      obtain ⟨claim, past⟩ := before.lost r claimHash time stamp mem
      refine ⟨claim, Bool.eq_false_iff.2 fun still => ?_⟩
      rw [planning (claimedAs_iff.1 still).1, past] at still
      cases still
    · exact id ▸ before.yields
    · intro r plan mem still
      exact before.ended r plan mem (planning still ▸ still)
    · exact before.once
    · unfold RowsOf
      rw [id, invocations, dependencies]
      exact before.rows

/-- A shell that is no longer `PLANNING` stays so. -/
theorem Change.stays_ended {s : State} {ev : Event} (change : Change rt s ev shell history)
    (at_ : s.shell = some p) (ended : p.status ≠ .PLANNING) : ∃ q, shell = some q ∧ q.status ≠ .PLANNING := by
  have owns {q : PersistedPlan} {planHash : String} (here : s.shell = some q)
      (claimed : q.claimedAs planHash = true) : q.status = .PLANNING ∧ q = p :=
    ⟨(claimedAs_iff.1 claimed).1, Option.some.inj (here.symm.trans at_)⟩
  cases change with
  | keep => exact ⟨p, at_, ended⟩
  | create absent => simp [at_] at absent
  | claim _ q here claimed | renew _ q here claimed | fail _ q here claimed | clarify _ q here claimed
  | finalize _ q here claimed | steal _ q current here claimed =>
    obtain ⟨planning, rfl⟩ := owns here claimed
    exact absurd planning ended
  | other q here change =>
    cases here.symm.trans at_
    refine ⟨_, rfl, fun planning => ?_⟩
    rw [(change.apply_keeps s.now p).2.2.2 planning] at planning
    exact ended planning

end Owned

end Vimla.Orchestration.Planning
