import Vimla.Orchestration.PlanningOwner

/-!
# The lease of a claim

The owner renews `updatedAt`, and another request takes the claim over when it
has read that `updatedAt` is a lease ago. Between that read and the update the
owner may renew once more; nothing else can break the lease.
-/

namespace Vimla.Orchestration.Planning

open Js Runs List Option State Function

/-- The row that a request has read and looks at. -/
def Phase.current : Phase → Option PersistedPlan
  | deciding current | stealing current => some current
  | _ => none

/-- The owner's last stamp is `updatedAt`. -/
structure Stamped (p : PersistedPlan) (history : List Fact) (r : Nat) : Prop where
  taken : ∀ stamp, Took history r stamp → stamp ≤ p.updatedAt
  renewals : ∀ stamp, .renewed r stamp ∈ history → stamp ≤ p.updatedAt
  source : .renewed r p.updatedAt ∈ history ∨ Took history r p.updatedAt

/-- A claim that a request has read is one of before. -/
def Seen (rt : Runtime) (planId : String) (history : List Fact) (current : PersistedPlan) : Prop :=
  current.status = .PLANNING → ∀ o, current.planHash = planningClaimHash rt planId o →
    (∃ stamp, Took history o stamp) ∧ ∀ stamp, Took history o stamp → stamp ≤ current.updatedAt

structure Clocked (rt : Runtime) (s : State) : Prop where
  renewals : ∀ r stamp, .renewed r stamp ∈ s.history → ∃ before, Took s.history r before
  stamped : ∀ p r, s.shell = some p → p.claimedAs (planningClaimHash rt p.id r) = true →
    p.updatedAt ≤ s.now ∧ Stamped p s.history r
  beats : ∀ r stamp, s.beats r = some stamp → stamp ≤ s.now ∧ ∀ p, s.shell = some p →
    p.claimedAs (planningClaimHash rt p.id r) = true → p.updatedAt ≤ stamp
  seen : ∀ r current, (s.phases r).current = some current → ∃ p, s.shell = some p ∧ Seen rt p.id s.history current

section Steps
variable {rt : Runtime} {s : State} {r : Nat} {ev : Event} {stamp : Int} {p : PersistedPlan}

section
variable {shell : Option PersistedPlan} {history : List Fact}

theorem Change.keeps_id
    (change : Change rt s ev shell history) (at_ : s.shell = some p) : ∃ q, shell = some q ∧ q.id = p.id := by
  cases change with
  | keep => exact ⟨p, at_, rfl⟩
  | create absent => simp [at_] at absent
  | other q here change =>
    cases here.symm.trans at_
    exact ⟨_, rfl, (change.apply_keeps s.now p).1⟩
  | claim _ q here | steal _ q _ here | renew _ q here | fail _ q here | clarify _ q here
  | finalize _ q here =>
    cases here.symm.trans at_
    exact ⟨_, rfl, rfl⟩

/-- A request gets its claim in an early phase. -/
theorem Change.took (requests : Requests rt s)
    (change : Change rt s ev shell history) {o : Nat} (took : Took history o stamp) :
    Took s.history o stamp ∨ ∀ before, ¬ Took s.history o before := by
  cases change with
  | keep | create | other => exact .inl took
  | claim r p _ _ phase | steal r p current _ _ phase =>
    refine (took_append took).imp_right fun new => ?_
    rw [← new.request]
    exact (requests.early r (by rw [phase]; rfl)).2
  | renew | fail | clarify | finalize =>
    refine (took_append took).imp_right fun new => ?_
    obtain mem | ⟨_, _, mem⟩ := new <;> cases mem_singleton.1 mem

theorem Change.grows (change : Change rt s ev shell history) : history = s.history ∨ ∃ fact, history = s.history ++ [fact] := by
  cases change with
  | keep | create | other => exact .inl rfl
  | claim | steal | renew | fail | clarify | finalize => exact .inr ⟨_, rfl⟩

theorem Change.mono (change : Change rt s ev shell history)
    {o : Nat} (took : Took s.history o stamp) : Took history o stamp := by
  obtain rfl | ⟨fact, rfl⟩ := change.grows
  · exact took
  · exact took.mono fact

end

variable {shell : Option PersistedPlan}

theorem Seen.change {planId : String} {history : List Fact}
    (requests : Requests rt s) (change : Change rt s ev shell history) {current : PersistedPlan}
    (h : Seen rt planId s.history current) : Seen rt planId history current := by
  intro planning o same
  obtain ⟨⟨before, took⟩, bound⟩ := h planning o same
  refine ⟨⟨before, change.mono took⟩, fun stamp new => ?_⟩
  obtain old | never := change.took requests new
  · exact bound stamp old
  · exact absurd took (never before)

variable {history : List Fact}

/-- Whoever owns the row after a change has the last stamp on it, and it is not
later than now, nor than a heartbeat of the owner that is under way. -/
theorem Clocked.stamped_change (distinct : DistinctClaims rt) (requests : Requests rt s) (h : Clocked rt s)
    (change : Change rt s ev shell history) {q : PersistedPlan}
    (at_ : shell = some q) (owned : q.claimedAs (planningClaimHash rt q.id r) = true) :
    q.updatedAt ≤ s.now ∧ Stamped q history r ∧ ∀ stamp, s.beats r = some stamp → q.updatedAt ≤ stamp := by
  have keep {p : PersistedPlan} (here : s.shell = some p)
      (mine : p.claimedAs (planningClaimHash rt p.id r) = true) :
      p.updatedAt ≤ s.now ∧ Stamped p s.history r ∧ ∀ stamp, s.beats r = some stamp → p.updatedAt ≤ stamp := by
    obtain ⟨past, stamped⟩ := h.stamped p r here mine
    exact ⟨past, stamped, fun stamp beat => (h.beats r stamp beat).2 p here mine⟩
  -- A request that had no claim before owns the row with the stamp it has just written.
  have take {p : PersistedPlan} {o : Nat} {stamp : Int} (fact : Fact) (early : (s.phases o).early = true)
      (new : ∀ other, Took [fact] o other ↔ other = stamp) (still : ∀ stamp, fact ≠ .renewed o stamp)
      (mine : (p.claim (planningClaimHash rt p.id o) stamp).claimedAs (planningClaimHash rt p.id r) = true) :
      Stamped (p.claim (planningClaimHash rt p.id o) stamp) (s.history ++ [fact]) r ∧
        s.beats r = none := by
    obtain rfl : o = r := distinct _ _ _ (claimedAs_iff.1 mine).2
    obtain ⟨quiet, never⟩ := requests.early o early
    refine ⟨⟨fun other took => ?_, fun other mem => ?_, .inr ?_⟩, quiet⟩
    · obtain old | took := took_append took
      · exact absurd old (never other)
      · exact le_of_eq ((new other).1 took)
    · obtain mem | mem := mem_append.1 mem
      · obtain ⟨before, took⟩ := h.renewals o other mem
        exact absurd took (never before)
      · exact absurd (mem_singleton.1 mem).symm (still other)
    · exact ((new stamp).2 rfl).imp (mem_append_right _)
        fun ⟨claimHash, time, mem⟩ => ⟨claimHash, time, mem_append_right _ mem⟩
  have ended (late : q.status ≠ .PLANNING) : False := late (claimedAs_iff.1 owned).1
  cases change with
  | keep => exact keep at_ owned
  | create absent id stamp past =>
    cases at_
    exact absurd (claimedAs_iff.1 owned).2.symm (not_pending rt id r)
  | claim o p here pending phase stamp past =>
    cases at_
    obtain ⟨stamped, quiet⟩ := take (.claimed o stamp) (by rw [phase]; rfl) (by simp [Took])
      (by simp) owned
    exact ⟨past, stamped, fun stamp' beat => by simp [quiet] at beat⟩
  | steal o p current here matched phase turn free stamp past =>
    cases at_
    obtain ⟨stamped, quiet⟩ := take (.stole o current.planHash s.now stamp) (by rw [phase]; rfl)
      (by simp [Took]) (by simp) owned
    exact ⟨past, stamped, fun stamp' beat => by simp [quiet] at beat⟩
  | renew o p here mine stamp beat =>
    cases at_
    obtain rfl : o = r := distinct _ _ _ ((claimedAs_iff.1 mine).2.symm.trans (claimedAs_iff.1 owned).2)
    obtain ⟨past, stamped, later⟩ := keep here mine
    have step := later stamp beat
    refine ⟨(h.beats o stamp beat).1, ⟨fun other took => ?_, fun other mem => ?_, .inl (by simp)⟩,
      fun other beat' => ?_⟩
    · obtain old | new := took_append took
      · exact (stamped.taken other old).trans step
      · obtain mem | ⟨_, _, mem⟩ := new <;> cases mem_singleton.1 mem
    · obtain mem | mem := mem_append.1 mem
      · exact (stamped.renewals other mem).trans step
      · cases mem_singleton.1 mem
        exact le_refl _
    · exact le_of_eq (some.inj (beat.symm.trans beat'))
  | fail o p here =>
    cases at_
    exact (ended (by simp [PersistedPlan.fail])).elim
  | clarify o p here =>
    cases at_
    exact (ended (by simp [PersistedPlan.clarify])).elim
  | finalize o p here =>
    cases at_
    exact (ended (by simp [PersistedPlan.finalize])).elim
  | other p here change =>
    cases at_
    have same := (change.apply_keeps s.now p).2.2.2 (claimedAs_iff.1 owned).1
    rw [same] at owned ⊢
    exact keep here owned

theorem updateMany_keeps {β : Type} (f : State → β) {planHash : String} {matched : PersistedPlan → State}
    {missed : State} (hit : ∀ p, f (matched p) = f s) (miss : f missed = f s) :
    f (s.updateMany planHash matched missed) = f s :=
  updateMany_cases (P := fun t => f t = f s) rfl (fun p _ _ _ => hit p) fun _ => miss

/-- The statements of a request leave the clock and the heartbeats alone. -/
theorem next_keeps (reply : Reply) : (s.next rt r reply).now = s.now ∧ (s.next rt r reply).beats = s.beats := by
  have both : ((s.next rt r reply).now, (s.next rt r reply).beats) = (s.now, s.beats) := by
    have found (answer : PersistedPlan → Phase) :
        ((s.findFirst r answer).now, (s.findFirst r answer).beats) = (s.now, s.beats) := by
      unfold findFirst
      split <;> rfl
    unfold State.next
    cases s.phases r with
    | idle | working | done => rfl
    | looking | creating | rereading | deciding | disputing | writing | reading =>
      simp only [look, create, reread, decideStale, dispute, commit,
        readBack]
      repeat' split
      all_goals rfl
    | claiming | stealing | failing | clarifying | finalizing =>
      exact updateMany_keeps (fun t => (t.now, t.beats)) (fun _ => rfl) rfl
    | inspecting | replaying | confirming | asking => exact found _
  exact Prod.mk.inj both

theorem step_now (rt : Runtime) (s : State) (ev : Event) : s.now ≤ (s.step rt ev).now := by
  cases ev with
  | arrive | outcome | throw | beat | drop | other =>
    refine le_of_eq ?_
    simp only [State.step, State.throw, State.other]
    repeat' split
    all_goals rfl
  | next r reply => exact le_of_eq (next_keeps reply).1.symm
  | land r =>
    refine le_of_eq ?_
    simp only [step, land]
    split
    · rfl
    · exact (updateMany_keeps now (fun _ => by rfl) (by rfl)).symm
  | tick elapsed =>
    simp only [step]
    omega

/-- A heartbeat under way was so before, or has just read the clock. -/
theorem step_beats (ev : Event) (beat : (s.step rt ev).beats r = some stamp) :
    s.beats r = some stamp ∨ stamp = s.now := by
  have dropped {o : Nat} (beat : update s.beats o none r = some stamp) : s.beats r = some stamp := by
    by_cases same : r = o
    · subst same
      simp at beat
    · rwa [update_of_ne same] at beat
  cases ev with
  | arrive | outcome | throw | other =>
    left
    simp only [State.step, State.throw, State.other] at beat
    split at beat <;> exact beat
  | next o reply => exact .inl ((next_keeps reply).2 ▸ beat)
  | tick elapsed => exact .inl beat
  | drop o => exact .inl (dropped beat)
  | land o =>
    left
    simp only [step, land] at beat
    split at beat
    · exact beat
    · refine updateMany_cases (P := fun t => t.beats r = some stamp → s.beats r = some stamp) id
        (fun _ _ _ _ => dropped) (fun _ => dropped) beat
  | beat o =>
    simp only [step] at beat
    split at beat
    · by_cases same : r = o
      · subst same
        simp only [update_self, some.injEq] at beat
        exact .inr beat.symm
      · exact .inl ((update_of_ne same _ _).symm.trans beat)
    · exact .inl beat

/-- What a request looks at it has looked at before, or it is the row now. -/
theorem step_current (ev : Event) {current : PersistedPlan}
    (looks : ((s.step rt ev).phases r).current = some current) :
    (s.phases r).current = some current ∨ s.shell = some current := by
  have set {o : Nat} {phase : Phase} (ok : ∀ p, phase.current = some p →
      (s.phases o).current = some p ∨ s.shell = some p)
      (looks : (update s.phases o phase r).current = some current) :
      (s.phases r).current = some current ∨ s.shell = some current := by
    by_cases same : r = o
    · subst same
      exact ok current (by simpa using looks)
    · exact .inl (by simpa [same] using looks)
  have quiet {o : Nat} {phase : Phase} (none : phase.current = none)
      (looks : (update s.phases o phase r).current = some current) :
      (s.phases r).current = some current ∨ s.shell = some current :=
    set (fun p h => by simp [none] at h) looks
  cases ev with
  | beat o =>
    simp only [step] at looks
    split at looks <;> exact .inl looks
  | drop | tick => exact .inl looks
  | other change =>
    simp only [step, other] at looks
    split at looks <;> exact .inl looks
  | land o =>
    simp only [step, land] at looks
    split at looks
    · exact .inl looks
    · revert looks
      exact updateMany_cases (P := fun t => (t.phases r).current = some current → _ ∨ _) .inl
        (fun _ _ _ _ => .inl) fun _ => .inl
  | arrive o =>
    simp only [step] at looks
    split at looks
    · exact quiet rfl looks
    · exact .inl looks
  | outcome o outcome =>
    simp only [step] at looks
    split at looks
    · exact quiet (by cases outcome <;> rfl) looks
    · exact .inl looks
  | throw o caught =>
    simp only [State.step, State.throw] at looks
    split at looks
    · exact .inl looks
    · exact .inl looks
    · exact quiet (by split <;> rfl) looks
  | next o reply =>
    have found {answer : PersistedPlan → Phase} (none : ∀ p, (answer p).current = none)
        (looks : ((s.findFirst o answer).phases r).current = some current) :
        (s.phases r).current = some current ∨ s.shell = some current := by
      unfold findFirst at looks
      split at looks
      · exact quiet (none _) looks
      · exact quiet rfl looks
    have updated {planHash : String} {matched : PersistedPlan → State} {missed : State}
        (hit : ∀ p, ((matched p).phases r).current = some current → (s.phases r).current = some current ∨
          s.shell = some current)
        (miss : (missed.phases r).current = some current → (s.phases r).current = some current ∨
          s.shell = some current)
        (looks : ((s.updateMany planHash matched missed).phases r).current = some current) :
        (s.phases r).current = some current ∨ s.shell = some current := by
      revert looks
      exact updateMany_cases (P := fun t => (t.phases r).current = some current → _ ∨ _) .inl
        (fun p _ _ _ => hit p) fun _ => miss
    simp only [State.step, State.next] at looks
    cases phase : s.phases o with
    | idle | working | done =>
      rw [phase] at looks
      exact .inl looks
    | looking | rereading =>
      simp only [phase, State.look, State.reread] at looks
      split at looks
      · refine quiet ?_ looks
        unfold known
        split <;> rfl
      · exact quiet rfl looks
    | creating | writing =>
      simp only [phase, State.create, State.commit] at looks
      split at looks
      · exact quiet rfl looks
      · first
        | exact quiet rfl looks
        | exact .inl looks
    | deciding seen =>
      simp only [phase, State.decideStale] at looks
      split at looks
      · refine set ?_ looks
        rintro p ⟨⟩
        exact .inl (by rw [phase]; rfl)
      · exact quiet rfl looks
    | inspecting =>
      simp only [phase, State.findFirst] at looks
      split at looks
      · rename_i p shell
        refine set ?_ looks
        rintro p ⟨⟩
        exact .inr shell
      · exact quiet rfl looks
    | disputing | reading =>
      simp only [phase, State.dispute, State.readBack] at looks
      repeat' split at looks
      all_goals exact quiet rfl looks
    | replaying =>
      rw [phase] at looks
      refine found (fun p => ?_) looks
      unfold replayed
      split <;> rfl
    | confirming =>
      rw [phase] at looks
      exact found (fun _ => rfl) looks
    | asking =>
      rw [phase] at looks
      refine found (fun p => ?_) looks
      unfold clarifiedBefore
      repeat' split
      all_goals rfl
    | claiming | stealing | failing | clarifying | finalizing =>
      rw [phase] at looks
      exact updated (fun _ => quiet rfl) (quiet rfl) looks

/-- The owner of the row has had its claim. -/
theorem Owned.claimant (distinct : DistinctClaims rt) (h : Owned rt p history)
    (mine : p.claimedAs (planningClaimHash rt p.id r) = true) : ∃ stamp, Took history r stamp := by
  obtain ⟨planning, same⟩ := claimedAs_iff.1 mine
  obtain pending | ⟨o, stamp, other, took⟩ := h.owner planning
  · exact absurd (same.symm.trans pending) (not_pending rt p.id r)
  · rw [distinct p.id r o (same.symm.trans other)]
    exact ⟨stamp, took⟩

theorem Clocked.step (distinct : DistinctClaims rt) (requests : Requests rt s)
    (owned : ∀ p, s.shell = some p → Owned rt p s.history) (h : Clocked rt s) (ev : Event) :
    Clocked rt (s.step rt ev) := by
  have change := step_change requests.writing ev
  have later := step_now rt s ev
  refine ⟨fun r stamp mem => ?_, fun p r at_ mine => ?_, fun r stamp beat => ?_, fun r current looks => ?_⟩
  · have old (mem : .renewed r stamp ∈ s.history) : ∃ before, Took (s.step rt ev).history r before := by
      obtain ⟨before, took⟩ := h.renewals r stamp mem
      exact ⟨before, change.mono took⟩
    generalize (s.step rt ev).shell = shell, (s.step rt ev).history = history at change mem old
    cases change with
    | keep | create | other => exact old mem
    | claim | steal | fail | clarify | finalize =>
      exact old ((mem_append.1 mem).resolve_right fun new => by cases mem_singleton.1 new)
    | renew o p here mine stamp' beat =>
      obtain mem | new := mem_append.1 mem
      · exact old mem
      · cases mem_singleton.1 new
        obtain ⟨before, took⟩ := (owned p here).claimant distinct mine
        exact ⟨before, took.mono _⟩
  · obtain ⟨past, stamped, -⟩ := h.stamped_change distinct requests change at_ mine
    exact ⟨past.trans later, stamped⟩
  · obtain before | rfl := step_beats ev beat
    · refine ⟨(h.beats r stamp before).1.trans later, fun p at_ mine => ?_⟩
      exact (h.stamped_change distinct requests change at_ mine).2.2 stamp before
    · exact ⟨later, fun p at_ mine => (h.stamped_change distinct requests change at_ mine).1⟩
  · obtain before | here := step_current ev looks
    · obtain ⟨p, at_, seen⟩ := h.seen r current before
      obtain ⟨q, at', id⟩ := change.keeps_id at_
      exact ⟨q, at', id ▸ seen.change requests change⟩
    · obtain ⟨q, at', id⟩ := change.keeps_id here
      refine ⟨q, at', id ▸ Seen.change requests change fun planning o same => ?_⟩
      have mine := claimedAs_iff.2 ⟨planning, same⟩
      exact ⟨(owned current here).claimant distinct mine, (h.stamped current o here mine).2.taken⟩

end Steps

/-!
# Runs of planning requests

Any number of requests for one message, with their heartbeats, and whatever
others do to the shell, in any order.
-/

open Runs

structure Sound (rt : Runtime) (s : State) : Prop where
  requests : Requests rt s
  unused : s.shell = none → s.history = []
  owned : ∀ p, s.shell = some p → Owned rt p s.history
  clocked : Clocked rt s

/-- A claim is not taken over within a lease of a heartbeat of its request. -/
def InLease (rt : Runtime) (planId : String) (earlier later : Fact) : Prop :=
  ∀ r o renewed time stamp, earlier = .renewed o renewed →
    later = .stole r (planningClaimHash rt planId o) time stamp → renewed ≤ time - planningLeaseMs rt

/-- The update by which a request takes a claim over is about to find its row. -/
structure Steals (s : State) (ev : Event) (r : Nat) (current p : PersistedPlan) : Prop where
  turn : ∃ reply, ev = .next r reply
  phase : s.phases r = .stealing current
  free : s.lockedBy = none
  shell : s.shell = some p
  matched : p.claimedAs current.planHash = true

/-- Since the request has read the claim, no heartbeat has renewed it, but for
one that is a lease old by now. -/
def Undisturbed (rt : Runtime) (s : State) (ev : Event) : Prop :=
  ∀ r current p, Steals s ev r current p →
    p.updatedAt = current.updatedAt ∨ p.updatedAt ≤ s.now - planningLeaseMs rt

section Runs
variable {rt : Runtime} {s : State} {ev : Event}

theorem Sound.step (distinct : DistinctClaims rt) (h : Sound rt s) (ev : Event) : Sound rt (s.step rt ev) := by
  obtain ⟨unused, owned⟩ :=
    Owned.change distinct h.requests h.unused h.owned (step_change h.requests.writing ev)
  exact ⟨h.requests.step ev, unused, owned, h.clocked.step distinct h.requests h.owned ev⟩

theorem start_sound (now : Int) : Sound rt (start now) where
  requests := start_requests now
  unused _ := rfl
  owned _ at_ := by cases at_
  clocked := ⟨fun _ _ mem => (by cases mem), fun _ _ at_ => (by cases at_), fun _ _ beat => (by cases beat),
    fun _ _ looks => by cases looks⟩

/-- What the update writes. -/
theorem Steals.step (rt : Runtime) {r : Nat} {current p : PersistedPlan} (h : Steals s ev r current p) : ∃ stamp,
    (s.step rt ev).shell = some (p.claim (planningClaimHash rt p.id r) stamp) ∧
      (s.step rt ev).history = s.history ++ [.stole r current.planHash s.now stamp] := by
  obtain ⟨⟨reply, rfl⟩, phase, free, shell, matched⟩ := h
  refine ⟨min reply.stamp s.now, ?_⟩
  have found : s.shell.filter (fun p => p.claimedAs current.planHash) = some p :=
    filter_eq_some_iff.2 ⟨shell, matched⟩
  simp only [State.step, State.next, phase, State.steal, State.updateMany, if_pos free, found, hash_eq shell]
  exact ⟨rfl, rfl⟩

section
variable (distinct : DistinctClaims rt) (h : Sound rt s)
include distinct h

variable {p : PersistedPlan}

/-- The claim that is taken over has a request, and its heartbeats are a lease
old exactly when the row was not renewed in between. -/
theorem Steals.in_lease_iff {r : Nat} {current : PersistedPlan} (steals : Steals s ev r current p) (stamp : Int) :
    (∀ earlier ∈ s.history, InLease rt p.id earlier (.stole r current.planHash s.now stamp)) ↔
      p.updatedAt = current.updatedAt ∨ p.updatedAt ≤ s.now - planningLeaseMs rt := by
  obtain ⟨status, claimed, stale⟩ := h.requests.stealing r current steals.phase
  obtain ⟨planning, same⟩ := claimedAs_iff.1 steals.matched
  obtain ⟨o, before, claim, took⟩ : Claim rt p.id s.history current.planHash := by
    obtain pending | claim := (h.owned p steals.shell).owner planning
    · rw [← same, pending] at claimed
      exact absurd claimed (by decide)
    · exact same ▸ claim
  have mine : p.claimedAs (planningClaimHash rt p.id o) = true := claim ▸ steals.matched
  obtain ⟨past, stamped⟩ := h.clocked.stamped p o steals.shell mine
  constructor
  · intro inLease
    obtain renewed | taken := stamped.source
    · exact .inr (inLease _ renewed r o p.updatedAt s.now stamp rfl (by rw [claim]))
    · obtain ⟨q, shell, seen⟩ := h.clocked.seen r current (by rw [steals.phase]; rfl)
      cases shell.symm.trans steals.shell
      have bound := (seen status o claim).2 p.updatedAt taken
      right
      omega
  · rintro undisturbed earlier mem r' o' renewed time stamp' rfl same'
    simp only [Fact.stole.injEq] at same'
    obtain ⟨-, hash, rfl, -⟩ := same'
    obtain rfl : o = o' := distinct p.id o o' (claim.symm.trans hash)
    have last := stamped.renewals renewed mem
    omega

/-- One step: the leases are kept exactly when the step is not disturbed. -/
theorem Sound.in_lease_step (ev : Event) :
    (∀ p, (s.step rt ev).shell = some p → (s.step rt ev).history.Pairwise (InLease rt p.id)) ↔
      (∀ p, s.shell = some p → s.history.Pairwise (InLease rt p.id)) ∧ Undisturbed rt s ev := by
  by_cases steals : ∃ r current p, Steals s ev r current p
  · obtain ⟨r, current, p, steals⟩ := steals
    obtain ⟨stamp, shell, history⟩ := steals.step rt
    have one : Undisturbed rt s ev ↔
        p.updatedAt = current.updatedAt ∨ p.updatedAt ≤ s.now - planningLeaseMs rt := by
      constructor
      · exact fun all => all r current p steals
      · rintro cond r' current' p' other
        obtain ⟨reply, turn⟩ := steals.turn
        obtain ⟨reply', turn'⟩ := other.turn
        obtain ⟨rfl, -⟩ := Event.next.inj (turn.symm.trans turn')
        cases steals.phase.symm.trans other.phase
        cases steals.shell.symm.trans other.shell
        exact cond
    rw [one, shell, history, steals.shell, ← steals.in_lease_iff distinct h stamp]
    simp only [some.injEq, forall_eq', PersistedPlan.claim, pairwise_append,
      pairwise_singleton, true_and, mem_singleton, forall_eq]
  · have undisturbed : Undisturbed rt s ev := fun r current p found => absurd ⟨r, current, p, found⟩ steals
    have change := step_change h.requests.writing ev
    have append {p q : PersistedPlan} {fact : Fact} (here : s.shell = some p) (id : q.id = p.id)
        (quiet : ∀ r claimHash time stamp, fact ≠ .stole r claimHash time stamp) :
        (∀ p', some q = some p' → (s.history ++ [fact]).Pairwise (InLease rt p'.id)) ↔
          ∀ p', s.shell = some p' → s.history.Pairwise (InLease rt p'.id) := by
      have free (earlier : Fact) : InLease rt p.id earlier fact :=
        fun _ _ _ _ _ _ stole => absurd stole (quiet _ _ _ _)
      simp [here, id, pairwise_append, free]
    rw [and_iff_left undisturbed]
    generalize (s.step rt ev).shell = shell, (s.step rt ev).history = history at change
    cases change with
    | keep => exact Iff.rfl
    | create absent id stamp past => simp [h.unused absent]
    | claim r p here | renew r p here | fail r p here | clarify r p here | finalize r p here =>
      exact append here rfl (by simp)
    | steal r p current here matched phase turn free =>
      exact absurd ⟨r, current, p, turn, phase, free, here, matched⟩ steals
    | other p here change => simp [here, (change.apply_keeps s.now p).1]

theorem in_lease_along (events : List Event) :
    let t := events.foldl (step rt) s
    (∀ p, t.shell = some p → t.history.Pairwise (InLease rt p.id)) ↔
      (∀ p, s.shell = some p → s.history.Pairwise (InLease rt p.id)) ∧
        Along (step rt) (Undisturbed rt) s events := by
  induction events generalizing s with
  | nil => simp [Along]
  | cons ev events ih =>
    rw [foldl_cons, Along]
    have rest := ih (h.step distinct ev)
    have first := h.in_lease_step distinct ev
    dsimp only at rest ⊢
    rw [rest, first, and_assoc]

theorem ended_along (events : List Event) (at_ : s.shell = some p) (ended : p.status ≠ .PLANNING) :
    ∃ q, (events.foldl (step rt) s).shell = some q ∧ q.status ≠ .PLANNING := by
  induction events generalizing s p with
  | nil => exact ⟨p, at_, ended⟩
  | cons ev events ih =>
    obtain ⟨q, there, stays⟩ := (step_change h.requests.writing ev).stays_ended at_ ended
    exact ih (h.step distinct ev) there stays

end

end Runs

/-- Over every run: one request at most ends the shell with a plan, whose rows
these are; a request whose claim was taken over does not end it; the shell does
not become `PLANNING` again. A claim that was renewed within the lease is not
taken over exactly when no update that takes a claim over finds a row that was
renewed after the read on which the claim looked stale. -/
theorem planning_shell_owned (rt : Runtime) (distinct : DistinctClaims rt) (now : Int) (events : List Event) :
    let s := events.foldl (step rt) (start now)
    (s.history.filter Fact.isFinalized).length ≤ 1 ∧
    (∀ p, s.shell = some p → RowsOf rt s.history p ∧ s.history.Pairwise (Yields rt p.id)) ∧
    (∀ before after, events = before ++ after →
      ∀ p, (before.foldl (step rt) (start now)).shell = some p → p.status ≠ .PLANNING →
        ∃ q, s.shell = some q ∧ q.status ≠ .PLANNING) ∧
    ((∀ p, s.shell = some p → s.history.Pairwise (InLease rt p.id)) ↔
      Along (step rt) (Undisturbed rt) (start now) events) := by
  have run (events : List Event) : Sound rt (events.foldl (step rt) (start now)) :=
    invariant (P := Sound rt) (fun _ ev h => h.step distinct ev) events (start_sound now)
  intro s
  have sound : Sound rt s := run events
  refine ⟨?_, fun p at_ => ⟨(sound.owned p at_).rows, (sound.owned p at_).yields⟩, ?_, ?_⟩
  · cases shell : s.shell with
    | none => simp [sound.unused shell]
    | some p => exact (sound.owned p shell).once
  · rintro before after rfl p at_ ended
    have later := ended_along distinct (run before) after at_ ended
    rwa [← foldl_append] at later
  · have all := in_lease_along distinct ((start_sound now : Sound rt _)) events
    exact all.trans (and_iff_right fun p at_ => by cases at_)

namespace Overtaken

def rt : Runtime where
  sha256 := id
  base64url := id
  stringify _ := ""
  correlationId r := String.ofList (replicate r 'i')
  semanticPlannerTimeoutMs := 30000

theorem distinct : DistinctClaims rt := by
  intro planId r o same
  have length := congrArg String.length same
  simpa [planningClaimHash, rt] using length

def claims (r : Nat) : List Event := .arrive r :: replicate 5 (.next r { id := "plan" })

/-- The first request claims the shell; a minute later the second has found the
claim stale. -/
def found : List Event :=
  claims 0 ++ .tick 60000 :: .arrive 1 :: replicate 4 (.next 1 { stamp := 60000 })

/-- Then the first renews its claim, and the second takes it over. -/
def taken : List Event := found ++ [.beat 0, .land 0, .next 1 { stamp := 60000 }]

def plan : ExecutionPlan := { goal := "", maxParallelism := 1, invocations := [], dependencies := [] }

/-- The second takes the claim over at once, and makes the plan. -/
def finished : List Event :=
  found ++ [.next 1 { stamp := 60000 }, .next 1 {}, .outcome 1 (.finalize plan), .next 1 {}, .next 1 {}, .next 1 {}]

end Overtaken

/-- The claim of the first was renewed at the very time at which it is taken over. -/
theorem renewed_claim_taken_over :
    let s := Overtaken.taken.foldl (step Overtaken.rt) (start 0)
    DistinctClaims Overtaken.rt ∧ ¬ ∀ p, s.shell = some p → s.history.Pairwise (InLease Overtaken.rt p.id) := by
  refine ⟨Overtaken.distinct, fun leases => ?_⟩
  have shell : (Overtaken.taken.foldl (step Overtaken.rt) (start 0)).shell =
      some { id := "plan", planHash := planningClaimHash Overtaken.rt "plan" 1, updatedAt := 60000 } := by
    decide +kernel
  have kept := leases _ shell
  have broken := (pairwise_cons.1 (pairwise_cons.1 kept).2).1 _ mem_cons_self
  exact absurd (broken 1 0 60000 60000 60000 rfl rfl) (by decide)

theorem planning_shell_owned_finished :
    let s := Overtaken.finished.foldl (step Overtaken.rt) (start 0)
    (s.history.filter Fact.isFinalized).length ≤ 1 ∧
    (∀ p, s.shell = some p → RowsOf Overtaken.rt s.history p ∧ s.history.Pairwise (Yields Overtaken.rt p.id)) ∧
    (∀ before after, Overtaken.finished = before ++ after →
      ∀ p, (before.foldl (step Overtaken.rt) (start 0)).shell = some p → p.status ≠ .PLANNING →
        ∃ q, s.shell = some q ∧ q.status ≠ .PLANNING) ∧
    ((∀ p, s.shell = some p → s.history.Pairwise (InLease Overtaken.rt p.id)) ↔
      Along (step Overtaken.rt) (Undisturbed Overtaken.rt) (start 0) Overtaken.finished) :=
  planning_shell_owned Overtaken.rt Overtaken.distinct 0 Overtaken.finished

example : (Overtaken.finished.foldl (step Overtaken.rt) (start 0)).history =
    [.claimed 0 0, .stole 1 (planningClaimHash Overtaken.rt "plan" 0) 60000 60000,
      .finalized 1 Overtaken.plan] := by decide +kernel

end Vimla.Orchestration.Planning
