import Vimla.Lib.Runs
import Vimla.Orchestration.PlanningShell

/-!
# Who owns the planning shell

What a step does to the row is one of a few changes. From them: a request has
its claim once, what was claimed and taken over is lost for good, and one
request at most ends the shell with a plan.
-/

namespace Vimla.Orchestration.Planning

open Js List Option State

/-- The request has had its claim, stamped so. -/
def Took (history : List Fact) (r : Nat) (stamp : Int) : Prop :=
  .claimed r stamp ∈ history ∨ ∃ claimHash time, .stole r claimHash time stamp ∈ history

/-- The fact ends the shell for the request. -/
def Fact.Closes (r : Nat) : Fact → Prop
  | failed r' => r' = r
  | clarified r' => r' = r
  | finalized r' _ => r' = r
  | _ => False

def Fact.isFinalized : Fact → Bool
  | finalized _ _ => true
  | _ => false

def Fact.request : Fact → Nat
  | claimed r _ | stole r _ _ _ | renewed r _ | failed r | clarified r | finalized r _ => r

/-- Phases before the claim is had. -/
def Phase.early : Phase → Bool
  | idle | looking | creating | rereading | claiming | inspecting | deciding _ | stealing _ => true
  | _ => false

inductive Change (rt : Runtime) (s : State) (ev : Event) : Option PersistedPlan → List Fact → Prop
  | keep : Change rt s ev s.shell s.history
  | create (absent : s.shell = none) (id : String) (stamp : Int) (past : stamp ≤ s.now) :
    Change rt s ev (some { id := id, updatedAt := stamp }) s.history
  | claim (r : Nat) (p : PersistedPlan) (shell : s.shell = some p)
    (pending : p.claimedAs PLANNING_PENDING_HASH = true) (phase : s.phases r = .claiming) (stamp : Int)
    (past : stamp ≤ s.now) :
    Change rt s ev (some (p.claim (planningClaimHash rt p.id r) stamp)) (s.history ++ [.claimed r stamp])
  | steal (r : Nat) (p current : PersistedPlan) (shell : s.shell = some p)
    (matched : p.claimedAs current.planHash = true) (phase : s.phases r = .stealing current)
    (turn : ∃ reply, ev = .next r reply) (free : s.lockedBy = none) (stamp : Int) (past : stamp ≤ s.now) :
    Change rt s ev (some (p.claim (planningClaimHash rt p.id r) stamp))
      (s.history ++ [.stole r current.planHash s.now stamp])
  | renew (r : Nat) (p : PersistedPlan) (shell : s.shell = some p)
    (owned : p.claimedAs (planningClaimHash rt p.id r) = true) (stamp : Int)
    (beat : s.beats r = some stamp) :
    Change rt s ev (some { p with updatedAt := stamp }) (s.history ++ [.renewed r stamp])
  | fail (r : Nat) (p : PersistedPlan) (shell : s.shell = some p)
    (owned : p.claimedAs (planningClaimHash rt p.id r) = true) :
    Change rt s ev (some (p.fail s.now)) (s.history ++ [.failed r])
  | clarify (r : Nat) (p : PersistedPlan) (shell : s.shell = some p)
    (owned : p.claimedAs (planningClaimHash rt p.id r) = true) (question : String) :
    Change rt s ev (some (p.clarify rt question s.now)) (s.history ++ [.clarified r])
  | finalize (r : Nat) (p : PersistedPlan) (shell : s.shell = some p)
    (owned : p.claimedAs (planningClaimHash rt p.id r) = true) (plan : ExecutionPlan) :
    Change rt s ev (some (p.finalize rt plan s.now)) (s.history ++ [.finalized r plan])
  | other (p : PersistedPlan) (shell : s.shell = some p) (change : Other) :
    Change rt s ev (some (change.apply s.now p)) s.history

section Step
variable {rt : Runtime} {s : State} {r : Nat}

theorem hash_eq {p : PersistedPlan} (shell : s.shell = some p) : s.hash rt r = planningClaimHash rt p.id r := by
  rw [State.hash, shell]
  rfl

/-- An update waits, finds the row, or finds that it is another's. -/
theorem updateMany_cases {planHash : String} {matched : PersistedPlan → State} {missed : State} {P : State → Prop}
    (waits : P s) (hit : ∀ p, s.lockedBy = none → s.shell = some p → p.claimedAs planHash = true → P (matched p))
    (miss : s.lockedBy = none → P missed) : P (s.updateMany planHash matched missed) := by
  unfold updateMany
  split
  · rename_i free
    split
    · rename_i p found
      obtain ⟨shell, fits⟩ := filter_eq_some_iff.1 found
      exact hit p free shell fits
    · exact miss free
  · exact waits

/-- A transaction that has written the row still owns it. -/
def Writing (rt : Runtime) (s : State) : Prop :=
  ∀ r plan, s.phases r = .writing plan → s.lockedBy = some r ∧
    ∃ p, s.shell = some p ∧ p.claimedAs (planningClaimHash rt p.id r) = true

theorem next_change (writing : Writing rt s) (reply : Reply) :
    Change rt s (.next r reply) (s.next rt r reply).shell (s.next rt r reply).history := by
  have past : min reply.stamp s.now ≤ s.now := min_le_right _ _
  have found (answer : PersistedPlan → Phase) :
      Change rt s (.next r reply) (s.findFirst r answer).shell (s.findFirst r answer).history := by
    unfold findFirst
    split <;> exact .keep
  unfold State.next
  cases phase : s.phases r with
  | idle | working | done => exact .keep
  | looking | rereading | disputing | reading =>
    simp only [look, reread, dispute, readBack]
    repeat' split
    all_goals exact .keep
  | creating =>
    simp only [create]
    split
    · exact .keep
    · rename_i absent
      exact .create absent reply.id _ past
  | claiming =>
    refine updateMany_cases (P := fun t => Change rt s (.next r reply) t.shell t.history) .keep ?_ fun _ => .keep
    intro p free shell fits
    rw [hash_eq shell]
    exact .claim r p shell fits phase _ past
  | deciding current =>
    simp only [decideStale]
    split <;> exact .keep
  | stealing current =>
    refine updateMany_cases (P := fun t => Change rt s (.next r reply) t.shell t.history) .keep ?_ fun _ => .keep
    intro p free shell fits
    rw [hash_eq shell]
    exact .steal r p current shell fits phase ⟨reply, rfl⟩ free _ past
  | inspecting | replaying | confirming | asking => exact found _
  | failing =>
    refine updateMany_cases (P := fun t => Change rt s (.next r reply) t.shell t.history) .keep ?_ fun _ => .keep
    intro p free shell fits
    exact .fail r p shell (hash_eq shell ▸ fits)
  | clarifying question =>
    refine updateMany_cases (P := fun t => Change rt s (.next r reply) t.shell t.history) .keep ?_ fun _ => .keep
    intro p free shell fits
    exact .clarify r p shell (hash_eq shell ▸ fits) question
  | finalizing plan =>
    exact updateMany_cases (P := fun t => Change rt s (.next r reply) t.shell t.history) .keep (fun _ _ _ _ => .keep) fun _ => .keep
  | writing plan =>
    obtain ⟨-, p, shell, owned⟩ := writing r plan phase
    simp only [commit, shell]
    exact .finalize r p shell owned plan

theorem step_change (writing : Writing rt s) (ev : Event) :
    Change rt s ev (s.step rt ev).shell (s.step rt ev).history := by
  cases ev with
  | arrive r | outcome r outcome | throw r caught =>
    simp only [State.step, State.throw]
    split <;> exact .keep
  | beat r =>
    simp only [step]
    split <;> exact .keep
  | drop r | tick elapsed => exact .keep
  | next r reply => exact next_change writing reply
  | land r =>
    simp only [step, land]
    split
    · exact .keep
    · rename_i stamp beat
      refine updateMany_cases (P := fun t => Change rt s (.land r) t.shell t.history) .keep ?_ fun _ => .keep
      intro p free shell fits
      exact .renew r p shell (hash_eq shell ▸ fits) stamp beat
  | other change =>
    simp only [step, other]
    split
    · cases shell : s.shell with
      | none =>
        rw [map_none, ← shell]
        exact .keep
      | some p => exact .other p shell change
    · exact .keep

end Step

/-- A claim that is stale by the clock of the request that has read it. -/
def Stale (rt : Runtime) (now : Int) (p : PersistedPlan) : Prop :=
  p.status = .PLANNING ∧ startsWith p.planHash PLANNING_CLAIM_PREFIX = true ∧
    p.updatedAt ≤ now - planningLeaseMs rt

structure Requests (rt : Runtime) (s : State) : Prop where
  early : ∀ r, (s.phases r).early = true → s.beats r = none ∧ ∀ stamp, ¬ Took s.history r stamp
  stealing : ∀ r current, s.phases r = .stealing current → Stale rt s.now current
  writing : Writing rt s

section Requests
variable {rt : Runtime} {s : State} {r : Nat} {stamp : Int} {history : List Fact} {o : Nat}

theorem took_append {fact : Fact}
    (took : Took (history ++ [fact]) o stamp) : Took history o stamp ∨ Took [fact] o stamp := by
  obtain claimed | ⟨claimHash, time, stole⟩ := took
  · exact (mem_append.1 claimed).imp .inl .inl
  · exact (mem_append.1 stole).imp (fun mem => .inr ⟨claimHash, time, mem⟩)
      fun mem => .inr ⟨claimHash, time, mem⟩

theorem Took.request {fact : Fact} (took : Took [fact] o stamp) : fact.request = o := by
  obtain mem | ⟨_, _, mem⟩ := took <;> rw [← mem_singleton.1 mem] <;> rfl

theorem Took.mono (h : Took history o stamp) (fact : Fact) : Took (history ++ [fact]) o stamp :=
  h.imp (mem_append_left _) fun ⟨claimHash, time, mem⟩ => ⟨claimHash, time, mem_append_left _ mem⟩

section
variable (h : Requests rt s)
include h

variable {phase : Phase} {p : PersistedPlan}

/-- The request goes on and the row stays. -/
theorem Requests.go (early : phase.early = true → (s.phases r).early = true)
    (stealing : ∀ current, phase = .stealing current → Stale rt s.now current)
    (writing : ∀ plan, phase ≠ .writing plan) : Requests rt (s.go r phase) where
  early o now := by
    by_cases same : o = r
    · subst same
      simp only [go, Function.update_self] at now
      exact h.early o (early now)
    · simp only [State.go, Function.update_of_ne same] at now
      exact h.early o now
  stealing o current at_ := by
    by_cases same : o = r
    · subst same
      simp only [go, Function.update_self] at at_
      exact stealing current at_
    · simp only [State.go, Function.update_of_ne same] at at_
      exact h.stealing o current at_
  writing o plan at_ := by
    by_cases same : o = r
    · subst same
      simp only [go, Function.update_self] at at_
      exact absurd at_ (writing plan)
    · simp only [State.go, Function.update_of_ne same] at at_
      exact h.writing o plan at_

/-- The request writes the row, which no other has locked. -/
theorem Requests.put {fact : Fact} (alone : ∀ o, s.lockedBy = some o → o = r) (own : fact.request = r)
    (late : phase.early = false) (writing : ∀ plan, phase ≠ .writing plan) :
    Requests rt { s.put r p fact phase with lockedBy := none } where
  early o now := by
    by_cases same : o = r
    · subst same
      simp [State.put, late] at now
    · simp only [State.put, Function.update_of_ne same] at now
      obtain ⟨quiet, before⟩ := h.early o now
      refine ⟨quiet, fun stamp took => ?_⟩
      obtain took | other := took_append took
      · exact before stamp took
      · exact same (other.request.symm.trans own)
  stealing o current at_ := by
    by_cases same : o = r
    · subst same
      simp only [State.put, Function.update_self] at at_
      rw [at_] at late
      cases late
    · simp only [State.put, Function.update_of_ne same] at at_
      exact h.stealing o current at_
  writing o plan at_ := by
    by_cases same : o = r
    · subst same
      simp only [State.put, Function.update_self] at at_
      exact absurd at_ (writing plan)
    · simp only [State.put, Function.update_of_ne same] at at_
      exact absurd (alone o (h.writing o plan at_).1) same

theorem Requests.put_unlocked {fact : Fact} (free : s.lockedBy = none) (own : fact.request = r)
    (late : phase.early = false) (writing : ∀ plan, phase ≠ .writing plan) : Requests rt (s.put r p fact phase) := by
  have put := h.put (p := p) (fun o locked => by simp [free] at locked) own late writing
  rwa [show { s.put r p fact phase with lockedBy := none } = s.put r p fact phase by
    simp [State.put, free]] at put

theorem Requests.findFirst {answer : PersistedPlan → Phase}
    (early : ∀ p, (answer p).early = true → (s.phases r).early = true)
    (stealing : ∀ p current, answer p ≠ .stealing current) (writing : ∀ p plan, answer p ≠ .writing plan) :
    Requests rt (s.findFirst r answer) := by
  unfold State.findFirst
  split
  · exact h.go (early _) (fun current at_ => absurd at_ (stealing _ current)) (writing _)
  · exact h.go (by simp [Phase.early]) (by simp) (by simp)

theorem Requests.next (reply : Reply) : Requests rt (s.next rt r reply) := by
  have known (p : PersistedPlan) (before : (s.phases r).early = true) :
      Requests rt (s.go r (known p)) := by
    refine h.go (fun _ => before) ?_ ?_ <;> unfold known <;> split <;> simp
  unfold State.next
  cases phase : s.phases r with
  | idle | working | done => exact h
  | looking =>
    simp only [look]
    split
    · exact known _ (phase ▸ rfl)
    · exact h.go (by simp [phase, Phase.early]) (by simp) (by simp)
  | rereading =>
    simp only [reread]
    split
    · exact known _ (phase ▸ rfl)
    · exact h.go (by simp [Phase.early]) (by simp) (by simp)
  | creating =>
    simp only [create]
    have went : Requests rt (s.go r .rereading) :=
      h.go (by simp [phase, Phase.early]) (by simp) (by simp)
    split
    · exact went
    · rename_i absent
      refine ⟨went.early, went.stealing, fun o plan at_ => ?_⟩
      obtain ⟨-, p, shell, -⟩ := went.writing o plan at_
      simp [State.go, absent] at shell
  | claiming =>
    refine updateMany_cases h (fun p free _ _ => ?_) fun _ => ?_
    · exact h.put_unlocked free rfl rfl (by simp)
    · exact h.go (by simp [phase, Phase.early]) (by simp) (by simp)
  | deciding current =>
    simp only [decideStale]
    split
    · rename_i stale
      refine h.go (by simp [phase, Phase.early]) ?_ (by simp)
      rintro _ ⟨⟩
      exact stale
    · exact h.go (by simp [Phase.early]) (by simp) (by simp)
  | stealing current | failing | clarifying question =>
    refine updateMany_cases h (fun p free _ _ => ?_) fun _ => ?_
    · exact h.put_unlocked free rfl rfl (by simp)
    · exact h.go (by simp [Phase.early]) (by simp) (by simp)
  | inspecting => exact h.findFirst (by simp [phase, Phase.early]) (by simp) (by simp)
  | replaying =>
    refine h.findFirst ?_ ?_ ?_ <;> intro p <;> unfold replayed <;> split <;> simp [Phase.early]
  | confirming => exact h.findFirst (by simp [Phase.early]) (by simp) (by simp)
  | asking =>
    refine h.findFirst ?_ ?_ ?_ <;> intro p <;> unfold clarifiedBefore <;> repeat' split
    all_goals simp [Phase.early]
  | disputing =>
    simp only [dispute]
    repeat' split
    all_goals exact h.go (by simp [Phase.early]) (by simp) (by simp)
  | reading plan finalized =>
    simp only [readBack]
    repeat' split
    all_goals exact h.go (by simp [Phase.early]) (by simp) (by simp)
  | finalizing plan =>
    refine updateMany_cases h (fun p free shell fits => ?_) fun _ => ?_
    · refine ⟨fun o now => ?_, fun o current at_ => ?_, fun o plan' at_ => ?_⟩
      · by_cases same : o = r
        · subst same
          simp [State.go, Phase.early] at now
        · exact h.early o (by simpa [State.go, same] using now)
      · by_cases same : o = r
        · subst same
          simp [State.go] at at_
        · exact h.stealing o current (by simpa [State.go, same] using at_)
      · by_cases same : o = r
        · subst same
          exact ⟨rfl, p, shell, hash_eq shell ▸ fits⟩
        · have locked := (h.writing o plan' (by simpa [State.go, same] using at_)).1
          simp [free] at locked
    · exact h.go (by simp [Phase.early]) (by simp) (by simp)
  | writing plan =>
    obtain ⟨locked, p, shell, -⟩ := h.writing r plan phase
    simp only [State.commit, shell]
    exact h.put (fun o other => by rw [locked] at other; exact (some.inj other).symm) rfl rfl (by simp)

theorem Requests.step (ev : Event) : Requests rt (s.step rt ev) := by
  cases ev with
  | arrive r =>
    simp only [State.step]
    split
    · rename_i phase
      exact h.go (by simp [phase, Phase.early]) (by simp) (by simp)
    · exact h
  | next r reply => exact h.next reply
  | outcome r outcome =>
    simp only [State.step]
    split
    · cases outcome <;> exact h.go (by simp [Outcome.phase, Phase.early]) (by simp [Outcome.phase])
        (by simp [Outcome.phase])
    · exact h
  | throw r caught =>
    simp only [State.step, State.throw]
    split
    · exact h
    · exact h
    · -- The lock is given up by the one that may have held it.
      have went : Requests rt
          (s.go r (if caught ∧ (s.phases r).guarded then .failing else .done (.error .rethrown))) := by
        split <;> exact h.go (by simp [Phase.early]) (by simp) (by simp)
      refine ⟨went.early, went.stealing, fun o plan at_ => ?_⟩
      obtain ⟨locked, owned⟩ := went.writing o plan at_
      have distinct : o ≠ r := by
        rintro rfl
        simp only [State.go, Function.update_self] at at_
        split at at_ <;> cases at_
      refine ⟨?_, owned⟩
      have other : s.lockedBy ≠ some r := by
        intro own
        rw [show s.lockedBy = some o from locked] at own
        exact distinct (some.inj own)
      simpa [State.go, other] using locked
  | beat r =>
    simp only [State.step]
    split
    · rename_i on
      refine ⟨fun o now => ?_, h.stealing, h.writing⟩
      have distinct : o ≠ r := by
        rintro rfl
        have early : (s.phases o).early = true := now
        cases phase : s.phases o <;> simp [phase, Phase.early, Phase.beating] at early on
      exact ⟨(Function.update_of_ne distinct _ _).trans (h.early o now).1, (h.early o now).2⟩
    · exact h
  | drop r =>
    refine ⟨fun o now => ⟨?_, (h.early o now).2⟩, h.stealing, h.writing⟩
    by_cases same : o = r
    · subst same
      exact Function.update_self ..
    · exact (Function.update_of_ne same _ _).trans (h.early o now).1
  | land r =>
    simp only [State.step, State.land]
    split
    · exact h
    · rename_i stamp beat
      have quiet (o : Nat) (now : (s.phases o).early = true) :
          Function.update s.beats r none o = none ∧ ∀ stamp, ¬ Took s.history o stamp := by
        by_cases same : o = r
        · subst same
          exact ⟨Function.update_self .., (h.early o now).2⟩
        · exact ⟨(Function.update_of_ne same _ _).trans (h.early o now).1, (h.early o now).2⟩
      refine updateMany_cases h (fun p free shell fits => ?_) fun _ => ⟨quiet, h.stealing, h.writing⟩
      refine ⟨fun o now => ⟨(quiet o now).1, fun stamp' took => ?_⟩, h.stealing, fun o plan at_ => ?_⟩
      · obtain took | own := took_append took
        · exact (quiet o now).2 stamp' took
        · have late := (h.early o now).1
          rw [← own.request] at late
          exact absurd (beat.symm.trans late) (by simp)
      · have locked := (h.writing o plan at_).1
        simp [free] at locked
  | other change =>
    simp only [State.step, State.other]
    split
    · rename_i free
      refine ⟨h.early, h.stealing, fun o plan at_ => ?_⟩
      have locked := (h.writing o plan at_).1
      simp [free] at locked
    · exact h
  | tick elapsed =>
    refine ⟨h.early, fun o current at_ => ?_, h.writing⟩
    obtain ⟨status, claimed, past⟩ := h.stealing o current at_
    refine ⟨status, claimed, ?_⟩
    simp only [State.step]
    omega

end

theorem start_requests (now : Int) : Requests rt (start now) where
  early _ _ := ⟨rfl, fun _ took => by obtain mem | ⟨_, _, mem⟩ := took <;> cases mem⟩
  stealing _ _ at_ := by cases at_
  writing _ _ at_ := by cases at_

end Requests

end Vimla.Orchestration.Planning
