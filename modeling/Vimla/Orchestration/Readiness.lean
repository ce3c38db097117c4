import Vimla.Orchestration.Plan

/-!
# Readiness of an invocation

`readiness.ts`: each incoming dependency waits, is satisfied or has become
impossible, and the join policy decides over all of them.
-/

namespace Vimla.Orchestration

structure DependencySourceRuntimeState where
  status : InvocationStatus
  outcome : Option String := none

inductive ReadinessDecision | pending | ready | skipped
  deriving DecidableEq

structure InvocationReadinessResult where
  decision : ReadinessDecision
  reason : String

inductive DependencyEvaluation | waiting | satisfied | impossible
  deriving DecidableEq

def evaluateCondition (condition : DependencyCondition) (source : DependencySourceRuntimeState) :
    DependencyEvaluation :=
  if isTerminalInvocationStatus source.status = false then .waiting
  else
    match condition with
    | .always => .satisfied
    | .data | .onSuccess => if source.status = .completed then .satisfied else .impossible
    | .onFailure => if source.status = .failed then .satisfied else .impossible
    | .outcome outcome =>
      if source.status = .completed ∧ source.outcome = some outcome then .satisfied else .impossible

def decideJoin (policy : JoinPolicy) (evaluations : List DependencyEvaluation) :
    InvocationReadinessResult :=
  if evaluations.length = 0 then ⟨.ready, "root invocation has no dependencies"⟩
  else
    match policy with
    | .allSettled =>
      if ∀ value ∈ evaluations, value ≠ .waiting then
        ⟨.ready, "all upstream invocations are terminal"⟩
      else ⟨.pending, "waiting for upstream invocations to settle"⟩
    | .anyRequired =>
      if ∃ value ∈ evaluations, value = .satisfied then
        ⟨.ready, "at least one dependency is satisfied"⟩
      else if ∀ value ∈ evaluations, value = .impossible then
        ⟨.skipped, "no dependency can be satisfied"⟩
      else ⟨.pending, "waiting for a satisfiable dependency"⟩
    | .allRequired =>
      if ∃ value ∈ evaluations, value = .impossible then
        ⟨.skipped, "a required dependency cannot be satisfied"⟩
      else if ∀ value ∈ evaluations, value = .satisfied then
        ⟨.ready, "all required dependencies are satisfied"⟩
      else ⟨.pending, "waiting for required dependencies"⟩

/-- `sourceStates` is the map of the source; a missing source waits. -/
def decideDependencyReadiness (joinPolicy : JoinPolicy)
    (incomingDependencies : List InvocationDependency)
    (sourceStates : String → Option DependencySourceRuntimeState) : InvocationReadinessResult :=
  decideJoin joinPolicy <| incomingDependencies.map fun dependency =>
    match sourceStates dependency.fromInvocationId with
    | none => .waiting
    | some source => evaluateCondition dependency.condition source

theorem evaluateCondition_waiting {condition : DependencyCondition}
    {source : DependencySourceRuntimeState} :
    evaluateCondition condition source = .waiting ↔
      isTerminalInvocationStatus source.status = false := by
  unfold evaluateCondition
  cases terminal : isTerminalInvocationStatus source.status with
  | false => simp
  | true =>
    simp only [Bool.true_eq_false, if_false, iff_false]
    cases condition with
    | always => simp
    | data | onSuccess | onFailure | outcome => dsimp only; split <;> simp

/-- Once no dependency waits the join is decided, whatever its policy. -/
theorem decideJoin_settled {policy : JoinPolicy} {evaluations : List DependencyEvaluation}
    (settled : ∀ value ∈ evaluations, value ≠ .waiting) :
    (decideJoin policy evaluations).decision ≠ .pending := by
  have either : ∀ value ∈ evaluations, value = .satisfied ∨ value = .impossible := by
    intro value hv
    cases value with
    | waiting => exact absurd rfl (settled _ hv)
    | satisfied => exact .inl rfl
    | impossible => exact .inr rfl
  unfold decideJoin
  split
  · simp
  cases policy with
  | allSettled => simp
  | anyRequired =>
    by_cases some : ∃ value ∈ evaluations, value = .satisfied
    · rw [if_pos some]
      simp
    · have all : ∀ value ∈ evaluations, value = .impossible := fun value hv =>
        (either value hv).resolve_left fun e => some ⟨value, hv, e⟩
      rw [if_neg some, if_pos all]
      simp
  | allRequired =>
    by_cases some : ∃ value ∈ evaluations, value = .impossible
    · rw [if_pos some]
      simp
    · have all : ∀ value ∈ evaluations, value = .satisfied := fun value hv =>
        (either value hv).resolve_right fun e => some ⟨value, hv, e⟩
      rw [if_neg some, if_pos all]
      simp

theorem decideDependencyReadiness_settled {joinPolicy : JoinPolicy}
    {incoming : List InvocationDependency} {states : String → Option DependencySourceRuntimeState}
    (settled : ∀ d ∈ incoming, ∃ source, states d.fromInvocationId = some source ∧
      isTerminalInvocationStatus source.status = true) :
    (decideDependencyReadiness joinPolicy incoming states).decision ≠ .pending := by
  apply decideJoin_settled
  intro value hv
  obtain ⟨d, hd, rfl⟩ := List.mem_map.1 hv
  obtain ⟨source, found, terminal⟩ := settled d hd
  simp only [found]
  intro waits
  rw [evaluateCondition_waiting, terminal] at waits
  cases waits

end Vimla.Orchestration
