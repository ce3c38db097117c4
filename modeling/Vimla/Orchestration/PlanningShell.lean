import Vimla.Orchestration.Plan

/-!
# The planning shell of a message

`planMessage` of `orchestration.service.ts` with the statements by which its
requests share one row of `execution_plan`: who makes the row, who claims it,
how a claim is renewed and taken over, and how it ends. Each request goes on
statement by statement, in any order with the others.
-/

namespace Vimla.Orchestration.Planning

open Js Function

def PLANNING_PENDING_HASH : String := "planning:pending:v1"
def PLANNING_CLAIM_PREFIX : String := "planning:claimed:"
def CLARIFICATION_HASH_PREFIX : String := "clarification:"
def PLANNING_GOAL : String := "Planning workflow"
def MIN_PLANNING_LEASE_MS : Int := 60000
def PLANNING_LEASE_GRACE_MS : Int := 30000

/-- What the requests use of their surroundings; a request has a number. -/
structure Runtime where
  sha256 : String → String
  base64url : String → String
  stringify : ExecutionPlan → String
  correlationId : Nat → String
  semanticPlannerTimeoutMs : Int

inductive PersistedStatus
  | PLANNING | NEEDS_CLARIFICATION | PLANNED | RUNNING | PARTIAL | COMPLETED | FAILED | CANCELED
  deriving DecidableEq

structure InvocationRow where
  id : String
  planId : String
  sequence : Nat
  purpose : String
  target : InvocationTarget
  outputDeclarations : List OutputDeclaration
  acceptanceCriteria : List AcceptanceCriteria
  riskClass : RiskClass
  approvalPolicy : ApprovalPolicy
  failurePolicy : FailurePolicy
  joinPolicy : JoinPolicy
  deriving DecidableEq

structure DependencyRow where
  id : String
  planId : String
  fromInvocationId : String
  toInvocationId : String
  condition : DependencyCondition
  inputBindings : List InputBinding
  deriving DecidableEq

/-- A row of `execution_plan` with what `planInclude` adds. -/
structure PersistedPlan where
  id : String
  planHash : String := PLANNING_PENDING_HASH
  goal : String := PLANNING_GOAL
  status : PersistedStatus := .PLANNING
  maxParallelism : Nat := 1
  completedAt : Option Int := none
  updatedAt : Int
  invocations : List InvocationRow := []
  dependencies : List DependencyRow := []
  deriving DecidableEq

def planningClaimHash (rt : Runtime) (planId : String) (request : Nat) : String :=
  PLANNING_CLAIM_PREFIX ++ rt.sha256 (planId ++ ":" ++ rt.correlationId request)

def hashPlan (rt : Runtime) (plan : ExecutionPlan) : String := "sha256:" ++ rt.sha256 (rt.stringify plan)

def invocationDbId (rt : Runtime) (planId graphId : String) : String :=
  planId ++ ":inv:" ++ rt.base64url graphId

def dependencyDbId (rt : Runtime) (planId graphId : String) : String :=
  planId ++ ":dep:" ++ rt.base64url graphId

def isClarificationShell (plan : PersistedPlan) : Bool :=
  plan.status = .NEEDS_CLARIFICATION ∧ startsWith plan.planHash CLARIFICATION_HASH_PREFIX

def planningLeaseMs (rt : Runtime) : Int :=
  max MIN_PLANNING_LEASE_MS (rt.semanticPlannerTimeoutMs + PLANNING_LEASE_GRACE_MS)

def normalizedQuestion (question : String) : String := takeUnits 4000 (trim question)

/-- The rows of `invocation.createMany`. -/
def invocationRows (rt : Runtime) (planId : String) (plan : ExecutionPlan) : List InvocationRow :=
  plan.invocations.mapIdx fun sequence i =>
    ⟨invocationDbId rt planId i.id, planId, sequence, i.purpose, i.target, i.outputs, i.acceptanceCriteria,
      i.riskClass, i.approvalPolicy, i.failurePolicy, i.joinPolicy⟩

/-- The rows of `invocationDependency.createMany`. -/
def dependencyRows (rt : Runtime) (planId : String) (plan : ExecutionPlan) : List DependencyRow :=
  plan.dependencies.map fun d =>
    ⟨dependencyDbId rt planId d.id, planId, invocationDbId rt planId d.fromInvocationId,
      invocationDbId rt planId d.toInvocationId, d.condition, d.inputBindings⟩

namespace PersistedPlan
variable (p : PersistedPlan)

/-- `where: { status: "PLANNING", planHash }`. -/
def claimedAs (planHash : String) : Bool := p.status = .PLANNING ∧ p.planHash = planHash

def claim (claimHash : String) (now : Int) : PersistedPlan :=
  { p with planHash := claimHash, goal := PLANNING_GOAL, updatedAt := now }

def fail (now : Int) : PersistedPlan := { p with status := .FAILED, completedAt := some now, updatedAt := now }

def clarify (rt : Runtime) (question : String) (now : Int) : PersistedPlan :=
  { p with
    planHash := CLARIFICATION_HASH_PREFIX ++ rt.sha256 question
    goal := question
    status := .NEEDS_CLARIFICATION
    completedAt := some now
    updatedAt := now }

def finalize (rt : Runtime) (plan : ExecutionPlan) (now : Int) : PersistedPlan :=
  { p with
    planHash := hashPlan rt plan
    goal := plan.goal
    status := .PLANNED
    maxParallelism := plan.maxParallelism
    updatedAt := now
    invocations := invocationRows rt p.id plan
    dependencies := dependencyRows rt p.id plan }

end PersistedPlan

inductive Other
  | start
  | stop
  /-- The worker ends a running plan. -/
  | settle (status : PersistedStatus)
  /-- The update of the worker's `recoverStalePlanningShells`. -/
  | recover (updatedAt : Int)

def Other.apply (now : Int) (p : PersistedPlan) : Other → PersistedPlan
  | start => if p.status = .PLANNED then { p with status := .RUNNING, updatedAt := now } else p
  | stop =>
    if p.status = .PLANNING ∨ p.status = .PLANNED ∨ p.status = .RUNNING then
      { p with status := .CANCELED, completedAt := some now, updatedAt := now }
    else p
  | settle status =>
    if p.status = .RUNNING ∧ (status = .PARTIAL ∨ status = .COMPLETED ∨ status = .FAILED) then
      { p with status := status, completedAt := some now, updatedAt := now }
    else p
  | recover updatedAt =>
    if p.status = .PLANNING ∧ startsWith p.planHash "planning:" ∧ p.updatedAt ≤ updatedAt then p.fail now
    else p

inductive PlanMessageResult
  | CLARIFICATION_REQUIRED (clarificationQuestion : String)
  | PLANNING (planId : String)
  | PLANNED (plan : PersistedPlan)
  | EXISTING_PLAN (plan : PersistedPlan)

inductive PlanMessageError
  | notFound (message : String)
  | conflict (message : String)
  /-- What the planner, the context service or the database threw. -/
  | rethrown

def existingSemanticPlanResult (plan : PersistedPlan) : PlanMessageResult :=
  if isClarificationShell plan then .CLARIFICATION_REQUIRED plan.goal
  else if plan.status = .PLANNED then .PLANNED plan
  else .EXISTING_PLAN plan

/-- The next statement of a request. -/
inductive Phase
  | idle
  /-- `ensurePlanningShell`. -/
  | looking
  | creating
  | rereading
  /-- `claimPlanningShell`. -/
  | claiming
  | inspecting
  | deciding (current : PersistedPlan)
  | stealing (current : PersistedPlan)
  | replaying
  | confirming
  /-- The claim is held, and the planner at work. -/
  | working
  | disputing
  | failing
  /-- `persistClarification`. -/
  | clarifying (question : String)
  | asking
  /-- `finalizePlanningShell`. -/
  | finalizing (plan : ExecutionPlan)
  | writing (plan : ExecutionPlan)
  | reading (plan : ExecutionPlan) (finalized : Bool)
  | done (result : Except PlanMessageError PlanMessageResult)

/-- What comes of the planner's work. -/
inductive Outcome
  /-- A `ConflictException` of the context service, or a throw after the abort. -/
  | dispute
  | fail
  | clarify (question : String)
  | finalize (plan : ExecutionPlan)

def Outcome.phase : Outcome → Phase
  | dispute => .disputing
  | fail => .failing
  | clarify question => .clarifying (normalizedQuestion question)
  | finalize plan => .finalizing plan

/-- Whether the heartbeat of the request is on. -/
def Phase.beating : Phase → Bool
  | working | disputing | failing | clarifying _ | asking | finalizing _ | writing _ | reading _ _ => true
  | _ => false

/-- Whether `planMessage` catches what the statement throws, and fails the claim. -/
def Phase.guarded : Phase → Bool
  | working | finalizing _ | writing _ | reading _ _ => true
  | _ => false

/-- An update that found its row. -/
inductive Fact
  | claimed (request : Nat) (stamp : Int)
  | stole (request : Nat) (claimHash : String) (time stamp : Int)
  | renewed (request : Nat) (stamp : Int)
  | failed (request : Nat)
  | clarified (request : Nat)
  | finalized (request : Nat) (plan : ExecutionPlan)
  deriving DecidableEq

structure State where
  now : Int
  shell : Option PersistedPlan
  /-- The request whose transaction has written the row and has not ended. -/
  lockedBy : Option Nat
  phases : Nat → Phase
  /-- The heartbeats under way, with the time they write. -/
  beats : Nat → Option Int
  history : List Fact

/-- The id of a new row, and the time at which the client has sent the statement. -/
structure Reply where
  id : String := ""
  stamp : Int := 0

inductive Event
  | arrive (request : Nat)
  | next (request : Nat) (reply : Reply)
  | outcome (request : Nat) (outcome : Outcome)
  /-- A statement of the request rejects, or its process ends and nothing is caught. -/
  | throw (request : Nat) (caught : Bool)
  | beat (request : Nat)
  | land (request : Nat)
  | drop (request : Nat)
  | other (change : Other)
  | tick (elapsed : Nat)

namespace State
variable (rt : Runtime) (s : State) (r : Nat)

def go (phase : Phase) : State := { s with phases := update s.phases r phase }

/-- The row is written, and the request goes on. -/
def put (p : PersistedPlan) (fact : Fact) (phase : Phase) : State :=
  { s with
    shell := some p
    history := s.history ++ [fact]
    phases := update s.phases r phase }

/-- The claim hash of the request. -/
def hash : String := planningClaimHash rt ((s.shell.map PersistedPlan.id).getD "") r

/-- `findFirst`, and the error where there is nothing. -/
def findFirst (answer : PersistedPlan → Phase) : State :=
  match s.shell with
  | some p => s.go r (answer p)
  | none => s.go r (.done (.error (.notFound "Execution plan not found")))

/-- `updateMany` where the shell is `PLANNING` under this hash. It waits for
the lock of the row, and then sees the row as it is. -/
def updateMany (planHash : String) (matched : PersistedPlan → State) (missed : State) : State :=
  if s.lockedBy = none then
    match s.shell.filter fun p => p.claimedAs planHash with
    | some p => matched p
    | none => missed
  else s

/-- The shell is known: it is to be claimed, or it is over. -/
def known (p : PersistedPlan) : Phase :=
  if p.status = .PLANNING then .claiming else .done (.ok (existingSemanticPlanResult p))

def look : State :=
  match s.shell with
  | some p => s.go r (known p)
  | none => s.go r .creating

/-- Where there is a row already, the unique key keeps the second out. -/
def create (id : String) (stamp : Int) : State :=
  match s.shell with
  | some _ => s.go r .rereading
  | none => { s.go r .rereading with shell := some { id := id, updatedAt := stamp } }

def reread : State :=
  match s.shell with
  | some p => s.go r (known p)
  | none => s.go r (.done (.error (.conflict "Planning shell could not be created")))

def claimPending (stamp : Int) : State :=
  s.updateMany PLANNING_PENDING_HASH
    (fun p => s.put r (p.claim (s.hash rt r) stamp) (.claimed r stamp) .confirming) (s.go r .inspecting)

def decideStale (current : PersistedPlan) : State :=
  if current.status = .PLANNING ∧ startsWith current.planHash PLANNING_CLAIM_PREFIX ∧
      current.updatedAt ≤ s.now - planningLeaseMs rt then s.go r (.stealing current)
  else s.go r .replaying

def steal (current : PersistedPlan) (stamp : Int) : State :=
  s.updateMany current.planHash
    (fun p => s.put r (p.claim (s.hash rt r) stamp) (.stole r current.planHash s.now stamp) .confirming)
    (s.go r .replaying)

def replayed (p : PersistedPlan) : Phase :=
  if p.status = .PLANNING then .done (.ok (.PLANNING p.id)) else .done (.ok (existingSemanticPlanResult p))

/-- After a conflict: what is there by now is the answer, unless it is still `PLANNING`. -/
def dispute : State :=
  match s.shell with
  | some p => if p.status = .PLANNING then s.go r .failing
    else s.go r (.done (.ok (existingSemanticPlanResult p)))
  | none => s.go r .failing

def failPlanningClaim : State :=
  s.updateMany (s.hash rt r) (fun p => s.put r (p.fail s.now) (.failed r) (.done (.error .rethrown)))
    (s.go r (.done (.error .rethrown)))

def persistClarification (question : String) : State :=
  s.updateMany (s.hash rt r)
    (fun p => s.put r (p.clarify rt question s.now) (.clarified r)
      (.done (.ok (.CLARIFICATION_REQUIRED question))))
    (s.go r .asking)

def clarifiedBefore (p : PersistedPlan) : Phase :=
  if isClarificationShell p then .done (.ok (.CLARIFICATION_REQUIRED p.goal))
  else if p.status ≠ .PLANNING then
    .done (.error (.conflict "Execution plan finished while clarification was being stored"))
  else .done (.error (.conflict "Planning ownership changed"))

/-- The first statement of the transaction; the row is locked from then on. -/
def finalizePlanningShell (plan : ExecutionPlan) : State :=
  s.updateMany (s.hash rt r) (fun _ => { s.go r (.writing plan) with lockedBy := some r })
    (s.go r (.reading plan false))

/-- The commit, with the rows that were created. -/
def commit (plan : ExecutionPlan) : State :=
  match s.shell with
  | some p =>
    { s.put r (p.finalize rt plan s.now) (.finalized r plan) (.reading plan true) with lockedBy := none }
  | none => s

def readBack (plan : ExecutionPlan) (finalized : Bool) : State :=
  match s.shell with
  | some p =>
    -- A different execution plan won the planning claim.
    if finalized = false ∧ p.planHash ≠ hashPlan rt plan then s.go r .disputing
    else s.go r (.done (.ok (.PLANNED p)))
  | none => s.go r .failing

def next (reply : Reply) : State :=
  let stamp := min reply.stamp s.now
  match s.phases r with
  | .idle => s
  | .looking => s.look r
  | .creating => s.create r reply.id stamp
  | .rereading => s.reread r
  | .claiming => s.claimPending rt r stamp
  | .inspecting => s.findFirst r .deciding
  | .deciding current => s.decideStale rt r current
  | .stealing current => s.steal rt r current stamp
  | .replaying => s.findFirst r replayed
  | .confirming => s.findFirst r fun _ => .working
  | .working => s
  | .disputing => s.dispute r
  | .failing => s.failPlanningClaim rt r
  | .clarifying question => s.persistClarification rt r question
  | .asking => s.findFirst r clarifiedBefore
  | .finalizing plan => s.finalizePlanningShell rt r plan
  | .writing plan => s.commit rt r plan
  | .reading plan finalized => s.readBack rt r plan finalized
  | .done _ => s

/-- The transaction of the request, if it has one, is rolled back. -/
def throw (caught : Bool) : State :=
  match s.phases r with
  | .idle => s
  | .done _ => s
  | phase =>
    { s.go r (if caught ∧ phase.guarded then .failing else .done (.error .rethrown)) with
      lockedBy := if s.lockedBy = some r then none else s.lockedBy }

/-- The update of a heartbeat. -/
def land : State :=
  match s.beats r with
  | none => s
  | some stamp =>
    let landed := { s with beats := update s.beats r none }
    s.updateMany (s.hash rt r)
      (fun p => { landed with
        shell := some { p with updatedAt := stamp }
        history := s.history ++ [.renewed r stamp] })
      landed

def other (change : Other) : State :=
  if s.lockedBy = none then { s with shell := s.shell.map fun p => change.apply s.now p } else s

def step (rt : Runtime) (s : State) : Event → State
  | .arrive r =>
    match s.phases r with
    | .idle => s.go r .looking
    | _ => s
  | .next r reply => s.next rt r reply
  | .outcome r outcome =>
    match s.phases r with
    | .working => s.go r outcome.phase
    | _ => s
  | .throw r caught => s.throw r caught
  | .beat r =>
    if (s.phases r).beating ∧ s.beats r = none then
      { s with beats := update s.beats r (some s.now) }
    else s
  | .land r => s.land rt r
  | .drop r => { s with beats := update s.beats r none }
  | .other change => s.other change
  | .tick elapsed => { s with now := s.now + elapsed }

/-- A message without a plan, and no request yet. -/
def start (now : Int) : State where
  now := now
  shell := none
  lockedBy := none
  phases _ := .idle
  beats _ := none
  history := []

end State

end Vimla.Orchestration.Planning
