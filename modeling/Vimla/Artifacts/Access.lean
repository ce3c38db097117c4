import Vimla.Artifacts.Service
import Vimla.Lib.Checks
import Vimla.Lib.Runs

/-!
# Who may read an artifact

The owner's grants and revocations, and the four calls that ask whether a user
may read a version.
-/

namespace Vimla.Artifacts

open Js List Tables Checks

structure AccessInput where
  actorUserId : String
  artifactId : String
  granteeUserId : String

def AccessInput.validate (input : AccessInput) : Except ArtifactError Unit := do
  validateIdentifier input.actorUserId "actorUserId"
  validateIdentifier input.artifactId "artifactId"
  validateIdentifier input.granteeUserId "granteeUserId"

/-- The input names the row; its unique key, for the permission to read. -/
def AccessInput.names (input : AccessInput) (grant : ArtifactAccessGrant) : Bool :=
  grant.artifactId = input.artifactId ∧ grant.granteeUserId = input.granteeUserId

def AccessInput.upsert (input : AccessInput) (grants : List ArtifactAccessGrant) : List ArtifactAccessGrant :=
  if grants.any input.names then grants.map fun grant => if input.names grant then { grant with revokedAt := none } else grant
  else grants ++ [⟨input.artifactId, input.granteeUserId, none⟩]

def AccessInput.revoke (input : AccessInput) (now : Int) (grants : List ArtifactAccessGrant) : List ArtifactAccessGrant :=
  grants.map fun grant => if input.names grant ∧ grant.revokedAt = none then { grant with revokedAt := some now } else grant

def grantReadAccess (users : List String) (input : AccessInput) (T : Tables) : Except ArtifactError Tables := do
  input.validate
  let _ ← ownedArtifact T input.artifactId input.actorUserId
  if input.granteeUserId = input.actorUserId then .ok T
  else if input.granteeUserId ∉ users then .error (.validation "granteeUserId does not identify an existing user")
  else .ok { T with accessGrants := input.upsert T.accessGrants }

def revokeReadAccess (now : Int) (input : AccessInput) (T : Tables) : Except ArtifactError Tables := do
  input.validate
  let _ ← ownedArtifact T input.artifactId input.actorUserId
  .ok { T with accessGrants := input.revoke now T.accessGrants }

/-- A call with what it reads besides: the users that exist, its clock. -/
inductive AccessCall
  | grant (users : List String) (input : AccessInput)
  | revoke (now : Int) (input : AccessInput)

def AccessCall.input : AccessCall → AccessInput
  | .grant _ input | .revoke _ input => input

def AccessCall.run (T : Tables) : AccessCall → Except ArtifactError Tables
  | .grant users input => grantReadAccess users input T
  | .revoke now input => revokeReadAccess now input T

def Tables.access (T : Tables) (call : AccessCall) : Tables := (call.run T).toOption.getD T

/-- A version with its artifact and the invocation that made it. -/
def Tables.version (T : Tables) (artifactVersionId : String) : Option (ArtifactVersion × Artifact × Invocation) := do
  let version ← Rows.find ArtifactVersion.id artifactVersionId T.versions
  let artifact ← T.artifact version.artifactId
  let invocation ← T.invocation artifact.creatorInvocationId
  some (version, artifact, invocation)

def Tables.granted (T : Tables) (artifactId userId : String) : Bool :=
  T.accessGrants.any fun grant => decide (grant.artifactId = artifactId ∧ grant.granteeUserId = userId ∧ grant.revokedAt = none)

def canUsersReadVersion (T : Tables) (actorUserIds : List String) (artifactVersionId : String) : Except ArtifactError Bool := do
  validateIdentifier artifactVersionId "artifactVersionId"
  if actorUserIds = [] then .ok false
  else
    let actorUserIds := actorUserIds.eraseDups
    actorUserIds.forM fun actorUserId => validateIdentifier actorUserId "actorUserId"
    match T.version artifactVersionId with
    | none => .ok false
    | some (_, artifact, invocation) =>
      let grantedUserIds := (T.accessGrants.filter fun grant => decide (grant.artifactId = artifact.id ∧
        grant.granteeUserId ∈ actorUserIds ∧ grant.revokedAt = none)).map ArtifactAccessGrant.granteeUserId
      .ok (actorUserIds.all fun actorUserId => decide (actorUserId = invocation.userId ∨ actorUserId ∈ grantedUserIds))

def canReadVersion (T : Tables) (actorUserId artifactVersionId : String) : Except ArtifactError Bool :=
  canUsersReadVersion T [actorUserId] artifactVersionId

/-- The columns of a plan that are shown. -/
structure PlanRow where
  version : Nat
  planHash : String
  messageId : Option String
  conversationId : String

structure ArtifactProvenance where
  reference : ArtifactReference
  creatorInvocationId : String
  planId : String
  plan : PlanRow

def getProvenance (plans : String → PlanRow) (T : Tables) (actorUserId artifactVersionId : String) :
    Except ArtifactError ArtifactProvenance := do
  validateIdentifier actorUserId "actorUserId"
  validateIdentifier artifactVersionId "artifactVersionId"
  match T.version artifactVersionId with
  | none => .error .notFound
  | some (version, artifact, invocation) =>
    if invocation.userId = actorUserId ∨ T.granted artifact.id actorUserId then
      .ok ⟨toReference artifact version, invocation.id, invocation.planId, plans invocation.planId⟩
    else .error .notFound

/-- The owner of the plan, or a user with a grant. -/
def Tables.Readable (T : Tables) (userId artifactVersionId : String) : Prop :=
  ∃ version artifact invocation, T.version artifactVersionId = some (version, artifact, invocation) ∧
    (userId = invocation.userId ∨ T.granted artifact.id userId)

/-- The call of an owner for an existing user other than the owner. -/
def AccessCall.effective (T : Tables) (call : AccessCall) : Bool :=
  call.input.validate.isOk && (ownedArtifact T call.input.artifactId call.input.actorUserId).isOk &&
    match call with
    | .grant users input => decide (input.granteeUserId ≠ input.actorUserId ∧ input.granteeUserId ∈ users)
    | .revoke _ _ => true

/-- What the call says of a user of the artifact, if it takes effect: `true` for a grant. -/
def AccessCall.effect (T : Tables) (artifactId userId : String) (call : AccessCall) : Option Bool :=
  if call.effective T ∧ call.input.artifactId = artifactId ∧ call.input.granteeUserId = userId then
    match call with
    | .grant _ _ => some true
    | .revoke _ _ => some false
  else none

/-- What the latest such call says. -/
def latest (T : Tables) (artifactId userId : String) (calls : List AccessCall) : Option Bool :=
  (calls.filterMap (AccessCall.effect T artifactId userId)).getLast?

/-- The columns of the message are a reference or a value, the check of the table. -/
def Tables.Filled (T : Tables) : Prop := ∀ v ∈ T.versions, (v.contentRef.isSome || v.contentJson.isSome) = true

/-- What holds of the tables `U` that the calls leave of `T`. -/
structure AccessHolds (plans : String → PlanRow) (T : Tables) (calls : List AccessCall) (U : Tables) : Prop where
  reads : ∀ userId id, (∃ r, readVersion U userId id = .ok r) ↔ canReadVersion U userId id = .ok true
  provenance : ∀ userId id, (∃ r, getProvenance plans U userId id = .ok r) ↔ canReadVersion U userId id = .ok true
  decided : ∀ userId id, canReadVersion U userId id = .ok true ↔ validateIdentifier userId "actorUserId" = .ok () ∧
    validateIdentifier id "artifactVersionId" = .ok () ∧ ∃ version artifact invocation, T.version id = some (version, artifact, invocation) ∧
      (userId = invocation.userId ∨ (latest T artifact.id userId calls).getD (T.granted artifact.id userId))
  together : ∀ users id, canUsersReadVersion U users id = .ok true ↔ users ≠ [] ∧ ∀ u ∈ users, canReadVersion U u id = .ok true
  /-- A call of a user who does not own the plan. -/
  foreign : ∀ call : AccessCall, (∀ artifact invocation, U.artifact call.input.artifactId = some artifact →
    U.invocation artifact.creatorInvocationId = some invocation → invocation.userId ≠ call.input.actorUserId) → U.access call = U

variable {T U : Tables} {userId artifactId artifactVersionId : String} {call : AccessCall}

theorem canUsersReadVersion_iff {users : List String} : canUsersReadVersion T users artifactVersionId = .ok true ↔
    validateIdentifier artifactVersionId "artifactVersionId" = .ok () ∧ users ≠ [] ∧
      ∀ u ∈ users, validateIdentifier u "actorUserId" = .ok () ∧ T.Readable u artifactVersionId := by
  unfold canUsersReadVersion Readable
  rw [check_bind]
  refine and_congr_right fun _ => ?_
  by_cases empty : users = []
  · simp [empty]
  simp only [empty, ↓reduceIte, check_bind, forM_eq_ok, mem_eraseDups, ne_eq,
    not_false_eq_true, true_and]
  rw [forall₂_and]
  refine and_congr_right fun _ => ?_
  cases T.version artifactVersionId with
  | none => simp [exists_mem_of_ne_nil users empty]
  | some found =>
    simp only [Except.ok.injEq, all_eq_true, mem_eraseDups, decide_eq_true_eq, Option.some.injEq, mem_map,
      mem_filter, granted, any_eq_true]
    grind

theorem canReadVersion_iff : canReadVersion T userId artifactVersionId = .ok true ↔
    validateIdentifier userId "actorUserId" = .ok () ∧ validateIdentifier artifactVersionId "artifactVersionId" = .ok () ∧
      T.Readable userId artifactVersionId := by
  rw [canReadVersion, canUsersReadVersion_iff]
  simp [and_left_comm]

theorem storedContent_isOk (filled : T.Filled) {version : ArtifactVersion} (mem : version ∈ T.versions) :
    ∃ content, storedContent version = .ok content := by
  have content := filled version mem
  unfold storedContent
  cases reference : version.contentRef with
  | some ref => exact ⟨_, rfl⟩
  | none =>
    cases value : version.contentJson with
    | some value => exact ⟨_, rfl⟩
    | none => simp [reference, value] at content

theorem answers_iff {α : Type} {ownerUserId : String} {granted : Bool} {answer : α} :
    (∃ r, (if ownerUserId = userId ∨ granted then Except.ok answer else .error ArtifactError.notFound) = .ok r) ↔
      userId = ownerUserId ∨ granted := by
  rw [eq_comm (a := userId)]
  split <;> simp [*]

theorem readVersion_iff (filled : T.Filled) : (∃ r, readVersion T userId artifactVersionId = .ok r) ↔
    canReadVersion T userId artifactVersionId = .ok true := by
  rw [canReadVersion_iff]
  unfold readVersion Readable version
  simp only [check_bind, exists_and_left]
  refine and_congr_right fun _ => and_congr_right fun _ => ?_
  cases found : Rows.find ArtifactVersion.id artifactVersionId T.versions with
  | none => simp
  | some version =>
    obtain ⟨content, stored⟩ := storedContent_isOk filled (Rows.mem_of_find found).1
    simp only [stored, Option.bind_eq_bind, Option.bind_some]
    cases T.artifact version.artifactId with
    | none => simp
    | some artifact =>
      simp only [Option.bind_some]
      cases T.invocation artifact.creatorInvocationId with
      | none => simp
      | some invocation => exact answers_iff.trans (by simp [granted])

theorem getProvenance_iff (plans : String → PlanRow) : (∃ r, getProvenance plans T userId artifactVersionId = .ok r) ↔
    canReadVersion T userId artifactVersionId = .ok true := by
  rw [canReadVersion_iff]
  unfold getProvenance Readable
  simp only [check_bind, exists_and_left]
  refine and_congr_right fun _ => and_congr_right fun _ => ?_
  cases T.version artifactVersionId with
  | none => simp
  | some found =>
    obtain ⟨version, artifact, invocation⟩ := found
    exact answers_iff.trans (by simp)

theorem upsert_granted (input : AccessInput) :
    granted { T with accessGrants := input.upsert T.accessGrants } artifactId userId = true ↔
      input.artifactId = artifactId ∧ input.granteeUserId = userId ∨ T.granted artifactId userId = true := by
  simp only [granted, AccessInput.upsert, any_eq_true, decide_eq_true_eq]
  split
  · simp only [mem_map, AccessInput.names, decide_eq_true_eq] at *
    grind
  · simp [or_comm]

theorem revoke_granted (input : AccessInput) (now : Int) :
    granted { T with accessGrants := input.revoke now T.accessGrants } artifactId userId = true ↔
      ¬ (input.artifactId = artifactId ∧ input.granteeUserId = userId) ∧ T.granted artifactId userId = true := by
  simp only [granted, AccessInput.revoke, AccessInput.names]
  grind

def AccessCall.write : AccessCall → List ArtifactAccessGrant → List ArtifactAccessGrant
  | .grant _ input => input.upsert
  | .revoke now input => input.revoke now

theorem access_eq (T : Tables) (call : AccessCall) :
    T.access call = if call.effective T then { T with accessGrants := call.write T.accessGrants } else T := by
  cases call with
  | grant users input =>
    rw [access, AccessCall.run, grantReadAccess, AccessCall.effective, AccessCall.input]
    generalize input.validate = valid, ownedArtifact T input.artifactId input.actorUserId = owned
    cases valid <;> cases owned <;> try rfl
    by_cases own : input.granteeUserId = input.actorUserId
    · simp [Except.bind, bind, Except.toOption, own]
    · by_cases known : input.granteeUserId ∈ users <;>
        simp [Except.bind, bind, Except.isOk, Except.toBool, Except.toOption, AccessCall.write, own, known]
  | revoke now input =>
    rw [access, AccessCall.run, revokeReadAccess, AccessCall.effective, AccessCall.input]
    generalize input.validate = valid, ownedArtifact T input.artifactId input.actorUserId = owned
    cases valid <;> cases owned <;> rfl

theorem access_granted : (T.access call).granted artifactId userId =
    (call.effect T artifactId userId).getD (T.granted artifactId userId) := by
  rw [access_eq, Bool.eq_iff_iff]
  by_cases effective : call.effective T
  · cases call with
    | grant users input =>
      simp only [effective, ↓reduceIte, AccessCall.write, upsert_granted, AccessCall.effect, AccessCall.input, true_and]
      split <;> simp [*]
    | revoke now input =>
      simp only [effective, ↓reduceIte, AccessCall.write, revoke_granted, AccessCall.effect, AccessCall.input, true_and]
      split <;> simp [*]
  · simp [AccessCall.effect, effective]

theorem access_foreign (foreign : ∀ artifact invocation, T.artifact call.input.artifactId = some artifact →
    T.invocation artifact.creatorInvocationId = some invocation → invocation.userId ≠ call.input.actorUserId) :
    T.access call = T := by
  have refused : ownedArtifact T call.input.artifactId call.input.actorUserId = .error .notFound := by
    unfold ownedArtifact
    cases found : T.artifact call.input.artifactId with
    | none => rfl
    | some artifact =>
      refine if_neg fun owns => ?_
      obtain ⟨invocation, made, owner⟩ := (Option.any_eq_true _ _).1 owns
      exact foreign artifact invocation found made (of_decide_eq_true owner)
  rw [access_eq, if_neg]
  unfold AccessCall.effective
  rw [refused]
  simp [Except.isOk, Except.toBool]

theorem run_eq (T : Tables) (calls : List AccessCall) : ∃ grants, calls.foldl access T = { T with accessGrants := grants } := by
  refine Runs.invariant (P := fun U => ∃ grants, U = { T with accessGrants := grants }) ?_ calls ⟨T.accessGrants, rfl⟩
  rintro _ call ⟨grants, rfl⟩
  rw [access_eq]
  split <;> exact ⟨_, rfl⟩

theorem run_granted (T : Tables) (calls : List AccessCall) : (calls.foldl access T).granted artifactId userId =
    (latest T artifactId userId calls).getD (T.granted artifactId userId) := by
  induction calls using reverseRecOn with
  | nil => rfl
  | append_singleton calls call ih =>
    obtain ⟨grants, is⟩ := run_eq T calls
    have same : call.effect (calls.foldl access T) artifactId userId = call.effect T artifactId userId := by rw [is]; rfl
    rw [foldl_append, foldl_cons, foldl_nil, access_granted, ih, same, latest, latest, filterMap_append, getLast?_append]
    cases said : call.effect T artifactId userId <;> simp [said]

theorem read_access_holds (plans : String → PlanRow) (T : Tables) (filled : T.Filled) (calls : List AccessCall) :
    AccessHolds plans T calls (calls.foldl access T) := by
  have granted (artifactId userId : String) := @run_granted artifactId userId T calls
  obtain ⟨grants, is⟩ := run_eq T calls
  have filled : (calls.foldl access T).Filled := is ▸ filled
  refine ⟨fun _ _ => readVersion_iff filled, fun _ _ => getProvenance_iff plans, fun userId id => ?_, fun users id => ?_,
    fun _ => access_foreign⟩
  · have same : (calls.foldl access T).version id = T.version id := is ▸ rfl
    simp [canReadVersion_iff, Readable, same, granted]
  · rw [canUsersReadVersion_iff]
    simp only [canReadVersion_iff]
    constructor
    · rintro ⟨valid, some, each⟩
      exact ⟨some, fun u mem => ⟨(each u mem).1, valid, (each u mem).2⟩⟩
    · rintro ⟨some, each⟩
      obtain ⟨u, mem⟩ := exists_mem_of_ne_nil users some
      exact ⟨(each u mem).2.1, some, fun u mem => ⟨(each u mem).1, (each u mem).2.2⟩⟩

def published : Tables :=
  ⟨[⟨"run", "plan", "owner", .null⟩], [⟨"draft", "run", "text", .TEXT, "private", none⟩],
    [⟨"v1", "draft", 1, some "a", none, "digest", none⟩], []⟩

def toBob (actorUserId : String) : AccessInput := ⟨actorUserId, "draft", "bob"⟩

/-- Bob's grant is revoked and renewed; he cannot revoke it himself. -/
theorem read_access_holds_bob :
    let calls := [.grant ["bob"] (toBob "owner"), .revoke 5 (toBob "owner"), .grant ["bob"] (toBob "owner"), .revoke 7 (toBob "bob")]
    AccessHolds (fun _ => ⟨1, "hash", none, "chat"⟩) published calls (calls.foldl access published) ∧
      (canReadVersion (calls.foldl access published) "bob" "v1").toOption = some true :=
  ⟨read_access_holds _ published (by unfold Filled; decide) _, by decide +kernel⟩

end Vimla.Artifacts
