import Vimla.Projects.Ranking

/-!
# Projects and their members

`ProjectService`: the tables, what a member is shown, and the calls. A plan is
given by the limits that its entitlements stand for. A call returns the tables
it leaves, and its answer or what it throws.
-/

namespace Vimla.Projects

structure Project where
  id : Ident
  ownerUserId : Ident
  name : String
  description : Option String
  createdAt : Int

structure ProjectMember where
  projectId : Ident
  userId : Ident
  role : ProjectMemberRole
  lastOpenedAt : Option Int
  createdAt : Int

inductive ProjectInviteRole | ADMIN | MEMBER | VIEWER
  deriving DecidableEq

def ProjectInviteRole.member : ProjectInviteRole → ProjectMemberRole
  | .ADMIN => .ADMIN
  | .MEMBER => .MEMBER
  | .VIEWER => .VIEWER

structure ProjectInvite where
  id : Ident
  projectId : Ident
  email : String
  role : ProjectInviteRole
  tokenHash : String
  createdByUserId : Ident
  expiresAt : Int
  acceptedAt : Option Int
  revokedAt : Option Int

structure User where
  id : Ident
  email : String

structure Tables where
  projects : List Project
  members : List ProjectMember
  invites : List ProjectInvite
  users : List User

inductive ProjectErrorCode
  | NOT_FOUND | FORBIDDEN | CONFLICT | PLAN_LOCKED | ENTITLEMENT_DENIED | OWNED_LIMIT | MEMBER_LIMIT
  | INVITE_INVALID | INVITE_EMAIL_MISMATCH | ROLE_FORBIDDEN
  deriving DecidableEq

/-- A `ProjectError`, or a key that the table already has. -/
inductive Thrown
  | project (code : ProjectErrorCode) (message : String)
  | uniqueConstraint

structure ActorContext where
  userId : Ident
  email : String

structure Options where
  collation : Collation
  tokenSecret : String
  hashInviteToken : (token secret : String) → String
  normalizeInviteEmail : String → String
  inviteTtlDays : Int

namespace Tables
variable (T : Tables)

def project (id : Ident) : Option Project := Rows.find Project.id id T.projects

def membersOf (projectId : Ident) : List ProjectMember := T.members.filter fun m => m.projectId = projectId

def membership (projectId userId : Ident) : Option ProjectMember := (T.membersOf projectId).find? fun m => m.userId = userId

def owned (ownerUserId : Ident) : List Project := T.projects.filter fun p => p.ownerUserId = ownerUserId

/-- The memberships in projects of others. -/
def external (userId : Ident) : List ProjectMember :=
  T.members.filter fun m => m.userId = userId ∧ (T.project m.projectId).any (·.ownerUserId ≠ userId)

def updateMember (projectId userId : Ident) (f : ProjectMember → ProjectMember) : Tables :=
  { T with members := Rows.update (fun m => (m.projectId, m.userId)) (projectId, userId) f T.members }

def deleteMember (projectId userId : Ident) : Tables :=
  { T with members := T.members.filter fun m => ¬ (m.projectId = projectId ∧ m.userId = userId) }

def updateInvite (id : Ident) (f : ProjectInvite → ProjectInvite) : Tables :=
  { T with invites := Rows.update ProjectInvite.id id f T.invites }

/-- A project is deleted with its members and invites. -/
def deleteProject (id : Ident) : Tables :=
  { T with
    projects := T.projects.filter (·.id ≠ id)
    members := T.members.filter (·.projectId ≠ id)
    invites := T.invites.filter (·.projectId ≠ id) }

end Tables

abbrev Plans := Ident → ProjectEntitlementLimits

inductive ProjectState | ACTIVE | PLAN_LOCKED
  deriving DecidableEq

inductive ProjectLockReason | OWNER_PLAN | MEMBER_PLAN | OWNER_MEMBER_CAP
  deriving DecidableEq

structure ProjectCapabilities where
  canOpen : Bool
  canEdit : Bool
  canInvite : Bool
  canManageMembers : Bool
  canLeave : Bool
  canDelete : Bool

structure AccessSnapshot where
  project : Project
  members : List ProjectMember
  actorMember : ProjectMember
  viewerState : ProjectAccessState
  projectState : ProjectState
  lockReason : Option ProjectLockReason
  capabilities : ProjectCapabilities
  ownerLimits : ProjectEntitlementLimits

def lockReasonFor : ProjectAccessState → Option ProjectLockReason
  | .PLAN_LOCKED => some .OWNER_PLAN
  | .READ_ONLY_BY_MEMBER_PLAN => some .MEMBER_PLAN
  | .READ_ONLY_BY_OWNER_PLAN => some .OWNER_MEMBER_CAP
  | .ACTIVE => none

def toRankableMember (m : ProjectMember) : RankableMember := ⟨m.userId, m.role, m.lastOpenedAt, m.createdAt⟩

section Views
variable (C : Collation) (plans : Plans) (T : Tables)

/-- An owner's projects, ranked by when the owner opened them. -/
def rankableOwned (ownerUserId : Ident) : List RankableProject :=
  (T.owned ownerUserId).map fun row =>
    let members := (T.membersOf row.id).filter fun m => m.userId = ownerUserId ∧ m.role = .OWNER
    ⟨row.id, members.head?.bind ProjectMember.lastOpenedAt, row.createdAt⟩

def lockedOwnedIds (ownerUserId : Ident) (ownedActiveMax : CountLimit) : List Ident :=
  lockedOwnedProjectIds C (rankableOwned T ownerUserId) ownedActiveMax

def rankableExternal (userId : Ident) : List RankableProject :=
  (T.external userId).map fun row => ⟨row.projectId, row.lastOpenedAt, row.createdAt⟩

def activeMembers (project : Project) : List Ident :=
  activeMemberUserIds C ((T.membersOf project.id).map toRankableMember) (plans project.ownerUserId).membersPerOwnedProjectMax

def projectLocked (project : Project) : Bool :=
  decide (project.id ∈ lockedOwnedIds C T project.ownerUserId (plans project.ownerUserId).ownedActiveMax)

def externalLocked (userId : Ident) : List Ident :=
  lockedExternalProjectIds C (rankableExternal T userId) (plans userId).externalActiveMax

/-- The three locks, each of its own selection. -/
def locks (project : Project) (actorMember : ProjectMember) : Locks where
  isOwner := decide (actorMember.role = .OWNER)
  projectLocked := projectLocked C plans T project
  memberLockedByOwnerPlan := decide (actorMember.role ≠ .OWNER) && !projectLocked C plans T project &&
    decide (actorMember.userId ∉ activeMembers C plans T project)
  memberLockedByMemberPlan := decide (actorMember.role ≠ .OWNER) &&
    decide (project.id ∈ externalLocked C plans T actorMember.userId)

def snapshot (project : Project) (actorMember : ProjectMember) : AccessSnapshot :=
  let lock := locks C plans T project actorMember
  let viewerState := viewerAccessState lock
  let entitlementReadOnly := isEntitlementReadOnly viewerState
  { project := project
    members := T.membersOf project.id
    actorMember := actorMember
    viewerState := viewerState
    projectState := if lock.projectLocked then .PLAN_LOCKED else .ACTIVE
    lockReason := lockReasonFor viewerState
    ownerLimits := plans project.ownerUserId
    capabilities := {
      canOpen := true
      canEdit := !entitlementReadOnly && canEditWithRole actorMember.role
      canInvite := !entitlementReadOnly && canManageMembersWithRole actorMember.role
      canManageMembers := !entitlementReadOnly && canManageMembersWithRole actorMember.role
      canLeave := actorMember.role ≠ .OWNER
      canDelete := actorMember.role = .OWNER } }

def notFound : Thrown := .project .NOT_FOUND "Project not found"

def evaluateMany (actor : ActorContext) (projects : List Project) : Except Thrown (List AccessSnapshot) :=
  if projects.isEmpty then .ok []
  else
    let visible := projects.filterMap fun project => (T.membership project.id actor.userId).map (project, ·)
    if visible.isEmpty then .error notFound
    else .ok (visible.map fun (project, actorMember) => snapshot C plans T project actorMember)

def evaluateLoaded (actor : ActorContext) (project : Project) : Except Thrown AccessSnapshot := do
  let snapshots ← evaluateMany C plans T actor [project]
  match snapshots.head? with
  | none => .error notFound
  | some access => .ok access

def evaluate (actor : ActorContext) (projectId : Ident) : Except Thrown AccessSnapshot :=
  match T.project projectId with
  | none => .error notFound
  | some project => evaluateLoaded C plans T actor project

end Views

structure ProjectView where
  id : Ident
  name : String
  description : Option String
  ownerUserId : Ident
  viewerRole : ProjectMemberRole
  projectState : ProjectState
  viewerState : ProjectAccessState
  lockReason : Option ProjectLockReason
  readOnly : Bool
  memberCount : Nat
  createdAt : Int
  capabilities : ProjectCapabilities

def toView (access : AccessSnapshot) : ProjectView where
  id := access.project.id
  name := access.project.name
  description := access.project.description
  ownerUserId := access.project.ownerUserId
  viewerRole := access.actorMember.role
  projectState := access.projectState
  viewerState := access.viewerState
  lockReason := access.lockReason
  readOnly := isEntitlementReadOnly access.viewerState
  memberCount := access.members.length
  createdAt := access.project.createdAt
  capabilities := access.capabilities

def memberAccessState (access : AccessSnapshot) (userId : Ident) (role : ProjectMemberRole) (activeMembers : List Ident) :
    ProjectAccessState :=
  if access.projectState = .PLAN_LOCKED then .PLAN_LOCKED
  else if role ≠ .OWNER ∧ userId ∉ activeMembers then .READ_ONLY_BY_OWNER_PLAN
  else if userId = access.actorMember.userId then access.viewerState
  else .ACTIVE

structure CreateProject where
  name : String
  description : Option String

structure UpdateProject where
  name : Option String
  description : Option (Option String)

section Calls
variable (o : Options) (plans : Plans) (T : Tables) (actor : ActorContext)

/-- What the call shows of the project as it left it. -/
def shown (project : Project) : Except Thrown ProjectView := (evaluateLoaded o.collation plans T actor project).map toView

def create (input : CreateProject) (id : Ident) (createdAt : Int) : Tables × Except Thrown ProjectView :=
  let limits := plans actor.userId
  let ownedCount := (T.owned actor.userId).length
  if isWithinCountLimit limits.ownedActiveMax ownedCount then
    match T.project id with
    | some _ => (T, .error .uniqueConstraint)
    | none =>
      let created : Project := ⟨id, actor.userId, input.name, input.description, createdAt⟩
      let T := { T with
        projects := T.projects ++ [created]
        members := T.members ++ [⟨id, actor.userId, .OWNER, none, createdAt⟩] }
      (T, shown o plans T actor created)
  else (T, .error (.project .OWNED_LIMIT "Owned project limit reached for the current plan"))

/-- `get`, which only looks. -/
def get (projectId : Ident) : Except Thrown ProjectView := (evaluate o.collation plans T actor projectId).map toView

def openProject (projectId : Ident) (now : Int) : Tables × Except Thrown ProjectView :=
  match T.membership projectId actor.userId with
  | none => (T, .error notFound)
  | some _ =>
    let T := T.updateMember projectId actor.userId fun m => { m with lastOpenedAt := some now }
    (T, get o plans T actor projectId)

def assertMutable (access : AccessSnapshot) : Except Thrown Unit :=
  if access.projectState = .PLAN_LOCKED then .error (.project .PLAN_LOCKED "Project is locked by the owner plan")
  else if isEntitlementReadOnly access.viewerState then
    .error (.project .ENTITLEMENT_DENIED "Project access is read-only on the current plan")
  else .ok ()

/-- A condition, or the error thrown where it fails. -/
def require (condition : Bool) (code : ProjectErrorCode) (message : String) : Except Thrown Unit :=
  if condition then .ok () else .error (.project code message)

/-- What a call decides on, then what it writes. -/
def writing {α : Type} (decided : Except Thrown α) (write : α → Tables) : Tables × Except Thrown Unit :=
  match decided with
  | .error e => (T, .error e)
  | .ok a => (write a, .ok ())

def update (projectId : Ident) (input : UpdateProject) : Tables × Except Thrown Unit :=
  writing T (do
    let access ← evaluate o.collation plans T actor projectId
    assertMutable access
    require access.capabilities.canEdit .FORBIDDEN "Not allowed to edit this project")
  fun _ => { T with projects := Rows.update Project.id projectId (fun p =>
    { p with name := input.name.getD p.name, description := input.description.getD p.description }) T.projects }

def delete (projectId : Ident) : Tables × Except Thrown Unit :=
  writing T (do
    let access ← evaluate o.collation plans T actor projectId
    require access.capabilities.canDelete .FORBIDDEN "Only the owner can delete this project")
  fun _ => T.deleteProject projectId

structure CreateProjectInvite where
  email : String
  role : ProjectInviteRole

/-- The invite that is sent, with its drawn key and token. -/
def invite (projectId : Ident) (input : CreateProjectInvite) (id : Ident) (token : String) (now : Int) :
    Tables × Except Thrown Unit :=
  let email := o.normalizeInviteEmail input.email
  writing T (do
    let access ← evaluate o.collation plans T actor projectId
    assertMutable access
    require access.capabilities.canInvite .FORBIDDEN "Not allowed to invite members"
    require (decide (email ≠ o.normalizeInviteEmail actor.email) || decide (access.actorMember.role ≠ .OWNER)) .CONFLICT
      "The owner is already a member"
    require (!T.users.any fun user => decide (user.id ∈ access.members.map ProjectMember.userId) &&
      decide (o.normalizeInviteEmail user.email = email)) .CONFLICT "User is already a project member"
    let active := activeMemberUserIds o.collation (access.members.map toRankableMember)
      access.ownerLimits.membersPerOwnedProjectMax
    require (isWithinCountLimit access.ownerLimits.membersPerOwnedProjectMax active.length) .MEMBER_LIMIT
      "Active member limit reached for the owner plan"
    require (!T.invites.any fun i => decide (i.projectId = projectId ∧ i.email = email ∧ i.acceptedAt = none ∧
      i.revokedAt = none ∧ i.expiresAt > now)) .CONFLICT "An invite is already pending for this email"
    if T.invites.any fun i => decide (i.id = id ∨ i.tokenHash = o.hashInviteToken token o.tokenSecret) then
      .error .uniqueConstraint)
  fun _ => { T with invites := T.invites ++ [{
    id := id
    projectId := projectId
    email := email
    role := input.role
    tokenHash := o.hashInviteToken token o.tokenSecret
    createdByUserId := actor.userId
    expiresAt := now + o.inviteTtlDays * 24 * 60 * 60 * 1000
    acceptedAt := none
    revokedAt := none }] }

def revokeInvite (projectId inviteId : Ident) (now : Int) : Tables × Except Thrown Unit :=
  writing T (do
    let access ← evaluate o.collation plans T actor projectId
    assertMutable access
    require access.capabilities.canManageMembers .FORBIDDEN "Not allowed to revoke invites"
    require (T.invites.any fun i => decide (i.id = inviteId ∧ i.projectId = projectId ∧ i.acceptedAt = none ∧
      i.revokedAt = none)) .NOT_FOUND "Invite not found")
  fun _ => T.updateInvite inviteId fun i => { i with revokedAt := some now }

def ProjectInvite.usable (invite : ProjectInvite) (now : Int) : Bool :=
  invite.revokedAt = none ∧ invite.acceptedAt = none ∧ now < invite.expiresAt

def inviteInvalid : Thrown := .project .INVITE_INVALID "Invite is invalid or expired"

/-- The seat that the owner's plan must have; a locked project is not asked. -/
def admitMember (project : Project) : Except Thrown Unit :=
  if projectLocked o.collation plans T project then .ok ()
  else require (isWithinCountLimit (plans project.ownerUserId).membersPerOwnedProjectMax
      (activeMembers o.collation plans T project).length)
    .MEMBER_LIMIT "Active member limit reached for the owner plan"

/-- The checks of `acceptInvite`: the invite that it may accept. -/
def acceptable (token : String) (now : Int) : Except Thrown ProjectInvite :=
  match T.invites.find? fun i => i.tokenHash = o.hashInviteToken token o.tokenSecret with
  | none => .error inviteInvalid
  | some invite =>
    if !invite.usable now then .error inviteInvalid
    else if o.normalizeInviteEmail actor.email ≠ invite.email then
      .error (.project .INVITE_EMAIL_MISMATCH "Invite belongs to a different email")
    else
      match T.project invite.projectId with
      | none => .error inviteInvalid
      | some project =>
        if (T.membersOf project.id).any fun m => m.userId = actor.userId then
          .error (.project .CONFLICT "User is already a project member")
        else (admitMember o plans T project).map fun _ => invite

def acceptInvite (token : String) (now createdAt : Int) : Tables × Except Thrown ProjectView :=
  match acceptable o plans T actor token now with
  | .error e => (T, .error e)
  | .ok invite =>
    -- the transaction reads the invite again, and no other call runs in between
    let T := T.updateInvite invite.id fun i => { i with acceptedAt := some now }
    let T := { T with members := T.members ++ [⟨invite.projectId, actor.userId, invite.role.member, none, createdAt⟩] }
    (T, get o plans T actor invite.projectId)

/-- The member that a manager changes or removes. -/
def target (projectId targetUserId : Ident) (forbidden ownership : String) : Except Thrown ProjectMember := do
  let access ← evaluate o.collation plans T actor projectId
  assertMutable access
  require access.capabilities.canManageMembers .FORBIDDEN forbidden
  match access.members.find? fun m => m.userId = targetUserId with
  | none => .error (.project .NOT_FOUND "Member not found")
  | some target =>
    require (target.role ≠ .OWNER) .ROLE_FORBIDDEN ownership
    .ok target

def updateMemberRole (projectId targetUserId : Ident) (role : ProjectInviteRole) : Tables × Except Thrown Unit :=
  writing T (target o plans T actor projectId targetUserId "Not allowed to change member roles"
    "Ownership cannot be transferred") fun _ => T.updateMember projectId targetUserId fun m => { m with role := role.member }

def removeMember (projectId targetUserId : Ident) : Tables × Except Thrown Unit :=
  writing T (target o plans T actor projectId targetUserId "Not allowed to remove members" "The owner cannot be removed")
    fun _ => T.deleteMember projectId targetUserId

def leave (projectId : Ident) : Tables × Except Thrown Unit :=
  writing T (do
    let access ← evaluate o.collation plans T actor projectId
    require access.capabilities.canLeave .ROLE_FORBIDDEN "The owner cannot leave the project")
  fun _ => T.deleteMember projectId actor.userId

end Calls

inductive Call
  | create (input : CreateProject) (id : Ident) (createdAt : Int)
  | openProject (projectId : Ident) (now : Int)
  | update (projectId : Ident) (input : UpdateProject)
  | delete (projectId : Ident)
  | invite (projectId : Ident) (input : CreateProjectInvite) (id : Ident) (token : String) (now : Int)
  | revokeInvite (projectId inviteId : Ident) (now : Int)
  | acceptInvite (token : String) (now createdAt : Int)
  | updateMemberRole (projectId targetUserId : Ident) (role : ProjectInviteRole)
  | removeMember (projectId targetUserId : Ident)
  | leave (projectId : Ident)

def Tables.after (o : Options) (plans : Plans) (T : Tables) (actor : ActorContext) : Call → Tables
  | .create input id createdAt => (create o plans T actor input id createdAt).1
  | .openProject projectId now => (openProject o plans T actor projectId now).1
  | .update projectId input => (update o plans T actor projectId input).1
  | .delete projectId => (delete o plans T actor projectId).1
  | .invite projectId input id token now => (invite o plans T actor projectId input id token now).1
  | .revokeInvite projectId inviteId now => (revokeInvite o plans T actor projectId inviteId now).1
  | .acceptInvite token now createdAt => (acceptInvite o plans T actor token now createdAt).1
  | .updateMemberRole projectId targetUserId role => (updateMemberRole o plans T actor projectId targetUserId role).1
  | .removeMember projectId targetUserId => (removeMember o plans T actor projectId targetUserId).1
  | .leave projectId => (leave o plans T actor projectId).1

structure World where
  tables : Tables
  plans : Plans

/-- A user calls the service, or a user's plan changes. -/
inductive Event
  | call (actor : ActorContext) (call : Call)
  | plan (userId : Ident) (limits : ProjectEntitlementLimits)

def World.step (o : Options) (w : World) : Event → World
  | .call actor call => { w with tables := w.tables.after o w.plans actor call }
  | .plan userId limits => { w with plans := Function.update w.plans userId limits }

end Vimla.Projects
