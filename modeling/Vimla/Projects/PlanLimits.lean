import Vimla.Lib.Runs
import Vimla.Projects.Membership

/-!
# Plan limits hold

Each lock is a selection of the best ranked rows, so it keeps its limit, depends
on the set of rows only, and a raised limit or a row that still fits displaces
nobody.
-/

namespace Vimla.Projects

open List Rows World Tables Bool

section Facts
variable {C : Collation} {plans plans' : Plans} {T T' : Tables} {p : Project} {m : ProjectMember} {userId : Ident}

theorem mem_owned : p ∈ T.owned userId ↔ p ∈ T.projects ∧ p.ownerUserId = userId := by
  simp [owned]

theorem rankableOwned_ids (T : Tables) (userId : Ident) :
    (rankableOwned T userId).map RankableProject.id = (T.owned userId).map Project.id := by
  simp [rankableOwned, map_map, Function.comp_def]

theorem rankableExternal_ids (T : Tables) (userId : Ident) :
    (rankableExternal T userId).map RankableProject.id = (T.external userId).map ProjectMember.projectId := by
  simp [rankableExternal, map_map, Function.comp_def]

theorem Valid.owned_nodup (valid : Valid T) (userId : Ident) : ((rankableOwned T userId).map RankableProject.id).Nodup := by
  rw [rankableOwned_ids]
  exact valid.projects.sublist (filter_sublist.map _)

theorem Valid.external_nodup (valid : Valid T) (userId : Ident) :
    ((rankableExternal T userId).map RankableProject.id).Nodup := by
  rw [rankableExternal_ids, nodup_map_iff_inj_on]
  · intro a ha b hb same
    obtain ⟨ma, ua⟩ := mem_filter.1 ha
    obtain ⟨mb, ub⟩ := mem_filter.1 hb
    simp only [decide_and, and_eq_true, decide_eq_true_eq] at ua ub
    exact eq_of_key valid.members ma mb (Prod.ext same (ua.1.trans ub.1.symm))
  · exact (List.Nodup.of_map _ valid.members).filter _

theorem projectLocked_iff (mem : p ∈ T.projects) : projectLocked C plans T p = false ↔
    p.id ∈ selectActiveIds C (rankableOwned T p.ownerUserId) (plans p.ownerUserId).ownedActiveMax := by
  have listed : p.id ∈ (rankableOwned T p.ownerUserId).map RankableProject.id := by
    rw [rankableOwned_ids]
    exact mem_map_of_mem (mem_owned.2 ⟨mem, rfl⟩)
  simp [projectLocked, lockedOwnedIds, lockedOwnedProjectIds, mem_lockedIds, listed]

theorem externalLocked_iff (mem : m ∈ T.external userId) : m.projectId ∉ externalLocked C plans T userId ↔
    m.projectId ∈ selectActiveIds C (rankableExternal T userId) (plans userId).externalActiveMax := by
  have listed : m.projectId ∈ (rankableExternal T userId).map RankableProject.id := by
    rw [rankableExternal_ids]
    exact mem_map_of_mem mem
  simp [externalLocked, lockedExternalProjectIds, mem_lockedIds, listed]

/-- The members of a project, with its owner. -/
theorem Valid.roster (valid : Valid T) (mem : p ∈ T.projects) : ∃ own ∈ T.members, own.projectId = p.id ∧
    own.userId = p.ownerUserId ∧ own.role = .OWNER ∧
    Roster ((T.membersOf p.id).map toRankableMember) (toRankableMember own) := by
  obtain ⟨own, hown, project, user, role⟩ := valid.owner p mem
  refine ⟨own, hown, project, user, role, ?_, mem_map_of_mem (mem_membersOf.2 ⟨hown, project⟩), role, ?_⟩
  · rw [map_map, nodup_map_iff_inj_on]
    · intro a ha b hb same
      obtain ⟨ma, pa⟩ := mem_membersOf.1 ha
      obtain ⟨mb, pb⟩ := mem_membersOf.1 hb
      exact eq_of_key valid.members ma mb (Prod.ext (pa.trans pb.symm) same)
    · exact (List.Nodup.of_map _ valid.members).filter _
  · intro r hr isOwner
    obtain ⟨n, hn, rfl⟩ := mem_map.1 hr
    obtain ⟨mem', here⟩ := mem_membersOf.1 hn
    have same := valid.owners n mem' isOwner p mem here.symm
    rw [eq_of_key valid.members mem' hown (Prod.ext (here.trans project.symm) (same.trans user.symm))]

theorem length_le_of_ids {α : Type} {rows : List α} {key : α → Ident} {ids : List Ident} (nodup : (rows.map key).Nodup)
    (sub : ∀ row ∈ rows, key row ∈ ids) : rows.length ≤ ids.length := by
  have subset : rows.map key ⊆ ids := by
    intro id mem
    obtain ⟨row, hrow, rfl⟩ := mem_map.1 mem
    exact sub row hrow
  simpa using (subperm_of_subset nodup subset).length_le

theorem Valid.owned_allows (valid : Valid T) (userId : Ident) : (plans userId).ownedActiveMax.Allows
    ((T.owned userId).filter fun p => !projectLocked C plans T p).length := by
  cases unlimited : (plans userId).ownedActiveMax.unlimited with
  | true => exact .inl unlimited
  | false =>
    right
    have distinct : (((T.owned userId).filter fun p => !projectLocked C plans T p).map Project.id).Nodup :=
      valid.projects.sublist ((filter_sublist.trans filter_sublist).map _)
    have few := length_le_of_ids distinct fun p mem => by
      obtain ⟨mem, free⟩ := mem_filter.1 mem
      obtain ⟨listed, own⟩ := mem_owned.1 mem
      have selected := (projectLocked_iff listed).1 (by simpa using free)
      rwa [own] at selected
    have bound := selectActiveIds_allows C (rankableOwned T userId) unlimited
    omega

theorem locks_active : viewerAccessState (locks C plans T p m) = .ACTIVE ↔ projectLocked C plans T p = false ∧
    (m.role = .OWNER ∨ m.userId ∈ activeMembers C plans T p ∧ p.id ∉ externalLocked C plans T m.userId) := by
  unfold viewerAccessState locks
  cases projectLocked C plans T p <;> by_cases role : m.role = .OWNER <;>
    by_cases member : m.userId ∈ activeMembers C plans T p <;>
    by_cases external : p.id ∈ externalLocked C plans T m.userId <;> simp [role, member, external]

theorem Valid.owner_active (valid : Valid T) (mem : p ∈ T.projects) (own : m ∈ T.members) (here : m.projectId = p.id)
    (role : m.role = .OWNER) : m.userId ∈ activeMembers C plans T p := by
  obtain ⟨owner, hown, project, user, -, roster⟩ := valid.roster mem
  have same : m.userId = owner.userId := (valid.owners m own role p mem here.symm).trans user.symm
  rw [same]
  exact roster.active_owner

theorem Valid.members_allow (valid : Valid T) (mem : p ∈ T.projects)
    (limited : (plans p.ownerUserId).membersPerOwnedProjectMax.unlimited = false) :
    (((T.membersOf p.id).filter fun m => viewerAccessState (locks C plans T p m) = .ACTIVE).length : Int) ≤
      max 1 (plans p.ownerUserId).membersPerOwnedProjectMax.value := by
  obtain ⟨owner, -, -, -, -, roster⟩ := valid.roster mem
  have users := roster.users
  rw [map_map] at users
  have distinct : (((T.membersOf p.id).filter fun m => viewerAccessState (locks C plans T p m) = .ACTIVE).map
      ProjectMember.userId).Nodup := users.sublist (filter_sublist.map _)
  have each : ∀ m ∈ (T.membersOf p.id).filter fun m => viewerAccessState (locks C plans T p m) = .ACTIVE,
      m.userId ∈ activeMembers C plans T p := fun m hm => by
    obtain ⟨hm, active⟩ := mem_filter.1 hm
    obtain ⟨listed, here⟩ := mem_membersOf.1 hm
    obtain ⟨-, role | ⟨member, -⟩⟩ := locks_active.1 (of_decide_eq_true active)
    · exact valid.owner_active mem listed here role
    · exact member
  have few := length_le_of_ids distinct each
  have bound := roster.active_length (C := C) limited
  unfold activeMembers at few
  omega

theorem Valid.external_allows (valid : Valid T) (userId : Ident) : (plans userId).externalActiveMax.Allows
    ((T.external userId).filter fun m => m.projectId ∉ externalLocked C plans T userId).length := by
  cases unlimited : (plans userId).externalActiveMax.unlimited with
  | true => exact .inl unlimited
  | false =>
    right
    have ids := valid.external_nodup userId
    rw [rankableExternal_ids] at ids
    have distinct : (((T.external userId).filter fun m => m.projectId ∉ externalLocked C plans T userId).map
        ProjectMember.projectId).Nodup := ids.sublist (filter_sublist.map _)
    have few := length_le_of_ids distinct fun m mem => by
      obtain ⟨mem, free⟩ := mem_filter.1 mem
      exact (externalLocked_iff mem).1 (by simpa using free)
    have bound := selectActiveIds_allows C (rankableExternal T userId) unlimited
    omega

/-- The same rows in another order. -/
structure Reordered (T T' : Tables) : Prop where
  projects : T.projects.Perm T'.projects
  members : T.members.Perm T'.members

theorem Reordered.valid (same : Reordered T T') (valid : Valid T) : Valid T' := by
  refine ⟨(same.projects.map _).nodup_iff.1 valid.projects, (same.members.map _).nodup_iff.1 valid.members, ?_, ?_, ?_⟩
  · intro m mem
    obtain ⟨p, hp, own⟩ := valid.foreign m (same.members.mem_iff.2 mem)
    exact ⟨p, same.projects.mem_iff.1 hp, own⟩
  · intro p mem
    obtain ⟨m, hm, isOwner⟩ := valid.owner p (same.projects.mem_iff.2 mem)
    exact ⟨m, same.members.mem_iff.1 hm, isOwner⟩
  · exact fun m mem role p hp => valid.owners m (same.members.mem_iff.2 mem) role p (same.projects.mem_iff.2 hp)

theorem Reordered.project (same : Reordered T T') (valid : Valid T) (id : Ident) : T'.project id = T.project id := by
  cases found : T.project id with
  | some p =>
    obtain ⟨mem, rfl⟩ := mem_of_find found
    exact (same.valid valid).project (same.projects.mem_iff.1 mem)
  | none =>
    refine find?_eq_none.2 fun p mem => ?_
    simpa using project_none found p (same.projects.mem_iff.2 mem)

/-- The owner's row is the only one of its kind, so its place does not matter. -/
theorem Reordered.owner_rows (same : Reordered T T') (valid : Valid T) (projectId userId : Ident) :
    (T'.membersOf projectId).filter (fun m => m.userId = userId ∧ m.role = .OWNER) =
      (T.membersOf projectId).filter fun m => m.userId = userId ∧ m.role = .OWNER := by
  have perm := ((same.members.filter fun m => m.projectId = projectId).filter fun m => m.userId = userId ∧ m.role = .OWNER).symm
  have any (rows : List ProjectMember) : rows.Pairwise fun _ _ => True := pairwise_of_forall fun _ _ => trivial
  refine perm.eq_of_pairwise (fun a b ha hb _ _ => ?_) (any _) (any _)
  obtain ⟨ma, ua⟩ := mem_filter.1 (perm.mem_iff.1 ha)
  obtain ⟨mb, ub⟩ := mem_filter.1 hb
  obtain ⟨la, pa⟩ := mem_membersOf.1 ma
  obtain ⟨lb, pb⟩ := mem_membersOf.1 mb
  simp only [decide_and, and_eq_true, decide_eq_true_eq] at ua ub
  exact eq_of_key valid.members la lb (Prod.ext (pa.trans pb.symm) (ua.1.trans ub.1.symm))

theorem Reordered.locks (same : Reordered T T') (valid : Valid T) (mem : p ∈ T.projects) :
    locks C plans T' p m = locks C plans T p m := by
  have owned : (rankableOwned T p.ownerUserId).Perm (rankableOwned T' p.ownerUserId) := by
    simp only [rankableOwned, same.owner_rows valid]
    exact (same.projects.filter _).map _
  have external : (rankableExternal T m.userId).Perm (rankableExternal T' m.userId) := by
    simp only [rankableExternal, external, same.project valid]
    exact (same.members.filter _).map _
  obtain ⟨owner, -, -, -, -, roster⟩ := valid.roster mem
  have active : m.userId ∈ activeMembers C plans T' p ↔ m.userId ∈ activeMembers C plans T p :=
    (roster.active_perm ((same.members.filter _).map _)).symm
  have project : projectLocked C plans T' p = projectLocked C plans T p := by
    unfold projectLocked lockedOwnedIds lockedOwnedProjectIds
    rw [decide_eq_decide]
    exact (lockedIds_perm (valid.owned_nodup _) owned).symm
  have others : p.id ∈ externalLocked C plans T' m.userId ↔ p.id ∈ externalLocked C plans T m.userId :=
    (lockedIds_perm (valid.external_nodup _) external).symm
  simp [Projects.locks, project, active, others]

/-- The owner's plan adds no lock on the membership. -/
structure Seated (C : Collation) (plans plans' : Plans) (T T' : Tables) (p : Project) (m : ProjectMember) : Prop where
  project : projectLocked C plans T p = false → projectLocked C plans' T' p = false
  member : m.userId ∈ activeMembers C plans T p → m.userId ∈ activeMembers C plans' T' p

/-- No plan adds a lock on the membership. -/
structure Eases (C : Collation) (plans plans' : Plans) (T T' : Tables) (p : Project) (m : ProjectMember) : Prop
    extends Seated C plans plans' T T' p m where
  external : p.id ∉ externalLocked C plans T m.userId → p.id ∉ externalLocked C plans' T' m.userId

/-- Every limit of every user is raised, or stays. -/
structure Plans.Le (plans plans' : Plans) : Prop where
  owned : ∀ u, (plans u).ownedActiveMax.Le (plans' u).ownedActiveMax
  external : ∀ u, (plans u).externalActiveMax.Le (plans' u).externalActiveMax
  members : ∀ u, (plans u).membersPerOwnedProjectMax.Le (plans' u).membersPerOwnedProjectMax

theorem Plans.Le.eases (raised : plans.Le plans') (valid : Valid T) (mem : p ∈ T.projects) :
    Eases C plans plans' T T p m := by
  obtain ⟨owner, -, -, -, -, roster⟩ := valid.roster mem
  refine ⟨⟨fun free => ?_, roster.active_mono (raised.members p.ownerUserId)⟩, fun free locked => ?_⟩
  · rw [projectLocked_iff mem] at free ⊢
    exact selectActiveIds_mono (raised.owned p.ownerUserId) free
  · exact free (lockedIds_mono (raised.external m.userId) locked)

variable {id : Ident}

section Create
variable {project : Project} {createdAt : Int}

/-- The tables with a new project and its owner. -/
def Tables.withProject (T : Tables) (project : Project) (createdAt : Int) : Tables :=
  { T with
    projects := T.projects ++ [project]
    members := T.members ++ [⟨project.id, project.ownerUserId, .OWNER, none, createdAt⟩] }

theorem withProject_membersOf (ne : id ≠ project.id) :
    (T.withProject project createdAt).membersOf id = T.membersOf id := by
  simp [withProject, membersOf, Ne.symm ne]

theorem withProject_project (ne : id ≠ project.id) :
    (T.withProject project createdAt).project id = T.project id := by
  simp [Tables.withProject, Tables.project, Rows.find, find?_append, Ne.symm ne]

theorem withProject_owned (userId : Ident) : (T.withProject project createdAt).owned userId =
    T.owned userId ++ if project.ownerUserId = userId then [project] else [] := by
  simp only [withProject, owned, filter_append]
  by_cases own : project.ownerUserId = userId <;> simp [own]

theorem Valid.withProject_external (valid : Valid T) (fresh : T.project project.id = none) (userId : Ident) :
    (T.withProject project createdAt).external userId = T.external userId := by
  have found : (T.withProject project createdAt).project project.id = some project :=
    (valid.create project fresh createdAt).project (mem_append_right _ mem_cons_self)
  have listed : (T.withProject project createdAt).members =
      T.members ++ [⟨project.id, project.ownerUserId, .OWNER, none, createdAt⟩] := rfl
  have own : ¬ (project.ownerUserId = userId ∧
      ((T.withProject project createdAt).project project.id).any (·.ownerUserId ≠ userId)) := by
    rw [found]
    simp only [Option.any_some, decide_eq_true_eq]
    exact fun ⟨same, other⟩ => other same
  unfold external
  rw [listed, filter_append, filter_singleton, decide_eq_false own, cond_false, append_nil]
  refine filter_congr fun m mem => ?_
  obtain ⟨p, hp, here⟩ := valid.foreign m mem
  rw [withProject_project fun same => project_none fresh p hp (here.trans same)]

theorem isWithinCountLimit_allows {limit : CountLimit} {n : Nat} (within : isWithinCountLimit limit n = true) :
    limit.Allows (n + 1) := by
  simp only [isWithinCountLimit, or_eq_true, decide_eq_true_eq] at within
  rcases within with unlimited | less
  · exact .inl unlimited
  · exact .inr (by omega)

/-- All of an owner's projects are selected where the new one still fits. -/
theorem withProject_owner (within : isWithinCountLimit (plans project.ownerUserId).ownedActiveMax
    (T.owned project.ownerUserId).length = true) (mem : p ∈ (T.withProject project createdAt).projects)
    (own : p.ownerUserId = project.ownerUserId) : projectLocked C plans (T.withProject project createdAt) p = false := by
  have allows := isWithinCountLimit_allows within
  have length : (rankableOwned (T.withProject project createdAt) project.ownerUserId).length =
      (T.owned project.ownerUserId).length + 1 := by
    simp [rankableOwned, withProject_owned]
  rw [projectLocked_iff mem, own]
  refine selectActiveIds_all (length ▸ allows) ?_
  rw [rankableOwned_ids]
  exact mem_map_of_mem (mem_owned.2 ⟨mem, own⟩)

theorem Valid.withProject_eases (valid : Valid T) (fresh : T.project project.id = none)
    (within : isWithinCountLimit (plans project.ownerUserId).ownedActiveMax (T.owned project.ownerUserId).length = true)
    (mem : p ∈ T.projects) : Eases C plans plans T (T.withProject project createdAt) p m := by
  have old (q : Project) (hq : q ∈ T.projects) : q.id ≠ project.id := project_none fresh q hq
  refine ⟨⟨?_, ?_⟩, ?_⟩
  · intro free
    by_cases own : p.ownerUserId = project.ownerUserId
    · exact withProject_owner within (mem_append_left _ mem) own
    · have same : rankableOwned (T.withProject project createdAt) p.ownerUserId = rankableOwned T p.ownerUserId := by
        unfold rankableOwned
        rw [withProject_owned, if_neg (Ne.symm own), append_nil]
        refine map_congr_left fun row hrow => ?_
        rw [withProject_membersOf (old row (mem_owned.1 hrow).1)]
      rw [projectLocked_iff mem] at free
      rw [projectLocked_iff (mem_append_left _ mem), same]
      exact free
  · intro member
    unfold activeMembers at member ⊢
    rw [withProject_membersOf (old p mem)]
    exact member
  · intro free
    unfold externalLocked rankableExternal at free ⊢
    rw [valid.withProject_external fresh]
    exact free

end Create

variable {project : Project}

section Accept
variable {joined : ProjectMember}

/-- The tables with a new member. -/
def Tables.withMember (T : Tables) (joined : ProjectMember) : Tables := { T with members := T.members ++ [joined] }

theorem withMember_membersOf (id : Ident) : (T.withMember joined).membersOf id =
    T.membersOf id ++ if joined.projectId = id then [joined] else [] := by
  simp only [withMember, membersOf, filter_append]
  by_cases here : joined.projectId = id <;> simp [here]

/-- The owner's own row is an old one. -/
theorem withMember_owned (role : joined.role ≠ .OWNER) (userId : Ident) :
    rankableOwned (T.withMember joined) userId = rankableOwned T userId := by
  refine map_congr_left fun row _ => ?_
  rw [withMember_membersOf, filter_append]
  split <;> simp [role]

theorem withMember_projectLocked (role : joined.role ≠ .OWNER) :
    projectLocked C plans (T.withMember joined) p = projectLocked C plans T p := by
  unfold projectLocked lockedOwnedIds
  rw [withMember_owned role]

theorem withMember_external (other : userId ≠ joined.userId) :
    (T.withMember joined).external userId = T.external userId := by
  simp only [external, withMember, filter_append]
  simp [Ne.symm other, project]

/-- All members are active where the new one still has a place. -/
theorem Valid.withMember_active (valid : Valid T) (role : joined.role ≠ .OWNER) (mem : p ∈ T.projects) (here : p.id = joined.projectId)
    (absent : ∀ m ∈ T.membersOf p.id, m.userId ≠ joined.userId)
    (within : isWithinCountLimit (plans p.ownerUserId).membersPerOwnedProjectMax (activeMembers C plans T p).length = true)
    (listed : m ∈ (T.withMember joined).membersOf p.id) : m.userId ∈ activeMembers C plans (T.withMember joined) p := by
  have valid' : Valid (T.withMember joined) := valid.join role mem here fun n hn project =>
    absent n (mem_membersOf.2 ⟨hn, project.trans here.symm⟩)
  obtain ⟨owner, _, _, _, _, roster⟩ := valid.roster mem
  obtain ⟨owner', _, _, _, _, roster'⟩ := valid'.roster mem
  have few := length_le_of_ids roster.users fun r hr => roster.active_left (C := C) within (mem_map_of_mem hr)
  have more : (((T.withMember joined).membersOf p.id).map toRankableMember).length = ((T.membersOf p.id).map toRankableMember).length + 1 := by
    simp [withMember_membersOf, here]
  refine roster'.active_all ?_ (mem_map_of_mem (mem_map_of_mem listed))
  simp only [isWithinCountLimit, or_eq_true, decide_eq_true_eq] at within
  refine within.imp_right fun less => ?_
  unfold activeMembers at less
  omega

/-- The new member's external memberships all fit, the new one too. -/
theorem withMember_external_none (within : isWithinCountLimit (plans joined.userId).externalActiveMax
    (T.external joined.userId).length = true) (id : Ident) : id ∉ externalLocked C plans (T.withMember joined) joined.userId := by
  have grown : ((T.withMember joined).external joined.userId).length ≤ (T.external joined.userId).length + 1 := by
    have appended : (T.withMember joined).external joined.userId = (T.members ++ [joined]).filter _ := rfl
    rw [appended, filter_append, length_append]
    exact Nat.add_le_add_left (length_filter_le _ [joined]) _
  refine lockedIds_none ?_
  simp only [rankableExternal, length_map]
  rcases isWithinCountLimit_allows within with unlimited | room
  · exact .inl unlimited
  · exact .inr (by omega)

theorem Valid.withMember_seated (valid : Valid T) (role : joined.role ≠ .OWNER) (hproject : project ∈ T.projects)
    (here : project.id = joined.projectId) (absent : ∀ m ∈ T.membersOf project.id, m.userId ≠ joined.userId)
    (within : isWithinCountLimit (plans project.ownerUserId).membersPerOwnedProjectMax
      (activeMembers C plans T project).length = true) (mem : p ∈ T.projects) (listed : m ∈ T.membersOf p.id) :
    Seated C plans plans T (T.withMember joined) p m := by
  refine ⟨fun free => (withMember_projectLocked role).trans free, fun member => ?_⟩
  by_cases same : p.id = project.id
  · cases eq_of_key valid.projects mem hproject same
    refine valid.withMember_active role mem here absent within ?_
    rw [withMember_membersOf]
    exact mem_append_left _ listed
  · unfold activeMembers at member ⊢
    rw [withMember_membersOf, if_neg fun own => same (own.symm.trans here.symm), append_nil]
    exact member

theorem Seated.withMember (seated : Seated C plans plans T (T.withMember joined) p m)
    (other : m.userId ≠ joined.userId ∨
      isWithinCountLimit (plans joined.userId).externalActiveMax (T.external joined.userId).length = true) :
    Eases C plans plans T (T.withMember joined) p m := by
  refine ⟨seated, fun free => ?_⟩
  by_cases same : m.userId = joined.userId
  · rw [same]
    exact withMember_external_none (other.resolve_left fun ne => ne same) p.id
  · unfold externalLocked rankableExternal at free ⊢
    rw [withMember_external same]
    exact free

end Accept

section Calls
variable {o : Options} {actor : ActorContext} {T' : Tables} {view : ProjectView}

theorem shown_ok (ok : shown o plans T actor project = .ok view) : ∃ m,
    T.membership project.id actor.userId = some m ∧ view = toView (snapshot o.collation plans T project m) := by
  rw [shown, evaluateLoaded_eq] at ok
  split at ok
  · cases ok
  · rename_i m found
    cases ok
    exact ⟨m, found, rfl⟩

/-- A project that is admitted is active, and so is all that was. -/
theorem create_admitted (valid : Valid T) {input : CreateProject} {createdAt : Int}
    (ok : create o plans T actor input id createdAt = (T', .ok view)) : view.viewerState = .ACTIVE ∧
      ∀ p ∈ T.projects, ∀ m, Eases o.collation plans plans T T' p m := by
  unfold create at ok
  simp only at ok
  split at ok
  · rename_i within
    cases fresh : T.project id with
    | some p =>
      rw [fresh] at ok
      cases ok
    | none =>
      rw [fresh] at ok
      let created : Project := ⟨id, actor.userId, input.name, input.description, createdAt⟩
      have left : T.withProject created createdAt = T' := congrArg Prod.fst ok
      subst left
      obtain ⟨m, found, rfl⟩ := shown_ok (congrArg Prod.snd ok)
      have valid' : Valid (T.withProject created createdAt) := valid.create created fresh createdAt
      have own := valid'.membership (mem_append_right T.members mem_cons_self)
      have same := found.symm.trans own
      cases same
      have active : projectLocked o.collation plans (T.withProject created createdAt) created = false :=
        withProject_owner within (mem_append_right _ mem_cons_self) rfl
      exact ⟨locks_active.2 ⟨active, .inl rfl⟩, fun p mem m => valid.withProject_eases fresh within mem⟩
  · cases ok

theorem get_ok {projectId : Ident} (ok : get o plans T actor projectId = .ok view) : ∃ project m, project ∈ T.projects ∧
    project.id = projectId ∧ T.membership projectId actor.userId = some m ∧
      view = toView (snapshot o.collation plans T project m) := by
  unfold get at ok
  cases looked : evaluate o.collation plans T actor projectId with
  | error e =>
    rw [looked] at ok
    cases ok
  | ok access =>
    rw [looked] at ok
    cases ok
    obtain ⟨project, m, mem, own, found, rfl⟩ := evaluate_ok looked
    exact ⟨project, m, mem, own, found, rfl⟩

/-- What an accepted invite leaves of an unlocked project and of all others. -/
structure Joined (C : Collation) (plans : Plans) (T T' : Tables) (userId : Ident) (project : Project) : Prop where
  unlocked : projectLocked C plans T' project = false
  member : userId ∈ activeMembers C plans T' project
  seated : ∀ p ∈ T.projects, ∀ m ∈ T.membersOf p.id, Seated C plans plans T T' p m
  others : ∀ p ∈ T.projects, ∀ m ∈ T.membersOf p.id, m.userId ≠ userId → Eases C plans plans T T' p m

theorem acceptInvite_admitted (valid : Valid T) {token : String} {now createdAt : Int}
    (ok : acceptInvite o plans T actor token now createdAt = (T', .ok view)) (mem : project ∈ T.projects)
    (here : project.id = view.id) (free : projectLocked o.collation plans T project = false) :
    Joined o.collation plans T T' actor.userId project ∧
      (isWithinCountLimit (plans actor.userId).externalActiveMax (T.external actor.userId).length = true →
        view.viewerState = .ACTIVE ∧
        ∀ p ∈ T.projects, ∀ m ∈ T.membersOf p.id, Eases o.collation plans plans T T' p m) := by
  unfold acceptInvite at ok
  cases accepted : acceptable o plans T actor token now with
  | error e =>
    rw [accepted] at ok
    cases ok
  | ok invite =>
    rw [accepted] at ok
    obtain ⟨found, listed, own, absent, admitted⟩ := acceptable_ok accepted
    let U := T.updateInvite invite.id fun i => { i with acceptedAt := some now }
    let joined : ProjectMember := ⟨invite.projectId, actor.userId, invite.role.member, none, createdAt⟩
    have left : U.withMember joined = T' := congrArg Prod.fst ok
    subst left
    obtain ⟨shown, m, hshown, hid, member, rfl⟩ := get_ok (congrArg Prod.snd ok)
    cases eq_of_key valid.projects mem hshown here
    cases eq_of_key valid.projects listed mem (own.trans hid.symm)
    have role : joined.role ≠ .OWNER := ProjectInviteRole.member_ne invite.role
    rw [admitMember, free, if_neg (by decide)] at admitted
    have within := require_ok admitted
    have validU : Valid U := ⟨valid.projects, valid.members, valid.foreign, valid.owner, valid.owners⟩
    -- the invite that was written is in no selection
    have seated (p : Project) (hp : p ∈ T.projects) (n : ProjectMember) (hn : n ∈ T.membersOf p.id) :
        Seated o.collation plans plans U (U.withMember joined) p n :=
      validU.withMember_seated role mem own absent within hp hn
    have unlocked : projectLocked o.collation plans (U.withMember joined) project = false :=
      (withMember_projectLocked role).trans free
    have new : joined ∈ (U.withMember joined).membersOf project.id :=
      mem_membersOf.2 ⟨mem_append_right _ mem_cons_self, own.symm⟩
    have active : actor.userId ∈ activeMembers o.collation plans (U.withMember joined) project :=
      validU.withMember_active role mem own absent within new
    refine ⟨⟨unlocked, active, fun p hp n hn => ?_, fun p hp n hn other => ?_⟩, fun external => ⟨?_, fun p hp n hn => ?_⟩⟩
    · exact ⟨(seated p hp n hn).project, (seated p hp n hn).member⟩
    · have eases := (seated p hp n hn).withMember (.inl other)
      exact ⟨⟨eases.project, eases.member⟩, eases.external⟩
    · refine locks_active.2 ⟨unlocked, .inr ?_⟩
      have fits : project.id ∉ externalLocked o.collation plans (U.withMember joined) joined.userId :=
        withMember_external_none external project.id
      rw [(membership_mem member).2.2]
      exact ⟨active, fits⟩
    · have eases := (seated p hp n hn).withMember (.inr external)
      exact ⟨⟨eases.project, eases.member⟩, eases.external⟩

end Calls

end Facts

/-- What the limits promise of the tables and plans at one moment. -/
structure LimitsHold (o : Options) (w : World) : Prop where
  owned : ∀ u, (w.plans u).ownedActiveMax.Allows
    ((w.tables.owned u).filter fun p => !projectLocked o.collation w.plans w.tables p).length
  members : ∀ p ∈ w.tables.projects, (w.plans p.ownerUserId).membersPerOwnedProjectMax.unlimited = true ∨
    (((w.tables.membersOf p.id).filter fun m => viewerAccessState (locks o.collation w.plans w.tables p m) = .ACTIVE).length : Int) ≤
      max 1 (w.plans p.ownerUserId).membersPerOwnedProjectMax.value
  owner : ∀ p ∈ w.tables.projects, projectLocked o.collation w.plans w.tables p = false →
    ∃ m ∈ w.tables.membersOf p.id, m.userId = p.ownerUserId ∧ m.role = .OWNER ∧
      viewerAccessState (locks o.collation w.plans w.tables p m) = .ACTIVE
  external : ∀ u, (w.plans u).externalActiveMax.Allows
    ((w.tables.external u).filter fun m => m.projectId ∉ externalLocked o.collation w.plans w.tables u).length
  unrestricted : ∀ p m, m.role = .OWNER →
    viewerAccessState (locks o.collation w.plans w.tables p m) ≠ .READ_ONLY_BY_MEMBER_PLAN
  order : ∀ T', Reordered w.tables T' → ∀ p ∈ w.tables.projects, ∀ m,
    locks o.collation w.plans T' p m = locks o.collation w.plans w.tables p m
  raised : ∀ plans', w.plans.Le plans' → ∀ p ∈ w.tables.projects, ∀ m,
    Eases o.collation w.plans plans' w.tables w.tables p m
  restored : ∀ u limits, (w.step o (.plan u limits)).step o (.plan u (w.plans u)) = w
  created : ∀ actor input id createdAt T' view, create o w.plans w.tables actor input id createdAt = (T', .ok view) →
    view.viewerState = .ACTIVE ∧ ∀ p ∈ w.tables.projects, ∀ m, Eases o.collation w.plans w.plans w.tables T' p m
  accepted : ∀ actor token now createdAt T' view,
    acceptInvite o w.plans w.tables actor token now createdAt = (T', .ok view) →
    ∀ p ∈ w.tables.projects, p.id = view.id → projectLocked o.collation w.plans w.tables p = false →
      Joined o.collation w.plans w.tables T' actor.userId p ∧
        (isWithinCountLimit (w.plans actor.userId).externalActiveMax (w.tables.external actor.userId).length = true →
          view.viewerState = .ACTIVE ∧ ∀ q ∈ w.tables.projects, ∀ m ∈ w.tables.membersOf q.id,
            Eases o.collation w.plans w.plans w.tables T' q m)

theorem World.step_valid (o : Options) (w : World) (e : Event) (valid : Valid w.tables) : Valid (w.step o e).tables := by
  cases e with
  | call actor call => exact valid.after call
  | plan userId limits => exact valid

namespace Free

def owner : Ident := ⟨"owner", by decide⟩

def guest : Ident := ⟨"guest", by decide⟩

def home : Ident := ⟨"home", by decide⟩

def options : Options where
  collation := ⟨compare, String.instTransOrd, fun a b same => by
    cases a
    cases b
    cases Std.LawfulEqOrd.eq_of_compare same
    rfl⟩
  tokenSecret := ""
  hashInviteToken token _ := token
  normalizeInviteEmail email := email
  inviteTtlDays := 7

/-- One project, its owner and a guest, on the free plan. -/
def world : World where
  tables := {
    projects := [⟨home, owner, "Home", none, 0⟩]
    members := [⟨home, owner, .OWNER, some 1, 0⟩, ⟨home, guest, .MEMBER, none, 2⟩]
    invites := []
    users := [] }
  plans _ := ⟨⟨false, 1⟩, ⟨false, 2⟩, ⟨false, 2⟩⟩

theorem valid : Valid world.tables := by
  constructor <;> decide +kernel

end Free

end Vimla.Projects
