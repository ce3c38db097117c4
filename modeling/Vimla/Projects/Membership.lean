import Vimla.Projects.Service

/-!
# Every project has its owner

What the tables satisfy after any calls: keys are distinct, and the only member
with the role `OWNER` is the user that the project names.
-/

namespace Vimla.Projects

open List Rows

structure Valid (T : Tables) : Prop where
  projects : (T.projects.map Project.id).Nodup
  members : (T.members.map fun m => (m.projectId, m.userId)).Nodup
  foreign : ∀ m ∈ T.members, ∃ p ∈ T.projects, p.id = m.projectId
  owner : ∀ p ∈ T.projects, ∃ m ∈ T.members, m.projectId = p.id ∧ m.userId = p.ownerUserId ∧ m.role = .OWNER
  owners : ∀ m ∈ T.members, m.role = .OWNER → ∀ p ∈ T.projects, p.id = m.projectId → m.userId = p.ownerUserId

section Tables
variable {T : Tables} {m : ProjectMember} {projectId userId : Ident}

theorem mem_membersOf : m ∈ T.membersOf projectId ↔ m ∈ T.members ∧ m.projectId = projectId := by
  simp [Tables.membersOf]

theorem membership_mem (found : T.membership projectId userId = some m) :
    m ∈ T.members ∧ m.projectId = projectId ∧ m.userId = userId := by
  obtain ⟨mem, project⟩ := mem_membersOf.1 (mem_of_find?_eq_some found)
  exact ⟨mem, project, by simpa using find?_some found⟩

theorem project_none (absent : T.project projectId = none) : ∀ p ∈ T.projects, p.id ≠ projectId := by
  intro p mem
  simpa using find?_eq_none.1 absent p mem

theorem Valid.membership (valid : Valid T) (mem : m ∈ T.members) : T.membership m.projectId m.userId = some m := by
  unfold Tables.membership
  cases found : (T.membersOf m.projectId).find? fun n => n.userId = m.userId with
  | none => simpa using find?_eq_none.1 found m (mem_membersOf.2 ⟨mem, rfl⟩)
  | some n =>
    obtain ⟨mem', project, user⟩ := membership_mem (T := T) (by exact found)
    rw [eq_of_key valid.members mem' mem (Prod.ext project user)]

theorem Valid.project (valid : Valid T) {p : Project} (mem : p ∈ T.projects) : T.project p.id = some p :=
  find_eq_of_mem valid.projects mem rfl

end Tables

section Decisions
variable {C : Collation} {plans : Plans} {T : Tables} {actor : ActorContext} {projectId : Ident} {access : AccessSnapshot}

theorem evaluateLoaded_eq (project : Project) : evaluateLoaded C plans T actor project =
    match T.membership project.id actor.userId with
    | none => .error notFound
    | some m => .ok (snapshot C plans T project m) := by
  unfold evaluateLoaded evaluateMany
  cases found : T.membership project.id actor.userId with
  | none | some m => simp [found, bind, Except.bind]

theorem evaluate_ok (ok : evaluate C plans T actor projectId = .ok access) : ∃ project m, project ∈ T.projects ∧
    project.id = projectId ∧ T.membership projectId actor.userId = some m ∧ access = snapshot C plans T project m := by
  unfold evaluate at ok
  cases found : T.project projectId with
  | none =>
    rw [found] at ok
    cases ok
  | some project =>
    obtain ⟨mem, rfl⟩ := mem_of_find found
    simp only [found, evaluateLoaded_eq] at ok
    cases member : T.membership project.id actor.userId with
    | none =>
      rw [member] at ok
      cases ok
    | some m =>
      rw [member] at ok
      cases ok
      exact ⟨project, m, mem, rfl, rfl, rfl⟩

end Decisions

variable {m : ProjectMember}

section Steps
variable {T : Tables} {projectId userId : Ident}

section
variable (valid : Valid T)
include valid

/-- A project and its owner are added together. -/
theorem Valid.create (project : Project) (fresh : T.project project.id = none) (createdAt : Int) :
    Valid { T with
      projects := T.projects ++ [project]
      members := T.members ++ [⟨project.id, project.ownerUserId, .OWNER, none, createdAt⟩] } := by
  have new := project_none fresh
  have old : ∀ m ∈ T.members, m.projectId ≠ project.id := fun m mem same => by
    obtain ⟨p, hp, own⟩ := valid.foreign m mem
    exact new p hp (own.trans same)
  refine ⟨nodup_append valid.projects new,
    nodup_append valid.members fun m mem same => old m mem (congrArg Prod.fst same), ?_, ?_, ?_⟩
  · intro m mem
    rcases mem_append.1 mem with mem | mem
    · obtain ⟨p, hp, own⟩ := valid.foreign m mem
      exact ⟨p, mem_append_left _ hp, own⟩
    · rw [mem_singleton.1 mem]
      exact ⟨project, mem_append_right _ mem_cons_self, rfl⟩
  · intro p mem
    rcases mem_append.1 mem with mem | mem
    · obtain ⟨m, hm, isOwner⟩ := valid.owner p mem
      exact ⟨m, mem_append_left _ hm, isOwner⟩
    · rw [mem_singleton.1 mem]
      exact ⟨_, mem_append_right _ mem_cons_self, rfl, rfl, rfl⟩
  · intro m mem role p hp same
    rcases mem_append.1 mem with mem | mem <;> rcases mem_append.1 hp with hp | hp
    · exact valid.owners m mem role p hp same
    · rw [mem_singleton.1 hp] at same
      exact absurd same.symm (old m mem)
    · rw [mem_singleton.1 mem] at same
      exact absurd same (new p hp)
    · rw [mem_singleton.1 mem, mem_singleton.1 hp]

/-- A member whose role is not `OWNER` joins. -/
theorem Valid.join (role : m.role ≠ .OWNER) {project : Project}
    (listed : project ∈ T.projects) (own : project.id = m.projectId)
    (absent : ∀ n ∈ T.members, n.projectId = m.projectId → n.userId ≠ m.userId) :
    Valid { T with members := T.members ++ [m] } := by
  refine ⟨valid.projects, nodup_append valid.members fun n mem same => ?_, ?_, ?_, ?_⟩
  · obtain ⟨project, user⟩ := Prod.mk.inj same
    exact absent n mem project user
  · intro n mem
    rcases mem_append.1 mem with mem | mem
    · exact valid.foreign n mem
    · rw [mem_singleton.1 mem]
      exact ⟨project, listed, own⟩
  · intro p mem
    obtain ⟨n, hn, isOwner⟩ := valid.owner p mem
    exact ⟨n, mem_append_left _ hn, isOwner⟩
  · intro n mem isOwner p hp same
    rcases mem_append.1 mem with mem | mem
    · exact valid.owners n mem isOwner p hp same
    · rw [mem_singleton.1 mem] at isOwner
      exact absurd isOwner role

/-- Members keep their keys, and own the project as before. -/
theorem Valid.mapMembers {g : ProjectMember → ProjectMember}
    (keys : ∀ m, (g m).projectId = m.projectId ∧ (g m).userId = m.userId)
    (roles : ∀ m ∈ T.members, ((g m).role = .OWNER ↔ m.role = .OWNER)) : Valid { T with members := T.members.map g } := by
  refine ⟨valid.projects, ?_, ?_, ?_, ?_⟩
  · simp only [map_map, Function.comp_def, keys]
    exact valid.members
  · intro m' mem
    obtain ⟨m, hm, rfl⟩ := mem_map.1 mem
    rw [(keys m).1]
    exact valid.foreign m hm
  · intro p mem
    obtain ⟨m, hm, project, user, role⟩ := valid.owner p mem
    exact ⟨g m, mem_map_of_mem hm, (keys m).1.trans project, (keys m).2.trans user, (roles m hm).2 role⟩
  · intro m' mem role p hp same
    obtain ⟨m, hm, rfl⟩ := mem_map.1 mem
    rw [(keys m).2]
    exact valid.owners m hm ((roles m hm).1 role) p hp (same.trans (keys m).1)

theorem Valid.updateMember {f : ProjectMember → ProjectMember}
    (keys : ∀ m, (f m).projectId = m.projectId ∧ (f m).userId = m.userId)
    (roles : ∀ m ∈ T.members, m.projectId = projectId → m.userId = userId → ((f m).role = .OWNER ↔ m.role = .OWNER)) :
    Valid (T.updateMember projectId userId f) := by
  refine valid.mapMembers (fun m => ?_) fun m mem => ?_
  · split
    · exact keys m
    · exact ⟨rfl, rfl⟩
  · split
    · rename_i here
      obtain ⟨project, user⟩ := Prod.mk.inj here
      exact roles m mem project user
    · exact Iff.rfl

theorem Valid.deleteMember (roles : ∀ m ∈ T.members, m.projectId = projectId → m.userId = userId → m.role ≠ .OWNER) :
    Valid (T.deleteMember projectId userId) := by
  refine ⟨valid.projects, valid.members.sublist (filter_sublist.map _), ?_, ?_, ?_⟩
  · exact fun m mem => valid.foreign m (mem_of_mem_filter mem)
  · intro p mem
    obtain ⟨m, hm, project, user, role⟩ := valid.owner p mem
    refine ⟨m, mem_filter.2 ⟨hm, ?_⟩, project, user, role⟩
    simp only [decide_eq_true_eq]
    exact fun ⟨here, user⟩ => roles m hm here user role
  · exact fun m mem => valid.owners m (mem_of_mem_filter mem)

theorem Valid.deleteProject (id : Ident) : Valid (T.deleteProject id) := by
  refine ⟨valid.projects.sublist (filter_sublist.map _), valid.members.sublist (filter_sublist.map _), ?_, ?_, ?_⟩
  · intro m mem
    obtain ⟨hm, other⟩ := mem_filter.1 mem
    obtain ⟨p, hp, own⟩ := valid.foreign m hm
    exact ⟨p, mem_filter.2 ⟨hp, by simpa [own] using other⟩, own⟩
  · intro p mem
    obtain ⟨hp, other⟩ := mem_filter.1 mem
    obtain ⟨m, hm, project, isOwner⟩ := valid.owner p hp
    exact ⟨m, mem_filter.2 ⟨hm, by simpa [project] using other⟩, project, isOwner⟩
  · exact fun m mem role p hp => valid.owners m (mem_of_mem_filter mem) role p (mem_of_mem_filter hp)

theorem Valid.updateProject {f : Project → Project}
    (id : Ident) (keeps : ∀ p, (f p).id = p.id ∧ (f p).ownerUserId = p.ownerUserId) :
    Valid { T with projects := Rows.update Project.id id f T.projects } := by
  have each (p : Project) : (if p.id = id then f p else p).id = p.id ∧
      (if p.id = id then f p else p).ownerUserId = p.ownerUserId := by
    split
    · exact keeps p
    · exact ⟨rfl, rfl⟩
  refine ⟨?_, valid.members, ?_, ?_, ?_⟩
  · simp only [Rows.update, map_map, Function.comp_def, each]
    exact valid.projects
  · intro m mem
    obtain ⟨p, hp, own⟩ := valid.foreign m mem
    exact ⟨_, mem_map_of_mem hp, (each p).1.trans own⟩
  · intro p' mem
    obtain ⟨p, hp, rfl⟩ := mem_map.1 mem
    rw [(each p).1, (each p).2]
    exact valid.owner p hp
  · intro m mem role p' mem' same
    obtain ⟨p, hp, rfl⟩ := mem_map.1 mem'
    rw [(each p).2]
    exact valid.owners m mem role p hp ((each p).1.symm.trans same)

end

end Steps

section Calls
variable {o : Options} {plans : Plans} {T : Tables} {actor : ActorContext} {projectId userId : Ident}

theorem require_ok {condition : Bool} {code : ProjectErrorCode} {message : String}
    (ok : require condition code message = .ok ()) : condition = true := by
  unfold require at ok
  split at ok
  · assumption
  · cases ok

theorem writing_valid (valid : Valid T) {α : Type} {decided : Except Thrown α} {write : α → Tables}
    (writes : ∀ a, decided = .ok a → Valid (write a)) : Valid (writing T decided write).1 := by
  cases decided with
  | error e => exact valid
  | ok a => exact writes a rfl

/-- The member that a manager may change is not the owner. -/
theorem target_ok {forbidden ownership : String}
    (ok : target o plans T actor projectId userId forbidden ownership = .ok m) :
    T.membership projectId userId = some m ∧ m.role ≠ .OWNER := by
  unfold target at ok
  simp only [bind, Except.bind] at ok
  split at ok
  · cases ok
  rename_i access looked
  split at ok
  · cases ok
  split at ok
  · cases ok
  obtain ⟨project, own, -, hid, -, rfl⟩ := evaluate_ok looked
  split at ok
  · cases ok
  rename_i found member
  split at ok
  · cases ok
  rename_i notOwner
  cases ok
  refine ⟨?_, by simpa using require_ok notOwner⟩
  rw [Tables.membership, ← hid]
  exact member

/-- The invite that a call accepts, and who may accept it. -/
theorem acceptable_ok {token : String} {now : Int} {invite : ProjectInvite}
    (ok : acceptable o plans T actor token now = .ok invite) : ∃ project ∈ T.projects, project.id = invite.projectId ∧
      (∀ m ∈ T.membersOf project.id, m.userId ≠ actor.userId) ∧ admitMember o plans T project = .ok () := by
  unfold acceptable at ok
  split at ok
  · cases ok
  iterate 3
    split at ok
    · cases ok
  rename_i project listed
  split at ok
  · cases ok
  rename_i absent
  obtain ⟨mem, own⟩ := mem_of_find listed
  cases admitted : admitMember o plans T project with
  | error e =>
    rw [admitted] at ok
    cases ok
  | ok _ =>
    rw [admitted] at ok
    cases ok
    exact ⟨project, mem, own, by simpa using absent, admitted⟩

theorem ProjectInviteRole.member_ne (role : ProjectInviteRole) : role.member ≠ .OWNER := by
  cases role <;> decide

theorem Valid.after (valid : Valid T) (call : Call) : Valid (T.after o plans actor call) := by
  cases call with
  | create input id createdAt =>
    simp only [Tables.after, Projects.create]
    split
    · cases fresh : T.project id with
      | some p => exact valid
      | none => exact valid.create ⟨id, actor.userId, input.name, input.description, createdAt⟩ fresh createdAt
    · exact valid
  | openProject projectId now =>
    simp only [Tables.after, openProject]
    split
    · exact valid
    · exact valid.updateMember (fun _ => ⟨rfl, rfl⟩) fun _ _ _ _ => Iff.rfl
  | update projectId input =>
    refine writing_valid valid fun _ _ => valid.updateProject projectId fun p => ?_
    exact ⟨rfl, rfl⟩
  | delete projectId => exact writing_valid valid fun _ _ => valid.deleteProject projectId
  | invite projectId input id token now | revokeInvite projectId inviteId now =>
    exact writing_valid valid fun _ _ => ⟨valid.projects, valid.members, valid.foreign, valid.owner, valid.owners⟩
  | acceptInvite token now createdAt =>
    simp only [Tables.after, acceptInvite]
    cases accepted : acceptable o plans T actor token now with
    | error e => exact valid
    | ok invite =>
      obtain ⟨project, listed, own, absent, -⟩ := acceptable_ok accepted
      have updated : Valid (T.updateInvite invite.id fun i => { i with acceptedAt := some now }) :=
        ⟨valid.projects, valid.members, valid.foreign, valid.owner, valid.owners⟩
      refine updated.join (ProjectInviteRole.member_ne invite.role) listed own fun m mem here => ?_
      exact absent m (mem_membersOf.2 ⟨mem, here.trans own.symm⟩)
  | updateMemberRole projectId targetUserId role =>
    refine writing_valid valid fun m ok => valid.updateMember (fun _ => ⟨rfl, rfl⟩) fun n mem project user => ?_
    obtain ⟨found, notOwner⟩ := target_ok ok
    have same := valid.membership mem
    rw [project, user, found] at same
    cases same
    simp [notOwner, ProjectInviteRole.member_ne]
  | removeMember projectId targetUserId =>
    refine writing_valid valid fun m ok => valid.deleteMember fun n mem project user => ?_
    obtain ⟨found, notOwner⟩ := target_ok ok
    have same := valid.membership mem
    rw [project, user, found] at same
    cases same
    exact notOwner
  | leave projectId =>
    refine writing_valid valid fun m ok => valid.deleteMember fun n mem project user => ?_
    simp only [bind, Except.bind] at ok
    split at ok
    · cases ok
    rename_i access looked
    obtain ⟨p, own, -, hid, found, rfl⟩ := evaluate_ok looked
    have same := valid.membership mem
    rw [project, user, found] at same
    cases same
    simpa [snapshot] using require_ok ok

end Calls

end Vimla.Projects
