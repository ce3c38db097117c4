import Vimla.Lib.Rows
import Vimla.Lib.Sorting

/-!
# Ranking projects and members

`ranking.ts`: which projects and which members stay active under a limit. A
`Set` is the list of its elements; instants are milliseconds.
-/

namespace Vimla.Projects

open List Js

/-- A generated identifier: letters, digits and hyphens. -/
structure Ident where
  text : String
  plain : text.toList.all fun c => c.isAlphanum || c = '-'
  deriving DecidableEq

/-- `String.prototype.localeCompare`, which tells identifiers apart. -/
structure Collation where
  localeCompare : String → String → Ordering
  trans : Std.TransCmp localeCompare
  distinct : ∀ a b : Ident, localeCompare a.text b.text = .eq → a = b

structure CountLimit where
  unlimited : Bool
  value : Int

structure ProjectEntitlementLimits where
  ownedActiveMax : CountLimit
  externalActiveMax : CountLimit
  membersPerOwnedProjectMax : CountLimit

def isWithinCountLimit (limit : CountLimit) (used : Nat) : Bool := limit.unlimited || decide ((used : Int) < limit.value)

/-- `n` things are within the limit. -/
def CountLimit.Allows (limit : CountLimit) (n : Nat) : Prop := limit.unlimited = true ∨ (n : Int) ≤ max 0 limit.value

/-- The limit is raised, or stays. -/
def CountLimit.Le (limit limit' : CountLimit) : Prop :=
  limit'.unlimited = true ∨ limit.unlimited = false ∧ limit.value ≤ limit'.value

inductive ProjectMemberRole | OWNER | ADMIN | MEMBER | VIEWER
  deriving DecidableEq

structure ActivityKey where
  key : Ident
  lastOpenedAt : Option Int
  createdAt : Int

structure RankableProject where
  id : Ident
  lastOpenedAt : Option Int
  createdAt : Int

structure RankableMember where
  userId : Ident
  role : ProjectMemberRole
  lastOpenedAt : Option Int
  createdAt : Int

section Ranking
variable (C : Collation)

def compareLastOpened (left right : ActivityKey) : Ordering :=
  let leftOpened := left.lastOpenedAt.getD 0
  let rightOpened := right.lastOpenedAt.getD 0
  if leftOpened ≠ rightOpened then compare rightOpened leftOpened
  else if left.createdAt ≠ right.createdAt then compare right.createdAt left.createdAt
  else C.localeCompare right.key.text left.key.text

def RankableProject.activity (item : RankableProject) : ActivityKey := ⟨item.id, item.lastOpenedAt, item.createdAt⟩

def RankableMember.activity (member : RankableMember) : ActivityKey :=
  ⟨member.userId, member.lastOpenedAt, member.createdAt⟩

def selectActiveIds (items : List RankableProject) (limit : CountLimit) : List Ident :=
  if limit.unlimited then items.map RankableProject.id
  else
    let ranked := sort (fun left right => compareLastOpened C left.activity right.activity) items
    (ranked.take (max 0 limit.value).toNat).map RankableProject.id

/-- The items that are not selected. -/
def lockedIds (items : List RankableProject) (limit : CountLimit) : List Ident :=
  (items.filter fun item => item.id ∉ selectActiveIds C items limit).map RankableProject.id

def lockedOwnedProjectIds (owned : List RankableProject) (ownedActiveMax : CountLimit) : List Ident :=
  lockedIds C owned ownedActiveMax

def lockedExternalProjectIds (memberships : List RankableProject) (externalActiveMax : CountLimit) : List Ident :=
  lockedIds C memberships externalActiveMax

/-- `Set.prototype.add`. -/
def add (selected : List Ident) (userId : Ident) : List Ident :=
  if userId ∈ selected then selected else selected ++ [userId]

/-- The loop that fills the places left. -/
def fill (max : Int) : List Ident → List Ident → List Ident
  | selected, [] => selected
  | selected, userId :: others => if (selected.length : Int) ≥ max then selected else fill max (add selected userId) others

def activeMemberUserIds (members : List RankableMember) (membersPerOwnedProjectMax : CountLimit) : List Ident :=
  let owner := members.find? fun member => member.role = .OWNER
  if membersPerOwnedProjectMax.unlimited then members.map RankableMember.userId
  else
    let selected := match owner with
      | some owner => add [] owner.userId
      | none => []
    let others := (sort (fun left right => compareLastOpened C left.activity right.activity)
      (members.filter fun member => member.role ≠ .OWNER)).map RankableMember.userId
    fill membersPerOwnedProjectMax.value selected others

end Ranking

inductive ProjectAccessState | ACTIVE | PLAN_LOCKED | READ_ONLY_BY_OWNER_PLAN | READ_ONLY_BY_MEMBER_PLAN
  deriving DecidableEq

/-- The locks on one membership. -/
structure Locks where
  isOwner : Bool
  projectLocked : Bool
  memberLockedByOwnerPlan : Bool
  memberLockedByMemberPlan : Bool

def viewerAccessState (input : Locks) : ProjectAccessState :=
  if input.projectLocked then .PLAN_LOCKED
  else if input.memberLockedByOwnerPlan then .READ_ONLY_BY_OWNER_PLAN
  else if !input.isOwner && input.memberLockedByMemberPlan then .READ_ONLY_BY_MEMBER_PLAN
  else .ACTIVE

def isEntitlementReadOnly (state : ProjectAccessState) : Bool := state ≠ .ACTIVE

def canEditWithRole (role : ProjectMemberRole) : Bool := role = .OWNER ∨ role = .ADMIN

def canManageMembersWithRole (role : ProjectMemberRole) : Bool := role = .OWNER ∨ role = .ADMIN

section Order
variable {C : Collation}

/-- By last opening, then by creation, then by key; each the other way round. -/
theorem compareLastOpened_eq (left right : ActivityKey) : compareLastOpened C left right =
    (compare (right.lastOpenedAt.getD 0) (left.lastOpenedAt.getD 0)).then
      ((compare right.createdAt left.createdAt).then (C.localeCompare right.key.text left.key.text)) := by
  unfold compareLastOpened
  simp only
  split
  · rename_i opened
    cases order : compare (right.lastOpenedAt.getD 0) (left.lastOpenedAt.getD 0) with
    | eq => exact absurd (compare_eq_iff_eq.1 order).symm opened
    | lt | gt => rfl
  · rename_i opened
    rw [not_not.1 opened, compare_eq_iff_eq.2 rfl]
    split
    · rename_i created
      cases order : compare right.createdAt left.createdAt with
      | eq => exact absurd (compare_eq_iff_eq.1 order).symm created
      | lt | gt => rfl
    · rename_i created
      rw [not_not.1 created, compare_eq_iff_eq.2 rfl]
      rfl

instance compareLastOpened_trans : Std.TransCmp (compareLastOpened C) := by
  have byKey := C.trans
  rw [funext₂ compareLastOpened_eq]
  exact transCmp_then (transCmp_desc fun item : ActivityKey => item.lastOpenedAt.getD 0)
    (transCmp_then (transCmp_desc ActivityKey.createdAt) (transCmp_desc fun item : ActivityKey => item.key.text))

theorem compareLastOpened_settles {left right : ActivityKey} (tie : compareLastOpened C left right = .eq) :
    left.key = right.key := by
  rw [compareLastOpened_eq, Ordering.then_eq_eq, Ordering.then_eq_eq] at tie
  exact (C.distinct _ _ tie.2.2).symm

end Order

section Selection
variable {C : Collation} {items items' : List RankableProject} {limit limit' : CountLimit} {id : Ident}

/-- The order that projects are ranked in. -/
def ranked (C : Collation) (items : List RankableProject) : List RankableProject :=
  sort (fun left right => compareLastOpened C left.activity right.activity) items

theorem mem_lockedIds : id ∈ lockedIds C items limit ↔
    id ∈ items.map RankableProject.id ∧ id ∉ selectActiveIds C items limit := by
  simp only [lockedIds, mem_map, mem_filter, decide_eq_true_eq]
  constructor
  · rintro ⟨item, ⟨mem, free⟩, rfl⟩
    exact ⟨⟨item, mem, rfl⟩, free⟩
  · rintro ⟨⟨item, mem, rfl⟩, free⟩
    exact ⟨item, ⟨mem, free⟩, rfl⟩

theorem selectActiveIds_unlimited (unlimited : limit.unlimited = true) :
    selectActiveIds C items limit = items.map RankableProject.id := by
  rw [selectActiveIds, if_pos unlimited]

theorem selectActiveIds_limited (limited : limit.unlimited = false) :
    selectActiveIds C items limit = ((ranked C items).take (max 0 limit.value).toNat).map RankableProject.id := by
  rw [selectActiveIds, if_neg (by simp [limited])]
  rfl

theorem selectActiveIds_allows (C : Collation) (items : List RankableProject) (limited : limit.unlimited = false) :
    (selectActiveIds C items limit).length ≤ (max 0 limit.value).toNat := by
  rw [selectActiveIds_limited limited, length_map]
  exact length_take_le _ _

theorem selectActiveIds_subset (mem : id ∈ selectActiveIds C items limit) : id ∈ items.map RankableProject.id := by
  unfold selectActiveIds at mem
  split at mem
  · exact mem
  · obtain ⟨item, taken, rfl⟩ := mem_map.1 mem
    exact mem_map_of_mem (mem_sort.1 (mem_of_mem_take taken))

/-- A raised limit keeps what was selected. -/
theorem selectActiveIds_mono (raised : limit.Le limit') (mem : id ∈ selectActiveIds C items limit) :
    id ∈ selectActiveIds C items limit' := by
  cases unlimited : limit'.unlimited with
  | true =>
    rw [selectActiveIds_unlimited unlimited]
    exact selectActiveIds_subset mem
  | false =>
    obtain ⟨limited, le⟩ : limit.unlimited = false ∧ limit.value ≤ limit'.value := by
      simpa [CountLimit.Le, unlimited] using raised
    rw [selectActiveIds_limited limited] at mem
    rw [selectActiveIds_limited unlimited]
    obtain ⟨item, taken, rfl⟩ := mem_map.1 mem
    have more : (max 0 limit.value).toNat ≤ (max 0 limit'.value).toNat := by omega
    exact mem_map_of_mem ((take_sublist_take_left more).subset taken)

/-- Within the limit everything is selected. -/
theorem selectActiveIds_all (within : limit.Allows items.length) (mem : id ∈ items.map RankableProject.id) :
    id ∈ selectActiveIds C items limit := by
  cases unlimited : limit.unlimited with
  | true =>
    rw [selectActiveIds_unlimited unlimited]
    exact mem
  | false =>
    have few : (items.length : Int) ≤ max 0 limit.value := by simpa [CountLimit.Allows, unlimited] using within
    have length : (ranked C items).length = items.length := (sort_perm _ items).length_eq
    rw [selectActiveIds_limited unlimited, take_of_length_le (by omega)]
    obtain ⟨item, listed, rfl⟩ := mem_map.1 mem
    exact mem_map_of_mem (mem_sort.2 listed)

/-- The selection is of the set of items, whatever their order. -/
theorem selectActiveIds_perm (nodup : (items.map RankableProject.id).Nodup) (perm : items.Perm items') :
    id ∈ selectActiveIds C items limit ↔ id ∈ selectActiveIds C items' limit := by
  cases unlimited : limit.unlimited with
  | true =>
    rw [selectActiveIds_unlimited unlimited, selectActiveIds_unlimited unlimited]
    exact (perm.map _).mem_iff
  | false =>
    have byActivity := @transCmp_key _ _ (compareLastOpened C) _ RankableProject.activity
    have same : ranked C items = ranked C items' := sort_eq_of_perm perm fun a ha b hb tie =>
      Rows.eq_of_key nodup ha hb (compareLastOpened_settles tie)
    rw [selectActiveIds_limited unlimited, selectActiveIds_limited unlimited, same]

theorem lockedIds_mono (raised : limit.Le limit') (locked : id ∈ lockedIds C items limit') : id ∈ lockedIds C items limit := by
  obtain ⟨listed, left⟩ := mem_lockedIds.1 locked
  exact mem_lockedIds.2 ⟨listed, fun selected => left (selectActiveIds_mono raised selected)⟩

theorem lockedIds_none (within : limit.Allows items.length) : id ∉ lockedIds C items limit := by
  intro locked
  obtain ⟨listed, left⟩ := mem_lockedIds.1 locked
  exact left (selectActiveIds_all within listed)

theorem lockedIds_perm (nodup : (items.map RankableProject.id).Nodup) (perm : items.Perm items') :
    id ∈ lockedIds C items limit ↔ id ∈ lockedIds C items' limit := by
  rw [mem_lockedIds, mem_lockedIds, selectActiveIds_perm nodup perm, (perm.map RankableProject.id).mem_iff]

end Selection

section Members
variable {C : Collation} {members members' : List RankableMember} {limit limit' : CountLimit} {userId : Ident}
  {selected others : List Ident} {bound bound' : Int}

theorem add_length (selected : List Ident) (userId : Ident) :
    selected.length ≤ (add selected userId).length ∧ (add selected userId).length ≤ selected.length + 1 := by
  unfold add
  split <;> simp

theorem mem_add {other : Ident} : other ∈ add selected userId ↔ other ∈ selected ∨ other = userId := by
  unfold add
  split
  · rename_i already
    exact ⟨.inl, fun h => h.elim id fun same => same ▸ already⟩
  · simp

theorem fill_subset (mem : userId ∈ fill bound selected others) : userId ∈ selected ∨ userId ∈ others := by
  induction others generalizing selected with
  | nil => exact .inl mem
  | cons other others ih =>
    rw [fill] at mem
    split at mem
    · exact .inl mem
    · rcases ih mem with before | after
      · rcases mem_add.1 before with before | rfl
        · exact .inl before
        · exact .inr mem_cons_self
      · exact .inr (mem_cons_of_mem other after)

theorem fill_selected (mem : userId ∈ selected) : userId ∈ fill bound selected others := by
  induction others generalizing selected with
  | nil => exact mem
  | cons other others ih =>
    rw [fill]
    split
    · exact mem
    · exact ih (mem_add.2 (.inl mem))

theorem fill_length (bound : Int) (selected others : List Ident) :
    ((fill bound selected others).length : Int) ≤ max (selected.length : Int) bound := by
  induction others generalizing selected with
  | nil => exact Int.le_max_left _ _
  | cons other others ih =>
    rw [fill]
    split
    · exact Int.le_max_left _ _
    · have := ih (add selected other)
      have := (add_length selected other).2
      omega

/-- More places keep whoever had one. -/
theorem fill_mono (more : bound ≤ bound') (mem : userId ∈ fill bound selected others) :
    userId ∈ fill bound' selected others := by
  induction others generalizing selected with
  | nil => exact mem
  | cons other others ih =>
    rw [fill] at mem
    split at mem
    · exact fill_selected mem
    · rw [fill, if_neg (by omega)]
      exact ih mem

/-- The loop leaves nobody out where places remain. -/
theorem fill_left (left : ((fill bound selected others).length : Int) < bound) (mem : userId ∈ others) :
    userId ∈ fill bound selected others := by
  induction others generalizing selected with
  | nil => cases mem
  | cons other others ih =>
    rw [fill] at left ⊢
    split at left
    · omega
    · rename_i room
      rw [if_neg room]
      rcases mem_cons.1 mem with rfl | later
      · exact fill_selected (mem_add.2 (.inr rfl))
      · exact ih left later

theorem fill_all (room : (selected.length + others.length : Int) ≤ bound) (mem : userId ∈ others) :
    userId ∈ fill bound selected others := by
  induction others generalizing selected with
  | nil => cases mem
  | cons other others ih =>
    rw [length_cons] at room
    rw [fill, if_neg (by omega)]
    rcases mem_cons.1 mem with rfl | later
    · exact fill_selected (mem_add.2 (.inr rfl))
    · have := (add_length selected other).2
      exact ih (by omega) later

/-- The members of one project: one of them, and only one, is its owner. -/
structure Roster (members : List RankableMember) (owner : RankableMember) : Prop where
  users : (members.map RankableMember.userId).Nodup
  mem : owner ∈ members
  role : owner.role = .OWNER
  one : ∀ m ∈ members, m.role = .OWNER → m = owner

/-- The other members, ranked. -/
def otherMembers (C : Collation) (members : List RankableMember) : List Ident :=
  (sort (fun left right => compareLastOpened C left.activity right.activity)
    (members.filter fun member => member.role ≠ .OWNER)).map RankableMember.userId

variable {owner : RankableMember}

section
variable (roster : Roster members owner)
include roster

theorem Roster.find : members.find? (fun member => member.role = .OWNER) = some owner := by
  cases found : members.find? fun member => member.role = .OWNER with
  | none => exact absurd roster.role (by simpa using find?_eq_none.1 found owner roster.mem)
  | some m => rw [roster.one m (mem_of_find?_eq_some found) (by simpa using find?_some found)]

theorem Roster.active : activeMemberUserIds C members limit =
    if limit.unlimited then members.map RankableMember.userId
    else fill limit.value [owner.userId] (otherMembers C members) := by
  unfold activeMemberUserIds
  rw [roster.find]
  rfl

theorem Roster.mem_otherMembers : userId ∈ members.map RankableMember.userId ↔
    userId = owner.userId ∨ userId ∈ otherMembers C members := by
  simp only [otherMembers, mem_map, mem_sort, mem_filter, decide_eq_true_eq]
  constructor
  · rintro ⟨m, mem, rfl⟩
    by_cases isOwner : m.role = .OWNER
    · exact .inl (by rw [roster.one m mem isOwner])
    · exact .inr ⟨m, ⟨mem, isOwner⟩, rfl⟩
  · rintro (rfl | ⟨m, ⟨mem, -⟩, rfl⟩)
    · exact ⟨owner, roster.mem, rfl⟩
    · exact ⟨m, mem, rfl⟩

theorem Roster.length : (otherMembers C members).length + 1 = members.length := by
  have filtered : ((members.filter fun member => member.role ≠ .OWNER).map RankableMember.userId).Nodup :=
    roster.users.sublist (filter_sublist.map _)
  have distinct : (otherMembers C members).Nodup := ((sort_perm _ _).map _).nodup_iff.2 filtered
  have apart : owner.userId ∉ otherMembers C members := by
    simp only [otherMembers, mem_map, mem_sort, mem_filter, decide_eq_true_eq]
    rintro ⟨m, ⟨mem, notOwner⟩, same⟩
    exact notOwner (Rows.eq_of_key roster.users mem roster.mem same ▸ roster.role)
  have perm : (members.map RankableMember.userId).Perm (owner.userId :: otherMembers C members) := by
    refine (perm_ext_iff_of_nodup roster.users (nodup_cons.2 ⟨apart, distinct⟩)).2 fun userId => ?_
    rw [roster.mem_otherMembers (C := C), mem_cons]
  simpa using perm.length_eq.symm

theorem Roster.active_owner : owner.userId ∈ activeMemberUserIds C members limit := by
  rw [roster.active]
  split
  · exact mem_map_of_mem roster.mem
  · exact fill_selected mem_cons_self

theorem Roster.active_subset (mem : userId ∈ activeMemberUserIds C members limit) :
    userId ∈ members.map RankableMember.userId := by
  rw [roster.active] at mem
  split at mem
  · exact mem
  · rw [roster.mem_otherMembers (C := C)]
    exact (fill_subset mem).imp_left mem_singleton.1

theorem Roster.active_length (limited : limit.unlimited = false) :
    ((activeMemberUserIds C members limit).length : Int) ≤ max 1 limit.value := by
  rw [roster.active, limited, if_neg (by decide)]
  exact fill_length limit.value [owner.userId] (otherMembers C members)

/-- A raised limit keeps the members that were active. -/
theorem Roster.active_mono (raised : limit.Le limit')
    (mem : userId ∈ activeMemberUserIds C members limit) : userId ∈ activeMemberUserIds C members limit' := by
  have member := roster.active_subset mem
  rw [roster.active] at mem ⊢
  split
  · exact member
  · rename_i unlimited
    obtain ⟨limited, le⟩ : limit.unlimited = false ∧ limit.value ≤ limit'.value := by
      simpa [CountLimit.Le, unlimited] using raised
    rw [limited, if_neg (by decide)] at mem
    exact fill_mono le mem

/-- Everyone is active where there are no more members than places. -/
theorem Roster.active_all (within : limit.unlimited = true ∨ (members.length : Int) ≤ limit.value) (mem : userId ∈ members.map RankableMember.userId) :
    userId ∈ activeMemberUserIds C members limit := by
  rw [roster.active]
  split
  · exact mem
  · rename_i limited
    have room := within.resolve_left limited
    rcases (roster.mem_otherMembers (C := C)).1 mem with rfl | other
    · exact fill_selected mem_cons_self
    · have := roster.length (C := C)
      exact fill_all (by simp only [length_singleton]; omega) other

/-- Everyone is active where a place is left. -/
theorem Roster.active_left (within : isWithinCountLimit limit (activeMemberUserIds C members limit).length = true)
    (mem : userId ∈ members.map RankableMember.userId) : userId ∈ activeMemberUserIds C members limit := by
  unfold isWithinCountLimit at within
  rw [roster.active] at within ⊢
  split
  · exact mem
  · rename_i limited
    simp only [limited, Bool.false_or, decide_eq_true_eq, if_false, Bool.false_eq_true] at within
    rcases (roster.mem_otherMembers (C := C)).1 mem with rfl | other
    · exact fill_selected mem_cons_self
    · exact fill_left within other

/-- Whose membership is active does not depend on the order of the members. -/
theorem Roster.active_perm (perm : members.Perm members') :
    userId ∈ activeMemberUserIds C members limit ↔ userId ∈ activeMemberUserIds C members' limit := by
  have roster' : Roster members' owner := ⟨(perm.map _).nodup_iff.1 roster.users, perm.mem_iff.1 roster.mem, roster.role,
    fun m mem => roster.one m (perm.mem_iff.2 mem)⟩
  have byActivity := @transCmp_key _ _ (compareLastOpened C) _ RankableMember.activity
  have same : otherMembers C members = otherMembers C members' := by
    refine congrArg (map _) (sort_eq_of_perm (perm.filter _) fun a ha b hb tie => ?_)
    exact Rows.eq_of_key roster.users (mem_of_mem_filter ha) (mem_of_mem_filter hb) (compareLastOpened_settles tie)
  rw [roster.active, roster'.active, same]
  split
  · exact (perm.map _).mem_iff
  · exact Iff.rfl

end

end Members

end Vimla.Projects
