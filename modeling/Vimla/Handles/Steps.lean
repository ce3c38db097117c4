import Vimla.Handles.Service

/-!
# What every write keeps

The invariant of the tables, and one lemma for each write: active and retired
handles stay as they are, and what goes is a reservation that is over.
-/

namespace Vimla.Handles

open Threads List Rows Tables Int

variable {c : Config} {s t : Tables} {h : Handle}

/-- The keys of both tables and the checks of their columns. -/
structure Keyed (s : Tables) : Prop where
  ids : (s.handles.map Handle.id).Nodup
  names : (s.handles.map Handle.normalized).Nodup
  owners : ∀ h ∈ s.handles, ∀ g ∈ s.handles, h.userId.isSome → h.userId = g.userId → h = g
  kinds : ∀ h ∈ s.handles, h.userId.isSome → h.kind = .USER
  pending : ∀ h ∈ s.handles, h.status = .PENDING → h.kind = .USER
  settled : ∀ h ∈ s.handles, h.status ≠ .PENDING → h.reservationExpiresAt = none
  users : (s.profiles.map PublicProfile.userId).Nodup
  bound : (s.profiles.map PublicProfile.handleId).Nodup
  foreign : ∀ p ∈ s.profiles, ∃ h ∈ s.handles, h.id = p.handleId ∧ h.userId = some p.userId
  drawn : ∀ h ∈ s.handles, h.id ∈ s.drawn

/-- A profile is bound to the handle and its user. -/
def Shown (s : Tables) (h : Handle) : Prop := ∃ p ∈ s.profiles, p.handleId = h.id ∧ h.userId = some p.userId

structure Sound (s : Tables) : Prop extends Keyed s where
  shown : ∀ h ∈ s.handles, h.kind = .USER → h.status = .ACTIVE → Shown s h

/-- What others may have done. -/
structure Later (s t : Tables) : Prop where
  now : s.now ≤ t.now
  drawn : s.drawn ⊆ t.drawn
  stays : ∀ h ∈ s.handles, h.status ≠ .PENDING → h ∈ t.handles
  retired : ∀ h ∈ t.handles, h.status = .RETIRED → h ∈ s.handles
  known : ∀ h ∈ t.handles, h.id ∈ s.drawn → ∃ g ∈ s.handles, g.id = h.id

/-- Every handle is still there, its user's, or was a reservation that is over. -/
def Removed (s t : Tables) : Prop := ∀ h ∈ s.handles,
  (∃ g ∈ t.handles, g.id = h.id ∧ g.userId = h.userId ∧ g.handle = h.handle) ∨
    h.kind = .USER ∧ h.status = .PENDING ∧ ∃ expiry ∈ h.reservationExpiresAt, expiry < s.now

theorem Later.refl (s : Tables) : Later s s :=
  ⟨le_refl _, Subset.refl _, fun _ mem _ => mem, fun _ mem _ => mem, fun h mem _ => ⟨h, mem, rfl⟩⟩

variable {u : Tables} {account : User} {handle : String} {status : HandleStatus} {d : At} {a : ClaimedHandle}

theorem Later.trans (first : Later s t) (second : Later t u) : Later s u where
  now := le_trans first.now second.now
  drawn := Subset.trans first.drawn second.drawn
  stays h mem settled := second.stays h (first.stays h mem settled) settled
  retired h mem is := first.retired h (second.retired h mem is) is
  known h mem old := by
    obtain ⟨g, listed, same⟩ := second.known h mem (first.drawn old)
    obtain ⟨g', listed', same'⟩ := first.known g listed (same ▸ old)
    exact ⟨g', listed', same'.trans same⟩

theorem Removed.refl (s : Tables) : Removed s s := fun h mem => .inl ⟨h, mem, rfl, rfl, rfl⟩

/-- A write keeps the invariant and does to others' rows only what is allowed. -/
structure Keeps (s t : Tables) : Prop where
  sound : Sound t
  later : Later s t
  removed : Removed s t

theorem Sound.keeps (sound : Sound s) : Keeps s s := ⟨sound, .refl s, .refl s⟩

theorem Keyed.eq_of_id (keyed : Keyed s) {g : Handle} (mem : h ∈ s.handles) (mem' : g ∈ s.handles) (same : h.id = g.id) : h = g :=
  eq_of_key keyed.ids mem mem' same

variable {userId handleId displayName : String} {owned row current : Handle}

/-- A profile that is there, or is made: the handles are the same. -/
theorem ensurePublicProfile_ok (keyed : Keyed s) (ok : ensurePublicProfile userId handleId displayName s = .ok t) :
    Keyed t ∧ t.handles = s.handles ∧ t.now = s.now ∧
      t.drawn = s.drawn ∧ s.profiles ⊆ t.profiles ∧ ∃ p ∈ t.profiles, p.userId = userId ∧ p.handleId = handleId := by
  unfold ensurePublicProfile at ok
  split at ok
  · rename_i existing found
    split at ok
    · cases ok
    rename_i same
    cases ok
    obtain ⟨mem, user⟩ := mem_of_find found
    exact ⟨keyed, rfl, rfl, rfl, Subset.refl _, existing, mem, user, not_not.1 same⟩
  · unfold insertProfile at ok
    split at ok
    · cases ok
    rename_i unique
    split at ok
    · rename_i foreign
      cases ok
      have free : ∀ p ∈ s.profiles, p.userId ≠ userId ∧ p.handleId ≠ handleId := by
        intro p mem
        constructor <;> exact fun same => unique (any_eq_true.2 ⟨p, mem, by simp [same]⟩)
      have owner : ∃ h ∈ s.handles, h.id = handleId ∧ h.userId = some userId := by simpa using foreign
      refine ⟨⟨keyed.ids, keyed.names, keyed.owners, keyed.kinds, keyed.pending, keyed.settled, ?_, ?_, fun p mem => ?_,
        keyed.drawn⟩, rfl, rfl, rfl, subset_append_left _ _, _, mem_append_right _ mem_cons_self, rfl, rfl⟩
      · exact nodup_append keyed.users fun p mem => (free p mem).1
      · exact nodup_append keyed.bound fun p mem => (free p mem).2
      · rcases mem_append.1 mem with old | new
        · exact keyed.foreign p old
        · rw [mem_singleton.1 new]
          exact owner
    · cases ok

/-- With the profile of an account every active handle has its own. -/
theorem shown_of_profile {before : Tables} (keyed : Keyed t)
    (profile : ∃ p ∈ t.profiles, p.userId = userId)
    (others : ∀ h ∈ t.handles, h.kind = .USER → h.status = .ACTIVE → h.userId ≠ some userId → Shown before h)
    (grown : before.profiles ⊆ t.profiles) : Sound t := by
  refine ⟨keyed, fun h mem user active => ?_⟩
  by_cases mine : h.userId = some userId
  · obtain ⟨p, listed, same⟩ := profile
    obtain ⟨g, stored, id, owner⟩ := keyed.foreign p listed
    obtain rfl : h = g := keyed.owners h mem g stored (by simp [mine]) (by rw [mine, owner, same])
    exact ⟨p, listed, id.symm, owner⟩
  · obtain ⟨p, listed, id, owner⟩ := others h mem user active mine
    exact ⟨p, grown listed, id, owner⟩

section Remove
variable {p : Handle → Bool}

theorem mem_removeHandles : h ∈ (s.removeHandles p).handles ↔ h ∈ s.handles ∧ p h = false := by
  simp [removeHandles]

/-- Reservations that are over may go. -/
theorem removeHandles_keeps (sound : Sound s)
    (late : ∀ h ∈ s.handles, p h = true → h.kind = .USER ∧ h.status = .PENDING ∧ ∃ expiry ∈ h.reservationExpiresAt, expiry < s.now) :
    Keeps s (s.removeHandles p) := by
  have sub : Sublist (s.removeHandles p).handles s.handles := filter_sublist
  have fewer : Sublist (s.removeHandles p).profiles s.profiles := filter_sublist
  have inside {h : Handle} (mem : h ∈ (s.removeHandles p).handles) : h ∈ s.handles := sub.subset mem
  have stays {h : Handle} (mem : h ∈ s.handles) (settled : h.status ≠ .PENDING) : h ∈ (s.removeHandles p).handles := by
    refine mem_removeHandles.2 ⟨mem, ?_⟩
    cases gone : p h with
    | false => rfl
    | true => exact absurd (late h mem gone).2.1 settled
  refine ⟨⟨⟨(sub.map _).nodup sound.ids, (sub.map _).nodup sound.names, fun h mem g mem' => sound.owners h (inside mem) g (inside mem'),
    fun h mem => sound.kinds h (inside mem), fun h mem => sound.pending h (inside mem), fun h mem => sound.settled h (inside mem),
    (fewer.map _).nodup sound.users, (fewer.map _).nodup sound.bound, fun profile mem => ?_, fun h mem => sound.drawn h (inside mem)⟩,
    fun h mem user active => ?_⟩,
    ⟨le_refl _, Subset.refl _, fun h => stays, fun h mem _ => inside mem, fun h mem _ => ⟨h, inside mem, rfl⟩⟩,
    fun h mem => ?_⟩
  · obtain ⟨listed, kept⟩ := mem_filter.1 mem
    obtain ⟨h, stored, id, owner⟩ := sound.foreign profile listed
    refine ⟨h, mem_removeHandles.2 ⟨stored, ?_⟩, id, owner⟩
    cases gone : p h with
    | false => rfl
    | true =>
      have cascades : s.handles.any (fun h => p h && h.id = profile.handleId && h.userId = some profile.userId) = true :=
        any_eq_true.2 ⟨h, stored, by simp [gone, id, owner]⟩
      rw [cascades] at kept
      cases kept
  · obtain ⟨profile, listed, id, owner⟩ := sound.shown h (inside mem) user active
    refine ⟨profile, mem_filter.2 ⟨listed, ?_⟩, id, owner⟩
    have stands : s.handles.any (fun g => p g && g.id = profile.handleId && g.userId = some profile.userId) = false := by
      refine any_eq_false.2 fun g stored gone => ?_
      simp only [Bool.and_eq_true, decide_eq_true_eq] at gone
      obtain ⟨⟨gone, same⟩, -⟩ := gone
      rw [sound.eq_of_id stored (inside mem) (same.trans id), (mem_removeHandles.1 mem).2] at gone
      cases gone
    rw [stands]
    rfl
  · cases gone : p h with
    | false => exact .inl ⟨h, mem_removeHandles.2 ⟨mem, gone⟩, rfl, rfl, rfl⟩
    | true => exact .inr (late h mem gone)

end Remove

theorem cleanup_keeps (sound : Sound s) (handle : String) {date : Int} (past : date ≤ s.now) : Keeps s (cleanup handle date s) := by
  refine removeHandles_keeps sound fun h _ gone => ?_
  simp only [decide_eq_true_eq, Option.any_eq_true] at gone
  obtain ⟨-, user, pending, expiry, is, less⟩ := gone
  exact ⟨user, pending, expiry, is, lt_of_lt_of_le less past⟩

section Update
variable {p : Handle → Bool} {f : Handle → Handle}

theorem mem_updateHandle {h' : Handle} : h' ∈ (s.updateHandle p f).handles ↔ ∃ h ∈ s.handles, (if p h then f h else h) = h' :=
  mem_map

/-- An update of the status and the expiry alone. -/
structure Restates (f : Handle → Handle) (status : HandleStatus) (expiry : Option Int) : Prop where
  eq : ∀ h, f h = { h with status := status, reservationExpiresAt := expiry }

variable {status : HandleStatus} {expiry : Option Int}

theorem restated_map {β : Type} (restates : Restates f status expiry) {g : Handle → β}
    (keeps : ∀ h : Handle, g { h with status := status, reservationExpiresAt := expiry } = g h) :
    (s.updateHandle p f).handles.map g = s.handles.map g := by
  simp only [updateHandle, map_map]
  refine map_congr_left fun h _ => ?_
  by_cases yes : p h = true
  · simp [yes, restates.eq, keeps]
  · simp [yes]

/-- Rows that are no settled ones of another status get this status. -/
theorem updateHandle_keyed (keyed : Keyed s) (restates : Restates f status expiry)
    (reserves : expiry.isSome → status = .PENDING)
    (users : status = .PENDING → ∀ h ∈ s.handles, p h = true → h.kind = .USER) : Keyed (s.updateHandle p f) := by
  have each {h' : Handle} (mem : h' ∈ (s.updateHandle p f).handles) : ∃ h ∈ s.handles, h'.id = h.id ∧ h'.userId = h.userId ∧
      h'.kind = h.kind ∧ h'.normalized = h.normalized ∧
      (h' = h ∨ p h = true ∧ h'.status = status ∧ h'.reservationExpiresAt = expiry) := by
    obtain ⟨h, old, rfl⟩ := mem_updateHandle.1 mem
    refine ⟨h, old, ?_⟩
    split
    · rename_i yes
      rw [restates.eq]
      exact ⟨rfl, rfl, rfl, rfl, .inr ⟨yes, rfl, rfl⟩⟩
    · exact ⟨rfl, rfl, rfl, rfl, .inl rfl⟩
  have ids : ((s.updateHandle p f).handles.map Handle.id).Nodup := by
    rw [restated_map restates fun _ => rfl]
    exact keyed.ids
  refine ⟨ids, ?_, fun h mem g mem' some same => ?_, fun h mem some => ?_, fun h mem is => ?_, fun h mem is => ?_, keyed.users,
    keyed.bound, fun profile mem => ?_, fun h mem => ?_⟩
  · rw [restated_map restates fun _ => rfl]
    exact keyed.names
  · obtain ⟨h0, old, id, owner, -⟩ := each mem
    obtain ⟨g0, old', id', owner', -⟩ := each mem'
    have one : h0 = g0 := keyed.owners h0 old g0 old' (owner ▸ some) (by rw [← owner, ← owner', same])
    exact eq_of_key ids mem mem' (by rw [id, id', one])
  · obtain ⟨h0, old, -, owner, kind, -⟩ := each mem
    exact kind.trans (keyed.kinds h0 old (owner ▸ some))
  · obtain ⟨h0, old, -, -, kind, -, rfl | ⟨yes, restated, -⟩⟩ := each mem
    · exact keyed.pending h old is
    · exact kind.trans (users (restated.symm.trans is) h0 old yes)
  · obtain ⟨h0, old, -, -, -, -, rfl | ⟨-, restated, reserved⟩⟩ := each mem
    · exact keyed.settled h old is
    · rw [reserved]
      cases expiry with
      | none => rfl
      | some at_ => exact absurd (restated.trans (reserves rfl)) is
  · obtain ⟨h, old, id, owner⟩ := keyed.foreign profile mem
    refine ⟨if p h then f h else h, mem_updateHandle.2 ⟨h, old, rfl⟩, ?_⟩
    split
    · rw [restates.eq]
      exact ⟨id, owner⟩
    · exact ⟨id, owner⟩
  · obtain ⟨h0, old, id, -⟩ := each mem
    exact id ▸ keyed.drawn h0 old

/-- Rows under the update are not retired, and an active one stays active. -/
theorem updateHandle_later (keyed : Keyed s) (restates : Restates f status expiry)
    (reserves : expiry.isSome ↔ status = .PENDING) (live : status ≠ .RETIRED)
    (kept : ∀ h ∈ s.handles, p h = true → h.status ≠ .RETIRED ∧ (status = .PENDING → h.status ≠ .ACTIVE)) :
    Later s (s.updateHandle p f) ∧ Removed s (s.updateHandle p f) := by
  have still {h : Handle} (mem : h ∈ s.handles) (settled : h.status ≠ .PENDING) : (if p h then f h else h) = h := by
    split
    · rename_i yes
      obtain ⟨unretired, active⟩ := kept h mem yes
      have late := keyed.settled h mem settled
      cases is : h.status with
      | PENDING => exact absurd is settled
      | RETIRED => exact absurd is unretired
      | ACTIVE =>
        have now : status = .ACTIVE := by
          cases status with
          | PENDING => exact absurd is (active rfl)
          | ACTIVE => rfl
          | RETIRED => exact absurd rfl live
        have none : expiry = none := by
          cases expiry with
          | none => rfl
          | some at_ => exact absurd ((reserves.1 rfl).symm.trans now) (by decide)
        rw [restates.eq, now, none, ← late, ← is]
    · rfl
  refine ⟨⟨le_refl _, Subset.refl _, fun h mem settled => mem_updateHandle.2 ⟨h, mem, still mem settled⟩,
    fun h' mem retired => ?_, fun h' mem _ => ?_⟩, fun h mem => .inl ⟨_, mem_updateHandle.2 ⟨h, mem, rfl⟩, ?_⟩⟩
  · obtain ⟨h, old, rfl⟩ := mem_updateHandle.1 mem
    split at retired
    · rw [restates.eq] at retired
      exact absurd retired live
    · rename_i no
      rw [if_neg no]
      exact old
  · obtain ⟨h, old, rfl⟩ := mem_updateHandle.1 mem
    refine ⟨h, old, ?_⟩
    split
    · rw [restates.eq]
    · rfl
  · split
    · rw [restates.eq]
      exact ⟨rfl, rfl, rfl⟩
    · exact ⟨rfl, rfl, rfl⟩

end Update

theorem Later.same (later : Later s u) (handles : t.handles = u.handles) (now : t.now = u.now)
    (drawn : t.drawn = u.drawn) : Later s t :=
  ⟨now ▸ later.now, drawn ▸ later.drawn, handles ▸ later.stays, handles ▸ later.retired, handles ▸ later.known⟩

theorem Removed.same (removed : Removed s u) (handles : t.handles = u.handles) : Removed s t := by
  intro h mem
  rw [handles]
  exact removed h mem

theorem statusFor_cases (account : User) : statusFor account = .ACTIVE ∨ statusFor account = .PENDING := by
  unfold statusFor
  split <;> simp

/-- `withProfile`, where every other active handle has its profile already. -/
theorem withProfile_sound (keyed : Keyed u)
    (others : ∀ h ∈ u.handles, h.kind = .USER → h.status = .ACTIVE → status = .ACTIVE ∧ h.userId = some account.id ∨ Shown u h)
    (ok : withProfile c account handleId handle status u = .ok t) :
    Sound t ∧ t.handles = u.handles ∧ t.now = u.now ∧ t.drawn = u.drawn := by
  unfold withProfile at ok
  split at ok
  · obtain ⟨keyed', handles, now, drawn, grown, p, listed, user, -⟩ := ensurePublicProfile_ok keyed ok
    refine ⟨@shown_of_profile _ _ u keyed' ⟨p, listed, user⟩ (fun h mem kind active other => ?_) grown, handles, now, drawn⟩
    rcases others h (handles ▸ mem) kind active with ⟨-, mine⟩ | shown
    · exact absurd mine other
    · exact shown
  · rename_i waiting
    cases ok
    refine ⟨⟨keyed, fun h mem kind active => ?_⟩, rfl, rfl, rfl⟩
    exact (others h mem kind active).resolve_left fun mine => waiting mine.1

theorem renew_keeps (sound : Sound s)
    (careful : owned.status ≠ statusFor account → ∀ h ∈ s.handles, h.userId = some account.id →
      h.status ≠ .RETIRED ∧ (statusFor account = .PENDING → h.status ≠ .ACTIVE))
    (ok : renew c account owned (statusFor account) s d = .ok (a, t)) : Keeps s t := by
  simp only [renew, bind, Except.bind, pure, Except.pure] at ok
  have both := statusFor_cases account
  generalize statusFor account = status at careful ok both
  by_cases same : owned.status = status
  · rw [if_neg (not_not.2 same)] at ok
    split at ok
    · cases ok
    rename_i u shown
    cases ok
    obtain ⟨sound', handles, now, drawn⟩ := withProfile_sound sound.toKeyed
      (fun h mem kind active => .inr (sound.shown h mem kind active)) shown
    exact ⟨sound', (Later.refl s).same handles now drawn, (Removed.refl s).same handles⟩
  · rw [if_pos same] at ok
    split at ok
    · split at ok
      · cases ok
      rename_i v shown
      cases ok
      let f : Handle → Handle := fun h => { h with status := status, reservationExpiresAt := reservationFor status d.date }
      have restates : Restates f status (reservationFor status d.date) := ⟨fun _ => rfl⟩
      have reserves : (reservationFor status d.date).isSome ↔ status = .PENDING := by
        rcases both with rfl | rfl <;> simp [reservationFor]
      have mine {h : Handle} (yes : decide (h.userId = some account.id) = true) : h.userId = some account.id := of_decide_eq_true yes
      have keyed := updateHandle_keyed (p := fun h => h.userId = some account.id) sound.toKeyed restates reserves.1
        fun _ h mem yes => sound.kinds h mem (by simp [mine yes])
      obtain ⟨later, removed⟩ := updateHandle_later (p := fun h => h.userId = some account.id) sound.toKeyed restates reserves
        (by rcases both with rfl | rfl <;> decide) fun h mem yes => careful same h mem (mine yes)
      have settles := withProfile_sound keyed (fun h mem kind active => by
        obtain ⟨h0, old, rfl⟩ := mem_updateHandle.1 mem
        split at active
        · rename_i yes
          refine .inl ⟨active, ?_⟩
          rw [if_pos yes]
          exact mine yes
        · rename_i no
          rw [if_neg no] at kind ⊢
          exact .inr (sound.shown h0 old kind active)) shown
      obtain ⟨sound', handles, now, drawn⟩ := settles
      exact ⟨sound', later.same handles now drawn, removed.same handles⟩
    · cases ok

theorem create_keeps (sound : Sound s) (fresh : "user:" ++ d.uuid ∉ s.drawn)
    (ok : create c account handle s d = .ok (a, t)) : Keeps s t ∧ ∀ h ∈ s.handles, h ∈ t.handles := by
  simp only [create, bind, Except.bind, pure, Except.pure] at ok
  have both := statusFor_cases account
  generalize statusFor account = status at ok both
  split at ok
  · cases ok
  rename_i u inserted
  unfold insertHandle at inserted
  split at inserted
  · cases inserted
  rename_i unique
  cases inserted
  split at ok
  · cases ok
  rename_i v shown
  cases ok
  let row : Handle := ⟨"user:" ++ d.uuid, handle, handle, .USER, status, some account.id, reservationFor status d.date⟩
  have free : ∀ h ∈ s.handles, h.id ≠ row.id ∧ h.normalized ≠ row.normalized ∧ h.userId ≠ row.userId := by
    intro h mem
    refine ⟨?_, ?_, ?_⟩ <;> exact fun same => unique (any_eq_true.2 ⟨h, mem, by simp [same, row]⟩)
  have cases_ {h : Handle} (mem : h ∈ s.handles ++ [row]) : h ∈ s.handles ∨ h = row :=
    (mem_append.1 mem).imp_right mem_singleton.1
  have keyed : Keyed { s with drawn := s.drawn ++ [row.id], handles := s.handles ++ [row] } := by
    refine ⟨nodup_append sound.ids fun h mem => (free h mem).1, nodup_append sound.names fun h mem => (free h mem).2.1,
      fun h mem g mem' some same => ?_, fun h mem some => ?_, fun h mem is => ?_, fun h mem is => ?_, sound.users, sound.bound,
      fun p mem => ?_, fun h mem => ?_⟩
    · rcases cases_ mem with old | rfl <;> rcases cases_ mem' with old' | rfl
      · exact sound.owners h old g old' some same
      · exact absurd same (free h old).2.2
      · exact absurd same.symm (free g old').2.2
      · rfl
    · rcases cases_ mem with old | rfl
      · exact sound.kinds h old some
      · rfl
    · rcases cases_ mem with old | rfl
      · exact sound.pending h old is
      · rfl
    · rcases cases_ mem with old | rfl
      · exact sound.settled h old is
      · exact if_neg is
    · obtain ⟨h, old, bound⟩ := sound.foreign p mem
      exact ⟨h, mem_append_left _ old, bound⟩
    · rcases cases_ mem with old | rfl
      · exact mem_append_left _ (sound.drawn h old)
      · exact mem_append_right _ mem_cons_self
  obtain ⟨sound', handles, now, drawn⟩ := withProfile_sound keyed (fun h mem kind active => by
    rcases cases_ mem with old | rfl
    · exact .inr (sound.shown h old kind active)
    · exact .inl ⟨active, rfl⟩) shown
  have grown : ∀ h ∈ s.handles, h ∈ t.handles := fun h mem => handles ▸ mem_append_left _ mem
  refine ⟨⟨sound', ⟨by rw [now], by rw [drawn]; exact subset_append_left _ _, fun h mem _ => grown h mem,
    fun h mem is => ?_, fun h mem old => ?_⟩, fun h mem => .inl ⟨h, grown h mem, rfl, rfl, rfl⟩⟩, grown⟩
  · rcases cases_ (handles ▸ mem) with stored | rfl
    · exact stored
    · rcases both with active | pending
      · exact absurd (active.symm.trans is) (by decide)
      · exact absurd (pending.symm.trans is) (by decide)
  · rcases cases_ (handles ▸ mem) with stored | rfl
    · exact ⟨h, stored, rfl⟩
    · exact absurd old fresh

theorem replace_keeps (sound : Sound s) (fresh : "user:" ++ d.uuid ∉ s.drawn)
    (careful : ∀ h ∈ s.handles, h.id = row.id → h = row)
    (late : row.kind = .USER ∧ row.status = .PENDING ∧ ∃ expiry ∈ row.reservationExpiresAt, expiry < s.now)
    (ok : replace c account row handle s d = .ok (a, t)) : Keeps s t := by
  unfold replace at ok
  split at ok
  · have released := removeHandles_keeps (p := fun h => h.id = row.id) sound fun h mem same => by
      rw [careful h mem (of_decide_eq_true same)]
      exact late
    obtain ⟨created, grown⟩ := create_keeps released.sound fresh ok
    refine ⟨created.sound, released.later.trans created.later, fun h mem => ?_⟩
    rcases released.removed h mem with ⟨g, stored, same⟩ | gone
    · exact .inl ⟨g, grown g stored, same⟩
    · exact .inr gone
  · cases ok

variable {name : String}

theorem promote_keeps (sound : Sound s)
    (live : ∀ h ∈ s.handles, h.id = current.id → h.status ≠ .RETIRED)
    (ok : promote c userId name current s d = .ok (a, t)) : Keeps s t := by
  simp only [promote, bind, Except.bind, pure, Except.pure] at ok
  split at ok
  swap
  · cases ok
  split at ok
  · cases ok
  rename_i v shown
  cases ok
  let f : Handle → Handle := fun h => { h with status := .ACTIVE, reservationExpiresAt := none }
  have restates : Restates f .ACTIVE none := ⟨fun _ => rfl⟩
  have keyed := updateHandle_keyed (p := fun h => h.id = current.id) sound.toKeyed restates nofun nofun
  obtain ⟨later, removed⟩ := updateHandle_later (p := fun h => h.id = current.id) sound.toKeyed restates (by simp) (by decide)
    fun h mem yes => ⟨live h mem (of_decide_eq_true yes), nofun⟩
  obtain ⟨keyed', handles, now, drawn, grown, p, listed, user, bound⟩ := ensurePublicProfile_ok keyed shown
  refine ⟨shown_of_profile keyed' ⟨p, listed, user⟩ (fun h mem kind active other => ?_) grown, later.same handles now drawn,
    removed.same handles⟩
  obtain ⟨g, stored, id, owner⟩ := keyed'.foreign p listed
  obtain ⟨h0, old, rfl⟩ := mem_updateHandle.1 (handles ▸ mem)
  by_cases here : h0.id = current.id
  · rw [if_pos (decide_eq_true here)] at mem other
    have same : f h0 = g := keyed'.eq_of_id mem stored (here.trans (bound.symm.trans id.symm))
    exact absurd (by rw [same, owner, user]) other
  · rw [if_neg (by simpa using here)] at kind active ⊢
    exact sound.shown h0 old kind active

theorem ensurePublicProfile_handles (ok : ensurePublicProfile userId handleId displayName s = .ok t) :
    t.handles = s.handles := by
  unfold ensurePublicProfile insertProfile at ok
  grind

theorem withProfile_handles (ok : withProfile c account handleId handle status s = .ok t) : t.handles = s.handles := by
  unfold withProfile at ok
  split at ok
  · exact ensurePublicProfile_handles ok
  · cases ok
    rfl

theorem updateHandle_spares {p : Handle → Bool} {f : Handle → Handle}
    (same : t.handles = (s.updateHandle p f).handles) (keeps : ∀ h, (f h).id = h.id) : ∀ h ∈ s.handles, ∃ g ∈ t.handles, g.id = h.id := by
  intro h mem
  refine ⟨if p h then f h else h, same ▸ mem_updateHandle.2 ⟨h, mem, rfl⟩, ?_⟩
  split
  · exact keeps h
  · rfl

theorem renew_spares (ok : renew c account owned status s d = .ok (a, t)) :
    ∀ h ∈ s.handles, ∃ g ∈ t.handles, g.id = h.id := by
  simp only [renew, bind, Except.bind, pure, Except.pure] at ok
  split at ok
  · split at ok
    · split at ok
      · cases ok
      rename_i u shown
      cases ok
      exact updateHandle_spares (withProfile_handles shown) fun _ => rfl
    · cases ok
  · split at ok
    · cases ok
    rename_i u shown
    cases ok
    exact fun h mem => ⟨h, withProfile_handles shown ▸ mem, rfl⟩

theorem create_grows (ok : create c account handle s d = .ok (a, t)) : ∀ h ∈ s.handles, h ∈ t.handles := by
  simp only [create, bind, Except.bind, pure, Except.pure, insertHandle] at ok
  intro h mem
  split at ok
  · cases ok
  rename_i u inserted
  split at inserted
  · cases inserted
  cases inserted
  split at ok
  · cases ok
  rename_i v shown
  cases ok
  rw [withProfile_handles shown]
  exact mem_append_left _ mem

theorem replace_spares (ok : replace c account row handle s d = .ok (a, t)) :
    ∀ h ∈ s.handles, (∃ g ∈ t.handles, g.id = h.id) ∨ h.id = row.id := by
  unfold replace at ok
  intro h mem
  split at ok
  · by_cases here : h.id = row.id
    · exact .inr here
    · exact .inl ⟨h, create_grows ok h (mem_removeHandles.2 ⟨mem, decide_eq_false here⟩), rfl⟩
  · cases ok

theorem promote_spares (ok : promote c userId name current s d = .ok (a, t)) :
    ∀ h ∈ s.handles, ∃ g ∈ t.handles, g.id = h.id := by
  simp only [promote, bind, Except.bind, pure, Except.pure] at ok
  split at ok
  swap
  · cases ok
  split at ok
  · cases ok
  rename_i v shown
  cases ok
  exact updateHandle_spares (ensurePublicProfile_handles shown) fun _ => rfl

end Vimla.Handles
