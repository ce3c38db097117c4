import Vimla.DirectChats.Leases

/-!
# Fencing

Who passes the assertion, from the record in the table or from one that was read
before; what becomes of a lease that was overtaken or released, and how long one
lasts.
-/

namespace Vimla.DirectChats

open Option World Function Nat

namespace World

/-- The call with the lease's owner id was given the lease. -/
def leased (s : World) (l : CoordinationLease) : Prop :=
  ∃ call, s.calls l.owner = some call ∧ call.key = l.key ∧ call.fence? = some l.fence

/-- The record of the key is that of the lease. -/
def named (s : World) (l : CoordinationLease) : Prop :=
  ∃ r, s.locks l.key = some (.record r) ∧ r.owner = l.owner ∧ r.fenceNumber = l.fence

/-- The assertion holds now: of the record in the table, or of the one that the holder has read. -/
def Passes (s : World) (l : CoordinationLease) : Prop :=
  assertActiveCoordinationLease (s.locks l.key) l s.clock = true ∨
  ∃ call raw, s.calls l.owner = some call ∧ call.key = l.key ∧ call.fence? = some l.fence ∧ call.seen = some raw ∧
    assertActiveCoordinationLease raw l s.clock = true

def Acquires (s : World) (e : Event) (l : CoordinationLease) : Prop :=
  e = .acquire l.owner ∧ ¬ s.leased l ∧ (s.step e).leased l

def Releases (s : World) (e : Event) (l : CoordinationLease) : Prop :=
  e = .release l.owner ∧ ∃ call, (s.step e).calls l.owner = some call ∧ call.key = l.key ∧ call.phase = .released l.fence

/-- The lease neither passes nor changes the table. -/
structure Shut (s : World) (l : CoordinationLease) : Prop where
  passes : ¬ s.Passes l
  renews : ∀ now, 0 ≤ now → ∀ u next, renewRatchetLease (s.locks l.key) l.owner l.fence now ≠ .changed u next
  releases : releaseRatchetLease (s.locks l.key) l.owner l.fence = s.locks l.key

structure Fenced (s : World) : Prop where
  exclusive : ∀ l l', l.key = l'.key → s.Passes l → s.Passes l' → l = l'
  increasing : ∀ e l l', s.Acquires e l → s.leased l' ∨ s.named l' → l'.key = l.key → l'.fence < l.fence
  overtaken : ∀ e l l', s.Acquires e l → s.leased l' ∨ s.named l' → l'.key = l.key →
    ∀ later : List Event, (later.foldl step (s.step e)).Shut l'
  retired : ∀ e l, s.Releases e l → ∀ later : List Event, (later.foldl step (s.step e)).Shut l
  bounded : ∀ e l call, s.Acquires e l → s.calls l.owner = some call →
    ∀ later : List Event, (later.foldl step (s.step e)).Passes l →
      (later.foldl step (s.step e)).clock < s.clock + call.maxHoldMs

end World

variable {s : World} {l l' : CoordinationLease}

/-- Who passes is named by the record, which has not expired. -/
theorem Inv.passes (inv : Inv s) (passes : s.Passes l) :
    ∃ r, s.locks l.key = some (.record r) ∧ leaseRecord? (.record r) = some r ∧ r.owner = l.owner ∧
      r.fenceNumber = l.fence ∧ s.clock < r.expiresAt := by
  obtain now | ⟨call, raw, found, key, held, read, before⟩ := passes
  · obtain ⟨r, stored, valid, owned, number, live, _⟩ := assertActive_record now
    exact ⟨r, stored, valid, owned, number, live⟩
  · obtain ⟨r, rfl, valid, owned, number, live, _⟩ := assertActive_record before
    obtain ⟨r', stored, owned', fresher, same⟩ := (inv.ready _ call found).seen r read owned live
    have valid' : leaseRecord? (.record r') = some r' := by
      rw [leaseRecord?_record] at valid ⊢
      simp only [ite_none_right_eq_some, and_true] at valid ⊢
      rwa [owned', ← same, ← owned]
    exact ⟨r', key ▸ stored, valid', owned', by omega, by omega⟩

theorem Inv.exclusive (inv : Inv s) (key : l.key = l'.key) (first : s.Passes l) (second : s.Passes l') : l = l' := by
  obtain ⟨r, stored, _, owned, number, _⟩ := inv.passes first
  obtain ⟨r', stored', _, owned', number', _⟩ := inv.passes second
  cases l
  simp_all

/-- The record's fence bounds the fences that were handed out. -/
theorem Inv.bounds (inv : Inv s) (known : s.leased l ∨ s.named l) :
    ∃ r, s.locks l.key = some (.record r) ∧ l.fence ≤ r.fenceNumber := by
  obtain ⟨call, found, key, held⟩ | ⟨r, stored, _, number⟩ := known
  · obtain ⟨r, stored, overtaken | own⟩ := (inv.ready _ call found).standing _ held
    · exact ⟨r, key ▸ stored, le_of_lt overtaken⟩
    · exact ⟨r, key ▸ stored, le_of_eq (by rw [RatchetLeaseRecord.fenceNumber, own.fenced]; rfl)⟩
  · exact ⟨r, stored, le_of_eq number.symm⟩

variable {e : Event}

/-- What an acquisition finds and leaves. -/
theorem World.Acquires.granted (inv : Inv s) (acquires : s.Acquires e l) :
    ∃ call now next, s.calls l.owner = some call ∧ call.key = l.key ∧ call.phase = .acquiring now ∧ now ≤ s.clock ∧
      tryAcquireRatchetLease (s.locks l.key) l.owner now call.maxHoldMs = .changed l.fence next ∧
      s.step e = (s.setLock l.key (some next)).setCall l.owner { call with phase := .holding l.fence } ∧
      ∀ r, s.locks l.key = some (.record r) → r.owner ≠ l.owner := by
  obtain ⟨rfl, before, call', found', key', held'⟩ := acquires
  cases found : s.calls l.owner with
  | none => simp [step, found] at found'
  | some call =>
    have acts : s.step (.acquire l.owner) = s.act l.owner call (.acquire l.owner) := by simp [step, found]
    obtain same | change := s.act_change l.owner call (.acquire l.owner)
    · rw [acts, same] at found'
      exact absurd ⟨call', found', key', held'⟩ before
    rw [acts] at found' ⊢
    cases phase : call.phase with
    | acquiring now =>
      have fresh : ∀ key r, s.locks key = some (.record r) → r.owner ≠ l.owner := fun _ _ =>
        inv.fresh found (by simp [Call.fence?, phase])
      have past := (inv.ready _ call found).asked now phase
      simp only [act, phase] at found' ⊢
      cases answer : tryAcquireRatchetLease (s.locks call.key) l.owner now call.maxHoldMs with
      | changed fence next =>
        simp only [answer, setCall_self, some.injEq] at found'
        subst found'
        obtain rfl : fence = l.fence := by simpa [Call.fence?] using held'
        exact ⟨call, now, next, rfl, key', phase, past, key' ▸ answer, by rw [key'], fresh l.key⟩
      | _ =>
        simp only [answer, setCall_self, some.injEq] at found'
        subst found'
        simp [Call.fence?] at held'
    | _ =>
      simp only [act, phase] at found'
      exact absurd ⟨call', found', key', held'⟩ before

theorem Inv.increasing (inv : Inv s) (acquires : s.Acquires e l) (known : s.leased l' ∨ s.named l')
    (key : l'.key = l.key) : l'.fence < l.fence := by
  obtain ⟨call, now, next, _, _, _, _, granted, _, fresh⟩ := acquires.granted inv
  obtain ⟨r, stored, below⟩ := inv.bounds known
  have := ((tryAcquireRatchetLease_changed granted fresh).1 r (key ▸ stored)).2
  omega

/-- Another fence is in the table, or the call has released its own. -/
def Ended (s : World) (l : CoordinationLease) : Prop :=
  (∃ r, s.locks l.key = some (.record r) ∧ l.fence < r.fenceNumber) ∨
  ∃ call, s.calls l.owner = some call ∧ call.key = l.key ∧ call.phase = .released l.fence

theorem Inv.shut (inv : Inv s) (ended : Ended s l) : s.Shut l := by
  have spent : ∃ r, s.locks l.key = some (.record r) ∧ (l.fence < r.fenceNumber ∨ r.owner = l.owner ∧ Spent l.fence r) := by
    obtain ⟨r, stored, overtaken⟩ | ⟨call, found, key, released⟩ := ended
    · exact ⟨r, stored, .inl overtaken⟩
    · obtain ⟨r, stored, standing⟩ := (inv.ready _ call found).standing l.fence (by simp [Call.fence?, released])
      exact ⟨r, key ▸ stored, standing.imp id fun own => ⟨own.owned, own.late released⟩⟩
  obtain ⟨r, stored, spent⟩ := spent
  constructor
  · intro passes
    obtain ⟨r', stored', valid, owned, number, live⟩ := inv.passes passes
    obtain rfl : r = r' := by simpa [stored] using stored'
    have clock := inv.clock
    obtain overtaken | ⟨_, spent⟩ := spent
    · omega
    · have := spent.expired valid
      omega
  · intro now positive u next renewed
    obtain ⟨r', stored', valid, owned, number, live, _⟩ := renewRatchetLease_changed renewed
    obtain rfl : r = r' := by simpa [stored] using stored'
    obtain overtaken | ⟨_, spent⟩ := spent
    · omega
    · have := spent.expired valid
      omega
  · obtain ⟨same, _⟩ | ⟨r', stored', owned, number, next⟩ := releaseRatchetLease_cases (s.locks l.key) l.owner l.fence
    · exact same
    · obtain rfl : r = r' := by simpa [stored] using stored'
      obtain overtaken | ⟨_, invalid | blank⟩ := spent
      · omega
      · simp [stored, releaseRatchetLease, invalid]
      · rw [next, stored, blank, owned]

variable {call : Call} {owner : String}

theorem Inv.grows (inv : Inv s) (found : s.calls owner = some call) {t : World}
    (change : Change s owner call t) :
    t.locks = s.locks ∨ ∃ next, t.locks = update s.locks call.key (some (.record next)) ∧ next.owner = owner ∧
      ∀ r, s.locks call.key = some (.record r) → r.fenceNumber ≤ next.fenceNumber := by
  cases change with
  | acquired now fence next asked granted =>
    obtain ⟨free, rfl⟩ := tryAcquireRatchetLease_changed granted fun r stored =>
      inv.fresh found (by simp [Call.fence?, asked]) stored
    exact .inr ⟨_, rfl, rfl, fun r stored => le_of_lt (free r stored).2⟩
  | renewed fence now u next held pending granted =>
    obtain ⟨r, stored, valid, owned, number, live, rfl⟩ := renewRatchetLease_changed granted
    refine .inr ⟨_, rfl, rfl, fun r' stored' => ?_⟩
    obtain rfl : r = r' := by simpa [stored] using stored'
    exact le_of_eq number
  | released fence held judged =>
    obtain ⟨same, _⟩ | ⟨r, stored, owned, number, next⟩ := releaseRatchetLease_cases (s.locks call.key) owner fence
    · left
      rw [same]
      exact update_eq_self ..
    · rw [next]
      refine .inr ⟨_, rfl, rfl, fun r' stored' => ?_⟩
      obtain rfl : r = r' := by simpa [stored] using stored'
      exact le_of_eq number
  | _ => exact .inl rfl

theorem World.Change.other {t : World} (change : Change s owner call t) {o : String}
    (h : o ≠ owner) : t.calls o = s.calls o := by
  cases change <;> exact setCall_other _ _ h

theorem Ended.step (inv : Inv s) (ended : Ended s l) (e : Event) : Ended (s.step e) l := by
  obtain same | ⟨ms, next⟩ | ⟨owner, call, _, found, change⟩ := s.step_change e
  · rwa [same]
  · rw [next]
    exact ended
  · generalize s.step e = t at change
    obtain ⟨r, stored, overtaken⟩ | ⟨call', found', key, released⟩ := ended
    · left
      obtain same | ⟨next, locks, _, above⟩ := inv.grows found change
      · exact ⟨r, by rw [same, stored], overtaken⟩
      · rw [locks]
        by_cases at_key : l.key = call.key
        · rw [at_key, update_self]
          exact ⟨next, rfl, lt_of_lt_of_le overtaken (above r (at_key ▸ stored))⟩
        · rw [update_of_ne at_key]
          exact ⟨r, stored, overtaken⟩
    · right
      by_cases same : l.owner = owner
      · subst same
        obtain rfl : call' = call := by simpa [found'] using found
        cases change with
        | renewed | lapsed | judge => exact ⟨_, setCall_self .., key, released⟩
        | phase p before => simp [Call.fence?, released] at before
        | acquired now fence next asked => simp [released] at asked
        | beat fence held | look fence held | released fence held => simp [released] at held
      · exact ⟨call', by rw [change.other same, found'], key, released⟩

theorem Ended.run (inv : Inv s) (ended : Ended s l) (later : List Event) : (later.foldl World.step s).Shut l := by
  have both := Runs.invariant (P := fun s => Inv s ∧ Ended s l)
    (fun _ e both => ⟨both.1.step e, both.2.step both.1 e⟩) later ⟨inv, ended⟩
  exact both.1.shut both.2

theorem Inv.overtaken (inv : Inv s) (acquires : s.Acquires e l) (known : s.leased l' ∨ s.named l')
    (key : l'.key = l.key) : Ended (s.step e) l' := by
  have below := inv.increasing acquires known key
  obtain ⟨call, now, next, _, _, _, _, granted, after, fresh⟩ := acquires.granted inv
  obtain ⟨_, rfl⟩ := tryAcquireRatchetLease_changed granted fresh
  left
  rw [after, key, setCall_locks, setLock_self]
  exact ⟨_, rfl, below⟩

/-- The hard limit of a lease in the table and in what its call has read. -/
def Limited (bound : Int) (s : World) (l : CoordinationLease) : Prop :=
  ∃ call, s.calls l.owner = some call ∧ call.key = l.key ∧ call.fence? = some l.fence ∧
    ∀ r, s.locks l.key = some (.record r) ∨ call.seen = some (some (.record r)) → r.owner = l.owner →
      (∃ hard, r.hardExpiresAt = some hard ∧ hard ≤ bound) ∨ r.expiresAt ≤ 0

theorem Limited.passes {bound : Int} (inv : Inv s) (limited : Limited bound s l) (passes : s.Passes l) : s.clock < bound := by
  have clock := inv.clock
  obtain ⟨call, found, key, held, limit⟩ := limited
  obtain ⟨r, stored, owned, live, hard⟩ : ∃ r, (s.locks l.key = some (.record r) ∨ call.seen = some (some (.record r))) ∧
      r.owner = l.owner ∧ s.clock < r.expiresAt ∧ ∀ hard, r.hardExpiresAt = some hard → s.clock < hard := by
    obtain now | ⟨call', raw, found', _, _, read, before⟩ := passes
    · obtain ⟨r, stored, _, owned, _, live, hard⟩ := assertActive_record now
      exact ⟨r, .inl stored, owned, live, hard⟩
    · obtain ⟨r, rfl, _, owned, _, live, hard⟩ := assertActive_record before
      obtain rfl : call' = call := by simpa [found'] using found
      exact ⟨r, .inr read, owned, live, hard⟩
  obtain ⟨h, same, below⟩ | spent := limit r stored owned
  · have := hard h same
    omega
  · omega

theorem Limited.step {bound : Int} (inv : Inv s) (limited : Limited bound s l) (e : Event) : Limited bound (s.step e) l := by
  obtain same | ⟨ms, next⟩ | ⟨owner, call, _, found, change⟩ := s.step_change e
  · rwa [same]
  · rw [next]
    exact limited
  · generalize s.step e = t at change
    obtain ⟨call', found', key, held, limit⟩ := limited
    by_cases same : l.owner = owner
    · subst same
      obtain rfl : call' = call := by simpa [found'] using found
      cases change with
      | phase p before => simp [held] at before
      | acquired now fence next asked => simp [Call.fence?, asked] at held
      | beat | lapsed => exact ⟨_, setCall_self .., key, held, limit⟩
      | judge =>
        refine ⟨_, setCall_self .., key, held, fun r stored => limit r (.inl ?_)⟩
        simpa using stored
      | look =>
        refine ⟨_, setCall_self .., key, held, fun r stored => limit r (.inl ?_)⟩
        simpa [key] using stored
      | renewed fence now u next held' pending granted =>
        obtain ⟨r, stored, _, owned, _, live, rfl⟩ := renewRatchetLease_changed granted
        have past := ((inv.ready _ _ found').beat now pending).1
        refine ⟨_, setCall_self .., key, held, fun r' either own => ?_⟩
        obtain stored' | read := either
        · rw [← key, setCall_locks, setLock_self, some.injEq, StoredLock.record.injEq] at stored'
          subst stored'
          obtain ⟨h, same, below⟩ | spent := limit r (.inl (key ▸ stored)) owned
          · exact .inl ⟨h, by rw [same]; rfl, below⟩
          · omega
        · exact limit r' (.inr read) own
      | released fence held' judged =>
        refine ⟨_, setCall_self .., key, by simpa [Call.fence?, held'] using held, fun r' either own => ?_⟩
        obtain stored' | read := either
        · rw [← key, setCall_locks, setLock_self] at stored'
          obtain ⟨same, _⟩ | ⟨r, stored, _, _, next⟩ := releaseRatchetLease_cases (s.locks call'.key) l.owner fence
          · exact limit r' (.inl (by rw [← key, ← same, stored'])) own
          · rw [next, some.injEq, StoredLock.record.injEq] at stored'
            subst stored'
            exact .inr (Int.le_refl 0)
        · exact limit r' (.inr read) own
    · refine ⟨call', by rw [change.other same, found'], key, held, fun r' either own => limit r' ?_ own⟩
      obtain stored' | read := either
      · left
        obtain unchanged | ⟨next, locks, owned, _⟩ := inv.grows found change
        · rwa [← unchanged]
        · rw [locks] at stored'
          by_cases at_key : l.key = call.key
          · rw [at_key, update_self, some.injEq, StoredLock.record.injEq] at stored'
            subst stored'
            exact absurd (own.symm.trans owned) same
          · rwa [update_of_ne at_key] at stored'
      · exact .inr read

theorem Inv.limited (inv : Inv s) (acquires : s.Acquires e l) (found : s.calls l.owner = some call) :
    Limited (s.clock + call.maxHoldMs) (s.step e) l := by
  obtain ⟨call', now, next, found', key, phase, past, granted, after, fresh⟩ := acquires.granted inv
  obtain rfl : call' = call := by simpa [found'] using found
  obtain ⟨_, rfl⟩ := tryAcquireRatchetLease_changed granted fresh
  have unread : call'.seen = none := by
    by_contra read
    obtain ⟨f, held⟩ := (inv.ready _ _ found').holds read
    simp [phase] at held
  rw [after]
  refine ⟨_, setCall_self .., key, rfl, fun r either _ => ?_⟩
  obtain stored | read := either
  · rw [setCall_locks, setLock_self, some.injEq, StoredLock.record.injEq] at stored
    subst stored
    exact .inl ⟨_, rfl, by omega⟩
  · simp [unread] at read

theorem Inv.fenced (inv : Inv s) : s.Fenced where
  exclusive l l' key first second := inv.exclusive key first second
  increasing e l l' acquires known key := inv.increasing acquires known key
  overtaken e l l' acquires known key later := (inv.overtaken acquires known key).run (inv.step e) later
  retired e l releases later := by
    obtain ⟨_, call, found, key, released⟩ := releases
    exact Ended.run (inv.step e) (.inr ⟨call, found, key, released⟩) later
  bounded e l call acquires found later passes := by
    have both := Runs.invariant (P := fun t => Inv t ∧ Limited (s.clock + call.maxHoldMs) t l)
      (fun _ e both => ⟨both.1.step e, both.2.step both.1 e⟩) later ⟨inv.step e, inv.limited acquires found⟩
    exact both.2.passes both.1 passes

theorem Inv.start {clock : Int} {locks : String → Option StoredLock} {calls : String → Option (String × Int)}
    (positive : 0 ≤ clock) (fresh : ∀ key r, locks key = some (.record r) → calls r.owner = none) :
    Inv (start clock locks calls) where
  clock := positive
  named key r stored call found := by simp [World.start, fresh key r stored] at found
  ready owner call found := by
    obtain ⟨c, _, rfl⟩ := map_eq_some_iff.1 found
    exact ⟨by simp, by simp, by simp [Call.fence?], fun _ => rfl, by simp, by simp⟩

/-- Whatever the table holds at first, and in whatever order the calls go on. -/
theorem lease_fenced (clock : Int) (locks : String → Option StoredLock) (calls : String → Option (String × Int))
    (positive : 0 ≤ clock) (fresh : ∀ key r, locks key = some (.record r) → calls r.owner = none)
    (events : List Event) : (events.foldl step (start clock locks calls)).Fenced :=
  ((Inv.start positive fresh).run events).fenced

/-- The record of a tab that knew no fences, which expires at 7. -/
def legacy : String → Option StoredLock := fun key =>
  if key = "session" then some (.record { owner := "old", expiresAt := 7 }) else none

def tabs : String → Option (String × Int) := fun owner =>
  if owner = "a" ∨ owner = "b" then some ("session", 60000) else none

def takeover : List Event :=
  [.ask "a", .acquire "a", .tick 7, .ask "a", .acquire "a", .beat "a", .tick 5000, .ask "b", .acquire "b", .renew "a",
    .release "a"]

theorem lease_fenced_takeover : (takeover.foldl step (start 0 legacy tabs)).Fenced := by
  refine lease_fenced 0 legacy tabs (by decide) ?_ takeover
  intro key r stored
  by_cases session : key = "session"
  · simp only [legacy, if_pos session, some.injEq, StoredLock.record.injEq] at stored
    subst stored
    rfl
  · simp [legacy, session] at stored

end Vimla.DirectChats
