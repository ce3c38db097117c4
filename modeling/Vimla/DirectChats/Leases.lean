import Vimla.DirectChats.Coordination

/-!
# One holder at a time

The fence of the record in the table bounds every fence that was handed out, and
reaches it only for the record's own owner. What an owner has read and not judged
yet is no fresher than its record, or has expired.
-/

namespace Vimla.DirectChats

open Option World Function Int

variable {r : RatchetLeaseRecord}

section
variable {raw : Option StoredLock} {owner : String} {fence : Nat} {now maxHoldMs : Int}

theorem leaseRecord?_some {raw : StoredLock} (found : leaseRecord? raw = some r) :
    raw = .record r := by
  cases raw with
  | record r' =>
    simp only [leaseRecord?, ite_none_right_eq_some, some.injEq] at found
    rw [found.2]
  | other => simp [leaseRecord?] at found

theorem leaseRecord?_record (r : RatchetLeaseRecord) :
    leaseRecord? (.record r) = if r.owner ≠ "" ∧ r.fenceNumber ≤ MAX_SAFE_INTEGER then some r else none := by
  have same : (r.fence.all (· ≤ MAX_SAFE_INTEGER)) = true ↔ r.fenceNumber ≤ MAX_SAFE_INTEGER := by
    obtain ⟨_, _, _ | fence, _⟩ := r <;> simp [RatchetLeaseRecord.fenceNumber]
  simp [leaseRecord?, same]

theorem currentLease_valid (found : currentLease raw = some (some r)) :
    leaseRecord? (.record r) = some r := by
  obtain ⟨raw, rfl, valid⟩ : ∃ value, raw = some value ∧ leaseRecord? value = some r := by
    cases raw with
    | none => simp [currentLease] at found
    | some value => exact ⟨value, rfl, by simpa [currentLease] using found⟩
  rwa [leaseRecord?_some valid] at valid

theorem currentLease_some {current : Option RatchetLeaseRecord} (found : currentLease raw = some current) :
    raw = current.map .record := by
  cases raw with
  | none =>
    obtain rfl : none = current := by simpa [currentLease] using found
    rfl
  | some raw =>
    obtain ⟨r, valid, rfl⟩ := map_eq_some_iff.1 found
    rw [leaseRecord?_some valid]
    rfl

variable {next : StoredLock}

/-- A lease that somebody else may have held before. -/
theorem tryAcquireRatchetLease_changed
    (granted : tryAcquireRatchetLease raw owner now maxHoldMs = .changed fence next)
    (fresh : ∀ r, raw = some (.record r) → r.owner ≠ owner) :
    (∀ r, raw = some (.record r) → r.expiresAt ≤ now ∧ r.fenceNumber < fence) ∧ next = .record {
        owner, fence := some fence, hardExpiresAt := some (now + maxHoldMs),
        expiresAt := min (now + RATCHET_LOCK_LEASE_MS) (now + maxHoldMs) } := by
  unfold tryAcquireRatchetLease at granted
  cases found : currentLease raw with
  | none => simp [found] at granted
  | some current =>
    obtain rfl := currentLease_some found
    have other : ownRecord current owner = none := by
      obtain _ | r := current
      · rfl
      · simpa [ownRecord] using fresh r rfl
    simp only [found, acquireRatchetLeaseRecord, other, isSome_none, bind_none] at granted
    by_cases refused : RATCHET_LOCK_LEASE_MS ≤ 0 ∨ maxHoldMs < RATCHET_LOCK_LEASE_MS ∨
        ¬ canAcquireRatchetLease current owner now
    · rw [if_pos refused] at granted
      simp at granted
    · simp only [if_neg refused, Answer.changed.injEq] at granted
      obtain ⟨rfl, rfl⟩ := granted
      refine ⟨?_, rfl⟩
      rintro r same
      obtain rfl : current = some r := by
        obtain _ | r' := current
        · simp at same
        · simpa using same
      have free := (not_or.1 (not_or.1 refused).2).2
      simp [canAcquireRatchetLease, fresh r rfl] at free
      simp [free]

theorem renewRatchetLease_changed {u : Unit}
    (renewed : renewRatchetLease raw owner fence now = .changed u next) :
    ∃ r, raw = some (.record r) ∧ leaseRecord? (.record r) = some r ∧ r.owner = owner ∧ r.fenceNumber = fence ∧
      now < r.expiresAt ∧ next = .record {
        owner, fence := some fence, hardExpiresAt := some (r.hardExpiresAt.getD r.expiresAt),
        expiresAt := min (now + RATCHET_LOCK_LEASE_MS) (r.hardExpiresAt.getD r.expiresAt) } := by
  unfold renewRatchetLease at renewed
  cases found : currentLease raw with
  | none => simp [found] at renewed
  | some current =>
    simp only [found, renewRatchetLeaseRecord] at renewed
    obtain _ | r := current
    · simp at renewed
    have valid := currentLease_valid found
    obtain rfl := currentLease_some found
    by_cases stale : r.owner ≠ owner ∨ r.fenceNumber ≠ fence ∨ r.expiresAt ≤ now
    · simp [stale] at renewed
    by_cases hard : r.hardExpiresAt.getD r.expiresAt ≤ now
    · simp [hard] at renewed
    simp only [if_neg stale, if_neg hard, Answer.changed.injEq, true_and] at renewed
    simp only [not_or, not_not] at stale
    exact ⟨r, rfl, valid, stale.1, stale.2.1, by omega, renewed.symm⟩

theorem releaseRatchetLease_cases (raw : Option StoredLock) (owner : String) (fence : Nat) :
    (releaseRatchetLease raw owner fence = raw ∧
      ∀ r, raw = some (.record r) → leaseRecord? (.record r) = none ∨ r.owner ≠ owner ∨ r.fenceNumber ≠ fence) ∨
    ∃ r, raw = some (.record r) ∧ r.owner = owner ∧ r.fenceNumber = fence ∧
      releaseRatchetLease raw owner fence = some (.record { owner, fence := some fence, expiresAt := 0 }) := by
  unfold releaseRatchetLease
  cases found : raw.bind leaseRecord? with
  | none =>
    refine .inl ⟨rfl, ?_⟩
    rintro r rfl
    exact .inl found
  | some r =>
    obtain ⟨raw', rfl, valid⟩ := bind_eq_some_iff.1 found
    obtain rfl := leaseRecord?_some valid
    by_cases own : r.owner = owner ∧ r.fenceNumber = fence
    · exact .inr ⟨r, rfl, own.1, own.2, by simp [own]⟩
    · refine .inl ⟨by simp [own], ?_⟩
      intro r' same
      obtain rfl : r = r' := by simpa using same
      exact .inr (Decidable.not_and_iff_or_not.1 own)

theorem assertActive_record {lease : CoordinationLease}
    (passes : assertActiveCoordinationLease raw lease now = true) :
    ∃ r, raw = some (.record r) ∧ leaseRecord? (.record r) = some r ∧ r.owner = lease.owner ∧
      r.fenceNumber = lease.fence ∧ now < r.expiresAt ∧ ∀ hard, r.hardExpiresAt = some hard → now < hard := by
  unfold assertActiveCoordinationLease at passes
  cases found : raw.bind leaseRecord? with
  | none => simp [found] at passes
  | some r =>
    obtain ⟨raw', rfl, valid⟩ := bind_eq_some_iff.1 found
    obtain rfl := leaseRecord?_some valid
    simp only [found, decide_eq_true_eq] at passes
    obtain ⟨owner, fence, expires, hard⟩ := passes
    refine ⟨r, rfl, valid, owner, fence, by omega, ?_⟩
    rintro h same
    simpa [same] using hard

end

namespace World

/-- The changes that a call makes, whatever event they belong to. -/
inductive Change (s : World) (owner : String) (call : Call) : World → Prop
  | phase (p : Phase) (before : call.fence? = none) (after : p = .acquiring s.clock ∨ p = .waiting ∨ p = .failed) :
    Change s owner call (s.setCall owner { call with phase := p })
  | acquired (now : Int) (fence : Nat) (next : StoredLock) (asked : call.phase = .acquiring now)
      (granted : tryAcquireRatchetLease (s.locks call.key) owner now call.maxHoldMs = .changed fence next) :
    Change s owner call ((s.setLock call.key (some next)).setCall owner { call with phase := .holding fence })
  | beat (fence : Nat) (held : call.phase = .holding fence) :
    Change s owner call (s.setCall owner { call with renewing := some s.clock })
  | renewed (fence : Nat) (now : Int) (u : Unit) (next : StoredLock) (held : call.fence? = some fence)
      (pending : call.renewing = some now)
      (granted : renewRatchetLease (s.locks call.key) owner fence now = .changed u next) :
    Change s owner call ((s.setLock call.key (some next)).setCall owner { call with renewing := none })
  | lapsed (fence : Nat) (held : call.fence? = some fence) :
    Change s owner call (s.setCall owner { call with renewing := none, lost := true })
  | look (fence : Nat) (held : call.phase = .holding fence) :
    Change s owner call (s.setCall owner { call with seen := some (s.locks call.key) })
  | judge : Change s owner call (s.setCall owner { call with seen := none })
  | released (fence : Nat) (held : call.phase = .holding fence) (judged : call.seen = none) :
    Change s owner call
      ((s.setLock call.key (releaseRatchetLease (s.locks call.key) owner fence)).setCall owner
        { call with phase := .released fence })

theorem act_change (s : World) (owner : String) (call : Call) (e : Event) :
    s.act owner call e = s ∨ Change s owner call (s.act owner call e) := by
  cases e with
  | tick => exact .inl rfl
  | ask =>
    simp only [act]
    split
    next waiting => exact .inr (.phase _ (by simp [Call.fence?, waiting]) (.inl rfl))
    · exact .inl rfl
  | acquire =>
    simp only [act]
    split
    next now asked =>
      have before : call.fence? = none := by simp [Call.fence?, asked]
      split
      · exact .inr (.phase _ before (by simp))
      · exact .inr (.phase _ before (by simp))
      next fence next granted => exact .inr (.acquired now fence next asked granted)
    · exact .inl rfl
  | beat =>
    simp only [act]
    split
    next fence held _ _ => exact .inr (.beat fence held)
    · exact .inl rfl
  | renew =>
    simp only [act]
    split
    next fence now held pending =>
      split
      next u next granted => exact .inr (.renewed fence now u next held pending granted)
      · exact .inr (.lapsed fence held)
    · exact .inl rfl
  | look =>
    simp only [act]
    split
    next fence held _ => exact .inr (.look fence held)
    · exact .inl rfl
  | judge => exact .inr .judge
  | release =>
    simp only [act]
    split
    next fence held judged => exact .inr (.released fence held judged)
    · exact .inl rfl

theorem step_change (s : World) (e : Event) :
    s.step e = s ∨ (∃ ms : Nat, s.step e = { s with clock := s.clock + ms }) ∨
    ∃ owner call, e.owner? = some owner ∧ s.calls owner = some call ∧ Change s owner call (s.step e) := by
  cases e with
  | tick ms => exact .inr (.inl ⟨ms, rfl⟩)
  | _ owner =>
    unfold step
    dsimp only
    split
    · exact .inl rfl
    next call found =>
      obtain same | change := act_change s owner call _
      · exact .inl same
      · exact .inr (.inr ⟨owner, call, rfl, found, change⟩)

@[simp] theorem setCall_clock (s : World) (o : String) (c : Call) : (s.setCall o c).clock = s.clock := rfl
@[simp] theorem setCall_locks (s : World) (o : String) (c : Call) : (s.setCall o c).locks = s.locks := rfl
@[simp] theorem setLock_clock (s : World) (k : String) (raw : Option StoredLock) : (s.setLock k raw).clock = s.clock := rfl

@[simp] theorem setCall_self (s : World) (o : String) (c : Call) : (s.setCall o c).calls o = some c :=
  update_self ..

theorem setCall_other (s : World) {o o' : String} (c : Call) (h : o' ≠ o) : (s.setCall o c).calls o' = s.calls o' :=
  update_of_ne h ..

@[simp] theorem setLock_self (s : World) (k : String) (raw : Option StoredLock) : (s.setLock k raw).locks k = raw :=
  update_self ..

theorem setLock_other (s : World) {k k' : String} (raw : Option StoredLock) (h : k' ≠ k) :
    (s.setLock k raw).locks k' = s.locks k' :=
  update_of_ne h ..

end World

/-- A record that nobody passes with. -/
def Spent (fence : Nat) (r : RatchetLeaseRecord) : Prop :=
  leaseRecord? (.record r) = none ∨ r = { owner := r.owner, fence := some fence, expiresAt := 0 }

variable {fence : Nat}

theorem Spent.expired (spent : Spent fence r)
    (valid : leaseRecord? (.record r) = some r) : r.expiresAt = 0 := by
  obtain invalid | same := spent
  · simp [invalid] at valid
  · rw [same]

/-- The record that a call has left in the table under its fence. -/
structure Own (clock : Int) (call : Call) (owner : String) (fence : Nat) (r : RatchetLeaseRecord) : Prop where
  owned : r.owner = owner
  fenced : r.fence = some fence
  live : call.phase = .holding fence → ∃ hard, r.hardExpiresAt = some hard ∧ r.expiresAt ≤ hard ∧
    r.expiresAt ≤ clock + RATCHET_LOCK_LEASE_MS ∧
    ∀ now, call.renewing = some now → r.expiresAt ≤ now + RATCHET_LOCK_LEASE_MS
  late : call.phase = .released fence → Spent fence r

/-- A fence that was handed out has been overtaken or is the record's. -/
def Standing (clock : Int) (raw : Option StoredLock) (owner : String) (call : Call) (fence : Nat) : Prop :=
  ∃ r, raw = some (.record r) ∧ (fence < r.fenceNumber ∨ Own clock call owner fence r)

structure Ready (clock : Int) (raw : Option StoredLock) (owner : String) (call : Call) : Prop where
  asked : ∀ now, call.phase = .acquiring now → now ≤ clock
  beat : ∀ now, call.renewing = some now → 0 ≤ now ∧ now ≤ clock
  standing : ∀ fence, call.fence? = some fence → Standing clock raw owner call fence
  quiet : call.fence? = none → call.renewing = none
  holds : call.seen ≠ none → ∃ fence, call.phase = .holding fence
  seen : ∀ r, call.seen = some (some (.record r)) → r.owner = owner → clock < r.expiresAt →
    ∃ r', raw = some (.record r') ∧ r'.owner = owner ∧ r.expiresAt ≤ r'.expiresAt ∧ r.fenceNumber = r'.fenceNumber

structure Inv (s : World) : Prop where
  clock : 0 ≤ s.clock
  /-- Records name calls that have been given a lease. -/
  named : ∀ key r, s.locks key = some (.record r) → ∀ call, s.calls r.owner = some call →
    call.key = key ∧ ∃ fence, call.fence? = some fence
  ready : ∀ owner call, s.calls owner = some call → Ready s.clock (s.locks call.key) owner call

section
variable {clock now : Int} {raw raw' : Option StoredLock} {owner : String} {call : Call}

theorem Own.later (own : Own clock call owner fence r) (h : clock ≤ now) :
    Own now call owner fence r := by
  refine ⟨own.owned, own.fenced, ?_, own.late⟩
  intro holding
  obtain ⟨hard, same, below, recent, pending⟩ := own.live holding
  exact ⟨hard, same, below, by omega, pending⟩

theorem Ready.later (ready : Ready clock raw owner call) (h : clock ≤ now) : Ready now raw owner call where
  asked now asking := le_trans (ready.asked now asking) h
  beat now pending := ⟨(ready.beat now pending).1, le_trans (ready.beat now pending).2 h⟩
  standing fence held := by
    obtain ⟨r, found, overtaken | own⟩ := ready.standing fence held
    · exact ⟨r, found, .inl overtaken⟩
    · exact ⟨r, found, .inr (own.later h)⟩
  quiet := ready.quiet
  holds := ready.holds
  seen r read own expires := ready.seen r read own (by omega)

theorem Standing.same {call' : Call} (standing : Standing clock raw owner call fence)
    (phase : call'.phase = call.phase) (pending : ∀ now, call'.renewing = some now → call.renewing = some now) :
    Standing clock raw owner call' fence := by
  obtain ⟨r, found, overtaken | own⟩ := standing
  · exact ⟨r, found, .inl overtaken⟩
  · refine ⟨r, found, .inr ⟨own.owned, own.fenced, fun holding => ?_, fun late => own.late (phase ▸ late)⟩⟩
    obtain ⟨hard, limit, below, recent, order⟩ := own.live (phase ▸ holding)
    exact ⟨hard, limit, below, recent, fun now beat => order now (pending now beat)⟩

/-- The record passes to another owner, or stays with one. -/
theorem Ready.elsewhere (ready : Ready clock raw owner call) {next : RatchetLeaseRecord}
    (passed : ∀ r, raw = some (.record r) → r.fenceNumber ≤ next.fenceNumber ∧
      (r.owner = owner → r.expiresAt ≤ clock ∧ r.fenceNumber < next.fenceNumber)) :
    Ready clock (some (.record next)) owner call where
  asked := ready.asked
  beat := ready.beat
  standing fence held := by
    refine ⟨next, rfl, .inl ?_⟩
    obtain ⟨r, found, overtaken | own⟩ := ready.standing fence held
    · have := (passed r found).1
      omega
    · have := ((passed r found).2 own.owned).2
      simpa [RatchetLeaseRecord.fenceNumber, own.fenced] using this
  quiet := ready.quiet
  holds := ready.holds
  seen r read own expires := by
    obtain ⟨r', found, owned, fresher, _⟩ := ready.seen r read own expires
    have := ((passed r' found).2 owned).1
    omega

end

namespace Inv

variable {s : World} {owner : String} {call : Call}

section
variable (inv : Inv s) (found : s.calls owner = some call)
include inv found

theorem fresh (before : call.fence? = none) {key : String}
    (stored : s.locks key = some (.record r)) : r.owner ≠ owner := by
  rintro rfl
  obtain ⟨_, fence, held⟩ := inv.named key r stored call found
  simp [before] at held

/-- A call changes, and at its key the record of the table becomes one that is its own. -/
theorem setBoth {call' : Call} (key : call'.key = call.key)
    {next : Option StoredLock} (ready : Ready s.clock next owner call')
    (own : next = s.locks call.key ∨ ∃ r, next = some (.record r) ∧ r.owner = owner ∧
      ∀ old, s.locks call.key = some (.record old) → old.fenceNumber ≤ r.fenceNumber ∧
        (old.owner ≠ owner → old.expiresAt ≤ s.clock ∧ old.fenceNumber < r.fenceNumber))
    (keeps : (∃ fence, call'.fence? = some fence) ∨ call.fence? = none ∧ next = s.locks call.key) :
    Inv ((s.setLock call.key next).setCall owner call') where
  clock := inv.clock
  named k r stored c calls := by
    simp only [setCall_locks] at stored
    by_cases same : r.owner = owner
    · rw [same, setCall_self, some.injEq] at calls
      subst calls
      obtain held | ⟨before, unchanged⟩ := keeps
      · refine ⟨?_, held⟩
        by_cases at_key : k = call.key
        · rw [key, at_key]
        · rw [setLock_other _ _ at_key] at stored
          rw [key]
          exact (inv.named k r stored call (same ▸ found)).1
      · have old : s.locks k = some (.record r) := by
          by_cases at_key : k = call.key
          · subst at_key
            rw [← stored, setLock_self, unchanged]
          · rwa [setLock_other _ _ at_key] at stored
        exact absurd same (inv.fresh found before old)
    · rw [setCall_other _ _ same] at calls
      by_cases at_key : k = call.key
      · subst at_key
        rw [setLock_self] at stored
        obtain unchanged | ⟨r', isOwn, owned, _⟩ := own
        · exact inv.named _ r (unchanged ▸ stored) c calls
        · rw [isOwn, some.injEq, StoredLock.record.injEq] at stored
          exact absurd (stored ▸ owned) same
      · rw [setLock_other _ _ at_key] at stored
        exact inv.named k r stored c calls
  ready o c calls := by
    simp only [setCall_locks, setCall_clock, setLock_clock]
    by_cases same : o = owner
    · subst same
      rw [setCall_self, some.injEq] at calls
      subst calls
      rw [key, setLock_self]
      exact ready
    · rw [setCall_other _ _ same] at calls
      have before := inv.ready o c calls
      by_cases at_key : c.key = call.key
      · rw [at_key, setLock_self]
        rw [at_key] at before
        obtain unchanged | ⟨r, isOwn, owned, passed⟩ := own
        · rwa [unchanged]
        · rw [isOwn]
          refine before.elsewhere fun old stored => ⟨(passed old stored).1, fun owns => ?_⟩
          exact (passed old stored).2 (by rw [owns]; exact same)
      · rw [setLock_other _ _ at_key]
        exact before

theorem setCall {call' : Call} (key : call'.key = call.key)
    (ready : Ready s.clock (s.locks call.key) owner call')
    (keeps : (∃ fence, call'.fence? = some fence) ∨ call.fence? = none) : Inv (s.setCall owner call') := by
  have both := inv.setBoth found key ready (.inl rfl) (keeps.imp id fun before => ⟨before, rfl⟩)
  rwa [setLock, update_eq_self] at both

end

theorem tick (inv : Inv s) (ms : Nat) : Inv { s with clock := s.clock + ms } where
  clock := add_nonneg inv.clock (natCast_nonneg ms)
  named := inv.named
  ready owner call found := (inv.ready owner call found).later (le_add_of_nonneg_right (natCast_nonneg ms))

theorem change (inv : Inv s) (found : s.calls owner = some call) {t : World} (change : Change s owner call t) :
    Inv t := by
  have ready := inv.ready owner call found
  cases change with
  | phase p before after =>
    have none : ({ call with phase := p } : Call).fence? = none := by
      obtain rfl | rfl | rfl := after <;> rfl
    refine inv.setCall found (by rfl) ⟨?_, ready.beat, ?_, fun _ => ready.quiet before, ?_, ready.seen⟩ (.inr before)
    · rintro now rfl
      simp only [Phase.acquiring.injEq, reduceCtorEq, or_false] at after
      exact le_of_eq after
    · rintro fence held
      simp [none] at held
    · intro read
      obtain ⟨fence, held⟩ := ready.holds read
      simp [Call.fence?, held] at before
  | acquired now fence next asked granted =>
    have before : call.fence? = none := by simp [Call.fence?, asked]
    have past := ready.asked now asked
    have quiet := ready.quiet before
    obtain ⟨free, rfl⟩ := tryAcquireRatchetLease_changed granted fun r stored => inv.fresh found before stored
    refine inv.setBoth found (by rfl) ⟨by simp, ready.beat, ?_, by simp [Call.fence?], fun _ => ⟨fence, rfl⟩, ?_⟩ ?_
      (.inl ⟨fence, rfl⟩)
    · intro f held
      obtain rfl : fence = f := some.inj held
      refine ⟨_, rfl, .inr ⟨rfl, rfl, fun _ => ⟨_, rfl, min_le_right .., ?_, by simp [quiet]⟩, by simp⟩⟩
      dsimp only
      omega
    · intro r read
      obtain ⟨f, held⟩ := ready.holds (ne_none_iff_exists'.2 ⟨_, read⟩)
      simp [asked] at held
    · refine .inr ⟨_, rfl, rfl, fun old stored => ?_⟩
      obtain ⟨expired, below⟩ := free old stored
      have above : old.fenceNumber < fence := below
      refine ⟨Nat.le_of_lt above, fun _ => ⟨by omega, above⟩⟩
  | beat fence held =>
    refine inv.setCall found (by rfl) ⟨ready.asked, ?_, ?_, ?_, ready.holds, ready.seen⟩ (.inl ⟨fence, by simp [Call.fence?, held]⟩)
    · rintro now same
      obtain rfl : s.clock = now := some.inj same
      exact ⟨inv.clock, le_refl _⟩
    · intro f same
      obtain ⟨r, stored, overtaken | own⟩ := ready.standing f same
      · exact ⟨r, stored, .inl overtaken⟩
      · refine ⟨r, stored, .inr ⟨own.owned, own.fenced, fun holding => ?_, own.late⟩⟩
        obtain ⟨hard, same, below, recent, _⟩ := own.live holding
        refine ⟨hard, same, below, recent, fun now pending => ?_⟩
        obtain rfl : s.clock = now := some.inj pending
        exact recent
    · intro none
      simp [Call.fence?, held] at none
  | renewed fence now u next held pending granted =>
    obtain ⟨past, present⟩ := ready.beat now pending
    obtain ⟨r, stored, valid, owned, number, live, rfl⟩ := renewRatchetLease_changed granted
    have held' : ({ call with renewing := none } : Call).fence? = some fence := held
    obtain ⟨r', stored', overtaken | own⟩ := ready.standing fence held
    · obtain rfl : r = r' := by simpa [stored] using stored'
      omega
    obtain rfl : r = r' := by simpa [stored] using stored'
    obtain ⟨hard, limit, below, recent, order⟩ : ∃ hard, r.hardExpiresAt = some hard ∧ r.expiresAt ≤ hard ∧
        r.expiresAt ≤ s.clock + RATCHET_LOCK_LEASE_MS ∧ r.expiresAt ≤ now + RATCHET_LOCK_LEASE_MS := by
      cases phase : call.phase with
      | holding f =>
        obtain rfl : f = fence := by simpa [Call.fence?, phase] using held
        obtain ⟨hard, limit, below, recent, order⟩ := own.live phase
        exact ⟨hard, limit, below, recent, order now pending⟩
      | released f =>
        obtain rfl : f = fence := by simpa [Call.fence?, phase] using held
        have ended := (own.late phase).expired valid
        omega
      | _ => simp [Call.fence?, phase] at held
    simp only [limit, getD_some]
    refine inv.setBoth found (by rfl) ⟨ready.asked, by simp, ?_, fun _ => rfl, ready.holds, ?_⟩ ?_ (.inl ⟨fence, held⟩)
    · intro f same
      obtain rfl : fence = f := by simpa [held'] using same
      refine ⟨_, rfl, .inr ⟨rfl, rfl, fun _ => ⟨hard, rfl, min_le_right .., ?_, by simp⟩, fun late => ?_⟩⟩
      · dsimp only
        omega
      · have ended := (own.late late).expired valid
        omega
    · intro r₀ read own₀ expires
      obtain ⟨r', found', _, fresher, same⟩ := ready.seen r₀ read own₀ expires
      obtain rfl : r = r' := by simpa [stored] using found'
      refine ⟨_, rfl, rfl, ?_, by rw [same, number]; rfl⟩
      dsimp only
      omega
    · refine .inr ⟨_, rfl, rfl, fun old stored' => ?_⟩
      obtain rfl : r = old := by simpa [stored] using stored'
      exact ⟨Nat.le_of_eq number, fun other => absurd owned other⟩
  | lapsed fence held =>
    refine inv.setCall found (by rfl) ⟨ready.asked, by simp, ?_, fun _ => rfl, ready.holds, ready.seen⟩ (.inl ⟨fence, held⟩)
    exact fun f same => (ready.standing f same).same rfl (by simp)
  | look fence held =>
    refine inv.setCall found (by rfl) ⟨ready.asked, ready.beat, ?_, ready.quiet, fun _ => ⟨fence, held⟩, ?_⟩
      (.inl ⟨fence, by simp [Call.fence?, held]⟩)
    · exact fun f same => (ready.standing f same).same rfl fun _ beat => beat
    · intro r read own _
      exact ⟨r, some.inj read, own, le_refl _, rfl⟩
  | judge =>
    refine inv.setCall found (by rfl) ⟨ready.asked, ready.beat, ?_, ready.quiet, by simp, by simp⟩ ?_
    · exact fun f same => (ready.standing f same).same rfl fun _ beat => beat
    · cases held : call.fence? with
      | none => exact .inr rfl
      | some fence => exact .inl ⟨fence, held⟩
  | released fence held judged =>
    have leased : call.fence? = some fence := by simp [Call.fence?, held]
    obtain ⟨r, stored, standing⟩ := ready.standing fence leased
    obtain ⟨same, why⟩ | ⟨r', stored', owned, number, next⟩ := releaseRatchetLease_cases (s.locks call.key) owner fence
    · refine inv.setBoth found (by rfl) ⟨by simp, ready.beat, ?_, by simp [Call.fence?], by simp [judged], by simp [judged]⟩
        (.inl same) (.inl ⟨fence, rfl⟩)
      intro f held'
      obtain rfl : fence = f := some.inj held'
      refine ⟨r, same.trans stored, ?_⟩
      obtain overtaken | own := standing
      · exact .inl overtaken
      · refine .inr ⟨own.owned, own.fenced, by simp, fun _ => .inl ?_⟩
        obtain invalid | other | other := why r stored
        · exact invalid
        · exact absurd own.owned other
        · exact absurd (by rw [RatchetLeaseRecord.fenceNumber, own.fenced]; rfl) other
    · rw [next]
      refine inv.setBoth found (by rfl) ⟨by simp, ready.beat, ?_, by simp [Call.fence?], by simp [judged], by simp [judged]⟩
        (.inr ⟨_, rfl, rfl, fun old stored => ?_⟩) (.inl ⟨fence, rfl⟩)
      · intro f held'
        obtain rfl : fence = f := some.inj held'
        exact ⟨_, rfl, .inr ⟨rfl, rfl, by simp, fun _ => .inr rfl⟩⟩
      · obtain rfl : r' = old := by simpa [stored] using stored'.symm
        exact ⟨Nat.le_of_eq number, fun other => absurd owned other⟩

theorem step (inv : Inv s) (e : Event) : Inv (s.step e) := by
  obtain same | ⟨ms, next⟩ | ⟨owner, call, _, found, change⟩ := s.step_change e
  · rwa [same]
  · rw [next]
    exact inv.tick ms
  · exact inv.change found change

theorem run (inv : Inv s) (events : List Event) : Inv (events.foldl World.step s) :=
  Runs.invariant (fun _ e inv => inv.step e) events inv

end Inv

end Vimla.DirectChats
