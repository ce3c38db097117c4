import Vimla.Billing.Usage

/-!
# The loops as row updates

`Mirrors`: every locked copy equals the row it was read from. Under it the
loops of `Vimla.Billing.Usage` never miss a bucket and are folds of three row
updates: `Db.hold` (a new allocation), `Db.extend` (extra funding) and
`Db.payOut` (an allocation settled or released).
-/

namespace Vimla.Billing

open List Rows

def Mirrors (db : Db) (buckets : List LockedBucket) : Prop :=
  ∀ lb ∈ buckets, ∃ row ∈ db.buckets, row.locked = lb

def Db.BucketIds (db : Db) : Prop := (db.buckets.map UsageBucket.id).Nodup

/-- Every bucket id that `ids` names was locked. -/
def Locked (buckets : List LockedBucket) (ids : List Nat) : Prop :=
  ∀ id ∈ ids, ∃ lb ∈ buckets, lb.id = id

theorem lockUserBuckets_mirrors (db : Db) (now : Int) (userId : Nat) (includeIds : List Nat) :
    Mirrors db (lockUserBuckets db now userId includeIds) := by
  intro lb h
  have := (sortBuckets_perm _).subset h
  obtain ⟨row, hrow, rfl⟩ := mem_map.1 this
  exact ⟨row, (mem_filter.1 hrow).1, rfl⟩

variable {db : Db} {lb : LockedBucket} {buckets : List LockedBucket} {f : UsageBucket → UsageBucket}
  {order : List UsageReservationAllocation}

theorem mem_lockUserBuckets {now : Int} {userId : Nat} {includeIds : List Nat} :
    lb ∈ lockUserBuckets db now userId includeIds ↔
      ∃ row ∈ db.buckets, (row.userId = userId ∧
        (row.id ∈ includeIds ∨ unexpired now row.expiresAt = true)) ∧ row.locked = lb := by
  unfold lockUserBuckets
  rw [(sortBuckets_perm _).mem_iff, mem_map]
  simp [and_assoc]

theorem lockUserBuckets_ids (nd : db.BucketIds) (now : Int) (userId : Nat) (includeIds : List Nat) :
    ((lockUserBuckets db now userId includeIds).map LockedBucket.id).Nodup := by
  unfold lockUserBuckets
  rw [((sortBuckets_perm _).map _).nodup_iff, map_map]
  exact nd.sublist (filter_sublist.map _)

variable {g : LockedBucket → LockedBucket}

theorem Mirrors.write (h : Mirrors db buckets) (id : Nat)
    (agree : ∀ row, (f row).locked = g row.locked) :
    Mirrors (db.updateBucket id f) (update LockedBucket.id id g buckets) := by
  intro lb hlb
  obtain ⟨old, hold, rfl⟩ := mem_update.1 hlb
  obtain ⟨row, hrow, rfl⟩ := h old hold
  refine ⟨_, mem_update.2 ⟨row, hrow, rfl⟩, ?_⟩
  rw [UsageBucket.locked_id]
  split
  · exact agree row
  · rfl

/-- The row behind a locked copy is the only row with its id. -/
theorem Mirrors.row (h : Mirrors db buckets) (nd : db.BucketIds) (hlb : lb ∈ buckets) {row : UsageBucket}
    (hrow : row ∈ db.buckets) (hid : row.id = lb.id) : row.locked = lb := by
  obtain ⟨row', hrow', rfl⟩ := h lb hlb
  rw [eq_of_key nd hrow hrow' hid]

variable {ids : List Nat} {s : Settling}

theorem Locked.write (h : Locked buckets ids) (id : Nat)
    (same : ∀ lb, (g lb).id = lb.id) : Locked (update LockedBucket.id id g buckets) ids := by
  intro i hi
  obtain ⟨lb, hlb, rfl⟩ := h i hi
  refine ⟨_, mem_update.2 ⟨lb, hlb, rfl⟩, ?_⟩
  split
  · exact same lb
  · rfl

variable {id : Nat}

theorem Locked.tail (h : Locked buckets (id :: ids)) : Locked buckets ids :=
  fun i hi => h i (mem_cons_of_mem id hi)

theorem Db.BucketIds.write (nd : db.BucketIds) (id : Nat) (same : ∀ b, (f b).id = b.id) :
    (db.updateBucket id f).BucketIds := by
  unfold Db.BucketIds Db.updateBucket
  rwa [map_update same]

/-- Writing a value computed from the locked copy is writing it from the row. -/
theorem Mirrors.updateBucket_eq (h : Mirrors db buckets) (nd : db.BucketIds) (hlb : lb ∈ buckets)
    (hid : lb.id = id) {g : UsageBucket → UsageBucket} (agree : ∀ row, row.locked = lb → f row = g row) :
    db.updateBucket id f = db.updateBucket id g := by
  unfold Db.updateBucket
  rw [update_congr fun row hrow hkey => agree row (h.row nd hlb hrow (hkey.trans hid.symm))]

def addReserved (x : Int) (b : UsageBucket) : UsageBucket :=
  { b with reservedMicroRub := b.reservedMicroRub + x }

/-- One allocation of a new reservation. -/
def Db.hold (reservationId : Nat) (entry : ReservationAllocationPlan → UsageLedgerEntry) (db : Db)
    (p : ReservationAllocationPlan) : Db :=
  (((db.createAllocation reservationId p.bucketId p.reservedMicroRub).1).updateBucket p.bucketId
    (addReserved p.reservedMicroRub)).appendLedger (entry p)

def growAllocation (x : Int) (a : UsageReservationAllocation) : UsageReservationAllocation :=
  { a with reservedMicroRub := a.reservedMicroRub + x }

/-- One bucket of extra funding: the reservation's allocation on it grows, or
a new one is made. The second part is the order in which settling goes on. -/
def extend (reservationId : Nat) (s : Db × List UsageReservationAllocation)
    (p : ReservationAllocationPlan) : Db × List UsageReservationAllocation :=
  let (db, order) :=
    match find UsageReservationAllocation.bucketId p.bucketId s.2 with
    | some existing =>
      (s.1.updateAllocation existing.id (growAllocation p.reservedMicroRub),
        update UsageReservationAllocation.id existing.id
          (growAllocation p.reservedMicroRub) s.2)
    | none =>
      let (db, created) := s.1.createAllocation reservationId p.bucketId p.reservedMicroRub
      (db, s.2 ++ [created])
  (db.updateBucket p.bucketId (addReserved p.reservedMicroRub), order)

/-- What ending an allocation pays of it, with the ledger rows written. -/
structure Payout where
  allocation : UsageReservationAllocation
  paid : Int
  entries : List UsageLedgerEntry

def payBucket (p : Payout) (b : UsageBucket) : UsageBucket :=
  { b with
    reservedMicroRub := b.reservedMicroRub - p.allocation.reservedMicroRub
    spentMicroRub := b.spentMicroRub + p.paid }

def Db.payOut (db : Db) (p : Payout) : Db :=
  p.entries.foldl Db.appendLedger
    ((db.updateAllocation p.allocation.id fun a => { a with settledMicroRub := p.paid }).updateBucket
      p.allocation.bucketId (payBucket p))

def settlePayouts (input : SettleInput) (reservationId : Nat) :
    List UsageReservationAllocation → Int → List Payout
  | [], _ => []
  | a :: rest, remaining =>
    let paid := if remaining < a.reservedMicroRub then remaining else a.reservedMicroRub
    ⟨a, paid, settleEntries input reservationId a.bucketId paid (a.reservedMicroRub - paid)⟩ ::
      settlePayouts input reservationId rest (remaining - paid)

def releasePayouts (input : ReleaseInput) (reservationId : Nat)
    (allocations : List UsageReservationAllocation) : List Payout :=
  allocations.map fun a =>
    ⟨a, 0, [releaseEntry input reservationId a.bucketId a.reservedMicroRub]⟩

def holdEntry (input : ReserveInput) (reservationId : Nat) (p : ReservationAllocationPlan) :
    UsageLedgerEntry where
  userId := input.userId
  bucketId := some p.bucketId
  reservationId := some reservationId
  type := .reservationCreated
  amountMicroRub := 0
  metadata := {
    correlationId := input.correlationId
    reservedMicroRub := some p.reservedMicroRub
    requestId := some input.requestId }

theorem Locked.find (h : Locked buckets ids) (hid : id ∈ ids) :
    ∃ lb, find LockedBucket.id id buckets = some lb ∧ lb ∈ buckets ∧ lb.id = id := by
  obtain ⟨lb, hlb, hk⟩ := h id hid
  obtain ⟨found, hfound⟩ := find_isSome_of_mem hlb hk
  exact ⟨found, hfound, mem_of_find hfound⟩

theorem appendLedger_foldl_buckets (entries : List UsageLedgerEntry) (db : Db) :
    entries.foldl Db.appendLedger db = { db with ledger := db.ledger ++ entries } := by
  induction entries generalizing db with
  | nil => simp
  | cons e es ih => simp [ih, Db.appendLedger]

theorem reserveLoop_eq (input : ReserveInput) (reservationId : Nat) (plan : List ReservationAllocationPlan)
    (mirrors : Mirrors db buckets) (nd : db.BucketIds) (locked : Locked buckets (plan.map (·.bucketId))) :
    reserveLoop input reservationId plan db buckets =
      .ok (plan.foldl (Db.hold reservationId (holdEntry input reservationId)) db) := by
  induction plan generalizing db buckets with
  | nil => rfl
  | cons p rest ih =>
    obtain ⟨lb, hfind, hlb, hid⟩ := locked.find mem_cons_self
    have m : Mirrors (db.createAllocation reservationId p.bucketId p.reservedMicroRub).1 buckets :=
      mirrors
    simp only [reserveLoop, hfind, foldl_cons]
    rw [hid, m.updateBucket_eq (g := addReserved p.reservedMicroRub) nd hlb hid
      fun row hrow => by rw [← hrow]; rfl]
    exact ih (m.write p.bucketId fun _ => rfl) (nd.write p.bucketId fun _ => rfl)
      (locked.tail.write _ fun _ => rfl)

theorem settleLoop_eq (input : SettleInput) (reservationId : Nat) (order : List UsageReservationAllocation)
    {remaining : Int} (mirrors : Mirrors db buckets) (nd : db.BucketIds)
    (locked : Locked buckets (order.map (·.bucketId))) :
    settleLoop input reservationId order remaining db buckets =
      .ok ((settlePayouts input reservationId order remaining).foldl Db.payOut db) := by
  induction order generalizing remaining db buckets with
  | nil => rfl
  | cons a rest ih =>
    obtain ⟨lb, hfind, hlb, hid⟩ := locked.find mem_cons_self
    have m (f) : Mirrors (db.updateAllocation a.id f) buckets := mirrors
    simp only [settleLoop, hfind, settlePayouts, foldl_cons, Db.payOut, hid]
    generalize hpaid : (if remaining < a.reservedMicroRub then remaining else a.reservedMicroRub) =
      paid
    rw [(m _).updateBucket_eq (g := payBucket ⟨a, paid, settleEntries input reservationId a.bucketId
      paid (a.reservedMicroRub - paid)⟩) nd hlb hid fun row hrow => by rw [← hrow]; rfl]
    refine ih ?_ ?_
      (locked.tail.write _ fun _ => rfl)
    · rw [appendLedger_foldl_buckets]
      exact (m _).write a.bucketId fun _ => rfl
    · rw [appendLedger_foldl_buckets]
      exact nd.write a.bucketId fun _ => rfl

theorem releaseLoop_eq (input : ReleaseInput) (reservationId : Nat) (allocations : List UsageReservationAllocation)
    (mirrors : Mirrors db buckets) (nd : db.BucketIds) (locked : Locked buckets (allocations.map (·.bucketId))) :
    releaseLoop input reservationId allocations db buckets =
      .ok ((releasePayouts input reservationId allocations).foldl Db.payOut db) := by
  induction allocations generalizing db buckets with
  | nil => rfl
  | cons a rest ih =>
    obtain ⟨lb, hfind, hlb, hid⟩ := locked.find mem_cons_self
    simp only [releaseLoop, hfind, hid]
    rw [mirrors.updateBucket_eq (g := payBucket ⟨a, 0, []⟩) nd hlb hid
      fun row hrow => by rw [← hrow]; simp [payBucket, UsageBucket.locked]]
    exact ih (mirrors.write a.bucketId fun row => by simp [payBucket, UsageBucket.locked])
      (nd.write a.bucketId fun _ => rfl) (locked.tail.write _ fun _ => rfl)

/-- The allocations still to be settled, held in memory, are stored rows. -/
structure Stored (db : Db) (order : List UsageReservationAllocation) : Prop where
  ids : (db.allocations.map UsageReservationAllocation.id).Nodup
  fresh : ∀ a ∈ db.allocations, a.id < db.nextId
  stored : ∀ a ∈ order, a ∈ db.allocations

theorem Stored.grow (h : Stored db order) (id : Nat) (x : Int) : Stored (db.updateAllocation id (growAllocation x))
      (update UsageReservationAllocation.id id (growAllocation x) order) where
  ids := by
    unfold Db.updateAllocation
    rw [map_update (f := growAllocation x) fun _ => rfl]
    exact h.ids
  fresh a ha := by
    obtain ⟨b, hb, rfl⟩ := mem_update.1 ha
    have := h.fresh b hb
    split <;> exact this
  stored a ha := by
    obtain ⟨b, hb, rfl⟩ := mem_update.1 ha
    exact mem_update.2 ⟨b, h.stored b hb, rfl⟩

theorem Stored.create (h : Stored db order) (reservationId bucketId : Nat) (x : Int) :
    Stored (db.createAllocation reservationId bucketId x).1
      (order ++ [(db.createAllocation reservationId bucketId x).2]) where
  ids := nodup_append h.ids fun a ha => Nat.ne_of_lt (h.fresh a ha)
  fresh a ha := by
    simp only [Db.createAllocation, mem_append, mem_singleton] at ha ⊢
    rcases ha with ha | rfl
    · have := h.fresh a ha
      omega
    · simp
  stored a ha := by
    simp only [Db.createAllocation, mem_append, mem_singleton] at ha ⊢
    exact ha.imp (h.stored a) id

theorem Stored.extend (h : Stored db order) (reservationId : Nat) (p : ReservationAllocationPlan) :
    Stored (extend reservationId (db, order) p).1 (extend reservationId (db, order) p).2 := by
  simp only [Billing.extend]
  cases find UsageReservationAllocation.bucketId p.bucketId order with
  | some existing =>
    obtain ⟨ids, fresh, stored⟩ := h.grow existing.id p.reservedMicroRub
    exact ⟨ids, fresh, stored⟩
  | none =>
    obtain ⟨ids, fresh, stored⟩ := h.create reservationId p.bucketId p.reservedMicroRub
    exact ⟨ids, fresh, stored⟩

theorem extend_buckets (reservationId : Nat) (db : Db) (order : List UsageReservationAllocation)
    (p : ReservationAllocationPlan) : (extend reservationId (db, order) p).1.buckets =
      (db.updateBucket p.bucketId (addReserved p.reservedMicroRub)).buckets := by
  simp only [extend]
  cases find UsageReservationAllocation.bucketId p.bucketId order <;> rfl

theorem extend_ledger (reservationId : Nat) (s : Db × List UsageReservationAllocation)
    (p : ReservationAllocationPlan) : (extend reservationId s p).1.ledger = s.1.ledger := by
  simp only [extend]
  cases find UsageReservationAllocation.bucketId p.bucketId s.2 <;> rfl

/-- The locked copies after one more bucket of extra funding. -/
def bump (p : ReservationAllocationPlan) (buckets : List LockedBucket) : List LockedBucket :=
  update LockedBucket.id p.bucketId (fun b =>
    { b with reservedMicroRub := b.reservedMicroRub + p.reservedMicroRub }) buckets

theorem extraLoop_cons {reservationId : Nat} {p : ReservationAllocationPlan}
    {rest : List ReservationAllocationPlan} (mirrors : Mirrors s.db s.buckets) (nd : s.db.BucketIds)
    (stored : Stored s.db s.allocationOrder) (locked : Locked s.buckets [p.bucketId]) :
    extraLoop reservationId (p :: rest) s = extraLoop reservationId rest
      ⟨(extend reservationId (s.db, s.allocationOrder) p).1, bump p s.buckets,
        (extend reservationId (s.db, s.allocationOrder) p).2⟩ := by
  obtain ⟨lb, hfind, hlb, hid⟩ := locked.find mem_cons_self
  have write (db : Db) (m : Mirrors db s.buckets) (n : db.BucketIds) :
      db.updateBucket p.bucketId (fun row =>
        { row with reservedMicroRub := lb.reservedMicroRub + p.reservedMicroRub }) =
      db.updateBucket p.bucketId (addReserved p.reservedMicroRub) :=
    m.updateBucket_eq n hlb hid fun row hrow => by rw [← hrow]; rfl
  simp only [extraLoop, hfind, extend, hid]
  cases hex : find UsageReservationAllocation.bucketId p.bucketId s.allocationOrder with
  | some existing =>
    have row : s.db.updateAllocation existing.id (fun a =>
          { a with reservedMicroRub := existing.reservedMicroRub + p.reservedMicroRub }) =
        s.db.updateAllocation existing.id (growAllocation p.reservedMicroRub) := by
      unfold Db.updateAllocation
      rw [update_congr fun a ha hkey => ?_]
      have := eq_of_key stored.ids ha (stored.stored _ (mem_of_find hex).1) hkey
      rw [this]
      rfl
    simp only [row]
    rw [write (s.db.updateAllocation existing.id (growAllocation p.reservedMicroRub)) mirrors nd]
    rfl
  | none =>
    rw [write (s.db.createAllocation reservationId p.bucketId p.reservedMicroRub).1 mirrors nd]
    rfl

theorem extraLoop_eq (reservationId : Nat) (plan : List ReservationAllocationPlan)
    (mirrors : Mirrors s.db s.buckets) (nd : s.db.BucketIds) (stored : Stored s.db s.allocationOrder)
    (locked : Locked s.buckets (plan.map (·.bucketId))) :
    ∃ s', extraLoop reservationId plan s = .ok s' ∧ Mirrors s'.db s'.buckets ∧
      s'.buckets.map (·.id) = s.buckets.map (·.id) ∧
      (s'.db, s'.allocationOrder) =
        plan.foldl (extend reservationId) (s.db, s.allocationOrder) := by
  induction plan generalizing s with
  | nil => exact ⟨s, rfl, mirrors, rfl, rfl⟩
  | cons p rest ih =>
    have head : Locked s.buckets [p.bucketId] := fun i hi =>
      locked i (mem_cons.2 (.inl (mem_singleton.1 hi)))
    rw [extraLoop_cons mirrors nd stored head]
    have hb := extend_buckets reservationId s.db s.allocationOrder p
    obtain ⟨s', hs', m', ids', fold'⟩ := ih
      (s := ⟨(extend reservationId (s.db, s.allocationOrder) p).1, bump p s.buckets,
        (extend reservationId (s.db, s.allocationOrder) p).2⟩)
      (by
        have m := mirrors.write p.bucketId (f := addReserved p.reservedMicroRub)
          (g := fun b => { b with reservedMicroRub := b.reservedMicroRub + p.reservedMicroRub })
          fun _ => rfl
        intro lb hlb
        simp only [hb]
        exact m lb hlb)
      (by
        unfold Db.BucketIds
        simp only [hb]
        exact nd.write p.bucketId fun _ => rfl)
      (stored.extend reservationId p) (locked.tail.write _ fun _ => rfl)
    refine ⟨s', hs', m', ids'.trans ?_, fold'⟩
    exact map_update fun _ => rfl

end Vimla.Billing
