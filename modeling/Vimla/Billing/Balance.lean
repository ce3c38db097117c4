import Vimla.Billing.Payouts

/-!
# The balance of the usage tables

A bucket row repeats what its allocations say: `reservedMicroRub` the holds of
`ACTIVE` reservations, `spentMicroRub` what was settled. `Balanced` ties the
three tables together. A transaction breaks it between two statements, so it
carries what is still `Pending`: the part of an estimate not yet allocated, the
holds not yet lifted, the settlement not yet paid.
-/

namespace Vimla.Billing

open Rows List Bool

/-- `p` selects by reservation and bucket. -/
def reservedWhere (p : Nat → Nat → Bool) (rows : List UsageReservationAllocation) : Int :=
  total (fun a => if p a.reservationId a.bucketId then a.reservedMicroRub else 0) rows

def settledWhere (p : Nat → Nat → Bool) (rows : List UsageReservationAllocation) : Int :=
  total (fun a => if p a.reservationId a.bucketId then a.settledMicroRub else 0) rows

namespace Db

def isActive (db : Db) (id : Nat) : Bool :=
  db.reservations.any fun r => r.id = id ∧ r.status = .active

/-- The holds of `ACTIVE` reservations on a bucket. -/
def heldOn (db : Db) (bucketId : Nat) : Int :=
  reservedWhere (fun r b => b = bucketId ∧ db.isActive r) db.allocations

def settledOn (db : Db) (bucketId : Nat) : Int :=
  settledWhere (fun _ b => b = bucketId) db.allocations

def reservedOf (db : Db) (reservationId : Nat) : Int :=
  reservedWhere (fun r _ => r = reservationId) db.allocations

def settledOf (db : Db) (reservationId : Nat) : Int :=
  settledWhere (fun r _ => r = reservationId) db.allocations

/-- The ledger of one bucket. -/
def ledgerOn (db : Db) (bucketId : Nat) : Int :=
  total (fun e => if e.bucketId = some bucketId then e.amountMicroRub else 0) db.ledger

end Db

theorem isActive_iff {db : Db} {id : Nat} :
    db.isActive id = true ↔ ∃ r ∈ db.reservations, r.id = id ∧ r.status = .active := by
  simp [Db.isActive]

section Sums
variable {p : Nat → Nat → Bool} {rows : List UsageReservationAllocation}
  {a : UsageReservationAllocation}

@[simp] theorem reservedWhere_append (new : UsageReservationAllocation) :
    reservedWhere p (rows ++ [new]) = reservedWhere p rows +
      if p new.reservationId new.bucketId then new.reservedMicroRub else 0 := by
  simp [reservedWhere]

@[simp] theorem settledWhere_append (new : UsageReservationAllocation) :
    settledWhere p (rows ++ [new]) = settledWhere p rows +
      if p new.reservationId new.bucketId then new.settledMicroRub else 0 := by
  simp [settledWhere]

theorem settledWhere_zero (h : ∀ a ∈ rows, p a.reservationId a.bucketId → a.settledMicroRub = 0) :
    settledWhere p rows = 0 :=
  total_eq_zero fun a ha => by
    by_cases hp : p a.reservationId a.bucketId
    · simp [hp, h a ha hp]
    · simp [hp]

theorem reservedWhere_nonneg (h : ∀ a ∈ rows, 0 ≤ a.reservedMicroRub) :
    0 ≤ reservedWhere p rows :=
  total_nonneg fun a ha => by
    have := h a ha
    split <;> omega

theorem settledWhere_nonneg (h : ∀ a ∈ rows, 0 ≤ a.settledMicroRub) :
    0 ≤ settledWhere p rows :=
  total_nonneg fun a ha => by
    have := h a ha
    split <;> omega

theorem reservedWhere_grow (nd : (rows.map UsageReservationAllocation.id).Nodup) (ha : a ∈ rows)
    (x : Int) :
    reservedWhere p (update UsageReservationAllocation.id a.id (growAllocation x) rows) =
      reservedWhere p rows + if p a.reservationId a.bucketId then x else 0 := by
  unfold reservedWhere
  rw [total_update nd ha]
  by_cases hp : p a.reservationId a.bucketId
  · simp only [growAllocation, hp, if_true]
    omega
  · simp [growAllocation, hp]

theorem settledWhere_pay (nd : (rows.map UsageReservationAllocation.id).Nodup) (ha : a ∈ rows)
    (unpaid : a.settledMicroRub = 0) (x : Int) :
    settledWhere p (update UsageReservationAllocation.id a.id
        (fun row => { row with settledMicroRub := x }) rows) =
      settledWhere p rows + if p a.reservationId a.bucketId then x else 0 := by
  unfold settledWhere
  rw [total_update nd ha]
  by_cases hp : p a.reservationId a.bucketId <;> simp [hp, unpaid]

end Sums

/-- Keys are unique and generated, and an allocation joins a reservation to a
bucket of the same user, once. -/
structure Keys (db : Db) : Prop where
  buckets : db.BucketIds
  reservations : (db.reservations.map UsageReservation.id).Nodup
  allocations : (db.allocations.map UsageReservationAllocation.id).Nodup
  bucketFresh : ∀ b ∈ db.buckets, b.id < db.nextId
  reservationFresh : ∀ r ∈ db.reservations, r.id < db.nextId
  allocationFresh : ∀ a ∈ db.allocations, a.id < db.nextId
  onePerBucket : (db.allocations.map fun a => (a.reservationId, a.bucketId)).Nodup
  linked : ∀ a ∈ db.allocations, ∃ r ∈ db.reservations, r.id = a.reservationId ∧
    ∃ b ∈ db.buckets, b.id = a.bucketId ∧ b.userId = r.userId

/-- What a transaction under way still owes: by reservation the estimate
without an allocation, by bucket the holds to lift, by reservation the
settlement to pay. -/
structure Pending where
  due : Nat → Int := fun _ => 0
  held : Nat → Int := fun _ => 0
  unpaid : Nat → Int := fun _ => 0

def Pending.none : Pending := {}

structure Balanced (db : Db) (pending : Pending) : Prop where
  keys : Keys db
  allocation : ∀ a ∈ db.allocations,
    0 ≤ a.settledMicroRub ∧ a.settledMicroRub ≤ a.reservedMicroRub ∧
      (db.isActive a.reservationId → a.settledMicroRub = 0)
  bucket : ∀ b ∈ db.buckets, 0 ≤ b.reservedMicroRub ∧
    b.spentMicroRub + b.reservedMicroRub ≤ b.totalMicroRub ∧
    b.reservedMicroRub = db.heldOn b.id + pending.held b.id ∧ b.spentMicroRub = db.settledOn b.id
  reservation : ∀ r ∈ db.reservations, db.reservedOf r.id + pending.due r.id = r.estimatedMicroRub ∧
    (r.status = .settled ∨ r.status = .anomaly →
      db.settledOf r.id + pending.unpaid r.id = r.settledMicroRub)

variable {pending : Pending}

section
variable {db : Db} (h : Balanced db pending)
include h

theorem Balanced.reserved_nonneg {a : UsageReservationAllocation}
    (ha : a ∈ db.allocations) : 0 ≤ a.reservedMicroRub := by
  obtain ⟨h0, h1, -⟩ := h.allocation a ha
  omega

theorem Balanced.heldOn_nonneg (id : Nat) : 0 ≤ db.heldOn id :=
  reservedWhere_nonneg fun _ ha => h.reserved_nonneg ha

theorem Balanced.spent_nonneg {b : UsageBucket} (hb : b ∈ db.buckets) :
    0 ≤ b.spentMicroRub := by
  rw [(h.bucket b hb).2.2.2]
  exact settledWhere_nonneg fun a ha => (h.allocation a ha).1

end

/-!
# What one row update does to the balance

`Db.hold` and `extend` raise a hold and lower what is due of the estimate;
`Db.payOut` lifts a hold and pays part of it. Each keeps `Balanced` for the
`Pending` amounts moved accordingly.
-/

/-- `db'` is `db` with `x` more held by one reservation on one bucket. -/
structure Raised (db db' : Db) (reservationId bucketId : Nat) (x : Int) : Prop where
  keys : Keys db'
  reservations : db'.reservations = db.reservations
  buckets : db'.buckets = update UsageBucket.id bucketId (addReserved x) db.buckets
  reserved : ∀ p, reservedWhere p db'.allocations =
    reservedWhere p db.allocations + if p reservationId bucketId then x else 0
  settled : ∀ p, settledWhere p db'.allocations = settledWhere p db.allocations
  rows : ∀ a ∈ db'.allocations, (a.settledMicroRub = 0 ∧ 0 ≤ a.reservedMicroRub) ∨
    ∃ old ∈ db.allocations, old.reservationId = a.reservationId ∧
      old.settledMicroRub = a.settledMicroRub ∧ old.reservedMicroRub ≤ a.reservedMicroRub

variable {db : Db}

theorem isActive_congr {db' : Db} (h : db'.reservations = db.reservations) (id : Nat) :
    db'.isActive id = db.isActive id := by
  simp [Db.isActive, h]

/-- The estimate of `reservationId` has `x` less to be allocated. -/
def Pending.allocate (t : Pending) (reservationId : Nat) (x : Int) : Pending :=
  { t with due := fun r => t.due r - if r = reservationId then x else 0 }

variable {t : Pending} {r : UsageReservation} {p : Payout}

theorem Balanced.raise {db' : Db} {reservationId bucketId : Nat} {x : Int} (h : Balanced db t)
    (raised : Raised db db' reservationId bucketId x) (active : db.isActive reservationId = true) (nonneg : 0 ≤ x)
    (fits : ∀ b ∈ db.buckets, b.id = bucketId → x ≤ b.locked.available) :
    Balanced db' (t.allocate reservationId x) where
  keys := raised.keys
  allocation a ha := by
    rw [isActive_congr raised.reservations]
    rcases raised.rows a ha with ⟨zero, le⟩ | ⟨old, hold, same, settled, le⟩
    · exact ⟨by omega, by omega, fun _ => zero⟩
    · obtain ⟨h0, h1, h2⟩ := h.allocation old hold
      rw [same, settled] at h2
      exact ⟨by omega, by omega, h2⟩
  bucket b' hb' := by
    have held (id : Nat) : db'.heldOn id = db.heldOn id + if bucketId = id then x else 0 := by
      simp only [Db.heldOn, isActive_congr raised.reservations, raised.reserved, active]
      simp
    rw [raised.buckets] at hb'
    obtain ⟨b, hb, rfl⟩ := mem_update.1 hb'
    obtain ⟨h0, h1, h2, h3⟩ := h.bucket b hb
    have fit := fits b hb
    simp only [LockedBucket.available, UsageBucket.locked, availableMicroRub] at fit
    by_cases hid : b.id = bucketId
    · simp only [hid, if_true, addReserved, held, Db.settledOn, raised.settled] at h2 h3 fit ⊢
      refine ⟨by omega, by have := fit trivial; omega, ?_, h3⟩
      simp only [Pending.allocate]
      omega
    · simp only [hid, if_false, held, Db.settledOn, raised.settled] at h3 ⊢
      refine ⟨h0, h1, ?_, h3⟩
      rw [if_neg fun e => hid e.symm, h2]
      simp [Pending.allocate]
  reservation r hr := by
    rw [raised.reservations] at hr
    obtain ⟨h0, h1⟩ := h.reservation r hr
    simp only [Db.reservedOf, Db.settledOf, raised.reserved, raised.settled, Pending.allocate]
    refine ⟨?_, h1⟩
    simp only [Db.reservedOf] at h0
    by_cases hid : r.id = reservationId
    · simp only [hid, decide_true, if_true] at h0 ⊢
      omega
    · have hid' : reservationId ≠ r.id := fun e => hid e.symm
      simp only [hid, hid', decide_false, if_false, false_eq_true]
      omega

/-- A reservation may get an allocation on a bucket it has none on. -/
theorem Keys.createAllocation (h : Keys db) (hr : r ∈ db.reservations) {b : UsageBucket} (hb : b ∈ db.buckets)
    (user : b.userId = r.userId) (fresh : ∀ a ∈ db.allocations, a.reservationId = r.id → a.bucketId ≠ b.id)
    (x : Int) : Keys (db.createAllocation r.id b.id x).1 where
  buckets := h.buckets
  reservations := h.reservations
  allocations := nodup_append h.allocations fun a ha => Nat.ne_of_lt (h.allocationFresh a ha)
  bucketFresh b hb := by
    have := h.bucketFresh b hb
    simp only [Db.createAllocation]
    omega
  reservationFresh r hr := by
    have := h.reservationFresh r hr
    simp only [Db.createAllocation]
    omega
  allocationFresh a ha := by
    simp only [Db.createAllocation, mem_append, mem_singleton] at ha ⊢
    rcases ha with ha | rfl
    · have := h.allocationFresh a ha
      omega
    · simp
  onePerBucket := nodup_append h.onePerBucket fun a ha e =>
    fresh a ha (Prod.mk.inj e).1 (Prod.mk.inj e).2
  linked a ha := by
    simp only [Db.createAllocation, mem_append, mem_singleton] at ha
    rcases ha with ha | rfl
    · exact h.linked a ha
    · exact ⟨r, hr, rfl, b, hb, rfl, user⟩

theorem Keys.updateBucket (h : Keys db) (id : Nat) {f : UsageBucket → UsageBucket} (sameId : ∀ b, (f b).id = b.id)
    (sameUser : ∀ b, (f b).userId = b.userId) : Keys (db.updateBucket id f) where
  buckets := h.buckets.write id sameId
  reservations := h.reservations
  allocations := h.allocations
  bucketFresh b' hb' := by
    obtain ⟨b, hb, rfl⟩ := mem_update.1 hb'
    have := h.bucketFresh b hb
    split
    · rw [sameId]
      exact this
    · exact this
  reservationFresh := h.reservationFresh
  allocationFresh := h.allocationFresh
  onePerBucket := h.onePerBucket
  linked a ha := by
    obtain ⟨r, hr, hid, b, hb, hbid, user⟩ := h.linked a ha
    refine ⟨r, hr, hid, _, mem_update.2 ⟨b, hb, rfl⟩, ?_⟩
    split
    · exact ⟨(sameId b).trans hbid, (sameUser b).trans user⟩
    · exact ⟨hbid, user⟩

theorem Keys.updateAllocation (h : Keys db) (id : Nat)
    {f : UsageReservationAllocation → UsageReservationAllocation} (sameId : ∀ a, (f a).id = a.id)
    (sameReservation : ∀ a, (f a).reservationId = a.reservationId) (sameBucket : ∀ a, (f a).bucketId = a.bucketId) :
    Keys (db.updateAllocation id f) where
  buckets := h.buckets
  reservations := h.reservations
  allocations := by
    unfold Db.updateAllocation
    rw [map_update sameId]
    exact h.allocations
  bucketFresh := h.bucketFresh
  reservationFresh := h.reservationFresh
  allocationFresh a' ha' := by
    obtain ⟨a, ha, rfl⟩ := mem_update.1 ha'
    have := h.allocationFresh a ha
    split
    · rw [sameId]
      exact this
    · exact this
  onePerBucket := by
    unfold Db.updateAllocation
    rw [map_update fun a => by rw [sameReservation, sameBucket]]
    exact h.onePerBucket
  linked a' ha' := by
    obtain ⟨a, ha, rfl⟩ := mem_update.1 ha'
    have := h.linked a ha
    split
    · rw [sameReservation, sameBucket]
      exact this
    · exact this

theorem Keys.updateReservation (h : Keys db) (id : Nat) {f : UsageReservation → UsageReservation}
    (sameId : ∀ r, (f r).id = r.id) (sameUser : ∀ r, (f r).userId = r.userId) :
    Keys (db.updateReservation id f) where
  buckets := h.buckets
  reservations := by
    unfold Db.updateReservation
    rw [map_update sameId]
    exact h.reservations
  allocations := h.allocations
  bucketFresh := h.bucketFresh
  reservationFresh r' hr' := by
    obtain ⟨r, hr, rfl⟩ := mem_update.1 hr'
    have := h.reservationFresh r hr
    split
    · rw [sameId]
      exact this
    · exact this
  allocationFresh := h.allocationFresh
  onePerBucket := h.onePerBucket
  linked a ha := by
    obtain ⟨r, hr, hid, b, hb, hbid, user⟩ := h.linked a ha
    refine ⟨_, mem_update.2 ⟨r, hr, rfl⟩, ?_⟩
    split
    · exact ⟨(sameId r).trans hid, b, hb, hbid, user.trans (sameUser r).symm⟩
    · exact ⟨hid, b, hb, hbid, user⟩

/-- Appending ledger rows touches no key. -/
theorem Keys.setLedger (h : Keys db) (entries : List UsageLedgerEntry) : Keys { db with ledger := entries } :=
  ⟨h.buckets, h.reservations, h.allocations, h.bucketFresh, h.reservationFresh, h.allocationFresh,
    h.onePerBucket, h.linked⟩

section Raise
variable {db : Db} {r : UsageReservation} {b : UsageBucket} {x : Int}

theorem Raised.create (h : Keys db) (hr : r ∈ db.reservations) (hb : b ∈ db.buckets)
    (user : b.userId = r.userId) (nonneg : 0 ≤ x)
    (fresh : ∀ a ∈ db.allocations, a.reservationId = r.id → a.bucketId ≠ b.id) :
    Raised db ((db.createAllocation r.id b.id x).1.updateBucket b.id (addReserved x)) r.id b.id x
    where
  keys := (h.createAllocation hr hb user fresh x).updateBucket b.id (fun _ => rfl) fun _ => rfl
  reservations := rfl
  buckets := rfl
  reserved p := reservedWhere_append _
  settled p := by
    simp only [Db.createAllocation, Db.updateBucket, settledWhere_append]
    split <;> omega
  rows a ha := by
    simp only [Db.createAllocation, Db.updateBucket, mem_append, mem_singleton] at ha
    rcases ha with ha | rfl
    · exact .inr ⟨a, ha, rfl, rfl, Int.le_refl _⟩
    · exact .inl ⟨rfl, nonneg⟩

theorem Raised.grow (h : Keys db) {a : UsageReservationAllocation} (ha : a ∈ db.allocations)
    (nonneg : 0 ≤ x) :
    Raised db ((db.updateAllocation a.id (growAllocation x)).updateBucket a.bucketId (addReserved x))
      a.reservationId a.bucketId x where
  keys :=
    have rows := h.updateAllocation a.id (f := growAllocation x) (fun _ => rfl) (fun _ => rfl)
      fun _ => rfl
    rows.updateBucket a.bucketId (f := addReserved x) (fun _ => rfl) fun _ => rfl
  reservations := rfl
  buckets := rfl
  reserved p := reservedWhere_grow h.allocations ha x
  settled p := total_update_same fun _ => rfl
  rows a' ha' := by
    obtain ⟨old, hold, rfl⟩ := mem_update.1 ha'
    refine .inr ⟨old, hold, ?_⟩
    split
    · exact ⟨rfl, rfl, by simp only [growAllocation]; omega⟩
    · exact ⟨rfl, rfl, Int.le_refl _⟩

end Raise

theorem Balanced.setLedger (h : Balanced db t) (entries : List UsageLedgerEntry) :
    Balanced { db with ledger := entries } t :=
  ⟨h.keys.setLedger entries, h.allocation, h.bucket, h.reservation⟩

/-- A payout lifts the allocation's hold and pays its part of the settlement. -/
def Pending.pay (t : Pending) (p : Payout) : Pending :=
  { t with
    held := fun b => t.held b - if b = p.allocation.bucketId then p.allocation.reservedMicroRub else 0
    unpaid := fun r => t.unpaid r - if r = p.allocation.reservationId then p.paid else 0 }

/-- `db'` is `db` with one allocation paid out. -/
structure PaidOut (db db' : Db) (p : Payout) : Prop where
  keys : Keys db'
  reservations : db'.reservations = db.reservations
  buckets : db'.buckets = update UsageBucket.id p.allocation.bucketId (payBucket p) db.buckets
  reserved : ∀ q, reservedWhere q db'.allocations = reservedWhere q db.allocations
  settled : ∀ q, settledWhere q db'.allocations = settledWhere q db.allocations +
    if q p.allocation.reservationId p.allocation.bucketId then p.paid else 0
  rows : ∀ a ∈ db'.allocations, a ∈ db.allocations ∨
    (a.reservationId = p.allocation.reservationId ∧ a.settledMicroRub = p.paid ∧
      a.reservedMicroRub = p.allocation.reservedMicroRub)

theorem Db.payOut_paidOut (h : Keys db) (ha : p.allocation ∈ db.allocations)
    (unpaid : p.allocation.settledMicroRub = 0) : PaidOut db (db.payOut p) p := by
  unfold Db.payOut
  rw [appendLedger_foldl_buckets]
  refine ⟨?_, rfl, rfl, fun _ => total_update_same fun _ => rfl,
    fun _ => settledWhere_pay h.allocations ha unpaid p.paid, ?_⟩
  · have rows := h.updateAllocation p.allocation.id
      (f := fun a => { a with settledMicroRub := p.paid }) (fun _ => rfl) (fun _ => rfl) fun _ => rfl
    exact (rows.updateBucket p.allocation.bucketId (f := payBucket p) (fun _ => rfl)
      fun _ => rfl).setLedger _
  · intro a' ha'
    obtain ⟨old, hold, rfl⟩ := mem_update.1 ha'
    by_cases hid : old.id = p.allocation.id
    · have same := eq_of_key h.allocations hold ha hid
      rw [if_pos hid, same]
      exact .inr ⟨rfl, rfl, rfl⟩
    · simp only [hid, if_false]
      exact .inl hold

/-- The allocation of a reservation that is no longer `ACTIVE` is paid out
once, from the holds still pending on its bucket. -/
theorem Balanced.pay {db' : Db} (h : Balanced db t) (paid : PaidOut db db' p)
    (closed : db.isActive p.allocation.reservationId = false) (nonneg : 0 ≤ p.paid)
    (le : p.paid ≤ p.allocation.reservedMicroRub)
    (held : p.allocation.reservedMicroRub ≤ t.held p.allocation.bucketId) : Balanced db' (t.pay p) where
  keys := paid.keys
  allocation a' ha' := by
    rw [isActive_congr paid.reservations]
    rcases paid.rows a' ha' with old | ⟨same, settled, reserved⟩
    · exact h.allocation a' old
    · rw [same, closed, settled, reserved]
      exact ⟨nonneg, le, by simp⟩
  bucket b' hb' := by
    have holds (id : Nat) : db'.heldOn id = db.heldOn id := by
      simp [Db.heldOn, isActive_congr paid.reservations, paid.reserved]
    rw [paid.buckets] at hb'
    obtain ⟨b, hb, rfl⟩ := mem_update.1 hb'
    obtain ⟨h0, h1, h2, h3⟩ := h.bucket b hb
    have others := h.heldOn_nonneg b.id
    simp only [holds, Db.settledOn, paid.settled, Pending.pay] at h3 ⊢
    by_cases hid : b.id = p.allocation.bucketId
    · simp only [hid, if_true, payBucket, decide_true] at h2 h3 others ⊢
      exact ⟨by omega, by omega, by omega, by omega⟩
    · have hid' : p.allocation.bucketId ≠ b.id := fun e => hid e.symm
      simp only [hid, if_false, hid', decide_false, false_eq_true]
      exact ⟨h0, h1, by omega, by omega⟩
  reservation r hr := by
    rw [paid.reservations] at hr
    obtain ⟨h0, h1⟩ := h.reservation r hr
    simp only [Db.reservedOf, paid.reserved, Db.settledOf, paid.settled, Pending.pay] at h0 h1 ⊢
    refine ⟨h0, fun status => ?_⟩
    have := h1 status
    by_cases hid : r.id = p.allocation.reservationId
    · simp only [hid, decide_true, if_true] at this ⊢
      omega
    · have hid' : p.allocation.reservationId ≠ r.id := fun e => hid e.symm
      simp only [hid, hid', decide_false, if_false, false_eq_true]
      omega

/-- Leaving `ACTIVE` turns the reservation's holds into holds to lift. -/
theorem Balanced.close (h : Balanced db .none) (hr : r ∈ db.reservations) (active : r.status = .active)
    {status : ReservationStatus} (left : status ≠ .active) (actual : Int) :
    Balanced (db.updateReservation r.id fun row => { row with settledMicroRub := actual, status := status })
      { held := fun b => reservedWhere (fun r' b' => b' = b ∧ r' = r.id) db.allocations
        unpaid := fun r' => if r' = r.id then actual else 0 } := by
  have wasActive : db.isActive r.id = true := isActive_iff.2 ⟨r, hr, rfl, active⟩
  have nowActive (id : Nat) : Db.isActive (db.updateReservation r.id
      fun row => { row with settledMicroRub := actual, status := status }) id =
      (db.isActive id && id ≠ r.id) := by
    rw [Bool.eq_iff_iff, isActive_iff, Bool.and_eq_true, isActive_iff]
    constructor
    · rintro ⟨row', hrow', rfl, hs⟩
      obtain ⟨row, hrow, rfl⟩ := mem_update.1 hrow'
      by_cases hid : row.id = r.id
      · simp only [hid, if_true] at hs
        exact absurd hs left
      · simp only [hid, if_false] at hs ⊢
        exact ⟨⟨row, hrow, rfl, hs⟩, by simpa using hid⟩
    · rintro ⟨⟨row, hrow, rfl, hs⟩, hne⟩
      exact ⟨row, mem_update_of_ne hrow (by simpa using hne), rfl, hs⟩
  refine ⟨h.keys.updateReservation r.id (fun _ => rfl) fun _ => rfl, ?_, ?_, ?_⟩
  · intro a ha
    obtain ⟨h0, h1, h2⟩ := h.allocation a ha
    refine ⟨h0, h1, fun hact => h2 ?_⟩
    rw [nowActive, and_eq_true] at hact
    exact hact.1
  · intro b hb
    obtain ⟨h0, h1, h2, h3⟩ := h.bucket b hb
    refine ⟨h0, h1, ?_, h3⟩
    rw [h2]
    simp only [Db.heldOn, Db.updateReservation, Pending.none] at nowActive ⊢
    simp only [nowActive, reservedWhere, ← total_add, Int.add_zero]
    apply total_congr
    intro a _
    by_cases hid : a.reservationId = r.id
    · simp [hid, wasActive]
    · simp [hid]
  · intro r' hr'
    obtain ⟨row, hrow, rfl⟩ := mem_update.1 hr'
    obtain ⟨h0, h1⟩ := h.reservation row hrow
    have zero (hid : row.id = r.id) : db.settledOf r.id = 0 := settledWhere_zero fun a ha he =>
      (h.allocation a ha).2.2 (by simpa [of_decide_eq_true he] using wasActive)
    simp only [Db.reservedOf, Db.settledOf, Db.updateReservation, Pending.none] at h0 h1 zero ⊢
    by_cases hid : row.id = r.id
    · simp only [hid, if_true] at h0 ⊢
      refine ⟨h0, fun _ => ?_⟩
      omega
    · simp only [hid, if_false]
      exact ⟨h0, h1⟩

end Vimla.Billing
