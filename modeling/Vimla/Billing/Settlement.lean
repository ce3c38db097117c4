import Vimla.Billing.UsageViews

/-!
# Ending a reservation

`settleUsage` and `releaseUsage` on an `ACTIVE` reservation never fail, and the
tables they leave are one fold of payouts over the reservation's allocations.
-/

namespace Vimla.Billing

open List Rows

section Payouts
variable {input : SettleInput} {reservationId : Nat} {order : List UsageReservationAllocation}
  {actual : Int}

/-- Every payout of a settle is its allocation's, with what its bucket is charged. -/
theorem settlePayouts_forall {P : Payout → Prop}
    (each : ∀ a paid, P ⟨a, paid, settleEntries input reservationId a.bucketId paid (a.reservedMicroRub - paid)⟩) :
    ∀ p ∈ settlePayouts input reservationId order actual, P p := by
  induction order generalizing actual with
  | nil => simp [settlePayouts]
  | cons a order ih =>
    intro p hp
    simp only [settlePayouts, mem_cons] at hp
    rcases hp with rfl | hp
    · exact each a _
    · exact ih p hp

theorem settlePayouts_entries : ∀ p ∈ settlePayouts input reservationId order actual,
    p.entries = settleEntries input reservationId p.allocation.bucketId p.paid (p.allocation.reservedMicroRub - p.paid) :=
  settlePayouts_forall fun _ _ => rfl

theorem settlePayouts_allocations :
    (settlePayouts input reservationId order actual).map (·.allocation) = order := by
  induction order generalizing actual with
  | nil => rfl
  | cons a order ih => simp [settlePayouts, ih]

theorem settlePayouts_range (reserved : ∀ a ∈ order, 0 ≤ a.reservedMicroRub) (nonneg : 0 ≤ actual) :
    ∀ p ∈ settlePayouts input reservationId order actual,
      0 ≤ p.paid ∧ p.paid ≤ p.allocation.reservedMicroRub := by
  induction order generalizing actual with
  | nil => simp [settlePayouts]
  | cons a order ih =>
    have ha := reserved a mem_cons_self
    intro p hp
    simp only [settlePayouts, mem_cons] at hp
    rcases hp with rfl | hp
    · simp only
      split <;> omega
    · refine ih (fun b hb => reserved b (mem_cons_of_mem a hb)) ?_ p hp
      split <;> omega

/-- A settlement that the holds cover is paid in full. -/
theorem settlePayouts_total (reserved : ∀ a ∈ order, 0 ≤ a.reservedMicroRub) (nonneg : 0 ≤ actual)
    (le : actual ≤ total (·.reservedMicroRub) order) :
    total (·.paid) (settlePayouts input reservationId order actual) = actual := by
  induction order generalizing actual with
  | nil =>
    simp only [total_nil] at le
    simp only [settlePayouts, total_nil]
    omega
  | cons a order ih =>
    have tail : ∀ b ∈ order, 0 ≤ b.reservedMicroRub := fun b hb =>
      reserved b (mem_cons_of_mem a hb)
    have sum : 0 ≤ total (·.reservedMicroRub) order := total_nonneg tail
    simp only [settlePayouts, total_cons] at le ⊢
    rw [ih tail (by split <;> omega) (by split <;> omega)]
    omega

end Payouts

theorem orderAllocations_perm (allocations : List UsageReservationAllocation)
    (buckets : List LockedBucket) : (orderAllocations allocations buckets).Perm allocations :=
  perm_insertionSort _ allocations

def setEstimate (x : Int) : UsageReservation → UsageReservation :=
  fun row => { row with estimatedMicroRub := x }

/-- Extra funding and the estimate it raises. -/
def Db.fund (db : Db) (r : UsageReservation) (extra : Int) (plan : List ReservationAllocationPlan)
    (order : List UsageReservationAllocation) : Db × List UsageReservationAllocation :=
  let (db, order) := plan.foldl (extend r.id) (db, order)
  (db.updateReservation r.id (setEstimate (r.estimatedMicroRub + extra)), order)

/-- Paying `actual` over the allocations and leaving `ACTIVE`. -/
def Db.finish (db : Db) (r : UsageReservation) (actual : Int) (status : ReservationStatus)
    (payouts : List Payout) : Db :=
  (payouts.foldl Db.payOut db).updateReservation r.id fun row =>
    { row with settledMicroRub := actual, status := status }

/-- What a settle is about to pay: from which tables, in which order of
allocations, how much, and how the reservation ends. -/
structure Settlement where
  db : Db
  order : List UsageReservationAllocation
  actual : Int
  status : ReservationStatus

def settlement (clock : SettleClock) (input : SettleInput) (r : UsageReservation) (db : Db) :
    Settlement :=
  let allocations := db.allocationsOf r.id
  let buckets := lockUserBuckets db clock.lockedAt input.userId (allocations.map (·.bucketId))
  let order := orderAllocations allocations buckets
  let extra := input.actualMicroRub - r.estimatedMicroRub
  if input.actualMicroRub > r.estimatedMicroRub then
    match planReservationAllocations (spendableBuckets clock.spendableAt buckets) extra with
    | some plan =>
      let (db, order) := db.fund r extra plan order
      ⟨db, order, input.actualMicroRub, .settled⟩
    | none => ⟨db, order, r.estimatedMicroRub, .anomaly⟩
  else ⟨db, order, input.actualMicroRub, .settled⟩

def Settlement.result (s : Settlement) (input : SettleInput) (r : UsageReservation) : Db :=
  s.db.finish r s.actual s.status (settlePayouts input r.id s.order s.actual)

variable {db : Db} {r : UsageReservation} {f : UsageReservation → UsageReservation} {reservationId : Nat}

/-- A settle pays out from the tables it finds, or from those of its extra funding. -/
theorem settlement_db {P : Db → Prop} (clock : SettleClock) (input : SettleInput) (same : P db)
    (funded : ∀ plan order, P (db.fund r (input.actualMicroRub - r.estimatedMicroRub) plan order).1) :
    P (settlement clock input r db).db := by
  unfold settlement
  simp only
  split
  · split
    · exact funded _ _
    · exact same
  · exact same

/-- Every allocation of a user's reservation is on a bucket that was locked. -/
theorem allocations_locked (keys : Keys db) (hr : r ∈ db.reservations) (now : Int) :
    Locked (lockUserBuckets db now r.userId ((db.allocationsOf r.id).map (·.bucketId)))
      ((db.allocationsOf r.id).map (·.bucketId)) := by
  intro id hid
  obtain ⟨a, ha, rfl⟩ := mem_map.1 hid
  obtain ⟨hmem, hres⟩ := mem_filter.1 ha
  obtain ⟨r', hr', hid', b, hb, hbid, user⟩ := keys.linked a hmem
  have same : r' = r := eq_of_key keys.reservations hr' hr
    (hid'.trans (by simpa using hres))
  subst same
  exact ⟨b.locked, mem_lockUserBuckets.2 ⟨b, hb, ⟨user, .inl (hbid ▸ hid)⟩, rfl⟩, hbid⟩

theorem Locked.mono {buckets buckets' : List LockedBucket} {ids : List Nat}
    (same : buckets'.map (·.id) = buckets.map (·.id)) (h : Locked buckets ids) :
    Locked buckets' ids := by
  intro id hid
  obtain ⟨lb, hlb, rfl⟩ := h id hid
  have : lb.id ∈ buckets'.map (·.id) := same ▸ mem_map_of_mem hlb
  obtain ⟨lb', hlb', e⟩ := mem_map.1 this
  exact ⟨lb', hlb', e⟩

/-- Extra funding adds to the order only buckets of its plan. -/
theorem extends_order (reservationId : Nat) (plan : List ReservationAllocationPlan)
    (s : Db × List UsageReservationAllocation) :
    ∀ a ∈ (plan.foldl (extend reservationId) s).2,
      a.bucketId ∈ s.2.map (·.bucketId) ∨ a.bucketId ∈ plan.map (·.bucketId) := by
  induction plan generalizing s with
  | nil => exact fun a ha => .inl (mem_map_of_mem ha)
  | cons p plan ih =>
    intro a ha
    rcases ih _ a ha with h | h
    · obtain ⟨b, hb, e⟩ := mem_map.1 h
      rw [← e]
      simp only [extend] at hb
      cases hfind : find UsageReservationAllocation.bucketId p.bucketId s.2 with
      | some existing =>
        simp only [hfind] at hb
        obtain ⟨old, hold, rfl⟩ := mem_update.1 hb
        refine .inl (mem_map.2 ⟨old, hold, ?_⟩)
        split <;> rfl
      | none =>
        simp only [hfind, mem_append, mem_singleton] at hb
        rcases hb with hb | rfl
        · exact .inl (mem_map_of_mem hb)
        · exact .inr mem_cons_self
    · exact .inr (mem_cons_of_mem _ h)

theorem updateReservation_ids {id : Nat} (same : ∀ row, (f row).id = row.id) :
    (db.updateReservation id f).reservations.map UsageReservation.id =
      db.reservations.map UsageReservation.id :=
  map_update same

theorem getReservation_updateReservation (hr : r.id ∈ db.reservations.map UsageReservation.id)
    (same : ∀ row, (f row).id = row.id) : ∃ view, getReservation (db.updateReservation r.id f) r.id = .ok view := by
  obtain ⟨row, hrow, hid⟩ := mem_map.1 hr
  have mem : f row ∈ (db.updateReservation r.id f).reservations := mem_update_self hrow hid
  obtain ⟨found, hfound⟩ := find_isSome_of_mem mem ((same row).trans hid)
  unfold getReservation
  rw [hfound]
  exact ⟨_, rfl⟩

/-- The end of a settle, once its funding is in place. -/
theorem settle_tail (input : SettleInput) (actual : Int) (status : ReservationStatus) {s : Settling}
    (mirrors : Mirrors s.db s.buckets) (nd : s.db.BucketIds)
    (locked : Locked s.buckets (s.allocationOrder.map (·.bucketId)))
    (hr : r.id ∈ s.db.reservations.map UsageReservation.id) :
    settleLoop input r.id s.allocationOrder actual s.db s.buckets =
        .ok ((settlePayouts input r.id s.allocationOrder actual).foldl Db.payOut s.db) ∧
      ∃ view, getReservation (s.db.finish r actual status
        (settlePayouts input r.id s.allocationOrder actual)) r.id = .ok view := by
  refine ⟨settleLoop_eq input r.id _ mirrors nd locked, ?_⟩
  apply getReservation_updateReservation
  · rw [payOuts_reservations]
    exact hr
  · exact fun _ => rfl

/-- Settling an `ACTIVE` reservation succeeds with the tables of `settlement`. -/
theorem settleActive_eq (clock : SettleClock) {input : SettleInput} (h : Balanced db .none)
    (hr : r ∈ db.reservations) (active : r.status = .active) (user : input.userId = r.userId) :
    ∃ view, settleActive clock input r db =
      .ok ((settlement clock input r db).result input r, view) := by
  have mirrors := lockUserBuckets_mirrors db clock.lockedAt input.userId
    ((db.allocationsOf r.id).map (·.bucketId))
  have locked := allocations_locked h.keys hr clock.lockedAt
  rw [← user] at locked
  have perm := orderAllocations_perm (db.allocationsOf r.id)
    (lockUserBuckets db clock.lockedAt input.userId ((db.allocationsOf r.id).map (·.bucketId)))
  have orderLocked : Locked _ _ := fun id hid => locked id ((perm.map _).subset hid)
  have hid : r.id ∈ db.reservations.map UsageReservation.id := mem_map_of_mem hr
  have funding := @planReservationAllocations_funds db h.keys.buckets clock.lockedAt input.userId
    ((db.allocationsOf r.id).map (·.bucketId)) (fun b => unexpired clock.spendableAt b.expiresAt)
    (input.actualMicroRub - r.estimatedMicroRub)
  unfold settleActive settlement Settlement.result
  simp only
  generalize lockUserBuckets db clock.lockedAt input.userId
    ((db.allocationsOf r.id).map (·.bucketId)) = buckets at *
  generalize orderAllocations (db.allocationsOf r.id) buckets = order at *
  by_cases above : input.actualMicroRub > r.estimatedMicroRub
  · cases hplan : planReservationAllocations (spendableBuckets clock.spendableAt buckets)
        (input.actualMicroRub - r.estimatedMicroRub) with
    | none =>
      obtain ⟨loop, view, hview⟩ := settle_tail input r.estimatedMicroRub .anomaly
        (s := ⟨db, buckets, order⟩) mirrors h.keys.buckets orderLocked hid
      refine ⟨view, ?_⟩
      simp only [Db.finish] at hview
      simp [above, bind, Except.bind, pure, Except.pure, loop, hview, Db.finish]
    | some plan =>
      obtain ⟨funds, -, planLocked⟩ := funding hplan
      rw [user] at funds
      have stored : Stored db order := ⟨h.keys.allocations, h.keys.allocationFresh,
        fun a ha => (mem_filter.1 (perm.subset ha)).1⟩
      obtain ⟨s, extra, mirrors', same, fold⟩ := extraLoop_eq r.id plan (s := ⟨db, buckets, order⟩)
        mirrors h.keys.buckets stored planLocked
      obtain ⟨hdb, horder⟩ := Prod.mk.inj fold
      have extended := (h.extends hr active funds perm).1
      rw [← hdb] at extended
      have orderLocked' : Locked s.buckets (s.allocationOrder.map (·.bucketId)) := by
        intro id hid
        obtain ⟨a, ha, rfl⟩ := mem_map.1 hid
        rw [horder] at ha
        rcases extends_order r.id plan (db, order) a ha with old | new
        · exact orderLocked.mono same _ old
        · exact planLocked.mono same _ new
      let raised := setEstimate (r.estimatedMicroRub + (input.actualMicroRub - r.estimatedMicroRub))
      have raises : (fun row : UsageReservation => { row with
        estimatedMicroRub := r.estimatedMicroRub + (input.actualMicroRub - r.estimatedMicroRub) }) =
          raised := rfl
      have hid' : r.id ∈ (s.db.updateReservation r.id raised).reservations.map
          UsageReservation.id := by
        rw [updateReservation_ids (f := raised) fun _ => rfl, hdb, extends_reservations]
        exact hid
      obtain ⟨loop, view, hview⟩ := settle_tail input input.actualMicroRub .settled
        (s := ⟨s.db.updateReservation r.id raised, s.buckets, s.allocationOrder⟩) mirrors'
        extended.keys.buckets orderLocked' hid'
      refine ⟨view, ?_⟩
      simp only [Db.finish] at hview
      simp only [above, if_true, bind, Except.bind, pure, Except.pure, extra, raises, loop, hview,
        Db.fund, ← hdb, ← horder, Bool.false_eq_true, if_false]
      rfl
  · obtain ⟨loop, view, hview⟩ := settle_tail input input.actualMicroRub .settled
      (s := ⟨db, buckets, order⟩) mirrors h.keys.buckets orderLocked hid
    refine ⟨view, ?_⟩
    simp only [Db.finish] at hview
    simp [above, bind, Except.bind, pure, Except.pure, loop, hview, Db.finish]

/-- Raising the estimate to what is allocated balances the reservation again. -/
theorem Balanced.raiseEstimate {x : Int} (h : Balanced db (Pending.none.allocate r.id x))
    (hr : r ∈ db.reservations) : Balanced (db.updateReservation r.id (setEstimate (r.estimatedMicroRub + x))) .none := by
  have active (id : Nat) : Db.isActive
      (db.updateReservation r.id (setEstimate (r.estimatedMicroRub + x))) id = db.isActive id := by
    rw [Bool.eq_iff_iff, isActive_iff, isActive_iff]
    constructor
    · rintro ⟨row', hrow', rfl, hs⟩
      obtain ⟨row, hrow, rfl⟩ := mem_update.1 hrow'
      refine ⟨row, hrow, ?_⟩
      split at hs <;> exact ⟨by split <;> rfl, hs⟩
    · rintro ⟨row, hrow, rfl, hs⟩
      refine ⟨_, mem_update.2 ⟨row, hrow, rfl⟩, ?_⟩
      split <;> exact ⟨rfl, hs⟩
  refine ⟨h.keys.updateReservation r.id (fun _ => rfl) fun _ => rfl, ?_, ?_, ?_⟩
  · intro a ha
    rw [active]
    exact h.allocation a ha
  · intro b hb
    obtain ⟨h0, h1, h2, h3⟩ := h.bucket b hb
    refine ⟨h0, h1, ?_, h3⟩
    simp only [Db.heldOn, active]
    exact h2
  · intro r' hr'
    obtain ⟨row, hrow, rfl⟩ := mem_update.1 hr'
    obtain ⟨h0, h1⟩ := h.reservation row hrow
    simp only [Pending.allocate, Pending.none] at h0 h1 ⊢
    by_cases hid : row.id = r.id
    · obtain rfl := eq_of_key h.keys.reservations hrow hr hid
      simp only [if_true] at h0 ⊢
      refine ⟨?_, h1⟩
      have : db.reservedOf row.id = row.estimatedMicroRub + x := by omega
      rw [Int.add_zero]
      exact this
    · simp only [hid, if_false, Int.sub_zero] at h0 ⊢
      exact ⟨h0, h1⟩

/-- What `settlement` prepares: balanced tables, every allocation of the
reservation in order, and an amount within the estimate. -/
structure Settlement.Ready (s : Settlement) (r : UsageReservation) : Prop where
  balanced : Balanced s.db .none
  order : s.order.Perm (s.db.allocationsOf r.id)
  nonneg : 0 ≤ s.actual
  row : ∃ row ∈ s.db.reservations, row.id = r.id ∧ row.status = .active ∧
    s.actual ≤ row.estimatedMicroRub
  ends : s.status = .settled ∨ s.status = .anomaly

theorem settlement_ready (clock : SettleClock) {input : SettleInput} (h : Balanced db .none)
    (hr : r ∈ db.reservations) (active : r.status = .active) (user : input.userId = r.userId)
    (nonneg : 0 ≤ input.actualMicroRub) : (settlement clock input r db).Ready r := by
  have perm := orderAllocations_perm (db.allocationsOf r.id)
    (lockUserBuckets db clock.lockedAt input.userId ((db.allocationsOf r.id).map (·.bucketId)))
  have funding := @planReservationAllocations_funds db h.keys.buckets clock.lockedAt input.userId
    ((db.allocationsOf r.id).map (·.bucketId)) (fun b => unexpired clock.spendableAt b.expiresAt)
    (input.actualMicroRub - r.estimatedMicroRub)
  have estimate : 0 ≤ r.estimatedMicroRub := by
    obtain ⟨h0, -⟩ := h.reservation r hr
    have : 0 ≤ db.reservedOf r.id := reservedWhere_nonneg fun a ha => h.reserved_nonneg ha
    simp only [Pending.none] at h0
    omega
  unfold settlement
  simp only
  generalize lockUserBuckets db clock.lockedAt input.userId
    ((db.allocationsOf r.id).map (·.bucketId)) = buckets at *
  generalize orderAllocations (db.allocationsOf r.id) buckets = order at *
  by_cases above : input.actualMicroRub > r.estimatedMicroRub
  · simp only [above, if_true]
    cases hplan : planReservationAllocations (spendableBuckets clock.spendableAt buckets)
        (input.actualMicroRub - r.estimatedMicroRub) with
    | none => exact ⟨h, perm, estimate, ⟨r, hr, rfl, active, Int.le_refl _⟩, .inr rfl⟩
    | some plan =>
      obtain ⟨funds, sum, -⟩ := funding hplan
      rw [user] at funds
      obtain ⟨extended, order'⟩ := h.extends hr active funds perm
      rw [sum] at extended
      have hr' : r ∈ (plan.foldl (extend r.id) (db, order)).1.reservations := by
        rw [extends_reservations]
        exact hr
      refine ⟨extended.raiseEstimate hr', order', nonneg, ?_, .inl rfl⟩
      exact ⟨_, mem_update_self hr' rfl, rfl, active, by simp only [setEstimate]; omega⟩
  · simp only [above, if_false]
    exact ⟨h, perm, nonneg, ⟨r, hr, rfl, active, by simp only; omega⟩, .inl rfl⟩

theorem liftedFrom_eq {payouts : List Payout}
    (perm : (payouts.map (·.allocation)).Perm (db.allocationsOf reservationId)) (bucketId : Nat) :
    liftedFrom payouts bucketId =
      reservedWhere (fun r b => b = bucketId ∧ r = reservationId) db.allocations := by
  have byAllocation : liftedFrom payouts bucketId = total (fun a => if a.bucketId = bucketId
      then a.reservedMicroRub else 0) (payouts.map (·.allocation)) := by
    rw [total_map]
    rfl
  rw [byAllocation, total_perm perm, Db.allocationsOf, ← total_filter]
  apply total_congr
  intro a _
  by_cases hr : a.reservationId = reservationId <;> by_cases hb : a.bucketId = bucketId <;>
    simp [hr, hb]

theorem reservedOf_eq {order : List UsageReservationAllocation}
    (perm : order.Perm (db.allocationsOf reservationId)) :
    total (·.reservedMicroRub) order = db.reservedOf reservationId := by
  rw [total_perm perm, Db.allocationsOf, ← total_filter]
  rfl

/-- Paying out every allocation of an `ACTIVE` reservation and leaving
`ACTIVE` keeps the balance. -/
theorem Balanced.finish (h : Balanced db .none) {row : UsageReservation} (hrow : row ∈ db.reservations)
    (active : row.status = .active) {payouts : List Payout}
    (perm : (payouts.map (·.allocation)).Perm (db.allocationsOf row.id))
    (range : ∀ p ∈ payouts, 0 ≤ p.paid ∧ p.paid ≤ p.allocation.reservedMicroRub) {status : ReservationStatus}
    (left : status ≠ .active) : Balanced (db.finish row (total (·.paid) payouts) status payouts) .none := by
  have closed := h.close hrow active left (total (·.paid) payouts)
  have isActive : db.isActive row.id = true := isActive_iff.2 ⟨row, hrow, rfl, active⟩
  unfold Db.finish
  rw [payOuts_updateReservation]
  generalize hdb : db.updateReservation row.id (fun r =>
    { r with settledMicroRub := total (·.paid) payouts, status := status }) = db' at closed ⊢
  have inactive : db'.isActive row.id = false := by
    rw [Bool.eq_false_iff]
    intro hact
    obtain ⟨r, hr, hid, hs⟩ := isActive_iff.1 hact
    rw [← hdb] at hr
    obtain ⟨old, -, rfl⟩ := mem_update.1 hr
    by_cases same : old.id = row.id
    · rw [if_pos same] at hs
      exact left hs
    · rw [if_neg same] at hid
      exact same hid
  have payable : Payable db' row.id payouts := by
    constructor
    · have ids : (db.allocationsOf row.id).map (·.id) |>.Nodup :=
        h.keys.allocations.sublist (filter_sublist.map _)
      have := ((perm.map UsageReservationAllocation.id).nodup_iff).2 ids
      rwa [map_map] at this
    · intro p hp
      obtain ⟨hmem, hres⟩ := mem_filter.1 (perm.subset (mem_map_of_mem hp))
      have hres : p.allocation.reservationId = row.id := by simpa using hres
      refine ⟨?_, hres, (h.allocation _ hmem).2.2 (hres ▸ isActive), range p hp⟩
      rw [← hdb]
      exact hmem
  have paid := closed.payOuts inactive payable fun b => (liftedFrom_eq perm b).symm
  refine cast (congrArg _ ?_) paid
  simp only [Pending.none, Pending.mk.injEq, true_and]
  funext i
  split <;> omega

variable {s : Settlement} {input : ReleaseInput}

theorem Settlement.Ready.payouts (ready : s.Ready r) (input : SettleInput) :
    (∀ p ∈ settlePayouts input r.id s.order s.actual,
      0 ≤ p.paid ∧ p.paid ≤ p.allocation.reservedMicroRub) ∧
    total (·.paid) (settlePayouts input r.id s.order s.actual) = s.actual := by
  have reserved : ∀ a ∈ s.order, 0 ≤ a.reservedMicroRub := fun a ha =>
    ready.balanced.reserved_nonneg (mem_filter.1 (ready.order.subset ha)).1
  obtain ⟨row, hrow, hid, -, le⟩ := ready.row
  have sum := (ready.balanced.reservation row hrow).1
  rw [hid, ← reservedOf_eq ready.order] at sum
  simp only [Pending.none] at sum
  exact ⟨settlePayouts_range reserved ready.nonneg,
    settlePayouts_total reserved ready.nonneg (by omega)⟩

theorem Settlement.Ready.result_balanced (ready : s.Ready r) (input : SettleInput) :
    Balanced (s.result input r) .none := by
  obtain ⟨range, total⟩ := ready.payouts input
  obtain ⟨row, hrow, hid, active, -⟩ := ready.row
  have left : s.status ≠ .active := by
    rcases ready.ends with e | e <;> rw [e] <;> decide
  have perm : ((settlePayouts input r.id s.order s.actual).map (·.allocation)).Perm
      (s.db.allocationsOf r.id) := by
    rw [settlePayouts_allocations]
    exact ready.order
  rw [← hid] at range total perm
  have := ready.balanced.finish hrow active perm range left
  rw [total] at this
  unfold Settlement.result
  unfold Db.finish at this ⊢
  rwa [← hid]

theorem releasePayouts_allocations {allocations : List UsageReservationAllocation} :
    (releasePayouts input reservationId allocations).map (·.allocation) = allocations := by
  unfold releasePayouts
  rw [map_map]
  exact map_id allocations

theorem releasePayouts_paid {reservationId : Nat} {allocations : List UsageReservationAllocation} :
    ∀ p ∈ releasePayouts input reservationId allocations, p.paid = 0 := by
  intro p hp
  obtain ⟨a, -, rfl⟩ := mem_map.1 hp
  rfl

/-- The tables a release leaves. -/
def release (input : ReleaseInput) (r : UsageReservation) (db : Db) : Db :=
  db.finish r 0 .released (releasePayouts input r.id (db.allocationsOf r.id))

theorem releaseActive_eq (now : Int) (h : Balanced db .none) (hr : r ∈ db.reservations)
    (user : input.userId = r.userId) : ∃ view, releaseActive now input r db = .ok (release input r db, view) := by
  have mirrors := lockUserBuckets_mirrors db now input.userId
    ((db.allocationsOf r.id).map (·.bucketId))
  have locked := allocations_locked h.keys hr now
  rw [← user] at locked
  have loop := releaseLoop_eq input r.id (db.allocationsOf r.id) mirrors h.keys.buckets locked
  have stays : r.id ∈ ((releasePayouts input r.id (db.allocationsOf r.id)).foldl Db.payOut
      db).reservations.map UsageReservation.id := by
    rw [payOuts_reservations]
    exact mem_map_of_mem hr
  obtain ⟨view, hview⟩ := getReservation_updateReservation stays
    (f := fun row => { row with status := .released, settledMicroRub := 0 }) fun _ => rfl
  refine ⟨view, ?_⟩
  unfold releaseActive
  simp only [bind, Except.bind, pure, Except.pure, loop, hview]
  rfl

theorem release_balanced (input : ReleaseInput) (h : Balanced db .none) (hr : r ∈ db.reservations)
    (active : r.status = .active) : Balanced (release input r db) .none := by
  have perm : ((releasePayouts input r.id (db.allocationsOf r.id)).map (·.allocation)).Perm
      (db.allocationsOf r.id) := List.Perm.of_eq releasePayouts_allocations
  have unpaid := total_eq_zero (g := Payout.paid)
    (@releasePayouts_paid input r.id (db.allocationsOf r.id))
  have range : ∀ p ∈ releasePayouts input r.id (db.allocationsOf r.id),
      0 ≤ p.paid ∧ p.paid ≤ p.allocation.reservedMicroRub := by
    intro p hp
    obtain ⟨a, ha, rfl⟩ := mem_map.1 hp
    exact ⟨Int.le_refl 0, h.reserved_nonneg (mem_filter.1 ha).1⟩
  have left : ReservationStatus.released ≠ .active := by decide
  have := h.finish hr active perm range left
  rwa [unpaid] at this

end Vimla.Billing
