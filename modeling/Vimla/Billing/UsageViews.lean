import Vimla.Billing.Balance
import Vimla.Billing.TariffSimulator

/-!
# Usage transactions on the rows

Each of `reserveUsage`, `settleUsage` and `releaseUsage` either leaves the
tables alone or is one fold of row updates; the theorems `*_cases` say which
fold, and `*_balanced` that it keeps the balance.
-/

namespace Vimla.Billing

open List Rows

/-- Every entry of the plan names another bucket of the user, with room for it. -/
structure Funds (db : Db) (userId : Nat) (plan : List ReservationAllocationPlan) : Prop where
  distinct : (plan.map (·.bucketId)).Nodup
  fits : ∀ p ∈ plan, 0 < p.reservedMicroRub ∧ ∃ b ∈ db.buckets, b.id = p.bucketId ∧
    b.userId = userId ∧ p.reservedMicroRub ≤ b.locked.available

theorem planReservationAllocations_funds {db : Db} (nd : db.BucketIds) {now : Int} {userId : Nat}
    {includeIds : List Nat} {keep : LockedBucket → Bool} {estimated : Int}
    {plan : List ReservationAllocationPlan}
    (h : planReservationAllocations
      ((lockUserBuckets db now userId includeIds).filter keep) estimated = some plan) :
    Funds db userId plan ∧ total (·.reservedMicroRub) plan = estimated ∧
      Locked (lockUserBuckets db now userId includeIds) (plan.map (·.bucketId)) := by
  have ids := (lockUserBuckets_ids nd now userId includeIds).sublist
    (filter_sublist (p := keep).map LockedBucket.id)
  obtain ⟨distinct, sum, fits⟩ := plan_spec ids h
  refine ⟨⟨distinct, fun p hp => ?_⟩, sum, ?_⟩
  · obtain ⟨lb, hlb, hid, pos, le⟩ := fits p hp
    obtain ⟨row, hrow, ⟨user, -⟩, rfl⟩ := mem_lockUserBuckets.1 (mem_filter.1 hlb).1
    exact ⟨pos, row, hrow, hid, user, le⟩
  · intro id hid
    obtain ⟨p, hp, rfl⟩ := mem_map.1 hid
    obtain ⟨lb, hlb, hid, -⟩ := fits p hp
    exact ⟨lb, (mem_filter.1 hlb).1, hid⟩

variable {db : Db} {p : ReservationAllocationPlan} {plan : List ReservationAllocationPlan} {t : Pending}
  {r : UsageReservation} {order : List UsageReservationAllocation}

variable {db' : Db} {userId reservationId : Nat} {now : Int} {input : ReserveInput} {view : ReservationView}
  {payouts : List Payout}

/-- Taking the first entry leaves room for the others: they name other buckets. -/
theorem Funds.next (h : Funds db userId (p :: plan))
    (hb : db'.buckets = update UsageBucket.id p.bucketId (addReserved p.reservedMicroRub)
      db.buckets) : Funds db' userId plan where
  distinct := (nodup_cons.1 h.distinct).2
  fits q hq := by
    obtain ⟨pos, b, hmem, hid, user, le⟩ := h.fits q (mem_cons_of_mem p hq)
    refine ⟨pos, b, ?_, hid, user, le⟩
    rw [hb]
    apply mem_update_of_ne hmem
    intro e
    exact (nodup_cons.1 h.distinct).1 (mem_map.2 ⟨q, hq, hid.symm.trans e⟩)

theorem Funds.head (nd : db.BucketIds) (h : Funds db userId (p :: plan)) :
    0 ≤ p.reservedMicroRub ∧ ∃ b ∈ db.buckets, b.id = p.bucketId ∧ b.userId = userId ∧
      ∀ b ∈ db.buckets, b.id = p.bucketId → p.reservedMicroRub ≤ b.locked.available := by
  obtain ⟨pos, b, hb, hid, user, le⟩ := h.fits p mem_cons_self
  refine ⟨by omega, b, hb, hid, user, fun b' hb' hid' => ?_⟩
  rwa [eq_of_key nd hb' hb (hid'.trans hid.symm)]

@[simp] theorem Pending.allocate_zero (t : Pending) (r : Nat) : t.allocate r 0 = t := by
  simp [Pending.allocate]

@[simp] theorem Pending.allocate_allocate (t : Pending) (r : Nat) (x y : Int) :
    (t.allocate r x).allocate r y = t.allocate r (x + y) := by
  simp only [Pending.allocate, Pending.mk.injEq, and_true]
  funext i
  split <;> omega

section
variable (h : Balanced db t) (hr : r ∈ db.reservations) (active : r.status = .active)
include h hr active

theorem Balanced.hold (funds : Funds db r.userId (p :: plan))
    (fresh : ∀ a ∈ db.allocations, a.reservationId = r.id → a.bucketId ≠ p.bucketId)
    (entry : ReservationAllocationPlan → UsageLedgerEntry) :
    Balanced (db.hold r.id entry p) (t.allocate r.id p.reservedMicroRub) := by
  obtain ⟨nonneg, b, hb, hid, user, fits⟩ := funds.head h.keys.buckets
  rw [← hid] at fresh
  have raised := Raised.create h.keys hr hb user nonneg fresh
  rw [hid] at raised
  exact (h.raise raised (isActive_iff.2 ⟨r, hr, rfl, active⟩) nonneg fits).setLedger _

theorem Balanced.holds (funds : Funds db r.userId plan)
    (fresh : ∀ p ∈ plan, ∀ a ∈ db.allocations, a.reservationId = r.id → a.bucketId ≠ p.bucketId)
    (entry : ReservationAllocationPlan → UsageLedgerEntry) : Balanced (plan.foldl (Db.hold r.id entry) db)
      (t.allocate r.id (total (·.reservedMicroRub) plan)) := by
  induction plan generalizing db t with
  | nil => simpa using h
  | cons p plan ih =>
    have step := h.hold hr active funds (fresh p mem_cons_self) entry
    rw [foldl_cons, total_cons, ← Pending.allocate_allocate]
    refine ih step hr (funds.next rfl) fun q hq a ha hres => ?_
    rcases mem_append.1 ha with ha | ha
    · exact fresh q (mem_cons_of_mem p hq) a ha hres
    · obtain rfl := mem_singleton.1 ha
      intro e
      exact (nodup_cons.1 funds.distinct).1 (mem_map.2 ⟨q, hq, e.symm⟩)

end

theorem reserveUsage_cases (nd : db.BucketIds) (h : reserveUsage now input db = .ok (db', view)) :
    db' = db ∨ ∃ plan, Funds db input.userId plan ∧
      total (·.reservedMicroRub) plan = input.estimatedProviderCostMicroRub ∧
      db' = plan.foldl (Db.hold db.nextId (holdEntry input db.nextId))
        (db.createReservation input.userId input.requestId input.estimatedProviderCostMicroRub).1 := by
  unfold reserveUsage at h
  split at h
  · cases h
  split at h
  · split at h
    · cases h
      exact .inl rfl
    · cases h
  · simp only at h
    split at h
    · cases h
    rename_i plan hplan
    have all : (lockUserBuckets db now input.userId []).filter (fun _ => true) =
      lockUserBuckets db now input.userId [] := filter_true _
    rw [← all] at hplan
    obtain ⟨funds, sum, locked⟩ := planReservationAllocations_funds nd hplan
    have mirrors : Mirrors (db.createReservation input.userId input.requestId
        input.estimatedProviderCostMicroRub).1 (lockUserBuckets db now input.userId []) :=
      lockUserBuckets_mirrors db now input.userId []
    rw [reserveLoop_eq input _ plan mirrors nd locked] at h
    refine .inr ⟨plan, funds, sum, ?_⟩
    simp only [bind, Except.bind, pure, Except.pure] at h
    split at h
    · cases h
    · cases h
      rfl

theorem Balanced.createReservation (h : Balanced db .none) (userId : Nat) (requestId : String) (estimated : Int) :
    Balanced (db.createReservation userId requestId estimated).1
      { due := fun r => if r = db.nextId then estimated else 0 } := by
  have other (a) (ha : a ∈ db.allocations) : a.reservationId ≠ db.nextId := by
    obtain ⟨r, hr, hid, -⟩ := h.keys.linked a ha
    have := h.keys.reservationFresh r hr
    omega
  have active (a) (ha : a ∈ db.allocations) : Db.isActive
      (db.createReservation userId requestId estimated).1 a.reservationId =
      db.isActive a.reservationId := by
    have := other a ha
    simp [Db.isActive, Db.createReservation, Ne.symm this]
  have lt (i : Nat) (hi : i < db.nextId) : i < db.nextId + 1 := by omega
  have ids := nodup_append (x := (db.createReservation userId requestId estimated).2)
    h.keys.reservations fun r hr => Nat.ne_of_lt (h.keys.reservationFresh r hr)
  refine ⟨⟨h.keys.buckets, ids, h.keys.allocations, fun b hb => lt _ (h.keys.bucketFresh b hb), ?_,
    fun a ha => lt _ (h.keys.allocationFresh a ha), h.keys.onePerBucket, fun a ha => ?_⟩, ?_, ?_, ?_⟩
  · intro r hr
    simp only [Db.createReservation, mem_append, mem_singleton] at hr ⊢
    rcases hr with hr | rfl
    · exact lt _ (h.keys.reservationFresh r hr)
    · exact Nat.lt_succ_self _
  · obtain ⟨r, hr, rest⟩ := h.keys.linked a ha
    exact ⟨r, mem_append_left _ hr, rest⟩
  · intro a ha
    rw [active a ha]
    exact h.allocation a ha
  · intro b hb
    obtain ⟨h0, h1, h2, h3⟩ := h.bucket b hb
    refine ⟨h0, h1, h2.trans ?_, h3⟩
    simp only [Pending.none, Int.add_zero, Db.heldOn]
    exact total_congr fun a ha => by simp only [active a ha]
  · intro r hr
    simp only [Db.createReservation, mem_append, mem_singleton] at hr
    rcases hr with hr | rfl
    · have := h.keys.reservationFresh r hr
      obtain ⟨h0, h1⟩ := h.reservation r hr
      have ne : r.id ≠ db.nextId := by omega
      simp only [ne, if_false]
      exact ⟨h0, h1⟩
    · refine ⟨?_, by simp⟩
      have : db.reservedOf db.nextId = 0 := total_eq_zero fun a ha => by simp [other a ha]
      simp only
      exact (congrArg (· + estimated) this).trans (Int.zero_add estimated)

theorem reserveUsage_balanced (h : Balanced db .none) (run : reserveUsage now input db = .ok (db', view)) :
    Balanced db' .none := by
  rcases reserveUsage_cases h.keys.buckets run with rfl | ⟨plan, funds, sum, rfl⟩
  · exact h
  have created := h.createReservation input.userId input.requestId
    input.estimatedProviderCostMicroRub
  have room : Funds (db.createReservation input.userId input.requestId
      input.estimatedProviderCostMicroRub).1 input.userId plan := ⟨funds.distinct, funds.fits⟩
  have holds := created.holds (r := ⟨db.nextId, input.userId, input.requestId,
      input.estimatedProviderCostMicroRub, 0, .active⟩)
    (mem_append_right _ mem_cons_self) rfl room
    (fun p _ a ha hres => by
      obtain ⟨r, hr, hid, -⟩ := h.keys.linked a ha
      have := h.keys.reservationFresh r hr
      simp only at hres
      omega)
    (holdEntry input db.nextId)
  rw [sum] at holds
  have none : Pending.allocate { due := fun r => if r = db.nextId then
      input.estimatedProviderCostMicroRub else 0 } db.nextId input.estimatedProviderCostMicroRub =
      .none := by
    simp only [Pending.allocate, Pending.none, Pending.mk.injEq, and_true]
    funext i
    split <;> omega
  rw [none] at holds
  exact holds

/-- The order in which a settle goes through allocations lists exactly those
of the reservation, also while extra funding grows them. -/
theorem Balanced.extend (h : Balanced db t) (hr : r ∈ db.reservations) (active : r.status = .active)
    (funds : Funds db r.userId (p :: plan)) (perm : order.Perm (db.allocationsOf r.id)) :
    Balanced (extend r.id (db, order) p).1 (t.allocate r.id p.reservedMicroRub) ∧
      (extend r.id (db, order) p).2.Perm ((extend r.id (db, order) p).1.allocationsOf r.id) := by
  obtain ⟨nonneg, b, hb, hid, user, fits⟩ := funds.head h.keys.buckets
  have isActive : db.isActive r.id = true := isActive_iff.2 ⟨r, hr, rfl, active⟩
  unfold Billing.extend
  cases hfind : find UsageReservationAllocation.bucketId p.bucketId order with
  | some existing =>
    obtain ⟨horder, hbucket⟩ := mem_of_find hfind
    obtain ⟨hmem, hres⟩ := mem_filter.1 (perm.subset horder)
    have hres : existing.reservationId = r.id := by simpa using hres
    have raised := Raised.grow h.keys hmem nonneg
    rw [hbucket, hres] at raised
    refine ⟨h.raise raised isActive nonneg fits, ?_⟩
    simp only [Db.allocationsOf, Db.updateAllocation, Db.updateBucket]
    rw [filter_update (f := growAllocation p.reservedMicroRub) fun _ => rfl]
    exact perm.map _
  | none =>
    have fresh : ∀ a ∈ db.allocations, a.reservationId = r.id → a.bucketId ≠ b.id := by
      intro a ha hres e
      have horder : a ∈ order := perm.symm.subset (mem_filter.2 ⟨ha, by simpa using hres⟩)
      obtain ⟨found, hfound⟩ := find_isSome_of_mem horder (e.trans hid)
      rw [hfind] at hfound
      cases hfound
    have raised := Raised.create h.keys hr hb user nonneg fresh
    rw [hid] at raised
    refine ⟨h.raise raised isActive nonneg fits, ?_⟩
    refine (perm.append_right _).trans (Perm.of_eq ?_)
    simp [Db.allocationsOf, Db.createAllocation, Db.updateBucket]

@[simp] theorem extend_reservations (reservationId : Nat)
    (s : Db × List UsageReservationAllocation) (p : ReservationAllocationPlan) :
    (extend reservationId s p).1.reservations = s.1.reservations := by
  simp only [extend]
  cases find UsageReservationAllocation.bucketId p.bucketId s.2 <;> rfl

theorem extends_reservations (reservationId : Nat) (plan : List ReservationAllocationPlan)
    (s : Db × List UsageReservationAllocation) :
    (plan.foldl (extend reservationId) s).1.reservations = s.1.reservations := by
  induction plan generalizing s with
  | nil => rfl
  | cons p plan ih => rw [foldl_cons, ih, extend_reservations]

theorem Balanced.extends (h : Balanced db t) (hr : r ∈ db.reservations) (active : r.status = .active)
    (funds : Funds db r.userId plan) (perm : order.Perm (db.allocationsOf r.id)) :
    Balanced (plan.foldl (Billing.extend r.id) (db, order)).1
        (t.allocate r.id (total (·.reservedMicroRub) plan)) ∧
      (plan.foldl (Billing.extend r.id) (db, order)).2.Perm
        ((plan.foldl (Billing.extend r.id) (db, order)).1.allocationsOf r.id) := by
  induction plan generalizing db t order with
  | nil => simpa using ⟨h, perm⟩
  | cons p plan ih =>
    obtain ⟨balanced, perm⟩ := h.extend hr active funds perm
    rw [foldl_cons, total_cons, ← Pending.allocate_allocate]
    refine ih balanced ?_ (funds.next ?_) perm
    · change r ∈ (Billing.extend r.id (db, order) p).1.reservations
      rw [extend_reservations]
      exact hr
    · exact extend_buckets r.id db order p

/-- The holds that payouts lift from one bucket. -/
def liftedFrom (payouts : List Payout) (bucketId : Nat) : Int :=
  total (fun p => if p.allocation.bucketId = bucketId then p.allocation.reservedMicroRub else 0)
    payouts

/-- What payouts charge to one bucket. -/
def chargedTo (payouts : List Payout) (bucketId : Nat) : Int :=
  total (fun p => if p.allocation.bucketId = bucketId then p.paid else 0) payouts

/-- The payouts are of distinct unpaid allocations of one reservation. -/
structure Payable (db : Db) (reservationId : Nat) (payouts : List Payout) : Prop where
  distinct : (payouts.map (·.allocation.id)).Nodup
  each : ∀ p ∈ payouts, p.allocation ∈ db.allocations ∧
    p.allocation.reservationId = reservationId ∧ p.allocation.settledMicroRub = 0 ∧
    0 ≤ p.paid ∧ p.paid ≤ p.allocation.reservedMicroRub

theorem payOut_eq (db : Db) (p : Payout) : db.payOut p = { db with
    buckets := update UsageBucket.id p.allocation.bucketId (payBucket p) db.buckets
    allocations := update UsageReservationAllocation.id p.allocation.id
      (fun a => { a with settledMicroRub := p.paid }) db.allocations
    ledger := db.ledger ++ p.entries } := by
  unfold Db.payOut
  rw [appendLedger_foldl_buckets]
  rfl

theorem Payable.next {p : Payout} (h : Payable db reservationId (p :: payouts)) :
    Payable (db.payOut p) reservationId payouts where
  distinct := (nodup_cons.1 h.distinct).2
  each q hq := by
    obtain ⟨hmem, rest⟩ := h.each q (mem_cons_of_mem p hq)
    refine ⟨?_, rest⟩
    rw [payOut_eq]
    apply mem_update_of_ne hmem
    intro e
    exact (nodup_cons.1 h.distinct).1 (mem_map.2 ⟨q, hq, e⟩)

theorem payOuts_reservations (payouts : List Payout) (db : Db) :
    (payouts.foldl Db.payOut db).reservations = db.reservations := by
  induction payouts generalizing db with
  | nil => rfl
  | cons p payouts ih => rw [foldl_cons, ih, payOut_eq]

theorem payOuts_updateReservation (payouts : List Payout) (db : Db) (id : Nat)
    (f : UsageReservation → UsageReservation) :
    (payouts.foldl Db.payOut db).updateReservation id f =
      payouts.foldl Db.payOut (db.updateReservation id f) := by
  induction payouts generalizing db with
  | nil => rfl
  | cons p payouts ih =>
    rw [foldl_cons, foldl_cons, ih]
    simp [payOut_eq, Db.updateReservation]

theorem Balanced.payOuts (h : Balanced db t) (closed : db.isActive reservationId = false)
    (payable : Payable db reservationId payouts) (held : ∀ b, t.held b = liftedFrom payouts b) :
    Balanced (payouts.foldl Db.payOut db) { t with
      held := fun _ => 0
      unpaid := fun r => t.unpaid r - if r = reservationId then total (·.paid) payouts else 0 } := by
  induction payouts generalizing db t with
  | nil =>
    have zero : t.held = fun _ => 0 := funext held
    simpa [← zero] using h
  | cons p payouts ih =>
    obtain ⟨hmem, hres, hzero, nonneg, le⟩ := payable.each p mem_cons_self
    have rest : 0 ≤ liftedFrom payouts p.allocation.bucketId := total_nonneg fun q hq => by
      obtain ⟨-, -, -, h0, h1⟩ := payable.each q (mem_cons_of_mem p hq)
      split <;> omega
    have covers : p.allocation.reservedMicroRub ≤ t.held p.allocation.bucketId := by
      rw [held]
      simp only [liftedFrom, total_cons, if_true] at rest ⊢
      omega
    have paid := Db.payOut_paidOut h.keys hmem hzero
    have step := h.pay paid (by rwa [hres]) nonneg le covers
    have closed' : (db.payOut p).isActive reservationId = false := by
      rwa [isActive_congr paid.reservations]
    have := ih step closed' payable.next fun b => by
      simp only [Pending.pay, held, liftedFrom, total_cons, eq_comm (a := b)]
      omega
    refine cast (congrArg _ ?_) this
    simp only [Pending.pay, hres, total_cons, Pending.mk.injEq, true_and]
    funext i
    split <;> omega

/-- What a list of payouts leaves in the bucket rows. -/
theorem payOuts_buckets (payouts : List Payout) (db : Db) :
    (payouts.foldl Db.payOut db).buckets = db.buckets.map fun b => { b with
      reservedMicroRub := b.reservedMicroRub - liftedFrom payouts b.id
      spentMicroRub := b.spentMicroRub + chargedTo payouts b.id } := by
  induction payouts generalizing db with
  | nil => simp [liftedFrom, chargedTo]
  | cons p payouts ih =>
    rw [foldl_cons, ih, payOut_eq, update, map_map]
    apply map_congr_left
    intro b _
    simp only [Function.comp_apply, liftedFrom, chargedTo, total_cons]
    by_cases hid : b.id = p.allocation.bucketId
    · simp only [hid, if_true, payBucket]
      congr 1 <;> omega
    · have hid' : p.allocation.bucketId ≠ b.id := fun e => hid e.symm
      simp [hid, hid']

/-!
# Three views of what is left

`getUsageSnapshot`, `getSpendableUsageState` and `reserveUsage` choose the
buckets of a user each in its own way. The snapshot alone keeps an expired
bucket while something is held on it.
-/

structure UsageGroupSnapshot where
  totalMicroRub : Int
  spentMicroRub : Int
  reservedMicroRub : Int
  remainingMicroRub : Int
  usedPercent : Int

structure UsageSnapshot where
  monthly : UsageGroupSnapshot
  topup : UsageGroupSnapshot

def summarizeBuckets (buckets : List UsageBucket) : UsageGroupSnapshot :=
  let total := total UsageBucket.totalMicroRub buckets
  let spent := Rows.total UsageBucket.spentMicroRub buckets
  let reserved := Rows.total UsageBucket.reservedMicroRub buckets
  { totalMicroRub := total
    spentMicroRub := spent
    reservedMicroRub := reserved
    remainingMicroRub := availableMicroRub total spent reserved
    usedPercent := usedPercentFloor spent total }

def getUsageSnapshot (now : Int) (userId : Nat) (db : Db) : UsageSnapshot :=
  let buckets := db.buckets.filter fun b =>
    b.userId = userId && (unexpired now b.expiresAt || decide (b.reservedMicroRub > 0))
  { monthly := summarizeBuckets (buckets.filter fun b => b.type = .monthly)
    topup := summarizeBuckets (buckets.filter fun b => b.type = .topup) }

structure SpendableUsageState where
  availableMicroRub : Int
  activeReservedMicroRub : Int

def UsageBucket.available (b : UsageBucket) : Int :=
  availableMicroRub b.totalMicroRub b.spentMicroRub b.reservedMicroRub

def getSpendableUsageState (now : Int) (userId : Nat) (db : Db) : SpendableUsageState :=
  let buckets := db.buckets.filter fun b => b.userId = userId && unexpired now b.expiresAt
  { availableMicroRub := total UsageBucket.available buckets
    activeReservedMicroRub := total UsageBucket.reservedMicroRub buckets }

def getSpendableUsageMicroRub (now : Int) (userId : Nat) (db : Db) : Int :=
  (getSpendableUsageState now userId db).availableMicroRub

/-- What the snapshot shows as remaining, monthly and top-up together. -/
def UsageSnapshot.remaining (s : UsageSnapshot) : Int :=
  s.monthly.remainingMicroRub + s.topup.remainingMicroRub

/-- The checks of the `usage_bucket` table. -/
def UsageBucket.Sound (b : UsageBucket) : Prop :=
  0 ≤ b.totalMicroRub ∧ 0 ≤ b.spentMicroRub ∧ 0 ≤ b.reservedMicroRub ∧
    b.spentMicroRub + b.reservedMicroRub ≤ b.totalMicroRub

theorem UsageBucket.Sound.available {b : UsageBucket} (sound : b.Sound) : 0 ≤ b.available := by
  obtain ⟨-, -, -, fits⟩ := sound
  simp only [UsageBucket.available, availableMicroRub]
  omega

theorem summarizeBuckets_remaining (buckets : List UsageBucket) :
    (summarizeBuckets buckets).remainingMicroRub = total UsageBucket.available buckets := by
  simp only [summarizeBuckets, availableMicroRub, ← total_sub]
  rfl

/-- The two types of bucket are all the buckets. -/
theorem total_types (g : UsageBucket → Int) (buckets : List UsageBucket) :
    total g (buckets.filter fun b => b.type = .monthly) +
      total g (buckets.filter fun b => b.type = .topup) = total g buckets := by
  rw [← total_filter, ← total_filter, ← total_add]
  refine total_congr fun b _ => ?_
  cases b.type <;> simp

/-- An expired bucket of the user on which something is held. -/
def UsageBucket.overdue (now : Int) (userId : Nat) (b : UsageBucket) : Bool :=
  b.userId = userId && !unexpired now b.expiresAt && decide (b.reservedMicroRub > 0)

/-- The snapshot shows the spendable amount and what expired buckets with
holds have besides. -/
theorem snapshot_remaining (now : Int) (userId : Nat) (db : Db) :
    (getUsageSnapshot now userId db).remaining = getSpendableUsageMicroRub now userId db +
      total UsageBucket.available (db.buckets.filter (UsageBucket.overdue now userId)) := by
  simp only [UsageSnapshot.remaining, getUsageSnapshot, summarizeBuckets_remaining, total_types]
  simp only [getSpendableUsageMicroRub, getSpendableUsageState]
  rw [← total_filter, ← total_filter, ← total_filter, ← total_add]
  refine total_congr fun b _ => ?_
  unfold UsageBucket.overdue
  by_cases user : b.userId = userId <;> cases unexpired now b.expiresAt <;>
    by_cases held : b.reservedMicroRub > 0 <;> simp [user, held]

variable {now : Int} {db : Db}

/-- What a reservation may draw on is the spendable amount. -/
theorem availability_locked {userId : Nat} (sound : ∀ b ∈ db.buckets, b.userId = userId → b.Sound) :
    availability (lockUserBuckets db now userId []) = getSpendableUsageMicroRub now userId db := by
  unfold availability lockUserBuckets getSpendableUsageMicroRub getSpendableUsageState
  rw [total_perm (sortBuckets_perm _), total_map]
  have same : (db.buckets.filter fun b => b.userId = userId ∧ (b.id ∈ [] ∨ unexpired now b.expiresAt)) =
      db.buckets.filter fun b => b.userId = userId && unexpired now b.expiresAt := by
    refine filter_congr fun b _ => ?_
    simp
  rw [same]
  refine total_congr fun b mem => ?_
  obtain ⟨mem, chosen⟩ := mem_filter.1 mem
  simp only [Bool.and_eq_true, decide_eq_true_eq] at chosen
  have nonneg := (sound b mem chosen.1).available
  have copy : b.locked.available = b.available := rfl
  split <;> omega

theorem getReservation_created (db : Db) (userId : Nat) (requestId : String) (estimated : Int)
    (entry : ReservationAllocationPlan → UsageLedgerEntry) (plan : List ReservationAllocationPlan) :
    ∃ view, getReservation (plan.foldl (Db.hold db.nextId entry)
      (db.createReservation userId requestId estimated).1) db.nextId = .ok view := by
  have kept : (plan.foldl (Db.hold db.nextId entry) (db.createReservation userId requestId estimated).1).reservations =
      db.reservations ++ [⟨db.nextId, userId, requestId, estimated, 0, .active⟩] := by
    generalize start : (db.createReservation userId requestId estimated).1 = created
    have rows : created.reservations = db.reservations ++ [⟨db.nextId, userId, requestId, estimated, 0, .active⟩] := by
      rw [← start]
      rfl
    clear start
    induction plan generalizing created with
    | nil => exact rows
    | cons p plan ih => exact ih _ rows
  obtain ⟨row, found⟩ := @find_isSome_of_mem _ _ _ UsageReservation.id _ _ _
    (mem_append_right db.reservations (mem_singleton_self
      (⟨db.nextId, userId, requestId, estimated, 0, .active⟩ : UsageReservation))) rfl
  unfold getReservation
  rw [kept, found]
  exact ⟨_, rfl⟩

/-- A request that has no reservation yet gets one exactly when the amount is spendable. -/
theorem reserveUsage_isOk {input : ReserveInput} (ids : db.BucketIds)
    (sound : ∀ b ∈ db.buckets, b.userId = input.userId → b.Sound)
    (positive : 0 < input.estimatedProviderCostMicroRub)
    (fresh : ∀ r ∈ db.reservations, ¬ (r.userId = input.userId ∧ r.requestId = input.requestId)) :
    (∃ result, reserveUsage now input db = .ok result) ↔
      input.estimatedProviderCostMicroRub ≤ getSpendableUsageMicroRub now input.userId db := by
  have absent : (db.reservations.find? fun r => r.userId = input.userId ∧ r.requestId = input.requestId) = none :=
    find?_eq_none.2 fun r mem => by simpa using fresh r mem
  rw [← availability_locked sound, ← plan_isSome positive]
  unfold reserveUsage
  rw [if_neg (by omega), absent]
  simp only
  cases planned : planReservationAllocations (lockUserBuckets db now input.userId [])
      input.estimatedProviderCostMicroRub with
  | none => simp
  | some plan =>
    have all : (lockUserBuckets db now input.userId []).filter (fun _ => true) =
      lockUserBuckets db now input.userId [] := filter_true _
    rw [← all] at planned
    obtain ⟨-, -, locked⟩ := planReservationAllocations_funds ids planned
    have mirrors : Mirrors (db.createReservation input.userId input.requestId
        input.estimatedProviderCostMicroRub).1 (lockUserBuckets db now input.userId []) :=
      lockUserBuckets_mirrors db now input.userId []
    obtain ⟨view, got⟩ := getReservation_created db input.userId input.requestId
      input.estimatedProviderCostMicroRub (holdEntry input db.nextId) plan
    simp only [Option.isSome_some, iff_true]
    have loop := reserveLoop_eq input db.nextId plan mirrors ids locked
    have created : (db.createReservation input.userId input.requestId
      input.estimatedProviderCostMicroRub).2.id = db.nextId := rfl
    exact ⟨_, by simp only [created, loop, bind, Except.bind, got]; rfl⟩

/-- The three views agree, at one instant and for one user, exactly when no
expired bucket on which something is held has anything left besides. -/
theorem usage_views_agree (db : Db) (now : Int) (userId : Nat) (ids : db.BucketIds)
    (sound : ∀ b ∈ db.buckets, b.userId = userId → b.Sound) :
    ((getUsageSnapshot now userId db).remaining = getSpendableUsageMicroRub now userId db ∧
      ∀ input : ReserveInput, input.userId = userId → 0 < input.estimatedProviderCostMicroRub →
        (∀ r ∈ db.reservations, ¬ (r.userId = input.userId ∧ r.requestId = input.requestId)) →
        ((∃ result, reserveUsage now input db = .ok result) ↔
          input.estimatedProviderCostMicroRub ≤ (getUsageSnapshot now userId db).remaining)) ↔
    ∀ b ∈ db.buckets, b.userId = userId → unexpired now b.expiresAt = false → 0 < b.reservedMicroRub →
      b.available = 0 := by
  rw [snapshot_remaining]
  constructor
  · rintro ⟨agree, -⟩ b mem user expired held
    have overdue : b ∈ db.buckets.filter (UsageBucket.overdue now userId) := by
      simp [mem_filter, UsageBucket.overdue, mem, user, expired, held]
    have nonneg : ∀ c ∈ db.buckets.filter (UsageBucket.overdue now userId), 0 ≤ c.available := by
      intro c hc
      obtain ⟨hc, gain⟩ := mem_filter.1 hc
      simp only [UsageBucket.overdue, Bool.and_eq_true, decide_eq_true_eq] at gain
      exact (sound c hc gain.1.1).available
    have alone := total_le_of_subset (nodup_singleton b)
      (fun c hc => mem_singleton.1 hc ▸ overdue) nonneg
    have own := (sound b mem user).available
    simp only [total_cons, total_nil] at alone
    omega
  · intro settled
    have nothing : total UsageBucket.available (db.buckets.filter (UsageBucket.overdue now userId)) = 0 := by
      refine total_eq_zero fun b hb => ?_
      obtain ⟨hb, gain⟩ := mem_filter.1 hb
      simp only [UsageBucket.overdue, Bool.and_eq_true, decide_eq_true_eq, Bool.not_eq_true'] at gain
      exact settled b hb gain.1.1 gain.1.2 gain.2
    refine ⟨by omega, fun input user positive fresh => ?_⟩
    subst user
    rw [reserveUsage_isOk ids sound positive fresh]
    omega

/-- A monthly bucket of 100 until instant 10, with 30 held since instant 5. -/
def heldMonth : Db where
  nextId := 4
  buckets := [⟨1, 7, .monthly, 100, 0, 30, some 10, .subscription, 9, 0⟩]
  reservations := [⟨2, 7, "first", 30, 0, .active⟩]
  allocations := [⟨3, 2, 1, 30, 0⟩]
  ledger := []
  payments := []
  paymentEvents := []
  subscriptions := []
  economics := []

theorem usage_views_agree_month :
    (getUsageSnapshot 5 7 heldMonth).remaining = 70 ∧ getSpendableUsageMicroRub 5 7 heldMonth = 70 ∧
      ((∃ result, reserveUsage 5 ⟨7, "second", 70, none⟩ heldMonth = .ok result) ↔ (70 : Int) ≤ 70) := by
  have agree := (usage_views_agree heldMonth 5 7 (by simp [Db.BucketIds, heldMonth]) (by simp [heldMonth, UsageBucket.Sound])).2
    (by simp [heldMonth, unexpired])
  exact ⟨by decide, by decide, agree.2 ⟨7, "second", 70, none⟩ rfl (by decide) (by decide)⟩

/-- Once the month is over the snapshot still shows 70, and not even 1 can be reserved. -/
theorem expired_hold_still_shown :
    (getUsageSnapshot 20 7 heldMonth).remaining = 70 ∧ getSpendableUsageMicroRub 20 7 heldMonth = 0 ∧
      reserveUsage 20 ⟨7, "second", 1, none⟩ heldMonth =
        .error (.billing .insufficientUsage "Not enough usage remaining") := by
  refine ⟨by decide, by decide, by decide +kernel⟩

end Vimla.Billing
