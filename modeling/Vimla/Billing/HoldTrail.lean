import Vimla.Billing.Ledger
import Vimla.Billing.Outcome

/-!
# Holds in the ledger

The metadata of the ledger say what was reserved, settled and released on a
bucket. They add up to what the bucket holds as long as no settle takes more
from a bucket than was reserved: extra funding holds it without an entry.
-/

namespace Vimla.Billing

open List Option World Rows

/-- One field of the metadata, over the entries of a bucket and a type. -/
def Db.recordedOn (db : Db) (type : LedgerType) (field : LedgerMetadata → Option Int) (bucketId : Nat) : Int :=
  total (fun e => if e.bucketId = some bucketId then
    if e.type = type then (field e.metadata).getD 0 else 0 else 0) db.ledger

def Db.reservedEntries (db : Db) (bucketId : Nat) : Int :=
  db.recordedOn .reservationCreated LedgerMetadata.reservedMicroRub bucketId

def Db.settledEntries (db : Db) (bucketId : Nat) : Int :=
  db.recordedOn .usageSettled LedgerMetadata.settledMicroRub bucketId

def Db.releasedEntries (db : Db) (bucketId : Nat) : Int :=
  db.recordedOn .reservationReleased LedgerMetadata.releasedMicroRub bucketId

/-- What an entry says is held from then on, or no longer. -/
def UsageLedgerEntry.holds (e : UsageLedgerEntry) : Int :=
  match e.type with
  | .reservationCreated => e.metadata.reservedMicroRub.getD 0
  | .usageSettled => -e.metadata.settledMicroRub.getD 0
  | .reservationReleased => -e.metadata.releasedMicroRub.getD 0
  | _ => 0

def holdTrail : Reading := ⟨UsageLedgerEntry.holds, UsageBucket.reservedMicroRub⟩

theorem holdTrail_entered (db : Db) (id : Nat) : holdTrail.entered id db.ledger =
    db.reservedEntries id - (db.settledEntries id + db.releasedEntries id) := by
  unfold Reading.entered Db.reservedEntries Db.settledEntries Db.releasedEntries Db.recordedOn
  rw [← total_add, ← total_sub]
  refine total_congr fun e _ => ?_
  by_cases own : e.bucketId = some id
  · simp only [own, if_true, holdTrail, UsageLedgerEntry.holds]
    cases e.type <;> simp
  · simp [own]

theorem holdTrail_seesHolds : holdTrail.SeesHolds := fun _ _ _ _ => rfl

variable {input : SettleInput} {db : Db} {clock : SettleClock} {r : UsageReservation}

theorem holdTrail_seesEnds : holdTrail.SeesEnds := by
  refine Reading.seesEnds_of (fun input reservationId a paid nonneg le b => ?_) fun input reservationId a b => ?_
  · have settled : total UsageLedgerEntry.holds
        (settleEntries input reservationId a.bucketId paid (a.reservedMicroRub - paid)) = -a.reservedMicroRub := by
      unfold settleEntries
      rw [total_append]
      split <;> split <;>
        simp only [total_cons, total_nil, UsageLedgerEntry.holds, getD_some] <;> omega
    simp only [holdTrail, settled, payBucket]
    omega
  · simp only [holdTrail, UsageLedgerEntry.holds, releaseEntry, getD_some, payBucket]
    omega

/-- What a settle of `r` could still take from the unexpired buckets. -/
def Db.spendableFor (db : Db) (clock : SettleClock) (input : SettleInput) (r : UsageReservation) : Int :=
  availability (spendableBuckets clock.spendableAt
    (lockUserBuckets db clock.lockedAt input.userId ((db.allocationsOf r.id).map (·.bucketId))))

/-- A settle of an `ACTIVE` reservation costs more than was reserved, and the
unexpired buckets can fund the rest. -/
def FundsExtra (db : Db) : Op → Prop
  | .settleUsage clock input => ∃ r ∈ db.reservations, r.id = input.reservationId ∧ r.userId = input.userId ∧
      r.status = .active ∧ r.estimatedMicroRub < input.actualMicroRub ∧
      input.actualMicroRub - r.estimatedMicroRub ≤ db.spendableFor clock input r
  | _ => False

/-- Extra funding is a plan that covers the excess. -/
theorem extra_plan (excess : r.estimatedMicroRub < input.actualMicroRub) :
    (planReservationAllocations (spendableBuckets clock.spendableAt
      (lockUserBuckets db clock.lockedAt input.userId ((db.allocationsOf r.id).map (·.bucketId))))
      (input.actualMicroRub - r.estimatedMicroRub)).isSome ↔
    input.actualMicroRub - r.estimatedMicroRub ≤ db.spendableFor clock input r :=
  plan_isSome (by omega)

theorem settlement_unfunded (hr : r ∈ db.reservations) (hid : r.id = input.reservationId)
    (user : r.userId = input.userId) (active : r.status = .active)
    (covered : ¬ FundsExtra db (.settleUsage clock input)) : (settlement clock input r db).db = db := by
  unfold settlement
  by_cases excess : input.actualMicroRub > r.estimatedMicroRub
  · rw [if_pos excess]
    have unfunded : ¬ _ := fun fits => covered ⟨r, hr, hid, user, active, excess, (extra_plan excess).1 fits⟩
    rw [not_isSome_iff_eq_none] at unfunded
    rw [unfunded]
  · rw [if_neg excess]

/-- What is held for a plan without an entry is what the ledger is short of afterwards. -/
theorem holdTrail_extends (reservationId id : Nat) (plan : List ReservationAllocationPlan)
    (s : Db × List UsageReservationAllocation) (nd : s.1.BucketIds)
    (known : ∀ p ∈ plan, ∃ b ∈ s.1.buckets, b.id = p.bucketId) :
    holdTrail.gain (plan.foldl (extend reservationId) s).1 id = holdTrail.gain s.1 id -
      total (fun p => if p.bucketId = id then p.reservedMicroRub else 0) plan := by
  induction plan generalizing s with
  | nil => simp
  | cons p plan ih =>
    obtain ⟨b, hb, hid⟩ := known p mem_cons_self
    have buckets : (extend reservationId s p).1.buckets =
        update UsageBucket.id b.id (addReserved p.reservedMicroRub) s.1.buckets := by
      rw [extend_buckets reservationId s.1 s.2 p, hid]
      rfl
    have ids : (extend reservationId s p).1.buckets.map UsageBucket.id = s.1.buckets.map UsageBucket.id := by
      rw [buckets]
      exact map_update (f := addReserved p.reservedMicroRub) fun _ => rfl
    have nd' : (extend reservationId s p).1.BucketIds := by
      unfold Db.BucketIds
      rw [ids]
      exact nd
    have short : holdTrail.gain (extend reservationId s p).1 id =
        holdTrail.gain s.1 id - if p.bucketId = id then p.reservedMicroRub else 0 := by
      unfold Reading.gain
      rw [buckets, extend_ledger, Reading.row_update (f := addReserved p.reservedMicroRub) nd hb rfl, hid]
      simp only [holdTrail, addReserved]
      split <;> omega
    rw [foldl_cons, ih _ nd', short, total_cons]
    · omega
    · intro q hq
      obtain ⟨c, hc, hc'⟩ := known q (mem_cons_of_mem p hq)
      have listed : c.id ∈ (extend reservationId s p).1.buckets.map UsageBucket.id :=
        ids ▸ mem_map_of_mem hc
      obtain ⟨c', hm, same⟩ := mem_map.1 listed
      exact ⟨c', hm, same.trans hc'⟩

/-- Some bucket holds more than its entries say once the excess is funded. -/
theorem settlement_short (balanced : Balanced db .none) (excess : r.estimatedMicroRub < input.actualMicroRub)
    (fits : input.actualMicroRub - r.estimatedMicroRub ≤ db.spendableFor clock input r) :
    ∃ b ∈ db.buckets, holdTrail.gain (settlement clock input r db).db b.id < holdTrail.gain db b.id := by
  obtain ⟨plan, planned⟩ := isSome_iff_exists.1 ((extra_plan excess).2 fits)
  have funding := @planReservationAllocations_funds db balanced.keys.buckets clock.lockedAt input.userId
    ((db.allocationsOf r.id).map (·.bucketId)) (fun b => unexpired clock.spendableAt b.expiresAt)
    (input.actualMicroRub - r.estimatedMicroRub)
  obtain ⟨funds, sum, -⟩ := funding planned
  cases plan with
  | nil =>
    rw [total_nil] at sum
    omega
  | cons p plan =>
    obtain ⟨pos, b, hb, hid, -⟩ := funds.fits p mem_cons_self
    refine ⟨b, hb, ?_⟩
    have known : ∀ q ∈ p :: plan, ∃ c ∈ db.buckets, c.id = q.bucketId := by
      intro q hq
      obtain ⟨-, c, hc, hc', -⟩ := funds.fits q hq
      exact ⟨c, hc, hc'⟩
    have rest : 0 ≤ total (fun q => if q.bucketId = b.id then q.reservedMicroRub else 0) plan := by
      refine total_nonneg fun q hq => ?_
      have := (funds.fits q (mem_cons_of_mem p hq)).1
      split <;> omega
    have short := holdTrail_extends r.id b.id (p :: plan) (db, orderAllocations (db.allocationsOf r.id)
      (lockUserBuckets db clock.lockedAt input.userId ((db.allocationsOf r.id).map (·.bucketId))))
      balanced.keys.buckets known
    have funded : holdTrail.gain (settlement clock input r db).db b.id =
        holdTrail.gain ((p :: plan).foldl (extend r.id) (db, orderAllocations (db.allocationsOf r.id)
          (lockUserBuckets db clock.lockedAt input.userId ((db.allocationsOf r.id).map (·.bucketId))))).1 b.id := by
      unfold settlement
      rw [if_pos excess, planned]
      rfl
    simp only [total_cons, if_pos hid.symm] at short
    omega

/-- The three transactions of usage. -/
def Op.IsUsage : Op → Prop
  | .reserveUsage _ _ | .settleUsage _ _ | .releaseUsage _ _ => True
  | _ => False

variable {w : World} {op : Op}

theorem holdTrail_step (balanced : Balanced w.db .none) (usage : op.IsUsage) (covered : ¬ FundsExtra w.db op)
    (id : Nat) : holdTrail.gain (w.step op).db id = holdTrail.gain w.db id := by
  rcases w.step_cases op with same | commits
  · rw [same]
  · generalize (w.step op).db = db' at commits
    cases commits with
    | reserve now input db' view run => exact Reading.over_reserve holdTrail_seesHolds balanced run
    | settle clock input db' view run =>
      refine Reading.over_settle holdTrail_seesEnds balanced (fun r hr hid user active => ?_) run
      rw [settlement_unfunded hr hid user active covered]
    | release now input db' view run => exact Reading.over_release holdTrail_seesEnds balanced run
    | event | create => exact usage.elim
    | checkout _ _ _ _ records => cases op <;> first | exact usage.elim | exact records.elim

/-- What every bucket holds can be read off the ledger. -/
def Db.Reconstructs (db : Db) : Prop :=
  ∀ b ∈ db.buckets, b.reservedMicroRub =
    db.reservedEntries b.id - (db.settledEntries b.id + db.releasedEntries b.id)

instance (db : Db) : Decidable db.Reconstructs := by
  unfold Db.Reconstructs
  infer_instance

theorem reconstructs_of_over (nd : db.BucketIds) (exact : ∀ id, holdTrail.gain db id = 0) : db.Reconstructs := by
  intro b hb
  have := exact b.id
  rw [Reading.gain, holdTrail_entered, Reading.row_of_mem nd hb] at this
  simp only [holdTrail] at this
  omega

theorem not_reconstructs (nd : db.BucketIds) {b : UsageBucket} (hb : b ∈ db.buckets)
    (short : holdTrail.gain db b.id < 0) : ¬ db.Reconstructs := by
  intro exact
  have := exact b hb
  rw [Reading.gain, holdTrail_entered, Reading.row_of_mem nd hb] at short
  simp only [holdTrail] at short
  omega

/-- Before the first reservation nothing is held, and no entry says otherwise. -/
structure Unheld (db : Db) : Prop where
  opening : Opening db
  ledger : ∀ e ∈ db.ledger, e.type ≠ .reservationCreated ∧ e.type ≠ .usageSettled ∧ e.type ≠ .reservationReleased

theorem Unheld.gain (h : Unheld db) (id : Nat) : holdTrail.gain db id = 0 := by
  have entered : holdTrail.entered id db.ledger = 0 := by
    refine total_eq_zero fun e he => ?_
    obtain ⟨created, settled, released⟩ := h.ledger e he
    simp only [holdTrail, UsageLedgerEntry.holds]
    cases htype : e.type <;> simp_all
  have row : holdTrail.row id db.buckets = 0 := by
    refine total_eq_zero fun b hb => ?_
    have := (h.opening.unused b hb).2.1
    simp [holdTrail, this]
  unfold Reading.gain
  omega

/-- A settle that funds its excess leaves a bucket whose hold was never entered. -/
theorem funded_step (balanced : Balanced w.db .none) (exact : ∀ id, holdTrail.gain w.db id = 0)
    (funds : FundsExtra w.db op) : ¬ (w.step op).db.Reconstructs := by
  cases op with
  | settleUsage clock input =>
    obtain ⟨r, hr, hid, user, active, excess, fits⟩ := funds
    have estimate : 0 ≤ r.estimatedMicroRub := by
      obtain ⟨h0, -⟩ := balanced.reservation r hr
      have : 0 ≤ w.db.reservedOf r.id := reservedWhere_nonneg fun a ha => balanced.reserved_nonneg ha
      simp only [Pending.none] at h0
      omega
    obtain ⟨b, hb, short⟩ := settlement_short balanced excess fits
    have ready := settlement_ready clock balanced hr active user.symm (by omega)
    have stored : ∀ a ∈ (settlement clock input r w.db).order, a ∈ (settlement clock input r w.db).db.allocations :=
      fun a ha => (mem_filter.1 (ready.order.subset ha)).1
    have paid : holdTrail.gain ((settlement clock input r w.db).result input r) b.id =
        holdTrail.gain (settlement clock input r w.db).db b.id := by
      refine Reading.over_finish ready.balanced.keys _ _ (fun p hp => stored _ ?_) ?_
      · have listed := mem_map_of_mem (f := Payout.allocation) hp
        rwa [settlePayouts_allocations] at listed
      · exact holdTrail_seesEnds.settled input r.id _ _
          (fun a ha => ready.balanced.reserved_nonneg (stored a ha)) ready.nonneg
    have found := lockReservationForUser_eq balanced.keys hr user.symm
    rw [hid] at found
    obtain ⟨view, settled⟩ := settleActive_eq clock balanced hr active user.symm
    have run : settleUsage clock input w.db = .ok ((settlement clock input r w.db).result input r, view) := by
      unfold settleUsage
      rw [if_neg (by omega), found]
      simp [active, settled]
    have step : (w.step (.settleUsage clock input)).db = (settlement clock input r w.db).result input r := by
      simp [step, run, Db.commit]
    have commits : Commits w.db (.settleUsage clock input) ((settlement clock input r w.db).result input r) :=
      .settle clock input _ view run
    obtain ⟨b', hb', same⟩ := mem_map.1
      ((commits.move balanced).grows.buckets b.id (mem_map_of_mem hb))
    rw [step]
    refine not_reconstructs (commits.balanced balanced).keys.buckets hb' ?_
    have before := exact b.id
    rw [same]
    omega
  | _ => exact funds.elim

theorem usage_step (usage : op.IsUsage) (balanced : Balanced w.db .none) (exact : ∀ id, holdTrail.gain w.db id = 0) :
    (w.step op).db.Reconstructs ↔ ¬ FundsExtra w.db op := by
  constructor
  · exact fun reconstructs funds => funded_step balanced exact funds reconstructs
  · intro covered
    refine reconstructs_of_over (w.step_balanced balanced op).keys.buckets fun id => ?_
    rw [holdTrail_step balanced usage covered, exact id]

/-- Every state of a run of usage transactions can be read off its ledger exactly
if no settle funds an excess over its estimate. -/
theorem holds_reconstructed (w : World) (unheld : Unheld w.db) (ops : List Op) (usage : ∀ op ∈ ops, op.IsUsage) :
    Runs.Along step (fun w op => (w.step op).db.Reconstructs) w ops ↔
      Runs.Along step (fun w op => ¬ FundsExtra w.db op) w ops := by
  have start : Balanced w.db .none ∧ ∀ id, holdTrail.gain w.db id = 0 := ⟨unheld.opening.balanced, unheld.gain⟩
  clear unheld
  induction ops generalizing w with
  | nil => exact Iff.rfl
  | cons op ops ih =>
    obtain ⟨balanced, exact⟩ := start
    have one := usage op mem_cons_self
    have here := usage_step one balanced exact
    simp only [Runs.Along, here]
    refine and_congr_right fun covered => ih _ (fun op' h => usage op' (mem_cons_of_mem op h)) ?_
    refine ⟨w.step_balanced balanced op, fun id => ?_⟩
    rw [holdTrail_step balanced one covered, exact id]

instance (db : Db) (op : Op) : Decidable (FundsExtra db op) := by
  unfold FundsExtra
  split <;> infer_instance

open FirstRun in
theorem unheld_first_run : Unheld (empty.run [topup, confirmed]).db := by
  constructor
  · constructor
    · unfold Db.BucketIds
      decide +kernel
    iterate 4 · decide +kernel
    · have all : ∀ e ∈ (empty.run [topup, confirmed]).db.ledger, e.bucketId = some 1 := by decide +kernel
      intro e he b hb
      rw [all e he] at hb
      cases hb
      decide +kernel
  · decide +kernel

open FirstRun in
theorem holds_reconstructed_first_run :
    Runs.Along step (fun w op => (w.step op).db.Reconstructs) (empty.run [topup, confirmed])
      [reserve, settle 500000] :=
  (holds_reconstructed _ unheld_first_run [reserve, settle 500000] (by simp [Op.IsUsage, reserve, settle])).2
    (by decide +kernel)

open FirstRun in
/-- 600000 were reserved and 750000 settled: by the ledger the bucket holds less than nothing. -/
theorem excess_never_entered :
    ((empty.run [topup, confirmed, reserve, settle 750000]).db.buckets.map fun b =>
      (b.reservedMicroRub, (empty.run [topup, confirmed, reserve, settle 750000]).db.reservedEntries b.id,
        (empty.run [topup, confirmed, reserve, settle 750000]).db.settledEntries b.id,
        (empty.run [topup, confirmed, reserve, settle 750000]).db.releasedEntries b.id)) =
      [(0, 600000, 750000, 0)] ∧
    ¬ (empty.run [topup, confirmed, reserve, settle 750000]).db.Reconstructs := by
  decide +kernel

end Vimla.Billing
