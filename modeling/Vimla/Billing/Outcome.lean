import Vimla.Billing.Conservation

/-!
# One outcome for each reservation

Of all the calls that would settle or release a reservation the first that is
accepted decides, whatever other transactions commit in between. The later
ones return what is stored or throw.
-/

namespace Vimla.Billing

open List Rows

/-- A settle or release of reservation `r`. -/
def Op.On (r : UsageReservation) : Op → Prop
  | .settleUsage _ input => input.reservationId = r.id
  | .releaseUsage _ input => input.reservationId = r.id
  | _ => False

/-- The calls refused whatever the reservation's status: another user's, and a
negative amount. -/
def Op.Refused (r : UsageReservation) : Op → Prop
  | .settleUsage _ input => input.actualMicroRub < 0 ∨ input.userId ≠ r.userId
  | .releaseUsage _ input => input.userId ≠ r.userId
  | _ => False

/-- What the unexpired buckets of a user can still fund. -/
def Db.spendable (db : Db) (userId : Nat) (now : Int) : Int :=
  availability ((db.buckets.filter fun b => b.userId = userId ∧ unexpired now b.expiresAt).map
    UsageBucket.locked)

/-- How much of a bucket one reservation holds. -/
def Db.allocated (db : Db) (reservationId bucketId : Nat) : Int :=
  reservedWhere (fun r b => b = bucketId ∧ r = reservationId) db.allocations

/-- A settle ends at the actual amount when the estimate or the unexpired
buckets cover it, and at the estimate otherwise. -/
def settledAt (db : Db) (r : UsageReservation) (now actual : Int) : ReservationStatus × Int :=
  if actual ≤ r.estimatedMicroRub ∨ actual - r.estimatedMicroRub ≤ db.spendable r.userId now then
    (.settled, actual)
  else (.anomaly, r.estimatedMicroRub)

/-- What the accepted call makes of an `ACTIVE` reservation. -/
def Op.Ends (r : UsageReservation) (db db' : Db) : Op → Prop
  | .settleUsage clock input => ∃ row ∈ db'.reservations, row.id = r.id ∧
      (row.status, row.settledMicroRub) = settledAt db r clock.spendableAt input.actualMicroRub
  | .releaseUsage _ _ => (∃ row ∈ db'.reservations, row.id = r.id ∧ row.status = .released) ∧
      db'.buckets = db.buckets.map fun b =>
        { b with reservedMicroRub := b.reservedMicroRub - db.allocated r.id b.id }
  | _ => False

/-- The call throws or returns the stored view; either way nothing is written. -/
def Op.Answers (r : UsageReservation) (db : Db) : Op → Prop
  | .settleUsage clock input => (∃ e, Billing.settleUsage clock input db = .error e) ∨
      ∃ view, getReservation db r.id = .ok view ∧ Billing.settleUsage clock input db = .ok (db, view)
  | .releaseUsage now input => (∃ e, Billing.releaseUsage now input db = .error e) ∨
      ∃ view, getReservation db r.id = .ok view ∧ Billing.releaseUsage now input db = .ok (db, view)
  | _ => False

variable {r : UsageReservation} {w : World} {call : Op} {db : Db}

/-- A call that answers leaves the whole state as it was. -/
theorem Op.Answers.unchanged (h : call.Answers r w.db) : w.step call = w := by
  cases call with
  | settleUsage clock input | releaseUsage now input =>
    rcases h with ⟨e, he⟩ | ⟨view, -, he⟩ <;> simp [World.step, he, Db.commit]
  | _ => cases h

variable {userId : Nat} {db' : Db} {other : UsageReservation} {op : Op}

section
variable (keys : Keys db) (hr : r ∈ db.reservations)
include keys hr

theorem lockReservationForUser_eq (user : userId = r.userId) :
    lockReservationForUser db userId r.id = .ok r := by
  unfold lockReservationForUser
  have found : db.reservations.find? (fun row => row.id = r.id ∧ row.userId = userId) = some r := by
    cases hfind : db.reservations.find? fun row => row.id = r.id ∧ row.userId = userId with
    | none =>
      have := find?_eq_none.1 hfind r hr
      simp [user] at this
    | some row =>
      have hrow := find?_some hfind
      simp only [decide_eq_true_eq] at hrow
      rw [eq_of_key keys.reservations (mem_of_find?_eq_some hfind) hr hrow.1]
  rw [found]

theorem lockReservationForUser_other (user : userId ≠ r.userId) :
    ∃ e, lockReservationForUser db userId r.id = .error e := by
  unfold lockReservationForUser
  cases hfind : db.reservations.find? fun row => row.id = r.id ∧ row.userId = userId with
  | none => exact ⟨_, rfl⟩
  | some row =>
    have hrow := find?_some hfind
    simp only [decide_eq_true_eq] at hrow
    have same := eq_of_key keys.reservations (mem_of_find?_eq_some hfind) hr hrow.1
    rw [same] at hrow
    exact absurd hrow.2.symm user

theorem getReservation_eq :
    getReservation db r.id = .ok (toReservationView db r) := by
  unfold getReservation
  rw [find_eq_of_mem keys.reservations hr rfl]

end

theorem refused_answers (keys : Keys db) (hr : r ∈ db.reservations) (on : call.On r) (refused : call.Refused r) :
    call.Answers r db := by
  cases call with
  | settleUsage clock input =>
    rcases refused with negative | user
    · unfold Op.Answers settleUsage
      exact .inl ⟨_, by rw [if_pos negative]⟩
    · have hid : input.reservationId = r.id := on
      obtain ⟨e, he⟩ := lockReservationForUser_other keys hr user
      unfold Op.Answers settleUsage
      by_cases negative : input.actualMicroRub < 0
      · exact .inl ⟨_, by rw [if_pos negative]⟩
      · exact .inl ⟨e, by rw [if_neg negative, hid, he]⟩
  | releaseUsage now input =>
    have hid : input.reservationId = r.id := on
    obtain ⟨e, he⟩ := lockReservationForUser_other keys hr refused
    refine .inl ⟨e, ?_⟩
    unfold releaseUsage
    rw [hid, he]
  | _ => cases on

theorem closed_answers (keys : Keys db) (hr : r ∈ db.reservations) (closed : r.status ≠ .active) (on : call.On r) :
    call.Answers r db := by
  by_cases refused : call.Refused r
  · exact refused_answers keys hr on refused
  have view := getReservation_eq keys hr
  cases call with
  | settleUsage clock input =>
    have hid : input.reservationId = r.id := on
    simp only [Op.Refused, not_or, Int.not_lt, ne_eq, not_not] at refused
    obtain ⟨nonneg, user⟩ := refused
    have lock := lockReservationForUser_eq keys hr user
    have notNegative : ¬ input.actualMicroRub < 0 := by omega
    simp only [Op.Answers, settleUsage, notNegative, if_false, hid, lock]
    cases hs : r.status with
    | active => exact absurd hs closed
    | settled =>
      by_cases same : r.settledMicroRub = input.actualMicroRub
      · refine .inr ⟨_, view, ?_⟩
        simp [same, Except.bind, Except.pure, view]
      · exact .inl ⟨_, by rw [if_neg same]⟩
    | released | anomaly => exact .inl ⟨_, rfl⟩
  | releaseUsage now input =>
    have hid : input.reservationId = r.id := on
    simp only [Op.Refused, ne_eq, not_not] at refused
    have lock := lockReservationForUser_eq keys hr refused
    simp only [Op.Answers, releaseUsage, hid, lock]
    cases hs : r.status with
    | active => exact absurd hs closed
    | released =>
      refine .inr ⟨_, view, ?_⟩
      simp [Except.bind, Except.pure, view]
    | settled | anomaly => exact .inl ⟨_, rfl⟩
  | _ => cases on

theorem availability_perm {buckets buckets' : List LockedBucket} (h : buckets.Perm buckets') :
    availability buckets = availability buckets' := total_perm h

/-- The buckets a settle can draw on are the user's unexpired ones. -/
theorem spendableBuckets_availability (db : Db) (clock : SettleClock) (userId : Nat)
    (includeIds : List Nat) :
    availability (spendableBuckets clock.spendableAt
      (lockUserBuckets db clock.lockedAt userId includeIds)) =
        db.spendable userId clock.spendableAt := by
  unfold spendableBuckets lockUserBuckets Db.spendable
  rw [availability_perm ((sortBuckets_perm _).filter _), filter_map, filter_filter]
  congr 2
  apply filter_congr
  intro b _
  have later : unexpired clock.spendableAt b.expiresAt = true →
      unexpired clock.lockedAt b.expiresAt = true := by
    have := clock.ordered
    unfold unexpired
    cases b.expiresAt with
    | none => exact fun _ => rfl
    | some t =>
      simp only [decide_eq_true_eq]
      omega
  simp only [Function.comp_apply, UsageBucket.locked]
  by_cases unexpiredNow : unexpired clock.spendableAt b.expiresAt = true
  · simp [unexpiredNow, later unexpiredNow]
  · simp [unexpiredNow]

theorem settlement_outcome (clock : SettleClock) {input : SettleInput} (db : Db) (user : input.userId = r.userId) :
    ((settlement clock input r db).status, (settlement clock input r db).actual) =
      settledAt db r clock.spendableAt input.actualMicroRub := by
  unfold settlement settledAt
  by_cases above : input.actualMicroRub > r.estimatedMicroRub
  · have notUnder : ¬ input.actualMicroRub ≤ r.estimatedMicroRub := by omega
    have covers := @plan_isSome (input.actualMicroRub - r.estimatedMicroRub)
      (spendableBuckets clock.spendableAt
        (lockUserBuckets db clock.lockedAt input.userId ((db.allocationsOf r.id).map (·.bucketId))))
      (by omega)
    rw [spendableBuckets_availability, user] at covers
    simp only [above, if_true, notUnder, false_or, user]
    cases hplan : planReservationAllocations (spendableBuckets clock.spendableAt
        (lockUserBuckets db clock.lockedAt r.userId ((db.allocationsOf r.id).map (·.bucketId))))
        (input.actualMicroRub - r.estimatedMicroRub) with
    | none =>
      rw [hplan] at covers
      simp only [Option.isSome_none, Bool.false_eq_true, false_iff] at covers
      rw [if_neg covers]
    | some plan =>
      rw [hplan] at covers
      simp only [Option.isSome_some, true_iff] at covers
      rw [if_pos covers]
  · have under : input.actualMicroRub ≤ r.estimatedMicroRub := by omega
    simp [above, under]

/-- On an `ACTIVE` reservation a call that is not refused decides. -/
theorem active_ends (balanced : Balanced w.db .none) (hr : r ∈ w.db.reservations) (active : r.status = .active)
    (on : call.On r) (accepted : ¬ call.Refused r) : call.Ends r w.db (w.step call).db := by
  cases call with
  | settleUsage clock input =>
    have hid : input.reservationId = r.id := on
    simp only [Op.Refused, not_or, Int.not_lt, ne_eq, not_not] at accepted
    obtain ⟨nonneg, user⟩ := accepted
    have lock := lockReservationForUser_eq balanced.keys hr user
    obtain ⟨view, run⟩ := settleActive_eq clock balanced hr active user
    have notNegative : ¬ input.actualMicroRub < 0 := by omega
    have settled : settleUsage clock input w.db =
        .ok ((settlement clock input r w.db).result input r, view) := by
      simp [settleUsage, notNegative, hid, lock, active, run]
    obtain ⟨row, hrow, same, -, -⟩ := (settlement_ready clock balanced hr active user nonneg).row
    simp only [World.step, settled, Db.commit, Op.Ends]
    refine ⟨_, mem_update_self ?_ same, same, ?_⟩
    · rw [payOuts_reservations]
      exact hrow
    · exact settlement_outcome clock w.db user
  | releaseUsage now input =>
    have hid : input.reservationId = r.id := on
    simp only [Op.Refused, ne_eq, not_not] at accepted
    have lock := lockReservationForUser_eq balanced.keys hr accepted
    obtain ⟨view, run⟩ := releaseActive_eq now balanced hr accepted
    have released : releaseUsage now input w.db = .ok (release input r w.db, view) := by
      simp [releaseUsage, hid, lock, active, run]
    simp only [World.step, released, Db.commit, Op.Ends]
    constructor
    · refine ⟨_, mem_update_self ?_ rfl, rfl, rfl⟩
      rw [payOuts_reservations]
      exact hr
    · unfold release Db.finish Db.updateReservation
      rw [payOuts_buckets]
      apply map_congr_left
      intro b _
      have perm : ((releasePayouts input r.id (w.db.allocationsOf r.id)).map (·.allocation)).Perm
          (w.db.allocationsOf r.id) := List.Perm.of_eq releasePayouts_allocations
      have charged : chargedTo (releasePayouts input r.id (w.db.allocationsOf r.id)) b.id = 0 :=
        total_eq_zero fun p hp => by simp [releasePayouts_paid p hp]
      rw [liftedFrom_eq perm, charged, Int.add_zero]
      rfl
  | _ => cases on

theorem Op.Ends.closed (h : call.Ends r db db') : ∃ row ∈ db'.reservations, row.id = r.id ∧ row.status ≠ .active := by
  cases call with
  | settleUsage clock input =>
    obtain ⟨row, hrow, hid, outcome⟩ := h
    refine ⟨row, hrow, hid, ?_⟩
    unfold settledAt at outcome
    split at outcome <;> rw [(Prod.mk.inj outcome).1] <;> decide
  | releaseUsage now input =>
    obtain ⟨⟨row, hrow, hid, released⟩, -⟩ := h
    exact ⟨row, hrow, hid, by rw [released]; decide⟩
  | _ => cases h

theorem holds_reservations (reservationId : Nat)
    (entry : ReservationAllocationPlan → UsageLedgerEntry) (plan : List ReservationAllocationPlan)
    (db : Db) : (plan.foldl (Db.hold reservationId entry) db).reservations = db.reservations := by
  induction plan generalizing db with
  | nil => rfl
  | cons p plan ih => rw [foldl_cons, ih]; rfl

theorem BucketMove.reservations (h : BucketMove db db') : db'.reservations = db.reservations := by
  cases h with
  | still entries entered | granted bucket entry entered | revoked bucket known revoke entry entries entered =>
    exact entered.reservations

/-!
## The reservation table

What a transaction does to the reservations: nothing, one new `ACTIVE` row, or
the end of the row that a settle or release names.
-/

/-- A new value for a reservation that keeps its identity. -/
structure ReservationRewrites (f : UsageReservation → UsageReservation) : Prop where
  id : ∀ r, (f r).id = r.id
  userId : ∀ r, (f r).userId = r.userId
  requestId : ∀ r, (f r).requestId = r.requestId

/-- The status that a settle or a release leaves. -/
def Op.Leaves (status : ReservationStatus) : Op → Prop
  | .settleUsage _ _ => status = .settled ∨ status = .anomaly
  | .releaseUsage _ _ => status = .released
  | _ => False

inductive ReservationMove (db : Db) : Op → Db → Prop
  | still (op : Op) (db' : Db) (same : db'.reservations = db.reservations) : ReservationMove db op db'
  | opened (now : Int) (input : ReserveInput) (db' : Db)
      (added : db'.reservations = db.reservations ++ [⟨db.nextId, input.userId, input.requestId,
        input.estimatedProviderCostMicroRub, 0, .active⟩]) : ReservationMove db (.reserveUsage now input) db'
  | ended (op : Op) (db' : Db) (r : UsageReservation) (mem : r ∈ db.reservations) (on : op.On r)
      (f : UsageReservation → UsageReservation) (rewrites : ReservationRewrites f) (leaves : ∀ row, op.Leaves (f row).status)
      (updated : db'.reservations = Rows.update UsageReservation.id r.id f db.reservations) : ReservationMove db op db'

theorem finish_update (db : Db) (r : UsageReservation) (actual : Int) (status : ReservationStatus)
    (payouts : List Payout) : (db.finish r actual status payouts).reservations =
      Rows.update UsageReservation.id r.id (fun row => { row with settledMicroRub := actual, status := status })
        db.reservations := by
  unfold Db.finish Db.updateReservation
  simp [payOuts_reservations]

theorem update_update (rows : List UsageReservation) (id : Nat) {f g : UsageReservation → UsageReservation}
    (keeps : ∀ r, (f r).id = r.id) : Rows.update UsageReservation.id id g (Rows.update UsageReservation.id id f rows) =
      Rows.update UsageReservation.id id (fun r => g (f r)) rows := by
  simp only [Rows.update, List.map_map]
  apply List.map_congr_left
  intro r _
  by_cases here : r.id = id <;> simp [here, keeps]

theorem settlement_ended (clock : SettleClock) (input : SettleInput) (r : UsageReservation) (db : Db) :
    ∃ f, ReservationRewrites f ∧ (∀ row, (f row).status = (settlement clock input r db).status) ∧
      ((settlement clock input r db).result input r).reservations =
        Rows.update UsageReservation.id r.id f db.reservations := by
  have plain (s : Settlement) (same : s.db.reservations = db.reservations) : ∃ f, ReservationRewrites f ∧
      (∀ row, (f row).status = s.status) ∧ (s.result input r).reservations =
        Rows.update UsageReservation.id r.id f db.reservations := by
    refine ⟨fun row => { row with settledMicroRub := s.actual, status := s.status },
      ⟨fun _ => rfl, fun _ => rfl, fun _ => rfl⟩, fun _ => rfl, ?_⟩
    rw [Settlement.result, finish_update, same]
  have raised (s : Settlement) (x : Int) (same : s.db.reservations =
      Rows.update UsageReservation.id r.id (setEstimate x) db.reservations) : ∃ f, ReservationRewrites f ∧
      (∀ row, (f row).status = s.status) ∧ (s.result input r).reservations =
        Rows.update UsageReservation.id r.id f db.reservations := by
    refine ⟨fun row => { setEstimate x row with settledMicroRub := s.actual, status := s.status },
      ⟨fun _ => rfl, fun _ => rfl, fun _ => rfl⟩, fun _ => rfl, ?_⟩
    rw [Settlement.result, finish_update, same]
    exact update_update _ _ fun _ => rfl
  unfold settlement
  simp only
  split
  · split
    · apply raised (x := r.estimatedMicroRub + (input.actualMicroRub - r.estimatedMicroRub))
      simp [Db.fund, Db.updateReservation, extends_reservations]
    · exact plain _ rfl
  · exact plain _ rfl

theorem settlement_leaves (clock : SettleClock) (input : SettleInput) (r : UsageReservation) (db : Db) :
    (settlement clock input r db).status = .settled ∨ (settlement clock input r db).status = .anomaly := by
  unfold settlement
  simp only
  split
  · split
    · exact .inl rfl
    · exact .inr rfl
  · exact .inl rfl

variable {view : ReservationView} {db db' : Db}

theorem settleUsage_move {clock : SettleClock} {input : SettleInput} (balanced : Balanced db .none)
    (run : settleUsage clock input db = .ok (db', view)) : ReservationMove db (.settleUsage clock input) db' := by
  rcases settleUsage_cases balanced run with ⟨rfl, -⟩ | ⟨r, hr, hid, -, -, -, rfl⟩
  · exact .still _ _ rfl
  · obtain ⟨f, rewrites, status, updated⟩ := settlement_ended clock input r db
    exact .ended _ _ r hr hid.symm f rewrites (fun row => status row ▸ settlement_leaves clock input r db) updated

variable {now : Int}

theorem releaseUsage_move {input : ReleaseInput} (balanced : Balanced db .none)
    (run : releaseUsage now input db = .ok (db', view)) : ReservationMove db (.releaseUsage now input) db' := by
  rcases releaseUsage_cases balanced run with ⟨rfl, -⟩ | ⟨r, hr, hid, -, -, rfl⟩
  · exact .still _ _ rfl
  · exact .ended _ _ r hr hid.symm (fun row => { row with settledMicroRub := 0, status := .released })
      ⟨fun _ => rfl, fun _ => rfl, fun _ => rfl⟩ (fun _ => rfl) (finish_update _ _ _ _ _)

variable {w : World}

/-- An `ACTIVE` reservation that a settle or release answers for has ended. -/
theorem active_move (balanced : Balanced w.db .none) {r : UsageReservation} (hr : r ∈ w.db.reservations)
    (active : r.status = .active) {call : Op} (on : call.On r) (accepted : ¬ call.Refused r)
    (move : ReservationMove w.db call (w.step call).db) :
    ∃ f, ReservationRewrites f ∧ (∀ row, call.Leaves (f row).status) ∧
      (w.step call).db.reservations = Rows.update UsageReservation.id r.id f w.db.reservations := by
  cases move with
  | still op db' same =>
    obtain ⟨row, hrow, hid, ended⟩ := (active_ends balanced hr active on accepted).closed
    rw [same] at hrow
    rw [Rows.eq_of_key balanced.keys.reservations hrow hr hid] at ended
    exact absurd active ended
  | opened => cases on
  | ended op db' r' mem on' f rewrites leaves updated =>
    have same : r'.id = r.id := by
      cases call with
      | settleUsage clock input | releaseUsage now input => exact on'.symm.trans on
      | _ => cases on
    exact ⟨f, rewrites, leaves, same ▸ updated⟩

variable {input : ReserveInput}

theorem reserveUsage_move (balanced : Balanced db .none)
    (run : reserveUsage now input db = .ok (db', view)) : ReservationMove db (.reserveUsage now input) db' := by
  rcases reserveUsage_cases balanced.keys.buckets run with rfl | ⟨plan, -, -, rfl⟩
  · exact .still _ _ rfl
  · exact .opened _ _ _ (holds_reservations _ _ _ _)

theorem getReservation_mem {db : Db} {id : Nat} (h : getReservation db id = .ok view) :
    view.id = id ∧ ∃ r ∈ db.reservations, r.id = id := by
  unfold getReservation at h
  cases found : Rows.find UsageReservation.id id db.reservations with
  | none =>
    rw [found] at h
    cases h
  | some row =>
    rw [found] at h
    cases h
    obtain ⟨mem, hid⟩ := Rows.mem_of_find found
    exact ⟨hid, row, mem, hid⟩

/-- A request that has no reservation gets a new one. -/
theorem reserveUsage_fresh (balanced : Balanced db .none)
    (fresh : ∀ r ∈ db.reservations, r.requestId ≠ input.requestId)
    (run : reserveUsage now input db = .ok (db', view)) : view.id = db.nextId ∧
      db'.reservations = db.reservations ++ [⟨db.nextId, input.userId, input.requestId,
        input.estimatedProviderCostMicroRub, 0, .active⟩] := by
  have absent : db.reservations.find? (fun r => r.userId = input.userId ∧ r.requestId = input.requestId) = none := by
    rw [List.find?_eq_none]
    intro r hr
    simp [fresh r hr]
  have got : getReservation db' db.nextId = .ok view := by
    unfold reserveUsage at run
    rw [absent] at run
    simp only [bind, Except.bind, pure, Except.pure] at run
    iterate 4
      split at run
      · cases run
    · rename_i got
      cases run
      exact got
  obtain ⟨answer, r, hr, hid⟩ := getReservation_mem got
  refine ⟨answer, ?_⟩
  rcases reserveUsage_cases balanced.keys.buckets run with rfl | ⟨plan, -, -, rfl⟩
  · have := balanced.keys.reservationFresh r hr
    omega
  · exact holds_reservations _ _ _ _

theorem Commits.reservations (h : Commits db op db') (balanced : Balanced db .none) : ReservationMove db op db' := by
  cases h with
  | reserve now input db' view run => exact reserveUsage_move balanced run
  | settle clock input db' view run => exact settleUsage_move balanced run
  | release now input db' view run => exact releaseUsage_move balanced run
  | event ctx event db' result run => exact .still _ _ (processPaymentEvent_move run).reservations
  | create catalog now fresh input db' created run => exact .still _ _ (createPendingPayment_same run).reservations
  | checkout op payment known checkout records db' run => exact .still _ _ (recordCheckout_same run).reservations

theorem World.reservations_move (balanced : Balanced w.db .none) (op : Op) : ReservationMove w.db op (w.step op).db := by
  rcases w.step_cases op with same | commits
  · exact .still _ _ (congrArg Db.reservations same)
  · exact commits.reservations balanced

/-- A step keeps a reservation's row unless it is an accepted call on it. -/
theorem World.step_keeps (balanced : Balanced w.db .none) (hr : r ∈ w.db.reservations)
    (answers : op.On r → op.Answers r w.db) : r ∈ (w.step op).db.reservations := by
  by_cases on : op.On r
  · rw [(answers on).unchanged]
    exact hr
  · have move := w.reservations_move balanced op
    generalize (w.step op).db = db' at move
    cases move with
    | still _ _ same => rwa [same]
    | opened _ _ _ added =>
      rw [added]
      exact mem_append_left _ hr
    | ended _ _ row mem on' f _ _ updated =>
      rw [updated]
      refine mem_update_of_ne hr fun same => on ?_
      rwa [eq_of_key balanced.keys.reservations hr mem same]

/-- While every call on a reservation answers without a write, its row stays. -/
theorem run_answers (balanced : Balanced w.db .none) (hr : r ∈ w.db.reservations) (ops : List Op)
    (answers : ∀ op ∈ ops, op.On r → ∀ db, Balanced db .none → r ∈ db.reservations →
      op.Answers r db) : Balanced (w.run ops).db .none ∧ r ∈ (w.run ops).db.reservations := by
  induction ops generalizing w with
  | nil => exact ⟨balanced, hr⟩
  | cons op ops ih =>
    apply ih (w.step_balanced balanced op)
    · exact w.step_keeps balanced hr fun on =>
        answers op mem_cons_self on w.db balanced hr
    · exact fun other mem => answers other (mem_cons_of_mem op mem)

/-- Of the calls on an `ACTIVE` reservation the first that is not refused, and
it alone, decides. Other transactions may commit in between. -/
theorem reservation_single_winner (w : World) (opening : Opening w.db) (before : List Op)
    (r : UsageReservation) (hr : r ∈ (w.run before).db.reservations) (active : r.status = .active)
    (early : List Op) (refused : ∀ op ∈ early, op.On r → op.Refused r) (call : Op)
    (on : call.On r) (accepted : ¬ call.Refused r) (late : List Op) :
    (∀ pre op post, early = pre ++ op :: post → op.On r →
      op.Answers r ((w.run before).run pre).db ∧
        ((w.run before).run pre).step op = (w.run before).run pre) ∧
    (r ∈ ((w.run before).run early).db.reservations ∧
      call.Ends r ((w.run before).run early).db (((w.run before).run early).step call).db ∧
      ((w.run before).run early).step call ≠ (w.run before).run early) ∧
    ∀ pre op post, late = pre ++ op :: post → op.On r →
      op.Answers r ((((w.run before).run early).step call).run pre).db ∧
        ((((w.run before).run early).step call).run pre).step op =
          (((w.run before).run early).step call).run pre := by
  have balanced := run_balanced opening before
  have refuses (ops : List Op) (h : ∀ op ∈ ops, op.On r → op.Refused r) :
      ∀ op ∈ ops, op.On r → ∀ db, Balanced db .none → r ∈ db.reservations → op.Answers r db :=
    fun op mem on db balanced hr => refused_answers balanced.keys hr on (h op mem on)
  obtain ⟨balanced', hr'⟩ := run_answers balanced hr early (refuses early refused)
  have ends := active_ends balanced' hr' active on accepted
  obtain ⟨row, hrow, hid, closed⟩ := ends.closed
  have balanced'' := World.step_balanced balanced' call
  have onRow (op : Op) (h : op.On r) : op.On row := by
    cases op with
    | settleUsage clock input | releaseUsage now input => exact Eq.trans h hid.symm
    | _ => cases h
  have rowAnswers (op : Op) (db : Db) (h : op.Answers row db) : op.Answers r db := by
    cases op with
    | settleUsage clock input | releaseUsage now input =>
      unfold Op.Answers at h
      rw [hid] at h
      exact h
    | _ => cases h
  refine ⟨?_, ⟨hr', ends, ?_⟩, ?_⟩
  · rintro pre op post rfl hon
    obtain ⟨b, h⟩ := run_answers balanced hr pre (refuses pre fun op mem =>
      refused op (mem_append_left _ mem))
    have answers := refused_answers b.keys h hon
      (refused op (mem_append_right _ mem_cons_self) hon)
    exact ⟨answers, answers.unchanged⟩
  · intro same
    rw [same] at hrow
    have := eq_of_key balanced'.keys.reservations hrow hr' hid
    rw [this] at closed
    exact closed active
  · rintro pre op post rfl hon
    obtain ⟨b, h⟩ := run_answers balanced'' hrow pre fun op _ on db balanced hr =>
      closed_answers balanced.keys hr closed on
    have answers := rowAnswers op _ (closed_answers b.keys h closed (onRow op hon))
    exact ⟨answers, answers.unchanged⟩

open FirstRun in
/-- The first settle wins, the later one changes nothing. -/
theorem reservation_single_winner_first_run :
    (settle 750000).Ends ⟨2, 7, "request", 600000, 0, .active⟩
        (World.empty.run [topup, confirmed, reserve]).db
        ((World.empty.run [topup, confirmed, reserve]).step (settle 750000)).db ∧
      ((World.empty.run [topup, confirmed, reserve]).step (settle 750000)).step (settle 100000) =
        (World.empty.run [topup, confirmed, reserve]).step (settle 750000) := by
  obtain ⟨-, ⟨-, ends, -⟩, late⟩ := reservation_single_winner .empty .empty [topup, confirmed, reserve]
    ⟨2, 7, "request", 600000, 0, .active⟩ (by decide +kernel) rfl [] (by simp) (settle 750000) rfl
    (by simp [Op.Refused, settle]) [settle 100000]
  exact ⟨ends, (late [] (settle 100000) [] rfl rfl).2⟩

end Vimla.Billing
