import Vimla.Billing.PaymentSteps
import Vimla.Billing.Settlement

/-!
# Conservation over whole runs

A payment transaction leaves reservations and allocations alone. It moves the
buckets in one of three ways: not at all, by one new bucket, or by lowering
the total of one; the ledger says by how much.
-/

namespace Vimla.Billing

open Nat

/-- The tables of usage are the same. -/
structure SameUsage (db db' : Db) : Prop where
  buckets : db'.buckets = db.buckets
  reservations : db'.reservations = db.reservations
  allocations : db'.allocations = db.allocations
  ledger : db'.ledger = db.ledger
  nextId : db.nextId ≤ db'.nextId

/-- Only ledger entries were added besides bucket rows. -/
structure Entered (db db' : Db) (entries : List UsageLedgerEntry) : Prop where
  reservations : db'.reservations = db.reservations
  allocations : db'.allocations = db.allocations
  ledger : db'.ledger = db.ledger ++ entries
  nextId : db.nextId ≤ db'.nextId

inductive BucketMove (db db' : Db) : Prop
  | still (entries : List UsageLedgerEntry) (entered : Entered db db' entries)
    (buckets : db'.buckets = db.buckets) (silent : ∀ e ∈ entries, Silent e)
  | granted (bucket : UsageBucket) (entry : UsageLedgerEntry) (entered : Entered db db' [entry])
    (buckets : db'.buckets = db.buckets ++ [bucket]) (fresh : db.nextId ≤ bucket.id)
    (below : bucket.id < db'.nextId)
    (unused : bucket.spentMicroRub = 0 ∧ bucket.reservedMicroRub = 0)
    (total : 0 ≤ bucket.totalMicroRub)
    (amount : entry.bucketId = some bucket.id ∧ entry.amountMicroRub = bucket.totalMicroRub)
    (type : entry.type = .bucketGranted ∨ entry.type = .topupGranted)
  | revoked (bucket : UsageBucket) (known : bucket ∈ db.buckets) (revoke : Int)
    (entry : UsageLedgerEntry) (entries : List UsageLedgerEntry)
    (entered : Entered db db' (entry :: entries))
    (buckets : db'.buckets = Rows.update UsageBucket.id bucket.id
      (setTotal (bucket.totalMicroRub - revoke)) db.buckets)
    (range : 0 < revoke ∧ revoke ≤ bucket.locked.available)
    (amount : entry.bucketId = some bucket.id ∧ entry.amountMicroRub = -revoke)
    (type : entry.type = .bucketRevoked) (silent : ∀ e ∈ entries, Silent e)

theorem SameUsage.refl (db : Db) : SameUsage db db := ⟨rfl, rfl, rfl, rfl, le_refl _⟩

variable {db db' : Db} {ctx : PaymentContext} {payment : Payment} {event : PaymentEventInput}

theorem SameUsage.move (h : SameUsage db db') : BucketMove db db' := by
  apply BucketMove.still [] _ h.buckets (by simp)
  exact ⟨h.reservations, h.allocations, by rw [h.ledger, List.append_nil], h.nextId⟩

/-- Writes to other tables after a move do not change which move it was. -/
theorem BucketMove.after {mid : Db} (h : BucketMove db mid) (same : SameUsage mid db') : BucketMove db db' := by
  have entered {entries} (e : Entered db mid entries) : Entered db db' entries :=
    ⟨same.reservations.trans e.reservations, same.allocations.trans e.allocations,
      same.ledger.trans e.ledger, le_trans e.nextId same.nextId⟩
  cases h with
  | still entries e buckets silent =>
    exact .still entries (entered e) (same.buckets.trans buckets) silent
  | granted bucket entry e buckets fresh below unused total amount type =>
    exact .granted bucket entry (entered e) (same.buckets.trans buckets) fresh
      (lt_of_lt_of_le below same.nextId) unused total amount type
  | revoked bucket known revoke entry entries e buckets range amount type silent =>
    exact .revoked bucket known revoke entry entries (entered e) (same.buckets.trans buckets) range
      amount type silent

theorem BucketMove.before {mid : Db} (same : SameUsage db mid) (h : BucketMove mid db') : BucketMove db db' := by
  have entered {entries} (e : Entered mid db' entries) : Entered db db' entries :=
    ⟨e.reservations.trans same.reservations, e.allocations.trans same.allocations,
      by rw [e.ledger, same.ledger], le_trans same.nextId e.nextId⟩
  cases h with
  | still entries e buckets silent =>
    exact .still entries (entered e) (buckets.trans same.buckets) silent
  | granted bucket entry e buckets fresh below unused total amount type =>
    exact .granted bucket entry (entered e) (by rw [buckets, same.buckets])
      (le_trans same.nextId fresh) below unused total amount type
  | revoked bucket known revoke entry entries e buckets range amount type silent =>
    rw [same.buckets] at known buckets
    exact .revoked bucket known revoke entry entries (entered e) buckets range amount type silent

theorem note_same (db : Db) (event : PaymentEventInput) (payment : Payment) :
    SameUsage db (db.note event payment) := ⟨rfl, rfl, rfl, rfl, le_refl _⟩

theorem updatePayment_same (db : Db) (id : Nat) (f : Payment → Payment) :
    SameUsage db (db.updatePayment id f) := ⟨rfl, rfl, rfl, rfl, le_refl _⟩

theorem ensurePaymentEconomics_same {feePolicies : List PaymentFeePolicyVersion}
    {fiscalPolicies : List FiscalizationFeePolicyVersion} {input : EconomicsInput}
    (h : ensurePaymentEconomics feePolicies fiscalPolicies input db = .ok db') : SameUsage db db' := by
  rcases ensurePaymentEconomics_cases h with ⟨-, rfl⟩ | ⟨-, row, rfl, -⟩
  · exact .refl _
  · exact ⟨rfl, rfl, rfl, rfl, le_refl _⟩

theorem Granting.move {grant : Grant} {bucket : UsageBucket} {entry : UsageLedgerEntry}
    {subscriptions : List Subscription} (h : Granting payment db db' grant bucket entry subscriptions) :
    BucketMove db db' := by
  have le := h.fresh
  refine .granted bucket entry ?_ ?_ h.fresh ?_ h.unused h.total ⟨h.entered.1, h.entered.2.2.1⟩ h.type
  · rw [h.rows]
    exact ⟨rfl, rfl, rfl, le_succ_of_le le⟩
  · rw [h.rows]
  · rw [h.rows]
    exact lt_succ_self _

theorem Applied.move (h : Applied ctx payment event db db') : BucketMove db db' := by
  cases h.written with
  | noted entries silent _ _ _ _ _ _ _ rows =>
    rw [rows]
    exact .still entries ⟨rfl, rfl, rfl, le_refl _⟩ rfl silent
  | granted good money unpaid granted grant run economics =>
    obtain ⟨bucket, entry, subscriptions, granting⟩ := grantFromSucceededPayment_granting run
    exact (granting.move.after (updatePayment_same _ _ _)).after (ensurePaymentEconomics_same economics)
  | refunded _ _ _ buckets entries taken _ _ _ _ rows =>
    rw [rows]
    cases taken with
    | nothing _ silent => exact .still entries ⟨rfl, rfl, rfl, le_refl _⟩ rfl silent
    | revoked bucket known revoke range entry amount type entries silent =>
      exact .revoked bucket known revoke entry entries ⟨rfl, rfl, rfl, le_refl _⟩ rfl range amount type silent

theorem processPaymentEvent_move {result : ProcessPaymentResult}
    (h : processPaymentEvent ctx event db = .ok (db', result)) : BucketMove db db' := by
  obtain ⟨payment, -, ⟨-, rfl⟩ | ⟨-, applied⟩⟩ := processPaymentEvent_cases h
  · exact (SameUsage.refl _).move
  · exact applied.move.before (note_same db event payment)

theorem createPayment_cases (h : db.createPayment payment = .ok db') : db' = { db with
      nextId := db.nextId + 1
      payments := db.payments ++ [{ payment with id := db.nextId }] } ∧
    0 ≤ payment.amountMicroRub ∧
    (∀ p ∈ db.payments, p.userId = payment.userId → p.kind = payment.kind →
      p.idempotencyKey ≠ payment.idempotencyKey) := by
  unfold Db.createPayment at h
  split at h
  · cases h
  split at h
  · cases h
  split at h
  · cases h
  rename_i distinct
  split at h
  · cases h
  cases h
  refine ⟨rfl, by omega, fun p hp hu hk e => distinct ?_⟩
  exact List.any_eq_true.2 ⟨p, hp, by simp [hu, hk, e]⟩

theorem recordCheckout_cases {checkout : HostedCheckout} (h : db.recordCheckout payment checkout = .ok db') :
    db.providerPaymentTaken payment.id payment.provider (some checkout.providerPaymentId) = false ∧
      db' = db.updatePayment payment.id fun p => { p with
        providerPaymentId := some checkout.providerPaymentId
        paymentUrl := some checkout.paymentUrl
        providerStatus := checkout.providerStatus.or p.providerStatus
        status := .pending } := by
  unfold Db.recordCheckout at h
  split at h
  · cases h
  rename_i free
  cases h
  exact ⟨by simpa using free, rfl⟩

/-- A new payment carries no grant and the status its caller chose. -/
structure NewPayment (payment : Payment) : Prop where
  bucket : payment.grantedBucketId = none
  subscription : payment.grantedSubscriptionId = none
  status : payment.status = .created ∨ payment.status = .pending
  amount : payment.checkoutSnapshot.customerPaymentAmountMicroRub = payment.amountMicroRub

theorem createPendingPayment_cases {catalog : Catalog} {now : Int} {fresh : FreshIds} {input : CreatePaymentInput}
    {created : CreatedPayment} (h : createPendingPayment catalog now fresh input db = .ok (db', created)) :
    db' = db ∨ ∃ payment, NewPayment payment ∧ db.createPayment payment = .ok db' := by
  unfold createPendingPayment at h
  simp only [bind, Except.bind] at h
  split at h
  · cases h
  split at h
  · cases h
    exact .inl rfl
  · split at h
    · rename_i db₂ hcreate
      cases h
      refine .inr ⟨_, ⟨rfl, rfl, ?_, rfl⟩, hcreate⟩
      cases input.status with
      | none => exact .inr rfl
      | some s =>
        cases s with
        | created => exact .inl rfl
        | pending => exact .inr rfl
    · split at h
      · cases h
        exact .inl rfl
      · cases h
    · cases h

/-! ## Conservation over whole runs

In every state that the engine can reach the usage tables balance, and the
ledger of a granted bucket adds up to what is left of it. -/

open Rows List

variable {db db' : Db} {view : ReservationView} {now : Int} {w : World}

theorem settleUsage_cases {clock : SettleClock} {input : SettleInput} (h : Balanced db .none)
    (run : settleUsage clock input db = .ok (db', view)) : (db' = db ∧ ∃ id, getReservation db id = .ok view) ∨
      ∃ r ∈ db.reservations, r.id = input.reservationId ∧ r.userId = input.userId ∧
        r.status = .active ∧ 0 ≤ input.actualMicroRub ∧
        db' = (settlement clock input r db).result input r := by
  unfold settleUsage at run
  by_cases negative : input.actualMicroRub < 0
  · simp only [negative, if_true] at run
    cases run
  simp only [negative, if_false, lockReservationForUser] at run
  cases hfind : db.reservations.find? fun r =>
      r.id = input.reservationId ∧ r.userId = input.userId with
  | none => simp only [hfind] at run; cases run
  | some r =>
    have hr := mem_of_find?_eq_some hfind
    have found := find?_some hfind
    simp only [decide_eq_true_eq] at found
    simp only [hfind] at run
    cases hs : r.status with
    | active =>
      simp only [hs] at run
      obtain ⟨view', eq⟩ := settleActive_eq clock h hr hs found.2.symm
      rw [eq] at run
      cases run
      exact .inr ⟨r, hr, found.1, found.2, hs, by omega, rfl⟩
    | settled =>
      simp only [hs] at run
      split at run
      · simp only [bind, Except.bind, pure, Except.pure] at run
        split at run
        · cases run
        rename_i hget
        cases run
        exact .inl ⟨rfl, r.id, hget⟩
      · cases run
    | released | anomaly => simp only [hs] at run; cases run

theorem releaseUsage_cases {input : ReleaseInput} (h : Balanced db .none)
    (run : releaseUsage now input db = .ok (db', view)) : (db' = db ∧ ∃ id, getReservation db id = .ok view) ∨
      ∃ r ∈ db.reservations, r.id = input.reservationId ∧ r.userId = input.userId ∧
        r.status = .active ∧ db' = release input r db := by
  unfold releaseUsage lockReservationForUser at run
  cases hfind : db.reservations.find? fun r =>
      r.id = input.reservationId ∧ r.userId = input.userId with
  | none => simp only [hfind] at run; cases run
  | some r =>
    have hr := mem_of_find?_eq_some hfind
    have found := find?_some hfind
    simp only [decide_eq_true_eq] at found
    simp only [hfind] at run
    cases hs : r.status with
    | active =>
      simp only [hs] at run
      obtain ⟨view', eq⟩ := releaseActive_eq now h hr found.2.symm
      rw [eq] at run
      cases run
      exact .inr ⟨r, hr, found.1, found.2, hs, rfl⟩
    | released =>
      simp only [hs, bind, Except.bind, pure, Except.pure] at run
      split at run
      · cases run
      rename_i hget
      cases run
      exact .inl ⟨rfl, r.id, hget⟩
    | settled | anomaly => simp only [hs] at run; cases run

/-- Bucket rows may be added or change as long as each still agrees with the
allocations, which stay. -/
theorem Balanced.rebucket (h : Balanced db .none) (reservations : db'.reservations = db.reservations)
    (allocations : db'.allocations = db.allocations) (nextId : db.nextId ≤ db'.nextId) (ids : db'.BucketIds)
    (below : ∀ b ∈ db'.buckets, b.id < db'.nextId)
    (stays : ∀ b ∈ db.buckets, ∃ b' ∈ db'.buckets, b'.id = b.id ∧ b'.userId = b.userId)
    (agrees : ∀ b ∈ db'.buckets, 0 ≤ b.reservedMicroRub ∧
      b.spentMicroRub + b.reservedMicroRub ≤ b.totalMicroRub ∧
      b.reservedMicroRub = db.heldOn b.id ∧ b.spentMicroRub = db.settledOn b.id) : Balanced db' .none := by
  have active := isActive_congr reservations
  constructor
  · constructor
    · exact ids
    · rw [reservations]
      exact h.keys.reservations
    · rw [allocations]
      exact h.keys.allocations
    · exact below
    · intro r hr
      rw [reservations] at hr
      exact lt_of_lt_of_le (h.keys.reservationFresh r hr) nextId
    · intro a ha
      rw [allocations] at ha
      exact lt_of_lt_of_le (h.keys.allocationFresh a ha) nextId
    · rw [allocations]
      exact h.keys.onePerBucket
    · intro a ha
      rw [allocations] at ha
      obtain ⟨r, hr, hid, b, hb, hbid, user⟩ := h.keys.linked a ha
      obtain ⟨b', hb', hid', user'⟩ := stays b hb
      rw [reservations]
      exact ⟨r, hr, hid, b', hb', hid'.trans hbid, user'.trans user⟩
  · intro a ha
    rw [allocations] at ha
    rw [active]
    exact h.allocation a ha
  · intro b hb
    obtain ⟨h0, h1, h2, h3⟩ := agrees b hb
    refine ⟨h0, h1, ?_, ?_⟩
    · simp only [Db.heldOn, active, allocations, Pending.none, Int.add_zero]
      exact h2
    · simp only [Db.settledOn, allocations]
      exact h3
  · intro r hr
    rw [reservations] at hr
    simp only [Db.reservedOf, Db.settledOf, allocations]
    exact h.reservation r hr

theorem Balanced.move (h : Balanced db .none) (m : BucketMove db db') : Balanced db' .none := by
  have agrees (b : UsageBucket) (hb : b ∈ db.buckets) : 0 ≤ b.reservedMicroRub ∧
      b.spentMicroRub + b.reservedMicroRub ≤ b.totalMicroRub ∧
      b.reservedMicroRub = db.heldOn b.id ∧ b.spentMicroRub = db.settledOn b.id := by
    obtain ⟨h0, h1, h2, h3⟩ := h.bucket b hb
    exact ⟨h0, h1, by simpa [Pending.none] using h2, h3⟩
  cases m with
  | still entries entered buckets silent =>
    apply h.rebucket entered.reservations entered.allocations entered.nextId
    · unfold Db.BucketIds
      rw [buckets]
      exact h.keys.buckets
    · intro b hb
      rw [buckets] at hb
      exact lt_of_lt_of_le (h.keys.bucketFresh b hb) entered.nextId
    · intro b hb
      rw [buckets]
      exact ⟨b, hb, rfl, rfl⟩
    · intro b hb
      rw [buckets] at hb
      exact agrees b hb
  | granted bucket entry entered buckets fresh below unused total =>
    have unknown (a) (ha : a ∈ db.allocations) : a.bucketId ≠ bucket.id := by
      obtain ⟨r, -, -, b, hb, hid, -⟩ := h.keys.linked a ha
      have := h.keys.bucketFresh b hb
      omega
    apply h.rebucket entered.reservations entered.allocations entered.nextId
    · unfold Db.BucketIds
      rw [buckets]
      apply nodup_append h.keys.buckets
      intro b hb
      have := h.keys.bucketFresh b hb
      omega
    · intro b hb
      rw [buckets] at hb
      rcases mem_append.1 hb with hb | hb
      · exact lt_of_lt_of_le (h.keys.bucketFresh b hb) entered.nextId
      · rw [mem_singleton.1 hb]
        exact below
    · intro b hb
      rw [buckets]
      exact ⟨b, mem_append_left _ hb, rfl, rfl⟩
    · intro b hb
      rw [buckets] at hb
      rcases mem_append.1 hb with hb | hb
      · exact agrees b hb
      · obtain rfl := mem_singleton.1 hb
        obtain ⟨spent, reserved⟩ := unused
        have held : db.heldOn b.id = 0 := total_eq_zero fun a ha => by simp [unknown a ha]
        have settled : db.settledOn b.id = 0 := total_eq_zero fun a ha => by
          simp [unknown a ha]
        rw [held, settled, spent, reserved]
        exact ⟨Int.le_refl 0, total, rfl, rfl⟩
  | revoked bucket known revoke entry entries entered buckets range =>
    apply h.rebucket entered.reservations entered.allocations entered.nextId
    · unfold Db.BucketIds
      rw [buckets, map_update (f := setTotal (bucket.totalMicroRub - revoke)) fun _ => rfl]
      exact h.keys.buckets
    · intro b hb
      rw [buckets] at hb
      obtain ⟨old, hold, rfl⟩ := mem_update.1 hb
      have := lt_of_lt_of_le (h.keys.bucketFresh old hold) entered.nextId
      split <;> exact this
    · intro b hb
      rw [buckets]
      refine ⟨_, mem_update.2 ⟨b, hb, rfl⟩, ?_⟩
      split <;> exact ⟨rfl, rfl⟩
    · intro b hb
      rw [buckets] at hb
      obtain ⟨old, hold, rfl⟩ := mem_update.1 hb
      by_cases hid : old.id = bucket.id
      · obtain rfl := eq_of_key h.keys.buckets hold known hid
        obtain ⟨h0, h1, h2, h3⟩ := agrees old known
        simp only [LockedBucket.available, UsageBucket.locked, availableMicroRub] at range
        simp only [if_true, setTotal]
        exact ⟨h0, by omega, h2, h3⟩
      · simp only [hid, if_false]
        exact agrees old hold

theorem recordCheckout_same {payment : Payment} {checkout : HostedCheckout}
    (h : db.recordCheckout payment checkout = .ok db') : SameUsage db db' := by
  obtain ⟨-, rfl⟩ := recordCheckout_cases h
  exact updatePayment_same _ _ _

theorem createPendingPayment_same {catalog : Catalog} {fresh : FreshIds} {input : CreatePaymentInput}
    {created : CreatedPayment} (h : createPendingPayment catalog now fresh input db = .ok (db', created)) :
    SameUsage db db' := by
  rcases createPendingPayment_cases h with rfl | ⟨payment, -, hcreate⟩
  · exact .refl _
  · obtain ⟨rfl, -, -⟩ := createPayment_cases hcreate
    exact ⟨rfl, rfl, rfl, rfl, le_succ _⟩

/-- Every transaction keeps the balance. -/
theorem Commits.balanced {op : Op} (h : Commits db op db') (balanced : Balanced db .none) :
    Balanced db' .none := by
  cases h with
  | reserve now input db' view run => exact reserveUsage_balanced balanced run
  | settle clock input db' view run =>
    rcases settleUsage_cases balanced run with ⟨rfl, -⟩ | ⟨r, hr, -, user, active, nonneg, rfl⟩
    · exact balanced
    · exact (settlement_ready clock balanced hr active user.symm nonneg).result_balanced input
  | release now input db' view run =>
    rcases releaseUsage_cases balanced run with ⟨rfl, -⟩ | ⟨r, hr, -, -, active, rfl⟩
    · exact balanced
    · exact release_balanced input balanced hr active
  | event ctx event db' result run => exact balanced.move (processPaymentEvent_move run)
  | create catalog now fresh input db' created run =>
    exact balanced.move (createPendingPayment_same run).move
  | checkout op payment known checkout records db' run => exact balanced.move (recordCheckout_same run).move

theorem World.step_balanced (balanced : Balanced w.db .none) (op : Op) : Balanced (w.step op).db .none := by
  rcases w.step_cases op with same | commits
  · rwa [same]
  · exact commits.balanced balanced

/-- Buckets freshly granted: nothing spent, nothing reserved. The other tables
may hold anything that names no row still to be made. -/
structure Opening (db : Db) : Prop where
  ids : db.BucketIds
  below : ∀ b ∈ db.buckets, b.id < db.nextId
  unused : ∀ b ∈ db.buckets, b.spentMicroRub = 0 ∧ b.reservedMicroRub = 0 ∧ 0 ≤ b.totalMicroRub
  reservations : db.reservations = []
  allocations : db.allocations = []
  ledger : ∀ e ∈ db.ledger, ∀ b, e.bucketId = some b → b < db.nextId

theorem Opening.balanced (h : Opening db) : Balanced db .none := by
  have none : ∀ {P : UsageReservationAllocation → Prop}, ∀ a ∈ db.allocations, P a := by
    rw [h.allocations]
    simp
  constructor
  · constructor
    · exact h.ids
    · simp [h.reservations]
    · simp [h.allocations]
    · exact h.below
    · simp [h.reservations]
    · exact none
    · simp [h.allocations]
    · exact none
  · exact none
  · intro b hb
    obtain ⟨spent, reserved, total⟩ := h.unused b hb
    simp [spent, reserved, total, Db.heldOn, Db.settledOn, reservedWhere, settledWhere,
      h.allocations, Pending.none]
  · simp [h.reservations]

theorem run_balanced (opening : Opening w.db) (ops : List Op) : Balanced (w.run ops).db .none :=
  w.run_invariant (fun _ _ _ commits h => commits.balanced h) ops opening.balanced

/-- In every reachable state each bucket is within its total and agrees with
its allocations, and each reservation with its own. -/
theorem usage_tables_balance (w : World) (opening : Opening w.db) (ops : List Op) :
    (∀ b ∈ (w.run ops).db.buckets, 0 ≤ b.spentMicroRub ∧ 0 ≤ b.reservedMicroRub ∧
      b.spentMicroRub + b.reservedMicroRub ≤ b.totalMicroRub ∧
      b.reservedMicroRub = (w.run ops).db.heldOn b.id ∧
      b.spentMicroRub = (w.run ops).db.settledOn b.id) ∧
    ∀ r ∈ (w.run ops).db.reservations,
      (w.run ops).db.reservedOf r.id = r.estimatedMicroRub ∧
      (r.status = .settled ∨ r.status = .anomaly →
        (w.run ops).db.settledOf r.id = r.settledMicroRub) := by
  have balanced := run_balanced opening ops
  constructor
  · intro b hb
    obtain ⟨h0, h1, h2, h3⟩ := balanced.bucket b hb
    exact ⟨balanced.spent_nonneg hb, h0, h1, by simpa [Pending.none] using h2, h3⟩
  · intro r hr
    obtain ⟨h0, h1⟩ := balanced.reservation r hr
    simp only [Pending.none, Int.add_zero] at h0 h1
    exact ⟨h0, h1⟩

theorem Opening.empty : Opening World.empty.db := by
  constructor <;> simp [World.empty, Db.BucketIds]

open FirstRun in
theorem usage_tables_balance_first_run :
    (World.empty.run [topup, confirmed, reserve, settle 750000]).db.buckets.map
        (fun b => (b.totalMicroRub, b.spentMicroRub, b.reservedMicroRub)) = [(1000000, 750000, 0)] ∧
      ∀ b ∈ (World.empty.run [topup, confirmed, reserve, settle 750000]).db.buckets,
        b.spentMicroRub = (World.empty.run [topup, confirmed, reserve, settle 750000]).db.settledOn b.id := by
  constructor
  · decide +kernel
  · intro b hb
    exact ((usage_tables_balance .empty .empty [topup, confirmed, reserve, settle 750000]).1 b hb).2.2.2.2

end Vimla.Billing
