import Vimla.Billing.PaymentMoves

/-!
# The ledger of a bucket

A reading gives each ledger entry and each bucket row a number. The two agree on
a bucket when its entries add up to what the reading makes of its row. What
every usage transaction does to a reading is said here once.
-/

namespace Vimla.Billing

open List Rows World

structure Reading where
  entry : UsageLedgerEntry → Int
  bucket : UsageBucket → Int

namespace Reading

/-- The entries of one bucket, added up. -/
def entered (g : Reading) (id : Nat) (entries : List UsageLedgerEntry) : Int :=
  total (fun e => if e.bucketId = some id then g.entry e else 0) entries

/-- What the reading makes of the row of one bucket. -/
def row (g : Reading) (id : Nat) (buckets : List UsageBucket) : Int :=
  total (fun b => if b.id = id then g.bucket b else 0) buckets

/-- What the ledger of one bucket has over its row. -/
def gain (g : Reading) (db : Db) (id : Nat) : Int := g.entered id db.ledger - g.row id db.buckets

variable {g : Reading} {db : Db} {id : Nat} {b : UsageBucket}

theorem row_of_mem (nd : db.BucketIds) (hb : b ∈ db.buckets) : g.row b.id db.buckets = g.bucket b :=
  total_key UsageBucket.id nd hb

variable {f : UsageBucket → UsageBucket}

theorem row_update (nd : db.BucketIds) (hb : b ∈ db.buckets)
    (keeps : (f b).id = b.id) : g.row id (update UsageBucket.id b.id f db.buckets) =
      g.row id db.buckets + if b.id = id then g.bucket (f b) - g.bucket b else 0 := by
  unfold row
  rw [total_update nd hb, keeps]
  split <;> omega

/-- A write that the reading does not see. -/
theorem row_update_same (bucketId : Nat) (keeps : ∀ b, (f b).id = b.id)
    (same : ∀ b, g.bucket (f b) = g.bucket b) :
    g.row id (update UsageBucket.id bucketId f db.buckets) = g.row id db.buckets :=
  total_update_same fun b => by rw [keeps, same]

@[simp] theorem entered_append (entries entries' : List UsageLedgerEntry) :
    g.entered id (entries ++ entries') = g.entered id entries + g.entered id entries' :=
  total_append

/-- Entries of one bucket count for that bucket. -/
theorem entered_of_bucket {bucketId : Nat} {entries : List UsageLedgerEntry}
    (own : ∀ e ∈ entries, e.bucketId = some bucketId) :
    g.entered id entries = if bucketId = id then total g.entry entries else 0 := by
  by_cases here : bucketId = id
  · rw [if_pos here]
    refine total_congr fun e he => ?_
    rw [own e he, here, if_pos rfl]
  · rw [if_neg here]
    refine total_eq_zero fun e he => ?_
    rw [own e he, if_neg fun same => here (Option.some.inj same)]

variable {entry : ReservationAllocationPlan → UsageLedgerEntry} {view : ReservationView} {reservationId : Nat}

theorem over_hold (nd : db.BucketIds) {p : ReservationAllocationPlan}
    (own : (entry p).bucketId = some p.bucketId) (known : ∃ b ∈ db.buckets, b.id = p.bucketId)
    (shows : ∀ b, g.bucket (addReserved p.reservedMicroRub b) = g.bucket b + g.entry (entry p)) :
    g.gain (db.hold reservationId entry p) id = g.gain db id := by
  obtain ⟨b, hb, hid⟩ := known
  have rows : (db.hold reservationId entry p).buckets =
      update UsageBucket.id b.id (addReserved p.reservedMicroRub) db.buckets := by
    rw [hid]
    rfl
  have ledger : (db.hold reservationId entry p).ledger = db.ledger ++ [entry p] := rfl
  have one : ∀ e ∈ [entry p], e.bucketId = some p.bucketId := by simpa using own
  unfold gain
  rw [rows, ledger, row_update (f := addReserved p.reservedMicroRub) nd hb rfl, entered_append,
    entered_of_bucket one, shows, hid]
  simp only [total_cons, total_nil]
  split <;> omega

theorem over_holds (nd : db.BucketIds) {plan : List ReservationAllocationPlan}
    (own : ∀ p, (entry p).bucketId = some p.bucketId) (known : ∀ p ∈ plan, ∃ b ∈ db.buckets, b.id = p.bucketId)
    (shows : ∀ p b, g.bucket (addReserved p.reservedMicroRub b) = g.bucket b + g.entry (entry p)) :
    g.gain (plan.foldl (Db.hold reservationId entry) db) id = g.gain db id := by
  induction plan generalizing db with
  | nil => rfl
  | cons p plan ih =>
    have ids : (db.hold reservationId entry p).buckets.map UsageBucket.id = db.buckets.map UsageBucket.id :=
      map_update (f := addReserved p.reservedMicroRub) fun _ => rfl
    have nd' : (db.hold reservationId entry p).BucketIds := by
      unfold Db.BucketIds
      rw [ids]
      exact nd
    rw [foldl_cons, ih nd', over_hold nd (own p) (known p mem_cons_self) (shows p)]
    intro q hq
    obtain ⟨b, hb, hid⟩ := known q (mem_cons_of_mem p hq)
    have listed : b.id ∈ (db.hold reservationId entry p).buckets.map UsageBucket.id :=
      ids ▸ mem_map_of_mem hb
    obtain ⟨b', hb', hid'⟩ := mem_map.1 listed
    exact ⟨b', hb', hid'.trans hid⟩

/-- Extra funding writes no entry, so a reading that does not see holds is the same. -/
theorem over_extends (blind : ∀ x b, g.bucket (addReserved x b) = g.bucket b) (reservationId : Nat)
    (plan : List ReservationAllocationPlan) (s : Db × List UsageReservationAllocation) :
    g.gain (plan.foldl (extend reservationId) s).1 id = g.gain s.1 id := by
  induction plan generalizing s with
  | nil => rfl
  | cons p plan ih =>
    rw [foldl_cons, ih]
    unfold gain
    rw [extend_ledger, extend_buckets reservationId s.1 s.2 p, Db.updateBucket,
      row_update_same (f := addReserved p.reservedMicroRub) _ (fun _ => rfl) (blind _)]

/-- The entries of a payout are of its bucket and show what it does to the row. -/
structure Shows (g : Reading) (p : Payout) : Prop where
  own : ∀ e ∈ p.entries, e.bucketId = some p.allocation.bucketId
  change : ∀ b, g.bucket (payBucket p b) = g.bucket b + total g.entry p.entries

theorem over_payOut (nd : db.BucketIds) {p : Payout} (known : ∃ b ∈ db.buckets, b.id = p.allocation.bucketId)
    (shows : g.Shows p) : g.gain (db.payOut p) id = g.gain db id := by
  obtain ⟨b, hb, hid⟩ := known
  unfold gain
  rw [payOut_eq]
  rw [← hid, row_update (f := payBucket p) nd hb rfl, entered_append, entered_of_bucket shows.own,
    shows.change, hid]
  split <;> omega

variable {payouts : List Payout} {now : Int} {db' : Db}

theorem over_payOuts (nd : db.BucketIds) (known : ∀ p ∈ payouts, ∃ b ∈ db.buckets, b.id = p.allocation.bucketId)
    (shows : ∀ p ∈ payouts, g.Shows p) : g.gain (payouts.foldl Db.payOut db) id = g.gain db id := by
  induction payouts generalizing db with
  | nil => rfl
  | cons p payouts ih =>
    have ids : (db.payOut p).buckets.map UsageBucket.id = db.buckets.map UsageBucket.id := by
      rw [payOut_eq]
      exact map_update (f := payBucket p) fun _ => rfl
    have nd' : (db.payOut p).BucketIds := by
      unfold Db.BucketIds
      rw [ids]
      exact nd
    rw [foldl_cons, ih nd' _ fun q hq => shows q (mem_cons_of_mem p hq),
      over_payOut nd (known p mem_cons_self) (shows p mem_cons_self)]
    intro q hq
    obtain ⟨b, hb, hid⟩ := known q (mem_cons_of_mem p hq)
    have listed : b.id ∈ (db.payOut p).buckets.map UsageBucket.id := ids ▸ mem_map_of_mem hb
    obtain ⟨b', hb', hid'⟩ := mem_map.1 listed
    exact ⟨b', hb', hid'.trans hid⟩

theorem over_finish (keys : Keys db) {r : UsageReservation} (actual : Int) (status : ReservationStatus)
    (known : ∀ p ∈ payouts, p.allocation ∈ db.allocations) (shows : ∀ p ∈ payouts, g.Shows p) :
    g.gain (db.finish r actual status payouts) id = g.gain db id := by
  have paid : g.gain (payouts.foldl Db.payOut db) id = g.gain db id := by
    refine over_payOuts keys.buckets (fun p hp => ?_) shows
    obtain ⟨_, -, -, b, hb, hid, -⟩ := keys.linked _ (known p hp)
    exact ⟨b, hb, hid⟩
  rw [← paid]
  rfl

/-- The reading sees a hold as the entry that reserving writes for it. -/
def SeesHolds (g : Reading) : Prop :=
  ∀ input reservationId p b, g.bucket (addReserved p.reservedMicroRub b) =
    g.bucket b + g.entry (holdEntry input reservationId p)

/-- It sees the end of a hold as the entries of a settle or a release. -/
structure SeesEnds (g : Reading) : Prop where
  settled : ∀ input reservationId order actual, (∀ a ∈ order, 0 ≤ a.reservedMicroRub) → 0 ≤ actual →
    ∀ p ∈ settlePayouts input reservationId order actual, g.Shows p
  released : ∀ input reservationId order, ∀ p ∈ releasePayouts input reservationId order, g.Shows p

theorem over_reserve (sees : g.SeesHolds) (balanced : Balanced db .none) {input : ReserveInput}
    (run : reserveUsage now input db = .ok (db', view)) : g.gain db' id = g.gain db id := by
  rcases reserveUsage_cases balanced.keys.buckets run with rfl | ⟨plan, funds, -, rfl⟩
  · rfl
  · have created : g.gain (db.createReservation input.userId input.requestId
        input.estimatedProviderCostMicroRub).1 id = g.gain db id := rfl
    have ids : (db.createReservation input.userId input.requestId
        input.estimatedProviderCostMicroRub).1.BucketIds := balanced.keys.buckets
    refine over_holds ids (fun _ => rfl) (fun p hp => ?_) (sees input db.nextId)
    obtain ⟨-, b, hb, hid, -⟩ := funds.fits p hp
    exact ⟨b, hb, hid⟩

theorem over_release (sees : g.SeesEnds) (balanced : Balanced db .none) {input : ReleaseInput}
    (run : releaseUsage now input db = .ok (db', view)) : g.gain db' id = g.gain db id := by
  rcases releaseUsage_cases balanced run with ⟨rfl, -⟩ | ⟨r, hr, -, -, -, rfl⟩
  · rfl
  · refine over_finish balanced.keys _ _ (fun p hp => ?_) (sees.released input r.id _)
    obtain ⟨a, ha, rfl⟩ := mem_map.1 hp
    exact (mem_filter.1 ha).1

/-- What a settle pays out is seen; what it funds besides is seen only if the
reading does not look at holds. -/
theorem over_settle (sees : g.SeesEnds) (balanced : Balanced db .none) {clock : SettleClock} {input : SettleInput}
    (extra : ∀ r ∈ db.reservations, r.id = input.reservationId → r.userId = input.userId → r.status = .active →
      g.gain (settlement clock input r db).db id = g.gain db id)
    (run : settleUsage clock input db = .ok (db', view)) : g.gain db' id = g.gain db id := by
  rcases settleUsage_cases balanced run with ⟨rfl, -⟩ | ⟨r, hr, hid, user, active, nonneg, rfl⟩
  · rfl
  have ready := settlement_ready clock balanced hr active user.symm nonneg
  have stored : ∀ a ∈ (settlement clock input r db).order, a ∈ (settlement clock input r db).db.allocations :=
    fun a ha => (mem_filter.1 (ready.order.subset ha)).1
  rw [← extra r hr hid user active]
  refine over_finish ready.balanced.keys _ _ (fun p hp => stored _ ?_) ?_
  · have listed := mem_map_of_mem (f := Payout.allocation) hp
    rwa [settlePayouts_allocations] at listed
  · exact sees.settled input r.id _ _ (fun a ha => ready.balanced.reserved_nonneg (stored a ha)) ready.nonneg

/-- A reading sees ends when it sees each payout. -/
theorem seesEnds_of (settles : ∀ input reservationId (a : UsageReservationAllocation) paid, 0 ≤ paid →
      paid ≤ a.reservedMicroRub → ∀ b, g.bucket (payBucket ⟨a, paid, []⟩ b) = g.bucket b +
        total g.entry (settleEntries input reservationId a.bucketId paid (a.reservedMicroRub - paid)))
    (releases : ∀ input reservationId (a : UsageReservationAllocation) b, g.bucket (payBucket ⟨a, 0, []⟩ b) =
      g.bucket b + g.entry (releaseEntry input reservationId a.bucketId a.reservedMicroRub)) : g.SeesEnds where
  settled input reservationId order actual reserved nonneg p hp := by
    obtain ⟨least, most⟩ := settlePayouts_range reserved nonneg p hp
    have entries := settlePayouts_entries p hp
    constructor
    · intro e he
      simp only [entries, settleEntries, mem_append] at he
      rcases he with he | he <;> split at he <;> simp_all
    · intro b
      rw [entries]
      exact settles input reservationId p.allocation p.paid least most b
  released input reservationId order p hp := by
    obtain ⟨a, -, rfl⟩ := mem_map.1 hp
    constructor
    · intro e he
      obtain rfl := mem_singleton.1 he
      rfl
    · intro b
      rw [total_cons, total_nil, Int.add_zero]
      exact releases input reservationId a b

/-- Where a reading does not look at holds, it is the same after every transaction of usage. -/
theorem over_commits (holds : g.SeesHolds) (ends : g.SeesEnds)
    (blind : ∀ x b, g.bucket (addReserved x b) = g.bucket b) {op : Op} (h : Commits db op db')
    (balanced : Balanced db .none) : (∀ id, g.gain db' id = g.gain db id) ∨ BucketMove db db' := by
  cases h with
  | reserve now input db' view run => exact .inl fun _ => over_reserve holds balanced run
  | settle clock input db' view run =>
    refine .inl fun id => over_settle ends balanced (fun r _ _ _ _ => ?_) run
    exact settlement_db (P := fun db' => g.gain db' id = g.gain db id) clock input rfl fun plan order =>
      over_extends blind r.id plan (db, order)
  | release now input db' view run => exact .inl fun _ => over_release ends balanced run
  | event ctx event db' result run => exact .inr (processPaymentEvent_move run)
  | create catalog now fresh input db' created run => exact .inr (createPendingPayment_same run).move
  | checkout op payment known checkout records db' run => exact .inr (recordCheckout_same run).move

end Reading

/-! ## The ledger of a bucket

Over any transaction the ledger of a bucket moves by what its
`totalMicroRub - spentMicroRub` moves, so the gap between the two stays. -/

/-- What is left of a bucket, zero for one that is not there. -/
def Db.worth (db : Db) (bucketId : Nat) : Int :=
  total (fun b => if b.id = bucketId then b.totalMicroRub - b.spentMicroRub else 0) db.buckets

/-- What the ledger of a bucket has over what is left of it. -/
def Db.auditGap (db : Db) (bucketId : Nat) : Int := db.ledgerOn bucketId - db.worth bucketId

variable {db : Db}

/-- The gap is that of a reading, which does not look at holds. -/
def left : Reading := ⟨UsageLedgerEntry.amountMicroRub, fun b => b.totalMicroRub - b.spentMicroRub⟩

theorem auditGap_eq (db : Db) (bucketId : Nat) : db.auditGap bucketId = left.gain db bucketId := rfl

theorem left_seesHolds : left.SeesHolds := fun _ _ _ b => (Int.add_zero (left.bucket b)).symm

theorem left_seesEnds : left.SeesEnds := by
  refine Reading.seesEnds_of (fun input reservationId a paid nonneg le b => ?_) fun input reservationId a b => ?_
  · have settled : total UsageLedgerEntry.amountMicroRub
        (settleEntries input reservationId a.bucketId paid (a.reservedMicroRub - paid)) = -paid := by
      unfold settleEntries
      rw [total_append]
      split <;> split <;> simp only [total_cons, total_nil] <;> omega
    simp only [left, settled, payBucket]
    omega
  · simp only [left, releaseEntry, payBucket]
    omega

variable {db' : Db} {op : Op}

theorem BucketMove.gap (keys : Keys db) (m : BucketMove db db') (bucketId : Nat) :
    db'.auditGap bucketId = db.auditGap bucketId := by
  have silent_entered {entries : List UsageLedgerEntry} (silent : ∀ e ∈ entries, e.amountMicroRub = 0) :
      left.entered bucketId entries = 0 := total_eq_zero fun e he => by simp [left, silent e he]
  rw [auditGap_eq, auditGap_eq, Reading.gain, Reading.gain]
  cases m with
  | still entries e buckets silent =>
    rw [e.ledger, Reading.entered_append, silent_entered fun e he => (silent e he).1, buckets, Int.add_zero]
  | granted bucket entry e buckets fresh below unused total amount =>
    rw [e.ledger, buckets, Reading.entered_append, Reading.row, total_append]
    simp only [Reading.entered, Reading.row, left, total_cons, total_nil, amount.1, amount.2, Option.some.injEq, unused.1]
    split <;> omega
  | revoked bucket known revoke entry entries e buckets range amount type silent =>
    have entered : left.entered bucketId (entry :: entries) =
        (if entry.bucketId = some bucketId then entry.amountMicroRub else 0) + left.entered bucketId entries := rfl
    rw [e.ledger, buckets, Reading.entered_append, entered, silent_entered fun e he => (silent e he).1, amount.1, amount.2,
      Reading.row_update (f := setTotal (bucket.totalMicroRub - revoke)) keys.buckets known rfl]
    simp only [left, setTotal, Option.some.injEq]
    split <;> omega

theorem Commits.gap (h : Commits db op db') (balanced : Balanced db .none) (bucketId : Nat) :
    db'.auditGap bucketId = db.auditGap bucketId := by
  rcases Reading.over_commits left_seesHolds left_seesEnds (fun _ _ => rfl) h balanced with same | move
  · exact same bucketId
  · exact move.gap balanced.keys bucketId

/-- Rows alone, with no ledger. -/
def column (f : UsageBucket → Int) : Reading := ⟨fun _ => 0, f⟩

/-- A column that usage does not write stays, or the transaction is one of payments. -/
theorem Commits.column {f : UsageBucket → Int} (reserves : ∀ x b, f (addReserved x b) = f b)
    (pays : ∀ p b, f (payBucket p b) = f b) (h : Commits db op db') (balanced : Balanced db .none) :
    db'.buckets.map (fun b => (b.id, f b)) = db.buckets.map (fun b => (b.id, f b)) ∨ BucketMove db db' := by
  have unread (entries : List UsageLedgerEntry) : total (Billing.column f).entry entries = 0 := total_eq_zero fun _ _ => rfl
  have read (db : Db) (nd : db.BucketIds) : db.buckets.map (fun b => (b.id, f b)) =
      (db.buckets.map UsageBucket.id).map fun id => (id, -(Billing.column f).gain db id) := by
    rw [map_map]
    apply map_congr_left
    intro b mem
    have nothing : (Billing.column f).entered b.id db.ledger = 0 := total_eq_zero fun e _ => by simp [Billing.column]
    rw [Function.comp_apply, Reading.gain, nothing, Reading.row_of_mem nd mem, Int.zero_sub, Int.neg_neg]
    rfl
  have ends : (Billing.column f).SeesEnds := Reading.seesEnds_of (fun _ _ _ _ _ _ b => by rw [unread, Int.add_zero]; exact pays _ b)
    fun _ _ _ b => (pays _ b).trans (Int.add_zero _).symm
  rcases Reading.over_commits (fun _ _ _ b => (reserves _ b).trans (Int.add_zero _).symm) ends reserves h balanced with same | move
  · obtain frame | move := (h.move balanced).usage_or_move
    · left
      simp only [read _ (h.balanced balanced).keys.buckets, read _ balanced.keys.buckets, frame.buckets, same]
    · exact .inr move
  · exact .inr move

/-- Generated keys grow and bucket rows stay. -/
structure Grows (db db' : Db) : Prop where
  nextId : db.nextId ≤ db'.nextId
  buckets : ∀ id ∈ db.buckets.map UsageBucket.id, id ∈ db'.buckets.map UsageBucket.id

theorem Grows.refl (db : Db) : Grows db db := ⟨Nat.le_refl _, fun _ h => h⟩

theorem Grows.trans {a b c : Db} (h : Grows a b) (h' : Grows b c) : Grows a c :=
  ⟨Nat.le_trans h.nextId h'.nextId, fun id hid => h'.buckets id (h.buckets id hid)⟩

theorem UsageOnly.grows (h : UsageOnly db db') : Grows db db' := ⟨h.nextId, fun id mem => by rwa [h.buckets]⟩

theorem BucketMove.grows (m : BucketMove db db') : Grows db db' := by
  refine ⟨m.nextId, fun id h => ?_⟩
  cases m with
  | still entries e buckets => rwa [buckets]
  | granted bucket entry e buckets =>
    rw [buckets, map_append]
    exact mem_append_left _ h
  | revoked bucket known revoke entry entries e buckets =>
    rwa [buckets, map_update (f := setTotal (bucket.totalMicroRub - revoke)) fun _ => rfl]

theorem PaymentMove.grows (h : PaymentMove db op db') : Grows db db' := by
  rcases h.usage_or_move with usage | move
  · exact usage.grows
  · exact move.grows

theorem run_grows {w : World} (opening : Balanced w.db .none) (ops : List Op) :
    Balanced (w.run ops).db .none ∧ Grows w.db (w.run ops).db ∧
      ∀ bucketId, (w.run ops).db.auditGap bucketId = w.db.auditGap bucketId := by
  apply w.run_invariant (P := fun db => Balanced db .none ∧ Grows w.db db ∧
    ∀ bucketId, db.auditGap bucketId = w.db.auditGap bucketId) _ ops
  · exact ⟨opening, .refl _, fun _ => rfl⟩
  · rintro db op db' commits ⟨balanced, grows, gap⟩
    exact ⟨commits.balanced balanced, grows.trans (commits.move balanced).grows,
      fun bucketId => (commits.gap balanced bucketId).trans (gap bucketId)⟩

/-- A key that is still to be generated has an empty ledger and no bucket. -/
theorem Opening.gap (h : Opening db) {bucketId : Nat} (later : db.nextId ≤ bucketId) : db.auditGap bucketId = 0 := by
  have ledger : db.ledgerOn bucketId = 0 := total_eq_zero fun e he => by
    rw [if_neg]
    intro hb
    have := h.ledger e he bucketId hb
    omega
  have worth : db.worth bucketId = 0 := total_eq_zero fun b hb => if_neg <| by
    have := h.below b hb
    omega
  rw [Db.auditGap, ledger, worth]
  rfl

/-- A bucket that a payment event creates is there ever after, and its ledger
always adds up to what is left of it. -/
theorem ledger_conserved (w : World) (opening : Opening w.db) (before after : List Op)
    (ctx : PaymentContext) (event : PaymentEventInput) (bucket : UsageBucket)
    (created : bucket ∈ (w.run (before ++ [.processPaymentEvent ctx event])).db.buckets)
    (new : ∀ b ∈ (w.run before).db.buckets, b.id ≠ bucket.id) :
    (∃ row ∈ (w.run (before ++ .processPaymentEvent ctx event :: after)).db.buckets,
      row.id = bucket.id) ∧
    ∀ row ∈ (w.run (before ++ .processPaymentEvent ctx event :: after)).db.buckets,
      row.id = bucket.id →
      (w.run (before ++ .processPaymentEvent ctx event :: after)).db.ledgerOn bucket.id =
        row.totalMicroRub - row.spentMicroRub := by
  obtain ⟨balanced, grown, -⟩ := run_grows opening.balanced before
  have event_cases := (w.run before).step_cases (.processPaymentEvent ctx event)
  rw [run_append] at created
  have created : bucket ∈ ((w.run before).step (.processPaymentEvent ctx event)).db.buckets := created
  have later : (w.run before).db.nextId ≤ bucket.id := by
    rcases commit_eq (w.run before).db (processPaymentEvent ctx event (w.run before).db) with
      same | ⟨db', result, run, e⟩
    · simp only [step, same] at created
      exact absurd rfl (new bucket created)
    · simp only [step, e] at created
      cases processPaymentEvent_move run with
      | still entries e buckets =>
        rw [buckets] at created
        exact absurd rfl (new bucket created)
      | granted b entry e buckets fresh =>
        rw [buckets] at created
        rcases mem_append.1 created with old | new'
        · exact absurd rfl (new bucket old)
        · rw [mem_singleton.1 new']
          exact fresh
      | revoked b known revoke entry entries e buckets =>
        rw [buckets] at created
        obtain ⟨old, hold, he⟩ := mem_update.1 created
        have : old.id = bucket.id := by
          rw [← he]
          split <;> rfl
        exact absurd this (new old hold)
  have gap := opening.gap (Nat.le_trans grown.nextId later)
  obtain ⟨balanced', -, gap'⟩ := run_grows opening.balanced
    (before ++ .processPaymentEvent ctx event :: after)
  constructor
  · have stays := (run_grows (w := (w.run before).step (.processPaymentEvent ctx event)) (by
      rcases event_cases with same | commits
      · rwa [same]
      · exact commits.balanced balanced) after).2.1
    have := stays.buckets bucket.id (mem_map_of_mem created)
    rw [run_append, run_cons]
    obtain ⟨row, hrow, hid⟩ := mem_map.1 this
    exact ⟨row, hrow, hid⟩
  · intro row hrow hid
    have worth : (w.run (before ++ .processPaymentEvent ctx event :: after)).db.worth row.id =
        row.totalMicroRub - row.spentMicroRub :=
      Reading.row_of_mem (g := left) balanced'.keys.buckets hrow
    have := gap' bucket.id
    rw [gap, Db.auditGap, ← hid, worth] at this
    rw [← hid]
    omega

open FirstRun in
theorem ledger_conserved_first_run :
    ∃ row ∈ (empty.run ([topup] ++ confirmed :: [reserve, settle 750000])).db.buckets,
      (empty.run ([topup] ++ confirmed :: [reserve, settle 750000])).db.ledgerOn 1 =
        row.totalMicroRub - row.spentMicroRub :=
  ⟨_, head_mem (by decide +kernel),
    (ledger_conserved .empty .empty [topup] [reserve, settle 750000] context (event "confirmed" .succeeded)
      ⟨1, 7, .topup, 1000000, 0, 0, none, .payment, 0, 0⟩ (by decide +kernel) (by decide +kernel)).2
      _ (head_mem (by decide +kernel)) (by decide +kernel)⟩

end Vimla.Billing
