import Vimla.Billing.Conservation

/-!
# What usage transactions leave alone

An applied event rewrites the row of its payment and no other. `engineStatus`
is the status it writes. Usage transactions touch no payment.
-/

namespace Vimla.Billing

open List Rows Nat

/-- `db'` has the payments of `db` but for the row of `payment`, rewritten by
`f` to `status`. -/
structure Rewrites (payment : Payment) (db db' : Db) (f : Payment → Payment)
    (status : PaymentStatus) : Prop where
  payments : db'.payments = update Payment.id payment.id f db.payments
  same : ∀ p, SamePayment p (f p)
  status : (f payment).status = status

variable {db' : Db} {payment : Payment}

/-- An entry of a kind that no grant writes. -/
def NoGrant (e : UsageLedgerEntry) : Prop := e.type ≠ .bucketGranted ∧ e.type ≠ .topupGranted

/-- Bucket rows are kept and no grant is entered. -/
structure NoBucket (db db' : Db) : Prop where
  buckets : db'.buckets.map UsageBucket.id = db.buckets.map UsageBucket.id
  ledger : ∃ entries, db'.ledger = db.ledger ++ entries ∧ ∀ e ∈ entries, NoGrant e
  nextId : db.nextId ≤ db'.nextId

variable {db : Db} {event : PaymentEventInput}

theorem NoBucket.silent (ids : db'.buckets.map UsageBucket.id = db.buckets.map UsageBucket.id)
    (ledger : db'.ledger = db.ledger) (later : db.nextId ≤ db'.nextId) : NoBucket db db' :=
  ⟨ids, ⟨[], by rw [ledger, append_nil], by simp⟩, later⟩

theorem SameUsage.noBucket (h : SameUsage db db') : NoBucket db db' := .silent (by rw [h.buckets]) h.ledger h.nextId

theorem NoBucket.trans {a b c : Db} (h : NoBucket a b) (h' : NoBucket b c) : NoBucket a c := by
  obtain ⟨entries, ledger, none⟩ := h.ledger
  obtain ⟨entries', ledger', none'⟩ := h'.ledger
  refine ⟨h'.buckets.trans h.buckets, ⟨entries ++ entries', ?_, ?_⟩, le_trans h.nextId h'.nextId⟩
  · rw [ledger', ledger, append_assoc]
  · intro e he
    rcases mem_append.1 he with he | he
    · exact none e he
    · exact none' e he

theorem appendLedger_noBucket (db : Db) {e : UsageLedgerEntry} (h : NoGrant e) :
    NoBucket db (db.appendLedger e) :=
  ⟨rfl, ⟨[e], rfl, by simpa using h⟩, le_refl _⟩

/-- A grant makes the row's grant, and the ledger says so once. -/
structure Grants (ctx : PaymentContext) (payment : Payment) (event : PaymentEventInput) (db db' : Db)
    (grant : Grant) : Prop where
  unpaid : payment.status = .created ∨ payment.status = .pending
  payments : Rewrites payment db db' (grantedRow ctx payment event grant) .succeeded
  rows : ∃ bucket entry subscriptions, ∃ granted,
    Granting payment db granted grant bucket entry subscriptions ∧ db'.buckets = granted.buckets ∧
      db'.ledger = granted.ledger ∧ db'.subscriptions = granted.subscriptions ∧
      db'.nextId = granted.nextId

/-- The payment keeps its grant and the ledger gets no other. -/
structure KeepsGrant (payment : Payment) (db db' : Db) (f : Payment → Payment)
    (status : PaymentStatus) : Prop where
  payments : Rewrites payment db db' f status
  grant : ∀ p, SameGrant p (f p)
  subscriptions : db'.subscriptions.map Subscription.id = db.subscriptions.map Subscription.id
  buckets : NoBucket db db'

variable {ctx : PaymentContext}

theorem Applied.row (h : Applied ctx payment event db db') :
    (∃ grant, engineStatus payment event = .succeeded ∧ Grants ctx payment event db db' grant) ∨
      ∃ f, KeepsGrant payment db db' f (engineStatus payment event) := by
  have silenced {entries : List UsageLedgerEntry} (silent : ∀ e ∈ entries, Silent e) : ∀ e ∈ entries, NoGrant e :=
    fun e he => (silent e he).2
  cases h.written with
  | noted entries silent f keeps _ status _ _ _ rows =>
    right
    rw [rows]
    exact ⟨f, ⟨rfl, fun p => (keeps p).toSamePayment, status⟩, keeps, rfl,
      rfl, ⟨entries, rfl, silenced silent⟩, le_refl _⟩
  | granted good money unpaid granted grant run economics =>
    left
    obtain ⟨bucket, entry, subscriptions, granting⟩ := grantFromSucceededPayment_granting run
    refine ⟨grant, ?_, unpaid, ?_, bucket, entry, subscriptions, granted, granting, ?_⟩
    · simp [engineStatus, good, money, unpaid]
    · have payments : db'.payments =
          (granted.updatePayment payment.id (grantedRow ctx payment event grant)).payments := by
        rcases ensurePaymentEconomics_cases economics with ⟨-, rfl⟩ | ⟨-, row, rfl, -⟩ <;> rfl
      have rows : granted.payments = db.payments := by rw [granting.rows]
      refine ⟨?_, fun _ => ⟨rfl, rfl, rfl, rfl⟩, rfl⟩
      rw [payments, ← rows]
      rfl
    · rcases ensurePaymentEconomics_cases economics with ⟨-, rfl⟩ | ⟨-, row, rfl, -⟩ <;>
        exact ⟨rfl, rfl, rfl, rfl⟩
  | refunded good money supported buckets entries taken g cancels economics booked rows =>
    right
    have status : engineStatus payment event = refundStatus event := by
      rcases money with e | e <;> simp [engineStatus, good, e, supported]
    rw [rows, status]
    refine ⟨_, ⟨rfl, fun _ => ⟨rfl, rfl, rfl, rfl⟩, rfl⟩, withStatus_grant _ _, ?_, ?_, ⟨entries, rfl, ?_⟩, le_refl _⟩
    · simp only [map_map]
      refine map_congr_left fun s _ => ?_
      rcases cancels s with e | e <;> rw [Function.comp_apply, e]
    · cases taken with
      | nothing => rfl
      | revoked => exact map_update fun _ => rfl
    · cases taken with
      | nothing _ silent => exact silenced silent
      | revoked _ _ _ _ entry _ type entries silent =>
        exact forall_mem_cons.2 ⟨by simp [NoGrant, type], silenced silent⟩

/-- What an applied event does to the payments: its own row is rewritten. -/
theorem Applied.rewrites (h : Applied ctx payment event db db') :
    ∃ f, Rewrites payment db db' f (engineStatus payment event) := by
  rcases h.row with ⟨grant, status, grants⟩ | ⟨f, keeps⟩
  · rw [status]
    exact ⟨_, grants.payments⟩
  · exact ⟨f, keeps.payments⟩

/-- An event that adds a bucket is a confirmation of an open payment and makes
its grant. -/
theorem Applied.grown (h : Applied ctx payment event db db')
    (more : db.buckets.length < db'.buckets.length) :
    mismatched payment event = false ∧ moneyEventFromInput event = .confirmed ∧
      (payment.status = .created ∨ payment.status = .pending) ∧
      ∃ granted grant, grantFromSucceededPayment ctx payment db = .ok (granted, grant) ∧
        ensurePaymentEconomics ctx.feePolicies ctx.fiscalPolicies
          ⟨payment.id, payment.amountMicroRub, payment.provider, payment.createdAt,
            payment.paymentMethod.or event.paymentMethod⟩
          (granted.updatePayment payment.id (grantedRow ctx payment event grant)) = .ok db' := by
  cases h.written with
  | noted _ _ _ _ _ _ _ _ _ rows => simp [rows] at more
  | granted good money unpaid granted grant run economics => exact ⟨good, money, unpaid, granted, grant, run, economics⟩
  | refunded _ _ _ _ _ taken _ _ _ _ rows => cases taken <;> simp [rows, update] at more

/-! ## What usage transactions leave alone

Reserving, settling and releasing write buckets, reservations, allocations and
the ledger. Payments, their events, subscriptions and economics stay as they
are, and no ledger entry reports a grant. -/

open Rows

structure UsageOnly (db db' : Db) : Prop extends NoBucket db db' where
  payments : db'.payments = db.payments
  paymentEvents : db'.paymentEvents = db.paymentEvents
  subscriptions : db'.subscriptions = db.subscriptions
  economics : db'.economics = db.economics

theorem UsageOnly.refl (db : Db) : UsageOnly db db :=
  ⟨(SameUsage.refl db).noBucket, rfl, rfl, rfl, rfl⟩

theorem UsageOnly.trans {a b c : Db} (h : UsageOnly a b) (h' : UsageOnly b c) : UsageOnly a c :=
  ⟨h.toNoBucket.trans h'.toNoBucket, h'.payments.trans h.payments,
    h'.paymentEvents.trans h.paymentEvents, h'.subscriptions.trans h.subscriptions,
    h'.economics.trans h.economics⟩

theorem UsageOnly.foldl {β : Type} {f : Db → β → Db} {l : List β}
    (h : ∀ db, ∀ x ∈ l, UsageOnly db (f db x)) (db : Db) : UsageOnly db (l.foldl f db) := by
  induction l generalizing db with
  | nil => exact .refl db
  | cons x l ih =>
    have head := h db x mem_cons_self
    exact head.trans (ih (fun db y hy => h db y (mem_cons_of_mem x hy)) (f db x))

theorem updateBucket_usageOnly (db : Db) (id : Nat) {f : UsageBucket → UsageBucket}
    (hf : ∀ b, (f b).id = b.id) : UsageOnly db (db.updateBucket id f) :=
  ⟨.silent (map_update hf) rfl (le_refl _), rfl, rfl, rfl, rfl⟩

theorem updateReservation_usageOnly (db : Db) (id : Nat) (f : UsageReservation → UsageReservation) :
    UsageOnly db (db.updateReservation id f) :=
  ⟨.silent rfl rfl (le_refl _), rfl, rfl, rfl, rfl⟩

variable {e : UsageLedgerEntry}

theorem createAllocation_usageOnly (db : Db) (reservationId bucketId : Nat) (reserved : Int) :
    UsageOnly db (db.createAllocation reservationId bucketId reserved).1 :=
  ⟨.silent rfl rfl (le_succ _), rfl, rfl, rfl, rfl⟩

theorem hold_usageOnly (reservationId : Nat) {entry : ReservationAllocationPlan → UsageLedgerEntry}
    (h : ∀ p, NoGrant (entry p)) (db : Db) (p : ReservationAllocationPlan) :
    UsageOnly db (db.hold reservationId entry p) := by
  have created := createAllocation_usageOnly db reservationId p.bucketId p.reservedMicroRub
  have reserved := updateBucket_usageOnly
    (db.createAllocation reservationId p.bucketId p.reservedMicroRub).1 p.bucketId
    (f := addReserved p.reservedMicroRub) fun _ => rfl
  exact (created.trans reserved).trans ⟨appendLedger_noBucket _ (h p), rfl, rfl, rfl, rfl⟩

theorem extend_usageOnly (reservationId : Nat) (s : Db × List UsageReservationAllocation)
    (p : ReservationAllocationPlan) : UsageOnly s.1 (extend reservationId s p).1 := by
  have reserved (db : Db) : UsageOnly db (db.updateBucket p.bucketId (addReserved p.reservedMicroRub)) :=
    updateBucket_usageOnly db p.bucketId fun _ => rfl
  unfold extend
  cases find UsageReservationAllocation.bucketId p.bucketId s.2 with
  | some existing =>
    have grown : UsageOnly s.1 (s.1.updateAllocation existing.id (growAllocation p.reservedMicroRub)) :=
      ⟨.silent rfl rfl (le_refl _), rfl, rfl, rfl, rfl⟩
    exact grown.trans (reserved _)
  | none =>
    have created := createAllocation_usageOnly s.1 reservationId p.bucketId p.reservedMicroRub
    exact created.trans (reserved _)

theorem extends_usageOnly (reservationId : Nat) (plan : List ReservationAllocationPlan)
    (s : Db × List UsageReservationAllocation) :
    UsageOnly s.1 (plan.foldl (extend reservationId) s).1 := by
  induction plan generalizing s with
  | nil => exact .refl s.1
  | cons p plan ih => exact (extend_usageOnly reservationId s p).trans (ih _)

theorem payOut_usageOnly (db : Db) {p : Payout} (h : ∀ e ∈ p.entries, NoGrant e) :
    UsageOnly db (db.payOut p) := by
  rw [payOut_eq]
  exact ⟨⟨map_update fun _ => rfl, ⟨p.entries, rfl, h⟩, le_refl _⟩, rfl, rfl, rfl, rfl⟩

theorem finish_usageOnly (db : Db) (r : UsageReservation) (actual : Int) (status : ReservationStatus)
    {payouts : List Payout} (h : ∀ p ∈ payouts, ∀ e ∈ p.entries, NoGrant e) :
    UsageOnly db (db.finish r actual status payouts) := by
  have paid : UsageOnly db (payouts.foldl Db.payOut db) :=
    .foldl (fun db p hp => payOut_usageOnly db (h p hp)) db
  exact paid.trans (updateReservation_usageOnly _ r.id _)

theorem noGrant_of_usage (h : e.type = .reservationCreated ∨
    e.type = .usageSettled ∨ e.type = .reservationReleased) : NoGrant e := by
  rcases h with h | h | h <;> exact ⟨by rw [h]; decide, by rw [h]; decide⟩

theorem settleEntries_noGrant (input : SettleInput) (reservationId bucketId : Nat)
    (settled released : Int) :
    ∀ e ∈ settleEntries input reservationId bucketId settled released, NoGrant e := by
  intro e he
  simp only [settleEntries, mem_append] at he
  apply noGrant_of_usage
  rcases he with he | he
  · split at he
    · rw [mem_singleton.1 he]
      exact .inr (.inl rfl)
    · cases he
  · split at he
    · rw [mem_singleton.1 he]
      exact .inr (.inr rfl)
    · cases he

theorem settlement_usageOnly (clock : SettleClock) (input : SettleInput) (r : UsageReservation)
    (db : Db) : UsageOnly db ((settlement clock input r db).result input r) := by
  have paid (s : Settlement) : UsageOnly s.db (s.result input r) :=
    finish_usageOnly s.db r s.actual s.status (settlePayouts_forall fun a _ => settleEntries_noGrant input r.id a.bucketId _ _)
  have funded : UsageOnly db (settlement clock input r db).db :=
    settlement_db (P := UsageOnly db) clock input (.refl db) fun plan order =>
      (extends_usageOnly r.id plan (db, order)).trans (updateReservation_usageOnly _ r.id _)
  exact funded.trans (paid _)

theorem release_usageOnly (input : ReleaseInput) (r : UsageReservation) (db : Db) :
    UsageOnly db (release input r db) := by
  apply finish_usageOnly
  intro p hp e he
  obtain ⟨a, -, rfl⟩ := mem_map.1 hp
  rw [mem_singleton.1 he]
  exact noGrant_of_usage (.inr (.inr rfl))

theorem reserveUsage_usageOnly {now : Int} {input : ReserveInput} {db db' : Db}
    {view : ReservationView} (nd : db.BucketIds) (run : reserveUsage now input db = .ok (db', view)) :
    UsageOnly db db' := by
  rcases reserveUsage_cases nd run with rfl | ⟨plan, -, -, rfl⟩
  · exact .refl _
  · have created : UsageOnly db (db.createReservation input.userId input.requestId
        input.estimatedProviderCostMicroRub).1 :=
      ⟨.silent rfl rfl (le_succ _), rfl, rfl, rfl, rfl⟩
    apply created.trans
    apply UsageOnly.foldl
    intro db p _
    exact hold_usageOnly _ (fun _ => noGrant_of_usage (.inl rfl)) db p

/-!
# Transactions by what they do to payments

Five kinds of transaction, and what all of them keep: payment keys are unique
and generated, and no payment is deleted or changes its amount.
-/

/-- A committed transaction is one of usage, an event that was taken, a new
payment, a checkout that was recorded, or a call that wrote nothing. -/
inductive PaymentMove (db : Db) : Op → Db → Prop
  | none (op : Op) : PaymentMove db op db
  | usage (op : Op) (db' : Db) (frame : UsageOnly db db') : PaymentMove db op db'
  | taken (ctx : PaymentContext) (event : PaymentEventInput) (payment : Payment)
    (lock : lockPaymentId db event = some payment) (new : db.recorded event = false) (db' : Db)
    (applied : Applied ctx payment event (db.note event payment) db') :
    PaymentMove db (.processPaymentEvent ctx event) db'
  | created (op : Op) (payment : Payment) (new : NewPayment payment) (db' : Db)
    (run : db.createPayment payment = .ok db') : PaymentMove db op db'
  | checkout (op : Op) (payment : Payment) (known : payment ∈ db.payments)
    (checkout : HostedCheckout) (records : op.Records payment checkout) (db' : Db)
    (run : db.recordCheckout payment checkout = .ok db') : PaymentMove db op db'

variable {db db' : Db} {op : Op} {payment : Payment} {f : Payment → Payment} {status : PaymentStatus}

theorem Commits.move (h : Commits db op db') (balanced : Balanced db .none) : PaymentMove db op db' := by
  cases h with
  | reserve now input db' view run =>
    exact .usage _ _ (reserveUsage_usageOnly balanced.keys.buckets run)
  | settle clock input db' view run =>
    rcases settleUsage_cases balanced run with ⟨rfl, -⟩ | ⟨r, -, -, -, -, -, rfl⟩
    · exact .none _
    · exact .usage _ _ (settlement_usageOnly clock input r db)
  | release now input db' view run =>
    rcases releaseUsage_cases balanced run with ⟨rfl, -⟩ | ⟨r, -, -, -, -, rfl⟩
    · exact .none _
    · exact .usage _ _ (release_usageOnly input r db)
  | event ctx event db' result run =>
    obtain ⟨payment, lock, ⟨-, rfl⟩ | ⟨new, applied⟩⟩ := processPaymentEvent_cases run
    · exact .none _
    · exact .taken ctx event payment lock new db' applied
  | create catalog now fresh input db' created run =>
    rcases createPendingPayment_cases run with rfl | ⟨payment, new, hcreate⟩
    · exact .none _
    · exact .created _ payment new db' hcreate
  | checkout op payment known checkout records db' run =>
    exact .checkout op payment known checkout records db' run

/-- A transaction is one of usage, or moves the buckets as one of payments does. -/
theorem PaymentMove.usage_or_move (h : PaymentMove db op db') : UsageOnly db db' ∨ BucketMove db db' := by
  cases h with
  | none => exact .inl (.refl _)
  | usage _ _ frame => exact .inl frame
  | taken ctx event payment lock new _ applied => exact .inr (applied.move.before (note_same db event payment))
  | created _ payment new _ run =>
    obtain ⟨rfl, -, -⟩ := createPayment_cases run
    exact .inr (SameUsage.move ⟨rfl, rfl, rfl, rfl, le_succ _⟩)
  | checkout _ payment known checkout records _ run => exact .inr (recordCheckout_same run).move

/-- Only an event changes what was granted and what a payment has earned. -/
theorem PaymentMove.event_or_kept (h : PaymentMove db op db') :
    (∃ ctx event payment, op = .processPaymentEvent ctx event ∧ lockPaymentId db event = some payment ∧
      Applied ctx payment event (db.note event payment) db') ∨
    NoBucket db db' ∧ db'.subscriptions = db.subscriptions ∧ db'.economics = db.economics := by
  cases h with
  | none => exact .inr ⟨(UsageOnly.refl _).toNoBucket, rfl, rfl⟩
  | usage _ _ frame => exact .inr ⟨frame.toNoBucket, frame.subscriptions, frame.economics⟩
  | taken ctx event payment lock _ _ applied => exact .inl ⟨ctx, event, payment, rfl, lock, applied⟩
  | created _ payment _ _ run =>
    obtain ⟨rfl, -, -⟩ := createPayment_cases run
    exact .inr ⟨SameUsage.noBucket ⟨rfl, rfl, rfl, rfl, le_succ _⟩, rfl, rfl⟩
  | checkout _ payment known checkout _ _ run =>
    have none := (recordCheckout_same run).noBucket
    obtain ⟨-, rfl⟩ := recordCheckout_cases run
    exact .inr ⟨none, rfl, rfl⟩

structure PaymentKeys (db : Db) : Prop where
  keys : (db.payments.map Payment.id).Nodup
  below : ∀ p ∈ db.payments, p.id < db.nextId

/-- Nothing has been sold yet. -/
structure BeforePayments (db : Db) : Prop where
  payments : db.payments = []
  economics : db.economics = []
  ledger : ∀ e ∈ db.ledger, NoGrant e

theorem BeforePayments.keys (h : BeforePayments db) : PaymentKeys db := by
  constructor <;> simp [h.payments]

theorem PaymentKeys.of_ids (h : PaymentKeys db) (ids : db'.payments.map Payment.id = db.payments.map Payment.id)
    (later : db.nextId ≤ db'.nextId) : PaymentKeys db' := by
  constructor
  · rw [ids]
    exact h.keys
  · intro p hp
    obtain ⟨q, hq, hid⟩ := mem_map.1 (ids ▸ mem_map_of_mem hp)
    rw [← hid]
    exact lt_of_lt_of_le (h.below q hq) later

theorem Rewrites.ids (h : Rewrites payment db db' f status) :
    db'.payments.map Payment.id = db.payments.map Payment.id := by
  rw [h.payments]
  exact map_update fun p => (h.same p).id

theorem BucketMove.nextId {db db' : Db} (h : BucketMove db db') : db.nextId ≤ db'.nextId := by
  cases h with
  | still _ e | granted _ _ e | revoked _ _ _ _ _ e => exact e.nextId

theorem PaymentMove.keys {db db' : Db} (h : PaymentMove db op db') (keys : PaymentKeys db) :
    PaymentKeys db' := by
  cases h with
  | none => exact keys
  | usage _ _ frame => exact keys.of_ids (by rw [frame.payments]) frame.nextId
  | taken ctx event payment lock new _ applied =>
    have noted : PaymentKeys (db.note event payment) := ⟨keys.keys, keys.below⟩
    obtain ⟨f, rewrites⟩ := applied.rewrites
    exact noted.of_ids rewrites.ids applied.move.nextId
  | created _ payment new _ run =>
    obtain ⟨rfl, -, -⟩ := createPayment_cases run
    constructor
    · apply nodup_append keys.keys
      intro p hp
      exact Nat.ne_of_lt (keys.below p hp)
    · intro p hp
      rcases mem_append.1 hp with hp | hp
      · exact lt_succ_of_lt (keys.below p hp)
      · rw [mem_singleton.1 hp]
        exact lt_succ_self db.nextId
  | checkout _ payment known checkout records _ run =>
    obtain ⟨-, rfl⟩ := recordCheckout_cases run
    exact keys.of_ids (map_update fun _ => rfl) (le_refl _)

/-- Every payment is still there, for the same amount. -/
def PaymentsKept (db db' : Db) : Prop := ∀ p ∈ db.payments, ∃ q ∈ db'.payments, SamePayment p q

theorem PaymentsKept.trans {a b c : Db} (h : PaymentsKept a b) (h' : PaymentsKept b c) :
    PaymentsKept a c := by
  intro p hp
  obtain ⟨q, hq, same⟩ := h p hp
  obtain ⟨r, hr, same'⟩ := h' q hq
  exact ⟨r, hr, same'.id.trans same.id, same'.amount.trans same.amount, same'.kind.trans same.kind,
    same'.snapshot.trans same.snapshot⟩

theorem Rewrites.kept (h : Rewrites payment db db' f status) : PaymentsKept db db' := by
  intro p hp
  rw [h.payments]
  by_cases hid : p.id = payment.id
  · exact ⟨f p, mem_update_self hp hid, h.same p⟩
  · exact ⟨p, mem_update_of_ne hp hid, .refl p⟩

theorem PaymentMove.kept (h : PaymentMove db op db') : PaymentsKept db db' := by
  cases h with
  | none => exact fun p hp => ⟨p, hp, .refl p⟩
  | usage _ _ frame =>
    intro p hp
    rw [frame.payments]
    exact ⟨p, hp, .refl p⟩
  | taken ctx event payment lock new _ applied =>
    have noted : PaymentsKept db (db.note event payment) := fun p hp => ⟨p, hp, .refl p⟩
    obtain ⟨f, rewrites⟩ := applied.rewrites
    exact noted.trans rewrites.kept
  | created _ payment new _ run =>
    obtain ⟨rfl, -, -⟩ := createPayment_cases run
    exact fun p hp => ⟨p, mem_append_left _ hp, .refl p⟩
  | checkout _ payment known checkout records _ run =>
    obtain ⟨-, rfl⟩ := recordCheckout_cases run
    intro p hp
    by_cases hid : p.id = payment.id
    · exact ⟨_, mem_update_self hp hid, rfl, rfl, rfl, rfl⟩
    · exact ⟨p, mem_update_of_ne hp hid, .refl p⟩

end Vimla.Billing
