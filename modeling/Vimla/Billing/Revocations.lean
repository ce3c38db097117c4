import Vimla.Billing.HoldTrail
import Vimla.Billing.Grantable
import Vimla.Billing.GrantsOnce
import Vimla.Billing.Refunds

/-!
# What is taken back of a bucket

Usage leaves the total of a bucket alone, and payments only ever lower it. By
how much, the `BUCKET_REVOKED` entries say.
-/

namespace Vimla.Billing

open List Rows Int Option World

/-- The total of a bucket, against entries weighed by `weight`. -/
def totals (weight : UsageLedgerEntry → Int) : Reading := ⟨weight, UsageBucket.totalMicroRub⟩

/-- The types of entry that usage transactions write. -/
def UsageLedgerEntry.ofUsage (e : UsageLedgerEntry) : Prop :=
  e.type = .reservationCreated ∨ e.type = .usageSettled ∨ e.type = .reservationReleased

section
variable {weight : UsageLedgerEntry → Int} (passes : ∀ e : UsageLedgerEntry, e.ofUsage → weight e = 0)
include passes

theorem totals_seesHolds : (totals weight).SeesHolds := by
  intro input reservationId p b
  have zero : weight (holdEntry input reservationId p) = 0 := passes _ (.inl rfl)
  simp only [totals, addReserved, zero]
  omega

theorem totals_seesEnds : (totals weight).SeesEnds := by
  refine Reading.seesEnds_of (fun input reservationId a paid _ _ b => ?_) fun input reservationId a b => ?_
  · have zero : total weight (settleEntries input reservationId a.bucketId paid (a.reservedMicroRub - paid)) = 0 := by
      refine total_eq_zero fun e he => passes e ?_
      simp only [settleEntries, mem_append] at he
      rcases he with he | he <;> split at he <;> simp_all [UsageLedgerEntry.ofUsage]
    simp only [totals, payBucket, zero]
    omega
  · have zero : weight (releaseEntry input reservationId a.bucketId a.reservedMicroRub) = 0 := passes _ (.inr (.inr rfl))
    simp only [totals, payBucket, zero]
    omega

/-- A transaction leaves the totals as the entries have them, or is one of payments. -/
theorem Commits.totals {db db' : Db} {op : Op} (h : Commits db op db') (balanced : Balanced db .none) :
    (∀ id, (totals weight).gain db' id = (totals weight).gain db id) ∨ BucketMove db db' :=
  Reading.over_commits (totals_seesHolds passes) (totals_seesEnds passes) (fun _ _ => rfl) h balanced

end

/-- Every bucket is still there, with no more than it had. -/
def Lowers (db db' : Db) : Prop :=
  ∀ b ∈ db.buckets, ∃ b' ∈ db'.buckets, b'.id = b.id ∧ b'.totalMicroRub ≤ b.totalMicroRub

theorem Lowers.refl (db : Db) : Lowers db db := fun b hb => ⟨b, hb, rfl, le_refl _⟩

theorem Lowers.trans {a b c : Db} (h : Lowers a b) (h' : Lowers b c) : Lowers a c := by
  intro row hrow
  obtain ⟨row', hrow', id, le⟩ := h row hrow
  obtain ⟨row'', hrow'', id', le'⟩ := h' row' hrow'
  exact ⟨row'', hrow'', id'.trans id, le_trans le' le⟩

variable {db db' : Db} {op : Op} {b : UsageBucket}

theorem BucketMove.lowers (m : BucketMove db db') (nd : db.BucketIds) : Lowers db db' := by
  intro b hb
  cases m with
  | still entries e buckets => exact ⟨b, buckets ▸ hb, rfl, le_refl _⟩
  | granted bucket entry e buckets =>
    exact ⟨b, buckets ▸ mem_append_left _ hb, rfl, le_refl _⟩
  | revoked bucket known revoke entry entries e buckets range =>
    rw [buckets]
    by_cases own : b.id = bucket.id
    · obtain rfl := eq_of_key nd hb known own
      refine ⟨_, mem_update_self hb rfl, rfl, ?_⟩
      simp only [setTotal]
      omega
    · exact ⟨b, mem_update_of_ne hb own, rfl, le_refl _⟩

theorem Commits.lowers (h : Commits db op db') (balanced : Balanced db .none) : Lowers db db' := by
  rcases h.column (f := UsageBucket.totalMicroRub) (fun _ _ => rfl) (fun _ _ => rfl) balanced with same | move
  · intro b hb
    obtain ⟨b', hb', equal⟩ := mem_map.1 (same ▸ mem_map_of_mem hb)
    exact ⟨b', hb', congrArg Prod.fst equal, le_of_eq (congrArg Prod.snd equal)⟩
  · exact move.lowers balanced.keys.buckets

/-- What the entries say was taken back of a bucket. -/
def revokedIn (bucketId : Nat) (entries : List UsageLedgerEntry) : Int :=
  total (fun e => if e.bucketId = some bucketId then
    if e.type = .bucketRevoked then -e.amountMicroRub else 0 else 0) entries

def revocationOf (e : UsageLedgerEntry) : Int := if e.type = .bucketRevoked then e.amountMicroRub else 0

def revocations : Reading := totals revocationOf

theorem revocations_entered (id : Nat) (entries : List UsageLedgerEntry) :
    revocations.entered id entries = -revokedIn id entries := by
  induction entries with
  | nil => rfl
  | cons e entries ih =>
    simp only [Reading.entered, revokedIn, total_cons] at ih ⊢
    rw [ih]
    by_cases own : e.bucketId = some id
    · simp only [own, if_true, revocations, totals, revocationOf]
      split <;> omega
    · simp only [own, if_false]
      omega

theorem revocationOf_usage (e : UsageLedgerEntry) (usage : e.ofUsage) : revocationOf e = 0 := by
  rcases usage with type | type | type <;> simp [revocationOf, type]

theorem revocationOf_silent {entries : List UsageLedgerEntry} (silent : ∀ e ∈ entries, Silent e) (id : Nat) :
    revocations.entered id entries = 0 := by
  refine total_eq_zero fun e he => ?_
  have zero := (silent e he).1
  simp only [revocations, totals, revocationOf, zero]
  split <;> simp

/-- On a bucket that is there, the entries say what a payment takes back. -/
theorem BucketMove.revocations (m : BucketMove db db') (keys : Keys db) (hb : b ∈ db.buckets) :
    revocations.gain db' b.id = revocations.gain db b.id := by
  unfold Reading.gain
  cases m with
  | still entries e buckets silent =>
    rw [buckets, e.ledger, Reading.entered_append, revocationOf_silent silent]
    omega
  | granted bucket entry e buckets fresh below unused total amount type =>
    have other : bucket.id ≠ b.id := fun same => by
      have := keys.bucketFresh b hb
      omega
    have grant : entry.type ≠ .bucketRevoked := by
      rcases type with type | type <;> simp [type]
    have new : Billing.revocations.row b.id [bucket] = 0 := by
      simp [Reading.row, other]
    have row : Billing.revocations.row b.id (db.buckets ++ [bucket]) =
        Billing.revocations.row b.id db.buckets + Billing.revocations.row b.id [bucket] := total_append
    have entered : Billing.revocations.entered b.id [entry] = 0 := by
      simp [Reading.entered, Billing.revocations, totals, revocationOf, grant]
    rw [buckets, e.ledger, Reading.entered_append, entered, row, new]
    omega
  | revoked bucket known revoke entry entries e buckets range amount type silent =>
    have own : ∀ x ∈ [entry], x.bucketId = some bucket.id := by simpa using amount.1
    have cons : db.ledger ++ (entry :: entries) = db.ledger ++ [entry] ++ entries := by simp
    rw [buckets, e.ledger, cons, Reading.entered_append, Reading.entered_append, revocationOf_silent silent,
      Reading.entered_of_bucket own, Reading.row_update (f := setTotal (bucket.totalMicroRub - revoke))
        keys.buckets known rfl]
    simp only [Billing.revocations, totals, revocationOf, total_cons, total_nil, type, amount.2, setTotal, if_true]
    split <;> omega

theorem Commits.revocations (h : Commits db op db') (balanced : Balanced db .none) (hb : b ∈ db.buckets) :
    revocations.gain db' b.id = revocations.gain db b.id := by
  rcases h.totals revocationOf_usage balanced with same | move
  · exact same b.id
  · exact move.revocations balanced.keys hb

theorem Commits.appends (h : Commits db op db') (balanced : Balanced db .none) :
    ∃ more, db'.ledger = db.ledger ++ more := by
  rcases (h.move balanced).usage_or_move with usage | move
  · obtain ⟨more, ledger, -⟩ := usage.ledger
    exact ⟨more, ledger⟩
  · cases move with
    | still entries e => exact ⟨entries, e.ledger⟩
    | granted bucket entry e => exact ⟨[entry], e.ledger⟩
    | revoked bucket known revoke entry entries e => exact ⟨entry :: entries, e.ledger⟩

/-- From any balanced state on, a bucket loses of its total what the entries
since then say was taken back. -/
theorem run_revokes {w : World} (balanced : Balanced w.db .none) (ops : List Op) (hb : b ∈ w.db.buckets) :
    ∃ more, (w.run ops).db.ledger = w.db.ledger ++ more ∧
      ∃ b' ∈ (w.run ops).db.buckets, b'.id = b.id ∧
        b'.totalMicroRub = b.totalMicroRub - revokedIn b.id more ∧ b'.totalMicroRub ≤ b.totalMicroRub := by
  have since : Balanced (w.run ops).db .none ∧ (∃ more, (w.run ops).db.ledger = w.db.ledger ++ more) ∧
      Lowers w.db (w.run ops).db ∧ revocations.gain (w.run ops).db b.id = revocations.gain w.db b.id := by
    apply w.run_invariant (P := fun db => Balanced db .none ∧ (∃ more, db.ledger = w.db.ledger ++ more) ∧
      Lowers w.db db ∧ revocations.gain db b.id = revocations.gain w.db b.id) _ ops
    · exact ⟨balanced, ⟨[], (append_nil _).symm⟩, .refl _, rfl⟩
    · rintro db op db' commits ⟨balanced, ⟨more, ledger⟩, lowers, gain⟩
      obtain ⟨more', ledger'⟩ := commits.appends balanced
      obtain ⟨row, hrow, hid, -⟩ := lowers b hb
      refine ⟨commits.balanced balanced, ⟨more ++ more', ?_⟩, lowers.trans (commits.lowers balanced), ?_⟩
      · rw [ledger', ledger, append_assoc]
      · rw [← gain, ← hid]
        exact commits.revocations balanced hrow
  obtain ⟨balanced', ⟨more, ledger⟩, lowers, gain⟩ := since
  obtain ⟨b', hb', hid, le⟩ := lowers b hb
  refine ⟨more, ledger, b', hb', hid, ?_, le⟩
  unfold Reading.gain at gain
  rw [ledger, Reading.entered_append, Reading.row_of_mem balanced.keys.buckets hb, ← hid,
    Reading.row_of_mem balanced'.keys.buckets hb', revocations_entered b'.id more, hid] at gain
  simp only [revocations, totals] at gain
  omega

/-!
# What a partial refund takes back

A partial refund is to take back its share of the grant, as far as that is
unused. An event that does not carry the amount takes the whole grant instead.
However often a payment is refunded, no more than its grant is taken.
-/

/-- The grant of a top-up is its price at the ratio of its snapshot. -/
def Payment.Priced (p : Payment) : Prop :=
  p.kind = .topup → ∃ ratio, p.checkoutSnapshot.topupRatioBps = some ratio ∧
    topupProviderBudgetMicroRub p.amountMicroRub ratio = .ok p.checkoutSnapshot.providerBudgetGrantMicroRub

theorem SamePayment.priced {p q : Payment} (same : SamePayment p q) (h : p.Priced) : q.Priced := by
  unfold Payment.Priced
  rw [same.kind, same.amount, same.snapshot]
  exact h

variable {input : CreatePaymentInput} {catalog : Catalog}

theorem buildCheckoutSnapshot_topup {now : Int}
    {snapshot : CheckoutSnapshot} (h : buildCheckoutSnapshot catalog now input = .ok snapshot)
    (kind : input.kind = .topup) : ∃ ratio, snapshot.topupRatioBps = some ratio ∧
      topupProviderBudgetMicroRub snapshot.customerPaymentAmountMicroRub ratio =
        .ok snapshot.providerBudgetGrantMicroRub := by
  unfold buildCheckoutSnapshot at h
  rw [kind] at h
  simp only [bind, Except.bind] at h
  split at h
  · cases h
  split at h
  · cases h
  rename_i grant budget
  cases h
  exact ⟨_, rfl, budget⟩

variable {db db' : Db} {amount : Int} {payment : Payment} {event : PaymentEventInput} {bucket : UsageBucket}

theorem createPendingPayment_priced {now : Int} {fresh : FreshIds}
    {created : CreatedPayment} (h : createPendingPayment catalog now fresh input db = .ok (db', created))
    (priced : ∀ p ∈ db.payments, p.Priced) : ∀ p ∈ db'.payments, p.Priced := by
  rcases createPendingPayment_built h with rfl | ⟨payment, built, kind, amount, hcreate⟩
  · exact priced
  · obtain ⟨rfl, -, -⟩ := createPayment_cases hcreate
    intro p hp
    rcases mem_append.1 hp with hp | hp
    · exact priced p hp
    · rw [mem_singleton.1 hp]
      intro topup
      obtain ⟨ratio, hratio, budget⟩ := buildCheckoutSnapshot_topup built (kind ▸ topup)
      exact ⟨ratio, hratio, by simpa [amount] using budget⟩

/-- No bucket holds more than its payment granted. -/
def WithinGrant (db : Db) : Prop :=
  ∀ p ∈ db.payments, ∀ id, p.grantedBucketId = some id → ∃ b ∈ db.buckets, b.id = id ∧
    b.totalMicroRub ≤ p.checkoutSnapshot.providerBudgetGrantMicroRub

def RefundsCounted (db : Db) : Prop := ∀ row ∈ db.economics, 0 ≤ row.refundedAmountMicroRub

theorem addRefundToEconomics_ok {paymentId : Nat} {amount : Int} {db : Db} (counted : RefundsCounted db)
    (nonneg : 0 ≤ amount) : ∃ db', addRefundToEconomics paymentId amount db = .ok db' := by
  unfold addRefundToEconomics
  cases hfind : find PaymentEconomics.paymentId paymentId db.economics with
  | none => exact ⟨db, rfl⟩
  | some existing =>
    have := counted existing (mem_of_find hfind).1
    simp only
    rw [if_neg (by omega)]
    exact ⟨_, rfl⟩

theorem RefundsCounted.congr (h : RefundsCounted db) (same : db'.economics = db.economics) : RefundsCounted db' := by
  unfold RefundsCounted
  rw [same]
  exact h

theorem Applied.counted {ctx : PaymentContext} {db db' : Db}
    (h : Applied ctx payment event db db') (counted : RefundsCounted db) : RefundsCounted db' := by
  cases h.written with
  | noted _ _ _ _ _ _ g same _ rows =>
    rw [rows]
    intro row' hrow
    obtain ⟨row, mem, rfl⟩ := mem_map.1 hrow
    rw [(same row).2.2]
    exact counted row mem
  | granted good money unpaid granted grant run economics =>
    obtain ⟨bucket, entry, subscriptions, granting⟩ := grantFromSucceededPayment_granting run
    have before : RefundsCounted (granted.updatePayment payment.id (grantedRow ctx payment event grant)) :=
      counted.congr (by simp [Db.updatePayment, granting.rows])
    rcases ensurePaymentEconomics_cases economics with ⟨-, rfl⟩ | ⟨-, row, rfl, -, -, zero⟩
    · exact before
    · intro row' hrow
      rcases mem_append.1 hrow with hrow | hrow
      · exact before row' hrow
      · rw [mem_singleton.1 hrow, zero]
  | refunded _ _ _ _ _ _ _ _ economics booked rows =>
    rw [rows]
    cases booked with
    | absent => exact counted
    | added existing known own nonneg =>
      intro row hrow
      obtain ⟨old, hold, rfl⟩ := mem_update.1 hrow
      split
      · exact nonneg
      · exact counted old hold

theorem PaymentMove.counted {db db' : Db} {op : Op} (h : PaymentMove db op db') (counted : RefundsCounted db) :
    RefundsCounted db' := by
  obtain ⟨ctx, event, payment, -, -, applied⟩ | ⟨-, -, same⟩ := h.event_or_kept
  · have noted : RefundsCounted (db.note event payment) := counted
    exact applied.counted noted
  · exact counted.congr same

variable {ctx : PaymentContext} {op : Op} {ratio : Int}

/-- A grant fills the bucket with what the snapshot says. -/
theorem grantFromSucceededPayment_total {grant : Grant}
    (h : grantFromSucceededPayment ctx payment db = .ok (db', grant)) : ∃ b ∈ db'.buckets, b.id = grant.bucketId ∧
      b.totalMicroRub = payment.checkoutSnapshot.providerBudgetGrantMicroRub := by
  obtain ⟨-, ⟨planVersionId, -, -, rfl, rfl⟩ | ⟨-, rfl, rfl⟩⟩ := grantFromSucceededPayment_cases h <;>
    exact ⟨_, mem_append_right _ (mem_singleton_self _), rfl, rfl⟩

theorem WithinGrant.lower (h : WithinGrant db) (lowers : Lowers db db')
    (back : ∀ q ∈ db'.payments, ∃ p ∈ db.payments, q.checkoutSnapshot = p.checkoutSnapshot ∧
      (q.grantedBucketId = none ∨ q.grantedBucketId = p.grantedBucketId)) : WithinGrant db' := by
  intro q hq id granted
  obtain ⟨p, hp, snapshot, none | same⟩ := back q hq
  · rw [none] at granted
    cases granted
  · obtain ⟨b, hb, hid, le⟩ := h p hp id (same ▸ granted)
    obtain ⟨b', hb', hid', le'⟩ := lowers b hb
    exact ⟨b', hb', hid'.trans hid, snapshot ▸ le_trans le' le⟩

/-- An event that grants runs the grant; any other keeps the grant there is. -/
theorem Applied.grant_or_keeps (h : Applied ctx payment event db db') :
    (∃ granted grant, grantFromSucceededPayment ctx payment db = .ok (granted, grant) ∧
      db'.buckets = granted.buckets ∧ db'.payments =
        update Payment.id payment.id (grantedRow ctx payment event grant) db.payments) ∨
      ∃ f, KeepsGrant payment db db' f (engineStatus payment event) := by
  rcases h.row with ⟨grant, succeeded, grants⟩ | keeps
  · left
    obtain ⟨-, -, -, granted, grant, run, economics⟩ := h.grown (by
      obtain ⟨bucket, entry, subscriptions, granted, granting, buckets, -⟩ := grants.rows
      simp [buckets, granting.rows])
    obtain ⟨bucket, entry, subscriptions, granting⟩ := grantFromSucceededPayment_granting run
    have rows : granted.payments = db.payments := by rw [granting.rows]
    refine ⟨granted, grant, run, ?_⟩
    rw [← rows]
    rcases ensurePaymentEconomics_cases economics with ⟨-, rfl⟩ | ⟨-, row, rfl, -⟩ <;> exact ⟨rfl, rfl⟩
  · exact .inr keeps

theorem PaymentMove.withinGrant (h : PaymentMove db op db') (keys : PaymentKeys db) (lowers : Lowers db db')
    (within : WithinGrant db) : WithinGrant db' := by
  cases h with
  | none => exact within
  | usage _ _ frame =>
    refine within.lower lowers fun q hq => ⟨q, frame.payments ▸ hq, rfl, .inr rfl⟩
  | taken ctx event payment lock new _ applied =>
    rcases applied.grant_or_keeps with ⟨granted, grant, run, buckets, payments⟩ | ⟨f, keeps⟩
    · intro q hq id hgranted
      rw [payments] at hq
      obtain ⟨p, hp, rfl⟩ := mem_update.1 hq
      by_cases own : p.id = payment.id
      · obtain rfl := eq_of_key keys.keys hp (lockPaymentId_mem lock) own
        obtain ⟨b, hb, hid, total⟩ := grantFromSucceededPayment_total run
        simp only [if_true, grantedRow] at hgranted ⊢
        cases hgranted
        exact ⟨b, buckets ▸ hb, hid, le_of_eq total⟩
      · simp only [own, if_false] at hgranted ⊢
        obtain ⟨b, hb, hid, le⟩ := within p hp id hgranted
        obtain ⟨b', hb', hid', le'⟩ := lowers b hb
        exact ⟨b', hb', hid'.trans hid, le_trans le' le⟩
    · refine within.lower lowers fun q hq => ?_
      rw [keeps.payments.payments] at hq
      obtain ⟨p, hp, rfl⟩ := mem_update.1 hq
      split
      · exact ⟨p, hp, (keeps.grant p).snapshot, .inr (keeps.grant p).bucket⟩
      · exact ⟨p, hp, rfl, .inr rfl⟩
  | created _ payment new _ run =>
    obtain ⟨rfl, -, -⟩ := createPayment_cases run
    intro p hp id granted
    rcases mem_append.1 hp with hp | hp
    · exact within p hp id granted
    · rw [mem_singleton.1 hp] at granted
      rw [show _ = payment.grantedBucketId from rfl, new.bucket] at granted
      cases granted
  | checkout _ payment known checkout records _ run =>
    obtain ⟨-, rfl⟩ := recordCheckout_cases run
    refine within.lower lowers fun q hq => ?_
    obtain ⟨p, hp, rfl⟩ := mem_update.1 hq
    split <;> exact ⟨p, hp, rfl, .inr rfl⟩

/-- What refunds rely on in every reachable state. -/
structure RefundsReady (db : Db) : Prop extends PaymentKeys db where
  balanced : Balanced db .none
  priced : ∀ p ∈ db.payments, p.Priced
  within : WithinGrant db
  counted : RefundsCounted db

theorem Commits.refundsReady (h : Commits db op db') (ready : RefundsReady db) : RefundsReady db' := by
  have move := h.move ready.balanced
  constructor
  · exact move.keys ready.toPaymentKeys
  · exact h.balanced ready.balanced
  · exact h.eachPayment (fun _ _ => SamePayment.priced) ready.balanced
      (fun _ _ _ _ _ run => createPendingPayment_priced run ready.priced) ready.priced
  · exact move.withinGrant ready.toPaymentKeys (h.lowers ready.balanced) ready.within
  · exact move.counted ready.counted

theorem run_refundsReady (ops : List Op) : RefundsReady (empty.run ops).db := by
  refine empty.run_invariant (fun _ _ _ commits ready => commits.refundsReady ready) ops ?_
  refine ⟨?_, Opening.empty.balanced, ?_, ?_, ?_⟩
  · constructor <;> simp [empty]
  · simp [empty]
  · simp [WithinGrant, empty]
  · simp [RefundsCounted, empty]

def UsageBucket.unused (b : UsageBucket) : Int := b.totalMicroRub - b.spentMicroRub - b.reservedMicroRub

/-- A top-up that was granted its bucket, at the ratio of its snapshot. -/
structure FulfilledTopup (db : Db) (payment : Payment) (bucket : UsageBucket) (ratioBps : Int) : Prop where
  kind : payment.kind = .topup
  granted : payment.grantedBucketId = some bucket.id
  known : bucket ∈ db.buckets
  ratio : payment.checkoutSnapshot.topupRatioBps = some ratioBps

/-- The events of a refund of `amount`, part of the payment: its owner's, which
carries what was asked for, and the provider's. -/
inductive PartialRefundEvent (payment : Payment) (amount : Int) : PaymentEventInput → Prop
  | owned (provider : String) (asked : Option Int) (state : ProviderPaymentState)
    (asks : asked = some amount ∨ asked = none)
    (part : classifyTBankStatus state.providerStatus = .partiallyRefunded) :
    PartialRefundEvent payment amount (refundOwnedPaymentEvent provider payment asked state)
  | notified (sha256 : String → String) (provider : String) (notification : VerifiedTBankNotification)
    (part : classifyTBankStatus notification.status = .partiallyRefunded) :
    PartialRefundEvent payment amount (paymentEventFromNotification sha256 provider notification)

/-- What a refund of `amount` is to take back. -/
def refundShare (amount ratioBps : Int) : Int := amount * ratioBps / BASIS_POINTS_DENOMINATOR

/-- What a partial refund asks back: nothing if its event is known or does not
match, and the whole grant if the event does not carry the amount. -/
def askedBack (db : Db) (payment : Payment) (event : PaymentEventInput) (share : Int) : Int :=
  if db.recorded event = true ∨ mismatched payment event = true then 0
  else if event.refundAmountMicroRub.isSome then share
  else payment.checkoutSnapshot.providerBudgetGrantMicroRub

theorem PartialRefundEvent.part {amount : Int}
    (h : PartialRefundEvent payment amount event) : event.eventType = .partiallyRefunded ∧
      moneyEventFromInput event = .partiallyRefunded ∧
      (event.refundAmountMicroRub = some amount ∨ event.refundAmountMicroRub = none) := by
  cases h with
  | owned provider asked state asks part =>
    have type : (refundOwnedPaymentEvent provider payment asked state).eventType = .partiallyRefunded := by
      simp [refundOwnedPaymentEvent, part]
    refine ⟨type, ?_, asks⟩
    rw [← part]
    exact moneyEvent_of_status rfl (by rw [type, part]; rfl)
  | notified sha256 provider notification part =>
    refine ⟨by simp only [paymentEventFromNotification, part, eventTypeOf], ?_, .inr rfl⟩
    rw [moneyEvent_of_notification, part]

theorem refundShare_eq {budget : Int} (h : topupProviderBudgetMicroRub amount ratio = .ok budget) :
    budget = refundShare amount ratio := by
  unfold topupProviderBudgetMicroRub at h
  split at h
  · cases h
  rename_i valid
  simp only [not_or, not_lt] at valid
  cases h
  exact Int.tdiv_eq_ediv_of_nonneg (Int.mul_nonneg valid.1 valid.2.1)

/-- A valid ratio prices every part of the payment. -/
theorem topupProviderBudget_part {budget part : Int} (h : topupProviderBudgetMicroRub amount ratio = .ok budget)
    (nonneg : 0 ≤ part) :
    topupProviderBudgetMicroRub part ratio = .ok (refundShare part ratio) ∧ 0 ≤ refundShare part ratio := by
  have ok : ∃ share, topupProviderBudgetMicroRub part ratio = .ok share := by
    unfold topupProviderBudgetMicroRub at h ⊢
    split at h
    · cases h
    · rw [if_neg (by omega)]
      exact ⟨_, rfl⟩
  obtain ⟨share, ok⟩ := ok
  obtain rfl := refundShare_eq ok
  exact ⟨ok, topupProviderBudget_nonneg ok⟩

theorem revokeAmount_part (priced : payment.Priced) (kind : payment.kind = .topup)
    (hratio : payment.checkoutSnapshot.topupRatioBps = some ratio) (part : PartialRefundEvent payment amount event)
    (nonneg : 0 ≤ amount) : ∃ back, revokeAmount payment event = .ok back ∧ 0 ≤ back ∧
      back = if event.refundAmountMicroRub.isSome then refundShare amount ratio
        else payment.checkoutSnapshot.providerBudgetGrantMicroRub := by
  obtain ⟨ratio', hratio', budget⟩ := priced kind
  obtain rfl : ratio' = ratio := by
    rw [hratio] at hratio'
    exact (some.inj hratio').symm
  obtain ⟨type, -, carried⟩ := part.part
  have grant := topupProviderBudget_nonneg budget
  obtain ⟨ok, share⟩ := topupProviderBudget_part budget nonneg
  unfold revokeAmount
  rcases carried with carried | carried
  · by_cases zero : ratio' = 0
    · have nothing : payment.checkoutSnapshot.providerBudgetGrantMicroRub = refundShare amount ratio' := by
        rw [refundShare_eq budget, zero, refundShare, refundShare, mul_zero, mul_zero]
      refine ⟨_, by simp [type, carried, hratio, zero], grant, ?_⟩
      simp [carried, nothing]
    · exact ⟨refundShare amount ratio', by simp [type, carried, hratio, Option.filter, zero, ok], share, by simp [carried]⟩
  · exact ⟨_, by simp [type, carried], grant, by simp [carried]⟩

theorem revokeBucket_buckets (ctx : PaymentContext) (back : Int)
    (found : (payment.grantedBucketId.bind fun id => find UsageBucket.id id db.buckets) = some bucket) :
    (revokeBucket ctx payment back db).buckets = if min back bucket.unused > 0 then
      update UsageBucket.id bucket.id (setTotal (bucket.totalMicroRub - min back bucket.unused)) db.buckets
      else db.buckets := by
  have taken : (if bucket.totalMicroRub - bucket.spentMicroRub - bucket.reservedMicroRub < back then
      bucket.totalMicroRub - bucket.spentMicroRub - bucket.reservedMicroRub else back) = min back bucket.unused := by
    unfold UsageBucket.unused
    split <;> omega
  unfold revokeBucket
  rw [found]
  simp only [taken]
  split <;> split <;> rfl

theorem revokeBucket_takes (ctx : PaymentContext) {back : Int} (nd : db.BucketIds)
    (topup : FulfilledTopup db payment bucket ratio) (nonneg : 0 ≤ back) (unused : 0 ≤ bucket.unused) :
    ∃ row ∈ (revokeBucket ctx payment back db).buckets, row.id = bucket.id ∧
      row.totalMicroRub = bucket.totalMicroRub - min back bucket.unused := by
  have found : (payment.grantedBucketId.bind fun id => find UsageBucket.id id db.buckets) = some bucket := by
    rw [topup.granted, bind_some]
    exact find_eq_of_mem nd topup.known rfl
  rw [revokeBucket_buckets ctx back found]
  split
  · exact ⟨_, mem_update_self topup.known rfl, rfl, rfl⟩
  · exact ⟨bucket, topup.known, rfl, by omega⟩

/-- What a partial refund does to the bucket, in every case. -/
theorem partial_refund_takes (ready : RefundsReady db) (ctx : PaymentContext)
    (lock : lockPaymentId db event = some payment) (topup : FulfilledTopup db payment bucket ratio)
    (part : PartialRefundEvent payment amount event) (nonneg : 0 ≤ amount) :
    ∃ row ∈ (db.commit (processPaymentEvent ctx event db)).buckets, row.id = bucket.id ∧
      row.totalMicroRub = bucket.totalMicroRub -
        min (askedBack db payment event (refundShare amount ratio)) bucket.unused := by
  have unused : 0 ≤ bucket.unused := by
    obtain ⟨-, h1, -, -⟩ := ready.balanced.bucket bucket topup.known
    unfold UsageBucket.unused
    omega
  have kept (same : (db.commit (processPaymentEvent ctx event db)).buckets = db.buckets)
      (nothing : askedBack db payment event (refundShare amount ratio) = 0) :
      ∃ row ∈ (db.commit (processPaymentEvent ctx event db)).buckets, row.id = bucket.id ∧
        row.totalMicroRub = bucket.totalMicroRub -
          min (askedBack db payment event (refundShare amount ratio)) bucket.unused := by
    rw [nothing, same]
    exact ⟨bucket, topup.known, rfl, by omega⟩
  obtain ⟨type, money, -⟩ := part.part
  cases known : db.recorded event with
  | true =>
    obtain ⟨result, run⟩ := processPaymentEvent_known ctx lock known
    exact kept (by rw [run]; rfl) (by simp [askedBack, known])
  | false =>
    have run := processPaymentEvent_new ctx lock known
    cases bad : mismatched payment event with
    | true =>
      refine kept ?_ (by simp [askedBack, bad])
      rw [run, applyPaymentEvent, bad]
      rfl
    | false =>
      obtain ⟨back, hback, nonneg', eq⟩ := revokeAmount_part (ready.priced payment (lockPaymentId_mem lock))
        topup.kind topup.ratio part nonneg
      have asked : askedBack db payment event (refundShare amount ratio) = back := by
        rw [eq, askedBack, if_neg (by simp [known, bad])]
      have noted : FulfilledTopup (db.note event payment) payment bucket ratio :=
        ⟨topup.kind, topup.granted, topup.known, topup.ratio⟩
      have ids : (db.note event payment).BucketIds := ready.balanced.keys.buckets
      obtain ⟨row, hrow, hid, total⟩ := revokeBucket_takes ctx ids noted nonneg' unused
      have refunded : 0 ≤ event.refundAmountMicroRub.getD 0 := by
        rcases part.part.2.2 with carried | carried <;> simp [carried, nonneg]
      have rows : RefundsCounted ((revokeBucket ctx payment back (db.note event payment)).setPaymentStatus payment.id
          .partiallyRefunded event.providerStatus) := by
        obtain ⟨_, _, -, revoked⟩ := revokeBucket_cases ctx payment back (db.note event payment)
        exact RefundsCounted.congr ready.counted (by rw [revoked]; rfl)
      obtain ⟨db', economics⟩ := @addRefundToEconomics_ok payment.id _ _ rows refunded
      have applied : applyRefundAccounting ctx payment event (db.note event payment) =
          .ok (db', .partiallyRefunded) := by
        unfold applyRefundAccounting
        simp [type, topup.kind, hback, bind, Except.bind, economics, pure, Except.pure]
      have buckets : db'.buckets = (revokeBucket ctx payment back (db.note event payment)).buckets := by
        obtain ⟨_, -, rfl⟩ := addRefundToEconomics_cases economics
        rfl
      have done : db.commit (processPaymentEvent ctx event db) = db' := by
        rw [run, applyPaymentEvent, bad]
        simp only [Bool.false_eq_true, if_false, money, applied, bind, Except.bind]
        rfl
      rw [done, buckets, asked]
      exact ⟨row, hrow, hid, total⟩

/-- The event is new, is of the payment and carries the amount; or what it asks
back without comes to the same. -/
def AsksItsShare (db : Db) (payment : Payment) (bucket : UsageBucket) (event : PaymentEventInput) (share : Int) : Prop :=
  if db.recorded event = true ∨ mismatched payment event = true then share = 0 ∨ bucket.unused = 0
  else event.refundAmountMicroRub.isSome = true ∨
    payment.checkoutSnapshot.providerBudgetGrantMicroRub = share ∨
    bucket.unused ≤ payment.checkoutSnapshot.providerBudgetGrantMicroRub ∧ bucket.unused ≤ share

instance (db : Db) (payment : Payment) (bucket : UsageBucket) (event : PaymentEventInput) (share : Int) :
    Decidable (AsksItsShare db payment bucket event share) := by
  unfold AsksItsShare
  infer_instance

theorem asksItsShare_iff {share : Int} (nonneg : 0 ≤ share) (unused : 0 ≤ bucket.unused) :
    AsksItsShare db payment bucket event share ↔
      min (askedBack db payment event share) bucket.unused = min share bucket.unused := by
  unfold AsksItsShare askedBack
  split
  · omega
  · split
    · simp_all
    · simp_all
      omega

/-- A partial refund takes back exactly its share of what is unused if and only
if its event asks for it. Whatever is refunded, from any moment on a payment
loses what its entries say, and no more than was granted. -/
theorem partial_refunds_revoke (before after : List Op) :
    (∀ (ctx : PaymentContext) (event : PaymentEventInput) (payment : Payment) (bucket : UsageBucket) (ratio amount : Int),
      lockPaymentId (empty.run before).db event = some payment →
      FulfilledTopup (empty.run before).db payment bucket ratio →
      PartialRefundEvent payment amount event → 0 ≤ amount →
      ((∃ row ∈ ((empty.run before).step (.processPaymentEvent ctx event)).db.buckets, row.id = bucket.id ∧
          row.totalMicroRub = bucket.totalMicroRub - min (refundShare amount ratio) bucket.unused) ↔
        AsksItsShare (empty.run before).db payment bucket event (refundShare amount ratio))) ∧
    ∀ payment ∈ (empty.run before).db.payments, ∀ bucket ∈ (empty.run before).db.buckets,
      payment.grantedBucketId = some bucket.id →
      ∃ more, (empty.run (before ++ after)).db.ledger = (empty.run before).db.ledger ++ more ∧
        (∃ row ∈ (empty.run (before ++ after)).db.buckets, row.id = bucket.id ∧
          row.totalMicroRub = bucket.totalMicroRub - revokedIn bucket.id more) ∧
        0 ≤ revokedIn bucket.id more ∧
        revokedIn bucket.id more ≤ payment.checkoutSnapshot.providerBudgetGrantMicroRub := by
  have ready := run_refundsReady before
  constructor
  · intro ctx event payment bucket ratio amount lock topup part nonneg
    have unused : 0 ≤ bucket.unused := by
      obtain ⟨-, h1, -, -⟩ := ready.balanced.bucket bucket topup.known
      unfold UsageBucket.unused
      omega
    obtain ⟨ratio', hratio, budget⟩ := ready.priced payment (lockPaymentId_mem lock) topup.kind
    have share : 0 ≤ refundShare amount ratio := by
      obtain rfl := some.inj (topup.ratio.symm.trans hratio)
      exact (topupProviderBudget_part budget nonneg).2
    obtain ⟨row, hrow, hid, total⟩ := partial_refund_takes ready ctx lock topup part nonneg
    rw [asksItsShare_iff share unused]
    constructor
    · rintro ⟨row', hrow', hid', total'⟩
      have ids := ((empty.run before).step_balanced ready.balanced (.processPaymentEvent ctx event)).keys.buckets
      obtain rfl := eq_of_key ids hrow' hrow (hid'.trans hid.symm)
      omega
    · intro same
      exact ⟨row, hrow, hid, same ▸ total⟩
  · intro payment known bucket hbucket granted
    obtain ⟨more, ledger, row, hrow, hid, total, le⟩ := run_revokes ready.balanced after hbucket
    rw [run_append]
    refine ⟨more, ledger, ⟨row, hrow, hid, total⟩, by omega, ?_⟩
    obtain ⟨b, hb, same, within⟩ := ready.within payment known bucket.id granted
    obtain rfl := eq_of_key ready.balanced.keys.buckets hb hbucket same
    obtain ⟨h0, h1, -, -⟩ := (run_refundsReady (before ++ after)).balanced.bucket row (run_append _ _ _ ▸ hrow)
    have spent := (run_refundsReady (before ++ after)).balanced.spent_nonneg (run_append _ _ _ ▸ hrow)
    omega

namespace FirstRun

def topupPaid : Payment :=
  { openedTopup with
    providerStatus := some "CONFIRMED"
    status := .succeeded
    grantedBucketId := some 1
    fulfilledAt := some 0 }

def grantedBucket : UsageBucket := ⟨1, 7, .topup, 1000000, 0, 0, none, .payment, 0, 0⟩

theorem fulfilled : FulfilledTopup (empty.run [topup, confirmed]).db topupPaid grantedBucket 5000 := by
  constructor <;> decide +kernel

/-- The provider's word that part of the payment was returned. -/
def partlyReturned : PaymentEventInput :=
  paymentEventFromNotification
    (fun _ => "aea17b96f93cf9178ed240d76154baa181d4ada9654747919496687a785f0508") "tbank"
    ⟨"order", "payment", "PARTIAL_REFUNDED", true, 2000000, none, none⟩

theorem partlyReturned_part : PartialRefundEvent topupPaid 500000 partlyReturned :=
  .notified _ _ _ (by decide +kernel)

end FirstRun

open FirstRun in
theorem partial_refunds_revoke_owned :
    (∃ row ∈ ((empty.run [topup, confirmed]).step
        (.processPaymentEvent context (refund (some 500000) "PARTIAL_REFUNDED"))).db.buckets,
      row.id = 1 ∧ row.totalMicroRub = 1000000 - min (refundShare 500000 5000) 1000000) ∧
    ∃ more, (empty.run [topup, confirmed, reserve]).db.ledger =
        (empty.run [topup, confirmed]).db.ledger ++ more ∧ revokedIn 1 more ≤ 1000000 := by
  constructor
  · exact ((partial_refunds_revoke [topup, confirmed] []).1 context (refund (some 500000) "PARTIAL_REFUNDED") topupPaid
      grantedBucket 5000 500000 (by decide +kernel) fulfilled (.owned "tbank" (some 500000) _ (.inl rfl) (by decide +kernel))
      (by decide)).2 (by decide +kernel)
  · obtain ⟨more, ledger, -, -, within⟩ := (partial_refunds_revoke [topup, confirmed] [reserve]).2 topupPaid
      (by decide +kernel) grantedBucket fulfilled.known rfl
    exact ⟨more, ledger, within⟩

open FirstRun in
/-- Of two million a quarter was returned. The webhook takes the whole million
that was granted, not the quarter of it. -/
theorem webhook_takes_whole_grant :
    lockPaymentId (empty.run [topup, confirmed]).db partlyReturned = some topupPaid ∧
    FulfilledTopup (empty.run [topup, confirmed]).db topupPaid grantedBucket 5000 ∧
    PartialRefundEvent topupPaid 500000 partlyReturned ∧
    ((empty.run [topup, confirmed]).step (.processPaymentEvent context partlyReturned)).db.buckets.map
      (fun row => (row.id, row.totalMicroRub)) = [(1, 0)] ∧
    ¬ ∃ row ∈ ((empty.run [topup, confirmed]).step (.processPaymentEvent context partlyReturned)).db.buckets,
      row.id = 1 ∧ row.totalMicroRub = 1000000 - min (refundShare 500000 5000) 1000000 :=
  ⟨by decide +kernel, fulfilled, partlyReturned_part, by decide +kernel, by decide +kernel⟩

/-!
# What providers are paid

Every bucket is that of one payment, which is on record as paid. So what is spent
and reserved is covered by what these payments granted.
-/

theorem Fulfilled.bucket_paid (fulfilled : Fulfilled empty.db db) (known : bucket ∈ db.buckets) :
    ∃ p ∈ db.payments, p.grantedBucketId = some bucket.id ∧ p.status ∈ TERMINAL_PAID := by
  have reported : bucket.id ∈ db.grants.filterMap (·.bucketId) := by
    have := fulfilled.buckets ▸ mem_map_of_mem known
    simpa [empty] using this
  obtain ⟨e, he, own⟩ := mem_filterMap.1 reported
  obtain ⟨p, hp, paidBy⟩ := fulfilled.known e he
  have mem : e ∈ db.grantsOf p.id := mem_filter.2 ⟨he, by simpa using paidBy⟩
  rcases fulfilled.once p hp with ⟨-, none⟩ | ⟨paid, e', id, one, own', granted, -⟩
  · rw [none] at mem
    cases mem
  · rw [one, mem_singleton] at mem
    exact ⟨p, hp, by rw [granted, ← own', ← mem, own], paid⟩

/-- The payments that have granted a bucket and are on record as paid. -/
def Db.granting (db : Db) : List Payment := db.payments.filter fun p => p.grantedBucketId.isSome ∧ p.status ∈ TERMINAL_PAID

theorem Fulfilled.spending (fulfilled : Fulfilled empty.db db) (ready : RefundsReady db) :
    total (fun b => b.spentMicroRub + b.reservedMicroRub) db.buckets ≤
      total (·.checkoutSnapshot.providerBudgetGrantMicroRub) db.granting := by
  have covers {p : Payment} (hp : p ∈ db.payments) {b : UsageBucket} (hb : b ∈ db.buckets)
      (granted : p.grantedBucketId = some b.id) : 0 ≤ b.spentMicroRub + b.reservedMicroRub ∧
        b.spentMicroRub + b.reservedMicroRub ≤ p.checkoutSnapshot.providerBudgetGrantMicroRub := by
    obtain ⟨b', hb', same, within⟩ := ready.within p hp b.id granted
    obtain rfl := eq_of_key ready.balanced.keys.buckets hb' hb same
    obtain ⟨reserved, fits, -, -⟩ := ready.balanced.bucket b' hb
    have spent := ready.balanced.spent_nonneg hb
    omega
  have nonneg : ∀ p ∈ db.granting, 0 ≤ p.checkoutSnapshot.providerBudgetGrantMicroRub := by
    intro p mem
    obtain ⟨hp, granted, -⟩ := by simpa [Db.granting] using mem
    obtain ⟨id, granted⟩ := isSome_iff_exists.1 granted
    obtain ⟨b, hb, rfl, -⟩ := ready.within p hp id granted
    exact le_trans (covers hp hb granted).1 (covers hp hb granted).2
  have owned : ∀ b ∈ db.buckets, ∃ p ∈ db.granting, p.grantedBucketId = some b.id ∧
      b.spentMicroRub + b.reservedMicroRub ≤ p.checkoutSnapshot.providerBudgetGrantMicroRub := by
    intro b hb
    obtain ⟨p, hp, granted, paid⟩ := fulfilled.bucket_paid hb
    exact ⟨p, mem_filter.2 ⟨hp, by simp [granted, paid]⟩, granted, (covers hp hb granted).2⟩
  exact total_le_of_owners ready.balanced.keys.buckets nonneg owned

/-- In every run that un-records nothing, what is spent and reserved is at most what paid payments granted. -/
theorem spending_within_grants (ops : List Op) (safe : Runs.Along step (fun w op => ¬ Unrecords w op) empty ops) :
    total (fun b => b.spentMicroRub + b.reservedMicroRub) (empty.run ops).db.buckets ≤
      total (·.checkoutSnapshot.providerBudgetGrantMicroRub) (empty.run ops).db.granting :=
  (run_fulfilled .empty ⟨rfl, rfl, by simp [empty]⟩ safe).spending (run_refundsReady ops)

open FirstRun in
theorem spending_within_grants_first_run :
    total (fun b => b.spentMicroRub + b.reservedMicroRub) (empty.run [topup, confirmed, reserve]).db.buckets ≤
      total (·.checkoutSnapshot.providerBudgetGrantMicroRub) (empty.run [topup, confirmed, reserve]).db.granting :=
  spending_within_grants [topup, confirmed, reserve]
    ⟨id, by simp [Unrecords, confirmed, event, moneyEventFromInput, truthy], id, trivial⟩

end Vimla.Billing
