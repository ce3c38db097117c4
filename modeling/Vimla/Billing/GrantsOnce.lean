import Vimla.Billing.PaymentMoves

/-!
# A payment is granted once

The ledger reports every grant: its bucket, its payment and, for a
subscription payment, its subscription. A granted payment stays so, and gets no
second grant, unless a step writes over its status: a checkout recorded on it,
or a `canceled` event while it waits for reconciliation.
-/

namespace Vimla.Billing

open List Rows World

def UsageLedgerEntry.isGrant (e : UsageLedgerEntry) : Bool :=
  e.type = .bucketGranted ∨ e.type = .topupGranted

/-- The grants the ledger reports, oldest first. -/
def Db.grants (db : Db) : List UsageLedgerEntry := db.ledger.filter UsageLedgerEntry.isGrant

def Db.grantsOf (db : Db) (paymentId : Nat) : List UsageLedgerEntry :=
  db.grants.filter fun e => e.paymentId = some paymentId

/-- The buckets created for a payment. -/
def Db.bucketsOf (db : Db) (paymentId : Nat) : List Nat :=
  (db.grantsOf paymentId).filterMap (·.bucketId)

/-- The subscriptions created for a payment. -/
def Db.subscriptionsOf (db : Db) (paymentId : Nat) : List Nat :=
  (db.grantsOf paymentId).filterMap (·.metadata.subscriptionId)

variable {db start : Db} {payment : Payment} {w : World} {db' : Db}

theorem NoBucket.grants (h : NoBucket db db') : db'.grants = db.grants := by
  obtain ⟨entries, ledger, none⟩ := h.ledger
  have nothing : entries.filter UsageLedgerEntry.isGrant = [] := by
    apply filter_eq_nil_iff.2
    intro e he
    simpa [UsageLedgerEntry.isGrant, NoGrant] using none e he
  rw [Db.grants, ledger, filter_append, nothing, append_nil]
  rfl

/-- Since `start`, every bucket and every subscription was made by a grant, and
every payment that was granted was granted once and is on record as paid. -/
structure Fulfilled (start db : Db) : Prop extends PaymentKeys db where
  known : ∀ e ∈ db.grants, ∃ p ∈ db.payments, e.paymentId = some p.id
  once : ∀ p ∈ db.payments, (p.grantedBucketId = none ∧ db.grantsOf p.id = []) ∨
    (p.status ∈ TERMINAL_PAID ∧ ∃ e bucketId, db.grantsOf p.id = [e] ∧ e.bucketId = some bucketId ∧
      p.grantedBucketId = some bucketId ∧ p.grantedSubscriptionId = e.metadata.subscriptionId)
  buckets : db.buckets.map UsageBucket.id =
    start.buckets.map UsageBucket.id ++ db.grants.filterMap (·.bucketId)
  subscriptions : db.subscriptions.map Subscription.id =
    start.subscriptions.map Subscription.id ++ db.grants.filterMap (·.metadata.subscriptionId)

theorem BeforePayments.fulfilled (h : BeforePayments db) : Fulfilled db db := by
  have grants : db.grants = [] := by
    apply filter_eq_nil_iff.2
    intro e he
    simpa [UsageLedgerEntry.isGrant, NoGrant] using h.ledger e he
  exact ⟨h.keys, by simp [grants], by simp [h.payments], by simp [grants], by simp [grants]⟩

theorem Fulfilled.granted_paid (h : Fulfilled start db) {p : Payment} (hp : p ∈ db.payments)
    (granted : p.grantedBucketId.isSome) : p.status ∈ TERMINAL_PAID := by
  rcases h.once p hp with ⟨none, -⟩ | ⟨paid, -⟩
  · rw [none] at granted
    cases granted
  · exact paid

/-- At most one bucket and one subscription for each payment. -/
theorem Fulfilled.atMostOne (h : Fulfilled start db) (paymentId : Nat) :
    (db.bucketsOf paymentId).length ≤ 1 ∧ (db.subscriptionsOf paymentId).length ≤ 1 := by
  have one : (db.grantsOf paymentId).length ≤ 1 := by
    cases hg : db.grantsOf paymentId with
    | nil => exact Nat.zero_le 1
    | cons e rest =>
      have he : e ∈ db.grantsOf paymentId := by rw [hg]; exact mem_cons_self
      obtain ⟨mem, hid⟩ := mem_filter.1 he
      obtain ⟨p, hp, hpaid⟩ := h.known e mem
      have same : p.id = paymentId := by
        rw [hpaid] at hid
        simpa using hid
      rw [same.symm] at hg
      rcases h.once p hp with ⟨-, nothing⟩ | ⟨-, e', b, single, -⟩
      · rw [nothing] at hg
        cases hg
      · rw [single] at hg
        cases hg
        exact Nat.le_refl 1
  exact ⟨Nat.le_trans (length_filterMap_le _ _) one,
    Nat.le_trans (length_filterMap_le _ _) one⟩

section
variable {db' : Db} (h : Fulfilled start db)
include h

/-- A write that makes no grant keeps the invariant if it leaves a granted
payment on record as paid. -/
theorem Fulfilled.rewrite {f : Payment → Payment}
    (known : payment ∈ db.payments) (payments : db'.payments = Rows.update Payment.id payment.id f db.payments)
    (grant : ∀ p, SameGrant p (f p))
    (subscriptions : db'.subscriptions.map Subscription.id = db.subscriptions.map Subscription.id)
    (same : NoBucket db db') (keys : PaymentKeys db')
    (paid : payment.grantedBucketId.isSome → (f payment).status ∈ TERMINAL_PAID) : Fulfilled start db' := by
  have ids : db'.payments.map Payment.id = db.payments.map Payment.id := by
    rw [payments]
    exact map_update fun p => (grant p).id
  have grantsOf (id : Nat) : db'.grantsOf id = db.grantsOf id := by
    rw [Db.grantsOf, same.grants]
    rfl
  refine ⟨keys, ?_, ?_, ?_, ?_⟩
  · intro e he
    rw [same.grants] at he
    obtain ⟨p, hp, hid⟩ := h.known e he
    have : p.id ∈ db'.payments.map Payment.id := ids ▸ mem_map_of_mem hp
    obtain ⟨q, hq, hid'⟩ := mem_map.1 this
    exact ⟨q, hq, by rw [hid, hid']⟩
  · intro q hq
    rw [payments] at hq
    obtain ⟨p, hp, rfl⟩ := mem_update.1 hq
    rw [grantsOf]
    by_cases own : p.id = payment.id
    · have same := eq_of_key h.keys hp known own
      rw [same]
      simp only [if_true, (grant payment).id, (grant payment).bucket, (grant payment).subscription]
      rcases h.once payment known with none | ⟨-, e, b, single, bucket, granted, subscription⟩
      · exact .inl none
      · exact .inr ⟨paid (by rw [granted]; rfl), e, b, single, bucket, granted, subscription⟩
    · simp only [own, if_false]
      exact h.once p hp
  · rw [same.buckets, same.grants]
    exact h.buckets
  · rw [subscriptions, same.grants]
    exact h.subscriptions

theorem Fulfilled.usage (frame : UsageOnly db db') (keys : PaymentKeys db') :
    Fulfilled start db' := by
  have grants := frame.toNoBucket.grants
  have grantsOf (id : Nat) : db'.grantsOf id = db.grantsOf id := by
    rw [Db.grantsOf, grants]
    rfl
  refine ⟨keys, ?_, ?_, ?_, ?_⟩
  · rw [frame.payments, grants]
    exact h.known
  · simp only [frame.payments, grantsOf]
    exact h.once
  · rw [frame.buckets, grants]
    exact h.buckets
  · rw [frame.subscriptions, grants]
    exact h.subscriptions

theorem Fulfilled.created (new : NewPayment payment)
    (run : db.createPayment payment = .ok db') (keys : PaymentKeys db') : Fulfilled start db' := by
  obtain ⟨rfl, -, -⟩ := createPayment_cases run
  have nothing : db.grantsOf db.nextId = [] := by
    apply filter_eq_nil_iff.2
    intro e he
    obtain ⟨p, hp, hid⟩ := h.known e he
    have := h.below p hp
    rw [hid]
    simp only [Option.some.injEq, decide_eq_true_eq]
    omega
  refine ⟨keys, ?_, ?_, h.buckets, h.subscriptions⟩
  · intro e he
    obtain ⟨p, hp, hid⟩ := h.known e he
    exact ⟨p, mem_append_left _ hp, hid⟩
  · intro p hp
    rcases mem_append.1 hp with hp | hp
    · exact h.once p hp
    · rw [mem_singleton.1 hp]
      exact .inl ⟨new.bucket, nothing⟩

/-- A grant is the first of its payment. -/
theorem Fulfilled.granted {ctx : PaymentContext} {event : PaymentEventInput}
    {grant : Grant} (known : payment ∈ db.payments) (grants : Grants ctx payment event db db' grant)
    (keys : PaymentKeys db') : Fulfilled start db' := by
  obtain ⟨bucket, entry, subscriptions, mid, granting, buckets, ledger, made, -⟩ := grants.rows
  obtain ⟨entryBucket, entryPayment, -, entrySubscription⟩ := granting.entered
  have isGrant : entry.isGrant = true := by
    simpa [UsageLedgerEntry.isGrant] using granting.type
  have rows : db'.grants = db.grants ++ [entry] := by
    rw [Db.grants, ledger, granting.rows, filter_append, filter_singleton, isGrant]
    rfl
  have ids := grants.payments.ids
  -- An unpaid payment has no grant, by the invariant.
  have first : db.grantsOf payment.id = [] := by
    rcases h.once payment known with ⟨-, nothing⟩ | ⟨paid, -⟩
    · exact nothing
    · rcases grants.unpaid with e | e <;>
      · rw [e] at paid
        exact absurd paid (by decide)
  have own : db'.grantsOf payment.id = [entry] := by
    have : db.grants.filter (fun e => e.paymentId = some payment.id) = [] := first
    rw [Db.grantsOf, rows, filter_append, this, filter_singleton]
    simp [entryPayment]
  have other {id : Nat} (hid : id ≠ payment.id) : db'.grantsOf id = db.grantsOf id := by
    rw [Db.grantsOf, rows, filter_append, filter_singleton]
    simp [entryPayment, Ne.symm hid, Db.grantsOf]
  refine ⟨keys, ?_, ?_, ?_, ?_⟩
  · intro e he
    have row {p : Payment} (hp : p ∈ db.payments) : ∃ q ∈ db'.payments, q.id = p.id :=
      mem_map.1 (ids ▸ mem_map_of_mem hp)
    rw [rows] at he
    rcases mem_append.1 he with he | he
    · obtain ⟨p, hp, hid⟩ := h.known e he
      obtain ⟨q, hq, same⟩ := row hp
      exact ⟨q, hq, by rw [hid, same]⟩
    · obtain ⟨q, hq, same⟩ := row known
      rw [mem_singleton.1 he]
      exact ⟨q, hq, by rw [entryPayment, same]⟩
  · intro q hq
    rw [grants.payments.payments] at hq
    obtain ⟨p, hp, rfl⟩ := mem_update.1 hq
    by_cases hid : p.id = payment.id
    · simp only [hid, if_true, (grants.payments.same p).id, own]
      refine .inr ⟨by simp [grantedRow, TERMINAL_PAID], entry, grant.bucketId, rfl, ?_, rfl, ?_⟩
      · rw [entryBucket, granting.bucketId]
      · exact entrySubscription.symm
    · simp only [hid, if_false, other hid]
      exact h.once p hp
  · rw [buckets, granting.rows, rows, map_append, filterMap_append, h.buckets]
    simp [entryBucket]
  · rw [made, granting.rows, rows, map_append, filterMap_append, h.subscriptions]
    rcases granting.created with ⟨none, rfl⟩ | ⟨s, rfl, some, -⟩
    · simp [entrySubscription, none]
    · simp [entrySubscription, some]

end

/-- An event takes a payment out of the paid states in one way only: `canceled`
while reconciliation is required. -/
theorem engineStatus_paid {event : PaymentEventInput} (paid : payment.status ∈ TERMINAL_PAID)
    (h : ¬ (mismatched payment event = false ∧ moneyEventFromInput event = .canceled ∧
      payment.status = .reconciliationRequired)) : engineStatus payment event ∈ TERMINAL_PAID := by
  unfold engineStatus
  cases bad : mismatched payment event with
  | true => simp [TERMINAL_PAID]
  | false =>
    simp only [Bool.false_eq_true, if_false]
    cases money : moneyEventFromInput event with
    | confirmed =>
      have unpaid : ¬ (payment.status = .created ∨ payment.status = .pending) := by
        rintro (e | e) <;> rw [e] at paid <;> exact absurd paid (by decide)
      simpa [unpaid] using paid
    | refunded | partiallyRefunded =>
      by_cases unsupported : unsupportedRefund payment event
      · simp [unsupported, TERMINAL_PAID]
      · simp only [unsupported, if_false, refundStatus]
        split <;> simp [TERMINAL_PAID]
    | failed =>
      simp [nextDomainStatus, paid]
    | canceled =>
      have settled : payment.status = .succeeded ∨ payment.status = .refunded ∨
          payment.status = .partiallyRefunded := by
        simp only [TERMINAL_PAID, mem_cons, not_mem_nil, or_false] at paid
        rcases paid with e | e | e | e
        · exact .inl e
        · exact .inr (.inl e)
        · exact .inr (.inr e)
        · exact absurd ⟨bad, money, e⟩ h
      simpa [nextDomainStatus, settled] using paid
    | pending =>
      have started : payment.status ≠ .created := by
        intro e
        rw [e] at paid
        exact absurd paid (by decide)
      simpa [nextDomainStatus, started] using paid
    | ignore =>
      simp only
      split
      · simp [TERMINAL_PAID]
      · exact paid

/-- A checkout recorded on a payment that was granted writes `PENDING` over it. -/
def Reopens (db : Db) (payment : Payment) (checkout : HostedCheckout) : Prop :=
  payment.grantedBucketId.isSome ∧
    db.providerPaymentTaken payment.id payment.provider (some checkout.providerPaymentId) = false

theorem Reopens.writes {checkout : HostedCheckout} (h : Reopens db payment checkout) :
    ∃ db', db.recordCheckout payment checkout = .ok db' := by
  unfold Db.recordCheckout
  rw [h.2]
  exact ⟨_, rfl⟩

/-- The steps that write an unpaid status over a granted payment. -/
def Unrecords (w : World) : Op → Prop
  | .attachProviderCheckout input =>
    ∃ payment ∈ w.db.payments.find? fun p => p.id = input.paymentId ∧ p.userId = input.userId,
      Reopens w.db payment input.checkout
  | .finishHostedCheckout paymentId checkout => paymentId ∈ w.initializing ∧
    ∃ payment ∈ Rows.find Payment.id paymentId w.db.payments, Reopens w.db payment checkout
  | .processPaymentEvent _ event => w.db.recorded event = false ∧
    ∃ payment ∈ lockPaymentId w.db event, payment.grantedBucketId.isSome ∧
      mismatched payment event = false ∧ moneyEventFromInput event = .canceled ∧
      payment.status = .reconciliationRequired
  | _ => False

variable {op : Op}

theorem Fulfilled.checkout
    {checkout : HostedCheckout} (h : Fulfilled start w.db) (known : payment ∈ w.db.payments)
    (records : op.Records payment checkout) (run : w.db.recordCheckout payment checkout = .ok db')
    (stepped : (w.step op).db = db') (keys : PaymentKeys db') (safe : ¬ Unrecords w op) : Fulfilled start (w.step op).db := by
  obtain ⟨free, rfl⟩ := recordCheckout_cases run
  have write (closed : payment.grantedBucketId = none) : Fulfilled start (w.step op).db := by
    rw [stepped]
    exact h.rewrite known rfl (fun _ => ⟨⟨rfl, rfl, rfl, rfl⟩, rfl, rfl⟩) rfl
      (updatePayment_same _ _ _).noBucket keys fun granted => by rw [closed] at granted; cases granted
  have reopens (granted : payment.grantedBucketId ≠ none) : Reopens w.db payment checkout :=
    ⟨Option.isSome_iff_ne_none.2 granted, free⟩
  by_cases closed : payment.grantedBucketId = none
  · exact write closed
  cases op with
  | attachProviderCheckout input =>
    obtain ⟨hid, user, rfl⟩ := records
    refine absurd ⟨payment, ?_, reopens closed⟩ safe
    have found : (w.db.payments.find? fun p => p.id = input.paymentId ∧ p.userId = input.userId) =
        some payment := by
      cases hfind : w.db.payments.find? fun p => p.id = input.paymentId ∧ p.userId = input.userId with
      | none =>
        have := find?_eq_none.1 hfind payment known
        simp [hid, user] at this
      | some p =>
        have hp := find?_some hfind
        simp only [decide_eq_true_eq] at hp
        rw [eq_of_key h.keys (mem_of_find?_eq_some hfind) known (hp.1.trans hid.symm)]
    exact found
  | finishHostedCheckout paymentId given =>
    obtain ⟨rfl, rfl⟩ := records
    by_cases waiting : payment.id ∈ w.initializing
    · exact absurd ⟨waiting, payment, find_eq_of_mem h.keys known rfl, reopens closed⟩ safe
    · simpa [step, waiting] using h
  | _ => cases records

/-- The step lemma. -/
theorem World.step_fulfilled (balanced : Balanced w.db .none) (safe : ¬ Unrecords w op)
    (h : Fulfilled start w.db) : Fulfilled start (w.step op).db := by
  rcases w.step_cases op with same | commits
  · rwa [same]
  generalize hstep : (w.step op).db = db' at commits
  have move := commits.move balanced
  have keys := move.keys h.toPaymentKeys
  cases move with
  | none => exact h
  | usage _ _ frame => exact h.usage frame keys
  | taken ctx event payment lock new _ applied =>
    have known := lockPaymentId_mem lock
    have noted : Fulfilled start (w.db.note event payment) :=
      ⟨⟨h.keys, h.below⟩, h.known, h.once, h.buckets, h.subscriptions⟩
    rcases applied.row with ⟨grant, -, grants⟩ | ⟨f, keeps⟩
    · exact noted.granted known grants keys
    · apply noted.rewrite known keeps.payments.payments keeps.grant keeps.subscriptions keeps.buckets
        keys
      intro granted
      rw [keeps.payments.status]
      apply engineStatus_paid (h.granted_paid known granted)
      rintro ⟨good, money, waiting⟩
      exact safe ⟨new, payment, lock, granted, good, money, waiting⟩
  | created _ payment new _ run => exact h.created new run keys
  | checkout _ payment known checkout records _ run =>
    rw [← hstep]
    exact h.checkout known records run hstep keys safe

/-- Such a step does leave a granted payment without a paid status. -/
theorem World.step_unrecords (h : Unrecords w op) :
    ∃ p ∈ (w.step op).db.payments, p.grantedBucketId.isSome ∧ p.status ∉ TERMINAL_PAID := by
  have reopened {payment : Payment} {checkout : HostedCheckout} (known : payment ∈ w.db.payments)
      (reopens : Reopens w.db payment checkout) (db' : Db)
      (run : w.db.recordCheckout payment checkout = .ok db') :
      ∃ p ∈ db'.payments, p.grantedBucketId.isSome ∧ p.status ∉ TERMINAL_PAID := by
    obtain ⟨-, rfl⟩ := recordCheckout_cases run
    exact ⟨_, mem_update_self known rfl, reopens.1, by simp [TERMINAL_PAID]⟩
  cases op with
  | attachProviderCheckout input =>
    obtain ⟨payment, found, reopens⟩ := h
    have found : (w.db.payments.find? fun p => p.id = input.paymentId ∧ p.userId = input.userId) =
        some payment := found
    obtain ⟨db', run⟩ := reopens.writes
    simp only [step, attachProviderCheckout, found, run, Db.commitWrite]
    exact reopened (mem_of_find?_eq_some found) reopens db' run
  | finishHostedCheckout paymentId checkout =>
    obtain ⟨waiting, payment, found, reopens⟩ := h
    have found : Rows.find Payment.id paymentId w.db.payments = some payment := found
    obtain ⟨db', run⟩ := reopens.writes
    simp only [step, waiting, if_true, finishHostedCheckout, found, run, Db.commitWrite]
    exact reopened (mem_of_find found).1 reopens db' run
  | processPaymentEvent ctx event =>
    obtain ⟨new, payment, lock, granted, good, money, waiting⟩ := h
    have lock : lockPaymentId w.db event = some payment := lock
    have known := lockPaymentId_mem lock
    have noted : w.db.createPaymentEvent ⟨event.provider, event.providerEventId, payment.id,
        event.eventType, event.providerStatus⟩ = .ok (w.db.note event payment) := by
      have : (w.db.paymentEvents.any fun e => decide (e.provider = event.provider ∧
        e.providerEventId = event.providerEventId)) = false := new
      simp only [Db.createPaymentEvent, this, Bool.false_eq_true, if_false]
      rfl
    have next : (nextDomainStatus payment.status .canceled).filter (· ≠ payment.status) =
        some .canceled := by
      rw [waiting]
      rfl
    simp only [step, processPaymentEvent, lock, noted, applyPaymentEvent, good, Bool.false_eq_true,
      if_false, money, moveStatus, next, Db.commit]
    exact ⟨_, mem_update_self known rfl, granted, by simp [withStatus, TERMINAL_PAID]⟩
  | _ => cases h

/-- The grants reported then are reported now. -/
def GrantsKept (db db' : Db) : Prop := ∃ more, db'.grants = db.grants ++ more

theorem GrantsKept.of_eq (h : db'.grants = db.grants) : GrantsKept db db' :=
  ⟨[], by rw [h, append_nil]⟩

theorem GrantsKept.trans {a b c : Db} (h : GrantsKept a b) (h' : GrantsKept b c) :
    GrantsKept a c := by
  obtain ⟨more, grants⟩ := h
  obtain ⟨more', grants'⟩ := h'
  exact ⟨more ++ more', by rw [grants', grants, append_assoc]⟩

theorem PaymentMove.grants {db db' : Db} (h : PaymentMove db op db') : GrantsKept db db' := by
  obtain ⟨ctx, event, payment, -, -, applied⟩ | ⟨none, -, -⟩ := h.event_or_kept
  · rcases applied.row with ⟨grant, -, grants⟩ | ⟨f, keeps⟩
    · obtain ⟨_, entry, _, mid, granting, -, ledger, -⟩ := grants.rows
      have appended : db'.ledger = db.ledger ++ [entry] := by
        rw [ledger, granting.rows]
        rfl
      refine ⟨[entry].filter UsageLedgerEntry.isGrant, ?_⟩
      rw [Db.grants, appended, filter_append]
      rfl
    · exact .of_eq keeps.buckets.grants
  · exact .of_eq none.grants

theorem run_fulfilled (opening : Opening w.db) (start : BeforePayments w.db) {ops : List Op}
    (safe : Runs.Along step (fun w op => ¬ Unrecords w op) w ops) : Fulfilled w.db (w.run ops).db := by
  have both : Balanced (w.run ops).db .none ∧ Fulfilled w.db (w.run ops).db := by
    apply Runs.invariant_along (P := fun v : World => Balanced v.db .none ∧ Fulfilled w.db v.db) _ safe
    · exact ⟨opening.balanced, start.fulfilled⟩
    · rintro v op safe ⟨balanced, fulfilled⟩
      exact ⟨step_balanced balanced op, step_fulfilled balanced safe fulfilled⟩
  exact both.2

/-- No grant and no payment is lost. -/
theorem run_kept (balanced : Balanced w.db .none) (ops : List Op) :
    GrantsKept w.db (w.run ops).db ∧ PaymentsKept w.db (w.run ops).db := by
  induction ops generalizing w with
  | nil => exact ⟨.of_eq rfl, fun p hp => ⟨p, hp, .refl p⟩⟩
  | cons op ops ih =>
    obtain ⟨grants, payments⟩ := ih (step_balanced balanced op)
    rcases w.step_cases op with same | commits
    · rw [same] at grants payments
      exact ⟨grants, payments⟩
    · have move := commits.move balanced
      exact ⟨move.grants.trans grants, move.kept.trans payments⟩

/-- In every run that un-records nothing each bucket and each subscription is
reported by a grant, a payment has at most one of each, and a payment that was
granted keeps that grant and never shows an unpaid status again. Any step that
un-records shows one at once. -/
theorem payment_granted_once (w : World) (opening : Opening w.db) (start : BeforePayments w.db)
    (before after : List Op)
    (safe : Runs.Along step (fun w op => ¬ Unrecords w op) w (before ++ after)) :
    ((w.run (before ++ after)).db.buckets.map UsageBucket.id = w.db.buckets.map UsageBucket.id ++
        (w.run (before ++ after)).db.grants.filterMap (·.bucketId) ∧
      (w.run (before ++ after)).db.subscriptions.map Subscription.id =
        w.db.subscriptions.map Subscription.id ++
          (w.run (before ++ after)).db.grants.filterMap (·.metadata.subscriptionId)) ∧
    (∀ paymentId, ((w.run (before ++ after)).db.bucketsOf paymentId).length ≤ 1 ∧
      ((w.run (before ++ after)).db.subscriptionsOf paymentId).length ≤ 1) ∧
    (∀ p ∈ (w.run before).db.payments, p.grantedBucketId.isSome →
      ∃ q ∈ (w.run (before ++ after)).db.payments, q.id = p.id ∧
        q.grantedBucketId = p.grantedBucketId ∧ q.grantedSubscriptionId = p.grantedSubscriptionId ∧
        q.status ∈ TERMINAL_PAID) ∧
    ∀ op, Unrecords (w.run (before ++ after)) op →
      ∃ p ∈ ((w.run (before ++ after)).step op).db.payments, p.grantedBucketId.isSome ∧
        p.status ∉ TERMINAL_PAID := by
  have early := run_fulfilled opening start (Runs.along_append.1 safe).1
  have late := run_fulfilled opening start safe
  obtain ⟨grants, payments⟩ := run_kept (run_balanced opening before) after
  rw [← run_append] at grants payments
  refine ⟨⟨late.buckets, late.subscriptions⟩, late.atMostOne, ?_,
    fun op => step_unrecords⟩
  intro p hp granted
  obtain ⟨q, hq, hid, -⟩ := payments p hp
  rcases early.once p hp with ⟨none, -⟩ | ⟨-, e, bucketId, single, bucket, hbucket, hsubscription⟩
  · rw [none] at granted
    cases granted
  -- The grant reported then is the first and only one reported now.
  obtain ⟨more, grants⟩ := grants
  have reported : (w.run (before ++ after)).db.grantsOf q.id =
      e :: more.filter fun e => e.paymentId = some p.id := by
    rw [hid, Db.grantsOf, grants, filter_append]
    change (w.run before).db.grantsOf p.id ++ _ = _
    rw [single]
    rfl
  rcases late.once q hq with ⟨-, nothing⟩ | ⟨paid, e', bucketId', single', bucket', hbucket', hsub'⟩
  · rw [reported] at nothing
    cases nothing
  · rw [reported] at single'
    obtain ⟨rfl, -⟩ := cons.inj single'
    refine ⟨q, hq, hid, ?_, ?_, paid⟩
    · rw [hbucket', hbucket, ← bucket', bucket]
    · rw [hsub', hsubscription]

open FirstRun in
theorem payment_granted_once_first_run :
    ((empty.run ([topup, confirmed] ++ [confirmed, reserve])).db.bucketsOf 0).length ≤ 1 ∧
      ((empty.run ([topup, confirmed] ++ [confirmed, reserve])).db.subscriptionsOf 0).length ≤ 1 :=
  (payment_granted_once .empty .empty ⟨rfl, rfl, by simp [empty]⟩ [topup, confirmed] [confirmed, reserve]
    ⟨id, by simp [Unrecords, confirmed, event, moneyEventFromInput, truthy],
      by simp [Unrecords, confirmed, event, moneyEventFromInput, truthy], id, trivial⟩).2.1 0

open FirstRun in
/-- A recovered checkout without a URL is begun again after the payment was
confirmed: the payment is `PENDING` with its grant. Refunded in full before
that, it can be confirmed and granted a second time. -/
theorem checkout_reopens_granted :
    ((empty.run ([subscription] ++ recovered ++ [confirmed] ++ recovered)).db.payments.map
      fun p => (p.id, p.grantedBucketId, p.status)) = [(0, some 2, .pending)] ∧
    (empty.run ([subscription] ++ recovered ++
      [confirmed, .processPaymentEvent context (event "refunded" .refunded)] ++ recovered ++
      [.processPaymentEvent context (event "confirmed again" .succeeded)])).db.bucketsOf 0 = [2, 4] ∧
    (empty.run ([subscription] ++ recovered ++
      [confirmed, .processPaymentEvent context (event "refunded" .refunded)] ++ recovered ++
      [.processPaymentEvent context (event "confirmed again" .succeeded)])).db.subscriptionsOf 0 =
        [1, 3] := by
  decide +kernel

end Vimla.Billing
