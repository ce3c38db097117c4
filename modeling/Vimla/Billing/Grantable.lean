import Vimla.Billing.Subscriptions

/-!
# When an admitted checkout is granted

A confirmed payment is granted unless it was closed, or its user still has an
`ACTIVE` row, which admission overlooks once the row's period is over.
-/

namespace Vimla.Billing

open Rows List World Nat

structure Sales (db : Db) : Prop where
  sold : ∀ p ∈ db.payments, p.Sold
  sources : db.SourcesBelow
  one : OneActive db

variable {db : Db} {op : Op} {ctx : PaymentContext} {event : PaymentEventInput}

variable {db' : Db} {grant : Grant} {userId : Nat} {key : String} {w : World}

/-- What a payment keeps with its amount, kind and snapshot, every payment has
once each new one has it. -/
theorem Commits.eachPayment {P : Payment → Prop} (stays : ∀ p q, SamePayment p q → P p → P q)
    (h : Commits db op db') (balanced : Balanced db .none) (created : ∀ catalog now fresh input created,
      createPendingPayment catalog now fresh input db = .ok (db', created) → ∀ p ∈ db'.payments, P p)
    (all : ∀ p ∈ db.payments, P p) : ∀ p ∈ db'.payments, P p := by
  cases h with
  | reserve now input db' view run =>
    rw [(reserveUsage_usageOnly balanced.keys.buckets run).payments]
    exact all
  | settle clock input db' view run =>
    rcases settleUsage_cases balanced run with ⟨rfl, -⟩ | ⟨r, -, -, -, -, -, rfl⟩
    · exact all
    · rw [(settlement_usageOnly clock input r db).payments]
      exact all
  | release now input db' view run =>
    rcases releaseUsage_cases balanced run with ⟨rfl, -⟩ | ⟨r, -, -, -, -, rfl⟩
    · exact all
    · rw [(release_usageOnly input r db).payments]
      exact all
  | event ctx event db' result run =>
    obtain ⟨payment, lock, ⟨-, rfl⟩ | ⟨new, applied⟩⟩ := processPaymentEvent_cases run
    · exact all
    · intro q hq
      obtain ⟨p, hp, same, -⟩ := applied.back hq
      exact stays p q same (all p hp)
  | create catalog now fresh input db' _ run => exact created catalog now fresh input _ run
  | checkout op payment known checkout records db' run =>
    obtain ⟨-, rfl⟩ := recordCheckout_cases run
    intro q hq
    obtain ⟨p, hp, rfl⟩ := mem_update.1 hq
    split
    · exact stays p _ ⟨rfl, rfl, rfl, rfl⟩ (all p hp)
    · exact all p hp

theorem Commits.sold (h : Commits db op db') (balanced : Balanced db .none)
    (sold : ∀ p ∈ db.payments, p.Sold) : ∀ p ∈ db'.payments, p.Sold :=
  h.eachPayment (fun _ _ => SamePayment.sold) balanced
    (fun _ _ _ _ _ run => createPendingPayment_sold run sold) sold

theorem PaymentMove.oneActive (h : PaymentMove db op db') (one : OneActive db) : OneActive db' := by
  obtain ⟨ctx, event, payment, -, -, applied⟩ | ⟨-, same, -⟩ := h.event_or_kept
  · exact applied.subscriptions.oneActive one
  · intro userId
    rw [same]
    exact one userId

structure Shop (db : Db) : Prop extends PaymentKeys db, Sales db where
  balanced : Balanced db .none

theorem Commits.shop (h : Commits db op db') (shop : Shop db) : Shop db' := by
  have move := h.move shop.balanced
  exact ⟨move.keys shop.toPaymentKeys, ⟨h.sold shop.balanced shop.sold,
    (h.sources shop.balanced shop.toPaymentKeys).below move.grows.nextId shop.sources,
    move.oneActive shop.one⟩, h.balanced shop.balanced⟩

theorem World.empty_shop : Shop empty.db := by
  have opening : Opening empty.db := by constructor <;> simp [empty, Db.BucketIds]
  refine ⟨⟨?_, ?_⟩, ⟨?_, ?_, ?_⟩, opening.balanced⟩ <;>
    simp [empty, Db.SourcesBelow, Db.sources, OneActive]

theorem run_shop (ops : List Op) : Shop (empty.run ops).db :=
  empty.run_invariant (fun _ _ _ commits shop => commits.shop shop) ops empty_shop

/-- A verified confirmation of the payment that is seen for the first time. -/
structure Confirms (event : PaymentEventInput) (payment : Payment) (db : Db) : Prop where
  lock : lockPaymentId db event = some payment
  good : mismatched payment event = false
  money : moneyEventFromInput event = .confirmed
  new : db.recorded event = false
  own : db.providerPaymentTaken payment.id payment.provider
    (event.providerPaymentId.or payment.providerPaymentId) = false

def Payment.open (p : Payment) : Prop := p.status = .created ∨ p.status = .pending

/-- The event grants the payment's subscription and its bucket. -/
def GrantsSubscription (ctx : PaymentContext) (event : PaymentEventInput) (payment : Payment) (db : Db) :
    Prop :=
  ∃ db' result subscription bucket, processPaymentEvent ctx event db = .ok (db', result) ∧
    result.subscriptionId = some subscription.id ∧ result.bucketId = some bucket.id ∧
    db'.subscriptions = db.subscriptions ++ [subscription] ∧ db'.buckets = db.buckets ++ [bucket] ∧
    subscription.userId = payment.userId ∧ subscription.status = .active ∧
    bucket.userId = payment.userId ∧ bucket.sourceId = subscription.id ∧
    bucket.totalMicroRub = payment.checkoutSnapshot.providerBudgetGrantMicroRub

/-- The fees in force can be estimated, or the payment's economics exist. -/
def FeesKnown (ctx : PaymentContext) (event : PaymentEventInput) (payment : Payment) (db : Db) : Prop :=
  (∃ row ∈ db.economics, row.paymentId = payment.id) ∨
    ((∃ fee, estimateAcquiring payment.amountMicroRub
        (((payment.paymentMethod.or event.paymentMethod).filter (· ≠ .unknown)).bind fun method =>
          findPublishedFeePolicy ctx.feePolicies payment.provider method payment.createdAt) = .ok fee) ∧
      ∃ fee, estimateFiscalization payment.amountMicroRub
        (findPublishedFiscalPolicy ctx.fiscalPolicies payment.provider payment.createdAt) = .ok fee)

/-- The payment is open, no row of its user is `ACTIVE`, its snapshot grants no
negative amount and its fees are known. -/
structure Grantable (ctx : PaymentContext) (event : PaymentEventInput) (payment : Payment) (db : Db) :
    Prop where
  unpaid : payment.open
  free : NoActive payment.userId db
  budget : 0 ≤ payment.checkoutSnapshot.providerBudgetGrantMicroRub
  fees : FeesKnown ctx event payment db

theorem ensurePaymentEconomics_ok {payment : Payment} (priced : 0 ≤ payment.amountMicroRub) :
    FeesKnown ctx event payment db ↔ ∃ db', ensurePaymentEconomics ctx.feePolicies ctx.fiscalPolicies
      ⟨payment.id, payment.amountMicroRub, payment.provider, payment.createdAt,
        payment.paymentMethod.or event.paymentMethod⟩ db = .ok db' := by
  unfold ensurePaymentEconomics FeesKnown
  cases hfind : Rows.find PaymentEconomics.paymentId payment.id db.economics with
  | some row =>
    have := mem_of_find hfind
    exact ⟨fun _ => ⟨db, rfl⟩, fun _ => .inl ⟨row, this⟩⟩
  | none =>
    have absent : ¬ ∃ row ∈ db.economics, row.paymentId = payment.id := by
      rintro ⟨row, mem, same⟩
      obtain ⟨found, hfound⟩ := find_isSome_of_mem mem same
      rw [hfind] at hfound
      cases hfound
    have positive : ¬ payment.amountMicroRub < 0 := by omega
    simp only [absent, false_or, bind, Except.bind, positive, if_false]
    constructor
    · rintro ⟨⟨acquiring, ha⟩, fiscal, hf⟩
      rw [ha]
      simp only [hf]
      exact ⟨_, rfl⟩
    · rintro ⟨db', run⟩
      split at run
      · cases run
      rename_i acquiring ha
      split at run
      · cases run
      rename_i fiscal hf
      exact ⟨⟨acquiring, ha⟩, fiscal, hf⟩

theorem grantSubscription_ok {payment : Payment} {db : Db}
    (sold : payment.Sold) (kind : payment.kind = .subscription) (free : NoActive payment.userId db)
    (budget : 0 ≤ payment.checkoutSnapshot.providerBudgetGrantMicroRub) (sources : db.SourcesBelow) :
    ∃ planVersionId granted, grantFromSucceededPayment ctx payment db =
        .ok (granted, ⟨db.nextId + 1, some db.nextId⟩) ∧
      granted.payments = db.payments ∧ granted.economics = db.economics ∧
      granted.subscriptions = db.subscriptions ++
        [⟨db.nextId, payment.userId, planVersionId, .active, ctx.periodStart, grantPeriodEnd ctx payment⟩] ∧
      granted.buckets = db.buckets ++
        [⟨db.nextId + 1, payment.userId, .monthly, payment.checkoutSnapshot.providerBudgetGrantMicroRub,
          0, 0, some (grantPeriodEnd ctx payment), .subscription, db.nextId, ctx.startedAt⟩] := by
  obtain ⟨planVersionId, planned⟩ := Option.isSome_iff_exists.1 (sold.planned kind)
  have unsourced : (db.buckets.any fun b => b.sourceType = .subscription ∧ b.sourceId = db.nextId) =
      false := by
    rw [any_eq_false]
    intro b hb same
    simp only [decide_eq_true_eq] at same
    exact Nat.ne_of_lt (sources b.sourceId (mem_map_of_mem hb)) same.2
  have positive : ¬ payment.checkoutSnapshot.providerBudgetGrantMicroRub < 0 := by omega
  refine ⟨planVersionId, { db with
    nextId := db.nextId + 2
    subscriptions := _
    buckets := _
    ledger := db.ledger ++ [bucketGrantedEntry ctx payment planVersionId db.nextId (db.nextId + 1)] },
    ?_, rfl, rfl, rfl, rfl⟩
  simp only [grantFromSucceededPayment, sold.amount, ne_eq, not_true_eq_false, if_false, kind, planned,
    Option.some_or, grantSubscription, noActive_iff.1 free, Bool.false_eq_true, Db.createSubscription,
    Db.createBucket, unsourced, positive, bind, Except.bind, pure, Except.pure]
  rfl

theorem grantSubscription_grantable {payment : Payment} (kind : payment.kind = .subscription)
    (h : grantFromSucceededPayment ctx payment db = .ok (db', grant)) :
    NoActive payment.userId db ∧ 0 ≤ payment.checkoutSnapshot.providerBudgetGrantMicroRub ∧
      db'.economics = db.economics := by
  obtain ⟨budget, ⟨planVersionId, -, taken, -, rfl⟩ | ⟨topup, -⟩⟩ := grantFromSucceededPayment_cases h
  · exact ⟨noActive_iff.2 taken, budget, rfl⟩
  · rw [kind] at topup
    cases topup

theorem confirmPayment_ok {payment : Payment} {granted : Db} (unpaid : payment.open)
    (grants : grantFromSucceededPayment ctx payment db = .ok (granted, grant))
    (own : granted.providerPaymentTaken payment.id payment.provider
      (event.providerPaymentId.or payment.providerPaymentId) = false)
    (attached : ensurePaymentEconomics ctx.feePolicies ctx.fiscalPolicies
      ⟨payment.id, payment.amountMicroRub, payment.provider, payment.createdAt,
        payment.paymentMethod.or event.paymentMethod⟩
      (granted.updatePayment payment.id (grantedRow ctx payment event grant)) = .ok db') :
    confirmPayment ctx payment event db =
      .ok (db', ⟨false, payment.id, .succeeded, some grant.bucketId, grant.subscriptionId⟩) := by
  unfold grantedRow at attached
  unfold confirmPayment
  obtain e | e := unpaid <;>
    simp [e, grants, bind, Except.bind, own, Bool.false_eq_true, attached, pure, Except.pure]

/-- A confirmed subscription payment is granted exactly when it is grantable. -/
theorem granted_iff {payment : Payment} (shop : Shop db) (confirms : Confirms event payment db)
    (kind : payment.kind = .subscription) :
    GrantsSubscription ctx event payment db ↔ Grantable ctx event payment db := by
  have sold := shop.sold payment (lockPaymentId_mem confirms.lock)
  constructor
  · rintro ⟨db', result, subscription, bucket, run, -, -, -, buckets, -⟩
    obtain ⟨found, lock, ⟨-, rfl⟩ | ⟨-, applied⟩⟩ := processPaymentEvent_cases run
    · simp at buckets
    rw [confirms.lock] at lock
    cases lock
    obtain ⟨-, -, unpaid, granted, grant, grants, economics⟩ := applied.grown (by simp [buckets, Db.note])
    obtain ⟨free, budget, rows⟩ := grantSubscription_grantable kind grants
    refine ⟨unpaid, free, budget, ?_⟩
    have fees := (ensurePaymentEconomics_ok sold.priced).2 ⟨_, economics⟩
    unfold FeesKnown at fees ⊢
    rwa [show (granted.updatePayment payment.id (grantedRow ctx payment event grant)).economics =
      db.economics from rows] at fees
  · intro grantable
    have below : (db.note event payment).SourcesBelow := shop.sources
    obtain ⟨planVersionId, granted, grants, payments, economics, subscriptions, buckets⟩ :=
      @grantSubscription_ok ctx payment (db.note event payment) sold kind grantable.free grantable.budget
        below
    have own : granted.providerPaymentTaken payment.id payment.provider
        (event.providerPaymentId.or payment.providerPaymentId) = false := by
      rw [Db.providerPaymentTaken, payments]
      exact confirms.own
    have fees : FeesKnown ctx event payment (granted.updatePayment payment.id
        (grantedRow ctx payment event ⟨(db.note event payment).nextId + 1,
          some (db.note event payment).nextId⟩)) := by
      have known := grantable.fees
      unfold FeesKnown at known ⊢
      rwa [show (granted.updatePayment payment.id _).economics = db.economics from economics]
    obtain ⟨db', attached⟩ := (ensurePaymentEconomics_ok sold.priced).1 fees
    have run : processPaymentEvent ctx event db = .ok (db', ⟨false, payment.id, .succeeded,
        some ((db.note event payment).nextId + 1), some (db.note event payment).nextId⟩) := by
      have confirmed := confirmPayment_ok grantable.unpaid grants own attached
      simp [processPaymentEvent_new ctx confirms.lock confirms.new, applyPaymentEvent, confirms.good, confirms.money,
        confirmed]
    have rows : db'.subscriptions = granted.subscriptions ∧ db'.buckets = granted.buckets := by
      obtain ⟨-, rfl⟩ | ⟨-, row, rfl, -⟩ := ensurePaymentEconomics_cases attached <;> exact ⟨rfl, rfl⟩
    exact ⟨db', _, _, _, run, rfl, rfl, rows.1.trans subscriptions, rows.2.trans buckets, rfl, rfl, rfl,
      rfl, rfl⟩

/-- Whose payments there are, and under which keys. -/
def Db.owners (db : Db) : List (Nat × Nat × String) :=
  db.payments.map fun p => (p.id, p.userId, p.idempotencyKey)

theorem Applied.owners {payment : Payment} (h : Applied ctx payment event db db') : db'.owners = db.owners := by
  cases h.written with
  | noted _ _ f keeps owner _ _ _ _ rows =>
    rw [rows]
    exact map_update fun p => by rw [(keeps p).id, (owner p).1, (owner p).2]
  | granted good money unpaid granted grant run economics =>
    obtain ⟨bucket, entry, subscriptions, granting⟩ := grantFromSucceededPayment_granting run
    have rows : granted.owners = db.owners := by rw [granting.rows]; rfl
    have written : (granted.updatePayment payment.id (grantedRow ctx payment event grant)).owners =
        granted.owners := map_update fun _ => rfl
    rw [← rows, ← written]
    obtain ⟨-, rfl⟩ | ⟨-, row, rfl, -⟩ := ensurePaymentEconomics_cases economics <;> rfl
  | refunded _ _ _ _ _ _ _ _ _ _ rows =>
    rw [rows]
    exact map_update fun _ => rfl

/-- No row of the user is `ACTIVE`, and a payment under the key is open. -/
structure Ready (userId : Nat) (key : String) (db : Db) : Prop where
  free : NoActive userId db
  unpaid : ∀ p ∈ db.payments, p.userId = userId → p.idempotencyKey = key → p.kind = .subscription → p.open

/-- The step grants no subscription to the user, and is no event of the
payment under the key. -/
def Quiet (userId : Nat) (key : String) (w : World) (op : Op) : Prop :=
  ∀ ctx event, op = .processPaymentEvent ctx event → ∀ p, lockPaymentId w.db event = some p →
    p.userId = userId → p.kind = .subscription →
      p.idempotencyKey ≠ key ∧ (w.step op).db.subscriptions.length = w.db.subscriptions.length

/-- A quiet step makes no row of the user `ACTIVE`. -/
theorem World.step_active (shop : Shop w.db) (quiet : Quiet userId key w op) {s : Subscription}
    (mem : s ∈ (w.step op).db.subscriptions) (active : s.activeFor userId = true) : s ∈ w.db.subscriptions := by
  obtain same | commits := w.step_cases op
  · rwa [same] at mem
  obtain ⟨ctx, event, payment, rfl, lock, applied⟩ | ⟨-, same, -⟩ := (commits.move shop.balanced).event_or_kept
  · obtain old | ⟨user, kind, more⟩ := applied.subscriptions.active mem active
    · exact old
    · exact absurd (quiet ctx event rfl payment lock user kind).2 (ne_of_gt more)
  · rwa [same] at mem

theorem World.step_ready (shop : Shop w.db) (quiet : Quiet userId key w op) (ready : Ready userId key w.db) :
    Ready userId key (w.step op).db := by
  refine ⟨fun s mem => ?_, ?_⟩
  · by_contra active
    exact active (ready.free s (w.step_active shop quiet mem (by simpa using active)))
  obtain same | commits := w.step_cases op
  · rw [same]
    exact ready.unpaid
  generalize (w.step op).db = db' at commits
  cases commits.move shop.balanced with
  | none => exact ready.unpaid
  | usage _ _ frame =>
    rw [frame.payments]
    exact ready.unpaid
  | taken ctx event payment lock new _ applied =>
    intro q hq user hkey kind
    obtain ⟨p, hp, same, untouched⟩ := applied.back hq
    -- The row of the event is not under the key.
    have owner : (q.id, q.userId, q.idempotencyKey) ∈ w.db.owners := by
      rw [show w.db.owners = (w.db.note event payment).owners from rfl, ← applied.owners]
      exact mem_map_of_mem hq
    obtain ⟨r, hr, columns⟩ := mem_map.1 owner
    obtain ⟨hid, huser, hkey'⟩ : r.id = q.id ∧ r.userId = q.userId ∧
        r.idempotencyKey = q.idempotencyKey := by simpa using columns
    have : r = p := eq_of_key shop.keys hr hp (hid.trans same.id)
    subst this
    by_cases own : r.id = payment.id
    · have := eq_of_key shop.keys hr (lockPaymentId_mem lock) own
      subst this
      exact absurd (hkey'.trans hkey) (quiet ctx event rfl _ lock (huser.trans user) (same.kind ▸ kind)).1
    · rw [untouched own] at user hkey kind ⊢
      exact ready.unpaid r hr user hkey kind
  | created _ payment new _ run =>
    obtain ⟨rfl, -, -⟩ := createPayment_cases run
    intro p hp user hkey kind
    obtain hp | hp := mem_append.1 hp
    · exact ready.unpaid p hp user hkey kind
    · rw [mem_singleton.1 hp]
      exact new.status
  | checkout _ payment known checkout records _ run =>
    obtain ⟨-, rfl⟩ := recordCheckout_cases run
    intro q hq user hkey kind
    obtain ⟨p, hp, rfl⟩ := mem_update.1 hq
    split
    · exact .inr rfl
    · rename_i other
      simp only [other, if_false] at user hkey kind
      exact ready.unpaid p hp user hkey kind

/-- The rows of the user that are still `ACTIVE` were over by then. -/
def Overdue (userId : Nat) (instant : Int) (db : Db) : Prop :=
  ∀ s ∈ db.subscriptions, s.activeFor userId = true → s.periodEnd ≤ instant

theorem World.step_overdue {instant : Int} (shop : Shop w.db) (quiet : Quiet userId key w op)
    (overdue : Overdue userId instant w.db) : Overdue userId instant (w.step op).db :=
  fun s mem active => overdue s (w.step_active shop quiet mem active) active

theorem run_quiet {P : Db → Prop}
    (steps : ∀ w op, Shop w.db → Quiet userId key w op → P w.db → P (step w op).db)
    {before between : List Op} (quiet : Runs.Along step (Quiet userId key) (empty.run before) between)
    (start : P (empty.run before).db) : P (empty.run (before ++ between)).db := by
  rw [run_append]
  have both := Runs.invariant_along (P := fun w : World => Shop w.db ∧ P w.db)
    (fun w op quiet h => ?_) quiet ⟨run_shop before, start⟩
  · exact both.2
  · refine ⟨?_, steps w op h.1 quiet h.2⟩
    obtain same | commits := w.step_cases op
    · rw [same]
      exact h.1
    · exact commits.shop h.1

/-- The confirmation of an admitted checkout grants it exactly when the payment
is grantable then. It is when the user had no `ACTIVE` row at admission, the key
named no closed payment, and nothing else was sold to the user since; a row that
stands in the way was over when the checkout was admitted. -/
theorem admitted_granted_iff (before between : List Op) (plans : List Plan) (now : Int)
    (provider : String) (input : SubscriptionCheckout) (request : CreatePaymentInput)
    (admitted : checkoutSubscription plans now provider input (empty.run before).db = .ok request)
    (ctx : PaymentContext) (event : PaymentEventInput) (payment : Payment)
    (confirms : Confirms event payment (empty.run (before ++ between)).db)
    (user : payment.userId = input.userId) (kind : payment.kind = .subscription)
    (key : payment.idempotencyKey = input.idempotencyKey) :
    (GrantsSubscription ctx event payment (empty.run (before ++ between)).db ↔
      Grantable ctx event payment (empty.run (before ++ between)).db) ∧
    (Runs.Along step (Quiet input.userId input.idempotencyKey) (empty.run before) between →
      (Ready input.userId input.idempotencyKey (empty.run before).db →
        payment.open ∧ NoActive payment.userId (empty.run (before ++ between)).db) ∧
      ∀ s ∈ (empty.run (before ++ between)).db.subscriptions,
        s.activeFor input.userId = true → s.periodEnd ≤ now) := by
  refine ⟨granted_iff (run_shop _) confirms kind, fun quiet => ⟨fun ready => ?_, ?_⟩⟩
  · have ready := run_quiet (fun _ _ => step_ready) quiet ready
    exact ⟨ready.unpaid payment (lockPaymentId_mem confirms.lock) user key kind, user ▸ ready.free⟩
  · exact run_quiet (fun _ _ => step_overdue) quiet (admitted_expired admitted (run_shop before).one)

namespace SecondMonth

def plans : List Plan := [⟨"LITE", true, [⟨⟨1, 2000000, 1000000, 30⟩, .published, 0, none⟩]⟩]

def catalog : Catalog := ⟨FirstRun.policy, [], [⟨1, 2000000, 1000000, 30⟩]⟩

def request (key : String) : CreatePaymentInput where
  userId := 7
  provider := "tbank"
  kind := .subscription
  amountMicroRub := 2000000
  planVersionId := some 1
  planCode := some "LITE"
  idempotencyKey := some key
  status := some .created

def create (order key : String) : Op := .createPendingPayment catalog 0 ⟨order, ""⟩ (request key)

def confirmed (order : String) : PaymentEventInput where
  provider := "tbank"
  providerEventId := order
  orderId := some order
  eventType := .succeeded
  amountMicroRub := some 2000000

def first : List Op := [create "one" "first", .processPaymentEvent FirstRun.context (confirmed "one")]

/-- The payment that the second checkout opens. -/
def payment : Payment where
  id := 3
  userId := 7
  provider := "tbank"
  providerPaymentId := none
  providerOrderId := "two"
  providerStatus := none
  paymentUrl := none
  kind := .subscription
  amountMicroRub := 2000000
  status := .created
  planVersionId := some 1
  topupPolicyVersionId := none
  paymentMethod := none
  rawProviderPaymentMethod := none
  idempotencyKey := "second"
  checkoutSnapshot := {
    kind := .subscription
    customerPaymentAmountMicroRub := 2000000
    providerBudgetGrantMicroRub := 1000000
    planVersionId := some 1
    planCode := some "LITE"
    subscriptionPeriodDays := some 30 }
  grantedBucketId := none
  grantedSubscriptionId := none
  fulfilledAt := none
  createdAt := 0

theorem confirms : Confirms (confirmed "two") payment (empty.run (first ++ [create "two" "second"])).db := by
  constructor <;> decide +kernel

end SecondMonth

open SecondMonth in
theorem admitted_granted_iff_second_month :
    GrantsSubscription FirstRun.context (confirmed "two") payment
        (empty.run (first ++ [create "two" "second"])).db ↔
      Grantable FirstRun.context (confirmed "two") payment
        (empty.run (first ++ [create "two" "second"])).db :=
  (admitted_granted_iff first [create "two" "second"] plans (31 * dayMs) "tbank"
    ⟨7, "LITE", "second"⟩ (request "second") rfl FirstRun.context (confirmed "two") payment confirms rfl rfl
    rfl).1

open SecondMonth in
/-- A month and a day after the first purchase the second is admitted, opened,
paid and refused; nothing else happened in between. -/
theorem second_month_refused :
    checkoutSubscription plans (31 * dayMs) "tbank" ⟨7, "LITE", "second"⟩ (empty.run first).db =
      .ok (request "second") ∧
    Confirms (confirmed "two") payment (empty.run (first ++ [create "two" "second"])).db ∧
    (empty.run first).db.subscriptions.map Subscription.periodEnd = [30 * dayMs] ∧
    ¬ GrantsSubscription FirstRun.context (confirmed "two") payment
      (empty.run (first ++ [create "two" "second"])).db ∧
    (match processPaymentEvent FirstRun.context (confirmed "two")
        (empty.run (first ++ [create "two" "second"])).db with
      | .error e => some e
      | .ok _ => none) =
        some (.billing .subscriptionAlreadyActive "User already has an active subscription") := by
  refine ⟨rfl, confirms, by decide +kernel, ?_, by decide +kernel⟩
  rintro ⟨db', result, subscription, bucket, run, -⟩
  have refused : (processPaymentEvent FirstRun.context (confirmed "two")
      (empty.run (first ++ [create "two" "second"])).db).toOption = none := by decide +kernel
  rw [run] at refused
  cases refused

end Vimla.Billing
