import Vimla.Billing.BucketSources

/-!
# Subscriptions of a user

What every transaction does to the subscriptions: a grant adds one that is
active to a user who has none, a refund cancels, and nothing else writes them.
No transaction ends a subscription whose period is over.
-/

namespace Vimla.Billing

open List

variable {ctx : PaymentContext} {event : PaymentEventInput}

def Subscription.activeFor (userId : Nat) (s : Subscription) : Bool :=
  s.userId = userId ∧ s.status = .active

/-- The user has no `ACTIVE` row, whatever its period. -/
def NoActive (userId : Nat) (db : Db) : Prop := ∀ s ∈ db.subscriptions, s.activeFor userId = false

variable {userId : Nat}

theorem noActive_iff {db : Db} : NoActive userId db ↔
      (db.subscriptions.any fun s => s.userId = userId ∧ s.status = .active) = false := by
  simp [NoActive, Subscription.activeFor]

/-- What an event of `payment` may do to the subscriptions. -/
inductive SubscriptionMove (payment : Payment) (db db' : Db) : Prop
  | same (rows : db'.subscriptions = db.subscriptions)
  | canceled (f : Subscription → Subscription) (rows : db'.subscriptions = db.subscriptions.map f)
    (cancels : ∀ s, f s = s ∨ f s = { s with status := .canceled })
  | granted (kind : payment.kind = .subscription) (free : NoActive payment.userId db)
    (s : Subscription) (user : s.userId = payment.userId)
    (rows : db'.subscriptions = db.subscriptions ++ [s])

variable {payment : Payment}

theorem SubscriptionMove.after {db mid db' : Db} (h : SubscriptionMove payment db mid)
    (same : db'.subscriptions = mid.subscriptions) : SubscriptionMove payment db db' := by
  cases h with
  | same rows => exact .same (same.trans rows)
  | canceled f rows cancels => exact .canceled f (same.trans rows) cancels
  | granted kind free s user rows => exact .granted kind free s user (same.trans rows)

variable {db db' : Db}

theorem grantFromSucceededPayment_subscriptions {grant : Grant}
    (h : grantFromSucceededPayment ctx payment db = .ok (db', grant)) : SubscriptionMove payment db db' := by
  obtain ⟨-, ⟨planVersionId, kind, taken, rfl, rfl⟩ | ⟨-, rfl, rfl⟩⟩ := grantFromSucceededPayment_cases h
  · exact .granted kind (noActive_iff.2 taken) _ rfl rfl
  · exact .same rfl

theorem Applied.subscriptions
    (h : Applied ctx payment event db db') : SubscriptionMove payment db db' := by
  cases h.written with
  | noted _ _ _ _ _ _ _ _ _ rows => exact .same (by rw [rows])
  | granted good money unpaid granted grant run economics =>
    apply (grantFromSucceededPayment_subscriptions run).after
    rcases ensurePaymentEconomics_cases economics with ⟨-, rfl⟩ | ⟨-, row, rfl, -⟩ <;> rfl
  | refunded _ _ _ _ _ _ g cancels _ _ rows => exact .canceled g (by rw [rows]) cancels

def OneActive (db : Db) : Prop :=
  ∀ userId, (db.subscriptions.filter (Subscription.activeFor userId)).length ≤ 1

theorem OneActive.unique {db : Db} (h : OneActive db) {s s' : Subscription}
    (mem : s ∈ db.subscriptions) (mem' : s' ∈ db.subscriptions) (active : s.activeFor userId = true)
    (active' : s'.activeFor userId = true) : s = s' := by
  have found : s ∈ db.subscriptions.filter (Subscription.activeFor userId) :=
    mem_filter.2 ⟨mem, active⟩
  have found' : s' ∈ db.subscriptions.filter (Subscription.activeFor userId) :=
    mem_filter.2 ⟨mem', active'⟩
  have one := h userId
  generalize db.subscriptions.filter (Subscription.activeFor userId) = rows at found found' one
  cases rows with
  | nil => cases found
  | cons r rest =>
    have : rest = [] := length_eq_zero_iff.1 (by simpa using one)
    subst this
    rw [mem_singleton.1 found, mem_singleton.1 found']

theorem SubscriptionMove.oneActive (h : SubscriptionMove payment db db') (one : OneActive db) :
    OneActive db' := by
  intro userId
  cases h with
  | same rows =>
    rw [rows]
    exact one userId
  | canceled f rows cancels =>
    rw [rows, ← countP_eq_length_filter, countP_map]
    apply Nat.le_trans _ (one userId)
    rw [← countP_eq_length_filter]
    apply countP_mono_left
    intro s _ active
    rcases cancels s with e | e
    · simpa [e] using active
    · simp [e, Subscription.activeFor] at active
  | granted kind free s user rows =>
    rw [rows, filter_append, length_append]
    by_cases own : s.activeFor userId = true
    · have none : db.subscriptions.filter (Subscription.activeFor userId) = [] := by
        rw [filter_eq_nil_iff]
        intro r hr
        have : userId = payment.userId := by
          simp only [Subscription.activeFor, decide_eq_true_eq] at own
          exact own.1.symm.trans user
        rw [this, free r hr]
        decide
      rw [none, length_nil, Nat.zero_add]
      exact length_filter_le _ [s]
    · rw [filter_singleton]
      have := one userId
      simp [own]
      omega

/-- A subscription that is active now was there before, or was granted. -/
theorem SubscriptionMove.active (h : SubscriptionMove payment db db')
    {s : Subscription} (mem : s ∈ db'.subscriptions) (active : s.activeFor userId = true) :
    s ∈ db.subscriptions ∨ (payment.userId = userId ∧ payment.kind = .subscription ∧
        db.subscriptions.length < db'.subscriptions.length) := by
  cases h with
  | same rows => exact .inl (rows ▸ mem)
  | canceled f rows cancels =>
    rw [rows] at mem
    obtain ⟨r, hr, rfl⟩ := mem_map.1 mem
    rcases cancels r with e | e
    · rw [e]
      exact .inl hr
    · simp [e, Subscription.activeFor] at active
  | granted kind free new user rows =>
    rw [rows] at mem
    rcases mem_append.1 mem with mem | mem
    · exact .inl mem
    · right
      rw [mem_singleton.1 mem] at active
      simp only [Subscription.activeFor, decide_eq_true_eq] at active
      exact ⟨user.symm.trans active.1, kind, by simp [rows]⟩

/-!
# Admitting a subscription checkout

The reads of `PaymentService.checkoutSubscription` before it opens a payment,
and when a confirmed payment is granted. Admission asks whether a subscription
is active now; the grant asks whether a row says so.
-/

structure RetailVersion extends PlanVersion where
  status : PolicyStatus
  validFrom : Int
  validTo : Option Int

structure Plan where
  code : String
  active : Bool
  versions : List RetailVersion

def FREE_PLAN_CODE : String := "FREE"

def plansCurrentVersion (versions : List RetailVersion) (now : Int) : Option RetailVersion :=
  versions.find? fun version =>
    version.status = .published ∧ version.validFrom ≤ now ∧ unexpired now version.validTo

def findCurrentPlanVersionByCode (plans : List Plan) (now : Int) (code : String) :
    Except TxError RetailVersion :=
  match plans.find? fun plan => plan.code = code with
  | none => .error (.billing .planNotFound "Plan was not found")
  | some plan =>
    if !plan.active ∨ plan.code = FREE_PLAN_CODE then
      .error (.billing .planNotFound "Plan was not found")
    else
      let versions := plan.versions.insertionSort fun l r => r.validFrom ≤ l.validFrom
      match plansCurrentVersion versions now with
      | none => .error (.billing .planNotFound "Plan has no current version")
      | some current => .ok current

/-- An `ACTIVE` row whose period is not over. -/
def getActiveSubscription (now : Int) (userId : Nat) (db : Db) : Option Subscription :=
  (db.subscriptions.find? (Subscription.activeFor userId)).filter (now < ·.periodEnd)

def findOpenSubscriptionCheckout (userId : Nat) (idempotencyKey : String) (db : Db) : Option Payment :=
  db.payments.find? fun p => p.userId = userId ∧ p.kind = .subscription ∧
    (p.status = .created ∨ p.status = .pending) ∧ p.idempotencyKey ≠ idempotencyKey

structure SubscriptionCheckout where
  userId : Nat
  planCode : String
  idempotencyKey : String

/-- What `checkoutSubscription` reads; it then gives the result to
`createPendingPayment` and begins the hosted checkout. -/
def checkoutSubscription (plans : List Plan) (now : Int) (provider : String)
    (input : SubscriptionCheckout) (db : Db) : Except TxError CreatePaymentInput :=
  if (getActiveSubscription now input.userId db).isSome then
    .error (.billing .subscriptionAlreadyActive "An active subscription already exists")
  else if (findOpenSubscriptionCheckout input.userId input.idempotencyKey db).isSome then
    .error (.billing .paymentAlreadyProcessed "A subscription checkout is already in progress")
  else do
    let plan ← findCurrentPlanVersionByCode plans now input.planCode
    match microRubToKopecks plan.priceMicroRub with
    | .error _ => .error (.billing .paymentAmountInvalid "Amount is not representable as whole kopecks")
    | .ok _ => return {
        userId := input.userId
        provider := provider
        kind := .subscription
        amountMicroRub := plan.priceMicroRub
        planVersionId := some plan.id
        planCode := some input.planCode
        idempotencyKey := some input.idempotencyKey
        status := some .created }

variable {now : Int} {catalog : Catalog} {input : CreatePaymentInput}

variable {db : Db} {q payment : Payment}

/-- Whoever is admitted has no active subscription left that is not over. -/
theorem admitted_expired {plans : List Plan} {provider : String} {input : SubscriptionCheckout}
    {request : CreatePaymentInput} (h : checkoutSubscription plans now provider input db = .ok request)
    (one : OneActive db) : ∀ s ∈ db.subscriptions, s.activeFor input.userId = true → s.periodEnd ≤ now := by
  intro s mem active
  unfold checkoutSubscription at h
  split at h
  · cases h
  rename_i none
  by_contra current
  apply none
  unfold getActiveSubscription
  cases hfind : db.subscriptions.find? (Subscription.activeFor input.userId) with
  | none =>
    have := find?_eq_none.1 hfind s mem
    contradiction
  | some found =>
    rw [one.unique (mem_of_find?_eq_some hfind) mem (find?_some hfind) active]
    simp only [Option.filter_some]
    rw [if_pos (by simpa using current)]
    rfl

/-- What a payment carries from its checkout on. -/
structure Payment.Sold (p : Payment) : Prop where
  amount : p.checkoutSnapshot.customerPaymentAmountMicroRub = p.amountMicroRub
  priced : 0 ≤ p.amountMicroRub
  planned : p.kind = .subscription → p.checkoutSnapshot.planVersionId.isSome

theorem SamePayment.sold {p : Payment} (same : SamePayment p q) (h : p.Sold) : q.Sold := by
  constructor
  · rw [same.snapshot, same.amount]
    exact h.amount
  · rw [same.amount]
    exact h.priced
  · rw [same.kind, same.snapshot]
    exact h.planned

theorem buildCheckoutSnapshot_planned {snapshot : CheckoutSnapshot}
    (h : buildCheckoutSnapshot catalog now input = .ok snapshot) (kind : input.kind = .subscription) :
    snapshot.planVersionId.isSome := by
  unfold buildCheckoutSnapshot at h
  rw [kind] at h
  simp only at h
  iterate 3
    split at h
    · cases h
  · cases h
    rfl

section
variable {fresh : FreshIds} {db db' : Db} {created : CreatedPayment}
  (h : createPendingPayment catalog now fresh input db = .ok (db', created))
include h

/-- A new payment carries the snapshot that was built for its checkout. -/
theorem createPendingPayment_built :
    db' = db ∨ ∃ payment, buildCheckoutSnapshot catalog now input = .ok payment.checkoutSnapshot ∧
      payment.kind = input.kind ∧
      payment.amountMicroRub = payment.checkoutSnapshot.customerPaymentAmountMicroRub ∧
      db.createPayment payment = .ok db' := by
  unfold createPendingPayment at h
  simp only [bind, Except.bind] at h
  split at h
  · cases h
  rename_i snapshot hsnapshot
  split at h
  · cases h
    exact .inl rfl
  · split at h
    · rename_i mid hcreate
      cases h
      exact .inr ⟨_, hsnapshot, rfl, rfl, hcreate⟩
    · split at h
      · cases h
        exact .inl rfl
      · cases h
    · cases h

theorem createPendingPayment_sold (sold : ∀ p ∈ db.payments, p.Sold) :
    ∀ p ∈ db'.payments, p.Sold := by
  rcases createPendingPayment_built h with rfl | ⟨payment, built, kind, amount, hcreate⟩
  · exact sold
  · obtain ⟨rfl, priced, -⟩ := createPayment_cases hcreate
    intro p hp
    rcases mem_append.1 hp with hp | hp
    · exact sold p hp
    · rw [mem_singleton.1 hp]
      exact ⟨amount.symm, priced, fun plan => buildCheckoutSnapshot_planned built (kind ▸ plan)⟩

end

theorem Rewrites.back {db' : Db} {f : Payment → Payment} {status : PaymentStatus}
    (h : Rewrites payment db db' f status) (mem : q ∈ db'.payments) :
    ∃ p ∈ db.payments, SamePayment p q ∧ (p.id ≠ payment.id → q = p) := by
  rw [h.payments] at mem
  obtain ⟨p, hp, rfl⟩ := Rows.mem_update.1 mem
  split
  · rename_i same
    exact ⟨p, hp, h.same p, fun other => absurd same other⟩
  · exact ⟨p, hp, .refl p, fun _ => rfl⟩

/-- The payment of an applied event is rewritten and no other. -/
theorem Applied.back {db' : Db} (h : Applied ctx payment event db db') (mem : q ∈ db'.payments) :
    ∃ p ∈ db.payments, SamePayment p q ∧ (p.id ≠ payment.id → q = p) := by
  obtain ⟨f, rewrites⟩ := h.rewrites
  exact rewrites.back mem

end Vimla.Billing
