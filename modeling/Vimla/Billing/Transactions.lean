import Vimla.Billing.Payment
import Vimla.Billing.Usage
import Vimla.Lib.Runs

/-!
# Runs of the engine

Transactions commit one after another: the row locks serialise those that
touch the same rows. One that throws leaves the tables as they were.
-/

namespace Vimla.Billing

inductive Op
  | reserveUsage (now : Int) (input : ReserveInput)
  | settleUsage (clock : SettleClock) (input : SettleInput)
  | releaseUsage (now : Int) (input : ReleaseInput)
  | processPaymentEvent (ctx : PaymentContext) (event : PaymentEventInput)
  | createPendingPayment (catalog : Catalog) (now : Int) (fresh : FreshIds)
      (input : CreatePaymentInput)
  | attachProviderCheckout (input : AttachInput)
  | beginHostedCheckout (paymentId : Nat)
  | finishHostedCheckout (paymentId : Nat) (checkout : HostedCheckout)
  | abortHostedCheckout (paymentId : Nat)

/-- The tables, and the payments whose checkout waits for the provider. Each of
these holds the payment's advisory lock. -/
structure World where
  db : Db
  initializing : List Nat

def Db.commit {α : Type} (db : Db) (tx : Except TxError (Db × α)) : Db :=
  match tx with
  | .ok (db', _) => db'
  | .error _ => db

def Db.commitWrite (db : Db) (tx : Except TxError Db) : Db :=
  match tx with
  | .ok db' => db'
  | .error _ => db

namespace World

def step (w : World) : Op → World
  | .reserveUsage now input => { w with db := w.db.commit (reserveUsage now input w.db) }
  | .settleUsage clock input => { w with db := w.db.commit (settleUsage clock input w.db) }
  | .releaseUsage now input => { w with db := w.db.commit (releaseUsage now input w.db) }
  | .processPaymentEvent ctx event =>
    { w with db := w.db.commit (processPaymentEvent ctx event w.db) }
  | .createPendingPayment catalog now fresh input =>
    { w with db := w.db.commit (createPendingPayment catalog now fresh input w.db) }
  | .attachProviderCheckout input =>
    { w with db := w.db.commitWrite (attachProviderCheckout input w.db) }
  | .beginHostedCheckout paymentId =>
    match decide (paymentId ∈ w.initializing), beginHostedCheckout paymentId w.db with
    | false, .ok none => { w with initializing := paymentId :: w.initializing }
    | _, _ => w
  | .finishHostedCheckout paymentId checkout =>
    if paymentId ∈ w.initializing then
      ⟨w.db.commitWrite (finishHostedCheckout paymentId checkout w.db),
        w.initializing.erase paymentId⟩
    else w
  | .abortHostedCheckout paymentId => { w with initializing := w.initializing.erase paymentId }

def run (w : World) (ops : List Op) : World := ops.foldl step w

@[simp] theorem run_cons (w : World) (op : Op) (ops : List Op) :
    w.run (op :: ops) = (w.step op).run ops := rfl

/-- A new installation. -/
def empty : World := ⟨⟨0, [], [], [], [], [], [], [], []⟩, []⟩

theorem run_append (w : World) (ops ops' : List Op) : w.run (ops ++ ops') = (w.run ops).run ops' :=
  List.foldl_append

end World

/-- The operation records `checkout` on `payment`. -/
def Op.Records (payment : Payment) (checkout : HostedCheckout) : Op → Prop
  | .attachProviderCheckout input => payment.id = input.paymentId ∧
      payment.userId = input.userId ∧ checkout = input.checkout
  | .finishHostedCheckout paymentId given => payment.id = paymentId ∧ checkout = given
  | _ => False

/-- What a committed step does to the tables is done by its transaction; the
other steps leave them alone. -/
inductive Commits (db : Db) : Op → Db → Prop
  | reserve (now : Int) (input : ReserveInput) (db' : Db) (view : ReservationView)
    (run : reserveUsage now input db = .ok (db', view)) : Commits db (.reserveUsage now input) db'
  | settle (clock : SettleClock) (input : SettleInput) (db' : Db) (view : ReservationView)
    (run : settleUsage clock input db = .ok (db', view)) : Commits db (.settleUsage clock input) db'
  | release (now : Int) (input : ReleaseInput) (db' : Db) (view : ReservationView)
    (run : releaseUsage now input db = .ok (db', view)) : Commits db (.releaseUsage now input) db'
  | event (ctx : PaymentContext) (event : PaymentEventInput) (db' : Db)
    (result : ProcessPaymentResult) (run : processPaymentEvent ctx event db = .ok (db', result)) :
    Commits db (.processPaymentEvent ctx event) db'
  | create (catalog : Catalog) (now : Int) (fresh : FreshIds) (input : CreatePaymentInput) (db' : Db)
    (created : CreatedPayment)
    (run : createPendingPayment catalog now fresh input db = .ok (db', created)) :
    Commits db (.createPendingPayment catalog now fresh input) db'
  | checkout (op : Op) (payment : Payment) (known : payment ∈ db.payments)
    (checkout : HostedCheckout) (records : op.Records payment checkout) (db' : Db)
    (run : db.recordCheckout payment checkout = .ok db') : Commits db op db'

theorem commit_eq {α : Type} (db : Db) (tx : Except TxError (Db × α)) :
    db.commit tx = db ∨ ∃ db' result, tx = .ok (db', result) ∧ db.commit tx = db' := by
  cases tx with
  | error e => exact .inl rfl
  | ok pair => exact .inr ⟨pair.1, pair.2, rfl, rfl⟩

theorem commitWrite_eq (db : Db) (tx : Except TxError Db) :
    db.commitWrite tx = db ∨ ∃ db', tx = .ok db' ∧ db.commitWrite tx = db' := by
  cases tx with
  | error e => exact .inl rfl
  | ok db' => exact .inr ⟨db', rfl, rfl⟩

theorem attachProviderCheckout_cases {input : AttachInput} {db db' : Db}
    (h : attachProviderCheckout input db = .ok db') :
    ∃ payment ∈ db.payments, payment.id = input.paymentId ∧ payment.userId = input.userId ∧
      db.recordCheckout payment input.checkout = .ok db' := by
  unfold attachProviderCheckout at h
  split at h
  · cases h
  rename_i payment hfind
  have := List.find?_some hfind
  simp only [decide_eq_true_eq] at this
  exact ⟨payment, List.mem_of_find?_eq_some hfind, this.1, this.2, h⟩

theorem finishHostedCheckout_cases {paymentId : Nat} {checkout : HostedCheckout} {db db' : Db}
    (h : finishHostedCheckout paymentId checkout db = .ok db') :
    ∃ payment ∈ db.payments, payment.id = paymentId ∧
      db.recordCheckout payment checkout = .ok db' := by
  unfold finishHostedCheckout at h
  split at h
  · cases h
  rename_i payment hfind
  obtain ⟨hmem, hid⟩ := Rows.mem_of_find hfind
  exact ⟨payment, hmem, hid, h⟩

theorem World.step_cases (w : World) (op : Op) :
    (w.step op).db = w.db ∨ Commits w.db op (w.step op).db := by
  cases op with
  | reserveUsage now input =>
    rcases commit_eq w.db (reserveUsage now input w.db) with same | ⟨db', view, run, e⟩
    · exact .inl same
    · simp only [step, e]
      exact .inr (.reserve now input db' view run)
  | settleUsage clock input =>
    rcases commit_eq w.db (settleUsage clock input w.db) with same | ⟨db', view, run, e⟩
    · exact .inl same
    · simp only [step, e]
      exact .inr (.settle clock input db' view run)
  | releaseUsage now input =>
    rcases commit_eq w.db (releaseUsage now input w.db) with same | ⟨db', view, run, e⟩
    · exact .inl same
    · simp only [step, e]
      exact .inr (.release now input db' view run)
  | processPaymentEvent ctx event =>
    rcases commit_eq w.db (processPaymentEvent ctx event w.db) with same | ⟨db', result, run, e⟩
    · exact .inl same
    · simp only [step, e]
      exact .inr (.event ctx event db' result run)
  | createPendingPayment catalog now fresh input =>
    rcases commit_eq w.db (createPendingPayment catalog now fresh input w.db) with
      same | ⟨db', created, run, e⟩
    · exact .inl same
    · simp only [step, e]
      exact .inr (.create catalog now fresh input db' created run)
  | attachProviderCheckout input =>
    rcases commitWrite_eq w.db (Billing.attachProviderCheckout input w.db) with same | ⟨db', run, e⟩
    · exact .inl same
    · obtain ⟨payment, known, hid, user, write⟩ := attachProviderCheckout_cases run
      simp only [step, e]
      exact .inr (.checkout (.attachProviderCheckout input) payment known input.checkout
        ⟨hid, user, rfl⟩ db' write)
  | beginHostedCheckout paymentId =>
    simp only [step]
    split <;> exact .inl rfl
  | finishHostedCheckout paymentId checkout =>
    simp only [step]
    split
    · rcases commitWrite_eq w.db (Billing.finishHostedCheckout paymentId checkout w.db) with
        same | ⟨db', run, e⟩
      · exact .inl same
      · obtain ⟨payment, known, hid, write⟩ := finishHostedCheckout_cases run
        simp only [e]
        exact .inr (.checkout (.finishHostedCheckout paymentId checkout) payment known checkout
          ⟨hid, rfl⟩ db' write)
    · exact .inl rfl
  | abortHostedCheckout paymentId => exact .inl rfl

/-- An invariant of the transactions is an invariant of runs. -/
theorem World.run_invariant {P : Db → Prop} (preserved : ∀ db op db', Commits db op db' → P db → P db')
    (w : World) (ops : List Op) (start : P w.db) : P (w.run ops).db := by
  apply Runs.invariant (P := fun w : World => P w.db) _ ops start
  intro s op h
  rcases s.step_cases op with same | commits
  · rw [same]
    exact h
  · exact preserved _ _ _ commits h

/-! ## A first run

User 7 tops up two roubles, of which half may be spent, and reserves some of it. -/

namespace FirstRun

def policy : BillingPolicy := ⟨10000, 10000000, 5000, 30⟩

def catalog : Catalog := ⟨policy, [], []⟩

def context : PaymentContext := ⟨policy, [], [], none, 0, 0, 0⟩

def topup : Op := .createPendingPayment catalog 0 ⟨"", ""⟩ {
  userId := 7
  provider := "tbank"
  providerOrderId := some "order"
  idempotencyKey := some "key"
  kind := .topup
  amountMicroRub := 2000000
  status := some .created }

/-- The payment it opens. -/
def openedTopup : Payment where
  id := 0
  userId := 7
  provider := "tbank"
  providerPaymentId := none
  providerOrderId := "order"
  providerStatus := none
  paymentUrl := none
  kind := .topup
  amountMicroRub := 2000000
  status := .created
  planVersionId := none
  topupPolicyVersionId := none
  paymentMethod := none
  rawProviderPaymentMethod := none
  idempotencyKey := "key"
  checkoutSnapshot := {
    kind := .topup
    customerPaymentAmountMicroRub := 2000000
    providerBudgetGrantMicroRub := 1000000
    topupRatioBps := some 5000 }
  grantedBucketId := none
  grantedSubscriptionId := none
  fulfilledAt := none
  createdAt := 0

/-- An event of the payment, as the provider would send it. -/
def event (id : String) (eventType : PaymentEventType) : PaymentEventInput where
  provider := "tbank"
  providerEventId := id
  orderId := some "order"
  eventType := eventType
  amountMicroRub := some 2000000

/-- A plan sold for two roubles that grants one. -/
def plans : Catalog := ⟨policy, [], [⟨1, 2000000, 1000000, 30⟩]⟩

def subscription : Op := .createPendingPayment plans 0 ⟨"", ""⟩ {
  userId := 7
  provider := "tbank"
  providerOrderId := some "order"
  idempotencyKey := some "key"
  kind := .subscription
  amountMicroRub := 2000000
  planVersionId := some 1
  status := some .created }

/-- A checkout the provider recovered by its order: the page's URL is unknown. -/
def recovered : List Op :=
  [.beginHostedCheckout 0, .finishHostedCheckout 0 ⟨"payment", "", none⟩]

def confirmed : Op := .processPaymentEvent context (event "confirmed" .succeeded)

def reserve : Op := .reserveUsage 1 ⟨7, "request", 600000, none⟩

def settle (actualMicroRub : Int) : Op :=
  .settleUsage ⟨2, 2, Int.le_refl 2⟩ ⟨7, 2, actualMicroRub, none⟩

end FirstRun

end Vimla.Billing
