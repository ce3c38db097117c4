import Vimla.Billing.PaymentMoves

/-!
# The engine and the status table

`processPaymentEvent` asks `nextDomainStatus` for some money events and has
transitions of its own for the others. On events that match their payment the
two agree, but for what the engine adds: a chargeback and a partial refund of a
subscription ask for reconciliation, an event of no money changes nothing, and
the kind of a refund is the event's type.
-/

namespace Vimla.Billing

open World Rows

/-- The table, with the transitions the engine has by design. -/
def designedStatus (kind : PaymentKind) (current : PaymentStatus) (event : PaymentEventInput) :
    PaymentStatus :=
  match moneyEventFromInput event with
  | .ignore => if event.eventType = .chargeback then .reconciliationRequired else current
  | .refunded | .partiallyRefunded =>
    if event.eventType ≠ .partiallyRefunded then (nextDomainStatus current .refunded).getD current
    else if kind = .subscription then .reconciliationRequired
    else (nextDomainStatus current .partiallyRefunded).getD current
  | money => (nextDomainStatus current money).getD current

/-- A refund of money that the payment still has: a full one of a payment that
was paid, a partial one of a payment that was not refunded in full. -/
def Refundable (payment : Payment) (event : PaymentEventInput) : Prop :=
  (moneyEventFromInput event = .refunded ∨ moneyEventFromInput event = .partiallyRefunded) →
    (event.eventType ≠ .partiallyRefunded → payment.status ≠ .created ∧ payment.status ≠ .pending ∧
      payment.status ≠ .failed ∧ payment.status ≠ .canceled) ∧
    (event.eventType = .partiallyRefunded → payment.kind = .topup →
      payment.status = .succeeded ∨ payment.status = .partiallyRefunded)

instance (payment : Payment) (event : PaymentEventInput) : Decidable (Refundable payment event) :=
  inferInstanceAs (Decidable (_ → _))

variable {payment : Payment} {db : Db}

theorem engineStatus_eq_designed {event : PaymentEventInput} (good : mismatched payment event = false)
    (refundable : Refundable payment event) (grantable : moneyEventFromInput event = .confirmed →
      payment.status = .created ∨ payment.status = .pending ∨ payment.status = .succeeded ∨
        payment.status = .refunded ∨ payment.status = .partiallyRefunded) :
    engineStatus payment event = designedStatus payment.kind payment.status event := by
  have refund (money : moneyEventFromInput event = .refunded ∨
      moneyEventFromInput event = .partiallyRefunded) :
      (if unsupportedRefund payment event then .reconciliationRequired else refundStatus event) =
        if event.eventType ≠ .partiallyRefunded then
          (nextDomainStatus payment.status .refunded).getD payment.status
        else if payment.kind = .subscription then .reconciliationRequired
        else (nextDomainStatus payment.status .partiallyRefunded).getD payment.status := by
    obtain ⟨full, part⟩ := refundable money
    by_cases type : event.eventType = .partiallyRefunded
    · cases hkind : payment.kind with
      | subscription => simp [unsupportedRefund, type, hkind]
      | topup =>
        have status := part type hkind
        simp [unsupportedRefund, refundStatus, nextDomainStatus, type, hkind, status]
    · obtain ⟨created, pending, failed, canceled⟩ := full type
      simp [unsupportedRefund, refundStatus, nextDomainStatus, type, created, pending, failed,
        canceled]
  unfold engineStatus designedStatus
  rw [good]
  cases money : moneyEventFromInput event with
  | confirmed =>
    rcases grantable money with e | e | e | e | e <;> simp [nextDomainStatus, e]
  | refunded => exact refund (.inl money)
  | partiallyRefunded => exact refund (.inr money)
  | failed | canceled | pending | ignore => rfl

/-- A committed event, or the tables as they were. -/
def Db.handle (db : Db) (call : PaymentContext × PaymentEventInput) : Db :=
  db.commit (processPaymentEvent call.1 call.2 db)

/-- The event is new and does not throw. -/
def Db.takes (db : Db) (call : PaymentContext × PaymentEventInput) : Bool :=
  !db.recorded call.2 && (processPaymentEvent call.1 call.2 db).isOk

/-- The events a run takes, in order. -/
def Db.taken (db : Db) : List (PaymentContext × PaymentEventInput) → List PaymentEventInput
  | [] => []
  | call :: calls =>
    if db.takes call then call.2 :: (db.handle call).taken calls else (db.handle call).taken calls

/-- The event is one of payment `id`, of its amount and provider payment id. -/
def Matches (id : Nat) (db : Db) (call : PaymentContext × PaymentEventInput) : Prop :=
  ∃ payment ∈ lockPaymentId db call.2, payment.id = id ∧ mismatched payment call.2 = false

/-- It matches, and if it is new refunds money the payment still has. -/
def Regular (id : Nat) (db : Db) (call : PaymentContext × PaymentEventInput) : Prop :=
  ∃ payment ∈ lockPaymentId db call.2, (payment.id = id ∧ mismatched payment call.2 = false) ∧
    (db.recorded call.2 = false → Refundable payment call.2)

instance (id : Nat) (db : Db) (call : PaymentContext × PaymentEventInput) :
    Decidable (Matches id db call) :=
  inferInstanceAs (Decidable (∃ _ ∈ _, _))

instance (id : Nat) (db : Db) (call : PaymentContext × PaymentEventInput) :
    Decidable (Regular id db call) :=
  inferInstanceAs (Decidable (∃ _ ∈ _, _))

def Db.paymentStatus (db : Db) (id : Nat) : Option PaymentStatus :=
  (find Payment.id id db.payments).map Payment.status

section
variable {ctx : PaymentContext} {payment : Payment} {event : PaymentEventInput} {db db' : Db}
  (h : Applied ctx payment event db db')
include h

/-- A confirmed event that is applied finds a payment it can grant or has granted. -/
theorem Applied.grantable (good : mismatched payment event = false)
    (money : moneyEventFromInput event = .confirmed) :
    payment.status = .created ∨ payment.status = .pending ∨ payment.status = .succeeded ∨
      payment.status = .refunded ∨ payment.status = .partiallyRefunded := by
  cases h with
  | mismatch bad => rw [good] at bad; cases bad
  | kept _ _ paid => exact .inr (.inr paid)
  | granted _ _ unpaid =>
    rcases unpaid with created | pending
    · exact .inl created
    · exact .inr (.inl pending)
  | refunded _ other => rw [money] at other; rcases other with e | e <;> cases e
  | moved _ moneyEvent other table =>
    rw [money] at other
    subst other
    rcases table with e | e | e <;> cases e
  | chargeback _ other | ignored _ other => rw [money] at other; cases other

end

theorem Rewrites.find {db' : Db} {f : Payment → Payment} {status : PaymentStatus}
    (h : Rewrites payment db db' f status) (keys : (db.payments.map Payment.id).Nodup)
    (known : payment ∈ db.payments) : (db'.payments.map Payment.id).Nodup ∧
      find Payment.id payment.id db'.payments = some (f payment) := by
  have keys' : (db'.payments.map Payment.id).Nodup := h.ids ▸ keys
  refine ⟨keys', find_eq_of_mem keys' ?_ (h.same payment).id⟩
  rw [h.payments]
  exact mem_update_self known rfl

/-- The step: an event that is taken moves its payment as the table says, any
other leaves it. -/
theorem handle_status {call : PaymentContext × PaymentEventInput} (keys : (db.payments.map Payment.id).Nodup)
    (found : find Payment.id payment.id db.payments = some payment) (regular : Regular payment.id db call) :
    ((db.handle call).payments.map Payment.id).Nodup ∧
      ∃ next, find Payment.id payment.id (db.handle call).payments = some next ∧
        next.id = payment.id ∧ next.kind = payment.kind ∧
        next.status = if db.takes call then designedStatus payment.kind payment.status call.2
          else payment.status := by
  obtain ⟨locked, lock, ⟨hid, good⟩, refundable⟩ := regular
  have known := lockPaymentId_mem lock
  have same : locked = payment := by
    have := find_eq_of_mem keys known hid
    rw [found] at this
    exact (Option.some.inj this).symm
  subst same
  have unmoved (untaken : db.takes call = false) (unchanged : db.handle call = db) :
      ((db.handle call).payments.map Payment.id).Nodup ∧
        ∃ next, find Payment.id locked.id (db.handle call).payments = some next ∧
          next.id = locked.id ∧ next.kind = locked.kind ∧
          next.status = if db.takes call then designedStatus locked.kind locked.status call.2
            else locked.status := by
    rw [unchanged, untaken]
    exact ⟨keys, locked, found, rfl, rfl, rfl⟩
  cases run : processPaymentEvent call.1 call.2 db with
  | error e =>
    apply unmoved
    · simp [Db.takes, run, Except.isOk, Except.toBool]
    · simp [Db.handle, run, Db.commit]
  | ok pair =>
    obtain ⟨db', result⟩ := pair
    have handled : db.handle call = db' := by simp [Db.handle, run, Db.commit]
    obtain ⟨locked', lock', ⟨recorded, rfl⟩ | ⟨new, applied⟩⟩ := processPaymentEvent_cases run
    · exact unmoved (by simp [Db.takes, recorded]) handled
    · rw [lock] at lock'
      cases lock'
      have takes : db.takes call = true := by
        simp [Db.takes, new, run, Except.isOk, Except.toBool]
      have designed := engineStatus_eq_designed good (refundable new) (applied.grantable good)
      obtain ⟨f, rewrites⟩ := applied.rewrites
      have noted : (db.note call.2 locked).payments = db.payments := rfl
      obtain ⟨keys', found'⟩ := rewrites.find (noted ▸ keys) known
      rw [handled, takes, if_pos rfl, ← designed]
      have own := rewrites.same locked
      exact ⟨keys', f locked, found', own.id, own.kind, rewrites.status⟩

/-- The status of a payment after any sequence of matching events is the fold of
the table over the events taken. -/
theorem status_follows_table (db : Db) (keys : (db.payments.map Payment.id).Nodup)
    (payment : Payment) (found : find Payment.id payment.id db.payments = some payment)
    (calls : List (PaymentContext × PaymentEventInput))
    (regular : Runs.Along Db.handle (Regular payment.id) db calls) :
    (calls.foldl Db.handle db).paymentStatus payment.id =
      some ((db.taken calls).foldl (designedStatus payment.kind) payment.status) := by
  induction calls generalizing db payment with
  | nil => simp [Db.paymentStatus, Db.taken, found]
  | cons call calls ih =>
    obtain ⟨now, later⟩ := regular
    obtain ⟨keys', next, found', hid, kind, status⟩ := handle_status keys found now
    rw [← hid] at found' later ⊢
    have rest := ih (db.handle call) keys' next found' later
    simp only [List.foldl_cons, Db.taken]
    rw [rest, kind, status]
    split <;> rfl

open FirstRun in
/-- Confirmed, refunded, and the refund again: the duplicate changes nothing. -/
theorem status_follows_table_first_run :
    ([(context, event "confirmed" .succeeded), (context, event "refunded" .refunded),
        (context, event "refunded" .refunded)].foldl Db.handle
      (empty.run [topup]).db).paymentStatus 0 =
    some ([event "confirmed" .succeeded, event "refunded" .refunded].foldl
      (designedStatus .topup) .created) :=
  status_follows_table (empty.run [topup]).db (by decide +kernel) openedTopup (by decide +kernel)
    _ (by decide +kernel)

/-- The table alone. -/
def tableStatus (current : PaymentStatus) (event : PaymentEventInput) : PaymentStatus :=
  (nextDomainStatus current (moneyEventFromInput event)).getD current

open FirstRun in
/-- A chargeback is in no row of the table, and the engine does not stop the
refund of a payment that was never paid. -/
theorem status_beyond_table :
    (empty.run [topup]).db.paymentStatus 0 = some .created ∧
    (Runs.Along Db.handle (Matches 0) (empty.run [topup]).db
        [(context, event "confirmed" .succeeded), (context, event "chargeback" .chargeback)] ∧
      ([(context, event "confirmed" .succeeded), (context, event "chargeback" .chargeback)].foldl
        Db.handle (empty.run [topup]).db).paymentStatus 0 = some .reconciliationRequired ∧
      [event "confirmed" .succeeded, event "chargeback" .chargeback].foldl tableStatus .created =
        .succeeded) ∧
    Runs.Along Db.handle (Matches 0) (empty.run [topup]).db
        [(context, event "refunded" .refunded)] ∧
      ([(context, event "refunded" .refunded)].foldl Db.handle
        (empty.run [topup]).db).paymentStatus 0 = some .refunded ∧
      [event "refunded" .refunded].foldl tableStatus .created = .canceled := by
  decide +kernel

end Vimla.Billing
