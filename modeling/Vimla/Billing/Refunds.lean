import Vimla.Billing.ProviderResponses
import Vimla.Billing.PaymentMoves

/-!
# Refunds in a payment's economics

Every step may report a refund that the provider performed. Where one event id
stands for one refund, the economics of a payment count each reported refund
once. Refunds that the engine leaves to reconciliation are not counted.
-/

namespace Vimla.Billing

open List Rows World

/-- What the economics of a payment say about its money. -/
structure Account where
  paymentId : Nat
  grossAmountMicroRub : Int
  refundedAmountMicroRub : Int
  deriving DecidableEq

def PaymentEconomics.account (row : PaymentEconomics) : Account :=
  ⟨row.paymentId, row.grossAmountMicroRub, row.refundedAmountMicroRub⟩

def Db.accounts (db : Db) : List Account := db.economics.map PaymentEconomics.account

def Account.refund (amount : Int) (a : Account) : Account :=
  { a with refundedAmountMicroRub := a.refundedAmountMicroRub + amount }

def IsRefund (event : PaymentEventInput) : Prop :=
  moneyEventFromInput event = .refunded ∨ moneyEventFromInput event = .partiallyRefunded

/-- The refunds the engine leaves to reconciliation: of an event that does not
match, of part of a subscription, of a payment without economics, and of a part
whose amount the event does not carry. -/
def SetAside (db : Db) (payment : Payment) (event : PaymentEventInput) : Prop :=
  mismatched payment event = true ∨ unsupportedRefund payment event ∨
    (∀ a ∈ db.accounts, a.paymentId ≠ payment.id) ∨
    (event.eventType = .partiallyRefunded ∧ event.refundAmountMicroRub = none)

instance (event : PaymentEventInput) : Decidable (IsRefund event) :=
  inferInstanceAs (Decidable (_ ∨ _))

instance (db : Db) (payment : Payment) (event : PaymentEventInput) :
    Decidable (SetAside db payment event) :=
  inferInstanceAs (Decidable (_ ∨ _))

variable {amount : Int}

/-- What is booked shows in the account. -/
theorem Booked.accounts {id : Nat} {rows rows' : List PaymentEconomics}
    (keys : ((rows.map PaymentEconomics.account).map Account.paymentId).Nodup) (h : Booked id amount rows rows') :
    rows'.map PaymentEconomics.account =
      update Account.paymentId id (Account.refund amount) (rows.map PaymentEconomics.account) := by
  cases h with
  | absent absent =>
    symm
    apply update_eq_self
    intro a ha
    obtain ⟨row, hrow, rfl⟩ := mem_map.1 ha
    exact absent row hrow
  | added existing known own =>
    simp only [update, map_map]
    apply map_congr_left
    intro row hrow
    by_cases mine : row.paymentId = id
    · have same : row.account = existing.account :=
        eq_of_key keys (mem_map_of_mem hrow) (mem_map_of_mem known) (mine.trans own.symm)
      have refunded : row.refundedAmountMicroRub = existing.refundedAmountMicroRub :=
        congrArg Account.refundedAmountMicroRub same
      simp [mine, PaymentEconomics.account, Account.refund, refunded]
    · simp [mine, PaymentEconomics.account]

theorem Account.refund_zero : Account.refund 0 = id := by
  funext a
  simp [Account.refund]

variable {payment : Payment}

/-- An applied event that is counted adds its amount to the account of its
payment. Any other changes no account; a grant may open one. -/
theorem Applied.accounts {ctx : PaymentContext} {event : PaymentEventInput}
    {db db' : Db} (keys : (db.accounts.map Account.paymentId).Nodup)
    (h : Applied ctx payment event db db') : (IsRefund event → ¬ SetAside db payment event →
      db'.accounts = update Account.paymentId payment.id
        (Account.refund (refundedAmount payment event)) db.accounts) ∧
    (¬ (IsRefund event ∧ ¬ SetAside db payment event) →
      db'.accounts = db.accounts ∨ ((∀ a ∈ db.accounts, a.paymentId ≠ payment.id) ∧
        db'.accounts = db.accounts ++ [⟨payment.id, payment.amountMicroRub, 0⟩])) := by
  cases h.written with
  | noted _ _ _ _ _ _ g same aside rows =>
    have kept : db'.accounts = db.accounts := by
      rw [rows, Db.accounts, map_map]
      refine map_congr_left fun row _ => ?_
      obtain ⟨id, gross, refunded⟩ := same row
      rw [Function.comp_apply, PaymentEconomics.account, id, gross, refunded]
      rfl
    refine ⟨fun refund counted => absurd ?_ counted, fun _ => .inl kept⟩
    rcases aside refund with bad | unsupported
    · exact .inl bad
    · exact .inr (.inl unsupported)
  | granted good money unpaid granted grant run economics =>
    obtain ⟨bucket, entry, subscriptions, granting⟩ := grantFromSucceededPayment_granting run
    have rows : granted.economics = db.economics := by rw [granting.rows]
    refine ⟨fun refund => absurd refund (by simp [IsRefund, money]), fun _ => ?_⟩
    rcases ensurePaymentEconomics_cases economics with ⟨-, rfl⟩ | ⟨absent, row, rfl, hid, gross, zero⟩
    · left
      simp [Db.accounts, Db.updatePayment, rows]
    · right
      constructor
      · intro a ha
        obtain ⟨other, hother, rfl⟩ := mem_map.1 ha
        exact absent other (by simpa [Db.updatePayment, rows] using hother)
      · simp only [Db.accounts, Db.updatePayment, rows, map_append, map_cons, map_nil,
          PaymentEconomics.account, hid, gross, zero]
  | refunded good money supported _ _ _ _ _ economics booked rows =>
    have added : db'.accounts = update Account.paymentId payment.id (Account.refund (refundedAmount payment event))
        db.accounts := by
      rw [rows]
      exact booked.accounts keys
    refine ⟨fun _ _ => added, fun uncounted => .inl ?_⟩
    rw [added]
    have aside : SetAside db payment event := by
      by_contra counted
      exact uncounted ⟨money, counted⟩
    rcases aside with bad | unsupported | absent | ⟨part, missing⟩
    · rw [good] at bad
      cases bad
    · exact absurd unsupported supported
    · exact update_eq_self absent
    · have zero : refundedAmount payment event = 0 := by simp [refundedAmount, part, missing]
      rw [zero, Account.refund_zero]
      simp [update]

/-- A refund that the provider performed. -/
structure Refund where
  id : String
  amountMicroRub : Int
  deriving DecidableEq

/-- A step, and the refund that its event reports. -/
structure Report where
  op : Op
  refund : Option Refund

/-- The engine, and the refunds of one payment reported to it so far. -/
structure Books where
  world : World
  reported : List Refund

/-- The refund event of payment `id` that the step commits, unless it is set
aside. -/
def Db.refundEvent (db : Db) (id : Nat) : Op → Option (Payment × PaymentEventInput)
  | .processPaymentEvent ctx event => (lockPaymentId db event).bind fun payment =>
      if payment.id = id ∧ IsRefund event ∧ ¬ SetAside db payment event ∧
          (processPaymentEvent ctx event db).isOk = true then
        some (payment, event)
      else none
  | _ => none

def Books.step (id : Nat) (s : Books) (r : Report) : Books where
  world := s.world.step r.op
  reported :=
    match s.world.db.refundEvent id r.op, r.refund with
    | some _, some refund =>
      if refund ∈ s.reported then s.reported else s.reported ++ [refund]
    | _, _ => s.reported

/-- One event id stands for one refund: the event is a duplicate just when its
refund was reported before. A first report carries the refund's amount. -/
def OneEvent (id : Nat) (performed : List Refund) (s : Books) (r : Report) : Prop :=
  ∀ call ∈ s.world.db.refundEvent id r.op, ∃ refund ∈ performed, r.refund = some refund ∧
    (refund ∈ s.reported ↔ s.world.db.recorded call.2 = true) ∧
    (refund ∉ s.reported → refundedAmount call.1 call.2 = refund.amountMicroRub)

instance (id : Nat) (performed : List Refund) (s : Books) (r : Report) :
    Decidable (OneEvent id performed s r) :=
  inferInstanceAs (Decidable (∀ _ ∈ _, _))

/-- The account of payment `id` shows the refunds reported, each once. -/
structure Counted (id : Nat) (performed : List Refund) (s : Books) : Prop where
  balanced : Balanced s.world.db .none
  payments : PaymentKeys s.world.db
  keys : (s.world.db.accounts.map Account.paymentId).Nodup
  gross : ∀ a ∈ s.world.db.accounts, ∃ p ∈ s.world.db.payments, p.id = a.paymentId ∧
    p.amountMicroRub = a.grossAmountMicroRub
  distinct : s.reported.Nodup
  real : ∀ refund ∈ s.reported, refund ∈ performed
  sum : ∀ a ∈ s.world.db.accounts, a.paymentId = id →
    a.refundedAmountMicroRub = total Refund.amountMicroRub s.reported
  unopened : (∀ a ∈ s.world.db.accounts, a.paymentId ≠ id) → s.reported = []

variable {id : Nat} {performed : List Refund} {s s' : Books}

section
variable (h : Counted id performed s) (balanced : Balanced s'.world.db .none) (payments : PaymentKeys s'.world.db)
  (kept : PaymentsKept s.world.db s'.world.db)
include h balanced payments kept

/-- A step that changes no account and reports nothing. -/
theorem Counted.frame (accounts : s'.world.db.accounts = s.world.db.accounts) (reported : s'.reported = s.reported) :
    Counted id performed s' := by
  refine ⟨balanced, payments, ?_, ?_, ?_, ?_, ?_, ?_⟩
  · rw [accounts]
    exact h.keys
  · rw [accounts]
    intro a ha
    obtain ⟨p, hp, hid, amount⟩ := h.gross a ha
    obtain ⟨q, hq, same⟩ := kept p hp
    exact ⟨q, hq, same.id.trans hid, same.amount.trans amount⟩
  · rw [reported]
    exact h.distinct
  · rw [reported]
    exact h.real
  · rw [accounts, reported]
    exact h.sum
  · rw [accounts, reported]
    exact h.unopened

/-- A grant opens an account with nothing refunded. -/
theorem Counted.opened (known : payment ∈ s.world.db.payments)
    (absent : ∀ a ∈ s.world.db.accounts, a.paymentId ≠ payment.id)
    (accounts : s'.world.db.accounts = s.world.db.accounts ++ [⟨payment.id, payment.amountMicroRub, 0⟩])
    (reported : s'.reported = s.reported) : Counted id performed s' := by
  refine ⟨balanced, payments, ?_, ?_, ?_, ?_, ?_, ?_⟩
  · rw [accounts]
    exact nodup_append h.keys absent
  · rw [accounts]
    intro a ha
    rcases mem_append.1 ha with ha | ha
    · obtain ⟨p, hp, hid, amount⟩ := h.gross a ha
      obtain ⟨q, hq, same⟩ := kept p hp
      exact ⟨q, hq, same.id.trans hid, same.amount.trans amount⟩
    · obtain ⟨q, hq, same⟩ := kept payment known
      rw [mem_singleton.1 ha]
      exact ⟨q, hq, same.id, same.amount⟩
  · rw [reported]
    exact h.distinct
  · rw [reported]
    exact h.real
  · rw [accounts, reported]
    intro a ha own
    rcases mem_append.1 ha with ha | ha
    · exact h.sum a ha own
    · rw [mem_singleton.1 ha] at own ⊢
      rw [h.unopened (own ▸ absent)]
      rfl
  · rw [accounts, reported]
    intro none
    exact h.unopened fun a ha => none a (mem_append_left _ ha)

/-- A report adds its refund to one account. -/
theorem Counted.refunded {o : Nat} {more : List Refund}
    (accounts : s'.world.db.accounts = update Account.paymentId o (Account.refund amount) s.world.db.accounts)
    (reported : s'.reported = s.reported ++ more) (distinct : (s.reported ++ more).Nodup) (real : ∀ refund ∈ more, refund ∈ performed)
    (carried : total Refund.amountMicroRub more = if id = o then amount else 0)
    (opened : (∀ a ∈ s.world.db.accounts, a.paymentId ≠ id) → more = []) : Counted id performed s' := by
  have ids : s'.world.db.accounts.map Account.paymentId = s.world.db.accounts.map Account.paymentId := by
    rw [accounts]
    exact map_update fun _ => rfl
  refine ⟨balanced, payments, ids ▸ h.keys, ?_, reported ▸ distinct, ?_, ?_, ?_⟩
  · rw [accounts]
    intro a ha
    obtain ⟨b, hb, rfl⟩ := mem_update.1 ha
    obtain ⟨p, hp, hid, amount⟩ := h.gross b hb
    obtain ⟨q, hq, same⟩ := kept p hp
    refine ⟨q, hq, ?_, ?_⟩
    · split <;> exact same.id.trans hid
    · split <;> exact same.amount.trans amount
  · rw [reported]
    exact fun ρ hρ => (mem_append.1 hρ).elim (h.real ρ) (real ρ)
  · rw [accounts, reported]
    intro a ha own
    obtain ⟨b, hb, rfl⟩ := mem_update.1 ha
    have hid : b.paymentId = id := by
      split at own <;> exact own
    rw [total_append, carried, hid]
    split
    · simp [Account.refund, h.sum b hb hid]
    · rw [h.sum b hb hid, Int.add_zero]
  · intro none
    have none : ∀ a ∈ s.world.db.accounts, a.paymentId ≠ id := by
      intro a ha hid
      obtain ⟨b, hb, hid⟩ := mem_map.1 (ids ▸ mem_map_of_mem ha : a.paymentId ∈ s'.world.db.accounts.map Account.paymentId)
      exact none b hb (hid.trans ‹a.paymentId = id›)
    rw [reported, h.unopened none, opened none, nil_append]

end

/-- A step that is no event of a payment. -/
theorem Counted.step_other (h : Counted id performed s) {r : Report}
    (other : ∀ ctx event, r.op ≠ .processPaymentEvent ctx event) :
    Counted id performed (s.step id r) := by
  have nothing : s.world.db.refundEvent id r.op = none := by
    cases hop : r.op with
    | processPaymentEvent ctx event => exact absurd hop (other ctx event)
    | _ => rfl
  have reported : (s.step id r).reported = s.reported := by simp [Books.step, nothing]
  have balanced := step_balanced h.balanced r.op
  rcases s.world.step_cases r.op with same | commits
  · exact h.frame balanced (by rw [Books.step, same]; exact h.payments)
      (by rw [Books.step, same]; exact fun p hp => ⟨p, hp, .refl p⟩)
      (by rw [Books.step, same]) reported
  have move := commits.move h.balanced
  apply h.frame balanced (move.keys h.payments) move.kept _ reported
  rw [Books.step]
  obtain ⟨ctx, event, _, hop, -⟩ | ⟨-, -, same⟩ := move.event_or_kept
  · exact absurd hop (other ctx event)
  · exact congrArg (map _) same

/-- The step lemma: an event throws, is a duplicate, or is counted. -/
theorem Counted.step (h : Counted id performed s) {r : Report} (one : OneEvent id performed s r) :
    Counted id performed (s.step id r) := by
  by_cases other : ∀ ctx event, r.op ≠ .processPaymentEvent ctx event
  · exact h.step_other other
  obtain ⟨ctx, event, hop⟩ : ∃ ctx event, r.op = .processPaymentEvent ctx event := by
    simpa using other
  have balanced := step_balanced h.balanced r.op
  have stays (unchanged : (s.step id r).world.db = s.world.db)
      (reported : (s.step id r).reported = s.reported) : Counted id performed (s.step id r) :=
    h.frame balanced (unchanged ▸ h.payments)
      (by rw [unchanged]; exact fun p hp => ⟨p, hp, .refl p⟩) (by rw [unchanged]) reported
  cases run : processPaymentEvent ctx event s.world.db with
  | error e =>
    have nothing : s.world.db.refundEvent id r.op = none := by
      simp [hop, Db.refundEvent, run, Except.isOk, Except.toBool]
    apply stays
    · simp [Books.step, hop, World.step, run, Db.commit]
    · simp [Books.step, nothing]
  | ok pair =>
    obtain ⟨db', result⟩ := pair
    have stepped : (s.step id r).world.db = db' := by
      simp [Books.step, hop, World.step, run, Db.commit]
    obtain ⟨payment, lock, cases⟩ := processPaymentEvent_cases run
    have refundEvent : s.world.db.refundEvent id r.op =
        if payment.id = id ∧ IsRefund event ∧ ¬ SetAside s.world.db payment event then
          some (payment, event) else none := by
      simp [hop, Db.refundEvent, lock, run, Except.isOk, Except.toBool]
    rcases cases with ⟨recorded, rfl⟩ | ⟨new, applied⟩
    · apply stays stepped
      by_cases counted : payment.id = id ∧ IsRefund event ∧ ¬ SetAside s.world.db payment event
      · rw [if_pos counted] at refundEvent
        obtain ⟨refund, real, given, known, -⟩ := one _ refundEvent
        simp [Books.step, refundEvent, given, known.2 recorded]
      · rw [if_neg counted] at refundEvent
        simp [Books.step, refundEvent]
    have move : PaymentMove s.world.db r.op db' := by
      rw [hop]
      exact .taken ctx event payment lock new db' applied
    have keys : PaymentKeys (s.step id r).world.db := stepped ▸ move.keys h.payments
    have kept : PaymentsKept s.world.db (s.step id r).world.db := stepped ▸ move.kept
    have noted : ((s.world.db.note event payment).accounts.map Account.paymentId).Nodup := h.keys
    obtain ⟨adds, opens⟩ := applied.accounts noted
    rw [← stepped] at adds opens
    by_cases counted : IsRefund event ∧ ¬ SetAside s.world.db payment event
    · have added := adds counted.1 counted.2
      by_cases own : payment.id = id
      · rw [if_pos ⟨own, counted⟩] at refundEvent
        obtain ⟨refund, real, given, known, amount⟩ := one _ refundEvent
        have first : refund ∉ s.reported := by
          intro again
          have := known.1 again
          rw [new] at this
          cases this
        have opened : ∃ a ∈ s.world.db.accounts, a.paymentId = id := by
          by_contra none
          refine counted.2 (.inr (.inr (.inl ?_)))
          intro a ha hid
          exact none ⟨a, ha, hid.trans own⟩
        rw [own, amount first] at added
        have fresh : (s.reported ++ [refund]).Nodup := nodup_append.2 ⟨h.distinct, nodup_singleton refund, by
          rintro ρ hρ τ hτ rfl
          exact first (mem_singleton.1 hτ ▸ hρ)⟩
        refine h.refunded balanced keys kept added ?_ fresh (by simpa using real) (by simp) fun none => ?_
        · simp [Books.step, refundEvent, given, first]
        · obtain ⟨a, ha, hid⟩ := opened
          exact absurd hid (none a ha)
      · rw [if_neg fun all => own all.1] at refundEvent
        have distinct : (s.reported ++ ([] : List Refund)).Nodup := by simpa using h.distinct
        refine h.refunded balanced keys kept added ?_ distinct (by simp) ?_ fun _ => rfl
        · simp [Books.step, refundEvent]
        · rw [if_neg (Ne.symm own), total_nil]
    · rw [if_neg fun all => counted all.2] at refundEvent
      have reported : (s.step id r).reported = s.reported := by simp [Books.step, refundEvent]
      rcases opens counted with same | ⟨absent, opened⟩
      · exact h.frame balanced keys kept same reported
      · exact h.opened balanced keys kept (lockPaymentId_mem lock) absent opened reported

/-- What the provider performed for one payment: refunds with amounts, no more
than was paid in all. -/
structure Performed (performed : List Refund) (paidMicroRub : Int) : Prop where
  distinct : performed.Nodup
  amounts : ∀ refund ∈ performed, 0 ≤ refund.amountMicroRub
  atMost : total Refund.amountMicroRub performed ≤ paidMicroRub

/-- Where one event id stands for one refund, the economics of a payment show
the refunds reported, each once, and never more than was paid. -/
theorem refunds_counted_once (w : World) (opening : Opening w.db) (start : BeforePayments w.db)
    (id : Nat) (performed : List Refund) (reports : List Report)
    (once : Runs.Along (Books.step id) (OneEvent id performed) ⟨w, []⟩ reports) :
    ∀ row ∈ (reports.foldl (Books.step id) ⟨w, []⟩).world.db.economics, row.paymentId = id →
      row.refundedAmountMicroRub = total Refund.amountMicroRub
        (reports.foldl (Books.step id) ⟨w, []⟩).reported ∧
      (∃ p ∈ (reports.foldl (Books.step id) ⟨w, []⟩).world.db.payments, p.id = id ∧
        p.amountMicroRub = row.grossAmountMicroRub) ∧
      (Performed performed row.grossAmountMicroRub →
        row.refundedAmountMicroRub ≤ row.grossAmountMicroRub) := by
  have counted : Counted id performed (reports.foldl (Books.step id) ⟨w, []⟩) := by
    apply Runs.invariant_along _ once
    · have none : w.db.accounts = [] := by rw [Db.accounts, start.economics]; rfl
      exact ⟨opening.balanced, start.keys, by simp [none], by simp [none], nodup_nil, by simp,
        by simp [none], fun _ => rfl⟩
    · exact fun s r one h => h.step one
  intro row hrow hid
  have ha : row.account ∈ (reports.foldl (Books.step id) ⟨w, []⟩).world.db.accounts :=
    mem_map_of_mem hrow
  have sum := counted.sum row.account ha hid
  obtain ⟨p, hp, own, amount⟩ := counted.gross row.account ha
  refine ⟨sum, ⟨p, hp, own.trans hid, amount⟩, ?_⟩
  intro provider
  have le := total_le_of_subset counted.distinct counted.real provider.amounts
  have atMost := provider.atMost
  have sum : row.refundedAmountMicroRub = _ := sum
  omega

namespace FirstRun

/-- The provider's answer to a refund. -/
def returned (status : String) : ProviderPaymentState := ⟨"order", "payment", status, 2000000, none, none⟩

/-- Its own notification of the full refund, with the fingerprint it has. -/
def refundNotification : PaymentEventInput :=
  paymentEventFromNotification
    (fun _ => "1681777d4b4f0521f09c248c4ee23b3e306345989eca505e94cb9aa244f2d58d") "tbank"
    ⟨"order", "payment", "REFUNDED", true, 2000000, none, none⟩

/-- The owner's refund of the payment, in full or in part. -/
def refund (amountMicroRub : Option Int) (status : String) : PaymentEventInput :=
  refundOwnedPaymentEvent "tbank" openedTopup amountMicroRub (returned status)

end FirstRun

def FirstRun.refundedTwice : List Report :=
  [⟨topup, none⟩, ⟨confirmed, none⟩,
    ⟨.processPaymentEvent context (refund (some 500000) "PARTIAL_REFUNDED"), some ⟨"part", 500000⟩⟩,
    ⟨.processPaymentEvent context (refund (some 500000) "PARTIAL_REFUNDED"), some ⟨"part", 500000⟩⟩]

open FirstRun in
theorem refunds_counted_once_first_run :
    ∃ row ∈ (refundedTwice.foldl (Books.step 0) ⟨.empty, []⟩).world.db.economics,
      row.refundedAmountMicroRub = 500000 := by
  refine ⟨_, head_mem (by decide +kernel), ?_⟩
  have counted := refunds_counted_once .empty .empty ⟨rfl, rfl, by simp [empty]⟩ 0
    [⟨"part", 500000⟩] refundedTwice (by decide +kernel) _ (head_mem (by decide +kernel))
    (by decide +kernel)
  rw [counted.1]
  decide +kernel

open FirstRun in
/-- Part of a subscription is returned and not counted. The refund of a top-up
that the provider notifies too is counted twice. -/
theorem refunds_miscounted :
    (empty.run [subscription, confirmed, .processPaymentEvent context
        (refund (some 500000) "PARTIAL_REFUNDED")]).db.accounts = [⟨0, 2000000, 0⟩] ∧
    (empty.run [topup, confirmed, .processPaymentEvent context (refund none "REFUNDED"),
        .processPaymentEvent context refundNotification]).db.accounts = [⟨0, 2000000, 4000000⟩] := by
  decide +kernel

end Vimla.Billing
