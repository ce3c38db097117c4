import Vimla.Billing.Outcome
import Vimla.Billing.ReserveRace

/-!
# One request, one reservation

Two calls that reserve for the same request take turns at their statements.
Whatever the order, the request is held once. Both calls are told so only if
the second looks for the reservation after the first has committed it.
-/

namespace Vimla.Billing

open List Rows Runs

variable {input : ReserveInput} {db₀ : Db}

/-- At `now` the user's buckets can fund the estimate. -/
def Funded (input : ReserveInput) (db : Db) (now : Int) : Prop :=
  input.estimatedProviderCostMicroRub ≤ getSpendableUsageMicroRub now input.userId db

/-- A request that has no reservation yet. -/
structure Unreserved (input : ReserveInput) (db : Db) : Prop where
  balanced : Balanced db .none
  positive : 0 < input.estimatedProviderCostMicroRub
  absent : ∀ r ∈ db.reservations, input.names r = false

variable {db : Db} {now : Int} {view : ReservationView} {mine theirs stage : Stage} {c : ReserveCall}
  {r : UsageReservation}

theorem Balanced.sound (h : Balanced db .none) {b : UsageBucket} (hb : b ∈ db.buckets) : b.Sound := by
  obtain ⟨h0, h1, -, -⟩ := h.bucket b hb
  have := h.spent_nonneg hb
  refine ⟨?_, this, h0, h1⟩
  omega

section
variable (h : Unreserved input db₀)
include h

theorem Unreserved.find : db₀.reservations.find? input.names = none :=
  find?_eq_none.2 fun r hr => by simp [h.absent r hr]

theorem Unreserved.planned (funded : Funded input db₀ now) :
    ∃ plan, planReservationAllocations (lockUserBuckets db₀ now input.userId [])
      input.estimatedProviderCostMicroRub = some plan := by
  refine Option.isSome_iff_exists.1 ((plan_isSome h.positive).2 ?_)
  rw [availability_locked fun b hb _ => h.balanced.sound hb]
  exact funded

/-- Alone, the rest of the transaction is what `reserveUsage` does. -/
theorem Unreserved.finish_eq {plan : List ReservationAllocationPlan}
    (planned : planReservationAllocations (lockUserBuckets db₀ now input.userId [])
      input.estimatedProviderCostMicroRub = some plan) :
    finish input (plan.flatMap statements) { db₀ with nextId := db₀.nextId + 1 }
      ⟨db₀.nextId, lockUserBuckets db₀ now input.userId [], [.createReservation
        ⟨db₀.nextId, input.userId, input.requestId, input.estimatedProviderCostMicroRub, 0, .active⟩]⟩ =
      reserveUsage now input db₀ := by
  have absent := h.find
  unfold ReserveInput.names at absent
  rw [finish_plan]
  unfold reserveUsage
  rw [if_neg (by have := h.positive; omega), absent]
  simp only [planned, bind, Except.bind]
  -- Inserting the row is creating the reservation.
  have inserted : Db.writes { db₀ with nextId := db₀.nextId + 1 } [.createReservation
      ⟨db₀.nextId, input.userId, input.requestId, input.estimatedProviderCostMicroRub, 0, .active⟩] =
    (db₀.createReservation input.userId input.requestId input.estimatedProviderCostMicroRub).1 := rfl
  have created : (db₀.createReservation input.userId input.requestId
    input.estimatedProviderCostMicroRub).2.id = db₀.nextId := rfl
  rw [inserted, created]
  cases reserveLoop input db₀.nextId plan _ (lockUserBuckets db₀ now input.userId []) with
  | error e => rfl
  | ok db =>
    simp only
    cases getReservation db db₀.nextId <;> rfl

theorem Unreserved.reserves (funded : Funded input db₀ now) :
    ∃ db view, reserveUsage now input db₀ = .ok (db, view) := by
  obtain ⟨⟨db, view⟩, run⟩ := (reserveUsage_isOk h.balanced.keys.buckets (fun b hb _ => h.balanced.sound hb) h.positive
    fun r hr => by simpa [ReserveInput.names] using h.absent r hr).2 funded
  exact ⟨db, view, run⟩

/-- What a call that comes later finds. -/
theorem Unreserved.reserved (run : reserveUsage now input db₀ = .ok (db, view)) :
    ∃ r, db.reservations = db₀.reservations ++ [r] ∧ input.names r = true ∧ r.status = .active ∧
      r.estimatedMicroRub = input.estimatedProviderCostMicroRub ∧ toReservationView db r = view := by
  have absent := h.find
  unfold ReserveInput.names at absent
  have returned : getReservation db db₀.nextId = .ok view ∧ db.reservations = db₀.reservations ++
      [⟨db₀.nextId, input.userId, input.requestId, input.estimatedProviderCostMicroRub, 0, .active⟩] := by
    have shape := run
    unfold reserveUsage at shape
    rw [if_neg (by have := h.positive; omega), absent] at shape
    simp only at shape
    split at shape
    · cases shape
    · rename_i plan planned
      have mirrors : Mirrors (db₀.createReservation input.userId input.requestId
          input.estimatedProviderCostMicroRub).1 (lockUserBuckets db₀ now input.userId []) :=
        lockUserBuckets_mirrors db₀ now input.userId []
      have all : (lockUserBuckets db₀ now input.userId []).filter (fun _ => true) =
        lockUserBuckets db₀ now input.userId [] := filter_true _
      rw [← all] at planned
      obtain ⟨-, -, locked⟩ := planReservationAllocations_funds h.balanced.keys.buckets planned
      rw [reserveLoop_eq input _ plan mirrors h.balanced.keys.buckets locked] at shape
      simp only [bind, Except.bind, pure, Except.pure] at shape
      split at shape
      · cases shape
      · rename_i got
        cases shape
        exact ⟨got, holds_reservations _ _ plan _⟩
  obtain ⟨got, rows⟩ := returned
  refine ⟨_, rows, by simp [ReserveInput.names], rfl, rfl, ?_⟩
  have found : Rows.find UsageReservation.id db₀.nextId db.reservations = some
      ⟨db₀.nextId, input.userId, input.requestId, input.estimatedProviderCostMicroRub, 0, .active⟩ := by
    rw [rows]
    refine find_eq_of_mem (nodup_append h.balanced.keys.reservations fun r hr => ?_)
      (mem_append_right _ (mem_singleton_self _)) rfl
    exact Nat.ne_of_lt (h.balanced.keys.reservationFresh r hr)
  unfold getReservation at got
  rw [found] at got
  exact Except.ok.inj got

theorem Unreserved.funded_nonempty (funded : Funded input db₀ now) :
    ∃ b ∈ db₀.buckets, b.userId = input.userId ∧ unexpired now b.expiresAt = true := by
  by_contra none
  push Not at none
  have nothing : getSpendableUsageMicroRub now input.userId db₀ = 0 := by
    refine total_eq_zero fun b hb => ?_
    obtain ⟨hb, chosen⟩ := mem_filter.1 hb
    simp only [Bool.and_eq_true, decide_eq_true_eq] at chosen
    exact absurd chosen.2 (none b hb chosen.1)
  have := h.positive
  unfold Funded at funded
  omega

end

theorem unexpired_mono {later : Int} (le : now ≤ later) {expiresAt : Option Int}
    (h : unexpired later expiresAt = true) : unexpired now expiresAt = true := by
  cases expiresAt with
  | none => rfl
  | some t =>
    simp only [unexpired, decide_eq_true_eq] at h ⊢
    omega

/-- Two sets of buckets that can fund the estimate have one in common. -/
theorem Unreserved.locks_meet (h : Unreserved input db₀) {now' : Int} (funded : Funded input db₀ now)
    (funded' : Funded input db₀ now') : ∃ b ∈ lockUserBuckets db₀ now' input.userId [],
      b.id ∈ (lockUserBuckets db₀ now input.userId []).map LockedBucket.id := by
  have common : ∃ b ∈ db₀.buckets, b.userId = input.userId ∧ unexpired now b.expiresAt = true ∧
      unexpired now' b.expiresAt = true := by
    rcases Int.le_total now now' with le | le
    · obtain ⟨b, hb, user, later⟩ := h.funded_nonempty funded'
      exact ⟨b, hb, user, unexpired_mono le later, later⟩
    · obtain ⟨b, hb, user, later⟩ := h.funded_nonempty funded
      exact ⟨b, hb, user, later, unexpired_mono le later⟩
  obtain ⟨b, hb, user, first, second⟩ := common
  have locked {t : Int} (spendable : unexpired t b.expiresAt = true) :
      b.locked ∈ lockUserBuckets db₀ t input.userId [] :=
    mem_lockUserBuckets.2 ⟨b, hb, ⟨user, .inr spendable⟩, rfl⟩
  exact ⟨b.locked, locked second, mem_map_of_mem (locked first)⟩

/-- A call that has not got its locks. -/
inductive Waits (input : ReserveInput) (db₀ : Db) : Stage → Prop
  | checking : Waits input db₀ .checking
  | locking (now : Int) (funded : Funded input db₀ now) : Waits input db₀ (.locking now)

/-- A call that holds its locks, over tables nobody else has written; alone it
would end as `reserveUsage` does. -/
inductive Holds (input : ReserveInput) (db₀ db : Db) : Stage → Prop
  | inserting (now : Int) (funded : Funded input db₀ now) (plan : List ReservationAllocationPlan) (same : db = db₀)
    (planned : planReservationAllocations (lockUserBuckets db₀ now input.userId [])
      input.estimatedProviderCostMicroRub = some plan) :
    Holds input db₀ db (.inserting (lockUserBuckets db₀ now input.userId []) plan)
  | writing (now : Int) (funded : Funded input db₀ now) (w : Work) (todo : List Statement) (n : Nat)
    (drawn : db = { db₀ with nextId := n })
    (locks : w.buckets.map LockedBucket.id = (lockUserBuckets db₀ now input.userId []).map LockedBucket.id)
    (rest : finish input todo db w = reserveUsage now input db₀) : Holds input db₀ db (.writing w todo)
  | committing (now : Int) (funded : Funded input db₀ now) (w : Work) (view : ReservationView) (n : Nat)
    (drawn : db = { db₀ with nextId := n })
    (locks : w.buckets.map LockedBucket.id = (lockUserBuckets db₀ now input.userId []).map LockedBucket.id)
    (rest : reserveUsage now input db₀ = .ok (db.writes w.written, view)) : Holds input db₀ db (.committing w view)

/-- What a call can be thrown when the other has reserved. -/
def lostRace : List TxError :=
  [.billing .insufficientUsage "Not enough usage remaining",
    .uniqueConstraint "usage_reservation_userId_requestId_key"]

/-- A call beside one that has returned `view`. -/
inductive Late (view : ReservationView) : Stage → Prop
  | checking : Late view .checking
  | locking (now : Int) : Late view (.locking now)
  | inserting (buckets : List LockedBucket) (plan : List ReservationAllocationPlan) : Late view (.inserting buckets plan)
  | found : Late view (.returned (.ok view))
  | refused (e : TxError) (lost : e ∈ lostRace) : Late view (.returned (.error e))

inductive Phase (input : ReserveInput) (db₀ db : Db) : Stage → Stage → Prop
  | early (mine theirs : Stage) (same : db = db₀) (waits : Waits input db₀ mine) (waits' : Waits input db₀ theirs) :
    Phase input db₀ db mine theirs
  | holding (mine theirs : Stage) (holds : Holds input db₀ db mine) (waits : Waits input db₀ theirs) :
    Phase input db₀ db mine theirs
  | held (mine theirs : Stage) (waits : Waits input db₀ mine) (holds : Holds input db₀ db theirs) :
    Phase input db₀ db mine theirs
  | reserved (now : Int) (view : ReservationView) (run : reserveUsage now input db₀ = .ok (db, view)) (theirs : Stage)
    (late : Late view theirs) : Phase input db₀ db (.returned (.ok view)) theirs
  | late (now : Int) (view : ReservationView) (run : reserveUsage now input db₀ = .ok (db, view)) (mine : Stage)
    (late : Late view mine) : Phase input db₀ db mine (.returned (.ok view))

theorem Phase.symm (h : Phase input db₀ db mine theirs) : Phase input db₀ db theirs mine := by
  cases h with
  | early _ _ same waits waits' => exact .early _ _ same waits' waits
  | holding _ _ holds waits => exact .held _ _ waits holds
  | held _ _ waits holds => exact .holding _ _ holds waits
  | reserved now view run _ late => exact .late now view run _ late
  | late now view run _ late => exact .reserved now view run _ late

@[simp] theorem ReserveCall.to_stage (c : ReserveCall) (stage : Stage) : (c.to_ stage).stage = stage := rfl

/-- None of the two is retried. -/
theorem lostRace_thrown {e : TxError} (lost : e ∈ lostRace) (c : ReserveCall) :
    (c.fail e).stage = .returned (.error e) := by
  have final : e.retryable = false := by
    revert e
    decide +kernel
  simp [ReserveCall.fail, final]

theorem Waits.no_locks (h : Waits input db₀ stage) : stage.locked = [] ∧ stage.inserted = false := by
  cases h <;> exact ⟨rfl, rfl⟩

/-- What a holding call has locked any other must wait for. -/
theorem Holds.blocks (h : Unreserved input db₀) (holds : Holds input db₀ db stage) (funded : Funded input db₀ now) :
    ((lockUserBuckets db now input.userId []).any fun b => b.id ∈ stage.locked) = true := by
  have meets {now' : Int} (funded' : Funded input db₀ now') {ids : List Nat}
      (locks : ids = (lockUserBuckets db₀ now' input.userId []).map LockedBucket.id) :
      ((lockUserBuckets db₀ now input.userId []).any fun b => b.id ∈ ids) = true := by
    obtain ⟨b, hb, common⟩ := h.locks_meet funded' funded
    exact any_eq_true.2 ⟨b, hb, by rw [locks]; exact decide_eq_true common⟩
  cases holds with
  | inserting now' funded' plan same =>
    subst same
    exact meets funded' rfl
  | writing now' funded' w todo n drawn locks | committing now' funded' w view n drawn locks =>
    subst drawn
    exact meets funded' locks

/-- What a statement does to where a call stands. -/
structure Progress (mine theirs after : Stage) : Prop where
  asks : mine = .checking → (∀ view, theirs ≠ .returned (.ok view)) → ∃ now, after = .locking now
  finds : mine = .checking → ∀ view, theirs = .returned (.ok view) → after = .returned (.ok view)
  onward : mine ≠ .checking → after ≠ .checking
  lost : mine ≠ .checking → ∀ view view', theirs = .returned (.ok view) → after = .returned (.ok view') →
    mine = .returned (.ok view')

/-- The check of a call that finds nothing. -/
theorem Unreserved.check (h : Unreserved input db₀) (same : db.reservations = db₀.reservations)
    (hc : c.stage = .checking) (theirs : Stage) (now : Int) :
    c.advance input theirs now db = (db, c.to_ (.locking now)) := by
  unfold ReserveCall.advance
  rw [hc]
  rw [if_neg (by have := h.positive; omega), same, h.find]

theorem Waits.advance (h : Unreserved input db₀) (waits : Waits input db₀ mine)
    (quiet : (∃ n, db = { db₀ with nextId := n }) ∧ Holds input db₀ db theirs ∨ db = db₀ ∧ Waits input db₀ theirs)
    (hc : c.stage = mine) (funded : Funded input db₀ now) :
    Phase input db₀ (c.advance input theirs now db).1 (c.advance input theirs now db).2.stage theirs ∧
      Progress mine theirs (c.advance input theirs now db).2.stage := by
  have open_ : ∀ view, theirs ≠ .returned (.ok view) := by
    intro view same
    subst same
    rcases quiet with ⟨-, holds⟩ | ⟨-, waits'⟩
    · cases holds
    · cases waits'
  cases waits with
  | checking =>
    have rows : db.reservations = db₀.reservations := by
      rcases quiet with ⟨⟨n, rfl⟩, -⟩ | ⟨rfl, -⟩ <;> rfl
    rw [h.check rows hc]
    refine ⟨?_, fun _ _ => ⟨now, rfl⟩, fun _ view same => absurd same (open_ view), fun other => absurd rfl other,
      fun other => absurd rfl other⟩
    rcases quiet with ⟨-, holds⟩ | ⟨same, waits'⟩
    · exact .held _ _ (.locking now funded) holds
    · exact .early _ _ same (.locking now funded) waits'
  | locking now' funded' =>
    unfold ReserveCall.advance
    rw [hc]
    simp only
    rcases quiet with ⟨-, holds⟩ | ⟨same, waits'⟩
    · rw [if_pos (holds.blocks h funded'), hc]
      exact ⟨.held _ _ (.locking now' funded') holds, by simp, by simp, by simp, by simp⟩
    · subst same
      obtain ⟨plan, planned⟩ := h.planned funded'
      rw [if_neg (by simp [waits'.no_locks.1]), planned]
      exact ⟨.holding _ _ (.inserting now' funded' plan rfl planned) waits', by simp, by simp, by simp, by simp⟩

variable {db' : Db} {after : Stage} {s : Race}

/-- A statement draws an id at most and leaves the locks as they are. -/
theorem Work.execute_keeps {w w' : Work} {statement : Statement}
    (run : w.execute input db statement = .ok (db', w')) : (∃ n, db' = { db with nextId := n }) ∧
      w'.buckets.map LockedBucket.id = w.buckets.map LockedBucket.id := by
  cases statement with
  | createAllocation p =>
    simp only [Work.execute] at run
    split at run
    · cases run
    · cases run
      exact ⟨⟨_, rfl⟩, rfl⟩
  | updateBucket p =>
    simp only [Work.execute] at run
    split at run
    · cases run
    · cases run
      exact ⟨⟨db.nextId, rfl⟩, map_update fun _ => rfl⟩
  | appendLedger p =>
    cases run
    exact ⟨⟨db.nextId, rfl⟩, rfl⟩

theorem Holds.advance (h : Unreserved input db₀) (holds : Holds input db₀ db mine) (waits : Waits input db₀ theirs)
    (hc : c.stage = mine) (now : Int) :
    Phase input db₀ (c.advance input theirs now db).1 (c.advance input theirs now db).2.stage theirs ∧
      Progress mine theirs (c.advance input theirs now db).2.stage := by
  have onward {after : Stage} (busy : mine ≠ .checking) (moved : after ≠ .checking) : Progress mine theirs after := by
    refine ⟨fun idle => absurd idle busy, fun idle => absurd idle busy, fun _ => moved, fun _ view _ same => ?_⟩
    subst same
    cases waits
  unfold ReserveCall.advance
  cases holds with
  | inserting now' funded plan same planned =>
    subst same
    rw [hc]
    simp only
    have none : db.reservations.any input.names = false :=
      any_eq_false.2 fun r hr => by simp [h.absent r hr]
    rw [if_neg (by simp [waits.no_locks.2]), if_neg (by simp [none])]
    exact ⟨.holding _ _ (.writing now' funded _ _ _ rfl rfl (h.finish_eq planned)) waits, onward (by simp) (by simp)⟩
  | writing now' funded w todo n drawn locks rest =>
    obtain ⟨done, view, run⟩ := h.reserves funded
    rw [hc]
    cases todo with
    | nil =>
      have rest' := rest
      rw [run] at rest'
      simp only [finish] at rest' ⊢
      cases got : getReservation (db.writes w.written) w.reservationId with
      | error e => simp [got] at rest'
      | ok seen =>
        simp only [got, Except.ok.injEq, Prod.mk.injEq] at rest'
        obtain ⟨rfl, rfl⟩ := rest'
        exact ⟨.holding _ _ (.committing now' funded w seen n drawn locks run) waits, onward (by simp) (by simp)⟩
    | cons statement todo =>
      have rest' := rest
      rw [run] at rest'
      simp only [finish] at rest' rest ⊢
      cases executed : w.execute input db statement with
      | error e => simp [executed] at rest'
      | ok result =>
        obtain ⟨db', w'⟩ := result
        obtain ⟨⟨n', rfl⟩, same⟩ := Work.execute_keeps executed
        simp only [executed] at rest
        refine ⟨.holding _ _ (.writing now' funded w' todo n' ?_ (same.trans locks) rest) waits,
          onward (by simp) (by simp)⟩
        rw [drawn]
  | committing now' funded w view n drawn locks rest =>
    rw [hc]
    refine ⟨.reserved now' view rest theirs ?_, onward (by simp) (by simp)⟩
    cases waits with
    | checking => exact .checking
    | locking now funded => exact .locking now

theorem Late.advance (h : Unreserved input db₀) (late : Late view mine) {then_ : Int}
    (run : reserveUsage then_ input db₀ = .ok (db, view)) (hc : c.stage = mine) (now : Int) :
    Phase input db₀ (c.advance input (.returned (.ok view)) now db).1
        (c.advance input (.returned (.ok view)) now db).2.stage (.returned (.ok view)) ∧
      Progress mine (.returned (.ok view)) (c.advance input (.returned (.ok view)) now db).2.stage := by
  obtain ⟨r, rows, names, active, estimate, seen⟩ := h.reserved run
  have settled {after : Stage} (busy : mine ≠ .checking) (moved : after ≠ .checking)
      (same : ∀ view', after = .returned (.ok view') → mine = .returned (.ok view')) :
      Progress mine (.returned (.ok view)) after :=
    ⟨fun idle => absurd idle busy, fun idle => absurd idle busy, fun _ => moved, fun _ _ view' _ done => same view' done⟩
  unfold ReserveCall.advance
  cases late with
  | checking =>
    have found : db.reservations.find? input.names = some r := by
      rw [rows, find?_append, h.find]
      simp [names]
    rw [hc]
    rw [if_neg (by have := h.positive; omega), found]
    simp only [active, estimate, and_self, if_true, ReserveCall.to_stage, seen]
    exact ⟨.late then_ view run _ .found, fun _ none => absurd rfl (none view), fun _ _ same => same,
      fun other => absurd rfl other, fun other => absurd rfl other⟩
  | locking now' =>
    rw [hc]
    simp only
    rw [if_neg (by simp [Stage.locked])]
    cases planReservationAllocations (lockUserBuckets db now' input.userId [])
        input.estimatedProviderCostMicroRub with
    | none =>
      have lost : TxError.billing .insufficientUsage "Not enough usage remaining" ∈ lostRace := mem_cons_self
      rw [lostRace_thrown lost]
      exact ⟨.late then_ view run _ (.refused _ lost), settled (by simp) (by simp) (by simp)⟩
    | some plan =>
      exact ⟨.late then_ view run _ (.inserting _ plan), settled (by simp) (by simp) (by simp)⟩
  | inserting buckets plan =>
    have known : db.reservations.any input.names = true := any_eq_true.2 ⟨r, by simp [rows], names⟩
    have lost : TxError.uniqueConstraint "usage_reservation_userId_requestId_key" ∈ lostRace := by simp [lostRace]
    rw [hc]
    simp only
    rw [if_neg (by simp [Stage.inserted]), if_pos known, lostRace_thrown lost]
    exact ⟨.late then_ view run _ (.refused _ lost), settled (by simp) (by simp) (by simp)⟩
  | found =>
    simp only [hc]
    exact ⟨.late then_ view run _ .found, settled (by simp) (by simp) fun _ same => same⟩
  | refused e lost =>
    simp only [hc]
    exact ⟨.late then_ view run _ (.refused e lost), settled (by simp) (by simp) (by simp)⟩

/-- What the next statement of a call does, whoever has got how far. -/
theorem Phase.advance (h : Unreserved input db₀) (phase : Phase input db₀ db mine theirs) (hc : c.stage = mine)
    (funded : Funded input db₀ now) :
    Phase input db₀ (c.advance input theirs now db).1 (c.advance input theirs now db).2.stage theirs ∧
      Progress mine theirs (c.advance input theirs now db).2.stage := by
  cases phase with
  | early _ _ same waits waits' => exact waits.advance h (.inr ⟨same, waits'⟩) hc funded
  | holding _ _ holds waits => exact holds.advance h waits hc now
  | held _ _ waits holds =>
    refine waits.advance h (.inl ⟨?_, holds⟩) hc funded
    cases holds with
    | inserting _ _ _ same => exact ⟨db₀.nextId, same⟩
    | writing _ _ _ _ n drawn | committing _ _ _ _ n drawn => exact ⟨n, drawn⟩
  | reserved then_ view run _ late =>
    have still : c.advance input theirs now db = (db, c) := by
      unfold ReserveCall.advance
      rw [hc]
    rw [still, hc]
    exact ⟨.reserved then_ view run _ late, by simp, by simp, by simp, fun _ _ _ _ same => same⟩
  | late then_ view run _ late => exact late.advance h run hc now

def Stage.checks : Stage → Bool
  | .checking => true
  | _ => false

/-- Past its check, and not committed. -/
def Stage.underway : Stage → Bool
  | .checking | .returned _ => false
  | _ => true

/-- No call looks for the reservation while the other is underway. -/
def Serial (s : Race) (t : Turn) : Prop :=
  (s.calls t.caller).stage.checks = true → (s.calls t.caller.other).stage.underway = false

instance (s : Race) (t : Turn) : Decidable (Serial s t) := inferInstanceAs (Decidable (_ → _))

def Stage.succeeded : Stage → Bool
  | .returned (.ok _) => true
  | _ => false

def Stage.ended : Stage → Bool
  | .returned _ => true
  | _ => false

/-- Both calls can still succeed: one is to check, or both have. -/
def Hopeful (mine theirs : Stage) : Prop :=
  mine.checks = true ∨ theirs.checks = true ∨ mine.succeeded = true ∧ theirs.succeeded = true

theorem checks_iff : stage.checks = true ↔ stage = .checking := by
  cases stage <;> simp [Stage.checks]

theorem succeeded_iff : stage.succeeded = true ↔ ∃ view, stage = .returned (.ok view) := by
  cases stage with
  | returned result => cases result <;> simp [Stage.succeeded]
  | _ => simp [Stage.succeeded]

theorem Hopeful.symm (h : Hopeful mine theirs) : Hopeful theirs mine := by
  unfold Hopeful at h ⊢
  tauto

/-- A call that checks in turn keeps the hope. -/
theorem Progress.hopeful (p : Progress mine theirs after) (phase : Phase input db₀ db mine theirs)
    (hope : Hopeful mine theirs) (still : mine.succeeded = true → after = mine)
    (serial : mine.checks = true → theirs.underway = false) : Hopeful after theirs := by
  rcases hope with mine_checks | theirs_check | ⟨won, won'⟩
  · have apart := serial mine_checks
    have idle := checks_iff.1 mine_checks
    subst idle
    cases hs : theirs with
    | checking => exact .inr (.inl rfl)
    | returned result =>
      subst hs
      cases phase with
      | early _ _ _ _ waits' => cases waits'
      | holding _ _ holds | held _ _ _ holds => cases holds
      | late now view run _ late =>
        rw [p.finds rfl view rfl]
        exact .inr (.inr ⟨rfl, rfl⟩)
    | _ => simp [hs, Stage.underway] at apart
  · exact .inr (.inl theirs_check)
  · rw [still won]
    exact .inr (.inr ⟨won, won'⟩)

/-- A call that checks while the other is underway ends it, for good. -/
theorem Progress.hopeless (p : Progress mine theirs after)
    (overlaps : (mine.checks = true ∧ theirs.underway = true) ∨ ¬ Hopeful mine theirs) : ¬ Hopeful after theirs := by
  rcases overlaps with ⟨mine_checks, busy⟩ | gone
  · have running : ∀ view, theirs ≠ .returned (.ok view) := by
      rintro view rfl
      cases busy
    obtain ⟨now, rfl⟩ := p.asks (checks_iff.1 mine_checks) running
    cases theirs <;> simp_all [Hopeful, Stage.checks, Stage.underway, Stage.succeeded]
  · unfold Hopeful at gone
    push Not at gone
    obtain ⟨mine_past, theirs_past, lost⟩ := gone
    have past : mine ≠ .checking := fun same => mine_past (checks_iff.2 same)
    rintro (again | again | ⟨won, won'⟩)
    · exact p.onward past (checks_iff.1 again)
    · exact theirs_past again
    · obtain ⟨view, hview⟩ := succeeded_iff.1 won
      obtain ⟨view', hview'⟩ := succeeded_iff.1 won'
      exact lost (succeeded_iff.2 ⟨view, p.lost past view' view hview' hview⟩) won'

def Race.Sound (input : ReserveInput) (db₀ : Db) (s : Race) : Prop :=
  Phase input db₀ s.db (s.calls .first).stage (s.calls .second).stage

def Race.Hope (s : Race) : Prop := Hopeful (s.calls .first).stage (s.calls .second).stage

theorem Race.Sound.at_caller (sound : s.Sound input db₀) (c : Caller) :
    Phase input db₀ s.db (s.calls c).stage (s.calls c.other).stage := by
  cases c with
  | first => exact sound
  | second => exact sound.symm

theorem Race.hope_at (s : Race) (c : Caller) : s.Hope ↔ Hopeful (s.calls c).stage (s.calls c.other).stage := by
  cases c with
  | first => exact Iff.rfl
  | second => exact ⟨Hopeful.symm, Hopeful.symm⟩

theorem Race.step_other (input : ReserveInput) (s : Race) (t : Turn) :
    (s.step input t).calls t.caller.other = s.calls t.caller.other := by
  cases ht : t.caller <;> simp [Race.step, ht, Caller.other]

theorem Race.step_caller (input : ReserveInput) (s : Race) (t : Turn) : (s.step input t).calls t.caller =
    ((s.calls t.caller).advance input (s.calls t.caller.other).stage t.now s.db).2 := by
  simp [Race.step]

/-- A turn keeps the phase, and the hope exactly if it is serial. -/
theorem Race.step_sound (h : Unreserved input db₀) (sound : s.Sound input db₀) {t : Turn}
    (funded : Funded input db₀ t.now) : (s.step input t).Sound input db₀ ∧
      (s.Hope → Serial s t → (s.step input t).Hope) ∧ (¬ s.Hope ∨ ¬ Serial s t → ¬ (s.step input t).Hope) := by
  have phase := sound.at_caller t.caller
  obtain ⟨next, progress⟩ := phase.advance h rfl funded
  rw [Race.hope_at _ t.caller, Race.hope_at _ t.caller, Race.step_other, Race.step_caller]
  refine ⟨?_, fun hope serial => progress.hopeful phase hope ?_ serial, fun overlaps => progress.hopeless ?_⟩
  · have at_caller : Phase input db₀ (s.step input t).db ((s.step input t).calls t.caller).stage
        ((s.step input t).calls t.caller.other).stage := by
      rw [Race.step_other, Race.step_caller]
      exact next
    cases ht : t.caller with
    | first =>
      rw [ht] at at_caller
      exact at_caller
    | second =>
      rw [ht] at at_caller
      exact at_caller.symm
  · intro won
    obtain ⟨view, same⟩ := succeeded_iff.1 won
    unfold ReserveCall.advance
    rw [same]
    exact same
  · rcases overlaps with gone | crossed
    · exact .inr gone
    · unfold Serial at crossed
      push Not at crossed
      exact .inl ⟨crossed.1, by simpa using crossed.2⟩

theorem Race.run_sound (h : Unreserved input db₀) (turns : List Turn)
    (funded : ∀ t ∈ turns, Funded input db₀ t.now) (sound : s.Sound input db₀) :
    (turns.foldl (Race.step input) s).Sound input db₀ ∧
      (s.Hope → ((turns.foldl (Race.step input) s).Hope ↔ Along (Race.step input) Serial s turns)) ∧
      (¬ s.Hope → ¬ (turns.foldl (Race.step input) s).Hope) := by
  induction turns generalizing s with
  | nil => exact ⟨sound, fun hope => ⟨fun _ => trivial, fun _ => hope⟩, id⟩
  | cons t turns ih =>
    obtain ⟨next, keeps, ends⟩ := Race.step_sound h sound (funded t mem_cons_self)
    obtain ⟨final, hopeful, hopeless⟩ := ih (fun t' h => funded t' (mem_cons_of_mem t h)) next
    refine ⟨final, fun hope => ?_, fun gone => hopeless (ends (.inl gone))⟩
    by_cases serial : Serial s t
    · simp only [foldl_cons, Along, serial, true_and]
      exact hopeful (keeps hope serial)
    · simp only [foldl_cons, Along, serial, false_and, iff_false]
      exact hopeless (ends (.inr serial))

/-- The request has one reservation, for its estimate, and the buckets hold
just what the allocations of the reservations say. -/
structure HeldOnce (input : ReserveInput) (id : Nat) (db : Db) : Prop where
  one : ∃ r, db.reservations.filter input.names = [r] ∧ r.id = id ∧ r.status = .active ∧
    r.estimatedMicroRub = input.estimatedProviderCostMicroRub
  allocated : db.reservedOf id = input.estimatedProviderCostMicroRub
  buckets : ∀ b ∈ db.buckets, b.reservedMicroRub = db.heldOn b.id

/-- Both calls have returned the one reservation. -/
def BothReserved (input : ReserveInput) (s : Race) : Prop :=
  ∃ view, (∀ c, (s.calls c).stage = .returned (.ok view)) ∧ view.status = .active ∧ HeldOnce input view.id s.db

theorem HeldOnce.of_row (balanced : Balanced db .none) (only : db.reservations.filter input.names = [r])
    (active : r.status = .active) (estimate : r.estimatedMicroRub = input.estimatedProviderCostMicroRub) :
    HeldOnce input r.id db := by
  have known : r ∈ db.reservations := (mem_filter.1 (only ▸ mem_singleton_self r)).1
  refine ⟨⟨r, only, rfl, active, estimate⟩, ?_, fun b hb => ?_⟩
  · obtain ⟨allocated, -⟩ := balanced.reservation r known
    simp only [Pending.none] at allocated
    omega
  · obtain ⟨-, -, held, -⟩ := balanced.bucket b hb
    simpa [Pending.none] using held

theorem Unreserved.heldOnce (h : Unreserved input db₀) (run : reserveUsage now input db₀ = .ok (db, view)) :
    view.status = .active ∧ HeldOnce input view.id db := by
  obtain ⟨r, rows, names, active, estimate, rfl⟩ := h.reserved run
  refine ⟨active, ?_⟩
  have balanced : Balanced db .none := (Commits.reserve now input db _ run).balanced h.balanced
  refine HeldOnce.of_row balanced ?_ active estimate
  rw [rows, filter_append, filter_eq_nil_iff.2 fun r hr => by simp [h.absent r hr]]
  simp [names]

theorem Phase.ended (phase : Phase input db₀ db mine theirs)
    (mine_ended : mine.ended = true) (theirs_ended : theirs.ended = true) :
    ∃ now view, reserveUsage now input db₀ = .ok (db, view) ∧
      (mine.succeeded = true → mine = .returned (.ok view)) ∧ (theirs.succeeded = true → theirs = .returned (.ok view)) := by
  have alike {view : ReservationView} {stage : Stage} (late : Late view stage) (won : stage.succeeded = true) :
      stage = .returned (.ok view) := by
    cases late with
    | found => rfl
    | _ => cases won
  cases phase with
  | early _ _ _ waits | held _ _ waits => cases waits <;> cases mine_ended
  | holding _ _ holds => cases holds <;> cases mine_ended
  | reserved now view run _ late => exact ⟨now, view, run, fun _ => rfl, alike late⟩
  | late now view run _ late => exact ⟨now, view, run, alike late, fun _ => rfl⟩

/-- The unique index of `usage_reservation`. -/
def Db.requests (db : Db) : List (Nat × String) := db.reservations.map fun r => (r.userId, r.requestId)

theorem Commits.requests {op : Op} (h : Commits db op db') (balanced : Balanced db .none)
    (unique : db.requests.Nodup) : db'.requests.Nodup := by
  have move := h.reservations balanced
  cases move with
  | still _ _ same => rwa [Db.requests, same]
  | opened now input _ added =>
    cases h with
    | checkout _ _ _ _ records => cases records
    | reserve _ _ _ view run =>
      rw [Db.requests, added]
      refine Rows.nodup_append unique fun r hr same => ?_
      unfold reserveUsage at run
      split at run
      · cases run
      cases found : db.reservations.find? fun r => r.userId = input.userId ∧ r.requestId = input.requestId with
      | some existing =>
        simp only [found] at run
        split at run <;> cases run
        simp at added
      | none =>
        have other := find?_eq_none.1 found r hr
        simp only [Prod.mk.injEq] at same
        simp [same] at other
  | ended _ _ r _ _ f rewrites _ updated =>
    have same : db'.requests = db.requests := by
      rw [Db.requests, updated]
      exact map_update fun r => by rw [rewrites.userId, rewrites.requestId]
    rwa [same]

theorem run_requests {w : World} (opening : Opening w.db) (ops : List Op) : (w.run ops).db.requests.Nodup := by
  have start : Balanced w.db .none ∧ w.db.requests.Nodup :=
    ⟨opening.balanced, by simp [Db.requests, opening.reservations]⟩
  exact (w.run_invariant (P := fun db => Balanced db .none ∧ db.requests.Nodup)
    (fun _ _ _ commits h => ⟨commits.balanced h.1, commits.requests h.1 h.2⟩) ops start).2

/-- The reservation that a call finds is one it can take for its own. -/
def ReserveInput.fits (input : ReserveInput) (r : UsageReservation) : Prop :=
  r.status = .active ∧ r.estimatedMicroRub = input.estimatedProviderCostMicroRub

instance (input : ReserveInput) (r : UsageReservation) : Decidable (input.fits r) :=
  inferInstanceAs (Decidable (_ ∧ _))

/-- What a call answers to a request that has the reservation `r`. -/
def known (input : ReserveInput) (db : Db) (r : UsageReservation) : Except TxError ReservationView :=
  if input.fits r then .ok (toReservationView db r)
  else .error (.billing .reservationConflict "Reservation requestId already exists with a different state")

theorem advance_known (positive : 0 < input.estimatedProviderCostMicroRub)
    (found : db₀.reservations.find? input.names = some r) (hc : c.stage = .checking) (theirs : Stage) (now : Int) :
    c.advance input theirs now db₀ = (db₀, c.to_ (.returned (known input db₀ r))) := by
  have thrown (message : String) : (TxError.billing .reservationConflict message).retryable = false := rfl
  unfold ReserveCall.advance known ReserveInput.fits
  rw [hc]
  rw [if_neg (by omega), found]
  by_cases fit : r.status = .active ∧ r.estimatedMicroRub = input.estimatedProviderCostMicroRub
  · simp [fit]
  · simp [fit, ReserveCall.fail, thrown]

/-- A request that has a reservation: nothing is written, and each call answers alike. -/
structure Settled (input : ReserveInput) (db₀ : Db) (r : UsageReservation) (s : Race) : Prop where
  db : s.db = db₀
  calls : ∀ c, (s.calls c).stage = .checking ∨ (s.calls c).stage = .returned (known input db₀ r)

theorem Settled.run (positive : 0 < input.estimatedProviderCostMicroRub)
    (found : db₀.reservations.find? input.names = some r) (turns : List Turn) (h : Settled input db₀ r s) :
    Settled input db₀ r (turns.foldl (Race.step input) s) ∧ Along (Race.step input) Serial s turns := by
  induction turns generalizing s with
  | nil => exact ⟨h, trivial⟩
  | cons t turns ih =>
    have next : Settled input db₀ r (s.step input t) := by
      have same : s.db = db₀ := h.db
      rcases h.calls t.caller with checking | returned
      · have answered := advance_known positive found checking (s.calls t.caller.other).stage t.now
        refine ⟨by simp only [Race.step, same, answered], fun c => ?_⟩
        simp only [Race.step, same, answered]
        by_cases own : c = t.caller
        · subst own
          simp
        · simpa [Function.update_of_ne own] using h.calls c
      · have still : (s.calls t.caller).advance input (s.calls t.caller.other).stage t.now s.db =
            (s.db, s.calls t.caller) := by
          unfold ReserveCall.advance
          rw [returned]
        refine ⟨by simp only [Race.step, still]; exact same, fun c => ?_⟩
        simp only [Race.step, still, Function.update_eq_self]
        exact h.calls c
    obtain ⟨final, along⟩ := ih next
    refine ⟨final, fun _ => ?_, along⟩
    rcases h.calls t.caller.other with checking | returned
    · rw [checking]
      rfl
    · rw [returned]
      rfl

/-- Whatever the order of their statements, two calls for one new request hold
its estimate once; and both return the one reservation exactly if the request
was new, or had a reservation that fits, and no call looked for it while the
other was underway. -/
theorem request_reserved_once (w : World) (opening : Opening w.db) (ops : List Op) (input : ReserveInput)
    (positive : 0 < input.estimatedProviderCostMicroRub) (turns : List Turn)
    (funded : ∀ t ∈ turns, Funded input (w.run ops).db t.now)
    (ended : ∀ c, ((turns.foldl (Race.step input) (.start (w.run ops).db)).calls c).stage.ended = true) :
    (BothReserved input (turns.foldl (Race.step input) (.start (w.run ops).db)) ↔
      (∀ r ∈ (w.run ops).db.reservations, input.names r = true → input.fits r) ∧
      Along (Race.step input) Serial (.start (w.run ops).db) turns) ∧
    ((∀ r ∈ (w.run ops).db.reservations, input.names r = false) →
      ∃ id, HeldOnce input id (turns.foldl (Race.step input) (.start (w.run ops).db)).db) := by
  have balanced := run_balanced opening ops
  have unique := run_requests opening ops
  generalize (w.run ops).db = db at *
  cases found : db.reservations.find? input.names with
  | none =>
    have absent : ∀ r ∈ db.reservations, input.names r = false :=
      fun r hr => by simpa using find?_eq_none.1 found r hr
    have h : Unreserved input db := ⟨balanced, positive, absent⟩
    have start : (Race.start db).Sound input db := .early _ _ rfl .checking .checking
    have hope : (Race.start db).Hope := .inl rfl
    obtain ⟨final, serial, -⟩ := Race.run_sound h turns funded start
    obtain ⟨now, view, run, mine, theirs⟩ := final.ended (ended .first) (ended .second)
    obtain ⟨active, once⟩ := h.heldOnce run
    refine ⟨?_, fun _ => ⟨view.id, once⟩⟩
    rw [← serial hope]
    have past (c : Caller) : ((turns.foldl (Race.step input) (.start db)).calls c).stage.checks = false := by
      have := ended c
      cases hs : ((turns.foldl (Race.step input) (.start db)).calls c).stage <;> simp_all [Stage.ended, Stage.checks]
    constructor
    · rintro ⟨view', returned, -⟩
      refine ⟨fun r hr names => ?_, .inr (.inr ⟨?_, ?_⟩)⟩
      · rw [absent r hr] at names
        cases names
      · exact succeeded_iff.2 ⟨view', returned .first⟩
      · exact succeeded_iff.2 ⟨view', returned .second⟩
    · rintro ⟨-, first | second | ⟨won, won'⟩⟩
      · rw [past .first] at first
        cases first
      · rw [past .second] at second
        cases second
      · refine ⟨view, fun c => ?_, active, once⟩
        cases c with
        | first => exact mine won
        | second => exact theirs won'
  | some r =>
    have hr := mem_of_find?_eq_some found
    have names := find?_some found
    obtain ⟨final, along⟩ := Settled.run positive found turns (s := .start db) ⟨rfl, fun _ => .inl rfl⟩
    have only : ∀ r' ∈ db.reservations, input.names r' = true → r' = r := by
      intro r' hr' names'
      refine eq_of_key unique hr' hr ?_
      simp only [ReserveInput.names, decide_eq_true_eq] at names names'
      simp [names, names']
    have returned (c : Caller) : ((turns.foldl (Race.step input) (.start db)).calls c).stage =
        .returned (known input db r) := by
      rcases final.calls c with checking | returned
      · have := ended c
        rw [checking] at this
        cases this
      · exact returned
    refine ⟨?_, fun absent => ?_⟩
    · constructor
      · rintro ⟨view, both, -⟩
        refine ⟨fun r' hr' names' => ?_, along⟩
        rw [only r' hr' names']
        have answered := (both .first).symm.trans (returned .first)
        unfold known at answered
        by_contra unfit
        rw [if_neg unfit] at answered
        cases answered
      · rintro ⟨fits, -⟩
        have fit := fits r hr names
        refine ⟨toReservationView db r, fun c => ?_, fit.1, ?_⟩
        · rw [returned c, known, if_pos fit]
        · rw [final.db]
          refine HeldOnce.of_row balanced (perm_singleton.1 ?_) fit.1 fit.2
          have distinct : db.reservations.Nodup := Nodup.of_map _ unique
          rw [perm_ext_iff_of_nodup (distinct.filter _) (nodup_singleton r)]
          intro r'
          rw [mem_filter, mem_singleton]
          exact ⟨fun found => only r' found.1 found.2, fun same => same ▸ ⟨hr, names⟩⟩
    · rw [absent r hr] at names
      cases names

instance (input : ReserveInput) (db : Db) (now : Int) : Decidable (Funded input db now) :=
  inferInstanceAs (Decidable (_ ≤ _))

def Stage.error : Stage → Option TxError
  | .returned (.error e) => some e
  | _ => none

namespace FirstRun

def request (estimate : Int) : ReserveInput := ⟨7, "request", estimate, none⟩

/-- The first call is done before the second asks. -/
def inTurn : List Turn := replicate 8 ⟨.first, 1⟩ ++ [⟨.second, 1⟩]

/-- Both ask before either has its locks. -/
def crossed : List Turn :=
  [⟨.first, 1⟩, ⟨.second, 1⟩] ++ replicate 7 ⟨.first, 1⟩ ++ replicate 2 ⟨.second, 1⟩

def race (estimate : Int) (turns : List Turn) : Race :=
  turns.foldl (Race.step (request estimate)) (.start (World.empty.run [topup, confirmed]).db)

end FirstRun

open FirstRun in
theorem request_reserved_once_in_turn : BothReserved (request 600000) (race 600000 inTurn) :=
  (request_reserved_once .empty .empty [topup, confirmed] (request 600000) (by decide) inTurn (by decide +kernel)
    (fun c => by cases c <;> decide +kernel)).1.2 ⟨by decide +kernel, by decide +kernel⟩

open FirstRun in
/-- The buckets hold a million. Of two calls for 600000 the second finds too
little left; of two for 400000 it meets the unique index, which is not retried. -/
theorem crossed_requests_fail :
    ((race 600000 crossed).calls .second).stage.error =
        some (.billing .insufficientUsage "Not enough usage remaining") ∧
      ((race 400000 crossed).calls .second).stage.error =
        some (.uniqueConstraint "usage_reservation_userId_requestId_key") ∧
      (∀ t ∈ crossed, Funded (request 400000) (World.empty.run [topup, confirmed]).db t.now) ∧
      ¬ BothReserved (request 600000) (race 600000 crossed) ∧ ¬ BothReserved (request 400000) (race 400000 crossed) := by
  have late : ((race 600000 crossed).calls .second).stage.error =
      some (.billing .insufficientUsage "Not enough usage remaining") := by decide +kernel
  have taken : ((race 400000 crossed).calls .second).stage.error =
      some (.uniqueConstraint "usage_reservation_userId_requestId_key") := by decide +kernel
  refine ⟨late, taken, by decide +kernel, ?_, ?_⟩
  · rintro ⟨view, both, -⟩
    rw [both .second] at late
    cases late
  · rintro ⟨view, both, -⟩
    rw [both .second] at taken
    cases taken

end Vimla.Billing
