import Vimla.Billing.Allocation

/-!
# Reserving, settling and releasing usage

`BillingEngine.reserveUsage`, `settleUsage` and `releaseUsage`, each the body
of one transaction. The loops write a bucket row from the copy that
`lockUserBuckets` returned and keep that copy in step, as the source does;
`Vimla.Billing.Payouts` shows that the copies never differ from the rows.
-/

namespace Vimla.Billing

open Rows

structure AllocationView where
  bucketId : Nat
  reservedMicroRub : Int
  settledMicroRub : Int
  deriving DecidableEq

structure ReservationView where
  id : Nat
  userId : Nat
  requestId : String
  estimatedMicroRub : Int
  settledMicroRub : Int
  status : ReservationStatus
  allocations : List AllocationView
  deriving DecidableEq

def Db.allocationsOf (db : Db) (reservationId : Nat) : List UsageReservationAllocation :=
  db.allocations.filter fun a => a.reservationId = reservationId

def toReservationView (db : Db) (r : UsageReservation) : ReservationView :=
  ⟨r.id, r.userId, r.requestId, r.estimatedMicroRub, r.settledMicroRub, r.status,
    (db.allocationsOf r.id).map fun a => ⟨a.bucketId, a.reservedMicroRub, a.settledMicroRub⟩⟩

def getReservation (db : Db) (reservationId : Nat) : Except TxError ReservationView :=
  match find UsageReservation.id reservationId db.reservations with
  | none => .error (.error "No UsageReservation found")
  | some reservation => .ok (toReservationView db reservation)

/-- The user's buckets that are unexpired or named, in spending order. -/
def lockUserBuckets (db : Db) (now : Int) (userId : Nat) (includeIds : List Nat) :
    List LockedBucket :=
  sortBuckets ((db.buckets.filter fun b =>
    b.userId = userId ∧ (b.id ∈ includeIds ∨ unexpired now b.expiresAt)).map UsageBucket.locked)

def lockReservationForUser (db : Db) (userId reservationId : Nat) :
    Except TxError UsageReservation :=
  match db.reservations.find? fun r => r.id = reservationId ∧ r.userId = userId with
  | none => .error (.billing .reservationNotFound "Reservation was not found")
  | some reservation => .ok reservation

structure ReserveInput where
  userId : Nat
  requestId : String
  estimatedProviderCostMicroRub : Int
  correlationId : Option String := none

def reserveLoop (input : ReserveInput) (reservationId : Nat) :
    List ReservationAllocationPlan → Db → List LockedBucket → Except TxError Db
  | [], db, _ => .ok db
  | allocation :: rest, db, buckets =>
    match find LockedBucket.id allocation.bucketId buckets with
    | none => .error (.billing .financialOperationFailed "Allocation bucket missing")
    | some bucket =>
      let db := (db.createAllocation reservationId allocation.bucketId allocation.reservedMicroRub).1
      let db := db.updateBucket bucket.id fun row =>
        { row with reservedMicroRub := bucket.reservedMicroRub + allocation.reservedMicroRub }
      let buckets := update LockedBucket.id bucket.id (fun b =>
        { b with reservedMicroRub := b.reservedMicroRub + allocation.reservedMicroRub }) buckets
      let db := db.appendLedger {
        userId := input.userId
        bucketId := some bucket.id
        reservationId := some reservationId
        type := .reservationCreated
        amountMicroRub := 0
        metadata := {
          correlationId := input.correlationId
          reservedMicroRub := some allocation.reservedMicroRub
          requestId := some input.requestId } }
      reserveLoop input reservationId rest db buckets

def reserveUsage (now : Int) (input : ReserveInput) (db : Db) :
    Except TxError (Db × ReservationView) :=
  if input.estimatedProviderCostMicroRub ≤ 0 then
    .error (.billing .insufficientUsage "Estimated usage must be greater than zero")
  else
    match db.reservations.find? fun r =>
        r.userId = input.userId ∧ r.requestId = input.requestId with
    | some existing =>
      if existing.status = .active ∧
          existing.estimatedMicroRub = input.estimatedProviderCostMicroRub then
        .ok (db, toReservationView db existing)
      else
        .error (.billing .reservationConflict
          "Reservation requestId already exists with a different state")
    | none =>
      let buckets := lockUserBuckets db now input.userId []
      match planReservationAllocations buckets input.estimatedProviderCostMicroRub with
      | none => .error (.billing .insufficientUsage "Not enough usage remaining")
      | some allocations => do
        let (db, reservation) :=
          db.createReservation input.userId input.requestId input.estimatedProviderCostMicroRub
        let db ← reserveLoop input reservation.id allocations db buckets
        return (db, ← getReservation db reservation.id)

structure SettleInput where
  userId : Nat
  reservationId : Nat
  actualMicroRub : Int
  correlationId : Option String := none

/-- The two clock readings of a settle: when the buckets are locked and when
the spendable ones are chosen. -/
structure SettleClock where
  lockedAt : Int
  spendableAt : Int
  ordered : lockedAt ≤ spendableAt

def orderAllocations (allocations : List UsageReservationAllocation) (buckets : List LockedBucket) :
    List UsageReservationAllocation :=
  let rank (id : Nat) := (buckets.findIdx? fun b => b.id = id).getD 0
  allocations.insertionSort fun left right => rank left.bucketId ≤ rank right.bucketId

def spendableBuckets (now : Int) (buckets : List LockedBucket) : List LockedBucket :=
  buckets.filter fun b => unexpired now b.expiresAt

/-- What the two loops of a settle carry from bucket to bucket. -/
structure Settling where
  db : Db
  buckets : List LockedBucket
  allocationOrder : List UsageReservationAllocation

def extraLoop (reservationId : Nat) :
    List ReservationAllocationPlan → Settling → Except TxError Settling
  | [], s => .ok s
  | extra :: rest, s =>
    match find LockedBucket.id extra.bucketId s.buckets with
    | none => .error (.billing .financialOperationFailed "Extra bucket missing")
    | some bucket =>
      let grow (a : UsageReservationAllocation) :=
        { a with reservedMicroRub := a.reservedMicroRub + extra.reservedMicroRub }
      let (db, allocationOrder) :=
        match find UsageReservationAllocation.bucketId extra.bucketId s.allocationOrder with
        | some existing =>
          (s.db.updateAllocation existing.id fun a =>
              { a with reservedMicroRub := existing.reservedMicroRub + extra.reservedMicroRub },
            update UsageReservationAllocation.id existing.id grow s.allocationOrder)
        | none =>
          let (db, created) :=
            s.db.createAllocation reservationId extra.bucketId extra.reservedMicroRub
          (db, s.allocationOrder ++ [created])
      let db := db.updateBucket bucket.id fun row =>
        { row with reservedMicroRub := bucket.reservedMicroRub + extra.reservedMicroRub }
      let buckets := update LockedBucket.id bucket.id (fun b =>
        { b with reservedMicroRub := b.reservedMicroRub + extra.reservedMicroRub }) s.buckets
      extraLoop reservationId rest ⟨db, buckets, allocationOrder⟩

/-- The ledger rows of one settled allocation. -/
def settleEntries (input : SettleInput) (reservationId bucketId : Nat)
    (settleAmount releaseAmount : Int) : List UsageLedgerEntry :=
  (if settleAmount > 0 then [{
    userId := input.userId
    bucketId := some bucketId
    reservationId := some reservationId
    type := .usageSettled
    amountMicroRub := -settleAmount
    metadata := {
      correlationId := input.correlationId
      settledMicroRub := some settleAmount } }] else []) ++
  (if releaseAmount > 0 then [{
    userId := input.userId
    bucketId := some bucketId
    reservationId := some reservationId
    type := .reservationReleased
    amountMicroRub := 0
    metadata := {
      correlationId := input.correlationId
      releasedMicroRub := some releaseAmount } }] else [])

def settleLoop (input : SettleInput) (reservationId : Nat) :
    List UsageReservationAllocation → Int → Db → List LockedBucket → Except TxError Db
  | [], _, db, _ => .ok db
  | allocation :: rest, remainingToSettle, db, buckets =>
    let settleAmount :=
      if remainingToSettle < allocation.reservedMicroRub then remainingToSettle
      else allocation.reservedMicroRub
    let releaseAmount := allocation.reservedMicroRub - settleAmount
    match find LockedBucket.id allocation.bucketId buckets with
    | none => .error (.billing .financialOperationFailed "Settle bucket missing")
    | some bucket =>
      let db := db.updateAllocation allocation.id fun a => { a with settledMicroRub := settleAmount }
      let db := db.updateBucket bucket.id fun row =>
        { row with
          reservedMicroRub := bucket.reservedMicroRub - allocation.reservedMicroRub
          spentMicroRub := bucket.spentMicroRub + settleAmount }
      let buckets := update LockedBucket.id bucket.id (fun b =>
        { b with
          reservedMicroRub := b.reservedMicroRub - allocation.reservedMicroRub
          spentMicroRub := b.spentMicroRub + settleAmount }) buckets
      let db := (settleEntries input reservationId bucket.id settleAmount releaseAmount).foldl
        Db.appendLedger db
      settleLoop input reservationId rest (remainingToSettle - settleAmount) db buckets

/-- Settle an `ACTIVE` reservation, funding an excess over the estimate when
the unexpired buckets can and clipping to the estimate when they cannot. -/
def settleActive (clock : SettleClock) (input : SettleInput) (reservation : UsageReservation)
    (db : Db) : Except TxError (Db × ReservationView) := do
  let allocations := db.allocationsOf reservation.id
  let buckets := lockUserBuckets db clock.lockedAt input.userId (allocations.map (·.bucketId))
  let allocationOrder := orderAllocations allocations buckets
  let extra := input.actualMicroRub - reservation.estimatedMicroRub
  let (s, actual, anomaly) ←
    if input.actualMicroRub > reservation.estimatedMicroRub then
      match planReservationAllocations (spendableBuckets clock.spendableAt buckets) extra with
      | some extraPlan => do
        let s ← extraLoop reservation.id extraPlan ⟨db, buckets, allocationOrder⟩
        let db := s.db.updateReservation reservation.id fun r =>
          { r with estimatedMicroRub := reservation.estimatedMicroRub + extra }
        pure ({ s with db := db }, input.actualMicroRub, false)
      | none => pure (⟨db, buckets, allocationOrder⟩, reservation.estimatedMicroRub, true)
    else pure (⟨db, buckets, allocationOrder⟩, input.actualMicroRub, false)
  let db ← settleLoop input reservation.id s.allocationOrder actual s.db s.buckets
  let nextStatus : ReservationStatus := if anomaly then .anomaly else .settled
  let db := db.updateReservation reservation.id fun r =>
    { r with settledMicroRub := actual, status := nextStatus }
  return (db, ← getReservation db reservation.id)

def settleUsage (clock : SettleClock) (input : SettleInput) (db : Db) :
    Except TxError (Db × ReservationView) :=
  if input.actualMicroRub < 0 then
    .error (.billing .financialOperationFailed "Actual usage cannot be negative")
  else
    match lockReservationForUser db input.userId input.reservationId with
    | .error e => .error e
    | .ok reservation =>
      match reservation.status with
      | .settled =>
        if reservation.settledMicroRub = input.actualMicroRub then do
          return (db, ← getReservation db reservation.id)
        else
          .error (.billing .reservationConflict "Reservation already settled at a different amount")
      | .released =>
        .error (.billing .reservationAlreadyReleased "Released reservations cannot be settled")
      | .anomaly =>
        .error (.billing .reservationConflict "Anomalous reservations cannot be settled again")
      | .active => settleActive clock input reservation db

structure ReleaseInput where
  userId : Nat
  reservationId : Nat
  correlationId : Option String := none

def releaseEntry (input : ReleaseInput) (reservationId bucketId : Nat) (released : Int) :
    UsageLedgerEntry where
  userId := input.userId
  bucketId := some bucketId
  reservationId := some reservationId
  type := .reservationReleased
  amountMicroRub := 0
  metadata := { correlationId := input.correlationId, releasedMicroRub := some released }

def releaseLoop (input : ReleaseInput) (reservationId : Nat) :
    List UsageReservationAllocation → Db → List LockedBucket → Except TxError Db
  | [], db, _ => .ok db
  | allocation :: rest, db, buckets =>
    match find LockedBucket.id allocation.bucketId buckets with
    | none => .error (.billing .financialOperationFailed "Release bucket missing")
    | some bucket =>
      let db := db.updateBucket bucket.id fun row =>
        { row with reservedMicroRub := bucket.reservedMicroRub - allocation.reservedMicroRub }
      let buckets := update LockedBucket.id bucket.id (fun b =>
        { b with reservedMicroRub := b.reservedMicroRub - allocation.reservedMicroRub }) buckets
      let db := db.updateAllocation allocation.id fun a => { a with settledMicroRub := 0 }
      let db := db.appendLedger
        (releaseEntry input reservationId bucket.id allocation.reservedMicroRub)
      releaseLoop input reservationId rest db buckets

def releaseActive (now : Int) (input : ReleaseInput) (reservation : UsageReservation) (db : Db) :
    Except TxError (Db × ReservationView) := do
  let allocations := db.allocationsOf reservation.id
  let buckets := lockUserBuckets db now input.userId (allocations.map (·.bucketId))
  let db ← releaseLoop input reservation.id allocations db buckets
  let db := db.updateReservation reservation.id fun r =>
    { r with status := .released, settledMicroRub := 0 }
  return (db, ← getReservation db reservation.id)

def releaseUsage (now : Int) (input : ReleaseInput) (db : Db) :
    Except TxError (Db × ReservationView) :=
  match lockReservationForUser db input.userId input.reservationId with
  | .error e => .error e
  | .ok reservation =>
    match reservation.status with
    | .released => do return (db, ← getReservation db reservation.id)
    | .settled | .anomaly =>
      .error (.billing .reservationAlreadySettled "Settled reservations cannot be released")
    | .active => releaseActive now input reservation db

end Vimla.Billing
