import Vimla.Billing.UsageViews

/-!
# Two transactions for one request

The statements of two `reserveUsage` calls with one input, in any order, under
READ COMMITTED: a statement sees the committed rows and its own writes,
`SELECT … FOR UPDATE` waits for the rows another transaction has locked, and an
insert waits for one of the same key that is not committed yet.
-/

namespace Vimla.Billing

def MAX_TRANSACTION_ATTEMPTS : Nat := 3

/-- `String.prototype.includes`. -/
def includes (text part : String) : Bool := decide (part.toList <:+: text.toList)

def isRetryableTransactionError (code message : String) : Bool :=
  code = "P2034" || code = "P2028" || includes message "40001" || includes message "40P01" ||
    includes (message.map Char.toLower) "deadlock"

/-- Whether `withRetry` runs the transaction again. A violated unique index is
`P2002`; the other errors have no code. -/
def TxError.retryable : TxError → Bool
  | .billing _ _ => false
  | .error message => isRetryableTransactionError "" message
  | .uniqueConstraint index => isRetryableTransactionError "P2002" ("Unique constraint failed on " ++ index)
  | .checkConstraint name => isRetryableTransactionError "" ("violates check constraint " ++ name)

inductive Write
  | createReservation (row : UsageReservation)
  | createAllocation (row : UsageReservationAllocation)
  | setReserved (bucketId : Nat) (reservedMicroRub : Int)
  | appendLedger (entry : UsageLedgerEntry)

def Db.write (db : Db) : Write → Db
  | .createReservation row => { db with reservations := db.reservations ++ [row] }
  | .createAllocation row => { db with allocations := db.allocations ++ [row] }
  | .setReserved bucketId reserved => db.updateBucket bucketId fun row => { row with reservedMicroRub := reserved }
  | .appendLedger entry => db.appendLedger entry

def Db.writes (db : Db) (ws : List Write) : Db := ws.foldl Db.write db

/-- What the transaction knows once its reservation is inserted: the row's id,
the locked copies and what it has written. -/
structure Work where
  reservationId : Nat
  buckets : List LockedBucket
  written : List Write

/-- The three statements for each bucket of the plan. -/
inductive Statement
  | createAllocation (p : ReservationAllocationPlan)
  | updateBucket (p : ReservationAllocationPlan)
  | appendLedger (p : ReservationAllocationPlan)

def statements (p : ReservationAllocationPlan) : List Statement :=
  [.createAllocation p, .updateBucket p, .appendLedger p]

/-- Ids are drawn at once, rows wait for the commit. -/
def Work.execute (input : ReserveInput) (w : Work) (db : Db) : Statement → Except TxError (Db × Work)
  | .createAllocation p =>
    match Rows.find LockedBucket.id p.bucketId w.buckets with
    | none => .error (.billing .financialOperationFailed "Allocation bucket missing")
    | some _ => .ok ({ db with nextId := db.nextId + 1 }, { w with
        written := w.written ++ [.createAllocation ⟨db.nextId, w.reservationId, p.bucketId, p.reservedMicroRub, 0⟩] })
  | .updateBucket p =>
    match Rows.find LockedBucket.id p.bucketId w.buckets with
    | none => .error (.billing .financialOperationFailed "Allocation bucket missing")
    | some bucket => .ok (db, { w with
        written := w.written ++ [.setReserved bucket.id (bucket.reservedMicroRub + p.reservedMicroRub)]
        buckets := Rows.update LockedBucket.id bucket.id (fun b =>
          { b with reservedMicroRub := b.reservedMicroRub + p.reservedMicroRub }) w.buckets })
  | .appendLedger p => .ok (db, { w with
      written := w.written ++ [.appendLedger (holdEntry input w.reservationId p)] })

/-- The statement that a call sends next. -/
inductive Stage
  | checking
  | locking (now : Int)
  | inserting (buckets : List LockedBucket) (plan : List ReservationAllocationPlan)
  | writing (w : Work) (todo : List Statement)
  | committing (w : Work) (view : ReservationView)
  | returned (result : Except TxError ReservationView)

structure ReserveCall where
  attempt : Nat
  stage : Stage

def ReserveCall.to_ (c : ReserveCall) (stage : Stage) : ReserveCall := { c with stage := stage }

/-- The transaction is rolled back; `withRetry` starts it again or throws. -/
def ReserveCall.fail (c : ReserveCall) (e : TxError) : ReserveCall :=
  if e.retryable then
    if c.attempt < MAX_TRANSACTION_ATTEMPTS then ⟨c.attempt + 1, .checking⟩
    else c.to_ (.returned (.error (.billing .financialOperationFailed
      "The financial operation could not be completed safely")))
  else c.to_ (.returned (.error e))

/-- The bucket rows that the call has locked. -/
def Stage.locked : Stage → List Nat
  | .inserting buckets _ => buckets.map LockedBucket.id
  | .writing w _ | .committing w _ => w.buckets.map LockedBucket.id
  | _ => []

/-- It has inserted a reservation that is not committed. -/
def Stage.inserted : Stage → Bool
  | .writing _ _ | .committing _ _ => true
  | _ => false

def ReserveInput.names (input : ReserveInput) (r : UsageReservation) : Bool :=
  decide (r.userId = input.userId ∧ r.requestId = input.requestId)

/-- The next statement of a call, beside a call that stands at `other`. -/
def ReserveCall.advance (input : ReserveInput) (other : Stage) (now : Int) (db : Db) (c : ReserveCall) : Db × ReserveCall :=
  match c.stage with
  | .checking =>
    if input.estimatedProviderCostMicroRub ≤ 0 then
      (db, c.fail (.billing .insufficientUsage "Estimated usage must be greater than zero"))
    else
      match db.reservations.find? input.names with
      | some existing =>
        if existing.status = .active ∧ existing.estimatedMicroRub = input.estimatedProviderCostMicroRub then
          (db, c.to_ (.returned (.ok (toReservationView db existing))))
        else (db, c.fail (.billing .reservationConflict
          "Reservation requestId already exists with a different state"))
      | none => (db, c.to_ (.locking now))
  | .locking now =>
    let buckets := lockUserBuckets db now input.userId []
    if buckets.any fun b => b.id ∈ other.locked then (db, c)
    else
      match planReservationAllocations buckets input.estimatedProviderCostMicroRub with
      | none => (db, c.fail (.billing .insufficientUsage "Not enough usage remaining"))
      | some plan => (db, c.to_ (.inserting buckets plan))
  | .inserting buckets plan =>
    if other.inserted then (db, c)
    else if db.reservations.any input.names then
      (db, c.fail (.uniqueConstraint "usage_reservation_userId_requestId_key"))
    else
      ({ db with nextId := db.nextId + 1 }, c.to_ (.writing ⟨db.nextId, buckets, [.createReservation
        ⟨db.nextId, input.userId, input.requestId, input.estimatedProviderCostMicroRub, 0, .active⟩]⟩
        (plan.flatMap statements)))
  | .writing w [] =>
    match getReservation (db.writes w.written) w.reservationId with
    | .error e => (db, c.fail e)
    | .ok view => (db, c.to_ (.committing w view))
  | .writing w (statement :: todo) =>
    match w.execute input db statement with
    | .error e => (db, c.fail e)
    | .ok (db, w) => (db, c.to_ (.writing w todo))
  | .committing w view => (db.writes w.written, c.to_ (.returned (.ok view)))
  | .returned _ => (db, c)

inductive Caller | first | second
  deriving DecidableEq

def Caller.other : Caller → Caller
  | .first => .second
  | .second => .first

/-- The tables as committed, with ids drawn so far, and the two calls. -/
structure Race where
  db : Db
  calls : Caller → ReserveCall

/-- One call sends its next statement; its clock shows `now`. -/
structure Turn where
  caller : Caller
  now : Int

namespace Race

def start (db : Db) : Race := ⟨db, fun _ => ⟨1, .checking⟩⟩

def step (input : ReserveInput) (s : Race) (t : Turn) : Race :=
  let (db, call) := (s.calls t.caller).advance input (s.calls t.caller.other).stage t.now s.db
  ⟨db, Function.update s.calls t.caller call⟩

end Race

/-- The rest of the transaction from its insert on, alone. -/
def finish (input : ReserveInput) : List Statement → Db → Work → Except TxError (Db × ReservationView)
  | [], db, w =>
    match getReservation (db.writes w.written) w.reservationId with
    | .error e => .error e
    | .ok view => .ok (db.writes w.written, view)
  | statement :: todo, db, w =>
    match w.execute input db statement with
    | .error e => .error e
    | .ok (db, w) => finish input todo db w

theorem writes_append (db : Db) (ws ws' : List Write) : db.writes (ws ++ ws') = (db.writes ws).writes ws' :=
  List.foldl_append

theorem writes_nextId (db : Db) (ws : List Write) : (db.writes ws).nextId = db.nextId := by
  induction ws generalizing db with
  | nil => rfl
  | cons w ws ih =>
    have one : (db.write w).nextId = db.nextId := by cases w <;> rfl
    rw [← one]
    exact ih (db.write w)

/-- Drawing an id and writing rows commute. -/
theorem writes_draw (db : Db) (n : Nat) (ws : List Write) :
    ({ db with nextId := n } : Db).writes ws = { db.writes ws with nextId := n } := by
  induction ws generalizing db with
  | nil => rfl
  | cons w ws ih =>
    have one : ({ db with nextId := n } : Db).write w = { db.write w with nextId := n } := by cases w <;> rfl
    change (({ db with nextId := n } : Db).write w).writes ws = _
    rw [one, ih (db.write w)]
    rfl

/-- The three writes for a bucket, on top of earlier ones. -/
theorem writes_bucket (db : Db) (ws : List Write) (reservationId bucketId : Nat) (amount reserved : Int)
    (entry : UsageLedgerEntry) :
    ({ db with nextId := db.nextId + 1 } : Db).writes (ws ++
        [.createAllocation ⟨db.nextId, reservationId, bucketId, amount, 0⟩] ++ [.setReserved bucketId reserved] ++
        [.appendLedger entry]) =
      (((db.writes ws).createAllocation reservationId bucketId amount).1.updateBucket bucketId fun row =>
        { row with reservedMicroRub := reserved }).appendLedger entry := by
  rw [writes_append, writes_append, writes_append, writes_draw db (db.nextId + 1) ws]
  simp only [Db.createAllocation, writes_nextId]
  rfl

/-- Statement by statement the plan is carried out as the loop does it. -/
theorem finish_plan (input : ReserveInput) (plan : List ReservationAllocationPlan) (db : Db) (w : Work) :
    finish input (plan.flatMap statements) db w =
      match reserveLoop input w.reservationId plan (db.writes w.written) w.buckets with
      | .error e => .error e
      | .ok db' =>
        match getReservation db' w.reservationId with
        | .error e => .error e
        | .ok view => .ok (db', view) := by
  induction plan generalizing db w with
  | nil => rfl
  | cons p plan ih =>
    cases found : Rows.find LockedBucket.id p.bucketId w.buckets with
    | none =>
      simp [statements, finish, Work.execute, reserveLoop, found]
    | some bucket =>
      simp only [List.flatMap_cons, statements, List.cons_append, List.nil_append, finish, Work.execute, found,
        reserveLoop]
      have hid : bucket.id = p.bucketId := (Rows.mem_of_find found).2
      rw [ih, hid]
      simp only [writes_bucket]
      rfl

end Vimla.Billing
