import Vimla.Lib.Runs

/-!
# Coordination leases

`direct-chat-ratchet-coordination.ts` and `withFallbackRatchetLease` of
`crypto-store.ts`: browser tabs share a lock table in IndexedDB. Each call has an
owner id of its own and runs its transactions in order, at any time after it has
read the clock for them.
-/

namespace Vimla.DirectChats

structure RatchetLeaseRecord where
  owner : String
  expiresAt : Int
  fence : Option Nat := none
  hardExpiresAt : Option Int := none
  deriving DecidableEq

def RatchetLeaseRecord.fenceNumber (r : RatchetLeaseRecord) : Nat := r.fence.getD 0

def canAcquireRatchetLease (current : Option RatchetLeaseRecord) (owner : String) (now : Int) : Bool :=
  current.all fun r => r.owner = owner ∨ r.expiresAt ≤ now

/-- The record when it is the owner's own. -/
def ownRecord (current : Option RatchetLeaseRecord) (owner : String) : Option RatchetLeaseRecord :=
  current.filter fun r => r.owner = owner

def acquireRatchetLeaseRecord (current : Option RatchetLeaseRecord) (owner : String) (now leaseMs maxHoldMs : Int) :
    Option (Nat × RatchetLeaseRecord) :=
  if leaseMs ≤ 0 ∨ maxHoldMs < leaseMs ∨ ¬ canAcquireRatchetLease current owner now then none
  else
    let currentFence := (current.map (·.fenceNumber)).getD 0
    let fence := if (ownRecord current owner).isSome then max 1 currentFence else currentFence + 1
    let hardExpiresAt := match (ownRecord current owner).bind (·.hardExpiresAt) with
      | some hard => if hard > now then hard else now + maxHoldMs
      | none => now + maxHoldMs
    some (fence, {
      owner, fence := some fence, hardExpiresAt := some hardExpiresAt,
      expiresAt := min (now + leaseMs) hardExpiresAt })

def renewRatchetLeaseRecord (current : Option RatchetLeaseRecord) (owner : String) (fence : Nat) (now leaseMs : Int) :
    Option RatchetLeaseRecord :=
  match current with
  | none => none
  | some current =>
    if current.owner ≠ owner ∨ current.fenceNumber ≠ fence ∨ current.expiresAt ≤ now then none
    else
      let hardExpiresAt := current.hardExpiresAt.getD current.expiresAt
      if hardExpiresAt ≤ now then none
      else some {
        owner, fence := some fence, hardExpiresAt := some hardExpiresAt,
        expiresAt := min (now + leaseMs) hardExpiresAt }

/-- A value of the store `ratchetLocks`. -/
inductive StoredLock
  | record (r : RatchetLeaseRecord)
  | other
  deriving DecidableEq

def MAX_SAFE_INTEGER : Nat := 2 ^ 53 - 1

/-- `isRatchetLeaseRecord`, with the record. -/
def leaseRecord? : StoredLock → Option RatchetLeaseRecord
  | .record r => if r.owner ≠ "" ∧ r.fence.all (· ≤ MAX_SAFE_INTEGER) then some r else none
  | .other => none

/-- What a transaction finds; `none` when it aborts on an invalid record. -/
def currentLease : Option StoredLock → Option (Option RatchetLeaseRecord)
  | none => some none
  | some raw => (leaseRecord? raw).map some

structure CoordinationLease where
  key : String
  owner : String
  fence : Nat

def RATCHET_LOCK_LEASE_MS : Int := 5000

/-- Whether `assertActiveCoordinationLease` does not throw. -/
def assertActiveCoordinationLease (value : Option StoredLock) (lease : CoordinationLease) (now : Int) : Bool :=
  match value.bind leaseRecord? with
  | none => false
  | some r =>
    r.owner = lease.owner ∧ r.fenceNumber = lease.fence ∧ ¬ r.expiresAt ≤ now ∧ r.hardExpiresAt.all (¬ · ≤ now)

inductive Answer (α : Type)
  | aborted
  | unchanged
  | changed (value : α) (next : StoredLock)

def tryAcquireRatchetLease (raw : Option StoredLock) (owner : String) (now maxHoldMs : Int) : Answer Nat :=
  match currentLease raw with
  | none => .aborted
  | some current =>
    match acquireRatchetLeaseRecord current owner now RATCHET_LOCK_LEASE_MS maxHoldMs with
    | none => .unchanged
    | some (fence, record) => .changed fence (.record record)

def renewRatchetLease (raw : Option StoredLock) (owner : String) (fence : Nat) (now : Int) : Answer Unit :=
  match currentLease raw with
  | none => .aborted
  | some current =>
    match renewRatchetLeaseRecord current owner fence now RATCHET_LOCK_LEASE_MS with
    | none => .unchanged
    | some record => .changed () (.record record)

/-- What the transaction leaves in the table. -/
def releaseRatchetLease (raw : Option StoredLock) (owner : String) (fence : Nat) : Option StoredLock :=
  match raw.bind leaseRecord? with
  | none => raw
  | some current =>
    if current.owner = owner ∧ current.fenceNumber = fence then
      some (.record { owner, fence := some fence, expiresAt := 0 })
    else raw

inductive Phase
  | waiting
  | acquiring (now : Int)
  | holding (fence : Nat)
  | released (fence : Nat)
  | failed

/-- A call of `withFallbackRatchetLease`; `seen` is what `assertCoordinationLease` has read and not judged yet. -/
structure Call where
  key : String
  maxHoldMs : Int
  phase : Phase := .waiting
  renewing : Option Int := none
  lost : Bool := false
  seen : Option (Option StoredLock) := none

def Call.fence? (call : Call) : Option Nat :=
  match call.phase with
  | .holding fence => some fence
  | .released fence => some fence
  | _ => none

structure World where
  clock : Int
  locks : String → Option StoredLock
  calls : String → Option Call

inductive Event
  | tick (ms : Nat)
  | ask (owner : String)
  | acquire (owner : String)
  | beat (owner : String)
  | renew (owner : String)
  | look (owner : String)
  | judge (owner : String)
  | release (owner : String)

def Event.owner? : Event → Option String
  | .tick _ => none
  | .ask o | .acquire o | .beat o | .renew o | .look o | .judge o | .release o => some o

namespace World

def setCall (s : World) (owner : String) (call : Call) : World :=
  { s with calls := Function.update s.calls owner (some call) }

def setLock (s : World) (key : String) (raw : Option StoredLock) : World :=
  { s with locks := Function.update s.locks key raw }

/-- What a call does next, where the event is the one it is ready for. -/
def act (s : World) (owner : String) (call : Call) : Event → World
  | .ask _ => match call.phase with
    | .waiting => s.setCall owner { call with phase := .acquiring s.clock }
    | _ => s
  | .acquire _ => match call.phase with
    | .acquiring now => match tryAcquireRatchetLease (s.locks call.key) owner now call.maxHoldMs with
      | .aborted => s.setCall owner { call with phase := .failed }
      | .unchanged => s.setCall owner { call with phase := .waiting }
      | .changed fence next =>
        (s.setLock call.key (some next)).setCall owner { call with phase := .holding fence }
    | _ => s
  | .beat _ => match call.phase, call.renewing, call.lost with
    | .holding _, none, false => s.setCall owner { call with renewing := some s.clock }
    | _, _, _ => s
  | .renew _ => match call.fence?, call.renewing with
    | some fence, some now => match renewRatchetLease (s.locks call.key) owner fence now with
      | .changed _ next => (s.setLock call.key (some next)).setCall owner { call with renewing := none }
      | _ => s.setCall owner { call with renewing := none, lost := true }
    | _, _ => s
  | .look _ => match call.phase, call.seen with
    | .holding _, none => s.setCall owner { call with seen := some (s.locks call.key) }
    | _, _ => s
  | .judge _ => s.setCall owner { call with seen := none }
  | .release _ => match call.phase, call.seen with
    | .holding fence, none =>
      (s.setLock call.key (releaseRatchetLease (s.locks call.key) owner fence)).setCall owner
        { call with phase := .released fence }
    | _, _ => s
  | .tick _ => s

def step (s : World) (e : Event) : World :=
  match e with
  | .tick ms => { s with clock := s.clock + ms }
  | .ask o | .acquire o | .beat o | .renew o | .look o | .judge o | .release o =>
    match s.calls o with
    | none => s
    | some call => s.act o call e

/-- Nobody has asked for a lease yet. -/
def start (clock : Int) (locks : String → Option StoredLock) (calls : String → Option (String × Int)) : World :=
  ⟨clock, locks, fun owner => (calls owner).map fun c => { key := c.1, maxHoldMs := c.2 }⟩

end World

end Vimla.DirectChats
