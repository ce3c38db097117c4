import Vimla.Billing.Economics
import Vimla.Lib.ReadCommitted
import Vimla.Lib.Runs

/-!
# Publishing and retiring versions

`policy-admin.ts`, and the plan versions of `tariff-admin.ts`, statement by
statement: every call reads the version, checks its status and then writes in
statements of their own. Columns that these statements do not write, the
entitlements of a plan version and the confirmation of a low margin are left
out; a call can end without writing at any point.
-/

namespace Vimla.Billing.PolicyAdmin

open ReadCommitted

inductive PolicyTable
  | planVersion | topupPolicyVersion | paymentFeePolicyVersion | fiscalizationFeePolicyVersion
  | taxReservePolicyVersion | businessGuardrailVersion
  deriving DecidableEq

/-- The rows among which one is published. -/
inductive Scope
  | plan (planId : Nat)
  | topup
  | paymentFee (provider paymentMethod : String)
  | fiscalization (provider mode : String)
  | taxReserve
  | guardrail
  deriving DecidableEq

def Scope.table : Scope → PolicyTable
  | plan _ => .planVersion
  | topup => .topupPolicyVersion
  | paymentFee _ _ => .paymentFeePolicyVersion
  | fiscalization _ _ => .fiscalizationFeePolicyVersion
  | taxReserve => .taxReservePolicyVersion
  | guardrail => .businessGuardrailVersion

/-- In a plan version `effectiveFrom` and `effectiveTo` are `validFrom` and `validTo`. -/
structure Version where
  id : Nat
  scope : Scope
  status : PolicyStatus
  effectiveFrom : Int
  effectiveTo : Option Int := none
  publishedAt : Option Int := none
  retiredAt : Option Int := none
  deriving DecidableEq

abbrev VersionKey := PolicyTable × Nat

def Version.key (v : Version) : VersionKey := (v.scope.table, v.id)

/-- The trigger `reject_published_commercial_update`, on the columns that are
written here. Guardrails have no such trigger. -/
def rejectPublishedCommercialUpdate (old new : Version) : Bool :=
  old.scope.table ≠ .businessGuardrailVersion ∧ old.status ≠ .draft ∧
    new.effectiveFrom ≠ old.effectiveFrom

def immutableMessage : PolicyTable → String
  | .planVersion => "published plan_version commercial fields are immutable"
  | .topupPolicyVersion => "published topup_policy_version commercial fields are immutable"
  | .paymentFeePolicyVersion => "published payment_fee_policy_version commercial fields are immutable"
  | .fiscalizationFeePolicyVersion =>
    "published fiscalization_fee_policy_version commercial fields are immutable"
  | .taxReservePolicyVersion => "published tax_reserve_policy_version commercial fields are immutable"
  | .businessGuardrailVersion => ""

def Version.retire (v : Version) (now : Int) : Version :=
  { v with status := .retired, retiredAt := some now, effectiveTo := some now }

def Version.publish (v : Version) (now : Int) : Version :=
  { v with status := .published, publishedAt := some now, effectiveFrom := now, effectiveTo := none }

/-- The `where` of the statement that retires what is published. -/
def published (scope : Scope) (v : Version) : Bool := v.scope = scope ∧ v.status = .published

/-- The transaction of a publish. `seen` are the rows that matched when the
statement that retires them began, and `rest` those of them it has yet to lock. -/
structure Publication where
  key : VersionKey
  scope : Scope
  now : Int
  seen : List VersionKey
  rest : List VersionKey
  writes : List Version := []
  updated : Bool := false

inductive Call
  | idle
  | publish (table : PolicyTable) (id : Nat)
  | draftFound (key : VersionKey) (scope : Scope)
  | publishing (tx : Publication)
  | retirePlanVersion (id : Nat)
  | publishedFound (key : VersionKey)
  | failed (error : TxError)
  | done

def notDraftMessage : PolicyTable → String
  | .planVersion => "Only DRAFT plan versions can be edited"
  | .topupPolicyVersion => "Only a DRAFT top-up policy can be published"
  | .paymentFeePolicyVersion => "Only a DRAFT payment fee policy can be published"
  | .fiscalizationFeePolicyVersion => "Only a DRAFT fiscalization policy can be published"
  | .taxReservePolicyVersion => "Only a DRAFT tax reserve policy can be published"
  | .businessGuardrailVersion => "Only a DRAFT guardrail can be published"

structure State where
  table : Table Version VersionKey
  calls : Nat → Call

def State.versions (s : State) : List Version := s.table.rows

def State.find (s : State) (key : VersionKey) : Option Version := s.table.find Version.key key

def initial (rows : List Version) : State := ⟨⟨rows, fun _ => none⟩, fun _ => .idle⟩

/-- The caller goes on to `call`. -/
def State.to (s : State) (caller : Nat) (call : Call) : State :=
  { s with calls := Function.update s.calls caller call }

def State.withTable (s : State) (table : Table Version VersionKey) : State := { s with table := table }

/-- `create` with status `DRAFT`; the id is new. -/
def createDraft (s : State) (id : Nat) (scope : Scope) (now : Int) : State :=
  if (scope.table, id) ∈ s.versions.map Version.key then s
  else s.withTable { s.table with
    rows := s.versions ++ [{ id := id, scope := scope, status := .draft, effectiveFrom := now }] }

/-- The read before the transaction, and the check of the status. -/
def findUnique (s : State) (caller : Nat) : State :=
  match s.calls caller with
  | .publish table id =>
    match s.find (table, id) with
    | some draft =>
      if draft.status = .draft then s.to caller (.draftFound (table, id) draft.scope)
      else s.to caller (.failed (.billing .planNotFound (notDraftMessage table)))
    | none => s.to caller (.failed (.billing .planNotFound (notDraftMessage table)))
  | .retirePlanVersion id =>
    match s.find (.planVersion, id) with
    | some version =>
      if version.status = .published then s.to caller (.publishedFound (.planVersion, id))
      else s.to caller (.failed (.billing .planNotFound "Only a published plan version can be retired"))
    | none =>
      s.to caller (.failed (.billing .planNotFound "Only a published plan version can be retired"))
  | _ => s

/-- The transaction begins with `updateMany`, on the rows published then. -/
def updateMany (s : State) (caller : Nat) (now : Int) : State :=
  match s.calls caller with
  | .draftFound key scope =>
    let seen := (s.versions.filter (published scope)).map Version.key
    s.to caller (.publishing { key := key, scope := scope, now := now, seen := seen, rest := seen })
  | _ => s

/-- `updateMany` gets to a row when no other transaction holds it, and reads it again. -/
def retireRow (s : State) (caller : Nat) (key : VersionKey) : State :=
  match s.calls caller with
  | .publishing tx =>
    if key ∈ tx.rest ∧ s.table.free caller key then
      let visited := { tx with rest := tx.rest.filter fun k => k ≠ key }
      match s.find key with
      | some row =>
        if published tx.scope row then
          (s.withTable (s.table.lock caller key)).to caller
            (.publishing { visited with writes := write Version.key (row.retire tx.now) tx.writes })
        else s.to caller (.publishing visited)
      | none => s.to caller (.publishing visited)
    else s
  | _ => s

/-- `update` of the version to be published, whatever its status is by now. -/
def publishRow (s : State) (caller : Nat) : State :=
  match s.calls caller with
  | .publishing tx =>
    if tx.rest = [] ∧ ¬ tx.updated ∧ s.table.free caller tx.key then
      match s.table.latest Version.key tx.writes tx.key with
      | none =>
        (s.withTable (s.table.release caller)).to caller (.failed (.error "Record to update not found"))
      | some row =>
        if rejectPublishedCommercialUpdate row (row.publish tx.now) then
          (s.withTable (s.table.release caller)).to caller
            (.failed (.error (immutableMessage row.scope.table)))
        else
          (s.withTable (s.table.lock caller tx.key)).to caller
            (.publishing { tx with
              writes := write Version.key (row.publish tx.now) tx.writes
              updated := true })
    else s
  | _ => s

def commit (s : State) (caller : Nat) : State :=
  match s.calls caller with
  | .publishing tx =>
    if tx.updated then (s.withTable (s.table.commit Version.key caller tx.writes)).to caller .done else s
  | _ => s

/-- The `update` of `retirePlanVersion`, a transaction of its own. -/
def retireVersion (s : State) (caller : Nat) (now : Int) : State :=
  match s.calls caller with
  | .publishedFound key =>
    if s.table.free caller key then
      match s.find key with
      | none => s.to caller (.failed (.error "Record to update not found"))
      | some row =>
        (s.withTable (s.table.commit Version.key caller [row.retire now])).to caller .done
    else s
  | _ => s

/-- The call throws, and its transaction is rolled back. -/
def abandon (s : State) (caller : Nat) : State :=
  (s.withTable (s.table.release caller)).to caller .done

inductive Event
  | createDraft (id : Nat) (scope : Scope) (now : Int)
  | publish (caller : Nat) (table : PolicyTable) (id : Nat)
  | retirePlanVersion (caller : Nat) (id : Nat)
  | findUnique (caller : Nat)
  | updateMany (caller : Nat) (now : Int)
  | retireRow (caller : Nat) (key : VersionKey)
  | publishRow (caller : Nat)
  | commit (caller : Nat)
  | retireVersion (caller : Nat) (now : Int)
  | abandon (caller : Nat)

def publishTopup (caller id : Nat) : Event := .publish caller .topupPolicyVersion id
def publishPaymentFee (caller id : Nat) : Event := .publish caller .paymentFeePolicyVersion id
def publishFiscalization (caller id : Nat) : Event := .publish caller .fiscalizationFeePolicyVersion id
def publishTaxReserve (caller id : Nat) : Event := .publish caller .taxReservePolicyVersion id
def publishGuardrail (caller id : Nat) : Event := .publish caller .businessGuardrailVersion id
def publishPlanVersion (caller id : Nat) : Event := .publish caller .planVersion id

/-- A call is made once by its caller. -/
def State.request (s : State) (caller : Nat) (call : Call) : State :=
  match s.calls caller with
  | .idle => s.to caller call
  | _ => s

def step (s : State) : Event → State
  | .createDraft id scope now => createDraft s id scope now
  | .publish caller table id => s.request caller (.publish table id)
  | .retirePlanVersion caller id => s.request caller (.retirePlanVersion id)
  | .findUnique caller => findUnique s caller
  | .updateMany caller now => updateMany s caller now
  | .retireRow caller key => retireRow s caller key
  | .publishRow caller => publishRow s caller
  | .commit caller => commit s caller
  | .retireVersion caller now => retireVersion s caller now
  | .abandon caller => abandon s caller

end Vimla.Billing.PolicyAdmin
