import Vimla.Lib.Json
import Vimla.Lib.Rows
import Vimla.Lib.Transactions

/-!
# Handles

`HandleService` as programs of atomic steps. A read is a step of its own. From
its first write a transaction holds the rows it has written until it commits, so
all that a transaction writes is one step.
-/

namespace Vimla.Handles

open Threads Threads.Program

inductive HandleKind | USER | SYSTEM_AGENT | AI_MODEL | RESERVED
  deriving DecidableEq

inductive HandleStatus | PENDING | ACTIVE | RETIRED
  deriving DecidableEq

structure User where
  id : String
  emailVerified : Bool
  name : String

structure Handle where
  id : String
  handle : String
  normalized : String
  kind : HandleKind
  status : HandleStatus
  userId : Option String
  reservationExpiresAt : Option Int
  deriving DecidableEq

structure PublicProfile where
  userId : String
  handleId : String
  displayName : String

/-- The tables and the time; no statement reads the keys that were drawn. -/
structure Tables where
  users : List User
  handles : List Handle
  profiles : List PublicProfile
  now : Int
  drawn : List String

inductive HandleError
  | validation
  | conflict (code message : String)
  | error (message : String)
  /-- A query that failed. -/
  | database

structure ClaimedHandle where
  handle : String
  status : HandleStatus

/-- What the service takes from outside: the two functions on texts. -/
structure Config where
  toLowerCase : String → String
  /-- `publicProfileSchema.shape.displayName.safeParse`. -/
  displayName : String → Option String

variable (c : Config)

def HANDLE_MIN_LENGTH : Nat := 3

def HANDLE_MAX_LENGTH : Nat := 32

def PENDING_HANDLE_TTL_MS : Int := 24 * 60 * 60 * 1000

def normalizeHandleInput (value : String) : String :=
  c.toLowerCase (match value.toList with
    | '@' :: rest => String.ofList rest
    | _ => value)

/-- A lower-case letter or a digit. -/
def isHandleLetter (c : Char) : Bool := 'a' ≤ c ∧ c ≤ 'z' ∨ c.isDigit

def isSeparator (c : Char) : Bool := c = '.' ∨ c = '_'

/-- Two separators in a row. -/
def hasConsecutiveSeparators : List Char → Bool
  | a :: b :: rest => isSeparator a && isSeparator b || hasConsecutiveSeparators (b :: rest)
  | _ => false

/-- `handleSchema`. -/
def isHandle (value : String) : Bool :=
  Js.length value ≥ HANDLE_MIN_LENGTH ∧ Js.length value ≤ HANDLE_MAX_LENGTH ∧
    value.toList.all (fun c => isHandleLetter c || isSeparator c) ∧
    value.toList.head?.all isHandleLetter ∧ value.toList.getLast?.all isHandleLetter ∧
    ¬ hasConsecutiveSeparators value.toList

/-- `handleInputSchema.parse`. -/
def parseHandle (input : String) : Except HandleError String :=
  if Js.length input < 1 ∨ Js.length input > HANDLE_MAX_LENGTH + 1 then .error .validation
  else
    let handle := normalizeHandleInput c input
    if isHandle handle then .ok handle else .error .validation

def initialPublicDisplayName (accountName handle : String) : String := (c.displayName accountName).getD handle

inductive Step
  | cleanup (handle : String)
  | find (handle : String)
  | account (userId : String)
  | owned (userId : String)
  | reserved (handle : String)
  | renew (userId : String) (owned : Handle) (status : HandleStatus)
  | create (userId handle : String)
  | replace (userId : String) (row : Handle)
  | name (userId : String)
  | current (id : String)
  | promote (userId : String) (current : Handle)

/-- `Date.now()`, what becomes of the query, and `randomUUID()`. -/
structure At where
  date : Int
  fate : Fate
  uuid : String

abbrev Draw : Step → Type := fun _ => At

abbrev Process := Program Step Draw Tables HandleError

def query {α : Type} (l : Step) (f : Tables → At → Except HandleError (α × Tables)) : Process α :=
  transact l At.fate .database f

def read {α : Type} (l : Step) (f : Tables → α) : Process α := query l fun s _ => .ok (f s, s)

namespace Tables
variable (s : Tables)

def user (id : String) : Option User := Rows.find User.id id s.users

def handleOf (userId : String) : Option Handle := s.handles.find? fun h => h.userId = some userId

def handleNamed (normalized : String) : Option Handle := Rows.find Handle.normalized normalized s.handles

def handle (id : String) : Option Handle := Rows.find Handle.id id s.handles

def profile (userId : String) : Option PublicProfile := Rows.find PublicProfile.userId userId s.profiles

/-- A handle goes, and with it the profile that is bound to it. -/
def removeHandles (p : Handle → Bool) : Tables :=
  { s with
    handles := s.handles.filter fun h => !p h
    profiles := s.profiles.filter fun profile => !s.handles.any fun h => p h && h.id = profile.handleId && h.userId = some profile.userId }

def updateHandle (p : Handle → Bool) (f : Handle → Handle) : Tables :=
  { s with handles := s.handles.map fun h => if p h then f h else h }

/-- An insert, under the unique indexes of the table. -/
def insertHandle (h : Handle) : Except HandleError Tables :=
  if s.handles.any fun other => other.id = h.id || other.normalized = h.normalized || other.userId = h.userId && h.userId.isSome then
    .error (.conflict "handle_unavailable" "Handle is unavailable")
  else .ok { s with handles := s.handles ++ [h] }

/-- An insert, under the unique indexes and the foreign key of the table. -/
def insertProfile (p : PublicProfile) : Except HandleError Tables :=
  if s.profiles.any fun other => other.userId = p.userId || other.handleId = p.handleId then .error .database
  else if s.handles.any fun h => h.id = p.handleId && h.userId = some p.userId then .ok { s with profiles := s.profiles ++ [p] }
  else .error .database

end Tables

def ensurePublicProfile (userId handleId displayName : String) (s : Tables) : Except HandleError Tables :=
  match s.profile userId with
  | some existing =>
    if existing.handleId ≠ handleId then .error (.error "Public profile handle ownership invariant is invalid") else .ok s
  | none => s.insertProfile ⟨userId, handleId, displayName⟩

def statusFor (account : User) : HandleStatus := if account.emailVerified then .ACTIVE else .PENDING

def reservationFor (status : HandleStatus) (date : Int) : Option Int :=
  if status = .PENDING then some (date + PENDING_HANDLE_TTL_MS) else none

/-- The profile that an active handle has. -/
def withProfile (account : User) (handleId handle : String) (status : HandleStatus) (s : Tables) : Except HandleError Tables :=
  if status = .ACTIVE then ensurePublicProfile account.id handleId (initialPublicDisplayName c account.name handle) s else .ok s

/-- The account has the handle already: its status follows the account's. -/
def renew (account : User) (owned : Handle) (status : HandleStatus) (s : Tables) (d : At) :
    Except HandleError (ClaimedHandle × Tables) := do
  let s ← if owned.status ≠ status then
      if s.handles.any fun h => h.userId = some account.id then
        .ok (s.updateHandle (fun h => h.userId = some account.id) fun h =>
          { h with status := status, reservationExpiresAt := reservationFor status d.date })
      else .error .database
    else .ok s
  let s ← withProfile c account owned.id owned.handle status s
  return (⟨owned.handle, status⟩, s)

def create (account : User) (handle : String) (s : Tables) (d : At) : Except HandleError (ClaimedHandle × Tables) := do
  let status := statusFor account
  let id := "user:" ++ d.uuid
  let s ← { s with drawn := s.drawn ++ [id] }.insertHandle
    ⟨id, handle, handle, .USER, status, some account.id, reservationFor status d.date⟩
  let s ← withProfile c account id handle status s
  return (⟨handle, status⟩, s)

/-- `delete` by id, then the new handle. -/
def replace (account : User) (row : Handle) (handle : String) (s : Tables) (d : At) :
    Except HandleError (ClaimedHandle × Tables) :=
  if s.handles.any fun h => h.id = row.id then create c account handle (s.removeHandles fun h => h.id = row.id) d
  else .error .database

/-- The test of `releaseExpiredExactHandle`. -/
def expired (row : Handle) (claimingUserId : String) (date : Int) : Bool :=
  row.kind = .USER ∧ row.status = .PENDING ∧ row.userId ≠ some claimingUserId ∧ row.reservationExpiresAt.any (· < date)

def unavailable : HandleError := .conflict "handle_unavailable" "Handle is unavailable"

def claim (userId input : String) : Process (Option ClaimedHandle) :=
  (lift (parseHandle c input)).bind fun handle =>
  (read (.account userId) fun s => s.user userId).bind fun account =>
  match account with
  | none => .fail (.conflict "handle_claim_failed" "Handle claim failed")
  | some account =>
    (read (.owned userId) fun s => s.handleOf userId).bind fun owned =>
    match owned with
    | some owned =>
      if owned.handle ≠ handle then .fail (.conflict "handle_already_claimed" "This account already has a handle")
      else (query (.renew userId owned (statusFor account)) (renew c account owned (statusFor account))).bind fun answer =>
        .pure (some answer)
    | none =>
      (query (.reserved handle) fun s d => .ok ((s.handleNamed handle, d.date), s)).bind fun (row, date) =>
      match row with
      | none => (query (.create userId handle) (create c account handle)).bind fun answer => .pure (some answer)
      | some row =>
        if expired row userId date then
          (query (.replace userId row) (replace c account row handle)).bind fun answer => .pure (some answer)
        else .fail unavailable

/-- The update of `activateVerified`, and the profile. -/
def promote (userId name : String) (current : Handle) (s : Tables) (_ : At) : Except HandleError (ClaimedHandle × Tables) := do
  let s ← if s.handles.any fun h => h.id = current.id then
      .ok (s.updateHandle (fun h => h.id = current.id) fun h => { h with status := .ACTIVE, reservationExpiresAt := none })
    else .error .database
  let s ← ensurePublicProfile userId current.id (initialPublicDisplayName c name current.handle) s
  return (⟨current.handle, .ACTIVE⟩, s)

def activateVerified (userId : String) (emailVerified : Bool) : Process (Option ClaimedHandle) :=
  (read (.owned userId) fun s => s.handleOf userId).bind fun handle =>
  match handle with
  | none => .pure none
  | some handle =>
    if handle.kind ≠ .USER ∨ handle.status = .RETIRED then .pure none
    else if emailVerified = false ∨ handle.status = .ACTIVE then .pure (some ⟨handle.handle, handle.status⟩)
    else
      (read (.name userId) fun s => s.user userId).bind fun user =>
      match user with
      | none => .pure none
      | some user =>
        (read (.current handle.id) fun s => s.handle handle.id).bind fun current =>
        match current with
        | none => .pure none
        | some current =>
          if current.userId ≠ some userId ∨ current.kind ≠ .USER ∨ current.status = .RETIRED then .pure none
          else if current.status = .ACTIVE then .pure (some ⟨current.handle, .ACTIVE⟩)
          else (query (.promote userId current) (promote c userId user.name current)).bind fun answer => .pure (some answer)

/-- `cleanupExpiredPending`. -/
def cleanup (handle : String) (date : Int) (s : Tables) : Tables :=
  s.removeHandles fun h => h.normalized = handle ∧ h.kind = .USER ∧ h.status = .PENDING ∧ h.reservationExpiresAt.any (· < date)

/-- `some` where the handle is taken. -/
def availability (input : String) : Process (Option ClaimedHandle) :=
  (lift (parseHandle c input)).bind fun handle =>
  (query (.cleanup handle) fun s d => .ok ((), cleanup handle d.date s)).bind fun _ =>
  (read (.find handle) fun s => s.handleNamed handle).bind fun existing =>
  .pure (existing.map fun row => ⟨row.handle, row.status⟩)

inductive Call
  | claim (userId input : String)
  | availability (input : String)
  | activateVerified (userId : String) (emailVerified : Bool)

def Call.program : Call → Process (Option ClaimedHandle)
  | .claim userId input => Handles.claim c userId input
  | .availability input => Handles.availability c input
  | .activateVerified userId emailVerified => Handles.activateVerified c userId emailVerified

/-- Time passes; accounts are opened, renamed, verified and not verified any more. -/
inductive Change
  | tick (elapsed : Nat)
  | users (users : List User)

def Tables.change (s : Tables) : Change → Tables
  | .tick elapsed => { s with now := s.now + elapsed }
  | .users users => { s with users := users }

def service : System Step Draw Tables HandleError (Option ClaimedHandle) Call Change where
  program _ call := call.program c
  environment := Tables.change

end Vimla.Handles
