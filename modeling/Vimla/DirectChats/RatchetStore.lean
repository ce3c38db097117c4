import Vimla.DirectChats.PendingSends

/-!
# Stored sessions

The store `ratchets` of `crypto-store.ts`, and the transactions that write it: the
migration of a record that is not protected, `commitRatchet`, and
`commitOutboundRatchets`.
-/

namespace Vimla.DirectChats

open E2ee (DirectMessageKind SerializedRatchetState X3dhInitHeader)

/-- `protectLocalJson` and `unprotectLocalJson`; what is opened is also a state. -/
structure RatchetProtection where
  protectLocalJson : (iv : Nat) → (state : SerializedRatchetState) → (aad : String) → String
  unprotectLocalJson : (value aad : String) → Option SerializedRatchetState
  isProtectedLocalString : String → Bool

structure RatchetSnapshot where
  stateVersion : Nat
  state : SerializedRatchetState
  pendingX3dhInit : Option X3dhInitHeader

/-- A value of the store, by its `schemaVersion`. -/
inductive RatchetRecord
  | sealed (localDeviceId : String) (stateVersion : Nat) (protectedState : String)
      (pendingX3dhInit : Option X3dhInitHeader)
  | stored (localDeviceId : String) (stateVersion : Nat) (state : SerializedRatchetState)
      (pendingX3dhInit : Option X3dhInitHeader)
  | legacy (localDeviceId : String) (state : SerializedRatchetState)
  | other

/-- `RatchetLockScope`. -/
structure RatchetScope where
  conversationId : String
  localDeviceId : String
  peerDeviceId : String
  interactionEpoch : Int

def ratchetStorageKey (scope : RatchetScope) : String :=
  scope.conversationId ++ ":" ++ scope.localDeviceId ++ ":" ++ scope.peerDeviceId ++ ":" ++
    ("epoch-" ++ toString scope.interactionEpoch)

def ratchetStateAad (scope : RatchetScope) (stateVersion : Nat) : String :=
  "vimla:e2ee:ratchet" ++ ":" ++ ratchetStorageKey scope ++ ":" ++ toString stateVersion

def isX3dhInitHeader (init : X3dhInitHeader) : Bool := 0 ≤ init.signedPrekeyId ∧ init.oneTimePrekeyId.all (0 ≤ ·)

/-- `none` where it throws. -/
def decodeStoredRatchet (value : Option RatchetRecord) (localDeviceId : String) : Option (Option RatchetSnapshot) :=
  match value with
  | none => some none
  | some (.stored owner stateVersion state pendingX3dhInit) =>
    if owner ≠ "" ∧ 1 ≤ stateVersion ∧ pendingX3dhInit.all isX3dhInitHeader ∧ owner = localDeviceId then
      some (some ⟨stateVersion, state, pendingX3dhInit⟩)
    else none
  | some (.legacy owner state) =>
    if owner ≠ "" ∧ owner = localDeviceId then some (some ⟨0, state, none⟩) else none
  | some _ => none

section
variable (L : RatchetProtection)

def isProtectedRatchetRecord : RatchetRecord → Bool
  | .sealed localDeviceId _ protectedState _ => localDeviceId ≠ "" ∧ L.isProtectedLocalString protectedState
  | _ => false

def protectRatchetRecord (iv : Nat) (scope : RatchetScope) (snapshot : RatchetSnapshot) : RatchetRecord :=
  .sealed scope.localDeviceId snapshot.stateVersion
    (L.protectLocalJson iv snapshot.state (ratchetStateAad scope snapshot.stateVersion)) snapshot.pendingX3dhInit

/-- `none` where it throws. -/
def decodePersistedRatchet (value : Option RatchetRecord) (scope : RatchetScope) : Option (Option RatchetSnapshot) :=
  match value with
  | some (.sealed owner stateVersion protectedState pendingX3dhInit) =>
    if isProtectedRatchetRecord L (.sealed owner stateVersion protectedState pendingX3dhInit) ∧
        owner = scope.localDeviceId then
      (L.unprotectLocalJson protectedState (ratchetStateAad scope stateVersion)).bind fun state =>
        decodeStoredRatchet
          (some (if stateVersion = 0 then .legacy owner state else .stored owner stateVersion state pendingX3dhInit))
          scope.localDeviceId
    else none
  | value => decodeStoredRatchet value scope.localDeviceId

def snapshotVersion (snapshot : Option RatchetSnapshot) : Nat := snapshot.elim 0 (·.stateVersion)

inductive CommitError
  | emptyUpdateSet
  | duplicateUpdates
  | pendingSendConflict
  | pendingOperatorInvocationGone
  | ratchetStateConflict
  | ratchetStateCorrupt
  deriving DecidableEq

def assertPersistedRatchetVersion (value : Option RatchetRecord) (localDeviceId : String) (expectedVersion : Nat) :
    Except CommitError Unit :=
  match value with
  | some (.sealed owner stateVersion protectedState pendingX3dhInit) =>
    if isProtectedRatchetRecord L (.sealed owner stateVersion protectedState pendingX3dhInit) ∧ owner = localDeviceId then
      if stateVersion ≠ expectedVersion then .error .ratchetStateConflict else .ok ()
    else .error .ratchetStateCorrupt
  | value => match decodeStoredRatchet value localDeviceId with
    | none => .error .ratchetStateCorrupt
    | some current => if snapshotVersion current ≠ expectedVersion then .error .ratchetStateConflict else .ok ()

structure StoredPlaintext where
  protectionVersion : Option Nat := none
  conversationId : String
  messageId : String
  text : String
  kind : DirectMessageKind
  senderUserId : String
  clientMessageId : Option String
  contentCommitmentB64 : Option String
  senderDeviceId : Option String
  interactionEpoch : Option Int
  createdAt : String
  deriving DecidableEq

def plaintextAad (messageId : String) : String := "vimla:e2ee:plaintext:" ++ messageId ++ ":text"

def protectPlaintext (mode : Mode) (row : StoredPlaintext) : StoredPlaintext :=
  { row with protectionVersion := mode.version, text := mode.sealing row.text (plaintextAad row.messageId) }

/-- `none` where it throws. -/
def unprotectPlaintext (P : LocalProtection) (row : StoredPlaintext) : Option StoredPlaintext :=
  match row.protectionVersion.filter fun v => v = LEGACY_LOCAL_PROTECTION_VERSION ∨ v = LOCAL_PROTECTION_VERSION with
  | none => none
  | some version =>
    if version = LEGACY_LOCAL_PROTECTION_VERSION then
      if P.isProtectedLocalString row.text then none else some { row with protectionVersion := none }
    else (P.unprotectLocalString row.text (plaintextAad row.messageId)).map fun text =>
      { row with protectionVersion := none, text }

abbrev Ratchets := String → Option RatchetRecord

structure Stores where
  ratchets : Ratchets
  pendingSends : PendingSends
  plaintexts : String → Option StoredPlaintext

def Ratchets.put (ratchets : Ratchets) (scope : RatchetScope) (record : RatchetRecord) : Ratchets :=
  Function.update ratchets (ratchetStorageKey scope) (some record)

/-- The transaction of `migrateLegacyRatchet`; `none` when it aborts. -/
def migrateLegacyRatchet (iv : Nat) (scope : RatchetScope) (snapshot : RatchetSnapshot) (ratchets : Ratchets) :
    Option Ratchets :=
  match ratchets (ratchetStorageKey scope) with
  | none => some ratchets
  | some current =>
    if isProtectedRatchetRecord L current then some ratchets
    else match decodeStoredRatchet (some current) scope.localDeviceId with
      | none => none
      | some none => some ratchets
      | some (some now) =>
        if now.stateVersion ≠ snapshot.stateVersion then some ratchets
        else some (ratchets.put scope (protectRatchetRecord L iv scope snapshot))

structure RatchetUpdate where
  peerDeviceId : String
  expectedVersion : Nat
  state : SerializedRatchetState
  pendingX3dhInit : Option X3dhInitHeader

def RatchetUpdate.next (update : RatchetUpdate) : RatchetSnapshot :=
  ⟨update.expectedVersion + 1, update.state, update.pendingX3dhInit⟩

/-- The sessions of a local device in a conversation. -/
structure SessionGroup where
  conversationId : String
  localDeviceId : String
  interactionEpoch : Int

def SessionGroup.scope (group : SessionGroup) (peerDeviceId : String) : RatchetScope :=
  ⟨group.conversationId, group.localDeviceId, peerDeviceId, group.interactionEpoch⟩

def SessionGroup.assertVersion (group : SessionGroup) (ratchets : Ratchets) (update : RatchetUpdate) :
    Except CommitError Unit :=
  assertPersistedRatchetVersion L (ratchets (ratchetStorageKey (group.scope update.peerDeviceId))) group.localDeviceId
    update.expectedVersion

def SessionGroup.putNext (group : SessionGroup) (iv : String → Nat) (ratchets : Ratchets) (update : RatchetUpdate) :
    Ratchets :=
  ratchets.put (group.scope update.peerDeviceId)
    (protectRatchetRecord L (iv update.peerDeviceId) (group.scope update.peerDeviceId) update.next)

def commitRatchet (group : SessionGroup) (mode : Mode) (iv : String → Nat) (update : RatchetUpdate)
    (plaintext : Option StoredPlaintext) (db : Stores) : Except CommitError Stores := do
  group.assertVersion L db.ratchets update
  return { db with
    ratchets := group.putNext L iv db.ratchets update
    plaintexts := plaintext.elim db.plaintexts fun row =>
      Function.update db.plaintexts row.messageId (some (protectPlaintext mode row)) }

def commitOutboundRatchets (group : SessionGroup) (mode : Mode) (iv : String → Nat) (updates : List RatchetUpdate)
    (pendingSend : StoredPendingSend) (expectedPendingRevision : Option Nat) (db : Stores) : Except CommitError Stores := do
  if updates = [] then throw .emptyUpdateSet
  if ¬ (updates.map (·.peerDeviceId)).Nodup then throw .duplicateUpdates
  if (db.pendingSends.get pendingSend.clientMessageId).map pendingSendRevision ≠ expectedPendingRevision then
    throw .pendingSendConflict
  match commitPendingSend mode pendingSend expectedPendingRevision db.pendingSends with
  | none => throw .pendingOperatorInvocationGone
  | some pendingSends =>
    updates.forM (group.assertVersion L db.ratchets)
    return { db with ratchets := updates.foldl (group.putNext L iv) db.ratchets, pendingSends }

end

end Vimla.DirectChats
