import Vimla.Lib.Checks
import Vimla.Lib.Sorting
import Vimla.TextChat.Budget

/-!
# Mentions of a message

The registry of handles, how the mentions of a message are resolved against it,
and the route that the resolved mentions give the message. A list that resolves
has the kinds, handles and ranges that were asked for; only the target of a
model's handle is the registry's.
-/

namespace Vimla.TextChat

inductive HandleKind | USER | SYSTEM_AGENT | AI_MODEL | RESERVED
  deriving DecidableEq

inductive HandleStatus | PENDING | ACTIVE | RETIRED
  deriving DecidableEq

/-- A row of `handle`. -/
structure Handle where
  id : String
  handle : String
  normalized : String
  kind : HandleKind
  status : HandleStatus
  userId : Option Nat
  aiModelId : Option String
  systemKey : Option String

structure PriceVersion where
  effectiveFrom : Int
  effectiveTo : Option Int

structure AiModel where
  id : String
  active : Bool
  visible : Bool
  priceVersions : List PriceVersion

inductive MentionKind | USER | SYSTEM_AGENT | AI_AUTO | AI_MODEL
  deriving DecidableEq

/-- A mention as the body of a request has it. -/
structure MessageMentionInput where
  handleId : String
  kind : MentionKind
  canonicalHandle : String
  startOffset : Nat
  endOffset : Nat
  range : startOffset < endOffset
  deriving DecidableEq

/-- The column `targetId`: the key of a user, a model or a system agent. -/
inductive MentionTarget
  | user (id : Nat)
  | model (id : String)
  | system (key : String)
  deriving DecidableEq

structure MessageMentionView where
  handleId : String
  kind : MentionKind
  targetId : MentionTarget
  canonicalHandle : String
  startOffset : Nat
  endOffset : Nat
  deriving DecidableEq

inductive ChatMessageRoute | CHAT | ORCHESTRATION
  deriving DecidableEq

def routeFor (mentions : List MessageMentionView) : ChatMessageRoute :=
  if mentions.any fun mention => mention.kind ≠ .USER then .ORCHESTRATION else .CHAT

def invalidMention (message : String) : Thrown := .http message 400

def kindForHandle (handle : Handle) : Option MentionKind :=
  if handle.kind = .USER ∧ handle.userId.isSome then some .USER
  else if handle.kind = .AI_MODEL ∧ handle.aiModelId.isSome then some .AI_MODEL
  else if handle.kind = .SYSTEM_AGENT ∧ handle.systemKey = some "VIMLA" then some .SYSTEM_AGENT
  else if handle.kind = .SYSTEM_AGENT ∧ handle.systemKey = some "AI_AUTO" then some .AI_AUTO
  else none

/-- `/[A-Za-z0-9._-]/` on a code unit. -/
def handleCharacter (u : Nat) : Bool :=
  (0x41 ≤ u ∧ u ≤ 0x5A) ∨ (0x61 ≤ u ∧ u ≤ 0x7A) ∨ (0x30 ≤ u ∧ u ≤ 0x39) ∨ u = 0x2E ∨ u = 0x5F ∨ u = 0x2D

def matchesToken (content : String) (mention : MessageMentionInput) : Bool :=
  let text := Js.codeUnits content
  let token := Js.codeUnits ("@" ++ mention.canonicalHandle)
  let before := if 0 < mention.startOffset then text[mention.startOffset - 1]? else none
  let after := text[mention.endOffset]?
  (text.drop mention.startOffset).take (mention.endOffset - mention.startOffset) = token &&
    !before.any handleCharacter && !after.any handleCharacter

def compareOffsets (left right : MessageMentionInput) : Ordering :=
  (compare left.startOffset right.startOffset).then (compare left.endOffset right.endOffset)

/-- The mentions in the order of their ranges. -/
def ordered (mentions : List MessageMentionInput) : List MessageMentionInput := Js.sort compareOffsets mentions

def overlap : List MessageMentionInput → Bool
  | previous :: current :: rest => current.startOffset < previous.endOffset || overlap (current :: rest)
  | _ => false

/-- The handles that the first query reads. -/
def mentionedHandles (registry : List Handle) (mentions : List MessageMentionInput) : List Handle :=
  registry.filter fun handle => mentions.any fun mention => mention.handleId = handle.id

/-- The models that the second query reads and that have a price at that time. -/
def invocableModels (models : List AiModel) (handles : List Handle) (now : Int) : List String :=
  let found := models.filter fun model =>
    (handles.filterMap Handle.aiModelId).contains model.id && model.active && model.visible
  (found.filter fun model => model.priceVersions.any fun version =>
    version.effectiveFrom ≤ now && version.effectiveTo.all (now < ·)).map AiModel.id

def targetOf (userId : Nat) (invocable : List String) (handle : Handle) : MentionKind → Except Thrown MentionTarget
  | .USER =>
    if handle.userId = some userId then .ok (.user userId)
    else .error (invalidMention "Mentioned user is outside this conversation scope")
  | .AI_MODEL =>
    match handle.aiModelId with
    | some id =>
      if id ∈ invocable then .ok (.model id) else .error (invalidMention "Mentioned model is not currently invocable")
    | none => .error (invalidMention "Mentioned model is not currently invocable")
  | _ =>
    match handle.systemKey with
    | some key => .ok (.system key)
    | none => .error (invalidMention "Mentioned system target is invalid")

def resolveMention (userId : Nat) (content : String) (handles : List Handle) (invocable : List String)
    (mention : MessageMentionInput) : Except Thrown MessageMentionView :=
  match handles.find? fun handle => handle.id = mention.handleId with
  | none => .error (invalidMention "Mention target is not active")
  | some handle =>
    if handle.status ≠ .ACTIVE then .error (invalidMention "Mention target is not active")
    else if handle.normalized ≠ mention.canonicalHandle ∨ handle.handle ≠ mention.canonicalHandle then
      .error (invalidMention "Mention handle is stale")
    else if !matchesToken content mention then .error (invalidMention "Mention range does not match message text")
    else if kindForHandle handle ≠ some mention.kind then
      .error (invalidMention "Mention kind does not match the registry")
    else
      (targetOf userId invocable handle mention.kind).map fun targetId =>
        ⟨handle.id, mention.kind, targetId, handle.normalized, mention.startOffset, mention.endOffset⟩

/-- What follows the query of the handles. -/
def resolveOrdered (userId : Nat) (content : String) (mentions : List MessageMentionInput) (handles : List Handle)
    (models : List AiModel) (now : Int) : Except Thrown (List MessageMentionView) :=
  mentions.mapM (resolveMention userId content handles (invocableModels models handles now))

/-! ## What a resolved list has of the one asked for -/

/-- The view is of this mention. -/
structure Fits (userId : Nat) (mention : MessageMentionInput) (view : MessageMentionView) : Prop where
  handleId : view.handleId = mention.handleId
  kind : view.kind = mention.kind
  canonicalHandle : view.canonicalHandle = mention.canonicalHandle
  startOffset : view.startOffset = mention.startOffset
  endOffset : view.endOffset = mention.endOffset
  user : mention.kind = .USER → view.targetId = .user userId

section Resolution
variable {userId : Nat} {content : String} {handles : List Handle} {invocable : List String}
  {mention : MessageMentionInput} {view : MessageMentionView} {mentions : List MessageMentionInput}
  {views : List MessageMentionView}

theorem resolveMention_fits (resolved : resolveMention userId content handles invocable mention = .ok view) :
    Fits userId mention view := by
  unfold resolveMention at resolved
  split at resolved
  · cases resolved
  rename_i handle found
  have same : handle.id = mention.handleId := by simpa using List.find?_some found
  split at resolved
  · cases resolved
  split at resolved
  · cases resolved
  rename_i current
  split at resolved
  · cases resolved
  split at resolved
  · cases resolved
  have spelled : handle.normalized = mention.canonicalHandle := not_not.1 (not_or.1 current).1
  cases target : targetOf userId invocable handle mention.kind with
  | error e =>
    rw [target] at resolved
    cases resolved
  | ok targetId =>
    rw [target] at resolved
    cases resolved
    refine ⟨same, rfl, spelled, rfl, rfl, fun user => ?_⟩
    rw [user] at target
    simp only [targetOf] at target
    split at target
    · cases target
      rfl
    · cases target

variable {userId' : Nat}

/-- The views of one list are the views of no other. -/
theorem Fits.mention_eq {mention' : MessageMentionInput} (fits : Fits userId mention view)
    (fits' : Fits userId' mention' view) : mention = mention' := by
  cases mention
  cases mention'
  simp only [MessageMentionInput.mk.injEq]
  exact ⟨fits.handleId.symm.trans fits'.handleId, fits.kind.symm.trans fits'.kind,
    fits.canonicalHandle.symm.trans fits'.canonicalHandle, fits.startOffset.symm.trans fits'.startOffset,
    fits.endOffset.symm.trans fits'.endOffset⟩

theorem mentions_eq_of_fits {mentions' : List MessageMentionInput}
    (fits : List.Forall₂ (Fits userId) mentions views) (fits' : List.Forall₂ (Fits userId') mentions' views) :
    mentions = mentions' := by
  induction fits generalizing mentions' with
  | nil =>
    cases fits'
    rfl
  | cons first rest ih =>
    cases fits' with
    | cons first' rest' => rw [first.mention_eq first', ih rest']

/-- The route that a list of mentions gets if it resolves. -/
def routeOf (mentions : List MessageMentionInput) : ChatMessageRoute :=
  if mentions.any fun mention => mention.kind ≠ .USER then .ORCHESTRATION else .CHAT

theorem routeFor_eq (fits : List.Forall₂ (Fits userId) mentions views) : routeFor views = routeOf mentions := by
  have kinds : (views.any fun view => view.kind ≠ .USER) = mentions.any fun mention => mention.kind ≠ .USER := by
    induction fits with
    | nil => rfl
    | cons first rest ih => simp only [List.any_cons, ih, first.kind]
  rw [routeFor, routeOf, kinds]

theorem routeOf_ordered (mentions : List MessageMentionInput) : routeOf (ordered mentions) = routeOf mentions := by
  have same : ((ordered mentions).any fun mention => mention.kind ≠ .USER) =
      mentions.any fun mention => mention.kind ≠ .USER := (Js.sort_perm compareOffsets mentions).any_eq
  rw [routeOf, routeOf, same]

end Resolution

end Vimla.TextChat
