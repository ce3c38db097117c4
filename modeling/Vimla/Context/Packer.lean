import Vimla.Lib.Json
import Vimla.Lib.Sorting

/-!
# The context packer

`packContextItems` of `packer.ts` and what it reads of an item. Numbers are exact:
the value of a JSON number is a fraction. Regular expressions, `Date.parse` and
the operations of the locale are given.
-/

namespace Vimla.Context.Packing

open Js

/-- What the packer uses of the language and of its lists of patterns. -/
structure Runtime where
  localeCompare : String → String → Ordering
  toLocaleLowerCase : String → String
  normalizeNFKC : String → String
  /-- In milliseconds; `none` is `NaN`. -/
  dateParse : String → Option Int
  /-- The value of a finite number. -/
  value : Js.Number → Rat
  /-- The product of two numbers, rounded. -/
  times : Rat → Rat → Rat
  contextPatterns : List (String → Bool)
  SENSITIVE_PERSONAL_PATTERNS : List (String → Bool)

inductive ContextInvocationTargetKind | VIMLA | AI_AUTO | AI_MODEL | AGENT | EVALUATOR
  deriving DecidableEq

inductive ContextSourceType
  | USER_MESSAGE | CONVERSATION | MESSAGE | E2EE_DISCLOSURE | PARTICIPANT | PROJECT | WORKSPACE_OBJECT | ATTACHMENT
  | FILE_METADATA | ARTIFACT | COMPACTED_STATE | MEMORY | ENTITY | LOCALE_TIMEZONE | AUDIENCE
  deriving DecidableEq

def ContextSourceType.text : ContextSourceType → String
  | USER_MESSAGE => "USER_MESSAGE"
  | CONVERSATION => "CONVERSATION"
  | MESSAGE => "MESSAGE"
  | E2EE_DISCLOSURE => "E2EE_DISCLOSURE"
  | PARTICIPANT => "PARTICIPANT"
  | PROJECT => "PROJECT"
  | WORKSPACE_OBJECT => "WORKSPACE_OBJECT"
  | ATTACHMENT => "ATTACHMENT"
  | FILE_METADATA => "FILE_METADATA"
  | ARTIFACT => "ARTIFACT"
  | COMPACTED_STATE => "COMPACTED_STATE"
  | MEMORY => "MEMORY"
  | ENTITY => "ENTITY"
  | LOCALE_TIMEZONE => "LOCALE_TIMEZONE"
  | AUDIENCE => "AUDIENCE"

structure ContextSnapshotItemView where
  id : String
  sequence : Int
  sourceType : ContextSourceType
  metadata : Json

structure ContextBudget where
  contextWindowTokens : Int
  outputReserveTokens : Int
  systemToolReserveTokens : Int
  artifactReserveTokens : Int
  safetyMarginTokens : Int
  effectiveHistoryBudgetTokens : Nat
  compactedStateTriggerTokens : Int

def shouldUseCompactedState (rawHistoryTokens : Rat) (budget : ContextBudget) : Bool :=
  rawHistoryTokens ≥ budget.compactedStateTriggerTokens

inductive ContextPackingExclusionReason
  | CONTEXT_BUDGET_EXCLUDED | SOURCE_CONTRIBUTION_CAPPED | REDUNDANT_CANDIDATE | SENSITIVE_DATA_FILTERED
  | COMPACTED_STATE_NOT_REQUIRED | SUPERSEDED_CANDIDATE
  deriving DecidableEq

def ContextPackingExclusionReason.text : ContextPackingExclusionReason → String
  | CONTEXT_BUDGET_EXCLUDED => "CONTEXT_BUDGET_EXCLUDED"
  | SOURCE_CONTRIBUTION_CAPPED => "SOURCE_CONTRIBUTION_CAPPED"
  | REDUNDANT_CANDIDATE => "REDUNDANT_CANDIDATE"
  | SENSITIVE_DATA_FILTERED => "SENSITIVE_DATA_FILTERED"
  | COMPACTED_STATE_NOT_REQUIRED => "COMPACTED_STATE_NOT_REQUIRED"
  | SUPERSEDED_CANDIDATE => "SUPERSEDED_CANDIDATE"

inductive SelectionReason
  | IMMEDIATE | CURRENT_SURFACE | CURRENT_PROJECT | DIRECT_REFERENCE | AUTHORITATIVE | RELEVANT | RECENT | FALLBACK
  deriving DecidableEq

structure PackedContextSelection where
  item : ContextSnapshotItemView
  estimatedTokens : Nat
  selectionReason : SelectionReason

structure ContextPackingExclusion where
  item : ContextSnapshotItemView
  reason : ContextPackingExclusionReason

structure ContextPackingResult where
  selections : List PackedContextSelection
  exclusions : List ContextPackingExclusion
  usedTokens : Nat
  rawHistoryTokens : Rat
  compactedStateRequired : Bool

structure PackContextItemsInput where
  items : List ContextSnapshotItemView
  targetKind : ContextInvocationTargetKind
  budget : ContextBudget
  /-- `none` where it is missing or not finite. -/
  maxSourceShare : Option Rat

inductive Authority | AUTHORITATIVE | RAW | DERIVED
  deriving DecidableEq

structure RetrievalMetadata where
  sourceKind : String
  lexicalScore : Rat
  hybridScore : Rat
  directReference : Bool
  currentSurface : Bool
  currentProject : Bool
  authority : Authority
  occurredAt : Option String
  estimatedTokens : Option Rat
  rawHistoryTokens : Option Rat
  stale : Bool
  superseded : Bool

def defaultSourceKind : ContextSourceType → String
  | .USER_MESSAGE | .CONVERSATION | .PARTICIPANT | .LOCALE_TIMEZONE => "IMMEDIATE"
  | .MESSAGE | .E2EE_DISCLOSURE => "L1_RAW"
  | .WORKSPACE_OBJECT => "WORKSPACE_OBJECT"
  | .PROJECT => "PROJECT_OBJECT"
  | .ATTACHMENT | .FILE_METADATA => "FILE_METADATA"
  | .ARTIFACT => "ARTIFACT"
  | .COMPACTED_STATE => "L2_COMPACTED"
  | .MEMORY => "PERSONAL_MEMORY"
  | .ENTITY => "ENTITY"
  | .AUDIENCE => "IMMEDIATE"

def parseAuthority : Option Json → Authority
  | some (.string value) =>
    if value = "AUTHORITATIVE" then .AUTHORITATIVE
    else if value = "RAW" then .RAW
    else if value = "DERIVED" then .DERIVED
    else .RAW
  | _ => .RAW

def isTrue : Option Json → Bool
  | some (.boolean value) => value
  | _ => false

def asText : Option Json → Option String
  | some (.string value) => some value
  | _ => none

section
variable (R : Runtime)

/-- `typeof value === "number" && Number.isFinite(value)`. -/
def asFinite : Option Json → Option Rat
  | some (.number n) => if n.finite then some (R.value n) else none
  | _ => none

def retrievalMetadata (item : ContextSnapshotItemView) : RetrievalMetadata :=
  let retrieval (key : String) : Option Json := (item.metadata.field "retrieval").bind (Json.field key)
  let lexicalScore := (asFinite R (retrieval "lexicalScore")).getD 0
  {
    sourceKind := (asText (retrieval "sourceKind")).getD (defaultSourceKind item.sourceType)
    lexicalScore := lexicalScore
    hybridScore := (asFinite R (retrieval "hybridScore")).getD lexicalScore
    directReference := isTrue (retrieval "directReference")
    currentSurface := isTrue (retrieval "currentSurface") || item.sourceType = .USER_MESSAGE || item.sourceType = .CONVERSATION
    currentProject := isTrue (retrieval "currentProject")
    authority := parseAuthority (retrieval "authority")
    occurredAt := asText (retrieval "occurredAt")
    estimatedTokens := asFinite R (retrieval "estimatedTokens")
    rawHistoryTokens := asFinite R (retrieval "rawHistoryTokens")
    stale := isTrue (retrieval "stale")
    superseded := isTrue (retrieval "superseded")
  }

def stripRetrievalMetadata : Json → Json
  | .object fields => .object (fields.filter fun f => f.1 ≠ "retrieval")
  | value => value

/-- `key.endsWith(end_)`. -/
def endsWith (key end_ : String) : Bool := end_.toList.isSuffixOf key.toList

def skippedKeys : List String :=
  ["retrieval", "fingerprint", "createdAt", "updatedAt", "archivedAt", "deletedAt", "completedAt", "pinnedAt"]

mutual
/-- What is pushed to `parts`. -/
def collectStrings : Json → Nat → List String
  | value, depth => if depth > 5 then [] else
    match value with
    | .string s => [s]
    | .array items => collectItems items 64 depth
    | .object fields => collectFields fields depth
    | _ => []

/-- `value.slice(0, 64)`, of which `room` are left. -/
def collectItems : List Json → Nat → Nat → List String
  | [], _, _ => []
  | _, 0, _ => []
  | item :: items, room + 1, depth => collectStrings item (depth + 1) ++ collectItems items room depth

def collectFields : List (String × Json) → Nat → List String
  | [], _ => []
  | (key, entry) :: fields, depth =>
    (if key ∈ skippedKeys ∨ endsWith key "Id" then [] else collectStrings entry (depth + 1)) ++ collectFields fields depth
end

def collectSemanticText (value : Json) : String := "\n".intercalate (collectStrings value 0)

/-- `replace(/\s+/g, " ")`. -/
def collapseSpace : List Char → List Char
  | [] => []
  | [c] => if isSpace c then [' '] else [c]
  | c :: d :: rest =>
    if isSpace c then if isSpace d then collapseSpace (d :: rest) else ' ' :: collapseSpace (d :: rest)
    else c :: collapseSpace (d :: rest)

def semanticKey (item : ContextSnapshotItemView) : Option String :=
  let lower := R.toLocaleLowerCase (collectSemanticText (stripRetrievalMetadata item.metadata))
  let text := trim (String.ofList (collapseSpace lower.toList))
  if length text < 32 then none else some text

def containsSensitiveContextData (value : Json) : Bool :=
  let text := "\n".intercalate [collectSemanticText value, value.stringify]
  if text = "" then false else R.contextPatterns.any fun pattern => pattern text

def containsSensitivePersonalMemoryData (value : String) : Bool :=
  let text := R.toLocaleLowerCase (R.normalizeNFKC value)
  if trim text = "" then false else R.SENSITIVE_PERSONAL_PATTERNS.any fun pattern => pattern text

def isExternalModelTarget : ContextInvocationTargetKind → Bool
  | .AI_AUTO | .AI_MODEL | .AGENT => true
  | _ => false

def usesModelContext : ContextInvocationTargetKind → Bool
  | .VIMLA | .AI_AUTO | .AI_MODEL | .AGENT | .EVALUATOR => true

def containsSensitiveData (item : ContextSnapshotItemView) (targetKind : ContextInvocationTargetKind) : Bool :=
  let content := stripRetrievalMetadata item.metadata
  if containsSensitiveContextData R content then true
  else if !isExternalModelTarget targetKind then false
  else containsSensitivePersonalMemoryData R (collectSemanticText content)

def isImmediateUserMessage (item : ContextSnapshotItemView) : Bool :=
  let retrieval := retrievalMetadata R item
  item.sourceType = .USER_MESSAGE && retrieval.sourceKind = "IMMEDIATE" && retrieval.currentSurface && retrieval.directReference

def estimateConservativeTokens (value : String) : Nat := max 1 value.utf8ByteSize

def estimateItemTokens (item : ContextSnapshotItemView) : Nat :=
  match (retrievalMetadata R item).estimatedTokens with
  | some estimated =>
    if estimated > 0 then max 1 ⌈estimated⌉.toNat
    else estimateConservativeTokens (stripRetrievalMetadata item.metadata).stringify
  | none => estimateConservativeTokens (stripRetrievalMetadata item.metadata).stringify

def isMandatoryContextItem (item : ContextSnapshotItemView) : Bool :=
  item.sourceType = .USER_MESSAGE || item.sourceType = .CONVERSATION || item.sourceType = .PARTICIPANT ||
    item.sourceType = .LOCALE_TIMEZONE

def sourceGroup (item : ContextSnapshotItemView) : String :=
  let sourceKind := (retrievalMetadata R item).sourceKind
  if sourceKind ≠ "" then sourceKind else item.sourceType.text

def selectionReason (item : ContextSnapshotItemView) : SelectionReason :=
  let retrieval := retrievalMetadata R item
  if isMandatoryContextItem item then .IMMEDIATE
  else if retrieval.currentSurface then .CURRENT_SURFACE
  else if retrieval.currentProject then .CURRENT_PROJECT
  else if retrieval.directReference then .DIRECT_REFERENCE
  else if retrieval.authority = .AUTHORITATIVE then .AUTHORITATIVE
  else if retrieval.lexicalScore > 0 then .RELEVANT
  else if retrieval.occurredAt.any (· ≠ "") then .RECENT
  else .FALLBACK

def sourcePriority (sourceKind : String) : Nat :=
  if sourceKind = "IMMEDIATE" then 0
  else if sourceKind = "L1_RAW" then 1
  else if sourceKind = "L2_COMPACTED" then 2
  else if sourceKind = "DIRECT_REFERENCE" then 3
  else if sourceKind = "PROJECT_OBJECT" then 4
  else if sourceKind = "WORKSPACE_OBJECT" ∨ sourceKind = "FILE_METADATA" then 5
  else if sourceKind = "OLDER_HISTORY" then 6
  else if sourceKind = "PERSONAL_MEMORY" ∨ sourceKind = "PROJECT_MEMORY" ∨ sourceKind = "ENTITY" then 7
  else if sourceKind = "CROSS_CONVERSATION" then 8
  else if sourceKind = "ARTIFACT" then 9
  else 10

def authorityRank : Authority → Nat
  | .AUTHORITATIVE => 3
  | .RAW => 2
  | .DERIVED => 1

def compareBoolean (left right : Bool) : Ordering :=
  if left = right then .eq else if left then .lt else .gt

def compareDateDesc (left right : Option String) : Ordering :=
  let parse (date : Option String) : Option Int := (date.filter (· ≠ "")).bind R.dateParse
  match parse left, parse right with
  | none, none => .eq
  | none, some _ => .gt
  | some _, none => .lt
  | some a, some b => compare b a

/-- The first of the comparisons that is not zero. -/
def compareCandidates (left right : ContextSnapshotItemView) : Ordering :=
  let a := retrievalMetadata R left
  let b := retrievalMetadata R right
  (compareBoolean (isMandatoryContextItem left) (isMandatoryContextItem right)).then <|
  (compareBoolean a.currentSurface b.currentSurface).then <|
  (compareBoolean a.directReference b.directReference).then <|
  (compareBoolean a.currentProject b.currentProject).then <|
  (compare (authorityRank b.authority) (authorityRank a.authority)).then <|
  (compare (sourcePriority a.sourceKind) (sourcePriority b.sourceKind)).then <|
  (compare b.hybridScore a.hybridScore).then <|
  (compareBoolean (!a.stale) (!b.stale)).then <|
  (compareDateDesc R a.occurredAt b.occurredAt).then <|
  (compare left.sequence right.sequence).then <|
  R.localeCompare left.id right.id

def clampRatio : Option Rat → Rat
  | none => 55 / 100
  | some value => min (9 / 10) (max (2 / 10) value)

/-- The running totals, with the exclusions of `trySelect` alone. -/
structure Totals where
  selected : List PackedContextSelection := []
  exclusions : List ContextPackingExclusion := []
  usedTokens : Nat := 0
  sourceUsage : String → Nat := fun _ => 0

variable (effectiveBudget sourceCap : Nat)

/-- Why an item that is not selected is refused. -/
def refusal (enforceSourceCap : Bool) (totals : Totals) (item : ContextSnapshotItemView) :
    Option ContextPackingExclusionReason :=
  if totals.usedTokens + estimateItemTokens R item > effectiveBudget then some .CONTEXT_BUDGET_EXCLUDED
  else if enforceSourceCap ∧ totals.sourceUsage (sourceGroup R item) + estimateItemTokens R item > sourceCap then
    some .SOURCE_CONTRIBUTION_CAPPED
  else none

def trySelect (enforceSourceCap : Bool) (totals : Totals) (item : ContextSnapshotItemView) : Totals :=
  if totals.selected.any (·.item.id = item.id) then totals
  else
    match refusal R effectiveBudget sourceCap enforceSourceCap totals item with
    | some reason => { totals with exclusions := totals.exclusions ++ [⟨item, reason⟩] }
    | none =>
      let group := sourceGroup R item
      {
        totals with
        selected := totals.selected ++ [⟨item, estimateItemTokens R item, selectionReason R item⟩]
        usedTokens := totals.usedTokens + estimateItemTokens R item
        sourceUsage := fun g => if g = group then totals.sourceUsage group + estimateItemTokens R item else totals.sourceUsage g
      }

/-- The first item of each group, in order; `seen` are the groups before. -/
def bestPerGroup : List ContextSnapshotItemView → List String → List ContextSnapshotItemView
  | [], _ => []
  | item :: items, seen =>
    if sourceGroup R item ∈ seen then bestPerGroup items seen
    else item :: bestPerGroup items (sourceGroup R item :: seen)

/-- The mandatory items, then the best of each group, then all others again. -/
def selectAll (deduped : List ContextSnapshotItemView) : Totals :=
  let mandatory := (deduped.filter isMandatoryContextItem).foldl (trySelect R effectiveBudget sourceCap false) {}
  let nonMandatory := deduped.filter fun item => !isMandatoryContextItem item
  let best := (bestPerGroup R nonMandatory []).foldl (trySelect R effectiveBudget sourceCap true) mandatory
  nonMandatory.foldl (trySelect R effectiveBudget sourceCap true) best

/-- What is kept of the ranked items, and the exclusions of the others. -/
def dedupe : List ContextSnapshotItemView → List String → List ContextSnapshotItemView × List ContextPackingExclusion
  | [], _ => ([], [])
  | item :: items, seenSemantic =>
    match semanticKey R item with
    | some key =>
      if key ∈ seenSemantic then ((dedupe items seenSemantic).1, ⟨item, .REDUNDANT_CANDIDATE⟩ :: (dedupe items seenSemantic).2)
      else (item :: (dedupe items (key :: seenSemantic)).1, (dedupe items (key :: seenSemantic)).2)
    | none => (item :: (dedupe items seenSemantic).1, (dedupe items seenSemantic).2)

def dedupeExclusions : List ContextPackingExclusion → List String → List ContextPackingExclusion
  | [], _ => []
  | exclusion :: exclusions, seen =>
    let key := exclusion.item.id ++ ":" ++ exclusion.reason.text
    if key ∈ seen then dedupeExclusions exclusions seen else exclusion :: dedupeExclusions exclusions (key :: seen)

end

section
variable (R : Runtime) (input : PackContextItemsInput)

def PackContextItemsInput.rawHistoryTokens : Rat :=
  let selectedRawHistoryTokens :=
    ((input.items.filter fun item => (retrievalMetadata R item).sourceKind = "L1_RAW").map (estimateItemTokens R)).sum
  let scannedRawHistoryTokens :=
    input.items.foldl (fun largest item => max largest ((retrievalMetadata R item).rawHistoryTokens.getD 0)) 0
  max selectedRawHistoryTokens scannedRawHistoryTokens

def PackContextItemsInput.compactedStateRequired : Bool := shouldUseCompactedState (input.rawHistoryTokens R) input.budget

/-- Why an item is not eligible. -/
def PackContextItemsInput.ineligible (item : ContextSnapshotItemView) : Option ContextPackingExclusionReason :=
  let retrieval := retrievalMetadata R item
  if retrieval.superseded then some .SUPERSEDED_CANDIDATE
  else if retrieval.sourceKind = "L2_COMPACTED" ∧ !input.compactedStateRequired R then some .COMPACTED_STATE_NOT_REQUIRED
  else if usesModelContext input.targetKind ∧ !isImmediateUserMessage R item ∧ containsSensitiveData R item input.targetKind then
    some .SENSITIVE_DATA_FILTERED
  else none

def PackContextItemsInput.sourceCap : Nat :=
  max 128 ⌊R.times input.budget.effectiveHistoryBudgetTokens (clampRatio input.maxSourceShare)⌋.toNat

def PackContextItemsInput.ranked : List ContextSnapshotItemView :=
  Js.sort (compareCandidates R) (input.items.filter fun item => input.ineligible R item = none)

def PackContextItemsInput.filtered : List ContextPackingExclusion :=
  input.items.filterMap fun item => (input.ineligible R item).map fun reason => ⟨item, reason⟩

def PackContextItemsInput.totals : Totals :=
  selectAll R input.budget.effectiveHistoryBudgetTokens (input.sourceCap R) (dedupe R (input.ranked R) []).1

def packContextItems : ContextPackingResult where
  selections := Js.sort (fun left right => compareCandidates R left.item right.item) (input.totals R).selected
  exclusions :=
    dedupeExclusions (input.filtered R ++ (dedupe R (input.ranked R) []).2 ++ (input.totals R).exclusions) []
  usedTokens := (input.totals R).usedTokens
  rawHistoryTokens := input.rawHistoryTokens R
  compactedStateRequired := input.compactedStateRequired R

end

end Vimla.Context.Packing
