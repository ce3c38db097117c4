import Vimla.Artifacts.Fingerprint
import Vimla.Lib.Rows

/-!
# Artifacts and their versions

`ArtifactService`: creating an artifact, creating a version and reading one.
Each call that writes is one transaction; calls on one invocation or artifact
wait for its row, so a transaction is one step.
-/

namespace Vimla.Artifacts

open Js

inductive ArtifactType | TEXT | PROMPT | DOCUMENT | CODE | IMAGE | FILE | PLAN | PATCH | JSON
  deriving DecidableEq

def ArtifactType.text : ArtifactType → String
  | .TEXT => "TEXT"
  | .PROMPT => "PROMPT"
  | .DOCUMENT => "DOCUMENT"
  | .CODE => "CODE"
  | .IMAGE => "IMAGE"
  | .FILE => "FILE"
  | .PLAN => "PLAN"
  | .PATCH => "PATCH"
  | .JSON => "JSON"

def ARTIFACT_TYPES : List ArtifactType := [.TEXT, .PROMPT, .DOCUMENT, .CODE, .IMAGE, .FILE, .PLAN, .PATCH, .JSON]

/-- An invocation with the owner of its plan. -/
structure Invocation where
  id : String
  planId : String
  userId : String
  outputDeclarations : Json

structure Artifact where
  id : String
  creatorInvocationId : String
  outputName : String
  type : ArtifactType
  classification : String
  metadata : Option Json

structure ArtifactVersion where
  id : String
  artifactId : String
  version : Nat
  contentRef : Option String
  contentJson : Option Json
  fingerprint : String
  metadata : Option Json

/-- A permission to read. -/
structure ArtifactAccessGrant where
  artifactId : String
  granteeUserId : String
  revokedAt : Option Int

structure Tables where
  invocations : List Invocation
  artifacts : List Artifact
  versions : List ArtifactVersion
  accessGrants : List ArtifactAccessGrant

inductive ArtifactError
  | notFound
  | validation (message : String)
  | conflict (message : String)
  /-- The transaction was rolled back by the database. -/
  | database

structure ArtifactReference where
  artifactId : String
  artifactVersionId : String
  outputName : String
  type : ArtifactType
  classification : String
  version : Nat
  fingerprint : String
  deriving DecidableEq

structure CreateArtifactInput where
  actorUserId : String
  creatorInvocationId : String
  outputName : String
  type : ArtifactType
  classification : String
  content : ArtifactContent
  metadata : Option Json
  versionMetadata : Option Json

structure CreateArtifactVersionInput where
  actorUserId : String
  artifactId : String
  expectedCurrentVersion : Int
  content : ArtifactContent
  metadata : Option Json

def MAX_NAME_LENGTH : Nat := 128

def MAX_CLASSIFICATION_LENGTH : Nat := 128

def MAX_CONTENT_REF_LENGTH : Nat := 4096

def MAX_INLINE_JSON_BYTES : Nat := 1000000

def MAX_METADATA_JSON_BYTES : Nat := 65536

def validateIdentifier (value field : String) : Except ArtifactError Unit :=
  if length (trim value) = 0 ∨ length value > 256 then
    .error (.validation (field ++ " must be a non-empty bounded string"))
  else .ok ()

/-- A text between 1 and `limit` characters once trimmed. -/
def bounded (value field : String) (limit : Nat) : Except ArtifactError String :=
  let normalized := trim value
  if length normalized = 0 ∨ length normalized > limit then
    .error (.validation (field ++ " must be between 1 and " ++ toString limit ++ " characters"))
  else .ok normalized

def validateName (value field : String) : Except ArtifactError String := bounded value field MAX_NAME_LENGTH

def validateClassification (value : String) : Except ArtifactError String :=
  bounded value "classification" MAX_CLASSIFICATION_LENGTH

def parseArtifactType (value : String) : Except ArtifactError ArtifactType :=
  match ARTIFACT_TYPES.find? fun type => type.text = value with
  | none => .error (.validation ("Unsupported artifact type " ++ Json.quote value))
  | some type => .ok type

section
variable (R : Runtime)

def validateContent : ArtifactContent → Except ArtifactError Unit
  | .CONTENT_REF ref => (bounded ref "contentRef" MAX_CONTENT_REF_LENGTH).map fun _ => ()
  | .INLINE_JSON value =>
    if (canonicalJson R value).utf8ByteSize > MAX_INLINE_JSON_BYTES then
      .error (.validation ("Inline artifact content exceeds " ++ toString MAX_INLINE_JSON_BYTES ++ " bytes"))
    else .ok ()

def validateMetadata (value : Option Json) (field : String) : Except ArtifactError Unit :=
  if value.any fun value => (canonicalJson R value).utf8ByteSize > MAX_METADATA_JSON_BYTES then
    .error (.validation (field ++ " exceeds " ++ toString MAX_METADATA_JSON_BYTES ++ " bytes"))
  else .ok ()

def findDeclaredOutputType (outputDeclarations : Json) (outputName : String) : Except ArtifactError (Option ArtifactType) :=
  match outputDeclarations with
  | .array entries =>
    match entries.find? fun entry => (entry.field "name").any (·.asString = some outputName) &&
        ((entry.field "artifactType").bind Json.asString).isSome with
    | none => .ok none
    | some entry => (parseArtifactType (((entry.field "artifactType").bind Json.asString).getD "")).map some
  | _ => .error (.validation "Invocation output declarations are malformed")

def toReference (artifact : Artifact) (version : ArtifactVersion) : ArtifactReference where
  artifactId := artifact.id
  artifactVersionId := version.id
  outputName := artifact.outputName
  type := artifact.type
  classification := artifact.classification
  version := version.version
  fingerprint := version.fingerprint

/-- The row of a version with this content; `contentWriteData`. -/
def versionRow (id artifactId : String) (version : Nat) (content : ArtifactContent) (metadata : Option Json) :
    ArtifactVersion where
  id := id
  artifactId := artifactId
  version := version
  contentRef := match content with
    | .CONTENT_REF ref => some (trim ref)
    | .INLINE_JSON _ => none
  contentJson := match content with
    | .CONTENT_REF _ | .INLINE_JSON .null => none
    | .INLINE_JSON value => some (R.jsonb value)
  fingerprint := fingerprintArtifactContent R content
  metadata := metadata.map R.jsonb

def storedContent (version : ArtifactVersion) : Except ArtifactError ArtifactContent :=
  match version.contentRef, version.contentJson with
  | some ref, _ => .ok (.CONTENT_REF ref)
  | none, some value => .ok (.INLINE_JSON value)
  | none, none => .error (.conflict "Artifact version has no content")

namespace Tables
variable (T : Tables)

def invocation (id : String) : Option Invocation := Rows.find Invocation.id id T.invocations

def artifact (id : String) : Option Artifact := Rows.find Artifact.id id T.artifacts

/-- The artifact under its unique key. -/
def output (creatorInvocationId outputName : String) : Option Artifact :=
  T.artifacts.find? fun a => a.creatorInvocationId = creatorInvocationId ∧ a.outputName = outputName

/-- The versions in the order in which they were stored. -/
def versionsOf (artifactId : String) : List ArtifactVersion := T.versions.filter fun v => v.artifactId = artifactId

/-- `orderBy: { version: "desc" }`. -/
def latest (artifactId : String) : List ArtifactVersion :=
  sort (fun left right => compare right.version left.version) (T.versionsOf artifactId)

/-- An insert, with the keys and the check of the table. -/
def insertVersion (v : ArtifactVersion) : Except ArtifactError Tables :=
  if T.versions.any fun w => decide (w.id = v.id ∨ w.artifactId = v.artifactId ∧ w.version = v.version) then .error .database
  else if v.contentRef.isSome = v.contentJson.isSome then .error .database
  else .ok { T with versions := T.versions ++ [v] }

def insertArtifact (a : Artifact) : Except ArtifactError Tables :=
  if T.artifacts.any fun b => decide (b.id = a.id ∨
      b.creatorInvocationId = a.creatorInvocationId ∧ b.outputName = a.outputName) then .error .database
  else .ok { T with artifacts := T.artifacts ++ [a] }

end Tables

/-- The keys that a call draws. -/
structure Drawn where
  artifactId : String
  versionId : String

/-- The checks on the input: the name and the classification as they are stored. -/
def CreateArtifactInput.validate (input : CreateArtifactInput) : Except ArtifactError (String × String) := do
  validateIdentifier input.actorUserId "actorUserId"
  validateIdentifier input.creatorInvocationId "creatorInvocationId"
  let outputName ← validateName input.outputName "outputName"
  let classification ← validateClassification input.classification
  validateContent R input.content
  validateMetadata R input.metadata "metadata"
  validateMetadata R input.versionMetadata "versionMetadata"
  return (outputName, classification)

/-- The output must be one that the invocation declares. -/
def declared (T : Tables) (input : CreateArtifactInput) (outputName : String) : Except ArtifactError Unit :=
  match T.invocation input.creatorInvocationId with
  | none => .error .notFound
  | some invocation =>
    if invocation.userId ≠ input.actorUserId then .error .notFound
    else
      match findDeclaredOutputType invocation.outputDeclarations outputName with
      | .error e => .error e
      | .ok none => .error (.validation ("Output " ++ Json.quote outputName ++ " is not declared by the invocation"))
      | .ok (some declaredType) =>
        if declaredType ≠ input.type then
          .error (.validation ("Output " ++ Json.quote outputName ++ " requires " ++ declaredType.text ++ ", received " ++
            input.type.text))
        else .ok ()

/-- The artifact exists: its newest version with this content, or a conflict. -/
def existing (T : Tables) (input : CreateArtifactInput) (classification : String) (artifact : Artifact) :
    Except ArtifactError ArtifactReference :=
  if artifact.type ≠ input.type ∨ artifact.classification ≠ classification then
    .error (.conflict "Artifact identity already exists with different immutable attributes")
  else
    match (T.latest artifact.id).find? fun v => v.fingerprint = fingerprintArtifactContent R input.content with
    | some matchingVersion => .ok (toReference artifact matchingVersion)
    | none => .error (.conflict "Artifact already exists with different content; create an explicit version")

def createArtifactInTransaction (input : CreateArtifactInput) (drawn : Drawn) (T : Tables) :
    Except ArtifactError (Tables × ArtifactReference) :=
  match input.validate R with
  | .error e => .error e
  | .ok (outputName, classification) =>
    match declared T input outputName with
    | .error e => .error e
    | .ok _ =>
      match T.output input.creatorInvocationId outputName with
      | some artifact => (existing R T input classification artifact).map fun reference => (T, reference)
      | none =>
        let artifact : Artifact := ⟨drawn.artifactId, input.creatorInvocationId, outputName, input.type, classification,
          input.metadata.map R.jsonb⟩
        let version := versionRow R drawn.versionId artifact.id 1 input.content input.versionMetadata
        match T.insertArtifact artifact with
        | .error e => .error e
        | .ok U => (U.insertVersion version).map fun V => (V, toReference artifact version)

def CreateArtifactVersionInput.validate (input : CreateArtifactVersionInput) : Except ArtifactError Unit := do
  validateIdentifier input.actorUserId "actorUserId"
  validateIdentifier input.artifactId "artifactId"
  if input.expectedCurrentVersion < 1 then .error (.validation "expectedCurrentVersion must be a positive integer")
  validateContent R input.content
  validateMetadata R input.metadata "metadata"

/-- The artifact that the actor owns. -/
def ownedArtifact (T : Tables) (artifactId actorUserId : String) : Except ArtifactError Artifact :=
  match T.artifact artifactId with
  | none => .error .notFound
  | some artifact =>
    if (T.invocation artifact.creatorInvocationId).any (·.userId = actorUserId) then .ok artifact else .error .notFound

def createVersion (input : CreateArtifactVersionInput) (drawn : Drawn) (T : Tables) :
    Except ArtifactError (Tables × ArtifactReference) :=
  let fingerprint := fingerprintArtifactContent R input.content
  match input.validate R with
  | .error e => .error e
  | .ok _ =>
    match ownedArtifact T input.artifactId input.actorUserId with
    | .error e => .error e
    | .ok artifact =>
      match (T.latest artifact.id).head? with
      | none => .error (.conflict "Artifact has no version history")
      | some current =>
        if (current.version : Int) ≠ input.expectedCurrentVersion then
          if current.fingerprint = fingerprint then .ok (T, toReference artifact current)
          else .error (.conflict ("Artifact version changed from expected " ++ toString input.expectedCurrentVersion ++
            " to " ++ toString current.version))
        else if current.fingerprint = fingerprint then .ok (T, toReference artifact current)
        else
          let version := versionRow R drawn.versionId artifact.id (current.version + 1) input.content input.metadata
          (T.insertVersion version).map fun U => (U, toReference artifact version)

structure ReadArtifactVersionResult where
  reference : ArtifactReference
  creatorInvocationId : String
  planId : String
  content : ArtifactContent
  artifactMetadata : Option Json
  versionMetadata : Option Json

def readVersion (T : Tables) (actorUserId artifactVersionId : String) : Except ArtifactError ReadArtifactVersionResult := do
  validateIdentifier actorUserId "actorUserId"
  validateIdentifier artifactVersionId "artifactVersionId"
  match Rows.find ArtifactVersion.id artifactVersionId T.versions with
  | none => .error .notFound
  | some version =>
    match T.artifact version.artifactId with
    | none => .error .notFound
    | some artifact =>
      match T.invocation artifact.creatorInvocationId with
      | none => .error .notFound
      | some invocation =>
        let granted := T.accessGrants.any fun grant => decide (grant.artifactId = artifact.id ∧
          grant.granteeUserId = actorUserId ∧ grant.revokedAt = none)
        if invocation.userId = actorUserId ∨ granted then
          match storedContent version with
          | .error e => .error e
          | .ok content => .ok {
              reference := toReference artifact version
              creatorInvocationId := invocation.id
              planId := invocation.planId
              content := content
              artifactMetadata := artifact.metadata
              versionMetadata := version.metadata }
        else .error .notFound

inductive Call
  | createArtifact (input : CreateArtifactInput)
  | createVersion (input : CreateArtifactVersionInput)

def Call.content : Call → ArtifactContent
  | .createArtifact input => input.content
  | .createVersion input => input.content

def Call.run (call : Call) (drawn : Drawn) (T : Tables) : Except ArtifactError (Tables × ArtifactReference) :=
  match call with
  | .createArtifact input => createArtifactInTransaction R input drawn T
  | .createVersion input => Artifacts.createVersion R input drawn T

/-- A call, which the database may roll back; a change of other tables. -/
inductive Event
  | call (call : Call) (drawn : Drawn) (fails : Bool)
  | others (invocations : List Invocation) (accessGrants : List ArtifactAccessGrant)

/-- What a call answers, and the tables that it leaves. -/
def Tables.answer (T : Tables) (call : Call) (drawn : Drawn) (fails : Bool) : Except ArtifactError (Tables × ArtifactReference) :=
  if fails then .error .database else call.run R drawn T

def Tables.step (T : Tables) : Event → Tables
  | .call call drawn fails =>
    match T.answer R call drawn fails with
    | .error _ => T
    | .ok (U, _) => U
  | .others invocations accessGrants => { T with invocations := invocations, accessGrants := accessGrants }

def Tables.run (T : Tables) (events : List Event) : Tables := events.foldl (Tables.step R) T

end

end Vimla.Artifacts
