import Vimla.Lib.Json
import Vimla.Lib.Rows
import Vimla.Lib.Sorting
import Vimla.Lib.Threads

/-!
# Chunks of a source text

`semantic-text.ts`: a text is cut between code points into pieces of at most
2048 bytes. A text that is too long has no chunks rather than only its first.
-/

namespace Vimla.Semantic

/-- The loop over the code points, with the chunk that is being filled. -/
def fillChunks : List Char → String → Nat → List String
  | [], chunk, _ => if chunk = "" then [] else [chunk]
  | point :: rest, chunk, bytes =>
    if bytes + point.utf8Size > 2048 then chunk :: fillChunks rest (String.singleton point) point.utf8Size
    else fillChunks rest (chunk.push point) (bytes + point.utf8Size)

def semanticChunks (text : String) : List String :=
  if Js.trim text = "" ∨ text.utf8ByteSize > 65536 then []
  else
    let chunks := fillChunks text.toList "" 0
    if chunks.length ≤ 32 then chunks else []

/-- The characters of the chunks, in order. -/
def joined (chunks : List String) : List Char := chunks.flatMap String.toList

theorem joined_fillChunks (points : List Char) (chunk : String) (bytes : Nat) :
    joined (fillChunks points chunk bytes) = chunk.toList ++ points := by
  induction points generalizing chunk bytes with
  | nil =>
    rw [fillChunks]
    split
    · rename_i blank
      simp [joined, blank]
    · simp [joined]
  | cons point rest ih =>
    rw [fillChunks]
    split
    · have later := ih (String.singleton point) point.utf8Size
      simp only [joined, List.flatMap_cons] at later ⊢
      simp [later]
    · rw [ih]
      simp

/-- Nothing of the text is lost or repeated. -/
theorem joined_semanticChunks {text : String} (some : semanticChunks text ≠ []) : joined (semanticChunks text) = text.toList := by
  unfold semanticChunks at some ⊢
  simp only at some ⊢
  split at some
  · exact absurd rfl some
  rename_i fits
  rw [if_neg fits]
  split at some
  · rename_i few
    rw [if_pos few, joined_fillChunks]
    simp
  · exact absurd rfl some

/-!
# The semantic indexer

`SemanticIndexer.runBatch` as a program of atomic steps: one for each statement
or transaction of the database and each call to the source resolver, to the
admission and to the provider. The triggers on the sources and the clock are the
environment.
-/

open Threads Threads.Program

inductive SourceStatus | PENDING | RUNNING | READY | SKIPPED | FAILED
  deriving DecidableEq

structure SemanticDocument where
  text : String
  fingerprint : String

structure SemanticSource where
  id : String
  ownerUserId : String
  revision : Nat
  generation : String
  status : SourceStatus
  attempts : Nat
  availableAt : Int
  leaseToken : Option String
  leaseUntil : Option Int
  fingerprint : Option String
  errorCode : Option String
  /-- The attempts at this revision that failed or were lost. No statement reads it. -/
  failures : Nat
  deriving DecidableEq

structure SemanticChunk where
  id : String
  sourceKey : String
  ordinal : Nat
  fingerprint : String
  embedding : String
  /-- The lease it was written under. No statement reads it. -/
  lease : Option String
  deriving DecidableEq

/-- The tables and the clock of the database; no statement reads the last two. -/
structure Index where
  generations : List String
  sources : List SemanticSource
  chunks : List SemanticChunk
  now : Int
  /-- Every token that a claim has drawn. -/
  issued : List String
  /-- Every document that was loaded, with its source. -/
  loaded : List (String × SemanticDocument)

/-- What an indexer is built with. -/
structure Config where
  generation : String
  semanticHash : String → String

inductive Statement
  | register | newest | rollover | purge | sweep | admissions | claim
  | ready (job : SemanticSource) | skip (job : SemanticSource) | defer (job : SemanticSource)
  | requeue (job : SemanticSource) | fail (job : SemanticSource)
  deriving DecidableEq

inductive Step
  | database (statement : Statement)
  | load (job : SemanticSource)
  | admission (job : SemanticSource)
  | embed (job : SemanticSource)

/-- The database executes a statement, does not, or does and is not heard. -/
inductive Fate | done | undone | unheard
  deriving DecidableEq

/-- `CURRENT_TIMESTAMP`, `Date.now()`, the rows that others have locked, the
chunks that a limit leaves, and what `randomUUID` returns. -/
structure At where
  clock : Int
  date : Int
  fate : Fate
  locked : String → Bool
  picked : String → Bool
  token : String
  ids : Nat → String

abbrev Draw : Step → Type
  | .database _ => At
  | .load _ => Except Unit (Option SemanticDocument)
  | .admission _ => Except Unit Bool
  | .embed _ => Except Unit (List String)

abbrev Process := Program Step Draw Index Unit

def statement {α : Type} (q : Statement) (f : At → Index → α × Index) : Process α :=
  (ask (.database q) fun s (d : At) =>
    match d.fate with
    | .done => (.ok (f d s).1, (f d s).2)
    | .undone => (.error (), s)
    | .unheard => (.error (), (f d s).2)).bind lift

namespace Index
variable (s : Index)

def updateMany (p : SemanticSource → Bool) (f : SemanticSource → SemanticSource) : Index :=
  { s with sources := s.sources.map fun r => if p r then f r else r }

def chunksOf (sourceKey : String) : List SemanticChunk := s.chunks.filter fun c => c.sourceKey = sourceKey

end Index

section
variable (c : Config)

/-- Running, with a lease that is not over at this instant. -/
def SemanticSource.active (clock : Int) (r : SemanticSource) : Bool :=
  r.status = .RUNNING ∧ r.leaseUntil.any (clock < ·)

/-- A row that belongs to no worker any more. -/
def SemanticSource.released (r : SemanticSource) (status : SourceStatus) : SemanticSource :=
  { r with status := status, leaseToken := none, leaseUntil := none }

/-- As a source is when it is new to its generation or revision. -/
def SemanticSource.reset (r : SemanticSource) (clock : Int) : SemanticSource :=
  { r.released .PENDING with attempts := 0, availableAt := clock, fingerprint := none, errorCode := none, failures := 0 }

def register (s : Index) : Index :=
  if c.generation ∈ s.generations then s else { s with generations := s.generations ++ [c.generation] }

def rolloverOrder (sourceKey : Option String) (left right : SemanticSource) : Ordering :=
  (compare (decide (some right.id = sourceKey)) (decide (some left.id = sourceKey))).then (compare left.id right.id)

/-- The rows of older generations that one batch takes over. -/
def outdated (sourceKey : Option String) (locked : String → Bool) (s : Index) : List String :=
  if s.generations.getLast? = some c.generation then
    ((Js.sort (rolloverOrder sourceKey) (s.sources.filter fun r => r.generation ≠ c.generation ∧ locked r.id = false)).take 100).map
      SemanticSource.id
  else []

def rollover (sourceKey : Option String) (d : At) (s : Index) : Index :=
  let ids := outdated c sourceKey d.locked s
  s.updateMany (fun r => r.id ∈ ids) fun r => { r.reset d.clock with generation := c.generation }

def purge (d : At) (s : Index) : Index :=
  let rows := (s.chunks.filter fun chunk => d.picked chunk.id ∧
    s.sources.any fun r => r.id = chunk.sourceKey ∧ r.status ≠ .READY).take 3200
  { s with chunks := s.chunks.filter fun chunk => chunk ∉ rows }

def sweep (d : At) (s : Index) : Index :=
  s.updateMany (fun r => r.status = .RUNNING ∧ r.leaseUntil.any (· < d.clock) ∧ r.attempts ≥ 5) fun r =>
    { r.released .FAILED with errorCode := some "RETRY_EXHAUSTED", failures := r.failures + 1 }

def claimable (clock : Int) (r : SemanticSource) : Bool :=
  r.generation = c.generation ∧ r.attempts < 5 ∧
    (r.status = .PENDING ∧ r.availableAt ≤ clock ∨ r.status = .RUNNING ∧ r.leaseUntil.any (· < clock))

def claimOrder (left right : SemanticSource) : Ordering :=
  (compare left.availableAt right.availableAt).then (compare left.id right.id)

/-- The row that the claim selects. -/
def selected (sourceKey : Option String) (d : At) (s : Index) : Option SemanticSource :=
  (Js.sort claimOrder (s.sources.filter fun r => claimable c d.clock r ∧ sourceKey.all (· = r.id) ∧
    s.generations.getLast? = some c.generation ∧ d.locked r.id = false)).head?

/-- The row under its new lease; an attempt that was running before is lost. -/
def SemanticSource.claimed (d : At) (r : SemanticSource) : SemanticSource :=
  { r with
    status := .RUNNING
    leaseToken := some d.token
    leaseUntil := some (d.clock + 90000)
    attempts := r.attempts + 1
    failures := if r.status = .RUNNING then r.failures + 1 else r.failures }

def claim (sourceKey : Option String) (d : At) (s : Index) : Option SemanticSource × Index :=
  if s.sources.countP (SemanticSource.active d.clock) ≥ 2 then (none, s)
  else
    match selected c sourceKey d s with
    | none => (none, s)
    | some row => (some (row.claimed d),
        { s.updateMany (fun r => r.id = row.id) (SemanticSource.claimed d) with issued := s.issued ++ [d.token] })

def owned (job r : SemanticSource) : Bool :=
  r.id = job.id ∧ r.revision = job.revision ∧ r.generation = c.generation ∧ r.status = .RUNNING ∧ r.leaseToken = job.leaseToken

def skip (job : SemanticSource) (s : Index) : Index :=
  s.updateMany (owned c job) fun r => { r.released .SKIPPED with errorCode := some "SOURCE_INELIGIBLE" }

def defer (job : SemanticSource) (d : At) (s : Index) : Index :=
  s.updateMany (owned c job) fun r =>
    { r.released .PENDING with attempts := r.attempts - 1, availableAt := d.date + 60000 }

def requeue (job : SemanticSource) (d : At) (s : Index) : Index :=
  s.updateMany (owned c job) fun r => { r.released .PENDING with availableAt := d.date }

def fail (job : SemanticSource) (d : At) (s : Index) : Index :=
  s.updateMany (owned c job) fun r =>
    { r.released (if job.attempts ≥ 5 then .FAILED else .PENDING) with
      availableAt := d.date + min 300000 (1000 * 2 ^ job.attempts)
      errorCode := some "EMBEDDING_FAILED"
      failures := r.failures + 1 }

def chunkRows (job : SemanticSource) (ids : Nat → String) (chunks vectors : List String) : List SemanticChunk :=
  chunks.zipIdx.map fun (text, ordinal) =>
    ⟨ids ordinal, job.id, ordinal, c.semanticHash text, vectors.getD ordinal "", job.leaseToken⟩

/-- The transaction: the row, if its lease is still held, and its chunks. -/
def ready (job : SemanticSource) (doc : SemanticDocument) (vectors : List String) (d : At) (s : Index) : Index :=
  if s.sources.any fun r => owned c job r ∧ r.active d.clock then
    let s := s.updateMany (fun r => owned c job r ∧ r.active d.clock) fun r =>
      { r.released .READY with fingerprint := some doc.fingerprint, errorCode := none }
    { s with chunks := (s.chunks.filter fun chunk => chunk.sourceKey ≠ job.id) ++
        chunkRows c job d.ids (semanticChunks doc.text) vectors }
  else s

def load (job : SemanticSource) : Process (Option SemanticDocument) :=
  (ask (.load job) fun s (d : Except Unit (Option SemanticDocument)) =>
    (d, match d with
      | .ok (some doc) => { s with loaded := s.loaded ++ [(job.id, doc)] }
      | _ => s)).bind lift

def unit (q : Statement) (f : At → Index → Index) : Process Unit := statement q fun d s => ((), f d s)

/-- The `try` of `process`. -/
def index (job : SemanticSource) : Process Unit :=
  (load job).bind fun doc =>
    match doc with
    | none => unit (.skip job) fun _ => skip c job
    | some doc =>
      let chunks := semanticChunks doc.text
      if chunks = [] ∨ chunks.any (fun chunk => Js.trim chunk = "") then unit (.skip job) fun _ => skip c job
      else
        ((ask (.admission job) fun s (d : Except Unit Bool) => (d, s)).bind lift).bind fun admitted =>
        if admitted then
          ((ask (.embed job) fun s (d : Except Unit (List String)) => (d, s)).bind lift).bind fun vectors =>
          if vectors.length ≠ chunks.length then .fail ()
          else
            (load job).bind fun current =>
              if current.map SemanticDocument.fingerprint ≠ some doc.fingerprint then unit (.requeue job) (requeue c job)
              else unit (.ready job) (ready c job doc vectors)
        else unit (.defer job) (defer c job)

def process (job : SemanticSource) : Process Unit :=
  (index c job).attempt.bind fun result =>
    match result with
    | .ok _ => .pure ()
    | .error _ => unit (.fail job) (fail c job)

structure Batch where
  limit : Int
  sourceKey : Option String

/-- The loop over at most so many jobs. -/
def jobs (sourceKey : Option String) : Nat → Nat → Process Nat
  | 0, processed => .pure processed
  | left + 1, processed =>
    (statement .claim (claim c sourceKey)).bind fun job =>
      match job with
      | none => .pure processed
      | some job => (process c job).bind fun _ => jobs sourceKey left (processed + 1)

def runBatch (batch : Batch) : Process Nat :=
  if batch.limit < 1 ∨ batch.limit > 16 then .fail ()
  else
    (unit .register fun _ => register c).bind fun _ =>
    (statement .newest fun _ s => (s.generations.getLast?, s)).bind fun activeGeneration =>
    if activeGeneration ≠ some c.generation then .pure 0
    else
      (unit .rollover (rollover c batch.sourceKey)).bind fun _ =>
      (unit .purge purge).bind fun _ =>
      (unit .sweep sweep).bind fun _ =>
      (unit .admissions fun _ s => s).bind fun _ => jobs c batch.sourceKey batch.limit.toNat 0

/-- Time passes; a source is written or deleted, and its trigger runs. -/
inductive Change
  | tick (elapsed : Nat)
  | touch (id ownerUserId : String) (clock : Int)
  | remove (id : String)

def Index.touch (id ownerUserId : String) (clock : Int) (s : Index) : Index :=
  let s := if s.sources.any (·.id = id) then
      s.updateMany (fun r => r.id = id) fun r =>
        { r.reset clock with ownerUserId := ownerUserId, revision := r.revision + 1 }
    else { s with sources := s.sources ++ [⟨id, ownerUserId, 1, "", .PENDING, 0, clock, none, none, none, none, 0⟩] }
  { s with chunks := s.chunks.filter fun chunk => chunk.sourceKey ≠ id }

def Index.change (s : Index) : Change → Index
  | .tick elapsed => { s with now := s.now + elapsed }
  | .touch id ownerUserId clock => s.touch id ownerUserId clock
  | .remove id => { s with
      sources := s.sources.filter fun r => r.id ≠ id
      chunks := s.chunks.filter fun chunk => chunk.sourceKey ≠ id }

def indexer : System Step Draw Index Unit Nat Batch Change where
  program _ batch := runBatch c batch
  environment := Index.change

end

end Vimla.Semantic
