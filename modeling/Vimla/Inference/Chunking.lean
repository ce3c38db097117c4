import Vimla.Inference.Sse

/-!
# Chunks of a stream

The parser that has read some bytes is the same whatever their chunks were. Only
an error loses events: those of the blocks that its chunk completed before it.
-/

namespace Vimla.Inference.Sse

open Base64 TextStream List

variable {R : Runtime} {bytes chunk : Bytes} {chunks chunks' : List Bytes} {blocks : List (List Char)}

inductive Stop
  | running
  | stopped
  | failed (error : SyntaxError)
  deriving DecidableEq

/-- The events of the blocks up to `[DONE]` or the first malformed one. -/
def scan (R : Runtime) : List (List Char) → List ProviderStreamEvent × Stop
  | [] => ([], .running)
  | block :: blocks =>
    match parseSseBlock R block with
    | .error error => ([], .failed error)
    | .ok events => if ProviderStreamEvent.done ∈ events then (events, .stopped) else (events ++ (scan R blocks).1, (scan R blocks).2)

section
variable {block : List Char} {events : List ProviderStreamEvent}

theorem scan_fail {error : SyntaxError} (malformed : parseSseBlock R block = .error error) (blocks : List (List Char)) :
    scan R (block :: blocks) = ([], .failed error) := by
  rw [scan, malformed]

theorem scan_stop (ok : parseSseBlock R block = .ok events) (ends : ProviderStreamEvent.done ∈ events)
    (blocks : List (List Char)) : scan R (block :: blocks) = (events, .stopped) := by
  rw [scan, ok]
  exact if_pos ends

theorem scan_go (ok : parseSseBlock R block = .ok events) (goes : ProviderStreamEvent.done ∉ events)
    (blocks : List (List Char)) : scan R (block :: blocks) = (events ++ (scan R blocks).1, (scan R blocks).2) := by
  rw [scan, ok]
  exact if_neg goes

end

theorem rounds_eq (blocks : List (List Char)) : rounds R blocks =
    match (scan R blocks).2 with
    | .running => .ok ((scan R blocks).1, false)
    | .stopped => .ok ((scan R blocks).1, true)
    | .failed error => .error error := by
  induction blocks with
  | nil => rfl
  | cons block blocks ih =>
    cases ok : parseSseBlock R block with
    | error error =>
      rw [rounds, ok, scan_fail ok]
      rfl
    | ok events =>
      rw [rounds, ok]
      dsimp only [bind, Except.bind]
      by_cases ends : ProviderStreamEvent.done ∈ events
      · rw [if_pos ends, scan_stop ok ends]
        rfl
      · rw [if_neg ends, scan_go ok ends, ih]
        cases (scan R blocks).2 <;> rfl

variable {before : List (List Char)}

theorem scan_running (running : (scan R before).2 = .running) (after : List (List Char)) :
    scan R (before ++ after) = ((scan R before).1 ++ (scan R after).1, (scan R after).2) := by
  induction before with
  | nil => rfl
  | cons block before ih =>
    rw [cons_append]
    cases ok : parseSseBlock R block with
    | error error =>
      rw [scan_fail ok] at running
      cases running
    | ok events =>
      by_cases ends : ProviderStreamEvent.done ∈ events
      · rw [scan_stop ok ends] at running
        cases running
      · rw [scan_go ok ends] at running ⊢
        rw [scan_go ok ends, ih running, append_assoc]

theorem scan_ended (ended : (scan R before).2 ≠ .running) (after : List (List Char)) :
    scan R (before ++ after) = scan R before := by
  induction before with
  | nil => exact absurd rfl ended
  | cons block before ih =>
    rw [cons_append]
    cases ok : parseSseBlock R block with
    | error error => rw [scan_fail ok, scan_fail ok]
    | ok events =>
      by_cases ends : ProviderStreamEvent.done ∈ events
      · rw [scan_stop ok ends, scan_stop ok ends]
      · rw [scan_go ok ends] at ended ⊢
        rw [scan_go ok ends, ih ended]

/-- The text of some bytes, its line ends normalized. -/
def textOf (bytes : Bytes) : List Char := normalize (({} : TextDecoder).decode bytes).2

/-- The complete blocks. -/
def blocksOf (bytes : Bytes) : List (List Char) := (split (textOf bytes)).1

def restOf (bytes : Bytes) : List Char := (split (textOf bytes)).2

/-- The parser that has read these bytes. -/
def parserOf (bytes : Bytes) : OpenAiCompatSseParser := ⟨restOf bytes, false, (({} : TextDecoder).decode bytes).1⟩

/-- The blocks that a chunk completes. -/
def completes (bytes chunk : Bytes) : List (List Char) :=
  (split (normalize (restOf bytes ++ ((({} : TextDecoder).decode bytes).1.decode chunk).2))).1

theorem textOf_append (crlf : Followed 0x0D 0x0A bytes) (chunk : Bytes) :
    blocksOf (bytes ++ chunk) = blocksOf bytes ++ completes bytes chunk ∧
      restOf (bytes ++ chunk) =
        (split (normalize (restOf bytes ++ ((({} : TextDecoder).decode bytes).1.decode chunk).2))).2 := by
  have parts := split_normalize (decode_followed crlf) (((({} : TextDecoder).decode bytes).1.decode chunk).2)
  unfold blocksOf restOf completes textOf
  rw [decode_append, parts]
  exact ⟨rfl, rfl⟩

theorem push_parserOf (crlf : Followed 0x0D 0x0A bytes) (chunk : Bytes) : (parserOf bytes).push R chunk =
    match (scan R (completes bytes chunk)).2 with
    | .running => .ok ((scan R (completes bytes chunk)).1, parserOf (bytes ++ chunk))
    | .stopped => .ok ((scan R (completes bytes chunk)).1, ⟨[], true, (({} : TextDecoder).decode (bytes ++ chunk)).1⟩)
    | .failed error => .error error := by
  obtain ⟨-, rest⟩ := textOf_append crlf chunk
  unfold OpenAiCompatSseParser.push OpenAiCompatSseParser.drain parserOf
  dsimp only
  rw [rounds_eq, rest, decode_append]
  unfold completes
  cases (scan R (split (normalize (restOf bytes ++ ((({} : TextDecoder).decode bytes).1.decode chunk).2))).1).2 <;> rfl

/-- After `[DONE]` nothing more is delivered. -/
theorem readStream_terminal (p : OpenAiCompatSseParser) (terminal : p.terminal = true) (chunks : List Bytes) :
    readStream R p chunks = ([], .returned) := by
  induction chunks with
  | nil => rw [readStream, OpenAiCompatSseParser.finish, if_pos terminal]
  | cons chunk chunks ih =>
    rw [readStream, OpenAiCompatSseParser.push, if_pos terminal]
    dsimp only
    rw [ih]
    rfl

def Fails (R : Runtime) (blocks : List (List Char)) : Prop := ∃ error, (scan R blocks).2 = .failed error

instance (R : Runtime) (blocks : List (List Char)) : Decidable (Fails R blocks) :=
  match stop : (scan R blocks).2 with
  | .failed error => isTrue ⟨error, stop⟩
  | .running => isFalse (by rintro ⟨error, failed⟩; rw [stop] at failed; cases failed)
  | .stopped => isFalse (by rintro ⟨error, failed⟩; rw [stop] at failed; cases failed)

/-- The bytes before the chunk that completes the first malformed block. -/
def calm (R : Runtime) (bytes : Bytes) : List Bytes → Bytes
  | [] => bytes
  | chunk :: chunks => if Fails R (blocksOf (bytes ++ chunk)) then bytes else calm R (bytes ++ chunk) chunks

/-- What reaches the consumer of these bytes, when an error loses what comes after `early`. -/
def delivered (R : Runtime) (bytes early : Bytes) : List ProviderStreamEvent :=
  match (scan R (blocksOf bytes)).2 with
  | .failed _ => (scan R (blocksOf early)).1
  | .stopped => (scan R (blocksOf bytes)).1
  | .running => (scan R (blocksOf bytes)).1 ++
    match (parserOf bytes).finish R with
    | .ok (events, _) => events
    | .error _ => []

/-- The end does not depend on the chunks. -/
def ending (R : Runtime) (bytes : Bytes) : Ending :=
  match (scan R (blocksOf bytes)).2 with
  | .failed error => .threw error
  | .stopped => .returned
  | .running =>
    match (parserOf bytes).finish R with
    | .ok _ => .returned
    | .error error => .threw error

theorem readStream_parserOf (crlf : Followed 0x0D 0x0A (bytes ++ chunks.flatten)) (running : (scan R (blocksOf bytes)).2 = .running) :
    (scan R (blocksOf bytes)).1 ++ (readStream R (parserOf bytes) chunks).1 =
        delivered R (bytes ++ chunks.flatten) (calm R bytes chunks) ∧
      (readStream R (parserOf bytes) chunks).2 = ending R (bytes ++ chunks.flatten) := by
  induction chunks generalizing bytes with
  | nil =>
    rw [flatten_nil, append_nil, readStream, delivered, ending, running]
    cases (parserOf bytes).finish R with
    | error error | ok result => exact ⟨rfl, rfl⟩
  | cons chunk chunks ih =>
    rw [flatten_cons, ← append_assoc] at crlf ⊢
    have before := crlf.of_append
    obtain ⟨complete, -⟩ := textOf_append before.of_append chunk
    have scanned := scan_running running (completes bytes chunk)
    rw [← complete] at scanned
    obtain ⟨later, -⟩ := textOf_append before chunks.flatten
    rw [readStream, push_parserOf before.of_append, calm]
    cases stop : (scan R (completes bytes chunk)).2 with
    | running =>
      rw [stop] at scanned
      have calm_ : ¬ Fails R (blocksOf (bytes ++ chunk)) := by
        rintro ⟨error, failed⟩
        rw [scanned] at failed
        cases failed
      obtain ⟨events, ends⟩ := ih crlf (congrArg Prod.snd scanned)
      rw [if_neg calm_, ← events, scanned]
      exact ⟨(append_assoc _ _ _).symm, ends⟩
    | stopped =>
      rw [stop] at scanned
      have same := @scan_ended R (blocksOf (bytes ++ chunk)) (by rw [scanned]; exact Stop.noConfusion) (completes (bytes ++ chunk) chunks.flatten)
      rw [← later, scanned] at same
      dsimp only
      rw [readStream_terminal _ rfl, delivered, ending, same]
      exact ⟨by rw [append_nil], rfl⟩
    | failed error =>
      rw [stop] at scanned
      have same := @scan_ended R (blocksOf (bytes ++ chunk)) (by rw [scanned]; exact Stop.noConfusion) (completes (bytes ++ chunk) chunks.flatten)
      rw [← later, scanned] at same
      rw [if_pos ⟨error, congrArg Prod.snd scanned⟩, delivered, ending, same]
      exact ⟨append_nil _, rfl⟩

theorem calm_append (bytes : Bytes) (chunks : List Bytes) : ∃ more, calm R bytes chunks ++ more = bytes ++ chunks.flatten := by
  induction chunks generalizing bytes with
  | nil => exact ⟨[], rfl⟩
  | cons chunk chunks ih =>
    rw [calm]
    split
    · exact ⟨_, rfl⟩
    · obtain ⟨more, whole⟩ := ih (bytes ++ chunk)
      exact ⟨more, by rw [whole, flatten_cons, append_assoc]⟩

theorem calm_free (bytes : Bytes) (chunks : List Bytes) (free : ¬ Fails R (blocksOf bytes)) :
    ¬ Fails R (blocksOf (calm R bytes chunks)) := by
  induction chunks generalizing bytes with
  | nil => exact free
  | cons chunk chunks ih =>
    rw [calm]
    split
    · exact free
    · rename_i next
      exact ih _ next

/-- In blocks that are scanned to their end, none has an event if there are no events. -/
theorem scan_eq_nil (running : (scan R blocks).2 = .running) :
    (scan R blocks).1 = [] ↔ ∀ block ∈ blocks, parseSseBlock R block = .ok [] := by
  induction blocks with
  | nil => simp [scan]
  | cons block blocks ih =>
    cases ok : parseSseBlock R block with
    | error error =>
      rw [scan_fail ok] at running
      cases running
    | ok events =>
      by_cases ends : ProviderStreamEvent.done ∈ events
      · rw [scan_stop ok ends] at running
        cases running
      · rw [scan_go ok ends] at running ⊢
        rw [append_eq_nil_iff, ih running, forall_mem_cons, ok, Except.ok.injEq]

/-- How many blocks are complete before the chunk that completes the first malformed one. -/
def early (R : Runtime) (chunks : List Bytes) : Nat := (blocksOf (calm R [] chunks)).length

/-- The blocks that only one of two cuttings completes before that chunk have no events. -/
def Harmless (R : Runtime) (chunks chunks' : List Bytes) : Prop :=
  ∀ i block, (early R chunks ≤ i ∧ i < early R chunks' ∨ early R chunks' ≤ i ∧ i < early R chunks) →
    (blocksOf chunks.flatten)[i]? = some block → parseSseBlock R block = .ok []

/-- Where the stream fails, less was read of it before, up to the end of a chunk. -/
theorem calm_running {stream : Bytes} (crlf : Followed 0x0D 0x0A stream) (whole : chunks.flatten = stream) (fails : Fails R (blocksOf stream)) :
    (scan R (blocksOf (calm R [] chunks))).2 = .running ∧
      blocksOf (calm R [] chunks) = (blocksOf stream).take (early R chunks) := by
  obtain ⟨more, parts⟩ := @calm_append R [] chunks
  rw [nil_append, whole] at parts
  rw [← parts] at crlf
  obtain ⟨complete, -⟩ := textOf_append crlf.of_append more
  rw [parts] at complete
  have free := @calm_free R [] chunks (by rintro ⟨error, failed⟩; cases failed)
  constructor
  · cases stop : (scan R (blocksOf (calm R [] chunks))).2 with
    | running => rfl
    | stopped =>
      obtain ⟨error, failed⟩ := fails
      rw [complete, scan_ended (by rw [stop]; exact Stop.noConfusion), stop] at failed
      cases failed
    | failed error => exact absurd ⟨error, stop⟩ free
  · rw [complete, early, take_left']
    rfl

/-- Of two numbers of blocks, the events are the same exactly if the blocks between them have none. -/
theorem take_events {m n : Nat} (le : m ≤ n) (running : (scan R (blocks.take n)).2 = .running) :
    (scan R (blocks.take m)).1 = (scan R (blocks.take n)).1 ↔
      ∀ i block, m ≤ i → i < n → blocks[i]? = some block → parseSseBlock R block = .ok [] := by
  have parts : blocks.take n = blocks.take m ++ (blocks.take n).drop m := by
    conv_lhs => rw [← take_append_drop m (blocks.take n)]
    rw [take_take, Nat.min_eq_left le]
  have first : (scan R (blocks.take m)).2 = .running := by
    by_contra ended
    rw [parts, scan_ended ended] at running
    exact ended running
  have scanned := scan_running first ((blocks.take n).drop m)
  rw [← parts] at scanned
  rw [scanned] at running
  rw [scanned]
  rw [self_eq_append_right, scan_eq_nil running]
  constructor
  · intro silent i block lower upper at_
    apply silent
    apply mem_iff_getElem?.2
    exact ⟨i - m, by rw [getElem?_drop, Nat.add_sub_cancel' lower, getElem?_take_of_lt upper, at_]⟩
  · intro silent block mem
    obtain ⟨j, at_⟩ := mem_iff_getElem?.1 mem
    rw [getElem?_drop] at at_
    by_cases upper : m + j < n
    · rw [getElem?_take_of_lt upper] at at_
      exact silent (m + j) block (Nat.le_add_right _ _) upper at_
    · rw [getElem?_take_eq_none (by omega)] at at_
      cases at_

/-- However a stream is cut, it ends the same way; the events are the same exactly if no block is malformed
before `[DONE]`, or the events that the error loses do not depend on the chunks. -/
theorem readProxyApiStream_chunking (R : Runtime) (chunks chunks' : List Bytes) (same : chunks.flatten = chunks'.flatten)
    (crlf : Followed 0x0D 0x0A chunks.flatten) :
    (readProxyApiStream R chunks).2 = (readProxyApiStream R chunks').2 ∧
    ((readProxyApiStream R chunks).1 = (readProxyApiStream R chunks').1 ↔
      (Fails R (blocksOf chunks.flatten) → Harmless R chunks chunks')) := by
  obtain ⟨events, ends⟩ := @readStream_parserOf R [] chunks crlf rfl
  obtain ⟨events', ends'⟩ := @readStream_parserOf R [] chunks' (same ▸ crlf) rfl
  rw [nil_append, ← same] at events' ends'
  replace events : (readProxyApiStream R chunks).1 = delivered R chunks.flatten (calm R [] chunks) := events
  replace events' : (readProxyApiStream R chunks').1 = delivered R chunks.flatten (calm R [] chunks') := events'
  refine ⟨Eq.trans ends ends'.symm, ?_⟩
  rw [events, events']
  by_cases fails : Fails R (blocksOf chunks.flatten)
  · rw [imp_iff_right fails]
    obtain ⟨running, first⟩ := calm_running crlf rfl fails
    obtain ⟨running', first'⟩ := calm_running crlf same.symm fails
    obtain ⟨error, failed⟩ := fails
    unfold delivered Harmless
    rw [failed]
    rw [first] at running ⊢
    rw [first'] at running' ⊢
    rcases Nat.le_total (early R chunks) (early R chunks') with le | le
    · rw [take_events le running']
      constructor
      · rintro silent i block (⟨lower, upper⟩ | ⟨lower, upper⟩) at_
        · exact silent i block lower upper at_
        · omega
      · exact fun silent i block lower upper => silent i block (.inl ⟨lower, upper⟩)
    · rw [eq_comm, take_events le running]
      constructor
      · rintro silent i block (⟨lower, upper⟩ | ⟨lower, upper⟩) at_
        · omega
        · exact silent i block lower upper at_
      · exact fun silent i block lower upper => silent i block (.inr ⟨lower, upper⟩)
  · unfold delivered
    cases stop : (scan R (blocksOf chunks.flatten)).2 with
    | failed error => exact absurd ⟨error, stop⟩ fails
    | running | stopped => exact ⟨fun _ failed => absurd failed fails, fun _ => rfl⟩

/-- Integers without a fraction or an exponent. -/
def decimal : Runtime := ⟨fun n => (String.ofList n.text).toInt?⟩

def hello : Bytes := Js.utf8 "data: \x7b\"choices\":[\x7b\"delta\":\x7b\"content\":\"a\"\x7d\x7d]\x7d\n\n".toList

def broken : Bytes := Js.utf8 "data: \x7b\n\n".toList

theorem readProxyApiStream_loses_events :
    [hello, broken].flatten = [hello ++ broken].flatten ∧ (0x0D ∉ [hello, broken].flatten) ∧
      (readProxyApiStream decimal [hello, broken]).1 = [.delta (Js.units "a")] ∧
      (readProxyApiStream decimal [hello ++ broken]).1 = [] := by
  decide +kernel

theorem readProxyApiStream_chunking_hello :
    (readProxyApiStream decimal [hello, hello]).1 = (readProxyApiStream decimal [hello ++ hello]).1 := by
  have same := readProxyApiStream_chunking decimal [hello, hello] [hello ++ hello] (by simp)
    (followed_of_notMem (by decide +kernel))
  exact same.2.2 fun failed => absurd failed (by decide +kernel)

end Vimla.Inference.Sse
