import Vimla.Lib.TextStream
import Vimla.Lib.WideText
import Vimla.TextChat.Reservations

/-!
# Server-sent events of a provider

`OpenAiCompatSseParser` of `sse.ts`, what it makes of a payload, and the stream
that `proxyapi-provider.ts` reads with it. A `SyntaxError` ends the stream, so the
parser is not looked at after one.
-/

namespace Vimla.Inference.Sse

open Js Base64 TextChat TextStream Wide

/-- The numbers of JSON that are integers. -/
structure Runtime where
  integer : Numeral → Option Int

inductive ProviderStreamEvent
  | delta (text : Units)
  | tool_call_delta (index : Int) (id name : Option Units) (argumentsDelta : Units)
  | usage (usage : NormalizedUsage)
  | done
  deriving DecidableEq

/-- A `SyntaxError`, with the block that it comes from. -/
structure SyntaxError where
  message : String
  block : List Char
  deriving DecidableEq

section
variable (R : Runtime)

def asText : Wide → Units
  | .string text => text
  | _ => []

/-- `choices[0]`. -/
def firstChoice (payload : Wide) : Option Wide :=
  match payload.field (units "choices") with
  | some (.array (first :: _)) => some first
  | _ => none

def readDeltaText (payload : Wide) : Units :=
  match firstChoice payload with
  | none => []
  | some first =>
    match (first.field (units "delta")).bind (field (units "content")) with
    | some content => asText content
    | none =>
      match (first.field (units "message")).bind (field (units "content")) with
      | some content => asText content
      | none => []

/-- A string that is not empty. -/
def named : Option Wide → Option Units
  | some (.string text) => if text = [] then none else some text
  | _ => none

def readToolCallDelta (item : Wide) : Except String ProviderStreamEvent :=
  match item with
  | .array _ | .object _ =>
    match item.field (units "index") with
    | some (.number n) =>
      match R.integer n with
      | some index =>
        if index < 0 then .error "Malformed provider tool-call index"
        else
          let fn := item.field (units "function")
          .ok (.tool_call_delta index (named (item.field (units "id"))) (named (fn.bind (field (units "name"))))
            (((fn.bind (field (units "arguments"))).map asText).getD []))
      | none => .error "Malformed provider tool-call index"
    | _ => .error "Malformed provider tool-call index"
  | _ => .error "Malformed provider tool-call payload"

def readToolCallDeltas (payload : Wide) : Except String (List ProviderStreamEvent) :=
  match ((firstChoice payload).bind (field (units "delta"))).bind (field (units "tool_calls")) with
  | some (.array toolCalls) => toolCalls.mapM (readToolCallDelta R)
  | _ => .ok []

/-- `none` where it throws. -/
def asTokenCount (value : Option Wide) (optional : Bool) : Option Int :=
  match value with
  | none | some .null => if optional then some 0 else none
  | some (.number n) => (R.integer n).filter (0 ≤ ·)
  | some _ => none

/-- `some none` is `null`; `none` where it throws. -/
def readOpenAiUsage (payload : Wide) : Option (Option NormalizedUsage) :=
  match payload.field (units "usage") with
  | none => some none
  | some record =>
    if record.field (units "prompt_tokens") = none ∧ record.field (units "completion_tokens") = none then some none
    else do
      let details := record.field (units "prompt_tokens_details")
      let completionDetails := record.field (units "completion_tokens_details")
      let inputTokens ← asTokenCount R (record.field (units "prompt_tokens")) false
      let outputTokens ← asTokenCount R (record.field (units "completion_tokens")) false
      let reasoningTokens ← asTokenCount R (completionDetails.bind (field (units "reasoning_tokens"))) true
      let cacheReadTokens ← asTokenCount R (details.bind (field (units "cached_tokens"))) true
      let cacheWriteTokens ← asTokenCount R
        (match details.bind (field (units "cache_write_tokens")) with
          | none | some .null => details.bind (field (units "cache_creation_tokens"))
          | some value => some value) true
      match normalizeProviderUsage ⟨inputTokens, outputTokens, some reasoningTokens, some cacheReadTokens, some cacheWriteTokens⟩ with
      | .ok usage => some (some usage)
      | .error _ => none

def eventsFromPayload (payload : Wide) : Except String (List ProviderStreamEvent) :=
  let text := readDeltaText payload
  match readToolCallDeltas R payload with
  | .error message => .error message
  | .ok toolCalls =>
    match readOpenAiUsage R payload with
    | none => .error "Malformed provider usage payload"
    | some usage => .ok ((if text = [] then [] else [.delta text]) ++ toolCalls ++ (usage.map .usage).toList)

def trimStart (text : List Char) : List Char := text.dropWhile Js.isSpace

def trimText (text : List Char) : List Char := (trimStart (trimStart text).reverse).reverse

/-- The texts after `data:`. -/
def dataLines (block : List Char) : List (List Char) :=
  (block.splitOn '\n').filterMap fun line =>
    if "data:".toList <+: line then some (trimStart (line.drop 5)) else none

def parseSseBlock (block : List Char) : Except SyntaxError (List ProviderStreamEvent) :=
  let data := trimText (List.intercalate ['\n'] (dataLines block))
  if data = [] then .ok []
  else if data = "[DONE]".toList then .ok [.done]
  else
    match parse (Units.ofText data) with
    | none => .error ⟨"Malformed provider SSE JSON", block⟩
    | some payload => (eventsFromPayload R payload).mapError fun message => ⟨message, block⟩

structure OpenAiCompatSseParser where
  buffer : List Char := []
  terminal : Bool := false
  decoder : TextDecoder := {}

/-- The rounds of the loop, one for each block, and whether the last of them met `[DONE]`. -/
def rounds : List (List Char) → Except SyntaxError (List ProviderStreamEvent × Bool)
  | [] => .ok ([], false)
  | rawEvent :: rest => do
    let parsed ← parseSseBlock R rawEvent
    if ProviderStreamEvent.done ∈ parsed then return (parsed, true)
    else
      let later ← rounds rest
      return (parsed ++ later.1, later.2)

namespace OpenAiCompatSseParser

def drain (flush : Bool) (p : OpenAiCompatSseParser) : Except SyntaxError (List ProviderStreamEvent × OpenAiCompatSseParser) := do
  let (blocks, rest) := split (normalize p.buffer)
  let (events, stopped) ← rounds R blocks
  let p := if stopped then { p with terminal := true, buffer := [] } else { p with buffer := rest }
  if flush ∧ trimText p.buffer ≠ [] then
    let last ← parseSseBlock R p.buffer
    return (events ++ last, { p with buffer := [] })
  else return (events, p)

def push (p : OpenAiCompatSseParser) (chunk : Bytes) : Except SyntaxError (List ProviderStreamEvent × OpenAiCompatSseParser) :=
  if p.terminal then .ok ([], p)
  else drain R false { p with buffer := p.buffer ++ (p.decoder.decode chunk).2, decoder := (p.decoder.decode chunk).1 }

def finish (p : OpenAiCompatSseParser) : Except SyntaxError (List ProviderStreamEvent × OpenAiCompatSseParser) :=
  if p.terminal then .ok ([], p)
  else drain R true { p with buffer := p.buffer ++ p.decoder.finish, decoder := {} }

end OpenAiCompatSseParser

/-- How the stream ends for its consumer. -/
inductive Ending
  | returned
  | threw (error : SyntaxError)

/-- The events that reach the consumer, chunk by chunk, and the end. -/
def readStream (p : OpenAiCompatSseParser) : List Bytes → List ProviderStreamEvent × Ending
  | [] =>
    match p.finish R with
    | .ok (events, _) => (events, .returned)
    | .error error => ([], .threw error)
  | chunk :: chunks =>
    match p.push R chunk with
    | .ok (events, p) => (events ++ (readStream p chunks).1, (readStream p chunks).2)
    | .error error => ([], .threw error)

def readProxyApiStream (chunks : List Bytes) : List ProviderStreamEvent × Ending := readStream R {} chunks

end

end Vimla.Inference.Sse
