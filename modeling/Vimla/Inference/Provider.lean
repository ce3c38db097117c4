import Vimla.Lib.Semaphore
import Vimla.Lib.Runs

/-!
# The local inference provider

Its slots, its circuit, and what each turn of the event loop makes of them: a call
comes in, an awaited promise is settled, the consumer of a stream asks for more or
stops, a signal aborts. What the server and the consumers do is not told.
-/

namespace Vimla.Inference

open Option

inductive LocalInferenceErrorCode
  | CANCELED | CIRCUIT_OPEN | INVALID_RESPONSE | OVERLOADED | REJECTED | TIMEOUT | UNAVAILABLE
  deriving DecidableEq

structure LocalInferenceError where
  code : LocalInferenceErrorCode
  retryable : Bool
  httpStatus : Option Nat
  deriving DecidableEq

/-- Whether the reason of a signal is a `TimeoutError`. -/
inductive AbortReason | timeout | other
  deriving DecidableEq

def classifyAbortSignal : AbortReason → LocalInferenceError
  | .timeout => ⟨.TIMEOUT, true, none⟩
  | .other => ⟨.CANCELED, false, none⟩

def classifyHttpError (status : Nat) : LocalInferenceError :=
  if status = 408 ∨ status = 429 ∨ status ≥ 500 then
    ⟨if status = 408 then .TIMEOUT else .UNAVAILABLE, true, some status⟩
  else ⟨.REJECTED, false, some status⟩

/-- `own` is an error that the code itself has thrown. -/
def classifyTransportError (own : Option LocalInferenceError) (signal : Option AbortReason) : LocalInferenceError :=
  match own, signal with
  | some error, _ => error
  | none, some reason => classifyAbortSignal reason
  | none, none => ⟨.UNAVAILABLE, true, none⟩

structure LocalInferenceProviderConfig where
  maxRequestBytes : Nat
  maxConcurrentRequests : Nat
  maxQueueDepth : Nat
  circuitBreakerFailureThreshold : Nat
  circuitBreakerResetMs : Nat
  toolUse : Bool
  maxConcurrentRequests_pos : 0 < maxConcurrentRequests
  threshold_pos : 0 < circuitBreakerFailureThreshold
  resetMs_pos : 0 < circuitBreakerResetMs

structure CircuitPermit where
  generation : Nat
  halfOpen : Bool
  deriving DecidableEq

structure Circuit where
  consecutiveFailures : Nat
  openUntilMs : Nat
  halfOpenInFlight : Bool
  circuitGeneration : Nat
  deriving DecidableEq

namespace Circuit

def claimCircuitPermission (now : Nat) (k : Circuit) : Except LocalInferenceError CircuitPermit × Circuit :=
  if k.openUntilMs > now then (.error ⟨.CIRCUIT_OPEN, true, none⟩, k)
  else if k.openUntilMs > 0 then
    if k.halfOpenInFlight then (.error ⟨.CIRCUIT_OPEN, true, none⟩, k)
    else (.ok ⟨k.circuitGeneration, true⟩, { k with halfOpenInFlight := true })
  else (.ok ⟨k.circuitGeneration, false⟩, k)

def releaseHalfOpenPermit (permit : CircuitPermit) (k : Circuit) : Circuit :=
  if permit.halfOpen ∧ permit.generation = k.circuitGeneration ∧ k.openUntilMs > 0 then { k with halfOpenInFlight := false }
  else k

def refreshCircuitPermit (now : Nat) (permit : CircuitPermit) (k : Circuit) : Except LocalInferenceError CircuitPermit × Circuit :=
  if permit.generation = k.circuitGeneration then (.ok permit, k)
  else (k.releaseHalfOpenPermit permit).claimCircuitPermission now

def openCircuit (c : LocalInferenceProviderConfig) (now : Nat) (k : Circuit) : Circuit :=
  { k with
    openUntilMs := now + c.circuitBreakerResetMs
    halfOpenInFlight := false
    circuitGeneration := k.circuitGeneration + 1 }

def recordSuccess (permit : CircuitPermit) (k : Circuit) : Circuit :=
  if permit.generation ≠ k.circuitGeneration then k
  else if permit.halfOpen then
    { consecutiveFailures := 0, openUntilMs := 0, halfOpenInFlight := false, circuitGeneration := k.circuitGeneration + 1 }
  else if k.openUntilMs = 0 then { k with consecutiveFailures := 0 }
  else k

def recordFailure (c : LocalInferenceProviderConfig) (now : Nat) (permit : CircuitPermit) (k : Circuit) : Circuit :=
  if permit.generation ≠ k.circuitGeneration then k
  else if permit.halfOpen then k.openCircuit c now
  else
    let k := { k with consecutiveFailures := k.consecutiveFailures + 1 }
    if k.consecutiveFailures ≥ c.circuitBreakerFailureThreshold then k.openCircuit c now else k

end Circuit

inductive ProviderStreamEvent
  | delta (text : String) | tool_call_delta (index : Nat) (argumentsDelta : String) | usage | done
  deriving DecidableEq

def eventsThroughDone (events : List ProviderStreamEvent) : List ProviderStreamEvent × Bool :=
  match events.findIdx? fun event => event = .done with
  | none => (events, false)
  | some doneIndex => (events.take (doneIndex + 1), true)

/-- What the generator has seen of its stream. -/
structure Progress where
  responseBytes : Nat
  sawProviderEvent : Bool
  deriving DecidableEq

/-- Where a call is suspended: in `acquireSlot` or just after it, at the fetch,
with a stream whose generator was not started (or was ended before it was
started), at `reader.read()`, or at a `yield` that `rest` and then, if `final`, the
end of the generator follow. -/
inductive Phase
  | queued
  | acquired
  | unacquired (error : LocalInferenceError)
  | fetching
  | returned
  | abandoned
  | reading (progress : Progress)
  | yielding (rest : List ProviderStreamEvent) (final : Bool) (progress : Progress)
  | ended (error : Option LocalInferenceError)
  deriving DecidableEq

structure Call where
  signal : Option AbortReason
  permit : CircuitPermit
  slotReleased : Bool
  /-- `releaseOnAbort` is a listener of the signal. -/
  listening : Bool
  phase : Phase

/-- What a call was told by the server, or a failure to be told. -/
structure Verdict where
  call : Nat
  permit : CircuitPermit
  failed : Bool
  deriving DecidableEq

/-- The last five remember who came, who got a slot and who gave it back, the
requests that were sent, and how calls ended. -/
structure State where
  activeRequests : Nat
  waiters : List Nat
  circuit : Circuit
  calls : List Call
  now : Nat
  arrived : List Nat
  served : List Nat
  released : List Nat
  sent : List Nat
  verdicts : List Verdict

def init (now : Nat) : State := ⟨0, [], ⟨0, 0, false, 0⟩, [], now, [], [], [], [], []⟩

namespace State

def modify (i : Nat) (f : Call → Call) (s : State) : State := { s with calls := s.calls.modify i f }

/-- `resolve` of a waiter. -/
def resolve (waiter : Nat) (s : State) : State :=
  match s.calls[waiter]? with
  | none => s
  | some call =>
    if call.phase = .queued then
      { s.modify waiter (fun call => { call with phase := .acquired }) with
        activeRequests := s.activeRequests + 1
        served := s.served ++ [waiter] }
    else s

def releaseSlot (s : State) : State :=
  match s.waiters with
  | [] => { s with activeRequests := s.activeRequests - 1 }
  | waiter :: rest => resolve waiter { s with activeRequests := s.activeRequests - 1, waiters := rest }

def releaseSlotOnce (i : Nat) (s : State) : State :=
  match s.calls[i]? with
  | none => s
  | some call =>
    if call.slotReleased then s
    else
      let s := s.modify i fun call => { call with slotReleased := true }
      releaseSlot { s with released := s.released ++ [i] }

def releaseHalfOpenPermit (permit : CircuitPermit) (s : State) : State :=
  { s with circuit := s.circuit.releaseHalfOpenPermit permit }

def recordSuccess (permit : CircuitPermit) (s : State) : State := { s with circuit := s.circuit.recordSuccess permit }

def recordFailure (c : LocalInferenceProviderConfig) (permit : CircuitPermit) (s : State) : State :=
  { s with circuit := s.circuit.recordFailure c s.now permit }

/-- A call that a cancellation ended has no verdict. -/
def judge (i : Nat) (permit : CircuitPermit) (error : Option LocalInferenceError) (s : State) : State :=
  match error with
  | none => { s with verdicts := s.verdicts ++ [⟨i, permit, false⟩] }
  | some error =>
    if error.code = .CANCELED then s else { s with verdicts := s.verdicts ++ [⟨i, permit, error.retryable⟩] }

def finish (i : Nat) (error : Option LocalInferenceError) (s : State) : State :=
  s.modify i fun call => { call with listening := false, phase := .ended error }

end State

/-- `payload` is the length of the serialized request, if it can be serialized. -/
structure Request where
  tools : Nat
  payload : Option Nat
  abortSignal : Option AbortReason

structure Response where
  status : Nat
  body : Bool

def Response.ok (r : Response) : Bool := 200 ≤ r.status ∧ r.status ≤ 299

inductive Fetched
  | rejects
  | responds (response : Response)

/-- What `read()` answers, with what the parser makes of it: events, or a
`SyntaxError`. -/
inductive Chunk
  | fails
  | done (events : Except Unit (List ProviderStreamEvent))
  | value (byteLength : Nat) (events : Except Unit (List ProviderStreamEvent))

inductive Event
  | call (request : Request)
  | resume (id : Nat)
  | fetched (id : Nat) (answer : Fetched)
  | next (id : Nat)
  | read (id : Nat) (chunk : Chunk)
  | stop (id : Nat)
  | abort (id : Nat) (reason : AbortReason)
  | tick (elapsed : Nat)

def MAX_STREAM_RESPONSE_BYTES : Nat := 4 * 1024 * 1024

def INVALID_RESPONSE (httpStatus : Option Nat) : LocalInferenceError := ⟨.INVALID_RESPONSE, true, httpStatus⟩

section
variable (c : LocalInferenceProviderConfig)

/-- `acquireSlot` of a new call, up to its first suspension. -/
def acquireSlot (call : Call) (s : State) : State :=
  let i := s.calls.length
  let suspended (phase : Phase) : State := { s with calls := s.calls ++ [{ call with phase := phase }] }
  match call.signal with
  | some reason => suspended (.unacquired (classifyAbortSignal reason))
  | none =>
    if s.activeRequests < c.maxConcurrentRequests then
      { suspended .acquired with
        activeRequests := s.activeRequests + 1
        arrived := s.arrived ++ [i]
        served := s.served ++ [i] }
    else if s.waiters.length ≥ c.maxQueueDepth then suspended (.unacquired ⟨.OVERLOADED, true, none⟩)
    else
      { suspended .queued with
        waiters := s.waiters ++ [i]
        arrived := s.arrived ++ [i] }

/-- `streamChat` up to its first suspension. -/
def streamChat (request : Request) (s : State) : State :=
  if request.tools > 0 ∧ ¬ c.toolUse then s
  else
    match request.payload with
    | none => s
    | some byteLength =>
      if byteLength > c.maxRequestBytes then s
      else
        match s.circuit.claimCircuitPermission s.now with
        | (.error _, k) => { s with circuit := k }
        | (.ok permit, k) => acquireSlot c ⟨request.abortSignal, permit, false, false, .queued⟩ { s with circuit := k }

/-- `streamChat` from the slot to the fetch. -/
def resume (i : Nat) (call : Call) (s : State) : State :=
  match call.phase with
  | .unacquired error => (s.releaseHalfOpenPermit call.permit).finish i (some error)
  | .acquired =>
    match s.circuit.refreshCircuitPermit s.now call.permit with
    | (.error error, k) =>
      ((State.releaseSlotOnce i { s with circuit := k }).releaseHalfOpenPermit call.permit).finish i (some error)
    | (.ok permit, k) =>
      let s := s.modify i fun call => { call with permit := permit, phase := .fetching }
      { s with circuit := k, sent := s.sent ++ [i] }
  | _ => s

/-- `streamChat` from the answer of the fetch. -/
def fetched (i : Nat) (call : Call) (answer : Fetched) (s : State) : State :=
  match answer with
  | .rejects =>
    let s := s.releaseSlotOnce i
    let classified := classifyTransportError none call.signal
    let s := if classified.code = .CANCELED then s.releaseHalfOpenPermit call.permit else s.recordFailure c call.permit
    (s.judge i call.permit (some classified)).finish i (some classified)
  | .responds response =>
    match call.signal with
    | some reason =>
      let error := classifyAbortSignal reason
      (((s.releaseSlotOnce i).releaseHalfOpenPermit call.permit).judge i call.permit (some error)).finish i (some error)
    | none =>
      if ¬ response.ok then
        let s := s.releaseSlotOnce i
        let error := classifyHttpError response.status
        let s := if error.retryable then s.recordFailure c call.permit else s.recordSuccess call.permit
        (s.judge i call.permit (some error)).finish i (some error)
      else if ¬ response.body then
        let error := INVALID_RESPONSE (some response.status)
        (((s.releaseSlotOnce i).recordFailure c call.permit).judge i call.permit (some error)).finish i (some error)
      else s.modify i fun call => { call with listening := true, phase := .returned }

/-- The `finally` of the generator. -/
def close (i : Nat) (call : Call) (error : Option LocalInferenceError) (s : State) : State :=
  ((s.releaseSlotOnce i).releaseHalfOpenPermit call.permit).finish i error

/-- The `catch` of the generator. -/
def fail (i : Nat) (call : Call) (own : Option LocalInferenceError) (s : State) : State :=
  let classified := classifyTransportError own call.signal
  let s := if classified.code = .CANCELED then s.releaseHalfOpenPermit call.permit else s.recordFailure c call.permit
  close i call (some classified) (s.judge i call.permit (some classified))

/-- The head of the loop, up to `reader.read()`. -/
def pull (i : Nat) (call : Call) (progress : Progress) (s : State) : State :=
  match call.signal with
  | some reason => fail c i call (some (classifyAbortSignal reason)) s
  | none => s.modify i fun call => { call with phase := .reading progress }

/-- `yield*`, and what follows it. -/
def yields (i : Nat) (call : Call) (events : List ProviderStreamEvent) (final : Bool) (progress : Progress) (s : State) : State :=
  match events with
  | _ :: rest => s.modify i fun call => { call with phase := .yielding rest final progress }
  | [] => if final then close i call none s else pull c i call progress s

/-- The loop from the answer of `reader.read()`. -/
def receive (i : Nat) (call : Call) (progress : Progress) (chunk : Chunk) (s : State) : State :=
  match call.signal, chunk with
  | some reason, _ => fail c i call (some (classifyAbortSignal reason)) s
  | none, .fails => fail c i call none s
  | none, .done (.error _) => fail c i call (some (INVALID_RESPONSE none)) s
  | none, .done (.ok parsed) =>
    let final := (eventsThroughDone parsed).1
    let progress := { progress with sawProviderEvent := progress.sawProviderEvent || 0 < final.length }
    if ¬ progress.sawProviderEvent then fail c i call (some (INVALID_RESPONSE none)) s
    else yields c i call final true progress ((s.recordSuccess call.permit).judge i call.permit none)
  | none, .value byteLength parsed =>
    let responseBytes := progress.responseBytes + byteLength
    if responseBytes > MAX_STREAM_RESPONSE_BYTES then fail c i call (some (INVALID_RESPONSE none)) s
    else
      match parsed with
      | .error _ => fail c i call (some (INVALID_RESPONSE none)) s
      | .ok parsed =>
        let (events, terminal) := eventsThroughDone parsed
        let progress := ⟨responseBytes, progress.sawProviderEvent || 0 < events.length⟩
        let s := if terminal then (s.recordSuccess call.permit).judge i call.permit none else s
        yields c i call events terminal progress s

/-- `next()` of the consumer. -/
def next (i : Nat) (call : Call) (s : State) : State :=
  match call.phase with
  | .returned => pull c i call ⟨0, false⟩ s
  | .yielding rest final progress => yields c i call rest final progress s
  | _ => s

/-- `return()` of the consumer. -/
def stop (i : Nat) (call : Call) (s : State) : State :=
  match call.phase with
  | .returned => s.modify i fun call => { call with phase := .abandoned }
  | .yielding _ _ _ => close i call none s
  | _ => s

/-- A signal aborts, with its listeners: `onAbort` of the waiter and `releaseOnAbort`. -/
def abort (i : Nat) (call : Call) (reason : AbortReason) (s : State) : State :=
  if call.signal.isSome then s
  else
    let s := s.modify i fun call => { call with signal := some reason }
    if call.phase = .queued then
      { s.modify i (fun call => { call with phase := .unacquired (classifyAbortSignal reason) }) with
        waiters := s.waiters.erase i }
    else if call.listening then
      ((s.modify i fun call => { call with listening := false }).releaseSlotOnce i).releaseHalfOpenPermit call.permit
    else s

def turn (s : State) (i : Nat) (act : Call → State → State) : State :=
  match s.calls[i]? with
  | none => s
  | some call => act call s

/-- A promise that is not awaited is not settled. -/
def step (s : State) : Event → State
  | .call request => streamChat c request s
  | .resume i => turn s i (resume i)
  | .fetched i answer => turn s i fun call s => if call.phase = .fetching then fetched c i call answer s else s
  | .next i => turn s i (next c i)
  | .read i chunk => turn s i fun call s =>
    match call.phase with
    | .reading progress => receive c i call progress chunk s
    | _ => s
  | .stop i => turn s i (stop i)
  | .abort i reason => turn s i fun call s => abort i call reason s
  | .tick elapsed => { s with now := s.now + elapsed }

end

/-!
# Slots and waiters

The counter and the queue of the provider are a semaphore, and the phase of a call
says what it has of it.
-/

variable {c : LocalInferenceProviderConfig} {s t : State} {i j : Nat} {call call' : Call}

def State.semaphore (s : State) : Semaphore Nat := ⟨s.activeRequests, s.waiters, s.arrived, s.served, s.released⟩

/-- The call got a slot. -/
def Call.granted (call : Call) : Bool :=
  match call.phase with
  | .queued | .unacquired _ => false
  | .ended _ => call.slotReleased
  | _ => true

structure Slot (s : State) (i : Nat) (call : Call) : Prop where
  waits : i ∈ s.waiters ↔ call.phase = .queued
  served : i ∈ s.served ↔ call.granted = true
  released : i ∈ s.released ↔ call.slotReleased = true
  back : call.slotReleased = true → call.granted = true

structure Slotted (c : LocalInferenceProviderConfig) (s : State) : Prop where
  sound : s.semaphore.Sound c.maxConcurrentRequests c.maxQueueDepth
  known : ∀ i ∈ s.arrived, i < s.calls.length
  each : ∀ i call, s.calls[i]? = some call → Slot s i call

theorem slotted_init (now : Nat) : Slotted c (init now) := ⟨Semaphore.sound_new, nofun, nofun⟩

variable {f : Call → Call}

theorem getElem_modify (found : s.calls[i]? = some call) : (s.modify i f).calls[i]? = some (f call) := by
  simp [State.modify, found]

theorem getElem_modify_ne (other : j ≠ i) : (s.modify i f).calls[j]? = s.calls[j]? := by
  simp [State.modify, Ne.symm other]

theorem modify_modify {g : Call → Call} : (s.modify i f).modify i g = s.modify i (g ∘ f) := by
  simp [State.modify, List.modify_modify_eq]

/-- What holds of one call and of the others holds of every call. -/
theorem each_call {P : Nat → Call → Prop} (own : t.calls[i]? = some call) (new : P i call)
    (others : ∀ j ≠ i, ∀ call', t.calls[j]? = some call' → P j call') (j : Nat) (call' : Call) (is : t.calls[j]? = some call') :
    P j call' := by
  by_cases here : j = i
  · subst here
    exact some.inj (own.symm.trans is) ▸ new
  · exact others j here call' is

/-- The same slots, with a call that has the same of them. -/
theorem Slotted.same (slotted : Slotted c s) (semaphore : t.semaphore = s.semaphore) (length : t.calls.length = s.calls.length)
    (calls : ∀ (j : Nat) (call' : Call), t.calls[j]? = some call' → ∃ call : Call, s.calls[j]? = some call ∧
      (call'.phase = .queued ↔ call.phase = .queued) ∧ call'.granted = call.granted ∧ call'.slotReleased = call.slotReleased) :
    Slotted c t := by
  obtain ⟨-, waiters, arrived, served, released⟩ := Semaphore.mk.injEq .. ▸ semaphore
  refine ⟨semaphore ▸ slotted.sound, fun j mem => ?_, fun j call' found => ?_⟩
  · rw [length]
    exact slotted.known j (arrived ▸ mem)
  · obtain ⟨call, found, queued, granted, flag⟩ := calls j call' found
    have slot := slotted.each j call found
    exact ⟨by rw [waiters, queued, slot.waits], by rw [served, granted, slot.served], by rw [released, flag, slot.released],
      by rw [granted, flag]; exact slot.back⟩

theorem Slotted.modify (slotted : Slotted c s) (found : s.calls[i]? = some call)
    (queued : (f call).phase = .queued ↔ call.phase = .queued) (granted : (f call).granted = call.granted)
    (flag : (f call).slotReleased = call.slotReleased) : Slotted c (s.modify i f) :=
  slotted.same rfl (by simp [State.modify]) (each_call (getElem_modify found) ⟨call, found, queued, granted, flag⟩
    fun _ other call' is => ⟨call', getElem_modify_ne other ▸ is, Iff.rfl, rfl, rfl⟩)

theorem Slotted.calls (slotted : Slotted c s) (semaphore : t.semaphore = s.semaphore) (calls : t.calls = s.calls) : Slotted c t :=
  slotted.same semaphore (by rw [calls]) fun j call found => ⟨call, calls ▸ found, Iff.rfl, rfl, rfl⟩

/-- A waiter is a call that is queued. -/
theorem Slotted.waiter (slotted : Slotted c s) (mem : i ∈ s.waiters) : ∃ call, s.calls[i]? = some call ∧ call.phase = .queued := by
  have arrived : i ∈ s.arrived := slotted.sound.order.subset (List.mem_append_right _ mem)
  have found := List.getElem?_eq_getElem (slotted.known i arrived)
  exact ⟨_, found, (slotted.each i _ found).waits.1 mem⟩

/-- A waiter that leaves the queue. -/
theorem Slotted.leave (slotted : Slotted c s) (found : s.calls[i]? = some call) (queued : call.phase = .queued)
    (semaphore : t.semaphore = s.semaphore.leave i) (length : t.calls.length = s.calls.length) (own : t.calls[i]? = some call')
    (others : ∀ j ≠ i, t.calls[j]? = s.calls[j]?) (left : call'.phase ≠ .queued) (none : call'.granted = false)
    (flag : call'.slotReleased = call.slotReleased) : Slotted c t := by
  have slot := slotted.each i call found
  have nothing : call.granted = false := by simp [Call.granted, queued]
  have waiters : t.waiters = s.waiters.erase i := congrArg Semaphore.waiting semaphore
  have served : t.served = s.served := congrArg Semaphore.served semaphore
  have released : t.released = s.released := congrArg Semaphore.released semaphore
  refine ⟨semaphore ▸ slotted.sound.leave, fun j mem => ?_, each_call own ?_ fun j here other is => ?_⟩
  · rw [length]
    rw [show t.arrived = s.arrived from congrArg Semaphore.arrived semaphore] at mem
    exact slotted.known j mem
  · refine ⟨⟨fun mem => absurd rfl ((slotted.sound.waiting_nodup.mem_erase_iff.1 (waiters ▸ mem)).1), fun queued => absurd queued left⟩, ?_, ?_, ?_⟩
    · rw [served, none, ← nothing, slot.served]
    · rw [released, flag, slot.released]
    · rw [none, ← nothing, flag]
      exact slot.back
  · have old := slotted.each j other (others j here ▸ is)
    exact ⟨by rw [waiters, List.mem_erase_of_ne here, old.waits], by rw [served, old.served], by rw [released, old.released], old.back⟩

/-- What `releaseSlotOnce` makes of another call: the first waiter has its slot. -/
def Woken (s : State) (j : Nat) (call call' : Call) : Prop :=
  if s.waiters.head? = some j then call.phase = .queued ∧ call' = { call with phase := .acquired } else call' = call

structure Released (s t : State) (i : Nat) (call : Call) : Prop where
  own : t.calls[i]? = some { call with slotReleased := true }
  others : ∀ j ≠ i, ∀ call', t.calls[j]? = some call' → ∃ call, s.calls[j]? = some call ∧
    (call' = call ∨ call.phase = .queued ∧ call' = { call with phase := .acquired })
  length : t.calls.length = s.calls.length
  circuit : t.circuit = s.circuit
  now : t.now = s.now
  sent : t.sent = s.sent
  verdicts : t.verdicts = s.verdicts

theorem granted_released (granted : call.granted = true) : ({ call with slotReleased := true } : Call).granted = true := by
  unfold Call.granted at granted ⊢
  split at granted <;> simp_all

section
variable (slotted : Slotted c s) (found : s.calls[i]? = some call) (granted : call.granted = true)
include slotted found granted

theorem Slotted.released (kept : call.slotReleased = false) (semaphore : t.semaphore = s.semaphore.release i) (length : t.calls.length = s.calls.length)
    (own : t.calls[i]? = some { call with slotReleased := true })
    (others : ∀ j ≠ i, ∀ call', t.calls[j]? = some call' → ∃ call, s.calls[j]? = some call ∧ Woken s j call call') : Slotted c t := by
  have slot := slotted.each i call found
  have served := slot.served.2 granted
  have held : i ∉ s.released := fun mem => absurd (slot.released.1 mem) (by simp [kept])
  have waiting (j : Nat) : j ∈ t.waiters ↔ j ∈ s.waiters ∧ s.waiters.head? ≠ some j := by
    rw [show t.waiters = _ from congrArg Semaphore.waiting semaphore]
    exact slotted.sound.mem_waiting_release
  have servedNow (j : Nat) : j ∈ t.served ↔ j ∈ s.served ∨ s.waiters.head? = some j := by
    rw [show t.served = _ from congrArg Semaphore.served semaphore]
    exact Semaphore.mem_served_release
  have releasedNow (j : Nat) : j ∈ t.released ↔ j ∈ s.released ∨ j = i := by
    rw [show t.released = _ from congrArg Semaphore.released semaphore]
    exact Semaphore.mem_released_release
  refine ⟨semaphore ▸ slotted.sound.release served held, fun j mem => ?_, each_call own ?_ fun j here call' is => ?_⟩
  · rw [length]
    rw [show t.arrived = _ from congrArg Semaphore.arrived semaphore, Semaphore.arrived_release] at mem
    exact slotted.known j mem
  · have granted' := granted_released granted
    have running : call.phase ≠ .queued := fun queued => by simp [Call.granted, queued] at granted
    refine ⟨⟨fun mem => slot.waits.1 ((waiting i).1 mem).1, fun queued => absurd queued running⟩,
      ⟨fun _ => granted', fun _ => (servedNow i).2 (.inl served)⟩, ⟨fun _ => rfl, fun _ => (releasedNow i).2 (.inr rfl)⟩, fun _ => granted'⟩
  · obtain ⟨old, found', woken⟩ := others j here call' is
    have other := slotted.each j old found'
    have flag : j ∈ t.released ↔ old.slotReleased = true := by rw [releasedNow, or_iff_left here, other.released]
    unfold Woken at woken
    split at woken
    · rename_i first
      obtain ⟨queued, rfl⟩ := woken
      exact ⟨⟨fun mem => absurd first ((waiting j).1 mem).2, nofun⟩, ⟨fun _ => rfl, fun _ => (servedNow j).2 (.inr first)⟩, flag,
        fun _ => rfl⟩
    · rename_i behind
      subst woken
      exact ⟨by rw [waiting, and_iff_left behind, other.waits], by rw [servedNow, or_iff_left behind, other.served], flag, other.back⟩

theorem releaseSlotOnce_spec :
    Released s (s.releaseSlotOnce i) i call ∧ Slotted c (s.releaseSlotOnce i) := by
  unfold State.releaseSlotOnce
  simp only [found]
  split
  · rename_i back
    exact ⟨⟨by rw [found, ← back], fun j _ call' found' => ⟨call', found', .inl rfl⟩, rfl, rfl, rfl, rfl, rfl⟩, slotted⟩
  rename_i kept
  have kept := Bool.eq_false_iff.2 kept
  have running : call.phase ≠ .queued := fun queued => by simp [Call.granted, queued] at granted
  unfold State.releaseSlot
  simp only [State.modify]
  split
  · rename_i idle
    have own : (s.calls.modify i fun call => { call with slotReleased := true })[i]? = some { call with slotReleased := true } := by
      simp [found]
    have others (j : Nat) (other : j ≠ i) (call' : Call)
        (is : (s.calls.modify i fun call => { call with slotReleased := true })[j]? = some call') : s.calls[j]? = some call' := by
      simpa [Ne.symm other] using is
    refine ⟨⟨own, fun j other call' is => ⟨call', others j other call' is, .inl rfl⟩, by simp, rfl, rfl, rfl, rfl⟩, ?_⟩
    refine slotted.released found granted kept ?_ (by simp) own fun j other call' is => ⟨call', others j other call' is, ?_⟩
    · simp [State.semaphore, Semaphore.release, idle]
    · simp [Woken, idle]
  · rename_i waiter rest waits
    obtain ⟨first, found', queued⟩ := slotted.waiter (i := waiter) (waits ▸ List.mem_cons_self)
    have apart : waiter ≠ i := fun same => running (by
      rw [same, found, some.injEq] at found'
      exact found' ▸ queued)
    have at_ : (s.calls.modify i fun call => { call with slotReleased := true })[waiter]? = some first := by
      simp [Ne.symm apart, found']
    simp only [State.resolve, at_, queued, ↓reduceIte, State.modify]
    have own : ((s.calls.modify i fun call => { call with slotReleased := true }).modify waiter
        fun call => { call with phase := .acquired })[i]? = some { call with slotReleased := true } := by
      simp [apart, found]
    have others (j : Nat) (other : j ≠ i) (call' : Call) (is : ((s.calls.modify i fun call => { call with slotReleased := true }).modify waiter
        fun call => { call with phase := .acquired })[j]? = some call') : ∃ call, s.calls[j]? = some call ∧ Woken s j call call' := by
      simp only [Woken, waits, List.head?_cons, some.injEq]
      by_cases here : waiter = j
      · subst here
        simp only [List.getElem?_modify, ↓reduceIte, found', Ne.symm apart, map_eq_map, map_some, some.injEq] at is
        exact ⟨first, found', by simpa [queued] using is.symm⟩
      · simp only [List.getElem?_modify, here, ↓reduceIte, Ne.symm other, map_eq_map, map_id'] at is
        exact ⟨call', is, by simp [here]⟩
    refine ⟨⟨own, fun j other call' is => ?_, by simp, rfl, rfl, rfl, rfl⟩, slotted.released found granted kept ?_ (by simp) own others⟩
    · obtain ⟨old, is, woken⟩ := others j other call' is
      refine ⟨old, is, ?_⟩
      unfold Woken at woken
      split at woken
      · exact .inr woken
      · exact .inl woken
    · simp [State.semaphore, Semaphore.release, waits]

end

end Vimla.Inference
