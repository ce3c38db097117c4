import Vimla.Inference.Provider

/-!
# What a turn does

Every turn keeps the slots in order, and makes one of a few changes to the circuit
and to what a call has of it.
-/

namespace Vimla.Inference

open List Function Prod State Nat

variable {c : LocalInferenceProviderConfig} {s t u : State} {i j : Nat} {call call' : Call}

/-- The listener stands while the stream is open, and is gone with the slot. -/
def Call.WellFormed (call : Call) : Prop :=
  match call.phase with
  | .queued | .acquired | .unacquired _ | .fetching => call.slotReleased = false ∧ call.listening = false
  | .returned | .abandoned | .reading _ | .yielding _ _ _ =>
    call.listening = !call.slotReleased ∧ call.slotReleased = call.signal.isSome
  | .ended _ => call.listening = false

structure Kept (c : LocalInferenceProviderConfig) (s : State) : Prop where
  slotted : Slotted c s
  formed : ∀ (i : Nat) (call : Call), s.calls[i]? = some call → call.WellFormed

/-- A probe is in flight from its permission to its answer, or until its signal
aborts while its stream is open. -/
structure View where
  permit : CircuitPermit
  probing : Bool
  judged : Bool

def Call.judged (call : Call) : Bool :=
  match call.phase with
  | .yielding _ final _ => final
  | _ => false

def Call.probing (call : Call) : Bool :=
  call.permit.halfOpen &&
    match call.phase with
    | .queued | .acquired | .unacquired _ | .fetching => true
    | .returned | .abandoned | .reading _ => call.signal.isNone
    | .yielding _ final _ => call.signal.isNone && !final
    | .ended _ => false

def Call.view (call : Call) : View := ⟨call.permit, call.probing, call.judged⟩

def State.view (s : State) (i : Nat) : Option View := (s.calls[i]?).map Call.view

/-- Only what `i` shows is another. -/
structure Shows (s t : State) (i : Nat) (v : View) : Prop where
  own : t.view i = some v
  others : ∀ j ≠ i, t.view j = s.view j

attribute [local simp] Call.view Call.probing Call.judged

theorem view_of_found (found : s.calls[i]? = some call) : s.view i = some call.view := by simp only [view, found, Option.map_some]

variable {v : View} {signal : Option AbortReason} {events : List ProviderStreamEvent}

/-- A call that shows what it showed. -/
theorem Shows.same (shows : Shows s t i v) (was : s.view i = some v) (j : Nat) : t.view j = s.view j := by
  by_cases own : j = i
  · rw [own, shows.own, was]
  · exact shows.others j own

theorem view_of_calls (calls : t.calls = s.calls) : t.view i = s.view i := by simp [view, calls]

/-- A permit that is given back is held, or nobody's. -/
def Owned (s : State) (v : View) : Prop :=
  v.permit.halfOpen = true → v.permit.generation = s.circuit.circuitGeneration →
    v.probing = true ∨ v.judged = true ∨ s.circuit.halfOpenInFlight = false

/-- What a turn does to the circuit. -/
inductive Effect (c : LocalInferenceProviderConfig) (s t : State) : Prop
  | still (circuit : t.circuit = s.circuit) (views : ∀ j, t.view j = s.view j) (verdicts : t.verdicts = s.verdicts)
      (sent : t.sent = s.sent) (now : s.now ≤ t.now)
  | claims (i : Nat) (permit : CircuitPermit) (claimed : s.circuit.claimCircuitPermission s.now = (.ok permit, t.circuit))
      (shows : Shows s t i ⟨permit, permit.halfOpen, false⟩) (verdicts : t.verdicts = s.verdicts) (now : t.now = s.now)
  | sends (i : Nat) (v : View) (shown : s.view i = some v) (current : v.permit.generation = s.circuit.circuitGeneration)
      (held : v.probing = v.permit.halfOpen) (circuit : t.circuit = s.circuit) (views : ∀ j, t.view j = s.view j)
      (verdicts : t.verdicts = s.verdicts) (now : t.now = s.now)
  | drops (i : Nat) (v : View) (judged : Bool) (shown : s.view i = some v) (shows : Shows s t i ⟨v.permit, false, judged⟩)
      (still : judged = true → v.judged = true) (owned : Owned s v) (circuit : t.circuit = s.circuit.releaseHalfOpenPermit v.permit)
      (verdicts : t.verdicts = s.verdicts) (sent : t.sent = s.sent) (now : t.now = s.now)
  | fails (i : Nat) (v : View) (shown : s.view i = some v) (shows : Shows s t i ⟨v.permit, false, false⟩) (owned : Owned s v)
      (circuit : t.circuit = s.circuit.recordFailure c s.now v.permit) (verdicts : t.verdicts = s.verdicts ++ [⟨i, v.permit, true⟩])
      (sent : t.sent = s.sent) (now : t.now = s.now)
  | answers (i : Nat) (v : View) (judged : Bool) (shown : s.view i = some v) (shows : Shows s t i ⟨v.permit, false, judged⟩)
      (held : v.probing = v.permit.halfOpen) (circuit : t.circuit = s.circuit.recordSuccess v.permit)
      (verdicts : t.verdicts = s.verdicts ++ [⟨i, v.permit, false⟩]) (sent : t.sent = s.sent) (now : t.now = s.now)

/-- The turn ends the generator of a call whose signal has aborted, as far as the
phase tells. -/
def Event.finishes (e : Event) (phase : Phase) : Bool :=
  match e, phase with
  | .next _, .returned | .next _, .yielding [] _ _ | .read _ _, .reading _ | .stop _, .yielding _ _ _ => true
  | _, _ => false

/-- The turn brings a response. -/
def Event.responds : Event → Bool
  | .fetched _ (.responds _) => true
  | _ => false

/-- No generator of a probe that its signal has released ends while another probe
is in flight, and no response comes in with the timeout. -/
def CarefulAt (s : State) (e : Event) (call : Call) : Prop :=
  (e.finishes call.phase = true → call.signal.isSome = true → call.permit.halfOpen = true →
    call.permit.generation = s.circuit.circuitGeneration → s.circuit.halfOpenInFlight = false) ∧
  (e.responds = true → call.phase = .fetching → call.signal ≠ some .timeout)

def Careful (s : State) (e : Event) : Prop :=
  match e with
  | .next i | .read i _ | .stop i | .fetched i _ => ∀ call ∈ s.calls[i]?, CarefulAt s e call
  | _ => True

instance (s : State) (e : Event) (call : Call) : Decidable (CarefulAt s e call) :=
  inferInstanceAs (Decidable (_ ∧ _))

instance (s : State) (e : Event) : Decidable (Careful s e) := by
  unfold Careful
  split <;> infer_instance

/-- The same calls and slots, with another circuit. -/
theorem Kept.congr (kept : Kept c s) (semaphore : t.semaphore = s.semaphore) (calls : t.calls = s.calls) : Kept c t :=
  ⟨kept.slotted.calls semaphore calls, fun i call found => kept.formed i call (calls ▸ found)⟩

theorem Kept.modify {f : Call → Call} (kept : Kept c s) (found : s.calls[i]? = some call)
    (queued : (f call).phase = .queued ↔ call.phase = .queued) (granted : (f call).granted = call.granted)
    (flag : (f call).slotReleased = call.slotReleased) (formed : (f call).WellFormed) :
    Kept c (s.modify i f) ∧ Shows s (s.modify i f) i (f call).view := by
  refine ⟨⟨kept.slotted.modify found queued granted flag, each_call (getElem_modify found) formed fun j other call' is => ?_⟩,
    view_of_found (getElem_modify found), fun j other => by simp only [view, getElem_modify_ne other]⟩
  exact kept.formed j call' (getElem_modify_ne other ▸ is)

theorem Released.others_view (released : Released s t i call) (other : j ≠ i) : t.view j = s.view j := by
  unfold view
  cases is : t.calls[j]? with
  | none =>
    have beyond : s.calls.length ≤ j := released.length ▸ getElem?_eq_none_iff.1 is
    rw [getElem?_eq_none beyond]
  | some call' =>
    obtain ⟨old, found, rfl | ⟨queued, rfl⟩⟩ := released.others j other call' is
    · rw [found]
    · simp [found, queued]

theorem Released.others_formed (released : Released s t i call) (formed : ∀ j ≠ i, ∀ call', s.calls[j]? = some call' → call'.WellFormed)
    (other : j ≠ i) (is : t.calls[j]? = some call') : call'.WellFormed := by
  obtain ⟨old, found, rfl | ⟨queued, rfl⟩⟩ := released.others j other call' is
  · exact formed j other _ found
  · have old := formed j other old found
    simp only [Call.WellFormed, queued] at old
    exact old

/-- The same state but for the circuit and the verdicts, with its slot given back
and ended. -/
theorem Released.finish (error : Option LocalInferenceError) (released : Released s t i call) (slotted : Slotted c t) (kept : Kept c s)
    (calls : u.calls = t.calls) (semaphore : u.semaphore = t.semaphore) :
    Kept c (u.finish i error) ∧ Shows s (u.finish i error) i ⟨call.permit, false, false⟩ := by
  have found : u.calls[i]? = some { call with slotReleased := true } := calls ▸ released.own
  have others (j : Nat) (other : j ≠ i) : (u.finish i error).calls[j]? = t.calls[j]? := by
    rw [State.finish, getElem_modify_ne other, calls]
  have own : (u.finish i error).calls[i]? = some { call with slotReleased := true, listening := false, phase := .ended error } :=
    getElem_modify found
  have granted := (slotted.each i _ released.own).back rfl
  refine ⟨⟨?_, each_call own rfl fun j other call' is => ?_⟩, ?_, fun j other => ?_⟩
  · refine (slotted.calls semaphore calls).modify found ⟨nofun, fun queued => ?_⟩ ?_ rfl
    · have queued : call.phase = .queued := queued
      simp [Call.granted, queued] at granted
    · rw [granted]
      rfl
  · exact released.others_formed (fun j _ => kept.formed j) other (others j other ▸ is)
  · rw [view_of_found own]
    simp
  · rw [← released.others_view other, view, view, others j other]

variable {p : CircuitPermit} {k : Circuit}

theorem release_release : (k.releaseHalfOpenPermit p).releaseHalfOpenPermit p = k.releaseHalfOpenPermit p := by
  unfold Circuit.releaseHalfOpenPermit
  split <;> simp_all

theorem release_recordSuccess : (k.recordSuccess p).releaseHalfOpenPermit p = k.recordSuccess p := by
  unfold Circuit.recordSuccess
  split
  · exact if_neg fun h => absurd h.2.1 ‹_›
  split
  · refine if_neg fun h => ?_
    have := h.2.1
    simp only at this
    omega
  · split <;> exact if_neg fun h => absurd h.1 ‹_›

theorem release_recordFailure {now : Nat} :
    (k.recordFailure c now p).releaseHalfOpenPermit p = k.recordFailure c now p := by
  unfold Circuit.recordFailure
  split
  · exact if_neg fun h => absurd h.2.1 ‹_›
  split
  · refine if_neg fun h => ?_
    have := h.2.1
    simp only [Circuit.openCircuit] at this
    omega
  · simp only
    split <;> exact if_neg fun h => absurd h.1 ‹_›

/-- The stream of a call is open. -/
structure Opened (s : State) (i : Nat) (call : Call) : Prop where
  found : s.calls[i]? = some call
  granted : call.granted = true
  running : call.phase ≠ .queued
  listens : call.listening = !call.slotReleased
  released : call.slotReleased = call.signal.isSome

/-- The turn, with what it keeps. -/
structure Turned (c : LocalInferenceProviderConfig) (s t : State) : Prop where
  kept : Kept c t
  effect : Effect c s t

theorem Kept.still (kept : Kept c s) : Turned c s s := ⟨kept, .still rfl (fun _ => rfl) rfl rfl (le_refl _)⟩

theorem close_spec (error : Option LocalInferenceError) (kept : Kept c s) (opened : Opened s i call) :
    let t := close i call error s
    Kept c t ∧ Shows s t i ⟨call.permit, false, false⟩ ∧ t.circuit = s.circuit.releaseHalfOpenPermit call.permit ∧
      t.verdicts = s.verdicts ∧ t.sent = s.sent ∧ t.now = s.now := by
  obtain ⟨released, slotted⟩ := releaseSlotOnce_spec kept.slotted opened.found opened.granted
  obtain ⟨kept', shows⟩ := released.finish (u := (s.releaseSlotOnce i).releaseHalfOpenPermit call.permit) error slotted kept rfl rfl
  refine ⟨kept', shows, ?_, released.verdicts, released.sent, released.now⟩
  exact congrArg (Circuit.releaseHalfOpenPermit call.permit) released.circuit

variable {error : Option LocalInferenceError}

/-- A call that is closed without a verdict. -/
theorem close_turned (kept : Kept c s) (opened : Opened s i call) (owned : Owned s call.view) :
    Turned c s (close i call error s) := by
  obtain ⟨kept', shows, circuit, verdicts, sent, now⟩ := close_spec error kept opened
  exact ⟨kept', .drops i call.view false (view_of_found opened.found) shows nofun owned circuit verdicts sent now⟩

/-- The same for a state that has only another circuit and other verdicts. -/
theorem Opened.congr (opened : Opened s i call) (calls : t.calls = s.calls) : Opened t i call :=
  ⟨calls ▸ opened.found, opened.granted, opened.running, opened.listens, opened.released⟩

theorem Shows.congr (shows : Shows s t i v) (calls : s.calls = u.calls) : Shows u t i v :=
  ⟨shows.own, fun j other => (shows.others j other).trans (view_of_calls calls)⟩

theorem fail_turned {own : Option LocalInferenceError} (kept : Kept c s) (opened : Opened s i call) (owned : Owned s call.view)
    (sure : (classifyTransportError own call.signal).code ≠ .CANCELED → (classifyTransportError own call.signal).retryable = true) :
    Turned c s (fail c i call own s) := by
  unfold fail
  simp only
  split
  · rename_i canceled
    have same : (s.releaseHalfOpenPermit call.permit).judge i call.permit (some (classifyTransportError own call.signal)) =
        s.releaseHalfOpenPermit call.permit := by simp [judge, canceled]
    rw [same]
    obtain ⟨kept', shows, circuit, verdicts, sent, now⟩ := close_spec (some (classifyTransportError own call.signal))
      (kept.congr (t := s.releaseHalfOpenPermit call.permit) rfl rfl) (opened.congr rfl)
    exact ⟨kept', .drops i call.view false (view_of_found opened.found) (shows.congr rfl) nofun owned
      (circuit.trans release_release) verdicts sent now⟩
  · rename_i failed
    have same : (s.recordFailure c call.permit).judge i call.permit (some (classifyTransportError own call.signal)) =
        { s.recordFailure c call.permit with verdicts := s.verdicts ++ [⟨i, call.permit, true⟩] } := by
      simp [judge, failed, sure failed, recordFailure]
    rw [same]
    obtain ⟨kept', shows, circuit, verdicts, sent, now⟩ := close_spec (some (classifyTransportError own call.signal))
      (kept.congr (t := { s.recordFailure c call.permit with verdicts := s.verdicts ++ [⟨i, call.permit, true⟩] }) rfl rfl)
      (opened.congr rfl)
    exact ⟨kept', .fails i call.view (view_of_found opened.found) (shows.congr rfl) owned
      (circuit.trans release_recordFailure) verdicts sent now⟩

variable {reason : AbortReason}

theorem sure_signal {signal : Option AbortReason} :
    (classifyTransportError (some (classifyAbortSignal reason)) signal).code ≠ .CANCELED →
      (classifyTransportError (some (classifyAbortSignal reason)) signal).retryable = true := by
  cases reason <;> simp [classifyTransportError, classifyAbortSignal]

theorem sure_transport : (classifyTransportError none signal).code ≠ .CANCELED →
    (classifyTransportError none signal).retryable = true := by
  cases signal with
  | none => simp [classifyTransportError]
  | some reason => exact @sure_signal reason none

/-- A change of the phase alone that shows the same. -/
theorem phase_turned {phase : Phase} (kept : Kept c s) (opened : Opened s i call) (view : ({ call with phase := phase } : Call).view = call.view)
    (running : phase ≠ .queued) (granted : ({ call with phase := phase } : Call).granted = true)
    (formed : ({ call with phase := phase } : Call).WellFormed) : Turned c s (s.modify i fun call => { call with phase := phase }) := by
  obtain ⟨kept', shows⟩ := kept.modify (f := fun call => { call with phase := phase }) opened.found
    ⟨fun queued => absurd queued running, fun queued => absurd queued opened.running⟩ (granted.trans opened.granted.symm) rfl formed
  exact ⟨kept', .still rfl (shows.same ((view_of_found opened.found).trans (congrArg some view.symm))) rfl rfl (le_refl _)⟩

/-- The call shows what an open stream without an answer shows. -/
def Unjudged (call : Call) : Prop := call.view = ⟨call.permit, call.permit.halfOpen && call.signal.isNone, false⟩

theorem pull_turned {progress : Progress} (kept : Kept c s) (opened : Opened s i call) (unjudged : Unjudged call)
    (owned : call.signal.isSome = true → Owned s call.view) : Turned c s (pull c i call progress s) := by
  unfold pull
  split
  · rename_i reason aborted
    exact fail_turned kept opened (owned (by simp [aborted])) sure_signal
  · exact phase_turned kept opened (unjudged ▸ rfl) nofun rfl ⟨opened.listens, opened.released⟩

theorem yields_turned {final : Bool} {progress : Progress} (kept : Kept c s) (opened : Opened s i call)
    (unjudged : final = false → Unjudged call) (judged : final = true → call.view = ⟨call.permit, false, true⟩)
    (owned : events = [] → call.signal.isSome = true → Owned s call.view) :
    Turned c s (yields c i call events final progress s) := by
  unfold yields
  split
  · refine phase_turned kept opened ?_ nofun rfl ⟨opened.listens, opened.released⟩
    cases final with
    | true => exact (judged rfl) ▸ by simp
    | false => exact (unjudged rfl) ▸ by simp
  split
  · rename_i last
    exact close_turned kept opened fun _ _ => .inr (.inl (by rw [judged last]))
  · rename_i more
    exact pull_turned kept opened (unjudged (by simpa using more)) (owned rfl)

/-- A stream that ends, from its answer on. -/
theorem answer_turned {progress : Progress} (kept : Kept c s) (opened : Opened s i call)
    (held : call.view.probing = call.permit.halfOpen) :
    Turned c s (yields c i call events true progress ((s.recordSuccess call.permit).judge i call.permit none)) := by
  have kept' := kept.congr (t := (s.recordSuccess call.permit).judge i call.permit none) rfl rfl
  have opened' := opened.congr (t := (s.recordSuccess call.permit).judge i call.permit none) rfl
  unfold yields
  split
  · obtain ⟨kept'', shows⟩ := kept'.modify (f := fun call => { call with phase := .yielding _ true progress }) opened'.found
      ⟨nofun, fun queued => absurd queued opened.running⟩ (show true = _ from opened.granted.symm) rfl ⟨opened.listens, opened.released⟩
    have shown : Shows s _ i ⟨call.permit, false, true⟩ :=
      ⟨shows.own.trans (by simp), shows.others⟩
    exact ⟨kept'', .answers i call.view true (view_of_found opened.found) shown held rfl rfl rfl rfl⟩
  · obtain ⟨kept'', shows, circuit, verdicts, sent, now⟩ := close_spec none kept' opened'
    exact ⟨kept'', .answers i call.view false (view_of_found opened.found) (shows.congr rfl) held
      (circuit.trans release_recordSuccess) verdicts sent now⟩

theorem receive_turned {progress : Progress} {chunk : Chunk} (kept : Kept c s) (opened : Opened s i call) (unjudged : Unjudged call)
    (owned : Owned s call.view) : Turned c s (receive c i call progress chunk s) := by
  unfold receive
  split
  · exact fail_turned kept opened owned sure_signal
  · exact fail_turned kept opened owned sure_transport
  · exact fail_turned kept opened owned fun _ => rfl
  · rename_i live
    simp only
    split
    · exact fail_turned kept opened owned fun _ => rfl
    · exact answer_turned kept opened (by rw [unjudged, live]; simp)
  · rename_i byteLength parsed live
    simp only
    iterate 2
      split
      · exact fail_turned kept opened owned fun _ => rfl
    · rename_i parsed
      cases (eventsThroughDone parsed).2 with
      | true => exact answer_turned kept opened (by rw [unjudged, live]; simp)
      | false => exact yields_turned kept opened (fun _ => unjudged) nofun fun _ _ => owned

variable {e : Event} {progress : Progress}

theorem opened_of_phase (kept : Kept c s) (found : s.calls[i]? = some call)
    (phase : match call.phase with
      | .returned | .abandoned | .reading _ | .yielding _ _ _ => True
      | _ => False) : Opened s i call := by
  have formed := kept.formed i call found
  unfold Call.WellFormed at formed
  cases is : call.phase with
  | returned | abandoned | reading _ | yielding _ _ _ =>
    simp only [is] at formed
    exact ⟨found, by simp [Call.granted, is], by simp [is], formed.1, formed.2⟩
  | _ => simp [is] at phase

/-- A stream that is not held by its signal is owned, with care or without. -/
theorem owned_of_careful (careful : CarefulAt s e call) (view : call.view = ⟨call.permit, call.permit.halfOpen && call.signal.isNone, call.judged⟩)
    (finishes : call.signal.isSome = true → e.finishes call.phase = true) : Owned s call.view := by
  intro halfOpen current
  rw [view] at halfOpen current ⊢
  cases is : call.signal with
  | none =>
    simp only at halfOpen
    simp [halfOpen]
  | some reason => exact .inr (.inr (careful.1 (finishes (by simp [is])) (by simp [is]) halfOpen current))

theorem next_turned (kept : Kept c s) (found : s.calls[i]? = some call) (careful : CarefulAt s (.next i) call) :
    Turned c s (next c i call s) := by
  unfold next
  split
  · rename_i phase
    have opened := opened_of_phase kept found (by simp [phase])
    have unjudged : Unjudged call := by simp [Unjudged, phase]
    exact pull_turned kept opened unjudged fun _ => owned_of_careful careful (by simp [phase]) fun _ => by rw [phase]; rfl
  · rename_i rest final progress phase
    have opened := opened_of_phase kept found (by simp [phase])
    refine yields_turned kept opened (fun more => ?_) (fun last => ?_) fun none aborted => ?_
    · simp [Unjudged, phase, more]
    · simp [phase, last]
    · cases final with
      | true => exact fun _ _ => .inr (.inl (by simp [phase]))
      | false =>
        refine owned_of_careful careful (by simp [phase]) fun _ => ?_
        rw [phase, none]
        rfl
  · exact kept.still

theorem stop_turned (kept : Kept c s) (found : s.calls[i]? = some call) (careful : CarefulAt s (.stop i) call) :
    Turned c s (stop i call s) := by
  unfold stop
  split
  · rename_i phase
    have opened := opened_of_phase kept found (by simp [phase])
    exact phase_turned kept opened (by simp [phase]) nofun rfl ⟨opened.listens, opened.released⟩
  · rename_i rest final progress phase
    refine close_turned kept (opened_of_phase kept found (by simp [phase])) ?_
    cases final with
    | true => exact fun _ _ => .inr (.inl (by simp [phase]))
    | false => exact owned_of_careful careful (by simp [phase]) fun _ => by rw [phase]; rfl
  · exact kept.still

theorem abort_turned (kept : Kept c s) (found : s.calls[i]? = some call) : Turned c s (abort i call reason s) := by
  have formed := kept.formed i call found
  unfold abort
  split
  · exact kept.still
  split
  · rename_i queued
    simp only [Call.WellFormed, queued] at formed
    simp only [modify_modify, comp_def]
    let t : State := { s.modify i (fun call => { call with signal := some reason, phase := .unacquired (classifyAbortSignal reason) }) with
      waiters := s.waiters.erase i }
    have own : t.calls[i]? = some { call with signal := some reason, phase := .unacquired (classifyAbortSignal reason) } := getElem_modify found
    have others (j : Nat) (other : j ≠ i) : t.calls[j]? = s.calls[j]? := getElem_modify_ne other
    have slotted := kept.slotted.leave found queued (t := t) rfl (by simp [t, State.modify]) own others nofun rfl rfl
    have shows : Shows s t i call.view :=
      ⟨(view_of_found own).trans (by simp [queued]), fun j other => by simp only [view, others j other]⟩
    exact ⟨⟨slotted, each_call own formed fun j other call' is => kept.formed j call' (others j other ▸ is)⟩,
      .still rfl (shows.same (view_of_found found)) rfl rfl (le_refl _)⟩
  split
  · rename_i listening
    have phase : match call.phase with
        | .returned | .abandoned | .reading _ | .yielding _ _ _ => True
        | _ => False := by
      unfold Call.WellFormed at formed
      cases is : call.phase <;> simp_all
    have opened := opened_of_phase kept found phase
    simp only [modify_modify, comp_def]
    let u : State := s.modify i fun call => { call with signal := some reason, listening := false }
    have others (j : Nat) (other : j ≠ i) : u.calls[j]? = s.calls[j]? := getElem_modify_ne other
    obtain ⟨released, slotted⟩ := releaseSlotOnce_spec (kept.slotted.modify (f := fun call => { call with signal := some reason, listening := false })
      found Iff.rfl rfl rfl) (getElem_modify found) opened.granted
    have view : call.view = ⟨call.permit, call.permit.halfOpen && !call.judged, call.judged⟩ := by
      cases is : call.phase <;> simp_all
    refine ⟨⟨slotted.calls rfl rfl, each_call released.own ?_ fun j other call' is => ?_⟩, .drops i call.view call.judged (view_of_found found)
      ⟨?_, fun j other => ?_⟩ id (fun halfOpen _ => ?_) ?_ released.verdicts released.sent released.now⟩
    · unfold Call.WellFormed
      cases kind : call.phase <;> simp_all
    · exact released.others_formed (fun j other call' is => kept.formed j call' (others j other ▸ is)) other is
    · refine (view_of_found released.own).trans ?_
      cases is : call.phase <;> simp_all
    · refine (released.others_view other).trans ?_
      simp [State.view, u, others j other]
    · have halfOpen : call.permit.halfOpen = true := halfOpen
      rw [view, halfOpen]
      cases call.judged <;> simp
    · exact congrArg (Circuit.releaseHalfOpenPermit call.permit) released.circuit
  · rename_i deaf
    have closed : (match call.phase with
        | .returned | .abandoned | .reading _ | .yielding _ _ _ => False
        | _ => True) := by
      unfold Call.WellFormed at formed
      cases is : call.phase <;> simp_all
    obtain ⟨kept', shows⟩ := kept.modify (f := fun call => { call with signal := some reason }) found Iff.rfl rfl rfl (by
      unfold Call.WellFormed at formed ⊢
      cases is : call.phase <;> simp_all)
    refine ⟨kept', .still rfl (shows.same ((view_of_found found).trans (congrArg some ?_))) rfl rfl (le_refl _)⟩
    cases is : call.phase <;> simp_all

/-- A call before its stream holds what it was permitted. -/
theorem owned_of_held (held : call.view.probing = call.permit.halfOpen) : Owned s call.view :=
  fun halfOpen _ => .inl (held.trans halfOpen)

/-- A call that ends with its slot, and without a verdict. -/
theorem dropped (kept : Kept c s) (released : Released s t i call) (slotted : Slotted c t)
    (found : s.calls[i]? = some call) (owned : Owned s call.view) :
    Turned c s ((t.releaseHalfOpenPermit call.permit).finish i error) := by
  obtain ⟨kept', shows⟩ := released.finish (u := t.releaseHalfOpenPermit call.permit) error slotted kept rfl rfl
  exact ⟨kept', .drops i call.view false (view_of_found found) shows nofun owned
    (congrArg (Circuit.releaseHalfOpenPermit call.permit) released.circuit) released.verdicts released.sent released.now⟩

section
variable {error : LocalInferenceError} (kept : Kept c s) (released : Released s t i call) (slotted : Slotted c t)
  (found : s.calls[i]? = some call)
include kept released slotted found

/-- A call that ends with its slot, and has failed. -/
theorem failed (owned : Owned s call.view) (code : error.code ≠ .CANCELED) (retryable : error.retryable = true) :
    Turned c s (((t.recordFailure c call.permit).judge i call.permit (some error)).finish i (some error)) := by
  simp only [judge, code, ↓reduceIte, retryable]
  obtain ⟨kept', shows⟩ := released.finish (some error)
    (u := { t.recordFailure c call.permit with verdicts := t.verdicts ++ [⟨i, call.permit, true⟩] }) slotted kept rfl rfl
  refine ⟨kept', .fails i call.view (view_of_found found) shows owned ?_ ?_ released.sent released.now⟩
  · rw [← released.circuit, ← released.now]
    rfl
  · rw [← released.verdicts]
    rfl

/-- A call that ends with its slot, and was refused by the server. -/
theorem refused (held : call.view.probing = call.permit.halfOpen) (code : error.code ≠ .CANCELED)
    (final : error.retryable = false) :
    Turned c s (((t.recordSuccess call.permit).judge i call.permit (some error)).finish i (some error)) := by
  simp only [judge, code, ↓reduceIte, final]
  obtain ⟨kept', shows⟩ := released.finish (some error)
    (u := { t.recordSuccess call.permit with verdicts := t.verdicts ++ [⟨i, call.permit, false⟩] }) slotted kept rfl rfl
  refine ⟨kept', .answers i call.view false (view_of_found found) shows held ?_ ?_ released.sent released.now⟩
  · rw [← released.circuit]
    rfl
  · rw [← released.verdicts]
    rfl

end

theorem classifyHttpError_code (status : Nat) : (classifyHttpError status).code ≠ .CANCELED := by
  unfold classifyHttpError
  split
  · simp only
    split <;> nofun
  · nofun

theorem fetched_turned {answer : Fetched} (kept : Kept c s) (found : s.calls[i]? = some call) (phase : call.phase = .fetching)
    (careful : CarefulAt s (.fetched i answer) call) : Turned c s (fetched c i call answer s) := by
  have held : call.view.probing = call.permit.halfOpen := by simp [phase]
  have owned : Owned s call.view := owned_of_held held
  obtain ⟨released, slotted⟩ := releaseSlotOnce_spec kept.slotted found (by simp [Call.granted, phase])
  have formed := kept.formed i call found
  simp only [Call.WellFormed, phase] at formed
  unfold fetched
  cases answer with
  | rejects =>
    simp only
    split
    · rename_i canceled
      simp only [judge, canceled, ↓reduceIte]
      exact dropped kept released slotted found owned
    · rename_i code
      exact failed kept released slotted found owned code (sure_transport code)
  | responds response =>
    simp only
    split
    · rename_i reason aborted
      cases reason with
      | timeout => exact absurd aborted (careful.2 rfl phase)
      | other => exact dropped kept released slotted found owned
    rename_i live
    split
    · split
      · rename_i retryable
        exact failed kept released slotted found owned (classifyHttpError_code _) retryable
      · rename_i final
        exact refused kept released slotted found held (classifyHttpError_code _) (by simpa using final)
    split
    · exact failed kept released slotted found owned (by intro same; cases same) rfl
    · obtain ⟨kept', shows⟩ := kept.modify (f := fun call => { call with listening := true, phase := .returned }) found
        ⟨by simp, fun queued => by simp [phase] at queued⟩ (by simp [Call.granted, phase]) rfl (by simp [Call.WellFormed, formed.1, live])
      refine ⟨kept', .still rfl (shows.same ((view_of_found found).trans (congrArg some ?_))) rfl rfl (le_refl _)⟩
      simp [phase, live]

theorem claim_error {now : Nat} {k' : Circuit} {error : LocalInferenceError}
    (refused : k.claimCircuitPermission now = (.error error, k')) : k' = k := by
  unfold Circuit.claimCircuitPermission at refused
  split at refused
  · exact (congrArg snd refused).symm
  split at refused
  · split at refused
    · exact (congrArg snd refused).symm
    · cases congrArg fst refused
  · cases congrArg fst refused

/-- A permit of an older generation holds nothing. -/
theorem release_stale (stale : p.generation ≠ k.circuitGeneration) : k.releaseHalfOpenPermit p = k := if_neg fun h => stale h.2.1

theorem resume_turned (kept : Kept c s) (found : s.calls[i]? = some call) : Turned c s (resume i call s) := by
  have formed := kept.formed i call found
  unfold resume
  split
  · rename_i error phase
    simp only [Call.WellFormed, phase] at formed
    have kept' := kept.congr (t := s.releaseHalfOpenPermit call.permit) rfl rfl
    obtain ⟨kept'', shows⟩ := kept'.modify (f := fun call => { call with listening := false, phase := .ended (some error) }) found
      ⟨by simp, fun queued => by simp [phase] at queued⟩ (by simp [Call.granted, phase, formed.1]) rfl rfl
    have shown : Shows s _ i ⟨call.permit, false, false⟩ :=
      ⟨shows.own.trans (by simp), shows.others⟩
    exact ⟨kept'', .drops i call.view false (view_of_found found) shown (by simp) (owned_of_held (by simp [phase])) rfl rfl rfl rfl⟩
  · rename_i phase
    simp only [Call.WellFormed, phase] at formed
    have held : call.view.probing = call.permit.halfOpen := by simp [phase]
    have moved (permit : CircuitPermit) := kept.modify (f := fun call => { call with permit := permit, phase := .fetching }) found
      ⟨by simp, fun queued => by simp [phase] at queued⟩ (by simp [Call.granted, phase]) rfl formed
    have view (permit : CircuitPermit) : ({ call with permit := permit, phase := .fetching } : Call).view = ⟨permit, permit.halfOpen, false⟩ := by
      simp
    unfold Circuit.refreshCircuitPermit
    split
    · rename_i error k refreshed
      split at refreshed
      · cases congrArg fst refreshed
      rename_i stale
      rw [release_stale stale] at refreshed
      cases claim_error refreshed
      obtain ⟨released, slotted⟩ := releaseSlotOnce_spec kept.slotted found (by simp [Call.granted, phase])
      exact dropped kept released slotted found (owned_of_held held)
    · rename_i permit k refreshed
      split at refreshed
      · rename_i current
        cases refreshed
        obtain ⟨kept', shows⟩ := moved call.permit
        refine ⟨kept'.congr rfl rfl, .sends i call.view (view_of_found found) current held rfl (shows.same ?_) rfl rfl⟩
        rw [view_of_found found, view]
        simp [phase]
      · rename_i stale
        rw [release_stale stale] at refreshed
        obtain ⟨kept', shows⟩ := moved permit
        exact ⟨kept'.congr rfl rfl, .claims i permit refreshed ⟨shows.own.trans (by rw [view]), shows.others⟩ rfl rfl⟩
  · exact kept.still

theorem Kept.append {slots : Semaphore Nat} (call : Call) (kept : Kept c s) (calls : t.calls = s.calls ++ [call]) (is : slots = t.semaphore)
    (sound : slots.Sound c.maxConcurrentRequests c.maxQueueDepth)
    (others : ∀ j ≠ s.calls.length, (j ∈ slots.waiting ↔ j ∈ s.semaphore.waiting) ∧ (j ∈ slots.served ↔ j ∈ s.semaphore.served) ∧
      (j ∈ slots.released ↔ j ∈ s.semaphore.released) ∧ (j ∈ slots.arrived → j ∈ s.semaphore.arrived))
    (slot : Slot t s.calls.length call) (formed : call.WellFormed) : Kept c t ∧ Shows s t s.calls.length call.view := by
  subst is
  have own : t.calls[s.calls.length]? = some call := by simp [calls]
  have old (j : Nat) (other : j ≠ s.calls.length) : t.calls[j]? = s.calls[j]? := by
    rw [calls]
    rcases lt_or_gt_of_ne other with before | after
    · exact getElem?_append_left before
    · rw [getElem?_eq_none (by simp; omega), getElem?_eq_none (le_of_lt after)]
  refine ⟨⟨⟨sound, fun j mem => ?_, each_call own slot fun j other call' is => ?_⟩, each_call own formed fun j other call' is => ?_⟩,
    view_of_found own, fun j other => ?_⟩
  · by_cases here : j = s.calls.length
    · simp [here, calls]
    · have := kept.slotted.known j ((others j here).2.2.2 mem)
      simp only [calls, length_append, length_singleton]
      omega
  · have before := kept.slotted.each j call' (old j other ▸ is)
    obtain ⟨waits, served, released, -⟩ := others j other
    exact ⟨waits.trans before.waits, served.trans before.served, released.trans before.released, before.back⟩
  · exact kept.formed j call' (old j other ▸ is)
  · simp [view, old j other]

/-- The number of a new call is nowhere yet. -/
theorem Kept.fresh (kept : Kept c s) : s.calls.length ∉ s.arrived ∧ s.calls.length ∉ s.waiters ∧ s.calls.length ∉ s.served ∧
    s.calls.length ∉ s.released := by
  have arrived : s.calls.length ∉ s.arrived := fun mem => lt_irrefl _ (kept.slotted.known _ mem)
  have order := kept.slotted.sound.order.subset
  have served : s.calls.length ∉ s.served := fun mem => arrived (order (mem_append_left _ mem))
  exact ⟨arrived, fun mem => arrived (order (mem_append_right _ mem)), served, fun mem => served (kept.slotted.sound.taken mem)⟩

/-- `acquireSlot` gives the call a slot or a place as the semaphore does. -/
theorem acquireSlot_spec (permit : CircuitPermit) (signal : Option AbortReason) (kept : Kept c s) :
    let t := acquireSlot c ⟨signal, permit, false, false, .queued⟩ s
    Kept c t ∧ Shows s t s.calls.length ⟨permit, permit.halfOpen, false⟩ ∧ t.circuit = s.circuit ∧ t.verdicts = s.verdicts ∧ t.now = s.now := by
  obtain ⟨arrived, waiting, served, released⟩ := kept.fresh
  have away (error : LocalInferenceError) := Kept.append (⟨signal, permit, false, false, .unacquired error⟩)
    (t := { s with calls := s.calls ++ [⟨signal, permit, false, false, .unacquired error⟩] }) kept rfl rfl kept.slotted.sound
    (fun _ _ => ⟨Iff.rfl, Iff.rfl, Iff.rfl, id⟩)
    ⟨⟨fun mem => absurd mem waiting, nofun⟩, ⟨fun mem => absurd mem served, nofun⟩, ⟨fun mem => absurd mem released, nofun⟩, nofun⟩ ⟨rfl, rfl⟩
  have shown {t : State} {phase : Phase} (view : (⟨signal, permit, false, false, phase⟩ : Call).view = ⟨permit, permit.halfOpen, false⟩)
      (shows : Shows s t s.calls.length (⟨signal, permit, false, false, phase⟩ : Call).view) :
      Shows s t s.calls.length ⟨permit, permit.halfOpen, false⟩ := view ▸ shows
  have sound := kept.slotted.sound.arrive arrived
  have others (j : Nat) (other : j ≠ s.calls.length) := @Semaphore.mem_arrive _ c.maxConcurrentRequests c.maxQueueDepth s.semaphore _ _ other
  unfold acquireSlot
  simp only
  split
  · exact ⟨(away _).1, shown (by simp) (away _).2, rfl, rfl, rfl⟩
  split
  · rename_i free
    have arrives : s.semaphore.arrive c.maxConcurrentRequests c.maxQueueDepth s.calls.length = ⟨s.activeRequests + 1, s.waiters,
      s.arrived ++ [s.calls.length], s.served ++ [s.calls.length], s.released⟩ := if_pos free
    obtain ⟨kept', shows⟩ := Kept.append (⟨none, permit, false, false, .acquired⟩) (t := { s with
      calls := s.calls ++ [⟨none, permit, false, false, .acquired⟩]
      activeRequests := s.activeRequests + 1
      arrived := s.arrived ++ [s.calls.length]
      served := s.served ++ [s.calls.length] }) kept rfl arrives sound others
      ⟨⟨fun mem => absurd mem waiting, nofun⟩, ⟨fun _ => rfl, fun _ => mem_append_right _ mem_cons_self⟩,
        ⟨fun mem => absurd mem released, nofun⟩, nofun⟩ ⟨rfl, rfl⟩
    exact ⟨kept', by simpa using shows, rfl, rfl, rfl⟩
  split
  · exact ⟨(away _).1, shown (by simp) (away _).2, rfl, rfl, rfl⟩
  · rename_i busy room
    have arrives : s.semaphore.arrive c.maxConcurrentRequests c.maxQueueDepth s.calls.length = ⟨s.activeRequests,
      s.waiters ++ [s.calls.length], s.arrived ++ [s.calls.length], s.served, s.released⟩ :=
      (if_neg busy).trans (if_pos (Nat.lt_of_not_le room))
    obtain ⟨kept', shows⟩ := Kept.append (⟨none, permit, false, false, .queued⟩) (t := { s with
      calls := s.calls ++ [⟨none, permit, false, false, .queued⟩]
      waiters := s.waiters ++ [s.calls.length]
      arrived := s.arrived ++ [s.calls.length] }) kept rfl arrives sound others
      ⟨⟨fun _ => rfl, fun _ => mem_append_right _ mem_cons_self⟩, ⟨fun mem => absurd mem served, nofun⟩,
        ⟨fun mem => absurd mem released, nofun⟩, nofun⟩ ⟨rfl, rfl⟩
    exact ⟨kept', by simpa using shows, rfl, rfl, rfl⟩

theorem streamChat_turned {request : Request} (kept : Kept c s) : Turned c s (streamChat c request s) := by
  unfold streamChat
  iterate 3
    split
    · exact kept.still
  split
  · rename_i error k refused
    cases claim_error refused
    exact kept.still
  · rename_i permit k claimed
    obtain ⟨kept', shows, circuit, verdicts, now⟩ := acquireSlot_spec permit request.abortSignal
      (kept.congr (t := { s with circuit := k }) rfl rfl)
    exact ⟨kept', .claims s.calls.length permit (claimed.trans (by rw [circuit])) (shows.congr rfl) verdicts now⟩

/-- Every turn that is taken with care. -/
theorem step_turned (kept : Kept c s) (careful : Careful s e) : Turned c s (step c s e) := by
  have known {i : Nat} {act : Call → State → State} (each : ∀ call, s.calls[i]? = some call → Turned c s (act call s)) :
      Turned c s (turn s i act) := by
    unfold turn
    split
    · exact kept.still
    · exact each _ ‹_›
  cases e with
  | call request => exact streamChat_turned kept
  | resume i => exact known fun call found => resume_turned kept found
  | fetched i answer =>
    refine known fun call found => ?_
    split
    · exact fetched_turned kept found ‹_› (careful call found)
    · exact kept.still
  | next i => exact known fun call found => next_turned kept found (careful call found)
  | read i chunk =>
    simp only [step]
    refine known fun call found => ?_
    split
    · rename_i progress phase
      have unjudged : Unjudged call := by simp [Unjudged, phase]
      refine receive_turned kept (opened_of_phase kept found (by simp [phase])) unjudged
        (owned_of_careful (careful call found) (by simp [phase]) fun _ => ?_)
      rw [phase]
      rfl
    · exact kept.still
  | stop i => exact known fun call found => stop_turned kept found (careful call found)
  | abort i reason => exact known fun call found => abort_turned kept found
  | tick elapsed => exact ⟨kept.congr rfl rfl, .still rfl (fun _ => rfl) rfl rfl (le_add_right _ _)⟩

end Vimla.Inference
