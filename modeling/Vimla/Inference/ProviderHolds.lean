import Vimla.Inference.Breaker

/-!
# The provider holds

Every run of any number of calls, with every order of their turns.
-/

namespace Vimla.Inference

open List Bool

variable {c : LocalInferenceProviderConfig} {s t : State} {i j : Nat} {call : Call}

/-- The call has a slot that it did not give back. -/
def Call.holds (call : Call) : Bool := call.granted && !call.slotReleased

theorem countP_eq_filter_range {α : Type} (p : α → Bool) (l : List α) :
    l.countP p = ((List.range l.length).filter fun i => (l[i]?).any p).length := by
  induction l using reverseRecOn with
  | nil => rfl
  | append_singleton l a ih =>
    have before : (range l.length).filter (fun i => ((l ++ [a])[i]?).any p) =
        (range l.length).filter fun i => (l[i]?).any p :=
      filter_congr fun i mem => by rw [getElem?_append_left (mem_range.1 mem)]
    rw [countP_append, length_append, length_singleton, range_succ, filter_append, before, length_append, ← ih]
    cases h : p a <;> simp [h]

/-- The counter counts the calls that hold a slot. -/
theorem Slotted.active_eq (slotted : Slotted c s) : s.activeRequests = s.calls.countP Call.holds := by
  rw [countP_eq_filter_range, show s.activeRequests = _ from slotted.sound.active_eq]
  refine List.Perm.length_eq ((perm_ext_iff_of_nodup (slotted.sound.served_nodup.filter _) (nodup_range.filter _)).2 fun i => ?_)
  simp only [mem_filter, mem_range, decide_eq_true_eq]
  constructor
  · rintro ⟨served, kept⟩
    have known := slotted.known i (slotted.sound.order.subset (mem_append_left _ served))
    have found := getElem?_eq_getElem known
    have slot := slotted.each i _ found
    refine ⟨known, ?_⟩
    rw [found, Option.any_some, Call.holds, slot.served.1 served, Bool.true_and, Bool.not_eq_true']
    exact eq_false_iff.2 fun flag => kept (slot.released.2 flag)
  · rintro ⟨known, holds⟩
    have found := getElem?_eq_getElem known
    have slot := slotted.each i _ found
    rw [found, Option.any_some, Call.holds, and_eq_true, not_eq_true'] at holds
    refine ⟨slot.served.2 holds.1, fun mem => ?_⟩
    have flag := slot.released.1 mem
    rw [holds.2] at flag
    cases flag

/-- What holds of a state. -/
structure ProviderHolds (c : LocalInferenceProviderConfig) (s : State) : Prop where
  active : s.activeRequests = s.calls.countP Call.holds
  bounded : s.activeRequests ≤ c.maxConcurrentRequests
  queue : s.waiters.length ≤ c.maxQueueDepth
  busy : s.activeRequests < c.maxConcurrentRequests → s.waiters = []
  /-- Slots are given in the order in which calls came. -/
  order : List.Sublist (s.served ++ s.waiters) s.arrived
  once : s.released.Nodup ∧ s.released ⊆ s.served
  /-- A slot is given back by the end of the call, and by the signal while the stream is open. -/
  back : ∀ (i : Nat) (call : Call), s.calls[i]? = some call → call.holds = true → call.phase = .acquired ∨ call.phase = .fetching ∨
    call.signal = none ∧ ∀ error, call.phase ≠ .ended error
  /-- A closed circuit has seen fewer failures in a row. -/
  closed : s.circuit.openUntilMs = 0 → streak s.circuit.circuitGeneration s.verdicts < c.circuitBreakerFailureThreshold
  probe : ∀ (i j : Nat) (first second : Call), s.calls[i]? = some first → s.calls[j]? = some second → first.probing = true →
    second.probing = true → i = j

structure Invariant (c : LocalInferenceProviderConfig) (s : State) : Prop where
  kept : Kept c s
  tripped : Tripped c s

theorem invariant_step (s : State) (e : Event) (careful : Careful s e) (holds : Invariant c s) :
    Invariant c (step c s e) ∧ After c s (step c s e) := by
  obtain ⟨kept, effect⟩ := step_turned holds.kept careful
  obtain ⟨tripped, after⟩ := effect_tripped holds.tripped effect
  exact ⟨⟨kept, tripped⟩, after⟩

theorem Invariant.holds (holds : Invariant c s) : ProviderHolds c s where
  active := holds.kept.slotted.active_eq
  bounded := holds.kept.slotted.sound.bounded
  queue := holds.kept.slotted.sound.queue
  busy free := by
    by_contra waits
    exact absurd (holds.kept.slotted.sound.busy waits) (Nat.ne_of_lt free)
  order := holds.kept.slotted.sound.order
  once := ⟨holds.kept.slotted.sound.once, holds.kept.slotted.sound.taken⟩
  back i call found has := by
    have formed := holds.kept.formed i call found
    simp only [Call.holds, and_eq_true, not_eq_true'] at has
    obtain ⟨granted, kept⟩ := has
    unfold Call.WellFormed at formed
    unfold Call.granted at granted
    cases phase : call.phase <;> simp_all
  closed zero := by
    obtain ⟨counted, below⟩ := holds.tripped.closed zero
    exact counted ▸ below
  probe i j first second found found' p q :=
    holds.tripped.one i j _ _ (view_of_found found) (view_of_found found') p q

/-- In a run whose turns are taken with care, in every state reached and in the
turn that follows. -/
theorem provider_holds (c : LocalInferenceProviderConfig) (now : Nat) (events : List Event) (e : Event)
    (careful : Runs.Along (step c) Careful (init now) (events ++ [e])) :
    ProviderHolds c (events.foldl (step c) (init now)) ∧
    After c (events.foldl (step c) (init now)) (step c (events.foldl (step c) (init now)) e) := by
  obtain ⟨first, last⟩ := Runs.along_append.1 careful
  have holds := Runs.invariant_along (P := Invariant c) (fun s e careful holds => (invariant_step s e careful holds).1) first
    ⟨⟨slotted_init now, nofun⟩, tripped_init now⟩
  exact ⟨holds.holds, (invariant_step _ e last.1 holds).2⟩

namespace Strict

/-- The circuit opens at the first failure, for a second. -/
def config : LocalInferenceProviderConfig where
  maxRequestBytes := 1024
  maxConcurrentRequests := 2
  maxQueueDepth := 1
  circuitBreakerFailureThreshold := 1
  circuitBreakerResetMs := 1000
  toolUse := false
  maxConcurrentRequests_pos := by decide
  threshold_pos := by decide
  resetMs_pos := by decide

def hello : Event := .call ⟨0, some 100, none⟩

def run (events : List Event) : State := events.foldl (step config) (init 5000)

/-- A failure, and after the reset a probe whose stream is open. -/
def probed : List Event := [hello, .resume 0, .fetched 0 .rejects, .tick 1000, hello, .resume 1, .fetched 1 (.responds ⟨200, true⟩), .next 1]

/-- The stream ends. -/
def answered : List Event := probed ++ [.read 1 (.value 20 (.ok [.delta "Hi", .done])), .next 1, .next 1]

/-- The signal of the probe aborts, and another call is the probe. -/
def released (reason : AbortReason) : List Event := probed ++ [.abort 1 reason, hello, .resume 2]

def probing (events : List Event) : List Bool := (run events).calls.map Call.probing

end Strict

open Strict in
theorem provider_holds_answered : ProviderHolds config (run answered) ∧ After config (run answered) (step config (run answered) hello) ∧
    (run probed).circuit.openUntilMs = 6000 ∧ (run answered).circuit = ⟨0, 0, false, 2⟩ := by
  obtain ⟨holds, after⟩ := provider_holds config 5000 answered hello (by decide +kernel)
  exact ⟨holds, after, by decide +kernel, by decide +kernel⟩

open Strict in
/-- The generator of the released probe ends and releases the permit of the other
one, so a third call probes with it. Where it timed out it opens the circuit, which
the success of the other one then leaves open. And a response that comes in with
the timeout is a failure that does not count. -/
theorem released_probe_frees_permit :
    probing (released .other ++ [.read 1 .fails, hello, .resume 3]) = [false, false, true, true] ∧
    (run (released .timeout ++ [.read 1 .fails, .fetched 2 (.responds ⟨200, true⟩), .next 2, .read 2 (.value 20 (.ok [.done]))])).circuit =
      ⟨1, 7000, false, 2⟩ ∧
    ((run [hello, .resume 0, .abort 0 .timeout, .fetched 0 (.responds ⟨200, true⟩)]).verdicts = [⟨0, ⟨0, false⟩, true⟩] ∧
      (run [hello, .resume 0, .abort 0 .timeout, .fetched 0 (.responds ⟨200, true⟩)]).circuit = ⟨0, 0, false, 0⟩) := by
  decide +kernel

end Vimla.Inference
