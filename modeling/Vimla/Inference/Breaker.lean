import Vimla.Inference.Turns

/-!
# The circuit breaker

What holds of the circuit and of the permits that calls have of it, turn by turn.
-/

namespace Vimla.Inference

open List Nat Bool

variable {c : LocalInferenceProviderConfig} {s t : State} {i j : Nat} {v w : View} {g : Nat}

/-- The failures since the last answer, among the calls of one generation. -/
def streak (g : Nat) (verdicts : List Verdict) : Nat :=
  ((verdicts.filter fun v => v.permit.generation = g).reverse.takeWhile Verdict.failed).length

variable {verdicts : List Verdict} {verdict : Verdict}

theorem streak_other (other : verdict.permit.generation ≠ g) : streak g (verdicts ++ [verdict]) = streak g verdicts := by
  simp [streak, other]

theorem streak_failed (own : verdict.permit.generation = g) (failed : verdict.failed = true) :
    streak g (verdicts ++ [verdict]) = streak g verdicts + 1 := by
  simp [streak, own, failed]

theorem streak_answered (own : verdict.permit.generation = g) (answered : verdict.failed = false) :
    streak g (verdicts ++ [verdict]) = 0 := by
  simp [streak, own, answered]

theorem streak_new (older : ∀ v ∈ verdicts, v.permit.generation < g) : streak g verdicts = 0 := by
  have none : verdicts.filter (fun v => v.permit.generation = g) = [] :=
    filter_eq_nil_iff.2 fun v mem => by simpa using Nat.ne_of_lt (older v mem)
  simp [streak, none]

structure Tripped (c : LocalInferenceProviderConfig) (s : State) : Prop where
  permits : ∀ (i : Nat) (v : View), s.view i = some v → v.permit.generation ≤ s.circuit.circuitGeneration
  closedPermits : ∀ (i : Nat) (v : View), s.view i = some v → v.permit.generation = s.circuit.circuitGeneration →
    v.permit.halfOpen = false → s.circuit.openUntilMs = 0
  probePermits : ∀ (i : Nat) (v : View), s.view i = some v → v.permit.generation = s.circuit.circuitGeneration →
    v.permit.halfOpen = true → 0 < s.circuit.openUntilMs ∧ s.circuit.openUntilMs ≤ s.now
  probes : ∀ (i : Nat) (v : View), s.view i = some v → v.probing = true →
    v.permit.halfOpen = true ∧ v.permit.generation = s.circuit.circuitGeneration ∧ s.circuit.halfOpenInFlight = true
  one : ∀ (i j : Nat) (v w : View), s.view i = some v → s.view j = some w → v.probing = true → w.probing = true → i = j
  judged : ∀ (i : Nat) (v : View), s.view i = some v → v.judged = true → v.permit.halfOpen = true →
    v.permit.generation ≠ s.circuit.circuitGeneration
  closed : s.circuit.openUntilMs = 0 → s.circuit.consecutiveFailures = streak s.circuit.circuitGeneration s.verdicts ∧
    s.circuit.consecutiveFailures < c.circuitBreakerFailureThreshold
  heard : ∀ v ∈ s.verdicts, v.permit.generation ≤ s.circuit.circuitGeneration

theorem tripped_init (now : Nat) : Tripped c (init now) :=
  ⟨nofun, nofun, nofun, nofun, nofun, nofun, fun _ => ⟨rfl, c.threshold_pos⟩, nofun⟩

/-- Who gives back a permit of this generation leaves no probe. -/
theorem Tripped.alone (tripped : Tripped c s) (shown : s.view i = some v) (owned : Owned s v) (halfOpen : v.permit.halfOpen = true)
    (current : v.permit.generation = s.circuit.circuitGeneration) (other : j ≠ i) (shown' : s.view j = some w) : w.probing = false := by
  rw [eq_false_iff]
  intro probing
  rcases owned halfOpen current with probes | judged | free
  · exact other (tripped.one j i w v shown' shown probing probes)
  · exact tripped.judged i v shown judged halfOpen current
  · have taken := (tripped.probes j w shown' probing).2.2
    rw [free] at taken
    cases taken

/-- Views of which one is another, and none is a probe. -/
theorem Shows.cases {u : View} (shows : Shows s t i u) (shown : t.view j = some w) : j = i ∧ w = u ∨ j ≠ i ∧ s.view j = some w := by
  by_cases here : j = i
  · exact .inl ⟨here, Option.some.inj (shown.symm.trans (here ▸ shows.own))⟩
  · exact .inr ⟨here, shows.others j here ▸ shown⟩

section
variable {b : Bool} (tripped : Tripped c s) (shown : s.view i = some v) (shows : Shows s t i ⟨v.permit, false, b⟩)
include tripped shown shows

/-- A new generation, where nobody probes. -/
theorem Tripped.renew (generation : t.circuit.circuitGeneration = s.circuit.circuitGeneration + 1)
    (quiet : ∀ j ≠ i, ∀ w, s.view j = some w → w.probing = false)
    (closed : t.circuit.openUntilMs = 0 → t.circuit.consecutiveFailures = 0)
    (heard : ∀ v ∈ t.verdicts, v.permit.generation ≤ s.circuit.circuitGeneration) : Tripped c t := by
  have older (j : Nat) (w : View) (shown' : t.view j = some w) : w.permit.generation < t.circuit.circuitGeneration := by
    rw [generation]
    rcases shows.cases shown' with ⟨-, rfl⟩ | ⟨-, before⟩
    · exact lt_succ_of_le (tripped.permits i v shown)
    · exact lt_succ_of_le (tripped.permits j w before)
  have nobody (j : Nat) (w : View) (shown' : t.view j = some w) : w.probing = false := by
    rcases shows.cases shown' with ⟨-, rfl⟩ | ⟨other, before⟩
    · rfl
    · exact quiet j other w before
  refine ⟨fun j w shown' => Nat.le_of_lt (older j w shown'), fun j w shown' current => absurd current (Nat.ne_of_lt (older j w shown')),
    fun j w shown' current => absurd current (Nat.ne_of_lt (older j w shown')), fun j w shown' probing => ?_,
    fun j k w x shown' _ probing => ?_, fun j w shown' _ _ => Nat.ne_of_lt (older j w shown'), fun zero => ?_, fun v mem => ?_⟩
  iterate 2
    · rw [nobody j w shown'] at probing
      cases probing
  · rw [closed zero, streak_new fun v mem => generation ▸ lt_succ_of_le (heard v mem)]
    exact ⟨rfl, c.threshold_pos⟩
  · rw [generation]
    exact le_succ_of_le (heard v mem)

/-- The same generation, where what `i` shows is no probe. -/
theorem Tripped.settle (generation : t.circuit.circuitGeneration = s.circuit.circuitGeneration) (openUntil : t.circuit.openUntilMs = s.circuit.openUntilMs)
    (now : t.now = s.now)
    (flag : ∀ j ≠ i, ∀ w, s.view j = some w → w.probing = true → t.circuit.halfOpenInFlight = true)
    (judged : b = true → v.permit.halfOpen = true → v.permit.generation ≠ s.circuit.circuitGeneration)
    (closed : s.circuit.openUntilMs = 0 → t.circuit.consecutiveFailures = streak s.circuit.circuitGeneration t.verdicts ∧
      t.circuit.consecutiveFailures < c.circuitBreakerFailureThreshold)
    (heard : ∀ v ∈ t.verdicts, v.permit.generation ≤ s.circuit.circuitGeneration) : Tripped c t := by
  refine ⟨fun j w shown' => ?_, fun j w shown' => ?_, fun j w shown' => ?_, fun j w shown' probing => ?_, fun j k w x shown' shown'' p q => ?_,
    fun j w shown' => ?_, fun zero => ?_, fun v mem => generation ▸ heard v mem⟩
  · rw [generation]
    rcases shows.cases shown' with ⟨-, rfl⟩ | ⟨-, before⟩
    · exact tripped.permits i v shown
    · exact tripped.permits j w before
  · rw [generation, openUntil]
    rcases shows.cases shown' with ⟨-, rfl⟩ | ⟨-, before⟩
    · exact tripped.closedPermits i v shown
    · exact tripped.closedPermits j w before
  · rw [generation, openUntil, now]
    rcases shows.cases shown' with ⟨-, rfl⟩ | ⟨-, before⟩
    · exact tripped.probePermits i v shown
    · exact tripped.probePermits j w before
  · rcases shows.cases shown' with ⟨-, rfl⟩ | ⟨other, before⟩
    · cases probing
    · obtain ⟨halfOpen, current, -⟩ := tripped.probes j w before probing
      exact ⟨halfOpen, current.trans generation.symm, flag j other w before probing⟩
  · rcases shows.cases shown' with ⟨-, rfl⟩ | ⟨-, before⟩
    · cases p
    rcases shows.cases shown'' with ⟨-, rfl⟩ | ⟨-, before'⟩
    · cases q
    · exact tripped.one j k w x before before' p q
  · rw [generation]
    rcases shows.cases shown' with ⟨-, rfl⟩ | ⟨-, before⟩
    · exact judged
    · exact tripped.judged j w before
  · rw [generation]
    exact closed (openUntil ▸ zero)

end

/-- What a turn makes of the circuit. -/
structure After (c : LocalInferenceProviderConfig) (s t : State) : Prop where
  /-- An open circuit lets no request out, and stays as it is. -/
  open_ : s.now < s.circuit.openUntilMs → t.sent = s.sent ∧ t.circuit = s.circuit
  /-- A closed one opens with the last of so many failures in a row. -/
  opens : s.circuit.openUntilMs = 0 → (t.circuit.openUntilMs ≠ 0 ↔ ∃ v : Verdict, t.verdicts = s.verdicts ++ [v] ∧ v.failed = true ∧
    v.permit.generation = s.circuit.circuitGeneration ∧
    streak s.circuit.circuitGeneration s.verdicts + 1 = c.circuitBreakerFailureThreshold)
  resets : s.circuit.openUntilMs = 0 → t.circuit.openUntilMs ≠ 0 → t.circuit.openUntilMs = s.now + c.circuitBreakerResetMs
  /-- The verdict on a probe decides. -/
  succeeds : ∀ (i : Nat) (v : View), s.view i = some v → v.probing = true → t.verdicts = s.verdicts ++ [⟨i, v.permit, false⟩] →
    t.circuit.openUntilMs = 0 ∧ t.circuit.consecutiveFailures = 0
  fails : ∀ (i : Nat) (v : View), s.view i = some v → v.probing = true → t.verdicts = s.verdicts ++ [⟨i, v.permit, true⟩] →
    t.circuit.openUntilMs = s.now + c.circuitBreakerResetMs

/-- While the circuit is open no permit is of its generation. -/
theorem Tripped.stale (tripped : Tripped c s) (isOpen : s.now < s.circuit.openUntilMs) (shown : s.view i = some v) :
    v.permit.generation ≠ s.circuit.circuitGeneration := by
  intro current
  cases halfOpen : v.permit.halfOpen with
  | false =>
    have := tripped.closedPermits i v shown current halfOpen
    omega
  | true =>
    have := tripped.probePermits i v shown current halfOpen
    omega

theorem After.quiet (verdicts : t.verdicts = s.verdicts) (isOpen : s.now < s.circuit.openUntilMs → t.sent = s.sent ∧ t.circuit = s.circuit)
    (openUntil : t.circuit.openUntilMs = s.circuit.openUntilMs) : After c s t := by
  have none (v : Verdict) : ¬ t.verdicts = s.verdicts ++ [v] := by simp [verdicts]
  refine ⟨isOpen, fun zero => ⟨fun opened => ?_, fun ⟨v, is, _⟩ => absurd is (none v)⟩, fun zero opened => ?_,
    fun i v _ _ is => absurd is (none _), fun i v _ _ is => absurd is (none _)⟩
  · exact absurd (openUntil.trans zero) opened
  · exact absurd (openUntil.trans zero) opened

/-- A verdict of an older generation. -/
theorem After.late (tripped : Tripped c s) (stale : v.permit.generation ≠ s.circuit.circuitGeneration) {b : Bool}
    (circuit : t.circuit = s.circuit) (verdicts : t.verdicts = s.verdicts ++ [⟨i, v.permit, b⟩]) (sent : t.sent = s.sent) : After c s t := by
  have own (j : Nat) (w : View) (shown' : s.view j = some w) (probing : w.probing = true) (b' : Bool)
      (is : t.verdicts = s.verdicts ++ [⟨j, w.permit, b'⟩]) : False := by
    have same : (⟨i, v.permit, b⟩ : Verdict) = ⟨j, w.permit, b'⟩ := singleton_inj.1 (append_cancel_left (verdicts.symm.trans is))
    have permit : v.permit = w.permit := (Verdict.mk.injEq .. ▸ same).2.1
    exact stale (permit ▸ (tripped.probes j w shown' probing).2.1)
  refine ⟨fun _ => ⟨sent, circuit⟩, fun zero => ⟨fun opened => absurd (circuit ▸ zero) opened, fun ⟨w, is, _, current, _⟩ => ?_⟩,
    fun zero opened => absurd (circuit ▸ zero) opened, fun j w shown' probing is => (own j w shown' probing _ is).elim,
    fun j w shown' probing is => (own j w shown' probing _ is).elim⟩
  have same : (⟨i, v.permit, b⟩ : Verdict) = w := singleton_inj.1 (append_cancel_left (verdicts.symm.trans is))
  subst same
  exact absurd current stale

theorem heard_append {b : Bool} (tripped : Tripped c s) (shown : s.view i = some v) (verdicts : t.verdicts = s.verdicts ++ [⟨i, v.permit, b⟩]) :
    ∀ u ∈ t.verdicts, u.permit.generation ≤ s.circuit.circuitGeneration := by
  intro u mem
  rcases mem_append.1 (verdicts ▸ mem) with old | new
  · exact tripped.heard u old
  · rw [mem_singleton.1 new]
    exact tripped.permits i v shown

/-- A verdict of an older generation leaves all as it was. -/
theorem Tripped.late {b judged : Bool} (tripped : Tripped c s) (shown : s.view i = some v) (shows : Shows s t i ⟨v.permit, false, judged⟩)
    (stale : v.permit.generation ≠ s.circuit.circuitGeneration) (circuit : t.circuit = s.circuit)
    (verdicts : t.verdicts = s.verdicts ++ [⟨i, v.permit, b⟩]) (now : t.now = s.now) : Tripped c t := by
  refine tripped.settle shown shows (by rw [circuit]) (by rw [circuit]) now (fun j _ w shown' probing => ?_) (fun _ _ => stale) (fun zero => ?_)
    (heard_append tripped shown verdicts)
  · rw [circuit]
    exact (tripped.probes j w shown' probing).2.2
  · rw [circuit, verdicts, streak_other stale]
    exact tripped.closed zero

/-- What was appended to the verdicts. -/
theorem appended {x y : Verdict} (is : t.verdicts = s.verdicts ++ [x]) (is' : t.verdicts = s.verdicts ++ [y]) : x = y :=
  singleton_inj.1 (append_cancel_left (is.symm.trans is'))

/-- No probe while the circuit is closed. -/
theorem Tripped.apart (tripped : Tripped c s) (zero : s.circuit.openUntilMs = 0) (j : Nat) (w : View) (shown : s.view j = some w)
    (probing : w.probing = true) : False := by
  obtain ⟨halfOpen, current, -⟩ := tripped.probes j w shown probing
  have := (tripped.probePermits j w shown current halfOpen).1
  omega

theorem fails_tripped (tripped : Tripped c s) (shown : s.view i = some v) (shows : Shows s t i ⟨v.permit, false, false⟩) (owned : Owned s v)
    (circuit : t.circuit = s.circuit.recordFailure c s.now v.permit) (verdicts : t.verdicts = s.verdicts ++ [⟨i, v.permit, true⟩])
    (sent : t.sent = s.sent) (now : t.now = s.now) : Tripped c t ∧ After c s t := by
  unfold Circuit.recordFailure at circuit
  split at circuit
  · rename_i stale
    exact ⟨tripped.late shown shows stale circuit verdicts now, .late tripped stale circuit verdicts sent⟩
  rename_i current
  have current : v.permit.generation = s.circuit.circuitGeneration := of_not_not current
  have shut : ¬ s.now < s.circuit.openUntilMs := fun isOpen => tripped.stale isOpen shown current
  have heard := heard_append tripped shown verdicts
  split at circuit
  · rename_i halfOpen
    have wasOpen := (tripped.probePermits i v shown current halfOpen).1
    refine ⟨tripped.renew shown shows (by rw [circuit]; rfl) (fun j other w shown' => tripped.alone shown owned halfOpen current other shown')
      (fun zero => ?_) heard, fun isOpen => absurd isOpen shut, fun zero => ?_, fun zero => ?_, fun j w _ _ is => ?_, fun _ _ _ _ _ => by rw [circuit]; rfl⟩
    · rw [circuit] at zero
      exact absurd zero (ne_of_gt (lt_of_lt_of_le c.resetMs_pos (le_add_left _ _)))
    · omega
    · omega
    · cases congrArg Verdict.failed (appended verdicts is)
  · rename_i plain
    have plain : v.permit.halfOpen = false := eq_false_iff.2 plain
    have zero := tripped.closedPermits i v shown current plain
    obtain ⟨counted, below⟩ := tripped.closed zero
    have apart := tripped.apart zero
    simp only at circuit
    split at circuit
    · rename_i reached
      refine ⟨tripped.renew shown shows (by rw [circuit]; rfl) (fun j _ w shown' => eq_false_iff.2 (apart j w shown')) (fun zero => ?_) heard, fun isOpen => absurd isOpen shut,
        fun _ => ⟨fun _ => ⟨_, verdicts, rfl, current, by omega⟩, fun _ zero => ?_⟩, fun _ _ => by rw [circuit]; rfl,
        fun j w shown' => False.elim ∘ apart j w shown', fun j w shown' => False.elim ∘ apart j w shown'⟩
      iterate 2
        · rw [circuit] at zero
          exact absurd zero (ne_of_gt (lt_of_lt_of_le c.resetMs_pos (le_add_left _ _)))
    · rename_i short
      refine ⟨tripped.settle shown shows (by rw [circuit]) (by rw [circuit]) now (fun j _ w shown' => False.elim ∘ apart j w shown') nofun
        (fun _ => ?_) heard, fun isOpen => absurd isOpen shut, fun _ => ⟨fun opened => ?_, fun ⟨u, is, _, _, last⟩ => ?_⟩, fun _ opened => ?_,
        fun j w shown' => False.elim ∘ apart j w shown', fun j w shown' => False.elim ∘ apart j w shown'⟩
      · rw [circuit, verdicts, streak_failed current rfl]
        exact ⟨congrArg (· + 1) counted, Nat.lt_of_not_le short⟩
      · rw [circuit] at opened
        exact absurd zero opened
      · omega
      · rw [circuit] at opened
        exact absurd zero opened

section
variable {b : Bool} (tripped : Tripped c s) (shown : s.view i = some v) (shows : Shows s t i ⟨v.permit, false, b⟩)
include tripped shown shows

theorem answers_tripped (held : v.probing = v.permit.halfOpen) (circuit : t.circuit = s.circuit.recordSuccess v.permit)
    (verdicts : t.verdicts = s.verdicts ++ [⟨i, v.permit, false⟩]) (sent : t.sent = s.sent) (now : t.now = s.now) :
    Tripped c t ∧ After c s t := by
  have owned : Owned s v := fun halfOpen _ => .inl (held.trans halfOpen)
  unfold Circuit.recordSuccess at circuit
  split at circuit
  · rename_i stale
    exact ⟨tripped.late shown shows stale circuit verdicts now, .late tripped stale circuit verdicts sent⟩
  rename_i current
  have current : v.permit.generation = s.circuit.circuitGeneration := of_not_not current
  have shut : ¬ s.now < s.circuit.openUntilMs := fun isOpen => tripped.stale isOpen shown current
  have heard := heard_append tripped shown verdicts
  have answered {x : Verdict} (is : t.verdicts = s.verdicts ++ [x]) (failed : x.failed = true) : False := by
    rw [← appended verdicts is] at failed
    cases failed
  split at circuit
  · rename_i halfOpen
    have wasOpen := (tripped.probePermits i v shown current halfOpen).1
    exact ⟨tripped.renew shown shows (by rw [circuit]) (fun j other w shown' => tripped.alone shown owned halfOpen current other shown')
      (fun _ => by rw [circuit]) heard, fun isOpen => absurd isOpen shut, fun zero => by omega, fun zero => by omega,
      fun _ _ _ _ _ => by rw [circuit]; exact ⟨rfl, rfl⟩, fun _ _ _ _ is => (answered is rfl).elim⟩
  · rename_i plain
    have plain : v.permit.halfOpen = false := eq_false_iff.2 plain
    have zero := tripped.closedPermits i v shown current plain
    rw [if_pos zero] at circuit
    have apart := tripped.apart zero
    refine ⟨tripped.settle shown shows (by rw [circuit]) (by rw [circuit]) now (fun j _ w shown' => False.elim ∘ apart j w shown')
      (fun _ halfOpen => ?_) (fun _ => ?_) heard, fun isOpen => absurd isOpen shut,
      fun _ => ⟨fun opened => ?_, fun ⟨u, is, failed, _⟩ => (answered is failed).elim⟩, fun _ opened => ?_,
      fun j w shown' => False.elim ∘ apart j w shown', fun j w shown' => False.elim ∘ apart j w shown'⟩
    · rw [plain] at halfOpen
      cases halfOpen
    · rw [circuit, verdicts, streak_answered current rfl]
      exact ⟨rfl, c.threshold_pos⟩
    iterate 2
      · rw [circuit] at opened
        exact absurd zero opened

theorem drops_tripped (still : b = true → v.judged = true) (owned : Owned s v) (circuit : t.circuit = s.circuit.releaseHalfOpenPermit v.permit)
    (verdicts : t.verdicts = s.verdicts) (sent : t.sent = s.sent) (now : t.now = s.now) : Tripped c t ∧ After c s t := by
  unfold Circuit.releaseHalfOpenPermit at circuit
  split at circuit
  · rename_i halfOpen
    obtain ⟨halfOpen, current, wasOpen⟩ := halfOpen
    refine ⟨tripped.settle shown shows (by rw [circuit]) (by rw [circuit]) now (fun j other w shown' probing => ?_)
      (fun judged => tripped.judged i v shown (still judged)) (fun zero => by omega) (verdicts ▸ tripped.heard),
      .quiet verdicts (fun isOpen => absurd current (tripped.stale isOpen shown)) (by rw [circuit])⟩
    rw [tripped.alone shown owned halfOpen current other shown'] at probing
    cases probing
  · exact ⟨tripped.settle shown shows (by rw [circuit]) (by rw [circuit]) now
      (fun j _ w shown' probing => circuit ▸ (tripped.probes j w shown' probing).2.2) (fun judged => tripped.judged i v shown (still judged))
      (fun zero => by rw [circuit, verdicts]; exact tripped.closed zero) (verdicts ▸ tripped.heard),
      .quiet verdicts (fun _ => ⟨sent, circuit⟩) (by rw [circuit])⟩

end

variable {permit : CircuitPermit}

/-- A permit of this generation, which is a probe if nobody else is one. -/
theorem Tripped.enter (tripped : Tripped c s) (shows : Shows s t i ⟨permit, permit.halfOpen, false⟩)
    (current : permit.generation = s.circuit.circuitGeneration) (plain : permit.halfOpen = false → s.circuit.openUntilMs = 0)
    (halfOpen : permit.halfOpen = true → 0 < s.circuit.openUntilMs ∧ s.circuit.openUntilMs ≤ s.now ∧ s.circuit.halfOpenInFlight = false ∧
      t.circuit.halfOpenInFlight = true)
    (generation : t.circuit.circuitGeneration = s.circuit.circuitGeneration) (openUntil : t.circuit.openUntilMs = s.circuit.openUntilMs)
    (failures : t.circuit.consecutiveFailures = s.circuit.consecutiveFailures)
    (flag : s.circuit.halfOpenInFlight = true → t.circuit.halfOpenInFlight = true)
    (verdicts : t.verdicts = s.verdicts) (now : t.now = s.now) : Tripped c t := by
  have apart (probe : permit.halfOpen = true) (j : Nat) (w : View) (shown : s.view j = some w) (probing : w.probing = true) : False := by
    have taken := (tripped.probes j w shown probing).2.2
    rw [(halfOpen probe).2.2.1] at taken
    cases taken
  refine ⟨fun j w shown => ?_, fun j w shown => ?_, fun j w shown => ?_, fun j w shown probing => ?_, fun j k w x shown shown' p q => ?_,
    fun j w shown => ?_, ?_, ?_⟩
  · rw [generation]
    rcases shows.cases shown with ⟨-, rfl⟩ | ⟨-, before⟩
    · exact le_of_eq current
    · exact tripped.permits j w before
  · rw [generation, openUntil]
    rcases shows.cases shown with ⟨-, rfl⟩ | ⟨-, before⟩
    · exact fun _ => plain
    · exact tripped.closedPermits j w before
  · rw [generation, openUntil, now]
    rcases shows.cases shown with ⟨-, rfl⟩ | ⟨-, before⟩
    · exact fun _ probe => ⟨(halfOpen probe).1, (halfOpen probe).2.1⟩
    · exact tripped.probePermits j w before
  · rw [generation]
    rcases shows.cases shown with ⟨-, rfl⟩ | ⟨-, before⟩
    · exact ⟨probing, current, (halfOpen probing).2.2.2⟩
    · obtain ⟨probe, current', taken⟩ := tripped.probes j w before probing
      exact ⟨probe, current', flag taken⟩
  · rcases shows.cases shown with ⟨rfl, rfl⟩ | ⟨-, before⟩
    · rcases shows.cases shown' with ⟨rfl, -⟩ | ⟨-, before'⟩
      · rfl
      · exact (apart p k x before' q).elim
    · rcases shows.cases shown' with ⟨-, rfl⟩ | ⟨-, before'⟩
      · exact (apart q j w before p).elim
      · exact tripped.one j k w x before before' p q
  · rw [generation]
    rcases shows.cases shown with ⟨-, rfl⟩ | ⟨-, before⟩
    · exact nofun
    · exact tripped.judged j w before
  · rw [openUntil, failures, generation, verdicts]
    exact tripped.closed
  · rw [generation, verdicts]
    exact tripped.heard

theorem claims_tripped (tripped : Tripped c s)
    (claimed : s.circuit.claimCircuitPermission s.now = (.ok permit, t.circuit)) (shows : Shows s t i ⟨permit, permit.halfOpen, false⟩)
    (verdicts : t.verdicts = s.verdicts) (now : t.now = s.now) : Tripped c t ∧ After c s t := by
  unfold Circuit.claimCircuitPermission at claimed
  split at claimed
  · cases congrArg Prod.fst claimed
  rename_i shut
  split at claimed
  · rename_i wasOpen
    split at claimed
    · cases congrArg Prod.fst claimed
    rename_i free
    obtain ⟨is, circuit⟩ := Prod.mk.injEq .. ▸ claimed
    cases is
    exact ⟨tripped.enter shows rfl nofun (fun _ => ⟨wasOpen, Nat.le_of_not_lt shut, eq_false_iff.2 free, by rw [← circuit]⟩)
        (by rw [← circuit]) (by rw [← circuit]) (by rw [← circuit]) (fun _ => by rw [← circuit]) verdicts now,
      .quiet verdicts (fun isOpen => absurd isOpen shut) (by rw [← circuit])⟩
  · rename_i zero
    obtain ⟨is, circuit⟩ := Prod.mk.injEq .. ▸ claimed
    cases is
    exact ⟨tripped.enter shows rfl (fun _ => Nat.eq_zero_of_not_pos zero) nofun (by rw [← circuit]) (by rw [← circuit]) (by rw [← circuit])
        (fun taken => circuit ▸ taken) verdicts now,
      .quiet verdicts (fun isOpen => absurd isOpen shut) (by rw [← circuit])⟩

theorem effect_tripped (tripped : Tripped c s) (effect : Effect c s t) : Tripped c t ∧ After c s t := by
  have same (circuit : t.circuit = s.circuit) (views : ∀ j, t.view j = s.view j) (verdicts : t.verdicts = s.verdicts) (now : s.now ≤ t.now) :
      Tripped c t := by
    refine ⟨?_, ?_, fun j w shown current halfOpen => ?_, ?_, ?_, ?_, ?_, ?_⟩
    case refine_3 =>
      rw [circuit] at current ⊢
      obtain ⟨wasOpen, past⟩ := tripped.probePermits j w (views j ▸ shown) current halfOpen
      exact ⟨wasOpen, le_trans past now⟩
    all_goals simp only [circuit, views, verdicts]
    · exact tripped.permits
    · exact tripped.closedPermits
    · exact tripped.probes
    · exact tripped.one
    · exact tripped.judged
    · exact tripped.closed
    · exact tripped.heard
  cases effect with
  | still circuit views verdicts sent now =>
    exact ⟨same circuit views verdicts now, .quiet verdicts (fun _ => ⟨sent, circuit⟩) (by rw [circuit])⟩
  | claims i permit claimed shows verdicts now => exact claims_tripped tripped claimed shows verdicts now
  | sends i v shown current held circuit views verdicts now =>
    exact ⟨same circuit views verdicts (le_of_eq now.symm),
      .quiet verdicts (fun isOpen => absurd current (tripped.stale isOpen shown)) (by rw [circuit])⟩
  | drops i v judged shown shows still owned circuit verdicts sent now =>
    exact drops_tripped tripped shown shows still owned circuit verdicts sent now
  | fails i v shown shows owned circuit verdicts sent now => exact fails_tripped tripped shown shows owned circuit verdicts sent now
  | answers i v judged shown shows held circuit verdicts sent now =>
    exact answers_tripped tripped shown shows held circuit verdicts sent now

end Vimla.Inference
