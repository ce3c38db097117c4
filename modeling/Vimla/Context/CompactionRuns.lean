import Vimla.Context.Refresh
import Vimla.Lib.Runs

/-!
# Runs of refreshes

The statements of any number of refreshes in any order, with readers that
invalidate states in between. What holds of the stored states after each step
holds after the run, and a refresh that throws has written nothing.
-/

namespace Vimla.Context

open Coverage Relation Runs Function List

namespace System
variable {rt : Runtime} {s : System} {caller : Nat} {ev : Event}

structure Sound (rt : Runtime) (s : System) : Prop where
  states : StatesSound s.db.createdAt s.db.states
  calls : ∀ caller, (s.calls caller).Sound s.db
  locked : ∀ caller input, (s.calls caller).holding = some input →
    s.lockedBy (rt.hashtext input.normalized.scopeKey) = some caller

variable {input : RefreshCompactedStateInput}

section
variable (h : Sound rt s)
include h

/-- No two calls that hold a lock are at the same scope. -/
theorem Sound.alone {other : Nat} {input input' : RefreshCompactedStateInput}
    (mine : (s.calls caller).holding = some input) (theirs : (s.calls other).holding = some input')
    (same : input'.normalized.scopeKey = input.normalized.scopeKey) : other = caller := by
  have held := h.locked caller input mine
  rw [← same, h.locked other input' theirs] at held
  exact Option.some.inj held

theorem Sound.calls_set {call : Call} (sound : call.Sound s.db) (other : Nat) :
    ((s.set caller call).calls other).Sound s.db := by
  by_cases same : other = caller
  · subst same
    simpa [System.set] using sound
  · simpa [System.set, same] using h.calls other

theorem Sound.set {call : Call} (sound : call.Sound s.db)
    (holding : call.holding = none ∨ call.holding = (s.calls caller).holding) : Sound rt (s.set caller call) where
  states := h.states
  calls := h.calls_set sound
  locked other input held := by
    by_cases same : other = caller
    · subst same
      simp only [System.set, update_self] at held
      obtain free | kept := holding
      · rw [free] at held
        cases held
      · exact h.locked other input (kept ▸ held)
    · exact h.locked other input (by simpa [System.set, same] using held)

theorem Sound.finish (caller : Nat) (result : Except Failure CompactedRow) :
    Sound rt (s.finish caller result) where
  states := h.states
  calls := h.calls_set (show (Call.returned result).Sound s.db from trivial)
  locked other input held := by
    have distinct : other ≠ caller := by
      rintro rfl
      simp [System.finish, System.set, Call.holding] at held
    have before := h.locked other input (by simpa [System.finish, System.set, distinct] using held)
    simp [System.finish, before, distinct]

theorem Sound.follow {result : Except Failure Call}
    (good : ∀ call, result = .ok call →
      call.Sound s.db ∧ (call.holding = none ∨ call.holding = (s.calls caller).holding)) :
    Sound rt (s.follow caller result) := by
  cases result with
  | error failure => exact h.finish caller (.error failure)
  | ok call => exact h.set (good call rfl).1 (good call rfl).2

theorem Sound.lock : Sound rt (s.lock rt caller input) := by
  unfold System.lock
  dsimp only
  split
  · rename_i free
    refine ⟨h.states, h.calls_set (show (Call.locked input).Sound s.db from trivial), fun other input' held => ?_⟩
    by_cases same : other = caller
    · subst same
      simp only [System.set, update_self, Call.holding, Option.some.injEq] at held
      subst held
      exact update_self ..
    · have before := h.locked other input' (by simpa [System.set, same] using held)
      have apart : rt.hashtext input'.normalized.scopeKey ≠ rt.hashtext input.normalized.scopeKey := by
        intro equal
        rw [equal, free] at before
        cases before
      exact (update_of_ne apart _ _).trans before
  · exact h

/-- The tables change, and the states only by being invalidated. -/
theorem Sound.tables {db : Database} (same : db.createdAt = s.db.createdAt)
    (states : StatesSound db.createdAt db.states) (more : Extends s.db.states db.states)
    (count : ∀ caller input, (s.calls caller).holding = some input →
      (ofScope db.states input.normalized.scopeKey).length =
        (ofScope s.db.states input.normalized.scopeKey).length) : Sound rt { s with db := db } where
  states := states
  calls caller := (h.calls caller).extends same more (count caller)
  locked := h.locked

theorem Sound.invalidate (which : CompactedRow → Bool) (now : Int) (reason : String) :
    Sound rt { s with db := s.db.invalidateWhere which now reason } := by
  obtain ⟨f, mapped, marks, valid⟩ := invalidateWhere_states s.db which now reason
  refine h.tables rfl ?_ ?_ fun _ input _ => ?_
  · rw [mapped]
    exact h.states.map marks fun row => fun still => ((valid row).1 still).1
  · rw [mapped]
    exact extends_map marks
  · rw [mapped, ofScope_map marks, length_map]

end

/-- No state of the scope is valid after the update. -/
theorem live_invalidateWhere (db : Database) (scopeKey : String) (now : Int) (reason : String) :
    live (ofScope (db.invalidateWhere (fun row => row.scopeKey = scopeKey) now reason).states scopeKey) = [] := by
  obtain ⟨f, mapped, marks, valid⟩ := invalidateWhere_states db (fun row => row.scopeKey = scopeKey) now reason
  rw [mapped, ofScope_map marks, live, filter_eq_nil_iff]
  intro row' mem still
  obtain ⟨row, listed, rfl⟩ := mem_map.1 mem
  have within : row.scopeKey = scopeKey := by simpa using (mem_filter.1 listed).2
  have := ((valid row).1 (by simpa using still)).2
  simp [within] at this

variable {what : Draft}

theorem Sound.write (h : Sound rt s) {reply : Reply}
    {version : Nat} (ready : s.calls caller = .versioned input what version) :
    Sound rt (s.write rt caller reply input what version) := by
  unfold System.write
  dsimp only
  split
  · rename_i fresh
    have superseded := h.invalidate (fun row => row.scopeKey = input.normalized.scopeKey) reply.supersededAt
      "SUPERSEDED"
    have known := superseded.calls caller
    simp only [ready, Call.Sound, Draft.Sound] at known
    obtain ⟨⟨sources, rank⟩, next⟩ := known
    have finished := superseded.finish caller (.ok (what.row rt input version reply.id reply.now))
    refine finished.tables rfl ?_ (extends_append _) fun other input' held => ?_
    · exact superseded.states.append
        (Draft.row_derived superseded.states.derived sources rank input version reply.id reply.now) next
        (live_invalidateWhere _ _ _ _)
    · have distinct : other ≠ caller := by
        rintro rfl
        simp [System.finish, System.set, Call.holding] at held
      have apart : input.normalized.scopeKey ≠ input'.normalized.scopeKey := fun same =>
        distinct (h.alone (by rw [ready]; rfl) (by simpa [System.finish, System.set, distinct] using held)
          same.symm)
      exact congrArg length ((ofScope_append _ _).trans (if_neg apart))
  · exact h.finish caller (.error .database)

theorem Sound.readLatest (h : Sound rt s)
    (ready : s.calls caller = .drafted input what) : Sound rt (s.readLatest rt caller input what) := by
  unfold System.readLatest
  dsimp only
  split
  · exact h.finish caller _
  · have known := h.calls caller
    rw [ready] at known
    refine h.set ⟨known, ?_⟩ (.inr (by rw [ready]; rfl))
    exact congrArg (· + 1) (h.states.numbered input.normalized.scopeKey).latest

theorem Sound.next (h : Sound rt s) (reply : Reply) : Sound rt (s.next rt caller reply) := by
  have reads {call : Call} (ready : s.calls caller = call) :
      Sound rt (s.follow caller (call.read rt s.db reply)) := by
    refine h.follow fun call' ok => ?_
    have kept := Call.read_sound (ready ▸ h.calls caller) ok
    exact ⟨kept.1, .inr (ready ▸ kept.2)⟩
  unfold System.next
  cases ready : s.calls caller with
  | idle | returned => exact h
  | waiting input => exact h.lock
  | drafted input what => exact h.readLatest ready
  | versioned input what version => exact h.write ready
  | locked | resolving | checking | resolved => exact reads ready

theorem Sound.step (h : Sound rt s) (ev : Event) : Sound rt (s.step rt ev) := by
  cases ev with
  | call caller input =>
    unfold System.step System.refresh
    dsimp only
    split
    · refine h.follow fun call ok => ?_
      obtain ⟨-, ⟨⟩⟩ := Checks.check_bind.1 ok
      exact ⟨trivial, .inl rfl⟩
    · exact h
  | next caller reply => exact h.next reply
  | fail caller =>
    unfold System.step System.fail
    dsimp only
    split
    · exact h
    · exact h
    · exact h.finish caller (.error .database)
  | invalidate id now => exact h.invalidate _ now _
  | edit messages conversations projects messageKeys conversationKeys =>
    exact h.tables rfl h.states (fun row mem => ⟨row.invalidatedAt, row.invalidationReason, mem⟩)
      fun _ _ _ => rfl

theorem start_sound (db : Database) : Sound rt (start db) where
  states := ⟨fun _ mem => (by cases mem), fun _ => rfl, fun _ => Nat.zero_le 1⟩
  calls _ := trivial
  locked _ _ held := by cases held

/-- The states change when a call returns a new one, and when readers invalidate. -/
theorem step_states (rt : Runtime) (s : System) (ev : Event) : (s.step rt ev).db.states = s.db.states ∨
    ∀ caller, ev.caller = some caller → ∃ row, (s.step rt ev).calls caller = .returned (.ok row) := by
  have follow (caller : Nat) (result : Except Failure Call) :
      (s.follow caller result).db.states = s.db.states := by
    cases result <;> rfl
  cases ev with
  | invalidate | edit => exact .inr fun _ none => by cases none
  | fail caller =>
    left
    simp only [System.step, System.fail]
    split <;> rfl
  | call caller input =>
    left
    simp only [System.step, System.refresh]
    split
    · exact follow _ _
    · rfl
  | next caller reply =>
    simp only [System.step, System.next]
    cases s.calls caller with
    | idle | returned => exact .inl rfl
    | waiting input =>
      left
      simp only [System.lock]
      split <;> rfl
    | drafted input what =>
      left
      simp only [System.readLatest]
      split <;> rfl
    | versioned input what version =>
      simp only [System.write]
      split
      · right
        rintro _ ⟨⟩
        exact ⟨_, update_self ..⟩
      · exact .inl rfl
    | locked | resolving | checking | resolved => exact .inl (follow _ _)

theorem returned_step {result : Except Failure CompactedRow} (returned : s.calls caller = .returned result)
    (ev : Event) : (s.step rt ev).calls caller = .returned result := by
  have set {other : Nat} {call : Call} (distinct : other ≠ caller) :
      (s.set other call).calls caller = .returned result :=
    (update_of_ne (Ne.symm distinct) _ _).trans returned
  have follow {other : Nat} (result' : Except Failure Call) (distinct : other ≠ caller) :
      (s.follow other result').calls caller = .returned result := by
    cases result' <;> exact set distinct
  cases ev with
  | invalidate | edit => exact returned
  | fail other =>
    by_cases same : other = caller
    · subst same
      simp [System.step, System.fail, returned]
    · simp only [System.step, System.fail]
      split
      · exact returned
      · exact returned
      · exact set same
  | call other input =>
    by_cases same : other = caller
    · subst same
      simp [System.step, System.refresh, returned]
    · simp only [System.step, System.refresh]
      split
      · exact follow _ same
      · exact returned
  | next other reply =>
    by_cases same : other = caller
    · subst same
      simp [System.step, System.next, returned]
    · simp only [System.step, System.next]
      cases s.calls other with
      | idle | returned => exact returned
      | waiting input =>
        simp only [System.lock]
        split
        · exact set same
        · exact returned
      | drafted input what =>
        simp only [System.readLatest]
        split <;> exact set same
      | versioned input what version =>
        simp only [System.write]
        split <;> exact set same
      | locked | resolving | checking | resolved => exact follow _ same

/-- No statement of a call that throws in the end changes a state. -/
theorem thrown_unchanged {failure : Failure} (events : List Event)
    (thrown : (events.foldl (System.step rt) s).calls caller = .returned (.error failure)) :
    Along (System.step rt)
      (fun s ev => ev.caller = some caller → (s.step rt ev).db.states = s.db.states) s events := by
  induction events generalizing s with
  | nil => trivial
  | cons ev events ih =>
    refine ⟨fun own => ?_, ih thrown⟩
    obtain same | wrote := step_states rt s ev
    · exact same
    · obtain ⟨row, returned⟩ := wrote caller own
      have kept : (events.foldl (System.step rt) (s.step rt ev)).calls caller = .returned (.ok row) :=
        invariant (P := fun s : System => s.calls caller = .returned (.ok row))
          (fun _ ev returned => returned_step returned ev) events returned
      rw [foldl_cons, kept] at thrown
      cases thrown

end System

/-- The state cites the message. -/
def CitesMessage (db : Database) (id messageId : String) : Prop :=
  ∃ row ∈ db.states, row.id = id ∧ ∃ refs, Recorded row.sourceRefs refs ∧
    ∃ ref ∈ refs, ref.sourceType = "MESSAGE" ∧ ref.sourceId = messageId

section Lineage
variable {db : Database} {row : CompactedRow}
  (derived : ∀ row ∈ db.states, Derived db.createdAt db.states row) (mem : row ∈ db.states)
include derived mem

theorem rank_le_of_lineage {id : String} (path : ReflTransGen (Cites db) row.id id) :
    ∀ source ∈ db.states, source.id = id → source.classification.rank ≤ row.classification.rank := by
  induction path with
  | refl =>
    intro source listed same
    rw [Rows.eq_of_key db.stateKeys listed mem same]
  | tail _ cites ih =>
    intro source listed same
    obtain ⟨citing, listed', named, refs, recorded, ref, hr, type, target⟩ := cites
    obtain ⟨refs', recorded', below, -⟩ := (derived citing listed').recorded
    obtain ⟨type', -⟩ | ⟨-, source', listed'', named', rank⟩ := below ref (recorded.unique recorded' ▸ hr)
    · simp [type] at type'
    · cases Rows.eq_of_key db.stateKeys listed'' listed (named'.trans (target.trans same.symm))
      exact rank.trans (ih citing listed' named)

theorem private_of_lineage {id messageId : String} (path : ReflTransGen (Cites db) row.id id)
    (cites : CitesMessage db id messageId) :
    Classification.PRIVATE.rank ≤ row.classification.rank := by
  obtain ⟨citing, listed, named, refs, recorded, ref, hr, type, -⟩ := cites
  obtain ⟨refs', recorded', below, -⟩ := (derived citing listed).recorded
  obtain ⟨-, rank⟩ | ⟨type', -⟩ := below ref (recorded.unique recorded' ▸ hr)
  · exact rank.trans (rank_le_of_lineage derived mem path citing listed named)
  · simp [type] at type'

theorem lineage_covered : ∃ messages,
    (∀ messages', LineageMessages db.states row.id messages' ↔ messages' = messages) ∧
      Covers db.createdAt row.coveredFromAt row.coveredToAt row.sourceCount messages := by
  obtain ⟨refs, recorded, -, messages, leaves, covers⟩ := (derived row mem).recorded
  have whole : LineageMessages db.states row.id messages := by
    have tree := Leaves.entry ⟨row, mem, rfl, refs, recorded, rfl⟩ leaves .nil
    rwa [append_nil] at tree
  refine ⟨messages, fun messages' => ⟨fun other => ?_, fun same => same ▸ whole⟩, covers⟩
  exact other.unique (Sources.unique db.stateKeys) whole

end Lineage

/-- Over every run: one valid state of a scope at most, its versions without a
gap or repeat; every state classified as strictly as all it descends from, its
bounds and its count those of the messages it descends from; and no state
changed by a call that throws. -/
theorem compactedStates_summarize (rt : Runtime) (db : Database) (events : List Event) :
    let s := events.foldl (System.step rt) (System.start db)
    (∀ scopeKey, (live (ofScope s.db.states scopeKey)).length ≤ 1 ∧ Numbered (ofScope s.db.states scopeKey)) ∧
    (∀ row ∈ s.db.states, ∀ id, ReflTransGen (Cites s.db) row.id id →
      (∀ source ∈ s.db.states, source.id = id → source.classification.rank ≤ row.classification.rank) ∧
      ∀ messageId, CitesMessage s.db id messageId →
        Classification.PRIVATE.rank ≤ row.classification.rank) ∧
    (∀ row ∈ s.db.states, ∃ messages,
      (∀ messages', LineageMessages s.db.states row.id messages' ↔ messages' = messages) ∧
        Covers s.db.createdAt row.coveredFromAt row.coveredToAt row.sourceCount messages) ∧
    ∀ caller failure, s.calls caller = .returned (.error failure) →
      Along (System.step rt)
        (fun s ev => ev.caller = some caller → (s.step rt ev).db.states = s.db.states)
        (System.start db) events := by
  intro s
  have sound : s.Sound rt :=
    invariant (P := System.Sound rt) (fun _ ev h => h.step ev) events (System.start_sound db)
  obtain ⟨derived, numbered, valid⟩ := sound.states
  refine ⟨fun scopeKey => ⟨valid scopeKey, numbered scopeKey⟩, fun row mem id path => ⟨?_, ?_⟩, ?_, ?_⟩
  · exact rank_le_of_lineage derived mem path
  · exact fun messageId => private_of_lineage derived mem path
  · exact fun row mem => lineage_covered derived mem
  · exact fun caller failure => System.thrown_unchanged events

end Vimla.Context
