import Vimla.Lib.Runs

/-!
# Slots of concurrent requests

`concurrency.service.ts` where Redis is required: a counter of the requests of a
user. A command can fail with or without an effect, and the key can lapse.
-/

namespace Vimla.TextChat.Concurrency

open List

/-- By the next command: `EXPIRE` after `INCR` has returned a count, `DECR` where that
was too high, `DECR` of `release`, and `SET` where that went below 0. -/
inductive Phase
  | counted (count : Int)
  | refusing
  | holding
  | negative
  | done
  deriving DecidableEq

inductive Reply | ok | failed (applied : Bool)
  deriving DecidableEq

def Reply.applied : Reply → Bool
  | ok => true
  | failed applied => applied

/-- `count` is 0 where there is no key. -/
structure State where
  count : Int
  requests : List Phase

inductive Event
  | acquire (reply : Reply)
  | next (i : Nat) (reply : Reply)
  | crash (i : Nat)
  | lapse

/-- The last command of a request has written `count`, if it took effect. -/
def State.put (s : State) (i : Nat) (reply : Reply) (phase : Phase) (count : Int) : State where
  count := if reply.applied then count else s.count
  requests := s.requests.set i phase

/-- `max` is `aiMaxConcurrentTextRequestsPerUser`. -/
def State.step (max : Int) (s : State) : Event → State
  | .acquire reply => {
      count := if reply.applied then s.count + 1 else s.count
      requests := if reply = .ok then s.requests ++ [.counted (s.count + 1)] else s.requests }
  | .next i reply =>
    match s.requests[i]? with
    | some (.counted count) =>
      s.put i reply (if reply = .ok then if count > max then .refusing else .holding else .done) s.count
    | some .refusing => s.put i reply .done (s.count - 1)
    | some .holding => s.put i reply (if reply = .ok ∧ s.count - 1 < 0 then .negative else .done) (s.count - 1)
    | some .negative => s.put i reply .done 0
    | _ => s
  | .crash i => s.put i (.failed false) .done s.count
  | .lapse => { s with count := 0 }

/-- It is among those that the counter counts. -/
def Phase.open : Phase → Bool
  | counted _ | refusing | holding => true
  | negative | done => false

/-- It has a slot, or will have one. -/
def Phase.entitled (max : Int) : Phase → Bool
  | counted count => count ≤ max
  | holding => true
  | _ => false

structure Sound (max : Int) (s : State) : Prop where
  counts : s.requests.countP Phase.open ≤ s.count
  bounded : s.requests.countP (Phase.entitled max) ≤ max
  nonneg : .negative ∉ s.requests

/-- The key lapses only while it counts no request. -/
def Calm (s : State) (ev : Event) : Prop := ev = .lapse → s.requests.countP Phase.open = 0

variable {max : Int} {s : State} {i : Nat}

theorem countP_put {p : Phase → Bool} {old : Phase} (at_ : s.requests[i]? = some old) (phase : Phase) :
    (s.requests.set i phase).countP p + (if p old then 1 else 0) = s.requests.countP p + if p phase then 1 else 0 := by
  obtain ⟨within, rfl⟩ := List.getElem?_eq_some_iff.1 at_
  have := boole_getElem_le_countP (p := p) within
  rw [countP_set within]
  omega

/-- A request stays counted, or the count may go down with it. -/
theorem Sound.put (h : Sound max s) {reply : Reply} {old phase : Phase} {count : Int} (at_ : s.requests[i]? = some old)
    (kept : phase.open = true → old.open = true) (plain : phase ≠ .negative)
    (less : phase.entitled max = true → old.entitled max = true)
    (counts : s.count + (if phase.open then 1 else 0) ≤ count + if old.open then 1 else 0) :
    Sound max (s.put i reply phase count) := by
  have opens := countP_put (p := Phase.open) at_ phase
  have entitles := countP_put (p := Phase.entitled max) at_ phase
  have before := h.counts
  have bounded := h.bounded
  refine ⟨?_, ?_, fun mem => (mem_or_eq_of_mem_set mem).elim h.nonneg fun same => plain same.symm⟩
  · simp only [State.put]
    split_ifs at * <;> simp_all <;> omega
  · simp only [State.put]
    by_cases entitled : phase.entitled max = true
    · rw [if_pos entitled, if_pos (less entitled)] at entitles
      omega
    · rw [if_neg entitled] at entitles
      omega

theorem Sound.step (h : Sound max s) (ev : Event) (calm : Calm s ev) : Sound max (s.step max ev) := by
  have ⟨counts, bounded, nonneg⟩ := h
  cases ev with
  | acquire reply =>
    -- Whoever is let in was counted last, so all that are counted fit.
    have fewer : s.requests.countP (Phase.entitled max) ≤ s.requests.countP Phase.open :=
      countP_mono_left fun phase _ => by cases phase <;> simp [Phase.entitled, Phase.open]
    rcases reply with _ | applied
    · refine ⟨?_, ?_, by simpa [State.step] using nonneg⟩
      · simp [State.step, Reply.applied, Phase.open]
        omega
      · simp [State.step, Phase.entitled, countP_cons]
        split <;> omega
    · exact ⟨by cases applied <;> simp [State.step, Reply.applied] <;> omega, bounded, nonneg⟩
  | lapse => exact ⟨by simp [State.step, calm rfl], bounded, nonneg⟩
  | crash i =>
    cases at_ : s.requests[i]? with
    | none => simpa [State.step, State.put, Reply.applied, set_eq_of_length_le (List.getElem?_eq_none_iff.1 at_)] using h
    | some old => exact h.put at_ (by simp [Phase.open]) (by decide) (by simp [Phase.entitled]) (by simp [Phase.open]; split <;> omega)
  | next i reply =>
    simp only [State.step]
    split
    · split
      · split
        · exact h.put ‹_› (fun _ => rfl) (by decide) (by simp [Phase.entitled]) (by simp [Phase.open])
        · rename_i fits
          exact h.put ‹_› (fun _ => rfl) (by decide) (fun _ => by simpa [Phase.entitled] using fits) (by simp [Phase.open])
      · exact h.put ‹_› (fun _ => rfl) (by decide) (by simp [Phase.entitled]) (by simp [Phase.open])
    · exact h.put ‹_› (fun _ => rfl) (by decide) (by simp [Phase.entitled]) (by simp [Phase.open])
    · rename_i at_
      have counted : 0 < s.requests.countP Phase.open := countP_pos_iff.2 ⟨_, mem_of_getElem? at_, rfl⟩
      rw [if_neg (by omega)]
      exact h.put at_ (fun _ => rfl) (by decide) (by simp [Phase.entitled]) (by simp [Phase.open])
    · rename_i at_
      exact absurd (mem_of_getElem? at_) nonneg
    · exact h

/-- In any order of commands, however they fail, at most `max` requests hold a slot,
and `release` never finds the count below 0. -/
theorem slots_bounded (max : Int) (nonneg : 0 ≤ max) (evs : List Event)
    (calm : Runs.Along (State.step max) Calm ⟨0, []⟩ evs) :
    (evs.foldl (State.step max) ⟨0, []⟩).requests.countP (· = .holding) ≤ max ∧
      .negative ∉ (evs.foldl (State.step max) ⟨0, []⟩).requests := by
  have sound : Sound max (evs.foldl (State.step max) ⟨0, []⟩) :=
    Runs.invariant_along (fun _ ev calm sound => sound.step ev calm) calm ⟨le_refl 0, nonneg, by simp⟩
  refine ⟨le_trans ?_ sound.bounded, sound.nonneg⟩
  exact Int.ofNat_le.2 (countP_mono_left fun phase _ hold => by simp_all [Phase.entitled])

theorem slots_bounded_refused :
    ([.acquire .ok, .acquire .ok, .next 1 .ok, .next 0 .ok, .next 1 (.failed true)].foldl (State.step 1) ⟨0, []⟩).requests.countP
      (· = .holding) ≤ (1 : Int) :=
  (slots_bounded 1 (by decide) _ (by simp [Runs.Along, Calm])).1

/-- A key that lapses under a request lets in another one. -/
example : ([.acquire .ok, .next 0 .ok, .lapse, .acquire .ok, .next 1 .ok].foldl (State.step 1) ⟨0, []⟩).requests =
    [.holding, .holding] := by decide

end Vimla.TextChat.Concurrency
