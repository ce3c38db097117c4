import Vimla.Lib.Runs
import Vimla.Sync.Engine

/-!
# The cursors that are written

A cursor is written after the deltas of its page are applied. When the source
serves the page of each cursor, no delta before the stored cursor is left out,
whatever fails and however the runs go on.
-/

namespace Vimla.Sync

open Runs List SyncEngine Function

section Engine
variable {δ : Type} {options : SyncEngineOptions} {e : SyncEngine δ} {r : Nat}

/-- Each cursor that is written comes after the deltas of its page. -/
def AppliedFirst (history : List (Mark δ)) : Prop :=
  ∀ before response after, history = before ++ .wrote response :: after →
    response.deltas = [] ∨ .applied response ∈ before

theorem appliedFirst_append {history : List (Mark δ)} {m : Mark δ} (h : AppliedFirst history)
    (last : ∀ response, m = .wrote response → response.deltas = [] ∨ .applied response ∈ history) :
    AppliedFirst (history ++ [m]) := by
  intro before response after split
  obtain rfl | ⟨after, x, rfl⟩ := eq_nil_or_concat' after
  · obtain ⟨rfl, same⟩ := append_inj' split rfl
    exact last response (singleton_inj.1 same)
  · rw [← cons_append, ← append_assoc] at split
    exact h before response after (append_inj' split rfl).1

/-- The marks of a step, and the cursor that is stored after it. -/
inductive Added (e : SyncEngine δ) : List (Mark δ) → Option String → Prop
  | quiet : Added e e.history e.stored
  | asked : Added e (e.history ++ [.asked]) e.stored
  | began (stored : Option String) (cleared : stored = e.stored ∨ stored = none) :
    Added e (e.history ++ [.began e.passes]) stored
  | cleared : Added e e.history none
  | completed (pass : Nat) : Added e (e.history ++ [.completed pass]) e.stored
  | applied (r pass : Nat) (reset : Bool) (cursor : Option String) (response : SyncResponse δ)
    (at_ : e.runs r = .applying pass reset cursor response) : Added e (e.history ++ [.applied response]) e.stored
  | wrote (r pass : Nat) (reset : Bool) (cursor : Option String) (response : SyncResponse δ)
    (at_ : e.runs r = .applying pass reset cursor response) :
    Added e (e.history ++ [.applied response] ++ [.wrote response]) e.stored
  | wroteEmpty (response : SyncResponse δ) (empty : response.deltas = []) :
    Added e (e.history ++ [.wrote response]) e.stored
  | stored (r pass : Nat) (reset : Bool) (response : SyncResponse δ)
    (at_ : e.runs r = .writing pass reset response) : Added e e.history (some response.nextCursor)

@[simp] theorem requestSync_history : e.requestSync.history = e.history ++ [.asked] := by
  simp only [requestSync]
  repeat' split
  all_goals rfl

@[simp] theorem requestSync_stored : e.requestSync.stored = e.stored := by
  simp only [requestSync]
  repeat' split
  all_goals rfl

theorem next_added (answer : Answer δ) :
    Added e (e.next options r answer).history (e.next options r answer).stored := by
  unfold SyncEngine.next
  cases at_ : e.runs r with
  | absent | waiting | closed => exact .quiet
  | entered | again => exact .began e.stored (.inl rfl)
  | reading pass reset =>
    simp only [fetch]
    repeat' split
    all_goals exact .quiet
  | fetching pass reset cursor =>
    simp only [advance]
    split
    · exact .quiet
    · rename_i response _
      split
      · exact .quiet
      split
      · exact .quiet
      · rename_i empty
        split
        · exact .quiet
        · exact .wroteEmpty response (length_eq_zero_iff.1 (by omega))
  | applying pass reset cursor response =>
    simp only [advance]
    split
    · exact .quiet
    iterate 2
      split
      · exact .applied r pass reset cursor response at_
    · exact .wrote r pass reset cursor response at_
  | writing pass reset response =>
    simp only [fetch]
    repeat' split
    all_goals first
      | exact .quiet
      | exact .stored r pass reset response at_
  | returned pass whole =>
    cases whole with
    | true => exact .completed pass
    | false => exact .quiet
  | failed | looping =>
    dsimp only
    split <;> exact .quiet
  | reported reset kind =>
    simp only [handleFailure]
    repeat' split
    all_goals exact .quiet
  | clearing =>
    simp only
    repeat' split
    all_goals first
      | exact .began none (.inr rfl)
      | exact .began e.stored (.inl rfl)
      | exact .cleared
      | exact .quiet
  | finished =>
    simp only [settle]
    split
    · rw [requestSync_history, requestSync_stored]
      exact .asked
    · exact .quiet

theorem step_added (ev : Event δ) : Added e (e.step options ev).history (e.step options ev).stored := by
  cases ev with
  | stop => exact .quiet
  | next r answer => exact next_added answer
  | start =>
    simp only [step]
    split <;> exact .quiet
  | requestSync =>
    simp only [step, requestSync_history, requestSync_stored]
    exact .asked
  | begun | timer =>
    simp only [step]
    split
    · rw [requestSync_history, requestSync_stored]
      exact .asked
    · exact .quiet

theorem AppliedFirst.step (h : AppliedFirst e.history) (ev : Event δ) :
    AppliedFirst (e.step options ev).history := by
  have added : Added e (e.step options ev).history (e.step options ev).stored := step_added ev
  generalize (e.step options ev).history = history, (e.step options ev).stored = stored at added
  cases added with
  | quiet | cleared | stored => exact h
  | asked | began | completed | applied => exact appliedFirst_append h (by simp)
  | wroteEmpty response empty =>
    refine appliedFirst_append h ?_
    rintro _ ⟨⟩
    exact .inl empty
  | wrote r pass reset cursor response at_ =>
    refine appliedFirst_append (appliedFirst_append h (by simp)) ?_
    rintro _ ⟨⟩
    exact .inr (by simp)

/-- The deltas of a stream in their order, and where a cursor stands in it. -/
structure Stream (δ : Type) where
  delta : Nat → δ
  position : Option String → Nat

variable (stream : Stream δ)

/-- The page of a cursor. -/
def Stream.Page (cursor : Option String) (response : SyncResponse δ) : Prop :=
  response.deltas = (List.range' (stream.position cursor)
    (stream.position (some response.nextCursor) - stream.position cursor)).map stream.delta

/-- The source answers with the page that it was asked for. -/
def Stream.Serves (e : SyncEngine δ) (ev : Event δ) : Prop :=
  ∀ r answer pass reset cursor response, ev = .next r answer → e.runs r = .fetching pass reset cursor →
    answer.response = some response → stream.Page cursor response

/-- The delta at this place is applied. -/
def Applied (history : List (Mark δ)) (i : Nat) : Prop :=
  ∃ response, .applied response ∈ history ∧ stream.delta i ∈ response.deltas

/-- Each delta before the cursor is applied, or lies before where the source
begins or where the store stood at first. -/
def Caught (first : Option String) (history : List (Mark δ)) (cursor : Option String) : Prop :=
  ∀ i, i < stream.position cursor → i < stream.position none ∨ i < stream.position first ∨ Applied stream history i

/-- What a run may go on from. -/
def Ahead (first : Option String) (history : List (Mark δ)) : Point δ → Prop
  | .fetching _ _ cursor => Caught stream first history cursor
  | .applying _ _ cursor response => Caught stream first history cursor ∧ stream.Page cursor response
  | .writing _ _ response => Caught stream first history (some response.nextCursor)
  | _ => True

structure Tracking (first : Option String) (history : List (Mark δ)) (stored : Option String)
    (runs : Nat → Point δ) : Prop where
  stored : Caught stream first history stored
  runs : ∀ r, Ahead stream first history (runs r)

variable {stream} {first : Option String} {history : List (Mark δ)} {cursor : Option String}

theorem Caught.append (h : Caught stream first history cursor) (m : Mark δ) :
    Caught stream first (history ++ [m]) cursor := fun i before =>
  (h i before).imp_right fun rest => rest.imp_right fun ⟨response, mem, listed⟩ =>
    ⟨response, mem_append_left _ mem, listed⟩

variable {point : Point δ}

theorem Ahead.append (h : Ahead stream first history point) (m : Mark δ) :
    Ahead stream first (history ++ [m]) point := by
  cases point with
  | fetching | writing => exact Caught.append h m
  | applying => exact ⟨Caught.append h.1 m, h.2⟩
  | _ => trivial

/-- Once the page of a cursor is applied, all before the next cursor is. -/
theorem Caught.page {response : SyncResponse δ}
    (h : Caught stream first history cursor) (page : stream.Page cursor response)
    (applied : response.deltas = [] ∨ .applied response ∈ history) :
    Caught stream first history (some response.nextCursor) := by
  intro i before
  by_cases early : i < stream.position cursor
  · exact h i early
  · have listed : stream.delta i ∈ response.deltas := by
      rw [page]
      refine mem_map_of_mem (mem_range'_1.2 ?_)
      omega
    obtain empty | applied := applied
    · simp [empty] at listed
    · exact .inr (.inr ⟨response, applied, listed⟩)

section Tracking
variable {stored : Option String} {runs : Nat → Point δ}

section
variable (h : Tracking stream first history stored runs)
include h

theorem Tracking.mark (m : Mark δ) :
    Tracking stream first (history ++ [m]) stored runs :=
  ⟨h.stored.append m, fun r => (h.runs r).append m⟩

theorem Tracking.place (ahead : Ahead stream first history point) :
    Tracking stream first history stored (update runs r point) := by
  refine ⟨h.stored, fun o => ?_⟩
  by_cases same : o = r
  · subst same
    rw [update_self]
    exact ahead
  · rw [update_of_ne same]
    exact h.runs o

theorem Tracking.store
    (caught : Caught stream first history cursor) : Tracking stream first history cursor runs :=
  ⟨caught, h.runs⟩

end

theorem caught_none : Caught stream first history none := fun _ before => .inl before

theorem Tracking.requestSync (h : Tracking stream first e.history e.stored e.runs) :
    Tracking stream first e.requestSync.history e.requestSync.stored e.requestSync.runs := by
  simp only [SyncEngine.requestSync]
  repeat' split
  iterate 3 · exact h.mark .asked
  · exact (h.mark .asked).place trivial

theorem Tracking.next (h : Tracking stream first e.history e.stored e.runs) (answer : Answer δ)
    (serves : stream.Serves e (.next r answer)) :
    let e' := e.next options r answer
    Tracking stream first e'.history e'.stored e'.runs := by
  have ahead := h.runs r
  unfold SyncEngine.next
  cases at_ : e.runs r with
  | absent | closed => exact h
  | waiting => exact h.place trivial
  | entered | again => exact (h.mark _).place trivial
  | reading pass reset =>
    simp only [fetch]
    split
    · split
      · exact h.place trivial
      · exact h.place h.stored
    · exact h.place trivial
  | fetching pass reset cursor =>
    rw [at_] at ahead
    simp only [advance]
    split
    · exact h.place trivial
    · rename_i response answered
      have page := serves r answer pass reset cursor response rfl at_ answered
      split
      · exact h.place trivial
      split
      · exact h.place ⟨ahead, page⟩
      · rename_i empty
        have caught := Caught.page ahead page (.inl (length_eq_zero_iff.1 (by omega)))
        split
        · exact h.place trivial
        · exact (h.mark _).place (caught.append _)
  | applying pass reset cursor response =>
    rw [at_] at ahead
    have marked := h.mark (.applied response)
    have caught := Caught.page (Caught.append ahead.1 (.applied response)) ahead.2 (.inr (by simp))
    simp only [advance]
    split
    · exact h.place trivial
    iterate 2
      split
      · exact marked.place trivial
    · exact (marked.mark _).place (caught.append _)
  | writing pass reset response =>
    rw [at_] at ahead
    have caught : Caught stream first e.history (some response.nextCursor) := ahead
    simp only [fetch]
    repeat' split
    all_goals first
      | exact h.place trivial
      | exact (h.store caught).place trivial
      | exact (h.store caught).place caught
      | exact h.place caught
  | returned pass whole =>
    cases whole with
    | true => exact (h.mark _).place trivial
    | false => exact h.place trivial
  | failed | looping =>
    dsimp only
    split <;> exact h.place trivial
  | reported reset kind =>
    simp only [handleFailure]
    repeat' split
    all_goals exact h.place trivial
  | clearing =>
    simp only
    repeat' split
    all_goals first
      | exact (h.mark _).place trivial
      | exact ((h.store caught_none).mark _).place trivial
      | exact (h.store caught_none).place trivial
      | exact h.place trivial
  | finished =>
    simp only [settle]
    split
    · exact Tracking.requestSync (e := { e.place r .closed with activeRun := none }) (h.place trivial)
    · exact h.place trivial

theorem Tracking.step (ev : Event δ) (serves : stream.Serves e ev)
    (h : Tracking stream first e.history e.stored e.runs) :
    let e' := e.step options ev
    Tracking stream first e'.history e'.stored e'.runs := by
  cases ev with
  | start =>
    simp only [SyncEngine.step]
    split <;> exact h
  | stop => exact h
  | requestSync => exact h.requestSync
  | begun =>
    simp only [SyncEngine.step]
    split
    · exact Tracking.requestSync (e := { e with starting := e.starting - 1 }) h
    · exact h
  | timer =>
    simp only [SyncEngine.step]
    split
    · exact Tracking.requestSync (e := { e with retryTimer := none }) h
    · exact h
  | next r answer => exact h.next answer serves

end Tracking

end Engine

end Vimla.Sync
