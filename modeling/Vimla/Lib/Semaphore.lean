import Mathlib

/-!
# Semaphores with a bounded queue

A counter of slots, and a queue that is served in order: a slot that is released
goes to the first who waits.
-/

/-- `arrived`, `served` and `released` remember who asked for a slot, who got one
and who gave it back. -/
structure Semaphore (ι : Type) where
  active : Nat
  waiting : List ι
  arrived : List ι
  served : List ι
  released : List ι

namespace Semaphore

open List Nat

variable {ι : Type} {max depth : Nat} {s : Semaphore ι} {i : ι}

/-- A slot for `i`, or a place in the queue; without either it is turned away. -/
def arrive (max depth : Nat) (i : ι) (s : Semaphore ι) : Semaphore ι :=
  if s.active < max then { s with active := s.active + 1, arrived := s.arrived ++ [i], served := s.served ++ [i] }
  else if s.waiting.length < depth then { s with waiting := s.waiting ++ [i], arrived := s.arrived ++ [i] }
  else s

def leave [DecidableEq ι] (i : ι) (s : Semaphore ι) : Semaphore ι := { s with waiting := s.waiting.erase i }

def release (i : ι) (s : Semaphore ι) : Semaphore ι :=
  match s.waiting with
  | [] => { s with active := s.active - 1, released := s.released ++ [i] }
  | next :: rest => { s with
      active := s.active - 1 + 1
      waiting := rest
      served := s.served ++ [next]
      released := s.released ++ [i] }

/-- Who has a slot. -/
def holders [DecidableEq ι] (s : Semaphore ι) : List ι := s.served.filter fun i => i ∉ s.released

structure Sound (max depth : Nat) (s : Semaphore ι) : Prop where
  counted : s.active + s.released.length = s.served.length
  bounded : s.active ≤ max
  queue : s.waiting.length ≤ depth
  busy : s.waiting ≠ [] → s.active = max
  order : Sublist (s.served ++ s.waiting) s.arrived
  distinct : s.arrived.Nodup
  once : s.released.Nodup
  taken : s.released ⊆ s.served

theorem Sound.served_nodup (sound : Sound max depth s) : s.served.Nodup :=
  ((sublist_append_left _ _).trans sound.order).nodup sound.distinct

theorem sound_new : Sound max depth (⟨0, [], [], [], []⟩ : Semaphore ι) :=
  ⟨rfl, zero_le _, zero_le _, fun h => absurd rfl h, Sublist.refl _, nodup_nil, nodup_nil, nil_subset _⟩

/-- The counter counts the holders. -/
theorem Sound.active_eq [DecidableEq ι] (sound : Sound max depth s) : s.active = s.holders.length := by
  have rest : (s.served.filter fun i => i ∈ s.released).length = s.released.length := by
    refine Perm.length_eq ((perm_ext_iff_of_nodup (sound.served_nodup.filter _) sound.once).2 fun j => ?_)
    simp only [mem_filter, decide_eq_true_eq, and_iff_right_iff_imp]
    exact fun mem => sound.taken mem
  have split := length_eq_length_filter_add (l := s.served) fun i => decide (i ∈ s.released)
  have same : s.served.filter (fun i => !decide (i ∈ s.released)) = s.holders :=
    filter_congr fun i _ => by simp
  rw [same, rest] at split
  have := sound.counted
  omega

theorem Sound.arrive (sound : Sound max depth s) (fresh : i ∉ s.arrived) : Sound max depth (s.arrive max depth i) := by
  have distinct : (s.arrived ++ [i]).Nodup := by
    refine nodup_append.2 ⟨sound.distinct, nodup_singleton i, fun a old b new same => fresh ?_⟩
    exact mem_singleton.1 new ▸ same ▸ old
  unfold Semaphore.arrive
  split
  · rename_i free
    have idle : s.waiting = [] := by
      by_contra waits
      exact absurd (sound.busy waits) (Nat.ne_of_lt free)
    have order := sound.order
    rw [idle, append_nil] at order
    refine ⟨?_, free, sound.queue, fun waits => absurd idle waits, ?_, distinct, sound.once,
      fun j mem => mem_append_left _ (sound.taken mem)⟩
    · have := sound.counted
      simp only [length_append, length_singleton]
      omega
    · simp only [idle, append_nil]
      exact order.append (Sublist.refl [i])
  split
  · rename_i busy room
    refine ⟨sound.counted, sound.bounded, ?_, fun _ => Nat.le_antisymm sound.bounded (Nat.le_of_not_lt busy), ?_, distinct,
      sound.once, sound.taken⟩
    · simpa using succ_le_of_lt room
    · rw [← append_assoc]
      exact sound.order.append (Sublist.refl [i])
  · exact sound

theorem Sound.leave [DecidableEq ι] (sound : Sound max depth s) : Sound max depth (s.leave i) := by
  have sub : Sublist (s.waiting.erase i) s.waiting := erase_sublist
  refine ⟨sound.counted, sound.bounded, sub.length_le.trans sound.queue, fun waits => sound.busy fun none => ?_, ?_,
    sound.distinct, sound.once, sound.taken⟩
  · exact waits (sublist_nil.1 (none ▸ sub))
  · exact ((Sublist.refl s.served).append sub).trans sound.order

theorem Sound.release (sound : Sound max depth s) (served : i ∈ s.served) (holds : i ∉ s.released) :
    Sound max depth (s.release i) := by
  have once : (s.released ++ [i]).Nodup := by
    refine nodup_append.2 ⟨sound.once, nodup_singleton i, fun a old b new same => holds ?_⟩
    exact mem_singleton.1 new ▸ same ▸ old
  have taken : s.released ++ [i] ⊆ s.served := fun j mem =>
    (mem_append.1 mem).elim (fun old => sound.taken old) fun new => mem_singleton.1 new ▸ served
  have some : 0 < s.active := by
    have fewer := (once.subperm taken).length_le
    have := sound.counted
    simp only [length_append, length_singleton] at fewer
    omega
  have counted := sound.counted
  have bounded := sound.bounded
  unfold Semaphore.release
  split
  · rename_i idle
    refine ⟨?_, by dsimp only; omega, idle ▸ sound.queue, fun waits => absurd idle waits, sound.order, sound.distinct, once, taken⟩
    simp only [length_append, length_singleton]
    omega
  · rename_i next rest waits
    have queue := sound.queue
    have order := sound.order
    have full := sound.busy (by simp [waits])
    rw [waits] at queue order
    refine ⟨?_, by dsimp only; omega, le_of_succ_le queue, fun _ => by dsimp only; omega, ?_, sound.distinct, once,
      fun j mem => mem_append_left _ (taken mem)⟩
    · simp only [length_append, length_singleton]
      omega
    · simpa using order

theorem Sound.waiting_nodup (sound : Sound max depth s) : s.waiting.Nodup :=
  ((sublist_append_right _ _).trans sound.order).nodup sound.distinct

variable {j : ι}

/-- Nobody else is moved by one who arrives. -/
theorem mem_arrive (other : j ≠ i) : (j ∈ (s.arrive max depth i).waiting ↔ j ∈ s.waiting) ∧
    (j ∈ (s.arrive max depth i).served ↔ j ∈ s.served) ∧ (j ∈ (s.arrive max depth i).released ↔ j ∈ s.released) ∧
    (j ∈ (s.arrive max depth i).arrived → j ∈ s.arrived) := by
  unfold Semaphore.arrive
  split
  · simp [other]
  · split <;> simp [other]

theorem Sound.mem_waiting_release (sound : Sound max depth s) :
    j ∈ (s.release i).waiting ↔ j ∈ s.waiting ∧ s.waiting.head? ≠ some j := by
  have distinct := sound.waiting_nodup
  unfold Semaphore.release
  split
  · rename_i idle
    simp [idle]
  · rename_i next rest waits
    rw [waits] at distinct ⊢
    have absent := (nodup_cons.1 distinct).1
    simp only [mem_cons, head?_cons, ne_eq, Option.some.injEq]
    constructor
    · exact fun mem => ⟨.inr mem, fun same => absent (same ▸ mem)⟩
    · exact fun ⟨mem, other⟩ => mem.resolve_left fun same => other same.symm

theorem mem_served_release : j ∈ (s.release i).served ↔ j ∈ s.served ∨ s.waiting.head? = some j := by
  unfold Semaphore.release
  split
  · rename_i idle
    simp [idle]
  · rename_i next rest waits
    simp [waits, eq_comm]

theorem mem_released_release : j ∈ (s.release i).released ↔ j ∈ s.released ∨ j = i := by
  unfold Semaphore.release
  split <;> simp

theorem arrived_release : (s.release i).arrived = s.arrived := by
  unfold Semaphore.release
  split <;> rfl

end Semaphore
