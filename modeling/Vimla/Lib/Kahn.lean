import Mathlib

/-!
# Topological sorting

Kahn's algorithm over a list of edges, in which a pair may occur more than
once. A node is queued when the last edge into it has been counted off. When
every node was taken, each comes after the sources of its edges; so any
property that some node has is had by a node none of whose sources has it.
-/

namespace Kahn

open List Function

variable {α : Type}

section Orders
variable (edges : List (α × α))

/-- Each node of the list comes after the sources of the edges into it. -/
inductive Ordered : List α → Prop
  | nil : Ordered []
  | snoc {order : List α} {v : α} (before : Ordered order) (fresh : v ∉ order)
    (ready : ∀ e ∈ edges, e.2 = v → e.1 ∈ order) : Ordered (order ++ [v])

variable {edges} {order : List α}

theorem Ordered.nodup (h : Ordered edges order) : order.Nodup := by
  induction h with
  | nil => exact nodup_nil
  | snoc _ fresh _ ih =>
    refine nodup_append.2 ⟨ih, nodup_singleton _, ?_⟩
    rintro a ha b hb rfl
    rw [mem_singleton.1 hb] at ha
    exact fresh ha

/-- A property of some node is first had by a node none of whose sources has it. -/
theorem Ordered.minimal (h : Ordered edges order) {P : α → Prop} (some : ∃ v ∈ order, P v) :
    ∃ v ∈ order, P v ∧ ∀ e ∈ edges, e.2 = v → e.1 ∈ order ∧ ¬ P e.1 := by
  induction h with
  | nil =>
    obtain ⟨v, hv, -⟩ := some
    cases hv
  | @snoc order v before fresh ready ih =>
    by_cases earlier : ∃ u ∈ order, P u
    · obtain ⟨u, hu, hP, sources⟩ := ih earlier
      refine ⟨u, mem_append_left _ hu, hP, ?_⟩
      intro e he into
      obtain ⟨mem, not⟩ := sources e he into
      exact ⟨mem_append_left _ mem, not⟩
    · obtain ⟨u, hu, hP⟩ := some
      rcases mem_append.1 hu with hu | hu
      · exact absurd ⟨u, hu, hP⟩ earlier
      · rw [mem_singleton.1 hu] at hP
        refine ⟨v, mem_append_right _ (mem_singleton_self v), hP, ?_⟩
        intro e he into
        have source := ready e he into
        exact ⟨mem_append_left _ source, fun hP => earlier ⟨e.1, source, hP⟩⟩

variable [DecidableEq α]

/-- The edges into `v` whose source is not `done`. -/
def waiting (edges : List (α × α)) (done : List α) (v : α) : Nat :=
  edges.countP fun e => e.2 = v ∧ e.1 ∉ done

def successors (edges : List (α × α)) (u : α) : List α :=
  (edges.filter fun e => e.1 = u).map Prod.snd

variable {done : List α}

theorem waiting_eq_zero {v : α} : waiting edges done v = 0 ↔ ∀ e ∈ edges, e.2 = v → e.1 ∈ done := by
  simp [waiting]

/-- Taking a node counts off its edges. -/
theorem waiting_snoc {u : α} (fresh : u ∉ done) (v : α) :
    waiting edges done v = waiting edges (done ++ [u]) v + (successors edges u).count v := by
  induction edges with
  | nil => rfl
  | cons e edges ih =>
    simp only [waiting, successors, countP_cons, filter_cons, decide_eq_true_eq] at ih ⊢
    rw [ih]
    by_cases own : e.1 = u
    · by_cases into : e.2 = v
      · simp [own, into, fresh]
        omega
      · simp [own, into]
    · by_cases into : e.2 = v <;> by_cases old : e.1 ∈ done <;>
        simp [own, into, old, Nat.add_right_comm]

end Orders

/-- `order` has been taken from the queue and `rest` is still in it; `data` is
what the caller records along the edges. -/
structure State (α σ : Type) where
  indegree : α → Int
  rest : List α
  order : List α
  data : σ

section Algorithm
variable [DecidableEq α] {σ : Type}

/-- Counting off one edge into `next`. -/
def relax (record : σ → α → σ) (s : State α σ) (next : α) : State α σ :=
  let degree := s.indegree next - 1
  { s with
    data := record s.data next
    indegree := update s.indegree next degree
    rest := if degree = 0 then s.rest ++ [next] else s.rest }

/-- Taking the head of the queue. -/
def visit (successors : α → List α) (record : σ → α → σ → α → σ) (s : State α σ) : State α σ :=
  match s.rest with
  | [] => s
  | u :: rest =>
    (successors u).foldl (relax (record s.data u)) { s with rest := rest, order := s.order ++ [u] }

def run (successors : α → List α) (record : σ → α → σ → α → σ) : Nat → State α σ → State α σ
  | 0, s => s
  | fuel + 1, s => run successors record fuel (visit successors record s)

variable {edges : List (α × α)} {nodes : List α} {s : State α σ}

/-- The invariant, while the edges to `todo` are still to be counted off. -/
structure Counting (edges : List (α × α)) (nodes : List α) (todo : List α) (s : State α σ) : Prop where
  degree : ∀ v, s.indegree v = waiting edges s.order v + todo.count v
  distinct : (s.order ++ s.rest).Nodup
  ready : ∀ v ∈ nodes, v ∈ s.order ++ s.rest ↔ s.indegree v = 0
  known : ∀ v ∈ s.order ++ s.rest, v ∈ nodes

variable {todo : List α}

theorem Counting.relax {next : α} (h : Counting edges nodes (next :: todo) s) (mem : next ∈ nodes)
    (record : σ → α → σ) : Counting edges nodes todo (relax record s next) := by
  have positive : 0 < s.indegree next := by
    rw [h.degree next, count_cons_self]
    omega
  have fresh : next ∉ s.order ++ s.rest := by
    intro queued
    have := (h.ready next mem).1 queued
    omega
  have degree (v : α) : (Kahn.relax record s next).indegree v =
      waiting edges s.order v + todo.count v := by
    have := h.degree v
    simp only [Kahn.relax, update_apply]
    by_cases own : v = next
    · subst own
      rw [count_cons_self] at this
      simp only [if_true]
      omega
    · rw [count_cons_of_ne (Ne.symm own)] at this
      simpa only [own, if_false] using this
  have members (v : α) : v ∈ s.order ++ (Kahn.relax record s next).rest ↔
      v ∈ s.order ++ s.rest ∨ (v = next ∧ s.indegree next - 1 = 0) := by
    simp only [Kahn.relax]
    split
    · rename_i zero
      simp [zero, or_assoc]
    · rename_i zero
      simp [zero]
  refine ⟨degree, ?_, ?_, ?_⟩
  · simp only [Kahn.relax]
    split
    · rw [← append_assoc]
      refine nodup_append.2 ⟨h.distinct, nodup_singleton next, ?_⟩
      rintro a ha b hb rfl
      rw [mem_singleton.1 hb] at ha
      exact fresh ha
    · exact h.distinct
  · intro v hv
    have order : (Kahn.relax record s next).order = s.order := rfl
    rw [order, members]
    simp only [Kahn.relax, update_apply]
    by_cases own : v = next
    · subst own
      simp [fresh]
    · simpa [own] using h.ready v hv
  · intro v hv
    have order : (Kahn.relax record s next).order = s.order := rfl
    rw [order, members] at hv
    rcases hv with hv | ⟨rfl, -⟩
    · exact h.known v hv
    · exact mem

theorem Counting.relaxes (h : Counting edges nodes todo s) (mem : ∀ v ∈ todo, v ∈ nodes) (record : σ → α → σ) :
    Counting edges nodes [] (todo.foldl (Kahn.relax record) s) := by
  induction todo generalizing s with
  | nil => exact h
  | cons next todo ih =>
    exact ih (h.relax (mem next mem_cons_self) record) fun v hv =>
      mem v (mem_cons_of_mem next hv)

theorem relaxes_order (record : σ → α → σ) (todo : List α) (s : State α σ) :
    (todo.foldl (relax record) s).order = s.order := by
  induction todo generalizing s with
  | nil => rfl
  | cons next todo ih => exact ih _

theorem Counting.zero (h : Counting edges nodes [] s) (v : α) : s.indegree v = 0 ↔ ∀ e ∈ edges, e.2 = v → e.1 ∈ s.order := by
  rw [← waiting_eq_zero, h.degree v, count_nil]
  omega

/-- The head of the queue is new, its sources are taken, and its edges are next. -/
theorem Counting.taken {u : α} {rest next : List α} (h : Counting edges nodes [] s) (head : s.rest = u :: rest)
    (listed : next.Perm (successors edges u)) : u ∈ nodes ∧ u ∉ s.order ∧ (∀ e ∈ edges, e.2 = u → e.1 ∈ s.order) ∧
      Counting edges nodes next { s with rest := rest, order := s.order ++ [u] } := by
  obtain ⟨degree, distinct, ready, known⟩ := id h
  rw [head] at distinct ready known
  have queued : u ∈ s.order ++ u :: rest := mem_append_right _ mem_cons_self
  have fresh : u ∉ s.order := fun hu => (nodup_append.1 distinct).2.2 u hu u mem_cons_self rfl
  have split : s.order ++ [u] ++ rest = s.order ++ u :: rest := by simp
  refine ⟨known u queued, fresh, (h.zero u).1 ((ready u (known u queued)).1 queued), fun v => ?_, split ▸ distinct,
    split ▸ ready, split ▸ known⟩
  rw [degree, waiting_snoc fresh v, listed.count_eq]
  simp

theorem successors_mem (closed : ∀ e ∈ edges, e.2 ∈ nodes) {u v : α} (hv : v ∈ successors edges u) : v ∈ nodes := by
  obtain ⟨e, he, rfl⟩ := mem_map.1 hv
  exact closed e (mem_filter.1 he).1

theorem Counting.length_le (h : Counting edges nodes todo s) : s.order.length + s.rest.length ≤ nodes.length := by
  rw [← length_append]
  exact (List.Nodup.subperm h.distinct h.known).length_le

/-- The invariant between two turns. -/
structure Sorted (edges : List (α × α)) (nodes : List α) (s : State α σ) : Prop where
  counting : Counting edges nodes [] s
  ordered : Ordered edges s.order

section
variable (h : Sorted edges nodes s) (closed : ∀ e ∈ edges, e.2 ∈ nodes) (record : σ → α → σ → α → σ)
include h closed record

theorem Sorted.visit : Sorted edges nodes (visit (successors edges) record s) := by
  unfold Kahn.visit
  cases hrest : s.rest with
  | nil => exact h
  | cons u rest =>
    obtain ⟨-, fresh, sources, taken⟩ := h.counting.taken hrest (.refl _)
    refine ⟨taken.relaxes (fun v => successors_mem closed) _, ?_⟩
    rw [relaxes_order]
    exact .snoc h.ordered fresh sources

theorem Sorted.run (fuel : Nat) :
    Sorted edges nodes (run (successors edges) record fuel s) := by
  induction fuel generalizing s with
  | zero => exact h
  | succ fuel ih => exact ih (h.visit closed record)

end

/-- The start: every node with no edge into it is queued. -/
def init (edges : List (α × α)) (nodes : List α) (data : σ) : State α σ where
  indegree := fun v => edges.countP fun e => e.2 = v
  rest := nodes.filter fun v => (edges.countP fun e => e.2 = v) = 0
  order := []
  data := data

theorem init_sorted (edges : List (α × α)) (distinct : nodes.Nodup) (data : σ) :
    Sorted edges nodes (init edges nodes data) := by
  refine ⟨⟨?_, ?_, ?_, ?_⟩, .nil⟩
  · intro v
    simp [init, waiting]
  · exact distinct.filter _
  · intro v hv
    simp [init, hv]
  · intro v hv
    exact (mem_filter.1 hv).1

/-- As many turns as there are nodes empty the queue. -/
theorem run_exhausts (h : Sorted edges nodes s) (closed : ∀ e ∈ edges, e.2 ∈ nodes)
    (record : σ → α → σ → α → σ) {fuel : Nat} (enough : nodes.length ≤ s.order.length + fuel) :
    (run (successors edges) record fuel s).rest = [] := by
  induction fuel generalizing s with
  | zero =>
    have := h.counting.length_le
    exact length_eq_zero_iff.1 (show s.rest.length = 0 by omega)
  | succ fuel ih =>
    cases hrest : s.rest with
    | nil =>
      have stays : visit (successors edges) record s = s := by simp [visit, hrest]
      have idle (n : Nat) : Kahn.run (successors edges) record n s = s := by
        induction n with
        | zero => rfl
        | succ n ih => rw [Kahn.run, stays, ih]
      rw [idle, hrest]
    | cons u rest =>
      apply ih (h.visit closed record)
      have longer : (visit (successors edges) record s).order.length = s.order.length + 1 := by
        simp [visit, hrest, relaxes_order]
      omega

/-- When as many nodes were taken as there are, all were. -/
theorem Sorted.complete (h : Sorted edges nodes s) (all : s.order.length = nodes.length) :
    ∀ v ∈ nodes, v ∈ s.order := by
  have known : ∀ v ∈ s.order, v ∈ nodes := fun v hv =>
    h.counting.known v (mem_append_left _ hv)
  have perm := (List.Nodup.subperm h.ordered.nodup known).perm_of_length_le (Nat.le_of_eq all.symm)
  exact fun v hv => perm.mem_iff.2 hv

end Algorithm

end Kahn
