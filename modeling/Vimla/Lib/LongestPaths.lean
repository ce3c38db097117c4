import Vimla.Lib.Kahn

/-!
# Longest paths

Walks of a graph given as a list of edges, and what Kahn's algorithm computes
along them: it takes every node exactly when there is no cycle, and a depth
that is raised along each counted edge ends as the length of a longest walk.
-/

namespace Kahn

open List

variable {α : Type}

section Walks
variable (edges : List (α × α))

/-- `Walk edges u v n`: `n` edges lead from `u` to `v`. -/
inductive Walk : α → α → Nat → Prop
  | here (v : α) : Walk v v 0
  | step {u v w : α} {n : Nat} (walk : Walk u v n) (edge : (v, w) ∈ edges) : Walk u w (n + 1)

def Acyclic : Prop := ∀ v n, ¬ Walk edges v v (n + 1)

/-- No walk to `v` is longer than `n`, and one is as long. -/
structure Longest (v : α) (n : Nat) : Prop where
  walk : ∃ u, Walk edges u v n
  bound : ∀ u m, Walk edges u v m → m ≤ n

variable {edges} {u v w : α} {m n : Nat}

theorem Walk.append (h : Walk edges u v m) (h' : Walk edges v w n) : Walk edges u w (m + n) := by
  induction h' with
  | here => exact h
  | step _ edge ih => exact .step ih edge

theorem Walk.last (h : Walk edges u v (n + 1)) : ∃ w, Walk edges u w n ∧ (w, v) ∈ edges := by
  cases h with
  | step walk edge => exact ⟨_, walk, edge⟩

/-- A longest walk to every node on it leaves no room for a cycle. -/
theorem Longest.no_cycle (h : Longest edges v n) : ¬ Walk edges v v (m + 1) := by
  intro cycle
  obtain ⟨u, walk⟩ := h.walk
  have := h.bound u _ (walk.append cycle)
  omega

/-- Without a cycle, among finitely many nodes one has no predecessor there. -/
theorem Acyclic.source (acyclic : Acyclic edges) {nodes : List α} (some : nodes ≠ []) :
    ∃ v ∈ nodes, ∀ e ∈ edges, e.2 = v → e.1 ∉ nodes := by
  let before (a b : {v // v ∈ nodes}) : Prop := ∃ n, Walk edges a.1 b.1 (n + 1)
  have trans : IsTrans _ before := by
    constructor
    rintro a b c ⟨m, walk⟩ ⟨n, walk'⟩
    refine ⟨m + 1 + n, ?_⟩
    exact walk.append walk'
  have irrefl : Std.Irrefl before := by
    constructor
    rintro a ⟨n, walk⟩
    exact acyclic a.1 n walk
  have finite : Finite {v // v ∈ nodes} := finite_toSet nodes
  have wf : WellFounded before := Finite.wellFounded_of_trans_of_irrefl before
  obtain ⟨v, hv⟩ := exists_mem_of_ne_nil nodes some
  obtain ⟨first, -, least⟩ := wf.has_min Set.univ ⟨⟨v, hv⟩, trivial⟩
  refine ⟨first.1, first.2, ?_⟩
  rintro ⟨a, b⟩ edge rfl mem
  exact least ⟨a, mem⟩ trivial ⟨0, .step (.here a) edge⟩

end Walks

section Positions
variable {edges : List (α × α)} {order : List α} {e : α × α}

theorem Ordered.sources (h : Ordered edges order) (edge : e ∈ edges)
    (mem : e.2 ∈ order) : e.1 ∈ order := by
  induction h with
  | nil => cases mem
  | @snoc order v before fresh ready ih =>
    apply mem_append_left
    obtain mem | mem := mem_append.1 mem
    · exact ih mem
    · exact ready e edge (mem_singleton.1 mem)

/-- The source of an edge stands before its target. -/
theorem Ordered.idxOf_lt [DecidableEq α] (h : Ordered edges order) (edge : e ∈ edges) (mem : e.2 ∈ order) :
    order.idxOf e.1 < order.idxOf e.2 := by
  induction h with
  | nil => cases mem
  | @snoc order v before fresh ready ih =>
    by_cases old : e.2 ∈ order
    · rw [idxOf_append_of_mem (before.sources edge old), idxOf_append_of_mem old]
      exact ih old
    · obtain mem | mem := mem_append.1 mem
      · exact absurd mem old
      · have source := ready e edge (mem_singleton.1 mem)
        rw [idxOf_append_of_mem source, idxOf_append_of_notMem old]
        have := idxOf_lt_length_of_mem source
        omega

end Positions

section Algorithm
variable [DecidableEq α] {σ : Type} {edges : List (α × α)} {nodes : List α}

/-- An emptied queue leaves out a node only when there is a cycle. -/
theorem Sorted.all {s : State α σ} (h : Sorted edges nodes s) (acyclic : Acyclic edges)
    (known : ∀ e ∈ edges, e.1 ∈ nodes) (empty : s.rest = []) : ∀ v ∈ nodes, v ∈ s.order := by
  by_contra missing
  have left : nodes.filter (· ∉ s.order) ≠ [] := by
    intro none
    apply missing
    intro v hv
    by_contra out
    have : v ∈ nodes.filter (· ∉ s.order) := mem_filter.2 ⟨hv, by simpa using out⟩
    rw [none] at this
    cases this
  obtain ⟨v, hv, first⟩ := acyclic.source left
  obtain ⟨hv, out⟩ := mem_filter.1 hv
  have out : v ∉ s.order := by simpa using out
  have queued := h.counting.ready v hv
  rw [empty, append_nil] at queued
  apply out
  rw [queued, h.counting.degree v, count_nil]
  have zero : waiting edges s.order v = 0 := by
    rw [waiting_eq_zero]
    intro e edge into
    by_contra source
    exact first e edge into (mem_filter.2 ⟨known e edge, by simpa using source⟩)
  omega

/-- Taking `u` lifts `next` above it. -/
def deepen (depths : α → Option Nat) (u : α) (depth : α → Option Nat) (next : α) : α → Option Nat :=
  Function.update depth next (some (max ((depth next).getD 0) ((depths u).getD 0 + 1)))

theorem relaxes_data (record : σ → α → σ) (todo : List α) (s : State α σ) :
    (todo.foldl (relax record) s).data = todo.foldl record s.data := by
  induction todo generalizing s with
  | nil => rfl
  | cons next todo ih => exact ih _

theorem mem_relaxes_rest {record : σ → α → σ} {todo : List α} {s : State α σ} {v : α}
    (mem : v ∈ (todo.foldl (relax record) s).rest) : v ∈ s.rest ∨ v ∈ todo := by
  induction todo generalizing s with
  | nil => exact .inl mem
  | cons next todo ih =>
    obtain queued | later := ih mem
    · unfold relax at queued
      simp only at queued
      split at queued
      · obtain old | new := mem_append.1 queued
        · exact .inl old
        · rw [mem_singleton.1 new]
          exact .inr mem_cons_self
      · exact .inl queued
    · exact .inr (mem_cons_of_mem next later)

/-- Several edges to one node lift it once. -/
theorem deepens_eq (depths : α → Option Nat) (u : α) (todo : List α) (depth : α → Option Nat) (v : α) :
    todo.foldl (deepen depths u) depth v = if v ∈ todo then
      some (max ((depth v).getD 0) ((depths u).getD 0 + 1)) else depth v := by
  induction todo generalizing depth with
  | nil => rfl
  | cons next todo ih =>
    rw [foldl_cons, ih]
    by_cases own : v = next
    · subst own
      simp [deepen]
    · simp [deepen, own, Function.update_of_ne]

/-- What the recorded depths say between two turns. -/
structure Deep (edges : List (α × α)) (s : State α (α → Option Nat)) : Prop where
  attained : ∀ v d, s.data v = some d → ∃ u, Walk edges u v d
  queued : ∀ v ∈ s.order ++ s.rest, ∃ d, s.data v = some d
  taken : ∀ e ∈ edges, e.1 ∈ s.order →
    ∃ c d, s.data e.1 = some c ∧ s.data e.2 = some d ∧ c < d

theorem mem_successors {u v : α} : v ∈ successors edges u ↔ (u, v) ∈ edges := by
  simp [successors]

variable {s : State α (α → Option Nat)}

theorem Deep.visit (h : Deep edges s) (sorted : Sorted edges nodes s) :
    Deep edges (visit (successors edges) deepen s) := by
  unfold Kahn.visit
  cases hrest : s.rest with
  | nil => exact h
  | cons u rest =>
    have head : u ∈ s.order ++ s.rest := by
      rw [hrest]
      exact mem_append_right _ mem_cons_self
    obtain ⟨c, depth⟩ := h.queued u head
    have data (v : α) : ((successors edges u).foldl (relax (deepen s.data u))
        { s with rest := rest, order := s.order ++ [u] }).data v =
        if (u, v) ∈ edges then some (max ((s.data v).getD 0) (c + 1)) else s.data v := by
      rw [relaxes_data, deepens_eq]
      simp [mem_successors, depth, Option.getD_some]
    -- All sources of `u` are taken, and `u` is not.
    have fresh : u ∉ s.order := fun hu =>
      (nodup_append.1 (hrest ▸ sorted.counting.distinct)).2.2 u hu u mem_cons_self rfl
    have ready : ∀ e ∈ edges, e.2 = u → e.1 ∈ s.order := by
      rw [← waiting_eq_zero]
      have zero := (sorted.counting.ready u (sorted.counting.known u head)).1 head
      have degree := sorted.counting.degree u
      omega
    have untouched : ∀ v ∈ s.order ++ [u], (u, v) ∉ edges := by
      intro v hv edge
      obtain hv | hv := mem_append.1 hv
      · exact fresh (sorted.ordered.sources edge hv)
      · exact fresh (ready _ edge (mem_singleton.1 hv))
    constructor
    · intro v d hd
      rw [data] at hd
      split at hd
      · rename_i edge
        cases hd
        obtain ⟨w, walk⟩ := h.attained u c depth
        cases old : s.data v with
        | none =>
          exact ⟨w, .step walk edge⟩
        | some d₀ =>
          rw [Option.getD_some]
          obtain ⟨w', walk'⟩ := h.attained v d₀ old
          obtain e | e := max_choice d₀ (c + 1)
          · rw [e]
            exact ⟨w', walk'⟩
          · rw [e]
            exact ⟨w, .step walk edge⟩
      · exact h.attained v d hd
    · intro v hv
      rw [data]
      split
      · exact ⟨_, rfl⟩
      · rename_i other
        apply h.queued
        rw [relaxes_order, hrest] at *
        obtain hv | hv := mem_append.1 hv
        · obtain hv | hv := mem_append.1 hv
          · exact mem_append_left _ hv
          · rw [mem_singleton.1 hv]
            exact head
        · obtain hv | hv := mem_relaxes_rest hv
          · exact mem_append_right _ (mem_cons_of_mem u hv)
          · exact absurd (mem_successors.1 hv) other
    · rintro ⟨a, b⟩ edge source
      rw [relaxes_order] at source
      rw [data, data, if_neg (untouched a source)]
      obtain old | new := mem_append.1 source
      · obtain ⟨c', d, hc, hd, less⟩ := h.taken _ edge old
        by_cases again : (u, b) ∈ edges
        · rw [if_pos again]
          refine ⟨c', _, hc, rfl, ?_⟩
          rw [show s.data (a, b).2 = some d from hd, Option.getD_some]
          omega
        · rw [if_neg again]
          exact ⟨c', d, hc, hd, less⟩
      · obtain rfl : a = u := mem_singleton.1 new
        rw [if_pos edge]
        refine ⟨c, _, depth, rfl, ?_⟩
        omega

theorem Deep.run (h : Deep edges s) (sorted : Sorted edges nodes s) (closed : ∀ e ∈ edges, e.2 ∈ nodes)
    (fuel : Nat) : Deep edges (run (successors edges) deepen fuel s) := by
  induction fuel generalizing s with
  | zero => exact h
  | succ fuel ih => exact ih (h.visit sorted) (sorted.visit closed deepen)

omit [DecidableEq α] in
/-- A node that was taken has the depth of a longest walk to it. -/
theorem Deep.longest (h : Deep edges s) (ordered : Ordered edges s.order) {v : α} (mem : v ∈ s.order) :
    ∃ d, s.data v = some d ∧ Longest edges v d := by
  obtain ⟨d, depth⟩ := h.queued v (mem_append_left _ mem)
  refine ⟨d, depth, h.attained v d depth, ?_⟩
  intro u m walk
  induction walk generalizing d with
  | here => exact Nat.zero_le d
  | @step v w n walk edge ih =>
    have source := ordered.sources edge mem
    obtain ⟨c, d', hc, hd, less⟩ := h.taken _ edge source
    have := ih source c hc
    rw [depth] at hd
    cases hd
    omega

end Algorithm

end Kahn
