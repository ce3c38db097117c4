import Vimla.Lib.LongestPaths

/-!
# Topological orders by preference

Orders that always take a most preferred one of the nodes that can be taken
next, and Kahn's algorithm with a queue kept sorted, which finds one. With a
preference that tells all nodes apart there is one such order only; whatever
order there is, preferring earlier nodes of it where the preference is
undecided singles it out.
-/

namespace Kahn

open List

variable {α β : Type}

section Orders
variable (edges : List (α × α)) (nodes : List α)

/-- The node is left, and the sources of its edges are taken. -/
structure Ready (order : List α) (v : α) : Prop where
  mem : v ∈ nodes
  fresh : v ∉ order
  sources : ∀ e ∈ edges, e.2 = v → e.1 ∈ order

/-- Each node was preferred among those ready in its turn. -/
inductive Preferred (le : α → α → Prop) : List α → Prop
  | nil : Preferred le []
  | snoc {order : List α} {v : α} (before : Preferred le order) (ready : Ready edges nodes order v)
    (least : ∀ w, Ready edges nodes order w → le v w) : Preferred le (order ++ [v])

variable {edges nodes} {le le' : α → α → Prop} {order order' : List α}

section
variable (h : Preferred edges nodes le order)
include h

theorem Preferred.ordered : Ordered edges order := by
  induction h with
  | nil => exact .nil
  | snoc _ ready _ ih => exact .snoc ih ready.fresh ready.sources

theorem Preferred.known : ∀ v ∈ order, v ∈ nodes := by
  induction h with
  | nil => simp
  | snoc _ ready _ ih =>
    intro v hv
    obtain hv | hv := mem_append.1 hv
    · exact ih v hv
    · exact mem_singleton.1 hv ▸ ready.mem

theorem Preferred.mono (weaker : ∀ v ∈ nodes, ∀ w ∈ nodes, le v w → le' v w) : Preferred edges nodes le' order := by
  induction h with
  | nil => exact .nil
  | snoc _ ready least ih =>
    exact .snoc ih ready fun w hw => weaker _ ready.mem w hw.mem (least w hw)

/-- A preference between any two nodes leaves no choice. -/
theorem Preferred.unique (h' : Preferred edges nodes le order')
    (antisymm : ∀ v ∈ nodes, ∀ w ∈ nodes, le v w → le w v → v = w)
    (length : order.length = order'.length) : order = order' := by
  induction h generalizing order' with
  | nil => exact (length_eq_zero_iff.1 length.symm).symm
  | @snoc order v _ ready least ih =>
    cases h' with
    | nil => simp at length
    | @snoc order' w before' ready' least' =>
      obtain rfl := ih before' (by simpa using length)
      rw [antisymm v ready.mem w ready'.mem (least w ready') (least' v ready)]

end

/-- The order is the preferred one when what it takes earlier is preferred
among the equally preferred. -/
theorem Preferred.refine [DecidableEq α] (h : Preferred edges nodes le order) :
    Preferred edges nodes (fun v w => le v w ∧ (le w v → order.idxOf v ≤ order.idxOf w)) order := by
  have prefixes (rest : List α) : Preferred edges nodes
      (fun v w => le v w ∧ (le w v → (order ++ rest).idxOf v ≤ (order ++ rest).idxOf w)) order := by
    induction h generalizing rest with
    | nil => exact .nil
    | @snoc order v _ ready least ih =>
      rw [append_assoc]
      refine .snoc (ih _) ready fun w hw => ⟨least w hw, fun _ => ?_⟩
      rw [idxOf_append_of_notMem ready.fresh, idxOf_append_of_notMem hw.fresh,
        singleton_append, idxOf_cons_self]
      omega
  simpa using prefixes []

end Orders

section Renaming
variable {edges : List (α × α)} {nodes : List α} {edges' : List (β × β)} {f : α → β}

variable {nodes' : List β} {order : List α}

theorem Ready.map {v : α} (mem : v ∈ nodes) (injective : Set.InjOn f {u | u ∈ nodes})
    (known : ∀ u ∈ order, u ∈ nodes) (sources : ∀ e ∈ edges, e.1 ∈ nodes ∧ e.2 ∈ nodes)
    (image : ∀ e', e' ∈ edges' ↔ ∃ e ∈ edges, (f e.1, f e.2) = e')
    (members : ∀ u', u' ∈ nodes' ↔ ∃ u ∈ nodes, f u = u') :
    Ready edges' nodes' (order.map f) (f v) ↔ Ready edges nodes order v := by
  have taken {u : α} (hu : u ∈ nodes) : f u ∈ order.map f ↔ u ∈ order := by
    constructor
    · intro mapped
      obtain ⟨u', hu', same⟩ := mem_map.1 mapped
      exact injective (known u' hu') hu same ▸ hu'
    · exact mem_map_of_mem
  constructor
  · rintro ⟨-, fresh, before⟩
    refine ⟨mem, fun old => fresh (mem_map_of_mem old), ?_⟩
    rintro e he rfl
    exact (taken (sources e he).1).1 (before _ ((image _).2 ⟨e, he, rfl⟩) rfl)
  · rintro ⟨-, fresh, before⟩
    refine ⟨(members _).2 ⟨v, mem, rfl⟩, fun old => fresh ((taken mem).1 old), ?_⟩
    intro e' he' into
    obtain ⟨e, he, rfl⟩ := (image e').1 he'
    exact mem_map_of_mem (before e he (injective (sources e he).2 mem into))

/-- Renaming the nodes renames the preferred orders. -/
theorem Preferred.map {le : α → α → Prop} {le' : β → β → Prop}
    (h : Preferred edges nodes le order) (injective : Set.InjOn f {u | u ∈ nodes})
    (sources : ∀ e ∈ edges, e.1 ∈ nodes ∧ e.2 ∈ nodes)
    (image : ∀ e', e' ∈ edges' ↔ ∃ e ∈ edges, (f e.1, f e.2) = e')
    (members : ∀ u', u' ∈ nodes' ↔ ∃ u ∈ nodes, f u = u')
    (preference : ∀ v ∈ nodes, ∀ w ∈ nodes, le v w → le' (f v) (f w)) :
    Preferred edges' nodes' le' (order.map f) := by
  induction h with
  | nil => exact .nil
  | @snoc order v before ready least ih =>
    rw [map_append, map_singleton]
    refine .snoc ih ((Ready.map ready.mem injective before.known sources image members).2 ready) ?_
    intro w' hw'
    obtain ⟨w, hw, rfl⟩ := (members w').1 hw'.mem
    exact preference v ready.mem w hw
      (least w ((Ready.map hw injective before.known sources image members).1 hw'))

end Renaming

section Algorithm
variable [DecidableEq α] {edges : List (α × α)} {nodes : List α}

/-- Counting off one edge into `next`, and sorting the queue again when `next`
is put into it. -/
def relaxSorted (sort : List α → List α) (s : State α Unit) (next : α) : State α Unit :=
  let degree := s.indegree next - 1
  { s with
    indegree := Function.update s.indegree next degree
    rest := if degree = 0 then sort (s.rest ++ [next]) else s.rest }

/-- Taking the head of the queue. -/
def visitSorted (sort : List α → List α) (successors : α → List α) (s : State α Unit) : State α Unit :=
  match s.rest with
  | [] => s
  | u :: rest =>
    (successors u).foldl (relaxSorted sort) { s with rest := rest, order := s.order ++ [u] }

def runSorted (sort : List α → List α) (successors : α → List α) : Nat → State α Unit → State α Unit
  | 0, s => s
  | turns + 1, s => runSorted sort successors turns (visitSorted sort successors s)

theorem Counting.perm {σ : Type} {todo todo' : List α} {s s' : State α σ}
    (h : Counting edges nodes todo s) (todos : todo.Perm todo') (indegree : s'.indegree = s.indegree)
    (order : s'.order = s.order) (rest : s'.rest.Perm s.rest) : Counting edges nodes todo' s' := by
  have queue : (s'.order ++ s'.rest).Perm (s.order ++ s.rest) := order ▸ rest.append_left s.order
  refine ⟨?_, queue.nodup_iff.2 h.distinct, ?_, ?_⟩
  · intro v
    rw [indegree, order, ← todos.count_eq]
    exact h.degree v
  · intro v hv
    rw [queue.mem_iff, indegree]
    exact h.ready v hv
  · intro v hv
    exact h.known v (queue.mem_iff.1 hv)

/-- What holds between two turns: the queue is sorted by preference, and so
were the choices. -/
structure Chosen (le : α → α → Prop) (edges : List (α × α)) (nodes : List α) (s : State α Unit) :
    Prop where
  counting : Counting edges nodes [] s
  sorted : s.rest.Pairwise le
  preferred : Preferred edges nodes le s.order

variable {le : α → α → Prop} {s : State α Unit}

theorem Chosen.toSorted (h : Chosen le edges nodes s) : Sorted edges nodes s := ⟨h.counting, h.preferred.ordered⟩

section Turns
variable {le : α → α → Prop} {sort : List α → List α} {s : State α Unit}
  (perm : ∀ l, (sort l).Perm l) (pairwise : ∀ l, (∀ v ∈ l, v ∈ nodes) → (sort l).Pairwise le)
include perm pairwise

variable {todo : List α}

theorem relaxSorted_counting {next : α} (h : Counting edges nodes (next :: todo) s) (mem : next ∈ nodes)
    (sorted : s.rest.Pairwise le) : Counting edges nodes todo (relaxSorted sort s next) ∧
      (relaxSorted sort s next).rest.Pairwise le := by
  constructor
  · refine (h.relax mem fun _ _ => ()).perm (.refl _) rfl rfl ?_
    simp only [relaxSorted, relax]
    split
    · exact perm _
    · exact .refl _
  · simp only [relaxSorted]
    split
    · apply pairwise
      intro v hv
      obtain hv | hv := mem_append.1 hv
      · exact h.known v (mem_append_right _ hv)
      · exact mem_singleton.1 hv ▸ mem
    · exact sorted

theorem relaxesSorted_counting (h : Counting edges nodes todo s) (mem : ∀ v ∈ todo, v ∈ nodes)
    (sorted : s.rest.Pairwise le) : Counting edges nodes [] (todo.foldl (relaxSorted sort) s) ∧
      (todo.foldl (relaxSorted sort) s).rest.Pairwise le := by
  induction todo generalizing s with
  | nil => exact ⟨h, sorted⟩
  | cons next todo ih =>
    obtain ⟨counting, sorted⟩ := relaxSorted_counting perm pairwise h (mem next mem_cons_self) sorted
    exact ih counting (fun v hv => mem v (mem_cons_of_mem next hv)) sorted

omit perm pairwise in
theorem relaxesSorted_order (todo : List α) (s : State α Unit) :
    (todo.foldl (relaxSorted sort) s).order = s.order := by
  induction todo generalizing s with
  | nil => rfl
  | cons next todo ih => exact ih _

section
variable (h : Chosen le edges nodes s) (closed : ∀ e ∈ edges, e.2 ∈ nodes) (reflexive : ∀ v, le v v)
  {next : α → List α} (listed : ∀ u, (next u).Perm (successors edges u))
include h closed reflexive listed

theorem Chosen.visit :
    Chosen le edges nodes (visitSorted sort next s) := by
  unfold visitSorted
  cases hrest : s.rest with
  | nil => exact h
  | cons u rest =>
    have sorted := hrest ▸ h.sorted
    obtain ⟨known, fresh, sources, taken⟩ := h.counting.taken hrest (listed u)
    obtain ⟨counting, sorted'⟩ := relaxesSorted_counting perm pairwise taken
      (fun v hv => successors_mem closed ((listed u).mem_iff.1 hv)) (pairwise_cons.1 sorted).2
    refine ⟨counting, sorted', ?_⟩
    rw [relaxesSorted_order]
    refine .snoc h.preferred ⟨known, fresh, sources⟩ ?_
    intro w hw
    -- What is ready is in the queue, and its head is preferred there.
    obtain old | waits := mem_append.1 ((h.counting.ready w hw.mem).2 ((h.counting.zero w).2 hw.sources))
    · exact absurd old hw.fresh
    · rw [hrest] at waits
      obtain rfl | later := mem_cons.1 waits
      · exact reflexive w
      · exact (pairwise_cons.1 sorted).1 w later

theorem Chosen.run (turns : Nat) : Chosen le edges nodes (runSorted sort next turns s) := by
  induction turns generalizing s with
  | zero => exact h
  | succ turns ih => exact ih (h.visit perm pairwise closed reflexive listed)

/-- As many turns as there are nodes empty the queue. -/
theorem runSorted_exhausts {turns : Nat} (enough : nodes.length ≤ s.order.length + turns) :
    (runSorted sort next turns s).rest = [] := by
  induction turns generalizing s with
  | zero =>
    have := h.counting.length_le
    exact length_eq_zero_iff.1 (show s.rest.length = 0 by omega)
  | succ turns ih =>
    cases hrest : s.rest with
    | nil =>
      have stays : visitSorted sort next s = s := by simp [visitSorted, hrest]
      have idle (n : Nat) : runSorted sort next n s = s := by
        induction n with
        | zero => rfl
        | succ n ih => rw [runSorted, stays, ih]
      rw [idle, hrest]
    | cons u rest =>
      apply ih (h.visit perm pairwise closed reflexive listed)
      have longer : (visitSorted sort next s).order.length = s.order.length + 1 := by
        simp [visitSorted, hrest, relaxesSorted_order]
      omega

end

end Turns

/-- The start, with a sorted queue. -/
theorem init_chosen (edges : List (α × α)) (distinct : nodes.Nodup)
    (indegree : s.indegree = (init edges nodes ()).indegree) (order : s.order = [])
    (rest : s.rest.Perm (init edges nodes ()).rest) (sorted : s.rest.Pairwise le) : Chosen le edges nodes s := by
  refine ⟨(init_sorted edges distinct ()).counting.perm (.refl _) indegree order rest, sorted, ?_⟩
  rw [order]
  exact .nil

end Algorithm

end Kahn
