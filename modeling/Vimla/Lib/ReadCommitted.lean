import Vimla.Lib.Rows

/-!
# Transactions under READ COMMITTED

A table whose transactions lock each row they write until they end. A read
sees the committed rows; a transaction sees its own writes on top of them, and
these become the committed rows when it commits. Two transactions that update
different rows do not wait for each other.
-/

namespace ReadCommitted

open List Rows

variable {ρ κ : Type} [DecidableEq κ]

/-- The committed rows, and which session holds the lock of a row. -/
structure Table (ρ κ : Type) where
  rows : List ρ
  lockedBy : κ → Option Nat

section Operations
variable (key : ρ → κ)

def Table.find (table : Table ρ κ) (k : κ) : Option ρ := Rows.find key k table.rows

/-- The row as a session with these writes sees it. -/
def Table.latest (table : Table ρ κ) (writes : List ρ) (k : κ) : Option ρ :=
  (Rows.find key k writes).or (table.find key k)

/-- A write takes the place of an earlier one of its row. -/
def write (row : ρ) (writes : List ρ) : List ρ := row :: writes.filter fun w => key w ≠ key row

/-- No other session holds the row. -/
def Table.free (table : Table ρ κ) (session : Nat) (k : κ) : Bool :=
  (table.lockedBy k).all fun holder => holder = session

def Table.lock (table : Table ρ κ) (session : Nat) (k : κ) : Table ρ κ :=
  { table with lockedBy := Function.update table.lockedBy k (some session) }

/-- The session ends and its locks with it. -/
def Table.release (table : Table ρ κ) (session : Nat) : Table ρ κ :=
  { table with lockedBy := fun k => if table.lockedBy k = some session then none else table.lockedBy k }

def Table.commit (table : Table ρ κ) (session : Nat) (writes : List ρ) : Table ρ κ :=
  { table.release session with rows := table.rows.map fun x => (Rows.find key (key x) writes).getD x }

end Operations

section Facts
variable {key : ρ → κ} {table : Table ρ κ} {session : Nat} {writes : List ρ} {k l : κ} {row : ρ}

theorem key_written (x : ρ) : key ((find key (key x) writes).getD x) = key x := by
  cases found : find key (key x) writes with
  | none => rfl
  | some w => exact (mem_of_find found).2

theorem keys_commit : (table.commit key session writes).rows.map key = table.rows.map key := by
  rw [Table.commit, map_map]
  exact map_congr_left fun x _ => key_written x

/-- A committed row is the one written, if there was one. -/
theorem find_commit : (table.commit key session writes).find key k =
    (table.find key k).map fun x => (Rows.find key k writes).getD x := by
  rw [Table.find, Table.commit, Rows.find_map key_written, Table.find]
  cases found : find key k table.rows with
  | none => rfl
  | some x => rw [Option.map_some, Option.map_some, (mem_of_find found).2]

/-- A committed row was written or was there before. -/
theorem mem_commit {x : ρ} (mem : x ∈ (table.commit key session writes).rows) :
    find key (key x) writes = some x ∨ x ∈ table.rows ∧ find key (key x) writes = none := by
  obtain ⟨old, listed, rfl⟩ := mem_map.1 mem
  have same : key ((find key (key old) writes).getD old) = key old := key_written old
  cases found : find key (key old) writes with
  | none =>
    right
    simpa [found] using listed
  | some w =>
    left
    rw [found, Option.getD_some] at same
    rw [Option.getD_some, same, found]

omit [DecidableEq κ] in
theorem free_iff : table.free session k = true ↔ ∀ holder, table.lockedBy k = some holder → holder = session := by
  unfold Table.free
  cases table.lockedBy k <;> simp

/-- The locks of the others stay. -/
theorem lockedBy_lock_of_ne {other : Nat} (free : table.free session l = true) (distinct : other ≠ session)
    (held : table.lockedBy k = some other) : (table.lock session l).lockedBy k = some other := by
  have apart : k ≠ l := by
    rintro rfl
    exact distinct (free_iff.1 free other held)
  simp [Table.lock, apart, held]

omit [DecidableEq κ] in
theorem lockedBy_release_of_ne {other : Nat} (distinct : other ≠ session)
    (held : table.lockedBy k = some other) : (table.release session).lockedBy k = some other := by
  simp [Table.release, held, distinct]

theorem find_write : find key k (write key row writes) =
    if key row = k then some row else find key k writes := by
  unfold write find
  by_cases same : key row = k
  · rw [if_pos same, find?_cons_of_pos (by simpa using same)]
  · rw [if_neg same, find?_cons_of_neg (by simpa using same), find?_filter]
    congr 1
    funext w
    by_cases hw : key w = k
    · have : key w ≠ key row := fun h => same (h.symm.trans hw)
      simp [hw, Ne.symm same]
    · simp [hw]

theorem mem_write {w : ρ} (mem : w ∈ write key row writes) : w = row ∨ w ∈ writes ∧ key w ≠ key row := by
  obtain rfl | mem := mem_cons.1 mem
  · exact .inl rfl
  · right
    simpa using mem_filter.1 mem

/-- A row that was written stays so. -/
theorem exists_write (written : ∃ w ∈ writes, key w = k) : ∃ w ∈ write key row writes, key w = k := by
  obtain ⟨w, mem, rfl⟩ := written
  by_cases same : key w = key row
  · exact ⟨row, mem_cons_self, same.symm⟩
  · exact ⟨w, mem_cons_of_mem _ (mem_filter.2 ⟨mem, by simpa using same⟩), rfl⟩

theorem lockedBy_lock : (table.lock session l).lockedBy k = if k = l then some session else table.lockedBy k := by
  simp [Table.lock, Function.update_apply]

end Facts

end ReadCommitted
