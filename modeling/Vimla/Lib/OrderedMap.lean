import Mathlib

/-!
# Maps in insertion order

A map with its entries in the order they were set in, one for each key. A key
that is set again keeps its place.
-/

structure OrderedMap (κ ν : Type) where
  entries : List (κ × ν)
  nodup : (entries.map Prod.fst).Nodup

namespace OrderedMap

open List Option Prod

variable {κ ν : Type} [DecidableEq κ]

omit [DecidableEq κ] in
theorem ext_entries {a b : OrderedMap κ ν} (h : a.entries = b.entries) : a = b := by
  cases a
  cases h
  rfl

def empty : OrderedMap κ ν := ⟨[], nodup_nil⟩

def get (m : OrderedMap κ ν) (k : κ) : Option ν := (m.entries.find? fun e => e.1 = k).map snd

def setEntry (k : κ) (v : ν) : List (κ × ν) → List (κ × ν)
  | [] => [(k, v)]
  | e :: rest => if e.1 = k then (k, v) :: rest else e :: setEntry k v rest

variable {entries : List (κ × ν)} {v : ν}

theorem mem_keys_setEntry {k o : κ} :
    o ∈ (setEntry k v entries).map fst ↔ o = k ∨ o ∈ entries.map fst := by
  induction entries with
  | nil => simp [setEntry]
  | cons e rest ih =>
    by_cases same : e.1 = k
    · simp [setEntry, same]
    · rw [setEntry, if_neg same, map_cons, mem_cons, ih, map_cons, mem_cons]
      exact or_left_comm

variable {k : κ}

theorem nodup_setEntry (nd : (entries.map fst).Nodup) :
    ((setEntry k v entries).map fst).Nodup := by
  induction entries with
  | nil => simp [setEntry]
  | cons e rest ih =>
    by_cases same : e.1 = k
    · simpa [setEntry, same] using nd
    · rw [setEntry, if_neg same, map_cons]
      rw [map_cons, nodup_cons] at nd
      refine nodup_cons.2 ⟨fun mem => ?_, ih nd.2⟩
      obtain key | mem := mem_keys_setEntry.1 mem
      · exact same key
      · exact nd.1 mem

def set (m : OrderedMap κ ν) (k : κ) (v : ν) : OrderedMap κ ν := ⟨setEntry k v m.entries, nodup_setEntry m.nodup⟩

def erase (m : OrderedMap κ ν) (k : κ) : OrderedMap κ ν :=
  ⟨m.entries.filter fun e => e.1 ≠ k, m.nodup.sublist (filter_sublist.map fst)⟩

def mapValues (f : ν → ν) (m : OrderedMap κ ν) : OrderedMap κ ν :=
  ⟨m.entries.map fun e => (e.1, f e.2), by simpa [Function.comp_def] using m.nodup⟩

/-- The entries whose value meets `p`. -/
def filterValues (p : ν → Bool) (m : OrderedMap κ ν) : OrderedMap κ ν :=
  ⟨m.entries.filter fun e => p e.2, m.nodup.sublist (filter_sublist.map fst)⟩

def anyValue (p : ν → Bool) (m : OrderedMap κ ν) : Bool := m.entries.any fun e => p e.2

/-- The map that is built by setting entries one by one. -/
def ofEntries (entries : List (κ × ν)) : OrderedMap κ ν := entries.foldl (fun m e => m.set e.1 e.2) empty

section Reads
variable {m : OrderedMap κ ν} {k o : κ} {v : ν}

@[simp] theorem get_empty : (empty : OrderedMap κ ν).get k = none := rfl

@[simp] theorem get_set_self : (m.set k v).get k = some v := by
  obtain ⟨entries, nd⟩ := m
  simp only [get, set]
  clear nd
  induction entries with
  | nil => simp [setEntry]
  | cons e rest ih =>
    by_cases same : e.1 = k
    · simp [setEntry, same]
    · simpa [setEntry, same] using ih

theorem get_set_ne (other : o ≠ k) : (m.set k v).get o = m.get o := by
  obtain ⟨entries, nd⟩ := m
  simp only [get, set]
  clear nd
  induction entries with
  | nil => simp [setEntry, other.symm]
  | cons e rest ih =>
    by_cases same : e.1 = k
    · subst same
      simp [setEntry, other.symm]
    · by_cases found : e.1 = o
      · subst found
        simp [setEntry, same]
      · simpa [setEntry, same, found] using ih

@[simp] theorem get_erase_self : (m.erase k).get k = none := by
  simp [get, erase, find?_filter]

theorem get_erase_ne (other : o ≠ k) : (m.erase k).get o = m.get o := by
  obtain ⟨entries, nd⟩ := m
  simp only [get, erase]
  clear nd
  induction entries with
  | nil => rfl
  | cons e rest ih =>
    by_cases same : e.1 = k
    · subst same
      simpa [other.symm] using ih
    · by_cases found : e.1 = o
      · simp [found, other]
      · simpa [same, found] using ih

theorem get_eq_some : m.get k = some v ↔ (k, v) ∈ m.entries := by
  constructor
  · intro found
    obtain ⟨e, here, rfl⟩ := map_eq_some_iff.1 found
    obtain rfl : e.1 = k := by simpa using find?_some here
    exact mem_of_find?_eq_some here
  · intro mem
    have least : m.entries.find? (fun e => e.1 = k) = some (k, v) := by
      obtain ⟨entries, nd⟩ := m
      induction entries with
      | nil => simp at mem
      | cons e rest ih =>
        rw [map_cons, nodup_cons] at nd
        obtain rfl | mem := mem_cons.1 mem
        · simp
        · have other : e.1 ≠ k := by
            rintro rfl
            exact nd.1 (mem_map.2 ⟨_, mem, rfl⟩)
          rw [find?_cons_of_neg (by simpa using other)]
          exact ih nd.2 mem
    rw [get, least]
    rfl

@[simp] theorem get_mapValues {f : ν → ν} : (m.mapValues f).get k = (m.get k).map f := by
  simp [get, mapValues, find?_map, Option.map_map, Function.comp_def]

variable {p : ν → Bool}

@[simp] theorem get_filterValues : (m.filterValues p).get k = (m.get k).filter p := by
  refine ext fun v => ?_
  rw [get_eq_some, filter_eq_some_iff, get_eq_some]
  simp [filterValues]

theorem anyValue_iff : m.anyValue p = true ↔ ∃ k v, m.get k = some v ∧ p v = true := by
  simp [anyValue, get_eq_some]

end Reads

theorem setEntry_of_new (fresh : k ∉ entries.map fst) :
    setEntry k v entries = entries ++ [(k, v)] := by
  induction entries with
  | nil => rfl
  | cons e rest ih =>
    rw [map_cons, mem_cons, not_or] at fresh
    rw [setEntry, if_neg (Ne.symm fresh.1), ih fresh.2, cons_append]

variable {m : OrderedMap κ ν}

theorem entries_foldl_set (nd : ((m.entries ++ entries).map fst).Nodup) :
    (entries.foldl (fun m e => m.set e.1 e.2) m).entries = m.entries ++ entries := by
  induction entries generalizing m with
  | nil => simp
  | cons e rest ih =>
    have fresh : e.1 ∉ m.entries.map fst := by
      intro mem
      rw [map_append, map_cons] at nd
      exact (nodup_append.1 nd).2.2 _ mem _ mem_cons_self rfl
    have grown : (m.set e.1 e.2).entries = m.entries ++ [e] := setEntry_of_new fresh
    rw [foldl_cons, ih (by simpa [grown] using nd), grown, append_assoc, singleton_append]

/-- Entries with distinct keys are read back as they are. -/
theorem entries_ofEntries (nd : (entries.map fst).Nodup) : (ofEntries entries).entries = entries := entries_foldl_set (m := empty) (by simpa [empty] using nd)

theorem ofEntries_entries (m : OrderedMap κ ν) : ofEntries m.entries = m := ext_entries (entries_ofEntries m.nodup)

theorem mem_keys_foldl_set
    (mem : k ∈ (entries.foldl (fun m e => m.set e.1 e.2) m).entries.map fst) :
    k ∈ m.entries.map fst ∨ k ∈ entries.map fst := by
  induction entries generalizing m with
  | nil => exact .inl mem
  | cons e rest ih =>
    rw [map_cons, mem_cons]
    obtain here | later := ih mem
    · obtain rfl | before := mem_keys_setEntry.1 here
      · exact .inr (.inl rfl)
      · exact .inl before
    · exact .inr (.inr later)

/-- No entry is lost exactly when the keys are distinct. -/
theorem length_ofEntries : (ofEntries entries).entries.length = entries.length ↔ (entries.map fst).Nodup := by
  constructor
  · intro whole
    have among : (ofEntries entries).entries.map fst ⊆ entries.map fst := by
      intro k mem
      exact (mem_keys_foldl_set mem).resolve_left (by simp [empty])
    have perm := ((ofEntries entries).nodup.subperm among).perm_of_length_le (by simp [whole])
    exact perm.nodup_iff.1 (ofEntries entries).nodup
  · intro nd
    rw [entries_ofEntries nd]

end OrderedMap
