import Mathlib

/-!
# Tables as lists of rows

A table is a list of rows, and `key` reads a row's primary key. An update
rewrites the rows with one key in place; `total` adds one column up over the
whole table. The facts below say what an insert and an update do to such a sum
when the keys are distinct.
-/

namespace Rows

open List

section Keyed
variable {ρ κ : Type} [DecidableEq κ] (key : ρ → κ)

/-- `UPDATE … WHERE key = k`, applying `f` to every matching row. -/
def update (k : κ) (f : ρ → ρ) (rows : List ρ) : List ρ :=
  rows.map fun x => if key x = k then f x else x

/-- `SELECT … WHERE key = k LIMIT 1`. -/
def find (k : κ) (rows : List ρ) : Option ρ := rows.find? fun x => decide (key x = k)

variable {key} {k : κ} {f : ρ → ρ} {rows : List ρ} {x y : ρ}

theorem mem_of_find (h : find key k rows = some x) : x ∈ rows ∧ key x = k :=
  ⟨mem_of_find?_eq_some h, by simpa using find?_some h⟩

theorem find_isSome_of_mem (h : x ∈ rows) (hk : key x = k) : ∃ y, find key k rows = some y := by
  cases hf : find key k rows with
  | some y => exact ⟨y, rfl⟩
  | none => exact absurd hk (by simpa using find?_eq_none.1 hf x h)

omit [DecidableEq κ] in
theorem eq_of_key (nd : (rows.map key).Nodup) (hx : x ∈ rows) (hy : y ∈ rows)
    (h : key x = key y) : x = y :=
  inj_on_of_nodup_map nd hx hy h

omit [DecidableEq κ] in
/-- A row with a new key keeps the keys distinct. -/
theorem nodup_append (nd : (rows.map key).Nodup) (fresh : ∀ y ∈ rows, key y ≠ key x) :
    ((rows ++ [x]).map key).Nodup := by
  rw [map_append, map_cons, map_nil]
  refine List.nodup_append.2 ⟨nd, nodup_singleton _, ?_⟩
  rintro i hi j hj rfl
  obtain ⟨y, hy, rfl⟩ := mem_map.1 hi
  exact fresh y hy (mem_singleton.1 hj)

theorem find_eq_of_mem (nd : (rows.map key).Nodup) (h : x ∈ rows) (hk : key x = k) :
    find key k rows = some x := by
  obtain ⟨y, hy⟩ := find_isSome_of_mem h hk
  obtain ⟨my, ky⟩ := mem_of_find hy
  rw [hy, eq_of_key nd my h (ky.trans hk.symm)]

theorem find_map (keeps : ∀ x, key (f x) = key x) : find key k (rows.map f) = (find key k rows).map f := by
  simp [find, find?_map, keeps]

/-- Updating a row under one key, then looking a key up. -/
theorem find_update (keeps : ∀ x, key (f x) = key x) (j : κ) :
    find key j (update key k f rows) = if j = k then (find key j rows).map f else find key j rows := by
  induction rows with
  | nil => simp [find, update]
  | cons x rows ih =>
    simp only [find, update, map_cons] at ih ⊢
    by_cases here : key x = k
    · by_cases found : key x = j
      · have same : j = k := found.symm.trans here
        rw [if_pos here, find?_cons_of_pos (by simp [keeps, found]), find?_cons_of_pos (by simp [found]),
          if_pos same, Option.map_some]
      · rw [if_pos here, find?_cons_of_neg (by simp [keeps, found]), find?_cons_of_neg (by simp [found]), ih]
    · by_cases found : key x = j
      · have other : j ≠ k := fun same => here (found.trans same)
        rw [if_neg here, find?_cons_of_pos (by simp [found]), find?_cons_of_pos (by simp [found]), if_neg other]
      · rw [if_neg here, find?_cons_of_neg (by simp [found]), find?_cons_of_neg (by simp [found]), ih]

theorem mem_update : y ∈ update key k f rows ↔ ∃ x ∈ rows, (if key x = k then f x else x) = y := by
  simp [update]

/-- Rows with another key survive an update. -/
theorem mem_update_of_ne (h : x ∈ rows) (hne : key x ≠ k) : x ∈ update key k f rows :=
  mem_update.2 ⟨x, h, by simp [hne]⟩

theorem mem_update_self (h : x ∈ rows) (hk : key x = k) : f x ∈ update key k f rows :=
  mem_update.2 ⟨x, h, by simp [hk]⟩

/-- An update that keeps a column `g` of every row keeps that column of the table. -/
theorem map_update {β : Type} {g : ρ → β} (hg : ∀ x, g (f x) = g x) :
    (update key k f rows).map g = rows.map g := by
  simp only [update, map_map]
  apply map_congr_left
  intro x _
  by_cases h : key x = k <;> simp [h, hg]

theorem update_eq_self (h : ∀ x ∈ rows, key x ≠ k) : update key k f rows = rows := by
  conv_rhs => rw [← map_id rows]
  exact map_congr_left fun x hx => by simp [h x hx]

/-- Two ways of computing the new row agree when they agree on the row stored. -/
theorem update_congr {g : ρ → ρ} (h : ∀ x ∈ rows, key x = k → f x = g x) :
    update key k f rows = update key k g rows :=
  map_congr_left fun x hx => by by_cases hk : key x = k <;> simp [hk, h x hx]

theorem filter_update {p : ρ → Bool} (hp : ∀ x, p (f x) = p x) :
    (update key k f rows).filter p = update key k f (rows.filter p) := by
  simp only [update, filter_map]
  congr 1
  apply filter_congr
  intro x _
  by_cases h : key x = k <;> simp [h, hp]

end Keyed

section Counting
variable {ρ : Type} {rows : List ρ}

variable {x : ρ} {p q : ρ → Bool}

/-- A property that one row alone can newly have counts at most one more. -/
theorem countP_le_succ (nd : rows.Nodup) (h : ∀ y ∈ rows, y ≠ x → p y → q y) :
    rows.countP p ≤ rows.countP q + 1 := by
  induction rows with
  | nil => exact Nat.zero_le _
  | cons y rows ih =>
    obtain ⟨hy, nd⟩ := nodup_cons.1 nd
    rw [countP_cons, countP_cons]
    by_cases own : y = x
    · have rest : rows.countP p ≤ rows.countP q := by
        apply countP_mono_left
        intro z hz
        exact h z (mem_cons_of_mem y hz) fun e => hy (own.trans e.symm ▸ hz)
      split <;> split <;> omega
    · have rest := ih nd fun z hz => h z (mem_cons_of_mem y hz)
      by_cases hp : p y
      · rw [if_pos hp, if_pos (h y mem_cons_self own hp)]
        omega
      · rw [if_neg hp]
        omega

/-- A property that one row alone loses counts less. -/
theorem countP_lt (h : ∀ y ∈ rows, p y → q y) (mem : x ∈ rows) (had : q x = true)
    (lost : p x = false) : rows.countP p < rows.countP q := by
  induction rows with
  | nil => cases mem
  | cons y rows ih =>
    have rest : ∀ z ∈ rows, p z → q z := fun z hz => h z (mem_cons_of_mem y hz)
    rw [countP_cons, countP_cons]
    rcases mem_cons.1 mem with rfl | mem
    · have := countP_mono_left rest
      rw [if_pos had, lost]
      simp only [Bool.false_eq_true, if_false]
      omega
    · have := ih rest mem
      by_cases hp : p y
      · rw [if_pos hp, if_pos (h y mem_cons_self hp)]
        omega
      · rw [if_neg hp]
        omega

end Counting

section Totals
variable {ρ κ : Type} [DecidableEq κ] {key : ρ → κ}

/-- The sum of a quantity over all rows. -/
def total (g : ρ → Int) (rows : List ρ) : Int := (rows.map g).sum

variable {g h : ρ → Int} {rows rows' : List ρ} {x : ρ}

@[simp] theorem total_nil : total g [] = 0 := rfl

@[simp] theorem total_cons : total g (x :: rows) = g x + total g rows := rfl

@[simp] theorem total_append : total g (rows ++ rows') = total g rows + total g rows' := by
  simp [total]

theorem total_congr (e : ∀ x ∈ rows, g x = h x) : total g rows = total h rows := by
  rw [total, total, map_congr_left e]

theorem total_perm (p : rows.Perm rows') : total g rows = total g rows' :=
  (p.map g).sum_eq

theorem total_add : total (fun x => g x + h x) rows = total g rows + total h rows := by
  induction rows with
  | nil => rfl
  | cons x rows ih => simp only [total_cons, ih]; omega

theorem total_sub : total (fun x => g x - h x) rows = total g rows - total h rows := by
  induction rows with
  | nil => rfl
  | cons x rows ih => simp only [total_cons, ih]; omega

theorem total_nonneg (e : ∀ x ∈ rows, 0 ≤ g x) : 0 ≤ total g rows := by
  induction rows with
  | nil => exact Int.le_refl 0
  | cons x rows ih =>
    have hx := e x mem_cons_self
    have := ih fun y hy => e y (mem_cons_of_mem x hy)
    simp only [total_cons]
    omega

/-- Rows taken at most once from a table sum to at most the table. -/
theorem total_le_of_subset (distinct : rows'.Nodup) (sub : ∀ x ∈ rows', x ∈ rows)
    (nonneg : ∀ x ∈ rows, 0 ≤ g x) : total g rows' ≤ total g rows := by
  obtain ⟨part, perm, sublist⟩ := List.Nodup.subperm distinct sub
  obtain ⟨rest, all⟩ := sublist.exists_perm_append
  rw [← total_perm perm, total_perm all, total_append]
  have : 0 ≤ total g rest := total_nonneg fun x hx =>
    nonneg x (all.mem_iff.2 (mem_append_right part hx))
  omega

omit [DecidableEq κ] in
/-- Items that each have a row of their own, which is at least as much. -/
theorem total_le_of_owners {σ : Type} {f : σ → Int} {items : List σ} {name : σ → κ} {owns : ρ → Option κ}
    (nd : (items.map name).Nodup) (nonneg : ∀ y ∈ rows, 0 ≤ g y)
    (owned : ∀ x ∈ items, ∃ y ∈ rows, owns y = some (name x) ∧ f x ≤ g y) : total f items ≤ total g rows := by
  induction items generalizing rows with
  | nil => exact total_nonneg nonneg
  | cons x items ih =>
    obtain ⟨y, hy, own, le⟩ := owned x mem_cons_self
    obtain ⟨before, after, rfl⟩ := append_of_mem hy
    obtain ⟨new, nd⟩ := nodup_cons.1 nd
    have rest : total f items ≤ total g (before ++ after) := by
      refine ih nd (fun z hz => nonneg z ?_) fun z hz => ?_
      · simp only [mem_append, mem_cons] at hz ⊢
        tauto
      · obtain ⟨w, hw, owns, le⟩ := owned z (mem_cons_of_mem x hz)
        have other : w ≠ y := by
          rintro rfl
          exact new (Option.some.inj (own.symm.trans owns) ▸ mem_map_of_mem hz)
        exact ⟨w, by simpa [other] using hw, owns, le⟩
    simp only [total_cons, total_append] at rest ⊢
    omega

theorem total_eq_zero (e : ∀ x ∈ rows, g x = 0) : total g rows = 0 := by
  rw [total_congr (h := fun _ => 0) e]
  simp [total]

/-- A quantity that vanishes off `p` adds up to its sum over the rows with `p`. -/
theorem total_filter {p : ρ → Bool} : total (fun x => if p x then g x else 0) rows =
    total g (rows.filter p) := by
  induction rows with
  | nil => rfl
  | cons x rows ih => cases hp : p x <;> simp [hp, ih]

variable {σ : Type} {f : ρ → ρ}

theorem total_map {f : σ → ρ} {l : List σ} : total g (l.map f) = total (fun x => g (f x)) l := by
  simp [total, Function.comp_def]

/-- A quantity taken over one key is that of its row. -/
theorem total_key (key : ρ → κ) (nd : (rows.map key).Nodup) (hx : x ∈ rows) :
    total (fun y => if key y = key x then g y else 0) rows = g x := by
  induction rows with
  | nil => cases hx
  | cons y rows ih =>
    obtain ⟨hy, nd⟩ := nodup_cons.1 nd
    rw [total_cons]
    rcases mem_cons.1 hx with rfl | hx
    · have off : ∀ z ∈ rows, (if key z = key x then g z else 0) = 0 := fun z hz =>
        if_neg fun e : key z = key x => hy (e ▸ mem_map_of_mem hz)
      rw [total_eq_zero off, if_pos rfl, Int.add_zero]
    · have hne : key y ≠ key x := fun e => hy (e ▸ mem_map_of_mem hx)
      rw [if_neg hne, ih nd hx, Int.zero_add]

/-- Grouped by a key, the groups add up to all the rows. -/
theorem total_groups {keys : List κ} (key : ρ → κ) (nd : keys.Nodup) (all : ∀ x ∈ rows, key x ∈ keys) :
    total (fun k => total g (rows.filter fun x => key x = k)) keys = total g rows := by
  induction rows with
  | nil => exact total_eq_zero fun _ _ => rfl
  | cons x rows ih =>
    have split_first : ∀ k ∈ keys, total g ((x :: rows).filter fun y => key y = k) =
        (if k = key x then g x else 0) + total g (rows.filter fun y => key y = k) := by
      intro k _
      by_cases same : key x = k
      · simp [same]
      · simp [same, Ne.symm same]
    have one := @total_key κ κ _ (fun _ => g x) keys (key x) (fun k => k) (by simpa using nd)
      (all x mem_cons_self)
    rw [total_congr split_first, total_add, ih fun y hy => all y (mem_cons_of_mem x hy), one, total_cons]

/-- An update changes a sum by the new row's share less the old row's. -/
theorem total_update (nd : (rows.map key).Nodup) (hx : x ∈ rows) :
    total g (update key (key x) f rows) = total g rows - g x + g (f x) := by
  induction rows with
  | nil => simp at hx
  | cons y rows ih =>
    obtain ⟨hy, nd⟩ := nodup_cons.1 nd
    rcases mem_cons.1 hx with rfl | hx
    · have off : update key (key x) f rows = rows := update_eq_self fun z hz e =>
        hy (e ▸ mem_map_of_mem hz)
      have : update key (key x) f (x :: rows) = f x :: update key (key x) f rows := by
        simp [update]
      rw [this, off]
      simp only [total_cons]
      omega
    · have hne : key y ≠ key x := fun e => hy (e ▸ mem_map_of_mem hx)
      have : update key (key x) f (y :: rows) = y :: update key (key x) f rows := by
        simp [update, hne]
      rw [this]
      simp only [total_cons, ih nd hx]
      omega

/-- An update that keeps a quantity of every row keeps its sum. -/
theorem total_update_same {k : κ} (hg : ∀ x, g (f x) = g x) : total g (update key k f rows) = total g rows := by
  rw [total, total, map_update hg]

end Totals

end Rows
