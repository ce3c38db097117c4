import Vimla.Billing.PolicyAdmin

/-!
# One published version

Publishes that do not overlap leave one published version in a scope, and no
version comes back from retirement. A publish that commits when another version
has been published since it began, or its own has been retired, breaks this.
-/

namespace Vimla.Billing.PolicyAdmin

open ReadCommitted List Rows Option Runs

def OnePublished (rows : List Version) : Prop :=
  ∀ v ∈ rows, ∀ w ∈ rows, v.status = .published → w.status = .published → v.scope = w.scope → v = w

/-- `DRAFT -> PUBLISHED -> RETIRED`. -/
inductive Lifecycle : PolicyStatus → PolicyStatus → Prop
  | stay (status : PolicyStatus) : Lifecycle status status
  | publish : Lifecycle .draft .published
  | retire : Lifecycle .published .retired

/-- The versions move along their lifecycle, and new ones are drafts. -/
structure Aged (rows rows' : List Version) : Prop where
  kept : ∀ v ∈ rows, ∃ v' ∈ rows', v'.key = v.key ∧ v'.scope = v.scope ∧ Lifecycle v.status v'.status
  created : ∀ v' ∈ rows', (∃ v ∈ rows, v.key = v'.key) ∨ v'.status = .draft

/-- No other version of the scope has been published since the statement that
retires them began, and the own version has not been retired. -/
def Publication.Timely (tx : Publication) (rows : List Version) : Prop :=
  (∀ v ∈ rows, published tx.scope v → v.key = tx.key ∨ v.key ∈ tx.seen) ∧
    ∀ v ∈ rows, v.key = tx.key → v.status ≠ .retired

/-- Publishes commit in time. -/
def Orderly (s : State) : Event → Prop
  | .commit caller =>
    match s.calls caller with
    | .publishing tx => tx.updated = true → tx.Timely s.versions
    | _ => True
  | _ => True

instance (tx : Publication) (rows : List Version) : Decidable (tx.Timely rows) :=
  inferInstanceAs (Decidable (_ ∧ _))

instance (s : State) (e : Event) : Decidable (Orderly s e) := by
  unfold Orderly
  split
  · split <;> infer_instance
  · infer_instance

/-- The writes and the locks of a publish. -/
structure Publication.Sound (tx : Publication) (table : Table Version VersionKey) (caller : Nat) :
    Prop where
  own : ∃ v, table.find Version.key tx.key = some v ∧ v.scope = tx.scope
  locked : ∀ w ∈ tx.writes, table.lockedBy w.key = some caller
  retired : ∀ w ∈ tx.writes, w.key ≠ tx.key → w.status = .retired ∧ w.key ∈ tx.seen ∧
    ∃ v, table.find Version.key w.key = some v ∧ v.status = .published ∧ v.scope = w.scope
  ownScope : ∀ w ∈ tx.writes, w.key = tx.key → w.scope = tx.scope
  seen : ∀ k ∈ tx.seen, ∃ v, table.find Version.key k = some v ∧ v.status ≠ .draft ∧ v.scope = tx.scope
  rest : ∀ k ∈ tx.rest, k ∈ tx.seen
  visited : ∀ k ∈ tx.seen, k ∉ tx.rest → (∃ w ∈ tx.writes, w.key = k) ∨
    ∃ v, table.find Version.key k = some v ∧ v.status = .retired
  updated : tx.updated = true → tx.rest = [] ∧
    ∃ w, find Version.key tx.key tx.writes = some w ∧ w.status = .published

/-- What one session does to the table, as the others see it. -/
structure Evolves (session : Nat) (table table' : Table Version VersionKey) : Prop where
  kept : ∀ k v, table.find Version.key k = some v → ∃ v', table'.find Version.key k = some v' ∧
    v'.scope = v.scope ∧ Lifecycle v.status v'.status
  others : ∀ k other, other ≠ session → table.lockedBy k = some other →
    table'.lockedBy k = some other ∧
      ∀ v, table.find Version.key k = some v → table'.find Version.key k = some v
  created : ∀ v' ∈ table'.rows, (∃ v ∈ table.rows, v.key = v'.key) ∨ v'.status = .draft

variable {session : Nat} {table table' : Table Version VersionKey}

theorem Evolves.of_rows (rows : table'.rows = table.rows) (others : ∀ k other, other ≠ session →
      table.lockedBy k = some other → table'.lockedBy k = some other) : Evolves session table table' := by
  have same (k : VersionKey) : table'.find Version.key k = table.find Version.key k := by
    rw [Table.find, Table.find, rows]
  constructor
  · intro k v found
    exact ⟨v, (same k).trans found, rfl, .stay _⟩
  · intro k other distinct held
    exact ⟨others k other distinct held, fun v => (same k).trans⟩
  · rw [rows]
    exact fun v mem => .inl ⟨v, mem, rfl⟩

theorem Evolves.aged (h : Evolves session table table') (keys : (table.rows.map Version.key).Nodup) :
    Aged table.rows table'.rows := by
  refine ⟨fun v mem => ?_, h.created⟩
  obtain ⟨v', found, moved⟩ := h.kept v.key v (find_eq_of_mem keys mem rfl)
  obtain ⟨mem', key⟩ := mem_of_find found
  exact ⟨v', mem', key, moved⟩

theorem Lifecycle.not_draft {a b : PolicyStatus} (h : Lifecycle a b) (old : a ≠ .draft) : b ≠ .draft := by
  cases h <;> simp_all

theorem Lifecycle.retired {b : PolicyStatus} (h : Lifecycle .retired b) : b = .retired := by
  cases h
  rfl

variable {tx : Publication} {caller : Nat}

/-- The others' transactions stay as sound as they are. -/
theorem Publication.Sound.evolve (h : tx.Sound table caller) (distinct : caller ≠ session)
    (evolves : Evolves session table table') : tx.Sound table' caller := by
  have held (w : Version) (mem : w ∈ tx.writes) := evolves.others w.key caller distinct (h.locked w mem)
  refine ⟨?_, fun w mem => (held w mem).1, ?_, h.ownScope, ?_, h.rest, ?_, h.updated⟩
  · obtain ⟨v, found, scope⟩ := h.own
    obtain ⟨v', found', scope', -⟩ := evolves.kept _ v found
    exact ⟨v', found', scope'.trans scope⟩
  · intro w mem other
    obtain ⟨status, seen, v, found, rest⟩ := h.retired w mem other
    exact ⟨status, seen, v, (held w mem).2 v found, rest⟩
  · intro k mem
    obtain ⟨v, found, status, scope⟩ := h.seen k mem
    obtain ⟨v', found', scope', moved⟩ := evolves.kept k v found
    exact ⟨v', found', moved.not_draft status, scope'.trans scope⟩
  · intro k mem gone
    obtain written | ⟨v, found, status⟩ := h.visited k mem gone
    · exact .inl written
    · obtain ⟨v', found', -, moved⟩ := evolves.kept k v found
      rw [status] at moved
      exact .inr ⟨v', found', moved.retired⟩

/-- A version that was found is still there. -/
def Call.Sound (table : Table Version VersionKey) (caller : Nat) : Call → Prop
  | .draftFound key scope => ∃ v, table.find Version.key key = some v ∧ v.scope = scope
  | .publishing tx => tx.Sound table caller
  | .publishedFound key => ∃ v, table.find Version.key key = some v ∧ v.status ≠ .draft
  | _ => True

theorem Call.Sound.evolve {call : Call} (h : call.Sound table caller) (distinct : caller ≠ session)
    (evolves : Evolves session table table') : call.Sound table' caller := by
  cases call with
  | draftFound key scope =>
    obtain ⟨v, found, same⟩ := h
    obtain ⟨v', found', scope', -⟩ := evolves.kept key v found
    exact ⟨v', found', scope'.trans same⟩
  | publishedFound key =>
    obtain ⟨v, found, status⟩ := h
    obtain ⟨v', found', -, moved⟩ := evolves.kept key v found
    exact ⟨v', found', moved.not_draft status⟩
  | publishing tx => exact Publication.Sound.evolve h distinct evolves
  | idle | publish | retirePlanVersion | failed | done => trivial

/-- What holds between two statements. -/
structure Sound (s : State) : Prop where
  keys : (s.versions.map Version.key).Nodup
  single : OnePublished s.versions
  calls : ∀ caller, (s.calls caller).Sound s.table caller

theorem Sound.publication {s : State} (h : Sound s) (call : s.calls caller = .publishing tx) :
    tx.Sound s.table caller := by
  have own := h.calls caller
  rw [call] at own
  exact own

theorem initial_sound {rows : List Version} (keys : (rows.map Version.key).Nodup)
    (single : OnePublished rows) : Sound (initial rows) :=
  ⟨keys, single, fun _ => trivial⟩

/-- A statement that keeps the invariant and lets the versions age. -/
structure Stepped (s s' : State) : Prop where
  sound : Sound s'
  evolves : ∃ session, Evolves session s.table s'.table

section Steps
variable {s : State} {caller : Nat}

section
variable (h : Sound s)
include h

theorem Stepped.refl : Stepped s s :=
  ⟨h, 0, .of_rows rfl fun _ _ _ held => held⟩

theorem Sound.moves {call : Call}
    (evolves : Evolves caller s.table table) (keys : (table.rows.map Version.key).Nodup)
    (single : OnePublished table.rows) (own : call.Sound table caller) :
    Stepped s ((s.withTable table).to caller call) := by
  refine ⟨⟨keys, single, fun other => ?_⟩, caller, evolves⟩
  by_cases same : other = caller
  · subst same
    simpa [State.to, State.withTable] using own
  · simpa [State.to, State.withTable, same] using (h.calls other).evolve same evolves

/-- A statement that writes nothing into the table. -/
theorem Sound.moves_rows {call : Call}
    (rows : table.rows = s.table.rows) (others : ∀ k other, other ≠ caller →
      s.table.lockedBy k = some other → table.lockedBy k = some other)
    (own : call.Sound table caller) : Stepped s ((s.withTable table).to caller call) := by
  refine h.moves (.of_rows rows others) ?_ ?_ own
  · rw [rows]
    exact h.keys
  · rw [rows]
    exact h.single

theorem Sound.moves_to {call : Call} (own : call.Sound s.table caller) :
    Stepped s (s.to caller call) :=
  have same : s.table.rows = s.table.rows := rfl
  h.moves_rows same (fun _ _ _ held => held) own

theorem abandon_stepped {call : Call} (own : call.Sound (s.table.release caller) caller) :
    Stepped s ((s.withTable (s.table.release caller)).to caller call) :=
  h.moves_rows rfl (fun _ _ distinct held => lockedBy_release_of_ne distinct held) own

theorem request_stepped {call : Call} (own : call.Sound s.table caller) :
    Stepped s (s.request caller call) := by
  unfold State.request
  split
  · exact h.moves_to own
  · exact .refl h

theorem findUnique_stepped : Stepped s (findUnique s caller) := by
  unfold findUnique
  split
  · split
    · rename_i draft found
      split
      · exact h.moves_to ⟨draft, found, rfl⟩
      · exact h.moves_to trivial
    · exact h.moves_to trivial
  · split
    · rename_i version found
      split
      · rename_i status
        exact h.moves_to ⟨version, found, by simp [status]⟩
      · exact h.moves_to trivial
    · exact h.moves_to trivial
  · exact .refl h

end

variable {now : Int} {key : VersionKey}

theorem updateMany_stepped (h : Sound s) : Stepped s (updateMany s caller now) := by
  unfold updateMany
  split
  · rename_i key scope found
    have own := h.calls caller
    rw [found] at own
    refine h.moves_to ⟨own, by simp, by simp, by simp, ?_, fun k mem => mem, ?_, by simp⟩
    · intro k mem
      obtain ⟨v, matched, rfl⟩ := mem_map.1 mem
      obtain ⟨mem, matched⟩ := mem_filter.1 matched
      refine ⟨v, find_eq_of_mem h.keys mem rfl, ?_⟩
      simp only [published, decide_eq_true_eq] at matched
      exact ⟨by simp [matched.2], matched.1⟩
    · exact fun k mem gone => absurd mem gone
  · exact .refl h

theorem retireRow_stepped (h : Sound s) : Stepped s (retireRow s caller key) := by
  unfold retireRow
  split
  case h_2 => exact .refl h
  rename_i tx call
  have sound := h.publication call
  split
  case isFalse => exact .refl h
  rename_i visit
  obtain ⟨row, found, status, scope⟩ := sound.seen key (sound.rest key visit.1)
  have rest : ∀ k ∈ tx.rest.filter fun k => k ≠ key, k ∈ tx.seen :=
    fun k mem => sound.rest k (mem_filter.1 mem).1
  have visited (k : VersionKey) (gone : k ∉ tx.rest.filter fun k => k ≠ key) : k = key ∨ k ∉ tx.rest := by
    by_cases own : k = key
    · exact .inl own
    · exact .inr fun mem => gone (mem_filter.2 ⟨mem, by simpa using own⟩)
  have unfinished : tx.updated ≠ true := fun updated => by
    rw [(sound.updated updated).1] at visit
    cases visit.1
  rw [show s.find key = some row from found]
  simp only
  split
  · rename_i matched
    have same : row.key = key := (mem_of_find found).2
    simp only [published, decide_eq_true_eq] at matched
    refine h.moves_rows rfl (fun k other distinct held => lockedBy_lock_of_ne visit.2 distinct held)
      ⟨sound.own, ?_, ?_, ?_, sound.seen, rest, ?_, fun updated => absurd updated unfinished⟩
    · intro w mem
      rw [lockedBy_lock]
      obtain rfl | ⟨mem, -⟩ := mem_write mem
      · exact if_pos same
      · rw [sound.locked w mem, ite_self]
    · intro w mem other
      obtain rfl | ⟨mem, -⟩ := mem_write mem
      · exact ⟨rfl, same ▸ sound.rest key visit.1, row, same ▸ found, matched.2, rfl⟩
      · exact sound.retired w mem other
    · intro w mem own
      obtain rfl | ⟨mem, -⟩ := mem_write mem
      · exact matched.1
      · exact sound.ownScope w mem own
    · intro k mem gone
      obtain rfl | gone := visited k gone
      · exact .inl ⟨_, mem_cons_self, same⟩
      · exact (sound.visited k mem gone).imp exists_write id
  · rename_i other
    have retired : row.status = .retired := by
      cases now : row.status with
      | draft => exact absurd now status
      | published => simp [published, scope, now] at other
      | retired => rfl
    refine h.moves_to ⟨sound.own, sound.locked, sound.retired, sound.ownScope, sound.seen, rest, ?_,
      fun updated => absurd updated unfinished⟩
    intro k mem gone
    obtain rfl | gone := visited k gone
    · exact .inr ⟨row, found, retired⟩
    · exact sound.visited k mem gone

theorem publishRow_stepped (h : Sound s) : Stepped s (publishRow s caller) := by
  unfold publishRow
  split
  case h_2 => exact .refl h
  rename_i tx call
  have sound := h.publication call
  split
  case isFalse => exact .refl h
  rename_i turn
  split
  case h_1 => exact abandon_stepped h trivial
  rename_i row latest
  split
  case isTrue => exact abandon_stepped h trivial
  obtain ⟨key, scope⟩ : row.key = tx.key ∧ row.scope = tx.scope := by
    obtain written | ⟨-, committed⟩ := or_eq_some_iff.1 latest
    · obtain ⟨mem, key⟩ := mem_of_find written
      exact ⟨key, sound.ownScope row mem key⟩
    · obtain ⟨v, found, scope⟩ := sound.own
      cases found.symm.trans committed
      exact ⟨(mem_of_find committed).2, scope⟩
  refine h.moves_rows rfl (fun k other distinct held => lockedBy_lock_of_ne turn.2.2 distinct held)
    ⟨sound.own, ?_, ?_, ?_, sound.seen, sound.rest, ?_, fun _ => ⟨turn.1, row.publish tx.now, ?_, rfl⟩⟩
  · intro w mem
    rw [lockedBy_lock]
    obtain rfl | ⟨mem, -⟩ := mem_write mem
    · exact if_pos key
    · rw [sound.locked w mem, ite_self]
  · intro w mem other
    obtain rfl | ⟨mem, -⟩ := mem_write mem
    · exact absurd key other
    · exact sound.retired w mem other
  · intro w mem own
    obtain rfl | ⟨mem, -⟩ := mem_write mem
    · exact scope
    · exact sound.ownScope w mem own
  · intro k mem gone
    exact (sound.visited k mem gone).imp exists_write id
  · rw [find_write]
    exact if_pos key

/-- A commit with other sessions' locks in place, of rows that age. -/
theorem Evolves.of_commit {writes : List Version}
    (locked : ∀ w ∈ writes, ∀ other, other ≠ caller → table.lockedBy w.key ≠ some other)
    (ages : ∀ v w, table.find Version.key v.key = some v → find Version.key v.key writes = some w →
      w.scope = v.scope ∧ Lifecycle v.status w.status) :
    Evolves caller table (table.commit Version.key caller writes) := by
  constructor
  · intro k v found
    have own : v.key = k := (mem_of_find found).2
    rw [find_commit, found, map_some]
    cases written : find Version.key k writes with
    | none => exact ⟨v, rfl, rfl, .stay _⟩
    | some w => exact ⟨w, rfl, ages v w (own ▸ found) (own ▸ written)⟩
  · intro k other distinct held
    refine ⟨lockedBy_release_of_ne distinct held, fun v found => ?_⟩
    rw [find_commit, found, map_some]
    cases written : find Version.key k writes with
    | none => rfl
    | some w =>
      obtain ⟨mem, rfl⟩ := mem_of_find written
      exact absurd held (locked w mem other distinct)
  · intro v' mem
    have mem : v'.key ∈ (table.commit Version.key caller writes).rows.map Version.key :=
      mem_map.2 ⟨v', mem, rfl⟩
    rw [keys_commit] at mem
    obtain ⟨v, mem, same⟩ := mem_map.1 mem
    exact .inl ⟨v, mem, same⟩

theorem committed_keys (h : Sound s) (caller : Nat) (writes : List Version) :
    ((s.table.commit Version.key caller writes).rows.map Version.key).Nodup := by
  rw [keys_commit]
  exact h.keys

theorem retireVersion_stepped (h : Sound s) : Stepped s (retireVersion s caller now) := by
  unfold retireVersion
  split
  case h_2 => exact .refl h
  rename_i key call
  split
  case isFalse => exact .refl h
  rename_i free
  have found := h.calls caller
  rw [call] at found
  obtain ⟨row, found, status⟩ := found
  rw [show s.find key = some row from found]
  have own : row.key = key := (mem_of_find found).2
  refine h.moves (.of_commit ?_ ?_) ?_ ?_ trivial
  · rintro w mem other distinct held
    cases mem_singleton.1 mem
    exact distinct (free_iff.1 free other (own ▸ held))
  · intro v w committed written
    obtain ⟨mem, key⟩ := mem_of_find written
    cases mem_singleton.1 mem
    have same : v = row := some_inj.1 (committed.symm.trans ((key.symm.trans own) ▸ found))
    subst same
    refine ⟨rfl, ?_⟩
    cases now : v.status with
    | draft => exact absurd now status
    | published => exact .retire
    | retired => exact .stay _
  · exact committed_keys h caller _
  · have unwritten {v : Version} (mem : v ∈ (s.table.commit Version.key caller [row.retire now]).rows)
        (status : v.status = .published) : v ∈ s.versions := by
      obtain written | ⟨mem, -⟩ := mem_commit mem
      · cases mem_singleton.1 (mem_of_find written).1
        cases status
      · exact mem
    intro v hv w hw statusV statusW
    exact h.single v (unwritten hv statusV) w (unwritten hw statusW) statusV statusW

theorem own_version (h : Sound s) {v : Version} (mem : v ∈ s.versions) : s.find v.key = some v :=
  find_eq_of_mem h.keys mem rfl

section Commit
variable {tx : Publication} (h : Sound s) (call : s.calls caller = .publishing tx)
include h call

/-- What is published after a commit: the version itself, and what was not written. -/
theorem published_commit {v : Version} (mem : v ∈ (s.table.commit Version.key caller tx.writes).rows)
    (status : v.status = .published) : (v.key = tx.key ∧ v.scope = tx.scope) ∨
      v ∈ s.versions ∧ v.key ≠ tx.key ∧ ∀ w ∈ tx.writes, w.key ≠ v.key := by
  have sound := h.publication call
  by_cases own : v.key = tx.key
  · left
    refine ⟨own, ?_⟩
    obtain written | ⟨old, -⟩ := mem_commit mem
    · exact sound.ownScope v (mem_of_find written).1 own
    · obtain ⟨v₀, found, scope⟩ := sound.own
      cases (own ▸ own_version h old).symm.trans found
      exact scope
  · right
    obtain written | ⟨old, unwritten⟩ := mem_commit mem
    · have retired := (sound.retired v (mem_of_find written).1 own).1
      rw [status] at retired
      cases retired
    · exact ⟨old, own, fun w hw same => by simpa [same] using find?_eq_none.1 unwritten w hw⟩

variable (updated : tx.updated = true)
include updated

omit h in
theorem commit_eq : commit s caller =
    (s.withTable (s.table.commit Version.key caller tx.writes)).to caller .done := by
  rw [commit, call]
  exact if_pos updated

theorem commit_stepped (timely : tx.Timely s.versions) : Stepped s
    ((s.withTable (s.table.commit Version.key caller tx.writes)).to caller .done) := by
  have sound := h.publication call
  obtain ⟨finished, own, ownWrite, ownStatus⟩ := sound.updated updated
  refine h.moves (.of_commit ?_ ?_) ?_ ?_ trivial
  · intro w mem other distinct held
    rw [sound.locked w mem] at held
    exact distinct (some_inj.1 held).symm
  · intro v w committed written
    obtain ⟨mem, key⟩ := mem_of_find written
    have old := (mem_of_find committed).1
    by_cases self : w.key = tx.key
    · rw [← key, self] at written committed
      cases ownWrite.symm.trans written
      obtain ⟨v₀, found, scope⟩ := sound.own
      cases committed.symm.trans found
      refine ⟨(sound.ownScope _ mem self).trans scope.symm, ?_⟩
      rw [ownStatus]
      cases now : v.status with
      | draft => exact .publish
      | published => exact .stay _
      | retired => exact absurd now (timely.2 v old (key.symm.trans self))
    · obtain ⟨status, -, v₀, found, published, scope⟩ := sound.retired w mem self
      rw [key] at found
      cases committed.symm.trans found
      rw [status, published]
      exact ⟨scope.symm, .retire⟩
  · exact committed_keys h caller _
  · -- What is published beside the version itself was retired by the transaction.
    have alone {v : Version} (mem : v ∈ s.versions) (status : v.status = .published)
        (scope : v.scope = tx.scope) (other : v.key ≠ tx.key) : ∃ w ∈ tx.writes, w.key = v.key := by
      have seen := (timely.1 v mem (by simp [published, scope, status])).resolve_left other
      obtain written | ⟨v', found, retired⟩ := sound.visited v.key seen (by simp [finished])
      · exact written
      · cases (own_version h mem).symm.trans found
        rw [status] at retired
        cases retired
    have keys := committed_keys h caller tx.writes
    intro v hv w hw statusV statusW scope
    obtain ⟨keyV, scopeV⟩ | ⟨oldV, otherV, unwrittenV⟩ := published_commit h call hv statusV <;>
      obtain ⟨keyW, scopeW⟩ | ⟨oldW, otherW, unwrittenW⟩ := published_commit h call hw statusW
    · exact eq_of_key keys hv hw (keyV.trans keyW.symm)
    · obtain ⟨x, written, same⟩ := alone oldW statusW (scope.symm.trans scopeV) otherW
      exact absurd same (unwrittenW x written)
    · obtain ⟨x, written, same⟩ := alone oldV statusV (scope.trans scopeW) otherV
      exact absurd same (unwrittenV x written)
    · exact h.single v oldV w oldW statusV statusW scope

/-- A commit that is late breaks what the publishes are for. -/
theorem timely_of_commit (single : OnePublished (s.table.commit Version.key caller tx.writes).rows)
    (aged : Aged s.versions (s.table.commit Version.key caller tx.writes).rows) : tx.Timely s.versions := by
  have sound := h.publication call
  obtain ⟨-, own, ownWrite, ownStatus⟩ := sound.updated updated
  obtain ⟨ownMem, ownKey⟩ := mem_of_find ownWrite
  obtain ⟨v₀, found, -⟩ := sound.own
  have committed : (s.table.commit Version.key caller tx.writes).find Version.key tx.key = some own := by
    rw [find_commit, found, map_some, ownWrite, getD_some]
  have there := (mem_of_find committed).1
  have keys := committed_keys h caller tx.writes
  constructor
  · intro v mem matched
    simp only [published, decide_eq_true_eq] at matched
    by_contra missed
    rw [not_or] at missed
    have unwritten : find Version.key v.key tx.writes = none := by
      cases written : find Version.key v.key tx.writes with
      | none => rfl
      | some w =>
        obtain ⟨hw, same⟩ := mem_of_find written
        rw [← same] at missed
        exact absurd (sound.retired w hw missed.1).2.1 missed.2
    have stays : (s.table.commit Version.key caller tx.writes).find Version.key v.key = some v := by
      rw [find_commit, show s.table.find Version.key v.key = some v from own_version h mem,
        map_some, unwritten, getD_none]
    have same := single v (mem_of_find stays).1 own there matched.2 ownStatus
      (matched.1.trans (sound.ownScope own ownMem ownKey).symm)
    exact missed.1 (same ▸ ownKey)
  · intro v mem key status
    obtain ⟨v', mem', key', -, moved⟩ := aged.kept v mem
    have same : v' = own := eq_of_key keys mem' there (key'.trans (key.trans ownKey.symm))
    rw [status, same, ownStatus] at moved
    cases moved

end Commit

theorem createDraft_stepped {id : Nat} {scope : Scope} (h : Sound s) : Stepped s (createDraft s id scope now) := by
  unfold createDraft
  split
  · exact .refl h
  rename_i fresh
  let draft : Version := { id := id, scope := scope, status := .draft, effectiveFrom := now }
  have found (k : VersionKey) (v : Version) (old : s.find k = some v) :
      find Version.key k (s.versions ++ [draft]) = some v := by
    rw [find, find?_append, show s.versions.find? _ = some v from old]
    rfl
  have evolves (session : Nat) :
      Evolves session s.table { s.table with rows := s.versions ++ [draft] } := by
    refine ⟨fun k v old => ⟨v, found k v old, rfl, .stay _⟩, fun k _ _ held => ⟨held, found k⟩, ?_⟩
    intro v mem
    obtain mem | mem := mem_append.1 mem
    · exact .inl ⟨v, mem, rfl⟩
    · exact .inr (mem_singleton.1 mem ▸ rfl)
  refine ⟨⟨?_, ?_, fun caller => ?_⟩, 0, evolves 0⟩
  · exact nodup_append (x := draft) h.keys fun v mem same => fresh (mem_map.2 ⟨v, mem, same⟩)
  · have old {v : Version} (mem : v ∈ s.versions ++ [draft]) (status : v.status = .published) :
        v ∈ s.versions := by
      obtain mem | mem := mem_append.1 mem
      · exact mem
      · rw [mem_singleton.1 mem] at status
        cases status
    intro v hv w hw statusV statusW
    exact h.single v (old hv statusV) w (old hw statusW) statusV statusW
  · exact (h.calls caller).evolve (Nat.succ_ne_self caller).symm (evolves (caller + 1))

theorem step_stepped (h : Sound s) {e : Event} (orderly : Orderly s e) : Stepped s (step s e) := by
  cases e with
  | createDraft id scope now => exact createDraft_stepped h
  | publish caller table id | retirePlanVersion caller id => exact request_stepped h trivial
  | findUnique caller => exact findUnique_stepped h
  | updateMany caller now => exact updateMany_stepped h
  | retireRow caller key => exact retireRow_stepped h
  | publishRow caller => exact publishRow_stepped h
  | commit caller =>
    rw [step]
    cases call : s.calls caller with
    | publishing tx =>
      by_cases updated : tx.updated = true
      · rw [Orderly, call] at orderly
        rw [commit_eq call updated]
        exact commit_stepped h call updated (orderly updated)
      · have idle : commit s caller = s := by
          rw [commit, call]
          exact if_neg updated
        rw [idle]
        exact .refl h
    | _ =>
      rw [commit, call]
      exact .refl h
  | retireVersion caller now => exact retireVersion_stepped h
  | abandon caller => exact abandon_stepped h trivial

/-- A step is orderly exactly when it keeps one published version in each
scope and moves versions along their lifecycle. -/
theorem orderly_iff (h : Sound s) (e : Event) : Orderly s e ↔
    OnePublished (step s e).versions ∧ Aged s.versions (step s e).versions := by
  constructor
  · intro orderly
    obtain ⟨sound, session, evolves⟩ := step_stepped h orderly
    exact ⟨sound.single, evolves.aged h.keys⟩
  · rintro ⟨single, aged⟩
    cases e with
    | commit caller =>
      rw [Orderly]
      split
      · rename_i tx call
        intro updated
        rw [step, commit_eq call updated] at single aged
        exact timely_of_commit h call updated single aged
      · trivial
    | _ => trivial

end Steps

/-- The state after the events, none of the calls made before. -/
def after (rows : List Version) (events : List Event) : State := events.foldl step (initial rows)

section Runs
variable {rows : List Version} (keys : (rows.map Version.key).Nodup) (start : OnePublished rows)
include keys start

theorem run_sound {events : List Event} (orderly : Along step Orderly (initial rows) events) :
    Sound (after rows events) :=
  invariant_along (P := Sound) (fun _ _ orderly sound => (step_stepped sound orderly).sound)
    orderly (initial_sound keys start)

/-- While every publish commits in time, whatever publishes, drafts and
retirements there are, one version of a scope at most is published and what is
retired stays so. A step that is not in time breaks this at once. -/
theorem policies_published_once (earlier later : List Event)
    (orderly : Along step Orderly (initial rows) (earlier ++ later)) :
    OnePublished (after rows (earlier ++ later)).versions ∧
      Along step (fun s e => Aged s.versions (step s e).versions) (initial rows)
        (earlier ++ later) ∧
      (∀ v ∈ (after rows earlier).versions, v.status = .retired →
        ∃ v' ∈ (after rows (earlier ++ later)).versions, v'.key = v.key ∧ v'.status = .retired) ∧
      ∀ e, Orderly (after rows (earlier ++ later)) e ↔
        OnePublished (step (after rows (earlier ++ later)) e).versions ∧
          Aged (after rows (earlier ++ later)).versions
            (step (after rows (earlier ++ later)) e).versions := by
  have preserved (s : State) (e : Event) (orderly : Orderly s e) (sound : Sound s) : Sound (step s e) :=
    (step_stepped sound orderly).sound
  have last := run_sound keys start orderly
  refine ⟨last.single, ?_, ?_, orderly_iff last⟩
  · exact along_of_invariant (fun s e orderly sound => ((orderly_iff sound e).1 orderly).2) preserved
      orderly (initial_sound keys start)
  · obtain ⟨before, rest⟩ := along_append.1 orderly
    have steps (s : State) (e : Event) (orderly : Orderly s e) (sound : Sound s) :
        ∀ v ∈ s.versions, v.status = .retired →
          ∃ v' ∈ (step s e).versions, v'.key = v.key ∧ v'.status = .retired := by
      intro v mem retired
      obtain ⟨v', mem', key, -, moved⟩ := ((orderly_iff sound e).1 orderly).2.kept v mem
      rw [retired] at moved
      exact ⟨v', mem', key, moved.retired⟩
    have related := relates
      (R := fun s t : State => ∀ v ∈ s.versions, v.status = .retired →
        ∃ v' ∈ t.versions, v'.key = v.key ∧ v'.status = .retired)
      (fun s v mem retired => ⟨v, mem, rfl, retired⟩)
      (fun r s t first second v mem retired => by
        obtain ⟨v', mem', key', retired'⟩ := first v mem retired
        obtain ⟨v'', mem'', key'', retired''⟩ := second v' mem' retired'
        exact ⟨v'', mem'', key''.trans key', retired''⟩)
      steps preserved rest (run_sound keys start before)
    simpa [after] using related

end Runs

namespace Overlap

def drafts (scope : Scope) : List Version := [⟨1, scope, .draft, 0, none, none, none⟩,
  ⟨2, scope, .draft, 0, none, none, none⟩]

/-- A publish from its first write to its commit, when `rows` are published. -/
def writing (caller : Nat) (now : Int) (rows : List VersionKey) : List Event :=
  .updateMany caller now :: rows.map (.retireRow caller) ++ [.publishRow caller, .commit caller]

/-- The second publish after the first. -/
def oneByOne : List Event :=
  [publishTopup 1 1, .findUnique 1] ++ writing 1 10 [] ++
    ([publishTopup 2 2, .findUnique 2] ++ writing 2 20 [(.topupPolicyVersion, 1)])

/-- Both look for published versions before either commits. -/
def together : List Event :=
  [publishTopup 1 1, publishTopup 2 2, .findUnique 1, .findUnique 2, .updateMany 1 10, .updateMany 2 10,
    .publishRow 1, .publishRow 2, .commit 1, .commit 2]

/-- A guardrail is read as a draft, published and retired by others, and published. -/
def again : List Event :=
  [publishGuardrail 1 1, publishGuardrail 2 1, publishGuardrail 3 2, .findUnique 1, .findUnique 2,
    .findUnique 3] ++ writing 1 10 [] ++ writing 3 20 [(.businessGuardrailVersion, 1)] ++
    [.updateMany 2 30, .retireRow 2 (.businessGuardrailVersion, 2), .publishRow 2]

end Overlap

theorem policies_published_once_one_by_one :
    OnePublished (after (Overlap.drafts .topup) Overlap.oneByOne).versions ∧
      Along step (fun s e => Aged s.versions (step s e).versions) (initial (Overlap.drafts .topup))
        Overlap.oneByOne ∧
      (∀ v ∈ (after (Overlap.drafts .topup) Overlap.oneByOne).versions, v.status = .retired →
        ∃ v' ∈ (after (Overlap.drafts .topup) Overlap.oneByOne).versions, v'.key = v.key ∧
          v'.status = .retired) ∧
      ∀ e, Orderly (after (Overlap.drafts .topup) Overlap.oneByOne) e ↔
        OnePublished (step (after (Overlap.drafts .topup) Overlap.oneByOne) e).versions ∧
          Aged (after (Overlap.drafts .topup) Overlap.oneByOne).versions
            (step (after (Overlap.drafts .topup) Overlap.oneByOne) e).versions :=
  have start : OnePublished (Overlap.drafts .topup) := by
    unfold OnePublished
    decide
  policies_published_once (by decide) start Overlap.oneByOne [] (by decide +kernel)

/-- Two publishes that overlap leave two published policies, and one that was
read as a draft comes back from retirement. -/
theorem overlapping_publishes :
    (¬ ∀ rows events, (rows.map Version.key).Nodup → OnePublished rows →
      OnePublished (after rows events).versions) ∧
    ¬ ∀ rows events e, (rows.map Version.key).Nodup → OnePublished rows →
      Aged (after rows events).versions (step (after rows events) e).versions := by
  constructor
  · intro all
    have single := all (Overlap.drafts .topup) Overlap.together (by decide)
      (by unfold OnePublished; decide)
    revert single
    unfold OnePublished
    decide +kernel
  · intro all
    have aged := all (Overlap.drafts .guardrail) Overlap.again (.commit 2) (by decide)
      (by unfold OnePublished; decide)
    have before : ∃ v ∈ (after (Overlap.drafts .guardrail) Overlap.again).versions,
        v.key = (.businessGuardrailVersion, 1) ∧ v.status = .retired := by decide +kernel
    have back : ∀ v ∈ (step (after (Overlap.drafts .guardrail) Overlap.again) (.commit 2)).versions,
        v.key = (.businessGuardrailVersion, 1) → v.status = .published := by decide +kernel
    obtain ⟨v, mem, key, retired⟩ := before
    obtain ⟨v', mem', key', -, moved⟩ := aged.kept v mem
    rw [retired, back v' mem' (key'.trans key)] at moved
    cases moved

end Vimla.Billing.PolicyAdmin
