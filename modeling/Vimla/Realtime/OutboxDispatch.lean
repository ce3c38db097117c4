import Vimla.Realtime.Outbox

/-!
# What a dispatcher may do

Each statement on a row asks for the token, so a row is in the hands of one
dispatcher; and a row always says when it may be claimed next.
-/

namespace Vimla.Realtime

open Sync (Formats)
open Rows List Function Runs
open Function
open List

namespace Outbox

variable {F : Formats} {policy : RealtimeOutboxPolicy} {w : Outbox}

/-- What a dispatcher writes to the row that it carries. -/
inductive Write
  | renewed
  | published
  | retried (attemptCount : Nat) (errorCode : String)

def Write.apply (policy : RealtimeOutboxPolicy) (now : Int) : Write → OutboxRow → OutboxRow
  | renewed, row => row.renewed policy now
  | published, row => row.published policy now
  | retried attemptCount errorCode, row => row.retried policy now attemptCount errorCode

@[simp] theorem Write.apply_eventId (now : Int) (kind : Write) (row : OutboxRow) :
    (kind.apply policy now row).eventId = row.eventId := by
  cases kind <;> rfl

variable {token : Nat} {rows : List OutboxRow} {v : Outbox} {point : Point}

theorem Write.check (now : Int) (kind : Write) {row : OutboxRow} (carried : row.carries token = true) :
    (kind.apply policy now row).stateCheck = true := by
  cases kind with
  | renewed =>
    simp only [OutboxRow.carries, Bool.and_eq_true, decide_eq_true_eq] at carried
    simp [Write.apply, OutboxRow.renewed, OutboxRow.stateCheck, carried.1, carried.2]
  | published | retried => rfl

/-- What one step does to the rows. -/
inductive Change (policy : RealtimeOutboxPolicy) (w : Outbox) : OutboxEvent → List OutboxRow → Prop
  | same (ev : OutboxEvent) : Change policy w ev w.rows
  | created (row : EventRow) (now : Int) (new : w.events row.event.id = none) :
      Change policy w (.create row now) (w.rows ++ [{ eventId := row.event.id, nextAttemptAt := some now }])
  | claimed (token : Nat) (now : Int) (locked : List String) (eventIds : List String)
      (fresh : w.dispatchers token = none) (claims : ∀ row ∈ w.rows, row.eventId ∈ eventIds → claimable now row = true) :
      Change policy w (.claim token now locked)
        (w.rows.map fun row => if row.eventId ∈ eventIds then row.claimed policy token now else row)
  | wrote (token : Nat) (now : Int) (eventId : String) (kind : Write)
      (whole : kind = .published → w.PublishedToAll token eventId) :
      Change policy w (.turn token now) (updateCarried eventId token (kind.apply policy now) w.rows).1
  | compacted (token : Nat) (now : Int) (called : Option Int) (point : w.dispatchers token = some (.compacting called)) :
      Change policy w (.turn token now) (compactPublished (called.getD now) w.rows)

/-- What a dispatcher has loaded, and whom it has published to. -/
structure Loaded (w : Outbox) (token : Nat) (point : Point) : Prop where
  known : ∀ loaded ∈ point.loaded, (w.events loaded.id).isSome
  recipients : ∀ loaded ∈ point.loaded, ∀ row, w.events loaded.id = some row → row.recipients ⊆ loaded.row.recipients
  acked : ∀ loaded pending rest, point = .publishing loaded pending rest →
    ∀ userId ∈ loaded.row.recipients, userId ∈ pending ∨ (token, loaded.id, userId) ∈ w.acked

structure Sound (w : Outbox) : Prop where
  named : ∀ id row, w.events id = some row → row.event.id = id
  known : ∀ row ∈ w.rows, (w.events row.eventId).isSome
  nodup : (w.rows.map (·.eventId)).Nodup
  checked : ∀ row ∈ w.rows, row.stateCheck = true
  loaded : ∀ token point, w.dispatchers token = some point → w.Loaded token point

theorem turn_change (sound : w.Sound) (token : Nat) (now : Int) :
    Change policy w (.turn token now) (w.turn F policy token now).rows := by
  cases at_ : w.dispatchers token with
  | none =>
    simp only [turn, at_]
    exact .same _
  | some point =>
    have loaded := sound.loaded token point at_
    cases point with
    | claimed | finished =>
      simp only [turn, at_]
      exact .same _
    | next rest =>
      cases rest with
      | nil =>
        simp only [turn, at_]
        exact .same _
      | cons first rest =>
        simp only [turn, at_]
        split
        · exact .wrote token now first.id .renewed (by simp)
        · exact .same _
    | renewed first rest =>
      simp only [turn, at_]
      split
      · rename_i none
        refine .wrote token now first.id .published fun _ row at_row userId mem => ?_
        have among := loaded.recipients first mem_cons_self row at_row mem
        rw [none] at among
        cases among
      · split <;> exact .same _
    | publishing first pending rest =>
      cases pending with
      | nil =>
        simp only [turn, at_]
        refine .wrote token now first.id .published fun _ row at_row userId mem => ?_
        have among := loaded.recipients first mem_cons_self row at_row mem
        exact (loaded.acked first [] rest rfl userId among).resolve_left (by simp)
      | cons =>
        simp only [turn, at_]
        exact .same _
    | failed first errorCode rest =>
      simp only [turn, at_]
      exact .wrote token now first.id (.retried _ errorCode) (by simp)
    | compacting called =>
      simp only [turn, at_]
      exact .compacted token now called at_

theorem mem_candidates {now : Int} {locked : List String} {row : OutboxRow} (nodup : (w.rows.map (·.eventId)).Nodup)
    (mem : row ∈ w.rows) (chosen : row.eventId ∈ w.candidates policy now locked) : claimable now row = true := by
  obtain ⟨other, found, same⟩ := mem_map.1 (mem_of_mem_take chosen)
  rw [Js.mem_sort, mem_filter] at found
  obtain rfl := eq_of_key nodup mem found.1 same.symm
  simp only [decide_eq_true_eq] at found
  exact found.2.2.1

theorem step_change (sound : w.Sound) (ev : OutboxEvent) : Change policy w ev (w.step F policy ev).rows := by
  cases ev with
  | create row now =>
    simp only [step]
    split
    · exact .same _
    · rename_i new
      exact .created row now (by simpa using new)
  | forget => exact .same _
  | claim token now locked =>
    simp only [step]
    split
    · exact .same _
    · rename_i fresh
      exact .claimed token now locked _ (by simpa using fresh) fun row mem chosen => mem_candidates sound.nodup mem chosen
  | turn token now => exact turn_change sound token now
  | acknowledge token userId =>
    simp only [step, acknowledge]
    split
    · split <;> exact .same _
    · exact .same _
  | publishFails token =>
    simp only [step, publishFails]
    split <;> exact .same _
  | crash token =>
    simp only [step]
    split <;> exact .same _

theorem find_map {g : OutboxRow → OutboxRow} (keeps : ∀ row, (g row).eventId = row.eventId) (eventId : String)
    (rows : List OutboxRow) : find eventId (rows.map g) = (find eventId rows).map g :=
  Rows.find_map keeps

/-- The row of an event after one step, unless it is deleted. -/
inductive RowChange (policy : RealtimeOutboxPolicy) (w : Outbox) (before : OutboxRow) : OutboxEvent → OutboxRow → Prop
  | same (ev : OutboxEvent) : RowChange policy w before ev before
  | claimed (token : Nat) (now : Int) (locked : List String) (fresh : w.dispatchers token = none)
      (claims : claimable now before = true) :
      RowChange policy w before (.claim token now locked) (before.claimed policy token now)
  | wrote (token : Nat) (now : Int) (kind : Write) (carried : before.carries token = true)
      (whole : kind = .published → w.PublishedToAll token before.eventId) :
      RowChange policy w before (.turn token now) (kind.apply policy now before)

variable {ev : OutboxEvent} {eventId : String}

theorem Change.row (nodup : (w.rows.map (·.eventId)).Nodup) (change : Change policy w ev rows)
    {before after : OutboxRow} (found : find eventId w.rows = some before) (found' : find eventId rows = some after) :
    RowChange policy w before ev after := by
  obtain ⟨mem, own⟩ := mem_of_find found
  cases change with
  | same =>
    obtain rfl := Option.some.inj (found.symm.trans found')
    exact .same _
  | created row now new =>
    have kept : find eventId (w.rows ++ [{ eventId := row.event.id, nextAttemptAt := some now }]) = some before := by
      rw [find, Rows.find, find?_append]
      exact congrArg (Option.or · _) found
    obtain rfl := Option.some.inj (kept.symm.trans found')
    exact .same _
  | claimed token now locked eventIds fresh claims =>
    rw [find_map (by intro row; split <;> rfl), found, Option.map_some, Option.some.injEq] at found'
    subst found'
    split
    · rename_i chosen
      exact .claimed token now locked fresh (claims before mem chosen)
    · exact .same _
  | wrote token now eventId' kind whole =>
    rw [updateCarried, find_map (by intro row; split <;> simp), found, Option.map_some, Option.some.injEq] at found'
    subst found'
    split
    · rename_i here
      exact .wrote token now kind here.2 fun published => here.1 ▸ whole published
    · exact .same _
  | compacted token now called point =>
    obtain ⟨kept, own'⟩ := mem_of_find found'
    obtain rfl := eq_of_key nodup mem (mem_of_mem_filter kept) (own.trans own'.symm)
    exact .same _

/-- A row that is gone was published, and compacted. -/
theorem Change.gone (change : Change policy w ev rows)
    {before : OutboxRow} (found : find eventId w.rows = some before) (gone : find eventId rows = none) :
    before.status = .PUBLISHED ∧ ∃ token now called, ev = .turn token now ∧
      w.dispatchers token = some (.compacting called) ∧ before.compactAfter.any (· ≤ called.getD now) = true := by
  obtain ⟨mem, own⟩ := mem_of_find found
  cases change with
  | same => cases found.symm.trans gone
  | created row now new =>
    rw [find, Rows.find, find?_append, Option.or_eq_none_iff] at gone
    cases found.symm.trans gone.1
  | claimed token now locked eventIds fresh claims =>
    rw [find_map (by intro row; split <;> rfl), found] at gone
    cases gone
  | wrote token now eventId' kind whole =>
    rw [updateCarried, find_map (by intro row; split <;> simp), found] at gone
    cases gone
  | compacted token now called point =>
    have out : before ∉ compactPublished (called.getD now) w.rows := by
      intro kept
      obtain ⟨row, there⟩ := find_isSome_of_mem kept own
      cases there.symm.trans gone
    rw [compactPublished, mem_filter, not_and, decide_eq_true_eq, not_not] at out
    obtain ⟨published, past⟩ := out mem
    exact ⟨published, token, now, called, rfl, point, past⟩

theorem Claimable.of_check {row : OutboxRow} (checked : row.stateCheck = true) : Claimable row := by
  intro unpublished
  unfold OutboxRow.stateCheck at checked
  split at checked
  · rename_i pending
    obtain ⟨at_, attempt⟩ := Option.isSome_iff_exists.1 checked
    refine ⟨at_, fun now later => ?_⟩
    simp [claimable, pending, attempt]
    omega
  · rename_i processing
    rw [Bool.and_eq_true] at checked
    obtain ⟨until_, lease⟩ := Option.isSome_iff_exists.1 checked.2
    refine ⟨until_, fun now later => ?_⟩
    simp [claimable, processing, lease, later]
  · rename_i published
    exact absurd published unpublished

theorem Change.checked (change : Change policy w ev rows)
    (checked : ∀ row ∈ w.rows, row.stateCheck = true) : ∀ row ∈ rows, row.stateCheck = true := by
  cases change with
  | same => exact checked
  | created row now new =>
    intro row' mem
    obtain old | new := mem_append.1 mem
    · exact checked row' old
    · obtain rfl := mem_singleton.1 new
      rfl
  | claimed token now locked eventIds fresh claims =>
    intro row' mem
    obtain ⟨row, old, rfl⟩ := mem_map.1 mem
    split
    · rfl
    · exact checked row old
  | wrote token now eventId kind whole =>
    intro row' mem
    obtain ⟨row, old, rfl⟩ := mem_map.1 mem
    split
    · rename_i here
      exact kind.check now here.2
    · exact checked row old
  | compacted token now called point => exact fun row mem => checked row (mem_of_mem_filter mem)

theorem Change.nodup (change : Change policy w ev rows) (sound : w.Sound) :
    (rows.map (·.eventId)).Nodup := by
  have same : ∀ g : OutboxRow → OutboxRow, (∀ row, (g row).eventId = row.eventId) →
      ((w.rows.map g).map (·.eventId)).Nodup := by
    intro g keeps
    rw [map_map, show (fun row : OutboxRow => row.eventId) ∘ g = (·.eventId) from funext keeps]
    exact sound.nodup
  cases change with
  | same => exact sound.nodup
  | created row now new =>
    refine nodup_append sound.nodup fun other mem taken => ?_
    have known := sound.known other mem
    rw [taken, new] at known
    cases known
  | claimed token now locked eventIds fresh claims => exact same _ fun row => by split <;> rfl
  | wrote token now eventId kind whole => exact same _ fun row => by split <;> simp
  | compacted token now called point => exact sound.nodup.sublist (Sublist.map _ filter_sublist)

/-- What one step may do to the rows, where they are sound. -/
theorem Sound.guards (sound : w.Sound) (ev : OutboxEvent) : Guards F policy w ev := by
  have change : Change policy w ev (w.step F policy ev).rows := step_change sound ev
  refine ⟨fun eventId before after found found' unpublished published => ?_, fun eventId before found gone => change.gone found gone,
    fun eventId before after token now is found found' free => ?_,
    fun row mem => .of_check (change.checked sound.checked row mem)⟩
  · have own := (mem_of_find found).2
    cases change.row sound.nodup found found' with
    | same => exact absurd published unpublished
    | claimed token now locked fresh claims => cases published
    | wrote token now kind carried whole =>
      refine ⟨token, now, rfl, carried, ?_⟩
      rw [← own]
      apply whole
      cases kind with
      | renewed => exact absurd published unpublished
      | published => rfl
      | retried => cases published
  · subst is
    cases change.row sound.nodup found found' with
    | same => rfl
    | wrote _ _ kind carried whole =>
      rw [free] at carried
      cases carried

/-- Events stay, with no more recipients, and what came back stays. -/
structure Extends (w v : Outbox) : Prop where
  events : ∀ id row, w.events id = some row → ∃ row', v.events id = some row' ∧ row'.recipients ⊆ row.recipients
  acked : w.acked ⊆ v.acked

theorem Extends.refl (w : Outbox) : Extends w w := ⟨fun _ row at_ => ⟨row, at_, Subset.refl _⟩, Subset.refl _⟩

theorem Extends.of_eq (events : v.events = w.events) (acked : v.acked = w.acked) : Extends w v :=
  ⟨fun _ row at_ => ⟨row, events ▸ at_, Subset.refl _⟩, by rw [acked]; exact Subset.refl _⟩

theorem Extends.isSome (h : Extends w v) {id : String} (known : (w.events id).isSome) : (v.events id).isSome := by
  obtain ⟨row, at_⟩ := Option.isSome_iff_exists.1 known
  obtain ⟨row', at', _⟩ := h.events id row at_
  rw [at']
  rfl

theorem Loaded.mono (h : w.Loaded token point) (extends_ : Extends w v) : v.Loaded token point := by
  refine ⟨fun loaded mem => extends_.isSome (h.known loaded mem), fun loaded mem row' at' => ?_,
    fun loaded pending rest is userId among => (h.acked loaded pending rest is userId among).imp_right fun mem => extends_.acked mem⟩
  obtain ⟨row, at_⟩ := Option.isSome_iff_exists.1 (h.known loaded mem)
  obtain ⟨row'', at'', fewer⟩ := extends_.events _ row at_
  obtain rfl := Option.some.inj (at'.symm.trans at'')
  exact Subset.trans fewer (h.recipients loaded mem row at_)

theorem Loaded.sub {point point' : Point} (h : w.Loaded token point) (sub : point'.loaded ⊆ point.loaded)
    (idle : ∀ loaded pending rest, point' ≠ .publishing loaded pending rest) : w.Loaded token point' :=
  ⟨fun loaded mem => h.known loaded (sub mem), fun loaded mem => h.recipients loaded (sub mem),
    fun loaded pending rest is => absurd is (idle loaded pending rest)⟩

theorem mem_load {eventIds : List String} {loaded : LoadedEvent} (mem : loaded ∈ w.load eventIds) :
    ∃ id, w.events id = some loaded.row := by
  rw [load, Js.mem_sort] at mem
  obtain ⟨id, _, made⟩ := mem_filterMap.1 mem
  obtain ⟨row, at_, rfl⟩ := Option.map_eq_some_iff.1 made
  exact ⟨id, at_⟩

theorem Sound.loads (sound : w.Sound) (token : Nat) (eventIds : List String) : w.Loaded token (.next (w.load eventIds)) := by
  have read : ∀ loaded ∈ w.load eventIds, w.events loaded.id = some loaded.row := by
    intro loaded mem
    obtain ⟨id, at_⟩ := mem_load mem
    rw [LoadedEvent.id, sound.named id _ at_]
    exact at_
  refine ⟨fun loaded mem => ?_, fun loaded mem row at_ => ?_, by simp⟩
  · rw [read loaded mem]
    rfl
  · obtain rfl := Option.some.inj ((read loaded mem).symm.trans at_)
    exact Subset.refl _

/-- Where a turn leaves a dispatcher; the others stay where they are. -/
theorem turn_points (F : Formats) (policy : RealtimeOutboxPolicy) (sound : w.Sound) (token : Nat) (now : Int) :
    (w.turn F policy token now).events = w.events ∧ (w.turn F policy token now).acked = w.acked ∧
      ((w.turn F policy token now).dispatchers = w.dispatchers ∨
        ∃ point, (w.turn F policy token now).dispatchers = update w.dispatchers token (some point) ∧
          w.Loaded token point) := by
  cases at_ : w.dispatchers token with
  | none =>
    simp only [turn, at_]
    exact ⟨trivial, trivial, .inl trivial⟩
  | some point =>
    have loaded := sound.loaded token point at_
    cases point with
    | claimed eventIds =>
      simp only [turn, at_]
      exact ⟨rfl, rfl, .inr ⟨_, rfl, sound.loads token eventIds⟩⟩
    | finished =>
      simp only [turn, at_]
      exact ⟨trivial, trivial, .inl trivial⟩
    | next rest =>
      cases rest with
      | nil =>
        simp only [turn, at_]
        exact ⟨rfl, rfl, .inr ⟨_, rfl, loaded.sub (Subset.refl _) (by simp)⟩⟩
      | cons first rest =>
        simp only [turn, at_]
        split
        · refine ⟨rfl, rfl, .inr ⟨_, rfl, ?_⟩⟩
          dsimp only
          split
          · exact loaded.sub (Subset.refl _) (by simp)
          · exact loaded.sub (subset_cons_self ..) (by simp)
        · exact ⟨rfl, rfl, .inr ⟨_, rfl, loaded.sub (subset_cons_self ..) (by simp)⟩⟩
    | renewed first rest =>
      simp only [turn, at_]
      split
      · exact ⟨rfl, rfl, .inr ⟨_, rfl, loaded.sub (subset_cons_self ..) (by simp)⟩⟩
      split
      · refine ⟨rfl, rfl, .inr ⟨_, rfl, loaded.known, loaded.recipients, ?_⟩⟩
        intro _ _ _ is userId among
        cases is
        exact .inl (mem_dedup.2 among)
      · exact ⟨rfl, rfl, .inr ⟨_, rfl, loaded.sub (Subset.refl _) (by simp)⟩⟩
    | publishing first pending rest =>
      cases pending with
      | nil =>
        simp only [turn, at_]
        exact ⟨rfl, rfl, .inr ⟨_, rfl, loaded.sub (subset_cons_self ..) (by simp)⟩⟩
      | cons =>
        simp only [turn, at_]
        exact ⟨trivial, trivial, .inl trivial⟩
    | failed first errorCode rest =>
      simp only [turn, at_]
      exact ⟨rfl, rfl, .inr ⟨_, rfl, loaded.sub (subset_cons_self ..) (by simp)⟩⟩
    | compacting called =>
      simp only [turn, at_]
      exact ⟨rfl, rfl, .inr ⟨_, rfl, loaded.sub (Subset.refl _) (by simp)⟩⟩

theorem Sound.points (sound : w.Sound) (extends_ : Extends w v)
    (moves : v.dispatchers = update w.dispatchers token (some point)) (loaded : v.Loaded token point)
    (token' : Nat) (point' : Point) (at_ : v.dispatchers token' = some point') : v.Loaded token' point' := by
  rw [moves] at at_
  by_cases same : token' = token
  · subst same
    rw [update_self, Option.some.injEq] at at_
    subst at_
    exact loaded
  · rw [update_of_ne same] at at_
    exact (sound.loaded token' point' at_).mono extends_

theorem idle_loaded (none : point.loaded = [])
    (idle : ∀ loaded pending rest, point ≠ .publishing loaded pending rest) : w.Loaded token point := by
  refine ⟨?_, ?_, fun loaded pending rest is => absurd is (idle loaded pending rest)⟩ <;> simp [none]

theorem Change.known {now : Int} (change : Change policy w (.turn token now) rows) :
    ∀ row ∈ rows, ∃ old ∈ w.rows, old.eventId = row.eventId := by
  intro row mem
  cases change with
  | same => exact ⟨row, mem, rfl⟩
  | wrote _ _ eventId kind whole =>
    obtain ⟨old, there, rfl⟩ := mem_map.1 mem
    refine ⟨old, there, ?_⟩
    split <;> simp
  | compacted => exact ⟨row, mem_of_mem_filter mem, rfl⟩

theorem Sound.step (sound : w.Sound) (ev : OutboxEvent) : (w.step F policy ev).Sound := by
  have change : Change policy w ev (w.step F policy ev).rows := step_change sound ev
  have nodup := change.nodup sound
  have checked := change.checked sound.checked
  cases ev with
  | create row now =>
    simp only [Outbox.step] at nodup checked ⊢
    split at nodup
    · rename_i present
      rw [if_pos present]
      exact sound
    · rename_i new
      rw [if_neg new] at checked ⊢
      have absent : w.events row.event.id = none := by simpa using new
      have keeps : ∀ id row', w.events id = some row' →
          update w.events row.event.id (some row) id = some row' := by
        intro id row' at_
        have other : id ≠ row.event.id := by
          rintro rfl
          cases at_.symm.trans absent
        rw [update_of_ne other, at_]
      have extends_ : Extends w { w with
          events := update w.events row.event.id (some row)
          rows := w.rows ++ [{ eventId := row.event.id, nextAttemptAt := some now }] } :=
        ⟨fun id row' at_ => ⟨row', keeps id row' at_, Subset.refl _⟩, Subset.refl _⟩
      refine ⟨fun id row' at_ => ?_, fun other mem => ?_, nodup, checked, fun token point at_ =>
        (sound.loaded token point at_).mono extends_⟩
      · by_cases same : id = row.event.id
        · subst same
          simp only [update_self, Option.some.injEq] at at_
          rw [at_]
        · simp only [update_of_ne same] at at_
          exact sound.named id row' at_
      · obtain old | added := mem_append.1 mem
        · exact extends_.isSome (sound.known other old)
        · obtain rfl := mem_singleton.1 added
          simp
  | forget userId =>
    have extends_ : Extends w (w.step F policy (.forget userId)) := by
      refine ⟨fun id row at_ => ⟨_, congrArg (Option.map _) at_, filter_subset_self _⟩, Subset.refl _⟩
    refine ⟨fun id row at_ => ?_, fun row mem => extends_.isSome (sound.known row mem), nodup, checked,
      fun token point at_ => (sound.loaded token point at_).mono extends_⟩
    obtain ⟨row', at', rfl⟩ := Option.map_eq_some_iff.1 at_
    exact sound.named id row' at'
  | claim token now locked =>
    simp only [Outbox.step] at nodup checked ⊢
    split at nodup
    · rename_i begun
      rw [if_pos begun]
      exact sound
    · rename_i fresh
      rw [if_neg fresh] at checked ⊢
      refine ⟨sound.named, fun row mem => ?_, nodup, checked, sound.points (.of_eq rfl rfl) rfl ?_⟩
      · obtain ⟨old, there, rfl⟩ := mem_map.1 mem
        have known := sound.known old there
        split <;> exact known
      · split <;> exact idle_loaded rfl (by simp)
  | turn token now =>
    obtain ⟨events, acked, moves⟩ := turn_points F policy sound token now
    have extends_ : Extends w (w.turn F policy token now) := .of_eq events acked
    refine ⟨fun id row at_ => sound.named id row (events ▸ at_), fun row mem => ?_, nodup, checked, ?_⟩
    · obtain ⟨old, there, same⟩ := change.known row mem
      exact same ▸ extends_.isSome (sound.known old there)
    · obtain same | ⟨point, moved, loaded⟩ := moves
      · intro token' point' at_
        exact (sound.loaded token' point' (same ▸ at_)).mono extends_
      · exact sound.points extends_ moved (loaded.mono extends_)
  | acknowledge token userId =>
    simp only [Outbox.step, acknowledge]
    split
    · rename_i loaded pending rest at_
      split
      · rename_i waiting
        have holds := sound.loaded token _ at_
        have extends_ : Extends w { w.setPoint token (.publishing loaded (pending.erase userId) rest) with
            acked := (token, loaded.id, userId) :: w.acked } :=
          ⟨(Extends.refl w).events, subset_cons_self ..⟩
        refine ⟨sound.named, sound.known, sound.nodup, sound.checked, sound.points extends_ rfl ?_⟩
        have kept := holds.mono extends_
        refine ⟨kept.known, kept.recipients, ?_⟩
        intro _ _ _ is other among
        cases is
        obtain still | done := holds.acked loaded pending rest rfl other among
        · by_cases same : other = userId
          · subst same
            exact .inr mem_cons_self
          · exact .inl ((mem_erase_of_ne same).2 still)
        · exact .inr (mem_cons_of_mem _ done)
      · exact sound
    · exact sound
  | publishFails token =>
    simp only [Outbox.step, publishFails]
    split
    · rename_i loaded pending rest at_
      refine ⟨sound.named, sound.known, sound.nodup, sound.checked, sound.points (.of_eq rfl rfl) rfl ?_⟩
      have moved : w.Loaded token (.failed loaded "redis_publish_failed" rest) :=
        (sound.loaded token _ at_).sub (Subset.refl _) (by simp)
      exact moved.mono (.of_eq rfl rfl)
    · exact sound
  | crash token =>
    simp only [Outbox.step]
    split
    · exact ⟨sound.named, sound.known, sound.nodup, sound.checked, sound.points (.of_eq rfl rfl) rfl
        (idle_loaded rfl (by simp))⟩
    · exact sound

variable {after : OutboxRow}

/-- A row that was not there is a new one, in nobody's hands. -/
theorem Change.fresh (change : Change policy w ev rows)
    (absent : find eventId w.rows = none) (found : find eventId rows = some after) (token : Nat) :
    after.carries token = false := by
  cases change with
  | same => cases absent.symm.trans found
  | created row now new =>
    rw [find, Rows.find, find?_append, show find? _ w.rows = none from absent, Option.none_or] at found
    have mem := mem_of_find?_eq_some found
    obtain rfl := mem_singleton.1 mem
    rfl
  | claimed token now locked eventIds fresh claims =>
    rw [find_map (by intro row; split <;> rfl), absent] at found
    cases found
  | wrote token now eventId' kind whole =>
    rw [updateCarried, find_map (by intro row; split <;> simp), absent] at found
    cases found
  | compacted token now called point =>
    obtain ⟨mem, own⟩ := mem_of_find found
    obtain ⟨row, there⟩ := find_isSome_of_mem (mem_of_mem_filter mem) own
    cases absent.symm.trans there

/-- A lease is taken anew by none but a dispatcher that begins. -/
theorem Change.uncarried (sound : w.Sound) (change : Change policy w ev rows)
    (begun : (w.dispatchers token).isSome) (lost : ¬ w.Carried token eventId)
    (found : find eventId rows = some after) : after.carries token = false := by
  cases there : find eventId w.rows with
  | none => exact change.fresh there found token
  | some before =>
    have free : before.carries token = false := by
      by_contra carries
      exact lost ⟨before, there, by simpa using carries⟩
    cases change.row sound.nodup there found with
    | same => exact free
    | claimed token' now locked fresh claims =>
      have other : token' ≠ token := by
        rintro rfl
        simp [fresh] at begun
      simp [OutboxRow.carries, OutboxRow.claimed, other]
    | wrote token' now kind carried whole =>
      simp only [OutboxRow.carries, Bool.and_eq_true, decide_eq_true_eq] at carried
      have other : token' ≠ token := by
        rintro rfl
        simp [OutboxRow.carries, carried.1, carried.2] at free
      cases kind with
      | renewed => simp [OutboxRow.carries, Write.apply, OutboxRow.renewed, carried.2, other]
      | published => simp [OutboxRow.carries, Write.apply, OutboxRow.published]
      | retried => simp [OutboxRow.carries, Write.apply, OutboxRow.retried]

/-- The turn of an event begins where its row is found with the token. -/
theorem turn_turnOf (sound : w.Sound) (token : Nat) (now : Int) (token' : Nat) :
    ∀ loaded ∈ ((w.turn F policy token now).dispatchers token').bind Point.turnOf,
      loaded ∈ (w.dispatchers token').bind Point.turnOf ∨ (token' = token ∧ w.Carried token loaded.id) := by
  intro loaded mem
  by_cases same : token' = token
  · subst same
    cases at_ : w.dispatchers token' with
    | none =>
      simp only [turn, at_] at mem
      cases mem
    | some point =>
      cases point with
      | claimed eventIds =>
        simp [turn, at_, setPoint, Point.turnOf] at mem
      | finished => simp [turn, at_, Point.turnOf] at mem
      | next rest =>
        cases rest with
        | nil => simp [turn, at_, setPoint, Point.turnOf] at mem
        | cons first rest =>
          simp only [turn, at_] at mem
          split at mem
          · simp only [write, setPoint, updateCarried, update_self, Option.bind_some] at mem
            split at mem
            · rename_i matched
              simp only [Point.turnOf, Option.mem_some_iff] at mem
              subst mem
              obtain ⟨row, found, carries⟩ := (Option.any_eq_true _ _).1 matched
              exact .inr ⟨rfl, row, found, carries⟩
            · cases mem
          · simp [setPoint, Point.turnOf] at mem
      | renewed first rest =>
        left
        simp only [turn, at_] at mem
        split at mem
        · simp [write, setPoint, Point.turnOf] at mem
        · split at mem
          · simpa [setPoint, Point.turnOf] using mem
          · simpa [setPoint, Point.turnOf] using mem
      | publishing first pending rest =>
        left
        cases pending with
        | nil => simp [turn, at_, write, setPoint, Point.turnOf] at mem
        | cons => simpa [turn, at_, Point.turnOf] using mem
      | failed first errorCode rest => simp [turn, at_, write, setPoint, Point.turnOf] at mem
      | compacting called => simp [turn, at_, setPoint, Point.turnOf] at mem
  · left
    obtain ⟨_, _, kept | ⟨point, moved, _⟩⟩ := turn_points F policy sound token now
    · rw [kept] at mem
      exact mem
    · rw [moved, update_of_ne same] at mem
      exact mem

theorem setPoint_other {token' : Nat} (other : token' ≠ token) :
    (w.setPoint token point).dispatchers token' = w.dispatchers token' := update_of_ne other ..

/-- What is lost stays lost. -/
theorem Lost.step (sound : w.Sound) (lost : w.Lost token eventId) (ev : OutboxEvent) :
    (w.step F policy ev).Lost token eventId := by
  have change : Change policy w ev (w.step F policy ev).rows := step_change sound ev
  have uncarried : ¬ (w.step F policy ev).Carried token eventId := by
    rintro ⟨row, found, carries⟩
    rw [change.uncarried sound lost.begun lost.uncarried found] at carries
    cases carries
  have unmoved : (w.step F policy ev).dispatchers token = w.dispatchers token → (w.step F policy ev).Lost token eventId :=
    fun same => ⟨same ▸ lost.begun, uncarried, same ▸ lost.outside⟩
  cases ev with
  | create row now =>
    apply unmoved
    simp only [Outbox.step]
    split <;> rfl
  | forget => exact unmoved rfl
  | claim token' now locked =>
    apply unmoved
    simp only [Outbox.step]
    split
    · rfl
    · rename_i fresh
      refine setPoint_other fun same => ?_
      rw [same] at lost
      exact fresh lost.begun
  | turn token' now =>
    refine ⟨?_, uncarried, fun loaded mem => ?_⟩
    · obtain ⟨_, _, kept | ⟨point, moved, _⟩⟩ := turn_points F policy sound token' now
      · exact kept ▸ lost.begun
      · simp only [Outbox.step, moved]
        by_cases same : token = token'
        · simp [same]
        · rw [update_of_ne same]
          exact lost.begun
    · obtain old | ⟨rfl, carried⟩ := turn_turnOf sound token' now token loaded mem
      · exact lost.outside loaded old
      · rintro rfl
        exact lost.uncarried carried
  | acknowledge token' userId =>
    by_cases same : token = token'
    · subst same
      simp only [Outbox.step, acknowledge]
      split
      · rename_i loaded pending rest at_
        split
        · refine ⟨by simp [setPoint], lost.uncarried, fun other mem => ?_⟩
          have outside := lost.outside loaded (by simp [at_, Point.turnOf])
          simp only [setPoint, update_self, Option.bind_some, Point.turnOf, Option.mem_some_iff] at mem
          exact mem ▸ outside
        · exact lost
      · exact lost
    · apply unmoved
      simp only [Outbox.step, acknowledge]
      split
      · split
        · exact setPoint_other same
        · rfl
      · rfl
  | publishFails token' =>
    by_cases same : token = token'
    · subst same
      simp only [Outbox.step, publishFails]
      split
      · rename_i loaded pending rest at_
        refine ⟨by simp [setPoint], lost.uncarried, fun other mem => ?_⟩
        have outside := lost.outside loaded (by simp [at_, Point.turnOf])
        simp only [setPoint, update_self, Option.bind_some, Point.turnOf, Option.mem_some_iff] at mem
        exact mem ▸ outside
      · exact lost
    · apply unmoved
      simp only [Outbox.step, publishFails]
      split
      · exact setPoint_other same
      · rfl
  | crash token' =>
    by_cases same : token = token'
    · subst same
      simp only [Outbox.step]
      rw [if_pos lost.begun]
      refine ⟨by simp [setPoint], lost.uncarried, fun other mem => ?_⟩
      simp [setPoint, Point.turnOf] at mem
    · apply unmoved
      simp only [Outbox.step]
      split
      · exact setPoint_other same
      · rfl

end Outbox

theorem OutboxStart.sound (start : OutboxStart) : start.outbox.Sound :=
  ⟨start.named, start.known, start.nodup, start.checked, by simp [OutboxStart.outbox]⟩

/-- Realtime outbox delivery. -/
theorem outbox_delivers (F : Formats) (policy : RealtimeOutboxPolicy) (start : OutboxStart) (evs : List OutboxEvent) :
    Along (Outbox.step F policy) (Outbox.Guards F policy) start.outbox evs ∧
      ∀ before after token eventId, evs = before ++ after →
        (before.foldl (Outbox.step F policy) start.outbox).Lost token eventId →
        (evs.foldl (Outbox.step F policy) start.outbox).Lost token eventId := by
  have sound : ∀ evs : List OutboxEvent, (evs.foldl (Outbox.step F policy) start.outbox).Sound := fun evs =>
    invariant (P := Outbox.Sound) (fun _ ev sound => Outbox.Sound.step sound ev) evs start.sound
  constructor
  · exact along_of_invariant (fun _ ev _ sound => Outbox.Sound.guards sound ev)
      (fun _ ev _ sound => Outbox.Sound.step sound ev) (along_of_forall (C := fun _ _ => True) fun _ _ _ => trivial)
      start.sound
  · rintro before after token eventId rfl lost
    rw [foldl_append]
    let lostAfter := after.foldl (Outbox.step F policy) (before.foldl (Outbox.step F policy) start.outbox)
    have both : lostAfter.Sound ∧ lostAfter.Lost token eventId := invariant
      (P := fun w : Outbox => w.Sound ∧ w.Lost token eventId) (fun _ ev held => ⟨Outbox.Sound.step held.1 ev, Outbox.Lost.step held.1 held.2 ev⟩) after ⟨sound before, lost⟩
    exact both.2

end Vimla.Realtime
