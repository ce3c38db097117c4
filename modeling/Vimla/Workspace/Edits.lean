import Vimla.Workspace.Fields

/-!
# Concurrent edits

Every run of any number of update calls and of the statements of the reminder
delivery. Where each write finds the fields it does not supply as its call has
read them, no edit is lost.
-/

namespace Vimla.Workspace

section
open Threads Threads.Program Patches List

variable {c : Config} {s t u : Tables} {me : Nat} {call : Call} {row : WorkspaceObject}

def WorkspaceObject.Completed (row : WorkspaceObject) : Prop := ∀ task ∈ row.task, task.status = .DONE ↔ task.completedAt.isSome

structure Sound (s : Tables) : Prop where
  ids : (s.objects.map WorkspaceObject.id).Nodup
  completed : ∀ row ∈ s.objects, row.Completed
  writers : (s.log.filterMap Entry.writer).Nodup

/-- Every object has what the entries supply. -/
def Follows (new : List Entry) (s t : Tables) : Prop :=
  t.log = s.log ++ new ∧
    ∀ o ∈ s.objects, ∃ o' ∈ t.objects, o'.id = o.id ∧ Written WorkspaceObject.get (Entry.given o.id) new o o'

theorem Follows.trans {first second : List Entry} (one : Follows first s t) (two : Follows second t u) :
    Follows (first ++ second) s u := by
  refine ⟨by rw [two.1, one.1, append_assoc], fun o mem => ?_⟩
  obtain ⟨o', mem', same, written⟩ := one.2 o mem
  obtain ⟨o'', mem'', same', written'⟩ := two.2 o' mem'
  rw [same] at written'
  exact ⟨o'', mem'', same'.trans same, written.append written'⟩

theorem Follows.refl (s : Tables) : Follows [] s s := ⟨by simp, fun o mem => ⟨o, mem, rfl, .nil⟩⟩

/-- What a thread relies on: nobody writes in its name. -/
def Later (me : Nat) (s t : Tables) : Prop := ∀ e : Entry, e.writer = some me → (e ∈ t.log ↔ e ∈ s.log)

/-- The step writes what its entries supply, in the name of `writer`. -/
def Grows (writer : Option Nat) (s t : Tables) : Prop := ∃ new, Follows new s t ∧ ∀ e ∈ new, e.writer = writer

theorem Grows.later {writer : Option Nat} (grows : Grows writer s t) (other : writer ≠ some me) : Later me s t := by
  obtain ⟨new, follows, writers⟩ := grows
  intro e mine
  rw [follows.1, mem_append]
  refine ⟨fun mem => mem.resolve_right fun added => ?_, .inl⟩
  exact other ((writers e added).symm.trans mine)

theorem Grows.refl (writer : Option Nat) (s : Tables) : Grows writer s s := ⟨[], .refl s, by simp⟩

/-- A write of one entry, to the rows that it is about. -/
theorem Sound.apply (sound : Sound s) {f : WorkspaceObject → WorkspaceObject} {entry : Entry}
    (id : ∀ row, (f row).id = row.id) (completed : ∀ row, row.Completed → (f row).Completed)
    (writes : ∀ row ∈ s.objects, Writes WorkspaceObject.get (Entry.given row.id) entry row (f row))
    (fresh : ∀ me, entry.writer = some me → ∀ e ∈ s.log, e.writer ≠ some me) :
    Sound ⟨s.objects.map f, s.log ++ [entry]⟩ ∧ Grows entry.writer s ⟨s.objects.map f, s.log ++ [entry]⟩ := by
  refine ⟨⟨?_, fun row mem => ?_, ?_⟩, [entry], ⟨rfl, fun o mem => ?_⟩, by simp⟩
  · have same : (s.objects.map f).map WorkspaceObject.id = s.objects.map WorkspaceObject.id := by
      rw [map_map]
      exact map_congr_left fun row _ => id row
    exact same ▸ sound.ids
  · obtain ⟨old, listed, rfl⟩ := mem_map.1 mem
    exact completed old (sound.completed old listed)
  · rw [filterMap_append]
    refine nodup_append.2 ⟨sound.writers, ?_, fun a old b new same => ?_⟩
    · cases writer : entry.writer <;> simp [writer]
    · obtain ⟨e, mem, is⟩ := mem_filterMap.1 old
      obtain ⟨e', mem', is'⟩ := mem_filterMap.1 new
      rw [mem_singleton.1 mem'] at is'
      exact fresh b is' e mem (same ▸ is)
  · exact ⟨f o, mem_map_of_mem mem, id o, (writes o mem).written⟩

variable {existing : WorkspaceObject} {now : Int} {data : Data} {id : String} {entry : Entry}

theorem merge_completed {input : Update} (ok : merge c input existing now = .ok data) (completed : row.Completed) :
    (row.written data).Completed := by
  intro task mem
  obtain ⟨old, here, rfl⟩ := Option.mem_map.1 mem
  rcases merge_task ok with same | together
  · rw [same]
    exact completed old here
  · exact together old

theorem updatePending_id (id : String) (p : WorkspaceReminder → Bool) (f : WorkspaceReminder → WorkspaceReminder) (row : WorkspaceObject) :
    (updatePending id p f row).id = row.id := by
  unfold updatePending
  split <;> rfl

theorem updatePending_completed (id : String) (p : WorkspaceReminder → Bool) (f : WorkspaceReminder → WorkspaceReminder)
    (row : WorkspaceObject) (completed : row.Completed) : (updatePending id p f row).Completed := by
  unfold updatePending
  split <;> exact completed

/-- Where the row is as before, an entry that supplies nothing to it writes it. -/
theorem writes_other (other : entry.id ≠ id) : Writes WorkspaceObject.get (Entry.given id) entry row row := fun f => by
  simp [Entry.given, other]

theorem writes_own {row' : WorkspaceObject} (own : entry.id = id)
    (writes : Writes WorkspaceObject.get Patch.given entry.patch row row') :
    Writes WorkspaceObject.get (Entry.given id) entry row row' := fun f => by
  simpa [Entry.given, own] using writes f

/-- The statement on a pending reminder supplies its status and nothing else. -/
theorem updatePending_writes {p : WorkspaceReminder → Bool} {f : WorkspaceReminder → WorkspaceReminder}
    {v : ReminderStatus} {patch : Patch}
    (sets : ∀ r, f r = { r with status := v, deliveredAt := (f r).deliveredAt })
    (given : patch.given (.reminder .status) = some (some v))
    (others : ∀ g, g ≠ .reminder .status → patch.given g = none) (changed : updatePending id p f row ≠ row) :
    row.id = id ∧ Writes WorkspaceObject.get Patch.given patch row (updatePending id p f row) := by
  unfold updatePending at changed ⊢
  split at changed
  swap
  · exact absurd rfl changed
  rename_i own
  rw [if_pos own]
  refine ⟨own, ?_⟩
  cases here : row.reminder with
  | none =>
    rw [here] at changed
    exact absurd (by rw [Option.map_none, ← here]) changed
  | some r =>
    rw [here] at changed
    rw [Option.map_some] at changed ⊢
    split at changed
    swap
    · exact absurd (by rw [← here]) changed
    rename_i pending
    rw [if_pos pending]
    intro g
    by_cases status : g = .reminder .status
    · subst status
      rw [given, sets r]
      rfl
    · rw [others g status, sets r]
      cases g with
      | archived | task g | list g | note g => rfl
      | reminder g =>
        cases g with
        | status => exact absurd rfl status
        | title | description | scheduledAt | timezone | linkedTaskId => simp [WorkspaceObject.get, here, WorkspaceReminder.get]

/-- No entry is by this thread. -/
def Fresh (me : Nat) (s : Tables) : Prop := ∀ e ∈ s.log, e.writer ≠ some me

theorem write_sound (sound : Sound s) (ok : merge c call.input existing now = .ok data)
    (there : (s.objects.any fun row => row.id = call.id ∧ row.has call.input.kind) = true)
    (asRead : ∀ row ∈ s.objects, row.id = call.id → AsRead call.input existing row) (fresh : Fresh me s) :
    let t : Tables := ⟨Rows.update WorkspaceObject.id call.id (WorkspaceObject.written data) s.objects,
      s.log ++ [⟨call.id, some me, .call call.input⟩]⟩
    Sound t ∧ Grows (some me) s t := by
  refine @Sound.apply s sound _ ⟨call.id, some me, .call call.input⟩ (fun row => ?_) (fun row completed => ?_)
    (fun row mem => ?_) fun other mine => ?_
  · split <;> rfl
  · split
    · exact merge_completed ok completed
    · exact completed
  · split
    · rename_i own
      refine writes_own own.symm (merge_writes ok ?_ (asRead row mem own))
      obtain ⟨row', mem', holds⟩ := any_eq_true.1 there
      have holds := of_decide_eq_true holds
      exact Rows.eq_of_key sound.ids mem mem' (own.trans holds.1.symm) ▸ holds.2
    · rename_i other
      exact writes_other (Ne.symm other)
  · cases mine
    exact fresh

/-- A statement on a pending reminder. -/
theorem apply_sound {p : WorkspaceReminder → Bool} {f : WorkspaceReminder → WorkspaceReminder}
    {v : ReminderStatus} {patch : Patch} (sets : ∀ r, f r = { r with status := v, deliveredAt := (f r).deliveredAt })
    (given : patch.given (.reminder .status) = some (some v)) (others : ∀ g, g ≠ .reminder .status → patch.given g = none)
    (sound : Sound s) : Sound (s.apply id (updatePending id p f) patch) ∧ Grows none s (s.apply id (updatePending id p f) patch) := by
  unfold Tables.apply
  split
  · rename_i same
    rw [same]
    exact ⟨sound, .refl none s⟩
  rename_i changed
  obtain ⟨row, mem, moves⟩ : ∃ row ∈ s.objects, updatePending id p f row ≠ row := by
    by_contra none
    push Not at none
    exact changed ((map_congr_left none).trans (map_id _))
  obtain ⟨own, writes⟩ := updatePending_writes sets given others moves
  refine @Sound.apply s sound _ ⟨id, none, patch⟩ (updatePending_id id p f) (updatePending_completed id p f) (fun row' mem' => ?_) nofun
  by_cases here : row'.id = id
  · obtain rfl : row' = row := Rows.eq_of_key sound.ids mem' mem (here.trans own.symm)
    exact writes_own own.symm writes
  · rw [updatePending, if_neg here]
    exact writes_other (Ne.symm here)

theorem change_sound (sound : Sound s) (change : Change) : Sound (s.change change) ∧ Grows none s (s.change change) := by
  cases change with
  | delivered id now =>
    refine @apply_sound _ id _ _ .DELIVERED .delivered (fun r => rfl) rfl (fun g other => ?_) sound
    cases g with
    | reminder g => cases g <;> first | rfl | exact absurd rfl other
    | _ => rfl
  | expired id =>
    refine @apply_sound _ id _ _ .FAILED .expired (fun r => rfl) rfl (fun g other => ?_) sound
    cases g with
    | reminder g => cases g <;> first | rfl | exact absurd rfl other
    | _ => rfl

end

/-!
# No edit is lost

The contract of an update call, and what it gives over every interleaving.
-/

open Threads Threads.Program Patches

variable {c : Config} {s t : Tables} {me : Nat} {call : Call}

/-- A write finds the fields that it does not supply as its call has read them. -/
def Careful (s : Tables) : (l : Step) → Draw l → Prop
  | .write call existing, d => d.fate ≠ .undone → ∀ row ∈ s.objects, row.id = call.id → AsRead call.input existing row
  | _, _ => True

instance (s : Tables) (l : Step) (d : Draw l) : Decidable (Careful s l d) := by
  unfold Careful
  split <;> infer_instance

def discipline : Discipline Step Draw Tables where
  inv := Sound
  admits l s d := Careful s l d
  rely := Later
  guarantee me := Grows (some me)
  refl _ _ _ _ := Iff.rfl
  trans _ _ _ _ first second e mine := (second e mine).trans (first e mine)
  compatible _ _ _ _ other _ grows := grows.later fun same => other (Option.some.inj same)

instance : ∀ l s d, Decidable (discipline.admits l s d) := fun l s d => inferInstanceAs (Decidable (Careful s l d))

/-- What the thread has written is its own input. -/
def Mine (me : Nat) (call : Call) (s : Tables) : Prop :=
  ∀ e ∈ s.log, e.writer = some me → e.id = call.id ∧ e.patch = .call call.input

/-- A call that has answered has written. -/
def Ended (me : Nat) (call : Call) (r : Except Failure View) (s : Tables) : Prop :=
  Mine me call s ∧ ((∃ view, r = .ok view) → ∃ e ∈ s.log, e.writer = some me)

theorem Mine.failed (mine : Mine me call s) (e : Failure) : Ended me call (.error e) s := by
  refine ⟨mine, fun answered => ?_⟩
  obtain ⟨view, same⟩ := answered
  cases same

theorem Fresh.mine (fresh : Fresh me s) : Mine me call s := fun e mem writer => absurd writer (fresh e mem)

theorem Fresh.later (fresh : Fresh me s) (later : Later me s t) : Fresh me t :=
  fun e mem writer => fresh e ((later e writer).1 mem) writer

theorem Mine.later (mine : Mine me call s) (later : Later me s t) : Mine me call t :=
  fun e mem writer => mine e ((later e writer).1 mem) writer

/-- The call has written. -/
def Wrote (me : Nat) (call : Call) (s : Tables) : Prop := Mine me call s ∧ ∃ e ∈ s.log, e.writer = some me

theorem Wrote.later (wrote : Wrote me call s) (later : Later me s t) : Wrote me call t := by
  obtain ⟨mine, e, mem, writer⟩ := wrote
  exact ⟨mine.later later, e, (later e writer).2 mem, writer⟩

def Meets (me : Nat) (call : Call) (p : Process View) (h : History Draw) (s : Tables) : Prop :=
  discipline.wp me (fun _ _ s => Mine me call s) (fun r _ s => Ended me call r s) p h s

variable {h : History Draw} {α : Type}

variable {l : Step} {P : Tables → Prop} {k : Unit → Process View}

/-- A query that writes nothing. -/
theorem meets_read {f : Tables → At → Except Failure (α × Tables)} {k : α → Process View}
    (reads : ∀ s d a t, f s d = .ok (a, t) → t = s) (stable : ∀ s t, Later me s t → P s → P t)
    (mine : ∀ s, P s → Mine me call s) (rest : ∀ t a h, P t → Meets me call (k a) h t) (now : P s) :
    Meets me call ((query l f).bind k) h s := by
  refine Discipline.wp_bind (Discipline.wp_transact (fun t _ => Grows.refl _ t) fun t sound later => ?_)
  have here := stable s t later now
  refine ⟨mine t here, fun e _ => (mine t here).failed e, fun d _ a u ok _ => ?_⟩
  obtain rfl := reads t d a u ok
  exact ⟨sound, Grows.refl _ _, fun e _ => (mine _ here).failed e, fun h' => rest _ a h' here⟩

theorem meets_lift {r : Except Failure α} {k : α → Process View} (mine : Mine me call s)
    (rest : ∀ a, Meets me call (k a) h s) : Meets me call ((lift r).bind k) h s := by
  cases r with
  | error e => exact mine.failed e
  | ok a => exact rest a

theorem meets_load {k : WorkspaceObject → Process View} (stable : ∀ s t, Later me s t → P s → P t)
    (mine : ∀ s, P s → Mine me call s) (rest : ∀ t row h, P t → Meets me call (k row) h t) (now : P s) :
    Meets me call ((load l call).bind k) h s := by
  refine meets_read (fun s d row t ok => ?_) stable mine rest now
  split at ok <;> cases ok
  rfl

theorem meets_assertLinkedTask {linked : Option String} (stable : ∀ s t, Later me s t → P s → P t)
    (mine : ∀ s, P s → Mine me call s) (rest : ∀ t a h, P t → Meets me call (k a) h t) (now : P s) :
    Meets me call ((assertLinkedTask call linked).bind k) h s := by
  cases linked with
  | none => exact rest s () h now
  | some taskId =>
    refine meets_read (fun s d a t ok => ?_) stable mine rest now
    split at ok <;> cases ok
    rfl

/-- The write: after it the thread has its entry. -/
theorem meets_write {existing : WorkspaceObject} (rest : ∀ t h, Wrote me call t → Meets me call (k ()) h t)
    (fresh : Fresh me s) : Meets me call ((write c me call existing).bind k) h s := by
  refine Discipline.wp_bind (Discipline.wp_transact (fun t _ => Grows.refl _ t) fun t sound later => ?_)
  have fresh := fresh.later later
  refine ⟨fresh.mine, fun e _ => fresh.mine.failed e, fun d careful a u ok executed => ?_⟩
  split at ok
  · cases ok
  rename_i data merged
  split at ok
  swap
  · cases ok
  rename_i there
  cases ok
  obtain ⟨sound', grows⟩ := write_sound sound merged there (careful executed) fresh
  have wrote : Wrote me call ⟨Rows.update WorkspaceObject.id call.id (WorkspaceObject.written data) t.objects,
      t.log ++ [⟨call.id, some me, .call call.input⟩]⟩ := by
    refine ⟨fun e mem writer => ?_, _, List.mem_append_right _ List.mem_cons_self, rfl⟩
    rcases List.mem_append.1 mem with old | new
    · exact absurd writer (fresh e old)
    · rw [List.mem_singleton.1 new]
      exact ⟨rfl, rfl⟩
  exact ⟨sound', grows, fun e _ => wrote.1.failed e, fun h' => rest _ h' wrote⟩

theorem meets_update (fresh : Fresh me s) : Meets me call (update c me call) h s := by
  have before : ∀ s t, Later me s t → Fresh me s → Fresh me t := fun _ _ later fresh => fresh.later later
  have after : ∀ s t, Later me s t → Wrote me call s → Wrote me call t := fun _ _ later wrote => wrote.later later
  refine meets_load before (fun _ fresh => fresh.mine) (fun s existing h fresh => ?_) fresh
  refine meets_lift fresh.mine fun _ => ?_
  refine meets_assertLinkedTask before (fun _ fresh => fresh.mine) (fun s _ h fresh => ?_) fresh
  refine meets_write (fun s h wrote => ?_) fresh
  refine meets_load after (fun _ wrote => wrote.1) (fun s row h wrote => ?_) wrote
  cases toView row call.input.kind with
  | error e => exact wrote.1.failed e
  | ok view => exact ⟨wrote.1, fun _ => wrote.2⟩

def contract (c : Config) : Contract (service c) discipline fun _ _ => True where
  idle := Fresh
  during me call _ _ s := Mine me call s
  ends me call r _ s := Ended me call r s
  idle_rely _ _ _ later fresh := fresh.later later
  ends_rely _ _ _ _ _ _ later ended := by
    refine ⟨ended.1.later later, fun answered => ?_⟩
    obtain ⟨e, mem, writer⟩ := ended.2 answered
    exact ⟨e, (later e writer).2 mem, writer⟩
  programs _ _ _ _ fresh := meets_update fresh
  environment s change sound _ := by
    obtain ⟨sound', grows⟩ := change_sound sound change
    exact ⟨sound', fun _ => grows.later nofun⟩

abbrev Editing := World Step Draw Tables Failure View Call

/-- What has been written between two moments. -/
def since (w w' : Editing) : List Entry := w'.state.log.drop w.state.log.length

/-- What holds of a later `w'`, against `w`. -/
structure EditsHold (w w' : Editing) : Prop where
  /-- What is written in the name of a call is its input. -/
  own : ∀ e ∈ w'.state.log, ∀ me, e.writer = some me →
    ∃ thread, w'.threads[me]? = some thread ∧ e.id = thread.input.id ∧ e.patch = .call thread.input.input
  once : (w'.state.log.filterMap Entry.writer).Nodup
  answered : ∀ me thread view, w'.threads[me]? = some thread → thread.program = .pure view → ∃ e ∈ w'.state.log, e.writer = some me
  /-- A field that was supplied once has that value, and one that was not has its own. -/
  fields : ∀ o ∈ w.state.objects, ∃ o' ∈ w'.state.objects, o'.id = o.id ∧ ∀ f,
    (∀ v, supplied (Entry.given o.id) (since w w') f = [v] → o'.get f = v) ∧
      (supplied (Entry.given o.id) (since w w') f = [] → o'.get f = o.get f)
  completed : ∀ o ∈ w'.state.objects, o.Completed
  /-- A reminder that is pending again was asked to be. -/
  reopened : ∀ o ∈ w.state.objects, ∀ r, o.reminder = some r → r.status ≠ .PENDING →
    ∀ o' ∈ w'.state.objects, o'.id = o.id → ∀ r', o'.reminder = some r' → r'.status = .PENDING →
      ∃ e ∈ since w w', e.id = o.id ∧ ∃ input, e.patch = .call (.reminder input) ∧ input.status = some .PENDING

theorem given_pending {patch : Patch} (asks : patch.given (.reminder .status) = some (some .PENDING)) :
    ∃ input, patch = .call (.reminder input) ∧ input.status = some .PENDING := by
  cases patch with
  | delivered | expired => cases asks
  | call input =>
    cases input with
    | task _ | list _ | note _ => cases asks
    | reminder input =>
      refine ⟨input, rfl, ?_⟩
      have asks : (input.status.map AskedStatus.toStatus).map some = some (some ReminderStatus.PENDING) := asks
      cases status : input.status with
      | none => simp [status] at asks
      | some asked => cases asked <;> simp [status, AskedStatus.toStatus] at asks ⊢

/-- The thread of a number has written nothing but its own input. -/
theorem own_of_holds {w : Editing} (holds : (contract c).Holds w) {e : Entry} (mem : e ∈ w.state.log) (writer : e.writer = some me) :
    ∃ thread, w.threads[me]? = some thread ∧ e.id = thread.input.id ∧ e.patch = .call thread.input.input := by
  cases found : w.threads[me]? with
  | none => exact absurd writer (holds.idle found e mem)
  | some thread =>
    refine ⟨thread, rfl, ?_⟩
    have meets := holds.thread found
    have mine : Mine me thread.input w.state := by
      cases program : thread.program with
      | pure view | fail error =>
        rw [program] at meets
        exact meets.1
      | step l act next =>
        rw [program] at meets
        exact (meets w.state holds.1 (discipline.refl me _)).1
    exact mine e mem writer

/-- In a run whose writes are careful, at any moment and at any later one. -/
theorem edits_hold (c : Config) (s : Tables) (sound : Sound s) (nothing : s.log = []) (events more : List (Event Step Draw Call Change))
    (careful : Runs.Along (World.step (service c)) (Admitted discipline fun _ _ => True) ⟨s, []⟩ (events ++ more)) :
    EditsHold (events.foldl (World.step (service c)) ⟨s, []⟩) ((events ++ more).foldl (World.step (service c)) ⟨s, []⟩) := by
  obtain ⟨first, rest⟩ := Runs.along_append.1 careful
  have holds := Contract.run first ((contract c).start sound fun me e mem => by simp [nothing] at mem)
  rw [List.foldl_append]
  generalize events.foldl (World.step (service c)) ⟨s, []⟩ = w at holds rest
  have holds' := Contract.run rest holds
  have grows : ∃ new, Follows new w.state (more.foldl (World.step (service c)) w).state := by
    refine Contract.later (R := fun s t => ∃ new, Follows new s t) (fun s => ⟨[], .refl s⟩) (fun _ _ _ one two => ?_)
      (fun _ _ _ _ grows => ?_) (fun _ change sound _ => ?_) rest holds
    · obtain ⟨new, follows⟩ := one
      obtain ⟨new', follows'⟩ := two
      exact ⟨new ++ new', follows.trans follows'⟩
    · obtain ⟨new, follows, -⟩ := grows
      exact ⟨new, follows⟩
    · obtain ⟨-, new, follows, -⟩ := change_sound sound change
      exact ⟨new, follows⟩
  generalize more.foldl (World.step (service c)) w = w' at holds' grows
  obtain ⟨new, log, follows⟩ := grows
  have since : since w w' = new := by rw [since, log, List.drop_left]
  refine ⟨fun e mem me writer => own_of_holds holds' mem writer, holds'.1.writers, fun me thread view found ended => ?_,
    fun o mem => ?_, holds'.1.completed, fun o mem r here waiting o' mem' same r' here' pending => ?_⟩
  · have meets := holds'.thread found
    rw [ended] at meets
    exact meets.2 ⟨view, rfl⟩
  · obtain ⟨o', mem', same, written⟩ := follows o mem
    rw [since]
    exact ⟨o', mem', same, fun f => ⟨fun v one => Written.once written one, fun nobody => by rw [written f, nobody]; rfl⟩⟩
  · obtain ⟨o'', mem'', same', written⟩ := follows o mem
    obtain rfl : o'' = o' := Rows.eq_of_key holds'.1.ids mem'' mem' (same'.trans same.symm)
    have changed : o''.get (.reminder .status) ≠ o.get (.reminder .status) := by
      simp only [WorkspaceObject.get, here, here', Option.map_some, WorkspaceReminder.get, pending]
      exact fun same => waiting (Option.some.inj same).symm
    obtain ⟨e, listed, given⟩ := Written.supplied_of_ne written changed
    rw [since]
    unfold Entry.given at given
    split at given
    swap
    · cases given
    rename_i about
    refine ⟨e, listed, about, given_pending ?_⟩
    rw [given]
    simp [WorkspaceObject.get, here', WorkspaceReminder.get, pending]

namespace Ana

def config : Config := ⟨fun _ => true⟩

def task : WorkspaceObject where
  id := "t"
  kind := .TASK
  personalOwnerUserId := "ana"
  archivedAt := none
  deletedAt := none
  task := some ⟨"Draft", none, .TODO, none, none, none, none⟩
  reminder := none
  list := none
  note := none

def reminder : WorkspaceObject where
  id := "r"
  kind := .REMINDER
  personalOwnerUserId := "ana"
  archivedAt := none
  deletedAt := none
  task := none
  reminder := some ⟨"Call", none, 500, "UTC", .PENDING, none, none, none⟩
  list := none
  note := none

def tables : Tables := ⟨[task, reminder], []⟩

theorem sound : Sound tables := by
  refine ⟨by decide, fun row mem => ?_, by decide⟩
  simp only [tables, List.mem_cons, List.not_mem_nil, or_false] at mem
  rcases mem with rfl | rfl <;> simp [task, reminder, WorkspaceObject.Completed]

/-- A new title for the task, and its completion. -/
def rename : Call := ⟨"ana", "t", .task ⟨some "Final", none, none, none, none, none⟩⟩

def finish : Call := ⟨"ana", "t", .task ⟨none, none, some .DONE, none, none, none⟩⟩

/-- A new title for the reminder. -/
def retitle : Call := ⟨"ana", "r", .reminder ⟨some "Call Bob", none, none, none, none, none, none⟩⟩

def steps (me n : Nat) : List (Event Step Draw Call Change) := List.replicate n (.advance me fun _ => ⟨1000, .done⟩)

def run (events : List (Event Step Draw Call Change)) : Editing := events.foldl (World.step (service config)) ⟨tables, []⟩

/-- What a test sees of the task and of the reminder. -/
def seen (w : Editing) : List (Option (String × TaskStatus) × Option (String × ReminderStatus)) :=
  w.state.objects.map fun o => (o.task.map fun t => (t.title, t.status), o.reminder.map fun r => (r.title, r.status))

/-- Each call writes before the next one reads; the reminder is delivered in between. -/
def before : List (Event Step Draw Call Change) := [.arrive rename, .arrive finish, .arrive retitle] ++ steps 0 2

def after : List (Event Step Draw Call Change) := steps 1 3 ++ [.other (.delivered "r" 900)] ++ steps 2 3 ++ steps 0 1

end Ana

open Ana in
theorem edits_hold_ana : EditsHold (run before) (run (before ++ after)) ∧
    seen (run (before ++ after)) = [(some ("Final", .DONE), none), (none, some ("Call Bob", .DELIVERED))] :=
  ⟨edits_hold config tables sound rfl before after (by decide +kernel), by decide +kernel⟩

open Ana in
/-- Both calls have read the task: the title that only one of them supplied is
lost. A reminder that is delivered after the read is pending again. -/
theorem stale_write_loses_edit :
    seen (run ([.arrive rename, .arrive finish] ++ steps 0 1 ++ steps 1 1 ++ steps 0 2 ++ steps 1 2)) =
      [(some ("Draft", .DONE), none), (none, some ("Call", .PENDING))] ∧
    seen (run ([.arrive retitle] ++ steps 0 1 ++ [.other (.delivered "r" 900)])) =
      [(some ("Draft", .TODO), none), (none, some ("Call", .DELIVERED))] ∧
    seen (run ([.arrive retitle] ++ steps 0 1 ++ [.other (.delivered "r" 900)] ++ steps 0 2)) =
      [(some ("Draft", .TODO), none), (none, some ("Call Bob", .PENDING))] := by
  decide +kernel

end Vimla.Workspace
