import Vimla.Notifications.LifecycleHolds

/-!
# The window of due reminders

Every round of the reconciler reads the oldest due reminders again, and none of
them stops being due for what a round does.
-/

namespace Vimla.Notifications

open Threads Threads.Program List Rows State

/-- Every query commits, at the time of the pass. -/
def answers (now : Int) (uuid : State → String) : (l : Step) → State → Draw l
  | .query _, s => ⟨now, .done, uuid s, 0⟩
  | .incr _, _ => .ok 0
  | .send _, _ => .ok none

/-- A pass that meets no fault. -/
def State.pass (c : Config) (s : State) (now : Int) (uuid : State → String) : State :=
  ((reconcile c).exec (fun _ s => s) (answers now uuid) s).2

/-- The reminders that are due, the oldest first. -/
def allDue (now : Int) (s : State) : List Due :=
  Js.sort (fun (left right : Due) => (compare left.scheduledAt right.scheduledAt).then (compare left.objectId right.objectId))
    (s.objects.filterMap fun row => row.reminder.bind fun reminder =>
      if row.kind = .REMINDER ∧ row.deletedAt = none ∧ row.archivedAt = none ∧ reminder.status = .PENDING ∧
          reminder.scheduledAt ≤ now then
        some ⟨row.id, row.personalOwnerUserId, reminder.scheduledAt⟩
      else none)

/-- The channels that the owner has enabled; none where the owner is missing. -/
def Due.channels (r : Due) (users : List User) : List Channel :=
  match find User.id r.personalOwnerUserId users with
  | none => []
  | some user => desiredReminderChannels (resolveReminderPreferences user.preference)

abbrev Key := SourceType × String × String × Channel

def Due.key (r : Due) (channel : Channel) : Key :=
  (.WORKSPACE_REMINDER, r.objectId, reminderOccurrenceKey r.objectId r.scheduledAt, channel)

def State.made (s : State) : List Key := s.deliveries.map NotificationDelivery.key

/-- A delivery row for each enabled channel. -/
def Served (s : State) (r : Due) : Prop := ∀ channel ∈ r.channels s.users, r.key channel ∈ s.made

instance (s : State) (r : Due) : Decidable (Served s r) := inferInstanceAs (Decidable (∀ channel ∈ _, _))

/-- Nothing that is due has passed the lateness limit. -/
def Fresh (c : Config) (now : Int) (s : State) : Prop :=
  ∀ r ∈ allDue now s, isPastMaxLateness r.scheduledAt now c.maxLatenessMinutes = false

/-- No reminder becomes due, no preference changes and no delivery is removed. -/
structure Calm (now : Int) (s : State) (now' : Int) (t : State) : Prop where
  due : (allDue now' t).Sublist (allDue now s)
  channels : ∀ r ∈ allDue now' t, r.channels t.users = r.channels s.users
  keys : ∀ key ∈ s.made, key ∈ t.made

/-- So many passes, with calm changes before and after each. -/
inductive Passes (c : Config) (start : Int) (s : State) : Nat → Int → State → Prop
  | none : Passes c start s 0 start s
  | pass {n now t} (passes : Passes c start s n now t) (fresh : Fresh c now t) (uuid : State → String) :
      Passes c start s (n + 1) now (t.pass c now uuid)
  | change {n now t now' u} (passes : Passes c start s n now t) (calm : Calm now t now' u) : Passes c start s n now' u

/-- The deliveries with these keys are there from now on, and no others. -/
structure Adds (keys : List Key) (s t : State) : Prop where
  objects : t.objects = s.objects
  users : t.users = s.users
  keys : ∀ key, key ∈ t.made ↔ key ∈ s.made ∨ key ∈ keys

variable {c : Config} {s s₀ t u : State} {start now now' : Int} {uuid : State → String} {r : Due} {n : Nat}
variable {keys more : List Key} {α β : Type} {p : Process α}

theorem Adds.refl (s : State) : Adds [] s s := ⟨rfl, rfl, by simp⟩

theorem Adds.trans (first : Adds keys s t) (rest : Adds more t u) : Adds (keys ++ more) s u := by
  refine ⟨rest.objects.trans first.objects, rest.users.trans first.users, fun key => ?_⟩
  rw [rest.keys, first.keys, mem_append, or_assoc]

/-- Run on the tables of `s₀`, the program returns and adds these keys. -/
def Does (s₀ : State) (now : Int) (uuid : State → String) (keys : List Key) (p : Process α) : Prop :=
  ∀ s, s.objects = s₀.objects → s.users = s₀.users →
    ∃ a t, p.exec (fun _ s => s) (answers now uuid) s = (.ok a, t) ∧ Adds keys s t

theorem Does.congr (does : Does s₀ now uuid keys p) (same : ∀ key, key ∈ keys ↔ key ∈ more) : Does s₀ now uuid more p := by
  intro s objects users
  obtain ⟨a, t, ran, adds⟩ := does s objects users
  exact ⟨a, t, ran, adds.objects, adds.users, fun key => by rw [adds.keys, same]⟩

theorem does_pure (a : α) : Does s₀ now uuid [] (.pure a) := fun s _ _ => ⟨a, s, rfl, .refl s⟩

variable {f : α → Process β}

theorem does_bind (first : Does s₀ now uuid keys p) (rest : ∀ a, Does s₀ now uuid more (f a)) :
    Does s₀ now uuid (keys ++ more) (p.bind f) := by
  intro s objects users
  obtain ⟨a, t, ran, adds⟩ := first s objects users
  obtain ⟨b, u, ran', adds'⟩ := rest a t (adds.objects.trans objects) (adds.users.trans users)
  exact ⟨b, u, (exec_bind ran).trans ran', adds.trans adds'⟩

/-- What follows adds nothing, or the same once more. -/
theorem does_again (first : Does s₀ now uuid keys p)
    (rest : ∀ a, Does s₀ now uuid [] (f a) ∨ Does s₀ now uuid keys (f a)) : Does s₀ now uuid keys (p.bind f) := by
  intro s objects users
  obtain ⟨a, t, ran, adds⟩ := first s objects users
  rcases rest a with rest | rest <;> obtain ⟨b, u, ran', adds'⟩ := rest t (adds.objects.trans objects) (adds.users.trans users)
  · exact ⟨b, u, (exec_bind ran).trans ran', by simpa using adds.trans adds'⟩
  · refine ⟨b, u, (exec_bind ran).trans ran', adds'.objects.trans adds.objects, adds'.users.trans adds.users, fun key => ?_⟩
    rw [adds'.keys, adds.keys, or_assoc, or_self]

/-- A read of the tables that no pass changes. -/
theorem does_read {q : Query} {f : State → α} {k : α → Process β} (same : ∀ s, s.objects = s₀.objects → s.users = s₀.users → f s = f s₀)
    (rest : Does s₀ now uuid keys (k (f s₀))) : Does s₀ now uuid keys ((read q f).bind k) := by
  intro s objects users
  rw [← same s objects users] at rest
  exact rest s objects users

theorem exec_query {q : Query} {f : State → At → Except Failure (α × State)} :
    (query q f).attempt.exec (fun _ s => s) (answers now uuid) s =
      match f s ⟨now, .done, uuid s, 0⟩ with
      | .ok (a, t) => (.ok (.ok a), t)
      | .error e => (.ok (.error e), s) := by
  simp only [query, transact, ask, Program.bind, attempt, exec, answers]
  cases f s ⟨now, .done, uuid s, 0⟩ <;> rfl

theorem does_ensureDelivery (input : EnsureDelivery) : Does s₀ now uuid [(input.row "" now).key] (ensureDelivery input now) := by
  intro s _ _
  have key : ∀ id, (input.row id now).key = (input.row "" now).key := fun _ => rfl
  cases taken : s.deliveries.any fun r => r.key = (input.row "" now).key with
  | true =>
    refine ⟨false, s, exec_bind (a := .error .unique) (t := s) (exec_query.trans ?_), rfl, rfl, fun k => ?_⟩
    · simp [key, taken]
    · obtain ⟨r, mem, same⟩ := any_eq_true.mp taken
      simp only [made, mem_map, mem_singleton]
      exact ⟨.inl, fun h => h.elim id fun e => ⟨r, mem, e ▸ of_decide_eq_true same⟩⟩
  | false =>
    let row := input.row (uuid s) now
    let t := { s with deliveries := s.deliveries ++ [row], created := s.created ++ [row.id] }
    refine ⟨true, t, exec_bind (a := .ok ()) (t := t) (exec_query.trans ?_), rfl, rfl, fun k => ?_⟩
    · simp only [key, taken]
      rfl
    · simp [t, row, made, key, eq_comm]

theorem does_ensureChannels (channels : List Channel) (counters : ReminderReconcileCounters) :
    Does s₀ now uuid (channels.map r.key) (ensureChannels r false now channels counters) := by
  induction channels generalizing counters with
  | nil => exact does_pure _
  | cons channel rest ih => exact does_bind (does_ensureDelivery _) fun _ => ih _

theorem does_createDue {users : List User} {due : List Due} (counters : ReminderReconcileCounters)
    (fresh : ∀ r ∈ due, isPastMaxLateness r.scheduledAt now c.maxLatenessMinutes = false) :
    Does s₀ now uuid (due.flatMap fun r => (r.channels users).map r.key) (createDue c users now due counters) := by
  induction due generalizing counters with
  | nil => exact does_pure _
  | cons r rest ih =>
    have rest := fun counters => ih counters fun r mem => fresh r (mem_cons_of_mem _ mem)
    rw [createDue, flatMap_cons]
    cases found : find User.id r.personalOwnerUserId users with
    | none =>
      rw [show r.channels users = [] by simp [Due.channels, found]]
      exact rest _
    | some user =>
      rw [show r.channels users = desiredReminderChannels (resolveReminderPreferences user.preference) by
        simp [Due.channels, found]]
      simp only [fresh r mem_cons_self, Bool.false_eq_true, if_false]
      split
      next none_ =>
        rw [none_]
        exact rest _
      next => exact does_bind (does_ensureChannels _ _) rest

/-- The deliveries of the oldest due reminders. -/
def window (c : Config) (now : Int) (s : State) : List Key :=
  (dueReminders c now s).flatMap fun r => (r.channels s.users).map r.key

theorem allDue_congr (same : t.objects = s.objects) : allDue now t = allDue now s := by
  unfold allDue
  rw [same]

theorem window_congr (objects : t.objects = s.objects) (users : t.users = s.users) : window c now t = window c now s := by
  unfold window dueReminders
  rw [objects, users]

theorem does_createDueDeliveries (fresh : Fresh c now s) (counters : ReminderReconcileCounters) :
    Does s now uuid (window c now s) (createDueDeliveries c now counters) := by
  have fresh' : ∀ r ∈ dueReminders c now s, _ := fun r mem => fresh r (mem_of_mem_take mem)
  refine does_read (fun t objects _ => by unfold dueReminders; rw [objects])
    (does_read (fun t _ users => by rw [users]) (Does.congr (does_bind (does_createDue _ fresh') fun _ => does_pure _) fun key => ?_))
  simp only [window, append_nil, mem_flatMap]
  refine exists_congr fun r => and_congr_right fun mem => ?_
  have same : find User.id r.personalOwnerUserId (s.users.filter fun user =>
      (dueReminders c now s).any fun r => r.personalOwnerUserId = user.id) = find User.id r.personalOwnerUserId s.users := by
    rw [find, find?_filter]
    refine congrArg (find? · s.users) (funext fun user => decide_eq_decide.mpr ?_)
    rw [decide_eq_true_iff]
    refine and_iff_right_of_imp fun own => ?_
    exact any_eq_true.mpr ⟨r, mem, decide_eq_true own.symm⟩
  simp [Due.channels, same]

theorem does_rounds (fresh : Fresh c now s) (left : Nat) (counters : ReminderReconcileCounters) :
    Does s now uuid (window c now s) (rounds c now (left + 1) counters) := by
  induction left generalizing counters with
  | zero =>
    refine does_again (does_createDueDeliveries fresh counters) fun (dueCount, counters) => .inl ?_
    dsimp only
    split <;> exact does_pure _
  | succ left ih =>
    refine does_again (does_createDueDeliveries fresh counters) fun (dueCount, counters) => ?_
    dsimp only
    split
    · exact .inl (does_pure _)
    · exact .inr (ih _)

theorem does_enqueueAll (ids : List String) (counters : ReminderReconcileCounters) :
    Does s₀ now uuid [] (enqueueAll ids counters) := by
  induction ids generalizing counters with
  | nil => exact does_pure _
  | cons id rest ih =>
    refine does_bind (show Does s₀ now uuid [] _ from fun s _ _ => ⟨.ok (), s, rfl, .refl s⟩) fun result => ?_
    cases result <;> exact ih _

theorem does_requeueExecutable (counters : ReminderReconcileCounters) :
    Does s₀ now uuid [] (requeueExecutable c now counters) := by
  have recovered : Does s₀ now uuid [] (recover now) := fun s _ _ => by
    refine ⟨(), _, rfl, rfl, rfl, fun key => ?_⟩
    have same : (NotificationDelivery.key ∘ fun r => if recoverable now r then r.recovered now else r) = NotificationDelivery.key := by
      funext r
      dsimp only [Function.comp]
      split <;> rfl
    simp [made, answers, map_map, same, not_mem_nil, or_false]
  exact does_bind recovered fun _ =>
    does_bind (show Does s₀ now uuid [] _ from fun s _ _ => ⟨executable c now s, s, rfl, .refl s⟩) fun ids => does_enqueueAll ids counters

theorem pass_adds (fresh : Fresh c now s) : Adds (window c now s) s (s.pass c now uuid) := by
  obtain ⟨counters, t, ran, adds⟩ := does_bind (show Does s now uuid _ _ from does_rounds fresh 19 ⟨0, 0, 0, 0, 0, 0⟩)
    (fun counters => does_requeueExecutable (c := c) counters) s rfl rfl
  have ran : (reconcile c).exec (fun _ s => s) (answers now uuid) s = (.ok counters, t) := ran
  rw [State.pass, ran]
  simpa using adds

theorem served_of_adds (adds : Adds keys s t) (served : Served s r) : Served t r := by
  intro channel on
  rw [adds.users] at on
  exact (adds.keys _).mpr (.inl (served channel on))

/-- What is beyond the window has its deliveries, and after a pass the window too. -/
theorem passes_serve (served : ∀ r ∈ (allDue start s).drop c.batchSize, Served s r) (passes : Passes c start s n now t) :
    (∀ r ∈ (allDue now t).drop c.batchSize, Served t r) ∧ (0 < n → ∀ r ∈ allDue now t, Served t r) := by
  induction passes with
  | none => exact ⟨served, nofun⟩
  | @pass n now t passes fresh uuid ih =>
    have adds : Adds _ t (t.pass c now uuid) := pass_adds fresh
    rw [allDue_congr adds.objects]
    refine ⟨fun r mem => served_of_adds adds (ih.1 r mem), fun _ r mem => ?_⟩
    rw [← take_append_drop c.batchSize (allDue now t)] at mem
    rcases mem_append.mp mem with first | beyond
    · intro channel on
      rw [adds.users] at on
      exact (adds.keys _).mpr (.inr (mem_flatMap.mpr ⟨r, first, mem_map_of_mem on⟩))
    · exact served_of_adds adds (ih.1 r beyond)
  | change passes calm ih =>
    have kept : ∀ r ∈ _, Served _ r → Served _ r := fun r mem served channel on =>
      calm.keys _ (served channel (calm.channels r mem ▸ on))
    exact ⟨fun r mem => kept r (mem_of_mem_drop mem) (ih.1 r ((calm.due.drop _).subset mem)),
      fun pos r mem => kept r mem (ih.2 pos r (calm.due.subset mem))⟩

/-- Nothing else happens: every pass sees the window of the first. -/
theorem passes_alone (fresh : Fresh c start s) (n : Nat) :
    ∃ t, Passes c start s n start t ∧ t.objects = s.objects ∧ t.users = s.users ∧
      ∀ key ∈ t.made, key ∈ s.made ∨ key ∈ window c start s := by
  induction n with
  | zero => exact ⟨s, .none, rfl, rfl, fun _ => .inl⟩
  | succ n ih =>
    obtain ⟨t, passes, objects, users, keys⟩ := ih
    have fresh : Fresh c start t := by rwa [Fresh, allDue_congr objects]
    have adds : Adds _ t (t.pass c start fun _ => "") := pass_adds fresh
    rw [window_congr objects users] at adds
    refine ⟨_, passes.pass fresh _, adds.objects.trans objects, adds.users.trans users, fun key mem => ?_⟩
    exact ((adds.keys key).mp mem).elim (keys key) .inr

theorem allDue_nodup (distinct : (s.objects.map Workspace.WorkspaceObject.id).Nodup) : ((allDue now s).map Due.objectId).Nodup := by
  refine ((Js.sort_perm _ _).map _).nodup_iff.mpr (pairwise_map.mpr (pairwise_filterMap.mpr ((pairwise_map.mp distinct).imp ?_)))
  intro a b ne x hx y hy
  obtain ⟨_, _, hx⟩ := Option.bind_eq_some_iff.mp hx
  obtain ⟨_, _, hy⟩ := Option.bind_eq_some_iff.mp hy
  split at hx <;> cases hx
  split at hy <;> cases hy
  exact ne

/-- Passes alone never serve what is beyond the window. -/
theorem served_of_passes (distinct : (s.objects.map Workspace.WorkspaceObject.id).Nodup) (fresh : Fresh c now s)
    (serves : ∀ now' t, Passes c now s n now' t → ∀ r ∈ allDue now' t, Served t r) (beyond : r ∈ (allDue now s).drop c.batchSize) :
    Served s r := by
  intro channel on
  obtain ⟨t, passes, objects, users, keys⟩ := passes_alone fresh n
  have mem : r ∈ allDue now t := by
    rw [allDue_congr objects]
    exact mem_of_mem_drop beyond
  refine (keys _ (serves now t passes r mem channel (users ▸ on))).resolve_right fun inside => ?_
  obtain ⟨w, first, made⟩ := mem_flatMap.mp inside
  obtain ⟨channel', _, same⟩ := mem_map.mp made
  have nodup : ((allDue now s).map Due.objectId).Nodup := allDue_nodup distinct
  rw [← take_append_drop c.batchSize (allDue now s), map_append] at nodup
  exact (nodup_append.mp nodup).2.2 _ (mem_map_of_mem first) _ (mem_map_of_mem beyond) (congrArg (fun key => key.2.1) same)

/-- Passes serve every due reminder just where each of those beyond the first batch is served before. -/
theorem reconcile_serves_iff (c : Config) (s : State) (now : Int) (distinct : (s.objects.map Workspace.WorkspaceObject.id).Nodup)
    (fresh : Fresh c now s) :
    (∃ n, ∀ now' t, Passes c now s n now' t → ∀ r ∈ allDue now' t, Served t r) ↔
      ∀ r ∈ (allDue now s).drop c.batchSize, Served s r :=
  ⟨fun ⟨_, serves⟩ _ => served_of_passes distinct fresh serves,
    fun served => ⟨1, fun _ _ passes => (passes_serve served passes).2 Nat.one_pos⟩⟩

namespace Ana

/-- Bob, who has no channel enabled, has a reminder due before Ana's. -/
def crowded : State := { tables with
  objects := [{ reminder with id := "a", personalOwnerUserId := "bob" }, reminder]
  users := tables.users ++ [⟨"bob", "bob@example.org", true, some ⟨some false, some false⟩⟩]
  deliveries := [] }

def narrow (batchSize : Nat) : Config := { config with batchSize := batchSize }

theorem fresh (batchSize : Nat) : Fresh (narrow batchSize) 1000 crowded := by
  show ∀ r ∈ allDue 1000 crowded, isPastMaxLateness r.scheduledAt 1000 1440 = false
  decide +kernel

end Ana

open Ana in
theorem reconcile_serves_crowded : ∃ n, ∀ now t, Passes (narrow 2) 1000 crowded n now t → ∀ r ∈ allDue now t, Served t r :=
  (reconcile_serves_iff (narrow 2) crowded 1000 (by decide) (fresh 2)).mpr (by decide +kernel)

open Ana in
theorem reminder_starves : ¬ ∃ n, ∀ now t, Passes (narrow 1) 1000 crowded n now t → ∀ r ∈ allDue now t, Served t r := by
  rintro ⟨n, serves⟩
  have served := fun r => @served_of_passes (narrow 1) crowded 1000 r n (by decide) (fresh 1) serves
  exact absurd served (by decide +kernel)

end Vimla.Notifications
