import Vimla.Notifications.Effects

/-!
# The dispatch key

A key of the coordination store stands for one e-mail: the worker that has set it
is the only one to call the provider, and it is deleted only by that worker when
the provider has refused.
-/

namespace Vimla.Notifications.Dispatch

open Threads Threads.Program List Rows Discipline.Meets

variable {c : Config} {s t u : State} {me : Nat} {l : Step}

/-- The provider has accepted an e-mail once, under a key that stands, and an
e-mail that is delivered was accepted. -/
structure Accounted (s : State) : Prop where
  ids : (s.deliveries.map NotificationDelivery.id).Nodup
  created : ∀ r ∈ s.deliveries, r.id ∈ s.created
  keys : (s.keys.map DispatchKey.notificationId).Nodup
  once : s.accepted.Nodup
  kept : ∀ id ∈ s.accepted, ∃ k ∈ s.keys, k.notificationId = id
  delivered : ∀ r ∈ s.deliveries, r.channel = .EMAIL → r.status = .DELIVERED → r.id ∈ s.accepted

/-- What a worker relies on: nobody touches its key, or sends under it. -/
structure Later (me : Nat) (s t : State) : Prop where
  accepted : s.accepted ⊆ t.accepted
  keys : ∀ k : DispatchKey, k.owner = me → (k ∈ t.keys ↔ k ∈ s.keys)
  alone : ∀ k ∈ s.keys, k.owner = me → k.notificationId ∈ t.accepted → k.notificationId ∈ s.accepted
  channels : ∀ r ∈ s.deliveries, ∃ r' ∈ t.deliveries, r'.id = r.id ∧ r'.channel = r.channel

theorem Later.refl (me : Nat) (s : State) : Later me s s :=
  ⟨Subset.refl _, fun _ _ => Iff.rfl, fun _ _ _ => id, fun r mem => ⟨r, mem, rfl, rfl⟩⟩

theorem Later.trans (first : Later me s t) (second : Later me t u) : Later me s u where
  accepted := Subset.trans first.accepted second.accepted
  keys k mine := (second.keys k mine).trans (first.keys k mine)
  alone k mem mine accepted := first.alone k mem mine (second.alone k ((first.keys k mine).2 mem) mine accepted)
  channels r mem := by
    obtain ⟨r', mem', id, channel⟩ := first.channels r mem
    obtain ⟨r'', mem'', id', channel'⟩ := second.channels r' mem'
    exact ⟨r'', mem'', id'.trans id, channel'.trans channel⟩

def Shares (me : Nat) (s t : State) : Prop := ∀ other, other ≠ me → Later other s t

/-- Ids are not drawn twice, and keys are within their life. -/
def Answers (s : State) : (l : Step) → Draw l → Prop
  | .query (.create _), d => d.uuid ∉ s.created
  | .query (.setNx id), _ => ∀ k ∈ s.keys, k.notificationId = id → s.now < k.expiresAt
  | _, _ => True

/-- A worker that finds the key taken finds the e-mail accepted. -/
def Careful (s : State) : (l : Step) → Draw l → Prop
  | .query (.setNx id), d => d.fate = .done → ∀ k ∈ s.keys, k.notificationId = id → id ∈ s.accepted
  | _, _ => True

def discipline : Discipline Step Draw State where
  inv := Accounted
  admits l s d := Answers s l d ∧ Careful s l d
  rely := Later
  guarantee := Shares
  refl := Later.refl
  trans _ _ _ _ := Later.trans
  compatible me _ _ _ distinct _ shares := shares me (Ne.symm distinct)

/-- The same without the care. -/
def withinLife : Discipline Step Draw State := { discipline with admits := fun l s d => Answers s l d }

instance (s : State) (l : Step) (d : Draw l) : Decidable (Answers s l d) := by
  unfold Answers
  split <;> infer_instance

instance (s : State) (l : Step) (d : Draw l) : Decidable (Careful s l d) := by
  unfold Careful
  split <;> infer_instance

instance (s : State) (l : Step) (d : Draw l) : Decidable (discipline.admits l s d) :=
  inferInstanceAs (Decidable (Answers s l d ∧ Careful s l d))

instance (s : State) (l : Step) (d : Draw l) : Decidable (withinLife.admits l s d) :=
  inferInstanceAs (Decidable (Answers s l d))

/-- A step that is neither an outcome nor one of the dispatch. -/
def quiet : Step → Bool
  | .query (.outcome _ _ _) | .query (.setNx _) | .query (.del _) | .send _ => false
  | _ => true

/-- The store and the provider are as before, and so are the channels. -/
structure Quiet (s t : State) : Prop where
  keys : t.keys = s.keys
  accepted : t.accepted = s.accepted
  channels : ∀ r ∈ s.deliveries, ∃ r' ∈ t.deliveries, r'.id = r.id ∧ r'.channel = r.channel

theorem Quiet.later (quiet : Quiet s t) : Later me s t where
  accepted := quiet.accepted ▸ Subset.refl _
  keys k _ := by rw [quiet.keys]
  alone k _ _ accepted := quiet.accepted ▸ accepted
  channels := quiet.channels

theorem Quiet.shares (quiet : Quiet s t) : Shares me s t := fun _ _ => quiet.later

/-- A rewriting of deliveries that writes none as delivered. -/
theorem rewrite_quiet (sound : Accounted s) {f : NotificationDelivery → NotificationDelivery}
    (deliveries : t.deliveries = s.deliveries.map f) (keys : t.keys = s.keys) (accepted : t.accepted = s.accepted)
    (created : t.created = s.created) (id : ∀ r, (f r).id = r.id) (channel : ∀ r, (f r).channel = r.channel)
    (status : ∀ r ∈ s.deliveries, (f r).channel = .EMAIL → (f r).status = .DELIVERED → r.status = .DELIVERED ∨ r.id ∈ s.accepted) :
    Accounted t ∧ Quiet s t := by
  refine ⟨⟨?_, fun r mem => ?_, keys ▸ sound.keys, accepted ▸ sound.once, ?_, fun r mem email delivered => ?_⟩, keys, accepted,
    fun r mem => ⟨f r, deliveries ▸ mem_map_of_mem mem, id r, channel r⟩⟩
  · rw [deliveries, map_map]
    exact (map_congr_left fun r _ => id r : s.deliveries.map (NotificationDelivery.id ∘ f) = _) ▸ sound.ids
  · obtain ⟨old, listed, rfl⟩ := mem_map.1 (deliveries ▸ mem)
    rw [created, id old]
    exact sound.created old listed
  · rw [accepted, keys]
    exact sound.kept
  · obtain ⟨old, listed, rfl⟩ := mem_map.1 (deliveries ▸ mem)
    rw [accepted, id old]
    rcases status old listed email delivered with before | known
    · exact sound.delivered old listed (channel old ▸ email) before
    · exact known

theorem quiet_self (sound : Accounted s) : Accounted s ∧ Quiet s s := ⟨sound, rfl, rfl, fun r mem => ⟨r, mem, rfl, rfl⟩⟩

theorem effect_quiet {d : Draw l} (quiet : quiet l = true) (answers : Answers s l d) (effect : Effect c me l s d t)
    (sound : Accounted s) : Accounted t ∧ Quiet s t := by
  have same {v : State} (deliveries : v.deliveries = s.deliveries) (keys : v.keys = s.keys) (accepted : v.accepted = s.accepted)
      (created : v.created = s.created) : Accounted v ∧ Quiet s v :=
    rewrite_quiet sound (deliveries.trans (map_id _).symm) keys accepted created (fun _ => rfl) (fun _ => rfl) fun _ _ _ => .inl
  cases l with
  | incr scope =>
    cases effect
    exact quiet_self sound
  | send id => cases quiet
  | query q =>
    rcases effect with rfl | ⟨-, written⟩
    · exact quiet_self sound
    cases q with
    | outcome _ _ _ | setNx _ | del _ => cases quiet
    | claim deliveryId now =>
      obtain ⟨-, rfl⟩ := written
      refine rewrite_quiet sound rfl rfl rfl rfl (fun r => ?_) (fun r => ?_) fun r _ _ delivered => ?_
      · split <;> rfl
      · split <;> rfl
      · split at delivered
        · cases delivered
        · exact .inl delivered
    | recover now =>
      cases written
      refine rewrite_quiet sound rfl rfl rfl rfl (fun r => ?_) (fun r => ?_) fun r _ _ delivered => ?_
      · split <;> rfl
      · split <;> rfl
      · split at delivered
        · cases delivered
        · exact .inl delivered
    | create e =>
      obtain ⟨now, -, rfl⟩ := written
      refine ⟨⟨nodup_append sound.ids fun r mem same => answers ((show r.id = d.uuid from same) ▸ sound.created r mem), fun r mem => ?_, sound.keys, sound.once,
        sound.kept, fun r mem email delivered => ?_⟩, rfl, rfl, fun r mem => ⟨r, mem_append_left _ mem, rfl, rfl⟩⟩
      · rcases mem_append.1 mem with old | new
        · exact mem_append_left _ (sound.created r old)
        · rw [mem_singleton.1 new]
          exact mem_append_right _ mem_cons_self
      · rcases mem_append.1 mem with old | new
        · exact sound.delivered r old email delivered
        · rw [mem_singleton.1 new] at delivered
          cases expired : e.expired <;> simp [EnsureDelivery.row, expired] at delivered
    | createNotification _ _ | reminderDelivered _ _ =>
      obtain ⟨_, rfl⟩ := written
      exact same rfl rfl rfl rfl
    | expire _ =>
      cases written
      exact same rfl rfl rfl rfl
    | _ => exact written.elim

/-- The worker has set the key of an e-mail that the provider has not accepted. -/
def Owns (me : Nat) (id : String) (s : State) : Prop :=
  (∃ k ∈ s.keys, k.owner = me ∧ k.notificationId = id) ∧ id ∉ s.accepted

theorem Owns.later {id : String} (owns : Owns me id s) (later : Later me s t) : Owns me id t := by
  obtain ⟨⟨k, mem, mine, rfl⟩, fresh⟩ := owns
  exact ⟨⟨k, (later.keys k mine).2 mem, mine, rfl⟩, fun accepted => fresh (later.alone k mem mine accepted)⟩

/-- The key of a worker is no other's. -/
theorem Owns.other {id : String} (owns : Owns me id s) (sound : Accounted s) {k : DispatchKey} (mem : k ∈ s.keys)
    (other : k.owner ≠ me) : k.notificationId ≠ id := by
  obtain ⟨⟨mine, mem', owner, rfl⟩, -⟩ := owns
  intro same
  exact other (eq_of_key sound.keys mem mem' same ▸ owner)

theorem setNx_keeps {id : String} {expiresAt : Int} (sound : Accounted s) (absent : ∀ k ∈ s.keys, k.notificationId ≠ id) :
    let t := { s with keys := s.keys.filter (fun k => k.notificationId ≠ id) ++ [⟨id, expiresAt, me⟩] }
    (Accounted t ∧ Shares me s t) ∧ Owns me id t := by
  have stays : s.keys.filter (fun k => k.notificationId ≠ id) = s.keys :=
    filter_eq_self.2 fun k mem => decide_eq_true (absent k mem)
  simp only [stays]
  have fresh : id ∉ s.accepted := fun accepted => by
    obtain ⟨k, mem, same⟩ := sound.kept id accepted
    exact absent k mem same
  refine ⟨⟨⟨sound.ids, sound.created, nodup_append sound.keys absent, sound.once, fun other accepted => ?_, sound.delivered⟩,
    fun other distinct => ⟨Subset.refl _, fun k owner => ?_, fun _ _ _ accepted => accepted, fun r mem => ⟨r, mem, rfl, rfl⟩⟩⟩,
    ⟨_, mem_append_right _ mem_cons_self, rfl, rfl⟩, fresh⟩
  · obtain ⟨k, mem, same⟩ := sound.kept other accepted
    exact ⟨k, mem_append_left _ mem, same⟩
  · refine ⟨fun mem => (mem_append.1 mem).resolve_right fun new => ?_, mem_append_left _⟩
    rw [mem_singleton.1 new] at owner
    exact distinct owner.symm

variable {id : String} {now : Int}

theorem send_keeps (sound : Accounted s) (owns : Owns me id s) : let t := { s with accepted := s.accepted ++ [id] }
    Accounted t ∧ Shares me s t := by
  obtain ⟨⟨k, mem, mine, same⟩, fresh⟩ := owns
  refine ⟨⟨sound.ids, sound.created, sound.keys, ?_, fun other accepted => ?_, fun r mem' email delivered => ?_⟩, fun other distinct =>
    ⟨fun _ => mem_append_left _, fun _ _ => Iff.rfl, fun k' mem' owner accepted => ?_, fun r mem => ⟨r, mem, rfl, rfl⟩⟩⟩
  · refine nodup_append.2 ⟨sound.once, nodup_singleton _, fun a old b new same => ?_⟩
    exact fresh (mem_singleton.1 new ▸ same ▸ old)
  · rcases mem_append.1 accepted with old | new
    · exact sound.kept other old
    · exact ⟨k, mem, same.trans (mem_singleton.1 new).symm⟩
  · exact mem_append_left _ (sound.delivered r mem' email delivered)
  · refine (mem_append.1 accepted).resolve_right fun new => ?_
    have apart := Owns.other ⟨⟨k, mem, mine, same⟩, fresh⟩ sound mem' fun its => distinct (owner.symm.trans its)
    exact apart (mem_singleton.1 new)

theorem del_keeps (sound : Accounted s) (owns : Owns me id s) : let t := { s with keys := s.keys.filter fun k => k.notificationId ≠ id }
    Accounted t ∧ Shares me s t := by
  have sub : Sublist (s.keys.filter fun k => k.notificationId ≠ id) s.keys := filter_sublist
  refine ⟨⟨sound.ids, sound.created, (sub.map _).nodup sound.keys, sound.once, fun other accepted => ?_, sound.delivered⟩,
    fun other distinct => ⟨Subset.refl _, fun k owner => ?_, fun _ _ _ accepted => accepted, fun r mem => ⟨r, mem, rfl, rfl⟩⟩⟩
  · obtain ⟨k, mem, same⟩ := sound.kept other accepted
    refine ⟨k, mem_filter.2 ⟨mem, decide_eq_true fun here => owns.2 ?_⟩, same⟩
    exact (same.symm.trans here) ▸ accepted
  · refine ⟨fun mem => sub.subset mem, fun mem => mem_filter.2 ⟨mem, decide_eq_true ?_⟩⟩
    exact owns.other sound mem fun its => distinct (owner.symm.trans its)

/-- The update of an outcome: a delivery becomes delivered if it is no e-mail or
was accepted. -/
theorem settle_keeps {lease : Lease} {o : Outcome} {now : Int} (sound : Accounted s)
    (accepted : ∀ a b, o = .delivered a b → ∀ r ∈ s.deliveries, r.id = lease.deliveryId → r.channel = .EMAIL → r.id ∈ s.accepted) :
    let t := { s with
      deliveries := Rows.update NotificationDelivery.id lease.deliveryId (fun r => o.apply now r) s.deliveries }
    Accounted t ∧ Quiet s t := by
  refine rewrite_quiet sound rfl rfl rfl rfl (fun r => ?_) (fun r => ?_) fun r mem email delivered => ?_
  iterate 2
    · split
      · cases o <;> rfl
      · rfl
  · split at delivered
    · rename_i here
      rw [if_pos here] at email
      cases o with
      | delivered a b => exact .inr (accepted a b rfl r mem here email)
      | skipped _ | retryable _ _ _ | failed _ _ => cases delivered
    · exact .inl delivered

abbrev Meets (me : Nat) {α : Type} (E : Except Failure α → State → Prop) (p : Process α) (h : History Draw) (s : State) : Prop :=
  discipline.Meets me (fun _ _ => True) E p h s

instance : ∀ l, Inhabited (Draw l)
  | .query _ => ⟨⟨0, .done, "", 0⟩⟩
  | .incr _ => ⟨.error ()⟩
  | .send _ => ⟨.ok none⟩

variable {α β : Type} {h : History Draw} {P : State → Prop} {lease : Lease} {found : NotificationDelivery}

theorem Shares.refl (me : Nat) (s : State) : Shares me s s := fun other _ => .refl other s

/-- One query, by what becomes of it. -/
theorem meets_query {E : Except Failure α → State → Prop} {q : Query} {f : State → At → Except Failure (α × State)}
    (each : ∀ t, Accounted t → Later me s t → ∀ d : At, Answers t (.query q) d ∧ Careful t (.query q) d →
      (∀ e, f t d = .error e → E (.error e) t) ∧ (d.fate = .undone → E (.error .other) t) ∧
      ∀ a u, f t d = .ok (a, u) → (d.fate ≠ .undone → Accounted u ∧ Shares me t u) ∧ (d.fate = .done → E (.ok a) u) ∧
        (d.fate = .unheard → E (.error .other) u)) : Meets me E (query q f) h s :=
  transact (fun t _ => Shares.refl me t) fun t sound later => ⟨trivial, each t sound later⟩

variable {p : Process α}

/-- A program that does nothing of the dispatch. -/
theorem meets_quiet (stable : ∀ s t, Later me s t → P s → P t) (steps : p.Steps (Effects c me quiet)) (now : P s) :
    Meets me (fun _ s => P s) p h s := by
  refine Discipline.Meets.steps stable (steps_mono (fun l s d t effects known sound => ⟨trivial, fun admitted => ?_⟩) steps) now
  obtain ⟨sound', quiet⟩ := effect_quiet effects.1 admitted.1 effects.2 sound
  exact ⟨⟨sound', quiet.shares⟩, stable s t quiet.later known⟩

theorem meets_true (steps : p.Steps (Effects c me quiet)) : Meets me (fun _ _ => True) p h s :=
  meets_quiet (P := fun _ => True) (fun _ _ _ => id) steps trivial

/-- The key is set, or the e-mail was accepted. -/
theorem meets_claimDispatch :
    Meets me (fun r s => (r = .ok true → Owns me id s) ∧ (r = .ok false → id ∈ s.accepted)) (claimDispatch me id) h s := by
  refine meets_query fun t sound later d admitted => ?_
  refine ⟨fun e _ => ⟨nofun, nofun⟩, fun _ => ⟨nofun, nofun⟩, fun a u ok => ?_⟩
  split at ok
  · rename_i taken
    cases ok
    refine ⟨fun _ => ⟨sound, Shares.refl me t⟩, fun fate => ⟨nofun, fun _ => ?_⟩, fun _ => ⟨nofun, nofun⟩⟩
    obtain ⟨k, mem, here⟩ := any_eq_true.1 taken
    exact admitted.2 fate k mem (of_decide_eq_true here).1
  · rename_i free
    cases ok
    have absent : ∀ k ∈ t.keys, k.notificationId ≠ id := fun k mem same =>
      free (any_eq_true.2 ⟨k, mem, decide_eq_true ⟨same, admitted.1 k mem same⟩⟩)
    obtain ⟨keeps, owns⟩ := @setNx_keeps t me id (t.now + IDEMPOTENCY_TTL_SECONDS * 1000) sound absent
    exact ⟨fun _ => keeps, fun _ => ⟨fun _ => owns, nofun⟩, fun _ => ⟨nofun, nofun⟩⟩

theorem meets_sendEmail (owns : Owns me id s) :
    Meets me (fun r s => (∀ a, r = .ok a → id ∈ s.accepted) ∧ (∀ e, r = .error e → Owns me id s)) (sendEmail id) h s := by
  intro t sound later
  have owns := owns.later later
  refine ⟨trivial, fun d _ => ?_⟩
  cases d with
  | error category => exact ⟨sound, Shares.refl me t, nofun, fun _ _ => owns⟩
  | ok messageId =>
    obtain ⟨sound', shares⟩ := send_keeps sound owns
    exact ⟨sound', shares, fun _ _ => mem_append_right _ mem_cons_self, nofun⟩

/-- What `sendEmailOnce` answers: the e-mail was accepted. -/
theorem meets_sendEmailOnce :
    Meets me (fun r s => ∀ result, r = .ok result → id ∈ s.accepted) (sendEmailOnce c me id) h s := by
  refine seq (meets_true (c := c) (effects_consumeBudget fun _ => rfl)) (fun _ _ _ => nofun)
    fun _ h s _ => ?_
  refine seq meets_claimDispatch (fun _ _ _ => nofun) fun claimed' h s claimed => ?_
  cases claimed' with
  | false => exact fun _ _ => claimed.2 rfl
  | true =>
    refine bind (attempt (mono (fun r s sent => ?_)
      (meets_sendEmail (claimed.1 rfl))))
    intro h
    cases r with
    | ok messageId => exact fun _ _ => sent.1 messageId rfl
    | error e =>
      have owns := sent.2 e rfl
      have released : Meets me (fun _ _ => True) (releaseDispatch id) h s := by
        refine meets_query fun t sound later d _ => ⟨fun _ _ => trivial, fun _ => trivial, fun a u ok => ?_⟩
        cases ok
        exact ⟨fun _ => del_keeps sound (owns.later later), fun _ => trivial, fun _ => trivial⟩
      exact seq released (fun _ _ _ => nofun) fun _ _ _ _ => nofun

/-- The update of an outcome. -/
theorem meets_settle {channel : Channel} {o : Outcome}
    (accepted : ∀ a b, o = .delivered a b → ∀ t, Accounted t → Later me s t →
      ∀ r ∈ t.deliveries, r.id = lease.deliveryId → r.channel = .EMAIL → r.id ∈ t.accepted) :
    Meets me (fun _ _ => True) (settle lease channel o now) h s := by
  refine meets_query fun t sound later d _ => ?_
  refine ⟨fun _ _ => trivial, fun _ => trivial, fun a u ok => ⟨fun _ => ?_, fun _ => trivial, fun _ => trivial⟩⟩
  split at ok <;> cases ok
  obtain ⟨sound', quiet⟩ := @settle_keeps t lease o now sound fun a b is => accepted a b is t sound later
  exact ⟨sound', quiet.shares⟩

/-- A program that ends whatever comes before. -/
theorem meets_then {k : α → Process β} (first : Meets me (fun _ _ => True) p h s)
    (rest : ∀ a h s, Meets me (fun _ _ => True) (k a) h s) : Meets me (fun _ _ => True) (p.bind k) h s :=
  seq first (fun _ _ _ => trivial) fun a h s _ => rest a h s

theorem meets_pure (a : α) (h : History Draw) (s : State) : Meets me (fun _ _ => True) (.pure a) h s := trivial

theorem meets_handleError {e : Failure} : Meets me (fun _ _ => True) (handleError c lease found now e) h s := by
  unfold handleError
  simp only
  split
  · refine meets_then (meets_true (c := c) (acts_ask fun s d => ⟨rfl, .inl rfl⟩)) fun jitter h s => ?_
    exact meets_then (meets_settle nofun) fun _ => meets_pure _
  · exact meets_then (meets_settle nofun) fun _ => meets_pure _

theorem meets_deliverEmail {reminder : ReminderSourceState} (own : lease.deliveryId = found.id) :
    Meets me (fun _ _ => True) (deliverEmail c me lease found reminder now) h s := by
  refine meets_then (attempt ?_) fun result h s => ?_
  · refine seq meets_sendEmailOnce (fun _ _ _ => trivial) fun result h s sent => ?_
    have accepted : found.id ∈ s.accepted := sent result rfl
    refine meets_then (meets_settle fun a b _ t _ later r _ same _ => ?_) fun _ h s => ?_
    · exact (same.trans own) ▸ later.accepted accepted
    · exact meets_then (meets_true (c := c) (effects_markReminderDelivered _ _ _ rfl)) fun _ => meets_pure _
  · split
    · exact meets_pure _ _ _
    · exact meets_handleError

/-- The delivery that was loaded is there, on its channel. -/
def Found (found : NotificationDelivery) (s : State) : Prop := ∃ r ∈ s.deliveries, r.id = found.id ∧ r.channel = found.channel

theorem found_stable (s t : State) (later : Later me s t) (there : Found found s) : Found found t := by
  obtain ⟨r, mem, id, channel⟩ := there
  obtain ⟨r', mem', id', channel'⟩ := later.channels r mem
  exact ⟨r', mem', id'.trans id, channel'.trans channel⟩

theorem meets_deliver (own : lease.deliveryId = found.id) (there : Found found s) :
    Meets me (fun _ _ => True) (deliver c me lease found now) h s := by
  refine seq (meets_quiet (c := c) found_stable (effects_read rfl) there) (fun _ _ _ => trivial)
    fun reminder h s there => ?_
  refine seq (meets_quiet (c := c) found_stable (effects_read rfl) there) (fun _ _ _ => trivial)
    fun user h s there => ?_
  split
  · exact meets_then (meets_settle nofun) fun _ => meets_pure _
  split
  · split
    · rename_i channel
      refine seq (meets_quiet (c := c) found_stable (effects_deliverInApp (fun _ _ => rfl) (fun _ _ => rfl) _ _ _) there) (fun _ _ _ => trivial)
        fun notificationId h s there => ?_
      refine meets_then (meets_settle fun a b _ t sound later r mem same email => ?_) fun _ h s => ?_
      -- the delivery is the one that was loaded, which is no e-mail
      · obtain ⟨r', mem', id', channel'⟩ := found_stable s t later there
        have one := eq_of_key sound.ids mem mem' ((same.trans own).trans id'.symm)
        rw [one, channel', channel] at email
        cases email
      · exact meets_then (meets_true (c := c) (effects_markReminderDelivered _ _ _ rfl)) fun _ => meets_pure _
    · exact meets_deliverEmail own
  · exact meets_then (meets_settle nofun) fun _ => meets_pure _

/-- The lease that a claim answers is of the delivery it was asked for. -/
theorem meets_claim :
    Meets me (fun r _ => ∀ lease, r = .ok (some lease) → lease.deliveryId = id) (claim c me id now) h s := by
  refine meets_query fun t sound later d admitted => ⟨nofun, fun _ => nofun, fun a u ok => ?_⟩
  have effect : d.fate ≠ .undone → Effect c me (.query (.claim id now)) t d u := fun fate => by
    split at ok
    · rename_i hit
      cases ok
      exact .inr ⟨fate, hit, rfl⟩
    · cases ok
      exact .inl rfl
  refine ⟨fun fate => ?_, fun _ lease is => ?_, fun _ => nofun⟩
  · obtain ⟨sound', quiet⟩ := effect_quiet rfl admitted.1 (effect fate) sound
    exact ⟨sound', quiet.shares⟩
  · cases is
    split at ok <;> cases ok
    rfl

theorem meets_reload :
    Meets me (fun r s => ∀ found, r = .ok (some found) → found.id = id ∧ Found found s) (read (.reload id) (delivery id)) h s := by
  refine meets_query fun t sound later d admitted => ?_
  refine ⟨nofun, fun _ _ => nofun, fun a u ok => ?_⟩
  cases ok
  refine ⟨fun _ => ⟨sound, Shares.refl me t⟩, fun _ found is => ?_, fun _ _ => nofun⟩
  obtain ⟨mem, id⟩ := mem_of_find (Except.ok.inj is)
  exact ⟨id, found, mem, rfl, rfl⟩

theorem meets_process : Meets me (fun _ _ => True) (process c me id) h s := by
  refine meets_then (meets_true (c := c) (effects_clock rfl)) fun now h s => ?_
  refine meets_then (meets_true (c := c) (effects_read rfl)) fun existing h s => ?_
  split
  · exact meets_pure _ _ _
  split
  · exact meets_pure _ _ _
  refine seq meets_claim (fun _ _ _ => trivial) fun lease h s claimed => ?_
  cases lease with
  | none => trivial
  | some lease =>
  have own : lease.deliveryId = id := claimed lease rfl
  refine seq meets_reload (fun _ _ _ => trivial) fun found h s reloaded => ?_
  cases found with
  | none => trivial
  | some found =>
    obtain ⟨same, there⟩ := reloaded found rfl
    exact meets_deliver (own.trans same.symm) there

theorem quiet_of_reconcile (l : Step) (taken : Input.reconcile.takes l = true) : quiet l = true := by
  unfold quiet
  split
  all_goals first | rfl | cases taken

theorem meets_call (input : Input) : Meets me (fun _ _ => True) (call c me input) h s := by
  cases input with
  | process id => exact meets_then meets_process fun _ => meets_pure _
  | reconcile =>
    exact meets_true (steps_mono (fun l _ _ _ effects => ⟨quiet_of_reconcile l effects.1, effects.2⟩) (effects_call .reconcile))

theorem change_quiet (sound : Accounted s) (change : Change) : Accounted (s.change change) ∧ Quiet s (s.change change) := by
  cases change with
  | tick _ | edit _ _ =>
    exact rewrite_quiet sound (map_id _).symm rfl rfl rfl (fun _ => rfl) (fun _ => rfl) fun _ _ _ => .inl

def contract (c : Config) : Contract (platform c) discipline fun _ _ => True where
  idle _ _ := True
  during _ _ _ _ _ := True
  ends _ _ _ _ _ := True
  idle_rely _ _ _ _ _ := trivial
  ends_rely _ _ _ _ _ _ _ _ := trivial
  programs _ input _ _ _ := meets_call input
  environment _ change sound _ := by
    obtain ⟨sound', quiet⟩ := change_quiet sound change
    exact ⟨sound', fun _ => quiet.later⟩

end Vimla.Notifications.Dispatch
