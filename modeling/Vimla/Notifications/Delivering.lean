import Vimla.Notifications.Lifecycle

/-!
# Workers keep the deliveries

The discipline of the processors and reconcilers, and the contracts of their
programs under it.
-/

namespace Vimla.Notifications

open Threads Threads.Program Discipline.Meets

variable {c : Config} {s t : State} {me : Nat} {input : Input} {lease : Lease} {r found : NotificationDelivery}

/-- Clocks are not ahead of the time, and ids and tokens are not drawn twice. -/
def Answers (s : State) : (l : Step) → Draw l → Prop
  | .query .clock, d => d.clock ≤ s.now
  | .query (.claim _ _), d => ∀ claim ∈ s.claims, claim.token ≠ d.uuid
  | .query (.create _), d => d.uuid ∉ s.created
  | _, _ => True

/-- A worker writes its outcome while its lease stands, and no e-mail that is
written as delivered is reported as failed. A lease that is over is taken from no
delivery at its last attempt. -/
def Careful (c : Config) (s : State) : (l : Step) → Draw l → Prop
  | .query (.outcome lease .EMAIL (.delivered _ _)), d => d.fate ≠ .undone → s.now ≤ lease.until_ ∧ d.fate = .done
  | .query (.outcome lease _ _), d => d.fate ≠ .undone → s.now ≤ lease.until_
  | .query (.reminderDelivered .EMAIL _), d => d.fate = .done
  | .query (.claim deliveryId now), d => d.fate ≠ .undone →
    ∀ r ∈ s.deliveries, claimable now deliveryId r = true → r.status = .PROCESSING → r.attemptCount < c.maxAttempts
  | .query (.recover now), d => d.fate ≠ .undone → ∀ r ∈ s.deliveries, recoverable now r = true → r.attemptCount < c.maxAttempts
  | _, _ => True

def discipline (c : Config) : Discipline Step Draw State where
  inv := Sound c
  admits l s d := Answers s l d ∧ Careful c s l d
  rely := Later
  guarantee := Keeps
  refl := Later.refl
  trans _ _ _ _ := Later.trans
  compatible me _ _ _ distinct _ keeps := keeps.others me (Ne.symm distinct)

instance (s : State) (l : Step) (d : Draw l) : Decidable (Answers s l d) := by
  unfold Answers
  cases l with
  | query q => cases q <;> infer_instance
  | _ => infer_instance

instance (c : Config) (s : State) (l : Step) (d : Draw l) : Decidable (Careful c s l d) := by
  unfold Careful
  cases l with
  | query q =>
    cases q with
    | outcome lease channel o => cases channel <;> cases o <;> infer_instance
    | reminderDelivered channel id => cases channel <;> infer_instance
    | _ => infer_instance
  | _ => infer_instance

instance (c : Config) : ∀ l s d, Decidable ((discipline c).admits l s d) :=
  fun l s d => inferInstanceAs (Decidable (Answers s l d ∧ Careful c s l d))

variable {channel : Channel} {o : Outcome} {q : Query} {l : Step} {p : Process α} {reminder : ReminderSourceState}

theorem Careful.live {d : At} (careful : Careful c s (.query (.outcome lease channel o)) d)
    (executed : d.fate ≠ .undone) : s.now ≤ lease.until_ := by
  cases channel <;> cases o <;> first | exact careful executed | exact (careful executed).1

/-- What holds when a call takes its next step. -/
def During (me : Nat) (s : State) : Input → Step → Prop
  | .process _, .query (.outcome lease _ _) => ∃ r, Knows me lease r s
  | .process _, .query (.recover _) => False
  | .reconcile, .query (.outcome _ _ _) => False
  | _, _ => True

abbrev Meets (c : Config) (me : Nat) (input : Input) {α : Type} (E : Except Failure α → State → Prop) (p : Process α)
    (h : History Draw) (s : State) : Prop :=
  (discipline c).Meets me (fun l s => During me s input l) E p h s

instance : ∀ l, Inhabited (Draw l)
  | .query _ => ⟨⟨0, .done, "", 0⟩⟩
  | .incr _ => ⟨.error ()⟩
  | .send _ => ⟨.ok none⟩

variable {α β : Type} {h : History Draw} {P : State → Prop}

variable {f : State → At → Except Failure (α × State)} {E : Except Failure α → State → Prop} {deliveryId : String}
  {now : Int}

/-- One query, by what becomes of it. -/
theorem meets_query
    (each : ∀ t, Sound c t → Later me s t → During me t input (.query q) ∧ ∀ d, (discipline c).admits (.query q) t d →
      (∀ e, f t d = .error e → E (.error e) t) ∧ (d.fate = .undone → E (.error .other) t) ∧
      ∀ a u, f t d = .ok (a, u) → (d.fate ≠ .undone → Sound c u ∧ Keeps me t u) ∧ (d.fate = .done → E (.ok a) u) ∧
        (d.fate = .unheard → E (.error .other) u)) : Meets c me input E (query q f) h s :=
  transact (fun t sound => (Same.refl t).keeps sound) each

theorem meets_read {f : State → α}
    (each : ∀ t, Sound c t → Later me s t → During me t input (.query q) ∧ E (.ok (f t)) t ∧ E (.error .other) t) :
    Meets c me input E (read q f) h s := by
  refine meets_query fun t sound later => ?_
  obtain ⟨during, answered, lost⟩ := each t sound later
  refine ⟨during, fun d _ => ⟨fun e is => ?_, fun _ => lost, fun a u ok => ?_⟩⟩
  · cases is
  · cases ok
    exact ⟨fun _ => ⟨sound, (Same.refl t).keeps sound⟩, fun _ => answered, fun _ => lost⟩

theorem During.of_calm (calm : l.calm = true) : During me s input l := by
  cases l with
  | incr _ | send _ => cases input <;> trivial
  | query q =>
    cases q with
    | claim _ _ | outcome _ _ _ | create _ | recover _ => cases calm
    | _ => cases input <;> trivial

theorem effect_same {d : Draw l} (calm : l.calm = true) (effect : Effect c me l s d t) : Same s t := by
  cases l with
  | incr scope =>
    cases effect
    exact .refl s
  | send id =>
    cases effect
    cases d <;> exact ⟨rfl, rfl, rfl, rfl⟩
  | query q =>
    rcases effect with rfl | ⟨-, written⟩
    · exact .refl t
    cases q with
    | claim _ _ | outcome _ _ _ | create _ | recover _ => cases calm
    | setNx id =>
      obtain ⟨-, rfl⟩ := written
      exact ⟨rfl, rfl, rfl, rfl⟩
    | del _ | expire _ =>
      cases written
      exact ⟨rfl, rfl, rfl, rfl⟩
    | createNotification _ _ | reminderDelivered _ _ =>
      obtain ⟨_, rfl⟩ := written
      exact ⟨rfl, rfl, rfl, rfl⟩
    | _ => exact written.elim

theorem meets_calm (stable : ∀ s t, Later me s t → P s → P t) (steps : p.Steps (Effects c me Step.calm))
    (now : P s) : Meets c me input (fun _ s => P s) p h s := by
  refine Discipline.Meets.steps stable (steps_mono (fun l s d t effects known sound => ?_) steps) now
  have same := effect_same effects.1 effects.2
  exact ⟨.of_calm effects.1, fun _ => ⟨⟨same.sound sound, same.keeps sound⟩, stable s t same.later known⟩⟩

theorem calm_of_mail (l : Step) (mail : l.mail = true) : l.calm = true := by
  unfold Step.mail at mail
  split at mail <;> first | rfl | cases mail

/-- The worker has read the delivery that it has claimed, if it was in time. -/
def Ready (me : Nat) (lease : Lease) (r found : NotificationDelivery) (s : State) : Prop :=
  Knows me lease r s ∧ (s.now ≤ lease.until_ → found = r)

theorem Ready.later (ready : Ready me lease r found s) (later : Later me s t) : Ready me lease r found t :=
  ⟨ready.1.later later, fun live => ready.2 (Int.le_trans later.now live)⟩

theorem ready_stable (s t : State) (later : Later me s t) (ready : Ready me lease r found s) : Ready me lease r found t :=
  ready.later later

/-- The outcome of a claim: it is retryable below the bound, and no e-mail that is
written as delivered is reported as failed. -/
theorem meets_settle {E : Except Failure Unit → State → Prop} (ready : Ready me lease r found s)
    (retry : ∀ retryAt category errorClass, o = .retryable retryAt category errorClass → found.attemptCount < c.maxAttempts)
    (error : ∀ e t, Ready me lease r found t → E (.error e) t) (done : ∀ t, E (.ok ()) t)
    (unheard : (∀ t (d : At), d.fate ≠ .undone → Careful c t (.query (.outcome lease channel o)) d → d.fate = .done) ∨
      ∀ e t, E (.error e) t) : Meets c me (.process deliveryId) E (settle lease channel o now) h s := by
  refine meets_query fun t sound later => ?_
  have ready := ready.later later
  refine ⟨⟨r, ready.1⟩, fun d admitted => ⟨fun e _ => error e t ready, fun _ => error _ t ready, fun a u ok => ?_⟩⟩
  split at ok
  swap
  · cases ok
  cases ok
  refine ⟨fun executed => ?_, fun _ => done _, fun fate => ?_⟩
  · have live := admitted.2.live executed
    exact settle_keeps sound ready.1 live fun retryAt category errorClass is => ready.2 live ▸ retry _ _ _ is
  · rcases unheard with never | always
    · have heard := never t d (by simp [fate]) admitted.2
      rw [fate] at heard
      cases heard
    · exact always _ _

section
variable (ready : Ready me lease r found s)
include ready

theorem meets_handleError (e : Failure) :
    Meets c me (.process deliveryId) (fun _ _ => True) (handleError c lease found now e) h s := by
  unfold handleError
  simp only
  split
  · rename_i retry
    have below : found.attemptCount < c.maxAttempts := by
      simp only [shouldRetry, decide_eq_true_eq] at retry
      exact retry.2
    refine seq (meets_calm ready_stable (acts_ask fun s d => ⟨rfl, .inl rfl⟩) ready) (fun _ _ _ => trivial)
      fun jitter h s ready => ?_
    refine bind (meets_settle ready (fun _ _ _ _ => below) (fun _ _ _ => trivial) (fun _ _ => trivial) (.inr fun _ _ => trivial))
  · refine bind (meets_settle ready nofun (fun _ _ _ => trivial) (fun _ _ => trivial) (.inr fun _ _ => trivial))

/-- What is thrown before the delivery is written leaves it claimed, and nothing
is thrown after. -/
theorem meets_attemptEmail :
    Meets c me (.process deliveryId) (fun result s => ∀ e, result = .error e → Ready me lease r found s)
      (attemptEmail c me lease found reminder now) h s := by
  refine seq (meets_calm ready_stable (effects_sendEmailOnce calm_of_mail found.id) ready) (fun _ _ ready _ _ => ready)
    fun sent h s ready => ?_
  refine bind (meets_settle ready nofun (fun e t ready _ _ => ready) (fun t h => ?_)
    (.inl fun t d executed careful => (careful executed).2))
  refine bind (meets_query fun t sound _ => ⟨trivial, fun d admitted => ?_⟩)
  have done : d.fate = .done := admitted.2
  refine ⟨nofun, fun fate => ?_, fun a u ok => ?_⟩
  · rw [fate] at done
    cases done
  · cases ok
    have same : Same t { t with objects := t.objects.map (Workspace.delivered reminder.reminderId now) } := ⟨rfl, rfl, rfl, rfl⟩
    refine ⟨fun _ => ⟨same.sound sound, same.keeps sound⟩, fun _ h => nofun, fun fate => ?_⟩
    rw [fate] at done
    cases done

theorem meets_deliverEmail :
    Meets c me (.process deliveryId) (fun _ _ => True) (deliverEmail c me lease found reminder now) h s := by
  refine bind (attempt (mono (fun result s ready => ?_) (meets_attemptEmail ready)))
  cases result with
  | ok outcome => exact fun h => trivial
  | error e => exact fun h => meets_handleError (ready e rfl) e

theorem meets_deliver :
    Meets c me (.process deliveryId) (fun _ _ => True) (deliver c me lease found now) h s := by
  have reads {q : Query} {α : Type} {f : State → α} (calm : (Step.query q).calm = true) (s : State) (h : History Draw)
      (ready : Ready me lease r found s) : Meets c me (.process deliveryId) (fun _ s => Ready me lease r found s) (read q f) h s :=
    meets_calm ready_stable (effects_read calm) ready
  have skips (reason : DeliverySkipReason) (s : State) (h : History Draw) (ready : Ready me lease r found s) :
      Meets c me (.process deliveryId) (fun _ _ => True)
        ((settle lease found.channel (.skipped reason) now).bind fun _ => .pure (ProcessOutcome.skipped reason)) h s :=
    bind (meets_settle ready nofun (fun _ _ _ => trivial) (fun _ _ => trivial) (.inr fun _ _ => trivial))
  refine seq (reads rfl s h ready) (fun _ _ _ => trivial) fun reminder h s ready => ?_
  refine seq (reads rfl s h ready) (fun _ _ _ => trivial) fun user h s ready => ?_
  split
  · exact skips _ s h ready
  split
  · split
    · refine seq (meets_calm ready_stable (effects_deliverInApp (fun _ _ => rfl) (fun _ _ => rfl) _ _ _) ready) (fun _ _ _ => trivial)
        fun notificationId h s ready => ?_
      refine bind (meets_settle ready nofun (fun _ _ _ => trivial) (fun t h => ?_) (.inr fun _ _ => trivial))
      exact seq (meets_calm (P := fun _ => True) (fun _ _ _ => id) (effects_markReminderDelivered _ _ _ rfl) trivial) (fun _ _ _ => trivial) fun _ _ _ _ => trivial
    · exact meets_deliverEmail ready
  · exact skips _ s h ready

end

/-- The claim: the worker knows the delivery that it has claimed. -/
theorem meets_claim (clock : now ≤ s.now) :
    Meets c me (.process deliveryId) (fun result s => ∀ lease, result = .ok (some lease) →
      lease.deliveryId = deliveryId ∧ ∃ r, Knows me lease r s) (claim c me deliveryId now) h s := by
  refine meets_query fun t sound later => ⟨trivial, fun d admitted => ⟨fun e _ => nofun, fun _ => nofun, fun a u ok => ?_⟩⟩
  split at ok
  · rename_i hit
    cases ok
    have kept (executed : d.fate ≠ .undone) := @claim_keeps c t me sound deliveryId d.uuid now (now + c.leaseSeconds * 1000)
      (Int.le_trans clock later.now) admitted.1 hit (admitted.2 executed)
    refine ⟨fun executed => (kept executed).1, fun fate lease is => ?_, fun _ => nofun⟩
    cases is
    exact ⟨rfl, (kept (by simp [fate])).2⟩
  · cases ok
    refine ⟨fun _ => ⟨sound, (Same.refl t).keeps sound⟩, fun _ lease is => ?_, fun _ => nofun⟩
    cases is

/-- The read after the claim. -/
theorem meets_reload (knows : Knows me lease r s) (own : lease.deliveryId = deliveryId) :
    Meets c me (.process deliveryId) (fun result s => ∀ found, result = .ok (some found) → Ready me lease r found s)
      (read (.reload deliveryId) (delivery deliveryId)) h s := by
  refine meets_read fun t sound later => ⟨trivial, fun found is => ?_, fun found is => ?_⟩
  · have knows := knows.later later
    refine ⟨knows, fun live => ?_⟩
    obtain ⟨mem, same⟩ := Rows.mem_of_find (Except.ok.inj is)
    exact sound.eq_of_id mem (knows.there live) (same.trans (own.symm.trans knows.id.symm))
  · cases is

theorem meets_clock {k : Int → Process β} {E : Except Failure β → State → Prop}
    (rest : ∀ t now h, now ≤ t.now → Meets c me input E (k now) h t) : Meets c me input E (clock.bind k) h s := by
  intro t sound later
  refine ⟨by cases input <;> trivial, fun d admitted => ⟨sound, (Same.refl t).keeps sound, ?_⟩⟩
  exact rest t d.clock _ admitted.1

theorem clock_stable (s t : State) (later : Later me s t) (known : now ≤ s.now) : now ≤ t.now :=
  Int.le_trans known later.now

theorem meets_process (deliveryId : String) :
    Meets c me (.process deliveryId) (fun _ _ => True) (process c me deliveryId) h s := by
  refine meets_clock fun t now h clock => ?_
  refine seq (meets_calm clock_stable (effects_read rfl) clock) (fun _ _ _ => trivial)
    fun existing h s clock => ?_
  cases existing with
  | none => trivial
  | some existing =>
    simp only
    split
    · trivial
    refine seq (meets_claim clock) (fun _ _ _ => trivial) fun lease h s claimed => ?_
    cases lease with
    | none => trivial
    | some lease =>
      obtain ⟨own, r, knows⟩ := claimed lease rfl
      refine seq (meets_reload knows own) (fun _ _ _ => trivial) fun found h s ready => ?_
      cases found with
      | none => trivial
      | some found => exact meets_deliver (ready found rfl)

/-- What each step of a reconciler keeps. -/
def Reconciles (c : Config) (me : Nat) (now : Int) (l : Step) (s : State) (d : Draw l) (t : State) : Prop :=
  now ≤ s.now → Sound c s → During me s .reconcile l ∧
    ((discipline c).admits l s d → (Sound c t ∧ Keeps me s t) ∧ now ≤ t.now)

theorem reconciles_of_calm (calm : p.Steps (Effects c me Step.calm)) : p.Steps (Reconciles c me now) := by
  refine steps_mono (fun l s d t effects clock sound => ?_) calm
  have same := effect_same effects.1 effects.2
  exact ⟨.of_calm effects.1, fun _ => ⟨⟨same.sound sound, same.keeps sound⟩, by rwa [same.now]⟩⟩

/-- What a query of a reconciler keeps. -/
theorem reconciles_query (during : ∀ s, During me s .reconcile (.query q))
    (writes : ∀ s (d : At) a t, f s d = .ok (a, t) → d.fate ≠ .undone → now ≤ s.now → Sound c s →
      (discipline c).admits (.query q) s d → (Sound c t ∧ Keeps me s t) ∧ now ≤ t.now) :
    (query q f).Steps (Reconciles c me now) :=
  steps_transact (fun s _ clock sound => ⟨during s, fun _ => ⟨⟨sound, (Same.refl s).keeps sound⟩, clock⟩⟩)
    fun s d a t ok fate clock sound => ⟨during s, fun admitted => writes s d a t ok fate clock sound admitted⟩

theorem reconciles_ensureDelivery (e : EnsureDelivery) (now : Int) :
    (ensureDelivery e now).Steps (Reconciles c me now) := by
  refine acts_bind (acts_attempt (reconciles_query (fun _ => trivial) fun s d a t ok _ clock sound admitted => ?_)) fun result => ?_
  · simp only at ok
    split at ok
    · cases ok
    rename_i free
    cases ok
    exact ⟨create_keeps sound admitted.1 (Bool.eq_false_iff.2 free), clock⟩
  · split <;> trivial

theorem reconciles_expireReminder (objectId : String) (now : Int) : (expireReminder objectId).Steps (Reconciles c me now) :=
  reconciles_of_calm (effects_query rfl fun s d a t ok => by
    cases ok
    exact .inr rfl)

theorem reconciles_recover (now : Int) : (recover now).Steps (Reconciles c me now) := by
  refine reconciles_query (fun _ => trivial) fun s d a t ok fate clock sound admitted => ?_
  cases ok
  exact ⟨recover_keeps sound clock (admitted.2 fate), clock⟩

theorem reconciles_ensureChannels (reminder : Due) (expired : Bool) (now : Int) (channels : List Channel)
    (counters : ReminderReconcileCounters) :
    (ensureChannels reminder expired now channels counters).Steps (Reconciles c me now) := by
  induction channels generalizing counters with
  | nil => trivial
  | cons channel rest ih => exact acts_bind (reconciles_ensureDelivery _ now) fun created => ih _

theorem reconciles_createDue (users : List User) (now : Int) (due : List Due) (counters : ReminderReconcileCounters) :
    (createDue c users now due counters).Steps (Reconciles c me now) := by
  induction due generalizing counters with
  | nil => trivial
  | cons reminder rest ih =>
    unfold createDue
    split
    · exact ih _
    split
    · refine acts_bind (reconciles_expireReminder _ now) fun _ => ?_
      exact acts_bind (reconciles_ensureChannels _ _ _ _ _) fun counters => ih _
    split
    · exact ih _
    · exact acts_bind (reconciles_ensureChannels _ _ _ _ _) fun counters => ih _

theorem reconciles_rounds (now : Int) (left : Nat) (counters : ReminderReconcileCounters) :
    (rounds c now left counters).Steps (Reconciles c me now) := by
  have reads {q : Query} {α : Type} {f : State → α} (calm : (Step.query q).calm = true) :
      (read q f).Steps (Reconciles c me now) := reconciles_of_calm (effects_read calm)
  induction left generalizing counters with
  | zero => trivial
  | succ left ih =>
    refine acts_bind (acts_bind (reads rfl) fun due => ?_) fun (dueCount, after) => ?_
    · refine acts_bind (reads rfl) fun users => ?_
      exact acts_bind (reconciles_createDue _ _ _ _) fun counters => trivial
    · simp only
      split
      · trivial
      · exact ih _

theorem reconciles_requeueExecutable (now : Int) (counters : ReminderReconcileCounters) :
    (requeueExecutable c now counters).Steps (Reconciles c me now) := by
  refine acts_bind (reconciles_recover now) fun _ => ?_
  refine acts_bind (reconciles_of_calm (effects_read rfl)) fun ids => ?_
  exact reconciles_of_calm (effects_enqueueAll (fun _ => rfl) ids counters)

theorem meets_reconcile : Meets c me .reconcile (fun _ _ => True) (reconcile c) h s := by
  refine meets_clock fun t now h clock => ?_
  refine mono (fun _ _ _ => trivial) (steps clock_stable ?_ clock)
  exact acts_bind (reconciles_rounds now 20 _) fun counters => reconciles_requeueExecutable now counters

theorem meets_call : Meets c me input (fun _ _ => True) (call c me input) h s := by
  cases input with
  | process deliveryId =>
    exact seq (meets_process deliveryId) (fun _ _ _ => trivial) fun _ _ _ _ => trivial
  | reconcile =>
    exact seq meets_reconcile (fun _ _ _ => trivial) fun _ _ _ _ => trivial

def contract (c : Config) : Contract (platform c) (discipline c) fun _ _ => True where
  idle _ _ := True
  during me input l _ s := During me s input l
  ends _ _ _ _ _ := True
  idle_rely _ _ _ _ _ := trivial
  ends_rely _ _ _ _ _ _ _ _ := trivial
  programs _ _ _ _ _ := meets_call
  environment s change sound _ := by
    obtain ⟨sound', -⟩ := @change_keeps _ _ 0 sound change
    exact ⟨sound', fun me => (change_keeps sound change).2⟩

end Vimla.Notifications
