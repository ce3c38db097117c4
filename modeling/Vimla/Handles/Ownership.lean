import Vimla.Handles.Steps

/-!
# Whose a handle is

A claim of one's own handle takes the status of the account whatever the handle's
is, and a reservation that a claim has found over is deleted by its id alone.
-/

namespace Vimla.Handles

open Threads Threads.Program Rows World List

variable {c : Config} {me : Nat} {s t : Tables} {call : Call}

/-- No clock is ahead of the time, and no key is drawn twice. -/
def Answers (s : Tables) (d : At) : Prop := d.date ≤ s.now ∧ "user:" ++ d.uuid ∉ s.drawn

/-- A claim that changes the status of the user's own handle finds it neither
retired nor, for an account that is not verified, active; and the reservation
that a claim deletes is still as the claim has seen it. -/
def Careful (s : Tables) : Step → Prop
  | .renew userId owned status => owned.status ≠ status → ∀ h ∈ s.handles, h.userId = some userId →
      h.status ≠ .RETIRED ∧ (status = .PENDING → h.status ≠ .ACTIVE)
  | .replace _ row => ∀ h ∈ s.handles, h.id = row.id → h = row
  | _ => True

def discipline : Discipline Step Draw Tables where
  inv := Sound
  admits l s d := Answers s d ∧ (d.fate ≠ .undone → Careful s l)
  rely _ := Later
  guarantee _ s t := Later s t ∧ Removed s t
  refl _ := Later.refl
  trans _ _ _ _ := Later.trans
  compatible _ _ _ _ _ _ kept := kept.1

instance (s : Tables) (l : Step) : Decidable (Careful s l) := by
  unfold Careful
  split <;> infer_instance

instance : ∀ l s d, Decidable (discipline.admits l s d) := fun l s d =>
  inferInstanceAs (Decidable ((d.date ≤ s.now ∧ "user:" ++ d.uuid ∉ s.drawn) ∧ (d.fate ≠ .undone → Careful s l)))

/-- On whose behalf a step removes a handle. -/
def Acting (call : Call) : Step → Prop
  | .cleanup _ => ∃ input, call = .availability input
  | .replace userId row => (∃ input, call = .claim userId input) ∧ row.userId ≠ some userId
  | _ => True

def Meets (call : Call) (me : Nat) {α : Type} (p : Process α) (h : History Draw) (s : Tables) : Prop :=
  discipline.wp me (fun l _ _ => Acting call l) (fun _ _ _ => True) p h s

variable {α β : Type} {h : History Draw}

variable {f : Tables → At → Except HandleError (α × Tables)} {k : α → Process β} {l : Step}

theorem meets_query (acting : Acting call l)
    (each : ∀ t, Sound t → Later s t → ∀ d, Answers t d → (d.fate ≠ .undone → Careful t l) → ∀ a u, f t d = .ok (a, u) →
      d.fate ≠ .undone → Keeps t u ∧ ∀ h', Meets call me (k a) h' u) : Meets call me ((query l f).bind k) h s := by
  refine Discipline.wp_bind (Discipline.wp_transact (fun t _ => ⟨.refl t, .refl t⟩) fun t sound later => ?_)
  refine ⟨acting, fun _ _ => trivial, fun d admitted a u ok executed => ?_⟩
  obtain ⟨keeps, rest⟩ := each t sound later d admitted.1 admitted.2 a u ok executed
  exact ⟨keeps.sound, ⟨keeps.later, keeps.removed⟩, fun _ _ => trivial, rest⟩

theorem meets_read {f : Tables → α} (acting : Acting call l)
    (each : ∀ t, Sound t → Later s t → ∀ h', Meets call me (k (f t)) h' t) : Meets call me ((read l f).bind k) h s := by
  refine meets_query acting fun t sound later d _ _ a u ok _ => ?_
  cases ok
  exact ⟨sound.keeps, each t sound later⟩

theorem meets_lift {r : Except HandleError α} (each : ∀ a, Meets call me (k a) h s) :
    Meets call me ((lift r).bind k) h s := by
  cases r with
  | error e => trivial
  | ok a => exact each a

theorem meets_claim (userId input : String) : Meets (.claim userId input) me (claim c userId input) h s := by
  refine meets_lift fun handle => ?_
  refine meets_read trivial fun s sound _ h => ?_
  cases found : s.user userId with
  | none => trivial
  | some account =>
    have mine : account.id = userId := (mem_of_find found).2
    refine meets_read trivial fun s _ _ h => ?_
    cases s.handleOf userId with
    | some owned =>
      simp only
      split
      · trivial
      refine meets_query trivial fun t sound _ d _ careful a u ok executed => ⟨?_, fun _ => trivial⟩
      exact renew_keeps sound (mine ▸ careful executed) ok
    | none =>
      refine meets_query trivial fun s _ _ d answers _ a u ok _ => ?_
      cases ok
      refine ⟨Sound.keeps ‹_›, fun h => ?_⟩
      cases s.handleNamed handle with
      | none =>
        refine meets_query trivial fun t sound _ d answers _ a u ok _ => ⟨?_, fun _ => trivial⟩
        exact (create_keeps sound answers.2 ok).1
      | some row =>
        simp only
        split
        · rename_i late
          simp only [expired, decide_eq_true_eq, Option.any_eq_true] at late
          obtain ⟨user, pending, other, expiry, is, less⟩ := late
          refine meets_query ⟨⟨input, rfl⟩, other⟩ fun t sound later d answers' careful a u ok executed => ⟨?_, fun _ => trivial⟩
          have past : expiry < t.now := Int.lt_of_lt_of_le less (Int.le_trans answers.1 later.now)
          exact replace_keeps sound answers'.2 (careful executed) ⟨user, pending, expiry, is, past⟩ ok
        · trivial

theorem meets_availability (input : String) : Meets (.availability input) me (availability c input) h s := by
  refine meets_lift fun handle => ?_
  refine meets_query ⟨input, rfl⟩ fun t sound _ d answers _ a u ok _ => ?_
  cases ok
  refine ⟨cleanup_keeps sound handle answers.1, fun h => ?_⟩
  exact meets_read trivial fun s _ _ h => trivial

/-- A handle that is read as pending does not become a retired one. -/
theorem meets_activateVerified (userId : String) (emailVerified : Bool) :
    Meets (.activateVerified userId emailVerified) me (activateVerified c userId emailVerified) h s := by
  refine meets_read trivial fun s _ _ h => ?_
  cases s.handleOf userId with
  | none => trivial
  | some handle =>
    simp only
    split
    · trivial
    split
    · trivial
    refine meets_read trivial fun s _ _ h => ?_
    cases s.user userId with
    | none => trivial
    | some user =>
      refine meets_read trivial fun s sound _ h => ?_
      cases found : s.handle handle.id with
      | none => trivial
      | some current =>
        simp only
        split
        · trivial
        rename_i usable
        split
        · trivial
        refine meets_query trivial fun t sound' later d _ _ a u ok _ => ⟨?_, fun _ => trivial⟩
        refine promote_keeps sound' (fun g mem same retired => ?_) ok
        have stored : current ∈ s.handles := (mem_of_find found).1
        have before : g ∈ s.handles := later.retired g mem retired
        rw [sound.eq_of_id before stored same] at retired
        exact usable (.inr (.inr retired))

theorem change_later (sound : Sound s) (change : Change) : Sound (s.change change) ∧ Later s (s.change change) := by
  cases change with
  | tick elapsed =>
    have le : s.now ≤ s.now + elapsed := by omega
    exact ⟨⟨⟨sound.ids, sound.names, sound.owners, sound.kinds, sound.pending, sound.settled, sound.users, sound.bound, sound.foreign,
      sound.drawn⟩, sound.shown⟩, ⟨le, Subset.refl _, fun _ mem _ => mem, fun _ mem _ => mem, fun h mem _ => ⟨h, mem, rfl⟩⟩⟩
  | users users =>
    exact ⟨⟨⟨sound.ids, sound.names, sound.owners, sound.kinds, sound.pending, sound.settled, sound.users, sound.bound, sound.foreign,
      sound.drawn⟩, sound.shown⟩, ⟨Int.le_refl _, Subset.refl _, fun _ mem _ => mem, fun _ mem _ => mem,
      fun h mem _ => ⟨h, mem, rfl⟩⟩⟩

def contract (c : Config) : Contract (service c) discipline fun _ _ => True where
  idle _ _ := True
  during _ call l _ _ := Acting call l
  ends _ _ _ _ _ := True
  idle_rely _ _ _ _ _ := trivial
  ends_rely _ _ _ _ _ _ _ _ := trivial
  programs _ call _ _ _ := by
    cases call with
    | claim userId input => exact meets_claim userId input
    | availability input => exact meets_availability input
    | activateVerified userId emailVerified => exact meets_activateVerified userId emailVerified
  environment s change sound _ := by
    obtain ⟨sound', later⟩ := change_later sound change
    exact ⟨sound', fun _ => later⟩

/-- Only two steps remove a handle, and a claim no other than the one it has read. -/
def Spares (l : Step) (s : Tables) (d : At) (t : Tables) : Prop :=
  ∀ h ∈ s.handles, (∃ g ∈ t.handles, g.id = h.id) ∨
    match l with
    | .cleanup _ => True
    | .replace _ row => h.id = row.id ∧ d.fate ≠ .undone
    | _ => False

theorem spares_query
    (writes : ∀ s d a t, f s d = .ok (a, t) → d.fate ≠ .undone → Spares l s d t) : (query l f).Steps Spares :=
  steps_transact (fun _ _ h mem => .inl ⟨h, mem, rfl⟩) writes

theorem spares_read {f : Tables → α} : (read l f).Steps Spares := by
  refine spares_query fun s d a t ok _ h mem => ?_
  cases ok
  exact .inl ⟨h, mem, rfl⟩

theorem spares_claim (userId input : String) : (claim c userId input).Steps Spares := by
  refine acts_bind (acts_lift _) fun handle => acts_bind spares_read fun account => ?_
  cases account with
  | none => trivial
  | some account =>
    refine acts_bind spares_read fun owned => ?_
    cases owned with
    | some owned =>
      simp only
      split
      · trivial
      · exact acts_bind (spares_query fun s d a t ok _ h mem => .inl (renew_spares ok h mem)) fun _ => trivial
    | none =>
      refine acts_bind (spares_query fun s d a t ok _ h mem => ?_) fun (row, date) => ?_
      · cases ok
        exact .inl ⟨h, mem, rfl⟩
      cases row with
      | none => exact acts_bind (spares_query fun s d a t ok _ h mem => .inl ⟨h, create_grows ok h mem, rfl⟩) fun _ => trivial
      | some row =>
        simp only
        split
        · exact acts_bind (spares_query fun s d a t ok executed h mem =>
            (replace_spares ok h mem).imp_right fun same => ⟨same, executed⟩) fun _ => trivial
        · trivial

theorem spares_activateVerified (userId : String) (emailVerified : Bool) :
    (activateVerified c userId emailVerified).Steps Spares := by
  refine acts_bind spares_read fun handle => ?_
  cases handle with
  | none => trivial
  | some handle =>
    simp only
    split
    · trivial
    split
    · trivial
    refine acts_bind spares_read fun user => ?_
    cases user with
    | none => trivial
    | some user =>
      refine acts_bind spares_read fun current => ?_
      cases current with
      | none => trivial
      | some current =>
        simp only
        split
        · trivial
        split
        · trivial
        · exact acts_bind (spares_query fun s d a t ok _ h mem => .inl (promote_spares ok h mem)) fun _ => trivial

theorem spares_call (call : Call) : (call.program c).Steps Spares := by
  cases call with
  | claim userId input => exact spares_claim userId input
  | activateVerified userId emailVerified => exact spares_activateVerified userId emailVerified
  | availability input =>
    refine acts_bind (acts_lift _) fun handle => acts_bind (spares_query fun s d a t ok _ h mem => .inr trivial) fun _ => ?_
    exact acts_bind spares_read fun _ => trivial

abbrev Accounts := World Step Draw Tables HandleError (Option ClaimedHandle) Call

/-- What holds of `w`, and of a later `w'`. -/
structure HandlesHold (w w' : Accounts) : Prop where
  active : ∀ h ∈ w.state.handles, h.status = .ACTIVE → h ∈ w'.state.handles
  retired : ∀ h ∈ w.state.handles, h.status = .RETIRED → h ∈ w'.state.handles
  /-- No two handles have one name, or one user. -/
  unique : ∀ h ∈ w.state.handles, ∀ g ∈ w.state.handles,
    h.normalized = g.normalized ∨ h.userId.isSome ∧ h.userId = g.userId → h = g
  shown : ∀ h ∈ w.state.handles, h.kind = .USER → h.status = .ACTIVE →
    ∃ p ∈ w.state.profiles, p.handleId = h.id ∧ h.userId = some p.userId ∧
      ∀ q ∈ w.state.profiles, q.handleId = h.id ∨ h.userId = some q.userId → q = p
  /-- What a step of a call removes is a reservation that is over, and for a claim
  not its own. -/
  removed : ∀ (me : Nat) (thread : Thread Step Draw Tables HandleError (Option ClaimedHandle) Call),
    w.threads[me]? = some thread → ∀ l act next, thread.program = .step l act next → ∀ d, discipline.admits l w.state d →
    ∀ h ∈ w.state.handles, (∀ g ∈ (act w.state d).handles, g.id ≠ h.id) →
      h.kind = .USER ∧ h.status = .PENDING ∧ (∃ expiry ∈ h.reservationExpiresAt, expiry < w.state.now) ∧
      ((∃ input, thread.input = .availability input) ∨
        ∃ userId input, thread.input = .claim userId input ∧ h.userId ≠ some userId)

theorem Sound.shown_once (sound : Sound s) {h : Handle} (mem : h ∈ s.handles) (user : h.kind = .USER) (active : h.status = .ACTIVE) :
    ∃ p ∈ s.profiles, p.handleId = h.id ∧ h.userId = some p.userId ∧
      ∀ q ∈ s.profiles, q.handleId = h.id ∨ h.userId = some q.userId → q = p := by
  obtain ⟨p, listed, id, owner⟩ := sound.shown h mem user active
  refine ⟨p, listed, id, owner, fun q listed' same => ?_⟩
  rcases same with bound | mine
  · exact eq_of_key sound.bound listed' listed (bound.trans id.symm)
  · exact eq_of_key sound.users listed' listed (Option.some.inj (mine.symm.trans owner))

/-- In a run whose steps are careful, at any moment and at any later one. -/
theorem handles_hold (c : Config) (s : Tables) (sound : Sound s) (events more : List (Event Step Draw Call Change))
    (careful : Runs.Along (step (service c)) (Admitted discipline fun _ _ => True) ⟨s, []⟩ (events ++ more)) :
    HandlesHold (events.foldl (step (service c)) ⟨s, []⟩) ((events ++ more).foldl (step (service c)) ⟨s, []⟩) := by
  obtain ⟨first, rest⟩ := Runs.along_append.1 careful
  have holds := Contract.run first ((contract c).start sound fun _ => trivial)
  have spares := @acts _ _ _ _ _ _ _ _ (service c) ⟨s, []⟩ (fun _ => spares_call) events nofun
  rw [foldl_append]
  generalize events.foldl (step (service c)) ⟨s, []⟩ = w at holds spares rest
  have sound : Sound w.state := holds.1
  have later : Later w.state (more.foldl (step (service c)) w).state :=
    Contract.later (R := Later) Later.refl (fun _ _ _ => Later.trans) (fun _ _ _ _ (kept : Later _ _ ∧ Removed _ _) => kept.1)
      (fun _ change sound _ => (change_later sound change).2) rest holds
  refine ⟨fun h mem active => later.stays h mem (by simp [active]), fun h mem retired => later.stays h mem (by simp [retired]),
    fun h mem g mem' same => ?_, fun h mem user active => sound.shown_once mem user active, ?_⟩
  · rcases same with name | ⟨some, owner⟩
    · exact eq_of_key sound.names mem mem' name
    · exact sound.owners h mem g mem' some owner
  · intro me thread found l act next is d admitted h mem gone
    obtain ⟨acting, -, ⟨-, removed⟩, -⟩ := holds.advance found is admitted
    rcases removed h mem with ⟨g, stored, same, -⟩ | ⟨user, pending, late⟩
    · exact absurd same (gone g stored)
    refine ⟨user, pending, late, ?_⟩
    have spared := spares thread (mem_of_getElem? found)
    rw [is] at spared
    rcases spared.1 w.state d h mem with ⟨g, stored, same⟩ | removes
    · exact absurd same (gone g stored)
    cases l with
    | cleanup handle => exact .inl acting
    | replace userId row =>
      obtain ⟨⟨input, mine⟩, other⟩ := acting
      have same : h = row := admitted.2 removes.2 h mem removes.1
      exact .inr ⟨userId, input, mine, same ▸ other⟩
    | _ => exact removes.elim

namespace Ana

def config : Config := ⟨id, some⟩

/-- Ana's reservation, in this status, long after its expiry. -/
def tables (status : HandleStatus) (emailVerified : Bool) : Tables where
  users := [⟨"ana", emailVerified, "Ana"⟩, ⟨"bob", true, "Bob"⟩]
  handles := [⟨"user:1", "ana", "ana", .USER, status, some "ana", if status = .PENDING then some 100 else none⟩]
  profiles := if status = .ACTIVE then [⟨"ana", "user:1", "Ana"⟩] else []
  now := 1000
  drawn := ["user:1"]

theorem sound : Sound (tables .PENDING true) := by
  constructor
  · constructor <;> decide +kernel
  · intro h mem _ active
    simp only [tables, mem_singleton] at mem
    rw [mem] at active
    cases active

def steps (me n : Nat) : List (Event Step Draw Call Change) := replicate n (.advance me fun _ => ⟨1000, .done, "2"⟩)

def run (s : Tables) (events : List (Event Step Draw Call Change)) : Accounts :=
  events.foldl (step (service config)) ⟨s, []⟩

/-- What a test sees of the handles. -/
def seen (w : Accounts) : List (Option String × HandleStatus) := w.state.handles.map fun h => (h.userId, h.status)

/-- Ana's verification activates her handle. -/
def verified : List (Event Step Draw Call Change) := .arrive (.activateVerified "ana" true) :: steps 0 4

/-- Bob asks for it in vain. -/
def refused : List (Event Step Draw Call Change) := .arrive (.claim "bob" "ana") :: steps 1 4

/-- Bob sees the reservation over, Ana activates it, and Bob deletes it. -/
def seenOver : List (Event Step Draw Call Change) :=
  [.arrive (.claim "bob" "ana"), .arrive (.activateVerified "ana" true)] ++ steps 0 3 ++ steps 1 4

end Ana

open Ana in
theorem handles_hold_ana :
    HandlesHold (run (tables .PENDING true) verified) (run (tables .PENDING true) (verified ++ refused)) ∧
    seen (run (tables .PENDING true) (verified ++ refused)) = [(some "ana", .ACTIVE)] :=
  ⟨handles_hold config (tables .PENDING true) sound verified refused (by decide +kernel), by decide +kernel⟩

open Ana in
/-- An active handle is deleted by a claim that saw it expire; one's own claim
makes an active handle a reservation again, and a retired one active. -/
theorem claim_takes_active_handle :
    (seen (run (tables .PENDING true) seenOver) = [(some "ana", .ACTIVE)] ∧
      seen (run (tables .PENDING true) (seenOver ++ steps 0 1)) = [(some "bob", .ACTIVE)]) ∧
    ((run (tables .ACTIVE false) (.arrive (.claim "ana" "ana") :: steps 0 3)).state.handles.map fun h =>
      (h.status, h.reservationExpiresAt)) = [(.PENDING, some (1000 + PENDING_HANDLE_TTL_MS))] ∧
    seen (run (tables .RETIRED true) (.arrive (.claim "ana" "ana") :: steps 0 3)) = [(some "ana", .ACTIVE)] := by
  decide +kernel

end Vimla.Handles
