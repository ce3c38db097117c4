import Vimla.Notifications.Effects

/-!
# The life of a delivery

The invariant of the deliveries, who holds a delivery under its lease, and what
each statement does to them.
-/

namespace Vimla.Notifications

open Threads List Rows Int

variable {c : Config} {s t u : State} {me : Nat} {r : NotificationDelivery}

def State.claimsOf (s : State) (deliveryId : String) : Nat := s.claims.countP fun claim => claim.deliveryId = deliveryId

structure NotificationDelivery.Sound (c : Config) (s : State) (r : NotificationDelivery) : Prop where
  occurrence : r.occurrenceKey = reminderOccurrenceKey r.sourceId r.scheduledFor
  token : r.processingToken.isSome ↔ r.status = .PROCESSING
  until_ : r.processingUntil.isSome ↔ r.status = .PROCESSING
  claims : s.claimsOf r.id = r.attemptCount
  bound : r.attemptCount ≤ c.maxAttempts
  waiting : r.status = .PENDING ∨ r.status = .RETRYABLE → r.attemptCount < c.maxAttempts

structure Sound (c : Config) (s : State) : Prop where
  ids : (s.deliveries.map NotificationDelivery.id).Nodup
  keys : (s.deliveries.map NotificationDelivery.key).Nodup
  rows : ∀ r ∈ s.deliveries, r.Sound c s
  tokens : (s.claims.map Claim.token).Nodup
  created : ∀ r ∈ s.deliveries, r.id ∈ s.created
  claimed : ∀ claim ∈ s.claims, claim.deliveryId ∈ s.created

/-- The delivery is under a claim of this worker. -/
def Held (s : State) (me : Nat) (r : NotificationDelivery) : Prop :=
  r.status = .PROCESSING ∧ ∃ claim ∈ s.claims, claim.worker = me ∧ claim.deliveryId = r.id ∧ r.processingToken = some claim.token

/-- The lease is over by the time of the state. -/
def Over (s : State) (r : NotificationDelivery) : Prop := ∃ until_ ∈ r.processingUntil, until_ < s.now

/-- What a worker relies on: what it holds stays until its lease is over. -/
structure Later (me : Nat) (s t : State) : Prop where
  now : s.now ≤ t.now
  claims : s.claims ⊆ t.claims
  held : ∀ r ∈ s.deliveries, Held s me r → (∀ until_ ∈ r.processingUntil, t.now ≤ until_) → r ∈ t.deliveries

theorem Held.later (later : Later me s t) (held : Held s me r) : Held t me r := by
  obtain ⟨processing, claim, mem, rest⟩ := held
  exact ⟨processing, claim, later.claims mem, rest⟩

theorem Later.refl (me : Nat) (s : State) : Later me s s := ⟨le_refl _, Subset.refl _, fun _ mem _ _ => mem⟩

theorem Later.trans (first : Later me s t) (second : Later me t u) : Later me s u where
  now := le_trans first.now second.now
  claims := Subset.trans first.claims second.claims
  held r mem held live :=
    second.held r (first.held r mem held fun until_ carries => le_trans second.now (live until_ carries)) (held.later first) live

/-- A terminal status is final. -/
def Final (s t : State) : Prop :=
  ∀ r ∈ s.deliveries, r.status.terminal = true → ∃ r' ∈ t.deliveries, r'.id = r.id ∧ r'.status = r.status

/-- A delivery leaves `PROCESSING` by the worker that holds it, or when its lease is over. -/
def Leaves (me : Nat) (s t : State) : Prop :=
  ∀ r ∈ s.deliveries, r.status = .PROCESSING → ∀ r' ∈ t.deliveries, r'.id = r.id → r'.status ≠ .PROCESSING → Held s me r ∨ Over s r

/-- What a worker guarantees. -/
structure Keeps (me : Nat) (s t : State) : Prop where
  others : ∀ other, other ≠ me → Later other s t
  final : Final s t
  leaves : Leaves me s t

theorem Sound.eq_of_id (sound : Sound c s) {x y : NotificationDelivery} (hx : x ∈ s.deliveries) (hy : y ∈ s.deliveries)
    (same : x.id = y.id) : x = y := eq_of_key sound.ids hx hy same

/-- The deliveries are as before. -/
structure Same (s t : State) : Prop where
  deliveries : t.deliveries = s.deliveries
  claims : t.claims = s.claims
  now : t.now = s.now
  created : t.created = s.created

theorem Same.refl (s : State) : Same s s := ⟨rfl, rfl, rfl, rfl⟩

theorem Same.sound (same : Same s t) (sound : Sound c s) : Sound c t := by
  obtain ⟨ids, keys, rows, tokens, created, claimed⟩ := sound
  constructor
  · rwa [same.deliveries]
  · rwa [same.deliveries]
  · intro r mem
    rw [same.deliveries] at mem
    obtain ⟨occurrence, token, until_, claims, bound, waiting⟩ := rows r mem
    refine ⟨occurrence, token, until_, ?_, bound, waiting⟩
    rwa [State.claimsOf, same.claims]
  · rwa [same.claims]
  · rwa [same.deliveries, same.created]
  · rwa [same.claims, same.created]

theorem Same.later (same : Same s t) : Later me s t :=
  ⟨le_of_eq same.now.symm, same.claims ▸ Subset.refl _, fun _ mem _ _ => same.deliveries ▸ mem⟩

theorem Same.keeps (same : Same s t) (sound : Sound c s) : Keeps me s t := by
  refine ⟨fun _ _ => same.later, fun r mem _ => ⟨r, same.deliveries ▸ mem, rfl, rfl⟩, fun r mem processing r' mem' id left => ?_⟩
  rw [same.deliveries] at mem'
  exact absurd (sound.eq_of_id mem' mem id ▸ processing) left

/-- What no statement changes of a delivery. -/
structure Stays (r r' : NotificationDelivery) : Prop where
  id : r'.id = r.id
  key : r'.key = r.key
  sourceId : r'.sourceId = r.sourceId
  occurrence : r'.occurrenceKey = r.occurrenceKey
  scheduledFor : r'.scheduledFor = r.scheduledFor

/-- A statement that rewrites rows and may be a claim. It rewrites no row that
is terminal or held by another worker under a lease. -/
theorem rewrite_keeps (sound : Sound c s) {f : NotificationDelivery → NotificationDelivery} {extra : List Claim}
    (deliveries : t.deliveries = s.deliveries.map f) (claims : t.claims = s.claims ++ extra) (now : t.now = s.now)
    (created : t.created = s.created) (stays : ∀ r, Stays r (f r)) (rows : ∀ r ∈ s.deliveries, (f r).Sound c t)
    (tokens : (t.claims.map Claim.token).Nodup) (known : ∀ claim ∈ extra, claim.deliveryId ∈ s.created)
    (calm : ∀ r ∈ s.deliveries, f r ≠ r → r.status.terminal = false ∧ (∀ other, other ≠ me → Held s other r → Over s r) ∧
      (r.status = .PROCESSING → (f r).status ≠ .PROCESSING → Held s me r ∨ Over s r)) : Sound c t ∧ Keeps me s t := by
  have mapped {β : Type} {g : NotificationDelivery → β} (same : ∀ r, g (f r) = g r) : t.deliveries.map g = s.deliveries.map g := by
    rw [deliveries, map_map]
    exact map_congr_left fun r _ => same r
  refine ⟨⟨?_, ?_, fun r mem => ?_, tokens, fun r mem => ?_, fun claim mem => ?_⟩, fun other distinct => ?_, fun r mem final => ?_,
    fun r mem processing r' mem' id left => ?_⟩
  · exact mapped (fun r => (stays r).id) ▸ sound.ids
  · exact mapped (fun r => (stays r).key) ▸ sound.keys
  · obtain ⟨old, listed, rfl⟩ := mem_map.1 (deliveries ▸ mem)
    exact rows old listed
  · obtain ⟨old, listed, rfl⟩ := mem_map.1 (deliveries ▸ mem)
    rw [created, (stays old).id]
    exact sound.created old listed
  · rw [created]
    rcases mem_append.1 (claims ▸ mem) with old | new
    · exact sound.claimed claim old
    · exact known claim new
  · refine ⟨le_of_eq now.symm, fun claim mem => claims ▸ mem_append_left _ mem, fun r mem held live => ?_⟩
    have image : f r ∈ t.deliveries := deliveries ▸ mem_map_of_mem mem
    by_cases fixed : f r = r
    · exact fixed ▸ image
    · obtain ⟨until_, carries, past⟩ := (calm r mem fixed).2.1 other distinct held
      have := live until_ carries
      omega
  · have image : f r ∈ t.deliveries := deliveries ▸ mem_map_of_mem mem
    by_cases fixed : f r = r
    · exact ⟨r, fixed ▸ image, rfl, rfl⟩
    · rw [(calm r mem fixed).1] at final
      cases final
  · obtain ⟨old, listed, rfl⟩ := mem_map.1 (deliveries ▸ mem')
    obtain rfl := sound.eq_of_id listed mem ((stays old).id.symm.trans id)
    by_cases fixed : f old = old
    · rw [fixed] at left
      exact absurd processing left
    · exact (calm old mem fixed).2.2 processing left

/-- What a worker knows of the delivery that it has claimed. -/
structure Knows (me : Nat) (lease : Lease) (r : NotificationDelivery) (s : State) : Prop where
  id : r.id = lease.deliveryId
  status : r.status = .PROCESSING
  token : r.processingToken = some lease.token
  until_ : r.processingUntil = some lease.until_
  claim : ⟨lease.deliveryId, lease.token, me⟩ ∈ s.claims
  there : s.now ≤ lease.until_ → r ∈ s.deliveries

variable {lease : Lease}

theorem Knows.held (knows : Knows me lease r s) : Held s me r :=
  ⟨knows.status, _, knows.claim, rfl, knows.id.symm, knows.token⟩

theorem Knows.later (knows : Knows me lease r s) (later : Later me s t) : Knows me lease r t where
  id := knows.id
  status := knows.status
  token := knows.token
  until_ := knows.until_
  claim := later.claims knows.claim
  there live := by
    refine later.held r (knows.there (le_trans later.now live)) knows.held fun until_ carries => ?_
    rw [knows.until_] at carries
    cases carries
    exact live

variable {now : Int}

theorem claimable_iff {deliveryId : String} : claimable now deliveryId r = true ↔ r.id = deliveryId ∧
    (r.status = .PENDING ∨ r.status = .RETRYABLE ∨ r.status = .PROCESSING ∧ ∃ until_ ∈ r.processingUntil, until_ < now) := by
  simp [claimable, Option.any_eq_true]

theorem claim_keeps (sound : Sound c s) {deliveryId token : String} {now until_ : Int} (clock : now ≤ s.now)
    (fresh : ∀ claim ∈ s.claims, claim.token ≠ token) (hit : s.deliveries.any (claimable now deliveryId) = true)
    (below : ∀ r ∈ s.deliveries, claimable now deliveryId r = true → r.status = .PROCESSING → r.attemptCount < c.maxAttempts) :
    let t := { s with
      deliveries := s.deliveries.map fun r => if claimable now deliveryId r then r.claimed token until_ else r
      claims := s.claims ++ [⟨deliveryId, token, me⟩] }
    (Sound c t ∧ Keeps me s t) ∧ ∃ r, Knows me ⟨deliveryId, token, until_⟩ r t := by
  intro t
  obtain ⟨row, mem, claimed⟩ := any_eq_true.1 hit
  have own := (claimable_iff.1 claimed).1
  have counted (id : String) : t.claimsOf id = s.claimsOf id + if deliveryId = id then 1 else 0 := by
    simp [State.claimsOf, t]
  refine ⟨rewrite_keeps sound rfl rfl rfl rfl (fun r => ?_) (fun r mem' => ?_) ?_ (fun claim new => ?_) fun r mem' changed => ?_, ?_⟩
  · split <;> exact ⟨rfl, rfl, rfl, rfl, rfl⟩
  · obtain ⟨occurrence, hasToken, hasUntil, claims, bound, waiting⟩ := sound.rows r mem'
    split
    · rename_i here
      obtain ⟨id, status⟩ := claimable_iff.1 here
      have free : r.attemptCount < c.maxAttempts := by
        rcases status with pending | retryable | ⟨processing, -⟩
        · exact waiting (.inl pending)
        · exact waiting (.inr retryable)
        · exact below r mem' here processing
      refine ⟨occurrence, by simp [NotificationDelivery.claimed], by simp [NotificationDelivery.claimed], ?_, free, nofun⟩
      rw [NotificationDelivery.claimed, counted, if_pos id.symm, claims]
    · rename_i here
      refine ⟨occurrence, hasToken, hasUntil, ?_, bound, waiting⟩
      have apart : deliveryId ≠ r.id := fun same => here (sound.eq_of_id mem' mem (same.symm.trans own.symm) ▸ claimed)
      rw [counted, if_neg apart, Nat.add_zero, claims]
  · show ((s.claims ++ [(⟨deliveryId, token, me⟩ : Claim)]).map Claim.token).Nodup
    rw [map_append]
    refine nodup_append.2 ⟨sound.tokens, nodup_singleton _, fun a old b new same => ?_⟩
    obtain ⟨claim, listed, rfl⟩ := mem_map.1 old
    exact fresh claim listed (same.trans (mem_singleton.1 new))
  · rw [mem_singleton.1 new]
    exact own ▸ sound.created row mem
  · split at changed
    swap
    · exact absurd rfl changed
    rename_i here
    obtain ⟨-, status⟩ := claimable_iff.1 here
    rw [if_pos here]
    refine ⟨?_, fun other _ held => ?_, fun _ left => absurd rfl left⟩
    · rcases status with pending | retryable | ⟨processing, -⟩ <;> simp [*, DeliveryStatus.terminal]
    · rcases status with pending | retryable | ⟨-, until_, carries, past⟩
      · rw [held.1] at pending
        cases pending
      · rw [held.1] at retryable
        cases retryable
      · exact ⟨until_, carries, lt_of_lt_of_le past clock⟩
  · refine ⟨row.claimed token until_, own, rfl, rfl, rfl, mem_append_right _ mem_cons_self, fun _ => ?_⟩
    exact mem_map.2 ⟨row, mem, if_pos claimed⟩

/-! ## The outcome, the recovery and the creation -/

theorem Outcome.apply_stays (o : Outcome) (now : Int) (r : NotificationDelivery) : Stays r (o.apply now r) := by
  cases o <;> exact ⟨rfl, rfl, rfl, rfl, rfl⟩

theorem Outcome.apply_sound {o : Outcome} (sound : r.Sound c s) (claims : t.claims = s.claims)
    (retry : ∀ retryAt category errorClass, o = .retryable retryAt category errorClass → r.attemptCount < c.maxAttempts) :
    (o.apply now r).Sound c t := by
  obtain ⟨occurrence, -, -, counted, bound, -⟩ := sound
  have counted : t.claimsOf r.id = r.attemptCount := by rwa [State.claimsOf, claims]
  cases o with
  | retryable retryAt category errorClass =>
    exact ⟨occurrence, by simp [Outcome.apply], by simp [Outcome.apply], counted, bound, fun _ => retry _ _ _ rfl⟩
  | delivered _ _ | skipped _ | failed _ _ =>
    exact ⟨occurrence, by simp [Outcome.apply], by simp [Outcome.apply], counted, bound, by simp [Outcome.apply]⟩

/-- A worker writes its outcome while its lease stands. -/
theorem settle_keeps (sound : Sound c s) {o : Outcome} (knows : Knows me lease r s)
    (live : s.now ≤ lease.until_)
    (retry : ∀ retryAt category errorClass, o = .retryable retryAt category errorClass → r.attemptCount < c.maxAttempts) :
    let t := { s with
      deliveries := update NotificationDelivery.id lease.deliveryId (fun r => o.apply now r) s.deliveries }
    Sound c t ∧ Keeps me s t := by
  have own {x : NotificationDelivery} (mem : x ∈ s.deliveries) (same : x.id = lease.deliveryId) : x = r :=
    sound.eq_of_id mem (knows.there live) (same.trans knows.id.symm)
  refine @rewrite_keeps _ s _ me sound _ [] rfl (append_nil _).symm rfl rfl (fun x => ?_) (fun x mem => ?_) sound.tokens nofun
    fun x mem changed => ?_
  · split
    · exact o.apply_stays now x
    · exact ⟨rfl, rfl, rfl, rfl, rfl⟩
  · split
    · rename_i here
      obtain rfl := own mem here
      exact Outcome.apply_sound (sound.rows x mem) rfl retry
    · obtain ⟨occurrence, token, until_, claims, bound, waiting⟩ := sound.rows x mem
      exact ⟨occurrence, token, until_, claims, bound, waiting⟩
  · split at changed
    swap
    · exact absurd rfl changed
    rename_i here
    obtain rfl := own mem here
    refine ⟨by simp [knows.status, DeliveryStatus.terminal], fun other distinct held => ?_, fun _ _ => .inl knows.held⟩
    -- one token, one claim, one worker
    obtain ⟨-, claim, listed, worker, -, token⟩ := held
    have same : claim = ⟨lease.deliveryId, lease.token, me⟩ :=
      eq_of_key sound.tokens listed knows.claim (Option.some.inj (token.symm.trans knows.token))
    rw [same] at worker
    exact absurd worker.symm distinct

theorem recoverable_iff :
    recoverable now r = true ↔ r.status = .PROCESSING ∧ ∃ until_ ∈ r.processingUntil, until_ < now := by
  simp [recoverable, Option.any_eq_true]

theorem recover_keeps (sound : Sound c s) (clock : now ≤ s.now)
    (below : ∀ r ∈ s.deliveries, recoverable now r = true → r.attemptCount < c.maxAttempts) : let t := { s with deliveries := s.deliveries.map fun r => if recoverable now r then r.recovered now else r }
    Sound c t ∧ Keeps me s t := by
  refine @rewrite_keeps _ s _ me sound _ [] rfl (append_nil _).symm rfl rfl (fun x => ?_) (fun x mem => ?_) sound.tokens nofun
    fun x mem changed => ?_
  · split <;> exact ⟨rfl, rfl, rfl, rfl, rfl⟩
  · obtain ⟨occurrence, token, until_, claims, bound, waiting⟩ := sound.rows x mem
    split
    · rename_i here
      exact ⟨occurrence, by simp [NotificationDelivery.recovered], by simp [NotificationDelivery.recovered], claims, bound,
        fun _ => below x mem here⟩
    · exact ⟨occurrence, token, until_, claims, bound, waiting⟩
  · split at changed
    swap
    · exact absurd rfl changed
    rename_i here
    obtain ⟨processing, until_, carries, past⟩ := recoverable_iff.1 here
    have past : Over s x := ⟨until_, carries, lt_of_lt_of_le past clock⟩
    exact ⟨by simp [processing, DeliveryStatus.terminal], fun _ _ _ => past, fun _ _ => .inr past⟩

theorem create_keeps (sound : Sound c s) {input : EnsureDelivery} {id : String} (fresh : id ∉ s.created)
    (free : (s.deliveries.any fun r => r.key = (input.row id now).key) = false) : let t := { s with deliveries := s.deliveries ++ [input.row id now], created := s.created ++ [id] }
    Sound c t ∧ Keeps me s t := by
  have none : s.claimsOf id = 0 := by
    refine countP_eq_zero.2 fun claim mem yes => fresh ?_
    exact of_decide_eq_true yes ▸ sound.claimed claim mem
  have absent (r : NotificationDelivery) (mem : r ∈ s.deliveries) : r.id ≠ id := fun same => fresh (same ▸ sound.created r mem)
  refine ⟨⟨nodup_append sound.ids absent, nodup_append sound.keys fun r mem same => ?_, fun r mem => ?_, sound.tokens,
    fun r mem => ?_, fun claim mem => mem_append_left _ (sound.claimed claim mem)⟩, fun other _ => ?_, fun r mem _ => ?_,
    fun r mem processing r' mem' same left => ?_⟩
  · exact any_eq_false.1 free r mem (decide_eq_true same)
  · rcases mem_append.1 mem with old | new
    · obtain ⟨occurrence, token, until_, claims, bound, waiting⟩ := sound.rows r old
      exact ⟨occurrence, token, until_, claims, bound, waiting⟩
    · rw [mem_singleton.1 new]
      refine ⟨rfl, ?_, ?_, none, Nat.zero_le _, fun _ => c.maxAttempts_pos⟩ <;>
        cases expired : input.expired <;> simp [EnsureDelivery.row, expired]
  · rcases mem_append.1 mem with old | new
    · exact mem_append_left _ (sound.created r old)
    · rw [mem_singleton.1 new]
      exact mem_append_right _ mem_cons_self
  · exact ⟨le_refl _, Subset.refl _, fun r mem _ _ => mem_append_left _ mem⟩
  · exact ⟨r, mem_append_left _ mem, rfl, rfl⟩
  · rcases mem_append.1 mem' with old | new
    · exact absurd (sound.eq_of_id old mem same ▸ processing) left
    · rw [mem_singleton.1 new] at same
      exact absurd same.symm (absent r mem)

theorem change_keeps (sound : Sound c s) (change : Change) : Sound c (s.change change) ∧ Later me s (s.change change) := by
  cases change with
  | tick elapsed =>
    obtain ⟨ids, keys, rows, tokens, created, claimed⟩ := sound
    have le : s.now ≤ s.now + elapsed := le_add_of_nonneg_right (natCast_nonneg elapsed)
    refine ⟨⟨ids, keys, fun r mem => ?_, tokens, created, claimed⟩, le, Subset.refl _, fun _ mem _ _ => mem⟩
    obtain ⟨occurrence, token, until_, claims, bound, waiting⟩ := rows r mem
    exact ⟨occurrence, token, until_, claims, bound, waiting⟩
  | edit objects users =>
    have same : Same s (s.change (.edit objects users)) := ⟨rfl, rfl, rfl, rfl⟩
    exact ⟨same.sound sound, same.later⟩

end Vimla.Notifications
