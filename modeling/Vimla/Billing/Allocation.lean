import Vimla.Billing.Database

namespace Vimla.Billing

open List Rows Option

variable {estimated : Int}

structure ReservationAllocationPlan where
  bucketId : Nat
  reservedMicroRub : Int
  deriving DecidableEq

def bucketTypeRank : UsageBucketType → Int
  | .monthly => 0
  | .topup => 1

def compareBucketPriority (left right : LockedBucket) : Int :=
  if bucketTypeRank left.type ≠ bucketTypeRank right.type then
    bucketTypeRank left.type - bucketTypeRank right.type
  else
    match left.expiresAt, right.expiresAt with
    | some l, some r => if l - r ≠ 0 then l - r else left.createdAt - right.createdAt
    | some _, none => -1
    | none, some _ => 1
    | none, none => left.createdAt - right.createdAt

/-- `sort` with a comparator: stable, so equal elements keep their order. -/
def sortBuckets (buckets : List LockedBucket) : List LockedBucket :=
  buckets.insertionSort fun l r => compareBucketPriority l r ≤ 0

def LockedBucket.available (b : LockedBucket) : Int :=
  availableMicroRub b.totalMicroRub b.spentMicroRub b.reservedMicroRub

/-- The loop over the ordered buckets: what is left to cover and the takings. -/
def takeFrom : List LockedBucket → Int → List ReservationAllocationPlan × Int
  | [], remaining => ([], remaining)
  | bucket :: rest, remaining =>
    if remaining = 0 then ([], remaining)
    else if bucket.available ≤ 0 then takeFrom rest remaining
    else
      let take := if bucket.available < remaining then bucket.available else remaining
      let (allocations, left) := takeFrom rest (remaining - take)
      (⟨bucket.id, take⟩ :: allocations, left)

def planReservationAllocations (buckets : List LockedBucket) (estimatedMicroRub : Int) :
    Option (List ReservationAllocationPlan) :=
  if estimatedMicroRub ≤ 0 then none
  else
    let (allocations, remaining) := takeFrom (sortBuckets buckets) estimatedMicroRub
    if remaining > 0 then none else some allocations

/-- The amount a plan takes from one bucket. -/
def planned (plan : List ReservationAllocationPlan) (id : Nat) : Int :=
  total (fun a => if a.bucketId = id then a.reservedMicroRub else 0) plan

/-- All that the buckets could still fund together. -/
def availability (buckets : List LockedBucket) : Int :=
  total (fun b => if b.available ≤ 0 then 0 else b.available) buckets

theorem sortBuckets_perm (buckets : List LockedBucket) : (sortBuckets buckets).Perm buckets :=
  perm_insertionSort _ buckets

theorem takeFrom_ids (buckets : List LockedBucket) (remaining : Int) :
    ((takeFrom buckets remaining).1.map (·.bucketId)).Sublist (buckets.map (·.id)) := by
  induction buckets generalizing remaining with
  | nil => exact Sublist.refl []
  | cons b rest ih =>
    simp only [takeFrom]
    split
    · exact nil_sublist _
    split
    · exact (ih remaining).cons b.id
    · exact (ih _).cons_cons b.id

section
variable {buckets : List LockedBucket}

/-- What a run of the loop takes and what it leaves add up, and nothing is
left exactly when the buckets can fund the amount. -/
theorem takeFrom_total {remaining : Int} (h : 0 ≤ remaining) :
    total (·.reservedMicroRub) (takeFrom buckets remaining).1 + (takeFrom buckets remaining).2
        = remaining ∧
      (takeFrom buckets remaining).2 = max 0 (remaining - availability buckets) := by
  induction buckets generalizing remaining with
  | nil => simp [takeFrom, availability, h]
  | cons b rest ih =>
    have rest_nonneg : 0 ≤ availability rest := total_nonneg fun x _ => by split <;> omega
    simp only [takeFrom, availability, total_cons] at ih ⊢
    simp only [availability] at rest_nonneg
    split
    · constructor
      · simp
      · split <;> simp only <;> omega
    split
    · have := ih h
      simpa using this
    · have take_le : 0 ≤ remaining - (if b.available < remaining then b.available else remaining) := by
        split <;> omega
      obtain ⟨sum, left⟩ := ih take_le
      constructor
      · simp only [total_cons]
        omega
      · rw [left]
        split <;> omega

theorem takeFrom_mem {remaining : Int} (h : 0 ≤ remaining)
    {a : ReservationAllocationPlan} (ha : a ∈ (takeFrom buckets remaining).1) :
    ∃ b ∈ buckets, b.id = a.bucketId ∧ 0 < a.reservedMicroRub ∧ a.reservedMicroRub ≤ b.available := by
  induction buckets generalizing remaining with
  | nil => simp [takeFrom] at ha
  | cons b rest ih =>
    simp only [takeFrom] at ha
    split at ha
    · simp at ha
    split at ha
    · obtain ⟨c, hc, hb⟩ := ih h ha
      exact ⟨c, mem_cons_of_mem b hc, hb⟩
    · rcases mem_cons.1 ha with rfl | ha
      · refine ⟨b, mem_cons_self, rfl, ?_, ?_⟩ <;> simp only <;> split <;> omega
      · obtain ⟨c, hc, hb⟩ := ih (by split <;> omega) ha
        exact ⟨c, mem_cons_of_mem b hc, hb⟩

/-- A plan names distinct buckets of the list, takes a positive amount that
each can fund, and covers the estimate exactly. -/
theorem plan_spec {plan : List ReservationAllocationPlan} (nd : (buckets.map (·.id)).Nodup)
    (h : planReservationAllocations buckets estimated = some plan) :
    (plan.map (·.bucketId)).Nodup ∧ total (·.reservedMicroRub) plan = estimated ∧
      ∀ a ∈ plan, ∃ b ∈ buckets, b.id = a.bucketId ∧ 0 < a.reservedMicroRub ∧
        a.reservedMicroRub ≤ b.available := by
  unfold planReservationAllocations at h
  split at h
  · cases h
  simp only at h
  split at h
  · cases h
  obtain rfl := some.inj h
  have perm := sortBuckets_perm buckets
  have ids := takeFrom_ids (sortBuckets buckets) estimated
  have amounts := @takeFrom_total (sortBuckets buckets) estimated (by omega)
  refine ⟨ids.nodup ((perm.map _).nodup_iff.2 nd), by omega, fun a ha => ?_⟩
  obtain ⟨b, hb, spec⟩ := takeFrom_mem (by omega) ha
  exact ⟨b, perm.subset hb, spec⟩

/-- A positive estimate has a plan exactly when the buckets can fund it. -/
theorem plan_isSome (h : 0 < estimated) :
    (planReservationAllocations buckets estimated).isSome ↔ estimated ≤ availability buckets := by
  have total : availability (sortBuckets buckets) = availability buckets :=
    total_perm (sortBuckets_perm buckets)
  have left := (@takeFrom_total (sortBuckets buckets) estimated (by omega)).2
  unfold planReservationAllocations
  rw [if_neg (by omega)]
  simp only [left, total]
  split
  · simp only [isSome_none, Bool.false_eq_true, false_iff]
    omega
  · simp only [isSome_some, true_iff]
    omega

end

/-!
# Plans are greedy

`compareBucketPriority` is a lexicographic order, so the loop of
`planReservationAllocations` drains the buckets in that order.
-/

/-- Monthly buckets first, then the earlier expiry (never expiring last), then
the earlier creation. -/
def LockedBucket.rank (b : LockedBucket) : Int ×ₗ WithTop Int ×ₗ Int :=
  toLex (bucketTypeRank b.type, toLex (b.expiresAt.elim ⊤ fun t => (t : WithTop Int), b.createdAt))

variable {l r : LockedBucket}

theorem compareBucketPriority_neg : compareBucketPriority l r < 0 ↔ l.rank < r.rank := by
  unfold compareBucketPriority LockedBucket.rank
  simp only [Prod.Lex.toLex_lt_toLex]
  by_cases type : bucketTypeRank l.type = bucketTypeRank r.type
  · simp only [type, ne_eq, not_true_eq_false, if_false, lt_self_iff_false, true_and, false_or]
    cases l.expiresAt with
    | none =>
      cases r.expiresAt with
      | none =>
        simp only [Option.elim, lt_self_iff_false, true_and, false_or]
        omega
      | some rt => simp
    | some lt =>
      cases r.expiresAt with
      | none => simp
      | some rt =>
        simp only [Option.elim, WithTop.coe_lt_coe, WithTop.coe_inj]
        split <;> omega
  · simp only [type, ne_eq, not_false_eq_true, if_true, false_and, or_false]
    omega

theorem compareBucketPriority_le : compareBucketPriority l r ≤ 0 ↔ l.rank ≤ r.rank := by
  have swap : compareBucketPriority r l = - compareBucketPriority l r := by
    unfold compareBucketPriority
    by_cases type : bucketTypeRank l.type = bucketTypeRank r.type
    · cases l.expiresAt <;> cases r.expiresAt <;> simp only [type, ne_eq, not_true_eq_false, if_false] <;>
        (try split) <;> (try split) <;> omega
    · rw [if_pos type, if_pos (Ne.symm type)]
      omega
  refine Iff.trans ?_ not_lt
  rw [← compareBucketPriority_neg, swap]
  omega

/-- The sort puts the buckets in the order of their ranks. -/
theorem sortBuckets_pairwise (buckets : List LockedBucket) :
    (sortBuckets buckets).Pairwise fun l r => l.rank ≤ r.rank := by
  have total : Std.Total fun l r => compareBucketPriority l r ≤ 0 :=
    ⟨fun l r => by simpa [compareBucketPriority_le] using le_total l.rank r.rank⟩
  have trans : IsTrans LockedBucket fun l r => compareBucketPriority l r ≤ 0 :=
    ⟨fun a b c ab bc => compareBucketPriority_le.2
      ((compareBucketPriority_le.1 ab).trans (compareBucketPriority_le.1 bc))⟩
  exact (pairwise_insertionSort _ buckets).imp compareBucketPriority_le.1

theorem planned_cons (a : ReservationAllocationPlan) (plan : List ReservationAllocationPlan) (id : Nat) :
    planned (a :: plan) id = (if a.bucketId = id then a.reservedMicroRub else 0) + planned plan id := rfl

variable {plan : List ReservationAllocationPlan}

theorem planned_absent {id : Nat} (absent : id ∉ plan.map (·.bucketId)) : planned plan id = 0 := by
  refine total_eq_zero fun a ha => if_neg ?_
  rintro rfl
  exact absent (mem_map_of_mem ha)

variable {buckets : List LockedBucket}

/-- A bucket of the loop receives something only when each bucket before it
gives all that it has. -/
theorem takeFrom_greedy {remaining : Int} (h : 0 ≤ remaining) (nd : (buckets.map (·.id)).Nodup) :
    buckets.Pairwise fun first second => 0 < planned (takeFrom buckets remaining).1 second.id →
        planned (takeFrom buckets remaining).1 first.id = max 0 first.available := by
  induction buckets generalizing remaining with
  | nil => exact Pairwise.nil
  | cons b rest ih =>
    obtain ⟨absent, nd⟩ : b.id ∉ rest.map (·.id) ∧ (rest.map (·.id)).Nodup := nodup_cons.1 nd
    have untouched : ∀ r, planned (takeFrom rest r).1 b.id = 0 := fun r =>
      planned_absent fun mem => absent ((takeFrom_ids rest r).subset mem)
    simp only [takeFrom]
    by_cases done : remaining = 0
    · simp only [done, if_true]
      exact pairwise_of_forall fun _ _ taken => absurd taken (by simp [planned])
    rw [if_neg done]
    by_cases empty : b.available ≤ 0
    · rw [if_pos empty]
      refine Pairwise.cons (fun c _ _ => ?_) (ih h nd)
      rw [untouched]
      omega
    rw [if_neg empty]
    have other : ∀ c ∈ rest, b.id ≠ c.id := by
      intro c mem same
      have listed : c.id ∈ rest.map (·.id) := mem_map_of_mem mem
      exact absent (same ▸ listed)
    by_cases partly : b.available < remaining
    · simp only [partly, if_true, planned_cons]
      refine Pairwise.cons (fun c mem _ => ?_) ?_
      · rw [if_pos rfl, untouched]
        omega
      · refine (Pairwise.and_mem.1 (@ih (remaining - b.available) (by omega) nd)).imp ?_
        rintro c d ⟨hc, hd, greedy⟩
        simpa [if_neg (other c hc), if_neg (other d hd)] using greedy
    · simp only [partly, if_false, planned_cons, Int.sub_self]
      have rest_empty : ∀ id, planned (takeFrom rest 0).1 id = 0 := by
        intro id
        cases rest with
        | nil => rfl
        | cons c rest => simp [takeFrom, planned]
      refine Pairwise.cons (fun c mem taken => ?_) ?_
      · rw [if_neg (other c mem), rest_empty] at taken
        omega
      · refine Pairwise.imp_of_mem (fun hc hd _ taken => ?_) (@ih 0 (by omega) nd)
        rw [if_neg (other _ hd), rest_empty] at taken
        omega

/-- What `planReservationAllocations` promises about a list of buckets. -/
structure GreedyPlan (buckets : List LockedBucket) (estimated : Int)
    (plan : List ReservationAllocationPlan) : Prop where
  distinct : (plan.map (·.bucketId)).Nodup
  funded : ∀ a ∈ plan, ∃ b ∈ buckets, b.id = a.bucketId ∧ 0 < a.reservedMicroRub ∧
    a.reservedMicroRub ≤ b.available
  exact : total (·.reservedMicroRub) plan = estimated
  greedy : ∀ first ∈ buckets, ∀ second ∈ buckets, compareBucketPriority first second < 0 →
    0 < planned plan second.id → planned plan first.id = max 0 first.available

theorem greedyPlan_of_plan (nd : (buckets.map (·.id)).Nodup)
    (h : planReservationAllocations buckets estimated = some plan) : GreedyPlan buckets estimated plan := by
  obtain ⟨distinct, exact, funded⟩ := plan_spec nd h
  refine ⟨distinct, funded, exact, ?_⟩
  have perm := sortBuckets_perm buckets
  unfold planReservationAllocations at h
  split at h
  · cases h
  simp only at h
  split at h
  · cases h
  obtain rfl := some.inj h
  have greedy := @takeFrom_greedy (sortBuckets buckets) estimated (by omega)
    ((perm.map _).nodup_iff.2 nd)
  intro first hf second hs before
  have reached := @Pairwise.forall_of_forall_of_flip _ _
    (fun l r : LockedBucket => l.rank < r.rank →
      0 < planned (takeFrom (sortBuckets buckets) estimated).1 r.id →
        planned (takeFrom (sortBuckets buckets) estimated).1 l.id = max 0 l.available)
    (fun _ _ less => absurd less (lt_irrefl _))
    (by refine greedy.imp ?_; exact fun taken _ => taken)
    ((sortBuckets_pairwise buckets).imp fun sorted less => absurd less (not_lt.2 sorted))
  exact reached (perm.mem_iff.2 hf) (perm.mem_iff.2 hs) (compareBucketPriority_neg.1 before)

/-- There is no plan exactly when nothing was asked for or the buckets cannot
fund it; any plan covers the estimate exactly, from distinct buckets, in the
order of their priority. -/
theorem plans_are_greedy (buckets : List LockedBucket) (estimated : Int)
    (distinct : (buckets.map (·.id)).Nodup) :
    (planReservationAllocations buckets estimated = none ↔
      estimated ≤ 0 ∨ availability buckets < estimated) ∧
    (∀ l r : LockedBucket, compareBucketPriority l r < 0 ↔ l.rank < r.rank) ∧
    ∀ plan, planReservationAllocations buckets estimated = some plan →
      GreedyPlan buckets estimated plan := by
  refine ⟨?_, fun _ _ => compareBucketPriority_neg, fun plan h => greedyPlan_of_plan distinct h⟩
  by_cases positive : 0 < estimated
  · rw [← not_isSome_iff_eq_none, plan_isSome positive]
    omega
  · have none_planned : planReservationAllocations buckets estimated = none := if_pos (by omega)
    simp only [none_planned, true_iff]
    omega

/-- Two monthly buckets and a top-up: the later ones wait for the earlier. -/
theorem plans_are_greedy_monthly :
    planReservationAllocations
        [⟨3, .topup, 50, 0, 0, none, 1⟩, ⟨2, .monthly, 10, 0, 4, some 90, 2⟩,
          ⟨1, .monthly, 10, 12, 0, some 80, 3⟩] 20
      = some [⟨2, 6⟩, ⟨3, 14⟩] ∧
    GreedyPlan
        [⟨3, .topup, 50, 0, 0, none, 1⟩, ⟨2, .monthly, 10, 0, 4, some 90, 2⟩,
          ⟨1, .monthly, 10, 12, 0, some 80, 3⟩] 20 [⟨2, 6⟩, ⟨3, 14⟩] :=
  ⟨by decide +kernel, (plans_are_greedy _ 20 (by decide)).2.2 _ (by decide +kernel)⟩

end Vimla.Billing
