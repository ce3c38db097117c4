import Vimla.Billing.Ledger

/-!
# What buckets were granted for

The source of a bucket is written once, and is a row that was there before it.
So a new subscription is never the source of a bucket already.
-/

namespace Vimla.Billing

def Db.sources (db : Db) : List Nat := db.buckets.map UsageBucket.sourceId

def Db.SourcesBelow (db : Db) : Prop := ∀ id ∈ db.sources, id < db.nextId

/-- Bucket sources are kept, but for one that is there when it becomes one. -/
inductive SourceMove (db db' : Db) : Prop
  | same (sources : db'.sources = db.sources)
  | granted (id : Nat) (sources : db'.sources = db.sources ++ [id]) (known : id < db'.nextId)

variable {db db' : Db}

theorem SourceMove.below (h : SourceMove db db') (later : db.nextId ≤ db'.nextId)
    (below : db.SourcesBelow) : db'.SourcesBelow := by
  intro id mem
  cases h with
  | same sources => exact Nat.lt_of_lt_of_le (below id (sources ▸ mem)) later
  | granted new sources known =>
    rw [sources] at mem
    rcases List.mem_append.1 mem with mem | mem
    · exact Nat.lt_of_lt_of_le (below id mem) later
    · rwa [List.mem_singleton.1 mem]

variable {ctx : PaymentContext} {payment : Payment}

theorem grantFromSucceededPayment_sources {grant : Grant} (known : payment.id < db.nextId)
    (h : grantFromSucceededPayment ctx payment db = .ok (db', grant)) : SourceMove db db' := by
  obtain ⟨-, ⟨planVersionId, -, -, rfl, rfl⟩ | ⟨-, rfl, rfl⟩⟩ := grantFromSucceededPayment_cases h
  · exact .granted db.nextId (by simp [Db.sources]) (Nat.lt_succ_of_lt (Nat.lt_succ_self db.nextId))
  · exact .granted payment.id (by simp [Db.sources]) (Nat.lt_succ_of_lt known)

theorem Applied.sources {event : PaymentEventInput}
    (h : Applied ctx payment event db db') (known : payment.id < db.nextId) : SourceMove db db' := by
  cases h.written with
  | noted _ _ _ _ _ _ _ _ _ rows =>
    rw [rows]
    exact .same rfl
  | granted good money unpaid granted grant run economics =>
    have same : db'.sources = granted.sources ∧ db'.nextId = granted.nextId := by
      rcases ensurePaymentEconomics_cases economics with ⟨-, rfl⟩ | ⟨-, row, rfl, -⟩ <;> exact ⟨rfl, rfl⟩
    cases grantFromSucceededPayment_sources known run with
    | same sources => exact .same (same.1.trans sources)
    | granted id sources below => exact .granted id (same.1.trans sources) (same.2 ▸ below)
  | refunded _ _ _ _ _ taken _ _ _ _ rows =>
    rw [rows]
    cases taken with
    | nothing => exact .same rfl
    | revoked bucket => exact .same (Rows.map_update fun _ => rfl)

theorem BucketMove.sources (m : BucketMove db db') (ids : db'.buckets.map UsageBucket.id = db.buckets.map UsageBucket.id) :
    db'.sources = db.sources := by
  unfold Db.sources
  cases m with
  | still _ _ buckets => rw [buckets]
  | granted _ _ _ buckets => exact absurd (congrArg List.length ids) (by simp [buckets])
  | revoked _ _ _ _ _ _ buckets =>
    rw [buckets]
    exact Rows.map_update fun _ => rfl

theorem Commits.sources {op : Op} (h : Commits db op db') (balanced : Balanced db .none)
    (keys : PaymentKeys db) : SourceMove db db' := by
  obtain ⟨ctx, event, payment, -, lock, applied⟩ | ⟨kept, -, -⟩ := (h.move balanced).event_or_kept
  · cases applied.sources (keys.below payment (lockPaymentId_mem lock)) with
    | same sources => exact .same sources
    | granted id sources below => exact .granted id sources below
  rcases h.column (f := fun b => b.sourceId) (fun _ _ => rfl) (fun _ _ => rfl) balanced with same | move
  · have sources := congrArg (List.map fun row => row.2.toNat) same
    simp only [List.map_map] at sources
    exact .same sources
  · exact .same (move.sources kept.buckets)

end Vimla.Billing
