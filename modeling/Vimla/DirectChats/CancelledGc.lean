import Vimla.Lib.Sorting

/-!
# Which cancelled sends a poll looks at

`selectTrustCancelledGcCandidates`: a window of the eligible rows that moves on
by one page in each poll interval. The pages shift when rows are removed, but
while none is, the windows go round all pages.
-/

namespace Vimla.DirectChats.TrustCancelledGc

open List

def MIN_AGE_MS : Nat := 5 * 60000
def POLL_INTERVAL_MS : Nat := 5 * 60000
def BATCH_MAX : Nat := 16

structure Row where
  conversationId : String
  senderDeviceId : String
  clientMessageId : String
  createdAt : String
  trustCancelledAt : Option String
  /-- Whether there is one. -/
  operatorIntent : Bool
  deriving DecidableEq

/-- The caller's rows and what it asks about, and the platform: `Date.parse`,
`localeCompare`, and `sort`, whose order is its own where a comparison is not
consistent, as it may not be for dates that do not parse. -/
structure Input (T : Type) where
  row : T → Row
  conversationId : String
  senderDeviceId : String
  parse : String → Option Int
  localeCompare : String → String → Ordering
  sort : (T → T → Ordering) → List T → List T
  sort_perm : ∀ compare l, (sort compare l).Perm l

variable {T : Type} (input : Input T) (rows : List T) (now : Nat)

def Input.cancelledAt (t : T) : Option Int := ((input.row t).trustCancelledAt.filter fun s => s ≠ "").bind input.parse

/-- A row of the conversation and the device that was cancelled long enough ago. -/
def Eligible (t : T) : Prop :=
  (input.row t).conversationId = input.conversationId ∧ (input.row t).senderDeviceId = input.senderDeviceId ∧
    ∃ cancelledAt ∈ input.cancelledAt t, cancelledAt ≤ now ∧ MIN_AGE_MS ≤ now - cancelledAt

instance (t : T) : Decidable (Eligible input now t) := inferInstanceAs (Decidable (_ ∧ _ ∧ ∃ cancelledAt ∈ _, _))

def compareRows (left right : T) : Ordering :=
  ((compare (input.row left).operatorIntent.toNat (input.row right).operatorIntent.toNat).then
    (match input.parse (input.row left).createdAt, input.parse (input.row right).createdAt with
      | some l, some r => compare l r
      | _, _ => .eq)).then (input.localeCompare (input.row left).clientMessageId (input.row right).clientMessageId)

def eligible : List T := rows.filter fun t => Eligible input now t

def pages (candidates : List T) : Nat := (candidates.length + (BATCH_MAX - 1)) / BATCH_MAX

def window (candidates : List T) (epoch : Nat) : List T :=
  if candidates.length ≤ BATCH_MAX then candidates
  else (candidates.drop (epoch % pages candidates * BATCH_MAX)).take BATCH_MAX

/-- The time is what `Date.now()` returns. -/
def selectTrustCancelledGcCandidates : List T :=
  window (input.sort (compareRows input) (eligible input rows now)) (now / POLL_INTERVAL_MS)

/-- The rows and the time of each call. -/
structure History (T : Type) where
  rows : Nat → List T
  now : Nat → Nat

def History.selected (h : History T) (k : Nat) : List T := selectTrustCancelledGcCandidates input (h.rows k) (h.now k)

def History.eligible (h : History T) (k : Nat) : List T := TrustCancelledGc.eligible input (h.rows k) (h.now k)

/-- Calls in consecutive poll intervals, between which only selected rows go. The
store lists its rows in one order. -/
structure Polls (h : History T) : Prop where
  consecutive : ∀ k, h.now (k + 1) / POLL_INTERVAL_MS = h.now k / POLL_INTERVAL_MS + 1
  stored : ∀ k, (h.rows (k + 1)).Sublist (h.rows k)
  kept : ∀ k, ∀ t ∈ h.rows k, t ∉ h.selected input k → t ∈ h.rows (k + 1)
  aged : ∀ k, ∀ t ∈ h.rows (k + 1), Eligible input (h.now (k + 1)) t → Eligible input (h.now k) t

/-- Within how many calls each of `n` rows is selected. -/
def bound (n : Nat) : Nat := n * ((n + (BATCH_MAX - 1)) / BATCH_MAX)

variable {input} {t : T} {l : List T} {h : History T}

theorem mem_of_window {epoch : Nat} (mem : t ∈ window l epoch) : t ∈ l := by
  unfold window at mem
  split at mem
  · exact mem
  · exact drop_subset _ _ (take_subset _ _ mem)

theorem window_length (l : List T) (epoch : Nat) : (window l epoch).length ≤ BATCH_MAX := by
  unfold window
  split
  · assumption
  · exact length_take_le _ _

theorem mem_window {i epoch : Nat} (here : l[i]? = some t) (page : epoch % pages l = i / BATCH_MAX) : t ∈ window l epoch := by
  unfold window
  split
  · exact mem_of_getElem? here
  · rw [page]
    apply mem_of_getElem? (i := i % BATCH_MAX)
    rw [getElem?_take_of_lt (Nat.mod_lt _ (by decide)), getElem?_drop, Nat.div_add_mod', here]

/-- The windows of as many epochs as there are pages. -/
theorem windows_cover (mem : t ∈ l) (epoch : Nat) : ∃ k < pages l, t ∈ window l (epoch + k) := by
  obtain ⟨i, lt, rfl⟩ := getElem_of_mem mem
  have page : i / BATCH_MAX < pages l := by
    simp only [pages, BATCH_MAX]
    omega
  generalize target : i / BATCH_MAX = q at page
  refine ⟨(q + (pages l - 1) * epoch) % pages l, Nat.mod_lt _ (by omega), mem_window (getElem?_eq_getElem lt) ?_⟩
  have round : epoch + (q + (pages l - 1) * epoch) = q + pages l * epoch := by
    obtain ⟨p, is⟩ : ∃ p, pages l = p + 1 := ⟨pages l - 1, by omega⟩
    rw [is, Nat.add_sub_cancel]
    ring
  rw [Nat.add_mod_mod, round, Nat.add_mul_mod_self_left, Nat.mod_eq_of_lt page, target]

section Polls
variable (polls : Polls input h)
include polls

theorem Polls.shift (k : Nat) : Polls input ⟨fun j => h.rows (k + j), fun j => h.now (k + j)⟩ :=
  ⟨fun j => polls.consecutive (k + j), fun j => polls.stored (k + j), fun j => polls.kept (k + j), fun j => polls.aged (k + j)⟩

theorem Polls.epoch (k : Nat) : h.now k / POLL_INTERVAL_MS = h.now 0 / POLL_INTERVAL_MS + k := by
  induction k with
  | zero => rfl
  | succ k ih => rw [polls.consecutive, ih, Nat.add_assoc]

/-- The eligible rows of a call are those of the call before that are left. -/
theorem Polls.eligible_succ (k : Nat) : h.eligible input (k + 1) = eligible input (h.rows (k + 1)) (h.now k) := by
  have next := polls.consecutive k
  have later : h.now k ≤ h.now (k + 1) := by
    by_contra earlier
    have := Nat.div_le_div_right (c := POLL_INTERVAL_MS) (Nat.le_of_not_le earlier)
    omega
  apply filter_congr
  intro t mem
  simp only [decide_eq_decide]
  constructor
  · exact polls.aged k t mem
  · rintro ⟨conversation, device, cancelledAt, is, past, old⟩
    exact ⟨conversation, device, cancelledAt, is, by omega, by omega⟩

theorem Polls.eligible_sublist (k : Nat) : (h.eligible input k).Sublist (h.eligible input 0) := by
  induction k with
  | zero => exact .refl _
  | succ k ih =>
    rw [polls.eligible_succ]
    exact ((polls.stored k).filter _).trans ih

/-- A row stays as long as it is not selected. -/
theorem Polls.stays (mem : t ∈ h.eligible input 0) (k : Nat) (unseen : ∀ j < k, t ∉ h.selected input j) :
    t ∈ h.eligible input k := by
  induction k with
  | zero => exact mem
  | succ k ih =>
    have before := mem_filter.1 (ih fun j lt => unseen j (by omega))
    rw [polls.eligible_succ]
    exact mem_filter.2 ⟨polls.kept k t before.1 (unseen k (by omega)), before.2⟩

end Polls

/-- By induction on the number of eligible rows: either they stay the same for as
many calls as they have pages, or some are gone. -/
theorem selected_within (n : Nat) {h : History T} (polls : Polls input h) (few : (h.eligible input 0).length ≤ n)
    (mem : t ∈ h.eligible input 0) : ∃ k < bound n, t ∈ h.selected input k := by
  induction n generalizing h with
  | zero => simp [length_eq_zero_iff.1 (Nat.le_zero.1 few)] at mem
  | succ n ih =>
    have sorted := input.sort_perm (compareRows input) (h.eligible input 0)
    obtain ⟨k, lt, selected⟩ := windows_cover (sorted.mem_iff.2 mem) (h.now 0 / POLL_INTERVAL_MS)
    rw [pages, sorted.length_eq] at lt
    have most : k < (n + 1 + (BATCH_MAX - 1)) / BATCH_MAX := Nat.lt_of_lt_of_le lt (Nat.div_le_div_right (by omega))
    have grows : bound n + k < bound (n + 1) := by
      have fewer : (n + (BATCH_MAX - 1)) / BATCH_MAX ≤ (n + 1 + (BATCH_MAX - 1)) / BATCH_MAX := Nat.div_le_div_right (by omega)
      have := Nat.mul_le_mul_left n fewer
      rw [bound, bound, Nat.succ_mul]
      omega
    by_cases seen : ∃ j < k, t ∈ h.selected input j
    · obtain ⟨j, before, selected⟩ := seen
      exact ⟨j, by omega, selected⟩
    have here := polls.stays mem k fun j before selected => seen ⟨j, before, selected⟩
    by_cases same : h.eligible input k = h.eligible input 0
    · refine ⟨k, by omega, ?_⟩
      change t ∈ window (input.sort _ (h.eligible input k)) _
      rwa [same, polls.epoch]
    · have shorter : (h.eligible input k).length < (h.eligible input 0).length := by
        by_contra long
        exact same ((polls.eligible_sublist k).eq_of_length_le (by omega))
      obtain ⟨j, lt, selected⟩ := ih (polls.shift k) (Nat.le_of_lt_succ (Nat.lt_of_lt_of_le shorter few)) here
      exact ⟨k + j, by omega, selected⟩

/-- A call selects few rows and only eligible ones, and each eligible row is
selected soon, whatever rows stay. -/
theorem cancelled_gc_fair (polls : Polls input h) (k : Nat) :
    (h.selected input k).length ≤ BATCH_MAX ∧ (∀ t ∈ h.selected input k, t ∈ h.rows k ∧ Eligible input (h.now k) t) ∧
    ∀ t ∈ h.rows k, Eligible input (h.now k) t → ∃ j < bound (h.rows k).length, t ∈ h.selected input (k + j) := by
  refine ⟨window_length _ _, fun t mem => ?_, fun t mem eligible => ?_⟩
  · simpa [eligible] using (input.sort_perm _ _).mem_iff.1 (mem_of_window mem)
  · exact selected_within _ (polls.shift k) (length_filter_le _ _) (mem_filter.2 ⟨mem, by simpa using eligible⟩)

/-- A send that was cancelled in 1970 and is never removed. -/
def sent : Row := ⟨"chat", "phone", "message", "", some "0", false⟩

def chat : Input Row := ⟨id, "chat", "phone", fun _ => some 0, compare, Js.sort, Js.sort_perm⟩

theorem cancelled_gc_fair_sent : ∃ j < 1, sent ∈ selectTrustCancelledGcCandidates chat [sent] (300000 * (0 + j + 1)) := by
  have eligible (k : Nat) : Eligible chat (300000 * (k + 1)) sent := by
    refine ⟨rfl, rfl, 0, rfl, by omega, ?_⟩
    simp only [MIN_AGE_MS]
    omega
  refine (cancelled_gc_fair (h := ⟨fun _ => [sent], fun k => 300000 * (k + 1)⟩) ?_ 0).2.2 sent mem_cons_self (eligible 0)
  refine ⟨fun k => ?_, fun _ => .refl _, fun _ _ mem _ => mem, fun k t mem _ => mem_singleton.1 mem ▸ eligible k⟩
  simp only [POLL_INTERVAL_MS]
  omega

end Vimla.DirectChats.TrustCancelledGc
