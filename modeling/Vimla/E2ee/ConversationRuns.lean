import Vimla.E2ee.Delivery

/-!
# Every message is delivered

The invariant of a conversation, kept by each event, and with it the run.
-/

namespace Vimla.E2ee

open Base64 (Bytes)
open Function World Nat
open List

section
def pathOf (full : List Bytes) (ahead p : Party) : List Bytes := if p = ahead then full else full.tail

def World.inbox (w : World) (turnOf : Nat → List Bytes) (p : Party) : Inbox := ⟨w.sent, turnOf, p.other⟩

variable (P : Primitives) (shared : Bytes)

/-- All turns so far, whose party is ahead, how many messages each has had, and the
turn of each message. -/
structure Follows (w : World) (full : List Bytes) (ahead : Party) (count : Nat → Nat) (turnOf : Nat → List Bytes) :
    Prop where
  long : 2 ≤ full.length
  owner : ownerOf full.length = ahead
  nodup : (full.map P.publicKey).Nodup
  generated : ∀ k ∈ full.map P.publicKey, k ∈ w.generated
  first : count 1 = 0
  unsent : ∀ n, full.length < n → count n = 0
  stands : ∀ p, Stands P shared count (pathOf full ahead p) (w.state p)
  sealed : ∀ (i : Nat) (m : Sent), w.sent[i]? = some m → Sealed P shared count full m (turnOf i)
  distinct : Distinct w.sent
  past : ∀ i ∈ w.delivered, i < w.sent.length
  keeps : ∀ p, Keeps P shared (w.inbox turnOf p) count (pathOf full ahead p) (w.state p).nr (w.state p).skipped w.delivered

def Consistent (w : World) : Prop :=
  ∃ full ahead count turnOf, Follows P shared w full ahead count turnOf

variable {P shared} {w : World} {full : List Bytes} {ahead : Party} {count : Nat → Nat} {turnOf : Nat → List Bytes}

theorem Follows.located (h : Follows P shared w full ahead count turnOf) (p : Party) :
    Located P shared (w.inbox turnOf p) count full (pathOf full ahead p) where
  nodup := h.nodup
  own := by
    unfold pathOf
    split
    · exact .inl rfl
    · obtain ⟨k, rest, rfl⟩ := exists_cons_of_length_pos (l := full) (by have := h.long; omega)
      exact .inr ⟨k, rfl⟩
  receiver := by
    have long := h.long
    have owner := h.owner
    simp only [inbox, Party.other_other]
    unfold pathOf
    split
    · rename_i same
      rw [owner, same]
    · rename_i other
      have step := ownerOf_succ full.tail.length
      rw [length_tail, show full.length - 1 + 1 = full.length by omega, owner] at step
      rw [length_tail]
      rw [Party.eq_other other, step, Party.other_other]
  sealed i m at_ _ := h.sealed i m at_

theorem pathOf_suffix (p : Party) : pathOf full ahead p <:+ full := by
  unfold pathOf
  split
  · exact suffix_rfl
  · exact tail_suffix full

theorem pathOf_length (p : Party) : full.length ≤ (pathOf full ahead p).length + 1 := by
  unfold pathOf
  split
  · omega
  · rw [length_tail]
    omega

/-- The parties are one turn apart. -/
theorem Follows.apart (h : Follows P shared w full ahead count turnOf) {p q : Party} (differ : p ≠ q) :
    (pathOf full ahead p).length = (pathOf full ahead q).length + 1 ∨
      (pathOf full ahead q).length = (pathOf full ahead p).length + 1 := by
  have long := h.long
  unfold pathOf
  split
  · rename_i same
    rw [if_neg (fun here => differ (same.trans here.symm)), length_tail]
    omega
  · rename_i other
    rw [if_pos, length_tail]
    · omega
    · rw [Party.eq_other differ.symm, Party.eq_other other, Party.other_other]

variable {i : Nat} {m : Sent}

/-- Messages of one turn have different numbers. -/
theorem Follows.number_new (h : Follows P shared w full ahead count turnOf) {turn : List Bytes}
    (filled : turn ≠ []) (within : turn <:+ full) (at_ : w.sent[i]? = some m)
    (pub : m.header.dhPublic = headPublic P turn) : m.header.n < count turn.length := by
  have sealed := h.sealed i m at_
  have place : turnOf i ≠ [] := by
    intro empty
    have := sealed.long
    simp [empty] at this
  rw [sealed.dhPublic] at pub
  rw [← suffix_head_inj h.nodup sealed.suffix within place filled pub]
  exact sealed.number

theorem Distinct.append {sent : List Sent} (h : Distinct sent)
    (new : ∀ (i : Nat) (o : Sent), sent[i]? = some o → o.header.dhPublic = m.header.dhPublic → o.header.n ≠ m.header.n) :
    Distinct (sent ++ [m]) := by
  intro i j x y atX atY pub number
  obtain ⟨_, oldX⟩ | ⟨rfl, rfl⟩ := snoc_getElem? atX
  · obtain ⟨_, oldY⟩ | ⟨rfl, rfl⟩ := snoc_getElem? atY
    · exact h i j x y oldX oldY pub number
    · exact absurd number (new i x oldX pub)
  · obtain ⟨_, oldY⟩ | ⟨rfl, rfl⟩ := snoc_getElem? atY
    · exact absurd number.symm (new j y oldY pub.symm)
    · rfl

theorem Follows.encrypt (h : Follows P shared w full ahead count turnOf) (p : Party) (plaintext ad : Bytes) :
    Consistent P shared (w.step P (.encrypt p plaintext ad)) := by
  have stands := h.stands p
  have suffix : pathOf full ahead p <:+ full := pathOf_suffix p
  have near : full.length ≤ (pathOf full ahead p).length + 1 := pathOf_length p
  have apart : ∀ q, p ≠ q → _ := fun q => h.apart
  have owner := (h.located p).receiver
  simp only [inbox, Party.other_other] at owner
  simp only [step, ratchetEncrypt]
  generalize path : pathOf full ahead p = own at stands suffix near apart owner
  generalize state : w.state p = s at stands ⊢
  cases stands with
  | opened a _ _ _ _ _ sending =>
    simp only [sending]
    exact ⟨full, ahead, count, turnOf, h⟩
  | turned a b rest _ secret pub remote root sending receiving ns pn =>
    simp only [sending]
    have short := suffix.length_le
    simp only [length_cons] at short near
    have counted : ∀ n, count n ≤ update count (rest.length + 2) (count (rest.length + 2) + 1) n := by
      intro n
      by_cases same : n = rest.length + 2
      · simp [same]
      · simp [update_of_ne same]
    have kept : ∀ n, n ≠ rest.length + 2 →
        update count (rest.length + 2) (count (rest.length + 2) + 1) n = count n :=
      fun n other => update_of_ne other _ _
    refine ⟨full, ahead, update count (rest.length + 2) (count (rest.length + 2) + 1),
      update turnOf w.sent.length (a :: b :: rest), h.long, h.owner, h.nodup, h.generated, ?_, ?_, ?_, ?_, ?_,
      ?_, ?_⟩
    · rw [kept 1 (by omega), h.first]
    · intro n beyond
      rw [kept n (by omega), h.unsent n beyond]
    · intro q
      by_cases here : q = p
      · subst here
        simp only [path, update_self]
        refine .turned a b rest _ secret pub remote root ?_ receiving ?_ ?_
        · exact congrArg some next_chainKey
        · simp [ns]
        · rw [kept _ (by omega)]
          exact pn
      · dsimp only
        rw [update_of_ne here]
        refine (h.stands q).recount fun n near => kept n ?_
        have := apart q (Ne.symm here)
        simp only [length_cons] at this
        omega
    · intro i m at_
      obtain ⟨before, there⟩ | ⟨rfl, rfl⟩ := snoc_getElem? at_
      · have sealed := h.sealed i m there
        rw [update_of_ne (by omega)]
        refine { sealed with number := sealed.number.trans_le (counted _), previous := ?_ }
        have among := sealed.suffix.length_le
        rw [sealed.previous, kept _ (by omega)]
      · rw [update_self]
        refine ⟨suffix, by simp, owner, pub, ?_, ?_, ?_⟩
        · simp [ns]
        · rw [kept _ (by simp)]
          exact pn
        · simp [messageKey, ns]
    · refine h.distinct.append fun i o there same number => ?_
      have below := h.number_new (by simp) suffix there (same.trans pub)
      have taken : o.header.n = s.ns := number
      simp only [length_cons, add_assoc, reduceAdd] at below
      omega
    · intro i mem
      rw [length_append]
      exact Nat.lt_add_right _ (h.past i mem)
    · intro q
      have other : (pathOf full ahead q).length ≤ rest.length + 3 := by
        by_cases here : p = q
        · rw [← here, path]
          simp
        · have := apart q here
          simp only [length_cons] at this
          omega
      have sent := (h.keeps q).sent (m := ⟨p, ⟨s.dhsPublic, s.ns, s.pn⟩, P.aeadEncrypt (P.kdfChain
        (chainKey P shared s.ns (a :: b :: rest))).messageKey plaintext (ad ++ encodeHeader ⟨s.dhsPublic, s.ns, s.pn⟩),
        ad, plaintext⟩) (a :: b :: rest) other ns h.past
      by_cases here : q = p
      · subst here
        simp only [update_self]
        rw [state] at sent
        exact sent
      · simp only [update_of_ne here]
        exact sent

/-- A delivery moves one party on, and perhaps adds a turn. -/
theorem Follows.deliver (ideal : Ideal P) (h : Follows P shared w full ahead count turnOf) {fresh : Bytes}
    (at_ : w.sent[i]? = some m) (new : i ∉ w.delivered) (generated : P.publicKey fresh ∉ w.generated)
    (few : (w.state m.sender.other).skipped.get (skippedKey m.header.dhPublic m.header.n) = none →
      WithinSkip (w.state m.sender.other) m.header) :
    ∃ s, m.decrypt P w fresh = (.ok m.plaintext, s) ∧ Consistent P shared
      { w with
        state := update w.state m.sender.other s, generated := P.publicKey fresh :: w.generated,
        delivered := i :: w.delivered } := by
  have located := h.located m.sender.other
  have from_ : m.sender = (w.inbox turnOf m.sender.other).peer := by simp [inbox]
  have unused : P.publicKey fresh ∉ full.map P.publicKey := fun mem => generated (h.generated _ mem)
  obtain ⟨s, path', decrypts, stands, keeps, moved⟩ := receive ideal (h.stands m.sender.other) located
    (h.keeps m.sender.other) h.distinct at_ from_ new few h.first (h.unsent _ (lt_succ_self _)) unused
  refine ⟨s, decrypts, ?_⟩
  have past : ∀ j ∈ i :: w.delivered, j < w.sent.length := by
    rintro j mem
    obtain rfl | mem := mem_cons.1 mem
    · exact (List.getElem?_eq_some_iff.1 at_).1
    · exact h.past j mem
  have keepsOther : ∀ p, p ≠ m.sender.other → Keeps P shared (w.inbox turnOf p) count (pathOf full ahead p)
      (w.state p).nr (w.state p).skipped (i :: w.delivered) := by
    intro p other
    refine (h.keeps p).elsewhere at_ fun same => other ?_
    rw [same]
    simp [inbox]
  obtain same | ⟨k, whole, turned⟩ := moved
  · rw [same] at stands keeps
    refine ⟨full, ahead, count, turnOf, h.long, h.owner, h.nodup, fun key mem => mem_cons_of_mem _ (h.generated key mem),
      h.first, h.unsent, fun p => ?_, h.sealed, h.distinct, past, fun p => ?_⟩
    · by_cases here : p = m.sender.other
      · subst here
        simpa only [update_self] using stands
      · simpa only [update_of_ne here] using h.stands p
    · by_cases here : p = m.sender.other
      · subst here
        simp only [update_self]
        exact keeps
      · simp only [update_of_ne here]
        exact keepsOther p here
  · -- the receiver was behind, and is ahead with the key pair it has generated
    have behind : m.sender.other ≠ ahead := by
      intro same
      have length := congrArg length whole
      rw [pathOf, if_pos same, length_cons] at length
      omega
    have ahead_eq : ahead = m.sender.other.other := Party.eq_other behind.symm
    have paths : ∀ p, p ≠ m.sender.other → pathOf (fresh :: full) m.sender.other p = pathOf full ahead p := by
      intro p other
      rw [pathOf, if_neg other, pathOf, if_pos (by rw [Party.eq_other other, ahead_eq])]
      rfl
    have own : pathOf (fresh :: full) m.sender.other m.sender.other = path' := by
      rw [pathOf, if_pos rfl, turned]
    refine ⟨fresh :: full, m.sender.other, count, turnOf, ?_, ?_, nodup_cons.2 ⟨unused, h.nodup⟩, ?_, h.first, ?_,
      fun p => ?_, ?_, h.distinct, past, fun p => ?_⟩
    · have := h.long
      rw [length_cons]
      omega
    · rw [length_cons, ownerOf_succ, h.owner, ahead_eq, Party.other_other]
    · intro key mem
      obtain rfl | mem := mem_cons.1 mem
      · exact mem_cons_self
      · exact mem_cons_of_mem _ (h.generated key mem)
    · intro n beyond
      rw [length_cons] at beyond
      exact h.unsent n (by omega)
    · by_cases here : p = m.sender.other
      · subst here
        simpa only [update_self, own] using stands
      · simpa only [update_of_ne here, paths p here] using h.stands p
    · intro j o there
      have sealed := h.sealed j o there
      exact { sealed with suffix := sealed.suffix.trans (suffix_cons fresh full) }
    · by_cases here : p = m.sender.other
      · subst here
        simp only [update_self, own]
        exact keeps
      · simp only [update_of_ne here, paths p here]
        exact keepsOther p here

theorem Follows.replay (ideal : Ideal P) (h : Follows P shared w full ahead count turnOf)
    (at_ : w.sent[i]? = some m) (old : i ∈ w.delivered) (fresh : Bytes) : ∃ e, (m.decrypt P w fresh).1 = .error e :=
  E2ee.replay ideal (h.stands m.sender.other) (h.located m.sender.other) (h.keeps m.sender.other) at_
    (by simp [inbox]) old fresh

theorem Follows.generate (h : Follows P shared w full ahead count turnOf) (key : Bytes) :
    Follows P shared { w with generated := key :: w.generated } full ahead count turnOf :=
  { h with generated := fun k mem => mem_cons_of_mem key (h.generated k mem) }

theorem Consistent.reload (ideal : Ideal P) (h : Consistent P shared w) (p : Party) :
    deserializeRatchet (serializeRatchet (w.state p)) = some (w.state p) := by
  obtain ⟨full, ahead, count, turnOf, follows⟩ := h
  exact deserialize_serialize ((follows.stands p).storable ideal)

section
variable (ideal : Ideal P) (ev : Event) (admitted : Admitted P w ev) (h : Consistent P shared w)
include ideal ev admitted h

theorem Consistent.step :
    Consistent P shared (w.step P ev) := by
  obtain ⟨full, ahead, count, turnOf, follows⟩ := h
  cases ev with
  | encrypt p plaintext ad => exact follows.encrypt p plaintext ad
  | reload p =>
    have read := deserialize_serialize ((follows.stands p).storable ideal)
    simp only [step, read, update_eq_self]
    exact ⟨full, ahead, count, turnOf, follows⟩
  | attempt p header ciphertext ad fresh =>
    obtain ⟨_, fails⟩ := admitted
    simp only [step]
    split
    · exact ⟨full, ahead, count, turnOf, follows.generate _⟩
    · rename_i opens
      simp [opens, Except.isOk, Except.toBool] at fails
  | deliver i fresh =>
    simp only [step]
    split
    · exact ⟨full, ahead, count, turnOf, follows⟩
    · rename_i m at_
      by_cases old : i ∈ w.delivered
      · obtain ⟨e, fails⟩ := follows.replay ideal at_ old fresh
        generalize m.decrypt P w fresh = attempt at fails
        obtain ⟨_, s⟩ := attempt
        subst fails
        exact ⟨full, ahead, count, turnOf, follows.generate _⟩
      · obtain ⟨s, decrypts, consistent⟩ := follows.deliver ideal at_ old admitted.1 (admitted.2 m at_ old)
        rw [decrypts]
        exact consistent

theorem Consistent.delivers :
    Delivers P w ev := by
  cases ev with
  | encrypt | attempt => trivial
  | reload p => exact h.reload ideal p
  | deliver i fresh =>
    obtain ⟨full, ahead, count, turnOf, follows⟩ := h
    intro m at_
    constructor
    · intro new
      obtain ⟨s, decrypts, _⟩ := follows.deliver ideal at_ new admitted.1 (admitted.2 m at_ new)
      rw [decrypts]
    · intro old
      exact follows.replay ideal at_ old fresh

end

theorem consistent_start {signed first : Bytes} (distinct : P.publicKey first ≠ P.publicKey signed) :
    Consistent P shared (start P shared signed first) := by
  have stands : ∀ p, Stands P shared (fun _ => 0) (pathOf [first, signed] .initiator p)
      ((start P shared signed first).state p) := by
    intro p
    cases p with
    | initiator => exact .turned first signed [] _ rfl rfl rfl rfl rfl rfl rfl rfl
    | responder => exact .opened signed _ rfl rfl rfl rfl rfl rfl rfl
  refine ⟨[first, signed], .initiator, fun _ => 0, fun _ => [], by simp, by simp [ownerOf], by simpa using distinct, by simp [start],
    rfl, fun _ _ => rfl, stands, by simp [start], ?_, by simp [start], fun p => ?_⟩
  · intro i j m o at_
    simp [start] at at_
  · refine ⟨?_, ?_, by simp [inbox, start], by simp [inbox, start]⟩
    · cases p <;> exact le_refl 0
    · intro key v found
      cases p <;> simp [start, initRatchetInitiator, initRatchetResponder] at found

variable (P shared) in
/-- Double-ratchet delivery. -/
theorem conversation_delivers (ideal : Ideal P) (signed first : Bytes) (evs : List Event)
    (distinct : P.publicKey first ≠ P.publicKey signed)
    (admitted : Runs.Along (step P) (Admitted P) (start P shared signed first) evs) :
    Runs.Along (step P) (Delivers P) (start P shared signed first) evs :=
  Runs.along_of_invariant (P := Consistent P shared) (fun _ ev admitted held => Consistent.delivers ideal ev admitted held)
    (fun _ ev admitted held => Consistent.step ideal ev admitted held) admitted (consistent_start distinct)

end

/-- Bytes that tell where they end. -/
def delimit (bytes : Bytes) : Bytes := bytes.flatMap (fun b => [1, b]) ++ [0]

def undelimit : Bytes → Option (Bytes × Bytes)
  | 0 :: rest => some ([], rest)
  | 1 :: b :: rest => (undelimit rest).map fun parts => (b :: parts.1, parts.2)
  | _ => none

theorem undelimit_delimit (bytes rest : Bytes) : undelimit (delimit bytes ++ rest) = some (bytes, rest) := by
  induction bytes with
  | nil => rfl
  | cons b bytes ih =>
    simp only [delimit, flatMap_cons, append_assoc, cons_append, nil_append] at ih ⊢
    simp [undelimit, ih]

theorem delimit_inj {a b c d : Bytes} (same : delimit a ++ b = delimit c ++ d) : a = c ∧ b = d := by
  have parts := congrArg undelimit same
  rw [undelimit_delimit, undelimit_delimit] at parts
  exact Prod.mk.inj (Option.some.inj parts)

/-- Keys that are written out as what they are derived from. -/
def symbolic : Primitives where
  publicKey secret := 9 :: secret
  dh secret publicKey := List.zipWith (· * ·) secret publicKey.tail
  kdfRoot root dhOut := ⟨3 :: (delimit root ++ dhOut), 2 :: (delimit root ++ dhOut)⟩
  kdfChain chain := ⟨4 :: chain, 5 :: chain⟩
  aeadEncrypt key plaintext ad := delimit key ++ (delimit ad ++ plaintext)
  aeadDecrypt key ciphertext ad := do
    let (sealedBy, rest) ← undelimit ciphertext
    let (about, plaintext) ← undelimit rest
    if sealedBy = key ∧ about = ad then some plaintext else none

theorem symbolic_ideal : Ideal symbolic where
  dh_comm a b := zipWith_comm_of_comm (UInt8.mul_comm)
  decrypts key plaintext ad := by simp [symbolic, undelimit_delimit]
  otherKey key other plaintext ad ad' differ := by simp [symbolic, undelimit_delimit, differ.symm]
  chain_injective r d r' d' same := delimit_inj (cons.inj same).2
  next_injective a b same := (cons.inj same).2
  message_injective a b same := (cons.inj same).2
  chain_acyclic chain n positive same := by
    have grows : ∀ n, (symbolic.next^[n] chain).length = chain.length + n := by
      intro n
      induction n with
      | zero => rfl
      | succ n ih =>
        rw [iterate_succ_apply']
        simp only [Primitives.next, symbolic, length_cons] at ih ⊢
        omega
    have length := grows n
    rw [same] at length
    omega
  root_acyclic r ds filled same := by
    have grows : ∀ ds : List Bytes, ∀ r, r.length + ds.length ≤
        (ds.foldl (fun r d => (symbolic.kdfRoot r d).rootKey) r).length := by
      intro ds
      induction ds with
      | nil => simp
      | cons d ds ih =>
        intro r
        refine le_trans ?_ (ih _)
        simp [symbolic, delimit]
        omega
    have length := grows ds r
    rw [same] at length
    exact filled (length_eq_zero_iff.1 (by omega))
  public_ne_nil _ := by simp [symbolic]
  chain_ne_nil _ _ := by simp [symbolic]
  next_ne_nil _ := by simp [Primitives.next, symbolic]

/-- Messages out of order, over three turns, with a replay of an older chain. -/
def exchange : List Event :=
  [.encrypt .initiator [1] [7], .encrypt .initiator [2] [7], .deliver 1 [30], .reload .responder,
    .encrypt .responder [3] [], .deliver 2 [40], .encrypt .initiator [4] [], .deliver 3 [50], .deliver 0 [60],
    .deliver 1 [70]]

theorem conversation_delivers_exchange :
    Runs.Along (step symbolic) (Delivers symbolic) (start symbolic [5] [10] [20]) exchange :=
  conversation_delivers symbolic [5] symbolic_ideal [10] [20] exchange (by decide) (by decide +kernel)

end Vimla.E2ee
