import Vimla.E2ee.Bookkeeping

/-!
# Every message is delivered

What a call of `ratchetDecrypt` does with a message that was sent: it is decrypted
where it is delivered for the first time, and refused where it has been before.
-/

namespace Vimla.E2ee

open Base64 (Bytes)
open List Option

section
variable (P : Primitives) (shared : Bytes)

/-- The keys and counters of a party whose own key pair is the last of `path`. -/
inductive Stands (count : Nat → Nat) : List Bytes → RatchetState → Prop
  | opened (a : Bytes) (s : RatchetState) (secret : s.dhsSecret = a) (own : s.dhsPublic = P.publicKey a)
    (remote : s.dhrPublic = none) (root : s.rootKey = shared) (sending : s.sendingChainKey = none)
    (receiving : s.receivingChainKey = none) (ns : s.ns = 0) : Stands count [a] s
  | turned (a b : Bytes) (rest : List Bytes) (s : RatchetState) (secret : s.dhsSecret = a)
    (own : s.dhsPublic = P.publicKey a) (remote : s.dhrPublic = some (P.publicKey b))
    (root : s.rootKey = rootKey P shared (a :: b :: rest))
    (sending : s.sendingChainKey = some (chainKey P shared s.ns (a :: b :: rest)))
    (receiving : s.receivingChainKey = if rest = [] then none else some (chainKey P shared s.nr (b :: rest)))
    (ns : s.ns = count (rest.length + 2)) (pn : s.pn = count rest.length) : Stands count (a :: b :: rest) s

variable {P shared} {count : Nat → Nat} {path : List Bytes} {s : RatchetState}

theorem Stands.storable (ideal : Ideal P) (h : Stands P shared count path s) : Storable s := by
  cases h with
  | opened _ _ _ _ remote _ sending receiving => exact ⟨by simp [remote], by simp [sending], by simp [receiving]⟩
  | turned a b rest _ _ _ remote _ sending receiving =>
    refine ⟨?_, ?_, ?_⟩
    · rw [remote]
      exact fun same => ideal.public_ne_nil b (some.inj same)
    · rw [sending]
      exact fun same => chainKey_ne_nil ideal (some.inj same)
    · rw [receiving]
      cases rest with
      | nil => simp
      | cons c rest =>
        exact fun same => chainKey_ne_nil ideal (some.inj same)

theorem Stands.recount {count' : Nat → Nat} (h : Stands P shared count path s)
    (same : ∀ n, n = path.length ∨ n + 2 = path.length → count' n = count n) : Stands P shared count' path s := by
  cases h with
  | opened a _ secret own remote root sending receiving ns =>
    exact .opened a s secret own remote root sending receiving ns
  | turned a b rest _ secret own remote root sending receiving ns pn =>
    refine .turned a b rest s secret own remote root sending receiving ?_ ?_
    · rw [ns]
      exact (same _ (.inl rfl)).symm
    · rw [pn]
      exact (same _ (.inr rfl)).symm

theorem Stands.keep (h : Stands P shared count path s) (skipped : OrderedMap String Bytes) :
    Stands P shared count path { s with skipped } := by
  cases h with
  | opened a _ secret own remote root sending receiving ns =>
    exact .opened a _ secret own remote root sending receiving ns
  | turned a b rest _ secret own remote root sending receiving ns pn =>
    exact .turned a b rest _ secret own remote root sending receiving ns pn

variable {inbox : Inbox} {full : List Bytes} {delivered : List Nat} {i : Nat} {m : Sent}

section
variable (ideal : Ideal P) {turn : List Bytes} (sealed : Sealed P shared count full m turn)
include ideal sealed

theorem decryptWith_sealed (s : RatchetState) :
    decryptWith P s (messageKey P shared m.header.n turn) m.header m.ciphertext m.associatedData =
      (.ok m.plaintext, s) := by
  simp [decryptWith, sealed.ciphertext, ideal.decrypts]

theorem decryptWith_other {key : Bytes} (other : key ≠ messageKey P shared m.header.n turn) (s : RatchetState) :
    (decryptWith P s key m.header m.ciphertext m.associatedData).1 = .error .authenticationFailed := by
  simp [decryptWith, sealed.ciphertext, ideal.otherKey _ _ _ _ _ other]

end

/-- A message of the current chain that has not been passed. -/
theorem receive_current (ideal : Ideal P) (stands : Stands P shared count path s)
    (located : Located P shared inbox count full path)
    (keeps : Keeps P shared inbox count path s.nr s.skipped delivered) (distinct : Distinct inbox.sent)
    (at_ : inbox.sent[i]? = some m) (from_ : m.sender = inbox.peer) (place : inbox.turnOf i = path.tail)
    (next : s.nr ≤ m.header.n) (few : m.header.n ≤ s.nr + MAX_SKIP) :
    ∃ s', ((skipMessageKeys P s m.header.n).andThen fun _ s =>
        receiveNext P s m.header m.ciphertext m.associatedData) = (.ok m.plaintext, s') ∧
      Stands P shared count path s' ∧ Keeps P shared inbox count path s'.nr s'.skipped (i :: delivered) := by
  have sealed := located.sealed i m at_ from_
  rw [place] at sealed
  cases stands with
  | opened a =>
    have := sealed.long
    simp at this
  | turned a b rest _ secret own remote root sending receiving ns pn =>
    obtain _ | ⟨c, rest⟩ := rest
    · have := sealed.long
      simp at this
    have counted : s.nr + (m.header.n - s.nr) = m.header.n := by omega
    have gathered := keeps.gather located rfl (Nat.le_of_lt sealed.number)
    have passed := gathered.pass distinct located at_ from_ (by simp [place]) counted.symm
    rw [skipMessageKeys_ok receiving remote few]
    simp only [Attempt.andThen, receiveNext, iterate_chainKey, counted]
    refine ⟨_, decryptWith_sealed ideal sealed _, ?_, ?_⟩
    · refine .turned a b (c :: rest) _ secret own remote root sending ?_ ns pn
      exact congrArg some next_chainKey
    · simpa only [counted, tail_cons] using passed

/-- The state after the old chain is passed and before the new one is begun. -/
theorem skip_old (stands : Stands P shared count path s) {k : Bytes}
    (located : Located P shared inbox count (k :: path) path)
    (keeps : Keeps P shared inbox count path s.nr s.skipped delivered) {limit : Nat}
    (all : limit = count path.tail.length) (few : s.receivingChainKey ≠ none → limit ≤ s.nr + MAX_SKIP) :
    ∃ s', skipMessageKeys P s limit = (.ok (), s') ∧ Stands P shared count path s' ∧
      Keeps P shared inbox count path s'.nr s'.skipped delivered ∧
      (2 ≤ path.tail.length → s'.nr = count path.tail.length) := by
  cases stands with
  | opened a _ secret own remote root sending receiving ns =>
    refine ⟨s, skipMessageKeys_closed receiving, .opened a s secret own remote root sending receiving ns, keeps, ?_⟩
    simp
  | turned a b rest _ secret own remote root sending receiving ns pn =>
    obtain _ | ⟨c, rest⟩ := rest
    · refine ⟨s, skipMessageKeys_closed (by simpa using receiving),
        .turned a b [] s secret own remote root sending receiving ns pn, keeps, ?_⟩
      simp
    · rw [if_neg (by simp)] at receiving
      have bound := keeps.bound
      have gathered := keeps.gather located rfl (Nat.le_of_eq all)
      have counted : s.nr + (limit - s.nr) = limit := by omega
      rw [skipMessageKeys_ok receiving remote (few (by simp [receiving]))]
      refine ⟨_, rfl, ?_, gathered, fun _ => counted.trans all⟩
      refine .turned a b (c :: rest) _ secret own remote root sending ?_ ns pn
      rw [if_neg (by simp), iterate_chainKey]

theorem Stands.turn (ideal : Ideal P) (stands : Stands P shared count path s) {k : Bytes} (fresh : Bytes)
    {header : RatchetHeader} (pub : header.dhPublic = P.publicKey k) (first : count 1 = 0) (unsent : count (path.length + 2) = 0) :
    Stands P shared count (fresh :: k :: path) (dhRatchet P s header fresh) := by
  have filled : path ≠ [] := by
    rintro rfl
    cases stands
  have root : (P.kdfRoot s.rootKey (P.dh s.dhsSecret header.dhPublic)).rootKey = rootKey P shared (k :: path) ∧
      (P.kdfRoot s.rootKey (P.dh s.dhsSecret header.dhPublic)).chainKey = chainKey P shared 0 (k :: path) := by
    cases stands with
    | opened a _ secret own remote root | turned a b rest _ secret own remote root =>
      rw [root, secret, pub, ideal.dh_comm]
      exact ⟨rfl, rfl⟩
  have sentBefore : s.ns = count path.length := by
    cases stands with
    | opened a _ _ _ _ _ _ _ ns => simp [ns, first]
    | turned a b rest _ _ _ _ _ _ _ ns => exact ns
  refine .turned fresh k path _ rfl rfl (congrArg some pub) ?_ ?_ ?_ unsent.symm sentBefore
  iterate 2
    · simp only [dhRatchet, Primitives.keyPair]
      rw [root.1, pub]
      rfl
  · simp only [dhRatchet]
    rw [if_neg filled, root.2]

/-- A turn that is taken lies before the next one. -/
theorem Located.turn {k fresh : Bytes} (located : Located P shared inbox count (k :: path) path)
    (new : P.publicKey fresh ∉ (k :: path).map P.publicKey) :
    Located P shared inbox count (fresh :: k :: path) (fresh :: k :: path) where
  nodup := nodup_cons.2 ⟨new, located.nodup⟩
  own := .inl rfl
  receiver := by
    rw [length_cons, length_cons, ownerOf_succ, ownerOf_succ, Party.other_other]
    exact located.receiver
  sealed j o there from_ :=
    have sealed := located.sealed j o there from_
    { sealed with suffix := sealed.suffix.trans (suffix_cons fresh _) }

/-- The remote key of a party is the one of the turn before its own. -/
theorem Stands.remote_iff (h : Stands P shared count path s) (located : Located P shared inbox count full path)
    {turn : List Bytes} (within : turn <:+ full) (filled : turn ≠ []) :
    s.dhrPublic = some (headPublic P turn) ↔ turn = path.tail := by
  cases h with
  | opened a _ _ _ remote => simp [remote, filled]
  | turned a b rest _ _ _ remote =>
    rw [remote, some.injEq]
    constructor
    · intro same
      exact suffix_head_inj located.nodup within ((tail_suffix _).trans located.path_suffix) filled (by simp) same.symm
    · rintro rfl
      rfl

theorem Stands.root (h : Stands P shared count path s) : s.rootKey = rootKey P shared path := by
  cases h with
  | opened a _ _ _ _ root | turned a b rest _ _ _ _ root => exact root

section
variable (ideal : Ideal P) (stands : Stands P shared count path s) (located : Located P shared inbox count full path)
  (keeps : Keeps P shared inbox count path s.nr s.skipped delivered)
include ideal stands located keeps

/-- A message that is delivered for the first time is decrypted. -/
theorem receive (distinct : Distinct inbox.sent)
    (at_ : inbox.sent[i]? = some m) (from_ : m.sender = inbox.peer) (new : i ∉ delivered)
    (few : s.skipped.get (skippedKey m.header.dhPublic m.header.n) = none → WithinSkip s m.header)
    (first : count 1 = 0) (unsent : count (full.length + 1) = 0) {fresh : Bytes}
    (generated : P.publicKey fresh ∉ full.map P.publicKey) :
    ∃ s' path', ratchetDecrypt P s m.header m.ciphertext m.associatedData fresh = (.ok m.plaintext, s') ∧
      Stands P shared count path' s' ∧ Keeps P shared inbox count path' s'.nr s'.skipped (i :: delivered) ∧
      (path' = path ∨ ∃ k, full = k :: path ∧ path' = fresh :: full) := by
  have sealed := located.sealed i m at_ from_
  have filled : inbox.turnOf i ≠ [] := by
    intro empty
    have := sealed.long
    simp [empty] at this
  by_cases passed : m.header.n < reach count path.length s.nr (inbox.turnOf i).length
  · have kept := keeps.kept i m at_ from_ new passed
    refine ⟨{ s with skipped := s.skipped.erase _ }, path, ?_, stands.keep _, keeps.take distinct at_ passed, .inl rfl⟩
    simp only [ratchetDecrypt, kept]
    exact decryptWith_sealed ideal sealed _
  have unkept := keeps.unkept located.nodup located.path_suffix sealed.suffix filled (Nat.le_of_not_lt passed)
  rw [← sealed.dhPublic] at unkept
  have within := few unkept
  simp only [ratchetDecrypt, unkept]
  obtain suffix | ⟨k, rfl, whole⟩ := located.turn_of at_ from_
  · have short := suffix.length_le
    have long := sealed.long
    rw [length_tail] at short
    have last : (inbox.turnOf i).length + 1 = path.length := by
      by_contra earlier
      rw [reach, if_neg earlier, if_pos (by omega)] at passed
      exact passed sealed.number
    have place := located.same_turn at_ from_ last
    have remote : s.dhrPublic = some m.header.dhPublic := by
      rw [sealed.dhPublic]
      exact (stands.remote_iff located sealed.suffix filled).2 place
    rw [reach, if_pos last] at passed
    rw [WithinSkip, if_pos remote] at within
    obtain ⟨s', decrypts, stands', keeps'⟩ := receive_current ideal stands located keeps distinct at_ from_ place
      (Nat.le_of_not_lt passed) within
    refine ⟨s', path, ?_, stands', keeps', .inl rfl⟩
    rw [if_pos remote]
    exact decrypts
  · have pub : m.header.dhPublic = P.publicKey k := by
      rw [sealed.dhPublic, whole]
      rfl
    have remote : s.dhrPublic ≠ some m.header.dhPublic := by
      rw [sealed.dhPublic, Ne, stands.remote_iff located sealed.suffix filled, whole]
      intro back
      have := congrArg length back
      simp only [length_cons, length_tail] at this
      omega
    rw [WithinSkip, if_neg remote] at within
    have previous : m.header.pn = count path.tail.length := by
      rw [sealed.previous, whole, length_cons, length_tail]
      rfl
    obtain ⟨s1, skips, stands1, keeps1, all⟩ := skip_old stands located keeps previous within.1
    have turned := stands1.turn ideal fresh pub first unsent
    have located' := located.turn generated
    obtain ⟨s', decrypts, stands', keeps'⟩ := receive_current ideal turned located' (keeps1.turn located all) distinct at_
      from_ whole (Nat.zero_le _) (by simpa [dhRatchet] using within.2)
    refine ⟨s', fresh :: k :: path, ?_, stands', keeps', .inr ⟨k, rfl, rfl⟩⟩
    rw [if_neg remote, skips]
    exact decrypts

/-- A message that has been delivered is not decrypted again. -/
theorem replay (at_ : inbox.sent[i]? = some m) (from_ : m.sender = inbox.peer) (old : i ∈ delivered) (fresh : Bytes) :
    ∃ e, (ratchetDecrypt P s m.header m.ciphertext m.associatedData fresh).1 = .error e := by
  have sealed := located.sealed i m at_ from_
  obtain ⟨passed, taken⟩ := keeps.done i m at_ from_ old
  have filled : inbox.turnOf i ≠ [] := by
    intro empty
    have := sealed.long
    simp [empty] at this
  simp only [ratchetDecrypt, taken]
  by_cases current : inbox.turnOf i = path.tail
  · have remote : s.dhrPublic = some m.header.dhPublic := by
      rw [sealed.dhPublic]
      exact (stands.remote_iff located sealed.suffix filled).2 current
    have long := sealed.long
    rw [current] at long
    cases stands with
    | opened => simp at long
    | turned a b rest _ _ _ known _ _ receiving =>
      obtain _ | ⟨c, rest⟩ := rest
      · simp at long
      rw [current, reach, if_pos (by simp)] at passed
      have behind : m.header.n - s.nr = 0 := by omega
      rw [if_pos remote]
      simp only [Attempt.andThen, skipMessageKeys_ok receiving known (show m.header.n ≤ s.nr + MAX_SKIP by omega), behind,
        receiveNext, Function.iterate_zero, id]
      refine ⟨_, decryptWith_other ideal sealed ?_ _⟩
      rw [current]
      exact messageKey_ne ideal long (by omega)
  · -- the chain of an older turn is derived anew from the present root key
    have remote : s.dhrPublic ≠ some m.header.dhPublic := by
      rw [sealed.dhPublic, Ne, stands.remote_iff located sealed.suffix filled]
      exact current
    rw [if_neg remote]
    obtain ⟨a, rest, turn⟩ := exists_cons_of_ne_nil filled
    have started : rest ≠ [] := by
      rintro rfl
      have := sealed.long
      simp [turn] at this
    have earlier : rest <:+ path ∧ rest ≠ path := by
      obtain suffix | ⟨k, rfl, whole⟩ := located.turn_of at_ from_
      · rw [turn] at suffix
        refine ⟨((suffix_cons a rest).trans suffix).trans (tail_suffix path), ?_⟩
        rintro rfl
        have short := suffix.length_le
        rw [length_tail, length_cons] at short
        omega
      · rw [whole, length_cons, reach, if_neg (by omega), if_neg (by omega)] at passed
        omega
    have wrong : (P.kdfChain (P.next^[m.header.n] (P.kdfRoot s.rootKey (P.dh s.dhsSecret m.header.dhPublic)).chainKey)).messageKey ≠
        messageKey P shared m.header.n (inbox.turnOf i) := by
      rw [stands.root, turn]
      exact messageKey_ne_of_later ideal started earlier.1 earlier.2
    cases skips : skipMessageKeys P s m.header.pn with
    | mk outcome s1 =>
      cases outcome with
      | error e => exact ⟨e, rfl⟩
      | ok =>
        obtain ⟨root, secret⟩ := skipMessageKeys_keeps skips
        have chain : (dhRatchet P s1 m.header fresh).receivingChainKey =
            some (P.kdfRoot s.rootKey (P.dh s.dhsSecret m.header.dhPublic)).chainKey := by
          simp [dhRatchet, root, secret]
        by_cases few : m.header.n ≤ 0 + MAX_SKIP
        · simp only [Attempt.andThen, skipMessageKeys_ok chain rfl few, receiveNext]
          exact ⟨_, decryptWith_other ideal sealed wrong _⟩
        · have many : m.header.n > (dhRatchet P s1 m.header fresh).nr + MAX_SKIP := Nat.lt_of_not_le few
          simp only [Attempt.andThen, skipMessageKeys, chain, if_pos many]
          exact ⟨_, rfl⟩

end

end

end Vimla.E2ee
