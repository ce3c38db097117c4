import Vimla.E2ee.Conversation

/-!
# What a receiver keeps

The messages of a chain that a receiver has passed are either decrypted or have
their keys kept. Each kind of progress of a receiver preserves this: a kept key
is used, keys are skipped, the next message is decrypted, a turn is taken.
-/

namespace Vimla.E2ee

open Base64 (Bytes)
open Function OrderedMap
open List

def ownerOf (length : Nat) : Party := if length % 2 = 1 then .responder else .initiator

theorem ownerOf_succ (length : Nat) : ownerOf (length + 1) = (ownerOf length).other := by
  unfold ownerOf
  split <;> split <;> first | rfl | omega

section
variable (P : Primitives) (shared : Bytes)

def headPublic (turn : List Bytes) : Bytes := P.publicKey (turn.headD [])

/-- The message was sent in the turn, as one of those that the turn has had. -/
structure Sealed (count : Nat → Nat) (path : List Bytes) (m : Sent) (turn : List Bytes) : Prop where
  suffix : turn <:+ path
  long : 2 ≤ turn.length
  owner : ownerOf turn.length = m.sender
  dhPublic : m.header.dhPublic = headPublic P turn
  number : m.header.n < count turn.length
  previous : m.header.pn = count (turn.length - 2)
  ciphertext : m.ciphertext = P.aeadEncrypt (messageKey P shared m.header.n turn) m.plaintext
    (m.associatedData ++ encodeHeader m.header)

/-- How far a receiver has come in the chain of a turn, given the length of its
own turn. -/
def reach (count : Nat → Nat) (own nr turn : Nat) : Nat :=
  if turn + 1 = own then nr else if turn < own then count turn else 0

/-- The messages that a party receives, with their turns. -/
structure Inbox where
  sent : List Sent
  turnOf : Nat → List Bytes
  peer : Party

structure Keeps (inbox : Inbox) (count : Nat → Nat) (path : List Bytes) (nr : Nat) (skipped : OrderedMap String Bytes)
    (delivered : List Nat) : Prop where
  bound : nr ≤ count path.tail.length
  known : ∀ key v, skipped.get key = some v → ∃ turn n, turn ≠ [] ∧ turn <:+ path.tail ∧
    key = skippedKey (headPublic P turn) n ∧ n < reach count path.length nr turn.length
  done : ∀ (i : Nat) (m : Sent), inbox.sent[i]? = some m → m.sender = inbox.peer → i ∈ delivered →
    m.header.n < reach count path.length nr (inbox.turnOf i).length ∧
      skipped.get (skippedKey m.header.dhPublic m.header.n) = none
  kept : ∀ (i : Nat) (m : Sent), inbox.sent[i]? = some m → m.sender = inbox.peer → i ∉ delivered →
    m.header.n < reach count path.length nr (inbox.turnOf i).length →
      skipped.get (skippedKey m.header.dhPublic m.header.n) = some (messageKey P shared m.header.n (inbox.turnOf i))

/-- Distinct messages have distinct places. -/
def Distinct (sent : List Sent) : Prop :=
  ∀ (i j : Nat) (m o : Sent), sent[i]? = some m → sent[j]? = some o → m.header.dhPublic = o.header.dhPublic →
    m.header.n = o.header.n → i = j

/-- Where the turns of the messages lie: all turns are at the end of `full`, and
so is the receiver's own. -/
structure Located (inbox : Inbox) (count : Nat → Nat) (full path : List Bytes) : Prop where
  nodup : (full.map P.publicKey).Nodup
  own : full = path ∨ ∃ k, full = k :: path
  receiver : ownerOf path.length = inbox.peer.other
  sealed : ∀ (i : Nat) (m : Sent), inbox.sent[i]? = some m → m.sender = inbox.peer →
    Sealed P shared count full m (inbox.turnOf i)

variable {P shared}

theorem suffix_head_inj {path : List Bytes} (nd : (path.map P.publicKey).Nodup) {s t : List Bytes} (hs : s <:+ path)
    (ht : t <:+ path) (fs : s ≠ []) (ft : t ≠ []) (same : headPublic P s = headPublic P t) : s = t := by
  induction path with
  | nil => exact absurd (suffix_nil.1 hs) fs
  | cons a path ih =>
    rw [map_cons, nodup_cons] at nd
    have among : ∀ u : List Bytes, u <:+ path → u ≠ [] → headPublic P u ∈ path.map P.publicKey := by
      intro u within filled
      obtain ⟨b, rest, rfl⟩ := exists_cons_of_ne_nil filled
      exact mem_map_of_mem (within.mem mem_cons_self)
    obtain rfl | hs := suffix_cons_iff.1 hs
    · obtain rfl | ht := suffix_cons_iff.1 ht
      · rfl
      · refine absurd (among t ht ft) ?_
        rw [← same]
        exact nd.1
    · obtain rfl | ht := suffix_cons_iff.1 ht
      · refine absurd (among s hs fs) ?_
        rw [same]
        exact nd.1
      · exact ih nd.2 hs ht

theorem reach_mono {count : Nat → Nat} {own nr nr' turn : Nat} (more : nr ≤ nr') :
    reach count own nr turn ≤ reach count own nr' turn := by
  unfold reach
  split
  · exact more
  · exact le_rfl

variable {inbox : Inbox} {count : Nat → Nat} {path : List Bytes} {nr : Nat} {skipped : OrderedMap String Bytes}
  {delivered : List Nat} {i : Nat} {m : Sent}

section
variable (h : Keeps P shared inbox count path nr skipped delivered)
include h

/-- A message that is not passed has no key kept. -/
theorem Keeps.unkept {full turn : List Bytes}
    (nd : (full.map P.publicKey).Nodup) (own : path <:+ full) (within : turn <:+ full) (filled : turn ≠ []) {n : Nat}
    (ahead : reach count path.length nr turn.length ≤ n) : skipped.get (skippedKey (headPublic P turn) n) = none := by
  cases found : skipped.get (skippedKey (headPublic P turn) n) with
  | none => rfl
  | some v =>
    obtain ⟨other, k, some_, suffix, key, below⟩ := h.known _ _ found
    obtain ⟨same, rfl⟩ := skippedKey_inj.1 key
    have back := suffix_head_inj nd within ((suffix.trans (tail_suffix path)).trans own) filled some_ same
    subst back
    omega

/-- The kept key of a message is used. -/
theorem Keeps.take (distinct : Distinct inbox.sent)
    (at_ : inbox.sent[i]? = some m) (passed : m.header.n < reach count path.length nr (inbox.turnOf i).length) :
    Keeps P shared inbox count path nr (skipped.erase (skippedKey m.header.dhPublic m.header.n)) (i :: delivered) := by
  have others : ∀ j o, inbox.sent[j]? = some o → j ≠ i →
      (skipped.erase (skippedKey m.header.dhPublic m.header.n)).get (skippedKey o.header.dhPublic o.header.n) =
        skipped.get (skippedKey o.header.dhPublic o.header.n) := by
    intro j o there other
    refine get_erase_ne fun same => ?_
    obtain ⟨pub, number⟩ := skippedKey_inj.1 same
    exact other (distinct j i o m there at_ pub number)
  refine ⟨h.bound, fun key v found => ?_, fun j o there from_ mem => ?_, fun j o there from_ fresh below => ?_⟩
  · by_cases same : key = skippedKey m.header.dhPublic m.header.n
    · subst same
      simp at found
    · rw [get_erase_ne same] at found
      exact h.known key v found
  · by_cases same : j = i
    · subst same
      obtain rfl := Option.some.inj (at_.symm.trans there)
      exact ⟨passed, get_erase_self⟩
    · rw [others j o there same]
      exact h.done j o there from_ ((mem_cons.1 mem).resolve_left same)
  · rw [mem_cons, not_or] at fresh
    rw [others j o there fresh.1]
    exact h.kept j o there from_ fresh.2 below

/-- A delivery to the other party. -/
theorem Keeps.elsewhere (at_ : inbox.sent[i]? = some m)
    (own : m.sender ≠ inbox.peer) : Keeps P shared inbox count path nr skipped (i :: delivered) := by
  have another : ∀ (j : Nat) (o : Sent), inbox.sent[j]? = some o → o.sender = inbox.peer → j ≠ i := by
    rintro j o there from_ rfl
    obtain rfl := Option.some.inj (at_.symm.trans there)
    exact own from_
  refine ⟨h.bound, h.known, fun j o there from_ mem => ?_, fun j o there from_ new below => ?_⟩
  · exact h.done j o there from_ ((mem_cons.1 mem).resolve_left (another j o there from_))
  · exact h.kept j o there from_ (fun mem => new (mem_cons_of_mem i mem)) below

end

variable {full : List Bytes}

section
variable (h : Located P shared inbox count full path)
include h

theorem Located.path_suffix : path <:+ full := by
  obtain rfl | ⟨k, rfl⟩ := h.own
  · exact suffix_rfl
  · exact suffix_cons k path

/-- A message for the receiver belongs to a turn before its own one, or to the
turn that follows it. -/
theorem Located.turn_of (at_ : inbox.sent[i]? = some m)
    (from_ : m.sender = inbox.peer) :
    inbox.turnOf i <:+ path.tail ∨ ∃ k, full = k :: path ∧ inbox.turnOf i = full := by
  have sealed := h.sealed i m at_ from_
  have other : inbox.turnOf i ≠ path := by
    intro same
    have owner := sealed.owner
    rw [same, h.receiver, from_] at owner
    exact Party.other_ne _ owner
  have before : inbox.turnOf i <:+ path → inbox.turnOf i <:+ path.tail := by
    intro suffix
    cases path with
    | nil => exact suffix
    | cons a path => exact (suffix_cons_iff.1 suffix).resolve_left other
  obtain rfl | ⟨k, rfl⟩ := h.own
  · exact .inl (before sealed.suffix)
  · obtain whole | suffix := suffix_cons_iff.1 sealed.suffix
    · exact .inr ⟨k, rfl, whole⟩
    · exact .inl (before suffix)

theorem Located.same_turn (at_ : inbox.sent[i]? = some m)
    (from_ : m.sender = inbox.peer) (length : (inbox.turnOf i).length + 1 = path.length) :
    inbox.turnOf i = path.tail := by
  obtain suffix | ⟨k, rfl, whole⟩ := h.turn_of at_ from_
  · refine suffix.eq_of_length ?_
    rw [length_tail]
    omega
  · rw [whole, length_cons] at length
    omega

end

section
variable (h : Keeps P shared inbox count path nr skipped delivered)
include h

/-- The keys of the current chain are kept up to a limit. -/
theorem Keeps.gather (located : Located P shared inbox count full path) {b c : Bytes} {rest : List Bytes}
    (turn : path.tail = b :: c :: rest) {limit : Nat} (few : limit ≤ count path.tail.length) :
    Keeps P shared inbox count path (nr + (limit - nr))
      (gather P (P.publicKey b) (limit - nr) (chainKey P shared nr path.tail) nr skipped) delivered := by
  have head : headPublic P path.tail = P.publicKey b := by rw [turn]; rfl
  have length : path.tail.length + 1 = path.length := by
    rw [length_tail]
    have := congrArg length turn
    simp only [length_tail, length_cons] at this
    omega
  have elsewhere : ∀ (j : Nat) (o : Sent), inbox.sent[j]? = some o → o.sender = inbox.peer →
      (inbox.turnOf j).length + 1 ≠ path.length → ∀ k, skippedKey o.header.dhPublic o.header.n ≠
        skippedKey (P.publicKey b) k := by
    intro j o there from_ other k same
    have sealed := located.sealed j o there from_
    obtain ⟨pub, _⟩ := skippedKey_inj.1 same
    rw [sealed.dhPublic, ← head] at pub
    have back := suffix_head_inj located.nodup sealed.suffix ((tail_suffix path).trans located.path_suffix)
      (by have := sealed.long; intro empty; simp [empty] at this) (by simp [turn]) pub
    rw [back] at other
    exact other length
  have bound := h.bound
  refine ⟨by omega, fun key v found => ?_, fun j o there from_ mem => ?_, fun j o there from_ fresh below => ?_⟩
  · by_cases new : ∃ k, nr ≤ k ∧ k < nr + (limit - nr) ∧ key = skippedKey (P.publicKey b) k
    · obtain ⟨k, _, high, rfl⟩ := new
      refine ⟨path.tail, k, by simp [turn], suffix_rfl, by rw [head], ?_⟩
      rw [reach, if_pos length]
      exact high
    · rw [gather_get_other _ fun k low high same => new ⟨k, low, high, same⟩] at found
      obtain ⟨turn, n, filled, suffix, key, below⟩ := h.known key v found
      exact ⟨turn, n, filled, suffix, key, below.trans_le (reach_mono (by omega))⟩
  · obtain ⟨below, none⟩ := h.done j o there from_ mem
    refine ⟨below.trans_le (reach_mono (by omega)), ?_⟩
    rw [gather_get_other, none]
    intro k low _ same
    by_cases here : (inbox.turnOf j).length + 1 = path.length
    · have number := (skippedKey_inj.1 same).2
      rw [reach, if_pos here] at below
      omega
    · exact elsewhere j o there from_ here k same
  · by_cases here : (inbox.turnOf j).length + 1 = path.length
    · have place := located.same_turn there from_ here
      have pub : o.header.dhPublic = P.publicKey b := by
        rw [(located.sealed j o there from_).dhPublic, place, head]
      rw [reach, if_pos here] at below
      by_cases old : o.header.n < nr
      · rw [gather_get_other]
        · exact h.kept j o there from_ fresh (by rwa [reach, if_pos here])
        · intro k low _ same
          have number := (skippedKey_inj.1 same).2
          omega
      · obtain ⟨k, number⟩ := Nat.exists_eq_add_of_le (Nat.le_of_not_lt old)
        rw [pub, number, gather_get _ (by omega), place, turn, iterate_chainKey]
        rfl
    · rw [gather_get_other _ fun k _ _ => elsewhere j o there from_ here k]
      refine h.kept j o there from_ fresh ?_
      rw [reach, if_neg here] at below ⊢
      exact below

/-- The next message of the current chain is decrypted. -/
theorem Keeps.pass (distinct : Distinct inbox.sent)
    (located : Located P shared inbox count full path) (at_ : inbox.sent[i]? = some m) (from_ : m.sender = inbox.peer)
    (here : (inbox.turnOf i).length + 1 = path.length) (number : m.header.n = nr) :
    Keeps P shared inbox count path (nr + 1) skipped (i :: delivered) := by
  have sealed := located.sealed i m at_ from_
  have place := located.same_turn at_ from_ here
  refine ⟨?_, fun key v found => ?_, fun j o there froms mem => ?_, fun j o there froms fresh below => ?_⟩
  · have := sealed.number
    rw [place] at this
    omega
  · obtain ⟨turn, n, filled, suffix, key, below⟩ := h.known key v found
    exact ⟨turn, n, filled, suffix, key, below.trans_le (reach_mono (by omega))⟩
  · obtain rfl | mem := mem_cons.1 mem
    · obtain rfl := Option.some.inj (at_.symm.trans there)
      refine ⟨by rw [reach, if_pos here]; omega, ?_⟩
      rw [sealed.dhPublic]
      refine h.unkept located.nodup located.path_suffix sealed.suffix ?_ ?_
      · have := sealed.long
        intro empty
        simp [empty] at this
      · rw [reach, if_pos here, number]
    · obtain ⟨below, none⟩ := h.done j o there froms mem
      exact ⟨below.trans_le (reach_mono (by omega)), none⟩
  · rw [mem_cons, not_or] at fresh
    refine h.kept j o there froms fresh.2 ?_
    by_cases same : (inbox.turnOf j).length + 1 = path.length
    · rw [reach, if_pos same] at below ⊢
      have other : o.header.n ≠ nr := by
        intro equal
        refine fresh.1 (distinct j i o m there at_ ?_ (by omega))
        rw [(located.sealed j o there froms).dhPublic, sealed.dhPublic, located.same_turn there froms same, place]
      omega
    · rw [reach, if_neg same] at below ⊢
      exact below

/-- A turn is taken once the chain before it is passed. -/
theorem Keeps.turn {k fresh : Bytes}
    (located : Located P shared inbox count (k :: path) path) (passed : 2 ≤ path.tail.length → nr = count path.tail.length) :
    Keeps P shared inbox count (fresh :: k :: path) 0 skipped delivered := by
  have bound := h.bound
  have length := length_tail (l := path)
  have further : ∀ n t, n < reach count path.length nr t → n < reach count (path.length + 2) 0 t := by
    intro n t below
    unfold reach at below ⊢
    split at below
    · rename_i last
      have same : t = path.tail.length := by omega
      rw [if_neg (by omega), if_pos (by omega), same]
      omega
    split at below
    · rw [if_neg (by omega), if_pos (by omega)]
      exact below
    · omega
  refine ⟨Nat.zero_le _, fun key v found => ?_, fun j o there from_ mem => ?_, fun j o there from_ new below => ?_⟩
  · obtain ⟨turn, n, filled, suffix, key, below⟩ := h.known key v found
    refine ⟨turn, n, filled, (suffix.trans (tail_suffix path)).trans (suffix_cons k path), key, ?_⟩
    exact further n turn.length below
  · obtain ⟨below, none⟩ := h.done j o there from_ mem
    exact ⟨further _ _ below, none⟩
  · refine h.kept j o there from_ new ?_
    have long := (located.sealed j o there from_).long
    simp only [reach, length_cons] at below
    obtain suffix | ⟨_, whole, turn⟩ := located.turn_of there from_
    · have short := suffix.length_le
      rw [if_neg (by omega), if_pos (by omega)] at below
      unfold reach
      split
      · rename_i last
        rw [passed (by omega), show path.tail.length = (inbox.turnOf j).length by omega]
        exact below
      · rw [if_pos (by omega)]
        exact below
    · rw [turn, length_cons, if_pos rfl] at below
      omega

end

theorem reach_update {own length t : Nat} (near : own ≤ length + 1) :
    reach (update count length (count length + 1)) own nr t = reach count own nr t := by
  unfold reach
  split
  · rfl
  split
  · rw [update_of_ne (by omega)]
  · rfl

omit count in
theorem snoc_getElem? {sent : List Sent} {j : Nat} {o : Sent} (there : (sent ++ [m])[j]? = some o) :
    j < sent.length ∧ sent[j]? = some o ∨ j = sent.length ∧ o = m := by
  by_cases before : j < sent.length
  · rw [List.getElem?_append_left before] at there
    exact .inl ⟨before, there⟩
  · rw [List.getElem?_append_right (by omega)] at there
    obtain ⟨at_, rfl⟩ := List.getElem?_eq_some_iff.1 there
    simp only [length_singleton] at at_
    exact .inr ⟨by omega, by simp⟩

/-- A message is sent on, in a turn that the receiver is at or has not come to. -/
theorem Keeps.sent (h : Keeps P shared inbox count path nr skipped delivered) (turn : List Bytes)
    (near : path.length ≤ turn.length + 1) (next : m.header.n = count turn.length)
    (past : ∀ i ∈ delivered, i < inbox.sent.length) :
    Keeps P shared ⟨inbox.sent ++ [m], update inbox.turnOf inbox.sent.length turn, inbox.peer⟩
      (update count turn.length (count turn.length + 1)) path nr skipped delivered := by
  have old : ∀ (j : Nat) (o : Sent), (inbox.sent ++ [m])[j]? = some o →
      (inbox.sent[j]? = some o ∧ update inbox.turnOf inbox.sent.length turn j = inbox.turnOf j) ∨
        (j = inbox.sent.length ∧ o = m ∧ update inbox.turnOf inbox.sent.length turn j = turn) := by
    intro j o there
    obtain ⟨before, there⟩ | ⟨rfl, rfl⟩ := snoc_getElem? there
    · exact .inl ⟨there, update_of_ne (by omega) _ _⟩
    · exact .inr ⟨rfl, rfl, update_self ..⟩
  refine ⟨?_, fun key v found => ?_, fun j o there from_ mem => ?_, fun j o there from_ new below => ?_⟩
  · refine h.bound.trans ?_
    by_cases same : path.tail.length = turn.length
    · rw [same, update_self]
      omega
    · rw [update_of_ne same]
  · simp only [reach_update near]
    exact h.known key v found
  · dsimp only
    rw [reach_update near]
    obtain ⟨there, place⟩ | ⟨rfl, _, _⟩ := old j o there
    · rw [place]
      exact h.done j o there from_ mem
    · exact absurd (past _ mem) (Nat.lt_irrefl _)
  · dsimp only at below ⊢
    rw [reach_update near] at below
    obtain ⟨there, place⟩ | ⟨rfl, rfl, place⟩ := old j o there
    · rw [place] at below ⊢
      exact h.kept j o there from_ new below
    · rw [place, next] at below
      have bound := h.bound
      rw [length_tail] at bound
      unfold reach at below
      split at below
      · rename_i last
        rw [show path.length - 1 = turn.length by omega] at bound
        omega
      split at below
      · omega
      · omega

end

end Vimla.E2ee
