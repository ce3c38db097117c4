import Vimla.E2ee.Skipping
import Vimla.Lib.Runs

/-!
# A conversation

Two parties encrypt, and their messages are delivered in any order, lost, or
delivered again. A party that fails to decrypt keeps the state it had.
-/

namespace Vimla.E2ee

open Base64 (Bytes)
open Function

inductive Party | initiator | responder
  deriving DecidableEq

def Party.other : Party → Party
  | initiator => responder
  | responder => initiator

@[simp] theorem Party.other_other (p : Party) : p.other.other = p := by cases p <;> rfl

theorem Party.eq_other {p o : Party} (differ : p ≠ o) : p = o.other := by
  cases p <;> cases o <;> first | rfl | exact absurd rfl differ

theorem Party.other_ne (p : Party) : p.other ≠ p := by cases p <;> decide

structure Sent where
  sender : Party
  header : RatchetHeader
  ciphertext : Bytes
  associatedData : Bytes
  plaintext : Bytes

structure World where
  state : Party → RatchetState
  /-- The public keys of all pairs that have been generated. -/
  generated : List Bytes
  sent : List Sent
  /-- The messages that have been decrypted, by their place in `sent`. -/
  delivered : List Nat

/-- `fresh` is the secret that is generated, if the call comes to it. -/
inductive Event
  | encrypt (p : Party) (plaintext associatedData : Bytes)
  | deliver (i : Nat) (fresh : Bytes)
  /-- An envelope that the other party need not have sent. -/
  | attempt (p : Party) (header : RatchetHeader) (ciphertext associatedData fresh : Bytes)
  | reload (p : Party)

section
variable (P : Primitives)

def World.start (shared signed first : Bytes) : World where
  state
    | .initiator => initRatchetInitiator P shared (P.publicKey signed) first
    | .responder => initRatchetResponder shared (P.keyPair signed)
  generated := [P.publicKey first, P.publicKey signed]
  sent := []
  delivered := []

def Sent.decrypt (m : Sent) (w : World) (fresh : Bytes) : Attempt Bytes :=
  ratchetDecrypt P (w.state m.sender.other) m.header m.ciphertext m.associatedData fresh

def World.step (w : World) : Event → World
  | .encrypt p plaintext ad =>
    match ratchetEncrypt P (w.state p) plaintext ad with
    | (.error _, _) => w
    | (.ok (header, ciphertext), s) =>
      { w with state := update w.state p s, sent := w.sent ++ [⟨p, header, ciphertext, ad, plaintext⟩] }
  | .deliver i fresh =>
    match w.sent[i]? with
    | none => w
    | some m =>
      match m.decrypt P w fresh with
      | (.error _, _) => { w with generated := P.publicKey fresh :: w.generated }
      | (.ok _, s) =>
        { w with
          state := update w.state m.sender.other s, generated := P.publicKey fresh :: w.generated,
          delivered := i :: w.delivered }
  | .attempt p header ciphertext ad fresh =>
    match ratchetDecrypt P (w.state p) header ciphertext ad fresh with
    | (.error _, _) => { w with generated := P.publicKey fresh :: w.generated }
    | (.ok _, s) =>
      { w with state := update w.state p s, generated := P.publicKey fresh :: w.generated }
  | .reload p =>
    match deserializeRatchet (serializeRatchet (w.state p)) with
    | none => w
    | some s => { w with state := update w.state p s }

/-- No more than `MAX_SKIP` keys are skipped, in the old chain and in the new one. -/
def WithinSkip (s : RatchetState) (header : RatchetHeader) : Prop :=
  if s.dhrPublic = some header.dhPublic then header.n ≤ s.nr + MAX_SKIP
  else (s.receivingChainKey ≠ none → header.pn ≤ s.nr + MAX_SKIP) ∧ header.n ≤ MAX_SKIP

/-- Generated keys are new, a first delivery skips no more keys than it may, and
an envelope that was not sent is not authentic. -/
def Admitted (w : World) : Event → Prop
  | .deliver i fresh =>
    P.publicKey fresh ∉ w.generated ∧
      ∀ m ∈ w.sent[i]?, i ∉ w.delivered →
        (w.state m.sender.other).skipped.get (skippedKey m.header.dhPublic m.header.n) = none →
          WithinSkip (w.state m.sender.other) m.header
  | .attempt p header ciphertext ad fresh =>
    P.publicKey fresh ∉ w.generated ∧ (ratchetDecrypt P (w.state p) header ciphertext ad fresh).1.isOk = false
  | .encrypt .. | .reload _ => True

instance (s : RatchetState) (header : RatchetHeader) : Decidable (WithinSkip s header) := by
  unfold WithinSkip
  infer_instance

instance (w : World) (ev : Event) : Decidable (Admitted P w ev) := by
  cases ev <;> unfold Admitted <;> infer_instance

/-- A message is decrypted once, to what was encrypted, and not again; a state is
read back as it was stored. -/
def Delivers (w : World) : Event → Prop
  | .deliver i fresh => ∀ m, w.sent[i]? = some m →
    (i ∉ w.delivered → (m.decrypt P w fresh).1 = .ok m.plaintext) ∧
    (i ∈ w.delivered → ∃ e, (m.decrypt P w fresh).1 = .error e)
  | .reload p => deserializeRatchet (serializeRatchet (w.state p)) = some (w.state p)
  | _ => True

end

end Vimla.E2ee
