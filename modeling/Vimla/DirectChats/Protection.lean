import Vimla.DirectChats.PendingSends
import Vimla.Lib.Checks

/-!
# Rows that can be read

A row can be read when its version says how its secret fields are kept. What it
means has the same public fields, and secret fields that open to it one by one.
-/

namespace Vimla.DirectChats

open List

/-- Version 1 with every secret field protected under its own data, or version 0 with none. -/
def Homogeneous (P : LocalProtection) (row : StoredPendingSend) : Prop :=
  (row.protectionVersion = some LOCAL_PROTECTION_VERSION ∧
    ∀ secret ∈ row.secrets, (P.unprotectLocalString secret.1 secret.2).isSome) ∨
  (row.protectionVersion = some LEGACY_LOCAL_PROTECTION_VERSION ∧
    ∀ secret ∈ row.secrets, P.isProtectedLocalString secret.1 = false)

/-- What the code relies on: a seal opens, and is seen to be one. -/
structure Seals (P : LocalProtection) : Prop where
  opens : ∀ iv plaintext aad, P.unprotectLocalString (P.protectLocalString iv plaintext aad) aad = some plaintext
  marked : ∀ iv plaintext aad, P.isProtectedLocalString (P.protectLocalString iv plaintext aad) = true

section
variable (opening : String → String → Option String)

structure OutputOpens (id : String) (o p : StoredOperatorOutput) : Prop where
  plaintext : opening o.plaintext (pendingAad id ("operator-output:" ++ o.id)) = some p.plaintext
  same : p = { o with plaintext := p.plaintext }

structure MessageOpens (id : String) (m n : OperatorContextMessage) : Prop where
  text : opening m.text (pendingAad id ("context:" ++ m.messageId)) = some n.text
  same : n = { m with text := n.text }

structure DeliveryOpens (id : String) (d e : StoredOperatorDelivery) : Prop where
  outputs : Forall₂ (OutputOpens opening id) d.outputs e.outputs
  same : e = { d with outputs := e.outputs }

structure IntentOpens (id : String) (i j : StoredOperatorIntent) : Prop where
  content : opening i.content (pendingAad id "operator-content") = some j.content
  messages : Forall₂ (MessageOpens opening id) i.contextMessages j.contextMessages
  delivery : Option.Rel (DeliveryOpens opening id) i.delivery j.delivery
  same : j.clientRequestId = i.clientRequestId

structure RowOpens (r w : StoredPendingSend) : Prop where
  plaintext : opening r.plaintext (pendingAad r.clientMessageId "message-plaintext") = some w.plaintext
  intent : Option.Rel (IntentOpens opening r.clientMessageId) r.operatorIntent w.operatorIntent
  same : w = { r with protectionVersion := none, plaintext := w.plaintext, operatorIntent := w.operatorIntent }

end

section
variable {opening : String → String → Option String} {id : String}

theorem unprotectOutput_eq_some {o p : StoredOperatorOutput} :
    unprotectOutput opening id o = some p ↔ OutputOpens opening id o p := by
  rw [unprotectOutput, Option.map_eq_some_iff]
  constructor
  · rintro ⟨plaintext, opened, rfl⟩
    exact ⟨opened, rfl⟩
  · rintro ⟨opened, same⟩
    exact ⟨_, opened, same.symm⟩

theorem unprotectDelivery_eq_some {d e : StoredOperatorDelivery} :
    unprotectDelivery opening id d = some e ↔ DeliveryOpens opening id d e := by
  simp only [unprotectDelivery, Option.map_eq_some_iff, Checks.mapM_eq_some, unprotectOutput_eq_some]
  constructor
  · rintro ⟨outputs, opened, rfl⟩
    exact ⟨opened, rfl⟩
  · rintro ⟨opened, same⟩
    exact ⟨_, opened, same.symm⟩

theorem optionally_eq_some {α : Type} {f : α → Option α} {R : α → α → Prop} (h : ∀ a b, f a = some b ↔ R a b)
    {a b : Option α} : optionally f a = some b ↔ Option.Rel R a b := by
  cases a with
  | none =>
    cases b with
    | none => exact iff_of_true rfl .none
    | some b => exact iff_of_false (by simp [optionally]) (by rintro ⟨⟩)
  | some a =>
    cases b with
    | none => exact iff_of_false (by simp [optionally]) (by rintro ⟨⟩)
    | some b =>
      simp only [optionally, Option.map_eq_some_iff, Option.some.injEq, exists_eq_right, h]
      exact ⟨.some, by rintro ⟨⟩; assumption⟩

theorem unprotectOperatorIntent_eq_some {i j : StoredOperatorIntent} :
    unprotectOperatorIntent opening id i = some j ↔ IntentOpens opening id i j := by
  have message : ∀ m n : OperatorContextMessage,
      ((opening m.text (pendingAad id ("context:" ++ m.messageId))).map fun text => { m with text }) = some n ↔
        MessageOpens opening id m n := by
    intro m n
    rw [Option.map_eq_some_iff]
    constructor
    · rintro ⟨text, opened, rfl⟩
      exact ⟨opened, rfl⟩
    · rintro ⟨opened, same⟩
      exact ⟨_, opened, same.symm⟩
  simp only [unprotectOperatorIntent, Option.bind_eq_bind, Option.bind_eq_some_iff, Checks.mapM_eq_some, message,
    optionally_eq_some fun _ _ => unprotectDelivery_eq_some, Option.pure_def, Option.some.injEq]
  constructor
  · rintro ⟨messages, opened, delivery, staged, content, own, rfl⟩
    exact ⟨own, opened, staged, rfl⟩
  · rintro ⟨own, opened, staged, same⟩
    exact ⟨_, opened, _, staged, _, own, by rw [← same]⟩

theorem openPendingSend_eq_some {r w : StoredPendingSend} : openPendingSend opening r = some w ↔ RowOpens opening r w := by
  simp only [openPendingSend, Option.bind_eq_bind, Option.bind_eq_some_iff,
    optionally_eq_some fun _ _ => unprotectOperatorIntent_eq_some, Option.pure_def, Option.some.injEq]
  constructor
  · rintro ⟨plaintext, opened, intent, own, rfl⟩
    exact ⟨opened, own, rfl⟩
  · rintro ⟨opened, own, same⟩
    exact ⟨_, opened, _, own, same.symm⟩

end

section
variable {opening : String → String → Option String} {id : String}

theorem exists_forall₂ {α β : Type} {R : α → β → Prop} {l : List α} :
    (∃ l', Forall₂ R l l') ↔ ∀ a ∈ l, ∃ b, R a b := by
  induction l with
  | nil => exact iff_of_true ⟨[], .nil⟩ (by simp)
  | cons a l ih =>
    rw [forall_mem_cons, ← ih]
    constructor
    · rintro ⟨_, _ | ⟨related, rest⟩⟩
      exact ⟨⟨_, related⟩, _, rest⟩
    · rintro ⟨⟨b, related⟩, l', rest⟩
      exact ⟨b :: l', .cons related rest⟩

theorem outputs_openable {outputs : List StoredOperatorOutput} :
    (∃ l, Forall₂ (OutputOpens opening id) outputs l) ↔
      ∀ o ∈ outputs, (opening o.plaintext (pendingAad id ("operator-output:" ++ o.id))).isSome := by
  rw [exists_forall₂]
  refine forall₂_congr fun o _ => ?_
  rw [Option.isSome_iff_exists]
  constructor
  · rintro ⟨p, h⟩
    exact ⟨_, h.plaintext⟩
  · rintro ⟨plaintext, opened⟩
    exact ⟨{ o with plaintext }, opened, rfl⟩

theorem messages_openable {messages : List OperatorContextMessage} :
    (∃ l, Forall₂ (MessageOpens opening id) messages l) ↔
      ∀ m ∈ messages, (opening m.text (pendingAad id ("context:" ++ m.messageId))).isSome := by
  rw [exists_forall₂]
  refine forall₂_congr fun m _ => ?_
  rw [Option.isSome_iff_exists]
  constructor
  · rintro ⟨n, h⟩
    exact ⟨_, h.text⟩
  · rintro ⟨text, opened⟩
    exact ⟨{ m with text }, opened, rfl⟩

theorem delivery_openable {delivery : Option StoredOperatorDelivery} :
    (∃ d, Option.Rel (DeliveryOpens opening id) delivery d) ↔
      ∃ l, Forall₂ (OutputOpens opening id) ((delivery.map (·.outputs)).getD []) l := by
  cases delivery with
  | none => exact iff_of_true ⟨none, .none⟩ ⟨[], .nil⟩
  | some d =>
    constructor
    · rintro ⟨_, h | _⟩
      exact ⟨_, h.outputs⟩
    · rintro ⟨outputs, opened⟩
      exact ⟨some { d with outputs }, .some ⟨opened, rfl⟩⟩

theorem intent_openable {i : StoredOperatorIntent} :
    (∃ j, IntentOpens opening id i j) ↔ ∀ secret ∈ i.secrets id, (opening secret.1 secret.2).isSome := by
  rw [StoredOperatorIntent.secrets, cons_append, forall_mem_cons, forall_mem_append]
  simp only [forall_mem_map, ← messages_openable, ← outputs_openable, ← delivery_openable]
  constructor
  · rintro ⟨j, h⟩
    exact ⟨by simp [h.content], ⟨_, h.messages⟩, _, h.delivery⟩
  · rintro ⟨own, ⟨contextMessages, messages⟩, delivery, staged⟩
    obtain ⟨content, own⟩ := Option.isSome_iff_exists.1 own
    exact ⟨{ i with content, contextMessages, delivery }, own, messages, staged, rfl⟩

theorem row_openable (opening : String → String → Option String) (r : StoredPendingSend) :
    (∃ w, RowOpens opening r w) ↔ ∀ secret ∈ r.secrets, (opening secret.1 secret.2).isSome := by
  have intents : (∃ i, Option.Rel (IntentOpens opening r.clientMessageId) r.operatorIntent i) ↔
      ∀ secret ∈ (r.operatorIntent.map (·.secrets r.clientMessageId)).getD [], (opening secret.1 secret.2).isSome := by
    cases r.operatorIntent with
    | none => exact iff_of_true ⟨none, .none⟩ (by simp)
    | some i =>
      rw [Option.map_some, Option.getD_some, ← intent_openable]
      constructor
      · rintro ⟨_, h | _⟩
        exact ⟨_, h⟩
      · rintro ⟨j, h⟩
        exact ⟨some j, .some h⟩
  rw [StoredPendingSend.secrets, forall_mem_cons, ← intents]
  constructor
  · rintro ⟨w, h⟩
    exact ⟨by simp [h.plaintext], _, h.intent⟩
  · rintro ⟨own, intent, opened⟩
    obtain ⟨plaintext, own⟩ := Option.isSome_iff_exists.1 own
    exact ⟨{ r with protectionVersion := none, plaintext, operatorIntent := intent }, own, opened, rfl⟩

end

section
variable {P : LocalProtection}

/-- How the secret fields of a version are read. -/
def LocalProtection.opening (P : LocalProtection) (version : Nat) : String → String → Option String :=
  if version = LEGACY_LOCAL_PROTECTION_VERSION then fun value _ => if P.isProtectedLocalString value then none else some value
  else P.unprotectLocalString

variable {r : StoredPendingSend} {w : StoredPendingSend}

theorem raw_opens (h : RowOpens (P.opening LEGACY_LOCAL_PROTECTION_VERSION) r w) :
    w = { r with protectionVersion := none } := by
  have raw : ∀ {value aad text}, P.opening LEGACY_LOCAL_PROTECTION_VERSION value aad = some text → text = value := by
    intro value aad text opened
    simp only [LocalProtection.opening, if_pos, Option.ite_none_left_eq_some, Option.some.injEq] at opened
    exact opened.2.symm
  have message : ∀ {l l' : List OperatorContextMessage} {id},
      Forall₂ (MessageOpens (P.opening LEGACY_LOCAL_PROTECTION_VERSION) id) l l' → l' = l := by
    intro l l' id all
    induction all with
    | nil => rfl
    | cons opens _ ih => rw [ih, opens.same, raw opens.text]
  have output : ∀ {l l' : List StoredOperatorOutput} {id},
      Forall₂ (OutputOpens (P.opening LEGACY_LOCAL_PROTECTION_VERSION) id) l l' → l' = l := by
    intro l l' id all
    induction all with
    | nil => rfl
    | cons opens _ ih => rw [ih, opens.same, raw opens.plaintext]
  have delivery : ∀ {d e : Option StoredOperatorDelivery} {id},
      Option.Rel (DeliveryOpens (P.opening LEGACY_LOCAL_PROTECTION_VERSION) id) d e → e = d := by
    rintro d e id (opens | _)
    · rw [opens.same, output opens.outputs]
    · rfl
  have intent : ∀ {i j : Option StoredOperatorIntent} {id},
      Option.Rel (IntentOpens (P.opening LEGACY_LOCAL_PROTECTION_VERSION) id) i j → j = i := by
    rintro i j id (opens | _)
    next i j =>
      obtain ⟨content, messages, staged, same⟩ := opens
      cases j
      simp only at content messages staged same
      rw [raw content, message messages, delivery staged, same]
    · rfl
  rw [h.same, raw h.plaintext, intent h.intent]

/-- What a row means. -/
def Means (P : LocalProtection) (r w : StoredPendingSend) : Prop :=
  ∃ version, localProtectionVersion r = some version ∧ RowOpens (P.opening version) r w

theorem raw_openable :
    (∃ w, RowOpens (P.opening LEGACY_LOCAL_PROTECTION_VERSION) r w) ↔ assertLegacyPendingSendIsRaw P r = true := by
  rw [row_openable]
  simp [LocalProtection.opening, assertLegacyPendingSendIsRaw]

theorem unprotectPendingSend_eq_some : unprotectPendingSend P r = some w ↔ Means P r w := by
  unfold unprotectPendingSend Means
  cases localProtectionVersion r with
  | none => simp
  | some version =>
    simp only [Option.some.injEq, exists_eq_left']
    by_cases legacy : version = LEGACY_LOCAL_PROTECTION_VERSION
    · subst legacy
      rw [if_pos rfl, Option.ite_none_right_eq_some, ← raw_openable, Option.some.injEq]
      constructor
      · rintro ⟨⟨w', opens⟩, rfl⟩
        rwa [← raw_opens opens]
      · intro opens
        exact ⟨⟨w, opens⟩, (raw_opens opens).symm⟩
    · rw [if_neg legacy, openPendingSend_eq_some, LocalProtection.opening, if_neg legacy]

theorem homogeneous_iff : Homogeneous P r ↔ ∃ w, Means P r w := by
  have version : ∀ v, localProtectionVersion r = some v ↔
      r.protectionVersion = some v ∧ (v = LEGACY_LOCAL_PROTECTION_VERSION ∨ v = LOCAL_PROTECTION_VERSION) := by
    simp [localProtectionVersion]
  simp only [Means, version]
  constructor
  · rintro (⟨marked, opens⟩ | ⟨marked, raw⟩)
    · obtain ⟨w, h⟩ := (row_openable (P.opening LOCAL_PROTECTION_VERSION) r).2 opens
      exact ⟨w, _, ⟨marked, .inr rfl⟩, h⟩
    · obtain ⟨w, h⟩ := (raw_openable (P := P) (r := r)).2 (by simpa [assertLegacyPendingSendIsRaw] using raw)
      exact ⟨w, _, ⟨marked, .inl rfl⟩, h⟩
  · rintro ⟨w, v, ⟨marked, rfl | rfl⟩, h⟩
    · exact .inr ⟨marked, by simpa [assertLegacyPendingSendIsRaw] using raw_openable.1 ⟨w, h⟩⟩
    · exact .inl ⟨marked, (row_openable _ _).1 ⟨w, h⟩⟩

end

end Vimla.DirectChats
