import Vimla.Operator.Changes

/-!
# What the tables record

In every run, whatever its calls do: the executed steps are those whose effect
committed, each with its audit row, and a step that was confirmed was confirmed
with the latest token.
-/

namespace Vimla.Operator

open Js (Json)
open List Tables Function

variable {op : OperatorRuntime}

def Fact.performedStep : Fact → Option Nat
  | performed stepId _ _ => some stepId
  | issued _ _ | accepted _ _ _ | began | canceled => none

def Fact.issue : Fact → Option (String × Nat)
  | issued token expiresAt => some (token, expiresAt)
  | performed _ _ _ | accepted _ _ _ | began | canceled => none

def performedIds (history : List Fact) : List Nat := history.filterMap Fact.performedStep

def okIds (audit : List AuditEvent) : List Nat := audit.filterMap AuditEvent.okStep

/-- The latest token, with its expiry. -/
def lastIssued (history : List Fact) : Option (String × Nat) := (history.filterMap Fact.issue).getLast?

/-- A confirmation of the step committed, with the token that was the latest then and not after its expiry. -/
def Accepted (history : List Fact) (stepId : Nat) : Prop :=
  ∃ before after token expiresAt now stepIds, history = before ++ .accepted token now stepIds :: after ∧
    lastIssued before = some (token, expiresAt) ∧ now ≤ expiresAt ∧ stepId ∈ stepIds

variable {history : List Fact}

theorem Accepted.append {stepId : Nat} (accepted : Accepted history stepId) (more : List Fact) :
    Accepted (history ++ more) stepId := by
  obtain ⟨before, after, token, expiresAt, now, stepIds, rfl, issued, inTime, mem⟩ := accepted
  exact ⟨before, after ++ more, token, expiresAt, now, stepIds, by simp, issued, inTime, mem⟩

theorem performedIds_append (history more : List Fact) : performedIds (history ++ more) = performedIds history ++ performedIds more :=
  filterMap_append

variable {id : Nat} {T after : Tables} {chats : Chats} {point : Point}

theorem mem_performedIds :
    id ∈ performedIds history ↔ ∃ tool args, .performed id tool args ∈ history := by
  rw [performedIds, mem_filterMap]
  constructor
  · rintro ⟨fact, mem, eq⟩
    cases fact with
    | performed stepId tool args =>
      obtain rfl := Option.some.inj eq
      exact ⟨tool, args, mem⟩
    | issued | accepted | began | canceled => cases eq
  · rintro ⟨tool, args, mem⟩
    exact ⟨_, mem, rfl⟩

theorem PreparedStep.row_unexecuted (p : PreparedStep) {userText : String} : (p.row userText id).status ≠ .EXECUTED := by
  rw [row]
  split <;> simp

namespace Tables

variable {T : Tables} {userText : String} {steps : List PreparedStep}

theorem createSteps_ids : (T.createSteps userText steps).steps.map (·.id) =
    T.steps.map (·.id) ++ List.range' T.nextStepId (T.missingSteps steps).length := by
  simp only [createSteps, map_append, map_map]
  congr 1
  exact zipIdx_map_snd _ _

theorem mem_createSteps {s : RunStep} (mem : s ∈ (T.createSteps userText steps).steps) : s ∈ T.steps ∨
    ∃ p id, s = p.row userText id ∧ p ∈ T.missingSteps steps ∧ T.nextStepId ≤ id ∧
      id < T.nextStepId + (T.missingSteps steps).length := by
  obtain old | new := mem_append.1 mem
  · exact .inl old
  · obtain ⟨⟨p, id⟩, numbered, rfl⟩ := mem_map.1 new
    obtain ⟨above, below, -⟩ := mem_zipIdx numbered
    exact .inr ⟨p, id, rfl, fst_mem_of_mem_zipIdx numbered, above, below⟩

end Tables

/-- What no transaction changes in a step: all but its status, its object and its error. -/
structure SameCall (before after : RunStep) : Prop where
  id : after.id = before.id
  sequence : after.sequence = before.sequence
  toolName : after.toolName = before.toolName
  inputJson : after.inputJson = before.inputJson
  userText : after.userText = before.userText

theorem SameCall.refl (step : RunStep) : SameCall step step := ⟨rfl, rfl, rfl, rfl, rfl⟩

theorem SameCall.ite {which : Bool} {step after : RunStep} (same : SameCall step after) :
    SameCall step (if which then after else step) := by
  cases which with
  | false => exact .refl step
  | true => exact same

theorem Tables.updateSteps_rows {which : RunStep → Bool} {f : RunStep → RunStep} (same : ∀ s, SameCall s (f s)) :
    ∀ s' ∈ (T.updateSteps which f).steps, ∃ s ∈ T.steps, SameCall s s' := by
  intro s' mem
  obtain ⟨s, here, rfl⟩ := mem_map.1 mem
  exact ⟨s, here, (same s).ite⟩

variable {snapshot : Option ContextSnapshot}

/-- Once the status is final, nothing changes. -/
theorem Change.of_terminal (change : Change op chats snapshot T point after)
    (terminal : T.run.status.isTerminal = true) : after = T := by
  have ended {status : RunStatus} (opened : T.run.status = status) (running : status.isTerminal = false) : False :=
    RunStatus.ne_of_terminal terminal running opened
  cases change with
  | same => rfl
  | published _ opened | created _ _ opened | awaiting _ _ _ _ _ opened | began _ _ _ opened | rotated _ _ opened
  | accepted _ _ _ opened | continued _ _ _ opened | canceled opened | stepFailed _ _ _ _ opened | finished _ _ opened =>
    exact (ended opened rfl).elim
  | succeeded _ opened | failed _ _ opened | clarified _ _ opened =>
    obtain opened | opened := opened
    all_goals exact (ended opened rfl).elim
  | revoked opened =>
    rw [opened] at terminal
    cases terminal
  | performed _ _ _ _ performable => exact (ended performable.executing rfl).elim

/-- The tables hold of each effect exactly one executed step, as long as the step is kept, and one audit row. -/
structure EffectsRecorded (T : Tables) : Prop where
  ids : (T.steps.map (·.id)).Nodup
  idsBelow : ∀ s ∈ T.steps, s.id < T.nextStepId
  performedBelow : ∀ id ∈ performedIds T.history, id < T.nextStepId
  once : (performedIds T.history).Nodup
  audited : okIds T.audit = performedIds T.history
  executed : ∀ s ∈ T.steps, s.status = .EXECUTED ↔ s.id ∈ performedIds T.history

namespace EffectsRecorded

variable {T after : Tables} (recorded : EffectsRecorded T)
include recorded

theorem of_map (g : RunStep → RunStep) (same : ∀ s, SameCall s (g s)) (steps : after.steps = T.steps.map g)
    (status : ∀ s ∈ T.steps, (g s).status = .EXECUTED ↔ s.status = .EXECUTED) (next : after.nextStepId = T.nextStepId)
    (performed : performedIds after.history = performedIds T.history) (audit : okIds after.audit = okIds T.audit) :
    EffectsRecorded after where
  ids := by
    have kept : (T.steps.map g).map (·.id) = T.steps.map (·.id) := by
      rw [map_map]
      exact map_congr_left fun s _ => (same s).id
    rw [steps, kept]
    exact recorded.ids
  idsBelow := by
    rw [steps, next]
    intro s' mem
    obtain ⟨s, here, rfl⟩ := mem_map.1 mem
    rw [(same s).id]
    exact recorded.idsBelow s here
  performedBelow := by
    rw [performed, next]
    exact recorded.performedBelow
  once := performed ▸ recorded.once
  audited := by rw [audit, performed, recorded.audited]
  executed := by
    rw [steps, performed]
    intro s' mem
    obtain ⟨s, here, rfl⟩ := mem_map.1 mem
    rw [status s here, (same s).id]
    exact recorded.executed s here

/-- The steps and what was performed stay. -/
theorem of_run (steps : after.steps = T.steps) (next : after.nextStepId = T.nextStepId)
    (performed : performedIds after.history = performedIds T.history) (audit : okIds after.audit = okIds T.audit) :
    EffectsRecorded after :=
  recorded.of_map id .refl (by rw [steps, map_id]) (fun _ _ => Iff.rfl) next performed audit

/-- Steps that are not executed get another status. -/
theorem of_updateSteps (which : RunStep → Bool) (f : RunStep → RunStep) (same : ∀ s, SameCall s (f s))
    (steps : after.steps = (T.updateSteps which f).steps)
    (status : ∀ s ∈ T.steps, which s = true → s.status ≠ .EXECUTED ∧ (f s).status ≠ .EXECUTED)
    (next : after.nextStepId = T.nextStepId) (performed : performedIds after.history = performedIds T.history)
    (audit : okIds after.audit = okIds T.audit) : EffectsRecorded after := by
  refine recorded.of_map (fun s => if which s then f s else s) (fun s => (same s).ite) steps ?_ next performed audit
  intro s mem
  split
  · rename_i chosen
    obtain ⟨unexecuted, still⟩ := status s mem chosen
    exact iff_of_false still unexecuted
  · exact Iff.rfl

theorem eq_of_id {s s' : RunStep} (mem : s ∈ T.steps) (mem' : s' ∈ T.steps) (ids : s.id = s'.id) : s = s' :=
  Rows.eq_of_key recorded.ids mem mem' ids

theorem created (userText : String) (steps : List PreparedStep) : EffectsRecorded (T.createSteps userText steps) where
  ids := by
    rw [createSteps_ids]
    refine nodup_append.2 ⟨recorded.ids, nodup_range', ?_⟩
    intro id old id' new same
    obtain ⟨s, mem, rfl⟩ := mem_map.1 old
    have below := recorded.idsBelow s mem
    have above := (mem_range'_1.1 new).1
    omega
  idsBelow := by
    intro s mem
    obtain mem | ⟨p, id, rfl, -, -, below⟩ := mem_createSteps mem
    · exact Nat.lt_of_lt_of_le (recorded.idsBelow s mem) (Nat.le_add_right _ _)
    · exact below
  performedBelow := fun id mem => Nat.lt_of_lt_of_le (recorded.performedBelow id mem) (Nat.le_add_right _ _)
  once := recorded.once
  audited := recorded.audited
  executed := by
    intro s mem
    obtain mem | ⟨p, id, rfl, -, above, -⟩ := mem_createSteps mem
    · exact recorded.executed s mem
    · refine iff_of_false p.row_unexecuted fun performed => ?_
      have below := recorded.performedBelow id performed
      omega

theorem performed {step : RunStep} (args : Json) (objectId : Option String) (mem : step ∈ T.steps)
    (unexecuted : step.status ≠ .EXECUTED) : EffectsRecorded (T.perform step args objectId) := by
  have fresh : step.id ∉ performedIds T.history := fun performed => unexecuted ((recorded.executed step mem).2 performed)
  have history : performedIds (T.perform step args objectId).history = performedIds T.history ++ [step.id] :=
    performedIds_append _ _
  constructor
  · have kept : (T.perform step args objectId).steps.map (·.id) = T.steps.map (·.id) := by
      simp only [perform, record_steps, addAudit_steps, updateSteps_steps, map_map]
      refine map_congr_left fun s _ => ?_
      dsimp only [comp_apply]
      split <;> rfl
    rw [kept]
    exact recorded.ids
  · intro s' mem'
    obtain ⟨s, here, rfl⟩ := mem_map.1 mem'
    have below := recorded.idsBelow s here
    split
    · exact below
    · exact below
  · rw [history]
    intro id performed
    obtain performed | performed := mem_append.1 performed
    · exact recorded.performedBelow id performed
    · rw [mem_singleton.1 performed]
      exact recorded.idsBelow step mem
  · rw [history]
    exact nodup_append.2 ⟨recorded.once, nodup_singleton _, by
      intro id old id' new same
      rw [same, mem_singleton.1 new] at old
      exact fresh old⟩
  · rw [history, ← recorded.audited]
    exact filterMap_append
  · rw [history]
    intro s' mem'
    obtain ⟨s, here, rfl⟩ := mem_map.1 mem'
    by_cases this_step : s.id = step.id
    · simp [this_step]
    · simp only [this_step, decide_false, Bool.false_eq_true, if_false, mem_append, mem_singleton, or_false]
      exact recorded.executed s here

end EffectsRecorded

theorem Change.effectsRecorded (change : Change op chats snapshot T point after) (recorded : EffectsRecorded T) :
    EffectsRecorded after := by
  cases change with
  | same => exact recorded
  | published | succeeded | failed | finished | clarified => exact recorded.of_run rfl rfl rfl rfl
  | awaiting | began | rotated =>
    refine recorded.of_run rfl rfl ?_ rfl
    exact (performedIds_append _ _).trans (append_nil _)
  | created planned steps => exact recorded.created planned.userText steps
  | accepted token now =>
    refine recorded.of_updateSteps (·.status = .NEEDS_CONFIRMATION) (fun step => { step with status := .CONFIRMED })
      (fun s => ⟨rfl, rfl, rfl, rfl, rfl⟩) rfl (fun s _ chosen => ?_) rfl ?_ ?_
    · simp [of_decide_eq_true chosen]
    · simp [accept, performedIds, Fact.performedStep]
    · simp [accept, okIds, AuditEvent.okStep]
  | continued =>
    exact ⟨nodup_nil, by simp [restart], recorded.performedBelow, recorded.once, recorded.audited,
      by simp [restart]⟩
  | canceled =>
    refine recorded.of_updateSteps (·.status.isUnfinished) (fun step => { step with status := .SKIPPED })
      (fun s => ⟨rfl, rfl, rfl, rfl, rfl⟩) rfl (fun s _ chosen => ⟨?_, by simp⟩) rfl ?_ rfl
    · exact fun executed => by simp [executed, StepStatus.isUnfinished] at chosen
    · simp [endSteps, performedIds, Fact.performedStep]
  | revoked =>
    refine recorded.of_updateSteps (·.status.isUnfinished)
      (fun step => { step with status := .FAILED, errorCode := some OperatorErrorCode.CONTEXT_REVOKED.stored }) (fun s => ⟨rfl, rfl, rfl, rfl, rfl⟩) rfl (fun s _ chosen => ⟨?_, by simp⟩) rfl rfl rfl
    exact fun executed => by simp [executed, StepStatus.isUnfinished] at chosen
  | performed execution step args objectId performable =>
    refine recorded.performed args objectId performable.mem ?_
    obtain ready | ready := performable.ready <;> simp [ready]
  | stepFailed _ step code event executing mem unexecuted plain =>
    refine recorded.of_updateSteps (·.id = step.id) (fun s => { s with status := .FAILED, errorCode := some code })
      (fun s => ⟨rfl, rfl, rfl, rfl, rfl⟩) rfl (fun s here chosen => ⟨?_, by simp⟩) rfl rfl ?_
    · rw [recorded.eq_of_id here mem (of_decide_eq_true chosen)]
      exact unexecuted
    · simp [failStep, okIds, plain]

/-- A step that requires confirmation may only run once it is confirmed, and the stored hash is that of the latest token. -/
structure ConfirmationsRecorded (op : OperatorRuntime) (T : Tables) : Prop where
  pending : ∀ s ∈ T.steps, s.status = .PENDING → toolRequiresConfirmation s.toolName s.inputJson = false
  confirmed : ∀ s ∈ T.steps, s.status = .CONFIRMED → Accepted T.history s.id
  token : T.run.status = .AWAITING_CONFIRMATION → ∃ token expiresAt, lastIssued T.history = some (token, expiresAt) ∧
    T.run.confirmationTokenHash = some (op.hashConfirmationToken token) ∧ T.run.confirmationExpiresAt = some expiresAt

namespace ConfirmationsRecorded

variable {T after : Tables} (recorded : ConfirmationsRecorded op T)
include recorded

/-- Some steps get a status that is not `PENDING`; a confirmed one has been accepted. -/
theorem of_updateSteps (which : RunStep → Bool) (f : RunStep → RunStep) (same : ∀ s, SameCall s (f s))
    (steps : after.steps = (T.updateSteps which f).steps) (pending : ∀ s, (f s).status ≠ .PENDING)
    (confirmed : ∀ s ∈ T.steps, which s = true → (f s).status = .CONFIRMED → Accepted after.history s.id)
    (history : T.history <+: after.history) (settled : after.run.status ≠ .AWAITING_CONFIRMATION) :
    ConfirmationsRecorded op after where
  pending := by
    rw [steps]
    intro s' mem
    obtain ⟨s, here, rfl⟩ := mem_map.1 mem
    split
    · exact fun now => absurd now (pending s)
    · exact recorded.pending s here
  confirmed := by
    rw [steps]
    intro s' mem
    obtain ⟨s, here, rfl⟩ := mem_map.1 mem
    split
    · rename_i chosen
      rw [(same s).id]
      exact confirmed s here chosen
    · obtain ⟨more, eq⟩ := history
      exact fun now => eq ▸ (recorded.confirmed s here now).append more
  token := fun awaiting => absurd awaiting settled

/-- The steps stay. -/
theorem of_run (steps : after.steps = T.steps) (history : T.history <+: after.history)
    (token : after.run.status = .AWAITING_CONFIRMATION → ∃ token expiresAt, lastIssued after.history = some (token, expiresAt) ∧
      after.run.confirmationTokenHash = some (op.hashConfirmationToken token) ∧
      after.run.confirmationExpiresAt = some expiresAt) : ConfirmationsRecorded op after where
  pending := steps ▸ recorded.pending
  confirmed := by
    obtain ⟨more, eq⟩ := history
    rw [steps, ← eq]
    exact fun s mem now => (recorded.confirmed s mem now).append more
  token := token

theorem issued (token : String) (now : Nat) : ConfirmationsRecorded op (T.issueToken op token now) :=
  recorded.of_run rfl (prefix_append _ _) fun _ =>
    ⟨token, now + op.confirmationTtl, by simp [issueToken, lastIssued, Fact.issue], rfl, rfl⟩

theorem created (userText : String) (steps : List PreparedStep) (opened : T.run.status = .PLANNING) :
    ConfirmationsRecorded op (T.createSteps userText steps) where
  pending := by
    intro s mem now
    obtain mem | ⟨p, id, rfl, -, -, -⟩ := mem_createSteps mem
    · exact recorded.pending s mem now
    · simp only [PreparedStep.row] at now ⊢
      split at now
      · cases now
      · rename_i plain
        exact Bool.eq_false_of_not_eq_true plain
  confirmed := by
    intro s mem now
    obtain mem | ⟨p, id, rfl, -, -, -⟩ := mem_createSteps mem
    · exact recorded.confirmed s mem now
    · simp only [PreparedStep.row] at now
      split at now <;> cases now
  token := fun awaiting => by
    have still : T.run.status = .AWAITING_CONFIRMATION := awaiting
    rw [opened] at still
    cases still

section
variable {token : String} {now expiresAt : Nat} (injective : Injective op.hashConfirmationToken)
  (opened : T.run.status = .AWAITING_CONFIRMATION)
  (hash : T.run.confirmationTokenHash = some (op.hashConfirmationToken token))
  (expires : T.run.confirmationExpiresAt = some expiresAt) (inTime : now ≤ expiresAt)
include injective opened hash expires inTime

/-- Each step that waits for confirmation is accepted. -/
theorem accepts {s : RunStep} (mem : s ∈ T.steps)
    (waits : s.status = .NEEDS_CONFIRMATION) : Accepted (T.accept token now).history s.id := by
  obtain ⟨latest, until_, issued, sameHash, sameExpiry⟩ := recorded.token opened
  obtain rfl : latest = token := injective (Option.some.inj (sameHash.symm.trans hash))
  obtain rfl : until_ = expiresAt := Option.some.inj (sameExpiry.symm.trans expires)
  refine ⟨T.history, [.began], latest, until_, now, (T.steps.filter (·.status = .NEEDS_CONFIRMATION)).map (·.id),
    by simp [accept], issued, inTime, ?_⟩
  exact mem_map.2 ⟨s, mem_filter.2 ⟨mem, decide_eq_true waits⟩, rfl⟩

theorem accepted :
    ConfirmationsRecorded op (T.accept token now) := by
  refine recorded.of_updateSteps (·.status = .NEEDS_CONFIRMATION) (fun step => { step with status := .CONFIRMED })
    (fun s => ⟨rfl, rfl, rfl, rfl, rfl⟩) rfl (by simp) ?_ ?_ (by simp [accept])
  · exact fun s here chosen _ => recorded.accepts injective opened hash expires inTime here (of_decide_eq_true chosen)
  · exact ⟨_, (append_assoc _ _ _).symm⟩

end

end ConfirmationsRecorded

theorem Change.confirmationsRecorded (injective : Injective op.hashConfirmationToken)
    (change : Change op chats snapshot T point after) (recorded : ConfirmationsRecorded op T) :
    ConfirmationsRecorded op after := by
  cases change with
  | same => exact recorded
  | published planned opened => exact recorded.of_run rfl prefix_rfl (by simp [opened])
  | created planned steps opened => exact recorded.created planned.userText steps opened
  | awaiting _ _ _ token now opened =>
    refine recorded.of_run rfl (prefix_append _ _) fun _ => ?_
    exact ⟨token, now + op.confirmationTtl, by simp [issueToken, lastIssued, Fact.issue], rfl, rfl⟩
  | began => exact recorded.of_run rfl (prefix_append _ _) (by simp)
  | succeeded | failed | clarified => exact recorded.of_run rfl prefix_rfl (by simp [settle])
  | finished execution =>
    exact recorded.of_run rfl prefix_rfl fun awaiting =>
      absurd awaiting (RunStatus.ne_of_terminal execution.status_isTerminal rfl)
  | rotated token now => exact recorded.issued token now
  | accepted token now expiresAt opened hash expires inTime => exact recorded.accepted injective opened hash expires inTime
  | continued => exact ⟨by simp [restart], by simp [restart], by simp [restart]⟩
  | canceled =>
    exact recorded.of_updateSteps (·.status.isUnfinished) (fun step => { step with status := .SKIPPED })
      (fun s => ⟨rfl, rfl, rfl, rfl, rfl⟩) rfl (by simp) (by simp) (prefix_append _ _) (by simp)
  | revoked =>
    exact recorded.of_updateSteps (·.status.isUnfinished)
      (fun step => { step with status := .FAILED, errorCode := some OperatorErrorCode.CONTEXT_REVOKED.stored })
      (fun s => ⟨rfl, rfl, rfl, rfl, rfl⟩) rfl (by simp) (by simp) prefix_rfl
      (RunStatus.ne_of_terminal T.revokedStatus_isTerminal rfl)
  | performed execution step args objectId performable =>
    exact recorded.of_updateSteps (·.id = step.id)
      (fun s => { s with status := .EXECUTED, objectId := objectId, errorCode := none })
      (fun s => ⟨rfl, rfl, rfl, rfl, rfl⟩) rfl (by simp) (by simp) (prefix_append _ _)
      (by simp [perform, performable.executing])
  | stepFailed _ step code event executing =>
    exact recorded.of_updateSteps (·.id = step.id) (fun s => { s with status := .FAILED, errorCode := some code })
      (fun s => ⟨rfl, rfl, rfl, rfl, rfl⟩) rfl (by simp) (by simp) prefix_rfl (by simp [failStep, executing])

end Vimla.Operator
