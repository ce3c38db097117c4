import Vimla.TextChat.Exits

/-!
# The flow meets its contract

From the reservation to the end of the stream, then from the opened request,
then the whole call.
-/

namespace Vimla.TextChat

open Threads Threads.Program Billing

variable {ids : Ids} {me : Nat} {input : SendMessage} {h : History Draw} {s t : Store} {row : AiRequest}
  {messages : List Message} {reservations : List UsageReservation} {r : UsageReservation} {text : String}

/-- A financial status that fits the request's reservations. -/
inductive Ledger : FinancialStatus → List UsageReservation → Prop
  | none : Ledger .NONE []
  | held (r : UsageReservation) (active : r.status = .active) : Ledger .RECONCILIATION_HOLD [r]
  | settled (financial : FinancialStatus) (h : financial = .SETTLED ∨ financial = .ANOMALY)
      (r : UsageReservation) (ended : r.status = .settled ∨ r.status = .anomaly) : Ledger financial [r]
  | released (r : UsageReservation) (ended : r.status = .released) : Ledger .RELEASED [r]

theorem Owned.agrees {id : String} (owned : Owned id s row messages reservations) (final : row.status ∉ IN_PROGRESS_STATUSES)
    (ledger : Ledger row.financialStatus reservations) : Agrees s row := by
  have stored : s.reservationsOf row.id = reservations := by rw [request_id owned.request, owned.reservations]
  generalize fin : row.financialStatus = financial at ledger
  cases ledger with
  | none => exact ⟨final, by simp [stored, fin], by simp [stored, fin], by simp [stored, fin], by simp [stored, fin]⟩
  | held r active =>
    exact ⟨final, by simp [stored, fin, active], by simp [stored, fin, active], by simp [stored, fin, active],
      by simp [stored, fin]⟩
  | settled financial h r ended =>
    rcases h with rfl | rfl <;> rcases ended with ended | ended <;>
      exact ⟨final, by simp [stored, fin, ended], by simp [stored, fin, ended], by simp [stored, fin, ended],
        by simp [stored, fin]⟩
  | released r ended =>
    exact ⟨final, by simp [stored, fin, ended], by simp [stored, fin, ended], by simp [stored, fin, ended],
      by simp [stored, fin]⟩

theorem Live.fail (live : Live ids me input h s row messages reservations text) {α : Type} (error : Thrown)
    (final : row.status ∉ IN_PROGRESS_STATUSES) (ledger : Ledger row.financialStatus reservations) :
    Meets ids me input (.fail error : Process α) h s :=
  live.ended (live.owned.agrees final ledger)

theorem keeps_onHold : Keeps onHold := ⟨fun _ => rfl, fun _ => rfl, fun _ => rfl, fun _ => rfl⟩

theorem Live.hold (live : Live ids me input h s row messages [r] text) (active : r.status = .active) (error : Thrown) :
    Meets ids me input (TextChat.hold ids me error) h s := by
  refine live.update keeps_onHold (by simp [onHold]) fun t h' live => ?_
  exact live.fail error (by simp [onHold, IN_PROGRESS_STATUSES]) (.held r active)

theorem Live.failUnreserved (live : Live ids me input h s row messages [] text) (none : row.financialStatus = .NONE)
    (error : Thrown) : Meets ids me input (TextChat.failUnreserved ids me error) h s := by
  refine live.update ⟨fun _ => rfl, fun _ => rfl, fun _ => rfl, fun _ => rfl⟩ (by simp) fun t h' live => ?_
  have ledger : Ledger row.financialStatus [] := none ▸ .none
  exact live.fail error (by simp [IN_PROGRESS_STATUSES]) ledger

section
variable (live : Live ids me input h s row messages [r] text) (active : r.status = .active) (said : String)
include live active said

theorem Live.markReconciliation (error : Thrown) : Meets ids me input (TextChat.markReconciliation ids me input said error) h s := by
  unfold TextChat.markReconciliation
  split
  · exact live.message said fun t h' m _ _ _ live => live.hold active error
  · exact live.hold active error

theorem Live.unsettled :
    Meets ids me input (TextChat.unsettled ids me input said) h s := by
  refine live.update keeps_onHold (by simp [onHold]) fun t h' live => ?_
  have final : (onHold row).status ∉ IN_PROGRESS_STATUSES := by simp [onHold, IN_PROGRESS_STATUSES]
  split
  · exact live.message said fun t h' m _ _ _ live => live.fail _ final (.held r active)
  · exact live.fail _ final (.held r active)

end

theorem Live.handleProviderFailure (live : Live ids me input h s row messages [r] text) (active : r.status = .active)
    (user : r.userId = input.userId) (progress : row.status ∈ IN_PROGRESS_STATUSES) (error : Thrown) :
    Meets ids me input (TextChat.handleProviderFailure ids me input r.id error) h s := by
  unfold TextChat.handleProviderFailure
  simp only
  split
  case h_3 => exact live.hold active _
  all_goals
    refine live.release active user (fun e t h' failing live => (live.stuck progress failing).ended) fun view r' t h' released live => ?_
    refine live.update ⟨fun _ => rfl, fun _ => rfl, fun _ => rfl, fun _ => rfl⟩ (by simp) fun t h' live => ?_
    exact live.fail _ (by simp [IN_PROGRESS_STATUSES]) (.released r' released)

section Funded
variable {price : PriceVersionQuote} {estimatedInputTokens maxOutputTokens estimatedCost : Int}

theorem financialStatusOf_settled (view : ReservationView) :
    financialStatusOf view = .SETTLED ∨ financialStatusOf view = .ANOMALY := by
  unfold financialStatusOf
  split <;> simp

theorem Live.interruptedWithUsage (live : Live ids me input h s row messages [r] text) (active : r.status = .active)
    (user : r.userId = input.userId) (said : String) (usage : NormalizedUsage) : Meets ids me input
      (TextChat.interruptedWithUsage ids me input ⟨r.id, price, estimatedInputTokens, maxOutputTokens, estimatedCost⟩
        said usage) h s := by
  unfold TextChat.interruptedWithUsage
  cases cost : providerCostFromUsage usage price with
  | error e => exact live.markReconciliation active said _
  | ok actual =>
    refine live.update ⟨fun _ => rfl, fun _ => rfl, fun _ => rfl, fun _ => rfl⟩ live.unfinished fun t h' live => ?_
    split
    · exact live.hold active _
    · refine live.settle active user (providerCost_nonneg cost) (fun e t h' live => live.hold active _)
        fun view r' t h' settled live => ?_
      refine live.update ⟨fun _ => rfl, fun _ => rfl, fun _ => rfl, fun _ => rfl⟩ (by simp [failed]) fun t h' live => ?_
      exact live.fail _ (by simp [failed, IN_PROGRESS_STATUSES])
        (.settled _ (financialStatusOf_settled view) r' settled)

section
variable (live : Live ids me input h s row messages [r] text)
include live

/-- The last update: from here on nobody writes the request. -/
theorem Live.finish (settled : r.status = .settled ∨ r.status = .anomaly)
    (view : ReservationView) (stored : s.replayText row = text) : Meets ids me input
      ((updateRequest ids me fun r => { r with
        status := .SUCCEEDED
        financialStatus := financialStatusOf view
        userSettledUsageMicroRub := some view.settledMicroRub }).bind fun _ => (.pure text : Process String)) h s := by
  let f : AiRequest → AiRequest := fun r => { r with
    status := .SUCCEEDED
    financialStatus := financialStatusOf view
    userSettledUsageMicroRub := some view.settledMicroRub }
  have keeps : Keeps f := ⟨fun _ => rfl, fun _ => rfl, fun _ => rfl, fun _ => rfl⟩
  refine Discipline.wp_ask fun t sound rely => ?_
  have now := live.rely sound rely
  refine ⟨now.replayable _, fun d _ => ⟨updateRequest_sound sound keeps.id fun r => ⟨rfl, rfl⟩,
    ⟨fun id ne => updateRequest_same keeps.id ne, fun row' found done => ?_⟩, ?_⟩⟩
  · rw [now.owned.request] at found
    cases found
    exact absurd done now.unfinished
  have owned := now.owned.update keeps.id
  have text' : streamed (h ++ [⟨.update, d⟩]) = text := by rw [streamed_append, now.text]; exact String.append_empty
  refine ⟨fun row' found _ => ?_, fun row' found => ?_⟩
  · rw [owned.request] at found
    cases found
    rw [owned.messages, text']
    refine ⟨keeps.mine now.mine, ?_⟩
    have same : t.replayText row = text := by
      rw [rely.1.replayText (request_id live.owned.request), stored]
    exact same
  · rw [owned.request] at found
    cases found
    have ledger : Ledger (f row).financialStatus [r] := .settled _ (financialStatusOf_settled view) r settled
    constructor
    · exact fun _ => clean_append.2 ⟨now.clean, id⟩
    · exact fun _ => owned.agrees (by simp [IN_PROGRESS_STATUSES]) ledger

theorem Live.succeed (settled : r.status = .settled ∨ r.status = .anomaly)
    (fresh : messages.find? (fun m => m.role = .ASSISTANT) = none) (output : row.outputText = some text)
    (view : ReservationView) : Meets ids me input (TextChat.succeed ids me input text view) h s := by
  refine live.message text fun t h' m id role said live => ?_
  refine live.emit _ fun t h' live => ?_
  apply live.finish settled view
  unfold Store.replayText
  rw [request_id live.owned.request, live.owned.messages, List.find?_append, fresh]
  simp only [Option.none_or, List.find?_cons, role, said, decide_true, output, Option.getD_some]
  split <;> rfl

theorem Live.completed (active : r.status = .active)
    (user : r.userId = input.userId) (fresh : messages.find? (fun m => m.role = .ASSISTANT) = none)
    (usage : Option NormalizedUsage) : Meets ids me input
      (TextChat.completed ids me input ⟨r.id, price, estimatedInputTokens, maxOutputTokens, estimatedCost⟩
        ⟨text, usage, none⟩) h s := by
  unfold TextChat.completed
  cases usage with
  | none => exact live.markReconciliation active text _
  | some usage =>
    simp only
    cases cost : providerCostFromUsage usage price with
    | error e => exact live.markReconciliation active text _
    | ok actual =>
      refine live.update ⟨fun _ => rfl, fun _ => rfl, fun _ => rfl, fun _ => rfl⟩ live.unfinished fun t h' live => ?_
      split
      · exact live.hold active _
      · refine live.settle active user (providerCost_nonneg cost) (fun e t h' live => live.unsettled active text)
          fun view r' t h' settled live => ?_
        exact live.succeed settled fresh rfl view

end

/-- The session: the call knows the text it was streamed, however it ended. -/
theorem Live.stream (live : Live ids me input h s row messages [r] "") (progress : row.status ∈ IN_PROGRESS_STATUSES)
    {k : Streamed → Process String}
    (rest : ∀ session t h' row', row'.status ∈ IN_PROGRESS_STATUSES →
      Live ids me input h' t row' messages [r] session.assistantText → Meets ids me input (k session) h' t) :
    Meets ids me input ((TextChat.stream ids me).bind k) h s := by
  rw [TextChat.stream, bind_assoc]
  refine live.step fun t now d => ⟨now.sound, fun id _ => .refl id t, ?_⟩
  have next : Live ids me input (h ++ [⟨.streamChat, d⟩]) t row messages [r] "" :=
    now.next now.sound now.owned now.mine now.unfinished id rfl
  cases d with
  | error e => exact rest ⟨"", none, some e⟩ t _ row progress next
  | ok providerRequestId =>
    simp only [bind_assoc]
    refine next.update ⟨fun _ => rfl, fun _ => rfl, fun _ => rfl, fun _ => rfl⟩ (by simp) fun t h' live => ?_
    refine live.step fun t now d => ?_
    have tables := consume_tables me d.events "" none t
    refine ⟨now.sound.of_tables tables, fun id _ => Same.of_tables tables id, rest _ _ _ _ ?_
      ⟨now.sound.of_tables tables, now.owned.same (Same.of_tables tables _), now.mine, now.unfinished,
        clean_append.2 ⟨now.clean, id⟩, ?_⟩⟩
    · simp [IN_PROGRESS_STATUSES]
    · rw [streamed_append, now.text, consume_text]
      simp [streamed]

theorem Live.reservedFlow (live : Live ids me input h s row messages [r] "") (active : r.status = .active)
    (user : r.userId = input.userId) (fresh : messages.find? (fun m => m.role = .ASSISTANT) = none) : Meets ids me input
      (TextChat.reservedFlow ids me input ⟨r.id, price, estimatedInputTokens, maxOutputTokens, estimatedCost⟩) h s := by
  refine live.update ⟨fun _ => rfl, fun _ => rfl, fun _ => rfl, fun _ => rfl⟩ (by simp) fun t h' live => ?_
  refine live.emit _ fun t h' live => ?_
  refine live.update ⟨fun _ => rfl, fun _ => rfl, fun _ => rfl, fun _ => rfl⟩ (by simp) fun t h' live => ?_
  refine live.stream (by simp [IN_PROGRESS_STATUSES]) fun session t h' row' progress live => ?_
  obtain ⟨text, usage, error⟩ := session
  cases error with
  | none => exact live.completed active user fresh usage
  | some error =>
    cases usage with
    | some usage => exact live.interruptedWithUsage active user text usage
    | none => exact live.handleProviderFailure active user progress error

end Funded

theorem Live.fundedFlow (live : Live ids me input h s row messages [] "") (unreserved : row.financialStatus = .NONE)
    (fresh : messages.find? (fun m => m.role = .ASSISTANT) = none) (model : ResolvedModel) (tokens : Int)
    (budget : FundedAiExecutionBudget) : Meets ids me input (TextChat.fundedFlow ids me input model tokens budget) h s := by
  refine live.update ⟨fun _ => rfl, fun _ => rfl, fun _ => rfl, fun _ => rfl⟩ live.unfinished
    fun t h' live => ?_
  refine live.reserve _ (fun e t h' live => live.failUnreserved unreserved e) fun view r t h' hid user active live => ?_
  simp only [← hid]
  exact live.reservedFlow active user fresh

variable {model : ResolvedModel}

/-- The bounds of text chat are valid for a model that can produce output. -/
theorem budgetInput_valid (c : Config) (produces : 0 < model.maxOutputTokens) (tokens : Nat) (available : Int)
    (room : ¬ (budgetInput c model tokens 0).modelMaxOutputTokens <
      ((budgetInput c model tokens 0).profiles .STANDARD).minimumOutputTokens) :
    (budgetInput c model tokens available).Valid := by
  have := c.output
  have := c.safety
  simp only [budgetInput, if_true, DEFAULT_AI_EXECUTION_BUDGET_PROFILES] at room
  refine ⟨?_, ?_, ?_, ?_, ?_⟩ <;> simp only [budgetInput, if_true, DEFAULT_AI_EXECUTION_BUDGET_PROFILES] <;> omega

/-- A model without output leaves room for nothing, and the budget refuses it. -/
theorem budgetInput_refused (c : Config) (silent : model.maxOutputTokens ≤ 0) (tokens : Nat) (available : Int) :
    ¬ (budgetInput c model tokens 0).modelMaxOutputTokens <
        ((budgetInput c model tokens 0).profiles .STANDARD).minimumOutputTokens ∧
      ∃ e, resolveAiExecutionBudget (budgetInput c model tokens available) = .error e := by
  have nothing : (budgetInput c model tokens available).modelMaxOutputTokens ≤ 0 := by
    simp only [budgetInput]
    omega
  refine ⟨?_, .error ("modelMaxOutputTokens" ++ " must be a positive integer"), ?_⟩
  · simp only [budgetInput, if_true, DEFAULT_AI_EXECUTION_BUDGET_PROFILES]
    omega
  · unfold resolveAiExecutionBudget
    rw [assertPositiveInteger, if_pos nothing]
    rfl

section Flow
variable {c : Config} {model : ResolvedModel}

variable {l : Step} {f : Store → Draw l → Except Thrown α × Store} {k : α → Process β} {α β : Type}

/-- A read that may fail, in a call that is stuck already. -/
theorem Stuck.reading (stuck : Stuck ids me h s row) (reads : ∀ t d, (f t d).2 = t)
    (each : ∀ a t h', Stuck ids me h' t row → Meets ids me input (k a) h' t) :
    Meets ids me input (((ask l f).bind lift).bind k) h s := by
  rw [bind_assoc]
  refine stuck.read reads fun t d stuck => ?_
  cases (f t d).1 with
  | error e => exact stuck.ended
  | ok a => exact each a t _ stuck

theorem Stuck.runProviderFlow (stuck : Stuck ids me h s row) (silent : model.maxOutputTokens ≤ 0) :
    Meets ids me input (TextChat.runProviderFlow c ids me input model) h s := by
  refine stuck.reading (fun _ _ => rfl) fun history t h' stuck => ?_
  rw [if_neg (budgetInput_refused c silent _ 0).1]
  refine stuck.reading (fun _ _ => rfl) fun available t h' stuck => ?_
  obtain ⟨e, refused⟩ := (budgetInput_refused c silent
    (estimateProviderRequestInputTokens (selectContextMessages history c.aiMaxContextBytes)) available).2
  rw [refused]
  exact stuck.ended

/-- A read that fails leaves the call stuck. -/
theorem Live.reading (live : Live ids me input h s row messages reservations text)
    (progress : row.status ∈ IN_PROGRESS_STATUSES)
    (reads : ∀ t d, (f t d).2 = t) (silent : ∀ d, streamed [⟨l, d⟩] = "")
    (sees : ∀ t d, (∃ e, (f t d).1 = .error e) ↔ Fails ⟨l, d⟩)
    (each : ∀ a t h', Live ids me input h' t row messages reservations text → Meets ids me input (k a) h' t) :
    Meets ids me input (((ask l f).bind lift).bind k) h s := by
  rw [bind_assoc]
  refine live.step fun t now d => ?_
  rw [reads]
  refine ⟨now.sound, fun id _ => .refl id t, ?_⟩
  cases answer : (f t d).1 with
  | error e =>
    refine (now.stuck progress fun clean => ?_).ended
    exact (clean_append.1 clean).2 ((sees t d).1 ⟨e, answer⟩)
  | ok a =>
    have fine : ¬ Fails ⟨l, d⟩ := fun fails => by
      obtain ⟨e, thrown⟩ := (sees t d).2 fails
      rw [answer] at thrown
      cases thrown
    exact each a t _ (now.next now.sound now.owned now.mine now.unfinished fine (silent d))

theorem Live.runProviderFlow (live : Live ids me input h s row messages [] "") (created : row.status = .CREATED)
    (unreserved : row.financialStatus = .NONE) (fresh : messages.find? (fun m => m.role = .ASSISTANT) = none)
    (produces : 0 < model.maxOutputTokens) : Meets ids me input (TextChat.runProviderFlow c ids me input model) h s := by
  have progress : row.status ∈ IN_PROGRESS_STATUSES := by
    rw [created]
    decide
  refine live.reading progress (fun _ _ => rfl) (fun _ => rfl) (fun t d => by cases d <;> simp [Fails])
    fun history t h' live => ?_
  simp only
  split
  · exact live.failUnreserved unreserved _
  · rename_i room
    refine live.reading progress (fun _ _ => rfl) (fun _ => rfl) (fun t d => ?_) fun available t h' live => ?_
    · cases fails : d.fails <;> simp [Fails, fails]
    obtain ⟨result, resolved, -⟩ := resolveAiExecutionBudget_ok (budgetInput_valid c produces _ available room)
    rw [resolved]
    cases result with
    | FUNDED budget => exact live.fundedFlow unreserved fresh model _ budget
    | INSUFFICIENT_USAGE | REQUEST_COST_LIMIT => exact live.failUnreserved unreserved _

end Flow

end Vimla.TextChat
