import Vimla.Semantic.Leases

/-!
# Batches keep the tables sound

The program of a batch under its discipline: every worker relies on rows under
an issued token being left alone, and guarantees it.
-/

namespace Vimla.Semantic

open Threads Threads.Program Discipline

variable {c : Config} {me : Nat} {s t : Index} {job : SemanticSource}

/-- The clock of a transaction has been the time, and tokens are not drawn twice. -/
def Answers (s : Index) : (l : Step) → Draw l → Prop
  | .database q, d => d.clock ≤ s.now ∧ (q = .claim → d.token ∉ s.issued)
  | _, _ => True

/-- The job whose row the statement gives up. -/
def Statement.givesUp : Statement → Option SemanticSource
  | .skip job | .defer job | .fail job => some job
  | _ => none

/-- The job whose text the statement has found changed. -/
def Statement.outdates : Statement → Option SemanticSource
  | .requeue job => some job
  | _ => none

/-- A worker that gives its row up does so while its lease stands, unless the row
is no longer its own; and it does not give it up for a changed text. -/
def Timely (c : Config) (s : Index) : (l : Step) → Draw l → Prop
  | .database q, d => d.fate ≠ .undone →
    (∀ job ∈ q.givesUp, ∀ r ∈ s.sources, owned c job r = true → r.active d.clock = true) ∧
      ∀ job ∈ q.outdates, ∀ r ∈ s.sources, owned c job r = false
  | _, _ => True

def discipline (c : Config) : Discipline Step Draw Index where
  inv := Sound c
  admits l s d := Answers s l d ∧ Timely c s l d
  rely _ := Later
  guarantee _ := Later
  refl _ := Later.refl
  trans _ _ _ _ := Later.trans
  compatible _ _ _ _ _ _ later := later

instance (c : Config) : ∀ l s d, Decidable ((discipline c).admits l s d)
  | .database q, s, d => inferInstanceAs (Decidable ((d.clock ≤ s.now ∧ (q = .claim → d.token ∉ s.issued)) ∧
      (d.fate ≠ .undone → (∀ job ∈ q.givesUp, ∀ r ∈ s.sources, owned c job r = true → r.active d.clock = true) ∧
        ∀ job ∈ q.outdates, ∀ r ∈ s.sources, owned c job r = false)))
  | .load _, _, _ | .admission _, _, _ | .embed _, _, _ => inferInstanceAs (Decidable (True ∧ True))

/-- `E` holds however the program ends. -/
def Meets (c : Config) (me : Nat) (E : Index → Prop) {α : Type} (p : Process α) (h : History Draw) (s : Index) : Prop :=
  (discipline c).wp me (fun _ _ _ => True) (fun _ _ s => E s) p h s

variable {E : Index → Prop} {α β : Type} {h : History Draw}

variable {q : Statement} {k : α → Process β}

/-- One statement: it keeps the invariant, and the rest goes on from its answer. -/
theorem meets_statement {f : At → Index → α × Index} (stable : ∀ s t, Later s t → E s → E t) (now : E s)
    (each : ∀ t, Sound c t → Later s t → E t → ∀ d, Answers t (.database q) d → Timely c t (.database q) d → d.fate ≠ .undone →
      Keeps c t (f d t).2 ∧ ∀ h', Meets c me E (k (f d t).1) h' (f d t).2) :
    Meets c me E ((statement q f).bind k) h s := by
  intro t sound later
  have here : E t := stable s t later now
  refine ⟨trivial, fun d admitted => ?_⟩
  cases fate : d.fate with
  | undone =>
    simp only [fate]
    exact ⟨sound, .refl t, here⟩
  | done =>
    obtain ⟨⟨sound', later'⟩, rest⟩ := each t sound later here d admitted.1 admitted.2 (by simp [fate])
    simp only [fate]
    exact ⟨sound', later', rest _⟩
  | unheard =>
    obtain ⟨⟨sound', later'⟩, -⟩ := each t sound later here d admitted.1 admitted.2 (by simp [fate])
    simp only [fate]
    exact ⟨sound', later', stable t _ later' here⟩

theorem bind_pure (p : Process Unit) : (p.bind fun _ => .pure ()) = p := by
  induction p with
  | pure a | fail e => rfl
  | step l act next ih =>
    simp only [Program.bind]
    congr 1
    funext s d
    exact ih s d

/-- A statement that a program ends with. -/
theorem meets_unit {f : At → Index → Index} (stable : ∀ s t, Later s t → E s → E t) (now : E s)
    (each : ∀ t, Sound c t → Later s t → ∀ d, Answers t (.database q) d → Timely c t (.database q) d → d.fate ≠ .undone →
      Keeps c t (f d t)) : Meets c me E (unit q f) h s := by
  rw [← bind_pure (unit q f)]
  refine meets_statement stable now fun t sound later here d answers timely fate => ?_
  have keeps := each t sound later d answers timely fate
  exact ⟨keeps, fun h' => stable t _ keeps.2 here⟩

/-- A call of something outside the database. -/
theorem meets_call {l : Step} {f : Index → Draw l → Except Unit α × Index} (stable : ∀ s t, Later s t → E s → E t)
    (now : E s) (each : ∀ t, Sound c t → Later s t → E t → ∀ d, Keeps c t (f t d).2 ∧
      ∀ a, (f t d).1 = .ok a → ∀ h', Meets c me E (k a) h' (f t d).2) :
    Meets c me E (((ask l f).bind lift).bind k) h s := by
  intro t sound later
  have here : E t := stable s t later now
  refine ⟨trivial, fun d _ => ?_⟩
  obtain ⟨⟨sound', later'⟩, rest⟩ := each t sound later here d
  refine ⟨sound', later', ?_⟩
  cases answer : (f t d).1 with
  | error e =>
    simp only [Program.bind, answer, lift]
    exact stable t _ later' here
  | ok a =>
    simp only [Program.bind, answer, lift]
    exact rest a answer _

/-- A loaded document is remembered. -/
theorem meets_load {k : Option SemanticDocument → Process β} (stable : ∀ s t, Later s t → E s → E t) (now : E s)
    (each : ∀ t, Sound c t → Later s t → E t → ∀ doc : Option SemanticDocument, (∀ d ∈ doc, (job.id, d) ∈ t.loaded) →
      ∀ h', Meets c me E (k doc) h' t) : Meets c me E ((load job).bind k) h s := by
  refine meets_call stable now fun t sound later here d => ?_
  match d with
  | .error e => exact ⟨⟨sound, .refl t⟩, nofun⟩
  | .ok none =>
    refine ⟨⟨sound, .refl t⟩, fun doc answer h' => ?_⟩
    cases answer
    exact each t sound later here none nofun h'
  | .ok (some doc) =>
    have keeps := loaded_keeps sound (job.id, doc)
    refine ⟨keeps, fun doc' answer h' => ?_⟩
    cases answer
    refine each _ keeps.1 (later.trans keeps.2) (stable t _ keeps.2 here) (some doc) (fun d is => ?_) h'
    cases is
    exact List.mem_append_right _ List.mem_cons_self

theorem meets_index (known : Known s job) : Meets c me (fun s => Known s job) (index c job) h s := by
  have stable (s t : Index) (later : Later s t) (known : Known s job) : Known t job := known.later later
  refine meets_load stable known fun s _ _ known doc loaded h => ?_
  cases doc with
  | none => exact meets_unit stable known fun t sound _ d _ _ _ => skip_keeps sound
  | some doc =>
    simp only
    split
    · exact meets_unit stable known fun t sound _ d _ _ _ => skip_keeps sound
    rename_i eligible
    have some : semanticChunks doc.text ≠ [] := fun none => eligible (.inl none)
    refine meets_call stable known fun s sound later known d => ⟨⟨sound, .refl s⟩, fun admitted _ h => ?_⟩
    have loaded := later.loaded (loaded doc rfl)
    split
    swap
    · exact meets_unit stable known fun t sound _ d _ _ _ => defer_keeps sound
    refine meets_call stable known fun s sound later known d => ⟨⟨sound, .refl s⟩, fun vectors _ h => ?_⟩
    have loaded := later.loaded loaded
    split
    · exact known
    rename_i lengths
    refine meets_load stable known fun s _ later known current _ h => ?_
    have loaded := later.loaded loaded
    split
    · refine meets_unit stable known fun t sound _ d _ timely fate => ?_
      have none : ∀ r ∈ t.sources, owned c job r = false := (timely fate).2 job rfl
      rw [requeue, updateMany_nothing none]
      exact ⟨sound, .refl t⟩
    · exact meets_unit stable known fun t sound later d _ _ _ =>
        ready_keeps sound (later.loaded loaded) some (not_not.1 lengths)

theorem meets_process (known : Known s job) : Meets c me (fun _ => True) (process c job) h s := by
  refine wp_bind (wp_attempt ?_)
  refine wp_mono (fun r h t known => ?_) (meets_index known)
  cases r with
  | ok a => trivial
  | error e =>
    have stable : ∀ s t : Index, Later s t → True → True := fun _ _ _ _ => trivial
    exact meets_unit stable trivial fun u sound later d _ _ _ => fail_keeps sound (known.later later)

theorem meets_jobs (sourceKey : Option String) (left processed : Nat) :
    Meets c me (fun _ => True) (jobs c sourceKey left processed) h s := by
  have stable : ∀ s t : Index, Later s t → True → True := fun _ _ _ _ => trivial
  induction left generalizing processed h s with
  | zero => trivial
  | succ left ih =>
    refine meets_statement stable trivial fun t sound _ _ d answers _ _ => ?_
    obtain ⟨keeps, known⟩ := claim_keeps sound sourceKey answers.1 (answers.2 rfl)
    refine ⟨keeps, fun h' => ?_⟩
    cases claimed : (claim c sourceKey d t).1 with
    | none => trivial
    | some job =>
      refine wp_bind (wp_mono (fun r h u _ => ?_) (meets_process (known job claimed)))
      cases r with
      | ok a => exact ih (processed + 1)
      | error e => trivial

theorem meets_runBatch (batch : Batch) : Meets c me (fun _ => True) (runBatch c batch) h s := by
  have stable : ∀ s t : Index, Later s t → True → True := fun _ _ _ _ => trivial
  unfold runBatch
  split
  · trivial
  refine meets_statement stable trivial fun t sound _ _ d _ _ _ => ⟨register_keeps sound, fun h' => ?_⟩
  refine meets_statement stable trivial fun t sound _ _ d _ _ _ => ⟨⟨sound, .refl t⟩, fun h' => ?_⟩
  split
  · trivial
  refine meets_statement stable trivial fun t sound _ _ d _ _ _ => ⟨rollover_keeps sound batch.sourceKey, fun h' => ?_⟩
  refine meets_statement stable trivial fun t sound _ _ d _ _ _ => ⟨purge_keeps sound, fun h' => ?_⟩
  refine meets_statement stable trivial fun t sound _ _ d _ _ _ => ⟨sweep_keeps sound, fun h' => ?_⟩
  refine meets_statement stable trivial fun t sound _ _ d _ _ _ => ⟨⟨sound, .refl t⟩, fun h' => ?_⟩
  exact meets_jobs batch.sourceKey batch.limit.toNat 0

def contract (c : Config) : Contract (indexer c) (discipline c) fun _ _ => True where
  idle _ _ := True
  during _ _ _ _ _ := True
  ends _ _ _ _ _ := True
  idle_rely _ _ _ _ _ := trivial
  ends_rely _ _ _ _ _ _ _ _ := trivial
  programs _ batch _ _ _ := meets_runBatch batch
  environment s change sound _ := by
    obtain ⟨sound', later⟩ := change_keeps sound change
    exact ⟨sound', fun _ => later⟩

end Vimla.Semantic
