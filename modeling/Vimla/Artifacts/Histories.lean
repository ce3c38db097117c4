import Vimla.Artifacts.Service
import Vimla.Lib.Runs

/-!
# Histories only grow

The versions of an artifact are numbered from 1 without a gap, adjacent ones
differ, and what a call writes is one new row at the end.
-/

namespace Vimla.Artifacts

open Js List Tables

variable {R : Runtime} {T U : Tables} {c : ArtifactContent} {reference : ArtifactReference}

/-- The tables that a successful call leaves, with its answer. -/
inductive Wrote (R : Runtime) (T : Tables) (c : ArtifactContent) : Tables → ArtifactReference → Prop
  | found (a : Artifact) (v : ArtifactVersion) (mem : a ∈ T.artifacts) (listed : v ∈ T.versionsOf a.id)
      (same : v.fingerprint = fingerprintArtifactContent R c) : Wrote R T c T (toReference a v)
  | opened (a : Artifact) (id : String) (metadata : Option Json) (fresh : ∀ b ∈ T.artifacts, b.id ≠ a.id)
      (free : ∀ w ∈ T.versions, w.id ≠ id) :
      Wrote R T c { T with artifacts := T.artifacts ++ [a], versions := T.versions ++ [versionRow R id a.id 1 c metadata] }
        (toReference a (versionRow R id a.id 1 c metadata))
  | extended (a : Artifact) (mem : a ∈ T.artifacts) (current : ArtifactVersion) (head : (T.latest a.id).head? = some current)
      (id : String) (metadata : Option Json) (free : ∀ w ∈ T.versions, w.id ≠ id)
      (differs : current.fingerprint ≠ fingerprintArtifactContent R c) :
      Wrote R T c { T with versions := T.versions ++ [versionRow R id a.id (current.version + 1) c metadata] }
        (toReference a (versionRow R id a.id (current.version + 1) c metadata))

variable {v : ArtifactVersion} {a : Artifact} {drawn : Drawn} {id : String}

theorem mem_latest : v ∈ T.latest id ↔ v ∈ T.versionsOf id := Js.mem_sort

theorem insertVersion_ok (ok : T.insertVersion v = .ok U) :
    (∀ w ∈ T.versions, w.id ≠ v.id) ∧ U = { T with versions := T.versions ++ [v] } := by
  unfold insertVersion at ok
  split at ok
  · cases ok
  rename_i unique
  split at ok
  · cases ok
  cases ok
  refine ⟨fun w mem same => unique ?_, rfl⟩
  exact any_eq_true.2 ⟨w, mem, by simp [same]⟩

theorem insertArtifact_ok (ok : T.insertArtifact a = .ok U) :
    (∀ b ∈ T.artifacts, b.id ≠ a.id) ∧ U = { T with artifacts := T.artifacts ++ [a] } := by
  unfold insertArtifact at ok
  split at ok
  · cases ok
  rename_i unique
  cases ok
  refine ⟨fun b mem same => unique ?_, rfl⟩
  exact any_eq_true.2 ⟨b, mem, by simp [same]⟩

theorem map_ok {α β : Type} {result : Except ArtifactError α} {f : α → β} {b : β} (ok : result.map f = .ok b) :
    ∃ a, result = .ok a ∧ f a = b := by
  cases result with
  | error e => cases ok
  | ok a => exact ⟨a, rfl, Except.ok.inj ok⟩

variable {input : CreateArtifactInput}

theorem existing_ok {classification : String}
    (ok : existing R T input classification a = .ok reference) : ∃ v,
      (T.latest a.id).find? (fun v => v.fingerprint = fingerprintArtifactContent R input.content) = some v ∧
      reference = toReference a v := by
  unfold existing at ok
  split at ok
  · cases ok
  split at ok
  · rename_i v found
    cases ok
    exact ⟨v, found, rfl⟩
  · cases ok

theorem createArtifact_wrote
    (ok : createArtifactInTransaction R input drawn T = .ok (U, reference)) : Wrote R T input.content U reference := by
  unfold createArtifactInTransaction at ok
  split at ok
  · cases ok
  split at ok
  · cases ok
  split at ok
  · rename_i a stored
    obtain ⟨r, found, same⟩ := map_ok ok
    obtain ⟨v, matching, rfl⟩ := existing_ok found
    cases same
    exact .found a v (mem_of_find?_eq_some stored) (mem_latest.1 (mem_of_find?_eq_some matching))
      (by simpa using find?_some matching)
  · simp only at ok
    split at ok
    · cases ok
    rename_i inserted
    obtain ⟨fresh, rfl⟩ := insertArtifact_ok inserted
    obtain ⟨V, written, same⟩ := map_ok ok
    obtain ⟨free, rfl⟩ := insertVersion_ok written
    cases same
    exact .opened _ _ _ fresh free

theorem ownedArtifact_ok {artifactId actorUserId : String} (ok : ownedArtifact T artifactId actorUserId = .ok a) :
    T.artifact artifactId = some a := by
  unfold ownedArtifact at ok
  split at ok
  · cases ok
  · split at ok
    · cases ok
      assumption
    · cases ok

section
variable {input : CreateArtifactVersionInput} (ok : createVersion R input drawn T = .ok (U, reference))
include ok

/-- What a successful `createVersion` has seen. -/
theorem createVersion_cases : ∃ a current, T.artifact input.artifactId = some a ∧
      (T.latest a.id).head? = some current ∧
      ((U = T ∧ reference = toReference a current ∧ current.fingerprint = fingerprintArtifactContent R input.content) ∨
        (current.version : Int) = input.expectedCurrentVersion ∧
        current.fingerprint ≠ fingerprintArtifactContent R input.content ∧
        (∀ w ∈ T.versions, w.id ≠ drawn.versionId) ∧
        U = { T with versions := T.versions ++
          [versionRow R drawn.versionId a.id (current.version + 1) input.content input.metadata] } ∧
        reference = toReference a (versionRow R drawn.versionId a.id (current.version + 1) input.content input.metadata)) := by
  unfold createVersion at ok
  simp only at ok
  split at ok
  · cases ok
  split at ok
  · cases ok
  rename_i a owned
  split at ok
  · cases ok
  rename_i current head
  refine ⟨a, current, ownedArtifact_ok owned, head, ?_⟩
  split at ok
  · split at ok
    · rename_i same
      cases ok
      exact .inl ⟨rfl, rfl, same⟩
    · cases ok
  · rename_i expected
    split at ok
    · rename_i same
      cases ok
      exact .inl ⟨rfl, rfl, same⟩
    · rename_i differs
      obtain ⟨V, written, same⟩ := map_ok ok
      obtain ⟨left, answered⟩ := Prod.mk.inj same
      obtain ⟨free, grown⟩ := insertVersion_ok written
      exact .inr ⟨not_not.1 expected, differs, free, left.symm.trans grown, answered.symm⟩

theorem createVersion_wrote : Wrote R T input.content U reference := by
  obtain ⟨a, current, stored, head, seen⟩ := createVersion_cases ok
  have mem := (Rows.mem_of_find stored).1
  rcases seen with ⟨rfl, rfl, same⟩ | ⟨-, differs, free, rfl, rfl⟩
  · exact .found a current mem (mem_latest.1 (mem_of_mem_head? head)) same
  · exact .extended a mem current head drawn.versionId input.metadata free differs

end

theorem answer_wrote {call : Call} {fails : Bool} (ok : T.answer R call drawn fails = .ok (U, reference)) :
    Wrote R T call.content U reference := by
  unfold answer at ok
  split at ok
  · cases ok
  cases call with
  | createArtifact input =>
    have ok : createArtifactInTransaction R input drawn T = .ok (U, reference) := ok
    exact createArtifact_wrote ok
  | createVersion input =>
    have ok : createVersion R input drawn T = .ok (U, reference) := ok
    exact createVersion_wrote ok

structure Histories (T : Tables) : Prop where
  artifacts : (T.artifacts.map Artifact.id).Nodup
  versions : (T.versions.map ArtifactVersion.id).Nodup
  foreign : ∀ v ∈ T.versions, ∃ a ∈ T.artifacts, a.id = v.artifactId
  started : ∀ a ∈ T.artifacts, T.versionsOf a.id ≠ []
  numbered : ∀ id, (T.versionsOf id).map ArtifactVersion.version = List.range' 1 (T.versionsOf id).length
  adjacent : ∀ id, (T.versionsOf id).IsChain fun u v => u.fingerprint ≠ v.fingerprint

theorem Histories.version_inj (h : Histories T) {u : ArtifactVersion} (hu : u ∈ T.versionsOf id)
    (hv : v ∈ T.versionsOf id) (same : u.version = v.version) : u = v := by
  have once : ((T.versionsOf id).map ArtifactVersion.version).Nodup := by
    rw [h.numbered]
    exact nodup_range'
  exact inj_on_of_nodup_map once hu hv same

/-- Ordered by number downwards, the newest row comes first. -/
theorem Histories.latest_eq (h : Histories T) (id : String) : T.latest id = (T.versionsOf id).reverse := by
  have byVersion := @Js.transCmp_key _ _ (fun a b : Nat => compare b a) _ ArtifactVersion.version
  have ascending : ((T.versionsOf id).map ArtifactVersion.version).Pairwise (· < ·) := by
    rw [h.numbered]
    exact pairwise_lt_range'
  rw [pairwise_map] at ascending
  have descending : (T.versionsOf id).reverse.Pairwise fun a b => (compare b.version a.version).isLE :=
    pairwise_reverse.2 (ascending.imp fun {a b} less => by simp [Nat.compare_eq_lt.2 less])
  have perm : (T.latest id).Perm (T.versionsOf id).reverse := (Js.sort_perm _ _).trans (reverse_perm _).symm
  refine perm.eq_of_pairwise (fun a b ha hb le ge => ?_) (Js.sort_pairwise (T.versionsOf id)) descending
  have tie : b.version = a.version :=
    compare_eq_iff_eq.1 (@Js.eq_of_isLE _ (fun a b : Nat => compare b a) _ a.version b.version le ge)
  exact h.version_inj (mem_latest.1 ha) (mem_reverse.1 hb) tie.symm

/-- The current version is the row stored last, and its number is the count. -/
theorem Histories.current (h : Histories T) {current : ArtifactVersion}
    (head : (T.latest id).head? = some current) :
    (T.versionsOf id).getLast? = some current ∧ current.version = (T.versionsOf id).length := by
  rw [h.latest_eq, head?_reverse] at head
  refine ⟨head, ?_⟩
  have last : ((T.versionsOf id).map ArtifactVersion.version).getLast? = some current.version := by
    rw [getLast?_map, head]
    rfl
  rw [h.numbered, getLast?_range'] at last
  split at last
  · cases last
  · rw [Option.some.injEq] at last
    omega

theorem versionsOf_append (grown : U.versions = T.versions ++ [v]) (id : String) :
    U.versionsOf id = T.versionsOf id ++ if v.artifactId = id then [v] else [] := by
  simp only [versionsOf, grown, filter_append]
  by_cases own : v.artifactId = id <;> simp [own]

/-- A new row that follows the last one of its artifact. -/
theorem Histories.append (h : Histories T) {v : ArtifactVersion} (grown : U.versions = T.versions ++ [v])
    (next : v.version = (T.versionsOf v.artifactId).length + 1)
    (differs : ∀ w ∈ (T.versionsOf v.artifactId).getLast?, w.fingerprint ≠ v.fingerprint) (id : String) :
    (U.versionsOf id).map ArtifactVersion.version = List.range' 1 (U.versionsOf id).length ∧
      (U.versionsOf id).IsChain fun u v => u.fingerprint ≠ v.fingerprint := by
  rw [versionsOf_append grown]
  split
  · rename_i here
    subst here
    constructor
    · rw [map_append, h.numbered, map_singleton, next, length_append, length_singleton, range'_concat]
      simp [Nat.add_comm]
    · refine (h.adjacent _).append (isChain_singleton _) fun w hw u hu => ?_
      cases hu
      exact differs w hw
  · rw [append_nil]
    exact ⟨h.numbered id, h.adjacent id⟩

theorem Wrote.histories (wrote : Wrote R T c U reference) (h : Histories T) : Histories U := by
  cases wrote with
  | found a v mem listed same => exact h
  | opened a id metadata fresh free =>
    have none : T.versionsOf a.id = [] := by
      refine filter_eq_nil_iff.2 fun v mem own => ?_
      obtain ⟨b, listed, same⟩ := h.foreign v mem
      exact fresh b listed (same.trans (of_decide_eq_true own))
    have each := @Histories.append T ⟨T.invocations, T.artifacts ++ [a], T.versions ++ [versionRow R id a.id 1 c metadata],
      T.accessGrants⟩ h (versionRow R id a.id 1 c metadata) rfl (by simp [versionRow, none]) (by simp [versionRow, none])
    refine ⟨Rows.nodup_append h.artifacts fresh, Rows.nodup_append h.versions free, fun v mem => ?_, fun b mem => ?_,
      fun id => (each id).1, fun id => (each id).2⟩
    · rcases mem_append.1 mem with old | new
      · obtain ⟨b, listed, same⟩ := h.foreign v old
        exact ⟨b, mem_append_left _ listed, same⟩
      · rw [mem_singleton.1 new]
        exact ⟨a, mem_append_right _ mem_cons_self, rfl⟩
    · rw [versionsOf_append rfl]
      rcases mem_append.1 mem with old | new
      · exact append_ne_nil_of_left_ne_nil (h.started b old) _
      · rw [mem_singleton.1 new]
        simp [versionRow]
  | extended a mem current head id metadata free differs =>
    obtain ⟨last, count⟩ := h.current head
    have each := @Histories.append T ⟨T.invocations, T.artifacts,
      T.versions ++ [versionRow R id a.id (current.version + 1) c metadata], T.accessGrants⟩ h
      (versionRow R id a.id (current.version + 1) c metadata) rfl (by simp [versionRow, count])
      (fun w hw => by
        simp only [versionRow, last] at hw
        cases hw
        exact differs)
    refine ⟨h.artifacts, Rows.nodup_append h.versions free, fun v mem' => ?_, fun b mem' => ?_,
      fun id => (each id).1, fun id => (each id).2⟩
    · rcases mem_append.1 mem' with old | new
      · exact h.foreign v old
      · rw [mem_singleton.1 new]
        exact ⟨a, mem, rfl⟩
    · rw [versionsOf_append rfl]
      exact append_ne_nil_of_left_ne_nil (h.started b mem') _

end Vimla.Artifacts
