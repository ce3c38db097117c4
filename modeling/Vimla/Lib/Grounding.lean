import Mathlib

/-!
# Grounded nodes of a graph

A node is grounded when all that it reaches is in order and lies on no cycle.
A search that fails at a node of its own path decides this step by step.
-/

namespace Grounding

open Relation

variable {α : Type} (R : α → α → Prop) (ok : α → Prop)

/-- Everything reached is in order, and none of it reaches itself again. -/
def Grounded (a : α) : Prop := ∀ b, ReflTransGen R a b → ok b ∧ ¬ TransGen R b b

/-- Grounded, and away from the nodes of a path. -/
def GroundedOff (path : List α) (a : α) : Prop :=
  ∀ b, ReflTransGen R a b → (ok b ∧ ¬ TransGen R b b) ∧ b ∉ path

variable {R ok} {path : List α} {a b : α}

theorem groundedOff_nil : GroundedOff R ok [] a ↔ Grounded R ok a := by
  simp [GroundedOff, Grounded]

/-- One step of the search. -/
theorem groundedOff_iff : GroundedOff R ok path a ↔
    a ∉ path ∧ ok a ∧ ∀ b, R a b → GroundedOff R ok (a :: path) b := by
  constructor
  · intro h
    obtain ⟨⟨fine, acyclic⟩, off⟩ := h a .refl
    refine ⟨off, fine, fun b edge c reach => ?_⟩
    obtain ⟨grounded, off'⟩ := h c (.head edge reach)
    refine ⟨grounded, fun mem => ?_⟩
    obtain rfl | mem := List.mem_cons.1 mem
    · exact acyclic (.head' edge reach)
    · exact off' mem
  · rintro ⟨off, fine, next⟩
    have acyclic : ¬ TransGen R a a := by
      intro cycle
      obtain ⟨b, edge, reach⟩ := TransGen.head'_iff.1 cycle
      exact (next b edge a reach).2 List.mem_cons_self
    intro c reach
    obtain rfl | ⟨b, edge, reach⟩ := ReflTransGen.cases_head reach
    · exact ⟨⟨fine, acyclic⟩, off⟩
    · obtain ⟨grounded, off'⟩ := next b edge c reach
      exact ⟨grounded, fun mem => off' (List.mem_cons_of_mem _ mem)⟩

end Grounding
