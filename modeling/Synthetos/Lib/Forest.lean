import Mathlib.Logic.Relation

/-!
# Forests

A link leads from a parent to a child, and no child has two parents.  The tree of a node is all
that hangs together with it; it is what hangs below its root.
-/

namespace Synthetos.Lib.Forest

open Relation

variable {α : Type*} {link : α → α → Prop} {root root' a b : α}

/-- A node without a parent, above `a`. -/
def IsRoot (link : α → α → Prop) (root a : α) : Prop :=
  ReflTransGen link root a ∧ ∀ p, ¬ link p root

/-- Joined by links, followed in either direction. -/
def SameTree (link : α → α → Prop) : α → α → Prop := EqvGen link

def OneParent (link : α → α → Prop) : Prop := ∀ p q a, link p a → link q a → p = q

theorem isRoot_child (hone : OneParent link) (hab : link a b) :
    IsRoot link root b ↔ IsRoot link root a := by
  refine ⟨fun ⟨hpath, htop⟩ => ⟨?_, htop⟩, fun ⟨hpath, htop⟩ => ⟨hpath.tail hab, htop⟩⟩
  rcases ReflTransGen.cases_tail hpath with rfl | ⟨p, hp, hlink⟩
  · exact absurd hab (htop a)
  · obtain rfl := hone p a b hlink hab
    exact hp

theorem isRoot_unique (hone : OneParent link) (h : IsRoot link root a)
    (h' : IsRoot link root' a) : root = root' := by
  obtain ⟨hpath, htop⟩ := h
  induction hpath with
  | refl =>
    rcases ReflTransGen.cases_tail h'.1 with rfl | ⟨p, -, hlink⟩
    · rfl
    · exact absurd hlink (htop p)
  | tail _ hlink ih => exact ih ((isRoot_child hone hlink).mp h')

theorem isRoot_congr (hone : OneParent link) (h : SameTree link a b) :
    IsRoot link root a ↔ IsRoot link root b := by
  induction h with
  | rel a b hab => exact (isRoot_child hone hab).symm
  | refl => exact Iff.rfl
  | symm _ _ _ ih => exact ih.symm
  | trans _ _ _ _ _ ih ih' => exact ih.trans ih'

theorem sameTree_of_path (h : ReflTransGen link a b) : SameTree link a b := by
  induction h with
  | refl => exact .refl a
  | tail _ hlink ih => exact .trans _ _ _ ih (.rel _ _ hlink)

/-- The tree of a node is what lies below its root. -/
theorem sameTree_iff (hone : OneParent link) (h : IsRoot link root a) : SameTree link a b ↔
    ReflTransGen link root b := by
  refine ⟨fun htree => ((isRoot_congr hone htree).mp h).1, fun hpath => ?_⟩
  exact .trans _ _ _ (.symm _ _ (sameTree_of_path h.1)) (sameTree_of_path hpath)

end Synthetos.Lib.Forest
