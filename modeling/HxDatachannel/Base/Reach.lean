import Mathlib.Logic.Relation

/-!
# `Base.Reach` — reachability from roots in a directed graph

What a tracing collector keeps: the nodes that some root reaches along edges. Everything here is parametric in
the type of nodes.
-/

namespace Reach

variable {α : Type} {edge edge' : α → α → Prop} {root root' : α → Prop}

/-- Some root reaches `a`. -/
def Reachable (edge : α → α → Prop) (root : α → Prop) (a : α) : Prop :=
  ∃ r, root r ∧ Relation.ReflTransGen edge r a

theorem Reachable.of_root {a : α} (h : root a) : Reachable edge root a :=
  ⟨a, h, Relation.ReflTransGen.refl⟩

theorem Reachable.step {a b : α} (h : Reachable edge root a) (hab : edge a b) :
    Reachable edge root b := by
  obtain ⟨r, hr, hpath⟩ := h
  exact ⟨r, hr, hpath.tail hab⟩

/-- **The colouring rule.** A set that holds the roots and is closed under edges holds what is reachable. -/
theorem Reachable.colour {S : α → Prop} (hroot : ∀ a, root a → S a)
    (hedge : ∀ a b, S a → edge a b → S b) {a : α} (h : Reachable edge root a) : S a := by
  obtain ⟨r, hr, hpath⟩ := h
  induction hpath with
  | refl => exact hroot r hr
  | tail _ hab ih => exact hedge _ _ ih hab

/-- More roots reach more. -/
theorem Reachable.mono {a : α} (h : Reachable edge root a) (hroot : ∀ a, root a → root' a) :
    Reachable edge root' a :=
  h.colour (fun a ha => .of_root (hroot a ha)) fun _ _ hS hab => hS.step hab

end Reach
