/-
Ownership: an object lives while it is a root, or while something that lives owns
it. This is what reference counting implements, as long as no unreachable cycle
has to be found.
-/
import Mathlib.Tactic.Basic

set_option autoImplicit false

namespace Ownership

variable {N : Type*}

inductive Alive (root : N → Prop) (owns : N → N → Prop) : N → Prop where
  | root {n : N} (h : root n) : Alive root owns n
  | owned {m n : N} (hm : Alive root owns m) (h : owns m n) : Alive root owns n

variable {root : N → Prop} {owns : N → N → Prop}

/-- An object that is no root lives by its owners. -/
theorem alive_iff_of_not_root {n : N} (hn : ¬ root n) :
    Alive root owns n ↔ ∃ m, Alive root owns m ∧ owns m n := by
  constructor
  · rintro (h | ⟨hm, h⟩)
    · exact absurd h hn
    · exact ⟨_, hm, h⟩
  · rintro ⟨m, hm, h⟩
    exact .owned hm h

/-- One that nothing owns is a root. -/
theorem alive_iff_of_not_owned {n : N} (hn : ∀ m, ¬ owns m n) : Alive root owns n ↔ root n := by
  constructor
  · rintro (h | ⟨hm, h⟩)
    · exact h
    · exact absurd h (hn _)
  · exact .root

end Ownership
