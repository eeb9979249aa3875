/-
Numbered parties: a system whose state has a list of parties (calls, threads,
tasks), each known by its place in the list. A step of the system moves one party
on, or lets a new one in at the end; no party leaves the list, so a number stays
a name.
-/
import Mathlib.Algebra.BigOperators.Group.List.Basic
import Mathlib.Algebra.GroupWithZero.Nat
import Mathlib.Tactic.Basic

set_option autoImplicit false

namespace Parties

variable {α : Type*}

/-- Party `i` takes a step of its own; `none` if it cannot, or there is no such
party. -/
def move (l : List α) (i : ℕ) (f : α → Option α) : Option (List α) :=
  match l[i]? with
  | some a => (f a).map fun a' => l.set i a'
  | none => none

theorem move_eq_some {l l' : List α} {i : ℕ} {f : α → Option α} :
    move l i f = some l' ↔ ∃ a a', l[i]? = some a ∧ f a = some a' ∧ l' = l.set i a' := by
  unfold move
  cases h : l[i]? with
  | none => simp
  | some a =>
      simp only [Option.map_eq_some_iff, Option.some.injEq]
      constructor
      · rintro ⟨a', hf, rfl⟩
        exact ⟨a, a', rfl, hf, rfl⟩
      · rintro ⟨a, a', rfl, hf, rfl⟩
        exact ⟨a', hf, rfl⟩

/-- After a move, party `j` is the one that moved or is as it was. -/
theorem getElem?_set_cases {l : List α} {i j : ℕ} {a b : α} (h : (l.set i a)[j]? = some b) :
    j = i ∧ b = a ∨ j ≠ i ∧ l[j]? = some b := by
  by_cases hij : j = i
  · subst hij
    rw [List.getElem?_set_self'] at h
    obtain ⟨-, -, rfl⟩ := Option.map_eq_some_iff.1 h
    exact .inl ⟨rfl, rfl⟩
  · rw [List.getElem?_set_ne (Ne.symm hij)] at h
    exact .inr ⟨hij, h⟩

theorem getElem?_set_of_some {l : List α} {i : ℕ} {a b : α} (h : l[i]? = some a) :
    (l.set i b)[i]? = some b := by
  rw [List.getElem?_set_self', h]
  rfl

/-- After a party came in, party `j` is that one or is as it was. -/
theorem getElem?_concat_cases {l : List α} {j : ℕ} {a b : α} (h : (l ++ [a])[j]? = some b) :
    j = l.length ∧ b = a ∨ l[j]? = some b := by
  rcases Nat.lt_trichotomy j l.length with hj | rfl | hj
  · rw [List.getElem?_append_left hj] at h
    exact .inr h
  · rw [List.getElem?_concat_length, Option.some.injEq] at h
    exact .inl ⟨rfl, h.symm⟩
  · rw [List.getElem?_eq_none (by simp; omega)] at h
    cases h

theorem getElem?_concat_of_some {l : List α} {j : ℕ} {a b : α} (h : l[j]? = some b) :
    (l ++ [a])[j]? = some b := by
  obtain ⟨hj, -⟩ := List.getElem?_eq_some_iff.1 h
  rw [List.getElem?_append_left hj, h]

/-! ## What holds of all parties -/

/-- Replacing one entry moves a sum by the difference of the two entries. -/
theorem sum_map_set (f : α → ℕ) {l : List α} {i : ℕ} {x : α} (y : α)
    (h : l[i]? = some x) : ((l.set i y).map f).sum + f x = (l.map f).sum + f y := by
  induction l generalizing i with
  | nil => simp at h
  | cons z l ih =>
      cases i with
      | zero =>
          simp only [List.getElem?_cons_zero, Option.some.injEq] at h
          subst h
          simp only [List.set_cons_zero, List.map_cons, List.sum_cons]
          omega
      | succ i =>
          have hi := ih (i := i) (by simpa using h)
          simp only [List.set_cons_succ, List.map_cons, List.sum_cons]
          omega

theorem forall_mem_set {P : α → Prop} {l : List α} {i : ℕ} {y : α}
    (hl : ∀ x ∈ l, P x) (hy : P y) : ∀ x ∈ l.set i y, P x := by
  intro x hx
  rcases List.mem_or_eq_of_mem_set hx with hx | rfl
  · exact hl x hx
  · exact hy

end Parties
