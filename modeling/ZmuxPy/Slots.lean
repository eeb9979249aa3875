/-
Slots: a list of cells, each of which holds one thing or nothing.

The things are moved, never copied: `clear` empties a slot, and what the slots
hold together (`List.reduceOption`) is then one thing less, up to order. A
system that only moves things out of its slots, and puts each in one other
place, has each thing in one place.
-/
import Mathlib.Data.List.Perm.Subperm
import Mathlib.Data.List.ReduceOption
import Mathlib.Tactic.Basic

set_option autoImplicit false

namespace Slots

open List

variable {α : Type*}

/-- What slot `i` holds; a slot that does not exist holds nothing. -/
def peek (s : List (Option α)) (i : ℕ) : Option α := s[i]?.join

/-- Empties slot `i`. The others keep their places, and with them their numbers. -/
def clear (s : List (Option α)) (i : ℕ) : List (Option α) := s.set i none

@[simp] theorem peek_cons_zero (o : Option α) (s : List (Option α)) : peek (o :: s) 0 = o := by
  cases o <;> rfl

@[simp] theorem peek_cons_succ (o : Option α) (s : List (Option α)) (i : ℕ) :
    peek (o :: s) (i + 1) = peek s i := rfl

/-- Clearing a slot takes out what it held, and nothing else. -/
theorem reduceOption_perm {s : List (Option α)} {i : ℕ} {a : α} (h : peek s i = some a) :
    s.reduceOption ~ a :: (clear s i).reduceOption := by
  induction s generalizing i with
  | nil => cases h
  | cons o s ih =>
      cases i with
      | zero =>
          rw [peek_cons_zero] at h
          subst h
          simp [clear]
      | succ i =>
          rw [peek_cons_succ] at h
          have htail := ih h
          cases o with
          | none => simpa [clear] using htail
          | some b =>
              simp only [clear, set_cons_succ, reduceOption_cons_of_some]
              exact (htail.cons b).trans (Perm.swap a b _)

/-- An emptied slot holds nothing. -/
theorem peek_clear_self (s : List (Option α)) (i : ℕ) : peek (clear s i) i = none := by
  induction s generalizing i with
  | nil => rfl
  | cons o s ih =>
      cases i with
      | zero => rfl
      | succ i => exact ih i

/-- Emptying a slot leaves the others as they were. -/
theorem peek_clear_ne (s : List (Option α)) {i j : ℕ} (h : i ≠ j) :
    peek (clear s i) j = peek s j := by
  rw [peek, clear, List.getElem?_set_ne h, peek]

/-- New slots come behind the old ones and do not disturb them. -/
theorem peek_append_left (s t : List (Option α)) {i : ℕ} (h : i < s.length) :
    peek (s ++ t) i = peek s i := by
  rw [peek, List.getElem?_append_left h, peek]

/-- The newest slot has the number of slots there were before it. -/
theorem peek_concat_length (s : List (Option α)) (o : Option α) :
    peek (s ++ [o]) s.length = o := by
  rw [peek, List.getElem?_concat_length, Option.join_some]

/-- An emptied slot still counts. -/
theorem length_clear (s : List (Option α)) (i : ℕ) : (clear s i).length = s.length :=
  List.length_set

/-- Clearing a slot takes one away of what it held. -/
theorem count_clear [DecidableEq α] {s : List (Option α)} {i : ℕ} {a : α} (h : peek s i = some a)
    (b : α) : s.count (some b) = (clear s i).count (some b) + if a = b then 1 else 0 := by
  induction s generalizing i with
  | nil => cases h
  | cons o s ih =>
      cases i with
      | zero =>
          rw [peek_cons_zero] at h
          subst h
          simp [clear, count_cons]
      | succ i =>
          rw [peek_cons_succ] at h
          have htail := ih h
          simp only [clear, set_cons_succ, count_cons] at htail ⊢
          omega

/-- Emptying a slot that held something is a change. -/
theorem clear_ne {s : List (Option α)} {i : ℕ} {a : α} (h : peek s i = some a) :
    clear s i ≠ s := by
  intro heq
  have hnone := peek_clear_self s i
  rw [heq, h] at hnone
  cases hnone

/-- A part of a collection without repetitions has none, in whatever order it comes. -/
theorem nodup_of_subperm {l₁ l₂ : List α} (h : l₁ <+~ l₂) (hd : l₂.Nodup) : l₁.Nodup := by
  obtain ⟨l, hp, hs⟩ := h
  exact hp.nodup_iff.1 (hd.sublist hs)

end Slots
