/-
What the modules on the Rust side of the binding take from pyo3: Python's
exceptions as `PyErr`, Python values as far as arguments and attributes go, and
the `extract` of the Rust types.

Floats are a parameter `F`: nothing here computes with them. What is used of
them is a `Float`, the conversion of an `int`, which fails for one that is too
large.
-/
import Mathlib.Algebra.Group.Int.Defs
import Mathlib.Data.Int.Notation
import Mathlib.Data.Nat.Notation
import Mathlib.Tactic.Basic

set_option autoImplicit false

namespace Pyo3

inductive PyErr where
  | value_error (msg : String)
  | runtime_error (msg : String)
  | type_error
  | attribute_error
  | overflow_error
  | other
  deriving DecidableEq, Repr

abbrev PyResult := Except PyErr

@[simp] theorem ok_bind {α β : Type} (a : α) (f : α → PyResult β) :
    ((.ok a : PyResult α) >>= f) = f a := rfl

/-- A `?` that let the function return passed. -/
theorem bind_eq_ok {α β : Type} {x : PyResult α} {f : α → PyResult β} {b : β}
    (h : x >>= f = .ok b) : ∃ a, x = .ok a ∧ f a = .ok b := by
  cases x with
  | ok a => exact ⟨a, rfl, h⟩
  | error e => cases h

/-- A Python value. A `str` with lone surrogates has no Rust string and counts as
`other`. -/
inductive PyVal (F : Type) where
  | none
  | bool (b : Bool)
  | int (n : ℤ)
  | float (x : F)
  | str (s : String)
  | other
  deriving DecidableEq, Repr

/-- Python's `float(n)`; `none` is an `OverflowError`. -/
structure Floats (F : Type) where
  of_int : ℤ → Option F

variable {F : Type}

/-! ## `extract` -/

/-- A signed integer of `w + 1` bits. A `bool` is an `int`. -/
def extract_int (w : ℕ) : PyVal F → PyResult ℤ
  | .int n => if -2 ^ w ≤ n ∧ n < 2 ^ w then .ok n else .error .overflow_error
  | .bool b => .ok b.toInt
  | _ => .error .type_error

/-- `extract::<i128>()`. -/
def extract_i128 : PyVal F → PyResult ℤ := extract_int 127

/-- `extract::<i64>()`. -/
def extract_i64 : PyVal F → PyResult ℤ := extract_int 63

theorem extract_i128_int {n : ℤ} (h : -2 ^ 127 ≤ n ∧ n < 2 ^ 127) :
    extract_i128 (.int n : PyVal F) = .ok n := by
  rw [extract_i128, extract_int, if_pos h]

/-- `extract::<usize>()`, of 64 bits. -/
def extract_usize : PyVal F → PyResult ℕ
  | .int n => if 0 ≤ n ∧ n < 2 ^ 64 then .ok n.toNat else .error .overflow_error
  | .bool b => .ok b.toNat
  | _ => .error .type_error

/-- `extract::<f64>()`. -/
def extract_f64 (fl : Floats F) : PyVal F → PyResult F
  | .float x => .ok x
  | .int n => (fl.of_int n).elim (.error .overflow_error) .ok
  | .bool b => (fl.of_int b.toInt).elim (.error .overflow_error) .ok
  | _ => .error .type_error

def extract_bool : PyVal F → PyResult Bool
  | .bool b => .ok b
  | _ => .error .type_error

def extract_string : PyVal F → PyResult String
  | .str s => .ok s
  | _ => .error .type_error

/-- `extract::<Option<T>>()`: `None`, or a `T`. -/
def extract_option {α : Type} (extract : PyVal F → PyResult α) : PyVal F → PyResult (Option α)
  | .none => .ok none
  | v => (extract v).map some

/-- An optional value as Python has it. -/
def into_py {α : Type} (f : α → PyVal F) : Option α → PyVal F
  | some a => f a
  | none => .none

/-- What a value extracts to, an optional one does. -/
theorem extract_option_into_py {α : Type} {extract : PyVal F → PyResult α} {f : α → PyVal F}
    (h : ∀ a, extract (f a) = .ok a) (hne : ∀ a, f a ≠ .none) (o : Option α) :
    extract_option extract (into_py f o) = .ok o := by
  cases o with
  | none => rfl
  | some a =>
      have hcase : extract_option extract (f a) = (extract (f a)).map some := by
        unfold extract_option
        split
        · rename_i hnone
          exact absurd hnone (hne a)
        · rfl
      rw [into_py, hcase, h a]
      rfl

end Pyo3
