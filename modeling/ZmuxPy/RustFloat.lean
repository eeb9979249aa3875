/-
Floats and durations as Rust has them, with exact numbers.

A float is a rational, an infinity or not a number. Only the conversion of an integer rounds,
so this is for code that compares floats and converts them, and not for code that computes
with them.
A conversion that panics is a partial function, and its panic is `none`.
-/
import Mathlib.Algebra.Order.Field.Rat
import Mathlib.Data.Rat.Floor
import Mathlib.Tactic.NormNum

set_option autoImplicit false

namespace RustFloat

/-! ## Floats -/

inductive F64 where
  | finite (q : ℚ)
  | infinity (negative : Bool)
  | nan
  deriving DecidableEq, Repr

namespace F64

def is_finite : F64 → Bool
  | .finite _ => true
  | _ => false

/-- `x < y`: never with a NaN. -/
def lt : F64 → F64 → Bool
  | .finite p, .finite q => p < q
  | .infinity true, .finite _ | .infinity true, .infinity false => true
  | .finite _, .infinity false => true
  | _, _ => false

/-- `x <= y`: never with a NaN. -/
def le : F64 → F64 → Bool
  | .nan, _ | _, .nan => false
  | x, y => !lt y x

/-- `x.clamp(lo, hi)`. It panics where the bounds are not in order. -/
def clamp (x lo hi : F64) : Option F64 :=
  if lo.le hi then
    let x := if x.lt lo then lo else x
    some (if hi.lt x then hi else x)
  else none

/-- `x as u64`: towards zero, and saturating. -/
def as_u64 : F64 → UInt64
  | .finite q => UInt64.ofNat (min q.floor.toNat (2 ^ 64 - 1))
  | .infinity false => UInt64.ofNat (2 ^ 64 - 1)
  | .infinity true | .nan => 0

/-- The number nearest to `n` that has a significand of 53 bits; between two of them, the one
with the even significand. -/
def round_nat (n : ℕ) : ℕ :=
  -- the value of the last bit kept
  let unit := 2 ^ (n.log2 - 52)
  let kept := n / unit
  let lost := n % unit
  if unit < 2 * lost ∨ unit = 2 * lost ∧ kept % 2 = 1 then (kept + 1) * unit else kept * unit

/-- An integer as a float. The check for numbers beyond the floats is made after rounding. -/
def of_int (n : ℤ) : Option F64 :=
  if round_nat n.natAbs < 2 ^ 1024 then some (.finite (n.sign * round_nat n.natAbs)) else none

-- ties go to the even significand, down and up
example : round_nat (2 ^ 53 + 1) = 2 ^ 53 ∧ round_nat (2 ^ 53 + 3) = 2 ^ 53 + 4 := by decide

/-- Bounds in order have no panic in them. -/
theorem isSome_clamp {lo hi : F64} (h : lo.le hi = true) (x : F64) : (x.clamp lo hi).isSome := by
  rw [clamp, if_pos h]
  rfl

/-- The guard for finite numbers that are not negative: what it keeps out, -/
theorem guard_eq_true_iff {x : F64} :
    (!x.is_finite || x.lt (.finite 0)) = true ↔ ∀ q, x = .finite q → q < 0 := by
  cases x <;> simp [is_finite, lt]

/-- and what it lets pass. -/
theorem exists_finite_of_guard {x : F64} (h : (!x.is_finite || x.lt (.finite 0)) = false) :
    ∃ q, x = .finite q ∧ 0 ≤ q := by
  cases x with
  | finite q =>
      refine ⟨q, rfl, ?_⟩
      simpa [is_finite, lt] using h
  | infinity _ | nan => cases h

end F64

/-! ## Durations -/

/-- `Duration`: seconds that fit 64 bits. -/
structure Duration where
  secs : ℚ
  nonneg : 0 ≤ secs
  fits : secs < 2 ^ 64
  deriving DecidableEq, Repr

/-- `Duration::from_secs_f64`. -/
def Duration.from_secs_f64 : F64 → Option Duration
  | .finite q => if h : 0 ≤ q ∧ q < 2 ^ 64 then some ⟨q, h.1, h.2⟩ else none
  | _ => none

/-- `Duration::as_secs_f64`. -/
def Duration.as_secs_f64 (d : Duration) : F64 := .finite d.secs

/-- A number that is not negative converts exactly if it fits. -/
theorem Duration.from_secs_f64_eq_none_iff {q : ℚ} (hq : 0 ≤ q) :
    Duration.from_secs_f64 (.finite q) = none ↔ 2 ^ 64 ≤ q := by
  by_cases h : q < 2 ^ 64
  · simp [Duration.from_secs_f64, hq, h]
  · simp [Duration.from_secs_f64, h, not_lt.1 h]

end RustFloat
