/-
Mixing steps on machine words that lose nothing.

A finaliser of a pseudo-random generator is a chain of two kinds of steps: a word
is xored with itself shifted to the right, and it is multiplied by a constant. Both
are invertible, the first for every shift but 0, the second for every odd constant:
the high bits of a word survive an xor-shift as they are, and the lower ones are read
off from the top down; and an odd number has an inverse modulo a power of two.

The words have any width. The last section is about the 64 bits of `UInt64`.
-/
import Mathlib.Algebra.Ring.Parity
import Mathlib.Data.Nat.ModEq
import Mathlib.Data.Nat.Prime.Basic
import Mathlib.Data.Set.Function
import Mathlib.Tactic.Basic

set_option autoImplicit false

namespace WordMixing

variable {w : ℕ}

/-! ## Steps -/

/-- A word xored with itself, shifted to the right by `k`. -/
def xor_shift (k : ℕ) (x : BitVec w) : BitVec w := x ^^^ (x >>> k)

theorem getLsbD_xor_shift (k : ℕ) (x : BitVec w) (i : ℕ) :
    (xor_shift k x).getLsbD i = (x.getLsbD i ^^ x.getLsbD (k + i)) := by
  rw [xor_shift, BitVec.getLsbD_xor, BitVec.getLsbD_ushiftRight]

/-- **An xor-shift loses nothing.** Bit `i` comes back from bit `k + i`, so the bits are
recovered from the top down. -/
theorem xor_shift_injective {k : ℕ} (hk : 0 < k) :
    Function.Injective (xor_shift k : BitVec w → BitVec w) := by
  intro x y h
  -- induction on how far from the top the bit is
  have hbits : ∀ n i, w ≤ i + n → x.getLsbD i = y.getLsbD i := by
    intro n
    induction n with
    | zero =>
        intro i hi
        rw [BitVec.getLsbD_of_ge x i (by omega), BitVec.getLsbD_of_ge y i (by omega)]
    | succ n ih =>
        intro i hi
        have hbit := congrArg (BitVec.getLsbD · i) h
        simp only [getLsbD_xor_shift] at hbit
        rw [ih (k + i) (by omega)] at hbit
        exact Bool.xor_left_inj.1 hbit
  exact BitVec.eq_of_getLsbD_eq fun i _ => hbits w i (by omega)

/-- **Multiplication by an odd word loses nothing.** -/
theorem mul_odd_injective {c : BitVec w} (hc : Odd c.toNat) :
    Function.Injective (fun x : BitVec w => x * c) := by
  intro x y h
  have hgcd : (2 ^ w).gcd c.toNat = 1 := Nat.Coprime.pow_left w (Nat.coprime_two_left.2 hc)
  have hmod : x.toNat * c.toNat ≡ y.toNat * c.toNat [MOD 2 ^ w] := by
    have hnat := congrArg BitVec.toNat h
    rwa [BitVec.toNat_mul, BitVec.toNat_mul] at hnat
  have hxy := Nat.ModEq.cancel_right_of_coprime hgcd hmod
  apply BitVec.eq_of_toNat_eq
  rwa [Nat.ModEq, Nat.mod_eq_of_lt x.isLt, Nat.mod_eq_of_lt y.isLt] at hxy

/-! ## Sequences -/

/-- The first `2 ^ w` multiples of an odd word are different. -/
theorem multiples_injOn {c : BitVec w} (hc : Odd c.toNat) :
    Set.InjOn (fun i : ℕ => BitVec.ofNat w i * c) {i | i < 2 ^ w} := by
  intro i hi j hj h
  have hij := congrArg BitVec.toNat (mul_odd_injective hc h)
  rwa [BitVec.toNat_ofNat, BitVec.toNat_ofNat, Nat.mod_eq_of_lt hi, Nat.mod_eq_of_lt hj] at hij

/-! ## 64-bit words -/

theorem u64_xor_shift_injective {k : UInt64} (hk : 0 < k.toNat % 64) :
    Function.Injective (fun x : UInt64 => x ^^^ (x >>> k)) := by
  intro x y h
  have hbits := congrArg UInt64.toBitVec h
  simp only [UInt64.toBitVec_xor, UInt64.toBitVec_shiftRight] at hbits
  exact UInt64.toBitVec_inj.1 (xor_shift_injective hk hbits)

theorem u64_mul_odd_injective {c : UInt64} (hc : Odd c.toNat) :
    Function.Injective (fun x : UInt64 => x * c) := by
  intro x y h
  have hbits := congrArg UInt64.toBitVec h
  simp only [UInt64.toBitVec_mul] at hbits
  exact UInt64.toBitVec_inj.1 (mul_odd_injective hc hbits)

theorem u64_multiples_injOn {c : UInt64} (hc : Odd c.toNat) :
    Set.InjOn (fun i : ℕ => UInt64.ofNat i * c) {i | i < 2 ^ 64} := by
  intro i hi j hj h
  exact multiples_injOn hc hi hj (congrArg UInt64.toBitVec h)

end WordMixing
