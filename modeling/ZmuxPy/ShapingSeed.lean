/-
The seeded random source of `set_shaper`: `SplitMix`, `fold` and `options` of
`src/shaping.rs`.

A seed is folded into a state, eight bytes at a time, and the source of every shaper
starts from it. The generator advances its state by an odd constant and returns the
state after two rounds of xor-shift and multiplication and a last xor-shift. Each of
these is one of the steps of the library that lose nothing, at the shift and the
constant the code has; the constants appear in the proofs only there.

`Options::default()` is a parameter of `options`.
-/
import Mathlib.Data.FinEnum
import ZmuxPy.Asyncio
import ZmuxPy.ByteWords
import ZmuxPy.Pyo3
import ZmuxPy.WordMixing

set_option autoImplicit false

namespace ZmuxPy.ShapingSeed

open Asyncio ByteWords Pyo3 WordMixing

/-! ## The generator -/

/-- The generator: one word. -/
structure SplitMix where
  state : UInt64
  deriving DecidableEq, Repr

/-- `SplitMix::next_u64`: the value, and the generator afterwards. -/
def next_u64 (m : SplitMix) : UInt64 × SplitMix :=
  let state := m.state + 0x9e3779b97f4a7c15
  let z := state
  let z := (z ^^^ (z >>> 30)) * 0xbf58476d1ce4e5b9
  let z := (z ^^^ (z >>> 27)) * 0x94d049bb133111eb
  (z ^^^ (z >>> 31), ⟨state⟩)

/-- The first `n` values. -/
def draws (m : SplitMix) : ℕ → List UInt64
  | 0 => []
  | n + 1 =>
    let (x, m) := next_u64 m
    x :: draws m n

/-- `u64::from_le_bytes`. -/
def from_le_bytes (b : Bytes) : UInt64 := le_word b

/-- One chunk of the seed: the generator and the state folded so far. -/
def absorb : SplitMix × UInt64 → Bytes → SplitMix × UInt64
  | (m, s), c =>
    let b := pad 8 c
    let (x, m) := next_u64 ⟨m.state ^^^ from_le_bytes b⟩
    (m, s ^^^ x)

/-- `fold(seed)`. -/
def fold (seed : Bytes) : UInt64 :=
  let (s, m) := next_u64 ⟨UInt64.ofNat seed.length⟩
  ((chunks 8 seed).foldl absorb (m, s)).2

/-! ## The options -/

structure SizeLimits where
  max_bytes : Option ℕ
  max_machines : Option ℕ
  max_states : Option ℕ
  max_actions : Option ℕ
  max_transitions : Option ℕ
  max_points : Option ℕ
  deriving DecidableEq, Repr

structure Options where
  limits : SizeLimits
  /-- Makes the source of an executor; absent, the operating system's generator is
  used. -/
  source : Option (Unit → SplitMix)

variable {F : Type}

/-- A Python object, by its attributes. -/
abbrev Attrs (F : Type) := String → PyResult (PyVal F)

/-- `attr::<Option<usize>>(o, name)`. -/
def attr (o : Attrs F) (name : String) : PyResult (Option ℕ) := do
  extract_option extract_usize (← o name)

/-- `size_limits(o)`. -/
def size_limits (o : Attrs F) : PyResult SizeLimits := do
  let max_bytes ← attr o "max_bytes"
  let max_machines ← attr o "max_machines"
  let max_states ← attr o "max_states"
  let max_actions ← attr o "max_actions"
  let max_transitions ← attr o "max_transitions"
  let max_points ← attr o "max_points"
  .ok { max_bytes, max_machines, max_states, max_actions, max_transitions, max_points }

/-- The seed's part of `options`. -/
def with_seed (o : Options) : Option Bytes → Options
  | some seed =>
    let s := fold seed
    { o with source := some fun _ => ⟨s⟩ }
  | none => o

/-- `options(limits, seed)`. -/
def options (default : Options) (limits : Option (Attrs F)) (seed : Option Bytes) :
    PyResult Options := do
  match limits with
  | some l => .ok (with_seed { default with limits := ← size_limits l } seed)
  | none => .ok (with_seed default seed)

/-! ## One draw -/

theorem next_u64_state (m : SplitMix) : (next_u64 m).2 = ⟨m.state + 0x9e3779b97f4a7c15⟩ := by
  rw [next_u64]

/-- **Different states give different values.** -/
theorem next_u64_injective : Function.Injective fun m : SplitMix => (next_u64 m).1 := by
  intro m n h
  -- the chain of `next_u64`, undone from its end
  have h := u64_xor_shift_injective (k := 31) (by decide) h
  have h := u64_mul_odd_injective (c := 0x94d049bb133111eb) (by decide) h
  have h := u64_xor_shift_injective (k := 27) (by decide) h
  have h := u64_mul_odd_injective (c := 0xbf58476d1ce4e5b9) (by decide) h
  have h := u64_xor_shift_injective (k := 30) (by decide) h
  have h := (UInt64.add_left_inj _).1 h
  cases m
  cases n
  rw [SplitMix.mk.injEq]
  exact h

/-- Each draw is a bijection of the state, so no two states draw the same. -/
theorem next_u64_bijective : Function.Bijective fun m : SplitMix => (next_u64 m).1 := by
  -- on words the map is injective, and so onto
  have hword : Function.Injective fun s : UInt64 => (next_u64 ⟨s⟩).1 := by
    intro s t h
    exact congrArg SplitMix.state (next_u64_injective h)
  refine ⟨next_u64_injective, fun x => ?_⟩
  obtain ⟨s, hs⟩ := (Finite.injective_iff_bijective.1 hword).2 x
  exact ⟨⟨s⟩, hs⟩

/-! ## Sequences of draws -/

/-- The generator `i` draws on. -/
def SplitMix.skip (m : SplitMix) (i : ℕ) : SplitMix :=
  ⟨m.state + UInt64.ofNat i * 0x9e3779b97f4a7c15⟩

theorem skip_zero (m : SplitMix) : m.skip 0 = m := by
  cases m
  simp [SplitMix.skip]

theorem skip_next (m : SplitMix) (i : ℕ) : (next_u64 m).2.skip i = m.skip (i + 1) := by
  rw [next_u64_state, SplitMix.skip, SplitMix.skip, SplitMix.mk.injEq, UInt64.ofNat_add,
    UInt64.add_mul, UInt64.add_assoc, UInt64.add_comm (UInt64.ofNat i * _)]
  rfl

/-- The draws are those of the states reached by whole steps. -/
theorem draws_eq_map (m : SplitMix) (n : ℕ) :
    draws m n = (List.range n).map fun i => (next_u64 (m.skip i)).1 := by
  induction n generalizing m with
  | zero => rfl
  | succ n ih =>
      have hstep : draws m (n + 1) = (next_u64 m).1 :: draws (next_u64 m).2 n := rfl
      rw [hstep, ih, List.range_succ_eq_map, List.map_cons, List.map_map, skip_zero]
      simp only [skip_next, Function.comp_def, Nat.succ_eq_add_one]

/-- The states of a whole period are different. -/
theorem skip_injOn (m : SplitMix) : Set.InjOn m.skip {i | i < 2 ^ 64} := by
  intro i hi j hj h
  have hstate := congrArg SplitMix.state h
  exact u64_multiples_injOn (by decide) hi hj ((UInt64.add_right_inj _).1 hstate)

/-- No draw comes twice in a period. -/
theorem draws_nodup (m : SplitMix) {n : ℕ} (hn : n ≤ 2 ^ 64) : (draws m n).Nodup := by
  rw [draws_eq_map]
  refine List.Nodup.map_on ?_ List.nodup_range
  intro i hi j hj h
  rw [List.mem_range] at hi hj
  exact skip_injOn m (Nat.lt_of_lt_of_le hi hn) (Nat.lt_of_lt_of_le hj hn) (next_u64_injective h)

/-! ## Seeds -/

/-- One state absorbs different chunks of one length into different ones. -/
theorem absorb_inj (s : SplitMix × UInt64) {a b : Bytes} (hlen : a.length = b.length)
    (ha : a.length ≤ 8) (h : (absorb s a).2 = (absorb s b).2) : a = b := by
  obtain ⟨m, s⟩ := s
  have hnext := next_u64_injective ((UInt64.xor_right_inj s).1 h)
  rw [SplitMix.mk.injEq, UInt64.xor_right_inj] at hnext
  exact le_word_pad_inj hlen ha hnext

/-- Two seeds that differ in the last word only do not collide. -/
theorem fold_ne {s t : Bytes} (hlen : s.length = t.length)
    (hinit : (chunks 8 s).dropLast = (chunks 8 t).dropLast) (hne : s ≠ t) : fold s ≠ fold t := by
  obtain ⟨init, a, b, ha, hb, hab, hdiff⟩ := chunks_eq_append_of_dropLast_eq hlen hinit hne
  have hle : a.length ≤ 8 := by
    apply length_le_of_mem_chunks (by decide : 0 < 8) (l := s)
    rw [ha]
    exact List.mem_append_right _ List.mem_cons_self
  intro h
  -- the chunks in common take both seeds to one state
  simp only [fold, hlen, ha, hb, List.foldl_append, List.foldl_cons, List.foldl_nil] at h
  exact hdiff (absorb_inj _ hab hle h)

/-- **Seeded draws do not collide.** Every word is the value of one state; a source
repeats no value within `2 ^ 64` draws; and seeds of one length that have all chunks but
the last in common are folded to different states. -/
theorem seeded_draws_do_not_collide :
    Function.Bijective (fun m : SplitMix => (next_u64 m).1)
      ∧ (∀ (m : SplitMix) (n : ℕ), n ≤ 2 ^ 64 → (draws m n).Nodup)
      ∧ ∀ s t : Bytes, s.length = t.length →
          (chunks 8 s).dropLast = (chunks 8 t).dropLast → s ≠ t → fold s ≠ fold t :=
  ⟨next_u64_bijective, fun m _ hn => draws_nodup m hn,
    fun _ _ hlen hinit hne => fold_ne hlen hinit hne⟩

/-- Seeds of nine bytes that differ in the ninth. -/
theorem seeded_draws_do_not_collide_nine_bytes :
    (draws ⟨0⟩ 3).Nodup ∧ fold [1, 2, 3, 4, 5, 6, 7, 8, 9] ≠ fold [1, 2, 3, 4, 5, 6, 7, 8, 0] := by
  obtain ⟨-, hdraws, hfold⟩ := seeded_draws_do_not_collide
  refine ⟨hdraws ⟨0⟩ 3 (by decide), hfold _ _ rfl ?_ (by decide)⟩
  simp

/-! ## Sources -/

/-- The sources that options of two such seeds make draw different values at every
turn. -/
theorem options_draw_apart {default o p : Options} {limits limits' : Option (Attrs F)}
    {s t : Bytes} (ho : options default limits (some s) = .ok o)
    (hp : options default limits' (some t) = .ok p) (hlen : s.length = t.length)
    (hinit : (chunks 8 s).dropLast = (chunks 8 t).dropLast) (hne : s ≠ t) :
    ∃ f g, o.source = some f ∧ p.source = some g
      ∧ ∀ n, List.Forall₂ (· ≠ ·) (draws (f ()) n) (draws (g ()) n) := by
  have hsource : ∀ {o : Options} {limits : Option (Attrs F)} {s : Bytes},
      options default limits (some s) = .ok o → o.source = some fun _ => ⟨fold s⟩ := by
    intro o limits s h
    cases limits with
    | none =>
        cases h
        rfl
    | some l =>
        obtain ⟨l', -, h⟩ := bind_eq_ok h
        cases h
        rfl
  refine ⟨_, _, hsource ho, hsource hp, fun n => ?_⟩
  rw [draws_eq_map, draws_eq_map, List.forall₂_map_left_iff, List.forall₂_map_right_iff,
    List.forall₂_same]
  intro i _ h
  have hskip := congrArg SplitMix.state (next_u64_injective h)
  exact fold_ne hlen hinit hne ((UInt64.add_left_inj _).1 hskip)

end ZmuxPy.ShapingSeed
