/-
Bytes as 64-bit words: a byte string cut into chunks, and the little-endian word of
one chunk.

A chunk shorter than a word is padded with zero bytes, so chunks of different lengths
may have the same word. Of chunks of one length each has a word of its own.
-/
import Mathlib.Data.Nat.Digits.Lemmas
import Mathlib.Tactic.Basic

set_option autoImplicit false

namespace ByteWords

/-! ## Chunks -/

variable {α : Type*}

/-- The list in pieces of `n`, the last one of what is left. A piece has at least one
element. -/
def chunks (n : ℕ) : List α → List (List α)
  | [] => []
  | a :: l => (a :: l.take (n - 1)) :: chunks n (l.drop (n - 1))
termination_by l => l.length
decreasing_by
  rw [List.length_drop, List.length_cons]
  omega

@[simp] theorem chunks_nil (n : ℕ) : chunks n ([] : List α) = [] := by rw [chunks]

@[simp] theorem chunks_cons (n : ℕ) (a : α) (l : List α) :
    chunks n (a :: l) = (a :: l.take (n - 1)) :: chunks n (l.drop (n - 1)) := by rw [chunks]

@[simp] theorem flatten_chunks (n : ℕ) (l : List α) : (chunks n l).flatten = l := by
  fun_induction chunks n l with
  | case1 => rfl
  | case2 a l ih => rw [List.flatten_cons, ih, List.cons_append, List.take_append_drop]

theorem length_le_of_mem_chunks {n : ℕ} (hn : 0 < n) {l c : List α} (hc : c ∈ chunks n l) :
    c.length ≤ n := by
  fun_induction chunks n l with
  | case1 => cases hc
  | case2 a l ih =>
      rcases List.mem_cons.1 hc with rfl | hc
      · rw [List.length_cons, List.length_take]
        omega
      · exact ih hc

/-- **Lists of one length that have all chunks but the last in common** differ in the
last one, if at all, and it is of one length in both. -/
theorem chunks_eq_append_of_dropLast_eq {n : ℕ} {l m : List α} (hlen : l.length = m.length)
    (hinit : (chunks n l).dropLast = (chunks n m).dropLast) (hne : l ≠ m) :
    ∃ init a b, chunks n l = init ++ [a] ∧ chunks n m = init ++ [b]
      ∧ a.length = b.length ∧ a ≠ b := by
  have hsplit : ∀ k : List α, k ≠ [] → ∃ a, chunks n k = (chunks n k).dropLast ++ [a] := by
    intro k hk
    have hcs : chunks n k ≠ [] := by
      intro h
      apply hk
      rw [← flatten_chunks n k, h, List.flatten_nil]
    exact ⟨_, (List.dropLast_append_getLast hcs).symm⟩
  have hl : l ≠ [] := by
    rintro rfl
    exact hne (List.length_eq_zero_iff.1 hlen.symm).symm
  have hm : m ≠ [] := by
    rintro rfl
    exact hne (List.length_eq_zero_iff.1 hlen)
  obtain ⟨a, ha⟩ := hsplit l hl
  obtain ⟨b, hb⟩ := hsplit m hm
  rw [← hinit] at hb
  have hla : l = (chunks n l).dropLast.flatten ++ a := by
    conv_lhs => rw [← flatten_chunks n l, ha]
    simp
  have hmb : m = (chunks n l).dropLast.flatten ++ b := by
    conv_lhs => rw [← flatten_chunks n m, hb]
    simp
  refine ⟨_, a, b, ha, hb, ?_, ?_⟩
  · have := congrArg List.length hla
    have := congrArg List.length hmb
    simp only [List.length_append] at *
    omega
  · rintro rfl
    exact hne (hla.trans hmb.symm)

/-! ## Words -/

/-- The bytes of `c` in an array of `n` zero bytes. -/
def pad (n : ℕ) (c : List UInt8) : List UInt8 := c ++ List.replicate (n - c.length) 0

theorem length_pad {n : ℕ} {c : List UInt8} (hc : c.length ≤ n) : (pad n c).length = n := by
  rw [pad, List.length_append, List.length_replicate]
  omega

theorem pad_inj {n : ℕ} {a b : List UInt8} (hlen : a.length = b.length) (h : pad n a = pad n b) :
    a = b := List.append_inj_left h hlen

/-- The word of little-endian bytes. -/
def le_word (b : List UInt8) : UInt64 := UInt64.ofNat (Nat.ofDigits 256 (b.map UInt8.toNat))

/-- **Eight bytes make one word each.** -/
theorem le_word_inj {a b : List UInt8} (ha : a.length = 8) (hb : b.length = 8)
    (h : le_word a = le_word b) : a = b := by
  have hdigit : ∀ c : List UInt8, ∀ d ∈ c.map UInt8.toNat, d < 256 := by
    intro c d hd
    obtain ⟨x, -, rfl⟩ := List.mem_map.1 hd
    exact x.toNat_lt
  have hval : ∀ c : List UInt8, c.length = 8 →
      (le_word c).toNat = Nat.ofDigits 256 (c.map UInt8.toNat) := by
    intro c hc
    have hlt := Nat.ofDigits_lt_base_pow_length (by decide) (hdigit c)
    rw [List.length_map, hc] at hlt
    exact UInt64.toNat_ofNat_of_lt' hlt
  have hnat := congrArg UInt64.toNat h
  rw [hval a ha, hval b hb] at hnat
  have hlen : (a.map UInt8.toNat).length = (b.map UInt8.toNat).length := by simp [ha, hb]
  have hmap := Nat.ofDigits_inj_of_len_eq (by decide) hlen (hdigit a) (hdigit b) hnat
  exact List.map_injective_iff.2 (fun _ _ => UInt8.toNat_inj.1) hmap

/-- Chunks of one length have different words, once they are different. -/
theorem le_word_pad_inj {a b : List UInt8} (hlen : a.length = b.length) (ha : a.length ≤ 8)
    (h : le_word (pad 8 a) = le_word (pad 8 b)) : a = b :=
  pad_inj hlen (le_word_inj (length_pad ha) (length_pad (hlen ▸ ha)) h)

end ByteWords
