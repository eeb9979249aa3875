/-
One direction of an in-memory pipe between two tasks, as `tokio::io::duplex` makes it: a
buffer with a limit, and one flag for its end.

The flag is shared. The writing end sets it when it is shut down or dropped, the reading
end when it is dropped, and each end finds it set by the other: a write fails then, and a
read returns what is left and after that nothing, which is the end of file. So a closed
pipe that is still read loses nothing that was written.

A poll that would wait is `none`.
-/
import Mathlib.Data.List.Basic
import Mathlib.Tactic.Basic

set_option autoImplicit false

namespace Duplex

variable {α : Type}

/-- One direction of a pipe: a queue of bounded length, with an end that is closed for good. -/
structure Simplex (α : Type) where
  buffer : List α
  closed : Bool
  max : ℕ
  deriving DecidableEq, Repr

/-- An empty one, with room for `max`. -/
def Simplex.new (max : ℕ) : Simplex α := { buffer := [], closed := false, max }

/-- `poll_read` with room for `n` items. -/
def poll_read (p : Simplex α) (n : ℕ) : Option (Simplex α × List α) :=
  match p.buffer with
  | [] => if p.closed then some (p, []) else none
  | _ => some ({ p with buffer := p.buffer.drop n }, p.buffer.take n)

/-- What a write comes to: so many items taken, or nobody left to read them. -/
inductive Written (α : Type) where
  | broken_pipe
  | ok (p : Simplex α) (n : ℕ)

/-- `poll_write`: as much as there is room for. -/
def poll_write (p : Simplex α) (data : List α) : Option (Written α) :=
  if p.closed then some .broken_pipe
  else if p.max - p.buffer.length = 0 then none
  else
    let n := min data.length (p.max - p.buffer.length)
    some (.ok { p with buffer := p.buffer ++ data.take n } n)

/-- An end shuts down or is dropped. -/
def close (p : Simplex α) : Simplex α := { p with closed := true }

/-! ## What the polls do -/

/-- A read takes from the front, or finds the end. -/
inductive Reads (p : Simplex α) (n : ℕ) : Simplex α → List α → Prop where
  | data (hne : p.buffer ≠ []) :
      Reads p n { p with buffer := p.buffer.drop n } (p.buffer.take n)
  | eof (hb : p.buffer = []) (hc : p.closed = true) : Reads p n p []

/-- A read takes from the front, or finds the end. It waits only while the queue is empty and
open. -/
theorem poll_read_cases {p p' : Simplex α} {n : ℕ} {out : List α}
    (h : poll_read p n = some (p', out)) : Reads p n p' out := by
  unfold poll_read at h
  split at h
  · rename_i hb
    split at h
    · cases h
      exact .eof hb ‹_›
    · cases h
  · rename_i hne
    cases h
    exact .data hne

/-- A write that is taken goes to the back, and not beyond the limit. -/
theorem poll_write_ok {p p' : Simplex α} {data : List α} {n : ℕ}
    (h : poll_write p data = some (.ok p' n)) :
    p.closed = false ∧ p' = { p with buffer := p.buffer ++ data.take n }
      ∧ n ≤ data.length ∧ (data ≠ [] → 0 < n) ∧ p.buffer.length + n ≤ p.max := by
  unfold poll_write at h
  split at h
  · cases h
  · rename_i hc
    split at h
    · cases h
    · rename_i hroom
      cases h
      refine ⟨Bool.eq_false_iff.2 hc, rfl, Nat.min_le_left _ _, fun hne => ?_, ?_⟩
      · have := List.length_pos_iff.2 hne
        omega
      · omega

/-- A write fails only on a closed direction. -/
theorem poll_write_broken {p : Simplex α} {data : List α}
    (h : poll_write p data = some .broken_pipe) : p.closed = true := by
  unfold poll_write at h
  split at h
  · assumption
  · split at h <;> cases h

/-! ## What a pipe carries -/

/-- What went in has come out or is in the buffer, in order, and the buffer keeps to its
limit. -/
structure Carries (p : Simplex α) (entered left : List α) : Prop where
  fifo : entered = left ++ p.buffer
  room : p.buffer.length ≤ p.max

/-- A new direction has carried nothing. -/
theorem Carries.new (max : ℕ) : Carries (Simplex.new max : Simplex α) [] [] :=
  ⟨rfl, Nat.zero_le max⟩

/-- What is read leaves at the front, -/
theorem Carries.read {p p' : Simplex α} {n : ℕ} {out entered left : List α}
    (hp : Carries p entered left) (h : poll_read p n = some (p', out)) :
    Carries p' entered (left ++ out) := by
  cases poll_read_cases h with
  | data =>
      refine ⟨?_, Nat.le_trans (by simp) hp.room⟩
      rw [hp.fifo, List.append_assoc, List.take_append_drop]
  | eof => exact ⟨by rw [List.append_nil]; exact hp.fifo, hp.room⟩

/-- and what is written enters at the back, within the room there is. -/
theorem Carries.write {p p' : Simplex α} {n : ℕ} {data entered left : List α}
    (hp : Carries p entered left) (h : poll_write p data = some (.ok p' n)) :
    Carries p' (entered ++ data.take n) left := by
  obtain ⟨-, rfl, hn, -, hroom⟩ := poll_write_ok h
  refine ⟨?_, ?_⟩
  · rw [hp.fifo, List.append_assoc]
  · rw [List.length_append, List.length_take, Nat.min_eq_left hn]
    exact hroom

/-- Closing loses nothing: what is in the queue can still be read. -/
theorem Carries.close {p : Simplex α} {entered left : List α} (hp : Carries p entered left) :
    Carries (close p) entered left := ⟨hp.fifo, hp.room⟩

/-- What has left is a beginning of what entered. -/
theorem Carries.left {p : Simplex α} {entered left : List α} (hp : Carries p entered left) :
    left <+: entered := hp.fifo ▸ List.prefix_append _ _

end Duplex
