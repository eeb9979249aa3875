/-
What the modules on Python code take from Python and asyncio: bytes-like
arguments, and tasks suspended on a future.

A task's `cancel()` cancels the future the task awaits if that future is
pending; if it is done already, or the task is not suspended, it only marks the
task (`_must_cancel`), and the mark is delivered at the task's next resumption
or, if the task suspends again before, to the future it suspends on.
-/
import Mathlib.Data.List.Basic

set_option autoImplicit false

namespace Asyncio

/-- `bytes`. -/
abbrev Bytes := List UInt8

/-- A bytes-like argument: `bytes`, a `bytearray` or a `memoryview`. `items` is
Python's `len`, which counts the items of a view and not its bytes. A view without
dimensions has no `len` at all, and is left out. -/
structure Data where
  bytes : Bytes
  items : ℕ
  itemsize : ℕ
  size_eq : items * itemsize = bytes.length
  deriving DecidableEq, Repr

/-- `bytes` and `bytearray`: one byte an item. -/
def Data.ofBytes (b : Bytes) : Data := ⟨b, b.length, 1, Nat.mul_one _⟩

/-- A future that a task is suspended on. -/
inductive Await (ρ : Type) where
  | pending
  | done (r : ρ)
  | cancelled
  deriving DecidableEq, Repr

namespace Await

variable {ρ : Type}

/-- The future gets its result, if it is still pending. -/
def complete (r : ρ) : Await ρ → Option (Await ρ)
  | .pending => some (.done r)
  | _ => none

/-- A future gets a result once. -/
theorem complete_eq_some {f f' : Await ρ} {r : ρ} (h : f.complete r = some f') :
    f = .pending ∧ f' = .done r := by
  cases f with
  | pending =>
      cases h
      exact ⟨rfl, rfl⟩
  | done _ | cancelled => cases h

/-- `Task.cancel()`: the future afterwards and the task's mark. -/
def cancel : Await ρ → Bool → Await ρ × Bool
  | .pending, mark => (.cancelled, mark)
  | f, _ => (f, true)

/-- Suspending on a new future: a mark cancels it at once. -/
def suspend (mark : Bool) : Await ρ := if mark then .cancelled else .pending

@[simp] theorem suspend_unmarked : (suspend false : Await ρ) = .pending := rfl

/-- What a resumed task gets: `none` if it cannot be resumed yet, otherwise the
result, or a `CancelledError`. -/
def resume : Await ρ → Bool → Option (Option ρ)
  | .pending, _ => none
  | .done r, mark => some (if mark then none else some r)
  | .cancelled, _ => some none

/-- A task gets a result only without a mark. -/
theorem resume_eq_some {f : Await ρ} {mark : Bool} {r : ρ} (h : f.resume mark = some (some r)) :
    f = .done r ∧ mark = false := by
  cases f <;> cases mark <;> simp [resume] at h
  exact ⟨congrArg _ h, rfl⟩

/-- A task is resumed with a `CancelledError` for one of two reasons. -/
theorem resume_eq_cancelled {f : Await ρ} {mark : Bool} (h : f.resume mark = some none) :
    f = .cancelled ∨ mark = true := by
  cases f with
  | pending => cases h
  | done r =>
      right
      by_contra hm
      simp [resume, hm] at h
  | cancelled => exact .inl rfl

/-- A task without a mark resumes with what its future has. -/
theorem resume_unmarked_eq_some {f : Await ρ} {r : Option ρ} (h : f.resume false = some r) :
    f = .cancelled ∨ ∃ v, f = .done v ∧ r = some v := by
  cases f with
  | pending => cases h
  | done v =>
      cases h
      exact .inr ⟨v, rfl, rfl⟩
  | cancelled => exact .inl rfl

/-- The task is resumed with a `CancelledError`, whatever happens to the future. -/
def stops : Await ρ → Bool → Bool
  | .pending, _ => false
  | .done _, mark => mark
  | .cancelled, _ => true

/-- Such a task can run, and gets the `CancelledError`; -/
theorem resume_of_stops {f : Await ρ} {mark : Bool} (h : f.stops mark = true) :
    f.resume mark = some none := by
  cases f with
  | pending => cases h
  | done r =>
      change mark = true at h
      rw [h]
      rfl
  | cancelled => rfl

/-- and who gets it was such a task. -/
theorem stops_of_resume {f : Await ρ} {mark : Bool} (h : f.resume mark = some none) :
    f.stops mark = true := by
  rcases resume_eq_cancelled h with rfl | rfl
  · rfl
  · cases f with
    | pending => cases h
    | done r => rfl
    | cancelled => rfl

/-- After `Task.cancel()` the next resumption is a `CancelledError`, by the future or by the
mark. -/
theorem cancel_stops (f : Await ρ) (mark : Bool) :
    (f.cancel mark).1.stops (f.cancel mark).2 = true := by
  cases f <;> rfl

end Await

end Asyncio
