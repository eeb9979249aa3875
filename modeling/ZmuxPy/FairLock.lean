/-
A fair lock: first come, first served, with hand-off.

The queue of everyone who asked for the lock and has not left again *is* the
lock: its head holds it, the rest wait in order. Asking appends, leaving (a
release, or giving up the wait) removes, and a release hands the lock to the
next in the queue in the same step, whether or not that one is running. This
is the behaviour of an asynchronous mutex whose waiters are futures: dropping
a future, whatever it was doing, is leaving the queue.
-/
import Mathlib.Data.List.Nodup
import Mathlib.Tactic.Basic

set_option autoImplicit false

namespace FairLock

variable {ι : Type*} [DecidableEq ι]

/-- Asking for the lock; asking again keeps the place. -/
def ask (q : List ι) (i : ι) : List ι := if i ∈ q then q else q ++ [i]

/-- Leaving: releasing the lock, or giving up the wait for it. -/
def leave (q : List ι) (i : ι) : List ι := q.erase i

/-- Holding the lock. -/
def Holds (q : List ι) (i : ι) : Prop := q.head? = some i

/-- Who has the lock can be checked, -/
instance Holds.decidable (q : List ι) (i : ι) : Decidable (Holds q i) :=
  inferInstanceAs (Decidable (q.head? = some i))

/-- Waiting for the lock behind its holder. -/
def Waits (q : List ι) (i : ι) : Prop := i ∈ q.tail

/-- and so can who waits for it. -/
instance Waits.decidable (q : List ι) (i : ι) : Decidable (Waits q i) :=
  inferInstanceAs (Decidable (i ∈ q.tail))

/-- Asking adds the asker and nobody else. -/
theorem mem_ask {q : List ι} {i j : ι} : j ∈ ask q i ↔ j ∈ q ∨ j = i := by
  unfold ask
  split
  · constructor
    · exact .inl
    · rintro (h | rfl)
      · exact h
      · assumption
  · simp

/-- Nobody has two places in the queue, -/
theorem nodup_ask {q : List ι} (h : q.Nodup) (i : ι) : (ask q i).Nodup := by
  unfold ask
  split
  · exact h
  · rename_i hi
    rw [List.nodup_append]
    refine ⟨h, by simp, ?_⟩
    intro a ha b hb hab
    rw [List.mem_singleton] at hb
    exact hi (hb ▸ hab ▸ ha)

/-- also after someone left. -/
theorem nodup_leave {q : List ι} (h : q.Nodup) (i : ι) : (leave q i).Nodup := h.erase i

/-- Leaving removes the leaver and nobody else. -/
theorem mem_leave {q : List ι} (h : q.Nodup) {i j : ι} : j ∈ leave q i ↔ j ≠ i ∧ j ∈ q :=
  h.mem_erase_iff

/-- The holder leaves to the next in the queue. -/
theorem leave_of_holds {q : List ι} {i : ι} (hi : Holds q i) : leave q i = q.tail := by
  unfold leave
  cases q with
  | nil => rfl
  | cons j rest =>
      rw [Holds, List.head?_cons, Option.some.injEq] at hi
      rw [hi, List.erase_cons_head, List.tail_cons]

/-- The holder keeps the lock when others ask, -/
theorem Holds.ask {q : List ι} {i : ι} (hi : Holds q i) (j : ι) : Holds (ask q j) i := by
  cases q with
  | nil => cases hi
  | cons k rest =>
      unfold FairLock.ask
      split <;> exact hi

/-- and when others give up. -/
theorem Holds.leave_ne {q : List ι} {i j : ι} (hi : Holds q i) (hj : j ≠ i) :
    Holds (leave q j) i := by
  cases q with
  | nil => cases hi
  | cons k rest =>
      rw [Holds, List.head?_cons, Option.some.injEq] at hi
      subst hi
      rw [leave, List.erase_cons_tail (by simpa using hj.symm), Holds, List.head?_cons]

/-- Whoever asks again keeps the place. -/
theorem ask_of_mem {q : List ι} {i : ι} (hi : i ∈ q) : ask q i = q := if_pos hi

/-- Whoever asks for the first time gets the last place. -/
theorem ask_of_notMem {q : List ι} {i : ι} (hi : i ∉ q) : ask q i = q ++ [i] := if_neg hi

/-- Whoever holds the lock as soon as it asks found it free. -/
theorem eq_nil_of_holds_ask {q : List ι} {i : ι} (hi : i ∉ q) (h : Holds (ask q i) i) :
    q = [] := by
  rw [ask_of_notMem hi] at h
  cases q with
  | nil => rfl
  | cons j rest =>
      rw [Holds, List.cons_append, List.head?_cons, Option.some.injEq] at h
      exact absurd (h ▸ List.mem_cons_self) hi

/-- Asking gives the lock to nobody else. -/
theorem Holds.of_ask {q : List ι} {i j : ι} (h : Holds (FairLock.ask q i) j) (hij : j ≠ i) :
    Holds q j := by
  by_cases hi : i ∈ q
  · rwa [ask_of_mem hi] at h
  · rw [ask_of_notMem hi] at h
    cases q with
    | nil => exact absurd (Option.some.inj h).symm hij
    | cons k rest => exact h

end FairLock
