/-
The limiter of a splice direction that is written in Python (`src/helpers.rs`,
`PyLimiter`).

`poll_ready(min, max)` asks how many bytes may be forwarded now. It calls the
Python limiter's `ready(min, max)`, keeps the future of its coroutine in `pending`
while that one is not done, and polls the same future again at the next poll. The
bounds of that poll are not looked at as long as something is pending. A poller
that gives its wait up leaves the future where it is.

A label says when the coroutine comes to its end, and what a call of `ready` does
that the poll makes: it may raise, and its future may be done at its first poll.
`answers` is history.
-/
import Mathlib.Data.List.Basic
import Mathlib.Tactic.Basic
import ZmuxPy.Machine
import ZmuxPy.Pyo3

set_option autoImplicit false

namespace ZmuxPy.SpliceLimiter

open Machine Pyo3

variable {F : Type}

/-! ## The model -/

/-- The arguments of `poll_ready`, and of `ready`. -/
structure Bounds where
  min : ℕ
  max : ℕ
  deriving DecidableEq, Repr

/-- A call of `ready`: its arguments, and what its coroutine came to, if it did. -/
structure Ready (F : Type) where
  bounds : Bounds
  result : Option (PyResult (PyVal F))

/-- A `Poll::Ready`: the bounds of the poll, what it allows, and the arguments of the
call that granted it; nobody did after an exception. -/
structure Answer where
  asked : Bounds
  n : ℕ
  granted : Option Bounds
  deriving DecidableEq, Repr

/-- `PyLimiter`, with the answers it has given. -/
structure PyLimiter (F : Type) where
  pending : Option (Ready F)
  answers : List Answer

/-- `shared`. -/
def init : PyLimiter F := ⟨none, []⟩

/-- `allowance`: the count of a call, and 0 after an exception. -/
def allowance (r : PyResult (PyVal F)) : ℕ :=
  match r >>= extract_usize with
  | .ok n => n
  | .error _ => 0

/-- Whose grant a result is: that of the call with these bounds, unless it is an
exception. -/
def granted (b : Bounds) (r : PyResult (PyVal F)) : Option Bounds :=
  match r >>= extract_usize with
  | .ok _ => some b
  | .error _ => none

/-- `f.as_mut().poll(cx)`, for a poll with bounds `b`. -/
def poll_pending (s : PyLimiter F) (b : Bounds) (p : Ready F) : PyLimiter F × Option ℕ :=
  match p.result with
  | some r =>
    (⟨none, s.answers ++ [⟨b, allowance r, granted p.bounds r⟩]⟩, some (allowance r))
  | none => ({ s with pending := some p }, none)

/-- `poll_ready(min, max)`; `started` is what a call of `ready` comes to, if it makes
one. `none` is `Poll::Pending`. -/
def poll_ready (s : PyLimiter F) (b : Bounds)
    (started : PyResult (Option (PyResult (PyVal F)))) : PyLimiter F × Option ℕ :=
  match s.pending with
  -- whatever this poll asks for
  | some p => poll_pending s b p
  | none =>
    match started with
    | .error e =>
      ({ s with answers := s.answers ++ [⟨b, allowance (F := F) (.error e), none⟩] },
        some (allowance (F := F) (.error e)))
    | .ok result => poll_pending s b ⟨b, result⟩

/-- A poll, or the end of the pending coroutine. -/
inductive Label (F : Type) where
  | poll (b : Bounds) (started : PyResult (Option (PyResult (PyVal F))))
  /-- The pending call's coroutine returns or raises. -/
  | resolve (r : PyResult (PyVal F))

/-- One step of the limiter. -/
def step (s : PyLimiter F) : Label F → Option (PyLimiter F)
  | .poll b started => some (poll_ready s b started).1
  | .resolve r =>
    match s.pending with
    | some ⟨b, none⟩ => some { s with pending := some ⟨b, some r⟩ }
    | _ => none

/-! ## The bounds of an answer -/

/-- The Python limiter resolves a call to at most the `max` it was called with. -/
def within (s : PyLimiter F) : Label F → Bool
  | .poll b (.ok (some r)) => s.pending.isSome || allowance r ≤ b.max
  | .resolve r => s.pending.all fun p => allowance r ≤ p.bounds.max
  | _ => true

/-- A poll that gets the count of a pending call has asked for the same. -/
def same_bounds (s : PyLimiter F) : Label F → Bool
  | .poll b _ =>
    match s.pending with
    | some ⟨g, some r⟩ => (granted g r).all (· = b)
    | _ => true
  | .resolve _ => true

/-- At most what the poll asked for, granted by a call that asked for the same, and
nothing after an exception. -/
structure Answer.Respects (a : Answer) : Prop where
  le_max : a.n ≤ a.asked.max
  bounds : ∀ g, a.granted = some g → g = a.asked
  zero : a.granted = none → a.n = 0

theorem allowance_of_not_granted {b : Bounds} {r : PyResult (PyVal F)} (h : granted b r = none) :
    allowance r = 0 := by
  unfold granted at h
  unfold allowance
  split at h
  · cases h
  · rfl

/-- What a pending call came to is within its bounds. -/
def Inv (s : PyLimiter F) : Prop :=
  ∀ p r, s.pending = some p → p.result = some r → allowance r ≤ p.bounds.max

/-- An answer to a poll by a call within its bounds. -/
theorem respects_iff {b g : Bounds} {r : PyResult (PyVal F)} (hr : allowance r ≤ g.max) :
    Answer.Respects ⟨b, allowance r, granted g r⟩ ↔ (granted g r).all (· = b) = true := by
  cases hg : granted g r with
  | none =>
      have hz := allowance_of_not_granted hg
      rw [hz]
      exact iff_of_true ⟨Nat.zero_le _, by simp, fun _ => rfl⟩ rfl
  | some g' =>
      obtain rfl : g' = g := by
        unfold granted at hg
        split at hg
        · exact (Option.some.inj hg).symm
        · cases hg
      simp only [Option.all_some, decide_eq_true_eq]
      constructor
      · intro h
        exact h.bounds g' rfl
      · rintro rfl
        exact ⟨hr, fun _ h => (Option.some.inj h).symm, by simp⟩

theorem forall_mem_snoc {α : Type} {l : List α} {a : α} {p : α → Prop} :
    (∀ x ∈ l ++ [a], p x) ↔ (∀ x ∈ l, p x) ∧ p a := by
  rw [List.forall_mem_append, List.forall_mem_singleton]

/-- A poll of a future: its answer respects the poll exactly if the call's count is for
the poll's bounds. -/
theorem poll_pending_respects {s : PyLimiter F} {b : Bounds} {p : Ready F}
    (hp : ∀ r, p.result = some r → allowance r ≤ p.bounds.max) :
    (∀ a ∈ (poll_pending s b p).1.answers, a.Respects)
      ↔ (∀ a ∈ s.answers, a.Respects)
        ∧ ∀ r, p.result = some r → (granted p.bounds r).all (· = b) = true := by
  unfold poll_pending
  cases hr : p.result with
  | none => simp
  | some r =>
      rw [forall_mem_snoc, respects_iff (hp r hr)]
      simp

/-- **One step**: the answers respect their bounds exactly if the poll gets the grant of a call
that asked for the same. -/
theorem step_respects {s s' : PyLimiter F} {l : Label F} (hw : within s l = true) (hs : Inv s)
    (h : step s l = some s') :
    (∀ a ∈ s'.answers, a.Respects)
      ↔ (∀ a ∈ s.answers, a.Respects) ∧ same_bounds s l = true := by
  cases l with
  | poll b started =>
      cases h
      unfold poll_ready
      cases hpend : s.pending with
      | some p =>
          obtain ⟨g, result⟩ := p
          rw [poll_pending_respects fun r => hs _ r hpend]
          cases result with
          | none => simp [same_bounds, hpend]
          | some r => simp [same_bounds, hpend]
      | none =>
          cases started with
          | error e =>
              simp only [same_bounds, hpend, and_true]
              rw [forall_mem_snoc]
              refine and_iff_left ⟨?_, by simp, fun _ => rfl⟩
              exact Nat.zero_le _
          | ok result =>
              have hfirst : ∀ r, result = some r → allowance r ≤ b.max := by
                rintro r rfl
                simpa [within, hpend] using hw
              rw [poll_pending_respects hfirst]
              simp only [same_bounds, hpend, and_true]
              -- a call made by the poll itself has its bounds
              refine and_iff_left fun r _ => ?_
              unfold granted
              split <;> simp
  | resolve r =>
      simp only [step] at h
      split at h
      · cases h
        simp [same_bounds]
      · cases h

/-- What is pending was called with the bounds that it keeps. -/
theorem step_inv {s s' : PyLimiter F} {l : Label F} (hw : within s l = true) (hs : Inv s)
    (h : step s l = some s') : Inv s' := by
  have hpoll : ∀ {b : Bounds} {p : Ready F},
      (∀ r, p.result = some r → allowance r ≤ p.bounds.max) → Inv (poll_pending s b p).1 := by
    intro b p hp
    unfold poll_pending
    split
    · rintro q r ⟨⟩
    · rintro q r ⟨⟩ hr
      exact hp r hr
  cases l with
  | poll b started =>
      cases h
      unfold poll_ready
      cases hpend : s.pending with
      | some p => exact hpoll fun r => hs p r hpend
      | none =>
          cases started with
          | error e =>
              rintro p r ⟨⟩
          | ok result =>
              refine hpoll ?_
              rintro r rfl
              simpa [within, hpend] using hw
  | resolve r =>
      simp only [step] at h
      split at h
      · rename_i b hpend
        cases h
        rintro p r' ⟨⟩ ⟨⟩
        simpa [within, hpend] using hw
      · cases h

theorem pending_of_ready {s : PyLimiter F} {b : Bounds}
    {started : PyResult (Option (PyResult (PyVal F)))} {n : ℕ}
    (h : (poll_ready s b started).2 = some n) : (poll_ready s b started).1.pending = none := by
  have hpoll : ∀ {p : Ready F}, (poll_pending s b p).2 = some n →
      (poll_pending s b p).1.pending = none := by
    intro p hp
    unfold poll_pending at hp ⊢
    split at hp
    · rfl
    · cases hp
  unfold poll_ready at h ⊢
  split at h
  · exact hpoll h
  · rename_i hpend
    split at h
    · exact hpend
    · exact hpoll h

/-- **When an allowance respects the bounds it is asked for.** With a Python limiter
that keeps to the `max` it is called with, every answer of a run is at most the `max`
of its poll and granted by a call with its bounds (0 after an exception), exactly if
no poll takes the count of a call that was made, by an earlier poll, with other
bounds. No poll that is ready leaves a call behind. -/
theorem allowance_respects_bounds_iff {ls : List (Label F)} {s : PyLimiter F}
    (h : run step init ls = some s)
    (hw : Meets step (fun s l => within s l = true) init ls) :
    ((∀ a ∈ s.answers, a.Respects)
      ↔ Meets step (fun s l => same_bounds s l = true) init ls)
    ∧ ∀ b started n, (poll_ready s b started).2 = some n →
        (poll_ready s b started).1.pending = none := by
  refine ⟨?_, fun b started n => pending_of_ready⟩
  have hiff := meets_iff_of_meets step (fun _ _ _ => step_inv) (fun _ _ _ => step_respects) hw
    (fun _ _ hp => by cases hp) h
  rw [hiff]
  exact and_iff_right (by simp [init])

/-- One wait, and the count it waited for. -/
def one_wait : List (Label Unit) :=
  [.poll ⟨1, 10⟩ (.ok none), .resolve (.ok (.int 7)), .poll ⟨1, 10⟩ (.ok none)]

/-- The hypothesis can be met: a poll that waits, and gets the count at its second time. -/
theorem allowance_respects_bounds_iff_one_wait :
    ∃ s, run step init one_wait = some s ∧ s.answers = [⟨⟨1, 10⟩, 7, some ⟨1, 10⟩⟩]
      ∧ ((∀ a ∈ s.answers, a.Respects)
          ↔ Meets step (fun s l => same_bounds s l = true) init one_wait)
      ∧ ∀ b started n, (poll_ready s b started).2 = some n →
          (poll_ready s b started).1.pending = none :=
  ⟨_, rfl, rfl, @allowance_respects_bounds_iff Unit one_wait _ rfl (by decide)⟩

/-- A wait for up to 100 bytes is given up, and the next poll asks for up to 10: it gets
the 100 of the call before. -/
theorem abandoned_wait_answers_next_poll :
    ∃ s : PyLimiter Unit, run step init [.poll ⟨1, 100⟩ (.ok none), .resolve (.ok (.int 100)),
        .poll ⟨1, 10⟩ (.ok none)] = some s
      ∧ s.answers = [⟨⟨1, 10⟩, 100, some ⟨1, 100⟩⟩] :=
  ⟨_, rfl, rfl⟩

end ZmuxPy.SpliceLimiter
