/-
Who keeps the asyncio future of `future_into_py` (`src/rt.rs`) alive, and with it
the sender that would cancel the operation behind it.

The future owns its done callback `OnCancel`, which owns the cancel sender; the
runtime task waits on the receiver. So the operation would be dropped with the
last reference to the future, as the function's comment says. But the task has a
reference of its own (`fut_py`, to set the result), and so have the thread and the
callback that deliver it. `Root` and `Owns` are that graph; the executable model
keeps count of Python's references only, and drops the sender (`collect`) when
nothing holds the future any more. `sender_alive_iff` says that it drops it just
when the graph does.
-/
import ZmuxPy.FutureIntoPy
import ZmuxPy.Ownership

set_option autoImplicit false

namespace ZmuxPy.FutureRefs

open Machine Ownership FutureIntoPy

variable {ρ : Type}

/-! ## The state -/

/-- The Rust future `fut`. -/
inductive Operation where
  | running
  | completed
  | dropped
  deriving DecidableEq, Repr

/-- A call of `future_into_py`, with the references to its asyncio future. -/
structure Refs (ρ : Type) extends Bridge ρ where
  /-- Python's own references: variables, and tasks that await the future. -/
  python : ℕ
  fut : Operation
  /-- History: the last of them went away from a pending future of a running
  operation. -/
  forgotten : Bool
  deriving DecidableEq, Repr

/-- `future_into_py` returns the future: Python has one reference to it. -/
def new : Refs ρ := { Bridge.new with python := 1, fut := .running, forgotten := false }

/-- Something of ours, or of the loop's, has a reference to the future. -/
def Refs.target_held (r : Refs ρ) : Bool :=
  decide (0 < r.python) ||
    (match r.task with
      | .select | .blocking _ | .posted _ => true
      | .ended => false) ||
    decide (r.on_cancel = .scheduled)

/-- A future that nobody holds goes, with a callback that is still its own, and with
that the sender. -/
def Refs.collect (r : Refs ρ) : Refs ρ :=
  if r.target_held = false ∧ r.on_cancel = .registered then { r with cancel := .closed } else r

/-! ## The steps -/

/-- What Python does with its references, what the loop runs, and what the task does. -/
inductive Label (ρ : Type) where
  /-- Python takes another reference. -/
  | clone
  | drop
  /-- Someone who has a reference cancels the future. -/
  | cancel
  | run_on_cancel
  /-- The cancel branch of the task's `select!`. -/
  | leave
  /-- `fut` completes; the cancel branch, which is polled first, was not ready. -/
  | ready (v : ρ)
  | post
  /-- `call_soon_threadsafe` on a closed loop raises. -/
  | post_failed
  | complete
  deriving DecidableEq, Repr

/-- The last reference of Python's to a pending future of a running operation. -/
def Refs.last (r : Refs ρ) : Bool :=
  decide (r.python = 1) && decide (r.fut = .running) &&
    match r.target with
    | .pending => true
    | _ => false

/-- A step of the call itself, that leaves the references alone. -/
def Refs.with_bridge (r : Refs ρ) (b : Bridge ρ) : Refs ρ := { r with toBridge := b }

/-- One step. Where a reference may go away, what nobody holds is collected. -/
def step (r : Refs ρ) : Label ρ → Option (Refs ρ)
  | .clone => if 0 < r.python then some { r with python := r.python + 1 } else none
  | .drop =>
    if 0 < r.python then
      some (Refs.collect { r with python := r.python - 1, forgotten := r.forgotten || r.last })
    else none
  | .cancel => if 0 < r.python then some (r.with_bridge r.cancel_future) else none
  | .run_on_cancel => r.run_on_cancel.map fun b => (r.with_bridge b).collect
  | .leave =>
    match r.task with
    | .select =>
      if r.cancel = .empty then none
      else some (Refs.collect { r with task := .ended, fut := .dropped })
    | _ => none
  | .ready v =>
    match r.task with
    | .select =>
      if r.cancel = .empty then some { r with task := .blocking v, fut := .completed } else none
    | _ => none
  | .post => r.post.map r.with_bridge
  | .post_failed =>
    match r.task with
    | .blocking _ => some (Refs.collect { r with task := .ended })
    | _ => none
  | .complete => r.complete.map fun b => (r.with_bridge b).collect

/-! ## The graph of references -/

/-- What holds a reference, or is held. -/
inductive Obj where
  /-- Python's variables and frames. -/
  | python
  /-- The runtime task, or the closure of `spawn_blocking` after it. -/
  | task
  /-- The handle of `Complete` in the loop's queue. -/
  | complete
  /-- The handle of a done callback in the loop's queue. -/
  | notify
  | target
  | on_cancel
  | sender
  deriving DecidableEq, Repr

/-- What is there by itself: Python's frames, the task, the handles in the loop's queue. -/
inductive Root (r : Refs ρ) : Obj → Prop where
  | python (h : 0 < r.python) : Root r .python
  | select (h : r.task = .select) : Root r .task
  | blocking (v : ρ) (h : r.task = .blocking v) : Root r .task
  | complete (v : ρ) (h : r.task = .posted v) : Root r .complete
  | notify (h : r.on_cancel = .scheduled) : Root r .notify

/-- Who holds a reference to whom. A done callback is the future's until it is scheduled. -/
inductive Owns (r : Refs ρ) : Obj → Obj → Prop where
  | python : Owns r .python .target
  /-- `fut_py`. -/
  | task : Owns r .task .target
  | complete : Owns r .complete .target
  | notify_target : Owns r .notify .target
  | notify : Owns r .notify .on_cancel
  | target (h : r.on_cancel = .registered) : Owns r .target .on_cancel
  /-- Unless `tx.send(())` took it. -/
  | on_cancel (h : r.cancel ≠ .sent) : Owns r .on_cancel .sender

/-- Reached from a root. -/
abbrev Refs.Alive (r : Refs ρ) (o : Obj) : Prop := Ownership.Alive (Root r) (Owns r) o

/-- The future is alive exactly while the count of the model says so. -/
theorem target_alive_iff {r : Refs ρ} : r.Alive .target ↔ r.target_held = true := by
  rw [Refs.Alive, alive_iff_of_not_root (by rintro ⟨⟩)]
  constructor
  · rintro ⟨m, hm, howns⟩
    have hroot : Root r m := by
      cases howns <;> exact (alive_iff_of_not_owned (by rintro _ ⟨⟩)).1 hm
    unfold Refs.target_held
    cases hroot with
    | python h => simp [h]
    | select h => simp [h]
    | blocking v h => simp [h]
    | complete v h => simp [h]
    | notify h => simp [h]
  · intro h
    simp only [Refs.target_held, Bool.or_eq_true, decide_eq_true_eq] at h
    rcases h with (h | h) | h
    · exact ⟨.python, .root (.python h), .python⟩
    · split at h
      · exact ⟨.task, .root (.select ‹_›), .task⟩
      · exact ⟨.task, .root (.blocking _ ‹_›), .task⟩
      · exact ⟨.complete, .root (.complete _ ‹_›), .complete⟩
      · cases h
    · exact ⟨.notify, .root (.notify h), .notify_target⟩

/-- The callback is alive while it is scheduled, or with the future. -/
theorem on_cancel_alive_iff {r : Refs ρ} : r.Alive .on_cancel ↔
    r.on_cancel = .scheduled ∨ r.on_cancel = .registered ∧ r.target_held = true := by
  rw [Refs.Alive, alive_iff_of_not_root (by rintro ⟨⟩)]
  constructor
  · rintro ⟨m, hm, howns⟩
    cases howns with
    | notify =>
        obtain ⟨⟩ | ⟨⟩ := (alive_iff_of_not_owned (by rintro _ ⟨⟩)).1 hm
        exact .inl ‹_›
    | target h => exact .inr ⟨h, target_alive_iff.1 hm⟩
  · rintro (h | ⟨hreg, hheld⟩)
    · exact ⟨.notify, .root (.notify h), .notify⟩
    · exact ⟨.target, target_alive_iff.2 hheld, .target hreg⟩

/-! ## The invariant -/

/-- What holds before `collect`: a callback that is still the future's has its sender,
unless nobody holds the future. -/
structure Pre (r : Refs ρ) : Prop where
  running : r.task = .select ↔ r.fut = .running
  pending : r.target = .pending ↔ r.on_cancel = .registered
  registered : r.on_cancel = .registered →
    r.cancel = .empty ∨ r.cancel = .closed ∧ r.target_held = false
  scheduled : r.on_cancel = .scheduled → r.cancel = .empty
  ran : r.on_cancel = .ran → r.cancel ≠ .empty
  forgotten : r.forgotten = true → r.python = 0 ∧
    (r.target = .pending ∧ r.fut = .running ∨ r.fut = .completed)

/-- And then it does not have it if nobody does. -/
structure Inv (r : Refs ρ) : Prop extends Pre r where
  collected : r.on_cancel = .registered → r.target_held = false → r.cancel = .closed

/-- After `collect` the sender of a callback that nobody reaches is gone. -/
theorem Pre.collect {r : Refs ρ} (h : Pre r) : Inv r.collect := by
  unfold Refs.collect
  split
  · rename_i hc
    refine ⟨⟨h.running, h.pending, fun _ => .inr ⟨rfl, hc.1⟩, fun hs => ?_, fun hs => ?_,
      h.forgotten⟩, fun _ _ => rfl⟩
    · rw [hc.2] at hs
      cases hs
    · rw [hc.2] at hs
      cases hs
  · rename_i hc
    exact ⟨h, fun hreg hheld => absurd ⟨hheld, hreg⟩ hc⟩

/-- While somebody holds the future, a callback of its own has not sent anything. -/
theorem Inv.empty_of_held {r : Refs ρ} (h : Inv r) (hreg : r.on_cancel = .registered)
    (hheld : r.target_held = true) : r.cancel = .empty := by
  rcases h.registered hreg with he | ⟨-, hno⟩
  · exact he
  · rw [hheld] at hno
    cases hno

/-- Python holds it by any reference, -/
theorem held_of_python {r : Refs ρ} (h : 0 < r.python) : r.target_held = true := by
  simp [Refs.target_held, h]

/-- and the task by its own, until it has ended. -/
theorem held_of_task {r : Refs ρ} (h : r.task ≠ .ended) : r.target_held = true := by
  unfold Refs.target_held
  cases ht : r.task with
  | ended => exact absurd ht h
  | select | blocking v | posted v => simp

/-- **The model drops the sender just when the graph of references does.** -/
theorem sender_alive_iff {r : Refs ρ} (h : Inv r) : r.Alive .sender ↔ r.cancel = .empty := by
  rw [Refs.Alive, alive_iff_of_not_root (by rintro ⟨⟩)]
  constructor
  · rintro ⟨m, hm, ⟨⟩⟩
    rcases on_cancel_alive_iff.1 hm with hs | ⟨hreg, hheld⟩
    · exact h.scheduled hs
    · exact h.empty_of_held hreg hheld
  · intro he
    refine ⟨.on_cancel, on_cancel_alive_iff.2 ?_, .on_cancel (by rw [he]; nofun)⟩
    cases hc : r.on_cancel with
    | scheduled => exact .inl rfl
    | ran => exact absurd he (h.ran hc)
    | registered =>
        refine .inr ⟨rfl, ?_⟩
        by_contra hno
        have hclosed := h.collected hc (by simpa using hno)
        rw [he] at hclosed
        cases hclosed

/-- Nothing is forgotten while Python has a reference. -/
theorem Inv.not_forgotten {r : Refs ρ} (h : Inv r) (hp : 0 < r.python) : r.forgotten = false := by
  by_contra hf
  have := (h.forgotten (by simpa using hf)).1
  omega

/-- The last reference goes from a pending future of a running operation: the task still holds
it, so nothing is collected. -/
theorem drop_inv {r : Refs ρ} (h : Inv r) (hp : 0 < r.python) :
    Inv (Refs.collect { r with python := r.python - 1, forgotten := r.forgotten || r.last }) := by
  refine Pre.collect ⟨h.running, h.pending, fun hreg => ?_, h.scheduled, h.ran, fun hf => ?_⟩
  · exact .inl (h.empty_of_held hreg (held_of_python hp))
  · have hlast : r.last = true := by simpa [h.not_forgotten hp] using hf
    simp only [Refs.last, Bool.and_eq_true, decide_eq_true_eq] at hlast
    obtain ⟨⟨hone, hrun⟩, htarget⟩ := hlast
    refine ⟨by simp [hone], .inl ⟨?_, hrun⟩⟩
    split at htarget
    · assumption
    · cases htarget

/-- A cancelled future schedules its callback, which has its sender. -/
theorem cancel_inv {r : Refs ρ} (h : Inv r) (hp : 0 < r.python) :
    Inv (r.with_bridge r.cancel_future) := by
  have hnf := h.not_forgotten hp
  unfold Bridge.cancel_future
  split
  · rename_i ht
    have he := h.empty_of_held (h.pending.1 ht) (held_of_python hp)
    refine ⟨⟨h.running, by simp [Refs.with_bridge], nofun, fun _ => he, nofun, fun hf => ?_⟩, nofun⟩
    exact absurd (hnf.symm.trans hf) (by decide)
  · exact h

/-- The callback uses its sender, or finds it used. -/
theorem run_on_cancel_inv {r : Refs ρ} {b : Bridge ρ} (h : Inv r) (hb : r.run_on_cancel = some b) :
    Inv (r.with_bridge b).collect := by
  unfold Bridge.run_on_cancel at hb
  split at hb
  · rename_i hs
    have hnp : r.target ≠ .pending := fun ht => by
      rw [h.pending.1 ht] at hs
      cases hs
    split at hb
    · cases hb
      exact Pre.collect ⟨h.running, ⟨fun ht => absurd ht hnp, nofun⟩, nofun, nofun, fun _ => nofun,
        h.forgotten⟩
    · cases hb
      exact Pre.collect ⟨h.running, ⟨fun ht => absurd ht hnp, nofun⟩, nofun, nofun, fun _ => nofun,
        h.forgotten⟩
  · cases hb

/-- The operation of a forgotten future does not leave by the cancel branch: the task
itself keeps the future, and with that the sender. -/
theorem leave_inv {r : Refs ρ} (h : Inv r) (ht : r.task = .select) (hc : r.cancel ≠ .empty) :
    Inv (Refs.collect { r with task := .ended, fut := .dropped }) := by
  have hnf : r.forgotten ≠ true := by
    intro hf
    rcases (h.forgotten hf).2 with ⟨htarget, -⟩ | hdone
    · exact hc (h.empty_of_held (h.pending.1 htarget) (held_of_task (by rw [ht]; nofun)))
    · rw [h.running.1 ht] at hdone
      cases hdone
  refine Pre.collect ⟨by simp, h.pending, fun hreg => ?_, h.scheduled, h.ran,
    fun hf => absurd hf hnf⟩
  exact .inl (h.empty_of_held hreg (held_of_task (by rw [ht]; nofun)))

/-- The operation of a forgotten future that is not running any more has completed. -/
theorem Inv.completed {r : Refs ρ} (h : Inv r) (hf : r.forgotten = true) (ht : r.task ≠ .select) :
    r.fut = .completed :=
  (h.forgotten hf).2.resolve_left fun hp => ht (h.running.2 hp.2)

/-- The task hands on what it has: the future stays held. -/
theorem Inv.hand_on {r : Refs ρ} (h : Inv r) {t : FutureIntoPy.Task ρ} {f : Operation}
    (ht : r.task ≠ .ended) (ht' : t ≠ .ended) (hs : t ≠ .select) (hf : f ≠ .running)
    (hforgotten : r.forgotten = true → f = .completed) : Inv { r with task := t, fut := f } := by
  have hheld : Refs.target_held { r with task := t, fut := f } = true := held_of_task ht'
  refine ⟨⟨by simp [hs, hf], h.pending, fun hreg => ?_, h.scheduled, h.ran, fun hforg => ?_⟩,
    fun _ hno => ?_⟩
  · exact .inl (h.empty_of_held hreg (held_of_task ht))
  · exact ⟨(h.forgotten hforg).1, .inr (hforgotten hforg)⟩
  · rw [hheld] at hno
    cases hno

/-- The delivery ends, and lets go of the future. -/
theorem Inv.let_go {r : Refs ρ} (h : Inv r) (ht : r.task ≠ .ended) (hs : r.task ≠ .select) :
    Inv (Refs.collect { r with task := .ended }) := by
  refine Pre.collect ⟨?_, h.pending, fun hreg => ?_, h.scheduled, h.ran, fun hforg => ?_⟩
  · exact ⟨nofun, fun hrun => absurd (h.running.2 hrun) hs⟩
  · exact .inl (h.empty_of_held hreg (held_of_task ht))
  · exact ⟨(h.forgotten hforg).1, .inr (h.completed hforg hs)⟩

/-- The result schedules the callbacks too, and the delivery lets go of the future. -/
theorem complete_inv {r : Refs ρ} {b : Bridge ρ} (h : Inv r) (hb : r.complete = some b) :
    Inv (r.with_bridge b).collect := by
  obtain ⟨v, htask, ⟨htarget, rfl⟩ | ⟨-, rfl⟩⟩ := Bridge.complete_eq_some hb
  · have hs : r.task ≠ .select := by rw [htask]; nofun
    have he := h.empty_of_held (h.pending.1 htarget) (held_of_task (by rw [htask]; nofun))
    refine Pre.collect ⟨⟨nofun, fun hrun => absurd (h.running.2 hrun) hs⟩,
      by simp [Refs.with_bridge], nofun, fun _ => he, nofun, fun hforg => ?_⟩
    exact ⟨(h.forgotten hforg).1, .inr (h.completed hforg hs)⟩
  · exact h.let_go (by rw [htask]; nofun) (by rw [htask]; nofun)

/-- **One step keeps the invariant.** -/
theorem step_inv {r r' : Refs ρ} {l : Label ρ} (h : Inv r) (hs : step r l = some r') : Inv r' := by
  cases l with
  | clone =>
      simp only [step, Option.ite_none_right_eq_some, Option.some.injEq] at hs
      obtain ⟨hp, rfl⟩ := hs
      refine ⟨⟨h.running, h.pending, fun hreg => ?_, h.scheduled, h.ran, fun hf => ?_⟩,
        fun _ hno => ?_⟩
      · exact .inl (h.empty_of_held hreg (held_of_python hp))
      · exact absurd ((h.not_forgotten hp).symm.trans hf) (by decide)
      · rw [held_of_python (Nat.succ_pos r.python)] at hno
        cases hno
  | drop =>
      simp only [step, Option.ite_none_right_eq_some, Option.some.injEq] at hs
      obtain ⟨hp, rfl⟩ := hs
      exact drop_inv h hp
  | cancel =>
      simp only [step, Option.ite_none_right_eq_some, Option.some.injEq] at hs
      obtain ⟨hp, rfl⟩ := hs
      exact cancel_inv h hp
  | run_on_cancel =>
      obtain ⟨b, hb, rfl⟩ := Option.map_eq_some_iff.1 hs
      exact run_on_cancel_inv h hb
  | leave =>
      simp only [step] at hs
      split at hs
      · rename_i ht
        split at hs
        · cases hs
        · rename_i hc
          cases hs
          exact leave_inv h ht hc
      · cases hs
  | ready v =>
      simp only [step] at hs
      split at hs
      · rename_i ht
        rw [Option.ite_none_right_eq_some, Option.some.injEq] at hs
        obtain ⟨-, rfl⟩ := hs
        exact h.hand_on (by rw [ht]; nofun) nofun nofun nofun (fun _ => rfl)
      · cases hs
  | post =>
      obtain ⟨b, hb, rfl⟩ := Option.map_eq_some_iff.1 hs
      obtain ⟨v, ht, rfl⟩ := Bridge.post_eq_some hb
      have hsel : r.task ≠ .select := by rw [ht]; nofun
      exact h.hand_on (by rw [ht]; nofun) nofun nofun (fun hrun => hsel (h.running.2 hrun))
        (fun hf => h.completed hf hsel)
  | post_failed =>
      simp only [step] at hs
      split at hs
      · rename_i v ht
        cases hs
        exact h.let_go (by rw [ht]; nofun) (by rw [ht]; nofun)
      · cases hs
  | complete =>
      obtain ⟨b, hb, rfl⟩ := Option.map_eq_some_iff.1 hs
      exact complete_inv h hb

/-- A new future has its callback, which has its sender. -/
theorem new_inv : Inv (new : Refs ρ) :=
  ⟨⟨by simp [new, Bridge.new], by simp [new, Bridge.new], fun _ => .inl rfl, nofun, nofun, nofun⟩,
    nofun⟩

/-! ## A forgotten future -/

/-- The operation of a forgotten future is dropped: its cancel sender is gone, and it
does not complete. -/
def Drops (r : Refs ρ) : Prop :=
  r.forgotten = true → ¬ r.Alive .sender ∧ r.fut ≠ .completed

/-- Python does not let go of a pending future of a running operation. -/
def keeps (r : Refs ρ) : Label ρ → Bool
  | .drop => !r.last
  | _ => true

/-- An operation whose future was forgotten is never dropped, so no forgotten future meets the
condition. -/
theorem Inv.drops_iff {r : Refs ρ} (h : Inv r) : Drops r ↔ r.forgotten = false := by
  constructor
  · intro hd
    by_contra hf
    have hf' : r.forgotten = true := by simpa using hf
    obtain ⟨hdead, hnot⟩ := hd hf'
    rcases (h.forgotten hf').2 with ⟨htarget, hrun⟩ | hdone
    · -- the task, which waits for the sender's end, holds the future that owns it
      have hheld : r.target_held = true := held_of_task (by rw [h.running.2 hrun]; nofun)
      exact hdead ((sender_alive_iff h).2 (h.empty_of_held (h.pending.1 htarget) hheld))
    · exact hnot hdone
  · intro hf hf'
    rw [hf] at hf'
    cases hf'

/-- To collect is no part of the history. -/
theorem collect_forgotten (r : Refs ρ) : r.collect.forgotten = r.forgotten := by
  unfold Refs.collect
  split <;> rfl

/-- A future is forgotten in one step only. -/
theorem step_forgotten {r r' : Refs ρ} {l : Label ρ} (hs : step r l = some r') :
    r'.forgotten = false ↔ r.forgotten = false ∧ keeps r l = true := by
  have hsame : r'.forgotten = r.forgotten → keeps r l = true →
      (r'.forgotten = false ↔ r.forgotten = false ∧ keeps r l = true) := by
    intro heq hk
    rw [heq, hk]
    exact (and_iff_left rfl).symm
  cases l with
  | drop =>
      simp only [step, Option.ite_none_right_eq_some, Option.some.injEq] at hs
      obtain ⟨-, rfl⟩ := hs
      rw [collect_forgotten]
      simp [keeps]
  | clone | cancel =>
      simp only [step, Option.ite_none_right_eq_some, Option.some.injEq] at hs
      obtain ⟨-, rfl⟩ := hs
      exact hsame rfl rfl
  | run_on_cancel | complete =>
      obtain ⟨b, -, rfl⟩ := Option.map_eq_some_iff.1 hs
      exact hsame (collect_forgotten _) rfl
  | post =>
      obtain ⟨b, -, rfl⟩ := Option.map_eq_some_iff.1 hs
      exact hsame rfl rfl
  | leave =>
      simp only [step] at hs
      split at hs
      · split at hs
        · cases hs
        · cases hs
          exact hsame (collect_forgotten _) rfl
      · cases hs
  | ready v =>
      simp only [step] at hs
      split at hs
      · rw [Option.ite_none_right_eq_some, Option.some.injEq] at hs
        obtain ⟨-, rfl⟩ := hs
        exact hsame rfl rfl
      · cases hs
  | post_failed =>
      simp only [step] at hs
      split at hs
      · cases hs
        exact hsame (collect_forgotten _) rfl
      · cases hs

/-- **Forgetting a future never drops its operation.** A run in which a forgotten
future's operation is dropped is one in which no future was forgotten; and the
operation of one that was is never dropped, since the task holds the future whose
end it waits for. -/
theorem dropped_future_drops_operation_iff {ls : List (Label ρ)} {r : Refs ρ}
    (h : run step new ls = some r) :
    (Drops r ↔ Meets step (fun r l => keeps r l = true) new ls) ∧
    (r.forgotten = true → r.fut ≠ .dropped) := by
  have hinv : Inv r := run_inv step (fun _ _ _ => step_inv) new_inv h
  refine ⟨?_, fun hf => ?_⟩
  · rw [hinv.drops_iff]
    have hiff := meets_iff step (fun _ _ _ => step_inv) (P := fun r : Refs ρ => r.forgotten = false)
      (fun _ _ _ _ => step_forgotten) new_inv h
    rw [hiff]
    exact and_iff_right rfl
  · rcases (hinv.forgotten hf).2 with ⟨-, hrun⟩ | hdone
    · rw [hrun]
      nofun
    · rw [hdone]
      nofun

/-- Python cancels before it lets go. -/
def cancel_then_drop : List (Label Bool) :=
  [.clone, .drop, .cancel, .drop, .run_on_cancel, .leave]

/-- The hypothesis can be met: cancelled before it is let go of, the operation is dropped. -/
theorem dropped_future_drops_operation_iff_cancelled :
    ∃ r, run step new cancel_then_drop = some r ∧ r.fut = .dropped ∧ Drops r := by
  refine ⟨_, rfl, rfl, ?_⟩
  exact (@dropped_future_drops_operation_iff Bool cancel_then_drop _ rfl).1.2 (by decide)

/-- Python lets go of the future, and the operation completes for nobody. -/
theorem forgotten_operation_completes :
    ∃ r, run step (new : Refs Bool) [.drop, .ready true] = some r ∧ r.python = 0
      ∧ r.fut = .completed ∧ ¬ Drops r :=
  ⟨_, rfl, rfl, rfl, fun h => (h rfl).2 rfl⟩

end ZmuxPy.FutureRefs
