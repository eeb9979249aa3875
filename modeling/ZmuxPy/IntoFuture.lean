/-
`into_future` (`src/rt.rs`): the Rust future of a Python awaitable.

One call has four parts that live on two sides. On the event loop: the `Start`
callback, which starts the awaitable as a task, the task, and its `Done`
callback, which sends the task's result. On the runtime: the future, which
waits for that result, with its `CancelOnDrop` guard. They meet in the `Slot`
(the started task, and whether the future was dropped) and in the oneshot
sender, which travels from `Start` to `Done`.

Everything `Start` does after taking the awaitable it does with the slot
locked, and so does the guard when it marks the future dropped and takes the
task; each is one step. The two sides may interleave everywhere else. An asyncio
future's `add_done_callback` and `cancel` do not raise, by asyncio's contract;
`ensure_future` may (the value may be no awaitable), and so may `hasattr`.
-/
import Mathlib.Data.List.Basic
import ZmuxPy.Machine

set_option autoImplicit false

namespace ZmuxPy.IntoFuture

open Machine

variable {ρ : Type}

/-! ## The model -/

/-- The awaitable's `close`: `hasattr` answers, or raises. -/
inductive CloseAttr where
  | present
  | absent
  | raises
  deriving DecidableEq, Repr

/-- Where the awaitable is. -/
inductive Awaitable where
  /-- In `Start`, which has not run. -/
  | held
  /-- Taken by the running `Start`. -/
  | taken
  /-- Given to `ensure_future`, which made it a task. -/
  | started
  /-- Given to `ensure_future`, which raised. -/
  | failed
  /-- Closed, since nobody waits. -/
  | closed
  /-- Left alone, since nobody waits and it cannot be closed. -/
  | left
  /-- Dropped with a `Start` that never ran. -/
  | unrun
  deriving DecidableEq, Repr

/-- The `Start` object: in the loop's queue, in `__call__` before the slot's
lock, returned, or dropped. -/
inductive Start where
  | queued
  | entered
  | returned
  | dropped
  deriving DecidableEq, Repr

/-- The asyncio task of the awaitable. -/
inductive Task (ρ : Type) where
  | running
  | finished (r : ρ)
  deriving DecidableEq, Repr

/-- The `Done` object: not made yet, waiting for the task, in the loop's queue,
run, or dropped unrun. -/
inductive Done where
  | absent
  | registered
  | scheduled
  | ran
  | dropped
  deriving DecidableEq, Repr

/-- The oneshot channel: where its sender is, or what became of it. -/
inductive Channel (ρ : Type) where
  | in_start
  | in_done
  | sent (r : ρ)
  | lost
  deriving DecidableEq, Repr

/-- What the Rust future yields: a task's result or exception, or the
`CancelledError` of a sender dropped unsent. -/
inductive Output (ρ : Type) where
  | of_task (r : ρ)
  | the_task_was_dropped
  deriving DecidableEq, Repr

/-- The Rust future and its guard: waiting, being dropped (before the slot's
lock; with the task taken out of the slot), dropped, or complete. -/
inductive Fut (ρ : Type) where
  | waiting
  | dropping
  | cancelling
  | dropped
  | complete (o : Output ρ)
  deriving DecidableEq, Repr

/-- The cancel of the task: not asked for, in the loop's queue, run by the loop,
or refused by a loop that takes no callbacks. -/
inductive Cancel where
  | none
  | handed
  | ran
  | refused
  deriving DecidableEq, Repr

/-- One call of `into_future`; `sends` logs the calls of the sender. -/
structure Call (ρ : Type) where
  close : CloseAttr
  loop_closed : Bool
  awaitable : Awaitable
  start : Start
  slot_task : Bool
  slot_dropped : Bool
  task : Option (Task ρ)
  done : Done
  channel : Channel ρ
  fut : Fut ρ
  cancel : Cancel
  sends : List ρ
  deriving DecidableEq, Repr

/-- `into_future` has returned: `Start` is in the loop's queue. -/
def init (close : CloseAttr) : Call ρ :=
  { close := close, loop_closed := false, awaitable := .held, start := .queued
    slot_task := false, slot_dropped := false, task := none, done := .absent
    channel := .in_start, fut := .waiting, cancel := .none, sends := [] }

/-- What `ensure_future` does: it may raise, or return a future that is done
already (a task started eagerly, or a done future as the awaitable). -/
inductive Ensure (ρ : Type) where
  | raises
  | running
  | finished (r : ρ)
  deriving DecidableEq, Repr

/-- What the loop, the task and the runtime do. -/
inductive Label (ρ : Type) where
  /-- The loop calls `Start`. -/
  | enter_start
  /-- `Start` gets the slot's lock and runs to its end. -/
  | run_start (e : Ensure ρ)
  /-- The last reference to `Start` goes away. -/
  | drop_start
  | finish_task (r : ρ)
  /-- The loop calls `Done`. -/
  | run_done
  /-- The last reference to a `Done` that did not run goes away. -/
  | drop_done
  /-- The runtime polls the future. -/
  | poll
  /-- The runtime begins to drop the future. -/
  | drop
  /-- The guard marks the slot and takes the task out of it. -/
  | drop_slot
  /-- The guard hands the task's `cancel` to the loop. -/
  | hand_cancel
  /-- The loop calls the task's `cancel`. -/
  | run_cancel
  | close_loop
  deriving DecidableEq, Repr

/-- `Start.__call__` with the slot locked. -/
def run_start (s : Call ρ) (e : Ensure ρ) : Call ρ :=
  if s.slot_dropped then
    { s with
      start := .returned
      awaitable := if s.close = .present then .closed else .left }
  else
    match e with
    -- the error leaves `__call__`; the sender stays in `Start` and goes with it
    | .raises => { s with start := .returned, awaitable := .failed }
    | .running =>
      { s with
        start := .returned, awaitable := .started, slot_task := true
        task := some .running, done := .registered, channel := .in_done }
    | .finished r =>
      { s with
        start := .returned, awaitable := .started, slot_task := true
        task := some (.finished r), done := .scheduled, channel := .in_done }

/-- `Start` is dropped: a sender and an awaitable still in it go with it. -/
def drop_start (s : Call ρ) : Call ρ :=
  { s with
    start := .dropped
    awaitable := match s.awaitable with
      | .held => .unrun
      | a => a
    channel := match s.channel with
      | .in_start => .lost
      | c => c }

/-- `Done.__call__`: the task's result goes to the sender, if it is still there. -/
def run_done (s : Call ρ) : Call ρ :=
  match s.task, s.channel with
  | some (.finished r), .in_done =>
    { s with done := .ran, channel := .sent r, sends := s.sends ++ [r] }
  -- the sender was taken before
  | _, _ => { s with done := .ran }

/-- One poll of the future: complete, with the guard disarmed, or still waiting. -/
def poll (s : Call ρ) : Call ρ :=
  match s.channel with
  | .sent r => { s with fut := .complete (.of_task r) }
  | .lost => { s with fut := .complete .the_task_was_dropped }
  | _ => s

/-- `Done` is dropped unrun, with the sender in it. -/
def drop_done (s : Call ρ) : Call ρ :=
  { s with
    done := .dropped
    channel := match s.channel with
      | .in_done => .lost
      | c => c }

/-- The guard's critical section: a task that was started is cancelled next. -/
def drop_slot (s : Call ρ) : Call ρ :=
  { s with
    slot_dropped := true, slot_task := false
    -- `s.task.take()`: without a task there is nothing to cancel, and `Start` finds `dropped`
    fut := if s.slot_task then .cancelling else .dropped }

/-- Whether `Start` may be dropped: it returned, or it was in the queue of a loop
that closed. -/
def start_unreferenced (s : Call ρ) : Bool :=
  match s.start with
  | .returned => true
  | .queued => s.loop_closed
  | _ => false

/-- Whether an unrun `Done` may be dropped: the loop closed, or its task is
referred to by nobody here any more. -/
def done_unreferenced (s : Call ρ) : Bool :=
  match s.done with
  | .registered | .scheduled =>
    s.loop_closed || match s.fut with
      | .dropped => true
      | _ => false
  | _ => false

/-- One step of the call. What the loop runs, it does not run once it is closed. -/
def step (s : Call ρ) : Label ρ → Option (Call ρ)
  | .enter_start =>
    if s.start = .queued ∧ s.loop_closed = false then
      some { s with start := .entered, awaitable := .taken }
    else none
  | .run_start e => if s.start = .entered then some (run_start s e) else none
  | .drop_start => if start_unreferenced s then some (drop_start s) else none
  | .finish_task r =>
    match s.task with
    | some .running =>
      some { s with
        task := some (.finished r)
        done := match s.done with
          | .registered => .scheduled
          | d => d }
    | _ => none
  | .run_done =>
    if s.done = .scheduled ∧ s.loop_closed = false then some (run_done s) else none
  | .drop_done => if done_unreferenced s then some (drop_done s) else none
  | .poll =>
    match s.fut with
    | .waiting => some (poll s)
    | _ => none
  | .drop =>
    match s.fut with
    | .waiting => some { s with fut := .dropping }
    | _ => none
  | .drop_slot =>
    match s.fut with
    | .dropping => some (drop_slot s)
    | _ => none
  | .hand_cancel =>
    match s.fut with
    | .cancelling =>
      some { s with fut := .dropped, cancel := if s.loop_closed then .refused else .handed }
    | _ => none
  | .run_cancel =>
    if s.cancel = .handed ∧ s.loop_closed = false then some { s with cancel := .ran } else none
  | .close_loop => some { s with loop_closed := true }

/-- What each step of a call does, with the guard it passed. -/
inductive Step (s : Call ρ) : Label ρ → Call ρ → Prop where
  | enter_start (h : s.start = .queued) (hl : s.loop_closed = false) :
      Step s .enter_start { s with start := .entered, awaitable := .taken }
  | run_start (e : Ensure ρ) (h : s.start = .entered) : Step s (.run_start e) (run_start s e)
  | drop_start (h : start_unreferenced s = true) : Step s .drop_start (drop_start s)
  | finish_task (r : ρ) (h : s.task = some .running) :
      Step s (.finish_task r) { s with
        task := some (.finished r)
        done := match s.done with
          | .registered => .scheduled
          | d => d }
  | run_done (h : s.done = .scheduled) (hl : s.loop_closed = false) :
      Step s .run_done (run_done s)
  | drop_done (h : done_unreferenced s = true) : Step s .drop_done (drop_done s)
  | poll (h : s.fut = .waiting) : Step s .poll (poll s)
  | drop (h : s.fut = .waiting) : Step s .drop { s with fut := .dropping }
  | drop_slot (h : s.fut = .dropping) : Step s .drop_slot (drop_slot s)
  | hand_cancel (h : s.fut = .cancelling) :
      Step s .hand_cancel
        { s with fut := .dropped, cancel := if s.loop_closed then .refused else .handed }
  | run_cancel (h : s.cancel = .handed) (hl : s.loop_closed = false) :
      Step s .run_cancel { s with cancel := .ran }
  | close_loop : Step s .close_loop { s with loop_closed := true }

/-- **Every step is one of these.** The lemmas below are by these cases. -/
theorem step_cases {s s' : Call ρ} {l : Label ρ} (h : step s l = some s') : Step s l s' := by
  cases l with
  | enter_start =>
      simp only [step, Option.ite_none_right_eq_some, Option.some.injEq] at h
      exact h.2 ▸ .enter_start h.1.1 h.1.2
  | run_start e =>
      simp only [step, Option.ite_none_right_eq_some, Option.some.injEq] at h
      exact h.2 ▸ .run_start e h.1
  | drop_start =>
      simp only [step, Option.ite_none_right_eq_some, Option.some.injEq] at h
      exact h.2 ▸ .drop_start h.1
  | finish_task r =>
      simp only [step] at h
      split at h <;> cases h
      exact .finish_task r (by assumption)
  | run_done =>
      simp only [step, Option.ite_none_right_eq_some, Option.some.injEq] at h
      exact h.2 ▸ .run_done h.1.1 h.1.2
  | drop_done =>
      simp only [step, Option.ite_none_right_eq_some, Option.some.injEq] at h
      exact h.2 ▸ .drop_done h.1
  | poll =>
      simp only [step] at h
      split at h <;> cases h
      exact .poll (by assumption)
  | drop =>
      simp only [step] at h
      split at h <;> cases h
      exact .drop (by assumption)
  | drop_slot =>
      simp only [step] at h
      split at h <;> cases h
      exact .drop_slot (by assumption)
  | hand_cancel =>
      simp only [step] at h
      split at h <;> cases h
      exact .hand_cancel (by assumption)
  | run_cancel =>
      simp only [step, Option.ite_none_right_eq_some, Option.some.injEq] at h
      exact h.2 ▸ .run_cancel h.1.1 h.1.2
  | close_loop =>
      simp only [step, Option.some.injEq] at h
      exact h ▸ .close_loop

/-! ## The invariant

Where the sender is says how far the call has come; the slot and the guard
between them always hold on to a started task until its cancel was asked for. -/

/-- What the place of the sender says about the rest of the call. -/
def ChannelInv (s : Call ρ) : Prop :=
  match s.channel with
  | .in_start => s.task = none ∧ s.done = .absent ∧ s.start ≠ .dropped ∧ s.sends = []
  | .in_done =>
    (s.done = .registered ∧ s.task = some .running
      ∨ s.done = .scheduled ∧ ∃ r, s.task = some (.finished r)) ∧ s.sends = []
  | .sent r => s.done = .ran ∧ s.task = some (.finished r) ∧ s.sends = [r]
  | .lost =>
    (s.start = .dropped ∧ s.task = none ∧ s.done = .absent ∨ s.task ≠ none ∧ s.done = .dropped)
      ∧ s.sends = []

/-- How far `Start` has come, and what it did with the awaitable. -/
def StartInv (s : Call ρ) : Prop :=
  match s.start with
  | .queued => s.awaitable = .held
  | .entered => s.awaitable = .taken
  | .returned => s.awaitable = .started ∨ s.awaitable = .failed
      ∨ s.slot_dropped = true ∧ (s.awaitable = .closed ∨ s.awaitable = .left ∧ s.close ≠ .present)
  | .dropped => s.awaitable ≠ .held ∧ s.awaitable ≠ .taken

/-- Who holds on to the task: the slot, then the guard, and then nobody, with a
cancel asked for. -/
def GuardInv (s : Call ρ) : Prop :=
  match s.fut with
  | .waiting | .dropping | .complete _ =>
    s.slot_dropped = false ∧ (s.task ≠ none ↔ s.slot_task = true) ∧ s.cancel = .none
  | .cancelling =>
    s.slot_dropped = true ∧ s.slot_task = false ∧ s.task ≠ none ∧ s.cancel = .none
  | .dropped =>
    s.slot_dropped = true ∧ s.slot_task = false ∧ (s.task ≠ none ↔ s.cancel ≠ .none)

/-- The invariant of a call. -/
structure Inv (s : Call ρ) : Prop where
  task_iff : s.task ≠ none ↔ s.awaitable = .started
  start : StartInv s
  channel : ChannelInv s
  guard : GuardInv s
  refused : s.cancel = .refused → s.loop_closed = true
  output : ∀ o, s.fut = .complete o →
    match o with
    | .of_task r => s.channel = .sent r
    | .the_task_was_dropped => s.channel = .lost

/-- The awaitable and the sender are in `Start`. -/
theorem init_inv (close : CloseAttr) : Inv (init close : Call ρ) := by
  constructor <;> simp [init, StartInv, ChannelInv, GuardInv]

/-- There is no task unless `ensure_future` made one. -/
theorem Inv.task_eq_none {s : Call ρ} (hs : Inv s) (ha : s.awaitable ≠ .started) :
    s.task = none := by
  by_contra h
  exact ha (hs.task_iff.1 h)

/-- Before the task is made, the sender is with `Start`. -/
theorem Inv.in_start {s : Call ρ} (hs : Inv s) (ht : s.task = none) (hst : s.start ≠ .dropped) :
    s.channel = .in_start ∧ s.done = .absent ∧ s.sends = [] := by
  have h := hs.channel
  unfold ChannelInv at h
  split at h
  · rename_i hc
    exact ⟨hc, h.2.1, h.2.2.2⟩
  -- every other place of the sender comes with a task or a dropped `Start`
  · rcases h.1 with ⟨-, h⟩ | ⟨-, r, h⟩ <;> simp [ht] at h
  · simp [ht] at h
  · rcases h.1 with ⟨h, -⟩ | ⟨h, -⟩
    · exact absurd h hst
    · exact absurd ht h

/-- While `Done` has not run, the sender is with it. -/
theorem Inv.in_done {s : Call ρ} (hs : Inv s) (hd : s.done = .registered ∨ s.done = .scheduled) :
    s.channel = .in_done := by
  have h := hs.channel
  unfold ChannelInv at h
  split at h
  · simp [h.2.1] at hd
  · assumption
  · simp [h.1] at hd
  · rcases h.1 with ⟨-, -, h⟩ | ⟨-, h⟩ <;> simp [h] at hd

/-- The future is complete only once the sender is gone. -/
theorem Inv.not_complete {s : Call ρ} (hs : Inv s)
    (hc : s.channel = .in_start ∨ s.channel = .in_done) (o : Output ρ) :
    s.fut ≠ .complete o := by
  intro ho
  have h := hs.output o ho
  cases o <;> simp only at h <;> rw [h] at hc <;> simp at hc

/-- `Start` takes the awaitable; the sender stays in it until there is a task. -/
theorem enter_start_inv {s : Call ρ} (hs : Inv s) (hst : s.start = .queued) :
    Inv { s with start := .entered, awaitable := .taken } := by
  have ha : s.awaitable = .held := by
    have h := hs.start
    rwa [StartInv, hst] at h
  have ht := hs.task_eq_none (by simp [ha])
  obtain ⟨hc, hd, hsends⟩ := hs.in_start ht (by simp [hst])
  refine ⟨by simp [ht], rfl, ?_, hs.guard, hs.refused, hs.output⟩
  simp only [ChannelInv, hc]
  exact ⟨ht, hd, by simp, hsends⟩

/-- `Start` returns without a task, and the sender stays with it. -/
theorem Inv.unstart {s : Call ρ} (hs : Inv s) (hst : s.start = .entered) {a : Awaitable}
    (ha : a ≠ .started)
    (hr : a = .failed ∨ s.slot_dropped = true ∧ (a = .closed ∨ a = .left ∧ s.close ≠ .present)) :
    Inv { s with start := .returned, awaitable := a } := by
  have htaken : s.awaitable = .taken := by
    have h := hs.start
    rwa [StartInv, hst] at h
  have ht := hs.task_eq_none (by simp [htaken])
  obtain ⟨hc, hd, hsends⟩ := hs.in_start ht (by simp [hst])
  refine ⟨by simp [ht, ha], .inr hr, ?_, hs.guard, hs.refused, hs.output⟩
  simp only [ChannelInv, hc]
  exact ⟨ht, hd, by simp, hsends⟩

/-- `Start` makes the task, with `Done` registered or, for a task that is done
already, scheduled. -/
theorem Inv.start_task {s : Call ρ} (hs : Inv s) (hst : s.start = .entered)
    (hdrop : s.slot_dropped = false) {t : Task ρ} {d : Done}
    (htd : d = .registered ∧ t = .running ∨ d = .scheduled ∧ ∃ r, t = .finished r) :
    Inv { s with
      start := .returned, awaitable := .started, slot_task := true
      task := some t, done := d, channel := .in_done } := by
  have htaken : s.awaitable = .taken := by
    have h := hs.start
    rwa [StartInv, hst] at h
  have ht := hs.task_eq_none (by simp [htaken])
  obtain ⟨hc, -, hsends⟩ := hs.in_start ht (by simp [hst])
  refine ⟨by simp, .inl rfl, ⟨?_, hsends⟩, ?_, hs.refused, ?_⟩
  · simpa using htd
  · have hg := hs.guard
    unfold GuardInv at hg ⊢
    cases hf : s.fut with
    | waiting | dropping | complete _ =>
        simp only [hf] at hg
        exact ⟨hdrop, by simp, hg.2.2⟩
    -- the guard marks the slot before it is here, and `Start` saw no mark
    | cancelling | dropped =>
        simp only [hf, hdrop] at hg
        cases hg.1
  · exact fun o ho => absurd ho (hs.not_complete (.inl hc) o)

/-- Behind the lock, `Start` finds that nobody waits, fails, or starts the task and hands the
sender to its `Done`. -/
theorem run_start_inv {s : Call ρ} (hs : Inv s) (hst : s.start = .entered) (e : Ensure ρ) :
    Inv (run_start s e) := by
  unfold run_start
  split
  · rename_i hd
    split
    · exact hs.unstart hst (by simp) (.inr ⟨hd, .inl rfl⟩)
    · rename_i hclose
      exact hs.unstart hst (by simp) (.inr ⟨hd, .inr ⟨rfl, hclose⟩⟩)
  · rename_i hd
    rw [Bool.not_eq_true] at hd
    cases e with
    | raises => exact hs.unstart hst (by simp) (.inl rfl)
    | running => exact hs.start_task hst hd (.inl ⟨rfl, rfl⟩)
    | finished r => exact hs.start_task hst hd (.inr ⟨rfl, r, rfl⟩)

/-- A sender that is still in `Start` is dropped with it. -/
theorem drop_start_inv {s : Call ρ} (hs : Inv s) (hu : start_unreferenced s = true) :
    Inv (drop_start s) := by
  have hst : s.start = .returned ∨ s.start = .queued := by
    unfold start_unreferenced at hu
    split at hu
    · exact .inl (by assumption)
    · exact .inr (by assumption)
    · cases hu
  have h1 := hs.task_iff
  have h2 := hs.start
  have h3 := hs.channel
  unfold drop_start
  refine ⟨?_, ?_, ?_, hs.guard, hs.refused, ?_⟩
  · cases ha : s.awaitable <;> simp [h1, ha]
  · unfold StartInv at h2
    rcases hst with hst | hst <;> simp only [hst] at h2
    · rcases h2 with h2 | h2 | ⟨-, h2 | ⟨h2, -⟩⟩ <;> simp [StartInv, h2]
    · simp [StartInv, h2]
  · unfold ChannelInv at h3 ⊢
    cases hc : s.channel <;> simp only [hc] at h3 ⊢
    · exact ⟨.inl ⟨by simp, h3.1, h3.2.1⟩, h3.2.2.2⟩
    · exact h3
    · exact h3
    · exact ⟨h3.1.imp_left fun h => ⟨by simp, h.2⟩, h3.2⟩
  · intro o ho
    have h := hs.output o ho
    cases o <;> simp [h]

/-- The loop schedules the `Done` of a task that ends. -/
theorem finish_task_inv {s : Call ρ} (hs : Inv s) (ht : s.task = some .running) (r : ρ) :
    Inv { s with
      task := some (.finished r)
      done := match s.done with
        | .registered => .scheduled
        | d => d } := by
  have h3 := hs.channel
  have hsome : s.task ≠ none := by simp [ht]
  refine ⟨?_, hs.start, ?_, ?_, hs.refused, hs.output⟩
  · exact iff_of_true (by simp) (hs.task_iff.1 hsome)
  · unfold ChannelInv at h3 ⊢
    cases hc : s.channel <;> simp only [hc] at h3 ⊢
    · exact absurd h3.1 hsome
    · rcases h3.1 with ⟨hd, -⟩ | ⟨-, r', ht'⟩
      · exact ⟨.inr ⟨by simp [hd], r, rfl⟩, h3.2⟩
      · rw [ht] at ht'
        cases ht'
    · have ht' := h3.2.1
      rw [ht] at ht'
      cases ht'
    · rcases h3.1 with ⟨-, hn, -⟩ | ⟨-, hd⟩
      · exact absurd hn hsome
      · exact ⟨.inr ⟨by simp, by simp [hd]⟩, h3.2⟩
  · have hg := hs.guard
    unfold GuardInv at hg ⊢
    simp only [ht, ne_eq, reduceCtorEq, not_false_eq_true] at hg ⊢
    exact hg

/-- `Done` sends once: the sender is used up by it. -/
theorem run_done_inv {s : Call ρ} (hs : Inv s) (hd : s.done = .scheduled) :
    Inv (run_done s) := by
  have hc := hs.in_done (.inr hd)
  have h3 := hs.channel
  simp only [ChannelInv, hc, hd, reduceCtorEq, false_and, false_or, true_and] at h3
  obtain ⟨⟨r, ht⟩, hsends⟩ := h3
  have heq : run_done s
      = { s with done := .ran, channel := .sent r, sends := s.sends ++ [r] } := by
    simp [run_done, ht, hc]
  rw [heq]
  refine ⟨hs.task_iff, hs.start, ⟨rfl, ht, by simp [hsends]⟩, hs.guard, hs.refused, ?_⟩
  exact fun o ho => absurd ho (hs.not_complete (.inr hc) o)

/-- A `Done` that never runs takes its sender with it. -/
theorem drop_done_inv {s : Call ρ} (hs : Inv s) (hu : done_unreferenced s = true) :
    Inv (drop_done s) := by
  have hd : s.done = .registered ∨ s.done = .scheduled := by
    unfold done_unreferenced at hu
    split at hu
    · exact .inl (by assumption)
    · exact .inr (by assumption)
    · cases hu
  have hc := hs.in_done hd
  have h3 := hs.channel
  simp only [ChannelInv, hc] at h3
  have ht : s.task ≠ none := by
    rcases h3.1 with ⟨-, ht⟩ | ⟨-, r, ht⟩ <;> simp [ht]
  unfold drop_done
  rw [hc]
  refine ⟨hs.task_iff, hs.start, ⟨.inr ⟨ht, rfl⟩, h3.2⟩, hs.guard, hs.refused, ?_⟩
  exact fun o ho => absurd ho (hs.not_complete (.inr hc) o)

/-- A future that is complete has disarmed its guard. -/
theorem poll_inv {s : Call ρ} (hs : Inv s) (hf : s.fut = .waiting) : Inv (poll s) := by
  have hg := hs.guard
  simp only [GuardInv, hf] at hg
  unfold poll
  split
  · rename_i r hc
    refine ⟨hs.task_iff, hs.start, hs.channel, hg, hs.refused, fun o ho => ?_⟩
    cases ho
    exact hc
  · rename_i hc
    refine ⟨hs.task_iff, hs.start, hs.channel, hg, hs.refused, fun o ho => ?_⟩
    cases ho
    exact hc
  · exact hs

/-- The runtime begins to drop it. -/
theorem drop_inv {s : Call ρ} (hs : Inv s) (hf : s.fut = .waiting) :
    Inv { s with fut := .dropping } := by
  have hg := hs.guard
  simp only [GuardInv, hf] at hg
  exact ⟨hs.task_iff, hs.start, hs.channel, hg, hs.refused, fun o ho => by cases ho⟩

/-- A task that is in the slot goes to the guard, and one that is not there will not be started. -/
theorem drop_slot_inv {s : Call ρ} (hs : Inv s) (hf : s.fut = .dropping) :
    Inv (drop_slot s) := by
  have hg := hs.guard
  simp only [GuardInv, hf] at hg
  obtain ⟨-, hiff, hcancel⟩ := hg
  have h2 := hs.start
  refine ⟨hs.task_iff, ?_, hs.channel, ?_, hs.refused, ?_⟩
  · unfold StartInv at h2 ⊢
    simp only [drop_slot]
    cases hst : s.start <;> simp only [hst] at h2 ⊢
    · exact h2
    · exact h2
    · exact h2.imp_right (Or.imp_right fun h => ⟨trivial, h.2⟩)
    · exact h2
  · unfold drop_slot
    cases hst : s.slot_task with
    | true => exact ⟨rfl, rfl, hiff.2 hst, hcancel⟩
    -- no task in the slot means that none was made
    | false =>
        refine ⟨rfl, rfl, iff_of_false (fun ht => ?_) fun h => h hcancel⟩
        simpa [hst] using hiff.1 ht
  · intro o ho
    unfold drop_slot at ho
    cases hst : s.slot_task <;> simp [hst] at ho

/-- The guard lets go of the task once its cancel was asked for, if only to be refused. -/
theorem hand_cancel_inv {s : Call ρ} (hs : Inv s) (hf : s.fut = .cancelling) :
    Inv { s with
      fut := .dropped, cancel := if s.loop_closed then .refused else .handed } := by
  have hg := hs.guard
  simp only [GuardInv, hf] at hg
  obtain ⟨hd, hst, ht, -⟩ := hg
  refine ⟨hs.task_iff, hs.start, hs.channel, ⟨hd, hst, iff_of_true ht ?_⟩, ?_,
    fun o ho => by cases ho⟩
  · cases s.loop_closed <;> simp
  · cases hl : s.loop_closed <;> simp

/-- A cancel that ran has been asked for. -/
theorem run_cancel_inv {s : Call ρ} (hs : Inv s) (hc : s.cancel = .handed) :
    Inv { s with cancel := .ran } := by
  have hg := hs.guard
  refine ⟨hs.task_iff, hs.start, hs.channel, ?_, (fun h => by cases h), hs.output⟩
  unfold GuardInv at hg ⊢
  cases hf : s.fut <;> simp only [hf, hc, reduceCtorEq, and_false] at hg ⊢
  simpa using hg

/-- **One step keeps the invariant.** -/
theorem step_inv {s s' : Call ρ} {l : Label ρ} (hs : Inv s) (h : step s l = some s') :
    Inv s' := by
  cases step_cases h with
  | enter_start hst _ => exact enter_start_inv hs hst
  | run_start e hst => exact run_start_inv hs hst e
  | drop_start hu => exact drop_start_inv hs hu
  | finish_task r ht => exact finish_task_inv hs ht r
  | run_done hd _ => exact run_done_inv hs hd
  | drop_done hu => exact drop_done_inv hs hu
  | poll hf => exact poll_inv hs hf
  | drop hf => exact drop_inv hs hf
  | drop_slot hf => exact drop_slot_inv hs hf
  | hand_cancel hf => exact hand_cancel_inv hs hf
  | run_cancel hc _ => exact run_cancel_inv hs hc
  | close_loop => exact ⟨hs.task_iff, hs.start, hs.channel, hs.guard, fun _ => rfl, hs.output⟩

/-- So it holds in every run. -/
theorem run_inv_init {close : CloseAttr} {s : Call ρ} {ls : List (Label ρ)}
    (h : run step (init close) ls = some s) : Inv s :=
  run_inv step (fun _ _ _ => step_inv) (init_inv close) h

/-! ## The contract -/

/-- The awaitable was not started; a `Start` that ran has closed it if it can be
closed (or `ensure_future` had refused it before the future was dropped). -/
def Unstarted (s : Call ρ) : Prop :=
  s.task = none ∧ s.awaitable ≠ .started
    ∧ (s.start = .returned → s.awaitable = .closed ∨ s.awaitable = .failed
      ∨ s.awaitable = .left ∧ s.close ≠ .present)

/-- Without a task the awaitable was not started, and a `Start` that ran has closed it if it
could. -/
theorem Inv.unstarted {s : Call ρ} (hs : Inv s) (ht : s.task = none) : Unstarted s := by
  have ha : s.awaitable ≠ .started := fun h => hs.task_iff.2 h ht
  refine ⟨ht, ha, fun hst => ?_⟩
  have h := hs.start
  simp only [StartInv, hst] at h
  rcases h with h | h | ⟨-, h | h⟩
  · exact absurd h ha
  · exact .inr (.inl h)
  · exact .inl h
  · exact .inr (.inr h)

/-- Nothing is started once the slot says that the future was dropped. -/
theorem step_slot_dropped {s s' : Call ρ} {l : Label ρ}
    (hs : s.slot_dropped = true ∧ s.task = none) (h : step s l = some s') :
    s'.slot_dropped = true ∧ s'.task = none := by
  obtain ⟨hd, ht⟩ := hs
  cases step_cases h with
  -- `Start` looks at the slot before it makes a task
  | run_start e _ => simp [run_start, hd, ht]
  | finish_task r hrun => simp [ht] at hrun
  | run_done _ _ => simp [run_done, ht, hd]
  | poll _ =>
      unfold poll
      split <;> exact ⟨hd, ht⟩
  | drop_slot _ => exact ⟨rfl, ht⟩
  | enter_start _ _ | drop_start _ | drop_done _ | drop _ | hand_cancel _ | run_cancel _ _
  | close_loop => exact ⟨hd, ht⟩

/-- Nothing is sent twice. -/
theorem Inv.sends_le {s : Call ρ} (hs : Inv s) : s.sends.length ≤ 1 := by
  have h := hs.channel
  unfold ChannelInv at h
  split at h <;> grind

/-- **`into_future` neither orphans a task nor cancels one wrongly.** In every
run: (a) once a future was dropped, either its awaitable is not started in that
state or any later one, or its task was and the task's `cancel` was handed to
the loop, unless the loop takes no callbacks; (b) a result is sent at most once,
and what the future yields is that task's, or a `CancelledError` after `Start`
or `Done` was dropped unsent; (c) the task of a future that was not dropped is
not cancelled. -/
theorem into_future_contract {close : CloseAttr} {s : Call ρ} {ls : List (Label ρ)}
    (h : run step (init close) ls = some s) :
    (s.fut = .dropped →
      (∀ ls' s', run step s ls' = some s' → Unstarted s')
      ∨ s.task ≠ none ∧ (s.cancel = .handed ∨ s.cancel = .ran
        ∨ s.cancel = .refused ∧ s.loop_closed = true))
    ∧ (s.sends.length ≤ 1
      ∧ (∀ r, s.fut = .complete (.of_task r) → s.task = some (.finished r) ∧ s.sends = [r])
      ∧ (s.fut = .complete .the_task_was_dropped → s.sends = []
        ∧ (s.start = .dropped ∧ s.task = none ∨ s.done = .dropped)))
    ∧ (s.fut ≠ .dropped → s.cancel = .none) := by
  have hs := run_inv_init h
  have hg := hs.guard
  have hc := hs.channel
  refine ⟨?_, ⟨hs.sends_le, ?_, ?_⟩, ?_⟩
  · intro hf
    simp only [GuardInv, hf] at hg
    obtain ⟨hd, -, hiff⟩ := hg
    by_cases ht : s.task = none
    · refine .inl fun ls' s' h' => ?_
      -- the mark stays, so no later `Start` makes a task either
      have hlater := run_inv step (fun _ _ _ => step_slot_dropped) ⟨hd, ht⟩ h'
      exact (run_inv_init (run_append step h h')).unstarted hlater.2
    · refine .inr ⟨ht, ?_⟩
      cases hcan : s.cancel with
      | none => exact absurd hcan (hiff.1 ht)
      | handed => exact .inl rfl
      | ran => exact .inr (.inl rfl)
      | refused => exact .inr (.inr ⟨rfl, hs.refused hcan⟩)
  · intro r hf
    have hr : s.channel = .sent r := hs.output _ hf
    simp only [ChannelInv, hr] at hc
    exact hc.2
  · intro hf
    have hl : s.channel = .lost := hs.output _ hf
    simp only [ChannelInv, hl] at hc
    obtain ⟨⟨hst, ht, -⟩ | ⟨-, hd⟩, hsend⟩ := hc
    · exact ⟨hsend, .inl ⟨hst, ht⟩⟩
    · exact ⟨hsend, .inr hd⟩
  · intro hf
    unfold GuardInv at hg
    split at hg
    · exact hg.2.2
    · exact hg.2.2
    · exact hg.2.2
    · exact hg.2.2.2
    · exact absurd (by assumption) hf

/-- The future is dropped while `Start` waits for nothing but its turn at the
slot, after `Start` got it: the task runs, and its `cancel` reaches the loop. -/
def dropped_while_running : List (Label ℕ) :=
  [.enter_start, .drop, .run_start .running, .drop_start, .drop_slot, .hand_cancel, .run_cancel]

/-- The future is polled, the task finishes, and the next poll yields its result. -/
def result_received : List (Label ℕ) :=
  [.enter_start, .run_start .running, .drop_start, .poll, .finish_task 3, .run_done, .poll]

/-- The hypotheses can be met: by a future that is dropped while its task runs, and by one that
gets the result. -/
theorem into_future_contract_dropped_while_running :
    (∃ s, run step (init .present) dropped_while_running = some s
      ∧ s.fut = .dropped ∧ s.task = some .running
      ∧ s.task ≠ none ∧ (s.cancel = .handed ∨ s.cancel = .ran
        ∨ s.cancel = .refused ∧ s.loop_closed = true))
    ∧ ∃ s, run step (init .present) result_received = some s
      ∧ s.fut = .complete (.of_task 3)
      ∧ s.task = some (.finished 3) ∧ s.sends = [3] ∧ s.cancel = .none := by
  constructor
  · have h := @into_future_contract ℕ .present _ dropped_while_running rfl
    refine ⟨_, rfl, rfl, rfl, ?_⟩
    rcases h.1 rfl with hu | hc
    · exact absurd (hu [] _ rfl).1 (by decide)
    · exact hc
  · have h := @into_future_contract ℕ .present _ result_received rfl
    obtain ⟨htask, hsends⟩ := h.2.1.2.1 3 rfl
    exact ⟨_, rfl, rfl, htask, hsends, h.2.2 (by decide)⟩

end ZmuxPy.IntoFuture
