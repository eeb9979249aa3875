/-
`zmux.StreamWriter` (`python/zmux/__init__.py`): the asyncio-style writer over a
`SendStream`.

`write` never blocks. It appends to `_buf` and makes sure a flush task runs;
the flush task empties the buffer into one `SendStream.write` at a time;
`_finish` awaits the flush task and then calls `SendStream.finish`. Everything
runs on one event loop, so the unit of interleaving is the stretch between two
awaits: one label below is one call by the application, one step of a task, or
one future of the native stream completing.

What a task is waiting for is part of its state, because cancellation travels
along it: `Task.cancel` cancels the future the task awaits, and only marks the
task (`_must_cancel`) when there is none to cancel or it is already done.
`wait_closed` awaits the finishing task directly, `drain` goes through `shield`.

`past` holds the outcomes of the flush tasks `write` has replaced, since a
`drain` keeps the task it captured. `written` and `log` are history: the bytes
`write` accepted, and what happened on the `SendStream`, in order.
-/
import Mathlib.Data.Int.Notation
import Mathlib.Data.List.Basic
import Mathlib.Data.List.TakeWhile
import Mathlib.Tactic.Basic
import ZmuxPy.Asyncio
import ZmuxPy.Machine

set_option autoImplicit false

namespace ZmuxPy.StreamWriter

open Machine Asyncio

/-! ## The model -/

/-- How an awaited operation, or a task, ended. -/
inductive Outcome where
  | ok
  | raised
  | cancelled
  deriving DecidableEq, Repr

/-- A flush task: before its first step, suspended on `stream.write(data)`, with
that future done and its wake-up scheduled, or ended. -/
inductive Flush where
  | start
  | sending (data : Bytes)
  | sent (data : Bytes) (r : Outcome)
  | ended (r : Outcome)
  deriving DecidableEq, Repr

/-- `Task.done()`. -/
def Flush.done : Flush → Bool
  | .ended _ => true
  | _ => false

/-- The task of `_finish`: before its first step, suspended on the flush task,
suspended on `stream.finish()`, with that future done, or ended. -/
inductive Finish where
  | start
  | awaiting
  | finishing
  | finished (r : Outcome)
  | ended (r : Outcome)
  deriving DecidableEq, Repr

/-- A coroutine of the application in `drain` (on the flush task of number
`task`) or in `wait_closed`, or one of these that returned or raised. -/
inductive Waiter where
  | drain (task : ℕ)
  | wait_closed (must_cancel : Bool)
  | over (r : Outcome)
  deriving DecidableEq, Repr

/-- What happens on the `SendStream`, in order. -/
inductive Event where
  /-- `SendStream.write(data)` is called. -/
  | write (data : Bytes)
  /-- That call's future is done. -/
  | wrote (data : Bytes) (r : Outcome)
  /-- `SendStream.finish()` is called. -/
  | finish
  deriving DecidableEq, Repr

/-- The fields of a `StreamWriter`, with its two tasks, the coroutines that wait, and the
history. -/
structure Writer where
  high_water : ℤ
  buf : Bytes
  queued : ℤ
  task : Option Flush
  task_must_cancel : Bool
  closing : Option Finish
  closing_must_cancel : Bool
  past : List Outcome
  waiters : List Waiter
  written : Bytes
  log : List Event
  deriving DecidableEq, Repr

/-- `StreamWriter.__init__`. -/
def init (high_water : ℤ) : Writer :=
  { high_water, buf := [], queued := 0, task := none, task_must_cancel := false,
    closing := none, closing_must_cancel := false, past := [], waiters := [],
    written := [], log := [] }

/-- `write`; `none` is the `RuntimeError` after a close. -/
def write (w : Writer) (data : Data) : Option Writer :=
  if w.closing.isSome then none
  else
    let w := { w with
      buf := w.buf ++ data.bytes
      queued := w.queued + data.items
      written := w.written ++ data.bytes }
    match w.task with
    | none => some { w with task := some .start }
    -- `self._task.done()`: a new task, whatever became of the old one
    | some (.ended r) =>
      some { w with task := some .start, task_must_cancel := false, past := w.past ++ [r] }
    | some _ => some w

/-- `writelines`: stops at the first `write` that raises. -/
def writelines (w : Writer) : List Data → Writer
  | [] => w
  | d :: ds =>
    match write w d with
    | some w' => writelines w' ds
    | none => w

/-- The head of `_flush`'s loop: send the whole buffer, or end. -/
def flush_loop (w : Writer) : Writer :=
  if w.buf = [] then { w with task := some (.ended .ok) }
  -- the buffer is emptied before the send, and not filled again if it fails
  else { w with task := some (.sending w.buf), buf := [], log := w.log ++ [.write w.buf] }

/-- One step of the flush task. -/
def run_flush (w : Writer) : Option Writer :=
  match w.task with
  | some .start =>
    -- cancelled before its first step, a task never runs
    if w.task_must_cancel then some { w with task := some (.ended .cancelled) }
    else some (flush_loop w)
  | some (.sent data r) =>
    -- `finally`, so also after an error or a cancellation
    let w := { w with queued := w.queued - data.length }
    if w.task_must_cancel then some { w with task := some (.ended .cancelled) }
    else
      match r with
      | .ok => some (flush_loop w)
      | r => some { w with task := some (.ended r) }
  | _ => none

/-- The native stream completes a pending `SendStream.write`. -/
def send_done (w : Writer) (ok : Bool) : Option Writer :=
  match w.task with
  | some (.sending data) =>
    let r : Outcome := if ok then .ok else .raised
    some { w with task := some (.sent data r), log := w.log ++ [.wrote data r] }
  | _ => none

/-- `_finishing`. -/
def finishing (w : Writer) : Writer :=
  match w.closing with
  | none => { w with closing := some .start, closing_must_cancel := false }
  | some _ => w

/-- `write_eof`. -/
def write_eof (w : Writer) : Writer := finishing w

/-- `close`. -/
def close (w : Writer) : Writer := write_eof w

/-- `_finish` once the flush task is done (or there is none): go on to
`stream.finish()`, or re-raise what the flush task raised. -/
def finish (w : Writer) (task : Outcome) : Writer :=
  match task with
  | .ok => { w with closing := some .finishing, log := w.log ++ [.finish] }
  | r => { w with closing := some (.ended r) }

/-- One step of the finishing task. -/
def run_finish (w : Writer) : Option Writer :=
  match w.closing with
  | some .start =>
    if w.closing_must_cancel then some { w with closing := some (.ended .cancelled) }
    else
      match w.task with
      -- nothing was ever written
      | none => some (finish w .ok)
      | some (.ended r) => some (finish w r)
      | some _ => some { w with closing := some .awaiting }
  | some .awaiting =>
    match w.task with
    | some (.ended r) =>
      if w.closing_must_cancel then some { w with closing := some (.ended .cancelled) }
      else some (finish w r)
    | _ => none
  | some (.finished r) =>
    if w.closing_must_cancel then some { w with closing := some (.ended .cancelled) }
    else some { w with closing := some (.ended r) }
  | _ => none

/-- The native stream completes a pending `SendStream.finish`. -/
def finish_done (w : Writer) (ok : Bool) : Option Writer :=
  match w.closing with
  | some .finishing =>
    some { w with closing := some (.finished (if ok then .ok else .raised)) }
  | _ => none

/-- `Task.cancel` on the flush task. -/
def cancel_task (w : Writer) : Writer :=
  match w.task with
  | some .start => { w with task_must_cancel := true }
  | some (.sending data) =>
    { w with task := some (.sent data .cancelled), log := w.log ++ [.wrote data .cancelled] }
  | some (.sent _ _) => { w with task_must_cancel := true }
  | _ => w

/-- `Task.cancel` on the finishing task: it cancels what `_finish` awaits. -/
def cancel_closing (w : Writer) : Writer :=
  match w.closing with
  | some .start => { w with closing_must_cancel := true }
  | some .awaiting =>
    -- awaiting a task that is done: the wake-up is scheduled, only the mark is left
    if (w.task.map Flush.done).getD true then { w with closing_must_cancel := true }
    else cancel_task w
  | some .finishing => { w with closing := some (.finished .cancelled) }
  | some (.finished _) => { w with closing_must_cancel := true }
  | _ => w

/-- `drain` up to its first suspension. A `drain` that does not wait raises the
exception of a flush task that is done, if it has one. -/
def drain (w : Writer) : Writer :=
  match w.task with
  | none => { w with waiters := w.waiters ++ [.over .ok] }
  | some t =>
    if t.done = false ∧ w.queued > w.high_water then
      { w with waiters := w.waiters ++ [.drain w.past.length] }
    else { w with waiters := w.waiters ++ [.over (if t = .ended .raised then .raised else .ok)] }

/-- `wait_closed` up to its first suspension. -/
def wait_closed (w : Writer) : Writer :=
  let w := finishing w
  { w with waiters := w.waiters ++ [.wait_closed false] }

/-- The outcome of the flush task of number `n`, once it is done. -/
def task_outcome (w : Writer) (n : ℕ) : Option Outcome :=
  if n < w.past.length then w.past[n]?
  else
    match w.task with
    | some (.ended r) => some r
    | _ => none

/-- A waiting coroutine goes on once what it awaits is done. -/
def resume (w : Writer) (i : ℕ) : Option Writer :=
  match w.waiters[i]? with
  | some (.drain n) =>
    (task_outcome w n).map fun r => { w with waiters := w.waiters.set i (.over r) }
  | some (.wait_closed mc) =>
    match w.closing with
    | some (.ended r) =>
      some { w with waiters := w.waiters.set i (.over (if mc then .cancelled else r)) }
    | _ => none
  | _ => none

/-- The application cancels a waiting coroutine. `shield` stops it at `drain`;
from `wait_closed` it goes on to the finishing task. -/
def cancel (w : Writer) (i : ℕ) : Option Writer :=
  match w.waiters[i]? with
  | some (.drain _) => some { w with waiters := w.waiters.set i (.over .cancelled) }
  | some (.wait_closed _) =>
    match w.closing with
    | some (.ended _) => some { w with waiters := w.waiters.set i (.wait_closed true) }
    -- no `shield` here: the finishing task is cancelled with the one that awaits it
    | _ => some (cancel_closing w)
  | _ => none

/-- A call by the application, a step of one of the two tasks, or the end of a native future. -/
inductive Label where
  | write (data : Data)
  | writelines (data : List Data)
  | drain
  | write_eof
  | close
  | wait_closed
  | run_flush
  | send_done (ok : Bool)
  | run_finish
  | finish_done (ok : Bool)
  | resume (i : ℕ)
  | cancel (i : ℕ)
  /-- A background task is cancelled from outside (as a closing loop does). -/
  | cancel_task
  | cancel_closing
  deriving Repr

/-- One step. A `write` after a close raises and changes nothing. -/
def step (w : Writer) : Label → Option Writer
  | .write data => some ((write w data).getD w)
  | .writelines data => some (writelines w data)
  | .drain => some (drain w)
  | .write_eof => some (write_eof w)
  | .close => some (close w)
  | .wait_closed => some (wait_closed w)
  | .run_flush => run_flush w
  | .send_done ok => send_done w ok
  | .run_finish => run_finish w
  | .finish_done ok => finish_done w ok
  | .resume i => resume w i
  | .cancel i => cancel w i
  | .cancel_task => some (cancel_task w)
  | .cancel_closing => some (cancel_closing w)

/-! ## Reading the log -/

/-- The data of one event's successful `SendStream.write`. -/
def Event.succeeded : Event → Bytes
  | .wrote data .ok => data
  | _ => []

/-- The data of one event's `SendStream.write`. -/
def Event.issued : Event → Bytes
  | .write data => data
  | _ => []

/-- The data of the successful `SendStream.write` calls, in order. -/
def succeeded (log : List Event) : Bytes := log.flatMap Event.succeeded

/-- The data of all `SendStream.write` calls, in order. -/
def issued (log : List Event) : Bytes := log.flatMap Event.issued

@[simp] theorem succeeded_snoc (log : List Event) (e : Event) :
    succeeded (log ++ [e]) = succeeded log ++ e.succeeded := by
  simp [succeeded]

@[simp] theorem issued_snoc (log : List Event) (e : Event) :
    issued (log ++ [e]) = issued log ++ e.issued := by
  simp [issued]

/-! ## What the waiting coroutines change -/

/-- `drain` adds a coroutine, over or waiting, and changes nothing else. -/
theorem drain_cases (w : Writer) : ∃ x, drain w = { w with waiters := w.waiters ++ [x] } := by
  unfold drain
  split
  · exact ⟨_, rfl⟩
  · split <;> exact ⟨_, rfl⟩

/-- A coroutine that goes on is over. -/
theorem resume_cases {w w' : Writer} {i : ℕ} (h : resume w i = some w') :
    ∃ r, w' = { w with waiters := w.waiters.set i (.over r) } := by
  unfold resume at h
  split at h
  · obtain ⟨r, -, rfl⟩ := Option.map_eq_some_iff.1 h
    exact ⟨r, rfl⟩
  · split at h
    · cases h
      exact ⟨_, rfl⟩
    · cases h
  · cases h

/-- A cancellation stops at the coroutine, or goes on to the finishing task. -/
theorem cancel_cases {w w' : Writer} {i : ℕ} (h : cancel w i = some w') :
    (∃ x, (∀ n, x ≠ .drain n) ∧ w' = { w with waiters := w.waiters.set i x })
      ∨ w' = cancel_closing w := by
  unfold cancel at h
  split at h
  · cases h
    exact .inl ⟨_, by simp, rfl⟩
  · split at h
    · cases h
      exact .inl ⟨_, by simp, rfl⟩
    · cases h
      exact .inr rfl
  · cases h

/-! ## The stream has no hole while no failed task is replaced

A flush task that fails drops the chunk it was sending. Nothing is wrong yet:
the successful sends are still a prefix of what was written. The hole appears
when `write` replaces the failed task, because the new one sends what comes
after the chunk. `Restarts` is that step. -/

/-- The step replaces a flush task that raised or was cancelled. -/
def Restarts (w : Writer) (l : Label) : Prop :=
  w.closing = none ∧ (w.task = some (.ended .raised) ∨ w.task = some (.ended .cancelled))
    ∧ match l with
      | .write _ => True
      | .writelines data => data ≠ []
      | _ => False

/-- Decided by the label first: only the two writing calls can replace a task. -/
instance Restarts.decidable (w : Writer) (l : Label) : Decidable (Restarts w l) :=
  match l with
  | .write _ => inferInstanceAs (Decidable (_ ∧ _ ∧ True))
  | .writelines _ => inferInstanceAs (Decidable (_ ∧ _ ∧ _ ≠ _))
  | .drain | .write_eof | .close | .wait_closed | .run_flush | .send_done _ | .run_finish
  | .finish_done _ | .resume _ | .cancel _ | .cancel_task | .cancel_closing =>
    inferInstanceAs (Decidable (_ ∧ _ ∧ False))

/-- How the successful sends, the chunk in flight and the buffer make up what was
written, by the state of the flush task. -/
def Ordered (w : Writer) : Prop :=
  match w.task with
  | none => w.written = [] ∧ w.buf = [] ∧ succeeded w.log = []
  | some .start => succeeded w.log ++ w.buf = w.written
  | some (.sending d) => succeeded w.log ++ (d ++ w.buf) = w.written
  | some (.sent _ .ok) => succeeded w.log ++ w.buf = w.written
  -- the chunk that failed is still missing here; ending the task drops it
  | some (.sent d _) => succeeded w.log ++ (d ++ w.buf) = w.written
  | some (.ended .ok) => succeeded w.log = w.written ∧ w.buf = []
  | some (.ended _) => succeeded w.log <+: w.written

/-- `finish` is the last thing that happens on the stream, and it happens with
the flush task done (or absent) and the writer closing. -/
def FinishLast (w : Writer) : Prop :=
  .finish ∈ w.log → (∃ pre, w.log = pre ++ [.finish] ∧ .finish ∉ pre)
    ∧ (w.task = none ∨ w.task = some (.ended .ok))
    ∧ w.closing ≠ none ∧ w.closing ≠ some .start ∧ w.closing ≠ some .awaiting

/-- The invariant of a run without restarts. -/
structure Inv (w : Writer) : Prop where
  ordered : Ordered w
  last : FinishLast w

/-- Whatever the flush task is doing, what arrived is a prefix. -/
theorem Ordered.isPrefix {w : Writer} (h : Ordered w) : succeeded w.log <+: w.written := by
  unfold Ordered at h
  split at h
  · rw [h.2.2]
    exact List.nil_prefix
  · exact h ▸ List.prefix_append _ _
  · exact h ▸ List.prefix_append _ _
  · exact h ▸ List.prefix_append _ _
  · exact h ▸ List.prefix_append _ _
  · exact h.1 ▸ List.prefix_rfl
  · exact h

/-- With no flush task, or one that ended well, everything has arrived. These are the states in
which `finish` is called. -/
theorem Ordered.all_sent {w : Writer} (h : Ordered w)
    (ht : w.task = none ∨ w.task = some (.ended .ok)) : succeeded w.log = w.written := by
  rcases ht with ht | ht <;> simp only [Ordered, ht] at h
  · rw [h.2.2, h.1]
  · exact h.1

/-- Nothing was written, and `finish` was not called. -/
theorem init_inv (hw : ℤ) : Inv (init hw) :=
  ⟨⟨rfl, rfl, rfl⟩, fun h => absurd h (by simp [init])⟩

/-- A step of the closing side that does not touch the stream. -/
theorem Inv.closing {w w' : Writer} (h : Inv w) (htask : w'.task = w.task) (hbuf : w'.buf = w.buf)
    (hwritten : w'.written = w.written) (hlog : w'.log = w.log)
    (hcl : .finish ∈ w.log → w'.closing ≠ none ∧ w'.closing ≠ some .start
      ∧ w'.closing ≠ some .awaiting) : Inv w' := by
  obtain ⟨ho, hl⟩ := h
  constructor
  · unfold Ordered at ho ⊢
    rw [htask, hbuf, hwritten, hlog]
    exact ho
  · intro hf
    rw [hlog] at hf
    obtain ⟨hlast, ht, -⟩ := hl hf
    rw [hlog, htask]
    exact ⟨hlast, ht, hcl hf⟩

/-- Only the waiters, or nothing the invariant reads, changed. -/
theorem Inv.congr {w w' : Writer} (h : Inv w) (htask : w'.task = w.task) (hbuf : w'.buf = w.buf)
    (hwritten : w'.written = w.written) (hlog : w'.log = w.log)
    (hclosing : w'.closing = w.closing) : Inv w' :=
  h.closing htask hbuf hwritten hlog fun hf => hclosing ▸ (h.last hf).2.2

/-- A closing writer refuses. -/
theorem closing_of_write {w w' : Writer} {d : Data} (hw : write w d = some w') :
    w.closing = none := by
  unfold write at hw
  split at hw
  · cases hw
  · rename_i hcl
    simpa using hcl

/-- `write` appends to the buffer and to what was written alike. The other two conjuncts are
for the `write` that follows it in a `writelines`. -/
theorem write_inv {w w' : Writer} {d : Data} (h : Inv w)
    (hr : ¬ (w.task = some (.ended .raised) ∨ w.task = some (.ended .cancelled)))
    (hw : write w d = some w') : Inv w' ∧ w'.closing = none
      ∧ ¬ (w'.task = some (.ended .raised) ∨ w'.task = some (.ended .cancelled)) := by
  obtain ⟨ho, hl⟩ := h
  have hcl : w.closing = none := closing_of_write hw
  -- A closing writer refuses, so `finish` has not been called.
  have hnf : .finish ∉ w.log := fun hf => (hl hf).2.2.1 hcl
  simp only [write, hcl, Option.isSome_none, Bool.false_eq_true, if_false] at hw
  match htask : w.task with
  | none =>
      simp only [htask, Option.some.injEq] at hw
      subst hw
      simp only [Ordered, htask] at ho
      refine ⟨⟨?_, fun hf => absurd hf hnf⟩, rfl, by simp⟩
      simp [Ordered, ho]
  | some .start =>
      simp only [htask, Option.some.injEq] at hw
      subst hw
      simp only [Ordered, htask] at ho
      refine ⟨⟨?_, fun hf => absurd hf hnf⟩, rfl, by simp⟩
      simp [Ordered, ← ho]
  | some (.sending c) =>
      simp only [htask, Option.some.injEq] at hw
      subst hw
      simp only [Ordered, htask] at ho
      refine ⟨⟨?_, fun hf => absurd hf hnf⟩, rfl, by simp⟩
      simp [Ordered, ← ho]
  | some (.sent c r) =>
      simp only [htask, Option.some.injEq] at hw
      subst hw
      refine ⟨⟨?_, fun hf => absurd hf hnf⟩, rfl, by simp⟩
      cases r <;> simp only [Ordered, htask] at ho ⊢ <;> simp [← ho]
  | some (.ended r) =>
      simp only [htask, Option.some.injEq] at hw
      subst hw
      refine ⟨⟨?_, fun hf => absurd hf hnf⟩, rfl, by simp⟩
      cases r with
      | ok =>
          simp only [Ordered, htask] at ho
          simp [Ordered, ho.1, ho.2]
      -- a failed task has dropped its chunk: only a restart gets here
      | raised => exact absurd (.inl htask) hr
      | cancelled => exact absurd (.inr htask) hr

/-- What every `write` keeps, `writelines` keeps. -/
theorem writelines_keeps {P : Writer → Prop}
    (hstep : ∀ {w w' : Writer} {d : Data}, P w → write w d = some w' → P w')
    {w : Writer} (h : P w) (ds : List Data) : P (writelines w ds) := by
  induction ds generalizing w with
  | nil => exact h
  | cons d ds ih =>
      simp only [writelines]
      cases hw : write w d with
      | none => exact h
      | some w' => exact ih (hstep h hw)

/-- By induction on the list. On a closed writer it writes nothing at all. -/
theorem writelines_inv {w : Writer} {ds : List Data} (h : Inv w)
    (hr : w.closing = none → ds ≠ [] →
      ¬ (w.task = some (.ended .raised) ∨ w.task = some (.ended .cancelled))) :
    Inv (writelines w ds) := by
  cases ds with
  | nil => exact h
  | cons d ds =>
      have hall := writelines_keeps
        (P := fun w => Inv w ∧ (w.closing = none →
          ¬ (w.task = some (.ended .raised) ∨ w.task = some (.ended .cancelled))))
        (fun h hw => by
          obtain ⟨h', -, hr'⟩ := write_inv h.1 (h.2 (closing_of_write hw)) hw
          exact ⟨h', fun _ => hr'⟩)
        ⟨h, fun hc => hr hc (by simp)⟩ (d :: ds)
      exact hall.1

/-- `finish` was not called while a flush task is under way. -/
theorem Inv.not_finished {w : Writer} (h : Inv w) {t : Flush} (ht : w.task = some t)
    (hd : t.done = false) : .finish ∉ w.log := by
  intro hf
  rcases (h.last hf).2.1 with hn | he
  · simp [ht] at hn
  · rw [ht, Option.some.injEq] at he
    simp [he, Flush.done] at hd

/-- The buffer becomes the chunk in flight, or there is nothing left to send. -/
theorem flush_loop_inv {w : Writer} (ho : succeeded w.log ++ w.buf = w.written)
    (hf : .finish ∉ w.log) : Inv (flush_loop w) := by
  unfold flush_loop
  split
  · rename_i hb
    refine ⟨?_, fun h => absurd h hf⟩
    rw [hb, List.append_nil] at ho
    exact ⟨ho, hb⟩
  -- the chunk moves from the buffer into flight
  · refine ⟨?_, fun h => absurd h (by simpa using hf)⟩
    simp [Ordered, Event.succeeded, ho]

/-- A task that goes on has its chunk on the stream. One that fails drops it, and what arrived
is a prefix from then on. -/
theorem run_flush_inv {w w' : Writer} (h : Inv w) (hw : run_flush w = some w') : Inv w' := by
  match htask : w.task with
  | some .start =>
      have hf := h.not_finished htask rfl
      have ho := h.ordered
      simp only [Ordered, htask] at ho
      simp only [run_flush, htask] at hw
      split at hw
      · cases hw
        exact ⟨ho ▸ List.prefix_append _ _, fun h => absurd h hf⟩
      · cases hw
        exact flush_loop_inv ho hf
  | some (.sent d r) =>
      have hf := h.not_finished htask rfl
      have ho := h.ordered
      simp only [run_flush, htask] at hw
      split at hw
      · cases hw
        exact ⟨ho.isPrefix, fun h => absurd h hf⟩
      · cases r with
        | ok =>
            cases hw
            simp only [Ordered, htask] at ho
            exact flush_loop_inv (w := { w with queued := _ }) ho hf
        | raised | cancelled =>
            cases hw
            exact ⟨ho.isPrefix, fun h => absurd h hf⟩
  | none | some (.sending _) | some (.ended _) => simp [run_flush, htask] at hw

/-- The chunk goes from being in flight to having arrived, if the send went well. -/
theorem send_done_inv {w w' : Writer} {ok : Bool} (h : Inv w) (hw : send_done w ok = some w') :
    Inv w' := by
  match htask : w.task with
  | some (.sending d) =>
      have hf := h.not_finished htask rfl
      have ho := h.ordered
      simp only [Ordered, htask] at ho
      simp only [send_done, htask, Option.some.injEq] at hw
      subst hw
      refine ⟨?_, fun h => absurd h (by simpa using hf)⟩
      cases ok <;> simp [Ordered, Event.succeeded, ← ho]
  | none | some .start | some (.sent _ _) | some (.ended _) => simp [send_done, htask] at hw

/-- A cancelled send counts as one that did not arrive. -/
theorem cancel_task_inv {w : Writer} (h : Inv w) : Inv (cancel_task w) := by
  match htask : w.task with
  | some (.sending d) =>
      have hf := h.not_finished htask rfl
      have ho := h.ordered
      simp only [Ordered, htask] at ho
      simp only [cancel_task, htask]
      refine ⟨?_, fun h => absurd h (by simpa using hf)⟩
      simp [Ordered, Event.succeeded, ho]
  | some .start | some (.sent _ _) =>
      simp only [cancel_task, htask]
      exact h.congr htask.symm rfl rfl rfl rfl
  | none | some (.ended _) =>
      simp only [cancel_task, htask]
      exact h

/-- A close calls nothing yet. -/
theorem finishing_inv {w : Writer} (h : Inv w) : Inv (finishing w) := by
  unfold finishing
  split
  · rename_i hc
    exact h.closing rfl rfl rfl rfl (fun hf => absurd hc (h.last hf).2.2.1)
  · exact h

/-- `_finish` goes on to `stream.finish()` only behind a flush task that sent
everything. -/
theorem finish_inv {w : Writer} {r : Outcome} (h : Inv w)
    (ht : w.task = none ∧ r = .ok ∨ w.task = some (.ended r))
    (hc : w.closing = some .start ∨ w.closing = some .awaiting) : Inv (finish w r) := by
  have hf : .finish ∉ w.log := by
    intro hf
    obtain ⟨-, -, -, h₁, h₂⟩ := h.last hf
    exact hc.elim h₁ h₂
  cases r with
  | ok =>
      have ht' : w.task = none ∨ w.task = some (.ended .ok) := ht.imp_left (·.1)
      refine ⟨?_, fun _ => ⟨⟨w.log, rfl, hf⟩, ht', by simp [finish]⟩⟩
      have ho := h.ordered
      -- calling `finish` adds no data to the log
      rcases ht' with ht' | ht' <;> simp only [Ordered, ht', finish] at ho ⊢ <;>
        simpa [Event.succeeded] using ho
  | raised | cancelled => exact h.closing rfl rfl rfl rfl (fun hf' => absurd hf' hf)

/-- `finish` is called once, when the flush task is done or there was none. -/
theorem run_finish_inv {w w' : Writer} (h : Inv w) (hw : run_finish w = some w') : Inv w' := by
  match hc : w.closing with
  | some .start =>
      have hf : .finish ∉ w.log := fun hf => (h.last hf).2.2.2.1 hc
      simp only [run_finish, hc] at hw
      split at hw
      · cases hw
        exact h.closing rfl rfl rfl rfl (fun hf' => absurd hf' hf)
      · split at hw
        · cases hw
          exact finish_inv h (.inl ⟨‹_›, rfl⟩) (.inl hc)
        · cases hw
          exact finish_inv h (.inr ‹_›) (.inl hc)
        · cases hw
          exact h.closing rfl rfl rfl rfl (fun hf' => absurd hf' hf)
  | some .awaiting =>
      have hf : .finish ∉ w.log := fun hf => (h.last hf).2.2.2.2 hc
      simp only [run_finish, hc] at hw
      split at hw
      · split at hw
        · cases hw
          exact h.closing rfl rfl rfl rfl (fun hf' => absurd hf' hf)
        · cases hw
          exact finish_inv h (.inr ‹_›) (.inr hc)
      · cases hw
  | some (.finished r) =>
      simp only [run_finish, hc] at hw
      split at hw <;> cases hw <;> exact h.closing rfl rfl rfl rfl (fun _ => by simp)
  | none | some .finishing | some (.ended _) => simp [run_finish, hc] at hw

/-- Its result calls nothing more, -/
theorem finish_done_inv {w w' : Writer} {ok : Bool} (h : Inv w)
    (hw : finish_done w ok = some w') : Inv w' := by
  unfold finish_done at hw
  split at hw
  · cases hw
    exact h.closing rfl rfl rfl rfl (fun _ => by simp)
  · cases hw

/-- and nor does a cancellation, which may reach the flush task. -/
theorem cancel_closing_inv {w : Writer} (h : Inv w) : Inv (cancel_closing w) := by
  unfold cancel_closing
  split
  · exact h.congr rfl rfl rfl rfl rfl
  · split
    · exact h.congr rfl rfl rfl rfl rfl
    · exact cancel_task_inv h
  · exact h.closing rfl rfl rfl rfl (fun _ => by simp)
  · exact h.congr rfl rfl rfl rfl rfl
  · exact h

/-- **One step keeps the invariant** if it does not replace a failed flush task. -/
theorem step_inv {w w' : Writer} {l : Label} (h : Inv w) (hr : ¬ Restarts w l)
    (hw : step w l = some w') : Inv w' := by
  cases l with
  | write d =>
      simp only [step, Option.some.injEq] at hw
      subst hw
      cases hwr : write w d with
      | none => exact h
      | some w' => exact (write_inv h (fun ht => hr ⟨closing_of_write hwr, ht, trivial⟩) hwr).1
  | writelines ds =>
      simp only [step, Option.some.injEq] at hw
      subst hw
      exact writelines_inv h (fun hcl hds ht => hr ⟨hcl, ht, hds⟩)
  | drain =>
      obtain ⟨x, hx⟩ := drain_cases w
      simp only [step, hx, Option.some.injEq] at hw
      subst hw
      -- the waiting coroutines are no part of the invariant
      exact h.congr rfl rfl rfl rfl rfl
  | write_eof | close =>
      simp only [step, close, write_eof, Option.some.injEq] at hw
      exact hw ▸ finishing_inv h
  | wait_closed =>
      simp only [step, wait_closed, Option.some.injEq] at hw
      subst hw
      exact (finishing_inv h).congr rfl rfl rfl rfl rfl
  | run_flush => exact run_flush_inv h hw
  | send_done ok => exact send_done_inv h hw
  | run_finish => exact run_finish_inv h hw
  | finish_done ok => exact finish_done_inv h hw
  | resume i =>
      obtain ⟨r, rfl⟩ := resume_cases hw
      exact h.congr rfl rfl rfl rfl rfl
  | cancel i =>
      rcases cancel_cases hw with ⟨x, -, rfl⟩ | rfl
      · exact h.congr rfl rfl rfl rfl rfl
      · exact cancel_closing_inv h
  | cancel_task =>
      simp only [step, Option.some.injEq] at hw
      exact hw ▸ cancel_task_inv h
  | cancel_closing =>
      simp only [step, Option.some.injEq] at hw
      exact hw ▸ cancel_closing_inv h

/-- **No hole, while no failed flush task is replaced.** In every run in which
`write` is never called on a writer whose flush task raised or was cancelled,
the successful sends are a prefix of what was written, and `finish` was called
only with that prefix being everything. -/
theorem no_hole_without_restart {hw : ℤ} {ls : List Label} {w : Writer}
    (h : run step (init hw) ls = some w)
    (hr : Meets step (fun w l => ¬ Restarts w l) (init hw) ls) :
    succeeded w.log <+: w.written ∧
      ∀ pre post, w.log = pre ++ .finish :: post → succeeded pre = w.written := by
  have hinv : Inv w := meets_inv step (fun _ _ _ hs hc hstep => step_inv hs hc hstep)
    (init_inv hw) hr h
  refine ⟨hinv.ordered.isPrefix, ?_⟩
  intro pre post hlog
  obtain ⟨⟨pre', hpre', hnf⟩, ht, -⟩ := hinv.last (by simp [hlog])
  -- The log has one `finish`, so the two splits are the same.
  obtain ⟨rfl, -, rfl⟩ :=
    (List.append_cons_inj_of_notMem hnf (by simp)).1 (hpre'.symm.trans hlog)
  rw [← hinv.ordered.all_sent ht, hpre']
  simp [Event.succeeded]

/-- A failed send that nothing follows: the writer closes, and `finish` is not
called. -/
def failed_close : List Label :=
  [.write (.ofBytes [97]), .run_flush, .write (.ofBytes [98]), .send_done true, .run_flush,
    .send_done false, .run_flush, .close, .run_finish]

/-- The hypotheses can be met by a run in which a send fails. -/
theorem no_hole_without_restart_failed_close :
    ∃ w, run step (init 65536) failed_close = some w
      ∧ succeeded w.log <+: w.written
      ∧ ∀ pre post, w.log = pre ++ .finish :: post → succeeded pre = w.written :=
  ⟨_, rfl, @no_hole_without_restart 65536 failed_close _ rfl (by decide)⟩

/-- **The hole.** The send of `a` fails, `write(b)` replaces the failed task and
its send succeeds, and the close awaits only the second task: the peer receives
`b` and a clean end. -/
theorem restart_leaves_hole :
    ∃ w, run step (init 65536)
        [.write (.ofBytes [97]), .run_flush, .send_done false, .run_flush,
          .write (.ofBytes [98]), .run_flush, .send_done true, .run_flush,
          .close, .run_finish] = some w
      ∧ ¬ succeeded w.log <+: w.written
      ∧ ∃ pre post, w.log = pre ++ .finish :: post ∧ succeeded pre ≠ w.written :=
  ⟨_, rfl, by decide,
    [.write [97], .wrote [97] .raised, .write [98], .wrote [98] .ok], [], rfl, by decide⟩

/-! ## What the calls of a run handed over

`written` is history that the model keeps for itself. Here it is tied to the
calls: it is the data of the `write` and `writelines` calls before the first
call that closes the writer, and the writer is closing exactly from that call
on. Results about a run can then speak of its calls alone. -/

/-- The bytes a call hands to the writer. -/
def Label.data : Label → Bytes
  | .write data => data.bytes
  | .writelines data => data.flatMap Data.bytes
  | _ => []

/-- The calls that close the writer. -/
def Label.closes : Label → Bool
  | .write_eof | .close | .wait_closed => true
  | _ => false

/-- The bytes written in a run: the data of the calls before the first one that
closes the writer. A `write` after it raises and writes nothing. -/
def given (ls : List Label) : Bytes := (ls.takeWhile fun l => !l.closes).flatMap Label.data

/-- A call that closes the writer hands nothing over. -/
theorem Label.data_of_closes {l : Label} (h : l.closes = true) : l.data = [] := by
  cases l <;> first | rfl | cases h

/-- A call on an open writer adds its data to what was given; -/
theorem given_snoc_open {ls : List Label} (h : ∀ l ∈ ls, l.closes = false) (l : Label) :
    given (ls ++ [l]) = given ls ++ l.data := by
  have hall : ∀ a ∈ ls, (!a.closes) = true := fun a ha => by rw [h a ha, Bool.not_false]
  unfold given
  rw [List.takeWhile_append_of_pos hall, List.takeWhile_eq_self_iff.2 hall, List.flatMap_append]
  cases hl : l.closes with
  | false => simp [hl]
  | true => simp [hl, l.data_of_closes hl]

/-- After a call that closes the writer, no call hands anything over. -/
theorem given_snoc_closed {ls : List Label} (h : ∃ l ∈ ls, l.closes = true) (l : Label) :
    given (ls ++ [l]) = given ls := by
  obtain ⟨c, hc, hcl⟩ := h
  have hlen : (ls.takeWhile fun l => !l.closes).length ≠ ls.length := by
    intro hlen
    have hself := (List.takeWhile_prefix fun l : Label => !l.closes).eq_of_length hlen
    have := List.takeWhile_eq_self_iff.1 hself c hc
    rw [hcl] at this
    cases this
  unfold given
  rw [List.takeWhile_append, if_neg hlen]

/-- A `write` that does not raise adds its data, and the writer stays open. -/
theorem write_written {w w' : Writer} {d : Data} (hw : write w d = some w') :
    w'.written = w.written ++ d.bytes ∧ w'.closing = none := by
  have hcl := closing_of_write hw
  simp only [write, hcl, Option.isSome_none, Bool.false_eq_true, if_false] at hw
  split at hw <;> cases hw <;> exact ⟨rfl, rfl⟩

/-- A closing writer raises. -/
theorem write_of_closing {w : Writer} (h : w.closing ≠ none) (d : Data) : write w d = none := by
  unfold write
  rw [if_pos (Option.isSome_iff_ne_none.2 h)]

/-- A closing one takes none of the lines. -/
theorem writelines_of_closing {w : Writer} (h : w.closing ≠ none) (ds : List Data) :
    writelines w ds = w := by
  cases ds with
  | nil => rfl
  | cons d ds => rw [writelines, write_of_closing h]

/-- A writer that is not closing takes everything. -/
theorem exists_write {w : Writer} (h : w.closing = none) (d : Data) :
    ∃ w', write w d = some w' := by
  simp only [write, h, Option.isSome_none, Bool.false_eq_true, if_false]
  split <;> exact ⟨_, rfl⟩

/-- An open writer takes every one of the lines. -/
theorem writelines_written {w : Writer} (h : w.closing = none) (ds : List Data) :
    (writelines w ds).written = w.written ++ ds.flatMap Data.bytes
      ∧ (writelines w ds).closing = none := by
  induction ds generalizing w with
  | nil => exact ⟨(List.append_nil _).symm, h⟩
  | cons d ds ih =>
      obtain ⟨w', hw⟩ := exists_write h d
      obtain ⟨hwritten, hcl⟩ := write_written hw
      obtain ⟨hrest, hcl'⟩ := ih hcl
      simp only [writelines, hw]
      refine ⟨?_, hcl'⟩
      rw [hrest, hwritten, List.flatMap_cons, List.append_assoc]

/-- What the tasks, the native stream and the cancellations leave alone. -/
structure Untouched (w w' : Writer) : Prop where
  written : w'.written = w.written
  closing : w'.closing = none ↔ w.closing = none

/-- No change leaves everything alone. -/
theorem Untouched.refl (w : Writer) : Untouched w w := ⟨rfl, Iff.rfl⟩

/-- The flush task moves bytes that were written before, -/
theorem flush_loop_untouched (w : Writer) : Untouched w (flush_loop w) := by
  unfold flush_loop
  split <;> exact ⟨rfl, Iff.rfl⟩

/-- at every one of its steps, -/
theorem run_flush_untouched {w w' : Writer} (hw : run_flush w = some w') : Untouched w w' := by
  unfold run_flush at hw
  split at hw
  · split at hw <;> cases hw
    · exact ⟨rfl, Iff.rfl⟩
    · exact flush_loop_untouched w
  · dsimp only at hw
    split at hw
    · cases hw
      exact ⟨rfl, Iff.rfl⟩
    · split at hw <;> cases hw
      · have h := flush_loop_untouched { w with queued := w.queued - (‹Bytes›.length : ℤ) }
        exact ⟨h.written, h.closing⟩
      · exact ⟨rfl, Iff.rfl⟩
  · cases hw

/-- and the stream completes what it was given. -/
theorem send_done_untouched {w w' : Writer} {ok : Bool} (hw : send_done w ok = some w') :
    Untouched w w' := by
  unfold send_done at hw
  split at hw <;> cases hw
  exact ⟨rfl, Iff.rfl⟩

/-- The finishing task runs on a writer that is closed, and leaves it closed, -/
theorem finish_untouched {w : Writer} (h : w.closing ≠ none) (r : Outcome) :
    Untouched w (finish w r) := by
  cases r <;> exact ⟨rfl, by simp [finish, h]⟩

/-- The finishing task is there before its step and after it. -/
theorem run_finish_untouched {w w' : Writer} (hw : run_finish w = some w') : Untouched w w' := by
  have hcl : w.closing ≠ none := by
    intro hcl
    simp [run_finish, hcl] at hw
  unfold run_finish at hw
  split at hw
  · split at hw
    · cases hw
      exact ⟨rfl, by simp [hcl]⟩
    · split at hw <;> cases hw
      · exact finish_untouched hcl _
      · exact finish_untouched hcl _
      · exact ⟨rfl, by simp [hcl]⟩
  · split at hw
    · split at hw <;> cases hw
      · exact ⟨rfl, by simp [hcl]⟩
      · exact finish_untouched hcl _
    · cases hw
  · split at hw <;> cases hw <;> exact ⟨rfl, by simp [hcl]⟩
  · cases hw

/-- also when `stream.finish()` is done. -/
theorem finish_done_untouched {w w' : Writer} {ok : Bool} (hw : finish_done w ok = some w') :
    Untouched w w' := by
  unfold finish_done at hw
  split at hw
  · rename_i hcl
    cases hw
    exact ⟨rfl, by simp [hcl]⟩
  · cases hw

/-- A cancellation takes nothing back from what was written, -/
theorem cancel_task_untouched (w : Writer) : Untouched w (cancel_task w) := by
  unfold cancel_task
  split <;> exact ⟨rfl, Iff.rfl⟩

/-- and does not open the writer again. -/
theorem cancel_closing_untouched (w : Writer) : Untouched w (cancel_closing w) := by
  unfold cancel_closing
  split
  · exact ⟨rfl, Iff.rfl⟩
  · split
    · exact ⟨rfl, Iff.rfl⟩
    · exact cancel_task_untouched w
  · rename_i hcl
    exact ⟨rfl, by simp [hcl]⟩
  · exact ⟨rfl, Iff.rfl⟩
  · exact .refl w

/-- A run's history is the calls' own: what was written is what they handed over, and the
writer is open while none of them closed it. -/
structure Asked (ls : List Label) (w : Writer) : Prop where
  written : w.written = given ls
  closing : w.closing = none ↔ ∀ l ∈ ls, l.closes = false

/-- A step that is not a call of the application adds nothing to the history, open or closed. -/
theorem Asked.untouched {ls : List Label} {w w' : Writer} {l : Label} (h : Asked ls w)
    (hu : Untouched w w') (hl : l.closes = false) (hd : l.data = []) : Asked (ls ++ [l]) w' := by
  constructor
  · rw [hu.written, h.written]
    by_cases hcl : w.closing = none
    · rw [given_snoc_open (h.closing.1 hcl), hd, List.append_nil]
    · exact (given_snoc_closed (by simpa using mt h.closing.2 hcl) l).symm
  · rw [hu.closing, h.closing]
    simp [or_imp, forall_and, hl]

/-- The three calls that close go through `_finishing`, whatever else they do. -/
theorem Asked.finishing {ls : List Label} {w w' : Writer} {l : Label} (h : Asked ls w)
    (hwritten : w'.written = (finishing w).written) (hclosing : w'.closing = (finishing w).closing)
    (hl : l.closes = true) : Asked (ls ++ [l]) w' := by
  constructor
  · have hsame : (StreamWriter.finishing w).written = w.written := by
      unfold StreamWriter.finishing
      split <;> rfl
    rw [hwritten, hsame, h.written]
    by_cases hcl : w.closing = none
    · rw [given_snoc_open (h.closing.1 hcl), l.data_of_closes hl, List.append_nil]
    · exact (given_snoc_closed (by simpa using mt h.closing.2 hcl) l).symm
  · have hsome : (StreamWriter.finishing w).closing ≠ none := by
      unfold StreamWriter.finishing
      split
      · exact Option.some_ne_none _
      · rename_i hcl
        simp [hcl]
    rw [hclosing]
    simp [hsome, hl]

/-- `write` and `writelines`: an open writer takes all of the data, a closing one none. -/
theorem Asked.wrote {ls : List Label} {w w' : Writer} {l : Label} (h : Asked ls w)
    (hl : l.closes = false)
    (hopen : w.closing = none → w'.written = w.written ++ l.data ∧ w'.closing = none)
    (hclosed : w.closing ≠ none → w' = w) : Asked (ls ++ [l]) w' := by
  by_cases hcl : w.closing = none
  · obtain ⟨hwritten, hcl'⟩ := hopen hcl
    have hall := h.closing.1 hcl
    refine ⟨by rw [hwritten, h.written, given_snoc_open hall], ?_⟩
    simp only [hcl', true_iff, List.mem_append, List.mem_singleton]
    rintro m (hm | rfl)
    · exact hall m hm
    · exact hl
  · have hex : ∃ m ∈ ls, m.closes = true := by simpa using mt h.closing.2 hcl
    rw [hclosed hcl]
    refine ⟨by rw [h.written, given_snoc_closed hex], ?_⟩
    rw [h.closing]
    simp [or_imp, forall_and, hl]

/-- **One step**: each of the calls hands its data over, closes, or does neither. -/
theorem step_asked {ls : List Label} {w w' : Writer} {l : Label} (h : Asked ls w)
    (hw : step w l = some w') : Asked (ls ++ [l]) w' := by
  cases l with
  | write d =>
      simp only [step, Option.some.injEq] at hw
      subst hw
      refine h.wrote rfl ?_ ?_
      · intro hcl
        obtain ⟨w', hw'⟩ := exists_write hcl d
        rw [hw']
        exact write_written hw'
      · intro hcl
        -- the `RuntimeError` changes nothing, and a call behind a close gives nothing
        rw [write_of_closing hcl]
        rfl
  | writelines ds =>
      simp only [step, Option.some.injEq] at hw
      subst hw
      exact h.wrote rfl (fun hcl => writelines_written hcl ds)
        (fun hcl => writelines_of_closing hcl ds)
  | drain =>
      obtain ⟨x, hx⟩ := drain_cases w
      simp only [step, hx, Option.some.injEq] at hw
      subst hw
      exact h.untouched ⟨rfl, Iff.rfl⟩ rfl rfl
  | write_eof | close =>
      simp only [step, close, write_eof, Option.some.injEq] at hw
      subst hw
      exact h.finishing rfl rfl rfl
  | wait_closed =>
      simp only [step, wait_closed, Option.some.injEq] at hw
      subst hw
      exact h.finishing rfl rfl rfl
  | run_flush => exact h.untouched (run_flush_untouched hw) rfl rfl
  | send_done ok => exact h.untouched (send_done_untouched hw) rfl rfl
  | run_finish => exact h.untouched (run_finish_untouched hw) rfl rfl
  | finish_done ok => exact h.untouched (finish_done_untouched hw) rfl rfl
  | resume i =>
      obtain ⟨r, rfl⟩ := resume_cases hw
      exact h.untouched ⟨rfl, Iff.rfl⟩ rfl rfl
  | cancel i =>
      rcases cancel_cases hw with ⟨x, -, rfl⟩ | rfl
      · exact h.untouched ⟨rfl, Iff.rfl⟩ rfl rfl
      · exact h.untouched (cancel_closing_untouched w) rfl rfl
  | cancel_task =>
      simp only [step, Option.some.injEq] at hw
      exact h.untouched (hw ▸ cancel_task_untouched w) rfl rfl
  | cancel_closing =>
      simp only [step, Option.some.injEq] at hw
      exact h.untouched (hw ▸ cancel_closing_untouched w) rfl rfl

/-- **What was written in a run is what its calls handed over**, failures and cancellations
or not. -/
theorem run_asked {hw : ℤ} {ls : List Label} {w : Writer}
    (h : run step (init hw) ls = some w) : Asked ls w :=
  run_inv_past step (fun _ _ _ _ hs hstep => step_asked hs hstep)
    ⟨rfl, by simp [init]⟩ h

/-! ## The good path -/

/-- Neither a failing `SendStream.write` nor a cancellation. -/
def Label.good : Label → Bool
  | .send_done ok => ok
  | .cancel _ | .cancel_task | .cancel_closing => false
  | _ => true

/-- The states a flush task goes through when nothing fails. -/
def Flush.good : Flush → Bool
  | .start | .sending _ | .sent _ .ok | .ended .ok => true
  | _ => false

/-- The chunk handed to `SendStream.write` and not completed yet. -/
def in_flight (w : Writer) : Bytes :=
  match w.task with
  | some (.sending d) => d
  | _ => []

/-- The invariant of the good path: nothing ended early, every completed send
was issued, and `finish` is called when the finishing task gets past the flush
task. -/
structure Good (w : Writer) : Prop where
  inv : Inv w
  task : ∀ t, w.task = some t → t.good = true
  uncancelled : w.task_must_cancel = false ∧ w.closing_must_cancel = false
  issued : issued w.log = succeeded w.log ++ in_flight w
  awaiting : w.closing = some .awaiting → w.task ≠ none
  called : w.closing = none ∨ w.closing = some .start ∨ w.closing = some .awaiting
    ∨ .finish ∈ w.log

/-- A new writer is on the good path. -/
theorem init_good (hw : ℤ) : Good (init hw) :=
  ⟨init_inv hw, by simp [init], ⟨rfl, rfl⟩, rfl, by simp [init], .inl rfl⟩

/-- There is no failed task to replace, so the invariant above holds throughout. -/
theorem Good.not_restarts {w : Writer} (h : Good w) (l : Label) : ¬ Restarts w l := by
  rintro ⟨-, ht | ht, -⟩
  · exact absurd (h.task _ ht) (by decide)
  · exact absurd (h.task _ ht) (by decide)

/-- Neither the flush task, the log nor the closing state changed. -/
theorem Good.congr {w w' : Writer} (h : Good w) (hinv : Inv w') (htask : w'.task = w.task)
    (hlog : w'.log = w.log) (hclosing : w'.closing = w.closing)
    (htm : w'.task_must_cancel = w.task_must_cancel)
    (hcm : w'.closing_must_cancel = w.closing_must_cancel) : Good w' := by
  refine ⟨hinv, ?_, ?_, ?_, ?_, ?_⟩
  · rw [htask]
    exact h.task
  · rw [htm, hcm]
    exact h.uncancelled
  · have hi := h.issued
    unfold in_flight at hi ⊢
    rw [hlog, htask]
    exact hi
  · rw [hclosing, htask]
    exact h.awaiting
  · rw [hclosing, hlog]
    exact h.called

/-- A `write` starts a task if there is none at work, -/
theorem write_good {w w' : Writer} {d : Data} (h : Good w) (hw : write w d = some w') :
    Good w' := by
  have hinv : Inv w' :=
    (write_inv h.inv (fun ht => ht.elim (fun e => absurd (h.task _ e) (by decide))
      (fun e => absurd (h.task _ e) (by decide))) hw).1
  have hi := h.issued
  unfold write at hw
  split at hw
  · cases hw
  · rename_i hcl
    have hcl' : w.closing = none := by simpa using hcl
    simp only at hw
    split at hw
    · rename_i ht
      cases hw
      refine ⟨hinv, by simp [Flush.good], h.uncancelled, ?_, by simp, .inl hcl'⟩
      simpa [in_flight, ht] using hi
    · rename_i r ht
      cases hw
      refine ⟨hinv, by simp [Flush.good], ⟨rfl, h.uncancelled.2⟩, ?_, by simp, .inl hcl'⟩
      simpa [in_flight, ht] using hi
    · cases hw
      exact h.congr hinv rfl rfl rfl rfl rfl

/-- and so do several. -/
theorem writelines_good {w : Writer} {ds : List Data} (h : Good w) : Good (writelines w ds) :=
  writelines_keeps write_good h ds

/-- At the head of the loop the completed sends are all that were issued. -/
theorem flush_loop_good {w : Writer} (hinv : Inv (flush_loop w))
    (hu : w.task_must_cancel = false ∧ w.closing_must_cancel = false)
    (hi : issued w.log = succeeded w.log)
    (hc : w.closing = none ∨ w.closing = some .start ∨ w.closing = some .awaiting
      ∨ .finish ∈ w.log) : Good (flush_loop w) := by
  refine ⟨hinv, ?_, ?_, ?_, ?_, ?_⟩ <;> unfold flush_loop <;> split
  · simp [Flush.good]
  · simp [Flush.good]
  · exact hu
  · exact hu
  · simpa [in_flight] using hi
  · simp [in_flight, Event.issued, Event.succeeded, hi]
  · simp
  · simp
  · exact hc
  · exact hc.imp_right (Or.imp_right (Or.imp_right (List.mem_append_left _)))

/-- A flush task that is not marked and whose send went well goes on. -/
theorem run_flush_good {w w' : Writer} (h : Good w) (hw : run_flush w = some w') : Good w' := by
  have hinv := run_flush_inv h.inv hw
  have hi := h.issued
  match htask : w.task with
  | some .start =>
      simp only [run_flush, htask, h.uncancelled.1, Bool.false_eq_true, if_false,
        Option.some.injEq] at hw
      subst hw
      exact flush_loop_good hinv h.uncancelled (by simpa [in_flight, htask] using hi) h.called
  | some (.sent d r) =>
      have hr : r = .ok := by
        have := h.task _ htask
        cases r <;> simp [Flush.good] at this ⊢
      subst hr
      simp only [run_flush, htask, h.uncancelled.1, Bool.false_eq_true, if_false,
        Option.some.injEq] at hw
      subst hw
      exact flush_loop_good hinv ⟨rfl, h.uncancelled.2⟩ (by simpa [in_flight, htask] using hi)
        h.called
  | none | some (.sending _) | some (.ended _) => simp [run_flush, htask] at hw

/-- The chunk in flight is the one that has arrived. -/
theorem send_done_good {w w' : Writer} (h : Good w) (hw : send_done w true = some w') :
    Good w' := by
  have hinv := send_done_inv h.inv hw
  have hi := h.issued
  match htask : w.task with
  | some (.sending d) =>
      simp only [send_done, htask, if_true, Option.some.injEq] at hw
      subst hw
      refine ⟨hinv, by simp [Flush.good], h.uncancelled, ?_, by simp, ?_⟩
      · simpa [in_flight, htask, Event.issued, Event.succeeded] using hi
      · exact h.called.imp_right (Or.imp_right (Or.imp_right (List.mem_append_left _)))
  | none | some .start | some (.sent _ _) | some (.ended _) => simp [send_done, htask] at hw

/-- A close starts an unmarked finishing task. -/
theorem finishing_good {w : Writer} (h : Good w) : Good (finishing w) := by
  have hinv := finishing_inv h.inv
  unfold finishing at hinv ⊢
  split
  · rename_i hc
    simp only [hc] at hinv
    refine ⟨hinv, h.task, ⟨h.uncancelled.1, rfl⟩, h.issued, by simp, .inr (.inl rfl)⟩
  · exact h

/-- Past the flush task the finishing task calls `finish`. -/
theorem finish_good {w : Writer} (h : Good w) (hinv : Inv (finish w .ok))
    (ht : in_flight w = []) : Good (finish w .ok) := by
  refine ⟨hinv, h.task, h.uncancelled, ?_, by simp [finish], .inr (.inr (.inr (by simp [finish])))⟩
  have hi := h.issued
  rw [ht] at hi
  have hfl : in_flight (finish w .ok) = [] := ht
  rw [hfl]
  simpa [finish, Event.issued, Event.succeeded] using hi

/-- It awaits the flush task if that is at work, and calls `finish` otherwise. -/
theorem run_finish_good {w w' : Writer} (h : Good w) (hw : run_finish w = some w') :
    Good w' := by
  have hinv := run_finish_inv h.inv hw
  -- on the good path a flush task that ended has ended well
  have hok : ∀ r, w.task = some (.ended r) → r = .ok := by
    intro r ht
    have := h.task _ ht
    cases r <;> simp [Flush.good] at this ⊢
  match hc : w.closing with
  | some .start =>
      simp only [run_finish, hc, h.uncancelled.2, Bool.false_eq_true, if_false] at hw
      split at hw
      · rename_i ht
        cases hw
        exact finish_good h hinv (by simp [in_flight, ht])
      · rename_i r ht
        cases hw
        obtain rfl := hok r ht
        exact finish_good h hinv (by simp [in_flight, ht])
      · rename_i t hne ht
        cases hw
        exact ⟨hinv, h.task, ⟨h.uncancelled.1, rfl⟩, h.issued, fun _ => by simp [ht],
          .inr (.inr (.inl rfl))⟩
  | some .awaiting =>
      simp only [run_finish, hc] at hw
      split at hw
      · rename_i r ht
        obtain rfl := hok r ht
        simp only [h.uncancelled.2, Bool.false_eq_true, if_false, Option.some.injEq] at hw
        subst hw
        exact finish_good h hinv (by simp [in_flight, ht])
      · cases hw
  | some (.finished r) =>
      -- `stream.finish()` was called to come here
      have hf : .finish ∈ w.log := by simpa [hc] using h.called
      simp only [run_finish, hc, h.uncancelled.2, Bool.false_eq_true, if_false,
        Option.some.injEq] at hw
      subst hw
      exact ⟨hinv, h.task, ⟨h.uncancelled.1, rfl⟩, h.issued, by simp, .inr (.inr (.inr hf))⟩
  | none | some .finishing | some (.ended _) => simp [run_finish, hc] at hw

/-- A `finish` that fails is on the good path too: it was called. -/
theorem finish_done_good {w w' : Writer} {ok : Bool} (h : Good w)
    (hw : finish_done w ok = some w') : Good w' := by
  have hinv := finish_done_inv h.inv hw
  unfold finish_done at hw
  split at hw
  · rename_i hc
    have hf : .finish ∈ w.log := by simpa [hc] using h.called
    cases hw
    exact ⟨hinv, h.task, h.uncancelled, h.issued, by simp, .inr (.inr (.inr hf))⟩
  · cases hw

/-- **One step** that neither fails a send nor cancels anything keeps to the good path. -/
theorem step_good {w w' : Writer} {l : Label} (h : Good w) (hl : l.good = true)
    (hw : step w l = some w') : Good w' := by
  have hinv := step_inv h.inv (h.not_restarts l) hw
  cases l with
  | write d =>
      simp only [step, Option.some.injEq] at hw
      subst hw
      cases hwr : write w d with
      | none => exact h
      | some w' => exact write_good h hwr
  | writelines ds =>
      simp only [step, Option.some.injEq] at hw
      exact hw ▸ writelines_good h
  | drain =>
      obtain ⟨x, hx⟩ := drain_cases w
      simp only [step, hx, Option.some.injEq] at hw
      subst hw
      exact h.congr hinv rfl rfl rfl rfl rfl
  | write_eof | close =>
      simp only [step, close, write_eof, Option.some.injEq] at hw
      exact hw ▸ finishing_good h
  | wait_closed =>
      simp only [step, wait_closed, Option.some.injEq] at hw
      subst hw
      exact (finishing_good h).congr hinv rfl rfl rfl rfl rfl
  | run_flush => exact run_flush_good h hw
  | send_done ok =>
      simp only [Label.good] at hl
      subst hl
      exact send_done_good h hw
  | run_finish => exact run_finish_good h hw
  | finish_done ok => exact finish_done_good h hw
  | resume i =>
      obtain ⟨r, rfl⟩ := resume_cases hw
      exact h.congr hinv rfl rfl rfl rfl rfl
  | cancel _ | cancel_task | cancel_closing => simp [Label.good] at hl

/-- No task can run and no send is pending: the flush task is absent or done,
and the finishing task is absent, done or waiting for the native `finish`. -/
def Quiescent (w : Writer) : Prop :=
  run_flush w = none ∧ (∀ ok, send_done w ok = none) ∧ run_finish w = none

/-- **Nothing is lost on the good path.** In every run with neither a failing
send nor a cancellation, the sends are a prefix of what the calls of the run
handed over; in a quiescent state they are all of it; and if one of the calls was
`write_eof`, `close` or `wait_closed`, `finish` was called once, after the last
send completed. -/
theorem good_path_sends_everything {hw : ℤ} {ls : List Label} {w : Writer}
    (h : run step (init hw) ls = some w) (hgood : ∀ l ∈ ls, l.good = true) :
    issued w.log <+: given ls ∧
      (Quiescent w → issued w.log = given ls ∧
        ((∃ l ∈ ls, l.closes = true) → ∃ pre, w.log = pre ++ [.finish] ∧ .finish ∉ pre
          ∧ succeeded pre = given ls)) := by
  have hasked := run_asked h
  rw [← hasked.written]
  have hg : Good w := meets_inv step (fun _ _ _ hs hc hstep => step_good hs hc hstep)
    (init_good hw) (meets_of_forall step hgood _) h
  have ho := hg.inv.ordered
  have hi := hg.issued
  constructor
  · rw [hi]
    match htask : w.task with
    | some (.sending d) =>
        simp only [Ordered, htask] at ho
        simp only [in_flight, htask, ← ho, ← List.append_assoc]
        exact List.prefix_append _ _
    | none | some .start | some (.sent _ _) | some (.ended _) =>
        simpa [in_flight, htask] using ho.isPrefix
  · rintro ⟨hqf, hqs, hqc⟩
    -- What is left for the flush task: not started, not sending, not to be woken.
    have hdone : w.task = none ∨ w.task = some (.ended .ok) := by
      match htask : w.task with
      | none => exact .inl rfl
      | some (.ended r) =>
          have := hg.task _ htask
          cases r <;> simp [Flush.good] at this ⊢
      | some (.sending d) => simp [send_done, htask] at hqs
      | some .start => simp [run_flush, htask, hg.uncancelled.1] at hqf
      | some (.sent d r) =>
          cases r <;> simp [run_flush, htask, hg.uncancelled.1] at hqf
    have hsucc : succeeded w.log = w.written := ho.all_sent hdone
    have hfl : in_flight w = [] := by
      rcases hdone with ht | ht <;> simp [in_flight, ht]
    refine ⟨by rw [hi, hfl, hsucc, List.append_nil], ?_⟩
    rintro ⟨l, hl, hcloses⟩
    have hcl : w.closing ≠ none := by
      intro hcl
      have hopen := hasked.closing.1 hcl l hl
      rw [hcloses] at hopen
      cases hopen
    have hf : .finish ∈ w.log := by
      rcases hg.called with hc | hc | hc | hc
      · exact absurd hc hcl
      -- a finishing task that is not past the flush task could still run
      · rcases hdone with ht | ht <;>
          simp [run_finish, hc, ht, hg.uncancelled.2] at hqc
      · rcases hdone with ht | ht
        · exact absurd ht (hg.awaiting hc)
        · simp [run_finish, hc, ht, hg.uncancelled.2] at hqc
      · exact hc
    obtain ⟨⟨pre, hpre, hnf⟩, -⟩ := hg.inv.last hf
    refine ⟨pre, hpre, hnf, ?_⟩
    rw [← hsucc, hpre]
    simp [Event.succeeded]

/-- Two lines at once, a third write while they are on their way, a close with both
still to be sent, and a write after it, which raises. -/
def lines_and_close : List Label :=
  [.writelines [.ofBytes [97], .ofBytes [98]], .run_flush, .write (.ofBytes [99]), .close,
    .write (.ofBytes [100]), .run_finish, .send_done true, .run_flush, .send_done true, .run_flush,
    .run_finish]

/-- The hypotheses can be met: what was written before the close is sent, all of it before the
one `finish`. -/
theorem good_path_sends_everything_lines :
    ∃ w, run step (init 65536) lines_and_close = some w
      ∧ given lines_and_close = [97, 98, 99] ∧ issued w.log = [97, 98, 99]
      ∧ ∃ pre, w.log = pre ++ [.finish] ∧ .finish ∉ pre ∧ succeeded pre = [97, 98, 99] := by
  refine ⟨_, rfl, rfl, ?_⟩
  have h := @good_path_sends_everything 65536 lines_and_close _ rfl (by decide)
  have hq := h.2 ⟨rfl, fun _ => rfl, rfl⟩
  exact ⟨hq.1, hq.2 (by decide)⟩

end ZmuxPy.StreamWriter
