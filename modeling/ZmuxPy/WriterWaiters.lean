/-
The coroutines that wait on a `zmux.StreamWriter`: what cancelling one of them does
to the writer (`python/zmux/__init__.py`, over the model of `ZmuxPy.StreamWriter`).

`drain` awaits the flush task through `shield`, so a cancellation stops at the
coroutine. `wait_closed` awaits the finishing task itself. Cancelled there, it
cancels the finishing task, and with that whatever this one awaits: the flush
task and its `SendStream.write`, or `SendStream.finish`.
-/
import ZmuxPy.StreamWriter

set_option autoImplicit false

namespace ZmuxPy.StreamWriter

open Machine Asyncio

/-- The writer with other waiting coroutines. -/
def with_waiters (ws : List Waiter) (w : Writer) : Writer := { w with waiters := ws }

/-- The writer with another coroutine in the place of waiter `i`. -/
def put (i : ℕ) (x : Waiter) (w : Writer) : Writer := with_waiters (w.waiters.set i x) w

/-- Coroutine `i` is suspended in `drain` or in `wait_closed`. -/
def blocked (w : Writer) (i : ℕ) : Bool :=
  match w.waiters[i]? with
  | some (.drain _) | some (.wait_closed _) => true
  | _ => false

/-- The two steps that are about coroutine `i` itself. -/
def Label.about (i : ℕ) : Label → Bool
  | .resume j | .cancel j => decide (j = i)
  | _ => false

/-! ## The writer does not look at its waiters

Each function of the writer commutes with a change of the waiters. The cases are
those of the function, on the fields it branches on. -/

variable {ws : List Waiter}

/-- `write` appends to the buffer and may start a task; it does not look at who waits. -/
theorem write_with (w : Writer) (d : Data) :
    write (with_waiters ws w) d = (write w d).map (with_waiters ws) := by
  obtain ⟨_, _, _, task, _, closing, _, _, _, _, _⟩ := w
  cases closing with
  | some c => rfl
  | none =>
      cases task with
      | none => rfl
      | some t => cases t <;> rfl

/-- By induction on the list, one `write` at a time. -/
theorem writelines_with (w : Writer) (ds : List Data) :
    writelines (with_waiters ws w) ds = with_waiters ws (writelines w ds) := by
  induction ds generalizing w with
  | nil => rfl
  | cons d ds ih =>
      simp only [writelines, write_with]
      cases write w d with
      | none => rfl
      | some w' => exact ih w'

/-- The flush task wakes those who await it through the loop, and does not know them. -/
theorem run_flush_with (w : Writer) :
    run_flush (with_waiters ws w) = (run_flush w).map (with_waiters ws) := by
  obtain ⟨_, buf, _, task, must_cancel, _, _, _, _, _, _⟩ := w
  rcases task with - | (- | d | ⟨d, r⟩ | r)
  · rfl
  · cases must_cancel with
    | true => rfl
    | false => cases buf <;> rfl
  · rfl
  · cases must_cancel with
    | true => rfl
    | false =>
        cases r with
        | ok => cases buf <;> rfl
        | raised | cancelled => rfl
  · rfl

/-- A native `write` that completes is a matter between the stream and the flush task. -/
theorem send_done_with (w : Writer) (ok : Bool) :
    send_done (with_waiters ws w) ok = (send_done w ok).map (with_waiters ws) := by
  obtain ⟨_, _, _, task, _, _, _, _, _, _, _⟩ := w
  rcases task with - | (- | d | ⟨d, r⟩ | r) <;> rfl

/-- A close starts the finishing task whoever waits. -/
theorem finishing_with (w : Writer) :
    finishing (with_waiters ws w) = with_waiters ws (finishing w) := by
  obtain ⟨_, _, _, _, _, closing, _, _, _, _, _⟩ := w
  cases closing <;> rfl

/-- `_finish` goes on by the outcome of the flush task alone. -/
theorem finish_with (w : Writer) (r : Outcome) :
    finish (with_waiters ws w) r = with_waiters ws (finish w r) := by
  cases r <;> rfl

/-- The finishing task reads the flush task and its own mark. -/
theorem run_finish_with (w : Writer) :
    run_finish (with_waiters ws w) = (run_finish w).map (with_waiters ws) := by
  obtain ⟨_, _, _, task, _, closing, must_cancel, _, _, _, _⟩ := w
  rcases closing with - | (- | - | - | r | r)
  · rfl
  · cases must_cancel with
    | true => rfl
    | false =>
        rcases task with - | (- | d | ⟨d, r⟩ | r)
        · rfl
        · rfl
        · rfl
        · rfl
        · exact congrArg some (finish_with _ r)
  · rcases task with - | (- | d | ⟨d, r⟩ | r)
    · rfl
    · rfl
    · rfl
    · rfl
    · cases must_cancel with
      | true => rfl
      | false => exact congrArg some (finish_with _ r)
  · rfl
  · cases must_cancel <;> rfl
  · rfl

/-- A native `finish` that completes does not look either. -/
theorem finish_done_with (w : Writer) (ok : Bool) :
    finish_done (with_waiters ws w) ok = (finish_done w ok).map (with_waiters ws) := by
  obtain ⟨_, _, _, _, _, closing, _, _, _, _, _⟩ := w
  rcases closing with - | (- | - | - | r | r) <;> rfl

/-- A cancelled task cancels what it awaits, not who awaits it. -/
theorem cancel_task_with (w : Writer) :
    cancel_task (with_waiters ws w) = with_waiters ws (cancel_task w) := by
  obtain ⟨_, _, _, task, _, _, _, _, _, _, _⟩ := w
  rcases task with - | (- | d | ⟨d, r⟩ | r) <;> rfl

/-- The same for the finishing task, whose cancellation may reach the flush task. -/
theorem cancel_closing_with (w : Writer) :
    cancel_closing (with_waiters ws w) = with_waiters ws (cancel_closing w) := by
  obtain ⟨_, _, _, task, _, closing, _, _, _, _, _⟩ := w
  rcases closing with - | (- | - | - | r | r)
  · rfl
  · rfl
  · rcases task with - | (- | d | ⟨d, r⟩ | r) <;> rfl
  · rfl
  · rfl
  · rfl

/-- The steps that have nothing to do with the waiting coroutines. -/
def Label.inner : Label → Bool
  | .drain | .wait_closed | .resume _ | .cancel _ => false
  | _ => true

/-- **An inner step commutes with a change of the waiters**: it does the same to the rest of
the writer, and is possible for the one if it is for the other. -/
theorem step_with (w : Writer) {l : Label} (hl : l.inner = true) :
    step (with_waiters ws w) l = (step w l).map (with_waiters ws) := by
  cases l with
  | write d =>
      simp only [step, write_with, Option.map_some]
      cases write w d <;> rfl
  | writelines ds => exact congrArg some (writelines_with w ds)
  | write_eof | close => exact congrArg some (finishing_with w)
  | run_flush => exact run_flush_with w
  | send_done ok => exact send_done_with w ok
  | run_finish => exact run_finish_with w
  | finish_done ok => exact finish_done_with w ok
  | cancel_task => exact congrArg some (cancel_task_with w)
  | cancel_closing => exact congrArg some (cancel_closing_with w)
  | drain | wait_closed | resume _ | cancel _ => cases hl

/-- In particular they leave the waiters as they are. -/
theorem step_waiters {w w' : Writer} {l : Label} (hl : l.inner = true)
    (h : step w l = some w') : w'.waiters = w.waiters := by
  have hsame : step w l = (step w l).map (with_waiters w.waiters) := step_with w hl
  rw [h, Option.map_some, Option.some.injEq] at hsame
  exact (congrArg Writer.waiters hsame).trans rfl

/-- A close leaves the waiters as they are, -/
theorem finishing_waiters (w : Writer) : (finishing w).waiters = w.waiters := by
  unfold finishing
  split <;> rfl

/-- and so does a cancelled finishing task: they are told by a step of their own. -/
theorem cancel_closing_waiters (w : Writer) : (cancel_closing w).waiters = w.waiters :=
  step_waiters (l := .cancel_closing) rfl rfl

/-! ## The frame of a waiter -/

variable {i : ℕ} {x : Waiter}

/-- A coroutine that comes in does not mind the others. -/
theorem append_put {w : Writer} (hi : i < w.waiters.length) (y : Waiter) :
    with_waiters ((put i x w).waiters ++ [y]) (put i x w)
      = put i x (with_waiters (w.waiters ++ [y]) w) := by
  simp only [put, with_waiters, List.set_append_left _ _ hi]

/-- Nor does one that goes on. -/
theorem set_put {w : Writer} {j : ℕ} (hj : j ≠ i) (y : Waiter) :
    put j y (put i x w) = put i x (put j y w) := by
  simp only [put, with_waiters, List.set_comm _ _ hj.symm]

/-- In particular an inner step commutes with a change of one waiter. -/
theorem step_put_of_inner {w : Writer} {l : Label} (hl : l.inner = true) :
    step (put i x w) l = (step w l).map (put i x) := by
  rw [put, step_with w hl]
  cases h : step w l with
  | none => rfl
  | some w' => simp only [Option.map_some, put, step_waiters hl h]

/-- What a call of `drain` comes to be. -/
def draining (w : Writer) : Waiter :=
  match w.task with
  | none => .over .ok
  | some t =>
    if t.done = false ∧ w.queued > w.high_water then .drain w.past.length
    else .over (if t = .ended .raised then .raised else .ok)

/-- `drain` changes the waiters only. -/
theorem drain_eq (w : Writer) : drain w = with_waiters (w.waiters ++ [draining w]) w := by
  obtain ⟨high_water, _, queued, task, _, _, _, _, _, _, _⟩ := w
  cases task with
  | none => rfl
  | some t =>
      by_cases hwait : t.done = false ∧ queued > high_water
      · simp only [drain, draining, with_waiters, if_pos hwait]
      · simp only [drain, draining, with_waiters, if_neg hwait]

/-- A `drain` joins at the end, behind coroutine `i`, and what becomes of it does not depend on
the others. -/
theorem drain_put {w : Writer} (hi : i < w.waiters.length) :
    drain (put i x w) = put i x (drain w) := by
  rw [drain_eq, drain_eq]
  exact append_put hi _

/-- So does a `wait_closed`, which may close the writer on its way. -/
theorem wait_closed_put {w : Writer} (hi : i < w.waiters.length) :
    wait_closed (put i x w) = put i x (wait_closed w) := by
  have hfin : finishing (put i x w) = put i x (finishing w) := by
    rw [put, finishing_with, put, finishing_waiters]
  simp only [wait_closed, hfin]
  exact append_put ((finishing_waiters w).symm ▸ hi) _

/-- The other coroutines are where they were. -/
theorem getElem?_put_of_ne {w : Writer} {j : ℕ} (hj : j ≠ i) :
    (put i x w).waiters[j]? = w.waiters[j]? := List.getElem?_set_ne hj.symm

/-- Another coroutine goes on as it would have, -/
theorem resume_put {w : Writer} {j : ℕ} (hj : j ≠ i) :
    resume (put i x w) j = (resume w j).map (put i x) := by
  unfold resume
  rw [getElem?_put_of_ne hj]
  split
  · have houtcome : ∀ n, task_outcome (put i x w) n = task_outcome w n := fun n => rfl
    rw [houtcome, Option.map_map]
    cases task_outcome w _ with
    | none => rfl
    | some r => exact congrArg some (set_put hj _)
  · have hclosing : (put i x w).closing = w.closing := rfl
    rw [hclosing]
    split
    · exact congrArg some (set_put hj _)
    · rfl
  · rfl

/-- and is cancelled as it would have been. -/
theorem cancel_put {w : Writer} {j : ℕ} (hj : j ≠ i) :
    cancel (put i x w) j = (cancel w j).map (put i x) := by
  unfold cancel
  rw [getElem?_put_of_ne hj]
  split
  · exact congrArg some (set_put hj _)
  · have hclosing : (put i x w).closing = w.closing := rfl
    rw [hclosing]
    split
    · exact congrArg some (set_put hj _)
    · exact step_put_of_inner (l := .cancel_closing) rfl
  · rfl

/-- No step of anyone else looks at a waiter. -/
theorem step_put {w : Writer} {l : Label} (hi : i < w.waiters.length) (hl : l.about i = false) :
    step (put i x w) l = (step w l).map (put i x) := by
  cases l with
  | drain => exact congrArg some (drain_put hi)
  | wait_closed => exact congrArg some (wait_closed_put hi)
  | resume j => exact resume_put (of_decide_eq_false hl)
  | cancel j => exact cancel_put (of_decide_eq_false hl)
  | write _ | writelines _ | write_eof | close | run_flush | send_done _ | run_finish
  | finish_done _ | cancel_task | cancel_closing => exact step_put_of_inner rfl

/-- No waiter is forgotten. -/
theorem step_waiters_length {w w' : Writer} {l : Label} (h : step w l = some w') :
    w.waiters.length ≤ w'.waiters.length := by
  cases l with
  | drain =>
      cases h
      simp [drain_eq, with_waiters]
  | wait_closed =>
      cases h
      simp [wait_closed, finishing_waiters]
  | resume j =>
      obtain ⟨r, rfl⟩ := resume_cases h
      simp
  | cancel j =>
      rcases cancel_cases h with ⟨x, -, rfl⟩ | rfl
      · simp
      · exact Nat.le_of_eq (congrArg List.length (cancel_closing_waiters w).symm)
  | write _ | writelines _ | write_eof | close | run_flush | send_done _ | run_finish
  | finish_done _ | cancel_task | cancel_closing =>
      exact Nat.le_of_eq (congrArg List.length (step_waiters rfl h).symm)

/-- **Nor does any run.** Whatever becomes of a waiter, the others go on as if it had
not existed. -/
theorem run_put {w : Writer} {ls : List Label} (hi : i < w.waiters.length)
    (hls : ∀ l ∈ ls, l.about i = false) :
    run step (put i x w) ls = (run step w ls).map (put i x) :=
  run_map step (P := fun w => i < w.waiters.length)
    (fun _ _ _ hi h => Nat.lt_of_lt_of_le hi (step_waiters_length h))
    (fun _ _ hi hl => step_put hi hl) hi hls

/-! ## Cancelling a waiter -/

/-- The finishing task has ended; or it, or what it awaits and can still be cancelled,
is told to cancel already. -/
def told (w : Writer) : Bool :=
  match w.closing with
  | none | some (.ended _) => true
  | some .start | some (.finished _) => w.closing_must_cancel
  | some .finishing => false
  | some .awaiting =>
    match w.task with
    | none | some (.ended _) => w.closing_must_cancel
    | some .start | some (.sent _ _) => w.task_must_cancel
    | some (.sending _) => false

/-- The waiter is in `drain`, or there is nothing left that its cancellation could
reach. -/
def spared (w : Writer) (i : ℕ) : Bool :=
  match w.waiters[i]? with
  | some (.drain _) => true
  | _ => told w

/-- A waiter in its own place is no change. -/
theorem put_self {w : Writer} {y : Waiter} (h : w.waiters[i]? = some y) : put i y w = w := by
  obtain ⟨hi, rfl⟩ := List.getElem?_eq_some_iff.1 h
  simp only [put, with_waiters, List.set_getElem_self]

/-- A task that was told to cancel takes another cancellation without a change. -/
theorem cancel_closing_of_told {w : Writer} (h : told w = true) : cancel_closing w = w := by
  obtain ⟨_, _, _, task, _, closing, _, _, _, _, _⟩ := w
  rcases closing with - | (- | - | - | r | r)
  · rfl
  · cases h
    rfl
  · rcases task with - | (- | d | ⟨d, r⟩ | r)
    · cases h
      rfl
    · cases h
      rfl
    · cases h
    · cases h
      rfl
    · cases h
      rfl
  · cases h
  · cases h
    rfl
  · rfl

/-- Otherwise it shows: in a mark, in the send that is cancelled, or in the `finish`
that is. -/
theorem told_of_cancel_closing {w : Writer} (h : cancel_closing w = put i x w) :
    told w = true := by
  have hmark := congrArg Writer.closing_must_cancel h
  have htask_mark := congrArg Writer.task_must_cancel h
  have htask := congrArg Writer.task h
  have hclosing := congrArg Writer.closing h
  obtain ⟨_, _, _, task, _, closing, _, _, _, _, _⟩ := w
  rcases closing with - | (- | - | - | r | r)
  · rfl
  · exact hmark.symm
  · rcases task with - | (- | d | ⟨d, r⟩ | r)
    · exact hmark.symm
    · exact htask_mark.symm
    · cases htask
    · exact htask_mark.symm
    · exact hmark.symm
  · cases hclosing
  · exact hmark.symm
  · rfl

/-- **Cancelling a waiter leaves the writer alone just when the waiter is in `drain`,
or its cancellation comes too late to reach anything.** Then nothing but the waiter
has changed; and what has changed in a waiter alone, no continuation notices: it is
the one there would have been, whatever had become of the waiter. -/
theorem waiter_cancel_harmless_iff {w : Writer} {i : ℕ} (hb : blocked w i = true) :
    ((∃ x, step w (.cancel i) = some (put i x w)) ↔ spared w i = true) ∧
    ∀ x ls, (∀ l ∈ ls, l.about i = false) →
      run step (put i x w) ls = (run step w ls).map (put i x) := by
  unfold blocked at hb
  refine ⟨?_, fun x ls hls => run_put ?_ hls⟩
  · split at hb
    · rename_i n hget
      simp only [step, cancel, spared, hget]
      exact ⟨fun _ => trivial, fun _ => ⟨.over .cancelled, rfl⟩⟩
    · rename_i mc hget
      simp only [step, cancel, spared, hget]
      split
      · rename_i r hclosing
        simp only [told, hclosing]
        refine ⟨fun _ => trivial, fun _ => ⟨.wait_closed true, ?_⟩⟩
        simp only [put, with_waiters, hclosing]
      · constructor
        · rintro ⟨x, hx⟩
          exact told_of_cancel_closing (Option.some.inj hx)
        · intro h
          exact ⟨.wait_closed mc, by rw [cancel_closing_of_told h, put_self hget]⟩
    · cases hb
  · by_contra hle
    rw [List.getElem?_eq_none (Nat.le_of_not_lt hle)] at hb
    cases hb

/-- A `drain` over the high water mark, and its send in progress. -/
def drain_blocked : List Label := [.write (.ofBytes [97]), .run_flush, .drain]

/-- The hypothesis can be met: a `drain` that is blocked, cancelled while the send is in
progress. -/
theorem waiter_cancel_harmless_iff_drain :
    ∃ w, run step (init 0) drain_blocked = some w ∧ blocked w 0 = true
      ∧ (∃ x, step w (.cancel 0) = some (put 0 x w))
      ∧ run step (put 0 (.over .cancelled) w) [.send_done true, .run_flush]
        = (run step w [.send_done true, .run_flush]).map (put 0 (.over .cancelled)) := by
  refine ⟨_, rfl, rfl, ?_⟩
  obtain ⟨hiff, hrun⟩ :=
    @waiter_cancel_harmless_iff ((run step (init 0) drain_blocked).get rfl) 0 rfl
  exact ⟨hiff.2 rfl, hrun _ _ (by decide)⟩

/-- A `wait_closed` while the last chunk is on its way. -/
def wait_closed_blocked : List Label :=
  [.write (.ofBytes [97]), .run_flush, .wait_closed, .run_finish]

/-- Cancelled there, it cancels the send and with that the finishing task: `finish` is
never called, where without the cancellation the stream is finished. -/
theorem wait_closed_cancel_stops_finish :
    ∃ w w', run step (init 65536) wait_closed_blocked = some w ∧ blocked w 0 = true
      ∧ step w (.cancel 0) = some w' ∧ (¬ ∃ x, w' = put 0 x w)
      ∧ (run step w' [.run_flush, .run_finish, .resume 0]).map
          (fun v => (v.log, v.closing))
        = some ([.write [97], .wrote [97] .cancelled], some (.ended .cancelled))
      ∧ (run step w [.send_done true, .run_flush, .run_finish]).map (fun v => v.log)
        = some [.write [97], .wrote [97] .ok, .finish] := by
  refine ⟨_, _, rfl, rfl, rfl, ?_, rfl, rfl⟩
  rintro ⟨x, hx⟩
  cases congrArg Writer.task hx

end ZmuxPy.StreamWriter
