/-
The direction of a bridge from the stream to the session: what holds over whole runs.

The bytes pass the task, an operation in the runtime and the pipe. Nothing in the code
says that they arrive: an operation may be dropped with half of its data written, and the
`finally` closes the pipe all the same. `Inv` says when that can be: `dropped` is set only
in a task that was cancelled, or when the session has dropped its side, and then the task
is on its way out (`leaving`), so that nothing is written after a hole.
-/
import ZmuxPy.StreamBridge

set_option autoImplicit false

namespace ZmuxPy.StreamBridge

open Machine Asyncio Duplex

namespace Inward

/-- What each step does. A resumed task that goes on has no mark. -/
inductive Step (s : Inward) : Label → Inward → Prop where
  | pipe_read {n : ℕ} {one : Simplex UInt8} {out : Bytes} (ha : s.pipe_alive = true)
      (h : poll_read s.one n = some (one, out)) :
      Step s (.pipe_read n)
        { s with one := one, taken := s.taken ++ out, eof := s.eof || s.one.buffer.isEmpty }
  | broken {rest : Bytes} (hop : s.write_op = some rest) (hc : s.one.closed = true) :
      Step s .push { s with write_op := none, task := s.task.wrote false, dropped := true }
  | wrote {rest : Bytes} {one : Simplex UInt8} {n : ℕ} (hop : s.write_op = some rest)
      (h : poll_write s.one rest = some (.ok one n)) (hr : rest.drop n = []) :
      Step s .push { s with
        one := one, fed := s.fed ++ rest.take n, write_op := none, task := s.task.wrote true }
  | pushed {rest : Bytes} {one : Simplex UInt8} {n : ℕ} (hop : s.write_op = some rest)
      (h : poll_write s.one rest = some (.ok one n)) (hr : rest.drop n ≠ []) :
      Step s .push
        { s with one := one, fed := s.fed ++ rest.take n, write_op := some (rest.drop n) }
  | drop_write {rest : Bytes} (hop : s.write_op = some rest) (ht : s.task ≠ .write .pending) :
      Step s .drop_write { s with write_op := none, dropped := true }
  | shut (hop : s.shut_op = true) (hw : s.write_op = none) :
      Step s .shut
        { s with one := Duplex.close s.one, shut_op := false, task := s.task.shut }
  | drop_shut : Step s .drop_shut { s with shut_op := false }
  | read_done (r : Option Bytes) (ht : s.task = .read .pending) :
      Step s (.read_done r)
        { s with task := .read (.done r), fetched := s.fetched ++ r.toList }
  | never (ht : s.task = .start) (hm : s.must_cancel = true) :
      Step s .run { s with task := .ended, must_cancel := false }
  | starts (ht : s.task = .start) (hm : s.must_cancel = false) :
      Step s .run { s with task := .read .pending }
  | read_end (ht : s.task = .read (.done (some [])) ∨ s.task = .read (.done none)) :
      Step s .run (finish { s with read_end := true })
  | writes {data : Bytes} (ht : s.task = .read (.done (some data))) (hne : data ≠ [])
      (hm : s.must_cancel = false) :
      Step s .run { s with write_op := some data, task := .write .pending, must_cancel := false }
  | next (ht : s.task = .write (.done true)) (hm : s.must_cancel = false) :
      Step s .run { s with task := .read .pending, must_cancel := false }
  | fails (ht : s.task = .write (.done false)) : Step s .run (finish s)
  | read_stops {f : Await (Option Bytes)} (ht : s.task = .read f)
      (hs : f.stops s.must_cancel = true) : Step s .run (finish s)
  | write_stops {f : Await Bool} (ht : s.task = .write f) (hs : f.stops s.must_cancel = true) :
      Step s .run (finish s)
  | ends {f : Await Bool} (ht : s.task = .close f) :
      Step s .run { s with task := .ended, must_cancel := false }
  | cancel_start (ht : s.task = .start) :
      Step s .cancel { s with must_cancel := true, cancelled := true }
  | cancel_read {f : Await (Option Bytes)} (ht : s.task = .read f) :
      Step s .cancel { s with
        task := .read (f.cancel s.must_cancel).1
        must_cancel := (f.cancel s.must_cancel).2, cancelled := true }
  | cancel_write {f : Await Bool} (ht : s.task = .write f) :
      Step s .cancel { s with
        task := .write (f.cancel s.must_cancel).1
        must_cancel := (f.cancel s.must_cancel).2, cancelled := true }
  | cancel_close {f : Await Bool} (ht : s.task = .close f) :
      Step s .cancel { s with
        task := .close (f.cancel s.must_cancel).1
        must_cancel := (f.cancel s.must_cancel).2, cancelled := true }
  | pipe_drop (ha : s.pipe_alive = true) :
      Step s .pipe_drop { s with one := Duplex.close s.one, pipe_alive := false }
  | end_drop (ht : s.task = .ended) (hw : s.write_op = none) (hs : s.shut_op = false) :
      Step s .end_drop { s with one := Duplex.close s.one }

/-- A turn of `write_all` finds the pipe broken, is done, or has more to write. -/
theorem push_cases {s s' : Inward} (h : push s = some s') : Step s .push s' := by
  unfold push at h
  split at h
  · cases h
  · rename_i rest hop
    split at h
    · cases h
    · rename_i hw
      cases h
      exact .broken hop (poll_write_broken hw)
    · rename_i one n hw
      split at h
      · cases h
        exact .wrote hop hw ‹_›
      · cases h
        exact .pushed hop hw ‹_›

/-- A run of the task, by what it waits for and how that ended. -/
theorem run_task_cases {s s' : Inward} (h : run_task s = some s') : Step s .run s' := by
  unfold run_task at h
  split at h
  · rename_i ht
    split at h
    · cases h
      exact .never ht ‹_›
    · rename_i hm
      cases h
      exact .starts ht (Bool.eq_false_iff.2 hm)
  · rename_i f ht
    obtain ⟨r, hr, rfl⟩ := Option.map_eq_some_iff.1 h
    split
    · obtain ⟨rfl, -⟩ := Await.resume_eq_some hr
      exact .read_end (.inl ht)
    · obtain ⟨rfl, -⟩ := Await.resume_eq_some hr
      exact .read_end (.inr ht)
    · rename_i data hne
      obtain ⟨rfl, hm⟩ := Await.resume_eq_some hr
      exact .writes ht (fun hd => hne (by rw [hd])) hm
    · exact .read_stops ht (Await.stops_of_resume hr)
  · rename_i f ht
    obtain ⟨r, hr, rfl⟩ := Option.map_eq_some_iff.1 h
    split
    · obtain ⟨rfl, hm⟩ := Await.resume_eq_some hr
      exact .next ht hm
    · obtain ⟨rfl, -⟩ := Await.resume_eq_some hr
      exact .fails ht
    · exact .write_stops ht (Await.stops_of_resume hr)
  · rename_i f ht
    obtain ⟨r, -, rfl⟩ := Option.map_eq_some_iff.1 h
    exact .ends ht
  · cases h

/-- **Every step is one of these**, with the guard that it passed. -/
theorem step_cases {s s' : Inward} {l : Label} (h : step s l = some s') : Step s l s' := by
  cases l with
  | pipe_read n =>
      simp only [step, pipe_read, Option.ite_none_right_eq_some, Option.map_eq_some_iff] at h
      obtain ⟨ha, ⟨one, out⟩, hp, rfl⟩ := h
      exact .pipe_read ha hp
  | push => exact push_cases h
  | drop_write =>
      simp only [step, drop_write, Option.ite_none_right_eq_some, Option.some.injEq] at h
      obtain ⟨⟨hop, ht⟩, rfl⟩ := h
      obtain ⟨rest, hrest⟩ := Option.isSome_iff_exists.1 hop
      exact .drop_write hrest ht
  | shut =>
      simp only [step, shut, Option.ite_none_right_eq_some, Option.some.injEq] at h
      obtain ⟨⟨hop, hw⟩, rfl⟩ := h
      exact .shut hop hw
  | drop_shut =>
      simp only [step, drop_shut, Option.ite_none_right_eq_some, Option.some.injEq] at h
      obtain ⟨-, rfl⟩ := h
      exact .drop_shut
  | read_done r =>
      simp only [step, read_done] at h
      split at h
      · cases h
        exact .read_done r ‹_›
      · cases h
  | run => exact run_task_cases h
  | cancel =>
      simp only [step, cancel] at h
      split at h
      · cases h
        exact .cancel_start ‹_›
      · cases h
        exact .cancel_read ‹_›
      · cases h
        exact .cancel_write ‹_›
      · cases h
        exact .cancel_close ‹_›
      · cases h
  | pipe_drop =>
      simp only [step, Option.ite_none_right_eq_some, Option.some.injEq] at h
      obtain ⟨ha, rfl⟩ := h
      exact .pipe_drop ha
  | end_drop =>
      simp only [step, Option.ite_none_right_eq_some, Option.some.injEq] at h
      obtain ⟨⟨ht, hw, hs⟩, rfl⟩ := h
      exact .end_drop ht hw hs

end Inward

/-! ### What holds -/

/-- The data that the task has and has not passed on. -/
def InTask.flight : InTask → Bytes
  | .read (.done (some data)) => data
  | _ => []

/-- The loop was left. -/
def InTask.left : InTask → Bool
  | .close _ | .ended => true
  | _ => false

/-- The loop was left, or will be the next time the task runs, by an exception. -/
def InTask.leaving (mark : Bool) : InTask → Bool
  | .start => mark
  | .read f => f.stops mark
  | .write f => f.stops mark || f = .done false
  | .close _ | .ended => true

/-- Only a task that still waits is told. -/
theorem InTask.wrote_cases (t : InTask) (ok : Bool) :
    t = .write .pending ∧ t.wrote ok = .write (.done ok)
      ∨ t ≠ .write .pending ∧ t.wrote ok = t := by
  unfold InTask.wrote
  split
  · exact .inl ⟨rfl, rfl⟩
  · exact .inr ⟨‹_›, rfl⟩

/-- The end of a shutdown moves no data, and the loop was left before it. -/
theorem InTask.shut_cases (t : InTask) :
    t.shut.left = t.left ∧ t.shut.flight = t.flight
      ∧ ∀ mark, t.shut.leaving mark = t.leaving mark := by
  unfold InTask.shut
  split
  · exact ⟨rfl, rfl, fun _ => rfl⟩
  · exact ⟨rfl, rfl, fun _ => rfl⟩

/-- Who has left is leaving. -/
theorem InTask.leaving_of_left {t : InTask} (h : t.left = true) (mark : Bool) :
    t.leaving mark = true := by
  cases t with
  | start | read _ | write _ => cases h
  | close _ | ended => rfl

namespace Inward

/-- What `reader.read` returned is in the pipe, with the operation or with the task; and the
pipe's end comes after all of it. -/
structure Inv (s : Inward) : Prop where
  carries : Carries s.one s.fed s.taken
  max : s.one.max = 256 * 1024
  mark : s.must_cancel = true → s.cancelled = true
  leaving : s.cancelled = true ∨ s.dropped = true → s.task.leaving s.must_cancel = true
  why : s.task.leaving s.must_cancel = true →
    (s.cancelled = true ∨ s.dropped = true) ∨ s.task.left = true ∧ s.read_end = true
  broken : s.dropped = true → s.cancelled = true ∨ s.pipe_alive = false
  busy : s.write_op ≠ none → s.task = .write .pending ∨ s.cancelled = true
  shut : s.shut_op = true → s.task.left = true
  passed : s.fed ++ s.write_op.getD [] <+: s.fetched.flatten
  whole : ¬ (s.cancelled = true ∨ s.dropped = true) →
    s.fetched.flatten = s.fed ++ s.write_op.getD [] ++ s.task.flight
  closed : s.one.closed = true → s.pipe_alive = true → s.write_op = none ∧ s.task.left = true
  eof : s.eof = true → s.one.buffer = [] ∧ s.write_op = none ∧ s.task.left = true
    ∧ (s.dropped = true → s.cancelled = true)

/-- Nothing was read, and the pipe is empty. -/
theorem init_inv : Inv init := by
  refine ⟨.new _, rfl, nofun, ?_, nofun, nofun, fun h => absurd rfl h, nofun, List.nil_prefix,
    fun _ => rfl, nofun, nofun⟩
  rintro (h | h) <;> cases h

variable {s : Inward}

/-- A task that goes on: nobody cancelled it, and everything was written. -/
theorem Inv.going (hs : Inv s) (h : s.task.leaving s.must_cancel = false) :
    ¬ (s.cancelled = true ∨ s.dropped = true) := by
  intro hover
  rw [hs.leaving hover] at h
  cases h

/-- A task that goes on and is not in `end.write` has no operation of its own in the runtime. -/
theorem Inv.not_busy (hs : Inv s) (h : s.task.leaving s.must_cancel = false)
    (ht : s.task ≠ .write .pending) : s.write_op = none := by
  by_contra hop
  rcases hs.busy hop with hp | hc
  · exact ht hp
  · exact hs.going h (.inl hc)

/-- Inside the loop the pipe is closed only from the session's side. -/
theorem Inv.not_closed (hs : Inv s) (h : s.task.left = false) (hc : s.one.closed = true) :
    s.pipe_alive = false := by
  by_contra ha
  rw [(hs.closed hc (by simpa using ha)).2] at h
  cases h

/-- The session reads: a read that finds nothing is the end, which comes only after the loop
was left. -/
theorem Inv.pipe_read {n : ℕ} {one : Simplex UInt8} {out : Bytes} (hs : Inv s)
    (ha : s.pipe_alive = true) (h : poll_read s.one n = some (one, out)) :
    Inv { s with one := one, taken := s.taken ++ out, eof := s.eof || s.one.buffer.isEmpty } := by
  have hsame : one.max = s.one.max ∧ one.closed = s.one.closed
      ∧ (s.one.buffer = [] → s.one.closed = true ∧ one.buffer = []) := by
    cases poll_read_cases h with
    | data hne => exact ⟨rfl, rfl, fun hb => absurd hb hne⟩
    | eof hb hc => exact ⟨rfl, rfl, fun _ => ⟨hc, hb⟩⟩
  obtain ⟨hmax, hclosed, hend⟩ := hsame
  refine ⟨hs.carries.read h, hmax.trans hs.max, hs.mark, hs.leaving, hs.why, hs.broken, hs.busy,
    hs.shut, hs.passed, hs.whole, ?_, fun he => ?_⟩
  · rw [hclosed]
    exact hs.closed
  · rw [Bool.or_eq_true, List.isEmpty_iff] at he
    have hbuf : s.one.buffer = [] := he.elim (fun he => (hs.eof he).1) id
    obtain ⟨hc, hb⟩ := hend hbuf
    obtain ⟨hw, hl⟩ := hs.closed hc ha
    refine ⟨hb, hw, hl, fun hd => ?_⟩
    exact (hs.broken hd).resolve_right (by rw [ha]; exact Bool.noConfusion)

/-- The operation is over, and has not written everything: the pipe is gone, or the task
was cancelled. -/
theorem Inv.give_up {rest : Bytes} {task : InTask} (hs : Inv s) (hop : s.write_op = some rest)
    (ht : s.task = .write .pending ∧ task = .write (.done false) ∧ s.pipe_alive = false
      ∨ s.cancelled = true ∧ task = s.task) :
    Inv { s with write_op := none, task := task, dropped := true } := by
  have hpre : s.fed ++ [] <+: s.fetched.flatten := by
    rw [List.append_nil]
    exact (List.prefix_append _ _).trans hs.passed
  have hnot : ¬ s.eof = true := by
    intro he
    rw [(hs.eof he).2.1] at hop
    cases hop
  rcases ht with ⟨hp, rfl, ha⟩ | ⟨hc, rfl⟩
  · have hnl : ∀ {P : Prop}, s.task.left = true → P := by
      intro P hl
      rw [hp] at hl
      cases hl
    refine ⟨hs.carries, hs.max, hs.mark, fun _ => ?_, fun _ => .inl (.inr rfl), fun _ => .inr ha,
      fun h => absurd rfl h, fun h => hnl (hs.shut h), hpre, fun h => absurd (.inr rfl) h,
      fun _ h => ?_, fun he => absurd he hnot⟩
    · simp [InTask.leaving]
    · rw [ha] at h
      cases h
  · exact ⟨hs.carries, hs.max, hs.mark, fun _ => hs.leaving (.inl hc), fun _ => .inl (.inl hc),
      fun _ => .inl hc, fun h => absurd rfl h, hs.shut, hpre, fun h => absurd (.inl hc) h,
      fun h ha => ⟨rfl, (hs.closed h ha).2⟩, fun he => absurd he hnot⟩

/-- Some of the data goes into the pipe, and the operation is over if it was all. -/
theorem Inv.push {rest : Bytes} {one : Simplex UInt8} {n : ℕ} {op : Option Bytes} {task : InTask}
    (hs : Inv s) (hop : s.write_op = some rest) (h : poll_write s.one rest = some (.ok one n))
    (hrest : op.getD [] = rest.drop n)
    (ht : op ≠ none ∧ task = s.task ∨ op = none ∧ task = s.task.wrote true) :
    Inv { s with one := one, fed := s.fed ++ rest.take n, write_op := op, task := task } := by
  obtain ⟨hclosed, hone, -, -, -⟩ := poll_write_ok h
  -- what the pipe takes now was the operation's before
  have hbytes : s.fed ++ rest.take n ++ op.getD [] = s.fed ++ s.write_op.getD [] := by
    rw [hrest, hop, List.append_assoc, List.take_append_drop]
    rfl
  have hnot : ¬ s.eof = true := by
    intro he
    rw [(hs.eof he).2.1] at hop
    cases hop
  have hopen : ¬ one.closed = true := by simp [hone, hclosed]
  have hmax : one.max = 256 * 1024 := by
    rw [hone]
    exact hs.max
  have hpassed : s.fed ++ rest.take n ++ op.getD [] <+: s.fetched.flatten := hbytes ▸ hs.passed
  have hbusy := hs.busy (by simp [hop])
  rcases ht with ⟨-, rfl⟩ | ⟨hnone, rfl⟩
  · exact ⟨hs.carries.write h, hmax, hs.mark, hs.leaving, hs.why, hs.broken, fun _ => hbusy,
      hs.shut, hpassed, fun hg => by rw [hbytes]; exact hs.whole hg, fun hc => absurd hc hopen,
      fun he => absurd he hnot⟩
  · rcases s.task.wrote_cases true with ⟨hp, hw⟩ | ⟨hp, hw⟩
    -- the task waits for this operation, so nothing has gone wrong yet
    · have hgoing : ¬ (s.cancelled = true ∨ s.dropped = true) := hs.going (by rw [hp]; rfl)
      have hmark : s.must_cancel = false := by
        rw [Bool.eq_false_iff]
        exact fun hm => hgoing (.inl (hs.mark hm))
      refine ⟨hs.carries.write h, hmax, hs.mark, fun hg => absurd hg hgoing, fun hl => ?_,
        hs.broken, fun hne => absurd hnone hne, fun hsh => ?_, hpassed, fun hg => ?_,
        fun hc => absurd hc hopen, fun he => absurd he hnot⟩
      · simp [hw, InTask.leaving, Await.stops, hmark] at hl
      · have hl := hs.shut hsh
        rw [hp] at hl
        cases hl
      · change _ = s.fed ++ rest.take n ++ op.getD [] ++ (s.task.wrote true).flight
        rw [hbytes, hs.whole hg, hw, hp]
        rfl
    · rw [hw]
      exact ⟨hs.carries.write h, hmax, hs.mark, hs.leaving, hs.why, hs.broken,
        fun hne => absurd hnone hne, hs.shut, hpassed,
        fun hg => by rw [hbytes]; exact hs.whole hg, fun hc => absurd hc hopen,
        fun he => absurd he hnot⟩

/-- The task moves, and nothing else. -/
theorem Inv.move {task : InTask} {mark : Bool} (hs : Inv s)
    (hmark : mark = true → s.cancelled = true)
    (hleaving : s.cancelled = true ∨ s.dropped = true → task.leaving mark = true)
    (hwhy : task.leaving mark = true →
      (s.cancelled = true ∨ s.dropped = true) ∨ task.left = true ∧ s.read_end = true)
    (hbusy : s.write_op ≠ none → task = .write .pending ∨ s.cancelled = true)
    (hleft : s.task.left = true → task.left = true)
    (hflight : ¬ (s.cancelled = true ∨ s.dropped = true) → task.flight = s.task.flight) :
    Inv { s with task := task, must_cancel := mark } := by
  refine ⟨hs.carries, hs.max, hmark, hleaving, hwhy, hs.broken, hbusy, fun h => hleft (hs.shut h),
    hs.passed, fun hg => ?_, fun hc ha => ?_, fun he => ?_⟩
  · rw [hflight hg]
    exact hs.whole hg
  · exact (hs.closed hc ha).imp id hleft
  · obtain ⟨hb, hw, hl, hd⟩ := hs.eof he
    exact ⟨hb, hw, hleft hl, hd⟩

/-- The task goes on to its next read. -/
theorem Inv.go_on (hs : Inv s) (h : s.task.leaving s.must_cancel = false)
    (ht : s.task ≠ .write .pending) (hf : s.task.flight = []) :
    Inv { s with task := .read .pending, must_cancel := false } := by
  have hgoing := hs.going h
  have hnot : ¬ s.task.left = true := by
    intro hl
    rw [InTask.leaving_of_left hl] at h
    cases h
  exact hs.move nofun (fun hover => absurd hover hgoing) nofun
    (fun hop => absurd (hs.not_busy h ht) hop) (fun hl => absurd hl hnot) fun _ => hf.symm

/-- The task is over. -/
theorem Inv.end_task (hs : Inv s) (h : s.task.leaving s.must_cancel = true)
    (hl : s.task.left = true ∨ s.cancelled = true) :
    Inv { s with task := .ended, must_cancel := false } := by
  have hnot : s.task ≠ .write .pending := by
    intro hp
    rw [hp] at h
    cases h
  refine hs.move nofun (fun _ => rfl) (fun _ => (hs.why h).imp id (.imp (fun _ => rfl) id))
    (fun hop => .inr ((hs.busy hop).resolve_left hnot)) (fun _ => rfl) fun hg => ?_
  rcases hl with hl | hc
  · cases ht : s.task with
    | start | read _ | write _ =>
        rw [ht] at hl
        cases hl
    | close _ | ended => rfl
  · exact absurd (.inl hc) hg

/-- Into the `finally`: the loop has come to its end, or is left by an exception. -/
theorem Inv.finish (hs : Inv s) (ht : s.task ≠ .write .pending)
    (hwhy : (s.cancelled = true ∨ s.dropped = true) ∨ s.read_end = true)
    (hf : ¬ (s.cancelled = true ∨ s.dropped = true) → s.task.flight = []) :
    Inv (finish s) := by
  have hmoved : Inv { s with task := .close .pending, must_cancel := false } :=
    hs.move nofun (fun _ => rfl) (fun _ => hwhy.imp id fun hr => ⟨rfl, hr⟩)
      (fun hop => .inr ((hs.busy hop).resolve_left ht)) (fun _ => rfl) fun hg => (hf hg).symm
  exact ⟨hmoved.carries, hmoved.max, hmoved.mark, hmoved.leaving, hmoved.why, hmoved.broken,
    hmoved.busy, fun _ => rfl, hmoved.passed, hmoved.whole, hmoved.closed, hmoved.eof⟩

/-- `end.write(data)` is called. -/
theorem Inv.write {data : Bytes} (hs : Inv s) (ht : s.task = .read (.done (some data)))
    (hm : s.must_cancel = false) :
    Inv { s with write_op := some data, task := .write .pending, must_cancel := false } := by
  have hstay : s.task.leaving s.must_cancel = false := by
    rw [ht]
    exact hm
  have hgoing := hs.going hstay
  have hnone := hs.not_busy hstay (by rw [ht]; exact nofun)
  have hnl : s.task.left = false := by rw [ht]; rfl
  have hbytes : s.fetched.flatten = s.fed ++ data := by
    rw [hs.whole hgoing, hnone, ht]
    simp [InTask.flight]
  refine ⟨hs.carries, hs.max, nofun, fun h => absurd h hgoing, nofun, hs.broken, fun _ => .inl rfl,
    fun h => ?_, ?_, fun _ => ?_, fun hc ha => ?_, fun he => ?_⟩
  · have := hs.shut h
    rw [hnl] at this
    cases this
  · exact ⟨[], by rw [hbytes, List.append_nil]; rfl⟩
  · change _ = s.fed ++ data ++ []
    rw [hbytes, List.append_nil]
  · rw [hs.not_closed hnl hc] at ha
    cases ha
  · have := (hs.eof he).2.2.1
    rw [hnl] at this
    cases this

/-- What `reader.read` returned is with the task. -/
theorem Inv.read_done (hs : Inv s) (ht : s.task = .read .pending) (r : Option Bytes) :
    Inv { s with task := .read (.done r), fetched := s.fetched ++ r.toList } := by
  have hstay : s.task.leaving s.must_cancel = false := by rw [ht]; rfl
  have hgoing := hs.going hstay
  have hmark : s.must_cancel = false := by
    rw [Bool.eq_false_iff]
    exact fun hm => hgoing (.inl (hs.mark hm))
  have hnl : ∀ {P : Prop}, s.task.left = true → P := by
    intro P hl
    rw [ht] at hl
    cases hl
  refine ⟨hs.carries, hs.max, hs.mark, fun h => absurd h hgoing, fun h => ?_, hs.broken,
    fun hop => absurd (hs.not_busy hstay (by rw [ht]; exact nofun)) hop, fun h => hnl (hs.shut h),
    ?_, fun _ => ?_, fun hc ha => hnl (hs.closed hc ha).2, fun he => hnl (hs.eof he).2.2.1⟩
  · rw [InTask.leaving, hmark] at h
    cases h
  · change _ <+: (s.fetched ++ r.toList).flatten
    rw [List.flatten_append]
    exact hs.passed.trans (List.prefix_append _ _)
  · have hbefore := hs.whole hgoing
    rw [ht] at hbefore
    change (s.fetched ++ r.toList).flatten = _
    rw [List.flatten_append, hbefore]
    cases r <;> simp [InTask.flight]

/-- A cancelled task leaves the next time it runs, whatever it waits for. -/
theorem Inv.cancel {task : InTask} {mark : Bool} (hs : Inv s)
    (hleaving : task.leaving mark = true) (hleft : task.left = s.task.left) :
    Inv { s with task := task, must_cancel := mark, cancelled := true } := by
  refine ⟨hs.carries, hs.max, fun _ => rfl, fun _ => hleaving, fun _ => .inl (.inl rfl),
    fun _ => .inl rfl, fun _ => .inr rfl, ?_, hs.passed, fun h => absurd (.inl rfl) h, ?_,
    fun he => ?_⟩
  · rw [hleft]
    exact hs.shut
  · rw [hleft]
    exact hs.closed
  · obtain ⟨hb, hw, hl, -⟩ := hs.eof he
    exact ⟨hb, hw, hleft.trans hl, fun _ => rfl⟩

/-- **One step keeps the invariant.** -/
theorem step_inv {s' : Inward} {l : Label} (hs : Inv s) (h : step s l = some s') : Inv s' := by
  cases step_cases h with
  | pipe_read ha hp => exact hs.pipe_read ha hp
  | broken hop hc =>
      refine hs.give_up hop ?_
      -- with an operation at work the pipe is closed only by the session
      have hnot : s.pipe_alive = true → False := by
        intro ha
        rw [(hs.closed hc ha).1] at hop
        cases hop
      rcases s.task.wrote_cases false with ⟨hp, hw⟩ | ⟨hp, hw⟩
      · exact .inl ⟨hp, hw, Bool.eq_false_iff.2 hnot⟩
      · exact .inr ⟨(hs.busy (by simp [hop])).resolve_left hp, hw⟩
  | wrote hop hw hr => exact hs.push hop hw hr.symm (.inr ⟨rfl, rfl⟩)
  | pushed hop hw hr => exact hs.push hop hw rfl (.inl ⟨nofun, rfl⟩)
  | drop_write hop ht =>
      exact hs.give_up hop (.inr ⟨(hs.busy (by simp [hop])).resolve_left ht, rfl⟩)
  | shut hop hw =>
      obtain ⟨hl, hf, hlv⟩ := s.task.shut_cases
      have hleft := hs.shut hop
      refine ⟨hs.carries.close, hs.max, hs.mark, ?_, ?_, hs.broken, fun h => absurd hw h, nofun,
        hs.passed, ?_, fun _ _ => ⟨hw, hl.trans hleft⟩, fun he => ?_⟩
      · simp only [hlv]
        exact hs.leaving
      · simp only [hlv, hl]
        exact hs.why
      · simp only [hf]
        exact hs.whole
      · simp only [hl]
        exact hs.eof he
  | drop_shut =>
      exact ⟨hs.carries, hs.max, hs.mark, hs.leaving, hs.why, hs.broken, hs.busy, nofun, hs.passed,
        hs.whole, hs.closed, hs.eof⟩
  | read_done r ht => exact hs.read_done ht r
  | never ht hm => exact hs.end_task (by rw [ht]; exact hm) (.inr (hs.mark hm))
  | starts ht hm =>
      have hgo := hs.go_on (by rw [ht]; exact hm) (by rw [ht]; exact nofun) (by rw [ht]; rfl)
      rwa [← hm] at hgo
  | read_end ht =>
      -- the end of the stream is noted first, and then the loop is left as for any other
      -- reason
      have hmarked : Inv { s with read_end := true } :=
        ⟨hs.carries, hs.max, hs.mark, hs.leaving,
          fun h => (hs.why h).imp id (.imp id fun _ => rfl), hs.broken, hs.busy, hs.shut,
          hs.passed, hs.whole, hs.closed, hs.eof⟩
      refine hmarked.finish ?_ (.inr rfl) fun _ => ?_
      · rcases ht with ht | ht <;> simp [ht]
      · rcases ht with ht | ht <;> simp [ht, InTask.flight]
  | writes ht _ hm => exact hs.write ht hm
  | next ht hm =>
      exact hs.go_on (by simp [ht, hm, InTask.leaving, Await.stops]) (by simp [ht])
        (by rw [ht]; rfl)
  | fails ht =>
      have hover := (hs.why (by simp [ht, InTask.leaving])).resolve_right
        (fun h => by rw [ht] at h; cases h.1)
      exact hs.finish (by simp [ht]) (.inl hover) fun hg => absurd hover hg
  | read_stops ht hst =>
      have hover := (hs.why (by rw [ht]; exact hst)).resolve_right
        (fun h => by rw [ht] at h; cases h.1)
      exact hs.finish (by simp [ht]) (.inl hover) fun hg => absurd hover hg
  | @write_stops f ht hst =>
      have hover := (hs.why (by simp [ht, InTask.leaving, hst])).resolve_right
        (fun h => by rw [ht] at h; cases h.1)
      refine hs.finish ?_ (.inl hover) fun hg => absurd hover hg
      rw [ht]
      rintro ⟨⟩
      cases hst
  | ends ht => exact hs.end_task (by rw [ht]; rfl) (.inl (by rw [ht]; rfl))
  | cancel_start ht =>
      refine hs.cancel ?_ rfl
      rw [ht]
      rfl
  | cancel_read ht => exact hs.cancel (Await.cancel_stops _ _) (by rw [ht]; rfl)
  | cancel_write ht =>
      exact hs.cancel (by simp [InTask.leaving, Await.cancel_stops]) (by rw [ht]; rfl)
  | cancel_close ht => exact hs.cancel rfl (by rw [ht]; rfl)
  | pipe_drop ha =>
      exact ⟨hs.carries.close, hs.max, hs.mark, hs.leaving, hs.why, fun _ => .inr rfl, hs.busy,
        hs.shut, hs.passed, hs.whole, nofun, hs.eof⟩
  | end_drop ht hw =>
      exact ⟨hs.carries.close, hs.max, hs.mark, hs.leaving, hs.why, hs.broken, hs.busy, hs.shut,
        hs.passed, hs.whole, fun _ _ => ⟨hw, by rw [ht]; rfl⟩, hs.eof⟩

end Inward

end ZmuxPy.StreamBridge
