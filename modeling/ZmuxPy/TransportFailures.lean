/-
Exceptions in the loops of a `_CarrierTransport` (`python/zmux/_layer.py`).

Both loops run foreign code, the protocol's methods and the carrier's operations, and
catch `OSError`, `ZmuxError` and `RuntimeError` around all of it; `_lose` then reports
the end to the protocol. Anything else ends the task, and nothing looks at the task
afterwards. So a loop dies by itself exactly of the exceptions it does not catch
(`step_failed_iff`), and then the transport is as open as it was before.
-/
import ZmuxPy.TransportRuns
import ZmuxPy.TransportSilence

set_option autoImplicit false

namespace ZmuxPy.CarrierTransport

open Machine Asyncio

/-! ## Flags -/

/-- `write(data)` does not close the transport. -/
theorem write_closing (t : Transport) (data : Data) : (write t data).closing = t.closing := by
  unfold write check_high enqueue
  split
  · rfl
  · split <;> rfl

/-- A closing transport stays closing, whatever is called on it. -/
theorem call_closing {t : Transport} (c : Call) (h : t.closing = true) :
    (call t c).closing = true := by
  cases c with
  | write data => exact (write_closing t data).trans h
  | close => exact (close_frame t _).closing h
  | abort => exact (lose_frame t _ _).closing h
  | write_eof | pause_reading | resume_reading | set_protocol _ | set_write_buffer_limits _ _ =>
      exact h

/-- The write loop does not reopen it either. -/
theorem WriterDoes.closing {t t' : Transport} {o : Option Exc} (h : WriterDoes t o t')
    (hc : t.closing = true) : t'.closing = true := by
  cases h with
  | moves | calls => exact hc
  | raised mark e =>
      unfold writer_raised
      dsimp only
      split
      · exact (lose_frame { t with writer_must_cancel := mark } _ _).closing hc
      · exact hc
  | loses mark => exact (lose_frame { t with writer_must_cancel := mark } _ _).closing hc

/-- A closing transport stays closing. -/
theorem step_closing {t t' : Transport} {l : Label} (h : step t l = some t')
    (hc : t.closing = true) : t'.closing = true := by
  cases step_does h with
  | call c => exact call_closing c hc
  | cancel_reader => exact (cancel_reader_frames t).2.2.2.1.trans hc
  | cancel_writer => exact (cancel_writer_frames t).2.2.2.1.trans hc
  | made | read_done | write_done | shutdown_done | run_lost => exact hc
  | reader _ _ h => exact h.frame.closing hc
  | writer _ _ h => exact h.closing hc

/-- So a transport that is open at the end of a run was open all along. -/
theorem run_closing {t u : Transport} {ms : List Label} (h : run step t ms = some u)
    (hu : u.closing = false) : t.closing = false := by
  by_contra hc
  have hclosing : u.closing = true :=
    run_inv step (fun _ _ _ hc hs => step_closing hs hc) (by simpa using hc) h
  rw [hu] at hclosing
  cases hclosing

/-! ## Loops that an exception ended -/

/-- A loop ended by an exception. -/
def failed (t : Transport) : Bool := t.reader.phase = .failed || t.writer.phase = .failed

/-- An exception that the loops do not catch escapes in the step. -/
def uncaught (t : Transport) (l : Label) : Prop := ∃ e, escapes t l = some e ∧ e.caught = false

/-- In terms of phases, which is how steps are described. -/
theorem failed_iff {t : Transport} :
    failed t = true ↔ t.reader.phase = .failed ∨ t.writer.phase = .failed := by
  simp [failed]

/-- A step that moves no loop ends none. -/
theorem SamePlace.failed {t t' : Transport} (h : SamePlace t t') :
    CarrierTransport.failed t' = CarrierTransport.failed t := by
  simp only [CarrierTransport.failed, h.reader, h.writer]

/-- The read loop dies of an exception that it does not catch, and of nothing else. -/
theorem ReaderDoes.failed {t t' : Transport} {o : Option Exc} (h : ReaderDoes t o t') :
    t'.reader.phase = .failed ↔ ∃ e, o = some e ∧ e.caught = false := by
  cases h with
  | moves r mark hr => exact ⟨fun h => absurd h (Reader.phase_of_ordinary hr).2, by simp⟩
  | calls r mark e hr => exact ⟨fun h => absurd h (Reader.phase_of_ordinary hr).2, by simp⟩
  | raised mark e =>
      unfold reader_raised
      dsimp only
      split
      · rename_i hc
        simp [end_reader, Reader.phase, hc]
      · rename_i hc
        simp [end_reader, Reader.phase, hc]
  | closes => simp [end_reader, Reader.phase]

/-- A step of the write loop ends it by an exception exactly if one escapes that it does not
catch; what it catches ends it in the ordinary way. -/
theorem WriterDoes.failed {t t' : Transport} {o : Option Exc} (h : WriterDoes t o t') :
    t'.writer.phase = .failed ↔ ∃ e, o = some e ∧ e.caught = false := by
  cases h with
  | moves queued wake w mark hw =>
      exact ⟨fun h => absurd h (Writer.phase_of_ordinary hw).2, by simp⟩
  | calls queue queued paused w mark e hw =>
      exact ⟨fun h => absurd h (Writer.phase_of_ordinary hw).2, by simp⟩
  | raised mark e =>
      unfold writer_raised
      dsimp only
      split
      · rename_i hc
        simp [end_writer, Writer.phase, hc]
      · rename_i hc
        simp [end_writer, Writer.phase, hc]
  | loses mark => simp [end_writer, Writer.phase]

/-- **A loop dies exactly of an exception that it does not catch.** Nothing else in a step ends
a loop that way, and no step brings a dead one back. -/
theorem step_failed_iff {t t' : Transport} {l : Label} (h : step t l = some t') :
    failed t' = true ↔ failed t = true ∨ uncaught t l := by
  have hsame : SamePlace t t' → escapes t l = none →
      (failed t' = true ↔ failed t = true ∨ uncaught t l) := by
    intro hplace hesc
    rw [hplace.failed]
    simp [uncaught, hesc]
  cases step_does h with
  | call c => exact hsame (call_place t c) rfl
  | cancel_reader => exact hsame (cancel_reader_place t) rfl
  | cancel_writer => exact hsame (cancel_writer_place t) rfl
  | made hr hw => simp [failed, uncaught, escapes, hr, hw, Reader.phase, Writer.phase]
  | read_done r hr => exact hsame ⟨by rw [hr]; rfl, by rw [hr]; rfl, rfl, fun _ => rfl⟩ rfl
  | write_done data r hw => exact hsame ⟨rfl, rfl, by rw [hw]; rfl, fun _ => rfl⟩ rfl
  | shutdown_done r hw => exact hsame ⟨rfl, rfl, by rw [hw]; rfl, fun _ => rfl⟩ rfl
  | run_lost => exact hsame ⟨rfl, rfl, rfl, fun _ => rfl⟩ rfl
  | reader _ halive h =>
      have hold := (Reader.phase_of_alive halive).2
      rw [failed_iff, failed_iff, h.failed, h.place.2]
      simp [hold, uncaught, or_comm]
  | writer _ halive h =>
      have hold := (Writer.phase_of_alive halive).2
      rw [failed_iff, failed_iff, h.failed, h.place.2]
      simp [hold, uncaught]

/-- In a run no loop dies exactly if every exception that escapes is one the loops
catch. -/
theorem run_not_failed_iff {buffered : Bool} {ls : List Label} {t : Transport}
    (h : run step (init buffered) ls = some t) :
    failed t = false ↔ Meets step (fun t l => ¬ uncaught t l) (init buffered) ls := by
  have hstep : ∀ t l t', True → step t l = some t' →
      (failed t' = false ↔ failed t = false ∧ ¬ uncaught t l) := by
    intro t l t' _ hs
    rw [Bool.eq_false_iff, Bool.eq_false_iff, Ne, Ne, step_failed_iff hs, not_or]
  have hiff := meets_iff step (fun _ _ _ _ _ => trivial) hstep trivial h
  simpa [failed, init, Reader.phase, Writer.phase] using hiff

/-! ## The step in which an exception escapes

The exception arises in the body of the loop that runs, whatever brought it: a failed
operation of the carrier, or a method of the protocol that raised. -/

/-- The exception is raised in the body of one of the loops. -/
inductive Escaped (t : Transport) (e : Exc) : Transport → Prop where
  | reader (mark : Bool) (hcur : t.reader.in_call = true ∨ current t = none)
      (halive : t.reader.alive = true) :
      Escaped t e (reader_raised { t with reader_must_cancel := mark } (.exc e))
  | writer (mark : Bool) (hcur : t.writer = .resume_writing ∨ current t = none)
      (halive : t.writer.alive = true) :
      Escaped t e (writer_raised { t with writer_must_cancel := mark } (.exc e))

/-- An exception that escapes in a step is raised in the body of the loop that made the call. -/
theorem step_escaped {t t' : Transport} {l : Label} {e : Exc} (h : step t l = some t')
    (he : escapes t l = some e) : Escaped t e t' := by
  cases step_does h with
  | call | cancel_reader | cancel_writer | made | read_done | write_done | shutdown_done
  | run_lost => cases he
  | reader hcur halive h =>
      rw [he] at h
      cases h with
      | raised mark => exact .reader mark hcur halive
  | writer hcur halive h =>
      rw [he] at h
      cases h with
      | raised mark => exact .writer mark hcur halive

/-- Both `except` clauses, as far as the end of the transport goes. -/
theorem raised_reports {t u t' : Transport} {e : Exc} (cur : Option Side)
    (hb : u.reader ≠ .unborn) (hlost : u.lost = t.lost) (hlog : u.log = t.log)
    (hcaught : e.caught = true →
      t'.lost = (lose u cur (some e)).lost ∧ t'.log = (lose u cur (some e)).log)
    (hother : e.caught = false → t'.lost = u.lost ∧ t'.log = u.log) :
    t'.lost = true ∧ reports t'.log ≠ []
      ↔ t.lost = true ∧ reports t.log ≠ [] ∨ t.lost = false ∧ e.caught = true := by
  cases hc : e.caught with
  | false =>
      obtain ⟨hl', hlog'⟩ := hother hc
      rw [hl', hlog', hlost, hlog]
      simp
  | true =>
      obtain ⟨hl', hlog'⟩ := hcaught hc
      rw [hl', hlog']
      cases hl : t.lost with
      | true =>
          have hsame : lose u cur (some e) = u := if_pos (hlost.trans hl)
          rw [hsame, hlog, hlost, hl]
          simp
      | false =>
          obtain ⟨hlost', hrep⟩ := lose_reports (hlost.trans hl) hb cur (some e)
          rw [hlost', hrep]
          simp

/-- The exception is reported exactly if it is one of the three and the transport was not lost;
a lost transport has reported its loss before, or never will. -/
theorem Escaped.reports {t t' : Transport} {e : Exc} (hs : Sound t) (h : Escaped t e t') :
    t'.lost = true ∧ reports t'.log ≠ []
      ↔ t.lost = true ∧ CarrierTransport.reports t.log ≠ [] ∨ t.lost = false ∧ e.caught = true := by
  cases h with
  | reader mark hcur halive =>
      have hb : t.reader ≠ .unborn :=
        fun hu => (Reader.phase_of_alive halive).1 (Reader.phase_unborn.2 hu)
      refine raised_reports (u := { t with reader_must_cancel := mark }) (some .reader) hb
        rfl rfl ?_ ?_
      · intro hc
        rw [reader_raised, if_pos hc]
        exact ⟨rfl, rfl⟩
      · intro hc
        rw [reader_raised, if_neg (by simp [hc])]
        exact ⟨rfl, rfl⟩
  | writer mark hcur halive =>
      have hb : t.reader ≠ .unborn :=
        fun hu => (Writer.phase_of_alive halive).1 (hs.unborn.1 (Reader.phase_unborn.2 hu))
      refine raised_reports (u := { t with writer_must_cancel := mark }) (some .writer) hb
        rfl rfl ?_ ?_
      · intro hc
        rw [writer_raised, if_pos hc]
        exact ⟨rfl, rfl⟩
      · intro hc
        rw [writer_raised, if_neg (by simp [hc])]
        exact ⟨rfl, rfl⟩

/-! ## A dead end

One loop is dead, and the other one has nothing to do, or is cancelled by whoever gives
up. -/

/-- Quiescent with a dead loop, and nobody told. -/
structure Stranded (t : Transport) : Prop where
  quiescent : quiescent t = true
  failed : failed t = true
  closing : t.closing = false
  lost : t.lost = false

/-- A write loop that is cancelled while it is suspended ends in its next turn. -/
theorem run_cancelled_writer {t : Transport} (h : t.writer.alive = true)
    (hw : t.writer ≠ .resume_writing) :
    run_writer (cancel_writer t) = some (end_writer (cancel_writer t) .cancelled) := by
  unfold cancel_writer
  cases hwriter : t.writer with
  | unborn | ended _ =>
      rw [hwriter] at h
      cases h
  | resume_writing => exact absurd hwriter hw
  | start => simp [run_writer]
  | wait f => simp [run_writer, Await.resume_of_stops (Await.cancel_stops f _)]
  | write data f => simp [run_writer, Await.resume_of_stops (Await.cancel_stops f _)]
  | shutdown f => simp [run_writer, Await.resume_of_stops (Await.cancel_stops f _)]

/-- So does a read loop. -/
theorem run_cancelled_reader {t : Transport} (h : t.reader.alive = true)
    (hr : t.reader.in_call = false) :
    run_reader (cancel_reader t) = some (end_reader (cancel_reader t) .cancelled) := by
  unfold cancel_reader
  cases hreader : t.reader with
  | unborn | ended _ =>
      rw [hreader] at h
      cases h
  | data_received | get_buffer _ | buffer_updated _ | eof_received =>
      rw [hreader] at hr
      cases hr
  | start => simp [run_reader]
  | wait f => simp [run_reader, Await.resume_of_stops (Await.cancel_stops f _)]
  | read f => simp [run_reader, Await.resume_of_stops (Await.cancel_stops f _)]

/-- A dead read loop strands the transport: the write loop may go on until it sleeps or is
cancelled, and nobody is told. -/
theorem stranded_reader {t : Transport} {e : Exc} (hr : t.reader = .ended (.failed e))
    (hw : t.writer.stoppable = true) (hc : t.closing = false) (hl : t.lost = false) :
    ∃ ms u, run step t ms = some u ∧ Stranded u := by
  have hphase : t.reader.phase = .failed := by
    rw [hr]
    rfl
  -- the writer has ended too, or is cancelled and run once: nobody is left to lose the
  -- transport
  by_cases hend : ∃ e', t.writer = .ended e'
  · obtain ⟨e', he'⟩ := hend
    refine ⟨[], t, rfl, ?_, failed_iff.2 (.inl hphase), hc, hl⟩
    simp [quiescent, hr, he', Reader.idle, Writer.idle]
  · have hne : t.writer ≠ .resume_writing := by
      intro h
      rw [h] at hw
      cases hw
    have halive : t.writer.alive = true := by
      cases hwriter : t.writer with
      | ended e' => exact absurd ⟨e', hwriter⟩ hend
      | unborn =>
          rw [hwriter] at hw
          cases hw
      | _ => rfl
    obtain ⟨hr', -, hl', hc', -⟩ := cancel_writer_frames t
    have hcur : current (cancel_writer t) = none := by
      refine current_eq_none.2 ⟨by rw [hr', hr]; rfl, ?_⟩
      rw [Ne, ← Writer.phase_calling, (cancel_writer_place t).writer, Writer.phase_calling]
      exact hne
    have hrun : step (cancel_writer t) .run_writer
        = some (end_writer (cancel_writer t) .cancelled) := by
      rw [← run_cancelled_writer halive hne]
      simp [step, hcur, from_loop]
    refine ⟨[.cancel .writer, .run_writer], end_writer (cancel_writer t) .cancelled, ?_, ?_, ?_,
      hc'.trans hc, hl'.trans hl⟩
    · exact (run_cons_eq_some step).2 ⟨_, rfl, (run_cons_eq_some step).2 ⟨_, hrun, rfl⟩⟩
    · simp [quiescent, end_writer, hr', hr, Reader.idle, Writer.idle]
    · refine failed_iff.2 (.inl ?_)
      rw [← hphase, ← hr']
      rfl

/-- So does a dead write loop, if the read loop ends or sleeps. -/
theorem stranded_writer {t : Transport} {e : Exc} (hw : t.writer = .ended (.failed e))
    (hr : t.reader ≠ .unborn) (hcall : t.reader.in_call = false) (hc : t.closing = false)
    (hl : t.lost = false) : ∃ ms u, run step t ms = some u ∧ Stranded u := by
  have hphase : t.writer.phase = .failed := by
    rw [hw]
    rfl
  by_cases hend : ∃ e', t.reader = .ended e'
  · obtain ⟨e', he'⟩ := hend
    refine ⟨[], t, rfl, ?_, failed_iff.2 (.inr hphase), hc, hl⟩
    simp [quiescent, hw, he', Reader.idle, Writer.idle]
  · have halive : t.reader.alive = true := by
      cases hreader : t.reader with
      | ended e' => exact absurd ⟨e', hreader⟩ hend
      | unborn => exact absurd hreader hr
      | _ => rfl
    obtain ⟨hw', -, hl', hc', -⟩ := cancel_reader_frames t
    have hcur : current (cancel_reader t) = none := by
      refine current_eq_none.2 ⟨?_, by rw [hw', hw]; simp⟩
      rw [Bool.eq_false_iff, Ne, ← Reader.phase_calling, (cancel_reader_place t).reader,
        Reader.phase_calling, hcall]
      simp
    have hrun : step (cancel_reader t) .run_reader
        = some (end_reader (cancel_reader t) .cancelled) := by
      rw [← run_cancelled_reader halive hcall]
      simp [step, hcur, from_loop]
    refine ⟨[.cancel .reader, .run_reader], end_reader (cancel_reader t) .cancelled, ?_, ?_, ?_,
      hc'.trans hc, hl'.trans hl⟩
    · exact (run_cons_eq_some step).2 ⟨_, rfl, (run_cons_eq_some step).2 ⟨_, hrun, rfl⟩⟩
    · simp [quiescent, end_reader, hw', hw, Reader.idle, Writer.idle]
    · refine failed_iff.2 (.inr ?_)
      rw [← hphase, ← hw']
      rfl

/-- An exception that is not caught can leave an open transport stranded, whichever loop it
ended. -/
theorem Escaped.stranded {t t' : Transport} {e : Exc} (hs : Sound t) (h : Escaped t e t')
    (he : e.caught = false) (hc : t.closing = false) (hl : t.lost = false) :
    ∃ ms u, run step t' ms = some u ∧ Stranded u := by
  have hne : ¬ e.caught = true := by simp [he]
  cases h with
  | reader mark hcur halive =>
      rw [reader_raised, if_neg hne]
      refine stranded_reader rfl (Writer.stoppable_iff.2 ⟨?_, hs.writer_not_calling hcur⟩) hc hl
      exact fun hu => (Reader.phase_of_alive halive).1 (hs.unborn.2 hu)
  | writer mark hcur halive =>
      have hcall : t.reader.in_call = false := by
        rw [Bool.eq_false_iff, Ne, ← Reader.phase_calling]
        exact hs.reader_not_calling hcur
      rw [writer_raised, if_neg hne]
      refine stranded_writer rfl ?_ hcall hc hl
      exact fun hu => (Writer.phase_of_alive halive).1 (hs.unborn.1 (Reader.phase_unborn.2 hu))

/-- **A loop dies silently exactly of an exception that it does not catch.** In every
state that a run reaches, for every exception that escapes a callback or a carrier
operation in the next step: the transport is lost after it with `connection_lost`
scheduled, exactly if it was before, or if it was not lost and the exception is an
`OSError`, a `ZmuxError` or a `RuntimeError`; and a quiescent state with a dead loop
that is neither closing nor lost is reachable, exactly if the exception is another one
and the transport was neither. And a run leaves no dead loop behind exactly if no
exception of another type escaped in it. -/
theorem escaped_exception_reported_iff {buffered : Bool} {ls : List Label} {t : Transport}
    (h : run step (init buffered) ls = some t) :
    (∀ l t' e, step t l = some t' → escapes t l = some e →
      (t'.lost = true ∧ reports t'.log ≠ []
        ↔ t.lost = true ∧ reports t.log ≠ [] ∨ t.lost = false ∧ e.caught = true)
      ∧ ((∃ ms u, run step t' ms = some u ∧ Stranded u)
        ↔ e.caught = false ∧ t.closing = false ∧ t.lost = false))
    ∧ (failed t = false ↔ Meets step (fun t l => ¬ uncaught t l) (init buffered) ls) := by
  have hsound := run_sound h
  refine ⟨fun l t' e hs he => ?_, run_not_failed_iff h⟩
  have hesc := step_escaped hs he
  refine ⟨hesc.reports hsound, ?_, fun ⟨hc, hcl, hl⟩ => hesc.stranded hsound hc hcl hl⟩
  rintro ⟨ms, u, hrun, hu⟩
  have hall : run step t (l :: ms) = some u := (run_cons_eq_some step).2 ⟨t', hs, hrun⟩
  have hl : t.lost = false := (run_keeps hall).lost_before hu.lost
  refine ⟨?_, run_closing hall hu.closing, hl⟩
  by_contra hc
  have hlost : t'.lost = true := ((hesc.reports hsound).2 (.inr ⟨hl, by simpa using hc⟩)).1
  have := (run_keeps hrun).lost_before hu.lost
  rw [hlost] at this
  cases this

/-- In `data_received`, for the first time. -/
def receiving : List Label :=
  [.made, .run_reader, .run_writer, .read_done (.ok [1]), .run_reader]

theorem escaped_exception_reported_iff_os_error :
    ∃ t t', run step (init false) receiving = some t
      ∧ step t (.raises (.exc .os_error)) = some t' ∧ t'.lost = true ∧ reports t'.log ≠ []
      ∧ (¬ ∃ ms u, run step t' ms = some u ∧ Stranded u) ∧ failed t = false := by
  have h := @escaped_exception_reported_iff false receiving _ rfl
  obtain ⟨hrep, hdead⟩ := h.1 (.raises (.exc .os_error)) _ .os_error rfl rfl
  obtain ⟨hlost, hne⟩ := hrep.2 (.inr ⟨rfl, rfl⟩)
  refine ⟨_, _, rfl, rfl, hlost, hne, fun hex => ?_, rfl⟩
  cases (hdead.1 hex).1

/-- `data_received` raises a `ValueError`, say: the read loop is dead and the write loop
asleep, the transport is open, and nothing is scheduled. -/
theorem dead_loop_unreported :
    ∃ t, run step (init false) (receiving ++ [.raises (.exc .other)]) = some t
      ∧ t.reader = .ended (.failed .other) ∧ quiescent t = true ∧ failed t = true
      ∧ t.closing = false ∧ t.lost = false ∧ reports t.log = [] ∧ t.losing = [] :=
  ⟨_, rfl, rfl, rfl, rfl, rfl, rfl, rfl, rfl⟩

end ZmuxPy.CarrierTransport
