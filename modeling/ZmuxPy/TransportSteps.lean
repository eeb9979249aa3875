/-
What one step of a `_CarrierTransport` (`python/zmux/_layer.py`) does, said once.

A step of the read loop moves its task, with one call of the carrier or of the protocol
at most, or raises out of the loop's body, or ends the loop with `close()`
(`ReaderDoes`); likewise for the write loop, which also keeps the queue (`WriterDoes`).
`step_does` says of every step which of these it is, or which call from outside, and
whether an exception escaped in it (`escapes`). What holds across a step is then a case
analysis of `Does`, without a look into the loops.
-/
import ZmuxPy.CarrierTransport

set_option autoImplicit false

namespace ZmuxPy.CarrierTransport

open Machine Asyncio

/-! ## Calls and exceptions of the loops

What the events and the states of the loops are to the proofs about single steps: who made a
call, which failure a loop has in hand, and what escapes in a step. -/

/-- What the read loop calls: the carrier's `read`, and the protocol's methods (but for
`get_buffer`, which is a state of the loop). -/
def Event.of_reader : Event → Bool
  | .read | .data_received _ | .buffer_updated _ | .eof_received => true
  | _ => false

/-- What the write loop calls. -/
def Event.of_writer : Event → Bool
  | .write _ | .shutdown | .resume_writing => true
  | _ => false

/-- A failure of the carrier that the read loop has not been told of yet. -/
def Reader.failure : Reader → Option Exc
  | .read (.done (.error e)) => some e
  | _ => none

/-- The same for the write loop, whose write or shutdown failed. -/
def Writer.failure : Writer → Option Exc
  | .write _ (.done (.error e)) | .shutdown (.done (.error e)) => some e
  | _ => none

/-- An exception other than a cancellation that escapes, in a step, the carrier's operation
or the protocol's method that a loop called. -/
def escapes (t : Transport) : Label → Option Exc
  | .raises (.exc e) => some e
  | .run_reader => if t.reader_must_cancel then none else t.reader.failure
  | .run_writer => if t.writer_must_cancel then none else t.writer.failure
  | _ => none

/-- In a call of the protocol. -/
def Reader.in_call : Reader → Bool
  | .data_received | .get_buffer _ | .buffer_updated _ | .eof_received => true
  | _ => false

/-- Which task is in a call of the protocol: the read loop, the write loop, or neither. The
read loop comes first, as in `current`. -/
theorem current_cases (t : Transport) :
    t.reader.in_call = true ∧ current t = some .reader
      ∨ t.reader.in_call = false ∧ t.writer = .resume_writing ∧ current t = some .writer
      ∨ t.reader.in_call = false ∧ t.writer ≠ .resume_writing ∧ current t = none := by
  unfold current
  cases t.reader <;> cases t.writer <;> simp [Reader.in_call]

/-- Nobody is in a call of the protocol, so the event loop is free to run something. -/
theorem current_eq_none {t : Transport} :
    current t = none ↔ t.reader.in_call = false ∧ t.writer ≠ .resume_writing := by
  rcases current_cases t with ⟨hr, hc⟩ | ⟨hr, hw, hc⟩ | ⟨hr, hw, hc⟩
  all_goals simp [*]

/-- A call made now is made by the read loop's task. -/
theorem current_eq_reader {t : Transport} :
    current t = some .reader ↔ t.reader.in_call = true := by
  rcases current_cases t with ⟨hr, hc⟩ | ⟨hr, hw, hc⟩ | ⟨hr, hw, hc⟩
  all_goals simp [*]

/-- A call made now is made by the write loop's task, which only ever calls `resume_writing`. -/
theorem current_eq_writer {t : Transport} :
    current t = some .writer ↔ t.reader.in_call = false ∧ t.writer = .resume_writing := by
  rcases current_cases t with ⟨hr, hc⟩ | ⟨hr, hw, hc⟩ | ⟨hr, hw, hc⟩
  all_goals simp [*]

/-- The task exists and has not ended. -/
def Reader.alive : Reader → Bool
  | .unborn | .ended _ => false
  | _ => true

/-- The same for the write loop. -/
def Writer.alive : Writer → Bool
  | .unborn | .ended _ => false
  | _ => true

/-- A loop in a call of the protocol is alive. -/
theorem Reader.alive_of_in_call {r : Reader} (h : r.in_call = true) : r.alive = true := by
  cases r with
  | data_received | get_buffer _ | buffer_updated _ | eof_received => rfl
  | unborn | start | wait _ | read _ | ended _ => cases h

/-- A place that a loop goes to by itself: not before its birth, and not its end by an
exception. -/
def Reader.ordinary : Reader → Bool
  | .unborn | .ended (.failed _) => false
  | _ => true

/-- The same for the write loop. -/
def Writer.ordinary : Writer → Bool
  | .unborn | .ended (.failed _) => false
  | _ => true

/-! ## The read loop

`ReaderDoes` has one constructor for each way in which a step of the loop can end. Proofs
split on it where the branches of the source make no difference. -/

/-- What the read loop does in a step of its own, with the exception that escaped. -/
inductive ReaderDoes (t : Transport) : Option Exc → Transport → Prop where
  | moves (r : Reader) (mark : Bool) (hr : r.ordinary = true) :
      ReaderDoes t none { t with reader := r, reader_must_cancel := mark }
  | calls (r : Reader) (mark : Bool) (e : Event) (hr : r.ordinary = true)
      (he : e.of_reader = true) :
      ReaderDoes t none (record { t with reader := r, reader_must_cancel := mark } e)
  | raised (mark : Bool) (e : Exc) :
      ReaderDoes t (some e) (reader_raised { t with reader_must_cancel := mark } (.exc e))
  /-- `if not self._protocol.eof_received(): self.close()`. -/
  | closes : ReaderDoes t none (end_reader (close t (some .reader)) .returned)

/-- At the top of its loop the task calls `read`, or waits for `_reading`. -/
theorem reader_top_does (t : Transport) (mark : Bool) :
    ReaderDoes t none (reader_top { t with reader_must_cancel := mark }) := by
  unfold reader_top
  split
  · exact .calls (.read (.suspend mark)) false .read rfl rfl
  · exact .moves (.wait (.suspend mark)) false rfl

/-- `while view:` asks for a buffer, or is over and goes to the top. -/
theorem deliver_view_does (t : Transport) (mark : Bool) (view : Bytes) :
    ReaderDoes t none (deliver_view { t with reader_must_cancel := mark } view) := by
  unfold deliver_view
  split
  · exact reader_top_does t mark
  · exact .moves (.get_buffer view) mark rfl

/-- `_deliver` calls `data_received`, or goes into the loop for a `BufferedProtocol`. -/
theorem deliver_does (t : Transport) (mark : Bool) (data : Bytes) :
    ReaderDoes t none (deliver { t with reader_must_cancel := mark } data) := by
  unfold deliver
  split
  · exact deliver_view_does t mark data
  · exact .calls .data_received mark (.data_received data) rfl rfl

/-- After a read the loop delivers the data, reports the end, or raises what the carrier raised. -/
theorem read_returned_does (t : Transport) (mark : Bool) (r : Except Exc Bytes) :
    ReaderDoes t (Reader.read (.done r)).failure
      (read_returned { t with reader_must_cancel := mark } r) := by
  unfold read_returned
  split
  · exact .calls .eof_received mark .eof_received rfl rfl
  · exact deliver_does t mark _
  · exact .raised mark _

/-- **A turn of the read loop.** Whatever it is suspended on, it does one of the things of
`ReaderDoes`, and the exception that escapes, if any, is the carrier's. -/
theorem run_reader_does {t t' : Transport} (h : run_reader t = some t') :
    t.reader.alive = true ∧ ReaderDoes t (escapes t .run_reader) t' := by
  have hend : ∀ mark : Bool,
      ReaderDoes t none (end_reader { t with reader_must_cancel := mark } .cancelled) :=
    fun mark => .moves (.ended .cancelled) mark rfl
  unfold run_reader at h
  split at h
  · rename_i hr
    have hesc : escapes t .run_reader = none := by simp [escapes, hr, Reader.failure]
    rw [Option.some.injEq] at h
    subst h
    rw [hesc]
    refine ⟨by rw [hr]; rfl, ?_⟩
    split
    · exact hend t.reader_must_cancel
    · exact reader_top_does t t.reader_must_cancel
  · rename_i f hr
    have hesc : escapes t .run_reader = none := by simp [escapes, hr, Reader.failure]
    obtain ⟨r, -, rfl⟩ := Option.map_eq_some_iff.1 h
    rw [hesc]
    refine ⟨by rw [hr]; rfl, ?_⟩
    split
    · exact .calls (.read .pending) false .read rfl rfl
    · exact hend t.reader_must_cancel
  · rename_i f hr
    obtain ⟨r, hres, rfl⟩ := Option.map_eq_some_iff.1 h
    refine ⟨by rw [hr]; rfl, ?_⟩
    split
    · rename_i r
      obtain ⟨rfl, hm⟩ := Await.resume_eq_some hres
      have hesc : escapes t .run_reader = (Reader.read (.done r)).failure := by
        simp [escapes, hr, hm]
      rw [hesc]
      exact read_returned_does t false r
    · -- a mark or a cancelled read: what the read came back with is not looked at
      have hesc : escapes t .run_reader = none := by
        rcases Await.resume_eq_cancelled hres with rfl | hm
        · simp [escapes, hr, Reader.failure]
        · simp [escapes, hm]
      rw [hesc]
      exact hend t.reader_must_cancel
  · cases h

/-! ## The write loop -/

/-- What the write loop does in a step of its own. It alone takes from the queue, and it moves
`queued`, `wake` and `paused` with it. -/
inductive WriterDoes (t : Transport) : Option Exc → Transport → Prop where
  | moves (queued : ℤ) (wake : Bool) (w : Writer) (mark : Bool) (hw : w.ordinary = true) :
      WriterDoes t none
        { t with queued := queued, wake := wake, writer := w, writer_must_cancel := mark }
  | calls (queue : List Bytes) (queued : ℤ) (paused : Bool) (w : Writer) (mark : Bool) (e : Event)
      (hw : w.ordinary = true) (he : e.of_writer = true) :
      WriterDoes t none (record { t with
        queue := queue, queued := queued, paused := paused, writer := w
        writer_must_cancel := mark } e)
  | raised (mark : Bool) (e : Exc) :
      WriterDoes t (some e) (writer_raised { t with writer_must_cancel := mark } (.exc e))
  /-- `if self._closing: self._lose(None)`, after the shutdown. -/
  | loses (mark : Bool) :
      WriterDoes t none
        (end_writer (lose { t with writer_must_cancel := mark } (some .writer) none) .returned)

/-- At the top of its loop the task writes, shuts the carrier down, or waits for `_wake`. -/
theorem writer_top_does (t : Transport) (queued : ℤ) (mark : Bool) :
    WriterDoes t none (writer_top { t with queued := queued, writer_must_cancel := mark }) := by
  unfold writer_top
  split
  · rename_i hq
    split
    · exact .calls t.queue queued t.paused (.shutdown (.suspend mark)) false .shutdown rfl rfl
    · exact .moves queued false (.wait (.suspend mark)) false rfl
  · rename_i data rest _
    exact .calls rest queued t.paused (.write data (.suspend mark)) false (.write data) rfl rfl

/-- Between two writes it may have to call `resume_writing` first. -/
theorem check_low_does (t : Transport) (queued : ℤ) (mark : Bool) :
    WriterDoes t none (check_low { t with queued := queued, writer_must_cancel := mark }) := by
  unfold check_low
  split
  · exact .calls t.queue queued false .resume_writing mark .resume_writing rfl rfl
  · exact writer_top_does t queued mark

/-- After a write the loop goes on, or raises what the carrier raised. -/
theorem write_returned_does (t : Transport) (data : Bytes) (r : Except Exc Unit) :
    WriterDoes t (Writer.write data (.done r)).failure
      (write_returned { t with writer_must_cancel := false } data r) := by
  unfold write_returned
  split
  · exact check_low_does t (t.queued - data.length) false
  · exact .raised false _

/-- After the shutdown the loop ends, and reports the end if the transport is closing. -/
theorem shutdown_returned_does (t : Transport) (r : Except Exc Unit) :
    WriterDoes t (Writer.shutdown (.done r)).failure
      (shutdown_returned { t with writer_must_cancel := false } r) := by
  unfold shutdown_returned
  split
  · split
    · exact .loses false
    · exact .moves t.queued t.wake (.ended .returned) false rfl
  · exact .raised false _

/-- **A turn of the write loop**, as for the read loop. -/
theorem run_writer_does {t t' : Transport} (h : run_writer t = some t') :
    t.writer.alive = true ∧ WriterDoes t (escapes t .run_writer) t' := by
  have hend : WriterDoes t none (end_writer t .cancelled) :=
    .moves t.queued t.wake (.ended .cancelled) t.writer_must_cancel rfl
  have hsome : t.writer_must_cancel = false → escapes t .run_writer = t.writer.failure := by
    intro hm
    simp [escapes, hm]
  -- a cancelled task does not look at what its operation came back with
  have hnone : ∀ {f : Await (Except Exc Unit)}, f.resume t.writer_must_cancel = some none →
      (f = .cancelled → t.writer.failure = none) → escapes t .run_writer = none := by
    intro f hres hfail
    rcases Await.resume_eq_cancelled hres with hf | hm
    · simp [escapes, hfail hf]
    · simp [escapes, hm]
  unfold run_writer at h
  split at h
  · rename_i hw
    have hesc : escapes t .run_writer = none := by simp [escapes, hw, Writer.failure]
    rw [Option.some.injEq] at h
    subst h
    rw [hesc]
    refine ⟨by rw [hw]; rfl, ?_⟩
    split
    · exact hend
    · exact writer_top_does t t.queued t.writer_must_cancel
  · rename_i f hw
    have hesc : escapes t .run_writer = none := by simp [escapes, hw, Writer.failure]
    obtain ⟨r, -, rfl⟩ := Option.map_eq_some_iff.1 h
    rw [hesc]
    refine ⟨by rw [hw]; rfl, ?_⟩
    split
    · exact writer_top_does t t.queued false
    · exact hend
  · rename_i data f hw
    obtain ⟨r, hres, rfl⟩ := Option.map_eq_some_iff.1 h
    refine ⟨by rw [hw]; rfl, ?_⟩
    split
    · rename_i r
      obtain ⟨rfl, hm⟩ := Await.resume_eq_some hres
      have hesc : escapes t .run_writer = (Writer.write data (.done r)).failure := by
        rw [hsome hm, hw]
      rw [hesc]
      exact write_returned_does t data r
    · rw [hnone hres (by rintro rfl; rw [hw]; rfl)]
      exact hend
  · rename_i f hw
    obtain ⟨r, hres, rfl⟩ := Option.map_eq_some_iff.1 h
    refine ⟨by rw [hw]; rfl, ?_⟩
    split
    · rename_i r
      obtain ⟨rfl, hm⟩ := Await.resume_eq_some hres
      have hesc : escapes t .run_writer = (Writer.shutdown (.done r)).failure := by
        rw [hsome hm, hw]
      rw [hesc]
      exact shutdown_returned_does t r
    · rw [hnone hres (by rintro rfl; rw [hw]; rfl)]
      exact hend
  · cases h

/-! ## Steps

`Does` joins the two loops to the calls from outside and the carrier's answers. It is the
inversion of `step` for proofs that do not look into the loops. -/

/-- What a step does. Where a loop goes on, it was in a call of the protocol, or nobody
was. -/
inductive Does (t : Transport) : Label → Transport → Prop where
  | call (c : Call) : Does t (.call c) (call t c)
  | cancel_reader : Does t (.cancel .reader) (cancel_reader t)
  | cancel_writer : Does t (.cancel .writer) (cancel_writer t)
  | made (hr : t.reader = .unborn) (hw : t.writer = .unborn) :
      Does t .made { t with reader := .start, writer := .start }
  | read_done (r : Except Exc Bytes) (hr : t.reader = .read .pending) :
      Does t (.read_done r) { t with reader := .read (.done r) }
  | write_done (data : Bytes) (r : Except Exc Unit) (hw : t.writer = .write data .pending) :
      Does t (.write_done r)
        (record { t with writer := .write data (.done r) } (.wrote data r.isOk))
  | shutdown_done (r : Except Exc Unit) (hw : t.writer = .shutdown .pending) :
      Does t (.shutdown_done r) (record { t with writer := .shutdown (.done r) } (.shut r.isOk))
  | run_lost (exc : Option Exc) (rest : List (Option Exc)) (hl : t.losing = exc :: rest) :
      Does t .run_lost (record { t with losing := rest } (.connection_lost exc))
  | reader {l : Label} {t' : Transport} (hcur : t.reader.in_call = true ∨ current t = none)
      (halive : t.reader.alive = true) (h : ReaderDoes t (escapes t l) t') : Does t l t'
  | writer {l : Label} {t' : Transport} (hcur : t.writer = .resume_writing ∨ current t = none)
      (halive : t.writer.alive = true) (h : WriterDoes t (escapes t l) t') : Does t l t'

/-- The loop that goes on when a call of the protocol returns. -/
theorem returns_side {t t' : Transport} {a : Answer} (h : returns t a = some t') :
    t.reader.in_call = true ∧ ReaderDoes t none t'
      ∨ t.writer = .resume_writing ∧ t' = writer_top t := by
  unfold returns at h
  split at h
  · rename_i hr
    cases h
    exact .inl ⟨by rw [hr]; rfl, reader_top_does t t.reader_must_cancel⟩
  · rename_i view n hr
    cases h
    exact .inl ⟨by rw [hr]; rfl, .calls _ t.reader_must_cancel _ rfl rfl⟩
  · rename_i view hr
    cases h
    exact .inl ⟨by rw [hr]; rfl, deliver_view_does t t.reader_must_cancel view⟩
  · rename_i b hr
    cases h
    refine .inl ⟨by rw [hr]; rfl, ?_⟩
    split
    · exact .moves (.ended .returned) t.reader_must_cancel rfl
    · exact .closes
  · have hw : t.writer = .resume_writing := by assumption
    cases h
    exact .inr ⟨hw, rfl⟩
  · cases h

/-- The loop that goes on when a call of the protocol raises. -/
theorem raises_side {t t' : Transport} {r : Raised} (h : raises t r = some t') :
    t.reader.in_call = true ∧ ReaderDoes t (escapes t (.raises r)) t'
      ∨ t.writer = .resume_writing ∧ t' = writer_raised t r := by
  unfold raises at h
  split at h
  · rename_i hside
    cases h
    refine .inl ⟨current_eq_reader.1 hside, ?_⟩
    cases r with
    | exc e => exact .raised t.reader_must_cancel e
    | cancelled_error => exact .moves (.ended .cancelled) t.reader_must_cancel rfl
  · rename_i hside
    cases h
    exact .inr ⟨(current_eq_writer.1 hside).2, rfl⟩
  · cases h

/-- A method of the protocol returns: the loop that called it goes on in the same turn. -/
theorem returns_does {t t' : Transport} {a : Answer} (h : returns t a = some t') :
    Does t (.returns a) t' := by
  rcases returns_side h with ⟨hr, h⟩ | ⟨hw, rfl⟩
  · exact .reader (.inl hr) (Reader.alive_of_in_call hr) h
  · exact .writer (.inl hw) (by rw [hw]; rfl) (writer_top_does t t.queued t.writer_must_cancel)

/-- A method of the protocol raises, into the loop that called it. -/
theorem raises_does {t t' : Transport} {r : Raised} (h : raises t r = some t') :
    Does t (.raises r) t' := by
  rcases raises_side h with ⟨hr, h⟩ | ⟨hw, rfl⟩
  · exact .reader (.inl hr) (Reader.alive_of_in_call hr) h
  · refine .writer (.inl hw) (by rw [hw]; rfl) ?_
    cases r with
    | exc e => exact .raised t.writer_must_cancel e
    | cancelled_error =>
        exact .moves t.queued t.wake (.ended .cancelled) t.writer_must_cancel rfl

/-- **Every step does one of the things of `Does`.** All that is said below about steps goes
through this case analysis. -/
theorem step_does {t t' : Transport} {l : Label} (h : step t l = some t') : Does t l t' := by
  cases step_cases h with
  | call c => exact .call c
  | returns h => exact returns_does h
  | raises h => exact raises_does h
  | cancel_reader => exact .cancel_reader
  | cancel_writer => exact .cancel_writer
  | from_loop hcur h =>
      cases from_loop_cases h with
      | made hr hw => exact .made hr hw
      | read_done r hr => exact .read_done r hr
      | write_done data r hw => exact .write_done data r hw
      | shutdown_done r hw => exact .shutdown_done r hw
      | run_reader hrun =>
          obtain ⟨halive, hdoes⟩ := run_reader_does hrun
          exact .reader (.inr hcur) halive hdoes
      | run_writer hrun =>
          obtain ⟨halive, hdoes⟩ := run_writer_does hrun
          exact .writer (.inr hcur) halive hdoes
      | run_lost exc rest hl => exact .run_lost exc rest hl

end ZmuxPy.CarrierTransport
