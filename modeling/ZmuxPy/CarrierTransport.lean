/-
`_CarrierTransport` (`python/zmux/_layer.py`): an asyncio transport over a
`CarrierStream`.

Two tasks work on the transport's fields. The read loop waits for `_reading`,
reads from the carrier and calls the protocol; the write loop takes writes off
`_queue`, one `CarrierStream.write` each, sleeps on `_wake` while there is
nothing to do, and ends with `CarrierStream.shutdown`. Everything runs on one
event loop, so the unit of interleaving is the stretch between two awaits.

A stretch may also end in the middle, in a call of the protocol, which may call
the transport back. The call is a state of its own (`data_received`,
`resume_writing` and so on below): while the transport is in one, only calls
made by it happen, and they are made by the task the transport is in, which is
what `_lose` asks `current_task()` for. `pause_writing` needs no state, since
`write` does nothing after it.

The tasks exist from the end of `connection_made` on; a protocol that closes or
aborts the transport in `connection_made` gets an `AttributeError`, after the
flags were set. `log` is history: what was called on the carrier and on the
protocol, in order.
-/
import Mathlib.Data.Int.Notation
import Mathlib.Data.List.Basic
import Mathlib.Tactic.Basic
import ZmuxPy.Asyncio
import ZmuxPy.Machine

set_option autoImplicit false

namespace ZmuxPy.CarrierTransport

open Machine Asyncio

/-! ## The state -/

/-- An exception other than a cancellation, as far as the loops tell them
apart. -/
inductive Exc where
  | os_error
  | zmux_error
  | runtime_error
  | other
  deriving DecidableEq, Repr

/-- `except (OSError, ZmuxError, RuntimeError)`. -/
def Exc.caught : Exc → Bool
  | .other => false
  | _ => true

/-- What a call of the protocol may raise. -/
inductive Raised where
  | exc (e : Exc)
  | cancelled_error
  deriving DecidableEq, Repr

/-- How a task ended. -/
inductive Ended where
  | returned
  | cancelled
  | failed (e : Exc)
  deriving DecidableEq, Repr

/-- The task of `_read_loop`. -/
inductive Reader where
  /-- Before `connection_made` returned. -/
  | unborn
  /-- Before its first step. -/
  | start
  /-- In `await self._reading.wait()`. -/
  | wait (f : Await Unit)
  /-- In `await self._stream.read()`. -/
  | read (f : Await (Except Exc Bytes))
  /-- In `proto.data_received(data)`. -/
  | data_received
  /-- In `proto.get_buffer(len(view))`. -/
  | get_buffer (view : Bytes)
  /-- In `proto.buffer_updated(n)`, with the rest of the view. -/
  | buffer_updated (view : Bytes)
  /-- In `self._protocol.eof_received()`. -/
  | eof_received
  | ended (e : Ended)
  deriving DecidableEq, Repr

/-- The task of `_write_loop`. -/
inductive Writer where
  | unborn
  | start
  /-- In `await self._wake.wait()`. -/
  | wait (f : Await Unit)
  /-- In `await self._stream.write(data)`. -/
  | write (data : Bytes) (f : Await (Except Exc Unit))
  /-- In `self._protocol.resume_writing()`. -/
  | resume_writing
  /-- In `await self._stream.shutdown()`. -/
  | shutdown (f : Await (Except Exc Unit))
  | ended (e : Ended)
  deriving DecidableEq, Repr

/-- The history: the calls of `write`, and what the transport calls on the protocol and the
carrier. -/
inductive Event where
  /-- `write(data)` was called, with the flags as they were. -/
  | write_called (data : Data) (closing eof : Bool)
  /-- The carrier's operations, called and done. -/
  | read
  | write (data : Bytes)
  | wrote (data : Bytes) (ok : Bool)
  | shutdown
  | shut (ok : Bool)
  /-- The protocol's methods. -/
  | data_received (data : Bytes)
  | buffer_updated (data : Bytes)
  | eof_received
  | pause_writing
  | resume_writing
  | connection_lost_scheduled (exc : Option Exc)
  | connection_lost (exc : Option Exc)
  deriving DecidableEq, Repr

/-- The state of a `_Transport`, with its two tasks. -/
structure Transport where
  queue : List Bytes
  queued : ℤ
  high : ℤ
  low : ℤ
  paused : Bool
  wake : Bool
  reading : Bool
  eof : Bool
  closing : Bool
  lost : Bool
  /-- Whether the protocol is a `BufferedProtocol`. -/
  buffered : Bool
  reader : Reader
  reader_must_cancel : Bool
  writer : Writer
  writer_must_cancel : Bool
  /-- The scheduled calls of `connection_lost`. -/
  losing : List (Option Exc)
  log : List Event
  deriving DecidableEq, Repr

/-- `__init__` up to the call of `connection_made`. -/
def init (buffered : Bool) : Transport :=
  { queue := [], queued := 0, high := 65536, low := 16384, paused := false, wake := false
    reading := true, eof := false, closing := false, lost := false, buffered := buffered
    reader := .unborn, reader_must_cancel := false, writer := .unborn
    writer_must_cancel := false, losing := [], log := [] }

/-! ## The two tasks, seen from outside -/

inductive Side where
  | reader
  | writer
  deriving DecidableEq, Repr

/-- `asyncio.current_task()`, in a call of the protocol. -/
def current (t : Transport) : Option Side :=
  match t.reader, t.writer with
  | .data_received, _ | .get_buffer _, _ | .buffer_updated _, _ | .eof_received, _ => some .reader
  | _, .resume_writing => some .writer
  | _, _ => none

/-- `self._reader.cancel()`. -/
def cancel_reader (t : Transport) : Transport :=
  match t.reader with
  | .unborn | .ended _ => t
  | .wait f =>
    let (f, mark) := f.cancel t.reader_must_cancel
    { t with reader := .wait f, reader_must_cancel := mark }
  | .read f =>
    let (f, mark) := f.cancel t.reader_must_cancel
    { t with reader := .read f, reader_must_cancel := mark }
  -- not suspended, or in a call of the protocol: the mark waits for the next await
  | _ => { t with reader_must_cancel := true }

/-- `self._writer.cancel()`. -/
def cancel_writer (t : Transport) : Transport :=
  match t.writer with
  | .unborn | .ended _ => t
  | .wait f =>
    let (f, mark) := f.cancel t.writer_must_cancel
    { t with writer := .wait f, writer_must_cancel := mark }
  | .write data f =>
    let (f, mark) := f.cancel t.writer_must_cancel
    { t with writer := .write data f, writer_must_cancel := mark }
  | .shutdown f =>
    let (f, mark) := f.cancel t.writer_must_cancel
    { t with writer := .shutdown f, writer_must_cancel := mark }
  | _ => { t with writer_must_cancel := true }

/-- `self._wake.set()`. -/
def set_wake (t : Transport) : Transport :=
  { t with
    wake := true
    writer := match t.writer with
      | .wait .pending => .wait (.done ())
      | w => w }

/-- `self._reading.set()`. -/
def set_reading (t : Transport) : Transport :=
  { t with
    reading := true
    reader := match t.reader with
      | .wait .pending => .wait (.done ())
      | r => r }

def record (t : Transport) (e : Event) : Transport := { t with log := t.log ++ [e] }

/-- `for t in (self._reader, self._writer)`: cancels all but the current task. -/
def cancel_others (t : Transport) (cur : Option Side) : Transport :=
  match cur with
  | some .reader => cancel_writer t
  | some .writer => cancel_reader t
  | none => cancel_writer (cancel_reader t)

/-- `call_soon(self._protocol.connection_lost, exc)`. -/
def schedule_lost (t : Transport) (exc : Option Exc) : Transport :=
  record { t with losing := t.losing ++ [exc] } (.connection_lost_scheduled exc)

/-- `_lose(exc)`, called by the task `cur`. Without the tasks it raises, after
the flags were set. -/
def lose (t : Transport) (cur : Option Side) (exc : Option Exc) : Transport :=
  if t.lost then t
  else
    match t.reader with
    -- `self._reader` is not there yet: `AttributeError`, after the flags
    | .unborn => { t with lost := true, closing := true }
    | _ => schedule_lost (cancel_others { t with lost := true, closing := true } cur) exc

/-! ## The transport's methods -/

/-- `write(data)` with data that is taken. -/
def enqueue (t : Transport) (b : Bytes) : Transport :=
  set_wake { t with queue := t.queue ++ [b], queued := t.queued + b.length }

/-- `pause_writing` is called once the queue is above the high mark. -/
def check_high (t : Transport) : Transport :=
  if !t.paused && t.queued > t.high then record { t with paused := true } .pause_writing else t

/-- `write(data)`. -/
def write (t : Transport) (data : Data) : Transport :=
  if t.closing || t.eof || data.items = 0 then record t (.write_called data t.closing t.eof)
  else check_high (enqueue (record t (.write_called data t.closing t.eof)) data.bytes)

/-- `write_eof()`. -/
def write_eof (t : Transport) : Transport := set_wake { t with eof := true }

/-- `close()`, called by the task `cur`. -/
def close (t : Transport) (cur : Option Side) : Transport :=
  if t.closing then t
  else
    match t.writer with
    -- `self._writer.done()`: nobody else would report the end
    | .ended _ => lose (set_wake { t with closing := true }) cur none
    | _ => set_wake { t with closing := true }

/-- The high mark of `set_write_buffer_limits(high, low)`. -/
def default_high (high low : Option ℤ) : ℤ :=
  match high, low with
  | some high, _ => high
  | none, some low => 4 * low
  | none, none => 65536

/-- `set_write_buffer_limits(high, low)`. -/
def set_write_buffer_limits (t : Transport) (high low : Option ℤ) : Transport :=
  { t with
    high := default_high high low
    low := low.getD (default_high high low / 4) }

inductive Call where
  | write (data : Data)
  | write_eof
  | close
  | abort
  | pause_reading
  | resume_reading
  | set_protocol (buffered : Bool)
  | set_write_buffer_limits (high low : Option ℤ)
  deriving DecidableEq, Repr

/-- A call of a method, by the protocol if the transport is in a call of it, by
anyone else if not. -/
def call (t : Transport) : Call → Transport
  | .write data => write t data
  | .write_eof => write_eof t
  | .close => close t (current t)
  | .abort => lose t (current t) none
  | .pause_reading => { t with reading := false }
  | .resume_reading => set_reading t
  | .set_protocol buffered => { t with buffered := buffered }
  | .set_write_buffer_limits high low => set_write_buffer_limits t high low

/-! ## The read loop -/

/-- `await self._stream.read()`. -/
def read_call (t : Transport) : Transport :=
  record { t with reader := .read (.suspend t.reader_must_cancel), reader_must_cancel := false }
    .read

/-- The top of the loop: `await self._reading.wait()`. -/
def reader_top (t : Transport) : Transport :=
  if t.reading then read_call t
  else { t with reader := .wait (.suspend t.reader_must_cancel), reader_must_cancel := false }

/-- `while view:` in `_deliver`. -/
def deliver_view (t : Transport) (view : Bytes) : Transport :=
  if view = [] then reader_top t else { t with reader := .get_buffer view }

/-- `_deliver(data)`, up to the first call of the protocol. -/
def deliver (t : Transport) (data : Bytes) : Transport :=
  if t.buffered then deliver_view t data
  else record { t with reader := .data_received } (.data_received data)

def end_reader (t : Transport) (e : Ended) : Transport := { t with reader := .ended e }

/-- An exception in the loop. -/
def reader_raised (t : Transport) : Raised → Transport
  | .cancelled_error => end_reader t .cancelled
  | .exc e =>
    -- `except (OSError, ZmuxError, RuntimeError)`; anything else ends the task as it is
    if e.caught then end_reader (lose t (some .reader) (some e)) .returned
    else end_reader t (.failed e)

/-- `await self._stream.read()` came back. -/
def read_returned (t : Transport) : Except Exc Bytes → Transport
  | .ok [] => record { t with reader := .eof_received } .eof_received
  | .ok data => deliver t data
  | .error e => reader_raised t (.exc e)

/-- The event loop runs the task. -/
def run_reader (t : Transport) : Option Transport :=
  match t.reader with
  | .start =>
    -- cancelled before its first step, the loop never runs
    some (if t.reader_must_cancel then end_reader t .cancelled else reader_top t)
  | .wait f =>
    (f.resume t.reader_must_cancel).map fun r =>
      match r with
      | some () => read_call { t with reader_must_cancel := false }
      | none => end_reader t .cancelled
  | .read f =>
    (f.resume t.reader_must_cancel).map fun r =>
      match r with
      | some r => read_returned { t with reader_must_cancel := false } r
      | none => end_reader t .cancelled
  | _ => none

/-! ## The write loop -/

/-- `await self._stream.shutdown()`. -/
def shutdown_call (t : Transport) : Transport :=
  record { t with
    writer := .shutdown (.suspend t.writer_must_cancel), writer_must_cancel := false } .shutdown

/-- The top of the loop, to its next await. -/
def writer_top (t : Transport) : Transport :=
  match t.queue with
  | [] =>
    -- the queue is empty, so this is the end
    if t.eof || t.closing then shutdown_call t
    else { t with
      wake := false
      writer := .wait (.suspend t.writer_must_cancel), writer_must_cancel := false }
  | data :: rest =>
    record { t with
      queue := rest
      writer := .write data (.suspend t.writer_must_cancel), writer_must_cancel := false }
      (.write data)

def end_writer (t : Transport) (e : Ended) : Transport := { t with writer := .ended e }

/-- An exception in the loop. -/
def writer_raised (t : Transport) : Raised → Transport
  | .cancelled_error => end_writer t .cancelled
  | .exc e =>
    if e.caught then end_writer (lose t (some .writer) (some e)) .returned
    else end_writer t (.failed e)

/-- `resume_writing` is called once the queue is down to the low mark. -/
def check_low (t : Transport) : Transport :=
  if t.paused && t.queued ≤ t.low then
    record { t with paused := false, writer := .resume_writing } .resume_writing
  else writer_top t

/-- `await self._stream.write(data)` came back. -/
def write_returned (t : Transport) (data : Bytes) : Except Exc Unit → Transport
  -- a failed write leaves `_queued` as it was
  | .ok () => check_low { t with queued := t.queued - data.length }
  | .error e => writer_raised t (.exc e)

/-- `await self._stream.shutdown()` came back. -/
def shutdown_returned (t : Transport) : Except Exc Unit → Transport
  | .ok () => end_writer (if t.closing then lose t (some .writer) none else t) .returned
  | .error e => writer_raised t (.exc e)

/-- The event loop runs the task. -/
def run_writer (t : Transport) : Option Transport :=
  match t.writer with
  | .start =>
    some (if t.writer_must_cancel then end_writer t .cancelled else writer_top t)
  | .wait f =>
    (f.resume t.writer_must_cancel).map fun r =>
      match r with
      | some () => writer_top { t with writer_must_cancel := false }
      | none => end_writer t .cancelled
  | .write data f =>
    (f.resume t.writer_must_cancel).map fun r =>
      match r with
      | some r => write_returned { t with writer_must_cancel := false } data r
      | none => end_writer t .cancelled
  | .shutdown f =>
    (f.resume t.writer_must_cancel).map fun r =>
      match r with
      | some r => shutdown_returned { t with writer_must_cancel := false } r
      | none => end_writer t .cancelled
  | _ => none

/-! ## Runs -/

/-- What a call of the protocol returns, as far as the transport looks at it. -/
inductive Answer where
  | none
  /-- The size of the buffer `get_buffer` returned. -/
  | size (n : ℕ)
  /-- The truth of what `eof_received` returned. -/
  | keep_open (b : Bool)
  deriving DecidableEq, Repr

/-- The protocol's call returns. -/
def returns (t : Transport) (a : Answer) : Option Transport :=
  match t.reader, t.writer, a with
  | .data_received, _, .none => some (reader_top t)
  | .get_buffer view, _, .size n =>
    some (record { t with reader := .buffer_updated (view.drop n) }
      (.buffer_updated (view.take n)))
  | .buffer_updated view, _, .none => some (deliver_view t view)
  | .eof_received, _, .keep_open b =>
    -- `if not self._protocol.eof_received(): self.close()`
    some (end_reader (if b then t else close t (some .reader)) .returned)
  -- the write loop goes on only after the protocol's call returned
  | _, .resume_writing, .none => some (writer_top t)
  | _, _, _ => none

/-- The protocol's call raises. -/
def raises (t : Transport) (r : Raised) : Option Transport :=
  match current t with
  | some .reader => some (reader_raised t r)
  | some .writer => some (writer_raised t r)
  | none => none

/-- The protocol's calls and returns, the loop's steps, and what the carrier's stream completes. -/
inductive Label where
  /-- `connection_made` returns, and the tasks are made. -/
  | made
  | call (c : Call)
  | returns (a : Answer)
  | raises (r : Raised)
  /-- A read, a write or the shutdown of the carrier is done. -/
  | read_done (r : Except Exc Bytes)
  | write_done (r : Except Exc Unit)
  | shutdown_done (r : Except Exc Unit)
  | run_reader
  | run_writer
  /-- The event loop calls `connection_lost`. -/
  | run_lost
  /-- Someone else (the end of `asyncio.run`) cancels a task. -/
  | cancel (side : Side)

/-- What only the event loop itself does, and so not while it is in a call. -/
def from_loop (t : Transport) : Label → Option Transport
  | .made =>
    match t.reader, t.writer with
    | .unborn, .unborn => some { t with reader := .start, writer := .start }
    | _, _ => none
  | .read_done r =>
    match t.reader with
    | .read f => (f.complete r).map fun f => { t with reader := .read f }
    | _ => none
  | .write_done r =>
    match t.writer with
    | .write data f => (f.complete r).map fun f =>
      record { t with writer := .write data f } (.wrote data r.isOk)
    | _ => none
  | .shutdown_done r =>
    match t.writer with
    | .shutdown f => (f.complete r).map fun f =>
      record { t with writer := .shutdown f } (.shut r.isOk)
    | _ => none
  | .run_reader => run_reader t
  | .run_writer => run_writer t
  | .run_lost =>
    match t.losing with
    | exc :: rest => some (record { t with losing := rest } (.connection_lost exc))
    | [] => none
  | _ => none

/-- One step. The loop takes none while a call of the protocol is open. -/
def step (t : Transport) : Label → Option Transport
  | .call c => some (call t c)
  | .returns a => returns t a
  | .raises r => raises t r
  | .cancel .reader => some (cancel_reader t)
  | .cancel .writer => some (cancel_writer t)
  | l => if current t = none then from_loop t l else none

/-! ## Steps, by what they are -/

/-- The steps of the event loop as a relation. -/
inductive FromLoop (t : Transport) : Label → Transport → Prop where
  | made (hr : t.reader = .unborn) (hw : t.writer = .unborn) :
      FromLoop t .made { t with reader := .start, writer := .start }
  | read_done (r : Except Exc Bytes) (hr : t.reader = .read .pending) :
      FromLoop t (.read_done r) { t with reader := .read (.done r) }
  | write_done (data : Bytes) (r : Except Exc Unit) (hw : t.writer = .write data .pending) :
      FromLoop t (.write_done r)
        (record { t with writer := .write data (.done r) } (.wrote data r.isOk))
  | shutdown_done (r : Except Exc Unit) (hw : t.writer = .shutdown .pending) :
      FromLoop t (.shutdown_done r) (record { t with writer := .shutdown (.done r) } (.shut r.isOk))
  | run_reader {t' : Transport} (h : run_reader t = some t') : FromLoop t .run_reader t'
  | run_writer {t' : Transport} (h : run_writer t = some t') : FromLoop t .run_writer t'
  | run_lost (exc : Option Exc) (rest : List (Option Exc)) (hl : t.losing = exc :: rest) :
      FromLoop t .run_lost (record { t with losing := rest } (.connection_lost exc))

/-- What each step of the loop does. -/
theorem from_loop_cases {t t' : Transport} {l : Label} (h : from_loop t l = some t') :
    FromLoop t l t' := by
  cases l with
  | made =>
      simp only [from_loop] at h
      split at h
      · cases h
        exact .made ‹_› ‹_›
      · cases h
  | read_done r =>
      simp only [from_loop] at h
      split at h
      · obtain ⟨f', hf', rfl⟩ := Option.map_eq_some_iff.1 h
        obtain ⟨rfl, rfl⟩ := Await.complete_eq_some hf'
        exact .read_done r ‹_›
      · cases h
  | write_done r =>
      simp only [from_loop] at h
      split at h
      · obtain ⟨f', hf', rfl⟩ := Option.map_eq_some_iff.1 h
        obtain ⟨rfl, rfl⟩ := Await.complete_eq_some hf'
        exact .write_done _ r ‹_›
      · cases h
  | shutdown_done r =>
      simp only [from_loop] at h
      split at h
      · obtain ⟨f', hf', rfl⟩ := Option.map_eq_some_iff.1 h
        obtain ⟨rfl, rfl⟩ := Await.complete_eq_some hf'
        exact .shutdown_done r ‹_›
      · cases h
  | run_reader => exact .run_reader h
  | run_writer => exact .run_writer h
  | run_lost =>
      simp only [from_loop] at h
      split at h
      · cases h
        exact .run_lost _ _ ‹_›
      · cases h
  | call _ | returns _ | raises _ | cancel _ => cases h

/-- A step: what the protocol or another task does, or what the event loop does. -/
inductive Step (t : Transport) : Label → Transport → Prop where
  | call (c : Call) : Step t (.call c) (call t c)
  | returns {a : Answer} {t' : Transport} (h : returns t a = some t') : Step t (.returns a) t'
  | raises {r : Raised} {t' : Transport} (h : raises t r = some t') : Step t (.raises r) t'
  | cancel_reader : Step t (.cancel .reader) (cancel_reader t)
  | cancel_writer : Step t (.cancel .writer) (cancel_writer t)
  | from_loop {l : Label} {t' : Transport} (hcur : current t = none)
      (h : from_loop t l = some t') : Step t l t'

/-- **What each step does**, with the guard it passed. -/
theorem step_cases {t t' : Transport} {l : Label} (h : step t l = some t') : Step t l t' := by
  cases l with
  | call c =>
      cases h
      exact .call c
  | returns a => exact .returns h
  | raises r => exact .raises h
  | cancel side =>
      cases side with
      | reader =>
          cases h
          exact .cancel_reader
      | writer =>
          cases h
          exact .cancel_writer
  | made | read_done _ | write_done _ | shutdown_done _ | run_reader | run_writer | run_lost =>
      simp only [step, Option.ite_none_right_eq_some] at h
      exact .from_loop h.1 h.2

end ZmuxPy.CarrierTransport
