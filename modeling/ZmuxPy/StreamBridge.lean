/-
`pipe_from_streams`: a carrier over an asyncio stream pair.

`pipe_pair` makes an in-memory pipe of two directions (`ZmuxPy.Duplex`); the session has
one side of it as its carrier, and two tasks move the bytes between the other side
(`PipeEnd`) and the asyncio streams. Each task awaits one call at a time. A call of
`PipeEnd` is an operation in the runtime, which holds the lock of its half: the task that
awaits it may be cancelled, and then the operation goes on until the runtime drops it,
and a later call waits for it.

The two directions share nothing but their ends: the session drops both at once, and
`PipeEnd` goes when both tasks are done with it. So each direction is a machine of its own,
and the bridge is the two side by side.
-/
import Mathlib.Data.Int.Notation
import ZmuxPy.Asyncio
import ZmuxPy.Duplex
import ZmuxPy.Machine

set_option autoImplicit false

namespace ZmuxPy.StreamBridge

open Machine Asyncio Duplex

/-! ## From the stream to the session -/

/-- The task `inbound`. A read that raised is `none`. -/
inductive InTask where
  | start
  /-- `await reader.read(65536)`. -/
  | read (f : Await (Option Bytes))
  /-- `await end.write(data)`. -/
  | write (f : Await Bool)
  /-- `await end.write(b"")`, in the `finally`. -/
  | close (f : Await Bool)
  | ended
  deriving DecidableEq, Repr

/-- The end of a call, for the task if it still waits. -/
def InTask.wrote (ok : Bool) : InTask → InTask
  | .write .pending => .write (.done ok)
  | t => t

/-- The same for the shutdown at the end. -/
def InTask.shut : InTask → InTask
  | .close .pending => .close (.done true)
  | t => t

/-- The direction into the session: the pipe, the operations in the runtime and the task. -/
structure Inward where
  one : Simplex UInt8
  pipe_alive : Bool
  /-- `write_all`, with what is left to write. -/
  write_op : Option Bytes
  shut_op : Bool
  task : InTask
  must_cancel : Bool
  /-- History: what `reader.read` returned, what came into the pipe and what the session
  read, with the end of file. -/
  fetched : List Bytes
  fed : Bytes
  taken : Bytes
  eof : Bool
  /-- `reader.read` returned `b""` or raised. -/
  read_end : Bool
  /-- An operation ended before all of its data was in the pipe. -/
  dropped : Bool
  cancelled : Bool
  deriving DecidableEq, Repr

namespace Inward

/-- `pipe_pair` with its 256 KiB, and the task not started. -/
def init : Inward :=
  { one := .new (256 * 1024), pipe_alive := true, write_op := none, shut_op := false
    task := .start, must_cancel := false, fetched := [], fed := [], taken := [], eof := false
    read_end := false, dropped := false, cancelled := false }

/-- The session reads into room for `n` bytes. -/
def pipe_read (s : Inward) (n : ℕ) : Option Inward :=
  if s.pipe_alive then
    (poll_read s.one n).map fun (one, out) =>
      { s with one := one, taken := s.taken ++ out, eof := s.eof || s.one.buffer.isEmpty }
  else none

/-- One turn of `write_all`. -/
def push (s : Inward) : Option Inward :=
  match s.write_op with
  | none => none
  | some rest =>
    match poll_write s.one rest with
    | none => none
    | some .broken_pipe =>
      some { s with write_op := none, task := s.task.wrote false, dropped := true }
    | some (.ok one n) =>
      if rest.drop n = [] then
        some { s with
          one := one, fed := s.fed ++ rest.take n, write_op := none
          task := s.task.wrote true }
      else
        some { s with one := one, fed := s.fed ++ rest.take n, write_op := some (rest.drop n) }

/-- The runtime drops an operation whose future was cancelled. -/
def drop_write (s : Inward) : Option Inward :=
  if s.write_op.isSome ∧ s.task ≠ .write .pending then
    some { s with write_op := none, dropped := true }
  else none

/-- `w.shutdown()`, once the lock is free. -/
def shut (s : Inward) : Option Inward :=
  if s.shut_op ∧ s.write_op = none then
    some { s with one := Duplex.close s.one, shut_op := false, task := s.task.shut }
  else none

/-- The same for a shutdown whose future was cancelled. -/
def drop_shut (s : Inward) : Option Inward :=
  if s.shut_op ∧ s.task ≠ .close .pending then some { s with shut_op := false } else none

/-- `reader.read` is done. -/
def read_done (s : Inward) (r : Option Bytes) : Option Inward :=
  match s.task with
  | .read .pending => some { s with task := .read (.done r), fetched := s.fetched ++ r.toList }
  | _ => none

/-- Into the `finally`. -/
def finish (s : Inward) : Inward :=
  { s with shut_op := true, task := .close .pending, must_cancel := false }

/-- The event loop runs `inbound`. -/
def run_task (s : Inward) : Option Inward :=
  match s.task with
  | .start =>
    -- cancelled before its first step, the coroutine never enters the `try`
    if s.must_cancel then some { s with task := .ended, must_cancel := false }
    else some { s with task := .read .pending }
  | .read f =>
    (f.resume s.must_cancel).map fun r =>
      match r with
      | some (some []) | some none => finish { s with read_end := true }
      | some (some data) =>
        { s with write_op := some data, task := .write .pending, must_cancel := false }
      | none => finish s
  | .write f =>
    (f.resume s.must_cancel).map fun r =>
      match r with
      | some true => { s with task := .read .pending, must_cancel := false }
      | some false | none => finish s
  | .close f =>
    (f.resume s.must_cancel).map fun _ => { s with task := .ended, must_cancel := false }
  | .ended => none

/-- `Task.cancel()`. -/
def cancel (s : Inward) : Option Inward :=
  match s.task with
  | .start => some { s with must_cancel := true, cancelled := true }
  | .read f =>
    let (f, mark) := f.cancel s.must_cancel
    some { s with task := .read f, must_cancel := mark, cancelled := true }
  | .write f =>
    let (f, mark) := f.cancel s.must_cancel
    some { s with task := .write f, must_cancel := mark, cancelled := true }
  | .close f =>
    let (f, mark) := f.cancel s.must_cancel
    some { s with task := .close f, must_cancel := mark, cancelled := true }
  | .ended => none

/-- The steps of the session, the runtime and the event loop in this direction. -/
inductive Label where
  | pipe_read (n : ℕ)
  | push
  | drop_write
  | shut
  | drop_shut
  | read_done (r : Option Bytes)
  | run
  | cancel
  /-- The session drops its side, `PipeEnd` goes. -/
  | pipe_drop
  | end_drop
  deriving DecidableEq, Repr

/-- One step inward. -/
def step (s : Inward) : Label → Option Inward
  | .pipe_read n => pipe_read s n
  | .push => push s
  | .drop_write => drop_write s
  | .shut => shut s
  | .drop_shut => drop_shut s
  | .read_done r => read_done s r
  | .run => run_task s
  | .cancel => cancel s
  | .pipe_drop =>
    if s.pipe_alive then some { s with one := Duplex.close s.one, pipe_alive := false } else none
  | .end_drop =>
    if s.task = .ended ∧ s.write_op = none ∧ s.shut_op = false then
      some { s with one := Duplex.close s.one }
    else none

end Inward

/-! ## From the session to the stream -/

/-- `u64::MAX`. -/
def U64_MAX : ℕ := 18446744073709551615

/-- `UnsentCount`: `None` is stored as `u64::MAX`. -/
structure UnsentCount where
  cell : ℕ
  deriving DecidableEq, Repr

/-- `UnsentCount::store`: the largest number stands for `None`, so a size stops one short of it. -/
def UnsentCount.store (n : Option ℕ) : UnsentCount :=
  ⟨(n.map fun n => min n (U64_MAX - 1)).getD U64_MAX⟩

/-- `UnsentCount.set(size)` from Python, or an `OverflowError`. -/
def UnsentCount.set (size : ℤ) : Option UnsentCount :=
  if 0 ≤ size ∧ size ≤ U64_MAX then some (.store (some size.toNat)) else none

/-- What the session reads. -/
def UnsentCount.value (c : UnsentCount) : Option ℕ := if c.cell = U64_MAX then none else some c.cell

/-- The task `outbound`. -/
inductive OutTask where
  | start
  /-- `await end.read()`. -/
  | read (f : Await Bytes)
  /-- `await writer.drain()`. -/
  | drain (f : Await Bool)
  | ended
  deriving DecidableEq, Repr

/-- The end of a read, for the task if it still waits. -/
def OutTask.took (data : Bytes) : OutTask → OutTask
  | .read .pending => .read (.done data)
  | t => t

/-- The direction out of the session. -/
structure Outward where
  two : Simplex UInt8
  pipe_alive : Bool
  read_op : Bool
  task : OutTask
  must_cancel : Bool
  /-- None if the transport has no `get_write_buffer_size`. -/
  count : Option UnsentCount
  /-- History: what the session wrote, what `end.read` took, the calls of the writer and
  the sizes noted. -/
  given : Bytes
  got : Bytes
  writes : List Bytes
  closes : ℕ
  noted : List ℕ
  /-- The session shut its side down or dropped it. -/
  pipe_shut : Bool
  /-- The loop was left by an exception. -/
  failed : Bool
  cancelled : Bool
  deriving DecidableEq, Repr

namespace Outward

/-- The task is not started; `counts` is whether the transport tells its buffer's size. -/
def init (counts : Bool) : Outward :=
  { two := .new (256 * 1024), pipe_alive := true, read_op := false, task := .start
    must_cancel := false, count := if counts then some (.store none) else none
    given := [], got := [], writes := [], closes := 0, noted := [], pipe_shut := false
    failed := false, cancelled := false }

/-- The session writes. -/
def pipe_write (s : Outward) (data : Bytes) : Option Outward :=
  if s.pipe_alive then
    (poll_write s.two data).map fun r =>
      match r with
      | .broken_pipe => s
      | .ok two n => { s with two := two, given := s.given ++ data.take n }
  else none

/-- `end.read()` in the runtime: it takes what is there, for the task if it still waits. -/
def pull (s : Outward) : Option Outward :=
  if s.read_op then
    (poll_read s.two 65536).map fun (two, data) =>
      { s with
        two := two, read_op := false, got := s.got ++ data, task := s.task.took data }
  else none

/-- The runtime drops a read whose future was cancelled. -/
def drop_read (s : Outward) : Option Outward :=
  if s.read_op ∧ s.task ≠ .read .pending then some { s with read_op := false } else none

/-- `note()`: none if it raises. -/
def note (s : Outward) (size : ℤ) : Option Outward :=
  match s.count with
  | none => some s
  | some _ =>
    (UnsentCount.set size).map fun c => { s with count := some c, noted := s.noted ++ [size.toNat] }

/-- The `finally`: `writer.close()`. -/
def finish (s : Outward) (failed : Bool) : Outward :=
  { s with
    closes := s.closes + 1, task := .ended, must_cancel := false, failed := s.failed || failed }

/-- `end.read()` is called. -/
def call_read (s : Outward) : Outward :=
  { s with read_op := true, task := .read .pending, must_cancel := false }

/-- The event loop runs `outbound`. `ok` is whether `writer.write` returns, `size` what
`get_write_buffer_size` does. -/
def run_task (s : Outward) (ok : Bool) (size : ℤ) : Option Outward :=
  match s.task with
  | .start =>
    if s.must_cancel then some { s with task := .ended, must_cancel := false, failed := true }
    else some (call_read s)
  | .read f =>
    (f.resume s.must_cancel).map fun r =>
      match r with
      | some [] => finish s false
      | some data =>
        -- the call was made, though it may raise
        let s := { s with writes := s.writes ++ [data], must_cancel := false }
        if ok then
          match note s size with
          | some s => { s with task := .drain .pending }
          | none => finish s true
        else finish s true
      | none => finish s true
  | .drain f =>
    (f.resume s.must_cancel).map fun r =>
      match r with
      | some true =>
        match note s size with
        | some s => call_read s
        | none => finish s true
      | some false | none => finish s true
  | .ended => none

/-- `writer.drain()` is done, or raises. -/
def drain_done (s : Outward) (ok : Bool) : Option Outward :=
  match s.task with
  | .drain .pending => some { s with task := .drain (.done ok) }
  | _ => none

/-- `Task.cancel()`. -/
def cancel (s : Outward) : Option Outward :=
  match s.task with
  | .start => some { s with must_cancel := true, cancelled := true }
  | .read f =>
    let (f, mark) := f.cancel s.must_cancel
    some { s with task := .read f, must_cancel := mark, cancelled := true }
  | .drain f =>
    let (f, mark) := f.cancel s.must_cancel
    some { s with task := .drain f, must_cancel := mark, cancelled := true }
  | .ended => none

/-- The steps of the session, the runtime and the event loop in this direction. -/
inductive Label where
  | pipe_write (data : Bytes)
  | pipe_shutdown
  | pull
  | drop_read
  | run (ok : Bool) (size : ℤ)
  | drain_done (ok : Bool)
  | cancel
  | pipe_drop
  | end_drop
  deriving DecidableEq, Repr

/-- One step outward. -/
def step (s : Outward) : Label → Option Outward
  | .pipe_write data => pipe_write s data
  | .pipe_shutdown =>
    if s.pipe_alive then some { s with two := Duplex.close s.two, pipe_shut := true } else none
  | .pull => pull s
  | .drop_read => drop_read s
  | .run ok size => run_task s ok size
  | .drain_done ok => drain_done s ok
  | .cancel => cancel s
  | .pipe_drop =>
    if s.pipe_alive then
      some { s with two := Duplex.close s.two, pipe_alive := false, pipe_shut := true }
    else none
  | .end_drop =>
    if s.task = .ended ∧ s.read_op = false then some { s with two := Duplex.close s.two }
    else none

end Outward

/-! ## The bridge -/

/-- Both directions. -/
structure Bridge where
  inward : Inward
  outward : Outward
  deriving DecidableEq, Repr

/-- `pipe_from_streams` has returned. -/
def init (counts : Bool) : Bridge := { inward := .init, outward := .init counts }

/-- A step of one direction, or the end of a side, which both directions see. -/
inductive Label where
  | inward (l : Inward.Label)
  | outward (l : Outward.Label)
  | pipe_drop
  | end_drop
  deriving DecidableEq, Repr

/-- One step of the bridge. -/
def step (s : Bridge) : Label → Option Bridge
  | .inward l =>
    if l = .pipe_drop ∨ l = .end_drop then none
    else (s.inward.step l).map fun inward => { s with inward := inward }
  | .outward l =>
    if l = .pipe_drop ∨ l = .end_drop then none
    else (s.outward.step l).map fun outward => { s with outward := outward }
  | .pipe_drop =>
    (s.inward.step .pipe_drop).bind fun inward =>
      (s.outward.step .pipe_drop).map fun outward => { inward := inward, outward := outward }
  | .end_drop =>
    (s.inward.step .end_drop).bind fun inward =>
      (s.outward.step .end_drop).map fun outward => { inward := inward, outward := outward }

end ZmuxPy.StreamBridge
