/-
The bytes of a receiving part that several calls share (`RecvStream` in `src/lib.rs`), up to
what Python gets of them.

Every reading call is a Rust future behind an asyncio future (`future_into_py`, the `Bridge`
of `FutureIntoPy`). The Rust future waits for the part (`held`), keeps it to its end and is
dropped when a cancellation of the asyncio future reaches it. `read`, `read_chunk` and
`async for` are one native `read_chunk`, which takes bytes off the stream in the poll that
returns them; `read_exact` and `read_to_end` take them poll by poll, and what they have taken
goes with them if they are dropped or fail on the way. A result goes from the runtime to the
blocking pool and from there to the loop, where `Complete` discards it if the asyncio future
was cancelled by then. Several tasks may do all of this at once on one stream.

What holds in spite of that rests on the lock, which goes round in the order of asking
(`FairLock.Turns`): the stream is cut into consecutive shares, one for each call, in that
order. The native reads are the crate's, which is not part of the repository: `Crate` is any
implementation of them that takes the stream's bytes in order and has the properties its
fields name, and the results are for every such crate.

`received`, `asked` and `pieces` are history: what arrived, the calls in the order of their
first poll, and what each poll took. So is a call's `state`, what became of its Rust future,
since the bridge forgets a result that it discards.
-/
import ZmuxPy.Asyncio
import ZmuxPy.FutureIntoPy
import ZmuxPy.LockTurns
import ZmuxPy.Machine
import ZmuxPy.Parties

set_option autoImplicit false

namespace ZmuxPy.RecvData

open Machine Parties FairLock Asyncio
open FutureIntoPy (Bridge)

/-! ## The calls -/

/-- The methods that wait for the part. -/
inductive Op where
  | read (n : ℕ)
  | read_chunk (max : ℕ)
  | anext
  | read_exact (n : ℕ)
  | read_to_end (limit : ℕ)
  | read_datagram
  | stop
  /-- `__aexit__` on an exception; without one it does not come to the part. -/
  | aexit
  deriving DecidableEq, Repr

/-- What the method's future resolves to: a value or an exception. -/
inductive Result where
  | data (b : Bytes)
  /-- `StopAsyncIteration`. -/
  | stop_iteration
  | datagram
  /-- The value of `stop` and of `__aexit__`. -/
  | done
  /-- `stream_err` of the crate's error. -/
  | error
  | incomplete_read
  | limit_exceeded
  deriving DecidableEq, Repr

/-- What became of a call's Rust future. -/
inductive State where
  | pending
  | ready (r : Result)
  | dropped
  deriving DecidableEq, Repr

/-- One call: its bridge, and what its Rust future did. -/
structure Call extends Bridge Result where
  op : Op
  /-- What it took of the stream. -/
  buf : Bytes
  state : State
  deriving DecidableEq, Repr

/-- A call that was just made. -/
def Call.new (op : Op) : Call := { Bridge.new with op := op, buf := [], state := .pending }

/-- A stream's receiving part, with the calls on it and the history. -/
structure Stream where
  /-- The handle has its part. -/
  part : Bool
  lock : List ℕ
  calls : List Call
  unread : Bytes
  /-- The peer ended the stream. -/
  finished : Bool
  received : Bytes
  asked : List ℕ
  pieces : List (ℕ × Bytes)
  deriving DecidableEq, Repr

/-- A stream nothing was received on, with its part in the handle. -/
def init : Stream :=
  { part := true, lock := [], calls := [], unread := [], finished := false, received := []
    asked := [], pieces := [] }

/-! ## The crate -/

/-- What a native call of the crate resolves to. -/
inductive Native where
  /-- `read_chunk`; `None` is the end of the stream. -/
  | chunk (b : Option Bytes)
  /-- `read_exact(&mut buf)`: `Ok(())`, with what is in the buffer. -/
  | filled (b : Bytes)
  /-- `read_to_end(limit)`. -/
  | rest (b : Bytes)
  | datagram
  | stopped
  /-- A `StreamError`, alone or as the `Read` of the errors of the two calls above. -/
  | error
  /-- The other error of `read_exact`. -/
  | finished_early
  /-- The other error of `read_to_end`. -/
  | too_long
  deriving DecidableEq, Repr

/-- The methods that are one `read_chunk`, with its size. -/
def Op.chunk_size : Op → Option ℕ
  | .read n => some n
  | .read_chunk max => some max
  | .anext => some 65536
  | _ => none

/-- The calls that take bytes before they return them. -/
def gathers : Op → Bool
  | .read_exact _ | .read_to_end _ => true
  | _ => false

/-- The native calls of the crate: what a poll of one may come to (`none` is `Pending`), if it
takes `k` bytes off the stream, which then has `got` of the stream in its hands, and `at_end`
says whether that was the end of the stream. -/
structure Crate where
  may : Op → ℕ → Bytes → Bool → Option Native → Bool
  /-- `read_chunk` takes bytes only in the poll that returns them. -/
  chunk_takes : ∀ {op n k got at_end a}, op.chunk_size = some n → may op k got at_end a = true →
    k ≠ 0 → ∃ b, a = some (.chunk b)
  /-- It returns what it took, at most the size. -/
  chunk_returns : ∀ {op n k got at_end b}, op.chunk_size = some n →
    may op k got at_end (some (.chunk b)) = true → b.getD [] = got ∧ got.length ≤ n
  /-- `read_exact` succeeds with the buffer full of what it took. -/
  exact_returns : ∀ {n k got at_end b}, may (.read_exact n) k got at_end (some (.filled b)) = true →
    b = got ∧ got.length = n
  /-- It falls short only at the end of the stream. -/
  exact_early : ∀ {n k got at_end}, may (.read_exact n) k got at_end (some .finished_early) = true →
    at_end = true
  /-- `read_to_end` succeeds with all that it took, within the limit, at the end of the stream. -/
  rest_returns : ∀ {limit k got at_end b},
    may (.read_to_end limit) k got at_end (some (.rest b)) = true →
    b = got ∧ got.length ≤ limit ∧ at_end = true
  /-- `read_datagram` and `stop` leave the stream's bytes alone. -/
  others_take : ∀ {op k got at_end a}, op.chunk_size = none → gathers op = false →
    may op k got at_end a = true → k = 0

/-! ## The binding -/

/-- What a method makes of what its native call resolved to; `none` where the types of the
crate rule it out. -/
def convert : Op → Native → Option Result
  | .read _, .chunk b => some (.data (b.getD []))
  | .read_chunk _, .chunk b => some (.data (b.getD []))
  -- `Some(b) if !b.is_empty()`
  | .anext, .chunk b => some (if b.getD [] = [] then .stop_iteration else .data (b.getD []))
  | .read_exact _, .filled b => some (.data b)
  | .read_exact _, .finished_early => some .incomplete_read
  | .read_to_end _, .rest b => some (.data b)
  | .read_to_end _, .too_long => some .limit_exceeded
  | .read_datagram, .datagram => some .datagram
  | .stop, .stopped => some .done
  -- `let _ = g.stop(..)`: an error of `stop` is ignored here
  | .aexit, .stopped | .aexit, .error => some .done
  | _, .error => some .error
  | _, _ => none

/-- `stop` is no future: with the part in hand it is over at once. -/
def Op.awaits : Op → Bool
  | .stop | .aexit => false
  | _ => true

/-- A poll of the native call of a method, once it has the part. -/
def answer (crate : Crate) (op : Op) (k : ℕ) (got : Bytes) (at_end : Bool) (a : Option Native) :
    Option State :=
  if crate.may op k got at_end a then
    match a with
    | none => if op.awaits then some .pending else none
    | some a => (convert op a).map .ready
  else none

/-- The call finds the part taken: an error, except in `__aexit__`. -/
def taken (op : Op) : Result := if op = .aexit then .done else .error

/-- The bridge after a poll of the Rust future: the task goes on with its result, if it has
one. -/
def Call.polled (c : Call) (state : State) : Bridge Result :=
  match state with
  | .ready r => c.ready r
  | _ => c.toBridge

/-- Call `i` has a poll's turn at the part. -/
def serve (crate : Crate) (s : Stream) (i : ℕ) (c : Call) (k : ℕ) (a : Option Native) :
    Option Stream :=
  if s.part = false then
    some { s with
      lock := leave s.lock i
      calls := s.calls.set i
        { c with toBridge := c.polled (.ready (taken c.op)), state := .ready (taken c.op) } }
  else if k ≤ s.unread.length then
    (answer crate c.op k (c.buf ++ s.unread.take k) (s.finished && k == s.unread.length) a).map
      fun state =>
        { s with
          lock := if state = .pending then s.lock else leave s.lock i
          calls := s.calls.set i
            { c with toBridge := c.polled state, buf := c.buf ++ s.unread.take k, state := state }
          unread := s.unread.drop k
          pieces := s.pieces ++ [(i, s.unread.take k)] }
  else none

/-- Call `i` asks for the part, or keeps its place. -/
def asks (s : Stream) (i : ℕ) : Stream :=
  { s with lock := ask s.lock i, asked := ask s.asked i }

/-- One poll of the runtime task: the biased `select!`. The cancel branch drops the Rust
future, and with it its place at the lock. -/
def poll (crate : Crate) (s : Stream) (i : ℕ) (c : Call) (k : ℕ) (a : Option Native) :
    Option Stream :=
  if c.task = .select then
    if c.cancel = .empty then
      if Holds (ask s.lock i) i then serve crate (asks s i) i c k a else some (asks s i)
    else
      some { s with
        lock := leave s.lock i
        calls := s.calls.set i { c with task := .ended, state := .dropped } }
  else none

/-- A call of Python, a step of its bridge or a step of the stream. -/
inductive Label where
  | call (op : Op)
  /-- The asyncio future of a call is cancelled. -/
  | cancel (i : ℕ)
  /-- The loop runs `OnCancel`. -/
  | on_cancel (i : ℕ)
  /-- A poll of the task, in which the native call takes `k` bytes. -/
  | poll (i k : ℕ) (a : Option Native)
  /-- The blocking pool runs the task's closure. -/
  | post (i : ℕ)
  /-- The loop runs `Complete`. -/
  | complete (i : ℕ)
  /-- `reject`, `stream_pipe` or `splice` takes the part, if nobody has it. -/
  | take
  | receive (b : Bytes)
  | finish
  deriving DecidableEq, Repr

/-- Call `i` has a new bridge, and is the same otherwise. -/
def rebridge (s : Stream) (i : ℕ) (c : Call) (b : Bridge Result) : Stream :=
  { s with calls := s.calls.set i { c with toBridge := b } }

/-- One step of the stream. -/
def step (crate : Crate) (s : Stream) : Label → Option Stream
  | .call op => some { s with calls := s.calls ++ [.new op] }
  | .cancel i => (s.calls[i]?).map fun c => rebridge s i c c.cancel_future
  | .on_cancel i => (s.calls[i]?).bind fun c => c.run_on_cancel.map (rebridge s i c)
  | .poll i k a => (s.calls[i]?).bind fun c => poll crate s i c k a
  | .post i => (s.calls[i]?).bind fun c => c.post.map (rebridge s i c)
  | .complete i => (s.calls[i]?).bind fun c => c.complete.map (rebridge s i c)
  | .take => some (if s.lock = [] then { s with part := false } else s)
  | .receive b =>
    if s.finished then none
    else some { s with unread := s.unread ++ b, received := s.received ++ b }
  | .finish => some { s with finished := true }

/-! ## The Rust future of one call -/

/-- The bytes a Rust future resolved to. -/
def State.data : State → Bytes
  | .ready (.data b) => b
  | _ => []

/-- What a call may return. -/
def Fits (op : Op) (b : Bytes) : Prop :=
  match op with
  | .read n | .read_chunk n => b.length ≤ n
  | .anext => b.length ≤ 65536 ∧ b ≠ []
  | .read_exact n => b.length = n
  | .read_to_end limit => b.length ≤ limit
  | _ => False

/-- A call in this state has come to the end of the stream. -/
def saw_end (op : Op) (state : State) : Bool :=
  match op, state with
  | .read_to_end _, .ready (.data _) => true
  | _, .ready .incomplete_read => true
  | _, _ => false

/-- Where a Rust future may be, with `got` taken: what it resolved to is what it took, and it
kept nothing back unless it gathers. -/
structure Sound (op : Op) (got : Bytes) (state : State) : Prop where
  fits : ∀ b, state = .ready (.data b) → got = b ∧ Fits op b
  kept : gathers op = false → got = state.data

/-- A state without bytes. -/
theorem State.data_eq_nil {state : State} (h : ∀ b, state ≠ .ready (.data b)) :
    state.data = [] := by
  unfold State.data
  split
  · rename_i b
    exact absurd rfl (h b)
  · rfl

/-- A future that ends without data, behind a poll that took nothing. -/
theorem Sound.ends {op : Op} {got : Bytes} (h : Sound op got .pending) {state : State}
    (hstate : ∀ b, state ≠ .ready (.data b)) : Sound op got state := by
  refine ⟨fun b hb => absurd hb (hstate b), fun hg => ?_⟩
  rw [h.kept hg, State.data_eq_nil hstate]
  rfl

/-- A gathering call that resolved to no bytes has kept what it took. -/
theorem Sound.gathered {op : Op} {got : Bytes} {state : State} (hg : gathers op = true)
    (hstate : ∀ b, state ≠ .ready (.data b)) : Sound op got state := by
  refine ⟨fun b hb => absurd hb (hstate b), fun hno => ?_⟩
  rw [hg] at hno
  cases hno

variable {crate : Crate} {op : Op} {k : ℕ} {got : Bytes} {at_end : Bool}

/-- A poll comes to `Pending`, or to what the method makes of what the native call resolved
to. -/
theorem answer_cases {a : Option Native} {state : State}
    (h : answer crate op k got at_end a = some state) :
    crate.may op k got at_end a = true
    ∧ (a = none ∧ state = .pending
      ∨ ∃ v r, a = some v ∧ convert op v = some r ∧ state = .ready r) := by
  unfold answer at h
  split at h
  · rename_i hmay
    refine ⟨hmay, ?_⟩
    cases a with
    | none =>
        simp only [Option.ite_none_right_eq_some, Option.some.injEq] at h
        exact .inl ⟨rfl, h.2.symm⟩
    | some v =>
        obtain ⟨r, hr, rfl⟩ := Option.map_eq_some_iff.1 h
        exact .inr ⟨v, r, rfl, hr, rfl⟩
  · cases h

/-- What the three methods over `read_chunk` make of a chunk. -/
theorem convert_chunk {n : ℕ} {b : Option Bytes} {r : Result} (hop : op.chunk_size = some n)
    (h : convert op (.chunk b) = some r) :
    r = .data (b.getD []) ∧ (op = .anext → b.getD [] ≠ [])
      ∨ r = .stop_iteration ∧ b.getD [] = [] := by
  cases op with
  | read n | read_chunk n =>
      cases h
      exact .inl ⟨rfl, by simp⟩
  | anext =>
      simp only [convert, Option.some.injEq] at h
      split at h
      · exact .inr ⟨h.symm, ‹_›⟩
      · exact .inl ⟨h.symm, fun _ => ‹_›⟩
  | read_exact n | read_to_end n | read_datagram | stop | aexit => cases hop

/-- The one other thing these methods come to is an error. -/
theorem convert_of_not_chunk {n : ℕ} {v : Native} {r : Result} (hop : op.chunk_size = some n)
    (hv : ∀ b, v ≠ .chunk b) (h : convert op v = some r) : r = .error := by
  cases v with
  | chunk b => exact absurd rfl (hv b)
  | error =>
      cases op with
      | read n | read_chunk n | anext =>
          cases h
          rfl
      | read_exact n | read_to_end n | read_datagram | stop | aexit => cases hop
  | filled b | rest b | datagram | stopped | finished_early | too_long =>
      cases op with
      | read n | read_chunk n | anext => cases h
      | read_exact n | read_to_end n | read_datagram | stop | aexit => cases hop

/-- The size of a chunk is the size the method was called with. -/
theorem fits_of_chunk {n : ℕ} {b : Bytes} (hop : op.chunk_size = some n) (hlen : b.length ≤ n)
    (hne : op = .anext → b ≠ []) : Fits op b := by
  cases op with
  | read n | read_chunk n =>
      cases hop
      exact hlen
  | anext =>
      cases hop
      exact ⟨hlen, hne rfl⟩
  | read_exact n | read_to_end n | read_datagram | stop | aexit => cases hop

/-- `read`, `read_chunk` and `async for`: what is taken is nothing, or it is returned. -/
theorem chunk_sound {n : ℕ} {a : Option Native} {state : State} (hop : op.chunk_size = some n)
    (h : answer crate op k got at_end a = some state) (hlen : got.length = k) :
    Sound op got state ∧ state ≠ .ready .incomplete_read := by
  obtain ⟨hmay, hcases⟩ := answer_cases h
  -- a poll that resolves to no chunk has taken nothing
  have hnothing : (∀ b, a ≠ some (.chunk b)) → got = [] := by
    intro hno
    by_contra hne
    have hk : k ≠ 0 := fun hk => hne (List.eq_nil_of_length_eq_zero (hlen.trans hk))
    obtain ⟨b, hb⟩ := crate.chunk_takes hop hmay hk
    exact hno b hb
  rcases hcases with ⟨rfl, rfl⟩ | ⟨v, r, rfl, hr, rfl⟩
  · exact ⟨⟨by simp, fun _ => hnothing (by simp)⟩, by simp⟩
  · by_cases hv : ∃ b, v = .chunk b
    · obtain ⟨b, rfl⟩ := hv
      obtain ⟨hgot, hle⟩ := crate.chunk_returns hop hmay
      rcases convert_chunk hop hr with ⟨rfl, hne⟩ | ⟨rfl, hnil⟩
      · refine ⟨⟨fun b' hb' => ?_, fun _ => hgot.symm⟩, by simp⟩
        cases hb'
        exact ⟨hgot.symm, fits_of_chunk hop (hgot ▸ hle) hne⟩
      · exact ⟨⟨by simp, fun _ => hgot.symm.trans hnil⟩, by simp⟩
    · have hv' : ∀ b, v ≠ .chunk b := fun b hb => hv ⟨b, hb⟩
      obtain rfl := convert_of_not_chunk hop hv' hr
      exact ⟨⟨by simp, fun _ => hnothing (by simpa using hv')⟩, by simp⟩

/-- `read_exact`: all or nothing, and short only at the end. -/
theorem exact_sound {n : ℕ} {a : Option Native} {state : State}
    (h : answer crate (.read_exact n) k got at_end a = some state) :
    Sound (.read_exact n) got state ∧ (state = .ready .incomplete_read → at_end = true) := by
  obtain ⟨hmay, hcases⟩ := answer_cases h
  rcases hcases with ⟨rfl, rfl⟩ | ⟨v, r, rfl, hr, rfl⟩
  · exact ⟨.gathered rfl (by simp), by simp⟩
  · cases v with
    | filled b =>
        cases hr
        obtain ⟨rfl, hlen⟩ := crate.exact_returns hmay
        refine ⟨⟨fun b' hb' => ?_, fun hno => absurd hno (by simp [gathers])⟩, by simp⟩
        cases hb'
        exact ⟨rfl, hlen⟩
    | finished_early =>
        cases hr
        exact ⟨.gathered rfl (by simp), fun _ => crate.exact_early hmay⟩
    | error =>
        cases hr
        exact ⟨.gathered rfl (by simp), by simp⟩
    | chunk b | rest b | datagram | stopped | too_long => cases hr

/-- `read_to_end`: everything up to the end, or nothing. -/
theorem to_end_sound {limit : ℕ} {a : Option Native} {state : State}
    (h : answer crate (.read_to_end limit) k got at_end a = some state) :
    Sound (.read_to_end limit) got state
      ∧ (saw_end (.read_to_end limit) state = true → at_end = true) := by
  obtain ⟨hmay, hcases⟩ := answer_cases h
  rcases hcases with ⟨rfl, rfl⟩ | ⟨v, r, rfl, hr, rfl⟩
  · exact ⟨.gathered rfl (by simp), by simp [saw_end]⟩
  · cases v with
    | rest b =>
        cases hr
        obtain ⟨rfl, hlen, hend⟩ := crate.rest_returns hmay
        refine ⟨⟨fun b' hb' => ?_, fun hno => absurd hno (by simp [gathers])⟩, fun _ => hend⟩
        cases hb'
        exact ⟨rfl, hlen⟩
    | too_long | error =>
        cases hr
        exact ⟨.gathered rfl (by simp), by simp [saw_end]⟩
    | chunk b | filled b | datagram | stopped | finished_early => cases hr

/-- The calls that have nothing to do with the stream's bytes. -/
theorem others_sound {a : Option Native} {state : State} (hop : op.chunk_size = none)
    (hg : gathers op = false) (h : answer crate op k got at_end a = some state) :
    k = 0 ∧ (∀ b, state ≠ .ready (.data b)) ∧ state ≠ .ready .incomplete_read := by
  obtain ⟨hmay, hcases⟩ := answer_cases h
  refine ⟨crate.others_take hop hg hmay, ?_⟩
  rcases hcases with ⟨rfl, rfl⟩ | ⟨v, r, rfl, hr, rfl⟩
  · simp
  · cases op with
    | read n | read_chunk n | anext => cases hop
    | read_exact n | read_to_end n => cases hg
    | read_datagram | stop | aexit => cases v <;> cases hr <;> simp

theorem saw_end_cases {state : State} (h : saw_end op state = true) :
    (∃ limit, op = .read_to_end limit) ∨ state = .ready .incomplete_read := by
  unfold saw_end at h
  split at h
  · exact .inl ⟨_, rfl⟩
  · exact .inr rfl
  · cases h

/-- A poll of the native call leaves the future sound, and at the end of the stream only if
nothing is left of it. -/
theorem answer_sound {buf piece : Bytes} {a : Option Native} {state : State}
    (h : answer crate op k (buf ++ piece) at_end a = some state)
    (hbuf : Sound op buf .pending) (hlen : piece.length = k) :
    Sound op (buf ++ piece) state ∧ (saw_end op state = true → at_end = true) := by
  have hchunk : ∀ n, op.chunk_size = some n → gathers op = false →
      Sound op (buf ++ piece) state ∧ state ≠ .ready .incomplete_read := by
    intro n hn hg
    have hgot : (buf ++ piece).length = k := by
      rw [show buf = [] from hbuf.kept hg, List.nil_append, hlen]
    exact chunk_sound hn h hgot
  have hothers : op.chunk_size = none → gathers op = false →
      Sound op (buf ++ piece) state ∧ state ≠ .ready .incomplete_read := by
    intro hn hg
    obtain ⟨hk, hdata, hne⟩ := others_sound hn hg h
    rw [List.eq_nil_of_length_eq_zero (hlen.trans hk), List.append_nil]
    exact ⟨hbuf.ends hdata, hne⟩
  cases op with
  | read n | read_chunk n | anext =>
      obtain ⟨hs, hne⟩ := hchunk _ rfl rfl
      exact ⟨hs, fun hend => absurd ((saw_end_cases hend).resolve_left (by simp)) hne⟩
  | read_exact n =>
      obtain ⟨hs, hend⟩ := exact_sound h
      exact ⟨hs, fun hse => hend ((saw_end_cases hse).resolve_left (by simp))⟩
  | read_to_end limit => exact to_end_sound h
  | read_datagram | stop | aexit =>
      obtain ⟨hs, hne⟩ := hothers rfl rfl
      exact ⟨hs, fun hend => absurd ((saw_end_cases hend).resolve_left (by simp)) hne⟩

/-! ## The bridge of one call

A result is in one place: with the Rust future, on its way to the loop, on the asyncio future,
or gone, because the asyncio future was cancelled when it arrived. -/

/-- Where a call stands: what its Rust future came to and where the result is now. -/
inductive Stands (c : Call) : Prop where
  | running (htask : c.task = .select) (hstate : c.state = .pending)
      (hopen : ∀ r, c.target ≠ .set r)
  | dropped (htask : c.task = .ended) (hstate : c.state = .dropped)
      (hopen : ∀ r, c.target ≠ .set r)
  | on_way (r : Result) (htask : c.task = .blocking r ∨ c.task = .posted r)
      (hstate : c.state = .ready r) (hopen : ∀ r, c.target ≠ .set r)
  | returned (r : Result) (htask : c.task = .ended) (hstate : c.state = .ready r)
      (htarget : c.target = .set r)
  | discarded (r : Result) (htask : c.task = .ended) (hstate : c.state = .ready r)
      (htarget : c.target = .cancelled)

variable {c : Call}

theorem Stands.new (op : Op) : Stands (.new op) := .running rfl rfl (by simp [Call.new, Bridge.new])

/-- A task in its `select!` has a Rust future that is not done. -/
theorem Stands.pending (h : Stands c) (htask : c.task = .select) : c.state = .pending := by
  cases h with
  | running _ hstate _ => exact hstate
  | dropped ht | returned _ ht | discarded _ ht =>
      rw [ht] at htask
      cases htask
  | on_way r ht =>
      rw [htask] at ht
      rcases ht with ht | ht <;> cases ht

theorem Stands.running_open (h : Stands c) (htask : c.task = .select) (r : Result) :
    c.target ≠ .set r := by
  cases h with
  | running _ _ hopen => exact hopen r
  | dropped _ _ hopen => exact hopen r
  | on_way _ _ _ hopen => exact hopen r
  | returned _ ht | discarded _ ht =>
      rw [ht] at htask
      cases htask

/-- The same task, and a target that is the same or was cancelled while it was open. -/
theorem Stands.retarget (h : Stands c) {b : Bridge Result} (htask : b.task = c.task)
    (htarget : b.target = c.target ∨ c.target = .pending ∧ b.target = .cancelled) :
    Stands { c with toBridge := b } := by
  have hopen : (∀ r, c.target ≠ .set r) → ∀ r, b.target ≠ .set r := by
    intro hno r hr
    rcases htarget with ht | ⟨-, ht⟩
    · exact hno r (ht ▸ hr)
    · rw [ht] at hr
      cases hr
  cases h with
  | running ht hs ho => exact .running (htask.trans ht) hs (hopen ho)
  | dropped ht hs ho => exact .dropped (htask.trans ht) hs (hopen ho)
  | on_way r ht hs ho =>
      refine .on_way r ?_ hs (hopen ho)
      show b.task = _ ∨ b.task = _
      rw [htask]
      exact ht
  | returned r ht hs htg =>
      rcases htarget with hsame | ⟨hp, -⟩
      · exact .returned r (htask.trans ht) hs (hsame.trans htg)
      · rw [htg] at hp
        cases hp
  | discarded r ht hs htg =>
      rcases htarget with hsame | ⟨hp, -⟩
      · exact .discarded r (htask.trans ht) hs (hsame.trans htg)
      · rw [htg] at hp
        cases hp

theorem Stands.cancel (h : Stands c) : Stands { c with toBridge := c.cancel_future } := by
  unfold Bridge.cancel_future
  split
  · rename_i hp
    exact h.retarget rfl (.inr ⟨hp, rfl⟩)
  · exact h

theorem Stands.on_cancel (h : Stands c) {b : Bridge Result} (hb : c.run_on_cancel = some b) :
    Stands { c with toBridge := b } := by
  obtain ⟨htarget, htask⟩ := Bridge.run_on_cancel_eq_some hb
  exact h.retarget htask (.inl htarget)

/-- A result on its way stays on its way. -/
theorem Stands.post (h : Stands c) {b : Bridge Result} (hb : c.post = some b) :
    Stands { c with toBridge := b } := by
  obtain ⟨r, hr, rfl⟩ := Bridge.post_eq_some hb
  cases h with
  | on_way r' ht hs ho =>
      have hrr : r' = r := by
        rw [hr] at ht
        rcases ht with ht | ht <;> cases ht
        rfl
      subst hrr
      exact .on_way r' (.inr rfl) hs ho
  | running ht | dropped ht | returned _ ht | discarded _ ht =>
      rw [hr] at ht
      cases ht

/-- `Complete` sets the result, or finds the future cancelled. -/
theorem Stands.complete (h : Stands c) {b : Bridge Result} (hb : c.complete = some b) :
    Stands { c with toBridge := b } := by
  obtain ⟨r, hr, hcases⟩ := Bridge.complete_eq_some hb
  cases h with
  | on_way r' ht hs ho =>
      have hrr : r' = r := by
        rw [hr] at ht
        rcases ht with ht | ht <;> cases ht
        rfl
      subst hrr
      rcases hcases with ⟨-, rfl⟩ | ⟨hnp, rfl⟩
      · exact .returned r' rfl hs rfl
      · refine .discarded r' rfl hs ?_
        show c.target = _
        cases htarget : c.target with
        | pending => exact absurd htarget hnp
        | cancelled => rfl
        | set r => exact absurd htarget (ho r)
  | running ht | dropped ht | returned _ ht | discarded _ ht =>
      rw [hr] at ht
      cases ht

/-- A poll that leaves the Rust future pending or brings its result. -/
theorem Stands.polled (h : Stands c) (htask : c.task = .select) {state : State} (buf : Bytes)
    (hstate : state ≠ .dropped) :
    Stands { c with toBridge := c.polled state, buf := buf, state := state } := by
  have hopen := h.running_open htask
  cases state with
  | pending => exact .running htask rfl hopen
  | ready r => exact .on_way r (.inl rfl) rfl hopen
  | dropped => exact absurd rfl hstate

/-! ## The invariant -/

/-- What holds of the stream, the lock and the calls together. -/
structure Inv (s : Stream) : Prop where
  turns : Turns s.lock s.asked s.pieces
  bytes : s.received = s.pieces.flatMap Prod.snd ++ s.unread
  /-- Who is in the queue is pending, and who asked and left is not. -/
  pending : ∀ i ∈ s.lock, ∃ c : Call, s.calls[i]? = some c ∧ c.state = .pending
  left : ∀ i ∈ s.asked, i ∈ s.lock ∨ ∃ c : Call, s.calls[i]? = some c ∧ c.state ≠ .pending
  share : ∀ (i : ℕ) (c : Call), s.calls[i]? = some c → share s.pieces i = c.buf
  sound : ∀ (i : ℕ) (c : Call), s.calls[i]? = some c → Sound c.op c.buf c.state
  stands : ∀ (i : ℕ) (c : Call), s.calls[i]? = some c → Stands c
  served : ∀ (i : ℕ) (c : Call), s.calls[i]? = some c → (∃ r, c.state = .ready r) →
    i ∈ s.asked ∧ Served s.lock s.asked i
  ended : ∀ (i : ℕ) (c : Call), s.calls[i]? = some c → saw_end c.op c.state = true →
    s.finished = true ∧ s.unread = []

theorem init_inv : Inv init := by
  have hnone : ∀ {i : ℕ} {c : Call}, init.calls[i]? ≠ some c := by simp [init]
  refine ⟨.nil, rfl, ?_, ?_, ?_, ?_, ?_, ?_, ?_⟩
  · intro i hi
    cases hi
  · intro i hi
    cases hi
  · intro i c hc
    exact absurd hc hnone
  · intro i c hc
    exact absurd hc hnone
  · intro i c hc
    exact absurd hc hnone
  · intro i c hc
    exact absurd hc hnone
  · intro i c hc
    exact absurd hc hnone

variable {s s' : Stream} {i : ℕ}

/-- Who is polled is in the queue, or asks for the first time. -/
theorem Inv.in_or_new (hs : Inv s) (hc : s.calls[i]? = some c) (hp : c.state = .pending) :
    i ∈ s.lock ∨ i ∉ s.asked := by
  by_cases hi : i ∈ s.asked
  · rcases hs.left i hi with hl | ⟨c', hc', hp'⟩
    · exact .inl hl
    · rw [hc, Option.some.injEq] at hc'
      exact absurd (hc' ▸ hp) hp'
  · exact .inr hi

/-- A poll takes a place in the queue. -/
theorem Inv.asks (hs : Inv s) (hc : s.calls[i]? = some c) (hp : c.state = .pending) :
    Inv (asks s i) := by
  have hask := hs.in_or_new hc hp
  refine ⟨hs.turns.ask hask, hs.bytes, fun j hj => ?_, fun j hj => ?_, hs.share, hs.sound,
    hs.stands, fun j d hd hr => ?_, hs.ended⟩
  · rcases mem_ask.1 hj with hj | rfl
    · exact hs.pending j hj
    · exact ⟨c, hc, hp⟩
  · rcases mem_ask.1 hj with hj | rfl
    · exact (hs.left j hj).imp_left fun hl => mem_ask.2 (.inl hl)
    · exact .inl (mem_ask.2 (.inr rfl))
  · obtain ⟨hj, hserved⟩ := hs.served j d hd hr
    exact ⟨mem_ask.2 (.inl hj), hserved.ask hj hask⟩

/-- Call `i` moves on, with a piece taken, which may be empty: it keeps the lock, or leaves.
The call afterwards is `c'`. -/
theorem Inv.move (hs : Inv s) (hc : s.calls[i]? = some c) (hp : c.state = .pending)
    (piece : Bytes) {c' : Call} (hcalls : s'.calls = s.calls.set i c') (hop : c'.op = c.op)
    (hbuf : c'.buf = c.buf ++ piece)
    (hlock : c'.state = .pending ∧ s'.lock = s.lock
      ∨ c'.state ≠ .pending ∧ s'.lock = leave s.lock i)
    (hasked : s'.asked = s.asked) (hturns : Turns s'.lock s'.asked s'.pieces)
    (hshare : ∀ j, FairLock.share s'.pieces j
      = FairLock.share s.pieces j ++ if i = j then piece else [])
    (hreceived : s'.received = s.received) (hbytes : s.unread = piece ++ s'.unread)
    (hlog : s'.pieces.flatMap Prod.snd = s.pieces.flatMap Prod.snd ++ piece)
    (hfinished : s'.finished = s.finished) (hsound : Sound c.op (c.buf ++ piece) c'.state)
    (hstands : Stands c')
    (hend : saw_end c.op c'.state = true → s'.finished = true ∧ s'.unread = [])
    (hserved : (∃ r, c'.state = .ready r) → Holds s.lock i) : Inv s' := by
  -- one call moves: each field of the invariant is about that call, or is as it was
  have hself : s'.calls[i]? = some c' := by
    rw [hcalls]
    exact getElem?_set_of_some hc
  have hother : ∀ {j : ℕ}, j ≠ i → s'.calls[j]? = s.calls[j]? := by
    intro j hj
    rw [hcalls, List.getElem?_set_ne (Ne.symm hj)]
  have hnodup := hs.turns.order.nodup.sublist hs.turns.order.sub
  -- who is in the queue now was in it before, and the call that moved only if it goes on
  -- waiting
  have hsub : ∀ {j : ℕ}, j ∈ s'.lock → j ∈ s.lock ∧ (j = i → c'.state = .pending) := by
    intro j hj
    rcases hlock with ⟨hst, hl⟩ | ⟨-, hl⟩
    · exact ⟨hl ▸ hj, fun _ => hst⟩
    · rw [hl, mem_leave hnodup] at hj
      exact ⟨hj.2, fun hji => absurd hji hj.1⟩
  have hkeeps : ∀ {j : ℕ}, j ∈ s.lock → j ≠ i → j ∈ s'.lock := by
    intro j hj hji
    rcases hlock with ⟨-, hl⟩ | ⟨-, hl⟩
    · rwa [hl]
    · rw [hl, mem_leave hnodup]
      exact ⟨hji, hj⟩
  refine ⟨hturns, ?_, fun j hj => ?_, fun j hj => ?_, fun j d hd => ?_, fun j d hd => ?_,
    fun j d hd => ?_, fun j d hd hr => ?_, fun j d hd hse => ?_⟩
  · rw [hreceived, hs.bytes, hbytes, hlog, List.append_assoc]
  · obtain ⟨hjl, hst⟩ := hsub hj
    by_cases hji : j = i
    · subst hji
      exact ⟨_, hself, hst rfl⟩
    · rw [hother hji]
      exact hs.pending j hjl
  · rw [hasked] at hj
    by_cases hji : j = i
    · subst hji
      rcases hlock with ⟨-, hl⟩ | ⟨hst, -⟩
      · rcases hs.left j hj with hjl | ⟨d, hd, hdp⟩
        · exact .inl (hl ▸ hjl)
        · rw [hc, Option.some.injEq] at hd
          exact absurd (hd ▸ hp) hdp
      · exact .inr ⟨_, hself, hst⟩
    · rw [hother hji]
      exact (hs.left j hj).imp_left fun hjl => hkeeps hjl hji
  · by_cases hji : j = i
    · subst hji
      rw [hself, Option.some.injEq] at hd
      rw [hshare, if_pos rfl, hs.share j c hc, ← hd, hbuf]
    · rw [hother hji] at hd
      rw [hshare, if_neg (Ne.symm hji), List.append_nil]
      exact hs.share j d hd
  · by_cases hji : j = i
    · subst hji
      rw [hself, Option.some.injEq] at hd
      rw [← hd, hop, hbuf]
      exact hsound
    · rw [hother hji] at hd
      exact hs.sound j d hd
  · by_cases hji : j = i
    · subst hji
      rw [hself, Option.some.injEq] at hd
      exact hd ▸ hstands
    · rw [hother hji] at hd
      exact hs.stands j d hd
  · have hleft : ∀ {j : ℕ}, Served s.lock s.asked j → Served s'.lock s.asked j := by
      intro j h
      rcases hlock with ⟨-, hl⟩ | ⟨-, hl⟩
      · exact hl ▸ h
      · exact hl ▸ h.leave i
    rw [hasked]
    by_cases hji : j = i
    · subst hji
      rw [hself, Option.some.injEq] at hd
      have hj := hserved (by rw [← hd] at hr; exact hr)
      exact ⟨hs.turns.order.sub.subset (List.mem_of_mem_head? hj),
        hleft (hs.turns.order.served hj)⟩
    · rw [hother hji] at hd
      exact (hs.served j d hd hr).imp_right hleft
  · by_cases hji : j = i
    · subst hji
      rw [hself, Option.some.injEq] at hd
      rw [← hd, hop] at hse
      exact hend hse
    · rw [hother hji] at hd
      -- another call saw the end, so nothing was left for this one to take
      obtain ⟨hf, hu⟩ := hs.ended j d hd hse
      rw [hu] at hbytes
      exact ⟨hfinished.trans hf, (List.append_eq_nil_iff.1 hbytes.symm).2⟩

/-- Only the bridge of call `i` moves on. -/
theorem Inv.rebridge (hs : Inv s) (hc : s.calls[i]? = some c) {b : Bridge Result}
    (hb : Stands { c with toBridge := b }) : Inv (rebridge s i c b) := by
  -- the other fields of the call are the same, and the invariant reads only those
  have hnew : ∀ {j : ℕ} {d : Call}, (RecvData.rebridge s i c b).calls[j]? = some d →
      ∃ e, s.calls[j]? = some e ∧ d.op = e.op ∧ d.buf = e.buf ∧ d.state = e.state := by
    intro j d hd
    rcases getElem?_set_cases hd with ⟨rfl, rfl⟩ | ⟨-, hd⟩
    · exact ⟨c, hc, rfl, rfl, rfl⟩
    · exact ⟨d, hd, rfl, rfl, rfl⟩
  have hold : ∀ {j : ℕ} {P : State → Prop}, (∃ d : Call, s.calls[j]? = some d ∧ P d.state) →
      ∃ d : Call, (RecvData.rebridge s i c b).calls[j]? = some d ∧ P d.state := by
    rintro j P ⟨d, hd, hP⟩
    by_cases hji : j = i
    · subst hji
      rw [hc, Option.some.injEq] at hd
      exact ⟨{ c with toBridge := b }, getElem?_set_of_some hc, hd ▸ hP⟩
    · refine ⟨d, ?_, hP⟩
      show (s.calls.set i _)[j]? = _
      rw [List.getElem?_set_ne (Ne.symm hji)]
      exact hd
  refine ⟨hs.turns, hs.bytes, fun j hj => hold (P := (· = .pending)) (hs.pending j hj),
    fun j hj => (hs.left j hj).imp_right (hold (P := (· ≠ .pending))), fun j d hd => ?_,
    fun j d hd => ?_, fun j d hd => ?_, fun j d hd hr => ?_, fun j d hd hse => ?_⟩
  · obtain ⟨e, he, -, hbuf, -⟩ := hnew hd
    rw [hbuf]
    exact hs.share j e he
  · obtain ⟨e, he, hop, hbuf, hstate⟩ := hnew hd
    rw [hop, hbuf, hstate]
    exact hs.sound j e he
  · rcases getElem?_set_cases hd with ⟨rfl, rfl⟩ | ⟨-, hd⟩
    · exact hb
    · exact hs.stands j d hd
  · obtain ⟨e, he, -, -, hstate⟩ := hnew hd
    rw [hstate] at hr
    exact hs.served j e he hr
  · obtain ⟨e, he, hop, -, hstate⟩ := hnew hd
    rw [hop, hstate] at hse
    exact hs.ended j e he hse

theorem saw_end_taken (op : Op) : saw_end op (.ready (taken op)) = false := by
  cases op <;> rfl

/-- Call `i` ends without having taken anything in this step. -/
theorem Inv.ends (hs : Inv s) (hc : s.calls[i]? = some c) (hp : c.state = .pending) {c' : Call}
    (hop : c'.op = c.op) (hbuf : c'.buf = c.buf) (hstands : Stands c')
    (hstate : ∀ b, c'.state ≠ .ready (.data b)) (hnot : c'.state ≠ .pending)
    (hend : saw_end c.op c'.state = false)
    (hserved : (∃ r, c'.state = .ready r) → Holds s.lock i) :
    Inv { s with lock := leave s.lock i, calls := s.calls.set i c' } := by
  have hnil := List.append_nil c.buf
  have hsound := hs.sound i c hc
  rw [hp] at hsound
  refine hs.move hc hp [] rfl hop (by rw [hnil, hbuf]) (.inr ⟨hnot, rfl⟩) rfl (hs.turns.leave i)
    (fun j => by simp) rfl rfl (by simp) rfl (hnil.symm ▸ hsound.ends hstate) hstands
    (fun hse => ?_) hserved
  rw [hend] at hse
  cases hse

/-- The holder is served: it takes a piece, comes to its result, or waits on. -/
theorem serve_inv {a : Option Native} (hs : Inv s) (hi : Holds s.lock i)
    (hc : s.calls[i]? = some c) (htask : c.task = .select)
    (h : serve crate s i c k a = some s') : Inv s' := by
  have hstands := hs.stands i c hc
  have hp := hstands.pending htask
  unfold serve at h
  split at h
  -- the part is gone: the call ends with an error, and has taken nothing
  · cases h
    refine hs.ends hc hp rfl rfl (hstands.polled htask _ (by simp)) (fun b hb => ?_) (by simp)
      (saw_end_taken c.op) fun _ => hi
    unfold taken at hb
    split at hb <;> cases hb
  · split at h
    · obtain ⟨state, hans, rfl⟩ := Option.map_eq_some_iff.1 h
      rename_i hk
      have hsound := hs.sound i c hc
      rw [hp] at hsound
      obtain ⟨hsound', hend⟩ := answer_sound hans hsound (List.length_take_of_le hk)
      have hnd : state ≠ .dropped := by
        rcases (answer_cases hans).2 with ⟨-, rfl⟩ | ⟨v, r, -, -, rfl⟩ <;> simp
      refine hs.move hc hp (s.unread.take k) rfl rfl rfl ?_ rfl ?_
        (fun j => share_snoc _ _ _ j) rfl (List.take_append_drop k _).symm (by simp) rfl hsound'
        (hstands.polled htask _ hnd) (fun hse => ?_) fun _ => hi
      · by_cases hst : state = .pending
        · exact .inl ⟨hst, if_pos hst⟩
        · exact .inr ⟨hst, if_neg hst⟩
      · show Turns (if state = .pending then s.lock else leave s.lock i) s.asked _
        split
        · exact hs.turns.add hi _
        · exact (hs.turns.add hi _).leave i
      · obtain ⟨hf, hk'⟩ := Bool.and_eq_true_iff.1 (hend hse)
        exact ⟨hf, List.drop_eq_nil_of_le (Nat.le_of_eq (beq_iff_eq.1 hk').symm)⟩
    · cases h

theorem poll_inv {a : Option Native} (hs : Inv s) (hc : s.calls[i]? = some c)
    (h : poll crate s i c k a = some s') : Inv s' := by
  unfold poll at h
  split at h
  · rename_i htask
    have hstands := hs.stands i c hc
    have hp := hstands.pending htask
    split at h
    · have hasks := hs.asks hc hp
      split at h
      · rename_i hi
        exact serve_inv hasks hi hc htask h
      · cases h
        exact hasks
    -- the cancel branch: the Rust future goes, with what it gathered
    · cases h
      refine hs.ends hc hp rfl rfl (.dropped rfl rfl (hstands.running_open htask)) (by simp)
        (by simp) ?_ ?_
      · cases c.op <;> rfl
      · rintro ⟨r, hr⟩
        cases hr
  · cases h

/-- A new call. -/
theorem Inv.call (hs : Inv s) (op : Op) : Inv { s with calls := s.calls ++ [.new op] } := by
  have hold : ∀ {j : ℕ} {P : Call → Prop}, (∃ d, s.calls[j]? = some d ∧ P d) →
      ∃ d, (s.calls ++ [.new op])[j]? = some d ∧ P d := by
    rintro j P ⟨d, hd, hP⟩
    exact ⟨d, getElem?_concat_of_some hd, hP⟩
  refine ⟨hs.turns, hs.bytes, fun j hj => hold (hs.pending j hj),
    fun j hj => (hs.left j hj).imp_right hold, fun j d hd => ?_, fun j d hd => ?_,
    fun j d hd => ?_, fun j d hd hr => ?_, fun j d hd hse => ?_⟩
  · rcases getElem?_concat_cases hd with ⟨rfl, rfl⟩ | hd
    · -- who has taken something is a call
      by_contra hne
      obtain ⟨p, hp, hpi⟩ := exists_of_share_ne_nil hne
      have hlt : ∀ {d : Call}, s.calls[s.calls.length]? ≠ some d := by simp
      rcases hs.left _ (hpi ▸ (hs.turns.served p hp).1) with hl | ⟨d, hd, -⟩
      · obtain ⟨d, hd, -⟩ := hs.pending _ hl
        exact hlt hd
      · exact hlt hd
    · exact hs.share j d hd
  · rcases getElem?_concat_cases hd with ⟨rfl, rfl⟩ | hd
    · refine ⟨fun b hb => ?_, fun _ => rfl⟩
      cases hb
    · exact hs.sound j d hd
  · rcases getElem?_concat_cases hd with ⟨rfl, rfl⟩ | hd
    · exact .new op
    · exact hs.stands j d hd
  · rcases getElem?_concat_cases hd with ⟨rfl, rfl⟩ | hd
    · obtain ⟨r, hr⟩ := hr
      cases hr
    · exact hs.served j d hd hr
  · rcases getElem?_concat_cases hd with ⟨rfl, rfl⟩ | hd
    · rcases saw_end_cases hse with ⟨limit, hl⟩ | hst
      · change op = _ at hl
        subst hl
        cases hse
      · cases hst
    · exact hs.ended j d hd hse

/-- **One step keeps the invariant.** -/
theorem step_inv {l : Label} (hs : Inv s) (h : step crate s l = some s') : Inv s' := by
  cases l with
  | call op =>
      cases h
      exact hs.call op
  | cancel i =>
      obtain ⟨c, hc, rfl⟩ := Option.map_eq_some_iff.1 h
      exact hs.rebridge hc (hs.stands i c hc).cancel
  | on_cancel i =>
      obtain ⟨c, hc, h⟩ := Option.bind_eq_some_iff.1 h
      obtain ⟨b, hb, rfl⟩ := Option.map_eq_some_iff.1 h
      exact hs.rebridge hc ((hs.stands i c hc).on_cancel hb)
  | poll i k a =>
      obtain ⟨c, hc, h⟩ := Option.bind_eq_some_iff.1 h
      exact poll_inv hs hc h
  | post i =>
      obtain ⟨c, hc, h⟩ := Option.bind_eq_some_iff.1 h
      obtain ⟨b, hb, rfl⟩ := Option.map_eq_some_iff.1 h
      exact hs.rebridge hc ((hs.stands i c hc).post hb)
  | complete i =>
      obtain ⟨c, hc, h⟩ := Option.bind_eq_some_iff.1 h
      obtain ⟨b, hb, rfl⟩ := Option.map_eq_some_iff.1 h
      exact hs.rebridge hc ((hs.stands i c hc).complete hb)
  | take =>
      cases h
      split
      · exact ⟨hs.turns, hs.bytes, hs.pending, hs.left, hs.share, hs.sound, hs.stands, hs.served,
          hs.ended⟩
      · exact hs
  | receive b =>
      simp only [step] at h
      split at h
      · cases h
      · rename_i hf
        cases h
        refine ⟨hs.turns, ?_, hs.pending, hs.left, hs.share, hs.sound, hs.stands, hs.served, ?_⟩
        · rw [hs.bytes, List.append_assoc]
        · -- nothing comes behind the end
          intro j d hd hse
          exact absurd (hs.ended j d hd hse).1 hf
  | finish =>
      cases h
      exact ⟨hs.turns, hs.bytes, hs.pending, hs.left, hs.share, hs.sound, hs.stands, hs.served,
        fun j d hd hse => ⟨rfl, (hs.ended j d hd hse).2⟩⟩

/-- The bytes that were set on the call's asyncio future. -/
def Call.result (c : Call) : Bytes :=
  match c.target with
  | .set (.data b) => b
  | _ => []

/-- What call `j` returned to Python. -/
def returned (s : Stream) (j : ℕ) : Bytes := ((s.calls[j]?).map Call.result).getD []

/-- The result is on its way from the runtime to the loop. -/
def Call.on_way (c : Call) : Bool :=
  match c.task with
  | .blocking _ | .posted _ => true
  | _ => false

/-- A crate in which the three reads do just what their laws ask for, and the other calls
nothing. -/
def plain : Crate where
  may op k got at_end a :=
    match op, a with
    | .read n, some (.chunk b) => decide (b.getD [] = got ∧ got.length ≤ n)
    | .read_exact n, none => decide (got.length < n)
    | .read_exact n, some (.filled b) => decide (b = got ∧ got.length = n)
    | .read_exact n, some .finished_early => decide (got.length < n) && at_end
    | .read_to_end limit, none => decide (got.length ≤ limit)
    | .read_to_end limit, some (.rest b) => decide (b = got ∧ got.length ≤ limit) && at_end
    | _, none => decide (k = 0)
    | _, _ => false
  chunk_takes := by
    intro op n k got at_end a hop hmay hk
    cases op with
    | read m =>
        cases a with
        | none => simp [hk] at hmay
        | some v => cases v <;> simp at hmay ⊢
    | read_chunk m | anext =>
        cases a with
        | none => simp [hk] at hmay
        | some v => simp at hmay
    | read_exact m | read_to_end m | read_datagram | stop | aexit => cases hop
  chunk_returns := by
    intro op n k got at_end b hop hmay
    cases op with
    | read m =>
        cases hop
        simpa using hmay
    | read_chunk m | anext => simp at hmay
    | read_exact m | read_to_end m | read_datagram | stop | aexit => cases hop
  exact_returns := by
    intro n k got at_end b hmay
    simpa using hmay
  exact_early := by
    intro n k got at_end hmay
    simp only [Bool.and_eq_true] at hmay
    exact hmay.2
  rest_returns := by
    intro limit k got at_end b hmay
    simpa [and_assoc] using hmay
  others_take := by
    intro op k got at_end a hop hg hmay
    cases op with
    | read n | read_chunk n | anext => cases hop
    | read_exact n | read_to_end n => cases hg
    | read_datagram | stop | aexit =>
        cases a with
        | none => simpa using hmay
        | some v => simp at hmay

end ZmuxPy.RecvData
