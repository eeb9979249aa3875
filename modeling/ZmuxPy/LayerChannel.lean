/-
The channel between a wrapped carrier and its Python layer: `ChanIo` and
`LayerEnd` (`src/layer.rs`) and the pumps `up` and `down` of `run`
(`python/zmux/_layer.py`).

Two bounded channels run between the halves. Out of the carrier: `poll_write`
sends one message per accepted write, `down` receives it through
`LayerEnd.read` and gives it to the layer's writer `w2` in one call. Into the
carrier: `up` reads bytes from the layer's reader `r2` and sends them through
`LayerEnd.write`, `poll_read` hands them out in pieces of any size.

An end of stream has no message of its own. It is the last sender going away:
for the first channel the one in `ChanIo` and the clone in its pending
`reserve`, for the second the one in `LayerEnd`, which `up` closes at its end,
and the clone in a pending `LayerEnd.write`. `LayerEnd` itself lives as long as
either pump.

A poll may be pending although it need not (the runtime's budget), so a label
says whether it is. The rest is determined by the state. `accepted`,
`w2_writes`, `r2_reads` and `returned` are history.
-/
import Mathlib.Data.List.Basic
import Mathlib.Data.List.Flatten
import Mathlib.Tactic.Basic
import ZmuxPy.Asyncio
import ZmuxPy.Machine

set_option autoImplicit false

namespace ZmuxPy.LayerChannel

open Machine Asyncio

/-! ## The model -/

/-- The depth of either channel. -/
def DEPTH : ℕ := 8

/-- The task of `down`: before its first step, in `end.read()`, with that call's
result, in `w2.drain()`, with that call done, or ended. -/
inductive Down where
  | start
  | reading
  | read (data : Bytes)
  | draining
  | drained (ok : Bool)
  | ended
  deriving DecidableEq, Repr

/-- The task of `up`: before its first step, in `r2.read()`, with that call's
result (`none` if it raised), in `end.write()`, with that call done, or ended. -/
inductive Up where
  | start
  | reading
  | read (data : Option Bytes)
  | writing (data : Bytes)
  | wrote (ok : Bool)
  | ended
  deriving DecidableEq, Repr

/-- The two channels with their ends, and the two pumps between them and the layer. -/
structure Layer where
  /-- `ChanIo`: whether it is still there, its read buffer, its sender and its
  pending `reserve`. -/
  io_alive : Bool
  buf : Bytes
  tx : Bool
  reserve : Bool
  /-- `LayerEnd`: whether it is still there, and its sender. -/
  end_alive : Bool
  end_tx : Bool
  /-- The messages in the two channels. -/
  out : List Bytes
  inn : List Bytes
  down : Down
  up : Up
  /-- History. -/
  accepted : List Bytes
  w2_writes : List Bytes
  w2_closed : Bool
  w2_error : Bool
  r2_reads : List Bytes
  returned : List Bytes
  eof : Bool
  deriving DecidableEq, Repr

/-- `chan_pair`, with the pumps made. -/
def init : Layer :=
  { io_alive := true, buf := [], tx := true, reserve := false, end_alive := true, end_tx := true
    out := [], inn := [], down := .start, up := .start, accepted := [], w2_writes := []
    w2_closed := false, w2_error := false, r2_reads := [], returned := [], eof := false }

/-! ### `ChanIo` -/

/-- What `poll_write` answers. -/
inductive WritePoll where
  | pending
  | ok (n : ℕ)
  | broken_pipe
  deriving DecidableEq, Repr

/-- `poll_write`: `none` if it cannot be ready now. -/
def poll_write (s : Layer) (data : Bytes) (ready : Bool) : Option (Layer × WritePoll) :=
  if !s.tx then some (s, .broken_pipe)
  -- `get_or_insert_with`: the future is kept, with its clone of the sender, for the next poll
  else if !ready then some ({ s with reserve := true }, .pending)
  -- the receiver is gone, and `reserve_owned` fails
  else if !s.end_alive then some ({ s with reserve := false }, .broken_pipe)
  else if s.out.length < DEPTH then
    some ({ s with
      reserve := false, out := s.out ++ [data], accepted := s.accepted ++ [data] },
      .ok data.length)
  else none

/-- What `poll_read` answers. -/
inductive ReadPoll where
  | pending
  | data (b : Bytes)
  | eof
  deriving DecidableEq, Repr

/-- `while self.buf.is_empty()`: the buffer and what is left in the channel. -/
def recv : Bytes → List Bytes → Bytes × List Bytes
  | [], b :: rest => recv b rest
  | buf, q => (buf, q)

/-- Whether a sender of the channel into the carrier is left. -/
def in_sender (s : Layer) : Bool :=
  s.end_tx || match s.up with
    | .writing _ => true
    | _ => false

/-- `poll_read` with room for `cap` bytes: `none` if it cannot be so now. -/
def poll_read (s : Layer) (cap : ℕ) (ready : Bool) : Option (Layer × ReadPoll) :=
  if !ready then if s.buf = [] then some (s, .pending) else none
  else
    match recv s.buf s.inn with
    -- `poll_recv` is ready with `None` only once the last sender is gone
    | ([], _) => if in_sender s then none else some ({ s with eof := true }, .eof)
    | (buf, inn) =>
      some ({ s with
        buf := buf.drop cap, inn := inn, returned := s.returned ++ [buf.take cap] },
        .data (buf.take cap))

/-- `poll_shutdown`. -/
def poll_shutdown (s : Layer) : Layer := { s with tx := false, reserve := false }

/-- `ChanIo` is dropped, and with it what it had not read. -/
def drop_io (s : Layer) : Layer :=
  { s with io_alive := false, tx := false, reserve := false, buf := [], inn := [] }

/-! ### `LayerEnd` and the pumps -/

/-- Whether a sender of the channel out of the carrier is left. -/
def out_sender (s : Layer) : Bool := s.tx || s.reserve

/-- `LayerEnd.read` is done: a message, or `b""` after the last sender. -/
def end_read (s : Layer) : Option Layer :=
  match s.down, s.out with
  | .reading, b :: rest => some { s with down := .read b, out := rest }
  | .reading, [] => if out_sender s then none else some { s with down := .read [] }
  | _, _ => none

/-- `w2.close()` in the `finally` of `down`. -/
def end_down (s : Layer) (error : Bool) : Layer :=
  { s with down := .ended, w2_closed := true, w2_error := s.w2_error || error }

/-- The event loop runs `down`; `ok` is whether `w2.write` returns. -/
def run_down (s : Layer) (ok : Bool) : Option Layer :=
  match s.down with
  | .start => some { s with down := .reading }
  -- `while data := await end.read()`: the empty message is the end
  | .read [] => some (end_down s false)
  | .read data =>
    if ok then some { s with down := .draining, w2_writes := s.w2_writes ++ [data] }
    -- the call was made, though it raised
    else some (end_down { s with w2_writes := s.w2_writes ++ [data] } true)
  | .drained true => some { s with down := .reading }
  | .drained false => some (end_down s true)
  | _ => none

/-- `LayerEnd.write` is done: the message is in the channel, or the carrier has
dropped its reader. -/
def end_write (s : Layer) : Option Layer :=
  match s.up with
  | .writing data =>
    -- an empty message is not sent, and one to nobody is dropped
    if data = [] || !s.io_alive then some { s with up := .wrote true }
    else if s.inn.length < DEPTH then some { s with up := .wrote true, inn := s.inn ++ [data] }
    else none
  | _ => none

/-- `end.close()` in the `finally` of `up`. -/
def end_up (s : Layer) : Layer := { s with up := .ended, end_tx := false }

/-- The event loop runs `up`. -/
def run_up (s : Layer) : Option Layer :=
  match s.up with
  | .start => some { s with up := .reading }
  | .read (some []) | .read none => some (end_up s)
  -- `tx.ok_or_else`: a closed end raises `RuntimeError`
  | .read (some data) => some { s with up := if s.end_tx then .writing data else .wrote false }
  | .wrote true => some { s with up := .reading }
  | .wrote false => some (end_up s)
  | _ => none

/-- The last reference to `LayerEnd` goes away with the second pump. -/
def drop_end (s : Layer) : Option Layer :=
  match s.up, s.down with
  | .ended, .ended => some { s with end_alive := false, end_tx := false, out := [] }
  | _, _ => none

/-- What may happen next, on either side of the channels. -/
inductive Label where
  | poll_write (data : Bytes) (ready : Bool)
  | poll_read (cap : ℕ) (ready : Bool)
  | poll_shutdown
  | drop_io
  | end_read
  | run_down (ok : Bool)
  /-- `w2.drain()` is done, or raises. -/
  | drain_done (ok : Bool)
  /-- `r2.read()` is done, or raises. -/
  | r2_read (r : Option Bytes)
  | run_up
  | end_write
  | drop_end
  deriving DecidableEq, Repr

/-- One step. The carrier polls for as long as it has its `ChanIo`. -/
def step (s : Layer) : Label → Option Layer
  | .poll_write data ready =>
    if s.io_alive then (poll_write s data ready).map Prod.fst else none
  | .poll_read cap ready => if s.io_alive then (poll_read s cap ready).map Prod.fst else none
  | .poll_shutdown => if s.io_alive then some (poll_shutdown s) else none
  | .drop_io => if s.io_alive then some (drop_io s) else none
  | .end_read => end_read s
  | .run_down ok => run_down s ok
  | .drain_done ok =>
    match s.down with
    | .draining => some { s with down := .drained ok }
    | _ => none
  | .r2_read r =>
    match s.up with
    | .reading => some { s with up := .read r, r2_reads := s.r2_reads ++ r.toList }
    | _ => none
  | .run_up => run_up s
  | .end_write => end_write s
  | .drop_end => drop_end s

/-- What the carrier is assumed to do: it writes no empty slices and reads into
some room. -/
def Label.ok : Label → Bool
  | .poll_write data _ => data ≠ []
  | .poll_read cap _ => 0 < cap
  | _ => true

/-- What each step of the layer does. -/
inductive Step (s : Layer) : Label → Layer → Prop where
  | poll_write {data : Bytes} {ready : Bool} {s' : Layer} {r : WritePoll}
      (ha : s.io_alive = true) (h : poll_write s data ready = some (s', r)) :
      Step s (.poll_write data ready) s'
  | poll_read {cap : ℕ} {ready : Bool} {s' : Layer} {r : ReadPoll}
      (ha : s.io_alive = true) (h : poll_read s cap ready = some (s', r)) :
      Step s (.poll_read cap ready) s'
  | poll_shutdown : Step s .poll_shutdown (poll_shutdown s)
  | drop_io : Step s .drop_io (drop_io s)
  | end_read {s' : Layer} (h : end_read s = some s') : Step s .end_read s'
  | run_down {ok : Bool} {s' : Layer} (h : run_down s ok = some s') : Step s (.run_down ok) s'
  | drain_done (ok : Bool) (hd : s.down = .draining) :
      Step s (.drain_done ok) { s with down := .drained ok }
  | r2_read (r : Option Bytes) (hu : s.up = .reading) :
      Step s (.r2_read r) { s with up := .read r, r2_reads := s.r2_reads ++ r.toList }
  | run_up {s' : Layer} (h : run_up s = some s') : Step s .run_up s'
  | end_write {s' : Layer} (h : end_write s = some s') : Step s .end_write s'
  | drop_end {s' : Layer} (h : drop_end s = some s') : Step s .drop_end s'

/-- Every step is one of `Step`. -/
theorem step_cases {s s' : Layer} {l : Label} (h : step s l = some s') : Step s l s' := by
  cases l with
  | poll_write data ready =>
      simp only [step, Option.ite_none_right_eq_some, Option.map_eq_some_iff] at h
      obtain ⟨ha, ⟨s₁, r⟩, hp, rfl⟩ := h
      exact .poll_write ha hp
  | poll_read cap ready =>
      simp only [step, Option.ite_none_right_eq_some, Option.map_eq_some_iff] at h
      obtain ⟨ha, ⟨s₁, r⟩, hp, rfl⟩ := h
      exact .poll_read ha hp
  | poll_shutdown =>
      simp only [step, Option.ite_none_right_eq_some, Option.some.injEq] at h
      exact h.2 ▸ .poll_shutdown
  | drop_io =>
      simp only [step, Option.ite_none_right_eq_some, Option.some.injEq] at h
      exact h.2 ▸ .drop_io
  | end_read => exact .end_read h
  | run_down ok => exact .run_down h
  | drain_done ok =>
      simp only [step] at h
      split at h
      · rename_i hd
        cases h
        exact .drain_done ok hd
      · cases h
  | r2_read r =>
      simp only [step] at h
      split at h
      · rename_i hu
        cases h
        exact .r2_read r hu
      · cases h
  | run_up => exact .run_up h
  | end_write => exact .end_write h
  | drop_end => exact .drop_end h

/-! ## Out of the carrier: messages -/

/-- The message `down` received and has not passed on. -/
def Down.flight : Down → List Bytes
  | .read [] => []
  | .read data => [data]
  | _ => []

/-- The accepted writes were passed on, are with `down` or in the channel; `b""`
reaches `down` only after the last of them, and after the last sender. -/
structure OutInv (s : Layer) : Prop where
  passed : s.w2_writes <+: s.accepted
  queued : s.end_alive = true → s.accepted = s.w2_writes ++ s.down.flight ++ s.out
  nonempty : ∀ b ∈ s.out, b ≠ []
  alive : s.end_alive = false → s.down = .ended
  drained : s.down = .read [] → out_sender s = false ∧ s.out = []
  closed : s.w2_closed = true ↔ s.down = .ended
  clean : s.w2_closed = true → s.w2_error = false →
    s.w2_writes = s.accepted ∧ out_sender s = false

/-- The `LayerEnd` outlives `down`, -/
theorem OutInv.end_alive {s : Layer} (h : OutInv s) (hd : s.down ≠ .ended) :
    s.end_alive = true := by
  by_contra ha
  exact hd (h.alive (Bool.eq_false_iff.2 ha))

/-- which closes the layer's writer only at its end. -/
theorem OutInv.not_closed {s : Layer} (h : OutInv s) (hd : s.down ≠ .ended) :
    ¬ s.w2_closed = true := fun hc => hd (h.closed.1 hc)

/-- What the invariant reads of this direction, but for its senders. -/
def outgoing (s : Layer) : List Bytes × List Bytes × Bool × Down × List Bytes × Bool × Bool :=
  (s.w2_writes, s.accepted, s.end_alive, s.down, s.out, s.w2_closed, s.w2_error)

/-- A step of the other direction, or one that only drops senders. -/
theorem OutInv.congr {s s' : Layer} (h : OutInv s) (hout : outgoing s' = outgoing s)
    (hsend : out_sender s = false → out_sender s' = false) : OutInv s' := by
  simp only [outgoing, Prod.mk.injEq] at hout
  obtain ⟨hw, ha, he, hd, ho, hc, herr⟩ := hout
  obtain ⟨h1, h2, h3, h4, h5, h6, h7⟩ := h
  constructor
  · rw [hw, ha]
    exact h1
  · rw [he, ha, hw, hd, ho]
    exact h2
  · rw [ho]
    exact h3
  · rw [he, hd]
    exact h4
  · rw [hd, ho]
    exact fun h => ⟨hsend (h5 h).1, (h5 h).2⟩
  · rw [hc, hd]
    exact h6
  · rw [hc, herr, hw, ha]
    exact fun h h' => ⟨(h7 h h').1, hsend (h7 h h').2⟩

/-- An accepted write goes to the end of the channel, as one message. -/
theorem poll_write_out {s s' : Layer} {data : Bytes} {ready : Bool} {r : WritePoll}
    (hs : OutInv s) (hne : data ≠ []) (h : poll_write s data ready = some (s', r)) :
    OutInv s' := by
  unfold poll_write at h
  split at h
  · cases h
    exact hs
  · rename_i htx
    have hsend : out_sender s ≠ false := by simp_all [out_sender]
    split at h
    · cases h
      exact hs.congr rfl fun hf => absurd hf hsend
    · split at h
      · cases h
        exact hs.congr rfl fun hf => absurd hf hsend
      · split at h
        · cases h
          obtain ⟨h1, h2, h3, h4, h5, h6, h7⟩ := hs
          refine ⟨h1.trans (List.prefix_append _ _), ?_, ?_, h4, ?_, h6, ?_⟩
          · intro ha
            show s.accepted ++ [data] = s.w2_writes ++ s.down.flight ++ (s.out ++ [data])
            rw [h2 ha, List.append_assoc _ s.out]
          · intro b hb
            rcases List.mem_append.1 hb with hb | hb
            · exact h3 b hb
            · rw [List.mem_singleton.1 hb]
              exact hne
          · exact fun hd => absurd (h5 hd).1 hsend
          · exact fun hc he => absurd (h7 hc he).2 hsend
        · cases h

/-- `down` receives the oldest message, or the end behind the last one. -/
theorem end_read_out {s s' : Layer} (hs : OutInv s) (h : end_read s = some s') : OutInv s' := by
  unfold end_read at h
  split at h
  · rename_i b rest hd ho
    cases h
    have ha := hs.end_alive (by simp [hd])
    have hnc := hs.not_closed (by simp [hd])
    -- a message is never empty, so `down` cannot take it for the end
    have hb : b ≠ [] := hs.nonempty b (by simp [ho])
    have hq := hs.queued ha
    refine ⟨hs.passed, fun _ => ?_, ?_, ?_, ?_, ?_, fun hc => absurd hc hnc⟩
    · rw [hd, ho] at hq
      cases b with
      | nil => exact absurd rfl hb
      | cons x b => simpa [Down.flight] using hq
    · exact fun x hx => hs.nonempty x (by rw [ho]; exact List.mem_cons_of_mem _ hx)
    · exact fun hf => absurd ha (by rw [hf]; simp)
    · intro hr
      exact absurd (Down.read.inj hr) hb
    · exact ⟨fun hc => absurd hc hnc, fun hd => by cases hd⟩
  · rename_i hd ho
    split at h
    · cases h
    · rename_i hsend
      cases h
      have ha := hs.end_alive (by simp [hd])
      have hnc := hs.not_closed (by simp [hd])
      have hq := hs.queued ha
      refine ⟨hs.passed, fun _ => ?_, hs.nonempty, ?_, ?_, ?_, fun hc => absurd hc hnc⟩
      · rw [hd] at hq
        exact hq
      · exact fun hf => absurd ha (by rw [hf]; simp)
      -- the empty message: no sender and nothing in the channel, for good
      · exact fun _ => ⟨Bool.eq_false_iff.2 hsend, ho⟩
      · exact ⟨fun hc => absurd hc hnc, fun hd => by cases hd⟩
  · cases h

/-- `down` moves on without receiving or closing. -/
theorem OutInv.move {s s' : Layer} (hs : OutInv s) (hd : s.down ≠ .ended)
    (hd' : s'.down ≠ .ended) (hnr : s'.down ≠ .read [])
    (hq : s'.w2_writes ++ s'.down.flight = s.w2_writes ++ s.down.flight)
    (hp : s'.w2_writes <+: s.w2_writes ++ s.down.flight)
    (ha : s'.accepted = s.accepted) (he : s'.end_alive = s.end_alive) (ho : s'.out = s.out)
    (hc : s'.w2_closed = s.w2_closed) : OutInv s' := by
  have hal := hs.end_alive hd
  have hnc := hs.not_closed hd
  have hqueue := hs.queued hal
  refine ⟨?_, fun _ => ?_, ho ▸ hs.nonempty, ?_, fun h => absurd h hnr, ?_, ?_⟩
  · rw [ha, hqueue]
    exact hp.trans (List.prefix_append _ _)
  · rw [ha, hqueue, hq, ho]
  · rw [he, hal]
    exact fun h => by cases h
  · rw [hc]
    exact ⟨fun h => absurd h hnc, fun h => absurd h hd'⟩
  · rw [hc]
    exact fun h => absurd h hnc

/-- `down` ends: after an error, or with everything passed on. -/
theorem OutInv.finish {s s' : Layer} {error : Bool} (hs : OutInv s) (hd : s.down ≠ .ended)
    (hq : s'.w2_writes = s.w2_writes ++ s.down.flight)
    (hend : error = false → s.down = .read [])
    (ha : s'.accepted = s.accepted) (ho : s'.out = s.out)
    (hd' : s'.down = .ended) (hc : s'.w2_closed = true) (herr : s'.w2_error = (s.w2_error || error))
    (hsend : out_sender s' = out_sender s) : OutInv s' := by
  have hqueue := hs.queued (hs.end_alive hd)
  refine ⟨?_, fun _ => ?_, ho ▸ hs.nonempty, fun _ => hd', ?_, ?_, ?_⟩
  · rw [ha, hqueue, hq]
    exact List.prefix_append _ _
  · rw [ha, hqueue, hq, ho, hd', show Down.ended.flight = [] from rfl, List.append_nil]
  · rw [hd']
    exact fun h => by cases h
  · exact ⟨fun _ => hd', fun _ => hc⟩
  · intro _ hne
    rw [herr, Bool.or_eq_false_iff] at hne
    -- without an error `down` ends only on the empty message
    obtain ⟨hsd, hout⟩ := hs.drained (hend hne.2)
    refine ⟨?_, hsend.trans hsd⟩
    rw [ha, hqueue, hout, List.append_nil, hq]

/-- It passes the message on in one call before it reads the next. -/
theorem run_down_out {s s' : Layer} {ok : Bool} (hs : OutInv s) (h : run_down s ok = some s') :
    OutInv s' := by
  unfold run_down at h
  split at h
  · rename_i hd
    cases h
    exact hs.move (by simp [hd]) (by simp) (by simp) (by simp [hd, Down.flight])
      (List.prefix_append _ _) rfl rfl rfl rfl
  · rename_i hd
    cases h
    exact hs.finish (by simp [hd]) (by simp [end_down, hd, Down.flight]) (fun _ => hd) rfl rfl rfl
      rfl rfl rfl
  · rename_i data hne hd
    have hfl : s.down.flight = [data] := by
      rw [hd]
      cases data with
      | nil => exact absurd rfl hne
      | cons x data => rfl
    split at h
    · cases h
      refine hs.move (by simp [hd]) (by simp) (by simp) ?_ (by simp [hfl]) rfl rfl rfl rfl
      rw [hfl]
      exact List.append_nil _
    · cases h
      exact hs.finish (by simp [hd]) (by simp [end_down, hfl]) (fun he => by cases he) rfl rfl rfl
        rfl rfl rfl
  · rename_i hd
    cases h
    exact hs.move (by simp [hd]) (by simp) (by simp) (by simp [hd, Down.flight])
      (List.prefix_append _ _) rfl rfl rfl rfl
  · rename_i hd
    cases h
    exact hs.finish (by simp [hd]) (by simp [end_down, hd, Down.flight]) (fun he => by cases he)
      rfl rfl rfl rfl rfl rfl
  · cases h

/-- The `LayerEnd` goes only after `down` has ended, with what is left in the channel. -/
theorem drop_end_out {s s' : Layer} (hs : OutInv s) (h : drop_end s = some s') : OutInv s' := by
  unfold drop_end at h
  split at h
  · rename_i hd
    cases h
    refine ⟨hs.passed, ?_, by simp, fun _ => hd, ?_, hs.closed, hs.clean⟩
    · intro ha
      cases ha
    · intro hr
      rw [hd] at hr
      cases hr
  · cases h

/-! ## Into the carrier: bytes -/

/-- The bytes `up` read and has not sent. -/
def Up.flight : Up → Bytes
  | .read (some data) => data
  | .writing data => data
  | _ => []

/-- The bytes the layer returned were returned by `poll_read`, are in its buffer,
in the channel or with `up`. -/
structure InInv (s : Layer) : Prop where
  returned : s.returned.flatten <+: s.r2_reads.flatten
  queued : s.io_alive = true →
    s.r2_reads.flatten = s.returned.flatten ++ s.buf ++ s.inn.flatten ++ s.up.flight
  sender : s.up ≠ .ended → s.end_tx = true
  nonempty : [] ∉ s.returned
  eof : s.eof = true → s.up = .ended ∧ s.returned.flatten = s.r2_reads.flatten

/-- What the invariant reads of this direction. -/
def incoming (s : Layer) : List Bytes × List Bytes × Bool × Bytes × List Bytes × Up × Bool × Bool :=
  (s.returned, s.r2_reads, s.io_alive, s.buf, s.inn, s.up, s.end_tx, s.eof)

/-- A step of the other direction. -/
theorem InInv.congr {s s' : Layer} (h : InInv s) (hin : incoming s' = incoming s) : InInv s' := by
  simp only [incoming, Prod.mk.injEq] at hin
  obtain ⟨hr, hr2, ha, hb, hi, hu, ht, he⟩ := hin
  obtain ⟨h1, h2, h3, h4, h5⟩ := h
  constructor
  · rw [hr, hr2]
    exact h1
  · rw [hr, hr2, ha, hb, hi, hu]
    exact h2
  · rw [hu, ht]
    exact h3
  · rw [hr]
    exact h4
  · rw [he, hu, hr, hr2]
    exact h5

/-- Receiving moves bytes from the channel to the buffer and loses none. -/
theorem recv_flatten (buf : Bytes) (q : List Bytes) :
    (recv buf q).1 ++ (recv buf q).2.flatten = buf ++ q.flatten := by
  induction q generalizing buf with
  | nil => cases buf <;> rfl
  | cons b rest ih =>
      cases buf with
      | nil => exact ih b
      | cons x buf => rfl

/-- The loop ends with an empty buffer only if the channel is empty. -/
theorem recv_nil {buf : Bytes} {q : List Bytes} (h : (recv buf q).1 = []) :
    buf = [] ∧ q.flatten = [] := by
  induction q generalizing buf with
  | nil =>
      cases buf with
      | nil => exact ⟨rfl, rfl⟩
      | cons x buf => cases h
  | cons b rest ih =>
      cases buf with
      | nil =>
          obtain ⟨rfl, hrest⟩ := ih h
          exact ⟨rfl, hrest⟩
      | cons x buf => cases h

/-- A read returns the front of what has come in. It reports the end only if there is nothing
left and nobody to send more. -/
theorem poll_read_in {s s' : Layer} {cap : ℕ} {ready : Bool} {r : ReadPoll} (hs : InInv s)
    (ha : s.io_alive = true) (hcap : 0 < cap) (h : poll_read s cap ready = some (s', r)) :
    InInv s' := by
  have hq := hs.queued ha
  have hflat := recv_flatten s.buf s.inn
  unfold poll_read at h
  split at h
  · split at h
    · cases h
      exact hs
    · cases h
  · split at h
    · rename_i rest hrecv
      split at h
      · cases h
      · rename_i hsend
        cases h
        -- the last sender is gone, so `up` has ended and nothing is on the way
        have hup : s.up = .ended := by
          by_contra hne
          exact hsend (by simp [in_sender, hs.sender hne])
        obtain ⟨hb, hi⟩ := recv_nil (congrArg Prod.fst hrecv)
        refine ⟨hs.returned, fun _ => hq, hs.sender, hs.nonempty, fun _ => ⟨hup, ?_⟩⟩
        rw [hq, hb, hi, hup]
        simp [Up.flight]
    · rename_i buf inn hne hrecv
      cases h
      rw [hrecv] at hflat
      have hbuf : buf ≠ [] := hne
      -- the piece moves from the buffer to what was returned
      have hnew : s.r2_reads.flatten
          = (s.returned.flatten ++ buf.take cap)
            ++ (buf.drop cap ++ inn.flatten ++ s.up.flight) := by
        rw [hq, List.append_assoc s.returned.flatten, ← hflat]
        conv_lhs => rw [← List.take_append_drop cap buf]
        simp only [List.append_assoc]
      refine ⟨?_, fun _ => ?_, hs.sender, ?_, fun he => ?_⟩
      · rw [List.flatten_concat, hnew]
        exact List.prefix_append _ _
      · rw [List.flatten_concat, hnew]
        simp only [List.append_assoc]
      · have htake : buf.take cap ≠ [] := by
          simp [List.take_eq_nil_iff, hbuf]
          omega
        simp [hs.nonempty, htake.symm]
      -- bytes after the end would make the returned ones more than the layer's
      · obtain ⟨-, heof⟩ := hs.eof he
        rw [hq, List.append_assoc s.returned.flatten, ← hflat] at heof
        have hlen := congrArg List.length heof
        have := List.length_pos_of_ne_nil hbuf
        simp only [List.length_append] at hlen
        omega

/-- `up` moves on, with the bytes it carries in its hands or in the channel. -/
theorem InInv.move {s s' : Layer} (hs : InInv s) (hu : s.up ≠ .ended)
    (hq : s.io_alive = true → s'.inn.flatten ++ s'.up.flight = s.inn.flatten ++ s.up.flight)
    (hr : s'.returned = s.returned) (hr2 : s'.r2_reads = s.r2_reads)
    (ha : s'.io_alive = s.io_alive) (hb : s'.buf = s.buf) (ht : s'.end_tx = s.end_tx)
    (he : s'.eof = s.eof) : InInv s' := by
  refine ⟨?_, ?_, fun _ => ht.trans (hs.sender hu), hr ▸ hs.nonempty, ?_⟩
  · rw [hr, hr2]
    exact hs.returned
  · rw [ha, hr, hr2, hb, List.append_assoc]
    intro hal
    rw [hq hal, ← List.append_assoc]
    exact hs.queued hal
  · rw [he]
    exact fun h => absurd (hs.eof h).1 hu

/-- `up` ends with nothing in its hands. -/
theorem InInv.finish {s s' : Layer} (hs : InInv s) (hfl : s.up.flight = []) (hu : s'.up = .ended)
    (hr : s'.returned = s.returned) (hr2 : s'.r2_reads = s.r2_reads)
    (ha : s'.io_alive = s.io_alive) (hb : s'.buf = s.buf) (hi : s'.inn = s.inn)
    (he : s'.eof = s.eof) : InInv s' := by
  refine ⟨?_, ?_, fun h => absurd hu h, hr ▸ hs.nonempty, ?_⟩
  · rw [hr, hr2]
    exact hs.returned
  · rw [ha, hr, hr2, hb, hi, hu]
    intro hal
    rw [hs.queued hal, hfl]
    rfl
  · rw [he, hr, hr2]
    exact fun h => ⟨hu, (hs.eof h).2⟩

/-- `up` sends what it has read before it reads again. -/
theorem run_up_in {s s' : Layer} (hs : InInv s) (h : run_up s = some s') : InInv s' := by
  unfold run_up at h
  split at h
  · rename_i hu
    cases h
    exact hs.move (by simp [hu]) (fun _ => by simp [hu, Up.flight]) rfl rfl rfl rfl rfl rfl
  · rename_i hu
    cases h
    exact hs.finish (by simp [hu, Up.flight]) rfl rfl rfl rfl rfl rfl rfl
  · rename_i hu
    cases h
    exact hs.finish (by simp [hu, Up.flight]) rfl rfl rfl rfl rfl rfl rfl
  · rename_i data hne hu
    cases h
    have ht := hs.sender (by simp [hu])
    rw [if_pos ht]
    exact hs.move (by simp [hu]) (fun _ => by simp [hu, Up.flight]) rfl rfl rfl rfl rfl rfl
  · rename_i hu
    cases h
    exact hs.move (by simp [hu]) (fun _ => by simp [hu, Up.flight]) rfl rfl rfl rfl rfl rfl
  · rename_i hu
    cases h
    exact hs.finish (by simp [hu, Up.flight]) rfl rfl rfl rfl rfl rfl rfl
  · cases h

/-- What it sends goes to the end of the channel, unless it is empty or nobody is there to read
it. -/
theorem end_write_in {s s' : Layer} (hs : InInv s) (h : end_write s = some s') : InInv s' := by
  unfold end_write at h
  split at h
  · rename_i data hu
    have hfl : s.up.flight = data := by rw [hu]; rfl
    split at h
    · rename_i hskip
      cases h
      refine hs.move (by simp [hu]) (fun hal => ?_) rfl rfl rfl rfl rfl rfl
      have hnil : data = [] := by simpa [hal] using hskip
      rw [hfl, hnil]
      rfl
    · split at h
      · cases h
        refine hs.move (by simp [hu]) (fun _ => ?_) rfl rfl rfl rfl rfl rfl
        rw [hfl, List.flatten_concat]
        exact List.append_nil _
      · cases h
  · cases h

/-- What the layer's reader returned is with `up`. -/
theorem r2_read_in {s : Layer} (hs : InInv s) (hu : s.up = .reading) (r : Option Bytes) :
    InInv { s with up := .read r, r2_reads := s.r2_reads ++ r.toList } := by
  refine ⟨?_, ?_, fun _ => hs.sender (by simp [hu]), hs.nonempty, ?_⟩
  · rw [List.flatten_append]
    exact hs.returned.trans (List.prefix_append _ _)
  · intro hal
    have hq := hs.queued hal
    rw [hu] at hq
    cases r with
    | none => simpa [Up.flight] using hq
    | some data =>
        have hnil : Up.reading.flight = [] := rfl
        rw [hnil, List.append_nil] at hq
        simp [Up.flight, hq]
  · exact fun h => absurd (hs.eof h).1 (by simp [hu])

/-- A carrier that is gone has nothing to read. -/
theorem drop_io_in {s : Layer} (hs : InInv s) : InInv (drop_io s) :=
  ⟨hs.returned, (fun h => by cases h), hs.sender, hs.nonempty, hs.eof⟩

/-- The `LayerEnd` goes only after `up` has ended. -/
theorem drop_end_in {s s' : Layer} (hs : InInv s) (h : drop_end s = some s') : InInv s' := by
  unfold drop_end at h
  split at h
  · rename_i hu _
    cases h
    exact ⟨hs.returned, hs.queued, fun hne => absurd hu hne, hs.nonempty, hs.eof⟩
  · cases h

/-! ### What either direction leaves to the other -/

/-- Reading has no part in the other direction; -/
theorem poll_read_outgoing {s s' : Layer} {cap : ℕ} {ready : Bool} {r : ReadPoll}
    (h : poll_read s cap ready = some (s', r)) :
    outgoing s' = outgoing s ∧ out_sender s' = out_sender s := by
  unfold poll_read at h
  split at h
  · split at h <;> cases h
    exact ⟨rfl, rfl⟩
  · split at h
    · split at h <;> cases h
      exact ⟨rfl, rfl⟩
    · cases h
      exact ⟨rfl, rfl⟩

/-- neither have `up` -/
theorem run_up_outgoing {s s' : Layer} (h : run_up s = some s') :
    outgoing s' = outgoing s ∧ out_sender s' = out_sender s := by
  unfold run_up at h
  split at h <;> cases h <;> exact ⟨rfl, rfl⟩

/-- and its sends. -/
theorem end_write_outgoing {s s' : Layer} (h : end_write s = some s') :
    outgoing s' = outgoing s ∧ out_sender s' = out_sender s := by
  unfold end_write at h
  split at h
  · split at h
    · cases h
      exact ⟨rfl, rfl⟩
    · split at h <;> cases h
      exact ⟨rfl, rfl⟩
  · cases h

/-- Writing has no part in this one; -/
theorem poll_write_incoming {s s' : Layer} {data : Bytes} {ready : Bool} {r : WritePoll}
    (h : poll_write s data ready = some (s', r)) : incoming s' = incoming s := by
  unfold poll_write at h
  split at h
  · cases h
    rfl
  · split at h
    · cases h
      rfl
    · split at h
      · cases h
        rfl
      · split at h <;> cases h
        rfl

/-- neither have `down`'s reads -/
theorem end_read_incoming {s s' : Layer} (h : end_read s = some s') :
    incoming s' = incoming s := by
  unfold end_read at h
  split at h
  · cases h
    rfl
  · split at h <;> cases h
    rfl
  · cases h

/-- and its writes. -/
theorem run_down_incoming {s s' : Layer} {ok : Bool} (h : run_down s ok = some s') :
    incoming s' = incoming s := by
  unfold run_down at h
  split at h
  · cases h
    rfl
  · cases h
    rfl
  · split at h <;> cases h <;> rfl
  · cases h
    rfl
  · cases h
    rfl
  · cases h

/-! ## The contract -/

/-- One step keeps the messages out of the carrier in order. -/
theorem step_out {s s' : Layer} {l : Label} (hs : OutInv s) (hl : l.ok = true)
    (h : step s l = some s') : OutInv s' := by
  have hsame : outgoing s' = outgoing s ∧ out_sender s' = out_sender s → OutInv s' :=
    fun ho => hs.congr ho.1 fun hf => ho.2.trans hf
  cases step_cases h with
  | poll_write _ hp => exact poll_write_out hs (by simpa [Label.ok] using hl) hp
  | poll_read _ hp => exact hsame (poll_read_outgoing hp)
  | poll_shutdown | drop_io => exact hs.congr rfl fun _ => rfl
  | end_read h => exact end_read_out hs h
  | run_down h => exact run_down_out hs h
  | drain_done ok hd =>
      exact hs.move (by simp [hd]) (by simp) (by simp) (by simp [hd, Down.flight])
        (List.prefix_append _ _) rfl rfl rfl rfl
  | r2_read => exact hsame ⟨rfl, rfl⟩
  | run_up h => exact hsame (run_up_outgoing h)
  | end_write h => exact hsame (end_write_outgoing h)
  | drop_end h => exact drop_end_out hs h

/-- One step keeps the bytes into the carrier in order. -/
theorem step_in {s s' : Layer} {l : Label} (hs : InInv s) (hl : l.ok = true)
    (h : step s l = some s') : InInv s' := by
  cases step_cases h with
  | poll_write _ hp => exact hs.congr (poll_write_incoming hp)
  | poll_read ha hp => exact poll_read_in hs ha (by simpa [Label.ok] using hl) hp
  | poll_shutdown => exact hs.congr rfl
  | drop_io => exact drop_io_in hs
  | end_read h => exact hs.congr (end_read_incoming h)
  | run_down h => exact hs.congr (run_down_incoming h)
  | drain_done => exact hs.congr rfl
  | r2_read r hu => exact r2_read_in hs hu r
  | run_up h => exact run_up_in hs h
  | end_write h => exact end_write_in hs h
  | drop_end h => exact drop_end_in hs h

/-- At first nothing has gone out, -/
theorem init_out : OutInv init := by
  constructor <;> simp [init, Down.flight]

/-- and nothing has come in. -/
theorem init_in : InInv init := by
  constructor <;> simp [init, Up.flight]

/-- **The channel keeps messages one way and bytes the other.** In every run in
which the carrier writes no empty slices and reads into some room: the calls of
`w2.write` are a prefix of the accepted writes, one call each; `w2.close` without
an error of the layer's writer comes after all of them; the bytes returned by
`poll_read` are a prefix of what the layer's reader returned, never none at all,
and the end of file comes after all of them and after the end of `up`. -/
theorem layer_channel_preserves {ls : List Label} {s : Layer} (hls : ∀ l ∈ ls, l.ok = true)
    (h : run step init ls = some s) :
    s.w2_writes <+: s.accepted
    ∧ (s.w2_closed = true → s.w2_error = false → s.w2_writes = s.accepted)
    ∧ s.returned.flatten <+: s.r2_reads.flatten ∧ [] ∉ s.returned
    ∧ (s.eof = true → s.up = .ended ∧ s.returned.flatten = s.r2_reads.flatten) := by
  have hm := meets_of_forall step hls init
  have hout : OutInv s := meets_inv step (fun _ _ _ hs hl hstep => step_out hs hl hstep)
    init_out hm h
  have hin : InInv s := meets_inv step (fun _ _ _ hs hl hstep => step_in hs hl hstep)
    init_in hm h
  exact ⟨hout.passed, fun hc he => (hout.clean hc he).1, hin.returned, hin.nonempty, hin.eof⟩

/-- Two writes, the second pending once and retried with other data, then the end
of both directions. -/
def both_ways : List Label :=
  [.run_down true, .run_up, .poll_write [1, 2] true, .poll_write [3] false, .end_read,
    .run_down true, .poll_write [4] true, .drain_done true, .run_down true, .r2_read (some [5, 6]),
    .run_up, .end_write, .run_up, .poll_read 1 true, .poll_shutdown, .end_read, .run_down true,
    .drain_done true, .run_down true, .end_read, .run_down true, .r2_read (some []), .run_up,
    .poll_read 7 true, .poll_read 7 true]

theorem layer_channel_preserves_both_ways :
    ∃ s, run step init both_ways = some s
      ∧ s.w2_writes = [[1, 2], [4]] ∧ s.returned = [[5], [6]] ∧ s.w2_closed = true ∧ s.eof = true
      ∧ s.w2_writes = s.accepted ∧ s.returned.flatten = s.r2_reads.flatten := by
  have h := @layer_channel_preserves both_ways _ (by decide) rfl
  exact ⟨_, rfl, rfl, rfl, rfl, rfl, h.2.1 rfl rfl, (h.2.2.2.2 rfl).2⟩

end ZmuxPy.LayerChannel
