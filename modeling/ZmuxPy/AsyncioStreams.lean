/-
asyncio's streams: a `StreamReader` that its protocol feeds, and the flow control
that `StreamWriter.drain` waits for.

Both are passive. The protocol calls `feed_data`, `feed_eof`, `set_exception`,
`pause_writing`, `resume_writing` and `connection_lost`; one task reads and one
task drains. A reader in turn calls its transport's `pause_reading` and
`resume_reading`; whether it does is returned beside the new reader. An assertion
of the library that fails is `none`.
-/
import Mathlib.Data.List.Basic
import Mathlib.Tactic.Basic
import ZmuxPy.Asyncio

set_option autoImplicit false

namespace Asyncio

/-! ## `StreamReader` -/

/-- The future that `read` waits on: none, pending, with its wake-up scheduled, or
with an exception set. -/
inductive ReadWaiter where
  | none
  | pending
  | woken
  | raised
  deriving DecidableEq, Repr

/-- `_wakeup_waiter()`. -/
def ReadWaiter.wake : ReadWaiter → ReadWaiter
  | .pending => .woken
  | w => w

/-- `waiter.set_exception(exc)`, if there is one to set. -/
def ReadWaiter.raise : ReadWaiter → ReadWaiter
  | .pending => .raised
  | w => w

/-- `asyncio.StreamReader`. The exception goes by whether there is one. -/
structure StreamReader where
  limit : ℕ
  buffer : Bytes
  eof : Bool
  exception : Bool
  paused : Bool
  waiter : ReadWaiter
  deriving DecidableEq, Repr

namespace StreamReader

/-- `StreamReader(limit)`. -/
def new (limit : ℕ) : StreamReader :=
  { limit, buffer := [], eof := false, exception := false, paused := false, waiter := .none }

/-- `feed_data(data)`, with whether it calls `pause_reading()`. -/
def feed_data (r : StreamReader) (data : Bytes) : Option (StreamReader × Bool) :=
  -- `assert not self._eof, 'feed_data after feed_eof'`
  if r.eof then none
  else if data = [] then some (r, false)
  else
    let pause := !r.paused && decide (2 * r.limit < (r.buffer ++ data).length)
    some ({ r with
      buffer := r.buffer ++ data, waiter := r.waiter.wake, paused := r.paused || pause }, pause)

/-- `feed_eof()`. -/
def feed_eof (r : StreamReader) : StreamReader := { r with eof := true, waiter := r.waiter.wake }

/-- `set_exception(exc)`. -/
def set_exception (r : StreamReader) : StreamReader :=
  { r with exception := true, waiter := r.waiter.raise }

/-- The end of `read(n)`: the first bytes of the buffer, with whether it calls
`resume_reading()`. -/
def take (r : StreamReader) (n : ℕ) : StreamReader × Option (Option Bytes) × Bool :=
  let resume := r.paused && decide ((r.buffer.drop n).length ≤ r.limit)
  ({ r with buffer := r.buffer.drop n, paused := r.paused && !resume },
    some (some (r.buffer.take n)), resume)

/-- The task in `read(n)` runs: with what it gets (`none` for the exception), if it
does not have to wait, and with whether it calls `resume_reading()`. -/
def read (r : StreamReader) (n : ℕ) : Option (StreamReader × Option (Option Bytes) × Bool) :=
  match r.waiter with
  | .pending => none
  -- woken: the exception is not looked at again
  | .woken => some (take { r with waiter := .none } n)
  | .raised => some ({ r with waiter := .none }, some none, false)
  | .none =>
    if r.exception then some (r, some none, false)
    -- `_wait_for_data`: waiting while paused would be for ever
    else if r.buffer = [] ∧ r.eof = false then
      some ({ r with paused := false, waiter := .pending }, none, r.paused)
    else some (take r n)

/-! ### What the calls keep -/

/-- What is fed comes behind what is there. -/
theorem feed_data_eq_some {r r' : StreamReader} {data : Bytes} {pause : Bool}
    (h : r.feed_data data = some (r', pause)) :
    r.eof = false ∧ r'.buffer = r.buffer ++ data ∧ r'.eof = r.eof
      ∧ r'.exception = r.exception ∧ r'.limit = r.limit := by
  unfold feed_data at h
  split at h
  · cases h
  · rename_i he
    split at h
    · rename_i hd
      cases h
      exact ⟨Bool.eq_false_iff.2 he, by rw [hd, List.append_nil], rfl, rfl, rfl⟩
    · cases h
      exact ⟨Bool.eq_false_iff.2 he, rfl, rfl, rfl, rfl⟩

/-- A reader that is not paused pauses its transport with the bytes that fill it. -/
theorem feed_data_paused {r r' : StreamReader} {data : Bytes} {pause : Bool}
    (h : r.feed_data data = some (r', pause)) (hp : r.paused = false) :
    r'.paused = pause
      ∧ (pause = false → r.buffer.length ≤ 2 * r.limit → r'.buffer.length ≤ 2 * r.limit) := by
  unfold feed_data at h
  split at h
  · cases h
  · split at h
    · cases h
      exact ⟨hp, fun _ hfits => hfits⟩
    · cases h
      refine ⟨by simp [hp], fun hno _ => ?_⟩
      rw [hp, Bool.not_false, Bool.true_and, decide_eq_false_iff_not] at hno
      exact Nat.le_of_not_lt hno

/-- A read takes the first bytes of the buffer, raises or waits. -/
inductive Reads (r : StreamReader) (n : ℕ) : StreamReader → Option (Option Bytes) → Prop where
  | taken {r' : StreamReader} (hb : r'.buffer = r.buffer.drop n) (he : r'.eof = r.eof)
      (hx : r'.exception = r.exception) (hl : r'.limit = r.limit)
      (hend : r.buffer = [] → r.eof = false → r.waiter = .woken) :
      Reads r n r' (some (some (r.buffer.take n)))
  | raised {r' : StreamReader} (hb : r'.buffer = r.buffer) (he : r'.eof = r.eof)
      (hx : r'.exception = r.exception) (hl : r'.limit = r.limit)
      (hwhy : r.exception = true ∨ r.waiter = .raised) : Reads r n r' (some none)
  | waits {r' : StreamReader} (hb : r'.buffer = r.buffer) (he : r'.eof = r.eof)
      (hx : r'.exception = r.exception) (hl : r'.limit = r.limit) : Reads r n r' none

/-- **What a read comes to.** It returns nothing at all only at the end, or if it was woken
with nothing there. -/
theorem read_cases {r r' : StreamReader} {n : ℕ} {out : Option (Option Bytes)} {resume : Bool}
    (h : r.read n = some (r', out, resume)) : Reads r n r' out := by
  unfold read at h
  split at h
  · cases h
  · rename_i hw
    cases h
    exact .taken rfl rfl rfl rfl fun _ _ => hw
  · rename_i hw
    cases h
    exact .raised rfl rfl rfl rfl (.inr hw)
  · split at h
    · rename_i hx
      cases h
      exact .raised rfl rfl rfl rfl (.inl hx)
    · split at h
      · cases h
        exact .waits rfl rfl rfl rfl
      · rename_i hne
        cases h
        exact .taken rfl rfl rfl rfl fun hb he => absurd ⟨hb, he⟩ hne

/-- A read returns no more than it was asked for. -/
theorem read_length {r r' : StreamReader} {n : ℕ} {b : Bytes} {resume : Bool}
    (h : r.read n = some (r', some (some b), resume)) : b.length ≤ n := by
  generalize hout : (some (some b) : Option (Option Bytes)) = out at h
  cases read_cases h with
  | taken =>
      obtain rfl := Option.some.inj (Option.some.inj hout)
      exact List.length_take_le n r.buffer
  | raised | waits => cases hout

/-- A read resumes a paused transport once little enough is left. -/
structure Eases (r r' : StreamReader) (resume : Bool) : Prop where
  limit : r'.limit = r.limit
  length : r'.buffer.length ≤ r.buffer.length
  paused : r'.paused = true → r.paused = true ∧ resume = false
  resumed : r'.paused = false → r.paused = false ∨ r'.buffer.length ≤ r.limit

/-- What is left after a read decides, -/
theorem take_eases (r : StreamReader) (w : ReadWaiter) (n : ℕ) :
    Eases r (take { r with waiter := w } n).1 (take { r with waiter := w } n).2.2 := by
  refine ⟨rfl, ?_, fun hp => ?_, fun hp => ?_⟩
  · rw [take, List.length_drop]
    exact Nat.sub_le _ _
  · rwa [take, Bool.and_eq_true, Bool.not_eq_true'] at hp
  · cases hr : r.paused with
    | false => exact .inl rfl
    | true =>
        simp only [take, hr, Bool.true_and, Bool.not_eq_false', decide_eq_true_eq] at hp
        exact .inr hp

/-- and a read that waits resumes the transport first, with an empty buffer. -/
theorem read_eases {r r' : StreamReader} {n : ℕ} {out : Option (Option Bytes)} {resume : Bool}
    (h : r.read n = some (r', out, resume)) : Eases r r' resume := by
  unfold read at h
  split at h
  · cases h
  · cases h
    exact take_eases r .none n
  · cases h
    exact ⟨rfl, Nat.le_refl _, fun hp => ⟨hp, rfl⟩, .inl⟩
  · split at h
    · cases h
      exact ⟨rfl, Nat.le_refl _, fun hp => ⟨hp, rfl⟩, .inl⟩
    · split at h
      · rename_i hb
        cases h
        exact ⟨rfl, Nat.le_refl _, nofun, fun _ => .inr (by simp [hb.1])⟩
      · cases h
        exact take_eases r r.waiter n

/-- A waiter is woken by data or by the end, and fails only with the exception. -/
structure Woken (r : StreamReader) : Prop where
  woken : r.waiter = .woken → r.buffer ≠ [] ∨ r.eof = true
  raised : r.waiter = .raised → r.exception = true

/-- Nobody waits. -/
theorem Woken.new (limit : ℕ) : Woken (new limit) := ⟨nofun, nofun⟩

/-- A wake-up is no exception, -/
theorem ReadWaiter.wake_ne_raised {w : ReadWaiter} (h : w.wake = .raised) : w = .raised := by
  cases w with
  | none | pending | woken => cases h
  | raised => rfl

/-- and an exception no wake-up: the first of them stands. -/
theorem ReadWaiter.raise_ne_woken {w : ReadWaiter} (h : w.raise = .woken) : w = .woken := by
  cases w with
  | none | pending | raised => cases h
  | woken => rfl

/-- Data that is fed is there when the task runs: nobody else reads. -/
theorem Woken.feed_data {r r' : StreamReader} {data : Bytes} {pause : Bool} (hr : r.Woken)
    (h : r.feed_data data = some (r', pause)) : r'.Woken := by
  unfold StreamReader.feed_data at h
  split at h
  · cases h
  · split at h
    · cases h
      exact hr
    · rename_i hd
      cases h
      refine ⟨fun _ => .inl ?_, fun hw => hr.raised (ReadWaiter.wake_ne_raised hw)⟩
      simp [hd]

/-- The end stays, -/
theorem Woken.feed_eof {r : StreamReader} (hr : r.Woken) : r.feed_eof.Woken :=
  ⟨fun _ => .inr rfl, fun hw => hr.raised (ReadWaiter.wake_ne_raised hw)⟩

/-- and so does an exception. -/
theorem Woken.set_exception {r : StreamReader} (hr : r.Woken) : r.set_exception.Woken :=
  ⟨fun hw => hr.woken (ReadWaiter.raise_ne_woken hw), fun _ => rfl⟩

/-- A task that runs has used its wake-up. -/
theorem Woken.read {r r' : StreamReader} {n : ℕ} {out : Option (Option Bytes)} {resume : Bool}
    (hr : r.Woken) (h : r.read n = some (r', out, resume)) : r'.Woken := by
  unfold StreamReader.read at h
  split at h
  · cases h
  · cases h
    exact ⟨nofun, nofun⟩
  · cases h
    exact ⟨nofun, nofun⟩
  · rename_i hw
    have hnone : ∀ {w : ReadWaiter} {P : Prop}, r.waiter = w → w ≠ .none → P :=
      fun hv hne => absurd (hv.symm.trans hw) hne
    split at h
    · cases h
      exact hr
    · split at h
      · cases h
        exact ⟨nofun, nofun⟩
      · cases h
        exact ⟨fun hv => hnone hv (by simp), fun hv => hnone hv (by simp)⟩

/-- A read that returns nothing has come to the end. -/
theorem Woken.read_nil {r r' : StreamReader} {n : ℕ} {resume : Bool} (hr : r.Woken)
    (hn : 0 < n) (h : r.read n = some (r', some (some []), resume)) :
    r'.eof = true ∧ r'.buffer = [] := by
  generalize hout : (some (some []) : Option (Option Bytes)) = out at h
  cases read_cases h with
  | taken hb he hx hl hend =>
      have hnil : r.buffer = [] := by
        have htake := Option.some.inj (Option.some.inj hout)
        rcases List.take_eq_nil_iff.1 htake.symm with h0 | hnil
        · omega
        · exact hnil
      refine ⟨?_, by rw [hb, hnil, List.drop_nil]⟩
      by_contra hne
      have heof : r.eof = false := by rw [← he]; exact Bool.eq_false_iff.2 hne
      rcases hr.woken (hend hnil heof) with hbuf | heof'
      · exact hbuf hnil
      · rw [heof] at heof'
        cases heof'
  | raised => cases hout
  | waits => cases hout

end StreamReader

/-! ## Flow control -/

/-- The task in `drain()`: not in it, before its checks, after the `sleep(0)` for a
closing transport, waiting to be resumed, or woken with a result or an exception. -/
inductive Drain where
  | idle
  | entered
  | yielded
  | waiting
  | woken (ok : Bool)
  deriving DecidableEq, Repr

/-- `FlowControlMixin`, with one task that drains. -/
structure Flow where
  paused : Bool
  connection_lost : Bool
  drain : Drain
  deriving DecidableEq, Repr

namespace Flow

/-- Writing is not paused, and nobody drains. -/
def new : Flow := { paused := false, connection_lost := false, drain := .idle }

/-- The waiter of a `drain` that waits gets its result. -/
def wake (f : Flow) (ok : Bool) : Drain :=
  match f.drain with
  | .waiting => .woken ok
  | d => d

/-- `pause_writing()`. -/
def pause_writing (f : Flow) : Option Flow :=
  -- `assert not self._paused`
  if f.paused then none else some { f with paused := true }

/-- `resume_writing()`. -/
def resume_writing (f : Flow) : Option Flow :=
  -- `assert self._paused`
  if f.paused then some { f with paused := false, drain := f.wake true } else none

/-- `connection_lost(exc)`; `ok` is whether `exc` is `None`. -/
def lose (f : Flow) (ok : Bool) : Flow :=
  { f with connection_lost := true, drain := if f.paused then f.wake ok else f.drain }

/-- `_drain_helper()`, up to its await. -/
def drain_helper (f : Flow) : Flow × Option Bool :=
  if f.connection_lost then ({ f with drain := .idle }, some false)
  else if f.paused then ({ f with drain := .waiting }, none)
  else ({ f with drain := .idle }, some true)

/-- The task in `drain()` runs, with how it ends if it does. `exception` is whether
the reader has one, `closing` is the transport's `is_closing()`. -/
def run_drain (f : Flow) (exception closing : Bool) : Option (Flow × Option Bool) :=
  match f.drain with
  | .idle | .waiting => none
  | .entered =>
    if exception then some ({ f with drain := .idle }, some false)
    else if closing then some ({ f with drain := .yielded }, none)
    else some f.drain_helper
  | .yielded => some f.drain_helper
  | .woken ok => some ({ f with drain := .idle }, some ok)

/-- A resumed drain does not fail. -/
theorem wake_true {f : Flow} (h : f.wake true = .woken false) : f.drain = .woken false := by
  unfold wake at h
  split at h
  · cases h
  · exact h

/-- What a run of the draining task does. -/
inductive Drains (f : Flow) (exception : Bool) : Flow → Option Bool → Prop where
  | sleeps : Drains f exception { f with drain := .yielded } none
  | waits (hp : f.paused = true) : Drains f exception { f with drain := .waiting } none
  | returns (hp : f.paused = false ∨ f.drain = .woken true) :
      Drains f exception { f with drain := .idle } (some true)
  | raises (hwhy : exception = true ∨ f.connection_lost = true ∨ f.drain = .woken false) :
      Drains f exception { f with drain := .idle } (some false)

/-- `_drain_helper` raises, returns or waits. -/
theorem drain_helper_cases (f : Flow) (exception : Bool) :
    Drains f exception f.drain_helper.1 f.drain_helper.2 := by
  unfold drain_helper
  split
  · rename_i hl
    exact .raises (.inr (.inl hl))
  · split
    · rename_i hp
      exact .waits hp
    · rename_i hp
      exact .returns (.inl (Bool.eq_false_iff.2 hp))

/-- **What a run of the draining task comes to.** It returns while writing is paused only if it
was woken before that. -/
theorem run_drain_cases {f f' : Flow} {exception closing : Bool} {out : Option Bool}
    (h : f.run_drain exception closing = some (f', out)) : Drains f exception f' out := by
  have hhelper := f.drain_helper_cases exception
  unfold run_drain at h
  split at h
  · cases h
  · cases h
  · split at h
    · rename_i hx
      cases h
      exact .raises (.inl hx)
    · split at h
      · cases h
        exact .sleeps
      · rw [Option.some.injEq] at h
        rwa [h] at hhelper
  · rw [Option.some.injEq] at h
    rwa [h] at hhelper
  · rename_i ok hd
    cases h
    cases ok with
    | true => exact .returns (.inr hd)
    | false => exact .raises (.inr (.inr hd))

/-- A drain changes its own state only, and does not wake itself. -/
theorem Drains.frame {f f' : Flow} {exception : Bool} {out : Option Bool}
    (h : f.Drains exception f' out) :
    f'.paused = f.paused ∧ f'.connection_lost = f.connection_lost
      ∧ ∀ ok, f'.drain ≠ .woken ok := by
  cases h <;> exact ⟨rfl, rfl, nofun⟩

end Flow

end Asyncio
