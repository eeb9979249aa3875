/-
Whole runs of a `_CarrierTransport`: how it reports its end.

This is about runs in which the transport is only used, and not sabotaged: the
protocol's methods do not raise, nobody outside cancels the two private tasks,
and the carrier fails only with what `CarrierStream` raises, which the loops
catch (`Label.orderly`).

The argument is one case analysis, `step_outcome`: an orderly step from a
transport that is not lost either keeps it alive (`Live`), with its flags and
undelivered failures accounted for, or loses it and schedules `connection_lost`
with the failure the step delivered, or is an `abort()` in `connection_made`,
where `_lose` raises before it schedules anything. Once lost, nothing is ever
scheduled again (`Keeps`).
-/
import Mathlib.Data.List.Chain
import Mathlib.Tactic.Basic
import ZmuxPy.TransportWrites

set_option autoImplicit false

namespace ZmuxPy.CarrierTransport

open Machine Asyncio

/-! ## What is observed of a run -/

/-- The argument `connection_lost` is scheduled with. -/
def Event.report : Event → Option (Option Exc)
  | .connection_lost_scheduled exc => some exc
  | _ => none

/-- The reports of the end, in order. -/
def reports (log : List Event) : List (Option Exc) := log.filterMap Event.report

/-- `pause_writing` and `resume_writing`. -/
def Event.is_flow : Event → Bool
  | .pause_writing | .resume_writing => true
  | _ => false

/-- The flow control's calls, in order. -/
def flow (log : List Event) : List Event := log.filter Event.is_flow

@[simp] theorem reports_snoc (l : List Event) (e : Event) :
    reports (l ++ [e]) = reports l ++ e.report.toList := filterMap_snoc _ l e

@[simp] theorem flow_snoc (l : List Event) (e : Event) :
    flow (l ++ [e]) = flow l ++ if e.is_flow then [e] else [] := by
  simp only [flow, List.filter_append, List.filter_cons, List.filter_nil]

/-- The exception a carrier operation failed with. -/
def Label.failure : Label → Option Exc
  | .read_done (.error e) | .write_done (.error e) | .shutdown_done (.error e) => some e
  | _ => none

/-- `close()`, called by anyone, or by the read loop when `eof_received` returned
something false. -/
def Label.closes : Label → Bool
  | .call .close | .returns (.keep_open false) => true
  | _ => false

/-- The protocol does not raise, nobody outside cancels the tasks, and a carrier
operation fails only with an exception that the loops catch. -/
def Label.orderly : Label → Bool
  | .raises _ | .cancel _ => false
  | l => l.failure.all Exc.caught

/-- What asks for the end: `close()`, `abort()` or a failed carrier operation. -/
def Label.ends : Label → Bool
  | .call .close | .call .abort => true
  | l => l.failure.isSome

/-- Neither runnable nor in a carrier operation. -/
def Reader.idle : Reader → Bool
  | .wait .pending | .ended _ => true
  | _ => false

/-- Neither runnable nor in a carrier operation. -/
def Writer.idle : Writer → Bool
  | .wait .pending | .ended _ => true
  | _ => false

/-- No carrier operation is pending and no task is runnable. -/
def quiescent (t : Transport) : Bool := t.reader.idle && t.writer.idle

/-- The failure a loop is told of in a step. -/
def receives (t : Transport) : Label → Option Exc
  | .run_reader => t.reader.failure
  | .run_writer => t.writer.failure
  | _ => none

/-- The write that the loop took off the queue and has not accounted for. -/
def Writer.flight : Writer → List Bytes
  | .write data _ => [data]
  | _ => []

/-- The writes that are in flight or queued. -/
def unsent (t : Transport) : List Bytes := t.writer.flight ++ t.queue

/-- The calls of `pause_writing` and `resume_writing` alternate, the first is
`pause_writing`, and `_paused` tells the last. -/
structure Alternates (t : Transport) : Prop where
  chain : (flow t.log).IsChain (· ≠ ·)
  first : ∀ e, (flow t.log).head? = some e → e = .pause_writing
  last : t.paused = true ↔ (flow t.log).getLast? = some .pause_writing

/-! ## What a step leaves alone

`Keeps` holds of every step: a lost transport stays lost and silent, and the
protocol is paused and resumed in turn. `Aside` is for everything but a taken
`write` and the write loop's own steps: it has no part in the flow control. -/

/-- What every step keeps: a loss is for good and is reported at most once, and the flow
control's calls alternate. -/
structure Keeps (t t' : Transport) : Prop where
  lost : t.lost = true → t'.lost = true
  reports : t.lost = true → reports t'.log = reports t.log
  alternates : Alternates t → Alternates t'

/-- A step with no part in the flow control: neither the queue nor the marks change, and nobody
is paused or resumed. -/
structure Aside (t t' : Transport) : Prop extends Keeps t t' where
  queue : t'.queue = t.queue
  queued : t'.queued = t.queued
  paused : t'.paused = t.paused
  limits : t'.high = t.high ∧ t'.low = t.low
  flight : t'.writer.flight = t.writer.flight
  flow : flow t'.log = flow t.log

/-- It is about `_paused` and the flow control's calls only. -/
theorem Alternates.congr {t t' : Transport} (h : Alternates t) (hp : t'.paused = t.paused)
    (hf : flow t'.log = flow t.log) : Alternates t' := by
  obtain ⟨h1, h2, h3⟩ := h
  refine ⟨?_, ?_, ?_⟩ <;> simp only [hp, hf] <;> assumption

/-- Nothing happened. -/
theorem Keeps.refl (t : Transport) : Keeps t t := ⟨id, fun _ => rfl, id⟩

/-- What two steps keep, both keep. -/
theorem Keeps.trans {t u v : Transport} (h₁ : Keeps t u) (h₂ : Keeps u v) : Keeps t v :=
  ⟨fun h => h₂.lost (h₁.lost h), fun h => (h₂.reports (h₁.lost h)).trans (h₁.reports h),
    fun h => h₂.alternates (h₁.alternates h)⟩

/-- A step that changes none of the three. -/
theorem Keeps.of_eq {t t' : Transport} (hl : t'.lost = t.lost) (hp : t'.paused = t.paused)
    (hlog : t'.log = t.log) : Keeps t t' :=
  ⟨fun h => hl.trans h, fun _ => by rw [hlog], fun h => h.congr hp (by rw [hlog])⟩

/-- A transport that is not lost was not lost before. -/
theorem Keeps.lost_before {t t' : Transport} (h : Keeps t t') (hl : t'.lost = false) :
    t.lost = false := by
  by_contra hne
  have := h.lost (by simpa using hne)
  simp [hl] at this

/-- An event is recorded that is neither a report nor one of the flow control's. -/
theorem Keeps.record {t t' : Transport} {e : Event} (h : Keeps t t') (he : e.report = none)
    (hf : e.is_flow = false) : Keeps t (record t' e) :=
  h.trans ⟨id, fun _ => by simp [CarrierTransport.record, he],
    fun h => h.congr rfl (by simp [CarrierTransport.record, hf])⟩

/-- Nothing happened. -/
theorem Aside.refl (t : Transport) : Aside t t :=
  ⟨.refl t, rfl, rfl, rfl, ⟨rfl, rfl⟩, rfl, rfl⟩

/-- Two steps aside are one. -/
theorem Aside.trans {t u v : Transport} (h₁ : Aside t u) (h₂ : Aside u v) : Aside t v :=
  ⟨h₁.toKeeps.trans h₂.toKeeps, h₂.queue.trans h₁.queue, h₂.queued.trans h₁.queued,
    h₂.paused.trans h₁.paused,
    ⟨h₂.limits.1.trans h₁.limits.1, h₂.limits.2.trans h₁.limits.2⟩,
    h₂.flight.trans h₁.flight, h₂.flow.trans h₁.flow⟩

/-- An event of the reading side. -/
theorem Aside.record {t t' : Transport} {e : Event} (h : Aside t t') (he : e.report = none)
    (hf : e.is_flow = false) : Aside t (record t' e) := by
  refine h.trans ⟨(Keeps.refl t').record he hf, rfl, rfl, rfl, ⟨rfl, rfl⟩, rfl, ?_⟩
  simp [CarrierTransport.record, hf]

/-- Waking the write loop is a step aside, -/
theorem set_wake_aside (t : Transport) : Aside t (set_wake t) := by
  refine ⟨.of_eq rfl rfl rfl, rfl, rfl, rfl, ⟨rfl, rfl⟩, ?_, rfl⟩
  unfold set_wake
  dsimp only
  split
  · rename_i hw
    rw [hw]
    rfl
  · rfl

/-- and so are a cancellation of the read loop, -/
theorem cancel_reader_aside (t : Transport) : Aside t (cancel_reader t) := by
  unfold cancel_reader
  split
  all_goals exact ⟨.of_eq rfl rfl rfl, rfl, rfl, rfl, ⟨rfl, rfl⟩, rfl, rfl⟩

/-- of the write loop -/
theorem cancel_writer_aside (t : Transport) : Aside t (cancel_writer t) := by
  unfold cancel_writer
  split
  all_goals refine ⟨.of_eq rfl rfl rfl, rfl, rfl, rfl, ⟨rfl, rfl⟩, ?_, rfl⟩
  all_goals simp only [Writer.flight, *]

/-- and of both. -/
theorem cancel_others_aside (t : Transport) (cur : Option Side) :
    Aside t (cancel_others t cur) := by
  unfold cancel_others
  split
  · exact cancel_writer_aside t
  · exact cancel_reader_aside t
  · exact (cancel_reader_aside t).trans (cancel_writer_aside _)

/-- `_lose` on a lost transport does nothing, and never touches the writes. -/
theorem lose_aside (t : Transport) (cur : Option Side) (exc : Option Exc) :
    Aside t (lose t cur exc) := by
  unfold lose
  split
  · exact .refl t
  · rename_i hl
    split
    · exact ⟨⟨fun h => absurd h hl, fun h => absurd h hl, fun h => h.congr rfl rfl⟩, rfl, rfl, rfl,
        ⟨rfl, rfl⟩, rfl, rfl⟩
    · have hc := cancel_others_aside { t with lost := true, closing := true } cur
      have hf : CarrierTransport.flow (schedule_lost
          (cancel_others { t with lost := true, closing := true } cur) exc).log
          = CarrierTransport.flow t.log := by
        simpa [schedule_lost, CarrierTransport.record, Event.is_flow] using hc.flow
      exact ⟨⟨fun h => absurd h hl, fun h => absurd h hl, fun h => h.congr hc.paused hf⟩,
        hc.queue, hc.queued, hc.paused, hc.limits, hc.flight, hf⟩

/-- `close()` has no part in the flow control: what is queued is still written, and the
protocol stays paused until then. -/
theorem close_aside (t : Transport) (cur : Option Side) : Aside t (close t cur) := by
  have hflag : Aside t { t with closing := true } :=
    ⟨.of_eq rfl rfl rfl, rfl, rfl, rfl, ⟨rfl, rfl⟩, rfl, rfl⟩
  have hset := hflag.trans (set_wake_aside _)
  unfold close
  split
  · exact .refl t
  · split
    · exact hset.trans (lose_aside _ cur none)
    · exact hset

/-! ### The read loop -/

/-- A change of the read loop's own fields. -/
theorem Aside.of_reader {t : Transport} (r : Reader) (mark : Bool) :
    Aside t { t with reader := r, reader_must_cancel := mark } :=
  ⟨.of_eq rfl rfl rfl, rfl, rfl, rfl, ⟨rfl, rfl⟩, rfl, rfl⟩

/-- The read loop's calls are neither reports nor the flow control's. -/
theorem Event.aside_of_reader {e : Event} (h : e.of_reader = true) :
    e.report = none ∧ e.is_flow = false := by
  cases e with
  | read | data_received _ | buffer_updated _ | eof_received => exact ⟨rfl, rfl⟩
  | _ => cases h

/-- So every turn of the read loop is a step aside. -/
theorem ReaderDoes.aside {t t' : Transport} {o : Option Exc} (h : ReaderDoes t o t') :
    Aside t t' := by
  cases h with
  | moves r mark => exact .of_reader r mark
  | calls r mark e _ he =>
      obtain ⟨hrep, hflow⟩ := Event.aside_of_reader he
      exact (Aside.of_reader r mark).record hrep hflow
  | raised mark e =>
      have hmark : Aside t { t with reader_must_cancel := mark } := .of_reader t.reader mark
      unfold reader_raised
      dsimp only
      split
      · exact (hmark.trans (lose_aside _ _ _)).trans (.of_reader _ _)
      · exact .of_reader _ mark
  | closes => exact (close_aside t _).trans (.of_reader _ _)

/-! ### The write loop and the calls -/

/-- `pause_writing` after anything but `pause_writing`. -/
theorem Alternates.pause {t : Transport} (h : Alternates t) (hp : t.paused = false) :
    Alternates (record { t with paused := true } .pause_writing) := by
  have hlast : (flow t.log).getLast? ≠ some .pause_writing := by
    rw [ne_eq, ← h.last, hp]
    simp
  have hf : flow (record { t with paused := true } .pause_writing).log
      = flow t.log ++ [.pause_writing] := by simp [record, Event.is_flow]
  refine ⟨?_, ?_, ?_⟩
  · rw [hf, List.isChain_append]
    refine ⟨h.chain, by simp, ?_⟩
    rintro e he _ ⟨⟩ rfl
    exact hlast he
  · intro e he
    rw [hf, List.head?_append] at he
    cases hh : (flow t.log).head? with
    | none => simpa [hh] using he.symm
    | some a =>
        rw [hh] at he
        exact h.first e (hh.trans he)
  · rw [hf]
    simp [record]

/-- `resume_writing` after `pause_writing`. -/
theorem Alternates.resume {t : Transport} {w : Writer} (h : Alternates t)
    (hp : t.paused = true) :
    Alternates (record { t with paused := false, writer := w } .resume_writing) := by
  have hlast := h.last.1 hp
  have hf : flow (record { t with paused := false, writer := w } .resume_writing).log
      = flow t.log ++ [.resume_writing] := by simp [record, Event.is_flow]
  refine ⟨?_, ?_, ?_⟩
  · rw [hf, List.isChain_append]
    refine ⟨h.chain, by simp, ?_⟩
    rintro e he _ ⟨⟩ rfl
    rw [hlast] at he
    cases he
  · intro e he
    rw [hf, List.head?_append] at he
    cases hh : (flow t.log).head? with
    | none =>
        rw [List.head?_eq_none_iff] at hh
        rw [hh] at hlast
        cases hlast
    | some a =>
        rw [hh] at he
        exact h.first e (hh.trans he)
  · rw [hf]
    simp [record]

/-- The next write, the shutdown and the wait are no reports. -/
theorem writer_top_keeps (t : Transport) : Keeps t (writer_top t) := by
  unfold writer_top
  split
  · split
    · exact Keeps.record (.of_eq rfl rfl rfl) rfl rfl
    · exact .of_eq rfl rfl rfl
  · exact Keeps.record (.of_eq rfl rfl rfl) rfl rfl

/-- Neither is the end of the task. -/
theorem end_writer_keeps (t : Transport) (e : Ended) : Keeps t (end_writer t e) :=
  .of_eq rfl rfl rfl

/-- An exception of the write loop is reported once, by `_lose`. -/
theorem writer_raised_keeps (t : Transport) (r : Raised) : Keeps t (writer_raised t r) := by
  unfold writer_raised
  split
  · exact end_writer_keeps t _
  · split
    · exact (lose_aside t _ _).toKeeps.trans (end_writer_keeps _ _)
    · exact end_writer_keeps t _

/-- `resume_writing` is called only while the protocol is paused, and unpauses it. -/
theorem check_low_keeps (t : Transport) : Keeps t (check_low t) := by
  unfold check_low
  split
  · rename_i hlow
    have hp : t.paused = true := by
      rw [Bool.and_eq_true] at hlow
      exact hlow.1
    exact ⟨id, fun _ => by simp [record, Event.report], fun h => h.resume hp⟩
  · exact writer_top_keeps t

/-- A write came back, well or not. -/
theorem write_returned_keeps (t : Transport) (data : Bytes) (r : Except Exc Unit) :
    Keeps t (write_returned t data r) := by
  have hcount : Keeps t { t with queued := t.queued - data.length } := .of_eq rfl rfl rfl
  unfold write_returned
  split
  · exact hcount.trans (check_low_keeps _)
  · exact writer_raised_keeps t _

/-- The shutdown came back; `_lose` reports it if the transport is closing. -/
theorem shutdown_returned_keeps (t : Transport) (r : Except Exc Unit) :
    Keeps t (shutdown_returned t r) := by
  unfold shutdown_returned
  split
  · split
    · exact (lose_aside t _ _).toKeeps.trans (end_writer_keeps _ _)
    · exact end_writer_keeps t _
  · exact writer_raised_keeps t _

/-- A turn of the write loop keeps all three. -/
theorem run_writer_keeps {t t' : Transport} (h : run_writer t = some t') : Keeps t t' := by
  have hmark : Keeps t { t with writer_must_cancel := false } := .of_eq rfl rfl rfl
  unfold run_writer at h
  split at h
  · rw [Option.some.injEq] at h
    subst h
    split
    · exact end_writer_keeps t _
    · exact writer_top_keeps t
  · obtain ⟨r, -, rfl⟩ := Option.map_eq_some_iff.1 h
    split
    · exact hmark.trans (writer_top_keeps _)
    · exact end_writer_keeps t _
  · obtain ⟨r, -, rfl⟩ := Option.map_eq_some_iff.1 h
    split
    · exact hmark.trans (write_returned_keeps _ _ _)
    · exact end_writer_keeps t _
  · obtain ⟨r, -, rfl⟩ := Option.map_eq_some_iff.1 h
    split
    · exact hmark.trans (shutdown_returned_keeps _ _)
    · exact end_writer_keeps t _
  · cases h

/-- `pause_writing` is called only while the protocol is not paused, and pauses it. -/
theorem check_high_keeps (t : Transport) : Keeps t (check_high t) := by
  unfold check_high
  split
  · rename_i hhigh
    have hp : t.paused = false := by
      rw [Bool.and_eq_true, Bool.not_eq_true'] at hhigh
      exact hhigh.1
    exact ⟨id, fun _ => by simp [record, Event.report], fun h => h.pause hp⟩
  · exact .refl t

/-- `write(data)` does no more than that. -/
theorem write_keeps (t : Transport) (data : Data) : Keeps t (write t data) := by
  have hrec : Keeps t (record t (.write_called data t.closing t.eof)) :=
      (Keeps.refl t).record rfl rfl
  unfold write
  split
  · exact hrec
  · have hput : Keeps (record t (.write_called data t.closing t.eof))
        (enqueue (record t (.write_called data t.closing t.eof)) data.bytes) := .of_eq rfl rfl rfl
    exact (hrec.trans hput).trans (check_high_keeps _)

/-- Every method of the transport keeps all three. -/
theorem call_keeps (t : Transport) (c : Call) : Keeps t (call t c) := by
  cases c with
  | write data => exact write_keeps t data
  | close => exact (close_aside t _).toKeeps
  | abort => exact (lose_aside t _ _).toKeeps
  | write_eof | pause_reading | resume_reading | set_protocol _ | set_write_buffer_limits _ _ =>
      exact .of_eq rfl rfl rfl

/-- **Once lost, always lost, and nothing is scheduled any more.** -/
theorem step_keeps {t t' : Transport} {l : Label} (h : step t l = some t') : Keeps t t' := by
  cases step_cases h with
  | call c => exact call_keeps t c
  | returns h =>
      rcases returns_side h with ⟨-, hr⟩ | ⟨-, rfl⟩
      · exact hr.aside.toKeeps
      · exact writer_top_keeps t
  | raises h =>
      rcases raises_side h with ⟨-, hr⟩ | ⟨-, rfl⟩
      · exact hr.aside.toKeeps
      · exact writer_raised_keeps t _
  | cancel_reader => exact (cancel_reader_aside t).toKeeps
  | cancel_writer => exact (cancel_writer_aside t).toKeeps
  | from_loop _ h =>
      cases from_loop_cases h with
      | made | read_done => exact .of_eq rfl rfl rfl
      | write_done | shutdown_done | run_lost => exact Keeps.record (.of_eq rfl rfl rfl) rfl rfl
      | run_reader hrun => exact (run_reader_does hrun).2.aside.toKeeps
      | run_writer hrun => exact run_writer_keeps hrun

/-! ## A transport that is not lost

`Live` is what an orderly run keeps up to the loss. Its last three fields are for the write
loop: it does not sleep with work to do, and it does not end before a shutdown. -/

/-- Not cancelled, and not ended by an exception. -/
def Reader.plain : Reader → Bool
  | .wait .cancelled | .read .cancelled | .ended .cancelled | .ended (.failed _) => false
  | _ => true

/-- The same for the write loop. -/
def Writer.plain : Writer → Bool
  | .wait .cancelled | .write _ .cancelled | .shutdown .cancelled => false
  | .ended .cancelled | .ended (.failed _) => false
  | _ => true

/-- The carrier's shutdown is done. -/
def Writer.shut : Writer → Bool
  | .shutdown (.done (.ok _)) | .ended _ => true
  | _ => false

/-- In an orderly run a transport that is not lost: nothing is reported or
cancelled, and the write loop sleeps only while it has nothing to do, and is over
only after a shutdown that left it nothing to do. -/
structure Live (t : Transport) : Prop where
  lost : t.lost = false
  silent : reports t.log = []
  reader_mark : t.reader_must_cancel = false
  writer_mark : t.writer_must_cancel = false
  reader : t.reader.plain = true
  writer : t.writer.plain = true
  unborn : t.reader = .unborn ↔ t.writer = .unborn
  awake : t.writer = .wait .pending → t.queue = [] ∧ t.eof = false ∧ t.closing = false
  last : t.writer.stage ≠ .writing → t.queue = [] ∧ (t.eof = true ∨ t.closing = true)
  ended : t.closing = true → t.writer.stage ≠ .ended

/-- A failure of the carrier that is not delivered yet. -/
def Failing (t : Transport) (e : Exc) : Prop :=
  t.reader.failure = some e ∨ t.writer.failure = some e

/-- A step that keeps the transport alive; it closes it or brings a failure of the
carrier, and does nothing else to either. -/
structure Goes (t : Transport) (closes : Bool) (fails : Option Exc) (shut : Bool)
    (t' : Transport) : Prop where
  live : Live t'
  closing : t'.closing = (t.closing || closes)
  failing : ∀ e, Failing t' e ↔ Failing t e ∨ fails = some e
  shut : t'.writer.shut = true → t.writer.shut = true ∨ shut = true

/-- A new transport is alive. -/
theorem Live.init (buffered : Bool) : Live (init buffered) :=
  ⟨rfl, rfl, rfl, rfl, rfl, rfl, ⟨fun _ => rfl, fun _ => rfl⟩, (fun h => by cases h),
    fun h => absurd rfl h, fun h => by cases h⟩

/-- Staying alive by doing nothing. -/
theorem Goes.refl {t : Transport} (ht : Live t) : Goes t false none false t :=
  ⟨ht, (Bool.or_false _).symm, fun e => by simp, .inl⟩

/-- A step and a bit more of it that neither closes nor fails anything. -/
theorem Goes.trans {t u v : Transport} {closes shut : Bool} {fails : Option Exc}
    (h₁ : Goes t closes fails shut u) (h₂ : Goes u false none false v) :
    Goes t closes fails shut v := by
  refine ⟨h₂.live, ?_, fun e => ?_, fun h => ?_⟩
  · rw [h₂.closing, Bool.or_false, h₁.closing]
  · rw [h₂.failing, h₁.failing]
    simp
  · rcases h₂.shut h with h | h
    · exact h₁.shut h
    · cases h

/-- The fields `Live` does not look at. -/
theorem Live.others {t : Transport} (ht : Live t) {log : List Event}
    (hlog : reports log = reports t.log) (queued high low : ℤ)
    (paused wake reading buffered : Bool) (losing : List (Option Exc)) :
    Goes t false none false
      { t with
        queued := queued, high := high, low := low, paused := paused, wake := wake
        reading := reading, buffered := buffered, losing := losing, log := log } :=
  ⟨⟨ht.lost, hlog.trans ht.silent, ht.reader_mark, ht.writer_mark, ht.reader, ht.writer,
      ht.unborn, ht.awake, ht.last, ht.ended⟩,
    (Bool.or_false _).symm, fun e => by simp [Failing], .inl⟩

/-- Any event but a report may be recorded. -/
theorem Live.recorded {t : Transport} {e : Event} (ht : Live t) (he : e.report = none) :
    Goes t false none false (record t e) :=
  ht.others (by simp [he]) _ _ _ _ _ _ _ _

/-- The reading side moves on: it is not cancelled, and has no failure before or
after. -/
theorem Live.on_reader {t : Transport} {r : Reader} {reading mark : Bool} {log : List Event}
    (ht : Live t) (hold : t.reader ≠ .unborn) (hfail : t.reader.failure = none)
    (hr : r.plain = true) (hnew : r ≠ .unborn) (hr' : r.failure = none) (hm : mark = false)
    (hlog : reports log = reports t.log) :
    Goes t false none false
      { t with reading := reading, reader := r, reader_must_cancel := mark, log := log } := by
  refine ⟨⟨ht.lost, hlog.trans ht.silent, hm, ht.writer_mark, hr, ht.writer, ?_, ht.awake,
    ht.last, ht.ended⟩, (Bool.or_false _).symm, fun e => ?_, .inl⟩
  · exact ⟨fun h => absurd h hnew, fun h => absurd (ht.unborn.2 h) hold⟩
  · simp [Failing, hr', hfail]

/-- In an orderly run nobody has marked the read loop's task -/
theorem Live.unmarked_reader {t : Transport} (ht : Live t) :
    { t with reader_must_cancel := false } = t := by
  rw [← ht.reader_mark]

/-- or the write loop's. -/
theorem Live.unmarked_writer {t : Transport} (ht : Live t) :
    { t with writer_must_cancel := false } = t := by
  rw [← ht.writer_mark]

/-- The read loop begins a read. A failure it had not seen yet would be lost here; it has none. -/
theorem read_call_goes {t : Transport} (ht : Live t) (hold : t.reader ≠ .unborn)
    (hfail : t.reader.failure = none) : Goes t false none false (read_call t) := by
  unfold read_call
  rw [ht.reader_mark]
  exact ht.on_reader hold hfail rfl (by simp) rfl rfl (by simp [Event.report])

/-- The top of the read loop keeps the transport alive, -/
theorem reader_top_goes {t : Transport} (ht : Live t) (hold : t.reader ≠ .unborn)
    (hfail : t.reader.failure = none) : Goes t false none false (reader_top t) := by
  unfold reader_top
  split
  · exact read_call_goes ht hold hfail
  · rw [ht.reader_mark]
    exact ht.on_reader hold hfail rfl (by simp) rfl rfl rfl

/-- and so do `while view:` -/
theorem deliver_view_goes {t : Transport} (ht : Live t) (hold : t.reader ≠ .unborn)
    (hfail : t.reader.failure = none) (view : Bytes) :
    Goes t false none false (deliver_view t view) := by
  unfold deliver_view
  split
  · exact reader_top_goes ht hold hfail
  · exact ht.on_reader hold hfail rfl (by simp) rfl ht.reader_mark rfl

/-- and the rest of `_deliver`. -/
theorem deliver_goes {t : Transport} (ht : Live t) (hold : t.reader ≠ .unborn)
    (hfail : t.reader.failure = none) (data : Bytes) :
    Goes t false none false (deliver t data) := by
  unfold deliver
  split
  · exact deliver_view_goes ht hold hfail data
  · exact ht.on_reader hold hfail rfl (by simp) rfl ht.reader_mark (by simp [Event.report])

/-- The read loop ends after the end of file; the transport goes on writing. -/
theorem end_reader_goes {t : Transport} (ht : Live t) (hold : t.reader ≠ .unborn)
    (hfail : t.reader.failure = none) : Goes t false none false (end_reader t .returned) :=
  ht.on_reader hold hfail rfl (by simp) rfl ht.reader_mark rfl

/-- `resume_reading()`. -/
theorem set_reading_goes {t : Transport} (ht : Live t) :
    Goes t false none false (set_reading t) := by
  unfold set_reading
  by_cases hr : t.reader = .wait .pending
  · rw [hr]
    exact ht.on_reader (by simp [hr]) (by rw [hr]; rfl) rfl (by simp) rfl ht.reader_mark rfl
  · split
    · contradiction
    · exact ht.others rfl _ _ _ _ _ _ _ _

/-! ### Waking the write loop -/

/-- `_wake.set()` changes the write loop only if it is asleep. -/
theorem set_wake_writer (t : Transport) :
    (set_wake t).writer = t.writer ∧ t.writer ≠ .wait .pending
      ∨ t.writer = .wait .pending ∧ (set_wake t).writer = .wait (.done ()) := by
  unfold set_wake
  dsimp only
  split
  · rename_i hw
    exact .inr ⟨hw, rfl⟩
  · rename_i hw
    exact .inl ⟨rfl, hw⟩

/-- Something to do for the write loop, and then `_wake.set()`. -/
theorem Live.wake {t : Transport} {queue : List Bytes} {queued : ℤ} {eof closing closes : Bool}
    {log : List Event} (ht : Live t) (hlog : reports log = reports t.log)
    (hlast : t.writer.stage ≠ .writing → queue = [] ∧ (eof = true ∨ closing = true))
    (hend : closing = true → t.writer.stage ≠ .ended)
    (hclosing : closing = (t.closing || closes)) :
    Goes t closes none false
      (set_wake { t with
        queue := queue, queued := queued, eof := eof, closing := closing, log := log }) := by
  rcases set_wake_writer { t with
    queue := queue, queued := queued, eof := eof, closing := closing, log := log }
    with ⟨hw, hne⟩ | ⟨hw, hw'⟩
  · refine ⟨⟨ht.lost, hlog.trans ht.silent, ht.reader_mark, ht.writer_mark, ht.reader, ?_, ?_,
      ?_, ?_, ?_⟩, hclosing, fun e => ?_, fun h => .inl ?_⟩
    · rw [hw]
      exact ht.writer
    · rw [hw]
      exact ht.unborn
    · rw [hw]
      exact fun h => absurd h hne
    · rw [hw]
      exact hlast
    · rw [hw]
      exact hend
    -- the writer did not wait for the event: it is where it was
    · rw [Failing, hw]
      simp [Failing, set_wake]
    · rw [hw] at h
      exact h
  · dsimp only at hw
    refine ⟨⟨ht.lost, hlog.trans ht.silent, ht.reader_mark, ht.writer_mark, ht.reader, ?_, ?_,
      ?_, ?_, ?_⟩, hclosing, fun e => ?_, fun h => ?_⟩
    · rw [hw']
      rfl
    -- the writer waited, and the event is its result
    · have hborn : t.reader ≠ .unborn := by
        rw [ne_eq, ht.unborn, hw]
        simp
      rw [hw']
      simpa [set_wake] using hborn
    · rw [hw']
      simp
    · rw [hw']
      simp [Writer.stage]
    · rw [hw']
      simp [Writer.stage]
    · rw [Failing, hw']
      simp [Failing, set_wake, hw, Writer.failure]
    · rw [hw'] at h
      cases h

/-- The high mark has no part in the end. -/
theorem check_high_goes {t : Transport} (ht : Live t) :
    Goes t false none false (check_high t) := by
  unfold check_high
  split
  · refine ht.others ?_ _ _ _ _ _ _ _ _
    simp [Event.report]
  · exact .refl ht

/-- A `write` is queued only while neither flag is set, so never after the
shutdown. -/
theorem write_goes {t : Transport} (ht : Live t) (data : Data) :
    Goes t false none false (write t data) := by
  unfold write
  split
  · exact ht.recorded rfl
  · rename_i htake
    simp only [Bool.or_eq_true, decide_eq_true_eq, not_or, Bool.not_eq_true] at htake
    obtain ⟨⟨hc, he⟩, -⟩ := htake
    have hput : Goes t false none false
        (enqueue (record t (.write_called data t.closing t.eof)) data.bytes) := by
      refine ht.wake ?_ ?_ ht.ended (Bool.or_false _).symm
      · simp [record, Event.report]
      · intro hst
        have := (ht.last hst).2
        simp [hc, he] at this
    exact hput.trans (check_high_goes hput.live)

/-- `write_eof()` asks for a shutdown, not for the end. -/
theorem write_eof_goes {t : Transport} (ht : Live t) : Goes t false none false (write_eof t) :=
  ht.wake rfl (fun h => ⟨(ht.last h).1, .inl rfl⟩) ht.ended (Bool.or_false _).symm

/-- `close()` while the write loop is there to report the end. -/
theorem close_goes {t : Transport} (ht : Live t) (cur : Option Side)
    (h : t.closing = true ∨ t.writer.stage ≠ .ended) : Goes t true none false (close t cur) := by
  unfold close
  split
  · rename_i hc
    exact ⟨ht, by rw [hc]; rfl, fun e => by simp, .inl⟩
  · rename_i hc
    have hst : t.writer.stage ≠ .ended := h.resolve_left hc
    split
    · rename_i hw
      rw [hw] at hst
      exact absurd rfl hst
    · exact ht.wake rfl (fun h => ⟨(ht.last h).1, .inr rfl⟩) (fun _ => hst) (Bool.or_true _).symm

/-! ### The write loop -/

/-- The writing side moves on to `w`, with the rest of the queue. -/
theorem Live.on_writer {t : Transport} {w : Writer} {queue : List Bytes} {wake mark : Bool}
    {log : List Event} (ht : Live t) (hold : t.writer ≠ .unborn)
    (hfail : t.writer.failure = none) (hw : w.plain = true) (hnew : w ≠ .unborn)
    (hw' : w.failure = none) (hm : mark = false) (hlog : reports log = reports t.log)
    (hawake : w = .wait .pending → queue = [] ∧ t.eof = false ∧ t.closing = false)
    (hlast : w.stage ≠ .writing → queue = [] ∧ (t.eof = true ∨ t.closing = true))
    (hend : t.closing = true → w.stage ≠ .ended)
    (hshut : w.shut = true → t.writer.shut = true) :
    Goes t false none false
      { t with
        queue := queue, wake := wake, writer := w, writer_must_cancel := mark, log := log } := by
  refine ⟨⟨ht.lost, hlog.trans ht.silent, ht.reader_mark, hm, ht.reader, hw, ?_, hawake, hlast,
    hend⟩, (Bool.or_false _).symm, fun e => ?_, fun h => .inl (hshut h)⟩
  · exact ⟨fun h => absurd (ht.unborn.1 h) hold, fun h => absurd h hnew⟩
  · simp [Failing, hw', hfail]

/-- The top of the write loop: with nothing queued it shuts the carrier down if that was asked
for, and sleeps if not. -/
theorem writer_top_goes {t : Transport} (ht : Live t) (hold : t.writer ≠ .unborn)
    (hfail : t.writer.failure = none) : Goes t false none false (writer_top t) := by
  unfold writer_top shutdown_call
  simp only [ht.writer_mark, Await.suspend_unmarked]
  split
  · rename_i hq
    split
    · rename_i hflag
      refine ht.on_writer hold hfail rfl (by simp) rfl rfl (by simp [Event.report]) (by simp) ?_
        (by simp [Writer.stage]) (by simp [Writer.shut])
      exact fun _ => ⟨hq, by simpa using hflag⟩
    · rename_i hflag
      refine ht.on_writer hold hfail rfl (by simp) rfl rfl rfl ?_ (by simp [Writer.stage])
        (by simp [Writer.stage]) (by simp [Writer.shut])
      exact fun _ => ⟨hq, by simpa using hflag⟩
  · exact ht.on_writer hold hfail rfl (by simp) rfl rfl (by simp [Event.report]) (by simp)
      (by simp [Writer.stage]) (by simp [Writer.stage]) (by simp [Writer.shut])

/-- The low mark has no part in the end either. -/
theorem check_low_goes {t : Transport} (ht : Live t) (hold : t.writer ≠ .unborn)
    (hfail : t.writer.failure = none) : Goes t false none false (check_low t) := by
  unfold check_low
  split
  · have hcalm := ht.others rfl t.queued t.high t.low false t.wake t.reading t.buffered t.losing
    refine hcalm.trans (hcalm.live.on_writer hold hfail rfl (by simp) rfl ht.writer_mark
      (by simp [Event.report]) (by simp) ?_ ?_ ?_)
    all_goals simp [Writer.stage, Writer.shut]
  · exact writer_top_goes ht hold hfail

/-! ## One step

What the transport has been told decides what it reports. -/

/-- The carrier's shutdown succeeds. -/
def Label.shuts : Label → Bool
  | .shutdown_done (.ok _) => true
  | _ => false

/-- What an orderly step comes to, from a transport that is alive. -/
inductive Outcome (t : Transport) (l : Label) (t' : Transport) : Prop where
  /-- Alive, and told of no failure. -/
  | goes (h : Goes t l.closes l.failure l.shuts t') (hrec : receives t l = none)
      (hne : l ≠ .call .abort)
  /-- Lost: `connection_lost` is scheduled with the failure, or without one for an
  `abort()` or a close that came to its end. -/
  | reported (hborn : t.reader ≠ .unborn) (hlost : t'.lost = true)
      (hrep : reports t'.log = [receives t l])
      (hwhy : receives t l = none → l = .call .abort
        ∨ (t.closing = true ∨ l.closes = true) ∧ t.writer.shut = true)
  /-- `abort()` in `connection_made`: `_lose` raises before it schedules. -/
  | unreported (hl : l = .call .abort) (hborn : t.reader = .unborn) (hlost : t'.lost = true)
      (hrep : reports t'.log = [])

/-- `_lose` on a transport that is built and not lost: lost, and one report more. -/
theorem lose_reports {t : Transport} (ht : t.lost = false) (hborn : t.reader ≠ .unborn)
    (cur : Option Side) (exc : Option Exc) :
    (lose t cur exc).lost = true ∧ reports (lose t cur exc).log = reports t.log ++ [exc] := by
  have hc := cancel_others_aside { t with lost := true, closing := true } cur
  unfold lose
  rw [if_neg (by simp [ht])]
  split
  · contradiction
  · refine ⟨hc.lost rfl, ?_⟩
    simp only [schedule_lost, record, reports_snoc, Event.report, Option.toList_some]
    rw [hc.reports rfl]

/-- `_lose` by a step that was told `exc`. -/
theorem Live.loses {t : Transport} {l : Label} (ht : Live t) (hborn : t.reader ≠ .unborn)
    {cur : Option Side} {exc : Option Exc} (hexc : receives t l = exc)
    (hwhy : exc = none → l = .call .abort
      ∨ (t.closing = true ∨ l.closes = true) ∧ t.writer.shut = true) {t' : Transport}
    (hlost : t'.lost = (lose t cur exc).lost) (hlog : t'.log = (lose t cur exc).log) :
    Outcome t l t' := by
  obtain ⟨h₁, h₂⟩ := lose_reports ht.lost hborn cur exc
  refine .reported hborn (hlost.trans h₁) ?_ (fun h => hwhy (hexc.symm.trans h))
  rw [hlog, h₂, ht.silent, hexc]
  rfl

/-- A write loop past its stages is over. -/
theorem stage_eq_ended {w : Writer} (h : w.stage = .ended) : ∃ e, w = .ended e := by
  cases w with
  | ended e => exact ⟨e, rfl⟩
  | _ => cases h

/-- `close()` once the write loop is over: nobody else would report the end. -/
theorem close_outcome {t t' : Transport} {l : Label} {cur : Option Side} (ht : Live t)
    (h : t.closing = false ∧ t.writer.stage = .ended) (hexc : receives t l = none)
    (hl : l.closes = true) (hlost : t'.lost = (close t cur).lost)
    (hlog : t'.log = (close t cur).log) : Outcome t l t' := by
  obtain ⟨e, hw⟩ := stage_eq_ended h.2
  have hborn : t.reader ≠ .unborn := by
    rw [ne_eq, ht.unborn, hw]
    simp
  have hclose : close t cur = lose (set_wake { t with closing := true }) cur none := by
    simp [close, h.1, hw]
  rw [hclose] at hlost hlog
  obtain ⟨h₁, h₂⟩ := lose_reports (t := set_wake { t with closing := true }) ht.lost hborn cur none
  refine .reported hborn (hlost.trans h₁) ?_ (fun _ => .inr ⟨.inr hl, by rw [hw]; rfl⟩)
  rw [hlog, h₂, hexc]
  exact congrArg (· ++ [none]) ht.silent

/-- A call of a method. Only `abort()`, and `close()` behind a write loop that has ended,
report the end. -/
theorem call_outcome {t : Transport} (ht : Live t) (c : Call) :
    Outcome t (.call c) (call t c) := by
  cases c with
  | write data => exact .goes (write_goes ht data) rfl (by simp)
  | write_eof => exact .goes (write_eof_goes ht) rfl (by simp)
  | close =>
      by_cases h : t.closing = true ∨ t.writer.stage ≠ .ended
      · exact .goes (close_goes ht _ h) rfl (by simp)
      · exact close_outcome ht (by simpa using h) rfl rfl rfl rfl
  | abort =>
      by_cases hborn : t.reader = .unborn
      · refine .unreported rfl hborn ?_ ?_
        all_goals simp only [call, lose, ht.lost, hborn]
        · rfl
        · exact ht.silent
      · exact ht.loses hborn rfl (fun _ => .inl rfl) rfl rfl
  | resume_reading => exact .goes (set_reading_goes ht) rfl (by simp)
  | pause_reading | set_protocol _ | set_write_buffer_limits _ _ =>
      exact .goes (ht.others rfl _ _ _ _ _ _ _ _) rfl (by simp)

/-- `if not self._protocol.eof_received(): self.close()`. -/
theorem eof_outcome {t : Transport} (ht : Live t) (hr : t.reader = .eof_received) (b : Bool) :
    Outcome t (.returns (.keep_open b))
      (end_reader (if b then t else close t (some .reader)) .returned) := by
  have hborn : t.reader ≠ .unborn := by simp [hr]
  cases b with
  | true => exact .goes (end_reader_goes ht hborn (by rw [hr]; rfl)) rfl (by simp)
  | false =>
      by_cases h : t.closing = true ∨ t.writer.stage ≠ .ended
      · have hsame : (close t (some .reader)).reader = t.reader := by
          unfold close
          split
          · rfl
          · rename_i hc
            split
            · rename_i hw
              simp [hw, hc, Writer.stage] at h
            · rfl
        have hc := close_goes ht (some .reader) h
        refine .goes (hc.trans (end_reader_goes hc.live ?_ ?_)) rfl (by simp)
        · rw [hsame]
          exact hborn
        · rw [hsame, hr]
          rfl
      · exact close_outcome ht (by simpa using h) rfl rfl rfl rfl

/-- A method of the protocol returns. Nothing is reported, except by the `close()` after
`eof_received`. -/
theorem returns_outcome {t t' : Transport} {a : Answer} (ht : Live t)
    (h : returns t a = some t') : Outcome t (.returns a) t' := by
  unfold returns at h
  split at h
  · rename_i hr
    cases h
    exact .goes (reader_top_goes ht (by simp [hr]) (by rw [hr]; rfl)) rfl (by simp)
  · rename_i hr
    cases h
    refine .goes (ht.on_reader (by simp [hr]) (by rw [hr]; rfl) rfl (by simp) rfl
      ht.reader_mark ?_) rfl (by simp)
    simp [Event.report]
  · rename_i hr
    cases h
    exact .goes (deliver_view_goes ht (by simp [hr]) (by rw [hr]; rfl) _) rfl (by simp)
  · rename_i b hr
    cases h
    exact eof_outcome ht hr b
  · cases h
    have hw : t.writer = .resume_writing := by assumption
    exact .goes (writer_top_goes ht (by simp [hw]) (by rw [hw]; rfl)) rfl (by simp)
  · cases h

/-- The read loop is told of its read. -/
theorem read_outcome {t : Transport} {r : Except Exc Bytes} (ht : Live t)
    (hr : t.reader = .read (.done r)) (hcaught : ∀ e, r = .error e → e.caught = true) :
    Outcome t .run_reader (read_returned t r) := by
  have hborn : t.reader ≠ .unborn := by simp [hr]
  cases r with
  | ok data =>
      have hrec : t.reader.failure = none := by rw [hr]; rfl
      unfold read_returned
      split
      · refine .goes (ht.on_reader hborn hrec rfl (by simp) rfl ht.reader_mark ?_) hrec (by simp)
        simp [Event.report]
      · exact .goes (deliver_goes ht hborn hrec _) hrec (by simp)
      · contradiction
  | error e =>
      have hrec : receives t .run_reader = some e := by
        simp only [receives, hr]
        rfl
      simp only [read_returned, reader_raised, hcaught e rfl, if_true]
      exact ht.loses hborn hrec (by simp) rfl rfl

/-- The steps of the read loop of a live transport. -/
theorem Live.run_reader_cases {t t' : Transport} (ht : Live t) (h : run_reader t = some t') :
    t.reader = .start ∧ t' = reader_top t
    ∨ (∃ u, t.reader = .wait (.done u)) ∧ t' = read_call t
    ∨ ∃ r, t.reader = .read (.done r) ∧ t' = read_returned t r := by
  have hplain := ht.reader
  unfold run_reader at h
  rw [ht.reader_mark, ht.unmarked_reader] at h
  split at h
  · rename_i hr
    cases h
    exact .inl ⟨hr, rfl⟩
  · rename_i f hr
    rw [hr] at hplain
    obtain ⟨r, hres, rfl⟩ := Option.map_eq_some_iff.1 h
    rcases Await.resume_unmarked_eq_some hres with rfl | ⟨u, rfl, rfl⟩
    · cases hplain
    · exact .inr (.inl ⟨⟨u, hr⟩, rfl⟩)
  · rename_i f hr
    rw [hr] at hplain
    obtain ⟨r, hres, rfl⟩ := Option.map_eq_some_iff.1 h
    rcases Await.resume_unmarked_eq_some hres with rfl | ⟨r, rfl, rfl⟩
    · cases hplain
    · exact .inr (.inr ⟨r, hr, rfl⟩)
  · cases h

/-- A turn of the read loop reports the failure that its read came back with. -/
theorem run_reader_outcome {t t' : Transport} (ht : Live t)
    (hcaught : ∀ e, Failing t e → e.caught = true) (h : run_reader t = some t') :
    Outcome t .run_reader t' := by
  rcases ht.run_reader_cases h with ⟨hr, rfl⟩ | ⟨⟨u, hr⟩, rfl⟩ | ⟨r, hr, rfl⟩
  · have hrec : t.reader.failure = none := by rw [hr]; rfl
    exact .goes (reader_top_goes ht (by simp [hr]) hrec) hrec (by simp)
  · have hrec : t.reader.failure = none := by rw [hr]; rfl
    exact .goes (read_call_goes ht (by simp [hr]) hrec) hrec (by simp)
  · refine read_outcome ht hr ?_
    rintro e rfl
    exact hcaught e (.inl (by rw [hr]; rfl))

/-- The two tasks are made together. -/
theorem Live.born {t : Transport} (ht : Live t) (hw : t.writer ≠ .unborn) :
    t.reader ≠ .unborn := fun h => hw (ht.unborn.1 h)

/-- The write loop is told of its write. -/
theorem write_outcome {t : Transport} {data : Bytes} {r : Except Exc Unit} (ht : Live t)
    (hw : t.writer = .write data (.done r)) (hcaught : ∀ e, r = .error e → e.caught = true) :
    Outcome t .run_writer (write_returned t data r) := by
  have hborn : t.writer ≠ .unborn := by simp [hw]
  cases r with
  | ok u =>
      have hrec : t.writer.failure = none := by rw [hw]; rfl
      have hcount := ht.others rfl (t.queued - data.length) t.high t.low t.paused t.wake
        t.reading t.buffered t.losing
      exact .goes (hcount.trans (check_low_goes hcount.live hborn hrec)) hrec (by simp)
  | error e =>
      have hrec : receives t .run_writer = some e := by
        simp only [receives, hw]
        rfl
      simp only [write_returned, writer_raised, hcaught e rfl, if_true]
      exact ht.loses (ht.born hborn) hrec (by simp) rfl rfl

/-- The write loop is told of the shutdown: the end, if the transport is closing. -/
theorem shutdown_outcome {t : Transport} {r : Except Exc Unit} (ht : Live t)
    (hw : t.writer = .shutdown (.done r)) (hcaught : ∀ e, r = .error e → e.caught = true) :
    Outcome t .run_writer (shutdown_returned t r) := by
  have hborn : t.writer ≠ .unborn := by simp [hw]
  cases r with
  | ok u =>
      have hrec : t.writer.failure = none := by rw [hw]; rfl
      have hshut : t.writer.shut = true := by rw [hw]; rfl
      have hlast := ht.last (by rw [hw]; simp [Writer.stage])
      simp only [shutdown_returned]
      split
      · rename_i hc
        exact ht.loses (l := .run_writer) (ht.born hborn) hrec
          (fun _ => .inr ⟨.inl hc, hshut⟩) rfl rfl
      · rename_i hc
        refine .goes (ht.on_writer hborn hrec rfl (by simp) rfl ht.writer_mark rfl (by simp)
          (fun _ => hlast) (fun h => absurd h hc) (fun _ => hshut)) hrec (by simp)
  | error e =>
      have hrec : receives t .run_writer = some e := by
        simp only [receives, hw]
        rfl
      simp only [shutdown_returned, writer_raised, hcaught e rfl, if_true]
      exact ht.loses (ht.born hborn) hrec (by simp) rfl rfl

/-- The steps of the write loop of a live transport. -/
theorem Live.run_writer_cases {t t' : Transport} (ht : Live t) (h : run_writer t = some t') :
    (t.writer = .start ∨ ∃ u, t.writer = .wait (.done u)) ∧ t' = writer_top t
    ∨ (∃ data r, t.writer = .write data (.done r) ∧ t' = write_returned t data r)
    ∨ ∃ r, t.writer = .shutdown (.done r) ∧ t' = shutdown_returned t r := by
  have hplain := ht.writer
  unfold run_writer at h
  rw [ht.writer_mark, ht.unmarked_writer] at h
  split at h
  · rename_i hw
    cases h
    exact .inl ⟨.inl hw, rfl⟩
  · rename_i f hw
    rw [hw] at hplain
    obtain ⟨r, hres, rfl⟩ := Option.map_eq_some_iff.1 h
    rcases Await.resume_unmarked_eq_some hres with rfl | ⟨u, rfl, rfl⟩
    · cases hplain
    · exact .inl ⟨.inr ⟨u, hw⟩, rfl⟩
  · rename_i data f hw
    rw [hw] at hplain
    obtain ⟨r, hres, rfl⟩ := Option.map_eq_some_iff.1 h
    rcases Await.resume_unmarked_eq_some hres with rfl | ⟨r, rfl, rfl⟩
    · cases hplain
    · exact .inr (.inl ⟨data, r, hw, rfl⟩)
  · rename_i f hw
    rw [hw] at hplain
    obtain ⟨r, hres, rfl⟩ := Option.map_eq_some_iff.1 h
    rcases Await.resume_unmarked_eq_some hres with rfl | ⟨r, rfl, rfl⟩
    · cases hplain
    · exact .inr (.inr ⟨r, hw, rfl⟩)
  · cases h

/-- A turn of the write loop reports the failure of its write or shutdown, or the end of a
closing transport. -/
theorem run_writer_outcome {t t' : Transport} (ht : Live t)
    (hcaught : ∀ e, Failing t e → e.caught = true) (h : run_writer t = some t') :
    Outcome t .run_writer t' := by
  rcases ht.run_writer_cases h with ⟨hw, rfl⟩ | ⟨data, r, hw, rfl⟩ | ⟨r, hw, rfl⟩
  · have hrec : t.writer.failure = none := by
      rcases hw with hw | ⟨u, hw⟩ <;> rw [hw] <;> rfl
    have hborn : t.writer ≠ .unborn := by
      rcases hw with hw | ⟨u, hw⟩ <;> simp [hw]
    exact .goes (writer_top_goes ht hborn hrec) hrec (by simp)
  · refine write_outcome ht hw ?_
    rintro e rfl
    exact hcaught e (.inr (by rw [hw]; rfl))
  · refine shutdown_outcome ht hw ?_
    rintro e rfl
    exact hcaught e (.inr (by rw [hw]; rfl))

/-- A read that completes, with data or with a failure, is not delivered yet. -/
theorem read_done_goes {t : Transport} (ht : Live t) (hr : t.reader = .read .pending)
    (r : Except Exc Bytes) :
    Goes t false (Label.read_done r).failure false { t with reader := .read (.done r) } := by
  have hborn : t.writer ≠ .unborn := by
    rw [ne_eq, ← ht.unborn, hr]
    simp
  refine ⟨⟨ht.lost, ht.silent, ht.reader_mark, ht.writer_mark, rfl, ht.writer, ?_, ht.awake,
    ht.last, ht.ended⟩, (Bool.or_false _).symm, fun e => ?_, .inl⟩
  · simpa using hborn
  · cases r <;> simp [Failing, hr, Reader.failure, Label.failure, or_comm]

/-- The writing side's operation is done. -/
theorem Live.writer_done {t : Transport} {w : Writer} {log : List Event} {fails : Option Exc}
    {shut : Bool} (ht : Live t) (hold : t.writer ≠ .unborn) (hfail : t.writer.failure = none)
    (hw : w.plain = true) (hnew : w ≠ .unborn) (hstage : w.stage = t.writer.stage)
    (hawake : w ≠ .wait .pending) (hlog : reports log = reports t.log) (hw' : w.failure = fails)
    (hshut : w.shut = true → shut = true) :
    Goes t false fails shut { t with writer := w, log := log } := by
  refine ⟨⟨ht.lost, hlog.trans ht.silent, ht.reader_mark, ht.writer_mark, ht.reader, hw, ?_,
    fun h => absurd h hawake, ?_, ?_⟩, (Bool.or_false _).symm, fun e => ?_,
    fun h => .inr (hshut h)⟩
  · exact ⟨fun h => absurd (ht.unborn.1 h) hold, fun h => absurd h hnew⟩
  · rw [hstage]
    exact ht.last
  · rw [hstage]
    exact ht.ended
  · simp [Failing, hw', hfail]

/-- A step of the event loop. -/
theorem from_loop_outcome {t t' : Transport} {l : Label} (ht : Live t)
    (hcaught : ∀ e, Failing t e → e.caught = true) (h : from_loop t l = some t') :
    Outcome t l t' := by
  cases from_loop_cases h with
  | made hr hw =>
      refine .goes ⟨⟨ht.lost, ht.silent, ht.reader_mark, ht.writer_mark, rfl, rfl, by simp,
        by simp, by simp [Writer.stage], by simp [Writer.stage]⟩, (Bool.or_false _).symm,
        fun e => ?_, by simp [Writer.shut]⟩ rfl (by simp)
      simp [Failing, hr, hw, Reader.failure, Writer.failure, Label.failure]
  | read_done r hr => exact .goes (read_done_goes ht hr r) rfl (by simp)
  | write_done data r hw =>
      refine .goes (ht.writer_done (by simp [hw]) (by rw [hw]; rfl) rfl (by simp)
        (by rw [hw]; rfl) (by simp) (by simp [Event.report]) ?_ (by simp [Writer.shut]))
        rfl (by simp)
      cases r <;> rfl
  | shutdown_done r hw =>
      refine .goes (ht.writer_done (by simp [hw]) (by rw [hw]; rfl) rfl (by simp)
        (by rw [hw]; rfl) (by simp) (by simp [Event.report]) ?_ ?_) rfl (by simp)
      · cases r <;> rfl
      · cases r <;> simp [Writer.shut, Label.shuts]
  | run_reader hrun => exact run_reader_outcome ht hcaught hrun
  | run_writer hrun => exact run_writer_outcome ht hcaught hrun
  | run_lost exc rest hl =>
      refine .goes (ht.others ?_ _ _ _ _ _ _ _ _) rfl (by simp)
      simp [Event.report]

/-- **What an orderly step does to a transport that is not lost.** -/
theorem step_outcome {t t' : Transport} {l : Label} (ht : Live t) (ho : l.orderly = true)
    (hcaught : ∀ e, Failing t e → e.caught = true) (h : step t l = some t') :
    Outcome t l t' := by
  cases step_cases h with
  | call c => exact call_outcome ht c
  | returns h => exact returns_outcome ht h
  | raises _ | cancel_reader | cancel_writer => cases ho
  | from_loop _ h => exact from_loop_outcome ht hcaught h

/-! ## The end is reported once

`Past` ties the state to the labels of the run: a live transport has the failures and the
close that the labels brought, a lost one has one report, which the labels explain. -/

/-- What led to a report: a failure of the carrier with that exception; without
one, an `abort()`, or a close after which the carrier's shutdown succeeded. -/
def Explains (ls : List Label) : Option Exc → Prop
  | some e => ∃ l ∈ ls, l.failure = some e
  | none => .call .abort ∈ ls ∨ (∃ l ∈ ls, l.closes = true) ∧ ∃ l ∈ ls, l.shuts = true

/-- An explanation stays one as the run goes on. -/
theorem Explains.snoc {ls : List Label} {exc : Option Exc} (h : Explains ls exc) (l : Label) :
    Explains (ls ++ [l]) exc := by
  have hmono : ∀ {p : Label → Prop}, (∃ l ∈ ls, p l) → ∃ k ∈ ls ++ [l], p k :=
    fun ⟨k, hk, hp⟩ => ⟨k, List.mem_append_left _ hk, hp⟩
  cases exc with
  | some e => exact hmono h
  | none => exact h.imp (List.mem_append_left _) (fun h => ⟨hmono h.1, hmono h.2⟩)

/-- The state of the end, in terms of the steps so far. -/
inductive Past (ls : List Label) (t : Transport) : Prop where
  | live (ht : Live t) (habort : .call .abort ∉ ls)
      (hclosing : t.closing = true ↔ ∃ l ∈ ls, l.closes = true)
      (hfailing : ∀ e, Failing t e ↔ ∃ l ∈ ls, l.failure = some e)
      (hshut : t.writer.shut = true → ∃ l ∈ ls, l.shuts = true)
  | reported (exc : Option Exc) (hlost : t.lost = true) (hrep : reports t.log = [exc])
      (hwhy : Explains ls exc)
  | unreported (hlost : t.lost = true) (hrep : reports t.log = [])

/-- Something is among the steps so far, or is the step just made. -/
theorem exists_mem_snoc {ls : List Label} {l : Label} {p : Label → Prop} :
    (∃ k ∈ ls ++ [l], p k) ↔ (∃ k ∈ ls, p k) ∨ p l := by
  simp only [List.mem_append, List.mem_singleton, or_and_right, exists_or, exists_eq_left]

/-- In an orderly run the loops catch whatever the carrier fails with. -/
theorem Label.caught_of_orderly {l : Label} {e : Exc} (ho : l.orderly = true)
    (h : l.failure = some e) : e.caught = true := by
  unfold Label.orderly at ho
  split at ho
  · cases ho
  · cases ho
  · rw [h] at ho
    exact ho

/-- One orderly step keeps the account of the past: while the transport is alive, its flag and
its undelivered failures are those of the steps; once it is lost, one report explains it. -/
theorem step_past {ls : List Label} {t t' : Transport} {l : Label}
    (ho : ∀ k ∈ ls ++ [l], k.orderly = true) (hp : Past ls t) (h : step t l = some t') :
    Past (ls ++ [l]) t' := by
  have hkeeps := step_keeps h
  rw [List.forall_mem_append] at ho
  cases hp with
  | reported exc hlost hrep hwhy =>
      exact .reported exc (hkeeps.lost hlost) ((hkeeps.reports hlost).trans hrep) (hwhy.snoc l)
  | unreported hlost hrep =>
      exact .unreported (hkeeps.lost hlost) ((hkeeps.reports hlost).trans hrep)
  | live ht habort hclosing hfailing hshut =>
      have hcaught : ∀ e, Failing t e → e.caught = true := by
        intro e he
        obtain ⟨k, hk, hf⟩ := (hfailing e).1 he
        exact Label.caught_of_orderly (ho.1 k hk) hf
      cases step_outcome ht (ho.2 l (List.mem_singleton.2 rfl)) hcaught h with
      | goes hg _ hne =>
          refine .live hg.live ?_ ?_ (fun e => ?_) (fun hs => ?_)
          · simp only [List.mem_append, List.mem_singleton, not_or]
            exact ⟨habort, hne.symm⟩
          · rw [hg.closing, Bool.or_eq_true, hclosing, exists_mem_snoc]
          · rw [hg.failing, hfailing, exists_mem_snoc]
          · exact exists_mem_snoc.2 ((hg.shut hs).imp_left hshut)
      | reported _ hlost hrep hwhy =>
          refine .reported _ hlost hrep ?_
          cases hexc : receives t l with
          | some e =>
              -- what a step is told was undelivered before it
              have he : Failing t e := by
                cases l with
                | run_reader => exact .inl hexc
                | run_writer => exact .inr hexc
                | _ => cases hexc
              exact exists_mem_snoc.2 (.inl ((hfailing e).1 he))
          | none =>
              rcases hwhy hexc with rfl | ⟨hc, hs⟩
              · exact .inl (by simp)
              · exact .inr ⟨exists_mem_snoc.2 (hc.imp_left hclosing.1),
                  exists_mem_snoc.2 (.inl (hshut hs))⟩
      | unreported _ _ hlost hrep => exact .unreported hlost hrep

/-- An orderly run keeps it. -/
theorem run_past {buffered : Bool} {ls : List Label} {t : Transport}
    (h : run step (init buffered) ls = some t) (ho : ∀ l ∈ ls, l.orderly = true) :
    Past ls t := by
  refine @run_inv_past _ _ step (fun ls t => (∀ l ∈ ls, l.orderly = true) → Past ls t)
    ?_ _ _ _ ?_ h ho
  · intro ls t l t' hp h ho
    exact step_past ho (hp (List.forall_mem_append.1 ho).1) h
  · intro _
    exact .live (.init buffered) (by simp) (by simp [init])
      (by simp [Failing, init, Reader.failure, Writer.failure]) (by simp [init, Writer.shut])

/-- Any run, orderly or not, keeps what every step keeps. -/
theorem run_keeps {t t' : Transport} {ls : List Label} (h : run step t ls = some t') :
    Keeps t t' :=
  run_inv step (fun _ _ _ hk hs => hk.trans (step_keeps hs)) (Keeps.refl t) h

/-- A loop that was told of a failure before anything was reported made it the
report. -/
def Heard (buffered : Bool) (ls : List Label) (exc : Option Exc) : Prop :=
  ∀ pre l post u e, ls = pre ++ l :: post → run step (init buffered) pre = some u →
    reports u.log = [] → receives u l = some e → exc = some e

/-- Behind a report there is the moment at which the transport heard of it. -/
theorem heard_of_reported {buffered : Bool} {ls : List Label} {t : Transport} {exc : Option Exc}
    (h : run step (init buffered) ls = some t) (ho : ∀ l ∈ ls, l.orderly = true)
    (hrep : reports t.log = [exc]) : Heard buffered ls exc := by
  rintro pre l post u e rfl hpre hnone hrec
  obtain ⟨u', hpre', hpost⟩ := (run_append_eq_some step).1 h
  obtain rfl : u = u' := Option.some.inj (hpre.symm.trans hpre')
  obtain ⟨v, hv, hrest⟩ := (run_cons_eq_some step).1 hpost
  have hkeeps := run_keeps hrest
  obtain ⟨hopre, holpost⟩ := List.forall_mem_append.1 ho
  cases run_past hpre hopre with
  | reported exc' _ hrep' _ =>
      rw [hnone] at hrep'
      cases hrep'
  | unreported hlost _ =>
      -- lost without a report: there is none at the end either
      have hsame := (run_keeps hpost).reports hlost
      rw [hnone, hrep] at hsame
      cases hsame
  | live ht _ _ hfailing _ =>
      have hcaught : ∀ e, Failing u e → e.caught = true := by
        intro e he
        obtain ⟨k, hk, hf⟩ := (hfailing e).1 he
        exact Label.caught_of_orderly (hopre k hk) hf
      cases step_outcome ht (holpost l List.mem_cons_self) hcaught hv with
      | goes _ hrec' _ =>
          rw [hrec] at hrec'
          cases hrec'
      | reported _ hlost hrep' _ =>
          have hsame := hkeeps.reports hlost
          rw [hrep, hrep', hrec, List.cons.injEq] at hsame
          exact hsame.1
      | unreported hl _ _ _ =>
          subst hl
          cases hrec

/-- `abort()` finds the two tasks there (or nothing left to do). -/
def built (t : Transport) : Label → Bool
  | .call .abort => t.lost || decide (t.reader ≠ .unborn)
  | _ => true

/-- An `abort()` of a transport that is lost or has its tasks does not come too early. -/
theorem built_of_lost {t : Transport} {l : Label} (h : t.lost = true ∨ t.reader ≠ .unborn) :
    built t l = true := by
  unfold built
  split
  · simpa using h
  · rfl

/-- Only `abort()` can come too early. -/
theorem built_of_ne {t : Transport} {l : Label} (h : l ≠ .call .abort) : built t l = true := by
  unfold built
  split
  · contradiction
  · rfl

/-- Alive, or lost with or without a report: all that `_lose` has to go by. -/
def Settled (t : Transport) : Prop :=
  (Live t ∧ ∀ e, Failing t e → e.caught = true) ∨ t.lost = true

/-- An orderly step leaves the transport alive, or lost. -/
theorem step_settled {t t' : Transport} {l : Label} (ho : l.orderly = true) (ht : Settled t)
    (h : step t l = some t') : Settled t' := by
  rcases ht with ⟨ht, hcaught⟩ | hlost
  · cases step_outcome ht ho hcaught h with
    | goes hg _ _ =>
        refine .inl ⟨hg.live, fun e he => ?_⟩
        rcases (hg.failing e).1 he with he | he
        · exact hcaught e he
        · exact Label.caught_of_orderly ho he
    | reported _ hlost _ _ => exact .inr hlost
    | unreported _ _ hlost _ => exact .inr hlost
  · exact .inr ((step_keeps h).lost hlost)

/-- Only an `abort()` in `connection_made` loses the transport without a report. -/
theorem step_reported_iff {t t' : Transport} {l : Label} (ho : l.orderly = true)
    (ht : Settled t) (h : step t l = some t') :
    ¬ (t'.lost = true ∧ reports t'.log = [])
      ↔ ¬ (t.lost = true ∧ reports t.log = []) ∧ built t l = true := by
  rcases ht with ⟨ht, hcaught⟩ | hlost
  · have hl := ht.lost
    cases step_outcome ht ho hcaught h with
    | goes hg _ hne => simp [hg.live.lost, hl, built_of_ne hne]
    | reported hborn _ hrep _ => simp [hl, hrep, built_of_lost (.inr hborn)]
    | unreported hab hborn hlost' hrep =>
        subst hab
        simp [hlost', hrep, built, hl, hborn]
  · have hk := step_keeps h
    simp [hk.lost hlost, hk.reports hlost, hlost, built_of_lost (.inl hlost)]

/-- A loop with nothing to do has been told of everything. -/
theorem Reader.failure_of_idle {r : Reader} (h : r.idle = true) : r.failure = none := by
  unfold Reader.idle at h
  split at h
  · rfl
  · rfl
  · cases h

/-- The same for the write loop. -/
theorem Writer.failure_of_idle {w : Writer} (h : w.idle = true) : w.failure = none := by
  unfold Writer.idle at h
  split at h
  · rfl
  · rfl
  · cases h

/-- A live transport that was asked to end is not at rest. -/
theorem Live.not_quiescent {t : Transport} (ht : Live t)
    (h : t.closing = true ∨ ∃ e, Failing t e) : quiescent t = false := by
  by_contra hq
  simp only [quiescent, Bool.not_eq_false, Bool.and_eq_true] at hq
  obtain ⟨hr, hw⟩ := hq
  rcases h with hc | ⟨e, he⟩
  · have hend := ht.ended hc
    unfold Writer.idle at hw
    split at hw
    -- asleep, it would not have seen the flag; ended, nobody would report
    · rename_i hwait
      have := (ht.awake hwait).2.2
      rw [hc] at this
      cases this
    · rename_i hended
      rw [hended] at hend
      exact hend rfl
    · cases hw
  · rcases he with he | he
    · rw [Reader.failure_of_idle hr] at he
      cases he
    · rw [Writer.failure_of_idle hw] at he
      cases he

/-- The end is reported once at most: with the failure a loop was told of first, and
with none only after an `abort()`, or a close whose shutdown succeeded. In a quiescent
state after `close()`, `abort()` or a failure it has been reported exactly if no `abort()`
came before there were tasks to cancel. -/
theorem reported_iff_built {buffered : Bool} {ls : List Label} {t : Transport}
    (h : run step (init buffered) ls = some t) (ho : ∀ l ∈ ls, l.orderly = true) :
    (reports t.log = [] ∨ ∃ exc, reports t.log = [exc] ∧ Explains ls exc ∧ Heard buffered ls exc)
    ∧ (quiescent t = true → (∃ l ∈ ls, l.ends = true) →
        (reports t.log ≠ [] ↔ Meets step (fun t l => built t l = true) (init buffered) ls)) := by
  have hpast := run_past h ho
  have hinit : Settled (init buffered) :=
    .inl ⟨.init buffered, by simp [Failing, init, Reader.failure, Writer.failure]⟩
  have hiff := meets_iff_of_forall step (fun _ _ _ => step_settled)
    (fun _ _ _ => step_reported_iff) ho hinit h
  refine ⟨?_, fun hq hends => ?_⟩
  · cases hpast with
    | live ht => exact .inl ht.silent
    | reported exc _ hrep hwhy => exact .inr ⟨exc, hrep, hwhy, heard_of_reported h ho hrep⟩
    | unreported _ hrep => exact .inl hrep
  -- a transport at rest after all that is lost
  · have hlost : t.lost = true := by
      cases hpast with
      | reported _ hlost _ _ => exact hlost
      | unreported hlost _ => exact hlost
      | live ht habort hclosing hfailing _ =>
          obtain ⟨l, hl, he⟩ := hends
          have hasked : t.closing = true ∨ ∃ e, Failing t e := by
            unfold Label.ends at he
            split at he
            · exact .inl (hclosing.2 ⟨_, hl, rfl⟩)
            · exact absurd hl habort
            · obtain ⟨e, he⟩ := Option.isSome_iff_exists.1 he
              exact .inr ⟨e, (hfailing e).2 ⟨l, hl, he⟩⟩
          rw [ht.not_quiescent hasked] at hq
          cases hq
    simpa [hlost, init] using hiff

/-- A protocol that calls `abort()` in `connection_made`, and catches the
`AttributeError` that it gets. -/
def abort_when_made : List Label :=
  [.call .abort, .made, .run_reader, .run_writer, .shutdown_done (.ok ()), .run_writer,
    .read_done (.ok []), .run_reader, .returns (.keep_open false)]

/-- For such a protocol the condition fails: the transport is lost and at rest, and
`connection_lost` never comes. `_streams` makes every transport of the package, with an
`asyncio.StreamReaderProtocol`, whose `connection_made` does not abort. -/
example :
    ∃ t, run step (init false) abort_when_made = some t
      ∧ (∀ l ∈ abort_when_made, l.orderly = true) ∧ quiescent t = true
      ∧ (∃ l ∈ abort_when_made, l.ends = true) ∧ t.losing = [] ∧ reports t.log = [] :=
  ⟨_, rfl, by decide, by decide, ⟨.call .abort, .head _, rfl⟩, rfl, by decide⟩

/-- **The end is reported once.** In every orderly run in which `connection_made` does
not abort the transport, `connection_lost` is scheduled once at most: with the failure a
loop was told of first, and with none only after an `abort()`, or a close whose shutdown
succeeded. In every quiescent state after `close()`, `abort()` or a failure it has been
scheduled. -/
theorem connection_lost_scheduled_once {buffered : Bool} {ls : List Label} {t : Transport}
    (h : run step (init buffered) ls = some t) (ho : ∀ l ∈ ls, l.orderly = true)
    (hb : Meets step (fun t l => built t l = true) (init buffered) ls) :
    (reports t.log = [] ∨ ∃ exc, reports t.log = [exc] ∧ Explains ls exc ∧ Heard buffered ls exc)
    ∧ (quiescent t = true → (∃ l ∈ ls, l.ends = true) →
        ∃ exc, reports t.log = [exc] ∧ Explains ls exc ∧ Heard buffered ls exc) := by
  obtain ⟨honce, hiff⟩ := reported_iff_built h ho
  refine ⟨honce, ?_⟩
  intro hq hends
  exact honce.resolve_left ((hiff hq hends).2 hb)

/-- `close()` while a write is in flight, and a shutdown that fails. -/
def close_then_failure : List Label :=
  [.made, .run_reader, .run_writer, .call (.write (.ofBytes [1])), .run_writer, .call .close,
    .write_done (.ok ()), .run_writer, .shutdown_done (.error .os_error), .run_writer,
    .run_reader, .run_lost]

theorem connection_lost_scheduled_once_failure :
    ∃ t, run step (init false) close_then_failure = some t ∧ quiescent t = true
      ∧ reports t.log = [some .os_error]
      ∧ ∃ exc, reports t.log = [exc] ∧ Explains close_then_failure exc
          ∧ Heard false close_then_failure exc := by
  have h := @connection_lost_scheduled_once false close_then_failure _ rfl (by decide) (by decide)
  exact ⟨_, rfl, by decide, by decide, h.2 (by decide) ⟨.call .close, by simp
    [close_then_failure], rfl⟩⟩

end ZmuxPy.CarrierTransport
