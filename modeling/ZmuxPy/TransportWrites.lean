/-
What a `_CarrierTransport` (`python/zmux/_layer.py`) writes to its carrier: every write
that it took, once, in order, and before the shutdown.

The argument is one invariant over the history (`Inv`). Everything but a taken `write`
and the write loop's own steps leaves it alone (`Frame`).
-/
import ZmuxPy.TransportSteps

set_option autoImplicit false

namespace ZmuxPy.CarrierTransport

open Machine Asyncio

/-! ## What reaches the carrier

Three lists are read off the log: what `write()` took, what the write loop began on the
carrier, and what the carrier completed. The queue is the difference of the first two and, as
long as the loop lives, the write in flight that of the last two. -/

/-- Data that `write()` was given while the transport was neither closing nor at
its end, and that was not empty. -/
def Event.accepted : Event → Option Bytes
  | .write_called data false false => if data.items = 0 then none else some data.bytes
  | _ => none

/-- The argument of a `CarrierStream.write`. -/
def Event.written : Event → Option Bytes
  | .write data => some data
  | _ => none

/-- A `CarrierStream.write` that was done without an error. -/
def Event.completed : Event → Option Bytes
  | .wrote data true => some data
  | _ => none

/-- The data of the writes that the transport took. -/
def accepted (log : List Event) : List Bytes := log.filterMap Event.accepted
/-- The data of the writes that it began on the carrier, -/
def written (log : List Event) : List Bytes := log.filterMap Event.written
/-- and of those that the carrier completed. -/
def completed (log : List Event) : List Bytes := log.filterMap Event.completed

/-- An event that has no part in the order of the writes. -/
structure Event.Neutral (e : Event) : Prop where
  accepted : e.accepted = none
  written : e.written = none
  completed : e.completed = none
  not_shutdown : e ≠ .shutdown

/-- A filter of a log that has grown by one event. -/
theorem filterMap_snoc {α β : Type} (f : α → Option β) (l : List α) (e : α) :
    (l ++ [e]).filterMap f = l.filterMap f ++ (f e).toList := by
  rw [List.filterMap_append]
  cases h : f e <;> simp [h]

@[simp] theorem accepted_snoc (l : List Event) (e : Event) :
    accepted (l ++ [e]) = accepted l ++ e.accepted.toList := filterMap_snoc _ l e

@[simp] theorem written_snoc (l : List Event) (e : Event) :
    written (l ++ [e]) = written l ++ e.written.toList := filterMap_snoc _ l e

@[simp] theorem completed_snoc (l : List Event) (e : Event) :
    completed (l ++ [e]) = completed l ++ e.completed.toList := filterMap_snoc _ l e

/-- Events that a filter does not see leave what it has collected as it was. -/
theorem filterMap_append_none {α β : Type} {f : α → Option β} {l es : List α}
    (h : ∀ e ∈ es, f e = none) : (l ++ es).filterMap f = l.filterMap f := by
  rw [List.filterMap_append, List.filterMap_eq_nil_iff.2 h, List.append_nil]

/-- The write that was begun and has not completed. -/
def Writer.in_flight : Writer → List Bytes
  | .write _ (.done (.ok _)) => []
  | .write data _ => [data]
  | _ => []

/-- Whether the write loop can still write. -/
inductive Stage where
  | writing
  | shutdown
  | ended
  deriving DecidableEq, Repr

/-- The stage of a writer. Only a writer in its shutdown, or past it, is not writing. -/
def Writer.stage : Writer → Stage
  | .shutdown _ => .shutdown
  | .ended _ => .ended
  | _ => .writing

/-! ### Steps that leave the writes alone

Everything but an accepted `write` and the write loop's own steps: it may wake or
cancel the write loop and set the flags, but it keeps the queue, what is in
flight and the order of the writes. -/

/-- `t'` differs from `t` in nothing that the writes depend on, except that the log may have
neutral events more and the writer's task may have been woken or cancelled. -/
structure Frame (t t' : Transport) : Prop where
  queue : t'.queue = t.queue
  eof : t.eof = true → t'.eof = true
  closing : t.closing = true → t'.closing = true
  in_flight : t'.writer.in_flight = t.writer.in_flight
  stage : t'.writer.stage = t.writer.stage
  log : ∃ es, t'.log = t.log ++ es ∧ ∀ e ∈ es, e.Neutral

/-- Nothing happened. -/
theorem Frame.refl (t : Transport) : Frame t t :=
  ⟨rfl, id, id, rfl, rfl, [], (List.append_nil _).symm, by simp⟩

/-- Two such changes are one. -/
theorem Frame.trans {t u v : Transport} (h₁ : Frame t u) (h₂ : Frame u v) : Frame t v := by
  obtain ⟨es₁, hl₁, hn₁⟩ := h₁.log
  obtain ⟨es₂, hl₂, hn₂⟩ := h₂.log
  refine ⟨h₂.queue.trans h₁.queue, fun h => h₂.eof (h₁.eof h), fun h => h₂.closing (h₁.closing h),
    h₂.in_flight.trans h₁.in_flight, h₂.stage.trans h₁.stage, es₁ ++ es₂, ?_, ?_⟩
  · rw [hl₂, hl₁, List.append_assoc]
  · exact List.forall_mem_append.2 ⟨hn₁, hn₂⟩

/-- A neutral event is recorded. -/
theorem Frame.record {t t' : Transport} {e : Event} (h : Frame t t') (he : e.Neutral) :
    Frame t (record t' e) :=
  h.trans ⟨rfl, id, id, rfl, rfl, [e], rfl, by simpa using he⟩

/-- Setting a flag. -/
theorem Frame.of_flag {t t' : Transport} (hq : t'.queue = t.queue)
    (he : t.eof = true → t'.eof = true) (hc : t.closing = true → t'.closing = true)
    (hw : t'.writer = t.writer) (hl : t'.log = t.log) : Frame t t' :=
  ⟨hq, he, hc, by rw [hw], by rw [hw], [], by rw [hl, List.append_nil], by simp⟩

/-- A change of fields the write loop does not look at. -/
theorem Frame.of_eq {t t' : Transport} (hq : t'.queue = t.queue) (he : t'.eof = t.eof)
    (hc : t'.closing = t.closing) (hw : t'.writer = t.writer) (hl : t'.log = t.log) :
    Frame t t' :=
  .of_flag hq (fun h => he ▸ h) (fun h => hc ▸ h) hw hl

/-- Waking the write loop changes none of the writes; -/
theorem set_wake_frame (t : Transport) : Frame t (set_wake t) := by
  unfold set_wake
  refine ⟨rfl, id, id, ?_, ?_, [], (List.append_nil _).symm, by simp⟩
  · split
    · rename_i h
      rw [h]
      rfl
    · rfl
  · split
    · rename_i h
      rw [h]
      rfl
    · rfl

/-- neither does waking the read loop, -/
theorem set_reading_frame (t : Transport) : Frame t (set_reading t) :=
  .of_eq rfl rfl rfl rfl rfl

/-- nor cancelling it, -/
theorem cancel_reader_frame (t : Transport) : Frame t (cancel_reader t) := by
  unfold cancel_reader
  split
  · exact .refl t
  · exact .refl t
  all_goals exact .of_eq rfl rfl rfl rfl rfl

/-- nor cancelling the write loop, whose write stays in flight until its task is run, -/
theorem cancel_writer_frame (t : Transport) : Frame t (cancel_writer t) := by
  have hnil : t.log = t.log ++ [] := (List.append_nil _).symm
  unfold cancel_writer
  split
  · exact .refl t
  · exact .refl t
  · rename_i f hw
    exact ⟨rfl, id, id, by rw [hw]; rfl, by rw [hw]; rfl, [], hnil, by simp⟩
  · rename_i data f hw
    refine ⟨rfl, id, id, ?_, by rw [hw]; rfl, [], hnil, by simp⟩
    rw [hw]
    cases f <;> rfl
  · rename_i f hw
    exact ⟨rfl, id, id, by rw [hw]; rfl, by rw [hw]; rfl, [], hnil, by simp⟩
  · exact .of_eq rfl rfl rfl rfl rfl

/-- nor both, as `_lose` does. -/
theorem cancel_others_frame (t : Transport) (cur : Option Side) :
    Frame t (cancel_others t cur) := by
  unfold cancel_others
  split
  · exact cancel_writer_frame t
  · exact cancel_reader_frame t
  · exact (cancel_reader_frame t).trans (cancel_writer_frame _)

/-- Reporting the end is a neutral event. -/
theorem schedule_lost_frame (t : Transport) (exc : Option Exc) :
    Frame t (schedule_lost t exc) :=
  Frame.record (.of_eq rfl rfl rfl rfl rfl) ⟨rfl, rfl, rfl, by simp⟩

/-- So `_lose` leaves the writes alone: what is queued stays queued. -/
theorem lose_frame (t : Transport) (cur : Option Side) (exc : Option Exc) :
    Frame t (lose t cur exc) := by
  have hflags : Frame t { t with lost := true, closing := true } :=
    .of_flag rfl id (fun _ => rfl) rfl rfl
  unfold lose
  split
  · exact .refl t
  · split
    · exact hflags
    · exact (hflags.trans (cancel_others_frame _ cur)).trans (schedule_lost_frame _ exc)

/-- `close()` sets a flag and wakes the loop; the queue stays. -/
theorem close_frame (t : Transport) (cur : Option Side) : Frame t (close t cur) := by
  have hflag : Frame t { t with closing := true } := .of_flag rfl id (fun _ => rfl) rfl rfl
  have hset := hflag.trans (set_wake_frame _)
  unfold close
  split
  · exact .refl t
  · split
    · exact hset.trans (lose_frame _ cur none)
    · exact hset

/-- Nothing that the read loop calls is about writes. -/
theorem Event.neutral_of_reader {e : Event} (h : e.of_reader = true) : e.Neutral := by
  cases e with
  | read | data_received _ | buffer_updated _ | eof_received => exact ⟨rfl, rfl, rfl, by simp⟩
  | _ => cases h

/-- The read loop leaves the writes alone. -/
theorem ReaderDoes.frame {t t' : Transport} {o : Option Exc} (h : ReaderDoes t o t') :
    Frame t t' := by
  have hloop : ∀ (u : Transport) (r : Reader) (mark : Bool),
      Frame u { u with reader := r, reader_must_cancel := mark } :=
    fun _ _ _ => .of_eq rfl rfl rfl rfl rfl
  cases h with
  | moves r mark => exact hloop t r mark
  | calls r mark e _ he => exact (hloop t r mark).record (Event.neutral_of_reader he)
  | raised mark e =>
      have hmark := hloop t t.reader mark
      unfold reader_raised
      dsimp only
      split
      · exact (hmark.trans (lose_frame _ _ _)).trans (hloop _ _ _)
      · exact hmark.trans (hloop _ _ _)
  | closes => exact (close_frame t _).trans (hloop _ _ _)

/-! ### The invariant

The last field says what the order of the log shows: at the first `shutdown`, all that had been
accepted was completed, and what comes after it is neutral. -/

/-- The state of the writes: what was accepted was written or is queued, what was
written has completed or is in flight; and the shutdown came after all of that. -/
structure Inv (t : Transport) : Prop where
  queue : accepted t.log = written t.log ++ t.queue
  flight : t.writer.stage ≠ .ended → written t.log = completed t.log ++ t.writer.in_flight
  writing : t.writer.stage = .writing → .shutdown ∉ t.log
  shutdown : .shutdown ∈ t.log → (t.eof = true ∨ t.closing = true) ∧
    ∃ pre post, t.log = pre ++ .shutdown :: post ∧ .shutdown ∉ pre
      ∧ completed pre = accepted pre ∧ ∀ e ∈ post, e.Neutral

/-- Neutral events add no accepted write, -/
theorem accepted_append {l es : List Event} (h : ∀ e ∈ es, e.Neutral) :
    accepted (l ++ es) = accepted l := filterMap_append_none fun e he => (h e he).accepted

/-- none begun -/
theorem written_append {l es : List Event} (h : ∀ e ∈ es, e.Neutral) :
    written (l ++ es) = written l := filterMap_append_none fun e he => (h e he).written

/-- and none completed. -/
theorem completed_append {l es : List Event} (h : ∀ e ∈ es, e.Neutral) :
    completed (l ++ es) = completed l := filterMap_append_none fun e he => (h e he).completed

/-- What holds of the writes survives every change that leaves them alone. -/
theorem Inv.frame {t t' : Transport} (hs : Inv t) (hf : Frame t t') : Inv t' := by
  obtain ⟨es, hl, hn⟩ := hf.log
  have hmem : .shutdown ∈ t'.log ↔ .shutdown ∈ t.log := by
    rw [hl, List.mem_append]
    exact or_iff_left fun h => (hn _ h).not_shutdown rfl
  refine ⟨?_, ?_, ?_, ?_⟩
  · rw [hl, accepted_append hn, written_append hn, hf.queue]
    exact hs.queue
  -- neutral events are invisible to the three projections
  · rw [hl, written_append hn, completed_append hn, hf.in_flight, hf.stage]
    exact hs.flight
  · rw [hmem, hf.stage]
    exact hs.writing
  · rw [hmem]
    intro h
    obtain ⟨hflag, pre, post, hlog, hpre, hcomp, hpost⟩ := hs.shutdown h
    refine ⟨hflag.imp hf.eof hf.closing, pre, post ++ es, ?_, hpre, hcomp, ?_⟩
    · rw [hl, hlog, List.append_assoc, List.cons_append]
    · exact List.forall_mem_append.2 ⟨hpost, hn⟩

/-- All that was written has completed, and the loop is about to look for more. -/
structure Ready (t : Transport) : Prop where
  queue : accepted t.log = written t.log ++ t.queue
  flight : written t.log = completed t.log
  no_shutdown : .shutdown ∉ t.log

/-- Between two operations of the carrier, everything taken off the queue has completed. -/
theorem Inv.ready {t : Transport} (hs : Inv t) (hst : t.writer.stage = .writing)
    (hf : t.writer.in_flight = []) : Ready t := by
  refine ⟨hs.queue, ?_, hs.writing hst⟩
  have h := hs.flight (by simp [hst])
  rwa [hf, List.append_nil] at h

/-- Being ready is about the queue and the log only. -/
theorem Ready.congr {t t' : Transport} (h : Ready t) (hq : t'.queue = t.queue)
    (hl : t'.log = t.log) : Ready t' := by
  obtain ⟨h1, h2, h3⟩ := h
  refine ⟨?_, ?_, ?_⟩ <;> simp only [hq, hl] <;> assumption

/-- A write is in flight from its call on, even if its task is cancelled in the same turn. -/
theorem suspend_in_flight (data : Bytes) (mark : Bool) :
    (Writer.write data (.suspend mark)).in_flight = [data] := by
  cases mark <;> rfl

/-- The shutdown is called with nothing queued and nothing in flight. -/
theorem shutdown_call_inv {t : Transport} (h : Ready t) (hq : t.queue = [])
    (hflag : t.eof = true ∨ t.closing = true) : Inv (shutdown_call t) := by
  -- nothing queued and nothing in flight: all that was accepted has completed
  have hall : completed t.log = accepted t.log := by
    rw [h.queue, hq, List.append_nil, h.flight]
  refine ⟨?_, ?_, ?_, ?_⟩
  · simpa [shutdown_call, record, Event.accepted, Event.written] using h.queue
  · intro _
    simpa [shutdown_call, record, Event.completed, Event.written, Writer.in_flight]
      using h.flight
  · intro hst
    cases hst
  · exact fun _ => ⟨hflag, t.log, [], rfl, h.no_shutdown, hall, by simp⟩

/-- The top of the loop: the next write, the shutdown, or a wait. -/
theorem writer_top_inv {t : Transport} (h : Ready t) : Inv (writer_top t) := by
  have hns := h.no_shutdown
  unfold writer_top
  split
  · rename_i hq
    split
    · rename_i hflag
      exact shutdown_call_inv h hq (by simpa using hflag)
    · refine ⟨h.queue, fun _ => ?_, fun _ => hns, fun hm => absurd hm hns⟩
      rw [h.flight]
      exact (List.append_nil _).symm
  · rename_i data rest hq
    have hne : Event.shutdown ∉ t.log ++ [.write data] := by simp [hns]
    refine ⟨?_, fun _ => ?_, fun _ => hne, fun hm => absurd hm hne⟩
    · have := h.queue
      rw [hq] at this
      simpa [record, Event.accepted, Event.written] using this
    · simpa [record, suspend_in_flight, Event.completed, Event.written] using h.flight

/-- The loop may end anywhere; nothing is written afterwards. -/
theorem end_writer_inv {t : Transport} (hs : Inv t) (e : Ended) : Inv (end_writer t e) :=
  ⟨hs.queue, fun h => absurd rfl h, (fun h => by cases h), hs.shutdown⟩

/-- An exception ends the loop, through `_lose` if it is one of the three. -/
theorem writer_raised_inv {t : Transport} (hs : Inv t) (r : Raised) :
    Inv (writer_raised t r) := by
  unfold writer_raised
  split
  · exact end_writer_inv hs _
  · split
    · exact end_writer_inv (hs.frame (lose_frame t _ _)) _
    · exact end_writer_inv hs _

/-- `resume_writing` comes between two writes and is not one. -/
theorem check_low_inv {t : Transport} (h : Ready t) : Inv (check_low t) := by
  unfold check_low
  split
  · have hne : Event.shutdown ∉ t.log ++ [.resume_writing] := by simp [h.no_shutdown]
    refine ⟨?_, fun _ => ?_, fun _ => hne, fun hm => absurd hm hne⟩
    · simpa [record, Event.accepted, Event.written] using h.queue
    · simpa [record, Event.completed, Event.written, Writer.in_flight] using h.flight
  · exact writer_top_inv h

/-- The shutdown came back, and was the last thing the loop did on the carrier. -/
theorem shutdown_returned_inv {t : Transport} (hs : Inv t) (r : Except Exc Unit) :
    Inv (shutdown_returned t r) := by
  unfold shutdown_returned
  split
  · split
    · exact end_writer_inv (hs.frame (lose_frame t _ _)) _
    · exact end_writer_inv hs _
  · exact writer_raised_inv hs _

/-- A turn of the write loop keeps the order of the writes. -/
theorem run_writer_inv {t t' : Transport} (hs : Inv t) (h : run_writer t = some t') :
    Inv t' := by
  have hmark : Frame t { t with writer_must_cancel := false } := .of_eq rfl rfl rfl rfl rfl
  unfold run_writer at h
  split at h
  · rename_i hw
    rw [Option.some.injEq] at h
    subst h
    split
    · exact end_writer_inv hs _
    · exact writer_top_inv (hs.ready (by rw [hw]; rfl) (by rw [hw]; rfl))
  · rename_i f hw
    obtain ⟨r, -, rfl⟩ := Option.map_eq_some_iff.1 h
    split
    · have hr := hs.ready (by rw [hw]; rfl) (by rw [hw]; rfl)
      exact writer_top_inv (hr.congr rfl rfl)
    · exact end_writer_inv hs _
  · rename_i data f hw
    obtain ⟨r, hres, rfl⟩ := Option.map_eq_some_iff.1 h
    split
    · rename_i r
      obtain ⟨rfl, -⟩ := Await.resume_eq_some hres
      cases r with
      | ok u =>
          have hr := hs.ready (by rw [hw]; rfl) (by rw [hw]; rfl)
          exact check_low_inv (hr.congr rfl rfl)
      -- the failed write stays in flight, and the loop is over
      | error e => exact writer_raised_inv (hs.frame hmark) (.exc e)
    · exact end_writer_inv hs _
  · obtain ⟨r, -, rfl⟩ := Option.map_eq_some_iff.1 h
    split
    · exact shutdown_returned_inv (hs.frame hmark) _
    · exact end_writer_inv hs _
  · cases h

/-- `write(data)` puts the data behind what is queued, or drops it once the transport is
closing or at its end of file. -/
theorem write_inv {t : Transport} (hs : Inv t) (data : Data) : Inv (write t data) := by
  unfold write
  split
  · rename_i hskip
    refine hs.frame (Frame.record (.refl t) ⟨?_, rfl, rfl, by simp⟩)
    simp only [Bool.or_eq_true, decide_eq_true_eq] at hskip
    cases hc : t.closing <;> cases he : t.eof <;> simp_all [Event.accepted]
  · rename_i htake
    simp only [Bool.or_eq_true, decide_eq_true_eq, not_or, Bool.not_eq_true] at htake
    obtain ⟨⟨hc, he⟩, hi⟩ := htake
    -- the shutdown needs a flag that a write is refused with
    have hno : Event.shutdown ∉ t.log := by
      intro hm
      have := (hs.shutdown hm).1
      simp [hc, he] at this
    have hne : Event.shutdown ∉ t.log ++ [.write_called data t.closing t.eof] := by simp [hno]
    have hrec : Inv { record t (.write_called data t.closing t.eof) with
        queue := t.queue ++ [data.bytes], queued := t.queued + data.bytes.length } := by
      refine ⟨?_, ?_, fun _ => hne, fun hm => absurd hm hne⟩
      · simp [record, Event.accepted, Event.written, hc, he, hi, hs.queue]
      · intro hst
        simpa [record, Event.completed, Event.written] using hs.flight hst
    have henq := hrec.frame (set_wake_frame _)
    unfold check_high
    split
    · exact henq.frame (Frame.record (.of_eq rfl rfl rfl rfl rfl) ⟨rfl, rfl, rfl, by simp⟩)
    · exact henq

/-- Every method of the transport keeps the order of the writes. -/
theorem call_inv {t : Transport} (hs : Inv t) (c : Call) : Inv (call t c) := by
  cases c with
  | write data => exact write_inv hs data
  | write_eof =>
      have hflag : Frame t { t with eof := true } := .of_flag rfl (fun _ => rfl) id rfl rfl
      exact hs.frame (hflag.trans (set_wake_frame _))
  | close => exact hs.frame (close_frame t _)
  | abort => exact hs.frame (lose_frame t _ _)
  | resume_reading => exact hs.frame (set_reading_frame t)
  | pause_reading | set_protocol _ | set_write_buffer_limits _ _ =>
      exact hs.frame (.of_eq rfl rfl rfl rfl rfl)

/-- A write is done: it leaves the flight, or stays in it for good. -/
theorem write_done_inv {t : Transport} {data : Bytes} (hs : Inv t)
    (hw : t.writer = .write data .pending) (r : Except Exc Unit) :
    Inv (record { t with writer := .write data (.done r) } (.wrote data r.isOk)) := by
  have hno : Event.shutdown ∉ t.log := hs.writing (by rw [hw]; rfl)
  have hne : Event.shutdown ∉ t.log ++ [.wrote data r.isOk] := by simp [hno]
  refine ⟨?_, ?_, fun _ => hne, fun hm => absurd hm hne⟩
  · simpa [record, Event.accepted, Event.written] using hs.queue
  · intro _
    have hf := hs.flight (by rw [hw]; simp [Writer.stage])
    rw [hw] at hf
    cases r <;> simpa [record, Event.completed, Event.written, Writer.in_flight, Except.isOk,
      Except.toBool] using hf

/-- One step of the transport keeps the order of the writes. -/
theorem step_inv {t t' : Transport} {l : Label} (hs : Inv t) (h : step t l = some t') :
    Inv t' := by
  have hnil : t.log = t.log ++ [] := (List.append_nil _).symm
  cases step_cases h with
  | call c => exact call_inv hs c
  | returns h =>
      rcases returns_side h with ⟨-, hr⟩ | ⟨hw, rfl⟩
      · exact hs.frame hr.frame
      · exact writer_top_inv (hs.ready (by rw [hw]; rfl) (by rw [hw]; rfl))
  | raises h =>
      rcases raises_side h with ⟨-, hr⟩ | ⟨-, rfl⟩
      · exact hs.frame hr.frame
      · exact writer_raised_inv hs _
  | cancel_reader => exact hs.frame (cancel_reader_frame t)
  | cancel_writer => exact hs.frame (cancel_writer_frame t)
  | from_loop _ h =>
      cases from_loop_cases h with
      | made hr hw =>
          exact hs.frame ⟨rfl, id, id, by rw [hw]; rfl, by rw [hw]; rfl, [], hnil, by simp⟩
      | read_done r hr => exact hs.frame (.of_eq rfl rfl rfl rfl rfl)
      | write_done data r hw => exact write_done_inv hs hw r
      | shutdown_done r hw =>
          refine hs.frame (Frame.record ?_ ⟨rfl, rfl, rfl, by simp⟩)
          exact ⟨rfl, id, id, by rw [hw]; rfl, by rw [hw]; rfl, [], hnil, by simp⟩
      | run_reader hrun => exact hs.frame (run_reader_does hrun).2.frame
      | run_writer hrun => exact run_writer_inv hs hrun
      | run_lost exc rest hl =>
          exact hs.frame (Frame.record (.of_eq rfl rfl rfl rfl rfl) ⟨rfl, rfl, rfl, by simp⟩)

/-- A new transport has written nothing. -/
theorem init_inv (buffered : Bool) : Inv (init buffered) :=
  ⟨rfl, fun _ => rfl, fun _ => by simp [init], fun h => by simp [init] at h⟩

/-- **Writes reach the carrier once each, in order, and before the end.** In every
run: the arguments of `CarrierStream.write` are a prefix of the accepted data;
and `CarrierStream.shutdown` is called once at most, when every accepted write
has completed, with no write after it. -/
theorem writes_reach_carrier_in_order {buffered : Bool} {ls : List Label} {t : Transport}
    (h : run step (init buffered) ls = some t) :
    written t.log <+: accepted t.log
    ∧ ∀ pre post, t.log = pre ++ .shutdown :: post →
        completed pre = accepted pre ∧ .shutdown ∉ pre ∧ .shutdown ∉ post
        ∧ ∀ data, .write data ∉ post := by
  have hs : Inv t := run_inv step (fun _ _ _ => step_inv) (init_inv buffered) h
  refine ⟨⟨t.queue, hs.queue.symm⟩, ?_⟩
  intro pre post hlog
  obtain ⟨-, pre', post', hlog', hpre', hcomp, hpost⟩ := hs.shutdown (by simp [hlog])
  have hnot : Event.shutdown ∉ post' := fun hm => (hpost _ hm).not_shutdown rfl
  -- The log has one `shutdown`, so the two splits are the same.
  obtain ⟨rfl, -, rfl⟩ := (List.append_cons_inj_of_notMem hpre' hnot).1 (hlog'.symm.trans hlog)
  refine ⟨hcomp, hpre', hnot, fun data hm => ?_⟩
  have hw := (hpost _ hm).written
  cases hw

/-- A write by the application, one by the protocol from `data_received`, and the
end. -/
def echo_then_eof : List Label :=
  [.made, .run_reader, .run_writer, .call (.write (.ofBytes [1, 2])), .run_writer,
    .read_done (.ok [7]), .run_reader, .call (.write (.ofBytes [3])), .call .write_eof,
    .call (.write (.ofBytes [4])), .returns .none, .write_done (.ok ()), .run_writer,
    .write_done (.ok ()), .run_writer]

theorem writes_reach_carrier_in_order_echo :
    ∃ t, run step (init false) echo_then_eof = some t
      ∧ written t.log = [[1, 2], [3]] ∧ accepted t.log = [[1, 2], [3]] ∧ .shutdown ∈ t.log
      ∧ written t.log <+: accepted t.log
      ∧ ∀ pre post, t.log = pre ++ .shutdown :: post →
        completed pre = accepted pre ∧ .shutdown ∉ pre ∧ .shutdown ∉ post
        ∧ ∀ data, .write data ∉ post :=
  ⟨_, rfl, by decide, by decide, by decide,
    @writes_reach_carrier_in_order false echo_then_eof _ rfl⟩

end ZmuxPy.CarrierTransport
