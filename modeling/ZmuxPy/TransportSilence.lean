/-
A lost `_CarrierTransport` (`python/zmux/_layer.py`): what it still calls.

`_lose` cancels the two loops, except the one it is called in. That one is trusted to
end by itself, and it does where the loop's own body calls `_lose`, or `close()` after
the end of file. It does not where the call comes from the protocol, in the middle of
`data_received`, `get_buffer`, `buffer_updated` or `resume_writing`: the loop goes on
after the callback returned. And in `connection_made` there are no loops to cancel yet.

`Mute` is the state after the other losses: each loop is over, or is resumed with a
`CancelledError` next. A mute transport stays mute and calls nothing (`Mute.step`).
-/
import ZmuxPy.TransportReading
import ZmuxPy.TransportWrites

set_option autoImplicit false

namespace ZmuxPy.CarrierTransport

open Machine Asyncio

/-! ## What is called

A step is `Silent` if nothing was called in it. `get_buffer` leaves no event, since it is the
state that the read loop is in during the call, so that the state is looked at as well. -/

/-- A call of a carrier operation or of a protocol method, but for `get_buffer`, which is
a state of the read loop, and `connection_lost`. -/
def Event.is_call : Event → Bool
  | .read | .write _ | .shutdown => true
  | .data_received _ | .buffer_updated _ | .eof_received => true
  | .pause_writing | .resume_writing => true
  | _ => false

/-- What the transport called, in order. -/
def calls (log : List Event) : List Event := log.filter Event.is_call

@[simp] theorem calls_snoc (l : List Event) (e : Event) :
    calls (l ++ [e]) = calls l ++ if e.is_call then [e] else [] := by
  simp only [calls, List.filter_append, List.filter_cons, List.filter_nil]

/-- A step in which the transport calls nothing. -/
def Silent (u v : Transport) : Prop :=
  calls v.log = calls u.log ∧ ∀ view, v.reader = .get_buffer view → u.reader = .get_buffer view

/-- A step that changes nothing is silent. -/
theorem Silent.refl (u : Transport) : Silent u u := ⟨rfl, fun _ => id⟩

/-- The event loop's calls of `connection_lost`. -/
def Event.lost_call : Event → Option (Option Exc)
  | .connection_lost exc => some exc
  | _ => none

/-- The calls of `connection_lost` that were made, with their arguments. -/
def lost_calls (log : List Event) : List (Option Exc) := log.filterMap Event.lost_call

@[simp] theorem lost_calls_snoc (l : List Event) (e : Event) :
    lost_calls (l ++ [e]) = lost_calls l ++ e.lost_call.toList := filterMap_snoc _ l e

/-! ## Where the loops are

Whether a loop is there yet, is in a call of the protocol, or was ended by an exception.
Calls of the transport's methods do not change it, and at most one of the loops is in a
call. -/

/-- Where a loop is, as coarsely as a loss can tell: not there yet, in a call of the protocol,
ended by an exception that nobody caught, or anywhere else. -/
inductive Phase where
  | unborn
  | calling
  | failed
  | other
  deriving DecidableEq, Repr

/-- The phase of the read loop. -/
def Reader.phase : Reader → Phase
  | .unborn => .unborn
  | .data_received | .get_buffer _ | .buffer_updated _ | .eof_received => .calling
  | .ended (.failed _) => .failed
  | _ => .other

/-- The phase of the write loop, whose only call of the protocol is `resume_writing`. -/
def Writer.phase : Writer → Phase
  | .unborn => .unborn
  | .resume_writing => .calling
  | .ended (.failed _) => .failed
  | _ => .other

/-- The phase tells whether the read loop's task is there, -/
theorem Reader.phase_unborn {r : Reader} : r.phase = .unborn ↔ r = .unborn := by
  cases r with
  | ended e => cases e <;> simp [Reader.phase]
  | _ => simp [Reader.phase]

/-- and whether it is in a call of the protocol. -/
theorem Reader.phase_calling {r : Reader} : r.phase = .calling ↔ r.in_call = true := by
  cases r with
  | ended e => cases e <;> simp [Reader.phase, Reader.in_call]
  | _ => simp [Reader.phase, Reader.in_call]

/-- The same for the write loop's task, -/
theorem Writer.phase_unborn {w : Writer} : w.phase = .unborn ↔ w = .unborn := by
  cases w with
  | ended e => cases e <;> simp [Writer.phase]
  | _ => simp [Writer.phase]

/-- and for its call. -/
theorem Writer.phase_calling {w : Writer} : w.phase = .calling ↔ w = .resume_writing := by
  cases w with
  | ended e => cases e <;> simp [Writer.phase]
  | _ => simp [Writer.phase]

/-- A task that a cancellation stops: it is there, and not in a call after which it goes
on. -/
def Reader.stoppable : Reader → Bool
  | .unborn | .data_received | .get_buffer _ | .buffer_updated _ => false
  | _ => true

/-- The same for the write loop. -/
def Writer.stoppable : Writer → Bool
  | .unborn | .resume_writing => false
  | _ => true

/-- A loop that is there and in no call of the protocol can be stopped. -/
theorem Reader.stoppable_of_phase {r : Reader} (hu : r.phase ≠ .unborn)
    (hc : r.phase ≠ .calling) : r.stoppable = true := by
  cases r with
  | unborn => exact absurd rfl hu
  | data_received | get_buffer _ | buffer_updated _ => exact absurd rfl hc
  | start | wait _ | read _ | eof_received | ended _ => rfl

/-- The write loop can be stopped exactly if it is there and in no call of the protocol. -/
theorem Writer.stoppable_iff {w : Writer} :
    w.stoppable = true ↔ w.phase ≠ .unborn ∧ w.phase ≠ .calling := by
  rw [Ne, Writer.phase_unborn, Ne, Writer.phase_calling]
  cases w <;> simp [Writer.stoppable]

/-- The two loops are in the phases they were in. -/
structure SamePlace (t t' : Transport) : Prop where
  reader : t'.reader.phase = t.reader.phase
  stoppable : t'.reader.stoppable = t.reader.stoppable
  writer : t'.writer.phase = t.writer.phase
  -- before its task is there, nothing can cancel the read loop
  mark : t.reader = .unborn → t'.reader_must_cancel = t.reader_must_cancel

/-- Nothing happened. -/
theorem SamePlace.refl (t : Transport) : SamePlace t t := ⟨rfl, rfl, rfl, fun _ => rfl⟩

/-- Twice the same places is once the same places. -/
theorem SamePlace.trans {t u v : Transport} (h₁ : SamePlace t u) (h₂ : SamePlace u v) :
    SamePlace t v := by
  refine ⟨h₂.reader.trans h₁.reader, h₂.stoppable.trans h₁.stoppable,
    h₂.writer.trans h₁.writer, fun hr => ?_⟩
  have hu : u.reader = .unborn := by
    rw [← Reader.phase_unborn, h₁.reader, hr]
    rfl
  exact (h₂.mark hu).trans (h₁.mark hr)

/-- Waking a loop leaves it in its phase: it is still suspended, -/
theorem set_wake_place (t : Transport) : SamePlace t (set_wake t) := by
  refine ⟨rfl, rfl, ?_, fun _ => rfl⟩
  unfold set_wake
  dsimp only
  split
  · rename_i hw
    rw [hw]
    rfl
  · rfl

/-- and so is the read loop after `_reading.set()`. -/
theorem set_reading_place (t : Transport) : SamePlace t (set_reading t) := by
  unfold set_reading
  split
  · rename_i hr
    exact ⟨by rw [hr]; rfl, by rw [hr]; rfl, rfl, fun _ => rfl⟩
  · exact ⟨rfl, rfl, rfl, fun _ => rfl⟩

/-- Cancelling a task sets a mark or cancels a future; the task itself moves later. -/
theorem cancel_reader_place (t : Transport) : SamePlace t (cancel_reader t) := by
  unfold cancel_reader
  split
  · exact .refl t
  · exact .refl t
  · rename_i f hr
    refine ⟨by rw [hr]; rfl, by rw [hr]; rfl, rfl, fun h => ?_⟩
    rw [hr] at h
    cases h
  · rename_i f hr
    refine ⟨by rw [hr]; rfl, by rw [hr]; rfl, rfl, fun h => ?_⟩
    rw [hr] at h
    cases h
  · rename_i hne _ _ _
    exact ⟨rfl, rfl, rfl, fun h => absurd h hne⟩

/-- The same for the write loop. -/
theorem cancel_writer_place (t : Transport) : SamePlace t (cancel_writer t) := by
  unfold cancel_writer
  split
  · exact .refl t
  · exact .refl t
  · rename_i f hw
    exact ⟨rfl, rfl, by rw [hw]; rfl, fun _ => rfl⟩
  · rename_i data f hw
    exact ⟨rfl, rfl, by rw [hw]; rfl, fun _ => rfl⟩
  · rename_i f hw
    exact ⟨rfl, rfl, by rw [hw]; rfl, fun _ => rfl⟩
  · exact ⟨rfl, rfl, rfl, fun _ => rfl⟩

/-- So `_lose` moves no loop, -/
theorem lose_place (t : Transport) (cur : Option Side) (exc : Option Exc) :
    SamePlace t (lose t cur exc) := by
  have hflags : SamePlace t { t with lost := true, closing := true } :=
    ⟨rfl, rfl, rfl, fun _ => rfl⟩
  have hcancel : SamePlace t (cancel_others { t with lost := true, closing := true } cur) := by
    unfold cancel_others
    split
    · exact hflags.trans (cancel_writer_place _)
    · exact hflags.trans (cancel_reader_place _)
    · exact (hflags.trans (cancel_reader_place _)).trans (cancel_writer_place _)
  unfold lose
  split
  · exact .refl t
  · split
    · exact hflags
    · exact ⟨hcancel.reader, hcancel.stoppable, hcancel.writer, hcancel.mark⟩

/-- nor does `close()`, -/
theorem close_place (t : Transport) (cur : Option Side) : SamePlace t (close t cur) := by
  have hflag : SamePlace t { t with closing := true } := ⟨rfl, rfl, rfl, fun _ => rfl⟩
  have hset := hflag.trans (set_wake_place _)
  unfold close
  split
  · exact .refl t
  · split
    · exact hset.trans (lose_place _ cur none)
    · exact hset

/-- nor `write(data)`. -/
theorem write_place (t : Transport) (data : Data) : SamePlace t (write t data) := by
  have hcalled : SamePlace t (record t (.write_called data t.closing t.eof)) :=
    ⟨rfl, rfl, rfl, fun _ => rfl⟩
  unfold write
  split
  · exact hcalled
  · have hqueue : SamePlace t
        (enqueue (record t (.write_called data t.closing t.eof)) data.bytes) := by
      refine SamePlace.trans ?_ (set_wake_place _)
      exact ⟨rfl, rfl, rfl, fun _ => rfl⟩
    unfold check_high
    split
    · exact ⟨hqueue.reader, hqueue.stoppable, hqueue.writer, hqueue.mark⟩
    · exact hqueue

/-- **No method of the transport moves a loop.** What the protocol calls from inside a callback
finds both loops where they are, and leaves them there. -/
theorem call_place (t : Transport) (c : Call) : SamePlace t (call t c) := by
  cases c with
  | write data => exact write_place t data
  | write_eof =>
      refine SamePlace.trans ?_ (set_wake_place _)
      exact ⟨rfl, rfl, rfl, fun _ => rfl⟩
  | close => exact close_place t _
  | abort => exact lose_place t _ _
  | resume_reading => exact set_reading_place t
  | pause_reading | set_protocol _ | set_write_buffer_limits _ _ =>
      exact ⟨rfl, rfl, rfl, fun _ => rfl⟩

/-- What every run keeps about the loops: they are born together, nothing marks a task before
its birth, and at most one of them is in a call of the protocol. -/
structure Sound (t : Transport) : Prop where
  unborn : t.reader.phase = .unborn ↔ t.writer.phase = .unborn
  mark : t.reader = .unborn → t.reader_must_cancel = false
  one_call : ¬ (t.reader.phase = .calling ∧ t.writer.phase = .calling)

/-- A step that moves no loop keeps this. -/
theorem Sound.same {t t' : Transport} (hs : Sound t) (h : SamePlace t t') : Sound t' := by
  refine ⟨by rw [h.reader, h.writer]; exact hs.unborn, fun hr => ?_, ?_⟩
  · have hr : t.reader = .unborn := by
      rw [← Reader.phase_unborn, ← h.reader, hr]
      rfl
    exact (h.mark hr).trans (hs.mark hr)
  · rw [h.reader, h.writer]
    exact hs.one_call

/-- A live loop is born and has not failed. -/
theorem Reader.phase_of_alive {r : Reader} (h : r.alive = true) :
    r.phase ≠ .unborn ∧ r.phase ≠ .failed := by
  cases r with
  | unborn | ended _ => cases h
  | _ => simp [Reader.phase]

/-- The same for the write loop. -/
theorem Writer.phase_of_alive {w : Writer} (h : w.alive = true) :
    w.phase ≠ .unborn ∧ w.phase ≠ .failed := by
  cases w with
  | unborn | ended _ => cases h
  | _ => simp [Writer.phase]

/-- An ordinary place is neither before the birth nor after a failure. -/
theorem Reader.phase_of_ordinary {r : Reader} (h : r.ordinary = true) :
    r.phase ≠ .unborn ∧ r.phase ≠ .failed := by
  cases r with
  | unborn => cases h
  | ended e => cases e <;> simp [Reader.phase, Reader.ordinary] at h ⊢
  | _ => simp [Reader.phase]

/-- The same for the write loop. -/
theorem Writer.phase_of_ordinary {w : Writer} (h : w.ordinary = true) :
    w.phase ≠ .unborn ∧ w.phase ≠ .failed := by
  cases w with
  | unborn => cases h
  | ended e => cases e <;> simp [Writer.phase, Writer.ordinary] at h ⊢
  | _ => simp [Writer.phase]

/-- The read loop's steps leave the write loop where it is. -/
theorem ReaderDoes.place {t t' : Transport} {o : Option Exc} (h : ReaderDoes t o t') :
    t'.reader.phase ≠ .unborn ∧ t'.writer.phase = t.writer.phase := by
  cases h with
  | moves r mark hr => exact ⟨(Reader.phase_of_ordinary hr).1, rfl⟩
  | calls r mark e hr => exact ⟨(Reader.phase_of_ordinary hr).1, rfl⟩
  | raised mark e =>
      unfold reader_raised
      dsimp only
      split
      · exact ⟨Phase.noConfusion, (lose_place _ _ _).writer⟩
      · exact ⟨Phase.noConfusion, rfl⟩
  | closes => exact ⟨Phase.noConfusion, (close_place _ _).writer⟩

/-- A step of the write loop leaves the read loop in its phase. -/
theorem WriterDoes.place {t t' : Transport} {o : Option Exc} (h : WriterDoes t o t') :
    t'.writer.phase ≠ .unborn ∧ t'.reader.phase = t.reader.phase := by
  cases h with
  | moves queued wake w mark hw => exact ⟨(Writer.phase_of_ordinary hw).1, rfl⟩
  | calls queue queued paused w mark e hw => exact ⟨(Writer.phase_of_ordinary hw).1, rfl⟩
  | raised mark e =>
      unfold writer_raised
      dsimp only
      split
      · exact ⟨Phase.noConfusion, (lose_place _ _ _).reader⟩
      · exact ⟨Phase.noConfusion, rfl⟩
  | loses mark => exact ⟨Phase.noConfusion, (lose_place _ _ _).reader⟩

/-- While the read loop has the word, the write loop is not in a call. -/
theorem Sound.writer_not_calling {t : Transport} (hs : Sound t)
    (hcur : t.reader.in_call = true ∨ current t = none) : t.writer.phase ≠ .calling := by
  intro hw
  rcases hcur with hr | hcur
  · exact hs.one_call ⟨Reader.phase_calling.2 hr, hw⟩
  · exact (current_eq_none.1 hcur).2 (Writer.phase_calling.1 hw)

/-- Where the write loop has its turn, the read loop is in no call. -/
theorem Sound.reader_not_calling {t : Transport} (hs : Sound t)
    (hcur : t.writer = .resume_writing ∨ current t = none) : t.reader.phase ≠ .calling := by
  intro hr
  rcases hcur with hw | hcur
  · exact hs.one_call ⟨hr, Writer.phase_calling.2 hw⟩
  · have hnone := (current_eq_none.1 hcur).1
    rw [Reader.phase_calling.1 hr] at hnone
    cases hnone

/-- One step keeps the loops apart: a loop gets its turn only if the other one is not in a call. -/
theorem step_sound {t t' : Transport} {l : Label} (hs : Sound t) (h : step t l = some t') :
    Sound t' := by
  cases step_does h with
  | call c => exact hs.same (call_place t c)
  | cancel_reader => exact hs.same (cancel_reader_place t)
  | cancel_writer => exact hs.same (cancel_writer_place t)
  | made => exact ⟨by simp [Reader.phase, Writer.phase], (fun hr => by cases hr),
      by simp [Reader.phase]⟩
  | read_done r hr => exact hs.same ⟨by rw [hr]; rfl, by rw [hr]; rfl, rfl, fun _ => rfl⟩
  | write_done data r hw => exact hs.same ⟨rfl, rfl, by rw [hw]; rfl, fun _ => rfl⟩
  | shutdown_done r hw => exact hs.same ⟨rfl, rfl, by rw [hw]; rfl, fun _ => rfl⟩
  | run_lost => exact hs.same ⟨rfl, rfl, rfl, fun _ => rfl⟩
  | reader hcur halive h =>
      obtain ⟨hr, hw⟩ := h.place
      have hborn : t.writer.phase ≠ .unborn :=
        fun hu => (Reader.phase_of_alive halive).1 (hs.unborn.2 hu)
      refine ⟨?_, fun hu => absurd (Reader.phase_unborn.2 hu) hr, fun hc => ?_⟩
      · rw [hw]
        exact ⟨fun hu => absurd hu hr, fun hu => absurd hu hborn⟩
      · exact hs.writer_not_calling hcur (hw.symm.trans hc.2)
  | writer hcur halive h =>
      obtain ⟨hw, hr⟩ := h.place
      have hborn : t.reader.phase ≠ .unborn :=
        fun hu => (Writer.phase_of_alive halive).1 (hs.unborn.1 hu)
      have hborn' : t'.reader.phase ≠ .unborn := by rwa [hr]
      refine ⟨?_, fun hu => absurd (Reader.phase_unborn.2 hu) hborn', fun hc => ?_⟩
      · exact ⟨fun hu => absurd hu hborn', fun hu => absurd hu hw⟩
      · exact hs.reader_not_calling hcur (hr.symm.trans hc.1)

/-- Every run does. -/
theorem run_sound {buffered : Bool} {ls : List Label} {t : Transport}
    (h : run step (init buffered) ls = some t) : Sound t := by
  have hinit : Sound (init buffered) :=
    ⟨⟨fun _ => rfl, fun _ => rfl⟩, fun _ => rfl, fun h => by cases h.1⟩
  exact run_inv step (fun _ _ _ => step_sound) hinit h

/-! ## Mute

`stops` reads off a loop and its cancellation mark that the loop ends without another call.
`Mute` asks it of both loops of a lost transport, and is what a step preserves. -/

/-- The task is over, or ends with nothing more called: a `CancelledError` is what it is
resumed with, or the call of `eof_received` is its last. -/
def Reader.stops : Reader → Bool → Bool
  | .wait .cancelled, _ | .read .cancelled, _ | .eof_received, _ | .ended _, _ => true
  | .start, mark | .wait (.done _), mark | .read (.done _), mark => mark
  | _, _ => false

/-- The same for the write loop. -/
def Writer.stops : Writer → Bool → Bool
  | .wait .cancelled, _ | .write _ .cancelled, _ | .shutdown .cancelled, _ | .ended _, _ => true
  | .start, mark | .wait (.done _), mark => mark
  | .write _ (.done _), mark | .shutdown (.done _), mark => mark
  | _, _ => false

/-- Whether a suspended task stops is a matter of the future it waits for, -/
theorem Reader.stops_wait (f : Await Unit) (mark : Bool) :
    (Reader.wait f).stops mark = f.stops mark := by
  cases f <;> rfl

/-- whichever that is; -/
theorem Reader.stops_read (f : Await (Except Exc Bytes)) (mark : Bool) :
    (Reader.read f).stops mark = f.stops mark := by
  cases f <;> rfl

/-- for the write loop as well, -/
theorem Writer.stops_wait (f : Await Unit) (mark : Bool) :
    (Writer.wait f).stops mark = f.stops mark := by
  cases f <;> rfl

/-- in a write -/
theorem Writer.stops_write (data : Bytes) (f : Await (Except Exc Unit)) (mark : Bool) :
    (Writer.write data f).stops mark = f.stops mark := by
  cases f <;> rfl

/-- and in the shutdown. -/
theorem Writer.stops_shutdown (f : Await (Except Exc Unit)) (mark : Bool) :
    (Writer.shutdown f).stops mark = f.stops mark := by
  cases f <;> rfl

/-- A lost transport both of whose loops stop by themselves. -/
structure Mute (t : Transport) : Prop where
  lost : t.lost = true
  closing : t.closing = true
  reader : t.reader.stops t.reader_must_cancel = true
  writer : t.writer.stops t.writer_must_cancel = true

/-- What stops can be stopped. -/
theorem Reader.stoppable_of_stops {r : Reader} {mark : Bool} (h : r.stops mark = true) :
    r.stoppable = true := by
  cases r with
  | unborn | data_received | get_buffer _ | buffer_updated _ => cases h
  | start | wait _ | read _ | eof_received | ended _ => rfl

/-- The same for the write loop. -/
theorem Writer.stoppable_of_stops {w : Writer} {mark : Bool} (h : w.stops mark = true) :
    w.stoppable = true := by
  cases w with
  | unborn | resume_writing => cases h
  | start | wait _ | write _ _ | shutdown _ | ended _ => rfl

/-- A task that can be stopped stops once it is cancelled, whether its future was pending or
done. -/
theorem cancel_reader_stops {t : Transport} (h : t.reader.stoppable = true) :
    (cancel_reader t).reader.stops (cancel_reader t).reader_must_cancel = true := by
  unfold cancel_reader
  cases hr : t.reader with
  | unborn | data_received | get_buffer _ | buffer_updated _ =>
      rw [hr] at h
      cases h
  | wait f => exact (Reader.stops_wait _ _).trans (Await.cancel_stops f _)
  | read f => exact (Reader.stops_read _ _).trans (Await.cancel_stops f _)
  | start | eof_received | ended _ => simp [hr, Reader.stops]

/-- The same for the write loop. -/
theorem cancel_writer_stops {t : Transport} (h : t.writer.stoppable = true) :
    (cancel_writer t).writer.stops (cancel_writer t).writer_must_cancel = true := by
  unfold cancel_writer
  cases hw : t.writer with
  | unborn | resume_writing =>
      rw [hw] at h
      cases h
  | wait f => exact (Writer.stops_wait _ _).trans (Await.cancel_stops f _)
  | write data f => exact (Writer.stops_write _ _ _).trans (Await.cancel_stops f _)
  | shutdown f => exact (Writer.stops_shutdown _ _).trans (Await.cancel_stops f _)
  | start | ended _ => simp [hw, Writer.stops]

/-- The other loop, the flags and the log. -/
theorem cancel_reader_frames (t : Transport) :
    (cancel_reader t).writer = t.writer
      ∧ (cancel_reader t).writer_must_cancel = t.writer_must_cancel
      ∧ (cancel_reader t).lost = t.lost ∧ (cancel_reader t).closing = t.closing
      ∧ (cancel_reader t).losing = t.losing ∧ (cancel_reader t).log = t.log := by
  unfold cancel_reader
  split
  all_goals exact ⟨rfl, rfl, rfl, rfl, rfl, rfl⟩

/-- Cancelling the write loop leaves everything else as it was. -/
theorem cancel_writer_frames (t : Transport) :
    (cancel_writer t).reader = t.reader
      ∧ (cancel_writer t).reader_must_cancel = t.reader_must_cancel
      ∧ (cancel_writer t).lost = t.lost ∧ (cancel_writer t).closing = t.closing
      ∧ (cancel_writer t).losing = t.losing ∧ (cancel_writer t).log = t.log := by
  unfold cancel_writer
  split
  all_goals exact ⟨rfl, rfl, rfl, rfl, rfl, rfl⟩

/-! ### A mute transport stays mute -/

/-- A mute transport stays mute and silent when the read loop ends, -/
theorem Mute.end_reader {t : Transport} (h : Mute t) (e : Ended) :
    Mute (end_reader t e) ∧ Silent t (end_reader t e) :=
  ⟨⟨h.lost, h.closing, rfl, h.writer⟩, rfl, fun view hr => by cases hr⟩

/-- and when the write loop does. -/
theorem Mute.end_writer {t : Transport} (h : Mute t) (e : Ended) :
    Mute (end_writer t e) ∧ Silent t (end_writer t e) :=
  ⟨⟨h.lost, h.closing, h.reader, rfl⟩, rfl, fun _ => id⟩

/-- Nothing is lost twice, and `close()` is over. -/
theorem Mute.lose_eq {t : Transport} (h : Mute t) (cur : Option Side) (exc : Option Exc) :
    lose t cur exc = t := if_pos h.lost

/-- `close()` on a closing transport does nothing. -/
theorem Mute.close_eq {t : Transport} (h : Mute t) (cur : Option Side) : close t cur = t :=
  if_pos h.closing

/-- An exception out of the read loop finds the transport lost, and is not reported again. -/
theorem Mute.reader_raised {t : Transport} (h : Mute t) (r : Raised) :
    Mute (reader_raised t r) ∧ Silent t (reader_raised t r) := by
  unfold CarrierTransport.reader_raised
  split
  · exact h.end_reader _
  · rw [h.lose_eq]
    split
    · exact h.end_reader _
    · exact h.end_reader _

/-- `_wake.set()` moves the write loop only out of its wait, -/
theorem set_wake_writer_same {t : Transport} (h : t.writer ≠ .wait .pending) :
    (set_wake t).writer = t.writer := by
  unfold set_wake
  dsimp only
  split
  · rename_i hw
    exact absurd hw h
  · rfl

/-- and `_reading.set()` the read loop out of its own. A wait that is cancelled is not undone
by either. -/
theorem set_reading_reader_same {t : Transport} (h : t.reader ≠ .wait .pending) :
    (set_reading t).reader = t.reader := by
  unfold set_reading
  dsimp only
  split
  · rename_i hr
    exact absurd hr h
  · rfl

/-- No method wakes a mute transport: writes are refused, and what `_lose` and `close` would do
is done. -/
theorem Mute.call {t : Transport} (h : Mute t) (c : Call) :
    Mute (call t c) ∧ Silent t (call t c) := by
  cases c with
  | write data =>
      -- a write on a closing transport is dropped, and only the history knows of it
      have hwrite : write t data = record t (.write_called data t.closing t.eof) :=
        if_pos (by simp [h.closing])
      change Mute (write t data) ∧ Silent t (write t data)
      rw [hwrite]
      refine ⟨⟨h.lost, h.closing, h.reader, h.writer⟩, ?_, fun _ => id⟩
      simp [record, Event.is_call]
  | write_eof =>
      have hne : t.writer ≠ .wait .pending := by
        intro hw
        have hstops := h.writer
        rw [hw] at hstops
        cases hstops
      have hw : (write_eof t).writer = t.writer := set_wake_writer_same hne
      exact ⟨⟨h.lost, h.closing, h.reader, hw ▸ h.writer⟩, rfl, fun _ => id⟩
  | close =>
      -- a lost transport is closing already
      have hsame : CarrierTransport.call t .close = t := h.close_eq (current t)
      rw [hsame]
      exact ⟨h, .refl t⟩
  | abort =>
      have hsame : CarrierTransport.call t .abort = t := h.lose_eq (current t) none
      rw [hsame]
      exact ⟨h, .refl t⟩
  | resume_reading =>
      have hne : t.reader ≠ .wait .pending := by
        intro hr
        have hstops := h.reader
        rw [hr] at hstops
        cases hstops
      have hr : (set_reading t).reader = t.reader := set_reading_reader_same hne
      exact ⟨⟨h.lost, h.closing, hr ▸ h.reader, h.writer⟩, rfl, fun view hv => hr ▸ hv⟩
  | pause_reading | set_protocol _ | set_write_buffer_limits _ _ =>
      exact ⟨⟨h.lost, h.closing, h.reader, h.writer⟩, rfl, fun _ => id⟩

/-- The read loop's next turn is its end: it is resumed with the `CancelledError`. -/
theorem Mute.run_reader {t t' : Transport} (h : Mute t) (hrun : run_reader t = some t') :
    Mute t' ∧ Silent t t' := by
  have hstop := h.reader
  unfold CarrierTransport.run_reader at hrun
  split at hrun
  · rename_i hr
    rw [hr] at hstop
    change t.reader_must_cancel = true at hstop
    rw [if_pos hstop, Option.some.injEq] at hrun
    exact hrun ▸ h.end_reader _
  · rename_i f hr
    rw [hr, Reader.stops_wait] at hstop
    rw [Await.resume_of_stops hstop, Option.map_some, Option.some.injEq] at hrun
    exact hrun ▸ h.end_reader _
  · rename_i f hr
    rw [hr, Reader.stops_read] at hstop
    rw [Await.resume_of_stops hstop, Option.map_some, Option.some.injEq] at hrun
    exact hrun ▸ h.end_reader _
  · cases hrun

/-- So is the write loop's. -/
theorem Mute.run_writer {t t' : Transport} (h : Mute t) (hrun : run_writer t = some t') :
    Mute t' ∧ Silent t t' := by
  have hstop := h.writer
  unfold CarrierTransport.run_writer at hrun
  split at hrun
  · rename_i hw
    rw [hw] at hstop
    change t.writer_must_cancel = true at hstop
    rw [if_pos hstop, Option.some.injEq] at hrun
    exact hrun ▸ h.end_writer _
  · rename_i f hw
    rw [hw, Writer.stops_wait] at hstop
    rw [Await.resume_of_stops hstop, Option.map_some, Option.some.injEq] at hrun
    exact hrun ▸ h.end_writer _
  · rename_i data f hw
    rw [hw, Writer.stops_write] at hstop
    rw [Await.resume_of_stops hstop, Option.map_some, Option.some.injEq] at hrun
    exact hrun ▸ h.end_writer _
  · rename_i f hw
    rw [hw, Writer.stops_shutdown] at hstop
    rw [Await.resume_of_stops hstop, Option.map_some, Option.some.injEq] at hrun
    exact hrun ▸ h.end_writer _
  · cases hrun

/-- A call of the protocol that returns in a mute transport was `eof_received`, and the loop
ends after it. -/
theorem Mute.returns {t t' : Transport} {a : Answer} (h : Mute t) (hr : returns t a = some t') :
    Mute t' ∧ Silent t t' := by
  have hreader := h.reader
  have hwriter := h.writer
  unfold CarrierTransport.returns at hr
  split at hr
  · simp only [*, Reader.stops] at hreader
    cases hreader
  · simp only [*, Reader.stops] at hreader
    cases hreader
  · simp only [*, Reader.stops] at hreader
    cases hreader
  · rw [Option.some.injEq, h.close_eq, ite_self] at hr
    exact hr ▸ h.end_reader _
  · simp only [*, Writer.stops] at hwriter
    cases hwriter
  · cases hr

/-- The same if it raises. -/
theorem Mute.raises {t t' : Transport} {r : Raised} (h : Mute t) (hr : raises t r = some t') :
    Mute t' ∧ Silent t t' := by
  unfold CarrierTransport.raises at hr
  split at hr
  · rw [Option.some.injEq] at hr
    exact hr ▸ h.reader_raised r
  · rename_i hcur
    have hwriter := h.writer
    rw [(current_eq_writer.1 hcur).2] at hwriter
    cases hwriter
  · cases hr

/-- The event loop can only run the two loops to their ends, complete what they no longer wait
for, and call `connection_lost`. -/
theorem Mute.from_loop {t t' : Transport} {l : Label} (h : Mute t)
    (hl : from_loop t l = some t') : Mute t' ∧ Silent t t' := by
  have hreader := h.reader
  have hwriter := h.writer
  cases from_loop_cases hl with
  | made hr hw | read_done _ hr =>
      rw [hr] at hreader
      cases hreader
  | write_done _ _ hw | shutdown_done _ hw =>
      rw [hw] at hwriter
      cases hwriter
  | run_reader hrun => exact h.run_reader hrun
  | run_writer hrun => exact h.run_writer hrun
  | run_lost exc rest hl =>
      refine ⟨⟨h.lost, h.closing, h.reader, h.writer⟩, ?_, fun _ => id⟩
      simp [record, Event.is_call]

/-- A mute transport stays mute, and calls nothing. -/
theorem Mute.step {t t' : Transport} {l : Label} (h : Mute t) (hs : step t l = some t') :
    Mute t' ∧ Silent t t' := by
  cases step_cases hs with
  | call c => exact h.call c
  | returns hr => exact h.returns hr
  | raises hr => exact h.raises hr
  | cancel_reader =>
      obtain ⟨hw, hm, hlost, hclosing, -, hlog⟩ := cancel_reader_frames t
      refine ⟨⟨hlost.trans h.lost, hclosing.trans h.closing,
        cancel_reader_stops (Reader.stoppable_of_stops h.reader), ?_⟩, by rw [hlog], ?_⟩
      · rw [hw, hm]
        exact h.writer
      · intro view hv
        have hstops := cancel_reader_stops (Reader.stoppable_of_stops h.reader)
        rw [hv] at hstops
        cases hstops
  | cancel_writer =>
      obtain ⟨hr, hm, hlost, hclosing, -, hlog⟩ := cancel_writer_frames t
      refine ⟨⟨hlost.trans h.lost, hclosing.trans h.closing, ?_,
        cancel_writer_stops (Writer.stoppable_of_stops h.writer)⟩, by rw [hlog], ?_⟩
      · rw [hr, hm]
        exact h.reader
      · intro view hv
        exact hr ▸ hv
  | from_loop _ hl => exact h.from_loop hl

/-- No step of any run from a mute transport calls anything. -/
theorem Mute.silent {t u v : Transport} {ms : List Label} {k : Label} (h : Mute t)
    (hrun : run CarrierTransport.step t ms = some u) (hs : CarrierTransport.step u k = some v) :
    Silent u v :=
  ((run_inv CarrierTransport.step (fun _ _ _ hm hs => (Mute.step hm hs).1) h hrun).step hs).2

/-! ## The loss

`_lose` cancels the tasks but for the one it runs in. A loop that calls it itself is at its
end; a loop in the middle of a method of the protocol, which calls `close()` or `abort()`,
is not, and nothing stops it. Hence the exception for a loss from `inside`. -/

/-- Two silent steps are silent. -/
theorem Silent.trans {u v w : Transport} (h₁ : Silent u v) (h₂ : Silent v w) : Silent u w :=
  ⟨h₂.1.trans h₁.1, fun view h => h₁.2 view (h₂.2 view h)⟩

/-- A cancellation calls nothing by itself; -/
theorem cancel_reader_silent (t : Transport) : Silent t (cancel_reader t) := by
  unfold cancel_reader
  split
  · exact .refl t
  · exact .refl t
  · exact ⟨rfl, fun view h => by cases h⟩
  · exact ⟨rfl, fun view h => by cases h⟩
  · exact ⟨rfl, fun _ => id⟩

/-- of neither task. -/
theorem cancel_writer_silent (t : Transport) : Silent t (cancel_writer t) := by
  obtain ⟨hr, -, -, -, -, hlog⟩ := cancel_writer_frames t
  exact ⟨by rw [hlog], fun view h => hr ▸ h⟩

/-- `_lose` schedules `connection_lost` and calls nothing. -/
theorem lose_silent (t : Transport) (cur : Option Side) (exc : Option Exc) :
    Silent t (lose t cur exc) := by
  have hflags : Silent t { t with lost := true, closing := true } := ⟨rfl, fun _ => id⟩
  have hcancel : Silent t (cancel_others { t with lost := true, closing := true } cur) := by
    unfold cancel_others
    split
    · exact hflags.trans (cancel_writer_silent _)
    · exact hflags.trans (cancel_reader_silent _)
    · exact (hflags.trans (cancel_reader_silent _)).trans (cancel_writer_silent _)
  unfold lose
  split
  · exact .refl t
  · split
    · exact hflags
    · refine hcancel.trans ⟨?_, fun _ => id⟩
      simp [schedule_lost, record, Event.is_call]

/-- `_lose` stops the loops that it is not called in. -/
structure Stopped (t : Transport) (cur : Option Side) (t' : Transport) : Prop where
  lost : t'.lost = true
  closing : t'.closing = true
  reader : cur ≠ some .reader → t.reader.stoppable = true →
    t'.reader.stops t'.reader_must_cancel = true
  own : cur = some .reader → t'.reader = t.reader
  writer : cur ≠ some .writer → t.writer.stoppable = true →
    t'.writer.stops t'.writer_must_cancel = true

/-- **`_lose` stops every loop but the one it is called in**, provided they are there and can
be stopped. -/
theorem lose_stopped {t : Transport} (hl : t.lost = false) (hb : t.reader ≠ .unborn)
    (cur : Option Side) (exc : Option Exc) : Stopped t cur (lose t cur exc) := by
  have hlose : lose t cur exc
      = schedule_lost (cancel_others { t with lost := true, closing := true } cur) exc := by
    unfold lose
    rw [hl]
    cases hr : t.reader with
    | unborn => exact absurd hr hb
    | _ => rfl
  have hreader := cancel_reader_frames { t with lost := true, closing := true }
  rw [hlose]
  cases cur with
  | none =>
      obtain ⟨hr, hm, hlost, hclosing, -⟩ :=
        cancel_writer_frames (cancel_reader { t with lost := true, closing := true })
      refine ⟨hlost.trans hreader.2.2.1, hclosing.trans hreader.2.2.2.1, fun _ hs => ?_,
        (fun h => by cases h), fun _ hs => ?_⟩
      · have hstops := cancel_reader_stops (t := { t with lost := true, closing := true }) hs
        change Reader.stops (cancel_writer _).reader (cancel_writer _).reader_must_cancel = true
        rw [hr, hm]
        exact hstops
      · refine cancel_writer_stops ?_
        rw [hreader.1]
        exact hs
  | some side =>
      cases side with
      | reader =>
          obtain ⟨hr, -, hlost, hclosing, -⟩ :=
            cancel_writer_frames { t with lost := true, closing := true }
          exact ⟨hlost, hclosing, fun h => absurd rfl h, fun _ => hr,
            fun _ hs => cancel_writer_stops hs⟩
      | writer =>
          exact ⟨hreader.2.2.1, hreader.2.2.2.1, fun _ hs => cancel_reader_stops hs,
            (fun h => by cases h), fun h => absurd rfl h⟩

/-- The protocol calls the transport in the middle of a loop's work, or before there are
loops. -/
def inside (t : Transport) : Label → Bool
  | .call _ => !(t.reader.stoppable && t.writer.stoppable)
  | _ => false

/-- A loss is silent; and mute after it, unless it came from `inside`. -/
structure Loses (t : Transport) (l : Label) (t' : Transport) : Prop where
  silent : Silent t t'
  closing : t'.closing = true
  mute : inside t l = false → Mute t'

/-- `_lose` called by a method, with both loops where they were. -/
theorem lose_loses {t u : Transport} {c : Call} (hs : Silent t u) (hl : u.lost = false)
    (hr : u.reader = t.reader) (hw : u.writer = t.writer) :
    Loses t (.call c) (lose u (current t) none) := by
  have hclosing : (lose u (current t) none).closing = true := by
    by_cases hb : u.reader = .unborn
    · unfold lose
      rw [hl, hb]
      rfl
    · exact (lose_stopped hl hb _ _).closing
  refine ⟨hs.trans (lose_silent u _ _), hclosing, fun hin => ?_⟩
  simp only [inside, Bool.not_eq_false', Bool.and_eq_true] at hin
  have hb : u.reader ≠ .unborn := by
    rw [hr]
    intro hu
    rw [hu] at hin
    cases hin.1
  have hcurw : current t ≠ some .writer := by
    intro hcur
    rw [(current_eq_writer.1 hcur).2] at hin
    cases hin.2
  have h := lose_stopped hl hb (current t) none
  refine ⟨h.lost, h.closing, ?_, h.writer hcurw (hw ▸ hin.2)⟩
  by_cases hcur : current t = some .reader
  · -- in the one call after which the read loop ends anyway
    have hcall := current_eq_reader.1 hcur
    rw [h.own hcur, hr]
    cases hreader : t.reader with
    | eof_received => rfl
    | data_received | get_buffer _ | buffer_updated _ =>
        rw [hreader] at hin
        cases hin.1
    | unborn | start | wait _ | read _ | ended _ =>
        rw [hreader] at hcall
        cases hcall
  · exact h.reader hcur (hr ▸ hin.1)

/-- `write(data)` never loses the transport. -/
theorem write_lost (t : Transport) (data : Data) : (write t data).lost = t.lost := by
  unfold write check_high enqueue
  split
  · rfl
  · split <;> rfl

/-- `close()` loses the transport only if the write loop is over. -/
theorem close_cases (t : Transport) (cur : Option Side) :
    (close t cur).lost = t.lost
      ∨ (∃ e, t.writer = .ended e)
        ∧ close t cur = lose (set_wake { t with closing := true }) cur none := by
  unfold close
  split
  · exact .inl rfl
  · split
    · rename_i e hw
      exact .inr ⟨⟨e, hw⟩, rfl⟩
    · exact .inl rfl

/-- The two methods that may lose the transport are `abort()`, and `close()` behind a write
loop that has ended. -/
theorem call_loses {t : Transport} {c : Call} (hl : t.lost = false)
    (hl' : (call t c).lost = true) : Loses t (.call c) (call t c) := by
  have hkeeps : (call t c).lost = t.lost → Loses t (.call c) (call t c) := by
    intro h
    rw [hl'] at h
    cases h.trans hl
  cases c with
  | write data => exact hkeeps (write_lost t data)
  | close =>
      rcases close_cases t (current t) with h | ⟨⟨e, hw⟩, h⟩
      · exact hkeeps h
      · change Loses t (.call .close) (close t (current t))
        rw [h]
        exact lose_loses ⟨rfl, fun _ => id⟩ hl rfl (set_wake_writer_same (by simp [hw]))
  | abort => exact lose_loses (.refl t) hl rfl rfl
  | write_eof | pause_reading | resume_reading | set_protocol _ | set_write_buffer_limits _ _ =>
      exact hkeeps rfl

/-- A loss in the read loop itself: the loop is over with it. -/
theorem end_reader_loses {t u : Transport} {l : Label} {exc : Option Exc} {e : Ended}
    (hsound : Sound t) (hcur : t.reader.in_call = true ∨ current t = none)
    (halive : t.reader.alive = true) (hs : Silent t u) (hl : u.lost = false)
    (hr : u.reader = t.reader) (hw : u.writer = t.writer) :
    Loses t l (end_reader (lose u (some .reader) exc) e) := by
  have hborn : t.reader ≠ .unborn := by
    intro hu
    rw [hu] at halive
    cases halive
  have hwriter : u.writer.stoppable = true := by
    rw [hw]
    refine Writer.stoppable_iff.2 ⟨?_, hsound.writer_not_calling hcur⟩
    exact fun hu => hborn (Reader.phase_unborn.1 (hsound.unborn.2 hu))
  have h := lose_stopped hl (hr ▸ hborn) (some .reader) exc
  refine ⟨⟨(hs.trans (lose_silent u _ _)).1, fun view hv => by cases hv⟩, h.closing, fun _ => ?_⟩
  exact ⟨h.lost, h.closing, rfl, h.writer (by simp) hwriter⟩

/-- A loss in the write loop's own body, which ends with it. -/
theorem end_writer_loses {t u : Transport} {l : Label} {exc : Option Exc} {e : Ended}
    (hsound : Sound t) (hcur : t.writer = .resume_writing ∨ current t = none)
    (halive : t.writer.alive = true) (hs : Silent t u) (hl : u.lost = false)
    (hr : u.reader = t.reader) :
    Loses t l (end_writer (lose u (some .writer) exc) e) := by
  have hborn : t.reader.phase ≠ .unborn := by
    intro hu
    rw [Writer.phase_unborn.1 (hsound.unborn.1 hu)] at halive
    cases halive
  have hreader : u.reader.stoppable = true := by
    rw [hr]
    exact Reader.stoppable_of_phase hborn (hsound.reader_not_calling hcur)
  have hb : u.reader ≠ .unborn := by
    rw [hr]
    exact fun hu => hborn (Reader.phase_unborn.2 hu)
  have h := lose_stopped hl hb (some .writer) exc
  have hsilent := hs.trans (lose_silent u (some .writer) exc)
  exact ⟨hsilent, h.closing, fun _ => ⟨h.lost, h.closing, h.reader (by simp) hreader, rfl⟩⟩

/-- Nothing is said of a step that does not lose the transport. -/
theorem Loses.of_lost_eq {t t' : Transport} {l : Label} (hl : t.lost = false)
    (hl' : t'.lost = true) (h : t'.lost = t.lost) : Loses t l t' := by
  rw [hl, hl'] at h
  cases h

/-- The read loop loses the transport by an exception, or by `close()` after the end of file;
it ends in the same turn. -/
theorem ReaderDoes.loses {t t' : Transport} {l : Label} {o : Option Exc} (h : ReaderDoes t o t')
    (hsound : Sound t) (hcur : t.reader.in_call = true ∨ current t = none)
    (halive : t.reader.alive = true) (hl : t.lost = false) (hl' : t'.lost = true) :
    Loses t l t' := by
  cases h with
  | moves | calls => exact .of_lost_eq hl hl' rfl
  | raised mark e =>
      by_cases hc : e.caught = true
      · rw [reader_raised, if_pos hc]
        exact end_reader_loses hsound hcur halive ⟨rfl, fun _ => id⟩ hl rfl rfl
      · rw [reader_raised, if_neg hc] at hl' ⊢
        exact .of_lost_eq hl hl' rfl
  | closes =>
      rcases close_cases t (some .reader) with h | ⟨⟨e, hw⟩, h⟩
      · exact .of_lost_eq hl hl' h
      · rw [h]
        exact end_reader_loses hsound hcur halive ⟨rfl, fun _ => id⟩ hl rfl
          (set_wake_writer_same (by simp [hw]))

/-- The write loop loses it by an exception, or after the shutdown; it ends in the same turn. -/
theorem WriterDoes.loses_transport {t t' : Transport} {l : Label} {o : Option Exc}
    (h : WriterDoes t o t') (hsound : Sound t)
    (hcur : t.writer = .resume_writing ∨ current t = none) (halive : t.writer.alive = true)
    (hl : t.lost = false) (hl' : t'.lost = true) : Loses t l t' := by
  cases h with
  | moves | calls => exact .of_lost_eq hl hl' rfl
  | raised mark e =>
      by_cases hc : e.caught = true
      · rw [writer_raised, if_pos hc]
        exact end_writer_loses hsound hcur halive ⟨rfl, fun _ => id⟩ hl rfl
      · rw [writer_raised, if_neg hc] at hl' ⊢
        exact .of_lost_eq hl hl' rfl
  | loses mark => exact end_writer_loses hsound hcur halive ⟨rfl, fun _ => id⟩ hl rfl

/-- **A loss is silent, and leaves the transport mute unless a callback of the protocol caused
it.** -/
theorem step_loses {t t' : Transport} {l : Label} (hsound : Sound t) (h : step t l = some t')
    (hl : t.lost = false) (hl' : t'.lost = true) : Loses t l t' := by
  cases step_does h with
  | call c => exact call_loses hl hl'
  | cancel_reader => exact .of_lost_eq hl hl' (cancel_reader_frames t).2.2.1
  | cancel_writer => exact .of_lost_eq hl hl' (cancel_writer_frames t).2.2.1
  | made | read_done | write_done | shutdown_done | run_lost => exact .of_lost_eq hl hl' rfl
  | reader hcur halive h => exact h.loses hsound hcur halive hl hl'
  | writer hcur halive h => exact h.loses_transport hsound hcur halive hl hl'

/-! ## One `connection_lost`

Calls that were made and calls that the event loop still has to make are counted together, so
that making one changes nothing. -/

/-- The calls of `connection_lost`, made and scheduled. -/
def announced (t : Transport) : List (Option Exc) := lost_calls t.log ++ t.losing

/-- Only a loss schedules a call. -/
def Announces (t t' : Transport) : Prop :=
  t'.lost = t.lost ∧ announced t' = announced t
    ∨ t.lost = false ∧ t'.lost = true ∧ (announced t').length ≤ (announced t).length + 1

/-- A step that records something else announces nothing. -/
theorem Announces.of_event {t t' : Transport} {e : Event} (hl : t'.lost = t.lost)
    (hlosing : t'.losing = t.losing) (hlog : t'.log = t.log ++ [e]) (he : e.lost_call = none) :
    Announces t t' := by
  refine .inl ⟨hl, ?_⟩
  simp [announced, hlog, hlosing, he]

/-- `_lose` announces once, and only if the transport was not lost. -/
theorem lose_announces (t : Transport) (cur : Option Side) (exc : Option Exc) :
    Announces t (lose t cur exc) := by
  have hlog : ∀ u : Transport, (cancel_others u cur).losing = u.losing
      ∧ (cancel_others u cur).log = u.log ∧ (cancel_others u cur).lost = u.lost := by
    intro u
    obtain ⟨-, -, hlost, -, hlosing, hlog⟩ := cancel_reader_frames u
    unfold cancel_others
    split
    · exact ⟨(cancel_writer_frames u).2.2.2.2.1, (cancel_writer_frames u).2.2.2.2.2,
        (cancel_writer_frames u).2.2.1⟩
    · exact ⟨hlosing, hlog, hlost⟩
    · obtain ⟨-, -, hlost', -, hlosing', hlog'⟩ := cancel_writer_frames (cancel_reader u)
      exact ⟨hlosing'.trans hlosing, hlog'.trans hlog, hlost'.trans hlost⟩
  unfold lose
  split
  · exact .inl ⟨rfl, rfl⟩
  · rename_i hl
    have hl : t.lost = false := Bool.eq_false_iff.2 hl
    split
    · exact .inr ⟨hl, rfl, Nat.le_succ _⟩
    · obtain ⟨hlosing, hlog, hlost⟩ := hlog { t with lost := true, closing := true }
      refine .inr ⟨hl, hlost, ?_⟩
      simp [announced, schedule_lost, record, hlosing, hlog, Event.lost_call]
      omega

/-- `close()` announces only through `_lose`. -/
theorem close_announces (t : Transport) (cur : Option Side) : Announces t (close t cur) := by
  unfold close
  split
  · exact .inl ⟨rfl, rfl⟩
  · split
    · exact lose_announces (set_wake { t with closing := true }) cur none
    · exact .inl ⟨rfl, rfl⟩

/-- The loops themselves never call `connection_lost`; the event loop does. -/
theorem Event.lost_call_of_reader {e : Event} (h : e.of_reader = true) : e.lost_call = none := by
  cases e with
  | connection_lost _ => cases h
  | _ => rfl

/-- The same for the write loop. -/
theorem Event.lost_call_of_writer {e : Event} (h : e.of_writer = true) : e.lost_call = none := by
  cases e with
  | connection_lost _ => cases h
  | _ => rfl

/-- `write(data)` announces nothing. -/
theorem write_announces (t : Transport) (data : Data) : Announces t (write t data) := by
  unfold write
  split
  · exact .of_event rfl rfl rfl rfl
  · unfold check_high
    split
    · refine .inl ⟨rfl, congrArg (· ++ t.losing) ?_⟩
      change lost_calls ((t.log ++ [_]) ++ [.pause_writing]) = lost_calls t.log
      rw [lost_calls_snoc, lost_calls_snoc]
      simp [Event.lost_call]
    · exact .of_event rfl rfl rfl rfl

/-- A step of the read loop announces at most once, -/
theorem ReaderDoes.announces {t t' : Transport} {o : Option Exc} (h : ReaderDoes t o t') :
    Announces t t' := by
  cases h with
  | moves => exact .inl ⟨rfl, rfl⟩
  | calls r mark e _ he => exact .of_event rfl rfl rfl (Event.lost_call_of_reader he)
  | raised mark e =>
      unfold reader_raised
      dsimp only
      split
      · exact lose_announces { t with reader_must_cancel := mark } _ _
      · exact .inl ⟨rfl, rfl⟩
  | closes => exact close_announces t _

/-- and so does one of the write loop. -/
theorem WriterDoes.announces {t t' : Transport} {o : Option Exc} (h : WriterDoes t o t') :
    Announces t t' := by
  cases h with
  | moves => exact .inl ⟨rfl, rfl⟩
  | calls _ _ _ _ _ e _ he => exact .of_event rfl rfl rfl (Event.lost_call_of_writer he)
  | raised mark e =>
      unfold writer_raised
      dsimp only
      split
      · exact lose_announces { t with writer_must_cancel := mark } _ _
      · exact .inl ⟨rfl, rfl⟩
  | loses mark => exact lose_announces { t with writer_must_cancel := mark } _ _

/-- Every step does. -/
theorem step_announces {t t' : Transport} {l : Label} (h : step t l = some t') :
    Announces t t' := by
  cases step_does h with
  | call c =>
      cases c with
      | write data => exact write_announces t data
      | close => exact close_announces t _
      | abort => exact lose_announces t _ _
      | write_eof | pause_reading | resume_reading | set_protocol _
      | set_write_buffer_limits _ _ => exact .inl ⟨rfl, rfl⟩
  | cancel_reader =>
      obtain ⟨-, -, hlost, -, hlosing, hlog⟩ := cancel_reader_frames t
      exact .inl ⟨hlost, by rw [announced, hlog, hlosing]; rfl⟩
  | cancel_writer =>
      obtain ⟨-, -, hlost, -, hlosing, hlog⟩ := cancel_writer_frames t
      exact .inl ⟨hlost, by rw [announced, hlog, hlosing]; rfl⟩
  | made | read_done => exact .inl ⟨rfl, rfl⟩
  | write_done | shutdown_done => exact .of_event rfl rfl rfl rfl
  | run_lost exc rest hl =>
      refine .inl ⟨rfl, ?_⟩
      simp [announced, record, Event.lost_call, hl]
  | reader _ _ h => exact h.announces
  | writer _ _ h => exact h.announces

/-- **`connection_lost` is scheduled or called at most once in a run**, and not before the loss. -/
theorem run_announced {buffered : Bool} {ls : List Label} {t : Transport}
    (h : run step (init buffered) ls = some t) : (announced t).length ≤ t.lost.toNat := by
  have hstep : ∀ t l t', (announced t).length ≤ t.lost.toNat → step t l = some t' →
      (announced t').length ≤ t'.lost.toNat := by
    intro t l t' ht hs
    rcases step_announces hs with ⟨hlost, hann⟩ | ⟨hlost, hlost', hann⟩
    · rwa [hlost, hann]
    · rw [hlost] at ht
      rw [hlost', Bool.toNat_true]
      exact Nat.le_trans hann (Nat.succ_le_succ ht)
  have hinit : (announced (init buffered)).length ≤ (init buffered).lost.toNat := Nat.le_refl 0
  exact run_inv step hstep hinit h

/-! ## A loss from inside

The exception is real: after such a loss there are runs in which the loop calls something
more. -/

/-- A transport that calls something, or may. -/
def Talks (t : Transport) : Prop :=
  ∃ ms u k v, run step t ms = some u ∧ step u k = some v ∧ ¬ Silent u v

/-- A run with a call in it shows that the transport is not silent. -/
theorem Talks.of_event {t u v : Transport} {ms : List Label} {k : Label} {e : Event}
    (hrun : run step t ms = some u) (hs : step u k = some v) (hlog : v.log = u.log ++ [e])
    (he : e.is_call = true) : Talks t := by
  refine ⟨ms, u, k, v, hrun, hs, fun hsilent => ?_⟩
  have hcalls := hsilent.1
  rw [hlog, calls_snoc, if_pos he] at hcalls
  simp at hcalls

/-- A transport lost in `connection_made` starts its loops afterwards, and the read loop reads. -/
theorem talks_unborn {t : Transport} (hs : Sound t) (hr : t.reader = .unborn) : Talks t := by
  have hw : t.writer = .unborn := by
    rw [← Writer.phase_unborn, ← hs.unborn, hr]
    rfl
  have hcur : current t = none := current_eq_none.2 ⟨by rw [hr]; rfl, by simp [hw]⟩
  have hmade : step t .made = some { t with reader := .start, writer := .start } := by
    simp [step, hcur, from_loop, hr, hw]
  have hrun : run step t [.made, .call .resume_reading]
      = some { t with reader := .start, writer := .start, reading := true } :=
    (run_cons_eq_some step).2 ⟨_, hmade, rfl⟩
  have hread : step { t with reader := .start, writer := .start, reading := true } .run_reader
      = some (read_call { t with reader := .start, writer := .start, reading := true }) := by
    simp [step, current, from_loop, run_reader, hs.mark hr, reader_top]
  exact .of_event hrun hread rfl rfl

/-- One lost in `data_received` goes to the top of the loop, and reads. -/
theorem talks_data_received {t : Transport} (hr : t.reader = .data_received) : Talks t := by
  have hrun : run step t [.call .resume_reading] = some { t with reading := true } := by
    simp [run, step, call, set_reading, hr]
  have hread : step { t with reading := true } (.returns .none)
      = some (read_call { t with reading := true }) := by
    simp [step, returns, hr, reader_top]
  exact .of_event hrun hread rfl rfl

/-- One lost in `get_buffer` copies the data and calls `buffer_updated`. -/
theorem talks_get_buffer {t : Transport} {view : Bytes} (hr : t.reader = .get_buffer view) :
    Talks t := by
  have hupdate : step t (.returns (.size 0)) = some (record
      { t with reader := .buffer_updated (view.drop 0) } (.buffer_updated (view.take 0))) := by
    simp only [step, returns, hr]
  exact .of_event (run_nil step t) hupdate rfl rfl

/-- One lost in `buffer_updated` asks for the next buffer, or reads. -/
theorem talks_buffer_updated {t : Transport} {view : Bytes}
    (hr : t.reader = .buffer_updated view) : Talks t := by
  have hrun : run step t [.call .resume_reading] = some { t with reading := true } := by
    simp [run, step, call, set_reading, hr]
  have hview : step { t with reading := true } (.returns .none)
      = some (deliver_view { t with reading := true } view) := by
    simp only [step, returns, hr]
  by_cases hnil : view = []
  · rw [deliver_view, if_pos hnil] at hview
    exact .of_event hrun hview rfl rfl
  · rw [deliver_view, if_neg hnil] at hview
    refine ⟨_, _, _, _, hrun, hview, fun hsilent => ?_⟩
    have hsame := hsilent.2 view rfl
    change t.reader = _ at hsame
    rw [hr] at hsame
    cases hsame

/-- The write loop shuts the carrier down, or writes what is queued. -/
theorem talks_resume_writing {t : Transport} (hr : t.reader.in_call = false)
    (hw : t.writer = .resume_writing) (hc : t.closing = true) : Talks t := by
  have hstep : step t (.returns .none) = some (writer_top t) := returns_resume_writing hr hw
  unfold writer_top at hstep
  split at hstep
  · rw [hc, Bool.or_true, if_pos rfl] at hstep
    exact .of_event (run_nil step t) hstep rfl rfl
  · exact .of_event (run_nil step t) hstep rfl rfl

/-- A closing transport with a loop that a cancellation does not stop. -/
theorem talks_of_not_stoppable {t : Transport} (hs : Sound t) (hc : t.closing = true)
    (h : (t.reader.stoppable && t.writer.stoppable) = false) : Talks t := by
  by_cases hw : t.writer = .resume_writing
  · have hr : t.reader.in_call = false := by
      by_contra hr
      refine hs.one_call ⟨Reader.phase_calling.2 (by simpa using hr), ?_⟩
      rw [hw]
      rfl
    exact talks_resume_writing hr hw hc
  · cases hr : t.reader with
    | unborn => exact talks_unborn hs hr
    | data_received => exact talks_data_received hr
    | get_buffer view => exact talks_get_buffer hr
    | buffer_updated view => exact talks_buffer_updated hr
    | start | wait _ | read _ | eof_received | ended _ =>
        -- the write loop is there, as the read loop is
        have hborn : t.writer.phase ≠ .unborn := by
          rw [Ne, ← hs.unborn, Reader.phase_unborn, hr]
          simp
        have hwriter := Writer.stoppable_iff.2
          ⟨hborn, fun hcall => hw (Writer.phase_calling.1 hcall)⟩
        rw [hr, hwriter] at h
        cases h

/-- **A lost transport is silent, if it was not lost from inside.** In every run, with the
step that loses the transport: no continuation calls the protocol or starts a carrier
operation, exactly if the loss was not a `close()` or `abort()` called in the middle of
`data_received`, `get_buffer`, `buffer_updated` or `resume_writing`, or in
`connection_made`. The step itself is silent, and `connection_lost` is called once at
most. -/
theorem lost_transport_silent_iff {buffered : Bool} {ls : List Label} {t t' : Transport}
    {l : Label} (h : run step (init buffered) ls = some t) (hs : step t l = some t')
    (hl : t.lost = false) (hl' : t'.lost = true) :
    ((∀ ms u k v, run step t' ms = some u → step u k = some v → Silent u v)
        ↔ inside t l = false)
    ∧ Silent t t'
    ∧ ∀ ms u, run step t' ms = some u → (lost_calls u.log).length ≤ 1 := by
  have hsound := run_sound h
  have hloses := step_loses hsound hs hl hl'
  refine ⟨⟨fun hsilent => ?_, fun hin ms u k v hrun hk => ?_⟩, hloses.silent, fun ms u hrun => ?_⟩
  · by_contra hin
    have hin : inside t l = true := by simpa using hin
    cases l with
    | call c =>
        simp only [inside, Bool.not_eq_true'] at hin
        obtain rfl : call t c = t' := Option.some.inj hs
        have hplace := call_place t c
        have htalks : Talks (call t c) := by
          have hwriter : (call t c).writer.stoppable = t.writer.stoppable := by
            rw [Bool.eq_iff_iff, Writer.stoppable_iff, Writer.stoppable_iff, hplace.writer]
          refine talks_of_not_stoppable (step_sound hsound hs) hloses.closing ?_
          rw [hplace.stoppable, hwriter, hin]
        obtain ⟨ms, u, k, v, hrun, hk, hnot⟩ := htalks
        exact hnot (hsilent ms u k v hrun hk)
    | _ => cases hin
  · exact (hloses.mute hin).silent hrun hk
  · have hall := run_append step h ((run_cons_eq_some step).2 ⟨t', hs, hrun⟩)
    have hann := run_announced hall
    rw [announced, List.length_append] at hann
    have hone : u.lost.toNat ≤ 1 := Bool.toNat_le u.lost
    omega

/-- The carrier's shutdown is done after a `close()`, and the write loop loses the
transport. -/
def closed_down : List Label :=
  [.made, .run_reader, .run_writer, .call .close, .run_writer, .shutdown_done (.ok ())]

theorem lost_transport_silent_iff_closed :
    ∃ t t', run step (init false) closed_down = some t ∧ step t .run_writer = some t'
      ∧ t.lost = false ∧ t'.lost = true ∧ inside t .run_writer = false
      ∧ (∀ ms u k v, run step t' ms = some u → step u k = some v → Silent u v)
      ∧ ∀ ms u, run step t' ms = some u → (lost_calls u.log).length ≤ 1 := by
  have h := @lost_transport_silent_iff false closed_down _ _ .run_writer rfl rfl rfl rfl
  exact ⟨_, _, rfl, rfl, rfl, rfl, rfl, h.1.2 rfl, h.2.2⟩

/-- The protocol aborts the transport in `data_received`. `_lose` cancels the write loop
only; `data_received` returns and the read loop reads again, and delivers. -/
theorem aborted_transport_reads :
    ∃ t t' u v w, run step (init false)
        [.made, .run_reader, .run_writer, .read_done (.ok [1]), .run_reader] = some t
      ∧ t.lost = false ∧ step t (.call .abort) = some t' ∧ t'.lost = true
      ∧ step t' (.returns .none) = some u ∧ calls u.log = calls t'.log ++ [.read]
      ∧ run step u [.read_done (.ok [2])] = some v ∧ step v .run_reader = some w
      ∧ calls w.log = calls v.log ++ [.data_received [2]] :=
  ⟨_, _, _, _, _, rfl, rfl, rfl, rfl, rfl, rfl, rfl, rfl, rfl⟩

end ZmuxPy.CarrierTransport
