/-
The read loop of a `_CarrierTransport` (`python/zmux/_layer.py`), and what
`pause_reading` does to it.

`ReadLoop` is what the loop's own control has of the transport: where its task is,
whether a cancellation is waiting for it, and the `_reading` event. `Turn` says what a
step of the transport can do to the loop, and which calls of the carrier and of the
protocol the loop makes in it; most of what the transport does is `aside` for it.
`step_reader` connects the two: every step of the transport is a turn.

The loop looks at `_reading` only before it awaits a read. A pause that finds a read
pending, or a loop that has been woken by a resume, does not stop the delivery of what
is read next.
-/
import ZmuxPy.TransportSteps

set_option autoImplicit false

namespace ZmuxPy.CarrierTransport

open Machine Asyncio

/-! ## The read loop

The loop's task, its mark and the `_reading` event are all that decides what it does next, so
that `Turn` relates these alone: a step of the transport is a turn of the loop, with the calls
that the loop makes in it. -/

/-- The read loop's own calls. -/
def reader_log (log : List Event) : List Event := log.filter Event.of_reader

@[simp] theorem reader_log_snoc (l : List Event) (e : Event) :
    reader_log (l ++ [e]) = reader_log l ++ if e.of_reader then [e] else [] := by
  simp only [reader_log, List.filter_append, List.filter_cons, List.filter_nil]

/-- The read loop's control: its task, whether a cancellation is waiting for it, and the
`_reading` event. -/
structure ReadLoop where
  reader : Reader
  mark : Bool
  reading : Bool
  deriving DecidableEq, Repr

/-- The read loop of a transport. -/
def read_loop (t : Transport) : ReadLoop := ⟨t.reader, t.reader_must_cancel, t.reading⟩

/-- What a carrier read came back with. -/
def Label.reads : Label → Option (Except Exc Bytes)
  | .read_done r => some r
  | _ => none

/-- A task that can be cancelled, and does not await a pending future. -/
def Reader.markable : Reader → Bool
  | .unborn | .ended _ | .wait .pending | .read .pending => false
  | _ => true

/-- About to go to the top of the loop. -/
def ReadLoop.at_top (s : ReadLoop) : Bool :=
  match s.reader with
  | .start => !s.mark
  | .data_received | .buffer_updated [] => true
  | _ => false

/-- `self._reading.set()`. -/
def Reader.resumed : Reader → Reader
  | .wait .pending => .wait (.done ())
  | r => r

/-- What a step does to the read loop, and the calls the loop makes in it. -/
inductive ReadLoop.Turn : ReadLoop → Label → ReadLoop → List Event → Prop where
  | aside {s : ReadLoop} {l : Label} (hl : l.reads = none) : Turn s l s []
  | marked {s : ReadLoop} {l : Label} (hl : l.reads = none) (hs : s.reader.markable = true) :
      Turn s l { s with mark := true } []
  | cancelled_wait {mark reading : Bool} {l : Label} (hl : l.reads = none) :
      Turn ⟨.wait .pending, mark, reading⟩ l ⟨.wait .cancelled, mark, reading⟩ []
  | cancelled_read {mark reading : Bool} {l : Label} (hl : l.reads = none) :
      Turn ⟨.read .pending, mark, reading⟩ l ⟨.read .cancelled, mark, reading⟩ []
  /-- The task is over. -/
  | stopped {s : ReadLoop} {l : Label} (mark : Bool) (e : Ended) (hl : l.reads = none)
      (hs : s.reader ≠ .unborn) : Turn s l ⟨.ended e, mark, s.reading⟩ []
  | pause (s : ReadLoop) : Turn s (.call .pause_reading) { s with reading := false } []
  | resume (s : ReadLoop) :
      Turn s (.call .resume_reading) ⟨s.reader.resumed, s.mark, true⟩ []
  | made (mark reading : Bool) : Turn ⟨.unborn, mark, reading⟩ .made ⟨.start, mark, reading⟩ []
  | read_done (mark reading : Bool) (r : Except Exc Bytes) :
      Turn ⟨.read .pending, mark, reading⟩ (.read_done r) ⟨.read (.done r), mark, reading⟩ []
  | wait {s : ReadLoop} {l : Label} (hl : l.reads = none) (hs : s.at_top = true)
      (hg : s.reading = false) : Turn s l ⟨.wait (.suspend s.mark), false, false⟩ []
  | read {s : ReadLoop} {l : Label} (hl : l.reads = none) (hs : s.at_top = true)
      (hg : s.reading = true) : Turn s l ⟨.read (.suspend s.mark), false, true⟩ [.read]
  /-- Woken by a resume, the loop does not look at the event again. -/
  | woken_read (reading : Bool) :
      Turn ⟨.wait (.done ()), false, reading⟩ .run_reader ⟨.read .pending, false, reading⟩ [.read]
  | data_received (reading : Bool) (data : Bytes) (hne : data ≠ []) :
      Turn ⟨.read (.done (.ok data)), false, reading⟩ .run_reader ⟨.data_received, false, reading⟩
        [.data_received data]
  | get_buffer (reading : Bool) (data : Bytes) (hne : data ≠ []) :
      Turn ⟨.read (.done (.ok data)), false, reading⟩ .run_reader
        ⟨.get_buffer data, false, reading⟩ []
  | get_more {a : Answer} (mark reading : Bool) (view : Bytes) (hne : view ≠ []) :
      Turn ⟨.buffer_updated view, mark, reading⟩ (.returns a) ⟨.get_buffer view, mark, reading⟩ []
  | buffer_updated (mark reading : Bool) (view : Bytes) (n : ℕ) :
      Turn ⟨.get_buffer view, mark, reading⟩ (.returns (.size n))
        ⟨.buffer_updated (view.drop n), mark, reading⟩ [.buffer_updated (view.take n)]
  | eof_received (reading : Bool) :
      Turn ⟨.read (.done (.ok [])), false, reading⟩ .run_reader ⟨.eof_received, false, reading⟩
        [.eof_received]

/-- A turn of the read loop in a step of the transport. -/
def ReaderTurn (t : Transport) (l : Label) (t' : Transport) : Prop :=
  ∃ es, reader_log t'.log = reader_log t.log ++ es ∧ (read_loop t).Turn l (read_loop t') es

/-- A turn without a call of the read loop. -/
theorem ReaderTurn.of_eq {t t' : Transport} {l : Label} {s : ReadLoop}
    (hlog : reader_log t'.log = reader_log t.log) (hs : read_loop t' = s)
    (h : (read_loop t).Turn l s []) : ReaderTurn t l t' :=
  ⟨[], by rw [hlog, List.append_nil], hs ▸ h⟩

/-- A step that leaves the read loop alone. -/
structure SameReader (t t' : Transport) : Prop where
  loop : read_loop t' = read_loop t
  log : reader_log t'.log = reader_log t.log

/-- Its task is where it was, -/
theorem SameReader.reader {t t' : Transport} (h : SameReader t t') : t'.reader = t.reader :=
  congrArg ReadLoop.reader h.loop

/-- with the mark it had. -/
theorem SameReader.mark {t t' : Transport} (h : SameReader t t') :
    t'.reader_must_cancel = t.reader_must_cancel := congrArg ReadLoop.mark h.loop

/-- Nothing happened. -/
theorem SameReader.refl (t : Transport) : SameReader t t := ⟨rfl, rfl⟩

/-- Leaving it alone twice is leaving it alone. -/
theorem SameReader.trans {t u v : Transport} (h₁ : SameReader t u) (h₂ : SameReader u v) :
    SameReader t v := ⟨h₂.loop.trans h₁.loop, h₂.log.trans h₁.log⟩

/-- An event of somebody else is recorded. -/
theorem SameReader.record {t t' : Transport} {e : Event} (h : SameReader t t')
    (he : e.of_reader = false) : SameReader t (record t' e) := by
  refine ⟨h.loop, ?_⟩
  simp [CarrierTransport.record, he, h.log]

/-- For the read loop such a step is one aside. -/
theorem SameReader.turn {t t' : Transport} {l : Label} (h : SameReader t t')
    (hl : l.reads = none) : ReaderTurn t l t' := .of_eq h.log h.loop (.aside hl)

/-- `self._reader.cancel()`. -/
def ReadLoop.cancel (s : ReadLoop) : ReadLoop :=
  match s.reader with
  | .unborn | .ended _ => s
  | .wait .pending => { s with reader := .wait .cancelled }
  | .read .pending => { s with reader := .read .cancelled }
  | _ => { s with mark := true }

/-- `self._reader.cancel()` is about nothing but the read loop's control. -/
theorem read_loop_cancel (t : Transport) :
    read_loop (cancel_reader t) = (read_loop t).cancel := by
  unfold cancel_reader ReadLoop.cancel read_loop
  cases hr : t.reader with
  | wait f | read f => cases f <;> rfl
  | _ => simp [hr]

/-- A cancellation is a turn: it cancels the future the task awaits, or marks the task. -/
theorem ReadLoop.Turn.cancel (s : ReadLoop) {l : Label} (hl : l.reads = none) :
    s.Turn l s.cancel [] := by
  obtain ⟨reader, mark, reading⟩ := s
  cases reader with
  | unborn | ended e => exact .aside hl
  | wait f =>
      cases f with
      | pending => exact .cancelled_wait hl
      | done r | cancelled => exact .marked hl rfl
  | read f =>
      cases f with
      | pending => exact .cancelled_read hl
      | done r | cancelled => exact .marked hl rfl
  | start | data_received | get_buffer view | buffer_updated view | eof_received =>
      exact .marked hl rfl

/-- Nothing but a cancellation happens to the read loop. -/
structure CancelsReader (t t' : Transport) : Prop where
  loop : read_loop t' = (read_loop t).cancel
  log : reader_log t'.log = reader_log t.log

/-- So a step that only cancels the loop is a turn of it. -/
theorem CancelsReader.turn {t t' : Transport} {l : Label} (h : CancelsReader t t')
    (hl : l.reads = none) : ReaderTurn t l t' := .of_eq h.log h.loop (.cancel _ hl)

/-- `self._reader.cancel()` is such a step, -/
theorem cancel_reader_cancels (t : Transport) : CancelsReader t (cancel_reader t) := by
  refine ⟨read_loop_cancel t, ?_⟩
  unfold cancel_reader
  split <;> rfl

/-- whatever else is done after it -/
theorem CancelsReader.trans_same {t u v : Transport} (h₁ : CancelsReader t u)
    (h₂ : SameReader u v) : CancelsReader t v :=
  ⟨h₂.loop.trans h₁.loop, h₂.log.trans h₁.log⟩

/-- or before. -/
theorem SameReader.trans_cancels {t u v : Transport} (h₁ : SameReader t u)
    (h₂ : CancelsReader u v) : CancelsReader t v :=
  ⟨h₂.loop.trans (by rw [h₁.loop]), h₂.log.trans h₁.log⟩

/-- Cancelling the write loop leaves the read loop alone. -/
theorem cancel_writer_reader (t : Transport) : SameReader t (cancel_writer t) := by
  unfold cancel_writer
  split <;> exact ⟨rfl, rfl⟩

/-- `_lose` cancels the read loop, unless it is called by it or has nothing to do. -/
theorem lose_reader (t : Transport) (cur : Option Side) (exc : Option Exc) :
    (t.lost = true ∨ t.reader = .unborn ∨ cur = some .reader) ∧ SameReader t (lose t cur exc)
      ∨ CancelsReader t (lose t cur exc) := by
  have hsched : ∀ u : Transport, SameReader u (schedule_lost u exc) :=
    fun u => SameReader.record ⟨rfl, rfl⟩ rfl
  have hflags : SameReader t { t with lost := true, closing := true } := ⟨rfl, rfl⟩
  unfold lose
  split
  · rename_i hl
    exact .inl ⟨.inl hl, .refl t⟩
  · split
    · rename_i hr
      exact .inl ⟨.inr (.inl hr), hflags⟩
    · cases cur with
      | none =>
          have hc := hflags.trans_cancels (cancel_reader_cancels _)
          exact .inr ((hc.trans_same (cancel_writer_reader _)).trans_same (hsched _))
      | some side =>
          cases side with
          | reader =>
              exact .inl ⟨.inr (.inr rfl), (hflags.trans (cancel_writer_reader _)).trans (hsched _)⟩
          | writer =>
              exact .inr ((hflags.trans_cancels (cancel_reader_cancels _)).trans_same (hsched _))

/-- `_lose` cancels the read loop, unless it is called in it, or leaves it alone if the
transport was lost before. -/
theorem lose_reader_turn {t u : Transport} (hs : SameReader t u) (cur : Option Side)
    (exc : Option Exc) {l : Label} (hl : l.reads = none) : ReaderTurn t l (lose u cur exc) := by
  rcases lose_reader u cur exc with ⟨-, h⟩ | h
  · exact (hs.trans h).turn hl
  · exact (hs.trans_cancels h).turn hl

/-- `close()` does either, or neither. -/
theorem close_reader_turn (t : Transport) (cur : Option Side) {l : Label} (hl : l.reads = none) :
    ReaderTurn t l (close t cur) := by
  have hset : SameReader t (set_wake { t with closing := true }) := ⟨rfl, rfl⟩
  unfold close
  split
  · exact (SameReader.refl t).turn hl
  · split
    · exact lose_reader_turn hset cur none hl
    · exact hset.turn hl

/-- `write(data)` has nothing to do with the read loop. -/
theorem write_reader (t : Transport) (data : Data) : SameReader t (write t data) := by
  have hcalled : SameReader t (record t (.write_called data t.closing t.eof)) :=
    (SameReader.refl t).record rfl
  unfold write
  split
  · exact hcalled
  · unfold check_high
    split
    · exact hcalled.trans (SameReader.record ⟨rfl, rfl⟩ rfl)
    · exact hcalled.trans ⟨rfl, rfl⟩

/-- Of the methods, only `pause_reading`, `resume_reading`, `close` and `abort` reach the read
loop. -/
theorem call_reader (t : Transport) (c : Call) : ReaderTurn t (.call c) (call t c) := by
  cases c with
  | write data => exact (write_reader t data).turn rfl
  | close => exact close_reader_turn t _ rfl
  | abort => exact lose_reader_turn (.refl t) _ _ rfl
  | pause_reading => exact .of_eq rfl rfl (.pause _)
  | resume_reading =>
      refine .of_eq rfl ?_ (.resume _)
      unfold read_loop Reader.resumed
      cases hr : t.reader with
      | wait f => cases f <;> simp [call, set_reading, hr]
      | _ => simp [call, set_reading, hr]
  | write_eof | set_protocol b | set_write_buffer_limits high low =>
      exact SameReader.turn ⟨rfl, rfl⟩ rfl

/-! ### The loop's own steps -/

/-- At the top, the loop looks at `_reading` and reads or waits. It is the only place where it
looks. -/
theorem reader_top_turn {t : Transport} {l : Label} (hl : l.reads = none)
    (hs : (read_loop t).at_top = true) : ReaderTurn t l (reader_top t) := by
  unfold reader_top
  split
  · rename_i hg
    refine ⟨[.read], by simp [read_call, record, Event.of_reader], ?_⟩
    have := ReadLoop.Turn.read hl hs hg
    simpa [read_loop, read_call, record, hg] using this
  · rename_i hg
    have hg : t.reading = false := Bool.eq_false_iff.2 hg
    refine .of_eq rfl ?_ (.wait hl hs hg)
    simp [read_loop, hg]

/-- The task ends, and makes no call in doing so. -/
theorem end_reader_turn {t u : Transport} {l : Label} (hl : l.reads = none)
    (hb : t.reader ≠ .unborn) (hg : u.reading = t.reading)
    (hlog : reader_log u.log = reader_log t.log) (e : Ended) :
    ReaderTurn t l (end_reader u e) := by
  refine .of_eq hlog ?_ (.stopped u.reader_must_cancel e hl hb)
  simp only [read_loop, end_reader, hg]

/-- What the loop's end has to know of `_lose` and `close`. -/
theorem lose_reading (t : Transport) (cur : Option Side) (exc : Option Exc) :
    (lose t cur exc).reading = t.reading
      ∧ reader_log (lose t cur exc).log = reader_log t.log := by
  have hloop : ∀ s : ReadLoop, s.cancel.reading = s.reading := by
    intro s
    unfold ReadLoop.cancel
    split <;> rfl
  rcases lose_reader t cur exc with ⟨-, h⟩ | h
  · exact ⟨congrArg ReadLoop.reading h.loop, h.log⟩
  · exact ⟨(congrArg ReadLoop.reading h.loop).trans (hloop _), h.log⟩

/-- `close()` touches neither `_reading` nor the read loop's calls. -/
theorem close_reading (t : Transport) (cur : Option Side) :
    (close t cur).reading = t.reading ∧ reader_log (close t cur).log = reader_log t.log := by
  unfold close
  split
  · exact ⟨rfl, rfl⟩
  · split
    · exact lose_reading _ cur none
    · exact ⟨rfl, rfl⟩

/-- An exception ends the task, after `_lose` if it is one of the three. -/
theorem reader_raised_turn {t t₀ : Transport} {l : Label} (hl : l.reads = none)
    (hb : t.reader ≠ .unborn) (hg : t₀.reading = t.reading)
    (hlog : reader_log t₀.log = reader_log t.log) (r : Raised) :
    ReaderTurn t l (reader_raised t₀ r) := by
  unfold reader_raised
  split
  · exact end_reader_turn hl hb hg hlog _
  · rename_i e
    split
    · obtain ⟨hg', hlog'⟩ := lose_reading t₀ (some .reader) (some e)
      exact end_reader_turn hl hb (hg'.trans hg) (hlog'.trans hlog) _
    · exact end_reader_turn hl hb hg hlog _

/-- A task without a mark, resumed with what its read came back with. -/
theorem read_returned_turn {t : Transport} {r : Except Exc Bytes}
    (hr : t.reader = .read (.done r)) (hm : t.reader_must_cancel = false) :
    ReaderTurn t .run_reader (read_returned { t with reader_must_cancel := false } r) := by
  have hb : t.reader ≠ .unborn := by simp [hr]
  have hloop : read_loop t = ⟨.read (.done r), false, t.reading⟩ := by
    simp only [read_loop, hr, hm]
  unfold read_returned
  split
  · refine ⟨[.eof_received], by simp [record, Event.of_reader], ?_⟩
    rw [hloop]
    exact .eof_received t.reading
  · rename_i data hne
    have hne : data ≠ [] := fun h => hne (by rw [h])
    unfold deliver
    split
    · have hview : deliver_view { t with reader_must_cancel := false } data
          = { t with reader_must_cancel := false, reader := .get_buffer data } := if_neg hne
      rw [hview]
      refine .of_eq rfl rfl ?_
      rw [hloop]
      exact .get_buffer t.reading data hne
    · refine ⟨[.data_received data], by simp [record, Event.of_reader], ?_⟩
      rw [hloop]
      exact .data_received t.reading data hne
  · refine reader_raised_turn rfl hb ?_ ?_ _
    · rfl
    · rfl

/-- A turn of the task itself, from wherever it was suspended. -/
theorem run_reader_turn {t t' : Transport} (h : run_reader t = some t') :
    ReaderTurn t .run_reader t' := by
  unfold run_reader at h
  split at h
  · rename_i hr
    have hb : t.reader ≠ .unborn := by simp [hr]
    rw [Option.some.injEq] at h
    subst h
    split
    · exact end_reader_turn rfl hb rfl rfl _
    · rename_i hm
      exact reader_top_turn rfl (by simp [ReadLoop.at_top, read_loop, hr, hm])
  · rename_i f hr
    have hb : t.reader ≠ .unborn := by simp [hr]
    obtain ⟨r, hres, rfl⟩ := Option.map_eq_some_iff.1 h
    split
    · obtain ⟨rfl, hm⟩ := Await.resume_eq_some hres
      refine ⟨[.read], by simp [read_call, record, Event.of_reader], ?_⟩
      have hloop : read_loop t = ⟨.wait (.done ()), false, t.reading⟩ := by
        simp only [read_loop, hr, hm]
      rw [hloop]
      exact .woken_read t.reading
    · exact end_reader_turn rfl hb rfl rfl _
  · rename_i f hr
    have hb : t.reader ≠ .unborn := by simp [hr]
    obtain ⟨r, hres, rfl⟩ := Option.map_eq_some_iff.1 h
    split
    · obtain ⟨rfl, hm⟩ := Await.resume_eq_some hres
      exact read_returned_turn hr hm
    · exact end_reader_turn rfl hb rfl rfl _
  · cases h

/-! ### The write loop's steps -/

/-- The two loops share no call. -/
theorem Event.of_reader_of_writer {e : Event} (h : e.of_writer = true) : e.of_reader = false := by
  cases e with
  | write _ | shutdown | resume_writing => rfl
  | _ => cases h

/-- What the write loop does is aside for the read loop, or cancels it. -/
theorem WriterDoes.reader_turn {t t' : Transport} {o : Option Exc} {l : Label}
    (h : WriterDoes t o t') (hl : l.reads = none) : ReaderTurn t l t' := by
  have hlose : ∀ (mark : Bool) (exc : Option Exc),
      ReaderTurn t l (lose { t with writer_must_cancel := mark } (some .writer) exc) := by
    intro mark exc
    refine lose_reader_turn ?_ _ _ hl
    exact ⟨rfl, rfl⟩
  cases h with
  | moves => exact SameReader.turn ⟨rfl, rfl⟩ hl
  | calls _ _ _ _ _ e _ he =>
      exact (SameReader.record ⟨rfl, rfl⟩ (Event.of_reader_of_writer he)).turn hl
  | raised mark e =>
      unfold writer_raised
      dsimp only
      split
      · exact hlose mark (some e)
      · exact SameReader.turn ⟨rfl, rfl⟩ hl
  | loses mark => exact hlose mark none

/-- When a method of the protocol returns, the read loop goes on from where it called it. -/
theorem returns_reader {t t' : Transport} {a : Answer} (h : returns t a = some t') :
    ReaderTurn t (.returns a) t' := by
  unfold returns at h
  split at h
  · rename_i hr
    cases h
    exact reader_top_turn rfl (by simp [ReadLoop.at_top, read_loop, hr])
  · rename_i view n hr
    cases h
    have hloop : read_loop t = ⟨.get_buffer view, t.reader_must_cancel, t.reading⟩ := by
      simp only [read_loop, hr]
    refine ⟨[.buffer_updated (view.take n)], by simp [record, Event.of_reader], ?_⟩
    rw [hloop]
    exact .buffer_updated _ _ view n
  · rename_i view hr
    cases h
    unfold deliver_view
    split
    · rename_i hnil
      refine reader_top_turn rfl ?_
      simp [ReadLoop.at_top, read_loop, hr, hnil]
    · rename_i hne
      have hloop : read_loop t = ⟨.buffer_updated view, t.reader_must_cancel, t.reading⟩ := by
        simp only [read_loop, hr]
      exact .of_eq rfl rfl (hloop ▸ .get_more _ _ view hne)
  · rename_i b hr
    cases h
    -- `eof_received()` returned: the reader ends, and closes first unless the answer was true
    have hb : t.reader ≠ .unborn := by simp [hr]
    obtain ⟨hg, hlog⟩ : (if b then t else close t (some .reader)).reading = t.reading
        ∧ reader_log (if b then t else close t (some .reader)).log = reader_log t.log := by
      split
      · exact ⟨rfl, rfl⟩
      · exact close_reading t _
    exact end_reader_turn rfl hb hg hlog _
  · cases h
    exact (writer_top_does t t.queued t.writer_must_cancel).reader_turn rfl
  · cases h

/-- When it raises, the read loop ends. -/
theorem raises_reader {t t' : Transport} {r : Raised} (h : raises t r = some t') :
    ReaderTurn t (.raises r) t' := by
  unfold raises at h
  split at h
  · rename_i hcur
    have hb : t.reader ≠ .unborn := by
      intro hr
      have hcall := current_eq_reader.1 hcur
      rw [hr] at hcall
      cases hcall
    cases h
    exact reader_raised_turn rfl hb rfl rfl r
  · cases h
    cases r with
    | exc e => exact (WriterDoes.raised t.writer_must_cancel e).reader_turn rfl
    | cancelled_error => exact SameReader.turn ⟨rfl, rfl⟩ rfl
  · cases h

/-- The event loop's steps: the two tasks, and the operations that complete. -/
theorem from_loop_reader {t t' : Transport} {l : Label} (h : from_loop t l = some t') :
    ReaderTurn t l t' := by
  cases from_loop_cases h with
  | made hr hw =>
      have hloop : read_loop t = ⟨.unborn, t.reader_must_cancel, t.reading⟩ := by
        simp only [read_loop, hr]
      exact .of_eq rfl rfl (hloop ▸ .made _ _)
  | read_done r hr =>
      have hloop : read_loop t = ⟨.read .pending, t.reader_must_cancel, t.reading⟩ := by
        simp only [read_loop, hr]
      exact .of_eq rfl rfl (hloop ▸ .read_done _ _ r)
  | write_done data r hw => exact (SameReader.record ⟨rfl, rfl⟩ rfl).turn rfl
  | shutdown_done r hw => exact (SameReader.record ⟨rfl, rfl⟩ rfl).turn rfl
  | run_reader hrun => exact run_reader_turn hrun
  | run_writer hrun => exact (run_writer_does hrun).2.reader_turn rfl
  | run_lost exc rest hl => exact (SameReader.record ⟨rfl, rfl⟩ rfl).turn rfl

/-- **Every step of the transport is a turn of its read loop.** What follows about deliveries
is a case analysis of `Turn`. -/
theorem step_reader {t t' : Transport} {l : Label} (h : step t l = some t') :
    ReaderTurn t l t' := by
  cases step_cases h with
  | call c => exact call_reader t c
  | returns h => exact returns_reader h
  | raises h => exact raises_reader h
  | cancel_reader => exact (cancel_reader_cancels t).turn rfl
  | cancel_writer => exact (cancel_writer_reader t).turn rfl
  | from_loop _ h => exact from_loop_reader h

/-! ## What is delivered

At most one read is on its way through `_deliver`; what is left of it is `held`. -/

/-- The bytes a call of `data_received` or `buffer_updated` gives to the protocol. -/
def Event.delivered : Event → Option Bytes
  | .data_received data | .buffer_updated data => some data
  | _ => none

/-- What the protocol was given, call by call. -/
def delivered (log : List Event) : List Bytes := log.filterMap Event.delivered

/-- The bytes that a carrier read came back with. -/
def Label.brings (l : Label) : Bytes :=
  match l.reads with
  | some (.ok data) => data
  | _ => []

/-- Only a read of the carrier brings bytes. -/
theorem Label.brings_of_reads {l : Label} (h : l.reads = none) : l.brings = [] := by
  unfold Label.brings
  rw [h]

/-- All of them, in order. -/
def received (ls : List Label) : Bytes := ls.flatMap Label.brings

/-- Bytes that were read and not given to the protocol yet. -/
def Reader.held : Reader → Bytes
  | .read (.done (.ok data)) => data
  | .get_buffer view | .buffer_updated view => view
  | _ => []

/-- Deliveries add up along the log. -/
theorem delivered_append (l es : List Event) :
    delivered (l ++ es) = delivered l ++ delivered es := List.filterMap_append

/-- Only the read loop delivers. -/
theorem delivered_reader_log (l : List Event) : delivered (reader_log l) = delivered l := by
  unfold delivered reader_log
  rw [List.filterMap_filter]
  congr 1
  funext e
  cases e <;> rfl

/-- What is delivered in a step is what the read loop's calls in it deliver. -/
theorem ReaderTurn.delivered {t t' : Transport} {l : Label} (h : ReaderTurn t l t') :
    ∃ es, delivered t'.log = delivered t.log ++ delivered es
      ∧ (read_loop t).Turn l (read_loop t') es := by
  obtain ⟨es, hlog, ht⟩ := h
  refine ⟨es, ?_, ht⟩
  rw [← delivered_reader_log t'.log, hlog, delivered_append, delivered_reader_log]

/-- At the top of the loop everything that was read has been given away. -/
theorem ReadLoop.held_of_at_top {s : ReadLoop} (h : s.at_top = true) : s.reader.held = [] := by
  unfold ReadLoop.at_top at h
  split at h
  · rename_i hr
    rw [hr]
    rfl
  · rename_i hr
    rw [hr]
    rfl
  · rename_i hr
    rw [hr]
    rfl
  · cases h

/-- A turn passes on what the loop held and what it got, in order, or ends the loop. -/
theorem ReadLoop.Turn.passes_on {s s' : ReadLoop} {l : Label} {es : List Event}
    (h : s.Turn l s' es) :
    s.reader.held ++ l.brings = (CarrierTransport.delivered es).flatten ++ s'.reader.held
      ∨ (∃ e, s'.reader = .ended e) ∧ es = [] ∧ l.brings = [] := by
  cases h with
  | aside hl | marked hl | cancelled_wait hl | cancelled_read hl =>
      left
      rw [Label.brings_of_reads hl]
      simp [CarrierTransport.delivered, Reader.held]
  | stopped mark e hl hs => exact .inr ⟨⟨e, rfl⟩, rfl, Label.brings_of_reads hl⟩
  | resume =>
      left
      obtain ⟨reader, mark, reading⟩ := s
      cases reader with
      | wait f => cases f <;> rfl
      | _ => simp [Label.brings, Label.reads, CarrierTransport.delivered, Reader.resumed]
  | read_done mark reading r => cases r <;> exact .inl rfl
  | wait hl hs =>
      left
      rw [held_of_at_top hs, Label.brings_of_reads hl]
      rfl
  | read hl hs =>
      left
      rw [held_of_at_top hs, Label.brings_of_reads hl]
      cases s.mark <;> rfl
  | pause | made | woken_read | data_received | get_buffer | get_more | buffer_updated
  | eof_received =>
      left
      simp [CarrierTransport.delivered, Event.delivered, Label.brings, Label.reads, Reader.held]

/-- A loop that is over stays over: it calls nothing, and no read completes. -/
theorem ReadLoop.Turn.of_ended {s s' : ReadLoop} {l : Label} {es : List Event} {e : Ended}
    (h : s.Turn l s' es) (hs : s.reader = .ended e) :
    (∃ e', s'.reader = .ended e') ∧ es = [] ∧ l.brings = [] := by
  obtain ⟨reader, mark, reading⟩ := s
  subst hs
  cases h with
  | aside hl | marked hl => exact ⟨⟨e, rfl⟩, rfl, Label.brings_of_reads hl⟩
  | stopped mark e' hl => exact ⟨⟨e', rfl⟩, rfl, Label.brings_of_reads hl⟩
  | pause | resume => exact ⟨⟨e, rfl⟩, rfl, rfl⟩
  | wait hl hs | read hl hs => cases hs

/-- Everything that was read is delivered or held, in order, for as long as the loop
lives; after that nothing is added. -/
def Passed (ls : List Label) (t : Transport) : Prop :=
  received ls = (delivered t.log).flatten ++ t.reader.held
    ∨ (∃ e, t.reader = .ended e) ∧ (delivered t.log).flatten <+: received ls

/-- One step of the transport loses no byte and changes no order, for as long as the loop lives. -/
theorem step_passed {ls : List Label} {t t' : Transport} {l : Label} (h : Passed ls t)
    (hs : step t l = some t') : Passed (ls ++ [l]) t' := by
  obtain ⟨es, hlog, hturn⟩ := (step_reader hs).delivered
  have hrec : received (ls ++ [l]) = received ls ++ l.brings := by simp [received]
  have hidle : es = [] → l.brings = [] → (delivered t.log).flatten <+: received ls →
      (delivered t'.log).flatten <+: received (ls ++ [l]) := by
    rintro rfl hl hpre
    rw [hlog, hrec, hl, List.append_nil]
    simpa [delivered] using hpre
  rcases h with heq | ⟨⟨e, he⟩, hpre⟩
  · rcases hturn.passes_on with hp | ⟨hend, hes, hl⟩
    · left
      change t.reader.held ++ l.brings = _ ++ t'.reader.held at hp
      rw [hrec, heq, List.append_assoc, hp, hlog, List.flatten_append, List.append_assoc]
    · exact .inr ⟨hend, hidle hes hl (heq ▸ List.prefix_append _ _)⟩
  · obtain ⟨hend, hes, hl⟩ := hturn.of_ended he
    exact .inr ⟨hend, hidle hes hl hpre⟩

/-- A run does not either. -/
theorem run_passed {buffered : Bool} {ls : List Label} {t : Transport}
    (h : run step (init buffered) ls = some t) : Passed ls t :=
  run_inv_past step (fun _ _ _ _ hp hs => step_passed hp hs) (.inl rfl) h

/-! ## Paused

`pause_reading()` does not stop a read that has begun, nor the rest of a `_deliver`. A loop
that is `at_rest` has neither before it. -/

/-- The loop has nothing to deliver, and will look at `_reading` before it reads. -/
def ReadLoop.at_rest (s : ReadLoop) : Bool :=
  match s.reader with
  -- woken by a resume: the next thing is a read, unless the task is cancelled
  | .wait (.done _) => s.mark
  | .read .pending => false
  | .read (.done (.ok (_ :: _))) => s.mark
  | .get_buffer _ => false
  -- the callback may be the last one for this read
  | .buffer_updated view => view.isEmpty
  | _ => true

/-- A cancellation does not disturb a loop at rest, -/
theorem ReadLoop.at_rest_marked {s : ReadLoop} (h : s.at_rest = true) :
    ReadLoop.at_rest { s with mark := true } = true := by
  unfold ReadLoop.at_rest at h ⊢
  split at h
  all_goals simp_all

/-- and one that goes into its wait while paused comes to rest. -/
theorem ReadLoop.at_rest_suspended (mark : Bool) :
    ReadLoop.at_rest ⟨.wait (.suspend mark), false, false⟩ = true := by
  cases mark <;> rfl

/-- What a loop at rest does while it is paused. -/
theorem ReadLoop.Turn.rests {s s' : ReadLoop} {l : Label} {es : List Event} (h : s.Turn l s' es)
    (hr : s.at_rest = true) (hg : s.reading = false) (hl : l ≠ .call .resume_reading) :
    (s'.at_rest = true ∧ s'.reading = false) ∧ CarrierTransport.delivered es = []
      ∧ l.reads = none := by
  cases h with
  | aside hl => exact ⟨⟨hr, hg⟩, rfl, hl⟩
  | marked hl => exact ⟨⟨at_rest_marked hr, hg⟩, rfl, hl⟩
  | cancelled_wait hl | cancelled_read hl => exact ⟨⟨rfl, hg⟩, rfl, hl⟩
  | stopped mark e hl => exact ⟨⟨rfl, hg⟩, rfl, hl⟩
  | pause => exact ⟨⟨hr, rfl⟩, rfl, rfl⟩
  | resume => exact absurd rfl hl
  | made | eof_received => exact ⟨⟨rfl, hg⟩, rfl, rfl⟩
  | wait hl => exact ⟨⟨at_rest_suspended _, rfl⟩, rfl, hl⟩
  -- the event is not set
  | read _ _ hset => cases hset.symm.trans hg
  | read_done | woken_read | buffer_updated => cases hr
  | data_received reading data hne | get_buffer reading data hne | get_more _ reading data hne =>
      cases data with
      | nil => exact absurd rfl hne
      | cons x data => cases hr

/-- Nothing is read and nothing is delivered until the next resume. -/
theorem run_at_rest {t u : Transport} {ms : List Label} (hr : (read_loop t).at_rest = true)
    (hg : t.reading = false) (h : run step t ms = some u) (hms : .call .resume_reading ∉ ms) :
    delivered u.log = delivered t.log ∧ ∀ l ∈ ms, l.reads = none := by
  induction ms generalizing t with
  | nil =>
      rw [run_nil, Option.some.injEq] at h
      exact ⟨by rw [h], by simp⟩
  | cons l ms ih =>
      obtain ⟨t', hstep, hrun⟩ := (run_cons_eq_some step).1 h
      rw [List.mem_cons, not_or] at hms
      obtain ⟨es, hlog, hturn⟩ := (step_reader hstep).delivered
      obtain ⟨⟨hr', hg'⟩, hes, hl⟩ := hturn.rests hr hg (Ne.symm hms.1)
      obtain ⟨hdel, hreads⟩ := ih hr' hg' hrun hms.2
      refine ⟨?_, List.forall_mem_cons.2 ⟨hl, hreads⟩⟩
      rw [hdel, hlog, hes, List.append_nil]

/-! ### A loop that is not at rest -/

/-- Something may be delivered before the next resume. -/
def Noisy (t : Transport) : Prop :=
  ∃ ms u, run step t ms = some u ∧ .call .resume_reading ∉ ms ∧ delivered u.log ≠ delivered t.log

/-- A step that delivers something makes a noise. -/
theorem Noisy.of_step {t t' : Transport} {l : Label} {data : Bytes} (h : step t l = some t')
    (hl : l ≠ .call .resume_reading) (hd : delivered t'.log = delivered t.log ++ [data]) :
    Noisy t := by
  refine ⟨[l], t', (run_cons_eq_some step).2 ⟨t', h, rfl⟩, ?_, ?_⟩
  · rw [List.mem_singleton]
    exact Ne.symm hl
  · simp [hd]

/-- A step towards one does, too. -/
theorem Noisy.cons {t t' : Transport} {l : Label} (h : step t l = some t')
    (hl : l ≠ .call .resume_reading) (hd : delivered t'.log = delivered t.log) (hn : Noisy t') :
    Noisy t := by
  obtain ⟨ms, u, hrun, hms, hne⟩ := hn
  refine ⟨l :: ms, u, (run_cons_eq_some step).2 ⟨t', h, hrun⟩, ?_, ?_⟩
  · rw [List.mem_cons, not_or]
    exact ⟨Ne.symm hl, hms⟩
  · rwa [← hd]

/-- In `get_buffer` the loop has bytes in its hands, and delivers them whatever the protocol
does. -/
theorem noisy_get_buffer {t : Transport} {view : Bytes} (hr : t.reader = .get_buffer view) :
    Noisy t := by
  have hstep : step t (.returns (.size 1)) = some (record
      { t with reader := .buffer_updated (view.drop 1) } (.buffer_updated (view.take 1))) := by
    simp only [step, returns, hr]
  exact .of_step hstep (by simp) (delivered_append _ _)

/-- A read that has completed is delivered, paused or not. -/
theorem noisy_read_ok {t : Transport} {data : Bytes} (hw : t.writer ≠ .resume_writing)
    (hr : t.reader = .read (.done (.ok data))) (hm : t.reader_must_cancel = false)
    (hne : data ≠ []) : Noisy t := by
  have hcur : current t = none := current_eq_none.2 ⟨by rw [hr]; rfl, hw⟩
  have hstep : step t .run_reader = some (deliver { t with reader_must_cancel := false } data) := by
    cases data with
    | nil => exact absurd rfl hne
    | cons x data => simp [step, hcur, from_loop, run_reader, hr, hm, Await.resume, read_returned]
  unfold deliver at hstep
  split at hstep
  · unfold deliver_view at hstep
    rw [if_neg hne] at hstep
    exact .cons hstep (by simp) rfl (noisy_get_buffer rfl)
  · exact .of_step hstep (by simp) (delivered_append _ _)

/-- A pending read may complete, and is then delivered. -/
theorem noisy_read_pending {t : Transport} (hw : t.writer ≠ .resume_writing)
    (hr : t.reader = .read .pending) (hm : t.reader_must_cancel = false) : Noisy t := by
  have hcur : current t = none := current_eq_none.2 ⟨by rw [hr]; rfl, hw⟩
  have hstep : step t (.read_done (.ok [0]))
      = some { t with reader := .read (.done (.ok [0])) } := by
    simp [step, hcur, from_loop, hr, Await.complete]
  exact .cons hstep (by simp) rfl (noisy_read_ok hw rfl hm (by simp))

/-- A loop woken by a resume reads without another look at `_reading`. -/
theorem noisy_woken {t : Transport} (hw : t.writer ≠ .resume_writing)
    (hr : t.reader = .wait (.done ())) (hm : t.reader_must_cancel = false) : Noisy t := by
  have hcur : current t = none := current_eq_none.2 ⟨by rw [hr]; rfl, hw⟩
  have hstep : step t .run_reader = some (read_call { t with reader_must_cancel := false }) := by
    simp [step, hcur, from_loop, run_reader, hr, hm, Await.resume]
  have hlog : delivered (read_call { t with reader_must_cancel := false }).log
      = delivered t.log := by
    simp [read_call, record, delivered, Event.delivered]
  exact .cons hstep (by simp) hlog (noisy_read_pending hw rfl rfl)

/-- The write loop's call of `resume_writing` may return at once, -/
theorem returns_resume_writing {t : Transport} (hr : t.reader.in_call = false)
    (hw : t.writer = .resume_writing) : returns t .none = some (writer_top t) := by
  cases h : t.reader with
  | data_received | get_buffer _ | buffer_updated _ | eof_received =>
      rw [h] at hr
      cases hr
  | unborn | start | wait _ | read _ | ended _ => simp only [returns, h, hw]

/-- and its way back to the top is aside for the read loop, -/
theorem writer_top_reader (t : Transport) : SameReader t (writer_top t) := by
  unfold writer_top
  split
  · split
    · exact SameReader.record ⟨rfl, rfl⟩ rfl
    · exact ⟨rfl, rfl⟩
  · exact SameReader.record ⟨rfl, rfl⟩ rfl

/-- after which nobody is in a call of the protocol. -/
theorem writer_top_out_of_call (t : Transport) : (writer_top t).writer ≠ .resume_writing := by
  unfold writer_top
  split
  · split <;> simp [shutdown_call, record]
  · simp [record]

/-- The write loop's call of the protocol returns first. -/
theorem noisy_of_out_of_call {t : Transport} (hr : t.reader.in_call = false)
    (h : ∀ u, SameReader t u → u.writer ≠ .resume_writing → Noisy u) : Noisy t := by
  by_cases hw : t.writer = .resume_writing
  · have hsame := writer_top_reader t
    have hlog : delivered (writer_top t).log = delivered t.log := by
      rw [← delivered_reader_log, hsame.log, delivered_reader_log]
    have hstep : step t (.returns .none) = some (writer_top t) := returns_resume_writing hr hw
    exact .cons hstep (by simp) hlog (h _ hsame (writer_top_out_of_call t))
  · exact h t (.refl t) hw

/-- A cancellation never waits beside a pending read. -/
def ReadLoop.Fresh (s : ReadLoop) : Prop := s.reader = .read .pending → s.mark = false

/-- Only a task that awaits no pending future is marked, so a pending read has no mark beside it. -/
theorem ReadLoop.Turn.fresh {s s' : ReadLoop} {l : Label} {es : List Event} (h : s.Turn l s' es)
    (hs : s.Fresh) : s'.Fresh := by
  cases h with
  | aside | pause => exact hs
  | marked hl hmark =>
      intro hr
      change s.reader = _ at hr
      rw [hr] at hmark
      cases hmark
  | resume =>
      intro hr
      refine hs ?_
      unfold Reader.resumed at hr
      split at hr
      · cases hr
      · exact hr
  | read | woken_read => exact fun _ => rfl
  | cancelled_wait | cancelled_read | stopped | made | read_done | wait | data_received | get_buffer
  | get_more | buffer_updated | eof_received => exact fun hr => by cases hr

/-- So it is in every run. -/
theorem run_fresh {buffered : Bool} {ls : List Label} {t : Transport}
    (h : run step (init buffered) ls = some t) : (read_loop t).Fresh := by
  have hstep : ∀ t l t', (read_loop t).Fresh → step t l = some t' → (read_loop t').Fresh := by
    intro t l t' ht hs
    obtain ⟨es, -, hturn⟩ := step_reader hs
    exact hturn.fresh ht
  exact run_inv step hstep (fun hr => by cases hr) h

/-- A loop that is not at rest may deliver, whatever `_reading` says. -/
theorem noisy_of_not_at_rest {t : Transport} (hf : (read_loop t).Fresh)
    (h : (read_loop t).at_rest = false) : Noisy t := by
  have hout : t.reader.in_call = false → ∀ {m : Bool}, t.reader_must_cancel = m →
      (∀ u, u.writer ≠ .resume_writing → u.reader = t.reader → u.reader_must_cancel = m →
        Noisy u) → Noisy t :=
    fun hr _ hm hn => noisy_of_out_of_call hr fun u hs hw => hn u hw hs.reader (hs.mark.trans hm)
  unfold ReadLoop.at_rest at h
  split at h
  · rename_i hr
    change t.reader = _ at hr
    exact hout (by rw [hr]; rfl) h fun u hw hu hm => noisy_woken hw (hu.trans hr) hm
  · rename_i hr
    have hm := hf hr
    change t.reader = _ at hr
    exact hout (by rw [hr]; rfl) hm fun u hw hu hm => noisy_read_pending hw (hu.trans hr) hm
  · rename_i x data hr
    change t.reader = _ at hr
    exact hout (by rw [hr]; rfl) h
      fun u hw hu hm => noisy_read_ok hw (hu.trans hr) hm (List.cons_ne_nil x data)
  · rename_i view hr
    exact noisy_get_buffer hr
  · rename_i view hr
    have hne : view ≠ [] := by simpa using h
    have hstep : step t (.returns .none) = some { t with reader := .get_buffer view } := by
      change t.reader = _ at hr
      simp [step, returns, hr, deliver_view, hne]
    exact .cons hstep (by simp) rfl (noisy_get_buffer rfl)
  · cases h

/-- **Nothing is delivered while reading is paused, if the pause finds the loop at
rest.** In every state that a run reaches: from a `pause_reading()` to the next
`resume_reading()` no run calls `data_received` or `buffer_updated` exactly if the loop
neither reads, nor has read something, nor has been woken to read; and then no read is
done in between. In every run, what is delivered is what was read, in order, and all of
it but for what the loop still holds, until the loop ends. -/
theorem paused_delivers_nothing_iff {buffered : Bool} {ls : List Label} {t : Transport}
    (h : run step (init buffered) ls = some t) :
    ((∀ ms u, run step (call t .pause_reading) ms = some u → .call .resume_reading ∉ ms →
        delivered u.log = delivered t.log) ↔ (read_loop t).at_rest = true)
    ∧ ((read_loop t).at_rest = true →
        ∀ ms u, run step (call t .pause_reading) ms = some u → .call .resume_reading ∉ ms →
          ∀ r, .read_done r ∉ ms)
    ∧ (delivered t.log).flatten <+: received ls
    ∧ ((∀ e, t.reader ≠ .ended e) → received ls = (delivered t.log).flatten ++ t.reader.held) := by
  -- a pause changes nothing that `at_rest` looks at
  have hpause : (read_loop (call t .pause_reading)).at_rest = (read_loop t).at_rest := rfl
  refine ⟨⟨fun hquiet => ?_, fun hrest ms u hrun hms => ?_⟩, fun hrest ms u hrun hms r hr => ?_,
    ?_, fun hlive => ?_⟩
  · by_contra hrest
    have hfresh : (read_loop t).Fresh := run_fresh h
    obtain ⟨ms, u, hrun, hms, hne⟩ := noisy_of_not_at_rest (t := call t .pause_reading) hfresh
      (hpause.trans (Bool.eq_false_iff.2 hrest))
    exact hne (hquiet ms u hrun hms)
  · exact (run_at_rest (hpause.trans hrest) rfl hrun hms).1
  · have hnone := (run_at_rest (hpause.trans hrest) rfl hrun hms).2 _ hr
    cases hnone
  · rcases run_passed h with heq | ⟨-, hpre⟩
    · exact heq ▸ List.prefix_append _ _
    · exact hpre
  · rcases run_passed h with heq | ⟨⟨e, he⟩, -⟩
    · exact heq
    · exact absurd he (hlive e)

/-- A first read, in the middle of whose `data_received` the protocol pauses. -/
def first_read : List Label :=
  [.made, .run_reader, .run_writer, .read_done (.ok [1, 2]), .run_reader]

theorem paused_delivers_nothing_iff_in_callback :
    ∃ t, run step (init false) first_read = some t ∧ (read_loop t).at_rest = true
      ∧ (∀ ms u, run step (call t .pause_reading) ms = some u → .call .resume_reading ∉ ms →
          delivered u.log = [[1, 2]])
      ∧ received first_read = (delivered t.log).flatten := by
  have h := @paused_delivers_nothing_iff false first_read _ rfl
  exact ⟨_, rfl, rfl, h.1.2 rfl, h.2.2.2 fun e he => by cases he⟩

/-- An idle connection: the read loop awaits a read, which completes after the pause, and
`data_received` is called with reading paused. -/
theorem paused_read_is_delivered :
    ∃ t u, run step (init false) [.made, .run_reader, .run_writer] = some t
      ∧ run step (call t .pause_reading) [.read_done (.ok [1]), .run_reader] = some u
      ∧ u.reading = false ∧ delivered t.log = [] ∧ delivered u.log = [[1]] :=
  ⟨_, _, rfl, rfl, rfl, rfl, rfl⟩

end ZmuxPy.CarrierTransport
