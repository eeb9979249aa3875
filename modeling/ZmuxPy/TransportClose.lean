/-
How long a `close()` takes.

`close()` only sets a flag: "the buffered data is flushed asynchronously", and
`connection_lost` follows. This is about the time between the two, in which the protocol
may still call the transport, the read loop may still read and deliver, and only the
write loop brings the end nearer. Nothing is assumed of the order of these steps, only
that none of them breaks the close (`Label.calm`): no `abort()`, no failure, nobody raises
or cancels.

`work` counts the steps the write loop has left, two for a queued write and two for the
shutdown. The count is exact: each of its steps takes one off, and nothing else that
happens changes it (`Fine.step_work`). So the number of these steps alone says whether the
close is over; and until it is, the next of them can be taken as soon as no method of the
protocol is running (`Live.next`).
-/
import ZmuxPy.TransportContract
import ZmuxPy.TransportFailures

set_option autoImplicit false

namespace ZmuxPy.CarrierTransport

open Machine Asyncio

/-! ## What a transport is given -/

/-- A step that leaves the writes alone takes none, -/
theorem Frame.accepted_eq {t t' : Transport} (h : Frame t t') :
    accepted t'.log = accepted t.log := by
  obtain ⟨es, hlog, hes⟩ := h.log
  rw [hlog, accepted_append hes]

/-- and completes none. -/
theorem Frame.completed_eq {t t' : Transport} (h : Frame t t') :
    completed t'.log = completed t.log := by
  obtain ⟨es, hlog, hes⟩ := h.log
  rw [hlog, completed_append hes]

/-- The write loop takes nothing from anyone. -/
theorem Event.accepted_of_writer {e : Event} (h : e.of_writer = true) : e.accepted = none := by
  cases e with
  | write _ | shutdown | resume_writing => rfl
  | _ => cases h

/-- So none of its turns adds to what was accepted. -/
theorem WriterDoes.accepted {t t' : Transport} {o : Option Exc} (h : WriterDoes t o t') :
    accepted t'.log = accepted t.log := by
  cases h with
  | moves => rfl
  | calls _ _ _ _ _ e _ he => simp [record, Event.accepted_of_writer he]
  | raised mark e =>
      unfold writer_raised
      dsimp only
      split
      · exact (lose_frame { t with writer_must_cancel := mark } _ _).accepted_eq
      · rfl
  | loses mark => exact (lose_frame { t with writer_must_cancel := mark } _ _).accepted_eq

/-- Only `write` gives a transport something to write. -/
theorem step_accepted {t t' : Transport} {l : Label} (h : step t l = some t')
    (hl : ∀ data, l ≠ .call (.write data)) : accepted t'.log = accepted t.log := by
  cases step_does h with
  | call c =>
      cases c with
      | write data => exact absurd rfl (hl data)
      | close => exact (close_frame t _).accepted_eq
      | abort => exact (lose_frame t _ _).accepted_eq
      | write_eof | pause_reading | resume_reading | set_protocol _
      | set_write_buffer_limits _ _ => rfl
  | cancel_reader => exact (cancel_reader_frame t).accepted_eq
  | cancel_writer => exact (cancel_writer_frame t).accepted_eq
  | made | read_done => rfl
  | write_done | shutdown_done | run_lost => simp [record, Event.accepted]
  | reader _ _ h => exact h.frame.accepted_eq
  | writer _ _ h => exact h.accepted

/-- A closing transport refuses every write. -/
theorem write_of_closing {t : Transport} (hc : t.closing = true) (data : Data) :
    write t data = record t (.write_called data true t.eof) := by
  unfold write
  rw [if_pos (by simp [hc]), hc]

/-- A closing transport takes no more data. -/
theorem step_accepted_of_closing {t t' : Transport} {l : Label} (hc : t.closing = true)
    (h : step t l = some t') : accepted t'.log = accepted t.log := by
  by_cases hl : ∃ data, l = .call (.write data)
  · obtain ⟨data, rfl⟩ := hl
    cases h
    simp [call, write_of_closing hc, record, Event.accepted]
  · exact step_accepted h fun data hd => hl ⟨data, hd⟩

/-! ## The work that is left

The measure that makes a close end: of the calm steps of a closing transport, those that flush
take one off, and the others leave it as it is. -/

/-- What may happen while a close is under way without breaking it. -/
def Label.calm : Label → Bool
  | .call .abort => false
  | l => l.orderly && l.failure.isNone

/-- The steps of the write loop, and of the carrier for it. -/
def Label.flushes : Label → Bool
  | .made | .write_done _ | .shutdown_done _ | .run_writer => true
  | _ => false

/-- The steps the write loop has left to its end, or until it sleeps, those for the queue
apart. Asleep, it has those for the shutdown still before it. -/
def Writer.work : Writer → ℕ
  | .unborn => 4
  | .wait .pending => 2
  | .start | .wait _ => 3
  | .write _ .pending => 4
  | .write _ _ => 3
  -- the rest of the step that called it comes with the return
  | .resume_writing => 2
  | .shutdown .pending => 2
  | .shutdown _ => 1
  | .ended _ => 0

/-- The steps the write loop has left, two for each queued write. -/
def work (t : Transport) : ℕ := 2 * t.queue.length + t.writer.work

/-- A calm step is orderly, -/
theorem Label.orderly_of_calm {l : Label} (h : l.calm = true) : l.orderly = true := by
  unfold Label.calm at h
  split at h
  · cases h
  · exact (Bool.and_eq_true_iff.1 h).1

/-- and brings no failure. -/
theorem Label.failure_of_calm {l : Label} (h : l.calm = true) : l.failure = none := by
  unfold Label.calm at h
  split at h
  · cases h
  · exact Option.isNone_iff_eq_none.1 (Bool.and_eq_true_iff.1 h).2

/-- Waking the write loop is a step more for it. -/
theorem set_wake_work (t : Transport) :
    work (set_wake t) ≤ work t + 1
      ∧ (t.writer ≠ .wait .pending → work (set_wake t) = work t) := by
  rcases set_wake_writer t with ⟨hw, -⟩ | ⟨hw, hw'⟩
  · have hsame : work (set_wake t) = work t := by
      rw [work, hw]
      rfl
    exact ⟨by omega, fun _ => hsame⟩
  · refine ⟨?_, fun hne => absurd hw hne⟩
    rw [work, work, hw, hw']
    exact Nat.le_refl _

/-- The top of the write loop. -/
theorem writer_top_work {t : Transport} (hm : t.writer_must_cancel = false) :
    work (writer_top t) = 2 * t.queue.length + 2 := by
  unfold writer_top
  split
  · rename_i hq
    split
    all_goals simp [hm, hq, work, shutdown_call, record, Writer.work, Await.suspend]
  · rename_i data rest hq
    simp [hm, hq, work, record, Writer.work, Await.suspend]
    omega

/-- Behind a write the loop has the rest of the queue and the shutdown before it, whether or
not it calls `resume_writing` first. -/
theorem check_low_work {t : Transport} (hm : t.writer_must_cancel = false) :
    work (check_low t) = 2 * t.queue.length + 2 := by
  unfold check_low
  split
  · rfl
  · exact writer_top_work hm

/-- A transport that is not lost, with no failure on its way. -/
structure Fine (t : Transport) : Prop where
  live : Live t
  healthy : ∀ e, ¬ Failing t e
  /-- A shutdown of the carrier that is done is on record. -/
  told : t.writer.shut = true → .shut true ∈ t.log

/-- What the carrier came back with was no failure, as none is on its way. -/
theorem Fine.ok_of_done {t : Transport} (ht : Fine t) {r : Except Exc Unit}
    (hfail : ∀ e, r = .error e → t.writer.failure = some e) : r = .ok () := by
  cases r with
  | ok u => rfl
  | error e => exact absurd (.inr (hfail e rfl)) (ht.healthy e)

/-- Each step of the write loop takes one off. It loses the transport only after the
shutdown. -/
theorem Fine.run_writer_work {t t' : Transport} (ht : Fine t) (h : run_writer t = some t') :
    work t = work t' + 1
      ∧ (t'.lost = false ∨ t.writer = .shutdown (.done (.ok ()))
        ∧ t' = shutdown_returned t (.ok ())) := by
  have hm := ht.live.writer_mark
  rcases ht.live.run_writer_cases h with ⟨hw, rfl⟩ | ⟨data, r, hw, rfl⟩ | ⟨r, hw, rfl⟩
  · have hat : t.writer ≠ .unborn ∧ t.writer.failure = none ∧ t.writer.work = 3 := by
      rcases hw with hw | ⟨u, hw⟩ <;> rw [hw] <;> exact ⟨by simp, rfl, rfl⟩
    refine ⟨?_, .inl (writer_top_goes ht.live hat.1 hat.2.1).live.lost⟩
    rw [writer_top_work hm, work, hat.2.2]
  · obtain rfl := ht.ok_of_done (r := r) (by rintro e rfl; rw [hw]; rfl)
    have hcount := ht.live.others rfl (t.queued - data.length) t.high t.low t.paused t.wake
      t.reading t.buffered t.losing
    have hlow := check_low_work (t := { t with queued := t.queued - data.length }) hm
    refine ⟨?_, .inl (check_low_goes hcount.live (by simp [hw]) (by rw [hw]; rfl)).live.lost⟩
    rw [write_returned, hlow, work, hw]
    rfl
  · obtain rfl := ht.ok_of_done (r := r) (by rintro e rfl; rw [hw]; rfl)
    refine ⟨?_, .inr ⟨hw, rfl⟩⟩
    have hq := (ht.live.last (by rw [hw]; simp [Writer.stage])).1
    have hqueue : (shutdown_returned t (.ok ())).queue = [] := by
      simp only [shutdown_returned, end_writer]
      split
      · exact (lose_frame t _ _).queue.trans hq
      · exact hq
    rw [work, work, hq, hqueue, hw]
    rfl

/-! ### What is on record of the shutdown -/

/-- The step in which the shutdown succeeds records it. -/
theorem shut_of_shuts {t t' : Transport} {l : Label} (hl : l.shuts = true)
    (h : step t l = some t') : .shut true ∈ t'.log := by
  cases step_cases h with
  | from_loop _ hloop =>
      cases from_loop_cases hloop with
      | shutdown_done r hw =>
          cases r with
          | ok u => exact List.mem_append_right _ (List.mem_singleton.2 rfl)
          | error e => cases hl
      | _ => cases hl
  | _ => cases hl

/-- The log only grows. -/
theorem run_log {t t' : Transport} {ls : List Label} (h : run step t ls = some t') :
    ∃ es, t'.log = t.log ++ es := by
  have hstep : ∀ (u : Transport) (l : Label) (v : Transport), (∃ es, u.log = t.log ++ es) →
      step u l = some v → ∃ es, v.log = t.log ++ es := by
    rintro u l v ⟨es, hlog⟩ hs
    obtain ⟨es', hlog'⟩ := step_log hs
    refine ⟨es ++ es', ?_⟩
    rw [hlog', hlog, List.append_assoc]
  exact run_inv step hstep ⟨[], (List.append_nil _).symm⟩ h

/-- A shutdown that succeeded in a run is on record at its end. -/
theorem shut_of_run {t t' : Transport} {ls : List Label} (h : run step t ls = some t')
    (hl : ∃ l ∈ ls, l.shuts = true) : .shut true ∈ t'.log := by
  obtain ⟨l, hl, hs⟩ := hl
  obtain ⟨pre, post, rfl⟩ := List.append_of_mem hl
  obtain ⟨u, -, hpost⟩ := (run_append_eq_some step).1 h
  obtain ⟨v, hv, hrest⟩ := (run_cons_eq_some step).1 hpost
  obtain ⟨es, hlog⟩ := run_log hrest
  rw [hlog]
  exact List.mem_append_left es (shut_of_shuts hs hv)

/-! ### Steps beside the write loop -/

/-- A step that neither brings the end nearer nor puts it off. -/
structure Beside (t t' : Transport) : Prop where
  work : work t' = work t
  lost : t'.lost = t.lost

/-- A second `close()` does nothing. -/
theorem close_of_closing {t : Transport} (hc : t.closing = true) (cur : Option Side) :
    close t cur = t := if_pos hc

/-- No method but `abort()` changes how much is left of a close. -/
theorem call_beside {t : Transport} (ht : Live t) (hc : t.closing = true) {c : Call}
    (hne : c ≠ .abort) : Beside t (call t c) := by
  cases c with
  | write data =>
      rw [call, write_of_closing hc]
      exact ⟨rfl, rfl⟩
  | write_eof =>
      refine ⟨(set_wake_work { t with eof := true }).2 fun hw => ?_, rfl⟩
      have hopen := (ht.awake hw).2.2
      rw [hc] at hopen
      cases hopen
  | close =>
      rw [call, close_of_closing hc]
      exact ⟨rfl, rfl⟩
  | abort => contradiction
  | pause_reading | resume_reading | set_protocol _ | set_write_buffer_limits _ _ =>
      exact ⟨rfl, rfl⟩

/-- What may give the write loop something to do. -/
def Label.asks : Label → Bool
  | .call (.write _) | .call .write_eof | .call .close | .call .abort => true
  | .returns (.keep_open false) => true
  | _ => false

/-- The read loop has no part in the close: neither at its top -/
theorem reader_top_beside (t : Transport) : Beside t (reader_top t) := by
  unfold reader_top
  split <;> exact ⟨rfl, rfl⟩

/-- nor in `_deliver`. -/
theorem deliver_view_beside (t : Transport) (view : Bytes) : Beside t (deliver_view t view) := by
  unfold deliver_view
  split
  · exact reader_top_beside t
  · exact ⟨rfl, rfl⟩

/-- A callback that returns changes nothing either. Before the close it may, by the `close()`
after `eof_received`. -/
theorem returns_beside {t t' : Transport} {a : Answer} (ht : Live t)
    (hquiet : t.closing = true ∨ (Label.returns a).asks = false) (h : returns t a = some t') :
    Beside t t' := by
  unfold returns at h
  split at h
  · cases h
    exact reader_top_beside t
  · cases h
    exact ⟨rfl, rfl⟩
  · cases h
    exact deliver_view_beside t _
  · rename_i b _
    cases h
    cases b with
    | true => exact ⟨rfl, rfl⟩
    | false =>
        rw [close_of_closing (hquiet.resolve_right (by rintro ⟨⟩))]
        exact ⟨rfl, rfl⟩
  · have hw : t.writer = .resume_writing := by assumption
    cases h
    refine ⟨?_, (writer_top_goes ht (by simp [hw]) (by rw [hw]; rfl)).live.lost.trans
      ht.lost.symm⟩
    rw [writer_top_work ht.writer_mark, work, hw]
    rfl
  · cases h

/-- A turn of the read loop neither hastens nor delays the end. -/
theorem Fine.run_reader_beside {t t' : Transport} (ht : Fine t) (h : run_reader t = some t') :
    Beside t t' := by
  rcases ht.live.run_reader_cases h with ⟨-, rfl⟩ | ⟨-, rfl⟩ | ⟨r, hr, rfl⟩
  · exact reader_top_beside t
  · exact ⟨rfl, rfl⟩
  · unfold read_returned
    split
    · exact ⟨rfl, rfl⟩
    · unfold deliver
      split
      · exact deliver_view_beside t _
      · exact ⟨rfl, rfl⟩
    · exact absurd (.inl (by rw [hr]; rfl)) (ht.healthy _)

/-- **Every calm step is counted**: one of the write loop takes one off, and no other
changes the work that is left, unless it asks an open transport for something. -/
theorem Fine.step_work {t t' : Transport} {l : Label} (ht : Fine t) (hl : l.calm = true)
    (hquiet : t.closing = true ∨ l.asks = false) (h : step t l = some t') :
    work t = l.flushes.toNat + work t'
      ∧ (t'.lost = false ∨ t.writer = .shutdown (.done (.ok ()))
        ∧ t' = shutdown_returned t (.ok ())) := by
  have hlost := ht.live.lost
  -- whoever is not the writer leaves its work as it was
  have hbeside : ∀ {u : Transport}, Beside t u → l.flushes = false →
      work t = l.flushes.toNat + work u
        ∧ (u.lost = false ∨ t.writer = .shutdown (.done (.ok ()))
          ∧ u = shutdown_returned t (.ok ())) := by
    intro u hu hf
    rw [hu.work, hf]
    exact ⟨(Nat.zero_add _).symm, .inl (hu.lost.trans hlost)⟩
  cases step_cases h with
  | call c =>
      refine hbeside ?_ rfl
      -- a call on a closing transport adds nothing, and without one it must not ask for
      -- anything
      rcases hquiet with hc | hq
      · refine call_beside ht.live hc ?_
        rintro rfl
        cases hl
      · cases c with
        | write _ | write_eof | close | abort => cases hq
        | pause_reading | resume_reading | set_protocol _ | set_write_buffer_limits _ _ =>
            exact ⟨rfl, rfl⟩
  | returns hret => exact hbeside (returns_beside ht.live hquiet hret) rfl
  | raises _ | cancel_reader | cancel_writer => cases hl
  | from_loop _ hloop =>
      cases from_loop_cases hloop with
      | made hr hw | write_done data r hw | shutdown_done r hw =>
          refine ⟨?_, .inl hlost⟩
          rw [work, work, hw]
          exact Nat.add_comm _ 1
      | read_done r hr => exact hbeside ⟨rfl, rfl⟩ rfl
      | run_lost exc rest hlosing => exact hbeside ⟨rfl, rfl⟩ rfl
      | run_reader hrun => exact hbeside (ht.run_reader_beside hrun) rfl
      | run_writer hrun =>
          obtain ⟨hwork, hends⟩ := ht.run_writer_work hrun
          exact ⟨hwork.trans (Nat.add_comm _ 1), hends⟩

/-- A calm step that does not lose the transport leaves it fine. -/
theorem Fine.stays {t t' : Transport} {l : Label} (ht : Fine t) (hl : l.calm = true)
    (h : step t l = some t') (hlost : t'.lost = false) : Fine t' := by
  have hcaught : ∀ e, Failing t e → e.caught = true := fun e he => absurd he (ht.healthy e)
  cases step_outcome ht.live (Label.orderly_of_calm hl) hcaught h with
  | goes hg _ _ =>
      refine ⟨hg.live, fun e he => ?_, fun hs => ?_⟩
      · rcases (hg.failing e).1 he with he | he
        · exact ht.healthy e he
        · rw [Label.failure_of_calm hl] at he
          cases he
      · rcases hg.shut hs with hs | hs
        · obtain ⟨es, hlog⟩ := step_log h
          rw [hlog]
          exact List.mem_append_left es (ht.told hs)
        · exact shut_of_shuts hs h
  | reported _ hl' _ _ | unreported _ _ hl' _ =>
      rw [hlost] at hl'
      cases hl'

/-! ### The write loop goes on -/

/-- A write loop that has been answered can have its turn. -/
theorem run_writer_of_done {t : Transport} (ht : Live t)
    (h : t.writer = .start ∨ (∃ u, t.writer = .wait (.done u))
      ∨ (∃ data r, t.writer = .write data (.done r)) ∨ ∃ r, t.writer = .shutdown (.done r)) :
    ∃ t', run_writer t = some t' := by
  unfold run_writer
  rw [ht.writer_mark]
  rcases h with hw | ⟨u, hw⟩ | ⟨data, r, hw⟩ | ⟨r, hw⟩
  all_goals
    rw [hw]
    exact ⟨_, rfl⟩

/-- A write loop that is neither asleep nor over has a next step of its own, or the
carrier has one for it. -/
theorem Live.next {t : Transport} (ht : Live t) (hw : t.writer.idle = false)
    (hcur : current t = none) :
    ∃ l t', l.flushes = true ∧ l.calm = true ∧ (t.writer ≠ .unborn → l ≠ .made)
      ∧ step t l = some t' := by
  have hplain := ht.writer
  -- wherever the writer has a result in hand, the next step is to run it
  have hruns : (∃ t', run_writer t = some t') → ∃ l t', l.flushes = true ∧ l.calm = true
      ∧ (t.writer ≠ .unborn → l ≠ .made) ∧ step t l = some t' := by
    rintro ⟨t', h⟩
    exact ⟨.run_writer, t', rfl, rfl, fun _ => by simp, (if_pos hcur).trans h⟩
  cases hwriter : t.writer with
  | unborn =>
      refine ⟨.made, { t with reader := .start, writer := .start }, rfl, rfl,
        fun hne => absurd rfl hne, (if_pos hcur).trans ?_⟩
      rw [from_loop, ht.unborn.2 hwriter, hwriter]
  | start => exact hwriter ▸ hruns (run_writer_of_done ht (.inl hwriter))
  | wait f =>
      cases f with
      | pending =>
          rw [hwriter] at hw
          cases hw
      | done u => exact hwriter ▸ hruns (run_writer_of_done ht (.inr (.inl ⟨u, hwriter⟩)))
      | cancelled =>
          rw [hwriter] at hplain
          cases hplain
  | write data f =>
      cases f with
      | pending =>
          -- the carrier may complete the write; that it does is the step that is asked for
          refine ⟨.write_done (.ok ()), record { t with writer := .write data (.done (.ok ())) }
            (.wrote data true), rfl, rfl, fun _ => by simp, (if_pos hcur).trans ?_⟩
          rw [from_loop, hwriter]
          rfl
      | done r =>
          exact hwriter ▸ hruns (run_writer_of_done ht (.inr (.inr (.inl ⟨data, r, hwriter⟩))))
      | cancelled =>
          rw [hwriter] at hplain
          cases hplain
  | resume_writing => exact absurd hwriter (current_eq_none.1 hcur).2
  | shutdown f =>
      cases f with
      | pending =>
          refine ⟨.shutdown_done (.ok ()), record { t with writer := .shutdown (.done (.ok ())) }
            (.shut true), rfl, rfl, fun _ => by simp, (if_pos hcur).trans ?_⟩
          rw [from_loop, hwriter]
          rfl
      | done r =>
          exact hwriter ▸ hruns (run_writer_of_done ht (.inr (.inr (.inr ⟨r, hwriter⟩))))
      | cancelled =>
          rw [hwriter] at hplain
          cases hplain
  | ended e =>
      rw [hwriter] at hw
      cases hw

/-- `close()` has woken the write loop, and it reports the end. -/
theorem Live.busy_of_closing {t : Transport} (ht : Live t) (hc : t.closing = true) :
    t.writer.idle = false := by
  unfold Writer.idle
  split
  · rename_i hw
    have hopen := (ht.awake hw).2.2
    rw [hc] at hopen
    cases hopen
  · rename_i hw
    exact absurd (by rw [hw]; rfl) (ht.ended hc)
  · rfl

/-- A write loop that is neither asleep nor over has something left. -/
theorem work_pos {t : Transport} (hw : t.writer.idle = false) : 0 < work t := by
  refine Nat.add_pos_right _ ?_
  cases hwriter : t.writer with
  | ended e =>
      rw [hwriter] at hw
      cases hw
  | wait f | write _ f | shutdown f => cases f <;> exact Nat.succ_pos _
  | unborn | start | resume_writing => exact Nat.succ_pos _

/-! ## The end of a close -/

/-- The close is over: it was reported, everything was written, and the carrier was shut
down behind it. -/
structure Flushed (t : Transport) : Prop where
  lost : t.lost = true
  closing : t.closing = true
  ended : t.writer.stage = .ended
  queue : t.queue = []
  report : reports t.log = [none]
  shut : .shut true ∈ t.log
  all : completed t.log = accepted t.log

/-- After the close nothing is left. -/
theorem Flushed.work {t : Transport} (ht : Flushed t) : work t = 0 := by
  obtain ⟨e, hw⟩ := stage_eq_ended ht.ended
  rw [CarrierTransport.work, ht.queue, hw]
  rfl

/-- `await self._stream.shutdown()` is the last thing the write loop waits for. -/
theorem Fine.flushed {t : Transport} (ht : Fine t) (hi : Inv t) (hc : t.closing = true)
    (hw : t.writer = .shutdown (.done (.ok ()))) : Flushed (shutdown_returned t (.ok ())) := by
  have hborn : t.reader ≠ .unborn := ht.live.born (by simp [hw])
  have hframe := lose_frame t (some .writer) none
  obtain ⟨hlost, hrep⟩ := lose_reports ht.live.lost hborn (some .writer) none
  -- nothing is queued or in flight any more
  have hq := (ht.live.last (by rw [hw]; simp [Writer.stage])).1
  have hqueue := hi.queue
  have hflight := hi.flight (by rw [hw]; simp [Writer.stage])
  rw [hq, List.append_nil] at hqueue
  rw [hw] at hflight
  simp only [shutdown_returned, hc, if_true]
  refine ⟨hlost, hframe.closing hc, rfl, hframe.queue.trans hq, ?_, ?_, ?_⟩
  · rw [end_writer, hrep, ht.live.silent]
    rfl
  · obtain ⟨es, hlog, -⟩ := hframe.log
    rw [end_writer, hlog]
    exact List.mem_append_left es (ht.told (by rw [hw]; rfl))
  · rw [end_writer, hframe.completed_eq, hframe.accepted_eq, hqueue, hflight]
    exact (List.append_nil _).symm

/-- A method of a closing transport leaves its writes alone. -/
theorem call_frame {t : Transport} (hc : t.closing = true) (c : Call) : Frame t (call t c) := by
  cases c with
  | write data =>
      rw [call, write_of_closing hc]
      exact .record (.refl t) ⟨rfl, rfl, rfl, by simp⟩
  | write_eof =>
      have hflag : Frame t { t with eof := true } := .of_flag rfl (fun _ => rfl) id rfl rfl
      exact hflag.trans (set_wake_frame _)
  | close => exact close_frame t _
  | abort => exact lose_frame t _ _
  | resume_reading => exact set_reading_frame t
  | pause_reading | set_protocol _ | set_write_buffer_limits _ _ =>
      exact .of_eq rfl rfl rfl rfl rfl

/-- Once the write loop has ended, a closing transport leaves the writes alone. -/
theorem frame_of_ended {t t' : Transport} {l : Label} (hw : t.writer.stage = .ended)
    (hc : t.closing = true) (h : step t l = some t') : Frame t t' ∧ l.flushes = false := by
  obtain ⟨e, hw⟩ := stage_eq_ended hw
  cases step_cases h with
  | call c => exact ⟨call_frame hc c, rfl⟩
  | returns hret =>
      rcases returns_side hret with ⟨-, hr⟩ | ⟨hw', -⟩
      · exact ⟨hr.frame, rfl⟩
      · rw [hw] at hw'
        cases hw'
  | raises hraise =>
      rcases raises_side hraise with ⟨-, hr⟩ | ⟨hw', -⟩
      · exact ⟨hr.frame, rfl⟩
      · rw [hw] at hw'
        cases hw'
  | cancel_reader => exact ⟨cancel_reader_frame t, rfl⟩
  | cancel_writer => exact ⟨cancel_writer_frame t, rfl⟩
  | from_loop _ hloop =>
      cases from_loop_cases hloop with
      | made _ hw' | write_done _ _ hw' | shutdown_done _ hw' =>
          rw [hw] at hw'
          cases hw'
      | read_done => exact ⟨.of_eq rfl rfl rfl rfl rfl, rfl⟩
      | run_reader hrun => exact ⟨(run_reader_does hrun).2.frame, rfl⟩
      | run_writer hrun =>
          have halive := (run_writer_does hrun).1
          rw [hw] at halive
          cases halive
      | run_lost =>
          exact ⟨.record (.of_eq rfl rfl rfl rfl rfl) ⟨rfl, rfl, rfl, by simp⟩, rfl⟩

/-- A close that is over stays over, and the write loop takes no more steps. -/
theorem Flushed.step {t t' : Transport} {l : Label} (ht : Flushed t) (h : step t l = some t') :
    Flushed t' ∧ l.flushes = false := by
  have hkeeps := step_keeps h
  obtain ⟨hframe, hf⟩ := frame_of_ended ht.ended ht.closing h
  refine ⟨⟨hkeeps.lost ht.lost, step_closing h ht.closing, hframe.stage.trans ht.ended,
    hframe.queue.trans ht.queue, (hkeeps.reports ht.lost).trans ht.report, ?_, ?_⟩, hf⟩
  · obtain ⟨es, hlog, -⟩ := hframe.log
    rw [hlog]
    exact List.mem_append_left es ht.shut
  · rw [hframe.completed_eq, hframe.accepted_eq]
    exact ht.all

/-! ## Whole runs

`Closing` is the invariant of a calm run after a `close()`, and holds the end of it too, since
the loops may have steps left after the report. -/

/-- A close under way, or over. -/
inductive Closing (t : Transport) : Prop where
  | goes (hfine : Fine t) (hc : t.closing = true) (hi : Inv t)
  | done (h : Flushed t)

/-- Under way or over, the flag is set. -/
theorem Closing.closing {t : Transport} (h : Closing t) : t.closing = true := by
  cases h with
  | goes _ hc _ => exact hc
  | done h => exact h.closing

/-- **A calm step takes one off the work exactly if it is one of the write loop's.** -/
theorem Closing.step {t t' : Transport} {l : Label} (ht : Closing t) (hl : l.calm = true)
    (h : step t l = some t') : Closing t' ∧ work t = l.flushes.toNat + work t' := by
  cases ht with
  | goes hfine hc hi =>
      obtain ⟨hwork, hlost | ⟨hw, rfl⟩⟩ := hfine.step_work hl (.inl hc) h
      · exact ⟨.goes (hfine.stays hl h hlost) (step_closing h hc) (step_inv hi h), hwork⟩
      · exact ⟨.done (hfine.flushed hi hc hw), hwork⟩
  | done ht =>
      obtain ⟨ht', hf⟩ := ht.step h
      refine ⟨.done ht', ?_⟩
      rw [ht.work, ht'.work, hf]
      rfl

/-- A calm run counts down by its steps of the write loop, and takes no more writes. -/
theorem run_closing_work {t t' : Transport} {ls : List Label} (ht : Closing t)
    (h : run step t ls = some t') (hl : ∀ l ∈ ls, l.calm = true) :
    Closing t' ∧ work t = ls.countP Label.flushes + work t'
      ∧ accepted t'.log = accepted t.log := by
  refine @run_inv_past _ _ step (fun ls u => (∀ l ∈ ls, l.calm = true) →
    Closing u ∧ work t = ls.countP Label.flushes + work u
      ∧ accepted u.log = accepted t.log) ?_ _ _ _ ?_ h hl
  · intro ls u l v hu hs hl
    rw [List.forall_mem_append, List.forall_mem_singleton] at hl
    obtain ⟨hclosing, hwork, hacc⟩ := hu hl.1
    obtain ⟨hv, hone⟩ := hclosing.step hl.2 hs
    refine ⟨hv, ?_, (step_accepted_of_closing hclosing.closing hs).trans hacc⟩
    rw [countP_snoc, hwork, hone, Nat.add_assoc]
  · intro _
    exact ⟨ht, (Nat.zero_add _).symm, rfl⟩

/-- **A close flushes, whatever else happens.** Let a transport be closing after any
orderly run, with no failure on its way, and let it go on in any way that does not break
the close. It takes no more data. As soon as the write loop has made the steps it had left,
exactly as many as `work` says, everything it was given has been written and
`connection_lost(None)` is scheduled. Until then it is not lost, and the write loop's next
step is there unless a method of the protocol is running. -/
theorem close_flushes {buffered : Bool} {ls : List Label} {t : Transport}
    (h : run step (init buffered) ls = some t) (ho : ∀ l ∈ ls, l.orderly = true)
    (hc : t.closing = true) (hlost : t.lost = false) (hf : ∀ e, ¬ Failing t e)
    {more : List Label} {t' : Transport} (h' : run step t more = some t')
    (hcalm : ∀ l ∈ more, l.calm = true) :
    accepted t'.log = accepted t.log
    ∧ more.countP Label.flushes ≤ work t
    ∧ (more.countP Label.flushes = work t →
        reports t'.log = [none] ∧ completed t'.log = accepted t.log)
    ∧ (more.countP Label.flushes < work t →
        t'.lost = false ∧ (current t' = none →
          ∃ l t'', l.flushes = true ∧ l.calm = true ∧ step t' l = some t'')) := by
  have hfine : Fine t := by
    cases run_past h ho with
    | live ht _ _ _ hshut => exact ⟨ht, hf, fun hs => shut_of_run h (hshut hs)⟩
    | reported _ hl | unreported hl _ =>
        rw [hlost] at hl
        cases hl
  have hclosing : Closing t :=
    .goes hfine hc (run_inv step (fun _ _ _ => step_inv) (init_inv buffered) h)
  obtain ⟨ht', hwork, hacc⟩ := run_closing_work hclosing h' hcalm
  refine ⟨hacc, by omega, ?_⟩
  cases ht' with
  | goes hfine hc' hi =>
      have hbusy := hfine.live.busy_of_closing hc'
      have hpos := work_pos hbusy
      refine ⟨fun heq => by omega, fun _ => ⟨hfine.live.lost, fun hcur => ?_⟩⟩
      obtain ⟨l, t'', hfl, hl, -, hstep⟩ := hfine.live.next hbusy hcur
      exact ⟨l, t'', hfl, hl, hstep⟩
  | done hdone =>
      have hzero := hdone.work
      refine ⟨fun _ => ⟨hdone.report, ?_⟩, fun hlt => by omega⟩
      rw [hdone.all, hacc]

/-- Two writes, and then the close. -/
def two_then_close : List Label :=
  [.made, .run_reader, .run_writer, .call (.write (.ofBytes [1, 2])),
    .call (.write (.ofBytes [3])), .call .close]

/-- Data comes in on the way, and the protocol answers it, too late. -/
def late_answer : List Label :=
  [.run_writer, .read_done (.ok [9]), .run_reader, .call (.write (.ofBytes [7])),
    .returns .none, .write_done (.ok ()), .run_writer, .write_done (.ok ()), .run_writer,
    .shutdown_done (.ok ()), .run_writer]

theorem close_flushes_two :
    ∃ t t', run step (init false) two_then_close = some t ∧ work t = 7
      ∧ run step t late_answer = some t' ∧ accepted t.log = [[1, 2], [3]]
      ∧ reports t'.log = [none] ∧ completed t'.log = accepted t.log :=
  ⟨_, _, rfl, by decide, rfl, by decide,
    (@close_flushes false two_then_close _ rfl (by decide) rfl rfl
      (by rintro e (h | h) <;> cases h) late_answer _ rfl (by decide)).2.2.1 (by decide)⟩

end ZmuxPy.CarrierTransport
