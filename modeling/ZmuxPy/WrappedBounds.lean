/-
What a wrapped carrier holds in memory.

Every way through it is bounded by a protocol of its own: the channels by their depth,
the transport's queue by `pause_writing` and `drain`, the `StreamReader` by
`pause_reading`. The marks alone bound nothing, since a write and a read are taken
whole; what bounds the queue is that `down` drains after each write, so that a write is
made only while the transport is not paused (`Outgoing.drained`), and what bounds the
reader is that it pauses from inside `data_received`, where the read loop has nothing
more to deliver (`Incoming.rests`).
-/
import ZmuxPy.TransportFlow
import ZmuxPy.WrappedReads

set_option autoImplicit false

namespace ZmuxPy.CarrierTransport

open Machine Asyncio

/-! ## The queue of the transport sinks but for writes

A step of the transport is one or the other, `Sinks` or `Fills`, as long as the marks are not
set anew. The bound needs no more of it. -/

/-- A step that is no write. `slack` is what `_queued` counts beyond the bytes that are
queued or in flight: those of a write that failed stay counted. -/
structure Sinks (t t' : Transport) : Prop where
  low : t'.low = t.low
  queued : t'.queued ≤ t.queued
  slack : t.queued - size (unsent t) ≤ t'.queued - size (unsent t')
  paused : t'.paused = true → t.paused = true
  resumed : t'.paused = false → t.paused = false ∨ t'.queued ≤ t.low

/-- The queue sinks and sinks again. -/
theorem Sinks.trans {t u v : Transport} (h₁ : Sinks t u) (h₂ : Sinks u v) : Sinks t v := by
  refine ⟨h₂.low.trans h₁.low, Int.le_trans h₂.queued h₁.queued,
    Int.le_trans h₁.slack h₂.slack, fun h => h₁.paused (h₂.paused h), fun h => ?_⟩
  rcases h₂.resumed h with hu | hq
  · exact (h₁.resumed hu).imp id (Int.le_trans h₂.queued)
  · exact .inr (h₁.low ▸ hq)

/-- The same count, with no more queued or in flight. -/
theorem Sinks.of_eq {t t' : Transport} (hl : t'.low = t.low) (hq : t'.queued = t.queued)
    (hp : t'.paused = t.paused) (hu : size (unsent t') ≤ size (unsent t)) : Sinks t t' :=
  ⟨hl, Int.le_of_eq hq, by omega, fun h => hp ▸ h, fun h => .inl (hp ▸ h)⟩

/-- A step with no part in the flow control leaves the queue as it is. -/
theorem Aside.sinks {t t' : Transport} (h : Aside t t') : Sinks t t' := by
  refine .of_eq h.limits.2 h.queued h.paused (Int.le_of_eq ?_)
  rw [unsent, h.flight, h.queue]
  rfl

/-- The end of the write loop leaves it, too, with what was in flight still counted. -/
theorem end_writer_sinks (t : Transport) (e : Ended) : Sinks t (end_writer t e) := by
  refine .of_eq rfl rfl rfl ?_
  have := size_nonneg t.writer.flight
  change size ([] ++ t.queue) ≤ size (t.writer.flight ++ t.queue)
  rw [size_append, size_append, size_nil]
  omega

/-- So does an exception in the write loop. -/
theorem writer_raised_sinks (t : Transport) (r : Raised) : Sinks t (writer_raised t r) := by
  cases r with
  | cancelled_error => exact end_writer_sinks t .cancelled
  | exc e =>
      unfold writer_raised
      dsimp only
      split
      · exact (lose_aside t _ _).sinks.trans (end_writer_sinks _ _)
      · exact end_writer_sinks t _

/-- A write that is taken off the queue is still counted. -/
theorem writer_top_sinks {t : Transport} (hf : t.writer.flight = []) :
    Sinks t (writer_top t) := by
  have hu : unsent t = t.queue := by rw [unsent, hf, List.nil_append]
  have hout : unsent (writer_top t) = t.queue := by
    unfold writer_top
    split
    · split <;> rfl
    · rename_i hq
      rw [hq]
      rfl
  have hsame : (writer_top t).low = t.low ∧ (writer_top t).queued = t.queued
      ∧ (writer_top t).paused = t.paused := by
    unfold writer_top
    split
    · split <;> exact ⟨rfl, rfl, rfl⟩
    · exact ⟨rfl, rfl, rfl⟩
  exact .of_eq hsame.1 hsame.2.1 hsame.2.2 (Int.le_of_eq (by rw [hout, hu]))

/-- A write that is done leaves the count, and the low mark is looked at. -/
theorem write_returned_sinks {t : Transport} {data : Bytes} {f : Await (Except Exc Unit)}
    (hw : t.writer = .write data f) (r : Except Exc Unit) :
    Sinks t (write_returned t data r) := by
  cases r with
  | error e => exact writer_raised_sinks t (.exc e)
  | ok u =>
      have hu : size (unsent t) = data.length + size t.queue := by
        rw [unsent, hw, size_append]
        simp [Writer.flight]
      have hstart : Sinks t { t with queued := t.queued - data.length, writer := .start } := by
        refine ⟨rfl, Int.sub_le_self _ (Int.natCast_nonneg _), ?_, id, .inl⟩
        change _ ≤ t.queued - data.length - size ([] ++ t.queue)
        rw [List.nil_append]
        omega
      simp only [write_returned, check_low]
      split
      · rename_i hlow
        simp only [Bool.and_eq_true, decide_eq_true_eq] at hlow
        refine ⟨rfl, hstart.queued, hstart.slack, fun h => ?_, fun _ => .inr hlow.2⟩
        cases h
      · exact hstart.trans (writer_top_sinks rfl)

/-- A turn of the write loop only ever takes off the count, and resumes the protocol only below
the low mark. -/
theorem run_writer_sinks {t t' : Transport} (h : run_writer t = some t') : Sinks t t' := by
  have hmark : Sinks t { t with writer_must_cancel := false } := .of_eq rfl rfl rfl (Int.le_refl _)
  unfold run_writer at h
  split at h
  · rename_i hw
    cases h
    split
    · exact end_writer_sinks t _
    · exact writer_top_sinks (by rw [hw]; rfl)
  · rename_i f hw
    obtain ⟨r, -, rfl⟩ := Option.map_eq_some_iff.1 h
    split
    · exact hmark.trans (writer_top_sinks (by rw [hw]; rfl))
    · exact end_writer_sinks t _
  · rename_i data f hw
    obtain ⟨r, -, rfl⟩ := Option.map_eq_some_iff.1 h
    split
    · exact hmark.trans
        (write_returned_sinks (t := { t with writer_must_cancel := false }) hw _)
    · exact end_writer_sinks t _
  · obtain ⟨r, -, rfl⟩ := Option.map_eq_some_iff.1 h
    split
    · rename_i r
      refine hmark.trans ?_
      cases r with
      | error e => exact writer_raised_sinks _ (.exc e)
      | ok u =>
          simp only [shutdown_returned]
          split
          · exact (lose_aside _ _ _).sinks.trans (end_writer_sinks _ _)
          · exact end_writer_sinks _ _
    · exact end_writer_sinks t _
  · cases h

/-- Every step that is no write does. -/
theorem step_sinks {t t' : Transport} {l : Label} (h : step t l = some t')
    (hs : l.sets = false) (hl : ∀ data, l ≠ .call (.write data)) : Sinks t t' := by
  cases step_cases h with
  | call c =>
      cases c with
      | write data => exact absurd rfl (hl data)
      | close => exact (close_aside t _).sinks
      | abort => exact (lose_aside t _ _).sinks
      | pause_reading | resume_reading => exact .of_eq rfl rfl rfl (Int.le_refl _)
      | set_protocol _ | set_write_buffer_limits _ _ | write_eof => cases hs
  | returns h =>
      rcases returns_side h with ⟨-, hr⟩ | ⟨hw, rfl⟩
      · exact hr.aside.sinks
      · exact writer_top_sinks (by rw [hw]; rfl)
  | raises h =>
      rcases raises_side h with ⟨-, hr⟩ | ⟨-, rfl⟩
      · exact hr.aside.sinks
      · exact writer_raised_sinks t _
  | cancel_reader => exact (cancel_reader_aside t).sinks
  | cancel_writer => exact (cancel_writer_aside t).sinks
  | from_loop _ h =>
      cases from_loop_cases h with
      | made hr hw => exact .of_eq rfl rfl rfl (Int.le_of_eq (by rw [unsent, unsent, hw]; rfl))
      | read_done | run_lost => exact .of_eq rfl rfl rfl (Int.le_refl _)
      | write_done _ _ hw | shutdown_done _ hw =>
          exact .of_eq rfl rfl rfl (Int.le_of_eq (by rw [unsent, unsent, hw]; rfl))
      | run_reader hrun => exact (run_reader_does hrun).2.aside.sinks
      | run_writer hrun => exact run_writer_sinks hrun

/-- A transport that is closing takes no write. -/
theorem write_refused {t : Transport} {data : Data} (hc : t.closing = true) :
    Sinks t (write t data) := by
  rw [write, hc, Bool.true_or, Bool.true_or, if_pos rfl]
  exact .of_eq rfl rfl rfl (Int.le_refl _)

/-- A write is taken whole, and pauses the protocol if it goes above the high mark. -/
structure Fills (t : Transport) (b : Bytes) (t' : Transport) : Prop where
  queued : t'.queued ≤ t.queued + b.length
  slack : t.queued - size (unsent t) ≤ t'.queued - size (unsent t')
  paused : t'.paused = false → t.paused = false
  high : t'.paused = false → t.queued ≤ t.high → t'.queued ≤ t.high

/-- A write adds its bytes, and leaves an unpaused protocol below the high mark. -/
theorem write_fills (t : Transport) (data : Data) : Fills t data.bytes (write t data) := by
  unfold write
  split
  · exact ⟨by simp only [record]; omega, Int.le_refl _, id, fun _ h => h⟩
  · generalize hu : enqueue (record t (.write_called data t.closing t.eof)) data.bytes = u
    have hq : u.queued = t.queued + data.bytes.length := by rw [← hu]; rfl
    have hp : u.paused = t.paused := by rw [← hu]; rfl
    have hh : u.high = t.high := by rw [← hu]; rfl
    have hsize : size (unsent u) = size (unsent t) + data.bytes.length := by
      rw [← hu, enqueue_unsent, size_append, size_cons, size_nil, Int.add_zero]
      rfl
    unfold check_high
    split
    · refine ⟨Int.le_of_eq hq, ?_, fun h => ?_, fun h => ?_⟩
      · change _ ≤ u.queued - size (unsent u)
        omega
      · cases h
      · cases h
    · rename_i hno
      refine ⟨Int.le_of_eq hq, by omega, fun h => hp ▸ h, fun h _ => ?_⟩
      simp only [h, Bool.not_false, Bool.true_and, decide_eq_true_eq, hh] at hno
      omega

/-! ## What the read loop holds -/

/-- The read loop holds one read of the carrier at a time. -/
theorem ReadLoop.Turn.held_le {s s' : ReadLoop} {l : Label} {es : List Event} {n : ℕ}
    (h : s.Turn l s' es) (hs : s.reader.held.length ≤ n) (hl : l.brings.length ≤ n) :
    s'.reader.held.length ≤ n := by
  cases h with
  | aside | marked | pause => exact hs
  | resume =>
      unfold Reader.resumed
      split
      · exact Nat.zero_le n
      · exact hs
  | read_done mark reading r =>
      cases r with
      | ok b => exact hl
      | error e => exact Nat.zero_le n
  | get_buffer | get_more => exact hs
  | buffer_updated mark reading view k =>
      refine Nat.le_trans ?_ hs
      simp [Reader.held]
  | wait | read => cases s.mark <;> exact Nat.zero_le n
  | _ => exact Nat.zero_le n

/-- Data is delivered by a loop that is not at rest, and the loop rests then. -/
theorem ReadLoop.Turn.delivers {s s' : ReadLoop} {l : Label} {data : Bytes}
    (h : s.Turn l s' [.data_received data]) :
    s.reader.held = data ∧ s.at_rest = false ∧ s'.reader = .data_received := by
  cases h with
  | data_received reading _ hne =>
      refine ⟨rfl, ?_, rfl⟩
      cases data with
      | nil => exact absurd rfl hne
      | cons x data => rfl

end ZmuxPy.CarrierTransport

namespace ZmuxPy.LayerChannel

open Asyncio

/-! ## What the channels hold -/

/-- At most `DEPTH` messages each way, and no more than `n` bytes in one from the layer. -/
structure Small (n : ℕ) (s : Layer) : Prop where
  out : s.out.length ≤ DEPTH
  inn : s.inn.length ≤ DEPTH
  messages : ∀ b ∈ s.inn, b.length ≤ n
  flight : s.up.flight.length ≤ n
  buf : s.buf.length ≤ n

/-- At first the channels are empty. -/
theorem init_small (n : ℕ) : Small n init :=
  ⟨Nat.zero_le _, Nat.zero_le _, nofun, Nat.zero_le n, Nat.zero_le n⟩

/-- `recv` takes messages off the channel. -/
theorem recv_small {buf : Bytes} {q : List Bytes} {n : ℕ} (hb : buf.length ≤ n)
    (hq : ∀ b ∈ q, b.length ≤ n) :
    (recv buf q).1.length ≤ n ∧ (recv buf q).2 <:+ q := by
  fun_induction recv buf q with
  | case1 b rest ih =>
      obtain ⟨hle, hsuf⟩ :=
        ih (hq b List.mem_cons_self) fun c hc => hq c (List.mem_cons_of_mem b hc)
      exact ⟨hle, hsuf.trans (List.suffix_cons b rest)⟩
  | case2 buf q => exact ⟨hb, List.suffix_refl q⟩

/-- A step that leaves the channels alone. -/
theorem Small.frame {s s' : Layer} {n : ℕ} (hs : Small n s) (ho : s'.out = s.out)
    (hi : s'.inn = s.inn) (hb : s'.buf = s.buf) (hf : s'.up.flight.length ≤ n) : Small n s' :=
  ⟨ho ▸ hs.out, hi ▸ hs.inn, hi ▸ hs.messages, hf, hb ▸ hs.buf⟩

/-- The session's write waits for a place in the channel, -/
theorem poll_write_small {s s' : Layer} {data : Bytes} {ready : Bool} {r : WritePoll} {n : ℕ}
    (hs : Small n s) (h : poll_write s data ready = some (s', r)) : Small n s' := by
  unfold poll_write at h
  split at h
  · cases h
    exact hs
  · split at h
    · cases h
      exact hs.frame rfl rfl rfl hs.flight
    · split at h
      · cases h
        exact hs.frame rfl rfl rfl hs.flight
      · split at h
        · cases h
          refine ⟨?_, hs.inn, hs.messages, hs.flight, hs.buf⟩
          rw [List.length_append]
          exact ‹s.out.length < DEPTH›
        · cases h

/-- and its read takes messages out of the other one. -/
theorem poll_read_small {s s' : Layer} {cap : ℕ} {ready : Bool} {r : ReadPoll} {n : ℕ}
    (hs : Small n s) (h : poll_read s cap ready = some (s', r)) : Small n s' := by
  obtain ⟨hle, hsuf⟩ := recv_small hs.buf hs.messages
  unfold poll_read at h
  split at h
  · split at h <;> cases h
    exact hs
  · split at h
    · split at h <;> cases h
      exact hs.frame rfl rfl rfl hs.flight
    · rename_i heq
      cases h
      rw [heq] at hle hsuf
      refine ⟨hs.out, hsuf.length_le.trans hs.inn, fun b hb => hs.messages b (hsuf.subset hb),
        hs.flight, ?_⟩
      exact Nat.le_trans (by simp) hle

/-- `up` sends only what it has read, one message at a time, into a channel with room. -/
theorem run_up_small {s s' : Layer} {n : ℕ} (hs : Small n s) (h : run_up s = some s') :
    Small n s' := by
  unfold run_up at h
  split at h
  · cases h
    exact hs.frame rfl rfl rfl (Nat.zero_le n)
  · cases h
    exact hs.frame rfl rfl rfl (Nat.zero_le n)
  · cases h
    exact hs.frame rfl rfl rfl (Nat.zero_le n)
  · rename_i data _ hu
    have hdata : data.length ≤ n := by simpa [hu, Up.flight] using hs.flight
    cases h
    refine hs.frame rfl rfl rfl ?_
    dsimp only
    split
    · exact hdata
    · exact Nat.zero_le n
  · cases h
    exact hs.frame rfl rfl rfl (Nat.zero_le n)
  · cases h
    exact hs.frame rfl rfl rfl (Nat.zero_le n)
  · cases h

/-- `down` does not touch the channels. -/
theorem run_down_small {s s' : Layer} {ok : Bool} {n : ℕ} (hs : Small n s)
    (h : run_down s ok = some s') : Small n s' := by
  unfold run_down at h
  split at h
  · cases h
    exact hs.frame rfl rfl rfl hs.flight
  · cases h
    exact hs.frame rfl rfl rfl hs.flight
  · split at h <;> cases h <;> exact hs.frame rfl rfl rfl hs.flight
  · cases h
    exact hs.frame rfl rfl rfl hs.flight
  · cases h
    exact hs.frame rfl rfl rfl hs.flight
  · cases h

/-- A step keeps both channels small, if the layer's reads are. -/
theorem step_small {s s' : Layer} {l : Label} {n : ℕ} (hs : Small n s)
    (hl : ∀ b, l = .r2_read (some b) → b.length ≤ n) (h : step s l = some s') :
    Small n s' := by
  cases step_cases h with
  | poll_write _ hp => exact poll_write_small hs hp
  | poll_read _ hp => exact poll_read_small hs hp
  | poll_shutdown | drain_done => exact hs.frame rfl rfl rfl hs.flight
  | drop_io => exact ⟨hs.out, Nat.zero_le _, nofun, hs.flight, Nat.zero_le n⟩
  | end_read h =>
      unfold end_read at h
      split at h
      · rename_i hout
        cases h
        refine ⟨?_, hs.inn, hs.messages, hs.flight, hs.buf⟩
        have hle := hs.out
        rw [hout, List.length_cons] at hle
        exact Nat.le_of_succ_le hle
      · split at h <;> cases h
        exact hs.frame rfl rfl rfl hs.flight
      · cases h
  | run_down h => exact run_down_small hs h
  | r2_read r =>
      refine hs.frame rfl rfl rfl ?_
      cases r with
      | none => exact Nat.zero_le n
      | some b => exact hl b rfl
  | run_up h => exact run_up_small hs h
  | end_write h =>
      unfold end_write at h
      split at h
      · rename_i data hu
        -- what `up` sends is what it read
        have hdata : data.length ≤ n := by simpa [hu, Up.flight] using hs.flight
        split at h
        · cases h
          exact hs.frame rfl rfl rfl (Nat.zero_le n)
        · split at h <;> cases h
          refine ⟨hs.out, ?_, ?_, Nat.zero_le n, hs.buf⟩
          · rw [List.length_append]
            exact ‹s.inn.length < DEPTH›
          · rw [List.forall_mem_append, List.forall_mem_singleton]
            exact ⟨hs.messages, hdata⟩
      · cases h
  | drop_end h =>
      unfold drop_end at h
      split at h <;> cases h
      exact ⟨Nat.zero_le _, hs.inn, hs.messages, hs.flight, hs.buf⟩

/-- All the bytes on the way from `up` to the session. -/
theorem Small.total {s : Layer} {n : ℕ} (hs : Small n s) :
    (s.buf ++ s.inn.flatten ++ s.up.flight).length ≤ (DEPTH + 2) * n := by
  have hflat : s.inn.flatten.length ≤ s.inn.length * n := by
    have hle := hs.messages
    generalize s.inn = q at hle
    induction q with
    | nil => exact Nat.zero_le _
    | cons b q ih =>
        rw [List.forall_mem_cons] at hle
        have := ih hle.2
        rw [List.flatten_cons, List.length_append, List.length_cons, Nat.succ_mul]
        omega
  have hdepth : s.inn.length * n ≤ DEPTH * n := Nat.mul_le_mul_right n hs.inn
  have := hs.buf
  have := hs.flight
  rw [List.length_append, List.length_append, Nat.add_mul]
  omega

end ZmuxPy.LayerChannel

namespace ZmuxPy.WrappedCarrier

open Machine Asyncio CarrierTransport
open LayerChannel (Layer Small DEPTH)

variable {κ : Type} {encode : κ → Bytes → κ × Bytes} {key : κ}

/-! ## One call of the protocol in a step -/

/-- The protocol does not hear of events that are no calls. -/
theorem react_uncalled {e : Event} (h : e.uncalled = true) (w : Wrapped κ) : react w e = w := by
  cases e with
  | write_called _ _ _ | connection_lost_scheduled _ => rfl
  | _ => cases h

/-- The protocol reacts to one call at most. -/
theorem protocol_cases {w : Wrapped κ} {t : Transport} {l : CarrierTransport.Label}
    (h : CarrierTransport.step w.transport l = some t) :
    protocol w t = { w with transport := t }
      ∨ ∃ es e, t.log = w.transport.log ++ es ++ [e] ∧ (∀ e ∈ es, e.uncalled = true)
        ∧ protocol w t = react { w with transport := t } e := by
  obtain ⟨es, o, hlog, hes⟩ := step_adds h
  have hskip : ∀ v : Wrapped κ, es.foldl react v = v := by
    clear hlog
    induction es with
    | nil => exact fun _ => rfl
    | cons e es ih =>
        intro v
        rw [List.forall_mem_cons] at hes
        rw [List.foldl_cons, react_uncalled hes.1, ih hes.2]
  have hprot : protocol w t = o.toList.foldl react { w with transport := t } := by
    rw [protocol, hlog, List.append_assoc, List.drop_left, List.foldl_append, hskip]
  cases o with
  | none => exact .inl hprot
  | some e => exact .inr ⟨es, e, hlog, hes, hprot⟩

/-! ## Out of the carrier

`down` drains after every write, and a drain ends when the protocol is resumed or the
connection lost. So a write does not find the queue above the high mark, unless it is dropped. -/

/-- Nobody changes the high mark -/
theorem Healthy.high {t : Transport} (h : Healthy t) : t.high = 65536 :=
  congrArg (fun p => p.2.1) h.settings

/-- or the low one. -/
theorem Healthy.low {t : Transport} (h : Healthy t) : t.low = 16384 :=
  congrArg (fun p => p.2.2.1) h.settings

/-- `drain` waits for what the transport said last. -/
theorem Sane.paused {w : Wrapped κ} (hw : Sane w) : w.flow.paused = w.transport.paused := by
  obtain ⟨c, hrun, hears⟩ := hw.heard.told
  rw [hears.paused, Bool.eq_iff_iff, (Told.run_of hrun).paused,
    hw.healthy.conforms.alternates.last]

/-- A write would not come on top of a full queue. -/
def Free (t : Transport) : Prop := t.paused = false ∨ t.lost = true

/-- The queue stays free while it sinks. -/
theorem Free.sinks {t t' : Transport} (h : Free t) (hs : Sinks t t')
    (hl : t.lost = true → t'.lost = true) : Free t' := by
  refine h.imp (fun hp => ?_) hl
  rw [Bool.eq_false_iff]
  intro hp'
  rw [hs.paused hp'] at hp
  cases hp

/-- What is on its way out: below the high mark while the protocol is not paused, one write
above it at most; and a write is made only if the drain before it found the protocol resumed. -/
structure Outgoing (w : Wrapped κ) : Prop where
  high : w.transport.paused = false → w.transport.queued ≤ 65536
  queued : ∀ n : ℕ, (∀ b ∈ w.encoded, b.length ≤ n) → w.transport.queued ≤ 65536 + n
  slack : 0 ≤ w.transport.queued - size (unsent w.transport)
  drained : w.chan.down ≠ .draining → Free w.transport
  resumed : w.flow.drain = .woken true → Free w.transport

/-- At first nothing is on its way out. -/
theorem init_outgoing (key : κ) : Outgoing (init key) := by
  have hzero : (init key).transport.queued = 0 := rfl
  have hnone : size (unsent (init key).transport) = 0 := rfl
  exact ⟨fun _ => by omega, fun n _ => by omega, by omega, fun _ => .inl rfl, nofun⟩

/-- A step without a write. -/
theorem Outgoing.sinks {w w' : Wrapped κ} (hw : Outgoing w) (hh : Healthy w.transport)
    (hs : Sinks w.transport w'.transport)
    (hl : w.transport.lost = true → w'.transport.lost = true) (he : w'.encoded = w.encoded)
    (hdown : w'.chan.down ≠ .draining → w.chan.down ≠ .draining ∨ Free w'.transport)
    (hdrain : w'.flow.drain = .woken true → w.flow.drain = .woken true ∨ Free w'.transport) :
    Outgoing w' := by
  refine ⟨fun hp => ?_, fun n hn => ?_, Int.le_trans hw.slack hs.slack, fun h => ?_, fun h => ?_⟩
  · have := hs.queued
    have := hh.low
    rcases hs.resumed hp with hp | hq
    · have := hw.high hp
      omega
    · omega
  · have := hs.queued
    have := hw.queued n (he ▸ hn)
    omega
  · exact (hdown h).elim (fun h => (hw.drained h).sinks hs hl) id
  · exact (hdrain h).elim (fun h => (hw.resumed h).sinks hs hl) id

/-- A drain is woken by `resume_writing`, or by the loss of the connection. -/
theorem react_drain {w : Wrapped κ} {e : Event} (h : (react w e).flow.drain = .woken true) :
    w.flow.drain = .woken true ∨ (react w e).flow.paused = false
      ∨ (react w e).flow.connection_lost = true := by
  unfold react at h ⊢
  split at h
  · split at h
    all_goals exact .inl h
  · exact .inl h
  · split at h
    · rename_i hp
      unfold Flow.pause_writing at hp
      split at hp <;> cases hp
      exact .inl h
    · exact .inl h
  · split at h
    · rename_i hp
      unfold Flow.resume_writing at hp
      split at hp <;> cases hp
      exact .inr (.inl rfl)
    · exact .inl h
  · exact .inr (.inr rfl)
  · exact .inl h

/-- A drain is woken by a resume or by the end. -/
theorem Sane.woken {w : Wrapped κ} {t : Transport} {l : CarrierTransport.Label}
    (hsane : Sane (protocol w t)) (h : CarrierTransport.step w.transport l = some t)
    (hd : (protocol w t).flow.drain = .woken true) :
    w.flow.drain = .woken true ∨ Free (protocol w t).transport := by
  rcases protocol_cases h with heq | ⟨es, e, -, -, heq⟩
  · rw [heq] at hd
    exact .inl hd
  · have hwoken : w.flow.drain = .woken true ∨ (protocol w t).flow.paused = false
        ∨ (protocol w t).flow.connection_lost = true := by
      rw [heq] at hd ⊢
      exact react_drain hd
    refine hwoken.imp id fun hfree => ?_
    obtain ⟨c, hrun, hears⟩ := hsane.heard.told
    rcases hfree with hp | hl
    · exact .inl (hsane.paused ▸ hp)
    · exact .inr (hsane.lost_of_told hrun (hears.lost ▸ hl))

/-- The protocol's reaction leaves the queue as the step left it. -/
theorem reacted_frame {t t' : Transport} (h : t' = t ∨ t' = call t .pause_reading) :
    t'.low = t.low ∧ t'.queued = t.queued ∧ t'.paused = t.paused ∧ unsent t' = unsent t
      ∧ t'.lost = t.lost := by
  rcases h with rfl | rfl
  · exact ⟨rfl, rfl, rfl, rfl, rfl⟩
  · exact ⟨rfl, rfl, rfl, rfl, rfl⟩

/-- The transport moves, and the protocol reacts. No write is made, so the count sinks. -/
theorem Outgoing.protocol {w : Wrapped κ} {t : Transport} {l : CarrierTransport.Label}
    (hw : Outgoing w) (hh : Healthy w.transport) (hsane : Sane (protocol w t))
    (h : CarrierTransport.step w.transport l = some t) (hs : l.sets = false)
    (hl : ∀ data, l ≠ .call (.write data)) : Outgoing (protocol w t) := by
  obtain ⟨hchan, -, henc, htr⟩ := protocol_reacted w t
  obtain ⟨hlow, hqueued, hpaused, hunsent, hlost⟩ := reacted_frame htr
  have hsinks : Sinks t (WrappedCarrier.protocol w t).transport :=
    .of_eq hlow hqueued hpaused (Int.le_of_eq (congrArg size hunsent))
  refine hw.sinks hh ((step_sinks h hs hl).trans hsinks) (fun hl => ?_) henc (fun hd => .inl ?_)
    (hsane.woken h)
  · exact hlost.trans ((step_keeps h).lost hl)
  · rwa [hchan] at hd

/-- A write goes to a transport that is not paused, or is refused. -/
theorem Outgoing.write {w : Wrapped κ} {chan : Layer} {data : Bytes} (hw : Outgoing w)
    (hh : Healthy w.transport) (hd : w.chan.down = .read data) (hc : chan.down = .draining)
    (hsane : Sane (w2_write encode { w with chan := chan } data)) :
    Outgoing (w2_write encode { w with chan := chan } data) := by
  have hwoken := hsane.woken (l := .call (.write _)) rfl
  obtain ⟨hchan, -, henc, htr⟩ := w2_write_reacted encode { w with chan := chan } data
  obtain ⟨-, hqueued, hpaused, hunsent, -⟩ := reacted_frame htr
  simp only [w2_given] at henc hqueued hpaused hunsent
  generalize (encode w.key data).2 = b at henc hqueued hpaused hunsent
  have hfills := write_fills w.transport (.ofBytes b)
  have hfree : Free w.transport := hw.drained (by simp [hd])
  refine ⟨fun hp => ?_, fun n hn => ?_, ?_, fun h => ?_, fun h => ?_⟩
  · rw [hpaused] at hp
    have hle := hfills.high hp
    rw [hh.high] at hle
    exact hqueued ▸ hle (hw.high (hfills.paused hp))
  · rw [henc, List.forall_mem_append, List.forall_mem_singleton] at hn
    rw [hqueued]
    rcases hfree with hp | hl
    · have hbase := hw.high hp
      have hadd : (CarrierTransport.write w.transport (.ofBytes b)).queued
          ≤ w.transport.queued + b.length := hfills.queued
      omega
    · have hclosing : w.transport.closing = true := (hh.conforms.mute hl).closing
      exact Int.le_trans (write_refused hclosing).queued (hw.queued n hn.1)
  · rw [hqueued, hunsent]
    exact Int.le_trans hw.slack hfills.slack
  · rw [hchan] at h
    exact absurd hc h
  · exact (hwoken h).resolve_left nofun

/-! ## Into the carrier

The reader pauses the transport above twice its limit, in a call of the read loop. One read
may be held then, which is why the bound has `n` on top. -/

/-- With reads of at most `n` bytes on the carrier below. -/
structure Incoming (n : ℕ) (w : Wrapped κ) : Prop where
  limit : w.reader.limit = 65536
  buffer : w.reader.buffer.length ≤ 2 * 65536 + n
  fits : w.reader.paused = false → w.reader.buffer.length ≤ 2 * 65536
  rests : w.reader.paused = true →
    (read_loop w.transport).at_rest = true ∧ w.transport.reading = false
  held : w.transport.reader.held.length ≤ n

/-- At first nothing has come in. -/
theorem init_incoming (n : ℕ) (key : κ) : Incoming n (init key) :=
  ⟨rfl, Nat.zero_le _, fun _ => Nat.zero_le _, nofun, Nat.zero_le n⟩

/-- It is about the reader and the transport only. -/
theorem Incoming.congr {n : ℕ} {w w' : Wrapped κ} (hw : Incoming n w)
    (hr : w'.reader = w.reader) (ht : w'.transport = w.transport) : Incoming n w' := by
  obtain ⟨h1, h2, h3, h4, h5⟩ := hw
  refine ⟨?_, ?_, ?_, ?_, ?_⟩ <;> simp only [hr, ht] <;> assumption

/-- The reader is fed nothing. -/
theorem Incoming.moves {n : ℕ} {w w' : Wrapped κ} {l : CarrierTransport.Label}
    (hw : Incoming n w) (h : CarrierTransport.step w.transport l = some w'.transport)
    (hn : l.brings.length ≤ n) (hl : l ≠ .call .resume_reading)
    (hlim : w'.reader.limit = w.reader.limit) (hb : w'.reader.buffer = w.reader.buffer)
    (hp : w'.reader.paused = w.reader.paused) : Incoming n w' := by
  obtain ⟨es, -, hturn⟩ := step_reader h
  refine ⟨hlim.trans hw.limit, hb ▸ hw.buffer, fun h => ?_, fun h => ?_, hturn.held_le hw.held hn⟩
  · rw [hb]
    exact hw.fits (hp ▸ h)
  · obtain ⟨hrest, hreading⟩ := hw.rests (hp ▸ h)
    exact (hturn.rests hrest hreading hl).1

/-- Only `data_received` puts something into the reader. -/
theorem react_reader {w : Wrapped κ} {e : Event} (he : ∀ data, e ≠ .data_received data) :
    (react w e).transport = w.transport ∧ (react w e).reader.limit = w.reader.limit
      ∧ (react w e).reader.buffer = w.reader.buffer
      ∧ (react w e).reader.paused = w.reader.paused := by
  cases e with
  | data_received data => exact absurd rfl (he data)
  | pause_writing | resume_writing =>
      unfold react
      dsimp only
      split <;> exact ⟨rfl, rfl, rfl, rfl⟩
  | connection_lost exc =>
      unfold react
      dsimp only
      split <;> exact ⟨rfl, rfl, rfl, rfl⟩
  | _ => exact ⟨rfl, rfl, rfl, rfl⟩

/-- The reader is fed what the loop held. It was not paused, since the loop was not at
rest, and if it pauses now, the loop is at rest. -/
theorem Incoming.feed {n : ℕ} {w : Wrapped κ} {t : Transport} {l : CarrierTransport.Label}
    {data : Bytes} (hw : Incoming n w)
    (hturn : (read_loop w.transport).Turn l (read_loop t) [.data_received data])
    (hass : (react { w with transport := t } (.data_received data)).asserts = false) :
    Incoming n (react { w with transport := t } (.data_received data)) := by
  obtain ⟨hheld, hrest, hcall⟩ := hturn.delivers
  change t.reader = .data_received at hcall
  have hdata : data.length ≤ n := hheld ▸ hw.held
  have hpaused : w.reader.paused = false := by
    rw [Bool.eq_false_iff]
    intro hp
    rw [(hw.rests hp).1] at hrest
    cases hrest
  have hfits := hw.fits hpaused
  cases hfeed : w.reader.feed_data data with
  | none =>
      simp only [react, hfeed] at hass
      cases hass
  | some p =>
      obtain ⟨r, pause⟩ := p
      obtain ⟨-, hbuf, -, -, hlim⟩ := StreamReader.feed_data_eq_some hfeed
      obtain ⟨hpause, hmore⟩ := StreamReader.feed_data_paused hfeed hpaused
      rw [hw.limit] at hlim hmore
      simp only [react, hfeed]
      refine ⟨hlim, ?_, fun h => hmore (hpause.symm.trans h) hfits, fun h => ?_, ?_⟩
      · rw [hbuf, List.length_append]
        omega
      · dsimp only at h ⊢
        rw [hpause] at h
        subst h
        refine ⟨?_, rfl⟩
        simp only [read_loop, if_true, call, ReadLoop.at_rest, hcall]
      · cases pause <;> simp [call, hcall, Reader.held]

/-- The transport moves, and the protocol reacts. Data comes only while the reader is not full;
what makes it full also pauses the read loop, which at that moment holds nothing. -/
theorem Incoming.protocol {n : ℕ} {w : Wrapped κ} {t : Transport} {l : CarrierTransport.Label}
    (hw : Incoming n w) (hsane : Sane (protocol w t))
    (h : CarrierTransport.step w.transport l = some t) (hn : l.brings.length ≤ n)
    (hl : l ≠ .call .resume_reading) : Incoming n (protocol w t) := by
  have hass := hsane.asserts
  rcases protocol_cases h with heq | ⟨es, e, hlog, hes, heq⟩
  · rw [heq]
    exact hw.moves h hn hl rfl rfl rfl
  · rw [heq] at hass ⊢
    by_cases he : ∃ data, e = .data_received data
    · obtain ⟨data, rfl⟩ := he
      exact hw.feed (turn_of_call h hes hlog rfl) hass
    · obtain ⟨ht, hlim, hb, hp⟩ := react_reader (w := { w with transport := t })
        fun data hd => he ⟨data, hd⟩
      exact hw.moves (by rw [ht]; exact h) hn hl hlim hb hp

/-- `up` reads. -/
theorem Incoming.reads {n : ℕ} {w w' : Wrapped κ} {out : Option (Option Bytes)} {resume : Bool}
    (hw : Incoming n w) (h : w.reader.read 65536 = some (w'.reader, out, resume))
    (ht : w'.transport = if resume then call w.transport .resume_reading else w.transport) :
    Incoming n w' := by
  obtain ⟨hlim, hlen, hpaused, hresumed⟩ := StreamReader.read_eases h
  rw [hw.limit] at hlim hresumed
  refine ⟨hlim, hlen.trans hw.buffer, fun hp => ?_, fun hp => ?_, ?_⟩
  · rcases hresumed hp with hp | hle
    · exact hlen.trans (hw.fits hp)
    · omega
  · obtain ⟨hp, hno⟩ := hpaused hp
    rw [ht, hno]
    exact hw.rests hp
  · rw [ht]
    cases resume with
    | false => exact hw.held
    | true => exact (ReadLoop.Turn.resume (read_loop w.transport)).held_le hw.held (Nat.zero_le n)

/-- Resuming reading has no part in the writing. -/
theorem resumed_sinks (t : Transport) (resume : Bool) :
    Sinks t (if resume then call t .resume_reading else t)
      ∧ (t.lost = true → (if resume then call t .resume_reading else t).lost = true) := by
  cases resume with
  | false => exact ⟨.of_eq rfl rfl rfl (Int.le_refl _), id⟩
  | true => exact ⟨.of_eq rfl rfl rfl (Int.le_refl _), id⟩

/-! ## Runs -/

/-- All three bounds. -/
structure Bounded (n : ℕ) (w : Wrapped κ) : Prop where
  outgoing : Outgoing w
  channels : Small 65536 w.chan
  incoming : Incoming n w

variable {n : ℕ} {w w' : Wrapped κ} {l : Label}

/-- The session does not end a drain. -/
theorem Native.draining {s s' : Layer} (h : Native s s') (hd : s'.down ≠ .draining) :
    s.down ≠ .draining := by
  rcases h.down with heq | ⟨hr, -⟩
  · rwa [← heq]
  · rw [hr]
    exact nofun

/-- `down` has its turn only outside its drain. -/
theorem run_down_draining {s s' : Layer} (h : LayerChannel.run_down s true = some s') :
    s.down ≠ .draining := by
  intro hd
  rw [LayerChannel.run_down, hd] at h
  cases h

/-- The channels move, and the rest does not. -/
theorem Bounded.chan {chan : Layer} (hw : Bounded n w) (hh : Healthy w.transport)
    (hc : Small 65536 chan) (hd : chan.down ≠ .draining → w.chan.down ≠ .draining) :
    Bounded n { w with chan := chan } := by
  refine ⟨hw.outgoing.sinks hh (.of_eq rfl rfl rfl (Int.le_refl _)) id rfl (fun h => .inl (hd h))
    .inl, hc, hw.incoming.congr rfl rfl⟩

/-- The transport moves, and the protocol reacts. -/
theorem Bounded.protocol {t : Transport} {l : CarrierTransport.Label} (hw : Bounded n w)
    (hh : Healthy w.transport) (hsane : Sane (protocol w t))
    (h : CarrierTransport.step w.transport l = some t) (hs : l.sets = false)
    (hl : ∀ data, l ≠ .call (.write data)) (hn : l.brings.length ≤ n)
    (hr : l ≠ .call .resume_reading) : Bounded n (protocol w t) := by
  refine ⟨hw.outgoing.protocol hh hsane h hs hl, ?_, hw.incoming.protocol hsane h hn hr⟩
  rw [(protocol_reacted w t).chan]
  exact hw.channels

/-- One step keeps the bounds. -/
theorem step_bounded (hsane : Sane w) (hw : Bounded n w) (hn : l.brings.length ≤ n)
    (h : step encode w l = some w') : Bounded n w' := by
  have hh := hsane.healthy
  have hsane' := step_sane hsane h
  cases step_cases h with
  | channel hl hs =>
      refine hw.chan hh (LayerChannel.step_small hw.channels ?_ hs) (native_keeps hl hs).draining
      rintro b rfl
      cases hl
  | transport hl hs =>
      refine hw.protocol hh hsane' hs (inner_polite (t := w.transport) hl).2 (inner_not_write hl)
        hn ?_
      rintro rfl
      cases hl
  | @returns a t _ hs => exact hw.protocol (l := .returns a) hh hsane' hs rfl nofun hn nofun
  | run_up hs =>
      refine hw.chan hh (LayerChannel.run_up_small hw.channels hs) ?_
      rw [(run_up_passed_on hs).2]
      exact id
  | down_moves hd hs =>
      exact hw.chan hh (LayerChannel.run_down_small hw.channels hs) fun _ => run_down_draining hs
  | @down_closes chan hcur hd hs =>
      -- `down` leaves its loop first, and then closes the layer's writer
      have hw' : Bounded n { w with chan := chan } :=
        hw.chan hh (LayerChannel.run_down_small hw.channels hs) fun _ => run_down_draining hs
      exact hw'.protocol (l := .call .close) hh hsane' rfl rfl nofun hn nofun
  | @down_writes chan data hd hne hs =>
      refine ⟨hw.outgoing.write hh hd ?_ hsane', ?_, ?_⟩
      -- what `down` has in hand goes to the transport in one write
      · rw [run_down_read hd hne hs]
      · rw [(w2_write_reacted encode _ _).chan]
        exact LayerChannel.run_down_small hw.channels hs
      · exact Incoming.protocol (l := .call (.write _)) (hw.incoming.congr rfl rfl) hsane' rfl hn
          nofun
  | @drains flow hs =>
      obtain ⟨-, -, hno⟩ := (Flow.run_drain_cases hs).frame
      refine ⟨hw.outgoing.sinks hh (.of_eq rfl rfl rfl (Int.le_refl _)) id rfl .inl ?_,
        hw.channels, hw.incoming.congr rfl rfl⟩
      exact fun h => absurd h (hno true)
  | @drained flow ok chan hs hc =>
      have hdone := Flow.run_drain_cases hs
      have hsmall : Small 65536 chan :=
        LayerChannel.step_small (l := .drain_done ok) hw.channels nofun hc
      refine ⟨hw.outgoing.sinks hh (.of_eq rfl rfl rfl (Int.le_refl _)) id rfl (fun _ => .inr ?_)
        (fun h => absurd h (hdone.frame.2.2 true)), hsmall, hw.incoming.congr rfl rfl⟩
      cases ok with
      | false => exact .inr (hsane.lost_of_raises hdone)
      | true =>
          cases hdone with
          | returns hp =>
              -- a drain returns with writing not paused, or was woken when it was resumed:
              -- then the buffer was below the low mark
              rcases hp with hp | hd
              · exact .inl (hsane.paused ▸ hp)
              · exact hw.outgoing.resumed hd
  | @waits reader resume hs =>
      refine ⟨hw.outgoing.sinks hh (resumed_sinks _ resume).1 (resumed_sinks _ resume).2 rfl .inl
        .inl, hw.channels, hw.incoming.reads hs rfl⟩
  | @reads reader r resume chan hs hc =>
      have hlen : ∀ b, LayerChannel.Label.r2_read r = .r2_read (some b) → b.length ≤ 65536 := by
        rintro b ⟨⟩
        exact StreamReader.read_length hs
      have hsmall := LayerChannel.step_small hw.channels hlen hc
      obtain ⟨-, rfl⟩ := r2_read_chan hc
      exact ⟨hw.outgoing.sinks hh (resumed_sinks _ resume).1 (resumed_sinks _ resume).2 rfl .inl
        .inl, hsmall, hw.incoming.reads hs rfl⟩

/-- A run keeps them. -/
theorem run_bounded {ls : List Label} (hn : ∀ l ∈ ls, l.brings.length ≤ n)
    (h : run (step encode) (init key) ls = some w) : Bounded n w := by
  have hstep : ∀ (s : Wrapped κ) (k : Label) (s' : Wrapped κ), Sane s ∧ Bounded n s →
      k.brings.length ≤ n → step encode s k = some s' → Sane s' ∧ Bounded n s' :=
    fun s k s' hs hk h => ⟨step_sane hs.1 h, step_bounded hs.1 hs.2 hk h⟩
  have hinit : Sane (init key) ∧ Bounded n (init key) :=
    ⟨init_sane key, init_outgoing key, LayerChannel.init_small _, init_incoming n key⟩
  exact (meets_inv (step encode) hstep hinit (meets_of_forall _ hn _) h).2

/-- **A wrapped carrier buffers a bounded amount, both ways.** With a layer that hands on the
reader it was given (one of the layer's own has no transport to pause), in every run in which
a read on the carrier below returns at most `n` bytes: at most eight messages are in each
channel;
if the layer's writes below have at most `m` bytes each, at most 65536 + `m` bytes are
queued or in flight on the transport; and for as long as the read loop and the session's
end live, at most 12 · 65536 + 2 `n` bytes have been received from the carrier below and
not yet been returned to the session. -/
theorem wrapped_buffers_bounded {ls : List Label} (hls : ∀ l ∈ ls, l.ok = true)
    (hn : ∀ l ∈ ls, l.brings.length ≤ n) (h : run (step encode) (init key) ls = some w) :
    w.chan.out.length ≤ 8 ∧ w.chan.inn.length ≤ 8
    ∧ (∀ m : ℕ, (∀ b ∈ w.encoded, b.length ≤ m) → size (unsent w.transport) ≤ 65536 + m)
    ∧ (w.chan.io_alive = true → (∀ e, w.transport.reader ≠ .ended e) →
        (received ls).length ≤ w.chan.returned.flatten.length + 12 * 65536 + 2 * n) := by
  obtain ⟨hout, hchan, hin⟩ := run_bounded hn h
  refine ⟨hchan.out, hchan.inn, fun m hm => ?_, fun halive hlive => ?_⟩
  · have hqueued := hout.queued m hm
    have hslack := hout.slack
    omega
  · obtain ⟨hsane, hinv, ⟨ms, hms, hpassed, -⟩, -⟩ := run_inward hls h
    have htotal := hchan.total
    have hbuffer := hin.buffer
    have hheld := hin.held
    rcases hpassed with heq | ⟨⟨e, he⟩, -⟩
    · rw [← hms, heq, hsane.heard.fed, hinv.queued halive]
      simp only [List.length_append, DEPTH] at htotal ⊢
      omega
    · exact absurd he (hlive e)

/-- A byte of three is still with `ChanIo`, and a write of two is on its way. -/
def both_ways : List Label :=
  one_read.take 11 ++ [.run_down, .transport .run_writer, .channel (.poll_write [7, 7] true),
    .channel .end_read, .run_down]

theorem wrapped_buffers_bounded_both :
    ∃ w, run (step number) (init 0) both_ways = some w
      ∧ w.chan.buf = [3] ∧ unsent w.transport = [[0, 7, 7]]
      ∧ size (unsent w.transport) ≤ 65536 + 3
      ∧ (received both_ways).length ≤ w.chan.returned.flatten.length + 12 * 65536 + 2 * 3 := by
  have h := @wrapped_buffers_bounded UInt8 number 0 3 _ both_ways (by decide) (by decide) rfl
  exact ⟨_, rfl, rfl, rfl, h.2.2.1 3 (by decide), h.2.2.2 rfl nofun⟩

end ZmuxPy.WrappedCarrier
