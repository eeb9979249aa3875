/-
What a wrapped carrier still writes once the session is done with it.

`poll_shutdown` only drops the sender. What the session wrote before it is in the channel,
with `down`, in the layer's writer and in the transport's queue, and it gets from each to
the next by steps of `down`, of its `drain` and of the write loop, which wait for one
another: `down` for `resume_writing` in `drain`, the write loop for a write or for
`w2.close()`. The result is that they never wait in a circle, and that nothing else which
happens, reads and the session's own polls among it, puts the end off.

`work` prices what is left. A message in the channel is received, written, drained and
written below, and on the way it may wake the write loop; the prices are chosen such that
each of these steps takes at least one off, although some of them hand work on to the
next part. In the transport the count is that of `ZmuxPy.TransportClose`.
-/
import ZmuxPy.WrappedBounds

set_option autoImplicit false

namespace ZmuxPy.CarrierTransport

open Machine Asyncio

/-! ## A transport in good order -/

/-- Not lost, nothing has failed, and its accounts are right. -/
structure Steady (t : Transport) : Prop extends Fine t where
  count : Count t

/-- A calm step that does not lose the transport leaves it in good order. -/
theorem Steady.step {t t' : Transport} {l : Label} (ht : Steady t) (hl : l.calm = true)
    (hlow : l.low_ok = true) (h : step t l = some t') (hlost : t'.lost = false) : Steady t' :=
  ⟨ht.toFine.stays hl h hlost,
    (step_count ht.live (Label.orderly_of_calm hl) (fun e he => absurd he (ht.healthy e)) hlow
      ht.count h hlost).1⟩

/-- A protocol may pause reading from inside its methods. -/
theorem Steady.reacted {t t' : Transport} (ht : Steady t)
    (h : t' = t ∨ t' = call t .pause_reading) :
    Steady t' ∧ work t' = work t := by
  rcases h with rfl | rfl
  · exact ⟨ht, rfl⟩
  · exact ⟨ht.step (l := .call .pause_reading) rfl rfl rfl ht.live.lost, rfl⟩

/-- The protocol's reaction does not disturb a transport that is done. -/
theorem Flushed.reacted {t t' : Transport} (ht : Flushed t)
    (h : t' = t ∨ t' = call t .pause_reading) :
    Flushed t' ∧ accepted t'.log = accepted t.log := by
  rcases h with rfl | rfl
  · exact ⟨ht, rfl⟩
  · exact ⟨(ht.step (l := .call .pause_reading) rfl).1, rfl⟩

end ZmuxPy.CarrierTransport

namespace ZmuxPy.WrappedCarrier

open Machine Asyncio CarrierTransport
open LayerChannel (Layer OutInv Down out_sender)

variable {κ : Type} {encode : κ → Bytes → κ × Bytes} {key : κ}

/-! ## The work that is left

The measure of a flush. A message in the channel is paid for in advance: with nine steps it is
received, written, drained, and written once more by the transport. -/

/-- What may happen without breaking the carrier: nothing below fails, and nobody cancels
the transport's tasks. -/
def Label.calm : Label → Bool
  | .channel l => l.ok
  | .transport l => l.calm
  | _ => true

/-- The steps that bring what was written nearer to the carrier below. -/
def Label.flushes : Label → Bool
  | .channel .end_read | .run_down | .run_drain => true
  | .transport l => l.flushes
  | _ => false

/-- The steps `down` has left, those for the channel apart. A message it has received
counts for its write, for its drain and for what the transport then has to do. -/
def down_work : Down → ℕ
  | .start => 4
  | .reading => 3
  | .read [] => 2
  | .read _ => 11
  | .draining => 4
  | .drained _ => 4
  | .ended => 0

/-- The steps a drain has left. -/
def drain_work : Drain → ℕ
  | .idle => 0
  | .entered => 3
  | .yielded => 2
  | .waiting => 1
  | .woken _ => 1

/-- The steps `down` has left, nine for each message in the channel: it is received, written
and drained, and the transport writes it. -/
def chan_work (s : Layer) : ℕ := 9 * s.out.length + down_work s.down

/-- The steps of the whole writing side. -/
def work (w : Wrapped κ) : ℕ :=
  chan_work w.chan + drain_work w.flow.drain + CarrierTransport.work w.transport

/-- The session is done writing, for good. -/
structure Done (s s' : Layer) : Prop where
  sender : out_sender s' = false
  accepted : s'.accepted = s.accepted

/-- What the protocol's calls do to a drain: they wake it at most. -/
structure Rings (f f' : Flow) : Prop where
  work : drain_work f'.drain = drain_work f.drain
  idle : f'.drain = .idle ↔ f.drain = .idle
  waits : (f.drain = .waiting → f.paused = true) → f'.drain = .waiting → f'.paused = true

/-- Nobody rings. -/
theorem Rings.refl (f : Flow) : Rings f f := ⟨rfl, Iff.rfl, id⟩

/-- Ringing twice. -/
theorem Rings.trans {f g h : Flow} (h₁ : Rings f g) (h₂ : Rings g h) : Rings f h :=
  ⟨h₂.work.trans h₁.work, h₂.idle.trans h₁.idle, fun hf => h₂.waits (h₁.waits hf)⟩

/-- A drain that is woken has the same step left as one that waits. -/
theorem wake_spec (f : Flow) (ok : Bool) :
    drain_work (f.wake ok) = drain_work f.drain ∧ (f.wake ok = .idle ↔ f.drain = .idle)
      ∧ f.wake ok ≠ .waiting := by
  unfold Flow.wake
  cases f.drain <;> simp [drain_work]

/-- The protocol's methods wake a drain at most, -/
theorem react_rings (w : Wrapped κ) (e : Event) : Rings w.flow (react w e).flow := by
  unfold react
  split
  · split <;> exact .refl _
  · exact .refl _
  · split
    · rename_i f hp
      unfold Flow.pause_writing at hp
      split at hp <;> cases hp
      exact ⟨rfl, Iff.rfl, fun _ _ => rfl⟩
    · exact .refl _
  · split
    · rename_i f hp
      obtain ⟨h1, h2, h3⟩ := wake_spec w.flow true
      unfold Flow.resume_writing at hp
      split at hp <;> cases hp
      exact ⟨h1, h2, fun _ h => absurd h h3⟩
    · exact .refl _
  · rename_i exc
    obtain ⟨h1, h2, h3⟩ := wake_spec w.flow exc.isNone
    cases hp : w.flow.paused with
    | true =>
        simp only [Flow.lose, hp, if_true]
        exact ⟨h1, h2, fun _ h => absurd h h3⟩
    | false =>
        simp only [Flow.lose, hp, Bool.false_eq_true, if_false]
        exact ⟨rfl, Iff.rfl, fun hf h => absurd (hf h) (by simp [hp])⟩
  · exact .refl _

/-- however many the transport calls in a step. -/
theorem protocol_rings (w : Wrapped κ) (t : Transport) : Rings w.flow (protocol w t).flow := by
  have hfold : ∀ (es : List Event) (v : Wrapped κ), Rings v.flow (es.foldl react v).flow := by
    intro es
    induction es with
    | nil => exact fun v => .refl v.flow
    | cons e es ih => exact fun v => (react_rings v e).trans (ih _)
  exact hfold _ { w with transport := t }

/-! ## What the pumps keep

In every run, whatever fails. -/

/-- How `down`, its drain and the transport hang together: a drain is under way exactly while
`down` is in it, it waits only for a paused protocol, and `down` has closed only a transport
that is closing. -/
structure Pumping (w : Wrapped κ) : Prop where
  drains : w.chan.down = .draining ↔ w.flow.drain ≠ .idle
  waits : w.flow.drain = .waiting → w.flow.paused = true
  closed : w.chan.w2_closed = true → w.transport.closing = true

/-- The protocol reacts to a step of the transport. -/
theorem Pumping.protocol {w : Wrapped κ} {t : Transport} {l : CarrierTransport.Label}
    (hd : w.chan.down = .draining ↔ w.flow.drain ≠ .idle)
    (hwait : w.flow.drain = .waiting → w.flow.paused = true)
    (hc : w.chan.w2_closed = true → w.transport.closing = true ∨ t.closing = true)
    (h : CarrierTransport.step w.transport l = some t) : Pumping (protocol w t) := by
  have hrings := protocol_rings w t
  obtain ⟨hchan, -, -, htr⟩ := protocol_reacted w t
  refine ⟨?_, hrings.waits hwait, fun hcl => ?_⟩
  · rw [hchan, hd, Ne, Ne, hrings.idle]
  · have hclosing : t.closing = true := by
      rw [hchan] at hcl
      exact (hc hcl).elim (step_closing h) id
    rcases htr with htr | htr <;> rw [htr] <;> exact hclosing

/-- There is nothing to drain but for `down`. -/
theorem Pumping.idle {w : Wrapped κ} (hw : Pumping w) (hd : w.chan.down ≠ .draining) :
    w.flow.drain = .idle := by
  by_contra hne
  exact hd (hw.drains.2 hne)

/-- What runs in `w2.drain()` is `down`. -/
theorem Pumping.draining {w : Wrapped κ} {exception closing : Bool} {p : Flow × Option Bool}
    (hw : Pumping w) (h : w.flow.run_drain exception closing = some p) :
    w.chan.down = .draining := by
  refine hw.drains.2 fun hidle => ?_
  rw [Flow.run_drain, hidle] at h
  cases h

/-- The carrier below has everything and was told the end. -/
structure Over (w : Wrapped κ) : Prop where
  flushed : Flushed w.transport
  closed : w.chan.w2_closed = true
  clean : w.chan.w2_error = false
  taken : accepted w.transport.log = w.encoded

/-- The transport is in good order, or done. -/
inductive Phase (w : Wrapped κ) : Prop where
  | goes (h : Steady w.transport)
  | done (h : Over w)

/-- The parts that a step leaves alone. -/
theorem Over.congr {w w' : Wrapped κ} (hw : Over w) (hf : Flushed w'.transport)
    (ha : accepted w'.transport.log = accepted w.transport.log)
    (hp : passed_on w'.chan = passed_on w.chan) (he : w'.encoded = w.encoded) : Over w' := by
  simp only [passed_on, Prod.mk.injEq] at hp
  exact ⟨hf, hp.2.1.trans hw.closed, hp.2.2.trans hw.clean, by rw [ha, he, hw.taken]⟩

/-- The transport ends only after `down` has closed it, with nothing lost on the way. -/
theorem Outward.finish {w : Wrapped κ} (hw : Outward encode key w) (ht : Steady w.transport)
    (heof : w.transport.eof = false) (hs : w.transport.writer = .shutdown (.done (.ok ()))) :
    Over { w with transport := shutdown_returned w.transport (.ok ()) } := by
  have hlost := ht.live.lost
  have hclosing : w.transport.closing = true := by
    refine (ht.live.last (by rw [hs]; simp [Writer.stage])).2.resolve_left ?_
    simp [heof]
  have hflushed := ht.toFine.flushed hw.writes hclosing hs
  refine ⟨hflushed, (hw.closing hclosing).resolve_left (by simp [hlost]), ?_, ?_⟩
  · rw [Bool.eq_false_iff]
    intro herr
    rw [hw.error herr] at hlost
    cases hlost
  · have hsame : accepted (shutdown_returned w.transport (.ok ())).log
        = accepted w.transport.log := by
      simp only [shutdown_returned, hclosing, if_true, end_writer]
      exact (lose_frame w.transport _ _).accepted_eq
    exact hsame.trans (hw.all_taken hlost)

/-- A step of the transport's own, and the protocol's reaction. -/
theorem Phase.protocol {w : Wrapped κ} {t : Transport} {l : CarrierTransport.Label}
    (hw : Outward encode key w) (hh : Healthy w.transport) (hphase : Phase w)
    (hl : l.calm = true) (hq : l.asks = false) (hlow : l.low_ok = true)
    (h : CarrierTransport.step w.transport l = some t) :
    Phase (protocol w t) ∧ l.flushes.toNat + work (protocol w t) ≤ work w := by
  obtain ⟨hchan, -, henc, htr⟩ := protocol_reacted w t
  have hdrain := (protocol_rings w t).work
  have hwork : ∀ {u : Transport}, u = (WrappedCarrier.protocol w t).transport →
      l.flushes.toNat + CarrierTransport.work u ≤ CarrierTransport.work w.transport →
      l.flushes.toNat + work (WrappedCarrier.protocol w t) ≤ work w := by
    rintro u rfl hle
    rw [work, work, hchan, hdrain]
    dsimp only
    omega
  cases hphase with
  | goes ht =>
      obtain ⟨hcount, hlost | ⟨hs, rfl⟩⟩ := ht.toFine.step_work hl (.inr hq) h
      · obtain ⟨ht', hsame⟩ := (ht.step hl hlow h hlost).reacted htr
        exact ⟨.goes ht', hwork rfl (by rw [hsame]; exact Nat.le_of_eq hcount.symm)⟩
      · have hover := hw.finish ht hh.eof hs
        obtain ⟨hf, ha⟩ := hover.flushed.reacted htr
        refine ⟨.done (hover.congr hf ha (by rw [hchan]) henc), hwork rfl ?_⟩
        rw [hf.work, ← hover.flushed.work]
        exact Nat.le_of_eq hcount.symm
  | done hover =>
      obtain ⟨ht', hno⟩ := hover.flushed.step h
      obtain ⟨hf, ha⟩ := ht'.reacted htr
      refine ⟨.done (hover.congr hf ?_ (by rw [hchan]) henc), hwork rfl ?_⟩
      · exact ha.trans (step_accepted_of_closing hover.flushed.closing h)
      · rw [hf.work, hno]
        exact Nat.zero_le _

/-- The channel moves, but not what `down` has done. -/
theorem Phase.chan {w : Wrapped κ} {chan : Layer} (hphase : Phase w)
    (hp : passed_on chan = passed_on w.chan) : Phase { w with chan := chan } := by
  cases hphase with
  | goes h => exact .goes h
  | done h => exact .done (h.congr h.flushed rfl hp rfl)

/-- While `down` is not at its end, the transport is open. -/
theorem Outward.open {w : Wrapped κ} (hw : Outward encode key w)
    (hlost : w.transport.lost = false) (hd : w.chan.down ≠ .ended) :
    w.transport.closing = false := by
  rw [Bool.eq_false_iff]
  intro hc
  exact hw.out.not_closed hd ((hw.closing hc).resolve_left (by simp [hlost]))

/-- `up` resumes reading at most. -/
theorem Phase.resumed {w w' : Wrapped κ} {resume : Bool} (hphase : Phase w)
    (ht : w'.transport = if resume then call w.transport .resume_reading else w.transport)
    (hc : passed_on w'.chan = passed_on w.chan ∧ chan_work w'.chan = chan_work w.chan)
    (hf : w'.flow = w.flow) (he : w'.encoded = w.encoded) :
    Phase w' ∧ work w' ≤ work w := by
  have hsame : CarrierTransport.work w'.transport = CarrierTransport.work w.transport := by
    rw [ht]
    cases resume <;> rfl
  refine ⟨?_, Nat.le_of_eq (by rw [work, work, hc.2, hf, hsame])⟩
  cases hphase with
  | goes h =>
      refine .goes ?_
      rw [ht]
      cases resume with
      | false => exact h
      | true => exact h.step (l := .call .resume_reading) rfl rfl rfl h.live.lost
  | done h =>
      refine .done (h.congr ?_ ?_ hc.1 he)
      · rw [ht]
        cases resume with
        | false => exact h.flushed
        | true => exact (h.flushed.step (l := .call .resume_reading) rfl).1
      · rw [ht]
        cases resume <;> rfl

/-- A method of the protocol that is running can return. -/
theorem Healthy.returns {t : Transport} (ht : Healthy t) (hcur : current t ≠ none) :
    ∃ a t', answer t = some a ∧ CarrierTransport.step t (.returns a) = some t' := by
  have hplain := ht.plain.reader
  cases hr : t.reader with
  | data_received =>
      refine ⟨.none, reader_top t, ?_, ?_⟩
      · simp [answer, current, hr]
      · simp [CarrierTransport.step, CarrierTransport.returns, hr]
  | eof_received =>
      refine ⟨.keep_open true, end_reader t .returned, ?_, ?_⟩
      · simp [answer, current, hr]
      · simp [CarrierTransport.step, CarrierTransport.returns, hr]
  | get_buffer _ | buffer_updated _ =>
      rw [hr] at hplain
      cases hplain
  | unborn | start | wait _ | read _ | ended _ =>
      have hw : t.writer = .resume_writing := by
        by_contra hne
        exact hcur (current_eq_none.2 ⟨by rw [hr]; rfl, hne⟩)
      refine ⟨.none, writer_top t, ?_, ?_⟩
      · simp [answer, current, hr, hw]
      · simp [CarrierTransport.step, CarrierTransport.returns, hr, hw]

end ZmuxPy.WrappedCarrier
