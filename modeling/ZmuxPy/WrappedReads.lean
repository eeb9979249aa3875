/-
What the session reads from a wrapped carrier, whose layer hands on the reader it was
given.

The bytes pass six places on their way: the read loop of the transport, the buffer of
asyncio's `StreamReader`, `up`, the channel, and the buffer of `ChanIo`. Each part's own
invariant says what it holds; here they are put in one line. The end of file is not a
message on any of these ways, so it is followed separately: `poll_read` reports it when
`up` has ended, `up` ends when its reader is at its end or raises, and the reader is at
its end when the carrier was (`Inward.ends`), or when the transport was lost.
-/
import ZmuxPy.WrappedWrites

set_option autoImplicit false

namespace ZmuxPy.CarrierTransport

open Machine Asyncio

/-- After the end of file nothing comes any more. -/
theorem ReadLoop.Turn.brings_nothing {s s' : ReadLoop} {l : Label} {es : List Event}
    (h : s.Turn l s' es) (hs : s.reader = .eof_received ∨ ∃ e, s.reader = .ended e) :
    l.brings = [] := by
  rcases hs with hs | ⟨e, hs⟩
  · obtain ⟨reader, mark, reading⟩ := s
    subst hs
    cases h with
    | aside hl | marked hl | stopped _ _ hl | wait hl | read hl => exact Label.brings_of_reads hl
    | pause | resume => rfl
  · exact (h.of_ended hs).2.2

/-- What was read has been delivered when the end of file is. -/
theorem step_all_delivered {ls : List Label} {t t' : Transport} {l : Label} (hp : Passed ls t)
    (heof : .eof_received ∈ t.log → t.reader = .eof_received ∨ ∃ e, t.reader = .ended e)
    (hall : .eof_received ∈ t.log → received ls = (delivered t.log).flatten)
    (h : step t l = some t') (hm : .eof_received ∈ t'.log) :
    received (ls ++ [l]) = (delivered t'.log).flatten := by
  have hlog : ∀ {log : List Event}, .eof_received ∈ log ↔ .eof_received ∈ reader_log log := by
    intro log
    simp [reader_log, Event.of_reader]
  have hrec : received (ls ++ [l]) = received ls ++ l.brings := by simp [received]
  obtain ⟨es, hrl, hturn⟩ := step_reader h
  have hdel : delivered t'.log = delivered t.log ++ delivered es := by
    rw [← delivered_reader_log t'.log, hrl, delivered_append, delivered_reader_log]
  rw [hlog, hrl, List.mem_append, ← hlog] at hm
  rcases hm with hm | hm
  · have hnil := (hturn.after_eof (heof hm)).2
    rw [hrec, hturn.brings_nothing (heof hm), List.append_nil, hall hm, hdel, hnil]
    simp [delivered]
  · -- the read that came back empty
    have hat : ∀ s s' : ReadLoop, s.Turn l s' es → .eof_received ∈ es →
        s.reader = .read (.done (.ok [])) ∧ l.brings = [] ∧ delivered es = [] := by
      intro s s' hturn hm
      cases hturn with
      | eof_received => exact ⟨rfl, rfl, rfl⟩
      | _ => simp at hm
    obtain ⟨hr, hb, hd⟩ := hat _ _ hturn hm
    change t.reader = _ at hr
    rcases hp with hp | ⟨⟨e, he⟩, -⟩
    · rw [hrec, hb, List.append_nil, hp, hr, hdel, hd]
      simp [Reader.held]
    · rw [hr] at he
      cases he

end ZmuxPy.CarrierTransport

namespace ZmuxPy.WrappedCarrier

open Machine Asyncio CarrierTransport
open LayerChannel (Layer InInv)

variable {κ : Type} {encode : κ → Bytes → κ × Bytes} {key : κ}

/-! ## A reader at its end stays there -/

/-- A failed assertion is not undone. -/
theorem foldl_asserts {w : Wrapped κ} (h : w.asserts = true) (es : List Event) :
    (es.foldl react w).asserts = true := by
  induction es generalizing w with
  | nil => exact h
  | cons e es ih =>
      refine ih ?_
      unfold react
      split
      · split
        · exact h
        · rfl
      · exact h
      · split
        · exact h
        · rfl
      · split
        · exact h
        · rfl
      · exact h
      · exact h

/-- At the end, with nothing left to read. -/
def AtEnd (r : StreamReader) : Prop := r.eof = true ∧ r.buffer = []

/-- A reader at its end stays there: more data would fail an assertion. -/
theorem react_at_end {w : Wrapped κ} {e : Event} (h : AtEnd w.reader)
    (hass : (react w e).asserts = false) : AtEnd (react w e).reader := by
  unfold react at hass ⊢
  split at hass
  · rename_i data
    have hnone : w.reader.feed_data data = none := if_pos h.1
    rw [hnone] at hass
    cases hass
  · exact ⟨rfl, h.2⟩
  · split <;> exact h
  · split <;> exact h
  · dsimp only
    split
    · exact ⟨rfl, h.2⟩
    · exact h
  · exact h

/-- So it is after any number of calls. -/
theorem foldl_at_end {w : Wrapped κ} {es : List Event} (h : AtEnd w.reader)
    (hass : (es.foldl react w).asserts = false) : AtEnd (es.foldl react w).reader := by
  induction es generalizing w with
  | nil => exact h
  | cons e es ih =>
      refine ih (react_at_end h ?_) hass
      rw [Bool.eq_false_iff]
      intro htrue
      rw [List.foldl_cons, foldl_asserts htrue] at hass
      cases hass

/-! ## The invariant -/

/-- `up` is at its end, or about to end. -/
def ends : LayerChannel.Up → Bool
  | .ended | .read (some []) | .read none | .wrote false => true
  | _ => false

/-- What came from the carrier, and that the end of file came after all of it. -/
def Came (b : Bytes) (t : Transport) : Prop :=
  ∃ ms, CarrierTransport.received ms = b ∧ Passed ms t
    ∧ (.eof_received ∈ t.log → CarrierTransport.received ms = (delivered t.log).flatten)

/-- One step of the transport adds what it brings. -/
theorem Came.step {b : Bytes} {t t' : Transport} {l : CarrierTransport.Label} (hc : Came b t)
    (ht : Conforms t) (h : CarrierTransport.step t l = some t') : Came (b ++ l.brings) t' := by
  obtain ⟨ms, rfl, hp, hall⟩ := hc
  refine ⟨ms ++ [l], ?_, step_passed hp h, step_all_delivered hp ht.eof hall h⟩
  simp [CarrierTransport.received]

/-- A call of a method brings nothing. -/
theorem Came.call {b : Bytes} {t : Transport} (hc : Came b t) (ht : Conforms t) (c : Call) :
    Came b (call t c) := by
  have h := hc.step (l := .call c) ht rfl
  rwa [show (CarrierTransport.Label.call c).brings = [] from rfl, List.append_nil] at h

/-- What came in so far: the channel's part of it, the transport's part, and that `up` ends
only at the end of the reader, or of a lost transport. -/
structure Inward (ls : List Label) (w : Wrapped κ) : Prop where
  inn : InInv w.chan
  came : Came (received ls) w.transport
  ends : ends w.chan.up = true → AtEnd w.reader ∨ w.transport.lost = true

/-- One step more brings what it brings. -/
theorem received_snoc (ls : List Label) (l : Label) :
    received (ls ++ [l]) = received ls ++ l.brings := by simp [received]

/-- The transport moves, and the protocol reacts. -/
theorem Inward.protocol {ls : List Label} {w : Wrapped κ} {l : CarrierTransport.Label}
    {t : Transport} {k : Label} (hw : Inward ls w) (ht : Conforms w.transport)
    (hc : Conforms t) (h : CarrierTransport.step w.transport l = some t)
    (hass : (protocol w t).asserts = false) (hk : k.brings = l.brings) :
    Inward (ls ++ [k]) (protocol w t) := by
  obtain ⟨hchan, -, -, htr⟩ := protocol_reacted w t
  have hcame : Came (received (ls ++ [k])) t := by
    rw [received_snoc, hk]
    exact hw.came.step ht h
  have hlost : w.transport.lost = true → (WrappedCarrier.protocol w t).transport.lost = true := by
    intro hl
    have htl := (step_keeps h).lost hl
    rcases htr with htr | htr <;> rw [htr] <;> exact htl
  refine ⟨hchan ▸ hw.inn, ?_, fun he => ?_⟩
  · rcases htr with htr | htr <;> rw [htr]
    · exact hcame
    · exact hcame.call hc _
  · rw [hchan] at he
    rcases hw.ends he with hend | hl
    · exact .inl (foldl_at_end hend hass)
    · exact .inr (hlost hl)

/-- The channel moves, and `up` does not come to its end by it. -/
theorem Inward.chan {ls : List Label} {w w' : Wrapped κ} (hw : Inward ls w)
    (hin : InInv w'.chan) (ht : w'.transport = w.transport) (hr : w'.reader = w.reader)
    (hu : WrappedCarrier.ends w'.chan.up = true → WrappedCarrier.ends w.chan.up = true) :
    Inward ls w' := by
  refine ⟨hin, ht ▸ hw.came, fun he => ?_⟩
  rw [ht, hr]
  exact hw.ends (hu he)

/-- A step that brings nothing. -/
theorem Inward.snoc {ls : List Label} {w : Wrapped κ} {k : Label} (hw : Inward ls w)
    (hk : k.brings = []) : Inward (ls ++ [k]) w := by
  refine ⟨hw.inn, ?_, hw.ends⟩
  rw [received_snoc, hk, List.append_nil]
  exact hw.came

/-- Resuming brings nothing by itself. -/
theorem Came.resume {b : Bytes} {t : Transport} (hc : Came b t) (ht : Conforms t)
    (resume : Bool) : Came b (if resume then CarrierTransport.call t .resume_reading else t) := by
  cases resume with
  | true => exact hc.call ht .resume_reading
  | false => exact hc

/-- The session does not end `up`, -/
theorem Native.ends {s s' : Layer} (h : Native s s') (he : ends s'.up = true) :
    ends s.up = true := by
  rcases h.up with heq | ⟨-, hw⟩
  · rwa [← heq]
  · rw [hw] at he
    cases he

/-- nor does `up` end by itself: its last read or its last write has ended it. -/
theorem run_up_ends {s s' : Layer} (hs : InInv s) (h : LayerChannel.run_up s = some s')
    (he : ends s'.up = true) : ends s.up = true := by
  unfold LayerChannel.run_up at h
  split at h
  · cases h
    cases he
  · rename_i hu
    rw [hu]
    rfl
  · rename_i hu
    rw [hu]
    rfl
  · rename_i data hne hu
    cases h
    -- the sender is there until `up` ends
    rw [hs.sender (by simp [hu])] at he
    cases he
  · cases h
    cases he
  · rename_i hu
    rw [hu]
    rfl
  · cases h

/-- `down` does not touch `up`. -/
theorem run_down_up {s s' : Layer} {ok : Bool} (h : LayerChannel.run_down s ok = some s') :
    s'.up = s.up := by
  have hin := LayerChannel.run_down_incoming h
  simp only [LayerChannel.incoming, Prod.mk.injEq] at hin
  exact hin.2.2.2.2.2.1

/-- `r2.read()` gives the end only at the end, and raises only once the transport is
lost. -/
theorem Sane.reads_end {w : Wrapped κ} {reader : StreamReader} {r : Option Bytes} {resume : Bool}
    (hw : Sane w) (h : w.reader.read 65536 = some (reader, some r, resume))
    (he : ends (.read r) = true) : AtEnd reader ∨ w.transport.lost = true := by
  obtain ⟨c, hrun, hears⟩ := hw.heard.told
  cases r with
  | some b =>
      cases b with
      | nil => exact .inl (hears.woken.read_nil (by omega) h)
      | cons x b => cases he
  | none =>
      have hx : w.reader.exception = true := by
        generalize hout : (some none : Option (Option Bytes)) = out at h
        cases StreamReader.read_cases h with
        | taken | waits => cases hout
        | raised _ _ _ _ hwhy => exact hwhy.elim id hears.woken.raised
      exact .inr (hw.lost_of_told hrun (hears.exception hx))

/-- At first nothing has come in. -/
theorem init_inward (key : κ) : Inward [] (init key) :=
  ⟨LayerChannel.init_in, ⟨[], rfl, .inl rfl, fun _ => rfl⟩, nofun⟩

/-- One step keeps the bytes in order, from the carrier up to the session. -/
theorem step_inward {ls : List Label} {w w' : Wrapped κ} {l : Label} (hl : l.ok = true)
    (hsane : Sane w) (hw : Inward ls w) (h : step encode w l = some w') :
    Inward (ls ++ [l]) w' := by
  have hh := hsane.healthy
  have hsane' := step_sane hsane h
  cases step_cases h with
  | @channel _ chan hn hs =>
      have hw' : Inward ls { w with chan := chan } :=
        hw.chan (LayerChannel.step_in hw.inn hl hs) rfl rfl (native_keeps hn hs).ends
      exact hw'.snoc rfl
  | transport hi hs =>
      obtain ⟨hp, hset⟩ := inner_polite hi
      exact hw.protocol hh.conforms (hh.step hp hset hs).conforms hs hsane'.asserts rfl
  | @returns a t ha hs =>
      exact hw.protocol (l := .returns a) hh.conforms (hh.step rfl rfl hs).conforms hs
        hsane'.asserts rfl
  | @run_up chan hs =>
      have hw' : Inward ls { w with chan := chan } :=
        hw.chan (LayerChannel.run_up_in hw.inn hs) rfl rfl (run_up_ends hw.inn hs)
      exact hw'.snoc rfl
  | @down_moves chan hd hs =>
      have hw' : Inward ls { w with chan := chan } :=
        hw.chan (hw.inn.congr (LayerChannel.run_down_incoming hs)) rfl rfl (run_down_up hs ▸ id)
      exact hw'.snoc rfl
  | @down_closes chan hcur hd hs =>
      have hw' : Inward ls { w with chan := chan } :=
        hw.chan (hw.inn.congr (LayerChannel.run_down_incoming hs)) rfl rfl (run_down_up hs ▸ id)
      exact hw'.protocol (l := .call .close) hh.conforms
        (hh.step (hh.polite_close hcur) rfl rfl).conforms rfl hsane'.asserts rfl
  | @down_writes chan data hd hne hs =>
      have hw' : Inward ls { w with
          chan := chan, key := (encode w.key data).1
          encoded := w.encoded ++ [(encode w.key data).2]
          flow := { w.flow with drain := .entered } } :=
        hw.chan (hw.inn.congr (LayerChannel.run_down_incoming hs)) rfl rfl (run_down_up hs ▸ id)
      exact hw'.protocol (l := .call (.write _)) hh.conforms
        (hh.step (l := .call (.write _)) rfl rfl rfl).conforms rfl hsane'.asserts rfl
  | drains hs => exact Inward.snoc (hw.chan hw.inn rfl rfl id) rfl
  | @drained flow ok chan hs hc =>
      obtain ⟨hd, rfl⟩ := drain_done_chan hc
      exact Inward.snoc (hw.chan (hw.inn.congr rfl) rfl rfl id) rfl
  | @waits reader resume hs =>
      refine Inward.snoc ⟨hw.inn, hw.came.resume hh.conforms resume, fun he => ?_⟩ rfl
      rw [lost_of_resumed]
      refine (hw.ends he).imp (fun hend => ?_) id
      generalize hout : (none : Option (Option Bytes)) = out at hs
      cases StreamReader.read_cases hs with
      | taken | raised => cases hout
      | waits hb hend' => exact ⟨hend'.trans hend.1, hb.trans hend.2⟩
  | @reads reader r resume chan hs hc =>
      have hin : InInv chan := LayerChannel.step_in (l := .r2_read r) hw.inn rfl hc
      obtain ⟨-, rfl⟩ := r2_read_chan hc
      refine Inward.snoc ⟨hin, hw.came.resume hh.conforms resume, fun he => ?_⟩ rfl
      rw [lost_of_resumed]
      exact hsane.reads_end hs he

/-- A run does. -/
theorem run_inward {w : Wrapped κ} {ls : List Label} (hls : ∀ l ∈ ls, l.ok = true)
    (h : run (step encode) (init key) ls = some w) : Sane w ∧ Inward ls w := by
  have hstep : ∀ (ks : List Label) (s : Wrapped κ) (k : Label) (s' : Wrapped κ),
      ((∀ l ∈ ks, l.ok = true) → Sane s ∧ Inward ks s) → step encode s k = some s' →
      (∀ l ∈ ks ++ [k], l.ok = true) → Sane s' ∧ Inward (ks ++ [k]) s' := by
    intro ks s k s' hs h hks
    rw [List.forall_mem_append, List.forall_mem_singleton] at hks
    obtain ⟨hsane, hin⟩ := hs hks.1
    exact ⟨step_sane hsane h, step_inward hks.2 hsane hin h⟩
  have hinit : (∀ l ∈ ([] : List Label), l.ok = true) →
      Sane (init key) ∧ Inward [] (init key) := fun _ => ⟨init_sane key, init_inward key⟩
  exact run_inv_past (step encode) hstep hinit h hls

/-- Three bytes in two pieces, and the end. -/
def one_read : List Label :=
  [.transport .run_reader, .run_up, .run_read, .transport (.read_done (.ok [1, 2, 3])),
    .transport .run_reader, .returns, .run_read, .run_up, .channel .end_write, .run_up,
    .channel (.poll_read 2 true), .transport (.read_done (.ok [])), .transport .run_reader,
    .returns, .run_read, .run_up, .channel (.poll_read 2 true), .channel (.poll_read 2 true)]

end ZmuxPy.WrappedCarrier
