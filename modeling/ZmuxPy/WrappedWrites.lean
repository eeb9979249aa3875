/-
What a wrapped carrier writes to the carrier below.

"Each write on the result is one write on the layer's writer, then a drain, so that a
layer that writes once below for each write on it keeps one carrier write per write"
(`PipeIo.wrap`). The theorem at the end is that sentence over whole runs, from the
session's `poll_write` to `CarrierStream.write`, and what it leaves open: the carrier
below is shut down only after the session is done writing and every write has completed.

The parts' own invariants (`LayerChannel.OutInv`, `CarrierTransport.Inv`) say it of each
part. What joins them is `Outward`: what the layer wrote is what the transport was given,
and the transport took all of it for as long as it is not lost. A transport that is lost
is mute, so a shutdown that is called was asked for by `down`, at its end, with no error
on the way.
-/
import ZmuxPy.TransportClose
import ZmuxPy.WrappedCarrier

set_option autoImplicit false

namespace ZmuxPy.CarrierTransport

open Machine Asyncio

/-! ## What a transport is given, and what closes it -/

/-- After `_lose` the transport is lost, whatever it was before. -/
theorem lose_lost (t : Transport) (cur : Option Side) (exc : Option Exc) :
    (lose t cur exc).lost = true := by
  unfold lose
  split
  · assumption
  · split
    · rfl
    · exact (cancel_others_aside { t with lost := true, closing := true } cur).lost rfl

/-- `write(data)` is accepted exactly if the transport is open and the data has items. -/
theorem write_accepted (t : Transport) (data : Data) :
    accepted (write t data).log
      = accepted t.log ++ if t.closing || t.eof || data.items = 0 then [] else [data.bytes] := by
  unfold write
  by_cases hskip : (t.closing || t.eof || data.items = 0) = true
  · rw [if_pos hskip, if_pos hskip]
    simp only [Bool.or_eq_true, decide_eq_true_eq] at hskip
    cases hc : t.closing <;> cases he : t.eof <;> simp_all [record, Event.accepted]
  · rw [if_neg hskip, if_neg hskip]
    simp only [Bool.or_eq_true, decide_eq_true_eq, not_or, Bool.not_eq_true] at hskip
    unfold check_high
    split
    · change accepted ((t.log ++ [_]) ++ [.pause_writing]) = _
      rw [accepted_snoc, accepted_snoc]
      simp [Event.accepted, hskip]
    · simp [record, enqueue, set_wake, Event.accepted, hskip]

/-- A write shuts nothing down. -/
theorem write_shutdown {t : Transport} {data : Data} (h : .shutdown ∈ (write t data).log) :
    .shutdown ∈ t.log := by
  unfold write check_high at h
  split at h
  · simpa [record] using h
  · split at h <;> simpa [record, enqueue, set_wake] using h

/-- A step that does not close the transport: it closes only by losing it. -/
def StaysOpen (t t' : Transport) : Prop := t'.closing = t.closing ∨ t'.lost = true

/-- The read loop does not close the transport: neither at its top -/
theorem reader_top_closing (t : Transport) : (reader_top t).closing = t.closing := by
  unfold reader_top
  split <;> rfl

/-- nor in `_deliver`. -/
theorem deliver_view_closing (t : Transport) (view : Bytes) :
    (deliver_view t view).closing = t.closing := by
  unfold deliver_view
  split
  · exact reader_top_closing t
  · rfl

/-- A read that failed closes it by losing it. -/
theorem read_returned_open (t : Transport) (r : Except Exc Bytes) :
    StaysOpen t (read_returned t r) := by
  unfold read_returned
  split
  · exact .inl rfl
  · unfold deliver
    split
    · exact .inl (deliver_view_closing t _)
    · exact .inl rfl
  · unfold reader_raised
    split
    · exact .inl rfl
    · split
      · exact .inr (lose_lost _ _ _)
      · exact .inl rfl

/-- So it is with every turn of the read loop, -/
theorem run_reader_open {t t' : Transport} (h : run_reader t = some t') : StaysOpen t t' := by
  unfold run_reader at h
  split at h
  · rw [Option.some.injEq] at h
    subst h
    split
    · exact .inl rfl
    · exact .inl (reader_top_closing t)
  · obtain ⟨r, -, rfl⟩ := Option.map_eq_some_iff.1 h
    split <;> exact .inl rfl
  · obtain ⟨r, -, rfl⟩ := Option.map_eq_some_iff.1 h
    split
    · exact read_returned_open { t with reader_must_cancel := false } _
    · exact .inl rfl
  · cases h

/-- and with every turn of the write loop, which loses the transport once it has shut the
carrier down. -/
theorem WriterDoes.open {t t' : Transport} {o : Option Exc} (h : WriterDoes t o t') :
    StaysOpen t t' := by
  cases h with
  | moves | calls => exact .inl rfl
  | raised mark e =>
      unfold writer_raised
      dsimp only
      split
      · exact .inr (lose_lost _ _ _)
      · exact .inl rfl
  | loses mark => exact .inr (lose_lost _ _ _)

/-- A callback's return does not close it either, since `StreamReaderProtocol.eof_received`
keeps the transport open. -/
theorem returns_open {t t' : Transport} {a : Answer} (ha : a ≠ .keep_open false)
    (h : returns t a = some t') : StaysOpen t t' := by
  unfold returns at h
  split at h
  · cases h
    exact .inl (reader_top_closing t)
  · cases h
    exact .inl rfl
  · cases h
    exact .inl (deliver_view_closing t _)
  · rename_i b _
    cases h
    cases b with
    | true => exact .inl rfl
    | false => exact absurd rfl ha
  · cases h
    exact (writer_top_does t t.queued t.writer_must_cancel).open
  · cases h

end ZmuxPy.CarrierTransport

namespace ZmuxPy.WrappedCarrier

open Machine Asyncio CarrierTransport
open LayerChannel (Layer OutInv)

variable {κ : Type} {encode : κ → Bytes → κ × Bytes} {key : κ}

/-- **No step below the layer closes the transport, except by losing it.** What closes it is
`w2.close()`. -/
theorem inner_open {t t' : Transport} {l : CarrierTransport.Label} (hl : inner l = true)
    (h : CarrierTransport.step t l = some t') : StaysOpen t t' := by
  cases CarrierTransport.step_cases h with
  | call _ | returns _ | raises _ => cases hl
  | cancel_reader => exact .inl (cancel_reader_frames t).2.2.2.1
  | cancel_writer => exact .inl (cancel_writer_frames t).2.2.2.1
  | from_loop _ h =>
      cases from_loop_cases h with
      | made | read_done | write_done | shutdown_done | run_lost => exact .inl rfl
      | run_reader hrun => exact run_reader_open hrun
      | run_writer hrun => exact (run_writer_does hrun).2.open

/-- The steps below the layer are no writes. -/
theorem inner_not_write {l : CarrierTransport.Label} (hl : inner l = true) (data : Data) :
    l ≠ .call (.write data) := by
  rintro rfl
  cases hl

/-! ## The layer's side -/

/-- What `down` has done. -/
def passed_on (s : Layer) : List Bytes × Bool × Bool := (s.w2_writes, s.w2_closed, s.w2_error)

/-- The session and the native ends of the channels do not touch what `down` has done, -/
theorem Native.passed_on {s s' : Layer} (h : Native s s') :
    passed_on s' = passed_on s ∧ (s'.down = .drained false → s.down = .drained false) := by
  refine ⟨?_, fun hd => ?_⟩
  · simp only [WrappedCarrier.passed_on, h.w2_writes, h.w2_closed, h.w2_error]
  · rcases h.down with heq | ⟨-, b, hb⟩
    · rwa [← heq]
    · rw [hb] at hd
      cases hd

/-- and neither does `up`. -/
theorem run_up_passed_on {s s' : Layer} (h : LayerChannel.run_up s = some s') :
    passed_on s' = passed_on s ∧ s'.down = s.down := by
  unfold LayerChannel.run_up at h
  split at h <;> cases h <;> exact ⟨rfl, rfl⟩

/-! ## The invariant -/

/-- What the layer wrote, the transport was given; it took all of it for as long as it
is not lost; and it is closed by the end of `down`, or lost. -/
structure Outward (encode : κ → Bytes → κ × Bytes) (key : κ) (w : Wrapped κ) : Prop where
  out : OutInv w.chan
  writes : Inv w.transport
  encoded : w.encoded = encodes encode key w.chan.w2_writes
  key : w.key = key_after encode key w.chan.w2_writes
  taken : accepted w.transport.log <+: w.encoded
  all_taken : w.transport.lost = false → accepted w.transport.log = w.encoded
  closing : w.transport.closing = true → w.transport.lost = true ∨ w.chan.w2_closed = true
  failed : w.chan.down = .drained false → w.transport.lost = true
  error : w.chan.w2_error = true → w.transport.lost = true
  shut : .shutdown ∈ w.transport.log →
    w.chan.w2_closed = true ∧ w.chan.w2_error = false ∧ accepted w.transport.log = w.encoded

/-- The channel moves, but not what `down` has done. -/
theorem Outward.chan {w w' : Wrapped κ} (hw : Outward encode key w) (hout : OutInv w'.chan)
    (hp : passed_on w'.chan = passed_on w.chan)
    (hd : w'.chan.down = .drained false → w.transport.lost = true)
    (ht : w'.transport = w.transport) (hk : w'.key = w.key) (he : w'.encoded = w.encoded) :
    Outward encode key w' := by
  simp only [passed_on, Prod.mk.injEq] at hp
  obtain ⟨hw2, hcl, herr⟩ := hp
  obtain ⟨-, h1, h2, h3, h4, h5, h6, -, h7, h8⟩ := hw
  refine ⟨hout, ht ▸ h1, ?_, ?_, ?_, ?_, ?_, ht ▸ hd, ?_, ?_⟩
  · rw [he, hw2]
    exact h2
  · rw [hk, hw2]
    exact h3
  · rw [ht, he]
    exact h4
  · rw [ht, he]
    exact h5
  · rw [ht, hcl]
    exact h6
  · rw [ht, herr]
    exact h7
  · rw [ht, hcl, herr, he]
    exact h8

/-- The transport moves, without being given anything. -/
theorem Outward.transport {w w' : Wrapped κ} {l : CarrierTransport.Label}
    (hw : Outward encode key w) (hh : Healthy w.transport)
    (hp : polite w.transport l = true) (hs : l.sets = false)
    (h : CarrierTransport.step w.transport l = some w'.transport)
    (hl : ∀ data, l ≠ .call (.write data))
    (hopen : StaysOpen w.transport w'.transport ∨ w.chan.w2_closed = true)
    (hc : w'.chan = w.chan) (hk : w'.key = w.key) (he : w'.encoded = w.encoded) :
    Outward encode key w' := by
  have hh' := hh.step hp hs h
  have hkeeps := step_keeps h
  have hacc := step_accepted h hl
  have hinv : Inv w'.transport := step_inv hw.writes h
  have hclosing : w'.transport.closing = true →
      w'.transport.lost = true ∨ w.chan.w2_closed = true := by
    intro hcl
    rcases hopen with (hopen | hopen) | hopen
    · exact (hw.closing (hopen ▸ hcl)).imp hkeeps.lost id
    · exact .inl hopen
    · exact .inr hopen
  have hall : w'.transport.lost = false → accepted w'.transport.log = w.encoded :=
    fun hl => hacc.trans (hw.all_taken (hkeeps.lost_before hl))
  refine ⟨hc ▸ hw.out, hinv, ?_, ?_, ?_, ?_, ?_, ?_, ?_, ?_⟩
  · rw [he, hc]
    exact hw.encoded
  · rw [hk, hc]
    exact hw.key
  · rw [hacc, he]
    exact hw.taken
  · rw [he]
    exact hall
  · rw [hc]
    exact hclosing
  · rw [hc]
    exact fun hd => hkeeps.lost (hw.failed hd)
  · rw [hc]
    exact fun herr => hkeeps.lost (hw.error herr)
  · rw [hc, he]
    intro hmem
    by_cases hold : .shutdown ∈ w.transport.log
    · obtain ⟨h1, h2, h3⟩ := hw.shut hold
      exact ⟨h1, h2, hacc.trans h3⟩
    · -- the shutdown is called in this step, by a transport that is not lost
      have hlost : w'.transport.lost = false := by
        by_contra hne
        have hsilent : Silent w.transport w'.transport := by
          cases hl₀ : w.transport.lost with
          | true => exact ((hh.conforms.mute hl₀).step h).2
          | false => exact (step_loses hh.conforms.sound h hl₀ (by simpa using hne)).silent
        have hcalls : .shutdown ∈ calls w'.transport.log := by
          simpa [calls, Event.is_call] using hmem
        rw [hsilent.1] at hcalls
        exact hold (List.mem_filter.1 hcalls).1
      have hcl : w'.transport.closing = true := by
        rcases (hinv.shutdown hmem).1 with heof | hcl
        · rw [hh'.eof] at heof
          cases heof
        · exact hcl
      have hclosed := (hclosing hcl).resolve_left (by simp [hlost])
      refine ⟨hclosed, ?_, hall hlost⟩
      rw [Bool.eq_false_iff]
      intro herr
      rw [hkeeps.lost (hw.error herr)] at hlost
      cases hlost

/-- The protocol's reaction: it pauses reading at most. -/
theorem Outward.reacted {w w' : Wrapped κ} (hw : Outward encode key w)
    (hh : Healthy w.transport) (h : Reacted w w') : Outward encode key w' := by
  obtain ⟨hc, hk, he, ht⟩ := h
  rcases ht with ht | ht
  · refine hw.chan ?_ ?_ ?_ ht hk he
    all_goals rw [hc]
    · exact hw.out
    · exact hw.failed
  · exact hw.transport (l := .call .pause_reading) hh rfl rfl (by rw [ht]; rfl) nofun
      (.inl (.inl (by rw [ht]; rfl))) hc hk he

/-- The transport moves, and the protocol reacts: nothing is written, and it closes only if
`down` has closed it. -/
theorem Outward.protocol {w : Wrapped κ} {l : CarrierTransport.Label} {t : Transport}
    (hw : Outward encode key w) (hh : Healthy w.transport)
    (hp : polite w.transport l = true) (hs : l.sets = false)
    (h : CarrierTransport.step w.transport l = some t) (hl : ∀ data, l ≠ .call (.write data))
    (hopen : StaysOpen w.transport t ∨ w.chan.w2_closed = true) :
    Outward encode key (protocol w t) := by
  have hmoved : Outward encode key { w with transport := t } :=
    hw.transport hh hp hs h hl hopen rfl rfl rfl
  exact hmoved.reacted (hh.step hp hs h) (protocol_reacted w t)

/-- `down` with a message in its hands writes it and goes into the drain. -/
theorem run_down_read {s s' : Layer} {data : Bytes} (hd : s.down = .read data) (hne : data ≠ [])
    (h : LayerChannel.run_down s true = some s') :
    s' = { s with down := .draining, w2_writes := s.w2_writes ++ [data] } := by
  cases data with
  | nil => exact absurd rfl hne
  | cons x data =>
      rw [LayerChannel.run_down, hd] at h
      simpa using h.symm

/-- A write on the layer's writer is one write on the transport, which takes it unless
it is lost. -/
theorem Outward.write {w : Wrapped κ} {chan : Layer} {data : Bytes}
    (hw : Outward encode key w) (hh : Healthy w.transport)
    (henc : ∀ k b, b ≠ [] → (encode k b).2 ≠ []) (hd : w.chan.down = .read data)
    (hne : data ≠ []) (h : LayerChannel.run_down w.chan true = some chan) :
    Outward encode key (w2_write encode { w with chan := chan } data) := by
  have hout : OutInv chan := LayerChannel.run_down_out hw.out h
  obtain rfl := run_down_read hd hne h
  have hnc : ¬ w.chan.w2_closed = true := hw.out.not_closed (by simp [hd])
  have hns : .shutdown ∉ w.transport.log := fun hm => hnc (hw.shut hm).1
  -- lost transports are closing, and nothing else has closed this one
  have hlost : w.transport.lost = w.transport.closing := by
    cases hl : w.transport.lost with
    | true => exact (hh.conforms.mute hl).closing.symm
    | false =>
        cases hc : w.transport.closing with
        | false => rfl
        | true => exact absurd ((hw.closing hc).resolve_left (by simp [hl])) hnc
  generalize hb : (encode w.key data).2 = b
  have hbne : b ≠ [] := hb ▸ henc w.key data hne
  have hacc : accepted (CarrierTransport.write w.transport (.ofBytes b)).log
      = accepted w.transport.log ++ if w.transport.closing then [] else [b] := by
    rw [write_accepted]
    simp [hh.eof, Data.ofBytes, hbne]
  have hsame : (CarrierTransport.write w.transport (.ofBytes b)).lost = w.transport.lost :=
    write_lost w.transport _
  have hstep : CarrierTransport.step w.transport (.call (.write (.ofBytes b)))
      = some (CarrierTransport.write w.transport (.ofBytes b)) := rfl
  have hh' : Healthy (CarrierTransport.write w.transport (.ofBytes b)) := hh.step rfl rfl hstep
  have hall : w.transport.lost = false →
      accepted (CarrierTransport.write w.transport (.ofBytes b)).log = w.encoded ++ [b] := by
    intro hl
    rw [hacc, hw.all_taken hl, ← hlost, hl]
    rfl
  subst hb
  have hmoved : Outward encode key (w2_given encode { w with
      chan := { w.chan with
        down := .draining, w2_writes := w.chan.w2_writes ++ [data] } } data) := by
    refine ⟨hout, write_inv hw.writes _, ?_, ?_, ?_, ?_, fun hc => .inl ?_, nofun, ?_, ?_⟩
    · change w.encoded ++ _ = encodes encode key (w.chan.w2_writes ++ [data])
      rw [encodes_snoc, ← hw.key, ← hw.encoded]
    · change _ = key_after encode key (w.chan.w2_writes ++ [data])
      rw [key_after_snoc, ← hw.key]
      rfl
    · change accepted (CarrierTransport.write w.transport _).log <+: w.encoded ++ [_]
      cases hl : w.transport.lost with
      | true =>
          rw [hacc, ← hlost, hl]
          simpa using hw.taken.trans (List.prefix_append _ _)
      | false => exact hall hl ▸ List.prefix_rfl
    · exact fun hl => hall (hsame.symm.trans hl)
    · change (CarrierTransport.write w.transport _).lost = true
      rw [hsame, hlost, ← write_closing]
      exact hc
    · exact fun herr => hsame.trans (hw.error herr)
    · exact fun hm => absurd (write_shutdown hm) hns
  exact hmoved.reacted hh' (w2_write_reacted encode _ data)

/-- `down` ends, on the empty message or after a failed drain. -/
theorem Outward.end_down {w : Wrapped κ} {chan : Layer} (hw : Outward encode key w)
    (hd : w.chan.down = .read [] ∨ w.chan.down = .drained false)
    (h : LayerChannel.run_down w.chan true = some chan) :
    Outward encode key { w with chan := chan } ∧ chan.w2_closed = true := by
  have hout : OutInv chan := LayerChannel.run_down_out hw.out h
  have hnc : ¬ w.chan.w2_closed = true := by
    refine hw.out.not_closed ?_
    rcases hd with hd | hd <;> simp [hd]
  obtain ⟨error, herr, rfl⟩ : ∃ error, (error = true → w.transport.lost = true)
      ∧ chan = LayerChannel.end_down w.chan error := by
    unfold LayerChannel.run_down at h
    rcases hd with hd | hd
    · rw [hd] at h
      exact ⟨false, nofun, (Option.some.inj h).symm⟩
    · rw [hd] at h
      exact ⟨true, fun _ => hw.failed hd, (Option.some.inj h).symm⟩
  refine ⟨⟨hout, hw.writes, hw.encoded, hw.key, hw.taken, hw.all_taken, fun _ => .inr rfl, nofun,
    fun he => ?_, fun hm => absurd (hw.shut hm).1 hnc⟩, rfl⟩
  rcases Bool.or_eq_true_iff.1 he with he | he
  · exact hw.error he
  · exact herr he

/-- Only a lost transport has told its protocol so. -/
theorem Sane.lost_of_told {w : Wrapped κ} {c : Told} (hw : Sane w)
    (hc : run Told.hear .new w.transport.log = some c) (hl : c.lost = true) :
    w.transport.lost = true := by
  by_contra hne
  rw [hw.healthy.conforms.not_told (Told.run_of hc) (Bool.eq_false_iff.2 hne)] at hl
  cases hl

/-- `drain` raises only once the transport is lost. -/
theorem Sane.lost_of_raises {w : Wrapped κ} {flow : Flow} (hw : Sane w)
    (h : w.flow.Drains w.reader.exception flow (some false)) : w.transport.lost = true := by
  obtain ⟨c, hrun, hears⟩ := hw.heard.told
  refine hw.lost_of_told hrun ?_
  cases h with
  | raises hwhy =>
      rcases hwhy with hx | hl | hd
      · exact hears.exception hx
      · exact hears.lost ▸ hl
      · exact hears.drain hd

/-- At first nothing is written. -/
theorem init_outward (key : κ) : Outward encode key (init key) := by
  refine ⟨LayerChannel.init_out, ?_, rfl, rfl, List.nil_prefix, fun _ => rfl, nofun, nofun, nofun,
    ?_⟩
  · exact step_inv (init_inv false) (l := .made) rfl
  · simp [init, CarrierTransport.init]

/-- One step keeps the writes one for one and in order, from the session down to the carrier. -/
theorem step_outward {w w' : Wrapped κ} {l : Label}
    (henc : ∀ k b, b ≠ [] → (encode k b).2 ≠ []) (hl : l.ok = true) (hsane : Sane w)
    (hw : Outward encode key w) (h : step encode w l = some w') : Outward encode key w' := by
  have hh := hsane.healthy
  cases step_cases h with
  | channel hn hs =>
      obtain ⟨hp, hd⟩ := (native_keeps hn hs).passed_on
      exact hw.chan (LayerChannel.step_out hw.out hl hs) hp (fun h => hw.failed (hd h)) rfl rfl rfl
  | transport hi hs =>
      obtain ⟨hp, hset⟩ := inner_polite hi
      exact hw.protocol hh hp hset hs (inner_not_write hi) (.inl (inner_open hi hs))
  | @returns a t ha hs =>
      exact hw.protocol (l := .returns a) hh rfl rfl hs nofun (.inl (returns_open ha hs))
  | run_up hs =>
      obtain ⟨hp, hd⟩ := run_up_passed_on hs
      exact hw.chan (LayerChannel.step_out (l := .run_up) hw.out rfl hs) hp
        (fun h => hw.failed (hd ▸ h)) rfl rfl rfl
  | down_moves hd hs =>
      -- `down` starts, or goes back to its read: nothing is passed on in it
      have hout : OutInv _ := LayerChannel.run_down_out hw.out hs
      refine hw.chan hout ?_ ?_ rfl rfl rfl
      all_goals unfold LayerChannel.run_down at hs
      all_goals rcases hd with hd | hd
      all_goals rw [hd] at hs
      all_goals cases hs
      · rfl
      · rfl
      · exact nofun
      · exact nofun
  | down_closes hcur hd hs =>
      -- the close comes after everything that was read was written
      obtain ⟨hw', hclosed⟩ := hw.end_down hd hs
      exact hw'.protocol (l := .call .close) hh (hh.polite_close hcur) rfl rfl nofun
        (.inr hclosed)
  | down_writes hd hne hs => exact hw.write hh henc hd hne hs
  | drains hs => exact hw.chan hw.out rfl hw.failed rfl rfl rfl
  | @drained flow ok chan hs hc =>
      have hout : OutInv chan := LayerChannel.step_out (l := .drain_done ok) hw.out rfl hc
      obtain ⟨hd, rfl⟩ := drain_done_chan hc
      refine hw.chan hout rfl (fun hf => ?_) rfl rfl rfl
      cases ok with
      | true => cases hf
      -- a drain raises only on a transport that is lost
      | false => exact hsane.lost_of_raises (Flow.run_drain_cases hs)
  | @waits reader resume hs =>
      cases resume with
      | false => exact hw.chan hw.out rfl hw.failed rfl rfl rfl
      | true =>
          exact hw.transport (l := .call .resume_reading) hh rfl rfl rfl nofun (.inl (.inl rfl))
            rfl rfl rfl
  | @reads reader r resume chan hs hc =>
      have hout : OutInv chan := LayerChannel.step_out (l := .r2_read r) hw.out rfl hc
      obtain ⟨-, rfl⟩ := r2_read_chan hc
      have hw' : Outward encode key { w with
          chan := { w.chan with up := .read r, r2_reads := w.chan.r2_reads ++ r.toList } } :=
        hw.chan hout rfl hw.failed rfl rfl rfl
      cases resume with
      | false => exact hw'.chan hout rfl hw.failed rfl rfl rfl
      | true =>
          exact hw'.transport (l := .call .resume_reading) hh rfl rfl rfl nofun (.inl (.inl rfl))
            rfl rfl rfl

/-- A run does. -/
theorem run_outward {w : Wrapped κ} {ls : List Label}
    (henc : ∀ k b, b ≠ [] → (encode k b).2 ≠ []) (hls : ∀ l ∈ ls, l.ok = true)
    (h : run (step encode) (init key) ls = some w) : Outward encode key w :=
  meets_inv_of_inv (step encode) (fun _ _ _ hs h => step_sane hs h)
    (fun _ _ _ hs hw hl h => step_outward henc hl hs hw h) (init_sane key) (init_outward key)
    (meets_of_forall _ hls _) h

/-- **A wrapped carrier keeps one carrier write per write, in order, and ends after the
last of them.** For every layer that does no I/O before it returns and makes one write below,
not an empty one, for each write on it, in every run in which the session writes no empty
slices: the writes on the carrier below are what
the layer makes of a prefix of the session's accepted writes, one each and in their
order. The carrier below is shut down once at most, and not before the session's writing
end is closed, without an error of a drain, and every accepted write has completed. -/
theorem wrapped_writes_in_order {w : Wrapped κ} {ls : List Label}
    (henc : ∀ k b, b ≠ [] → (encode k b).2 ≠ []) (hls : ∀ l ∈ ls, l.ok = true)
    (h : run (step encode) (init key) ls = some w) :
    written w.transport.log <+: encodes encode key w.chan.accepted
    ∧ ∀ pre post, w.transport.log = pre ++ .shutdown :: post →
        completed pre = encodes encode key w.chan.accepted ∧ LayerChannel.out_sender w.chan = false
        ∧ w.chan.w2_error = false ∧ .shutdown ∉ pre ∧ .shutdown ∉ post := by
  have hw := run_outward henc hls h
  have hpass : w.encoded <+: encodes encode key w.chan.accepted :=
    hw.encoded ▸ encodes_prefix encode key hw.out.passed
  refine ⟨?_, fun pre post hlog => ?_⟩
  · have htaken : written w.transport.log <+: accepted w.transport.log :=
      ⟨w.transport.queue, hw.writes.queue.symm⟩
    exact (htaken.trans hw.taken).trans hpass
  · have hmem : .shutdown ∈ w.transport.log := by simp [hlog]
    obtain ⟨hclosed, herr, hacc⟩ := hw.shut hmem
    obtain ⟨hall, hsend⟩ := hw.out.clean hclosed herr
    obtain ⟨-, pre', post', hlog', hpre', hcomp, hpost⟩ := hw.writes.shutdown hmem
    have hnot : Event.shutdown ∉ post' := fun hm => (hpost _ hm).not_shutdown rfl
    obtain ⟨rfl, -, rfl⟩ := (List.append_cons_inj_of_notMem hpre' hnot).1 (hlog'.symm.trans hlog)
    refine ⟨?_, hsend, herr, hpre', hnot⟩
    -- nothing is accepted after the shutdown
    have hsame : accepted w.transport.log = accepted pre' := by
      have hsnoc : w.transport.log = (pre' ++ [.shutdown]) ++ post' := by simp [hlog]
      rw [hsnoc, accepted_append hpost, accepted_snoc]
      simp [Event.accepted]
    rw [hcomp, ← hsame, hacc, hw.encoded, hall]

/-- A layer that puts a sequence number before each write. -/
def number (n : UInt8) (data : Bytes) : UInt8 × Bytes := (n + 1, n :: data)

/-- Two writes, the second of them accepted before the first is written below, and the end
of writing. -/
def two_writes : List Label :=
  [.run_down, .transport .run_writer, .channel (.poll_write [7, 7] true), .channel .end_read,
    .run_down, .run_drain, .run_down, .channel (.poll_write [8] true), .channel .end_read,
    .run_down, .run_drain, .run_down, .transport .run_writer, .transport (.write_done (.ok ())),
    .transport .run_writer, .channel .poll_shutdown, .channel .end_read, .run_down,
    .transport (.write_done (.ok ())), .transport .run_writer]

theorem wrapped_writes_in_order_two :
    ∃ w, run (step number) (init 0) two_writes = some w
      ∧ written w.transport.log = [[0, 7, 7], [1, 8]] ∧ .shutdown ∈ w.transport.log
      ∧ ∀ pre post, w.transport.log = pre ++ .shutdown :: post →
        completed pre = encodes number 0 w.chan.accepted
        ∧ LayerChannel.out_sender w.chan = false ∧ w.chan.w2_error = false
        ∧ .shutdown ∉ pre ∧ .shutdown ∉ post :=
  ⟨_, rfl, by decide, by decide,
    (@wrapped_writes_in_order UInt8 number 0 _ two_writes (fun _ _ _ => List.cons_ne_nil _ _)
      (by decide) rfl).2⟩

end ZmuxPy.WrappedCarrier
