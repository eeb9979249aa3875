/-
A `_CarrierTransport` (`python/zmux/_layer.py`) keeps the contract between an asyncio
transport and its protocol: which of the protocol's methods are called after which.

The contract is an automaton that reads the log (`Told.hear`): no data after the end of
file, one end of file, `pause_writing` and `resume_writing` in turn, one
`connection_lost` and nothing after it. asyncio's own protocols assert parts of it.

What breaks it is a loss from inside: a protocol that calls `abort()`, or `close()` once
the write loop is over, in the middle of a loop's work. The loop goes on and delivers to
a protocol whose connection is lost (`ZmuxPy.TransportSilence`). `polite` rules
that out.
-/
import ZmuxPy.TransportRuns
import ZmuxPy.TransportSilence

set_option autoImplicit false

namespace ZmuxPy.CarrierTransport

open Machine Asyncio

/-! ## The contract

The protocol as an automaton: it accepts the calls that asyncio allows in its order, and the
theorem is that it accepts the log of every run of `polite` steps. -/

/-- What a protocol has been told of its connection. -/
structure Told where
  eof : Bool
  paused : Bool
  lost : Bool
  deriving DecidableEq, Repr

/-- A protocol that has been told nothing yet. -/
def Told.new : Told := ⟨false, false, false⟩

/-- A method of the protocol is called; `none` if it may not be called now. -/
def Told.hear (c : Told) : Event → Option Told
  | .data_received data => if c.eof || c.lost || data.isEmpty then none else some c
  -- a protocol that offers no room is told of no bytes
  | .buffer_updated _ => if c.eof || c.lost then none else some c
  | .eof_received => if c.eof || c.lost then none else some { c with eof := true }
  | .pause_writing => if c.paused || c.lost then none else some { c with paused := true }
  | .resume_writing => if c.paused && !c.lost then some { c with paused := false } else none
  | .connection_lost _ => if c.lost then none else some { c with lost := true }
  -- not a call of the protocol
  | _ => some c

/-- What the automaton's state says of the calls it has read. -/
structure Told.Of (log : List Event) (c : Told) : Prop where
  eof : c.eof = true ↔ .eof_received ∈ log
  paused : c.paused = true ↔ (flow log).getLast? = some .pause_writing
  lost : c.lost = true ↔ lost_calls log ≠ []

/-- Reading one event more keeps the automaton's state true to the log. -/
theorem Told.hear_of {log : List Event} {c c' : Told} {e : Event} (hc : c.Of log)
    (h : c.hear e = some c') : c'.Of (log ++ [e]) := by
  obtain ⟨heof, hpaused, hlost⟩ := hc
  cases e with
  | eof_received | pause_writing | resume_writing | connection_lost _ =>
      simp only [hear, Option.ite_none_left_eq_some, Option.ite_none_right_eq_some,
        Option.some.injEq] at h
      obtain ⟨-, rfl⟩ := h
      constructor <;> simp [heof, hpaused, hlost, Event.is_flow, Event.lost_call]
  | data_received _ | buffer_updated _ =>
      simp only [hear, Option.ite_none_left_eq_some, Option.some.injEq] at h
      obtain ⟨-, rfl⟩ := h
      constructor <;> simp [heof, hpaused, hlost, Event.is_flow, Event.lost_call]
  | write_called _ _ _ | read | write _ | wrote _ _ | shutdown | shut _
  | connection_lost_scheduled _ =>
      cases h
      constructor <;> simp [heof, hpaused, hlost, Event.is_flow, Event.lost_call]

/-- A log that the automaton accepts is what its state says. -/
theorem Told.run_of {log : List Event} {c : Told} (h : run hear new log = some c) : c.Of log :=
  run_inv_past hear (fun _ _ _ _ hc hs => hear_of hc hs)
    ⟨by simp [new], by simp [new, flow], by simp [new, lost_calls]⟩ h

/-! ## What a step calls

At most one call in a step, and the last of its events, so that one step of the automaton
answers one step of the transport. -/

/-- An event that is no call: neither of the protocol nor of the carrier. -/
def Event.uncalled : Event → Bool
  | .write_called _ _ _ | .connection_lost_scheduled _ => true
  | _ => false

/-- Events that are no calls go by unheard. -/
theorem Told.run_uncalled {c : Told} {es : List Event} (h : ∀ e ∈ es, e.uncalled = true) :
    run hear c es = some c := by
  induction es with
  | nil => rfl
  | cons e es ih =>
      obtain ⟨he, hes⟩ := List.forall_mem_cons.1 h
      refine (run_cons_eq_some hear).2 ⟨c, ?_, ih hes⟩
      cases e with
      | write_called _ _ _ | connection_lost_scheduled _ => rfl
      | _ => cases he

/-- A filter for calls does not see them. -/
theorem filter_uncalled {p : Event → Bool} {es : List Event} (h : ∀ e ∈ es, e.uncalled = true)
    (hp : ∀ e : Event, e.uncalled = true → p e = false) (log : List Event) :
    (log ++ es).filter p = log.filter p := by
  have hnil : es.filter p = [] :=
    List.filter_eq_nil_iff.2 fun e he => by simp [hp e (h e he)]
  rw [List.filter_append, hnil, List.append_nil]

/-- A step adds events, of which the last at most is a call. -/
def Adds (t t' : Transport) : Prop :=
  ∃ (es : List Event) (o : Option Event),
    t'.log = t.log ++ es ++ o.toList ∧ ∀ e ∈ es, e.uncalled = true

/-- A step may add nothing, -/
theorem Adds.of_eq {t t' : Transport} (h : t'.log = t.log) : Adds t t' :=
  ⟨[], none, by simp [h], by simp⟩

/-- or one event. -/
theorem Adds.of_event {t t' : Transport} {e : Event} (h : t'.log = t.log ++ [e]) : Adds t t' :=
  ⟨[], some e, by simp [h], by simp⟩

/-- Cancelling the tasks leaves no trace in the log. -/
theorem cancel_others_log (t : Transport) (cur : Option Side) :
    (cancel_others t cur).log = t.log := by
  unfold cancel_others
  split
  · exact (cancel_writer_frames t).2.2.2.2.2
  · exact (cancel_reader_frames t).2.2.2.2.2
  · exact (cancel_writer_frames _).2.2.2.2.2.trans (cancel_reader_frames t).2.2.2.2.2

/-- `_lose` adds one event at most, and it is no call: `connection_lost` is only scheduled. -/
theorem lose_adds (t : Transport) (cur : Option Side) (exc : Option Exc) :
    Adds t (lose t cur exc) := by
  unfold lose
  split
  · exact .of_eq rfl
  · split
    · exact .of_eq rfl
    · refine .of_event (e := .connection_lost_scheduled exc) ?_
      simp only [schedule_lost, record, cancel_others_log]

/-- `close()` adds what `_lose` adds, or nothing. -/
theorem close_adds (t : Transport) (cur : Option Side) : Adds t (close t cur) := by
  unfold close
  split
  · exact .of_eq rfl
  · split
    · exact lose_adds (set_wake { t with closing := true }) cur none
    · exact .of_eq rfl

/-- `write(data)` records its argument, and then perhaps a call of `pause_writing`. -/
theorem write_adds (t : Transport) (data : Data) : Adds t (write t data) := by
  unfold write
  split
  · exact .of_event rfl
  · unfold check_high
    split
    · exact ⟨[.write_called data t.closing t.eof], some .pause_writing, rfl,
        by simp [Event.uncalled]⟩
    · exact .of_event (e := .write_called data t.closing t.eof) rfl

/-- A turn of the read loop makes one call at most, -/
theorem ReaderDoes.adds {t t' : Transport} {o : Option Exc} (h : ReaderDoes t o t') :
    Adds t t' := by
  cases h with
  | moves => exact .of_eq rfl
  | calls r mark e => exact .of_event rfl
  | raised mark e =>
      unfold reader_raised
      dsimp only
      split
      · exact lose_adds { t with reader_must_cancel := mark } _ _
      · exact .of_eq rfl
  | closes => exact close_adds t _

/-- and so does one of the write loop. -/
theorem WriterDoes.adds {t t' : Transport} {o : Option Exc} (h : WriterDoes t o t') :
    Adds t t' := by
  cases h with
  | moves => exact .of_eq rfl
  | calls _ _ _ _ _ e => exact .of_event rfl
  | raised mark e =>
      unfold writer_raised
      dsimp only
      split
      · exact lose_adds { t with writer_must_cancel := mark } _ _
      · exact .of_eq rfl
  | loses mark => exact lose_adds { t with writer_must_cancel := mark } _ _

/-- **A step makes one call at most**, so that the contract may be checked a call at a time. -/
theorem step_adds {t t' : Transport} {l : Label} (h : step t l = some t') : Adds t t' := by
  cases step_does h with
  | call c =>
      cases c with
      | write data => exact write_adds t data
      | close => exact close_adds t _
      | abort => exact lose_adds t _ _
      | write_eof | pause_reading | resume_reading | set_protocol _
      | set_write_buffer_limits _ _ => exact .of_eq rfl
  | cancel_reader => exact .of_eq (cancel_reader_frames t).2.2.2.2.2
  | cancel_writer => exact .of_eq (cancel_writer_frames t).2.2.2.2.2
  | made | read_done => exact .of_eq rfl
  | write_done | shutdown_done | run_lost => exact .of_event rfl
  | reader _ _ h => exact h.adds
  | writer _ _ h => exact h.adds

/-- The history only grows. -/
theorem step_log {t t' : Transport} {l : Label} (h : step t l = some t') :
    ∃ es, t'.log = t.log ++ es := by
  obtain ⟨es, o, hlog, -⟩ := step_adds h
  exact ⟨es ++ o.toList, by rw [hlog, List.append_assoc]⟩

/-! ## Runs -/

/-- `close()` and `abort()` are not called in the middle of a loop's work. -/
def polite (t : Transport) (l : Label) : Bool :=
  match l with
  | .call .close | .call .abort => !inside t l
  | _ => true

/-- Only `close()` and `abort()` can lose a transport from inside. -/
theorem not_inside_of_loses {t t' : Transport} {l : Label} (h : step t l = some t')
    (hp : polite t l = true) (hl : t.lost = false) (hl' : t'.lost = true) :
    inside t l = false := by
  have hsame : t'.lost = t.lost → inside t l = false := by
    intro hsame
    rw [hl, hl'] at hsame
    cases hsame
  cases l with
  | call c =>
      cases h
      cases c with
      | close | abort => simpa [polite] using hp
      | write data => exact hsame (write_lost t data)
      | write_eof | pause_reading | resume_reading | set_protocol _
      | set_write_buffer_limits _ _ => exact hsame rfl
  | _ => rfl

/-- What carries the contract: a lost transport is mute, and the read loop ends after
the end of file. -/
structure Conforms (t : Transport) : Prop where
  told : ∃ c, run Told.hear .new t.log = some c
  eof : .eof_received ∈ t.log → t.reader = .eof_received ∨ ∃ e, t.reader = .ended e
  mute : t.lost = true → Mute t
  sound : Sound t
  alternates : Alternates t
  announced : (announced t).length ≤ t.lost.toNat

/-- A new transport has called nothing. -/
theorem init_conforms (buffered : Bool) : Conforms (init buffered) :=
  ⟨⟨.new, rfl⟩, by simp [init], nofun,
    ⟨⟨fun _ => rfl, fun _ => rfl⟩, fun _ => rfl, fun h => by cases h.1⟩,
    ⟨List.isChain_nil, by simp [init, flow], by simp [init, flow]⟩, Nat.le_refl 0⟩

/-- After the end of file the read loop calls nothing and ends. -/
theorem ReadLoop.Turn.after_eof {s s' : ReadLoop} {l : Label} {es : List Event}
    (h : s.Turn l s' es) (hs : s.reader = .eof_received ∨ ∃ e, s.reader = .ended e) :
    (s'.reader = .eof_received ∨ ∃ e, s'.reader = .ended e) ∧ es = [] := by
  rcases hs with hs | ⟨e, hs⟩
  · obtain ⟨reader, mark, reading⟩ := s
    subst hs
    cases h with
    | aside | marked | pause | resume => exact ⟨.inl rfl, rfl⟩
    | stopped _ e => exact ⟨.inr ⟨e, rfl⟩, rfl⟩
    | wait _ hs | read _ hs => cases hs
  · obtain ⟨hend, hes, -⟩ := h.of_ended hs
    exact ⟨.inr hend, hes⟩

/-- What the read loop calls: `eof_received` on its way out, and no `data_received`
without data. -/
theorem ReadLoop.Turn.calls {s s' : ReadLoop} {l : Label} {es : List Event} {e : Event}
    (h : s.Turn l s' es) (he : e ∈ es) :
    (e = .eof_received → s'.reader = .eof_received) ∧ e ≠ .data_received [] := by
  cases h with
  | read | woken_read | buffer_updated =>
      cases List.mem_singleton.1 he
      exact ⟨nofun, nofun⟩
  | data_received reading data hne =>
      cases List.mem_singleton.1 he
      refine ⟨nofun, fun hd => hne ?_⟩
      cases hd
      rfl
  | eof_received =>
      cases List.mem_singleton.1 he
      exact ⟨fun _ => rfl, nofun⟩
  | _ => cases he

section Step

variable {t t' : Transport} {l : Label} {es : List Event} {e : Event}

/-- What is no call is none of the read loop's calls, -/
theorem Event.of_reader_uncalled {e : Event} (h : e.uncalled = true) : e.of_reader = false := by
  cases e with
  | write_called _ _ _ | connection_lost_scheduled _ => rfl
  | _ => cases h

/-- none at all -/
theorem Event.is_call_uncalled {e : Event} (h : e.uncalled = true) : e.is_call = false := by
  cases e with
  | write_called _ _ _ | connection_lost_scheduled _ => rfl
  | _ => cases h

/-- and none of the flow control's. -/
theorem Event.is_flow_uncalled {e : Event} (h : e.uncalled = true) : e.is_flow = false := by
  cases e with
  | write_called _ _ _ | connection_lost_scheduled _ => rfl
  | _ => cases h

/-- The turn in which the read loop makes a call. -/
theorem turn_of_call (h : step t l = some t') (hes : ∀ e ∈ es, e.uncalled = true)
    (hlog : t'.log = t.log ++ es ++ [e]) (he : e.of_reader = true) :
    (read_loop t).Turn l (read_loop t') [e] := by
  obtain ⟨es', hrl, hturn⟩ := step_reader h
  rw [hlog, reader_log_snoc, if_pos he, reader_log,
    filter_uncalled hes (fun _ => Event.of_reader_uncalled), ← reader_log,
    List.append_cancel_left_eq] at hrl
  exact hrl ▸ hturn

/-- A call by the read loop is made before the end of file. -/
theorem Conforms.before_eof (ht : Conforms t) (h : step t l = some t')
    (hes : ∀ e ∈ es, e.uncalled = true) (hlog : t'.log = t.log ++ es ++ [e])
    (he : e.of_reader = true) : .eof_received ∉ t.log := by
  intro hmem
  have hnil := ((turn_of_call h hes hlog he).after_eof (ht.eof hmem)).2
  cases hnil

/-- A transport that calls something is not lost. -/
theorem Conforms.not_lost (ht : Conforms t) (h : step t l = some t')
    (hes : ∀ e ∈ es, e.uncalled = true) (hlog : t'.log = t.log ++ es ++ [e])
    (he : e.is_call = true) : t.lost = false := by
  by_contra hl
  have hsilent := ((ht.mute (by simpa using hl)).step h).2.1
  rw [hlog, calls_snoc, if_pos he, CarrierTransport.calls,
    filter_uncalled hes (fun _ => Event.is_call_uncalled), ← CarrierTransport.calls] at hsilent
  simp at hsilent

/-- Until the transport is lost, nobody has been told so. -/
theorem Conforms.not_told {c : Told} (ht : Conforms t) (hc : c.Of t.log) (hl : t.lost = false) :
    c.lost = false := by
  have hann := ht.announced
  rw [hl, Bool.toNat_false, Nat.le_zero, List.length_eq_zero_iff,
    CarrierTransport.announced, List.append_eq_nil_iff] at hann
  rw [Bool.eq_false_iff, Ne, hc.lost, hann.1]
  simp

/-- The calls of `pause_writing` and `resume_writing` come in turn. -/
theorem Conforms.in_turn (ht : Conforms t) (h : step t l = some t')
    (hes : ∀ e ∈ es, e.uncalled = true) (hlog : t'.log = t.log ++ es ++ [e])
    (he : e.is_flow = true) :
    e = .pause_writing ↔ (flow t.log).getLast? ≠ some .pause_writing := by
  have halt : Alternates t' := (step_keeps h).alternates ht.alternates
  have hflow : flow t'.log = flow t.log ++ [e] := by
    rw [hlog, flow_snoc, if_pos he, flow, filter_uncalled hes (fun _ => Event.is_flow_uncalled)]
    rfl
  have hchain := halt.chain
  rw [hflow, List.isChain_append] at hchain
  constructor
  · rintro rfl hlast
    exact hchain.2.2 _ hlast _ rfl rfl
  · intro hlast
    cases hl : (flow t.log).getLast? with
    | none =>
        -- the first of all
        refine halt.first e ?_
        rw [hflow, List.getLast?_eq_none_iff.1 hl]
        rfl
    | some a =>
        have ha : a.is_flow = true := (List.mem_filter.1 (List.mem_of_getLast? hl)).2
        have hne : a ≠ e := hchain.2.2 a hl e rfl
        cases a with
        | pause_writing => exact absurd hl hlast
        | resume_writing =>
            cases e with
            | pause_writing => rfl
            | resume_writing => exact absurd rfl hne
            | _ => cases he
        | _ => cases ha

/-- `connection_lost` is called once. -/
theorem Conforms.first_lost {exc : Option Exc} {c : Told} (ht : Conforms t) (hc : c.Of t.log)
    (h : step t l = some t') (hlog : t'.log = t.log ++ es ++ [.connection_lost exc]) :
    c.lost = false := by
  have hann : (CarrierTransport.announced t').length ≤ 1 := by
    rcases step_announces h with ⟨hl, ha⟩ | ⟨hl, -, ha⟩
    · rw [ha]
      exact ht.announced.trans t.lost.toNat_le
    · have hnone := ht.announced
      rw [hl] at hnone
      exact ha.trans (Nat.succ_le_succ hnone)
  rw [Bool.eq_false_iff, Ne, hc.lost, not_not]
  have hsplit : lost_calls t'.log = lost_calls t.log ++ lost_calls es ++ [exc] := by
    rw [hlog, lost_calls_snoc, lost_calls, List.filterMap_append]
    rfl
  rw [CarrierTransport.announced, hsplit] at hann
  simp only [List.length_append, List.length_singleton] at hann
  exact List.length_eq_zero_iff.1 (by omega)

/-- The call that a step makes is one that the protocol may be told. -/
theorem Conforms.hears {c : Told} (ht : Conforms t) (hc : c.Of t.log) (h : step t l = some t')
    (hes : ∀ e ∈ es, e.uncalled = true) (hlog : t'.log = t.log ++ es ++ [e]) :
    ∃ c', c.hear e = some c' := by
  have hlive : e.is_call = true → c.lost = false :=
    fun he => ht.not_told hc (ht.not_lost h hes hlog he)
  have heof : e.of_reader = true → c.eof = false := by
    intro he
    rw [Bool.eq_false_iff, Ne, hc.eof]
    exact ht.before_eof h hes hlog he
  cases e with
  | data_received data =>
      have hne : data ≠ [] := by
        rintro rfl
        exact ((turn_of_call h hes hlog rfl).calls List.mem_cons_self).2 rfl
      simp [Told.hear, heof rfl, hlive rfl, hne]
  | buffer_updated _ | eof_received => simp [Told.hear, heof rfl, hlive rfl]
  | pause_writing =>
      have hp : ¬ c.paused = true := by
        rw [hc.paused]
        exact (ht.in_turn h hes hlog rfl).1 rfl
      simp [Told.hear, hp, hlive rfl]
  | resume_writing =>
      have hp : c.paused = true := by
        rw [hc.paused]
        by_contra hne
        have habs := (ht.in_turn h hes hlog rfl).2 hne
        cases habs
      simp [Told.hear, hp, hlive rfl]
  | connection_lost exc => simp [Told.hear, ht.first_lost hc h hlog]
  | write_called _ _ _ | read | write _ | wrote _ _ | shutdown | shut _
  | connection_lost_scheduled _ => exact ⟨c, rfl⟩

/-- After `eof_received` the read loop is in that call or over, and a step keeps it there. -/
theorem step_eof (ht : .eof_received ∈ t.log → t.reader = .eof_received ∨ ∃ e, t.reader = .ended e)
    (h : step t l = some t') (hmem : .eof_received ∈ t'.log) :
    t'.reader = .eof_received ∨ ∃ e, t'.reader = .ended e := by
  have hlog : ∀ {log : List Event}, .eof_received ∈ log ↔ .eof_received ∈ reader_log log := by
    intro log
    simp [reader_log, Event.of_reader]
  obtain ⟨es, hrl, hturn⟩ := step_reader h
  rw [hlog, hrl, List.mem_append, ← hlog] at hmem
  rcases hmem with hmem | hmem
  · exact (hturn.after_eof (ht hmem)).1
  · exact .inl ((hturn.calls hmem).1 rfl)

/-- One polite step keeps the contract. A call that it makes is made by a transport that is not
lost, since a lost one is mute; the rest of the contract is the flow control's and the read
loop's own. -/
theorem step_conforms (ht : Conforms t) (hp : polite t l = true) (h : step t l = some t') :
    Conforms t' := by
  refine ⟨?_, step_eof ht.eof h, fun hl' => ?_, step_sound ht.sound h,
    (step_keeps h).alternates ht.alternates, ?_⟩
  · obtain ⟨c, hc⟩ := ht.told
    obtain ⟨es, o, hlog, hes⟩ := step_adds h
    have hrun : run Told.hear .new (t.log ++ es) = some c :=
      run_append Told.hear hc (Told.run_uncalled hes)
    cases o with
    | none => exact ⟨c, by rw [hlog]; simpa using hrun⟩
    | some e =>
        obtain ⟨c', hc'⟩ := ht.hears (Told.run_of hc) h hes hlog
        refine ⟨c', ?_⟩
        rw [hlog]
        exact run_append Told.hear hrun ((run_cons_eq_some _).2 ⟨c', hc', rfl⟩)
  · cases hl : t.lost with
    | true => exact ((ht.mute hl).step h).1
    | false => exact (step_loses ht.sound h hl hl').mute (not_inside_of_loses h hp hl hl')
  · rcases step_announces h with ⟨hl, ha⟩ | ⟨hl, hl', ha⟩
    · rw [hl, ha]
      exact ht.announced
    · have hnone := ht.announced
      rw [hl] at hnone
      rw [hl']
      exact ha.trans (Nat.succ_le_succ hnone)

end Step

/-- A run of polite steps keeps it. -/
theorem run_conforms {buffered : Bool} {ls : List Label} {t : Transport}
    (h : run step (init buffered) ls = some t)
    (hp : Meets step (fun t l => polite t l = true) (init buffered) ls) : Conforms t :=
  meets_inv step (fun _ _ _ ht hp h => step_conforms ht hp h) (init_conforms buffered) hp h

/-- **A transport calls its protocol as asyncio's contract has it.** In every run in which
nobody calls `close()` or `abort()` in the middle of a loop's work, the calls of the
protocol's methods are accepted by the contract: data and one end of file, no data after
it and no empty data; `pause_writing` and `resume_writing` in turn, the first one to
pause; and one `connection_lost`, of a lost transport, with nothing after it. The
protocol was last told to pause exactly if the transport counts it as paused. -/
theorem callbacks_keep_contract {buffered : Bool} {ls : List Label} {t : Transport}
    (h : run step (init buffered) ls = some t)
    (hp : Meets step (fun t l => polite t l = true) (init buffered) ls) :
    ∃ c, run Told.hear .new t.log = some c ∧ c.paused = t.paused
      ∧ (c.lost = true → t.lost = true)
      ∧ (c.eof = true → t.reader = .eof_received ∨ ∃ e, t.reader = .ended e) := by
  have ht := run_conforms h hp
  obtain ⟨c, hc⟩ := ht.told
  have hof := Told.run_of hc
  refine ⟨c, hc, ?_, ?_, ?_⟩
  · rw [Bool.eq_iff_iff, hof.paused, ← ht.alternates.last]
  · intro hl
    by_contra hne
    rw [ht.not_told hof (Bool.eq_false_iff.2 hne)] at hl
    cases hl
  · exact fun he => ht.eof (hof.eof.1 he)

/-- Data, a write above the high mark that completes, and a close. -/
def conversation : List Label :=
  [.made, .run_reader, .run_writer, .read_done (.ok [7]), .run_reader,
    .call (.set_write_buffer_limits (some 1) none), .call (.write (.ofBytes [1, 2])),
    .returns .none, .run_writer, .write_done (.ok ()), .run_writer, .returns .none,
    .read_done (.ok []), .run_reader, .returns (.keep_open true), .call .close, .run_writer,
    .shutdown_done (.ok ()), .run_writer, .run_lost]

theorem callbacks_keep_contract_conversation :
    ∃ t, run step (init false) conversation = some t
      ∧ run Told.hear .new t.log = some ⟨true, false, true⟩
      ∧ ∃ c, run Told.hear .new t.log = some c ∧ c.paused = t.paused
        ∧ (c.lost = true → t.lost = true)
        ∧ (c.eof = true → t.reader = .eof_received ∨ ∃ e, t.reader = .ended e) :=
  ⟨_, rfl, rfl, @callbacks_keep_contract false conversation _ rfl (by decide)⟩

-- a protocol that aborts in `data_received` gets data after `connection_lost`
example : ∃ t, run step (init false)
      [.made, .run_reader, .read_done (.ok [1]), .run_reader, .call .abort, .returns .none,
        .run_lost, .read_done (.ok [2]), .run_reader] = some t
    ∧ run Told.hear .new t.log = none := ⟨_, rfl, rfl⟩

/-! ## One protocol with the default limits

What is set once, and who may set it. A transport whose protocol is no
`BufferedProtocol` delivers with `data_received` alone. -/

/-- The protocol's kind, the two marks and the end-of-file flag. -/
def settings (t : Transport) : Bool × ℤ × ℤ × Bool := (t.buffered, t.high, t.low, t.eof)

/-- A step that may change a setting. -/
def Label.sets : Label → Bool
  | .call (.set_protocol _) | .call (.set_write_buffer_limits _ _) | .call .write_eof => true
  | _ => false

/-- Cancelling a task changes no setting; -/
theorem cancel_reader_settings (t : Transport) : settings (cancel_reader t) = settings t := by
  unfold cancel_reader
  split <;> rfl

/-- of neither loop. -/
theorem cancel_writer_settings (t : Transport) : settings (cancel_writer t) = settings t := by
  unfold cancel_writer
  split <;> rfl

/-- `_lose` changes none, -/
theorem lose_settings (t : Transport) (cur : Option Side) (exc : Option Exc) :
    settings (lose t cur exc) = settings t := by
  have hcancel : ∀ u : Transport, settings (cancel_others u cur) = settings u := by
    intro u
    unfold cancel_others
    split
    · exact cancel_writer_settings u
    · exact cancel_reader_settings u
    · exact (cancel_writer_settings _).trans (cancel_reader_settings u)
  unfold lose
  split
  · rfl
  · split
    · rfl
    · exact hcancel { t with lost := true, closing := true }

/-- nor does `close()`, -/
theorem close_settings (t : Transport) (cur : Option Side) :
    settings (close t cur) = settings t := by
  unfold close
  split
  · rfl
  · split
    · exact lose_settings (set_wake { t with closing := true }) cur none
    · rfl

/-- nor `write(data)`, -/
theorem write_settings (t : Transport) (data : Data) : settings (write t data) = settings t := by
  unfold write check_high
  split
  · rfl
  · split <;> rfl

/-- nor a turn of the read loop -/
theorem ReaderDoes.settings {t t' : Transport} {o : Option Exc} (h : ReaderDoes t o t') :
    CarrierTransport.settings t' = CarrierTransport.settings t := by
  cases h with
  | moves | calls => rfl
  | raised mark e =>
      unfold reader_raised
      dsimp only
      split
      · exact lose_settings { t with reader_must_cancel := mark } _ _
      · rfl
  | closes => exact close_settings t _

/-- or of the write loop. -/
theorem WriterDoes.settings {t t' : Transport} {o : Option Exc} (h : WriterDoes t o t') :
    CarrierTransport.settings t' = CarrierTransport.settings t := by
  cases h with
  | moves | calls => rfl
  | raised mark e =>
      unfold writer_raised
      dsimp only
      split
      · exact lose_settings { t with writer_must_cancel := mark } _ _
      · rfl
  | loses mark => exact lose_settings { t with writer_must_cancel := mark } _ _

/-- **Only the three methods that set something change a setting.** -/
theorem step_settings {t t' : Transport} {l : Label} (h : step t l = some t')
    (hl : l.sets = false) : settings t' = settings t := by
  cases step_does h with
  | call c =>
      cases c with
      | write data => exact write_settings t data
      | close => exact close_settings t _
      | abort => exact lose_settings t _ _
      | pause_reading | resume_reading => rfl
      | set_protocol _ | set_write_buffer_limits _ _ | write_eof => cases hl
  | cancel_reader => exact cancel_reader_settings t
  | cancel_writer => exact cancel_writer_settings t
  | made | read_done | write_done | shutdown_done | run_lost => rfl
  | reader _ _ h => exact h.settings
  | writer _ _ h => exact h.settings

/-- In the middle of `_deliver` to a `BufferedProtocol`. -/
def Reader.buffering : Reader → Bool
  | .get_buffer _ | .buffer_updated _ => true
  | _ => false

/-- Nothing goes through a buffer of the protocol's. -/
structure Plain (t : Transport) : Prop where
  reader : t.reader.buffering = false
  log : ∀ data, .buffer_updated data ∉ t.log

/-- The read loop comes to fill a buffer only when a read has completed; there `_deliver` asks
what kind of protocol it has. -/
theorem ReadLoop.Turn.buffering {s s' : ReadLoop} {l : Label} {es : List Event}
    (h : s.Turn l s' es) (hs : s.reader.buffering = false) :
    (∀ data, .buffer_updated data ∉ es)
      ∧ (s'.reader.buffering = false
        ∨ l = .run_reader ∧ s.mark = false ∧ ∃ data, s.reader = .read (.done (.ok data))
          ∧ data ≠ [] ∧ s'.reader = .get_buffer data) := by
  cases h with
  | aside | marked | pause => exact ⟨by simp, .inl hs⟩
  | resume =>
      refine ⟨by simp, .inl ?_⟩
      unfold Reader.resumed
      split
      · rfl
      · exact hs
  | get_buffer reading data hne => exact ⟨by simp, .inr ⟨rfl, rfl, data, rfl, hne, rfl⟩⟩
  | get_more | buffer_updated => cases hs
  | cancelled_wait | cancelled_read | stopped | made | read_done | wait | read | woken_read
  | data_received | eof_received => exact ⟨by simp, .inl rfl⟩

/-- With a protocol that is no `BufferedProtocol`, nothing goes through a buffer in a step. -/
theorem step_plain {t t' : Transport} {l : Label} (ht : Plain t) (hb : t.buffered = false)
    (h : step t l = some t') : Plain t' := by
  obtain ⟨es, hrl, hturn⟩ := step_reader h
  obtain ⟨hes, hbuf⟩ := hturn.buffering ht.reader
  refine ⟨?_, fun data hmem => ?_⟩
  · rcases hbuf with hbuf | ⟨rfl, hm, data, hr, hne, hget⟩
    · exact hbuf
    · -- `_deliver` asks for a buffer only if the protocol is a `BufferedProtocol`
      change t.reader = _ at hr
      change t.reader_must_cancel = _ at hm
      have hrun : step t .run_reader
          = some (deliver { t with reader_must_cancel := false } data) := by
        cases step_cases h with
        | from_loop hcur _ =>
            cases data with
            | nil => exact absurd rfl hne
            | cons x data =>
                simp [step, hcur, from_loop, run_reader, hr, hm, Await.resume, read_returned]
      rw [h, Option.some.injEq] at hrun
      rw [hrun, deliver, if_neg (by simp [hb])]
      rfl
  · have hmem' : .buffer_updated data ∈ reader_log t'.log := by
      simpa [reader_log, Event.of_reader] using hmem
    rw [hrl, List.mem_append] at hmem'
    rcases hmem' with hmem' | hmem'
    · exact ht.log data (List.mem_filter.1 hmem').1
    · exact hes data hmem'

end ZmuxPy.CarrierTransport
