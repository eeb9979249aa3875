/-
`zmux.StreamWriter` over the `SendStream` it was given: the two models run together.

`ZmuxPy.StreamWriter` takes the stream for an oracle: a `SendStream.write` that it issued is
done at some time, well or not. Here a call that the writer makes is a call on the part of
`ZmuxPy.SendData`, its result comes back only once that call has one, and what the writer
loses or keeps is a fact about the bytes on the stream.

Two things make that more than the sum of the parts. A send that the writer gives up (its
flush task was cancelled) goes on in the runtime until its future is dropped, so that bytes
may go out that nobody waits for. And the stream is not the writer's alone: others may have
it reset, wait for its capacity or its stop, or take the part away; what they may not do here
is write to it or finish it.
-/
import ZmuxPy.SendData
import ZmuxPy.StreamWriter

set_option autoImplicit false

namespace ZmuxPy.WriterStream

open Machine Parties FairLock Asyncio SendPart SendData
open StreamWriter (Writer Event Flush Finish Outcome issued succeeded)

/-! ## The model -/

/-- The writer and the stream that it was given. -/
structure Joint where
  writer : Writer
  stream : Stream
  /-- History: the writer's calls on the stream, in order. -/
  mine : List ℕ
  deriving DecidableEq, Repr

/-- A new writer over a new stream. -/
def init (high_water : ℤ) : Joint :=
  { writer := StreamWriter.init high_water, stream := SendData.init, mine := [] }

/-- The call that an entry of the writer's log stands for. -/
def call_of : Event → Option (Op × Bytes)
  | .write data => some (.write, data)
  | .finish => some (.finish, [])
  | .wrote _ _ => none

/-- What a step of the writer called on the stream. -/
def called (w w' : Writer) : Option (Op × Bytes) :=
  (w'.log.drop w.log.length).head?.bind call_of

/-- A step of the writer, with the call that it makes. -/
def write_step (s : Joint) (l : StreamWriter.Label) : Option Joint :=
  (StreamWriter.step s.writer l).bind fun w =>
    match called s.writer w with
    | none => some { s with writer := w }
    | some (op, data) =>
      (SendData.step s.stream (.call op data)).map fun t =>
        { writer := w, stream := t, mine := s.mine ++ [s.stream.handle.calls.length] }

/-- The call that the writer is waiting for. -/
def waits_for (s : Joint) : Option ℕ :=
  match s.writer.task, s.writer.closing with
  | some (.sending _), _ => s.mine.getLast?
  | _, some .finishing => s.mine.getLast?
  | _, _ => none

/-- The result of the call that the writer is waiting for comes back. -/
def answer (s : Joint) : Option Joint :=
  ((waits_for s).bind fun i => (s.stream.handle.calls[i]?).bind (·.result)).bind fun r =>
    match s.writer.task with
    | some (.sending _) =>
      (StreamWriter.send_done s.writer (r = .ok)).map fun w => { s with writer := w }
    | _ => (StreamWriter.finish_done s.writer (r = .ok)).map fun w => { s with writer := w }

/-- The calls that others may make. -/
def others : Op → Bool
  | .reset _ | .wait_send_capacity | .stopped => true
  | _ => false

/-- The steps of the stream that the writer has no part in. A call that the writer waits for
is not cancelled; one that it gave up is, at some time. -/
def may (s : Joint) : SendData.Label → Bool
  | .call op _ => others op
  | .cancel i => waits_for s ≠ some i
  | _ => true

/-- A step of the writer or of its tasks, a result that comes back to the writer, or a step of
the stream that the writer has no part in. -/
inductive Label where
  | writer (l : StreamWriter.Label)
  | answer
  | stream (l : SendData.Label)
  deriving Repr

/-- One step of the two together. -/
def step (s : Joint) : Label → Option Joint
  -- the results of the stream come by `answer`
  | .writer (.send_done _) | .writer (.finish_done _) => none
  | .writer l => write_step s l
  | .answer => answer s
  | .stream l =>
    if may s l then (SendData.step s.stream l).map fun t => { s with stream := t } else none

/-! ## What a step of the writer does to the stream -/

/-- Nothing is on its way, and nothing has failed. -/
def calm (w : Writer) : Bool :=
  match w.task with
  | none | some .start | some (.sent _ .ok) | some (.ended .ok) => true
  | _ => false

/-- `stream.finish()` returned. -/
def closed (w : Writer) : Bool :=
  match w.closing with
  | some (.finished .ok) | some (.ended .ok) => true
  | _ => false

/-- The writer calls nothing, and what was calm or closed after it was so before. -/
structure Quiet (w w' : Writer) : Prop where
  log : w'.log = w.log
  buf : ∃ more, w'.buf = w.buf ++ more ∧ w'.written = w.written ++ more
  calm : calm w' = true → calm w = true
  sending : ∀ d, w'.task = some (.sending d) → w.task = some (.sending d)
  finishing : w'.closing = some .finishing → w.closing = some .finishing
  closed : closed w' = true → closed w = true

/-- A step of the writer: one that calls nothing, the end of a wait, or a call. -/
inductive Effect (w w' : Writer) : Prop where
  | quiet (h : Quiet w w')
  | gives_up {d : Bytes} (ht : w.task = some (.sending d))
      (hw : w' = { w with
        task := some (.sent d .cancelled), log := w.log ++ [.wrote d .cancelled] })
  | sends (hcalm : calm w = true) (queued : ℤ)
      (hw : w' = { w with
        queued := queued, task := some (.sending w.buf), buf := []
        log := w.log ++ [.write w.buf] })
  | finishes (ht : w.task = none ∨ w.task = some (.ended .ok))
      (hw : w' = { w with closing := some .finishing, log := w.log ++ [.finish] })

variable {w w' : Writer}

/-- To do nothing is quiet. -/
theorem Quiet.refl (w : Writer) : Quiet w w :=
  ⟨rfl, ⟨[], (List.append_nil _).symm, (List.append_nil _).symm⟩, id, fun _ => id, id, id⟩

/-- Two quiet steps are one: what the second wrote comes behind what the first did. -/
theorem Quiet.trans {w'' : Writer} (h : Quiet w w') (h' : Quiet w' w'') : Quiet w w'' := by
  obtain ⟨more, hb, hw⟩ := h.buf
  obtain ⟨more', hb', hw'⟩ := h'.buf
  refine ⟨h'.log.trans h.log, ⟨more ++ more', ?_, ?_⟩, fun hc => h.calm (h'.calm hc),
    fun d hd => h.sending d (h'.sending d hd), fun hf => h.finishing (h'.finishing hf),
    fun hc => h.closed (h'.closed hc)⟩
  · rw [hb', hb, List.append_assoc]
  · rw [hw', hw, List.append_assoc]

/-- Neither the flush task nor the data changed. -/
theorem Quiet.same (htask : w'.task = w.task) (hlog : w'.log = w.log) (hbuf : w'.buf = w.buf)
    (hwritten : w'.written = w.written)
    (hfinishing : w'.closing = some .finishing → w.closing = some .finishing)
    (hclosed : WriterStream.closed w' = true → WriterStream.closed w = true) : Quiet w w' := by
  refine ⟨hlog, ⟨[], by rw [hbuf, List.append_nil], by rw [hwritten, List.append_nil]⟩, ?_, ?_,
    hfinishing, hclosed⟩
  · rw [WriterStream.calm, WriterStream.calm, htask]
    exact id
  · rw [htask]
    exact fun _ => id

/-- The flush task ended without a further send. -/
theorem Quiet.ended {r : Outcome} {queued : ℤ}
    (hcalm : r = .ok → WriterStream.calm w = true) :
    Quiet w { w with queued := queued, task := some (.ended r) } := by
  refine ⟨rfl, ⟨[], (List.append_nil _).symm, (List.append_nil _).symm⟩, fun hc => hcalm ?_, ?_, id,
    id⟩
  · cases r with
    | ok => rfl
    | raised | cancelled => cases hc
  · intro d hd
    cases hd

/-- A flush task that raised or was cancelled. -/
def failed (w : Writer) : Prop :=
  w.task = some (.ended .raised) ∨ w.task = some (.ended .cancelled)

/-- `write` only fills the buffer. That it leaves the task calm only if it was so needs that it
does not replace a failed one. -/
theorem write_quiet {d : Data} (hr : ¬ failed w) (hw : StreamWriter.write w d = some w') :
    Quiet w w' ∧ ¬ failed w' := by
  unfold StreamWriter.write at hw
  split at hw
  · cases hw
  · simp only at hw
    split at hw
    · rename_i ht
      cases hw
      refine ⟨⟨rfl, ⟨d.bytes, rfl, rfl⟩, fun _ => by rw [calm, ht], ?_, id, id⟩, by simp [failed]⟩
      intro d' hd
      cases hd
    · rename_i r ht
      cases hw
      refine ⟨⟨rfl, ⟨d.bytes, rfl, rfl⟩, fun _ => ?_, ?_, id, id⟩, by simp [failed]⟩
      · -- the old task ended well, since nothing is restarted
        cases r with
        | ok => rw [calm, ht]
        | raised => exact absurd (.inl ht) hr
        | cancelled => exact absurd (.inr ht) hr
      · intro d' hd
        cases hd
    · cases hw
      exact ⟨⟨rfl, ⟨d.bytes, rfl, rfl⟩, id, fun _ => id, id, id⟩, hr⟩

/-- By induction on the list; after the first `write` there is no failed task to replace. -/
theorem writelines_quiet {ds : List Data} (hr : w.closing = none → ds ≠ [] → ¬ failed w) :
    Quiet w (StreamWriter.writelines w ds) := by
  cases ds with
  | nil => exact .refl w
  | cons d ds =>
      have hall := StreamWriter.writelines_keeps
        (P := fun x => Quiet w x ∧ (x.closing = none → ¬ failed x))
        (fun h hw => by
          obtain ⟨hq, hf⟩ := write_quiet (h.2 (StreamWriter.closing_of_write hw)) hw
          exact ⟨h.1.trans hq, fun _ => hf⟩)
        ⟨.refl w, fun hc => hr hc (by simp)⟩ (d :: ds)
      exact hall.1

/-- At the head of its loop the flush task ends, or sends the whole buffer. -/
theorem flush_loop_effect {queued : ℤ} (hcalm : calm w = true) :
    Effect w (StreamWriter.flush_loop { w with queued := queued }) := by
  unfold StreamWriter.flush_loop
  split
  · exact .quiet (.ended fun _ => hcalm)
  · exact .sends hcalm queued rfl

/-- The flush task calls the stream only out of `flush_loop`, and only after a send that went
well. -/
theorem run_flush_effect (hw : StreamWriter.run_flush w = some w') : Effect w w' := by
  match htask : w.task with
  | some .start =>
      simp only [StreamWriter.run_flush, htask] at hw
      split at hw
      · cases hw
        refine .quiet (.ended fun hok => ?_)
        cases hok
      · cases hw
        exact flush_loop_effect (by rw [calm, htask])
  | some (.sent d r) =>
      simp only [StreamWriter.run_flush, htask] at hw
      split at hw
      · cases hw
        refine .quiet (.ended fun hok => ?_)
        cases hok
      · cases r with
        | ok =>
            cases hw
            exact flush_loop_effect (by rw [calm, htask])
        | raised | cancelled =>
            cases hw
            refine .quiet (.ended fun hok => ?_)
            cases hok
  | none | some (.sending _) | some (.ended _) => simp [StreamWriter.run_flush, htask] at hw

/-- `finish` is called with no flush task, or after one that ended well. -/
theorem finish_effect {r : Outcome} (ht : w.task = none ∧ r = .ok ∨ w.task = some (.ended r)) :
    Effect w (StreamWriter.finish w r) := by
  cases r with
  | ok => exact .finishes (ht.imp_left (·.1)) rfl
  | raised | cancelled =>
      refine .quiet (.same rfl rfl rfl rfl ?_ ?_)
      · intro hf
        cases hf
      · intro hc
        cases hc

/-- The finishing task calls the stream only out of `finish`. -/
theorem run_finish_effect (hw : StreamWriter.run_finish w = some w') : Effect w w' := by
  -- the closing side alone moves, and not to its end
  have hmoves : ∀ f : Finish, f ≠ .finishing → f ≠ .finished .ok → f ≠ .ended .ok →
      Effect w { w with closing := some f } := by
    intro f h₁ h₂ h₃
    refine .quiet (.same rfl rfl rfl rfl ?_ ?_)
    · intro hf
      exact absurd (Option.some.inj hf) h₁
    · intro hc
      unfold closed at hc
      split at hc
      · exact absurd (Option.some.inj ‹_›) h₂
      · exact absurd (Option.some.inj ‹_›) h₃
      · cases hc
  unfold StreamWriter.run_finish at hw
  split at hw
  · split at hw
    · cases hw
      exact hmoves _ (by simp) (by simp) (by simp)
    · split at hw
      · cases hw
        exact finish_effect (.inl ⟨‹_›, rfl⟩)
      · cases hw
        exact finish_effect (.inr ‹_›)
      · cases hw
        exact hmoves _ (by simp) (by simp) (by simp)
  · split at hw
    · split at hw
      · cases hw
        exact hmoves _ (by simp) (by simp) (by simp)
      · cases hw
        exact finish_effect (.inr ‹_›)
    · cases hw
  · rename_i r hc
    split at hw
    · cases hw
      exact hmoves _ (by simp) (by simp) (by simp)
    · cases hw
      cases r with
      | ok =>
          refine .quiet (.same rfl rfl rfl rfl ?_ ?_)
          · intro hf
            cases hf
          · intro _
            rw [closed, hc]
      | raised | cancelled => exact hmoves _ (by simp) (by simp) (by simp)
  · cases hw

/-- To cancel the flush task is to give up its send, if there is one in progress. -/
theorem cancel_task_effect (w : Writer) : Effect w (StreamWriter.cancel_task w) := by
  unfold StreamWriter.cancel_task
  split
  · exact .quiet (.same rfl rfl rfl rfl id id)
  · exact .gives_up ‹_› rfl
  · exact .quiet (.same rfl rfl rfl rfl id id)
  · exact .quiet (.refl w)

/-- To cancel the finishing task comes to that too if it awaits the flush task; otherwise
nothing is called or given up on the sending side. -/
theorem cancel_closing_effect (w : Writer) : Effect w (StreamWriter.cancel_closing w) := by
  unfold StreamWriter.cancel_closing
  split
  · exact .quiet (.same rfl rfl rfl rfl id id)
  · split
    · exact .quiet (.same rfl rfl rfl rfl id id)
    · exact cancel_task_effect w
  · refine .quiet (.same rfl rfl rfl rfl ?_ ?_)
    · intro hf
      cases hf
    · intro hc
      cases hc
  · exact .quiet (.same rfl rfl rfl rfl id id)
  · exact .quiet (.refl w)

/-- A close calls nothing: the finishing task does, in a later step. -/
theorem finishing_quiet (w : Writer) : Quiet w (StreamWriter.finishing w) := by
  unfold StreamWriter.finishing
  split
  · refine .same rfl rfl rfl rfl ?_ ?_
    · intro hf
      cases hf
    · intro hc
      cases hc
  · exact .refl w

/-- **What a step of the writer does**, other than taking a result of the stream. -/
theorem writer_effect {l : StreamWriter.Label} (hr : ¬ StreamWriter.Restarts w l)
    (hsend : ∀ ok, l ≠ .send_done ok) (hfin : ∀ ok, l ≠ .finish_done ok)
    (hw : StreamWriter.step w l = some w') : Effect w w' := by
  cases l with
  | write d =>
      simp only [StreamWriter.step, Option.some.injEq] at hw
      subst hw
      cases hwr : StreamWriter.write w d with
      | none => exact .quiet (.refl w)
      | some w' =>
          -- an accepted `write` on a failed task would be a restart
          have hcl := StreamWriter.closing_of_write hwr
          exact .quiet (write_quiet (fun ht => hr ⟨hcl, ht, trivial⟩) hwr).1
  | writelines ds =>
      simp only [StreamWriter.step, Option.some.injEq] at hw
      subst hw
      exact .quiet (writelines_quiet fun hcl hds ht => hr ⟨hcl, ht, hds⟩)
  | drain =>
      obtain ⟨x, hx⟩ := StreamWriter.drain_cases w
      simp only [StreamWriter.step, hx, Option.some.injEq] at hw
      subst hw
      exact .quiet (.same rfl rfl rfl rfl id id)
  | write_eof | close =>
      simp only [StreamWriter.step, StreamWriter.close, StreamWriter.write_eof,
        Option.some.injEq] at hw
      exact hw ▸ .quiet (finishing_quiet w)
  | wait_closed =>
      simp only [StreamWriter.step, StreamWriter.wait_closed, Option.some.injEq] at hw
      subst hw
      exact .quiet ((finishing_quiet w).trans (.same rfl rfl rfl rfl id id))
  | run_flush => exact run_flush_effect hw
  | send_done ok => exact absurd rfl (hsend ok)
  | run_finish => exact run_finish_effect hw
  | finish_done ok => exact absurd rfl (hfin ok)
  | resume i =>
      obtain ⟨r, rfl⟩ := StreamWriter.resume_cases hw
      exact .quiet (.same rfl rfl rfl rfl id id)
  | cancel i =>
      rcases StreamWriter.cancel_cases hw with ⟨x, -, rfl⟩ | rfl
      · exact .quiet (.same rfl rfl rfl rfl id id)
      · exact cancel_closing_effect w
  | cancel_task =>
      simp only [StreamWriter.step, Option.some.injEq] at hw
      exact hw ▸ cancel_task_effect w
  | cancel_closing =>
      simp only [StreamWriter.step, Option.some.injEq] at hw
      exact hw ▸ cancel_closing_effect w

/-! ## The invariant -/

/-- Call `k` is over, and all of its data is on the stream. -/
def Over (t : Stream) (k : ℕ) : Prop :=
  ∃ c, t.handle.calls[k]? = some c ∧ c.result ≠ none ∧ share t.pieces k = payload t k

/-- Call `k` is the call of `op`. -/
def Calls (t : Stream) (k : ℕ) (op : Op) : Prop := ∃ c, t.handle.calls[k]? = some c ∧ c.op = op

/-- **The invariant of the two together**: what the writer passed on is what its calls carry,
the bytes on the stream are the shares of its calls in the order of the calls, and a call is
made only when the one before it has all its data on the stream. -/
structure Inv (s : Joint) : Prop where
  writer : StreamWriter.Inv s.writer
  stream : SendData.Inv s.stream
  /-- What was written has been passed on, or is in the buffer. -/
  moved : issued s.writer.log ++ s.writer.buf = s.writer.written
  passed : issued s.writer.log = s.mine.flatMap (payload s.stream)
  sent : sent s.stream = s.mine.flatMap (share s.stream.pieces)
  own : ∀ k c, s.stream.handle.calls[k]? = some c → k ∈ s.mine ∨ others c.op = true
  ops : ∀ k ∈ s.mine, Calls s.stream k .write ∨ Calls s.stream k .finish
  known : ∀ k ∈ s.mine, k < s.stream.handle.calls.length
  nodup : s.mine.Nodup
  /-- A call is made only when the one before it is over. -/
  before : ∀ l k, s.mine = l ++ [k] → ∀ j ∈ l, Over s.stream j
  calm : calm s.writer = true → ∀ k ∈ s.mine, Over s.stream k ∨ Calls s.stream k .finish
  sending : ∀ d, s.writer.task = some (.sending d) →
    ∃ l k, s.mine = l ++ [k] ∧ Calls s.stream k .write
  finishing : s.writer.closing = some .finishing →
    ∃ l k, s.mine = l ++ [k] ∧ Calls s.stream k .finish
  called : ∀ k ∈ s.mine, Calls s.stream k .finish → .finish ∈ s.writer.log
  closed : closed s.writer = true → s.stream.handle.native.finished = true

/-- No call was made and nothing was written. -/
theorem init_inv (hw : ℤ) : Inv (init hw) := by
  refine ⟨StreamWriter.init_inv hw, SendData.init_inv, rfl, rfl, rfl, ?_, ?_, ?_, List.nodup_nil,
    ?_, ?_, ?_, ?_, ?_, ?_⟩
  · intro k c hc
    cases hc
  · intro k hk
    cases hk
  · intro k hk
    cases hk
  · intro l k h
    exact absurd h.symm (List.append_ne_nil_of_right_ne_nil l (List.cons_ne_nil k []))
  · intro _ k hk
    cases hk
  · intro d hd
    cases hd
  · intro hf
    cases hf
  · intro k hk
    cases hk
  · intro hc
    cases hc

/-! ### Steps of the stream -/

section
variable {t t' : Stream} {l : SendData.Label} {k : ℕ} {op : Op}

/-- The calls are numbered in the order they were made. -/
theorem Calls.lt (h : Calls t k op) : k < t.handle.calls.length := by
  obtain ⟨c, hc, -⟩ := h
  exact (List.getElem?_eq_some_iff.1 hc).1

/-- What is over stays so: nothing more is taken from it. -/
theorem Over.moves (hm : Moves t l t') (h : Over t k) : Over t' k := by
  obtain ⟨c, hc, hr, hshare⟩ := h
  obtain ⟨c', hc', -, hsame⟩ := hm.calls k c hc
  refine ⟨c', hc', hsame hr ▸ hr, ?_⟩
  rw [hm.payload k (List.getElem?_eq_some_iff.1 hc).1, ← hshare]
  rcases hm.pieces with hp | ⟨i, piece, d, hp, hd, hdr, -⟩
  · rw [hp]
  · have hik : i ≠ k := by
      rintro rfl
      rw [hc, Option.some.injEq] at hd
      exact hr (hd ▸ hdr)
    rw [hp, share_snoc, if_neg hik, List.append_nil]

/-- A step of the stream does not change what a call is for, -/
theorem Calls.moves (hm : Moves t l t') (h : Calls t k op) : Calls t' k op := by
  obtain ⟨c, hc, hop⟩ := h
  obtain ⟨c', hc', hop', -⟩ := hm.calls k c hc
  exact ⟨c', hc', hop'.trans hop⟩

/-- and it did not make another of it. -/
theorem Calls.of_moves (hm : Moves t l t') (hk : k < t.handle.calls.length)
    (h : Calls t' k op) : Calls t k op := by
  obtain ⟨c, hc, hop⟩ := h
  rcases hm.made k c hc with ⟨c', hc', hop'⟩ | ⟨hk', -⟩
  · exact ⟨c', hc', hop' ▸ hop⟩
  · omega

/-- A call is for one operation. -/
theorem Calls.unique {op' : Op} (h : Calls t k op) (h' : Calls t k op') : op = op' := by
  obtain ⟨c, hc, rfl⟩ := h
  obtain ⟨c', hc', rfl⟩ := h'
  rw [hc, Option.some.injEq] at hc'
  rw [hc']

end

variable {s : Joint}

/-! ### Steps of the writer -/

/-- The writer moves and calls nothing. -/
theorem Inv.quiet (hs : Inv s) (hinv : StreamWriter.Inv w) (h : Quiet s.writer w) :
    Inv { s with writer := w } := by
  obtain ⟨more, hb, hwr⟩ := h.buf
  refine ⟨hinv, hs.stream, ?_, ?_, hs.sent, hs.own, hs.ops, hs.known, hs.nodup, hs.before,
    fun hc => hs.calm (h.calm hc), fun d hd => hs.sending d (h.sending d hd),
    fun hf => hs.finishing (h.finishing hf), fun k hk hc => ?_, fun hc => hs.closed (h.closed hc)⟩
  · show issued w.log ++ w.buf = w.written
    rw [h.log, hb, hwr, ← hs.moved, List.append_assoc]
  · show issued w.log = _
    rw [h.log]
    exact hs.passed
  · show Event.finish ∈ w.log
    rw [h.log]
    exact hs.called k hk hc

/-- The end of a wait for a send, which leaves an entry in the log. -/
theorem Inv.sent_done (hs : Inv s) {d : Bytes} {r : Outcome}
    (hinv : StreamWriter.Inv { s.writer with
      task := some (.sent d r), log := s.writer.log ++ [.wrote d r] })
    (hr : r = .ok → ∀ k ∈ s.mine, Over s.stream k ∨ Calls s.stream k .finish) :
    Inv { s with writer := { s.writer with
      task := some (.sent d r), log := s.writer.log ++ [.wrote d r] } } := by
  have hissued : issued (s.writer.log ++ [.wrote d r]) = issued s.writer.log := by
    rw [StreamWriter.issued_snoc]
    exact List.append_nil _
  refine ⟨hinv, hs.stream, ?_, ?_, hs.sent, hs.own, hs.ops, hs.known, hs.nodup, hs.before,
    fun hc => hr ?_, ?_, hs.finishing, fun k hk hc => List.mem_append_left _ (hs.called k hk hc),
    hs.closed⟩
  · show issued (s.writer.log ++ [.wrote d r]) ++ s.writer.buf = s.writer.written
    rw [hissued]
    exact hs.moved
  · show issued (s.writer.log ++ [.wrote d r]) = _
    rw [hissued]
    exact hs.passed
  · cases r with
    | ok => rfl
    | raised | cancelled => cases hc
  · intro d' hd
    cases hd

/-- The stream after a call was made on it. -/
def after_call (t : Stream) (op : Op) (data : Bytes) : Stream :=
  { t with
    handle := { t.handle with calls := t.handle.calls ++ [{ op := op, result := none }] }
    data := t.data ++ [if writes op then data else []] }

/-- Every call is accepted, whatever becomes of it. -/
theorem call_step (t : Stream) (op : Op) (data : Bytes) :
    SendData.step t (.call op data) = some (after_call t op data) := rfl

/-- The writer makes a call. -/
theorem Inv.call (hs : Inv s) {op : Op} {data : Bytes} (hop : op = .write ∨ op = .finish)
    (hover : ∀ k ∈ s.mine, Over s.stream k)
    (hinv : StreamWriter.Inv w) (hmoved : issued w.log ++ w.buf = w.written)
    (hissued : issued w.log = issued s.writer.log ++ if writes op then data else [])
    (hlog : ∀ e ∈ s.writer.log, e ∈ w.log) (hcalm : WriterStream.calm w = true → op = .finish)
    (hsending : ∀ d, w.task = some (.sending d) → op = .write)
    (hfinishing : w.closing = some .finishing → op = .finish)
    (hcalled : op = .finish → .finish ∈ w.log)
    (hclosed : WriterStream.closed w = true → WriterStream.closed s.writer = true) :
    Inv { writer := w, stream := after_call s.stream op data
          mine := s.mine ++ [s.stream.handle.calls.length] } := by
  have hm : Moves s.stream (.call op data) (after_call s.stream op data) :=
    step_moves hs.stream (call_step _ op data)
  have hnew : Calls (after_call s.stream op data) s.stream.handle.calls.length op :=
    ⟨_, List.getElem?_concat_length, rfl⟩
  have hpayload : payload (after_call s.stream op data) s.stream.handle.calls.length
      = if writes op then data else [] := by
    simp [payload, after_call, ← hs.stream.data]
  -- a new call has nothing on the stream yet
  have hshare : share s.stream.pieces s.stream.handle.calls.length = [] := by
    have hprefix := hs.stream.share s.stream.handle.calls.length
    rw [payload, List.getElem?_eq_none (Nat.le_of_eq hs.stream.data)] at hprefix
    exact List.prefix_nil.1 hprefix
  refine ⟨hinv, step_inv hs.stream (call_step _ op data), hmoved, ?_, ?_, fun k c hc => ?_,
    fun k hk => ?_, fun k hk => ?_, ?_, fun l k h j hj => ?_, fun hc k hk => ?_, fun d hd => ?_,
    fun hf => ?_, fun k hk hc => ?_, fun hc => hs.closed (hclosed hc)⟩
  · show issued w.log = _
    rw [hissued, hs.passed, List.flatMap_append, List.flatMap_singleton, hpayload]
    congr 1
    exact List.flatMap_congr fun k hk => (hm.payload k (hs.known k hk)).symm
  · show SendData.sent s.stream = _
    rw [hs.sent, List.flatMap_append, List.flatMap_singleton]
    show _ = _ ++ share s.stream.pieces _
    rw [hshare, List.append_nil]
    rfl
  · rcases getElem?_concat_cases hc with ⟨rfl, -⟩ | hc
    · exact .inl (by simp)
    · exact (hs.own k c hc).imp_left fun hk => List.mem_append_left _ hk
  · rcases List.mem_append.1 hk with hk | hk
    · exact (hs.ops k hk).imp (·.moves hm) (·.moves hm)
    · rw [List.mem_singleton.1 hk]
      rcases hop with rfl | rfl
      · exact .inl hnew
      · exact .inr hnew
  · have hlen : (after_call s.stream op data).handle.calls.length
        = s.stream.handle.calls.length + 1 := by simp [after_call]
    rw [hlen]
    rcases List.mem_append.1 hk with hk | hk
    · have := hs.known k hk
      omega
    · rw [List.mem_singleton] at hk
      omega
  · refine List.nodup_append.2 ⟨hs.nodup, by simp, fun a ha b hb hab => ?_⟩
    rw [List.mem_singleton] at hb
    have := hs.known a ha
    omega
  · obtain ⟨rfl, -⟩ := List.append_inj' h rfl
    -- all calls before this one were over when it was made
    exact (hover j hj).moves hm
  · rcases List.mem_append.1 hk with hk | hk
    · exact .inl ((hover k hk).moves hm)
    · rw [List.mem_singleton.1 hk]
      exact .inr (hcalm hc ▸ hnew)
  · exact ⟨s.mine, _, rfl, hsending d hd ▸ hnew⟩
  · exact ⟨s.mine, _, rfl, hfinishing hf ▸ hnew⟩
  · rcases List.mem_append.1 hk with hk | hk
    · exact hlog _ (hs.called k hk (hc.of_moves hm (hs.known k hk)))
    · rw [List.mem_singleton.1 hk] at hc
      exact hcalled (hnew.unique hc)

/-- A calm writer that has not called `finish` has only `write` calls behind it, and they are
all over: it may call again. -/
theorem Inv.uncalled (hs : Inv s) (hno : .finish ∉ s.writer.log)
    (hcalm : WriterStream.calm s.writer = true) : ∀ k ∈ s.mine, Over s.stream k :=
  fun k hk => (hs.calm hcalm k hk).resolve_right fun hc => hno (hs.called k hk hc)

/-- Nothing new in the log is no call; -/
theorem called_quiet (h : w'.log = w.log) : called w w' = none := by
  rw [called, h, List.drop_length]
  rfl

/-- one new entry is the call that it stands for. -/
theorem called_snoc {e : Event} (h : w'.log = w.log ++ [e]) : called w w' = call_of e := by
  rw [called, h, List.drop_left]
  rfl

/-- A step of the writer keeps the invariant, unless it replaces a failed flush task: then a
call would be made over one whose data is not all out. -/
theorem write_step_inv {s' : Joint} {l : StreamWriter.Label} (hs : Inv s)
    (hr : ¬ StreamWriter.Restarts s.writer l) (hsend : ∀ ok, l ≠ .send_done ok)
    (hfin : ∀ ok, l ≠ .finish_done ok) (h : write_step s l = some s') : Inv s' := by
  obtain ⟨w, hw, hs'⟩ := Option.bind_eq_some_iff.1 h
  have hinv := StreamWriter.step_inv hs.writer hr hw
  cases writer_effect hr hsend hfin hw with
  | quiet hq =>
      rw [called_quiet hq.log] at hs'
      cases hs'
      exact hs.quiet hinv hq
  | gives_up ht hwe =>
      subst hwe
      rw [called_snoc rfl] at hs'
      cases hs'
      refine hs.sent_done hinv fun hok => ?_
      cases hok
  | sends hcalm queued hwe =>
      subst hwe
      rw [called_snoc rfl] at hs'
      cases hs'
      have hno : .finish ∉ s.writer.log :=
        fun hf => hinv.not_finished rfl rfl (List.mem_append_left _ hf)
      refine hs.call (.inl rfl) (hs.uncalled hno hcalm) hinv ?_ ?_
        (fun e he => List.mem_append_left _ he) (fun hc => ?_) (fun d hd => rfl) (fun hf => ?_)
        (fun hop => ?_) id
      · show issued (s.writer.log ++ [.write s.writer.buf]) ++ [] = s.writer.written
        rw [StreamWriter.issued_snoc, List.append_nil]
        exact hs.moved
      · exact StreamWriter.issued_snoc _ _
      · cases hc
      · -- a writer that is finishing has called `finish`
        obtain ⟨l, k, hl, hc⟩ := hs.finishing hf
        exact absurd (hs.called k (hl ▸ by simp) hc) hno
      · cases hop
  | finishes ht hwe =>
      subst hwe
      rw [called_snoc rfl] at hs'
      cases hs'
      have hno : .finish ∉ s.writer.log := by
        obtain ⟨⟨pre, hpre, hnf⟩, -⟩ := hinv.last (by simp)
        rw [(List.append_inj' hpre rfl).1]
        exact hnf
      have hcalm : calm s.writer = true := by
        rcases ht with ht | ht
        · rw [calm, ht]
        · rw [calm, ht]
      have hissued : issued (s.writer.log ++ [.finish]) = issued s.writer.log ++ [] :=
        StreamWriter.issued_snoc _ _
      refine hs.call (.inr rfl) (hs.uncalled hno hcalm) hinv ?_ hissued
        (fun e he => List.mem_append_left _ he) (fun _ => rfl) (fun d hd => ?_) (fun _ => rfl)
        (fun _ => by simp) (fun hc => ?_)
      · show issued (s.writer.log ++ [.finish]) ++ s.writer.buf = s.writer.written
        rw [hissued, List.append_nil]
        exact hs.moved
      · rcases ht with ht | ht
        · exact absurd (ht.symm.trans hd) (by simp)
        · exact absurd (ht.symm.trans hd) (by simp)
      · cases hc

/-! ### The results -/

/-- A result that comes back keeps it. A `write` that succeeded has all of its data on the
stream, a `finish` that succeeded has finished it. -/
theorem answer_inv {s' : Joint} (hs : Inv s) (h : answer s = some s') : Inv s' := by
  obtain ⟨r, hres, hs'⟩ := Option.bind_eq_some_iff.1 h
  obtain ⟨i, hi, hres⟩ := Option.bind_eq_some_iff.1 hres
  obtain ⟨c, hc, hres⟩ := Option.bind_eq_some_iff.1 hres
  split at hs'
  · rename_i d ht
    obtain ⟨w, hw, rfl⟩ := Option.map_eq_some_iff.1 hs'
    have hinv := StreamWriter.send_done_inv hs.writer hw
    simp only [StreamWriter.send_done, ht, Option.some.injEq] at hw
    subst hw
    refine hs.sent_done hinv fun hok k hk => .inl ?_
    have hrok : r = .ok := by
      by_contra hne
      simp [hne] at hok
    obtain ⟨l, j, hl, hcalls⟩ := hs.sending d ht
    have hij : i = j := by
      simp only [waits_for, ht, hl, List.getLast?_concat, Option.some.injEq] at hi
      exact hi.symm
    subst hij
    rw [hl] at hk
    rcases List.mem_append.1 hk with hk | hk
    · exact hs.before l i hl k hk
    · -- the one that returned has all of its data on the stream
      rw [List.mem_singleton.1 hk]
      obtain ⟨c', hc', hop⟩ := hcalls
      rw [hc, Option.some.injEq] at hc'
      subst hc'
      refine ⟨c, hc, by rw [hres]; simp, hs.stream.whole i c hc ?_ (hrok ▸ hres)⟩
      rw [hop]
      rfl
  · rename_i hnot
    obtain ⟨w, hw, rfl⟩ := Option.map_eq_some_iff.1 hs'
    have hinv := StreamWriter.finish_done_inv hs.writer hw
    unfold StreamWriter.finish_done at hw
    split at hw
    · rename_i hcl
      cases hw
      refine ⟨hinv, hs.stream, hs.moved, hs.passed, hs.sent, hs.own, hs.ops, hs.known, hs.nodup,
        hs.before, hs.calm, hs.sending, ?_, hs.called, fun hclosed => ?_⟩
      · intro hf
        cases hf
      · have hrok : r = .ok := by
          by_contra hne
          simp [closed, hne] at hclosed
        obtain ⟨l, j, hl, c', hc', hop⟩ := hs.finishing hcl
        have hij : i = j := by
          simp only [waits_for, hcl, hl, List.getLast?_concat, Option.some.injEq] at hi
          exact hi.symm
        subst hij
        rw [hc, Option.some.injEq] at hc'
        subst hc'
        exact hs.stream.finished i c hc hop (hrok ▸ hres)
    · cases hw

/-- Others neither write nor finish. -/
theorem others_eq_false {op : Op} (h : writes op = true ∨ finishes op = true) :
    others op = false := by
  cases op with
  | write | write_chunk | finish | aexit _ => rfl
  | reset _ | wait_send_capacity | stopped => rcases h with h | h <;> cases h

/-- The stream moves by itself. -/
theorem stream_inv {l : SendData.Label} {t : Stream} (hs : Inv s) (hmay : may s l = true)
    (h : SendData.step s.stream l = some t) : Inv { s with stream := t } := by
  have hm := step_moves hs.stream h
  refine ⟨hs.writer, SendData.step_inv hs.stream h, hs.moved, ?_, ?_, fun k c hc => ?_,
    fun k hk => (hs.ops k hk).imp (·.moves hm) (·.moves hm), fun k hk => ?_, hs.nodup,
    fun l k hl j hj => (hs.before l k hl j hj).moves hm,
    fun hc k hk => (hs.calm hc k hk).imp (·.moves hm) (·.moves hm), fun d hd => ?_, fun hf => ?_,
    fun k hk hc => hs.called k hk (hc.of_moves hm (hs.known k hk)),
    fun hc => hm.finished (hs.closed hc)⟩
  · rw [hs.passed]
    exact List.flatMap_congr fun k hk => (hm.payload k (hs.known k hk)).symm
  · rcases hm.pieces with hp | ⟨i, piece, c, hp, hc, hr, hw⟩
    · show t.pieces.flatMap Prod.snd = s.mine.flatMap (share t.pieces)
      rw [hp]
      exact hs.sent
    · -- a piece is taken from the last call of the writer, the others being over
      have hi : i ∈ s.mine := by
        refine (hs.own i c hc).resolve_right fun ho => ?_
        rw [others_eq_false (.inl hw)] at ho
        cases ho
      obtain ⟨l, hl⟩ : ∃ l, s.mine = l ++ [i] := by
        rcases List.eq_nil_or_concat s.mine with hnil | ⟨l, k, hl⟩
        · rw [hnil] at hi
          cases hi
        · rw [List.concat_eq_append] at hl
          rw [hl] at hi
          rcases List.mem_append.1 hi with hi | hi
          · obtain ⟨c', hc', hr', -⟩ := hs.before l k hl i hi
            rw [hc, Option.some.injEq] at hc'
            exact absurd (hc' ▸ hr) hr'
          · rw [List.mem_singleton] at hi
            exact ⟨l, hi ▸ hl⟩
      have hnodup := hs.nodup
      rw [hl, List.nodup_append] at hnodup
      have hrest : l.flatMap (share t.pieces) = l.flatMap (share s.stream.pieces) := by
        refine List.flatMap_congr fun j hj => ?_
        have hij : i ≠ j := fun hij => hnodup.2.2 j hj i (by simp) hij.symm
        rw [hp, share_snoc, if_neg hij, List.append_nil]
      have hsent := hs.sent
      rw [hl, List.flatMap_append, List.flatMap_singleton, SendData.sent] at hsent
      show t.pieces.flatMap Prod.snd = s.mine.flatMap (share t.pieces)
      rw [hl, List.flatMap_append, List.flatMap_singleton, hrest, hp, share_snoc, if_pos rfl,
        List.flatMap_append, List.flatMap_singleton, hsent, List.append_assoc]
  · rcases hm.made k c hc with ⟨c', hc', hop⟩ | ⟨-, data, rfl⟩
    · exact hop ▸ hs.own k c' hc'
    · exact .inr hmay
  · rcases hs.ops k hk with hc | hc
    · exact (hc.moves hm).lt
    · exact (hc.moves hm).lt
  · obtain ⟨l, k, hl, hc⟩ := hs.sending d hd
    exact ⟨l, k, hl, hc.moves hm⟩
  · obtain ⟨l, k, hl, hc⟩ := hs.finishing hf
    exact ⟨l, k, hl, hc.moves hm⟩

/-! ## Runs -/

/-- `write` replaces a flush task that raised or was cancelled. -/
def Restarts (s : Joint) : Label → Prop
  | .writer l => StreamWriter.Restarts s.writer l
  | _ => False

/-- Whether a step replaces a failed task can be computed, so that a run can be checked for it. -/
instance Restarts.decidable (s : Joint) : ∀ l, Decidable (Restarts s l)
  | .writer l => inferInstanceAs (Decidable (StreamWriter.Restarts s.writer l))
  | .answer | .stream _ => .isFalse id

/-- **One step keeps the invariant**, whoever takes it. -/
theorem step_joint {s' : Joint} {l : Label} (hs : Inv s) (hr : ¬ Restarts s l)
    (h : step s l = some s') : Inv s' := by
  unfold step at h
  split at h
  · cases h
  · cases h
  · rename_i l hsend hfin
    exact write_step_inv hs hr hsend hfin h
  · exact answer_inv hs h
  · rw [Option.ite_none_right_eq_some] at h
    obtain ⟨hmay, h⟩ := h
    obtain ⟨t, ht, rfl⟩ := Option.map_eq_some_iff.1 h
    exact stream_inv hs hmay ht

/-- What the writer has passed on is on the stream up to the call that is under way. -/
theorem Inv.isPrefix (hs : Inv s) : SendData.sent s.stream <+: issued s.writer.log := by
  rw [hs.sent, hs.passed]
  rcases List.eq_nil_or_concat s.mine with hnil | ⟨l, k, hl⟩
  · rw [hnil]
    exact List.prefix_rfl
  · rw [List.concat_eq_append] at hl
    have hrest : l.flatMap (share s.stream.pieces) = l.flatMap (payload s.stream) :=
      List.flatMap_congr fun j hj => (hs.before l k hl j hj).choose_spec.2.2
    rw [hl, List.flatMap_append, List.flatMap_append, hrest, List.flatMap_singleton,
      List.flatMap_singleton]
    exact (List.prefix_append_right_inj _).2 (hs.stream.share k)

/-- Behind its `finish`, the writer has everything on the stream. -/
theorem Inv.all_sent (hs : Inv s) (hf : .finish ∈ s.writer.log) :
    SendData.sent s.stream = s.writer.written := by
  obtain ⟨-, ht, -⟩ := hs.writer.last hf
  have hbuf : s.writer.buf = [] := by
    have ho := hs.writer.ordered
    rcases ht with ht | ht
    · simp only [StreamWriter.Ordered, ht] at ho
      exact ho.2.1
    · simp only [StreamWriter.Ordered, ht] at ho
      exact ho.2
  have hcalm : WriterStream.calm s.writer = true := by
    rcases ht with ht | ht
    · rw [WriterStream.calm, ht]
    · rw [WriterStream.calm, ht]
  rw [← hs.moved, hbuf, List.append_nil, hs.sent, hs.passed]
  refine List.flatMap_congr fun k hk => ?_
  rcases hs.calm hcalm k hk with ⟨c, -, -, hshare⟩ | ⟨c, hc, hop⟩
  · exact hshare
  · have hnone := hs.stream.idle k c hc (by rw [hop]; rfl)
    have hprefix := hs.stream.share k
    rw [hnone] at hprefix ⊢
    exact List.prefix_nil.1 hprefix

/-- **What is written to a `StreamWriter` is on the stream, in order, and all of it before the
stream's end.** In every run of a writer and its stream, with others that reset the stream,
wait on it or take it away, with sends that fail or are given up half-way, and as long as no
failed flush task is replaced: the bytes on the stream are a prefix of the bytes written. If
the stream was finished, they are all of them. And once the writer's closing has ended
without an error, which is when `wait_closed` returns, the stream was finished. -/
theorem writer_bytes_reach_stream {hw : ℤ} {ls : List Label}
    (h : run step (init hw) ls = some s)
    (hr : Meets step (fun s l => ¬ Restarts s l) (init hw) ls) :
    SendData.sent s.stream <+: s.writer.written
    ∧ (s.stream.handle.native.finished = true → SendData.sent s.stream = s.writer.written)
    ∧ (s.writer.closing = some (.ended .ok) → s.stream.handle.native.finished = true) := by
  have hs : Inv s := meets_inv step (fun _ _ _ hs hc hstep => step_joint hs hc hstep) (init_inv hw)
    hr h
  refine ⟨?_, fun hf => ?_, fun hc => hs.closed (by rw [closed, hc])⟩
  · rw [← hs.moved]
    exact hs.isPrefix.trans (List.prefix_append _ _)
  · -- only a call of the writer can have finished it
    obtain ⟨k, c, hc, hfin⟩ := hs.stream.finisher hf
    have hk : k ∈ s.mine := by
      refine (hs.own k c hc).resolve_right fun ho => ?_
      rw [others_eq_false (.inr hfin)] at ho
      cases ho
    refine hs.all_sent (hs.called k hk ?_)
    rcases hs.ops k hk with ⟨c', hc', hop⟩ | hcalls
    · rw [hc, Option.some.injEq] at hc'
      rw [hc', hop] at hfin
      cases hfin
    · exact hcalls

/-- Two chunks, the first in two pieces, a close, and a `reset` of somebody else that comes
too late. -/
def two_chunks : List Label :=
  [.writer (.write (.ofBytes [1, 2])), .writer .run_flush, .stream (.poll 0 .pending 1),
    .writer (.write (.ofBytes [3])), .stream (.poll 0 .ready 0), .answer, .writer .run_flush,
    .stream (.poll 1 .ready 0), .answer, .writer .close, .writer .run_flush, .writer .run_finish,
    .stream (.call (.reset 0) []), .stream (.poll 2 .ready 0), .stream (.poll 3 .ready 0), .answer,
    .writer .run_finish]

/-- The hypotheses can be met, and everything arrives: both chunks are on the stream, it is
finished, and the late `reset` did not change that. -/
theorem writer_bytes_reach_stream_two :
    ∃ s, run step (init 65536) two_chunks = some s
      ∧ s.writer.closing = some (.ended .ok) ∧ s.stream.handle.native.finished = true
      ∧ SendData.sent s.stream = s.writer.written ∧ SendData.sent s.stream = [1, 2, 3] := by
  have h := @writer_bytes_reach_stream _ 65536 two_chunks rfl (by decide)
  exact ⟨_, rfl, rfl, h.2.2 rfl, h.2.1 rfl, rfl⟩

end ZmuxPy.WriterStream
