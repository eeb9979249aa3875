/-
The write flow control of a `_CarrierTransport`: `_queued`, `pause_writing` and
`resume_writing` over whole runs.

It rests on what `ZmuxPy.TransportRuns` says of a transport that is not lost
(`Live`): a write loop with something to do is never asleep, so a paused transport
has a write whose completion looks at the low mark. The runs are orderly in the
same sense.
-/
import Mathlib.Algebra.GroupWithZero.Nat
import ZmuxPy.TransportRuns

set_option autoImplicit false

namespace ZmuxPy.CarrierTransport

open Machine Asyncio

/-! ## The count -/

/-- The bytes that are queued or in flight. -/
def size (l : List Bytes) : ℤ := (l.map List.length).sum

@[simp] theorem size_nil : size [] = 0 := rfl

@[simp] theorem size_cons (b : Bytes) (l : List Bytes) : size (b :: l) = b.length + size l := by
  simp [size]

@[simp] theorem size_append (l m : List Bytes) : size (l ++ m) = size l + size m := by
  simp [size]

/-- A number of bytes. -/
theorem size_nonneg (l : List Bytes) : 0 ≤ size l := Int.natCast_nonneg _

/-- The accounting of a transport that is not lost. -/
structure Count (t : Transport) : Prop where
  queued : t.queued = size (unsent t)
  pending : t.paused = true → unsent t ≠ []
  low : 0 ≤ t.low

/-- A paused transport counts some bytes. -/
def Positive (t : Transport) : Prop := t.paused = true → 0 < t.queued

/-- A step that keeps the accounting. -/
structure Tally (t t' : Transport) : Prop where
  count : Count t → Count t'
  positive : Count t → Positive t → Positive t'

/-- Two steps that keep the accounting keep it together. -/
theorem Tally.trans {t u v : Transport} (h₁ : Tally t u) (h₂ : Tally u v) : Tally t v :=
  ⟨fun h => h₂.count (h₁.count h), fun h hp => h₂.positive (h₁.count h) (h₁.positive h hp)⟩

/-- The same writes under the same marks. -/
theorem Tally.of_eq {t t' : Transport} (hu : unsent t' = unsent t) (hq : t'.queued = t.queued)
    (hp : t'.paused = t.paused) (hl : t'.low = t.low) : Tally t t' := by
  refine ⟨fun h => ⟨?_, ?_, ?_⟩, fun _ h => ?_⟩
  · rw [hq, hu]
    exact h.queued
  · rw [hp, hu]
    exact h.pending
  · rw [hl]
    exact h.low
  · rw [Positive, hp, hq]
    exact h

/-- A step aside changes none of what is counted. -/
theorem Aside.tally {t t' : Transport} (h : Aside t t') : Tally t t' := by
  refine .of_eq ?_ h.queued h.paused h.limits.2
  rw [unsent, h.flight, h.queue]
  rfl

/-- Taking a write off the queue puts it in flight. -/
theorem writer_top_tally {t : Transport} (hf : t.writer.flight = []) :
    Tally t (writer_top t) := by
  have hu : unsent t = t.queue := by rw [unsent, hf, List.nil_append]
  unfold writer_top
  split
  · split
    · exact .of_eq (by rw [hu]; rfl) rfl rfl rfl
    · exact .of_eq (by rw [hu]; rfl) rfl rfl rfl
  · rename_i hq
    exact .of_eq (by rw [hu, hq]; rfl) rfl rfl rfl

/-- A write that is done leaves the count, and the low mark is looked at. -/
theorem write_returned_tally {t : Transport} {data : Bytes} {f : Await (Except Exc Unit)}
    (hw : t.writer = .write data f) : Tally t (write_returned t data (.ok ())) := by
  have hu : unsent t = data :: t.queue := by rw [unsent, hw]; rfl
  have hsub : Count t → t.queued - data.length = size t.queue := by
    intro h
    rw [h.queued, hu, size_cons]
    omega
  simp only [write_returned, check_low]
  split
  · refine ⟨fun h => ⟨hsub h, ?_, h.low⟩, fun _ _ => ?_⟩
    all_goals exact fun hp => by cases hp
  · rename_i hlow
    -- still above the low mark, so something is left
    have hleft : Count t → t.paused = true → 0 < t.queued - data.length := by
      intro h hp
      have := h.low
      simp only [hp, Bool.true_and, decide_eq_true_eq] at hlow
      omega
    have hdone : Tally t { t with queued := t.queued - data.length, writer := .start } := by
      refine ⟨fun h => ⟨hsub h, fun hp hnil => ?_, h.low⟩, fun h _ hp => hleft h hp⟩
      have hpos := hleft h hp
      rw [hsub h, show t.queue = [] from hnil] at hpos
      exact absurd hpos (by simp)
    exact hdone.trans (writer_top_tally rfl)

/-- A taken write with bytes in it, or under a high mark that is not negative. -/
def weighs (t : Transport) : Label → Bool
  | .call (.write data) => decide (data.bytes ≠ [] ∨ data.items = 0 ∨ 0 ≤ t.high)
  | _ => true

/-- A taken write goes behind the others. -/
theorem enqueue_unsent (t : Transport) (b : Bytes) :
    unsent (enqueue t b) = unsent t ++ [b] := by
  have h := (set_wake_aside
    { t with queue := t.queue ++ [b], queued := t.queued + b.length }).flight
  rw [unsent, unsent, List.append_assoc]
  exact congrArg (· ++ (t.queue ++ [b])) h

/-- Its bytes are counted as it is queued, -/
theorem enqueue_count {t : Transport} (h : Count t) (b : Bytes) : Count (enqueue t b) := by
  refine ⟨?_, fun _ => ?_, h.low⟩
  · rw [enqueue_unsent, size_append, size_cons, size_nil, Int.add_zero, ← h.queued]
    rfl
  · rw [enqueue_unsent]
    simp

/-- Above the high mark there is something to write. -/
theorem check_high_count {t : Transport} (h : Count t) (hne : unsent t ≠ []) :
    Count (check_high t) := by
  unfold check_high
  split
  · exact ⟨h.queued, fun _ => hne, h.low⟩
  · exact h

/-- and whether it then pauses the protocol, something is unsent. -/
theorem write_count {t : Transport} (h : Count t) (data : Data) : Count (write t data) := by
  have hrec : Count (record t (.write_called data t.closing t.eof)) :=
    ⟨h.queued, h.pending, h.low⟩
  unfold write
  split
  · exact hrec
  · refine check_high_count (enqueue_count hrec _) ?_
    rw [enqueue_unsent]
    simp

/-- A write with bytes in it pauses a transport that counts some. One without bytes needs a
high mark that is not negative. -/
theorem write_positive {t : Transport} {data : Data} (h : Count t) (hp : Positive t)
    (hw : weighs t (.call (.write data)) = true) : Positive (write t data) := by
  have hq : 0 ≤ t.queued := by
    rw [h.queued]
    exact size_nonneg _
  unfold write
  split
  · exact hp
  · rename_i htake
    simp only [Bool.or_eq_true, decide_eq_true_eq, not_or] at htake
    simp only [weighs, htake.2, false_or, decide_eq_true_eq] at hw
    unfold check_high
    split
    · rename_i hhigh
      simp only [Bool.and_eq_true, decide_eq_true_eq] at hhigh
      have habove : t.high < t.queued + data.bytes.length := hhigh.2
      intro _
      show 0 < t.queued + data.bytes.length
      rcases hw with hne | hnn
      · have := List.length_pos_iff.2 hne
        omega
      · omega
    · intro hpaused
      have := hp hpaused
      show 0 < t.queued + data.bytes.length
      omega

/-- The limits keep a low mark that is not negative. -/
def Label.low_ok : Label → Bool
  | .call (.set_write_buffer_limits high low) => decide (0 ≤ low.getD (default_high high low / 4))
  | _ => true

/-- The methods keep the accounting, with limits that keep the low mark from being negative. -/
theorem call_count {t : Transport} {c : Call} (h : Count t)
    (hl : (Label.call c).low_ok = true) :
    Count (call t c) ∧ (weighs t (.call c) = true → Positive t → Positive (call t c)) := by
  have haside : ∀ {t'}, Aside t t' → Count t' ∧ (weighs t (.call c) = true → Positive t →
      Positive t') := fun ha => ⟨ha.tally.count h, fun _ => ha.tally.positive h⟩
  cases c with
  | write data => exact ⟨write_count h data, fun hw hp => write_positive h hp hw⟩
  | write_eof =>
      have hflag : Aside t { t with eof := true } :=
        ⟨.of_eq rfl rfl rfl, rfl, rfl, rfl, ⟨rfl, rfl⟩, rfl, rfl⟩
      exact haside (hflag.trans (set_wake_aside _))
  | close => exact haside (close_aside t _)
  | abort => exact haside (lose_aside t _ _)
  | pause_reading | resume_reading | set_protocol _ =>
      exact haside ⟨.of_eq rfl rfl rfl, rfl, rfl, rfl, ⟨rfl, rfl⟩, rfl, rfl⟩
  | set_write_buffer_limits high low =>
      exact ⟨⟨h.queued, h.pending, of_decide_eq_true hl⟩, fun _ hp => hp⟩

/-- The write loop ends with nothing in flight. -/
theorem end_writer_tally {t u : Transport} (hf : t.writer.flight = []) (ha : Aside t u)
    (e : Ended) : Tally t (end_writer u e) := by
  refine .of_eq ?_ ha.queued ha.paused ha.limits.2
  rw [unsent, unsent, hf]
  exact ha.queue

/-- The write loop, as long as the transport is not lost. -/
theorem run_writer_tally {t t' : Transport} (ht : Live t)
    (hcaught : ∀ e, Failing t e → e.caught = true) (h : run_writer t = some t')
    (hl : t'.lost = false) : Tally t t' := by
  -- a failure would have lost the transport
  have hnone : t.writer.failure = none := by
    cases run_writer_outcome ht hcaught h with
    | goes _ hrec _ => exact hrec
    | reported _ hlost _ _ => simp [hl] at hlost
    | unreported hab _ _ _ => cases hab
  rcases ht.run_writer_cases h with ⟨hw, rfl⟩ | ⟨data, r, hw, rfl⟩ | ⟨r, hw, rfl⟩
  · refine writer_top_tally ?_
    rcases hw with hw | ⟨u, hw⟩ <;> rw [hw] <;> rfl
  · rw [hw] at hnone
    cases r with
    | ok u => exact write_returned_tally hw
    | error e => cases hnone
  · rw [hw] at hnone
    cases r with
    | ok u =>
        refine end_writer_tally (by rw [hw]; rfl) ?_ _
        split
        · exact lose_aside t _ _
        · exact .refl t
    | error e => cases hnone

/-- **One step keeps the accounting**, until the transport is lost. -/
theorem step_count {t t' : Transport} {l : Label} (ht : Live t) (ho : l.orderly = true)
    (hcaught : ∀ e, Failing t e → e.caught = true) (hlow : l.low_ok = true) (hc : Count t)
    (h : step t l = some t') (hl : t'.lost = false) :
    Count t' ∧ (weighs t l = true → Positive t → Positive t') := by
  have htally : Tally t t' → Count t' ∧ (weighs t l = true → Positive t → Positive t') :=
    fun h => ⟨h.count hc, fun _ => h.positive hc⟩
  cases step_cases h with
  | call c => exact call_count hc hlow
  | returns h =>
      rcases returns_side h with ⟨-, hr⟩ | ⟨hw, rfl⟩
      · exact htally hr.aside.tally
      · exact htally (writer_top_tally (by rw [hw]; rfl))
  | raises | cancel_reader | cancel_writer => cases ho
  | from_loop _ h =>
      cases from_loop_cases h with
      | made hr hw => exact htally (.of_eq (by rw [unsent, unsent, hw]; rfl) rfl rfl rfl)
      | read_done | run_lost => exact htally (.of_eq rfl rfl rfl rfl)
      | write_done _ _ hw | shutdown_done _ hw =>
          exact htally (.of_eq (by rw [unsent, unsent, hw]; rfl) rfl rfl rfl)
      | run_reader hrun => exact htally (run_reader_does hrun).2.aside.tally
      | run_writer hrun => exact htally (run_writer_tally ht hcaught hrun hl)

/-- What a run of `write`, `write_eof`, `close` and `set_write_buffer_limits` keeps. -/
def Accounted (t : Transport) : Prop := Settled t ∧ (t.lost = false → Count t)

/-- A settled transport that is not lost is alive. -/
theorem Settled.live {t : Transport} (h : Settled t) (hl : t.lost = false) :
    Live t ∧ ∀ e, Failing t e → e.caught = true := by
  rcases h with h | h
  · exact h
  · simp [hl] at h

/-- One orderly step keeps the accounting for as long as the transport is not lost. -/
theorem step_accounted {t t' : Transport} {l : Label} (ht : Accounted t)
    (hl : l.orderly = true ∧ l.low_ok = true) (h : step t l = some t') : Accounted t' := by
  refine ⟨step_settled hl.1 ht.1 h, fun hlost' => ?_⟩
  have hlost := (step_keeps h).lost_before hlost'
  obtain ⟨hlive, hcaught⟩ := ht.1.live hlost
  exact (step_count hlive hl.1 hcaught hl.2 (ht.2 hlost) h hlost').1

/-- It keeps a paused transport's count above zero. -/
theorem step_positive {t t' : Transport} {l : Label} (ht : Accounted t)
    (hp : t.lost = false → Positive t)
    (hl : (l.orderly = true ∧ l.low_ok = true) ∧ weighs t l = true) (h : step t l = some t') :
    t'.lost = false → Positive t' := by
  intro hlost'
  have hlost := (step_keeps h).lost_before hlost'
  obtain ⟨hlive, hcaught⟩ := ht.1.live hlost
  exact (step_count hlive hl.1.1 hcaught hl.1.2 (ht.2 hlost) h hlost').2 hl.2 (hp hlost)

/-- Not asleep, and not past its last write. -/
def Writer.busy : Writer → Bool
  | .unborn | .start | .wait (.done _) | .write _ _ | .resume_writing => true
  | _ => false

/-- A write loop that has something to do is at it. -/
theorem Live.busy {t : Transport} (ht : Live t) (h : unsent t ≠ []) : t.writer.busy = true := by
  have hplain := ht.writer
  have hstage : t.writer.stage = .writing := by
    by_contra hne
    have hq := (ht.last hne).1
    rw [unsent, hq, List.append_nil] at h
    cases hw : t.writer <;> simp [hw, Writer.flight, Writer.stage] at h hne
  cases hw : t.writer with
  | wait f =>
      cases f with
      | pending =>
          -- asleep only with an empty queue
          rw [unsent, hw, (ht.awake hw).1] at h
          exact absurd rfl h
      | done u => rfl
      | cancelled =>
          rw [hw] at hplain
          cases hplain
  | shutdown f =>
      rw [hw] at hstage
      cases hstage
  | ended e =>
      rw [hw] at hstage
      cases hstage
  | unborn | start | write _ _ | resume_writing => rfl

/-- A write that is done is followed by a look at the low mark. -/
theorem Live.looks_at_low {t : Transport} {data : Bytes} (ht : Live t)
    (hw : t.writer = .write data (.done (.ok ()))) (hcur : current t = none) :
    ∃ t', step t .run_writer = some t'
      ∧ (t'.paused = true ↔ t.paused = true ∧ t.low < t.queued - data.length) := by
  refine ⟨write_returned t data (.ok ()), ?_, ?_⟩
  · simp only [step, hcur, if_true, from_loop]
    unfold run_writer
    rw [ht.writer_mark, ht.unmarked_writer]
    simp only [hw, Await.resume]
    rfl
  · simp only [write_returned, check_low]
    split
    · rename_i h
      simp only [Bool.and_eq_true, decide_eq_true_eq] at h
      simp [record, h.2]
    · rename_i h
      have hsame : (writer_top { t with queued := t.queued - data.length }).paused = t.paused := by
        unfold writer_top shutdown_call
        split
        · split <;> rfl
        · rfl
      rw [hsame]
      simp only [Bool.and_eq_true, decide_eq_true_eq, not_and] at h
      exact ⟨fun hp => ⟨hp, Int.not_le.1 (h hp)⟩, fun hp => hp.1⟩

/-- **Write flow control does not get stuck.** In every orderly run with limits
whose low mark is not negative: `pause_writing` and `resume_writing` alternate,
beginning with `pause_writing`; and until the transport is lost, `_queued` is the
size of the writes that are queued or in flight, a paused transport has such a
write with the write loop at it, whose completion looks at the low mark, and it is
resumed when the last one is done. `_queued` is then positive too, unless a view
of items without bytes was written under a negative high mark. -/
theorem write_flow_control_not_stuck {buffered : Bool} {ls : List Label} {t : Transport}
    (h : run step (init buffered) ls = some t)
    (hl : ∀ l ∈ ls, l.orderly = true ∧ l.low_ok = true) :
    (flow t.log).IsChain (· ≠ ·)
    ∧ (∀ e, (flow t.log).head? = some e → e = .pause_writing)
    ∧ (t.lost = false →
        t.queued = size (unsent t)
        ∧ (t.paused = true → unsent t ≠ [] ∧ t.writer.busy = true)
        ∧ (unsent t = [] → t.paused = false)
        ∧ (∀ data, t.writer = .write data (.done (.ok ())) → current t = none →
            ∃ t', step t .run_writer = some t'
              ∧ (t'.paused = true ↔ t.paused = true ∧ t.low < t.queued - data.length))
        ∧ (Meets step (fun t l => weighs t l = true) (init buffered) ls →
            t.paused = true → 0 < t.queued)) := by
  have hlive : Live (init buffered) ∧ ∀ e, Failing (init buffered) e → e.caught = true :=
    ⟨.init buffered, by simp [Failing, init, Reader.failure, Writer.failure]⟩
  have hinit : Accounted (init buffered) :=
    ⟨.inl hlive, fun _ => ⟨rfl, (fun h => by cases h), by simp [init]⟩⟩
  have hlabels := meets_of_forall step hl (init buffered)
  have hacc := meets_inv step (fun _ _ _ => step_accounted) hinit hlabels h
  -- the calls alternate in every run, orderly or not
  have halt : Alternates t :=
    (run_keeps h).alternates ⟨.nil, (fun e he => by cases he), by simp [init, flow]⟩
  refine ⟨halt.chain, halt.first, fun hlost => ?_⟩
  have hcount := hacc.2 hlost
  have ht := (hacc.1.live hlost).1
  refine ⟨hcount.queued, fun hp => ⟨hcount.pending hp, ht.busy (hcount.pending hp)⟩, ?_,
    fun data hw hcur => ht.looks_at_low hw hcur, fun hw => ?_⟩
  · intro hnil
    by_contra hp
    exact hcount.pending (by simpa using hp) hnil
  -- the last part needs a condition on the sizes as well, so its invariant runs beside the
  -- first
  · have hpos : ∀ t l t', (Accounted t ∧ (t.lost = false → Positive t)) →
        (l.orderly = true ∧ l.low_ok = true) ∧ weighs t l = true → step t l = some t' →
        (Accounted t' ∧ (t'.lost = false → Positive t')) :=
      fun t l t' hi hc hs => ⟨step_accounted hi.1 hc.1 hs, step_positive hi.1 hi.2 hc hs⟩
    have hzero : t.lost = false → Positive t := by
      refine (meets_inv step hpos ⟨hinit, ?_⟩ (hlabels.and step hw) h).2
      exact fun _ hp => by cases hp
    exact hzero hlost

/-- Writes past the high mark and the limits lowered while paused; two of three
writes are done. -/
def pause_and_lower : List Label :=
  [.made, .run_writer, .call (.set_write_buffer_limits (some 4) (some 1)),
    .call (.write (.ofBytes [1, 2, 3])), .call (.write (.ofBytes [4, 5])), .run_writer,
    .call (.set_write_buffer_limits (some 8) none), .call (.write (.ofBytes [6])),
    .write_done (.ok ()), .run_writer, .write_done (.ok ())]

theorem write_flow_control_not_stuck_lowered :
    ∃ t, run step (init false) pause_and_lower = some t ∧ t.lost = false
      ∧ t.paused = true ∧ t.queued = 3 ∧ t.queued = size (unsent t)
      ∧ unsent t ≠ [] ∧ t.writer.busy = true ∧ 0 < t.queued
      ∧ ∃ t', step t .run_writer = some t'
          ∧ (t'.paused = true ↔ t.paused = true ∧ t.low < t.queued - 2) := by
  have h := @write_flow_control_not_stuck false pause_and_lower _ rfl (by decide)
  obtain ⟨hq, hp, -, hlook, hpos⟩ := h.2.2 rfl
  exact ⟨_, rfl, rfl, rfl, rfl, hq, (hp rfl).1, (hp rfl).2, hpos (by decide) rfl,
    hlook [4, 5] rfl rfl⟩

/-- Five items of no bytes each. -/
def no_bytes : Data := ⟨[], 5, 0, rfl⟩

/-- A view without bytes is taken, as it has items, and a negative high mark pauses
the transport with nothing to count. -/
theorem paused_with_nothing_queued :
    ∃ t, run step (init false)
        [.made, .call (.set_write_buffer_limits (some (-1)) (some 0)), .call (.write no_bytes)]
        = some t
      ∧ t.lost = false ∧ 0 ≤ t.low ∧ t.paused = true ∧ ¬ 0 < t.queued :=
  ⟨_, rfl, rfl, by decide, rfl, by decide⟩

end ZmuxPy.CarrierTransport
