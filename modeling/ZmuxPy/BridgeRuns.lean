/-
What `pipe_from_streams` does as a whole: the bytes of each direction, the end of each, and
that a session which has ended its side has everything written.

"The bridge ends when either side closes": the stream's end ends `inbound`, and the
session's end ends `outbound`. Nothing else ends a task but an exception or a
cancellation.
-/
import ZmuxPy.BridgeInward
import ZmuxPy.BridgeOutward

set_option autoImplicit false

namespace ZmuxPy.StreamBridge

open Machine Asyncio Duplex

/-! ## A step of the bridge is a step of its directions -/

/-- A step of the bridge is a step of a direction, of both, or of none. -/
theorem step_parts {s s' : Bridge} {l : Label} (h : step s l = some s') :
    (s'.inward = s.inward ∨ ∃ k, s.inward.step k = some s'.inward)
      ∧ (s'.outward = s.outward ∨ ∃ k, s.outward.step k = some s'.outward) := by
  cases l with
  | inward l =>
      simp only [step, Option.ite_none_left_eq_some, Option.map_eq_some_iff] at h
      obtain ⟨-, t, ht, rfl⟩ := h
      exact ⟨.inr ⟨l, ht⟩, .inl rfl⟩
  | outward l =>
      simp only [step, Option.ite_none_left_eq_some, Option.map_eq_some_iff] at h
      obtain ⟨-, t, ht, rfl⟩ := h
      exact ⟨.inl rfl, .inr ⟨l, ht⟩⟩
  | pipe_drop | end_drop =>
      obtain ⟨t, ht, h⟩ := Option.bind_eq_some_iff.1 h
      obtain ⟨u, hu, rfl⟩ := Option.map_eq_some_iff.1 h
      exact ⟨.inr ⟨_, ht⟩, .inr ⟨_, hu⟩⟩

/-- What holds of both directions. -/
structure Inv (s : Bridge) : Prop where
  inward : s.inward.Inv
  outward : s.outward.Inv
  shut : s.outward.pipe_shut = true → s.outward.two.closed = true

/-- Each direction keeps its own invariant, so the bridge keeps both. -/
theorem step_inv {s s' : Bridge} {l : Label} (hs : Inv s) (h : step s l = some s') : Inv s' := by
  obtain ⟨hin, hout⟩ := step_parts h
  refine ⟨?_, ?_, ?_⟩
  · rcases hin with heq | ⟨k, hk⟩
    · rw [heq]
      exact hs.inward
    · exact Inward.step_inv hs.inward hk
  · rcases hout with heq | ⟨k, hk⟩
    · rw [heq]
      exact hs.outward
    · exact Outward.step_inv hs.outward hk
  · rcases hout with heq | ⟨k, hk⟩
    · rw [heq]
      exact hs.shut
    · exact Outward.step_shut hs.shut hk

/-- So they hold in every run. -/
theorem run_bridge {counts : Bool} {ls : List Label} {s : Bridge}
    (h : run step (init counts) ls = some s) : Inv s := by
  refine run_inv step (fun _ _ _ hs h => step_inv hs h)
    ⟨Inward.init_inv, Outward.init_inv counts, ?_⟩ h
  exact fun h => by cases h

/-! ## The bytes -/

/-- A task that has left its loop has nothing in hand. -/
theorem InTask.flight_of_left {t : InTask} (h : t.left = true) : t.flight = [] := by
  cases t with
  | start | read _ | write _ => cases h
  | close _ | ended => rfl

/-- **The session reads what the stream gave, in order, and its end after all of it.** In
every run: the bytes that the session read are a prefix of those that `reader.read`
returned, and at most 256 KiB wait in the pipe. For as long as nobody cancels `inbound` and
the session has its side, the rest is in the pipe, with the write of the task or with the
task itself. And if the session saw the end of file and nobody cancelled `inbound`, then
`reader.read` had come to its end or raised, and the session has read everything. -/
theorem bridge_inbound_in_order {counts : Bool} {ls : List Label} {s : Bridge}
    (h : run step (init counts) ls = some s) :
    s.inward.taken <+: s.inward.fetched.flatten
    ∧ s.inward.one.buffer.length ≤ 256 * 1024
    ∧ (s.inward.cancelled = false → s.inward.pipe_alive = true →
        s.inward.fetched.flatten = s.inward.taken ++ s.inward.one.buffer
          ++ s.inward.write_op.getD [] ++ s.inward.task.flight)
    ∧ (s.inward.eof = true → s.inward.cancelled = false →
        s.inward.taken = s.inward.fetched.flatten ∧ s.inward.read_end = true) := by
  have hs := (run_bridge h).inward
  have hfed := hs.carries.fifo
  refine ⟨?_, hs.max ▸ hs.carries.room, fun hc ha => ?_, fun he hc => ?_⟩
  · exact hs.carries.left.trans ((List.prefix_append _ _).trans hs.passed)
  · have hgoing : ¬ (s.inward.cancelled = true ∨ s.inward.dropped = true) := by
      rintro (hc' | hd)
      · rw [hc] at hc'
        cases hc'
      · rcases hs.broken hd with hc' | ha'
        · rw [hc] at hc'
          cases hc'
        · rw [ha] at ha'
          cases ha'
    rw [hs.whole hgoing, hfed]
  · obtain ⟨hb, hw, hl, hd⟩ := hs.eof he
    have hgoing : ¬ (s.inward.cancelled = true ∨ s.inward.dropped = true) := by
      intro hover
      have hc' : s.inward.cancelled = true := hover.elim id hd
      rw [hc] at hc'
      cases hc'
    refine ⟨?_, ((hs.why (InTask.leaving_of_left hl _)).resolve_left hgoing).2⟩
    rw [hs.whole hgoing, hfed, hb, hw, InTask.flight_of_left hl]
    simp

/-- Three bytes and the end, read in two pieces. -/
def three_bytes : List Label :=
  [.inward .run, .inward (.read_done (some [1, 2, 3])), .inward .run, .inward .push,
    .inward (.pipe_read 2), .inward .run, .inward (.read_done (some [])), .inward .run,
    .inward .shut, .inward (.pipe_read 2), .inward (.pipe_read 2)]

/-- The hypothesis can be met: the session has read three bytes and the end behind them. -/
theorem bridge_inbound_in_order_three :
    ∃ s, run step (init true) three_bytes = some s ∧ s.inward.eof = true
      ∧ s.inward.taken = [1, 2, 3]
      ∧ s.inward.taken = s.inward.fetched.flatten ∧ s.inward.read_end = true := by
  have h := @bridge_inbound_in_order true three_bytes _ rfl
  exact ⟨_, rfl, rfl, rfl, h.2.2.2 rfl rfl⟩

/-- **What the session writes is written to the stream, in order, and the writer is closed
once.** In every run: the calls of `writer.write` make up a prefix of the bytes that the
session wrote, at most 256 KiB wait in the pipe, and `writer.close` was called at most once.
For as long as nobody cancels `outbound`, the rest is with the task or in the pipe. If the
writer was closed and no exception left the loop, the session had ended its side, and every
byte was written. And the unsent count is the size noted last, short of the value that
stands for none. -/
theorem bridge_outbound_in_order {counts : Bool} {ls : List Label} {s : Bridge}
    (h : run step (init counts) ls = some s) :
    s.outward.writes.flatten <+: s.outward.given
    ∧ s.outward.two.buffer.length ≤ 256 * 1024 ∧ s.outward.closes ≤ 1
    ∧ (s.outward.cancelled = false →
        s.outward.given = s.outward.writes.flatten ++ s.outward.task.flight
          ++ s.outward.two.buffer)
    ∧ (s.outward.closes = 1 → s.outward.failed = false →
        s.outward.pipe_shut = true ∧ s.outward.writes.flatten = s.outward.given)
    ∧ ∀ c, s.outward.count = some c →
        c.value = s.outward.noted.getLast?.map fun n => min n (U64_MAX - 1) := by
  have hs := (run_bridge h).outward
  have hgot := hs.carries.fifo
  refine ⟨hs.passed.trans hs.carries.left, hs.max ▸ hs.carries.room, ?_, fun hc => ?_,
    fun hcl hf => ?_, fun c hc => ?_⟩
  · rcases hs.closes with hc | ⟨hc, -⟩ <;> omega
  · rw [hgot, hs.whole hc]
  · obtain ⟨-, hb, hp, hw⟩ := hs.clean hcl hf
    refine ⟨hp, ?_⟩
    rw [hgot, hb, hw, List.append_nil]
  · rw [hs.count c hc]
    exact UnsentCount.value_store _

/-- Two bytes, a write buffer of two until the drain, and the end. -/
def two_bytes : List Label :=
  [.outward (.run true 0), .outward (.pipe_write [7, 8]), .outward .pull, .outward (.run true 2),
    .outward (.drain_done true), .outward (.run true 0), .outward .pipe_shutdown,
    .outward .pull, .outward (.run true 0)]

/-- The hypothesis can be met, and the noted sizes are those of the transport, before and after
the drain. -/
theorem bridge_outbound_in_order_two :
    ∃ s, run step (init true) two_bytes = some s ∧ s.outward.closes = 1
      ∧ s.outward.noted = [2, 0]
      ∧ s.outward.pipe_shut = true ∧ s.outward.writes.flatten = s.outward.given := by
  have h := @bridge_outbound_in_order true two_bytes _ rfl
  exact ⟨_, rfl, rfl, rfl, h.2.2.2.2.1 rfl rfl⟩

/-! ## The end of the session

Once the session has shut its side down or dropped it, only `outbound` has something to do
with what it wrote, and every turn of it takes something off `to_do`. Nothing is assumed of
the order of the steps, only that none of them raises or cancels (`Label.calm`). -/

/-- What may happen without breaking the end: nobody cancels `outbound`, `writer.write` and
`writer.drain` return, and the transport's size is one that `UnsentCount` takes. -/
def Label.calm : Label → Bool
  | .outward .cancel => false
  | .outward (.run ok size) => ok && decide (0 ≤ size ∧ size ≤ U64_MAX)
  | .outward (.drain_done ok) => ok
  | _ => true

/-- The steps of `outbound`, and of the pipe and the writer for it. -/
def Label.flushes : Label → Bool
  | .outward .pull | .outward (.run _ _) | .outward (.drain_done _) => true
  | _ => false

/-- What is left to do: a turn for each read, with at least one byte. -/
def to_do (s : Outward) : ℕ :=
  4 * s.two.buffer.length + match s.task with
    | .start => 3
    | .read .pending => 2
    | .read (.done []) => 1
    | .read _ => 5
    | .drain .pending => 4
    | .drain _ => 3
    | .ended => 0

/-- The session has ended its side, and nothing has gone wrong with `outbound`. -/
structure Ending (given : Bytes) (s : Outward) : Prop where
  inv : s.Inv
  closed : s.two.closed = true
  going : s.cancelled = false
  fine : s.failed = false
  -- a drain that raised is seen by the task's next turn only
  drained : s.task ≠ .drain (.done false)
  given : s.given = given

/-- A size in range is noted. -/
theorem note_isSome {s : Outward} {size : ℤ} (h : 0 ≤ size ∧ size ≤ U64_MAX) :
    s.note size ≠ none := by
  unfold Outward.note
  split
  · exact Option.some_ne_none _
  · rw [UnsentCount.set, if_pos h]
    exact Option.some_ne_none _

/-- `end.read()` takes at least one byte, or finds the end. -/
theorem pull_to_do {s : Outward} {two : Simplex UInt8} {data : Bytes}
    (ht : s.task = .read .pending) (h : poll_read s.two 65536 = some (two, data)) :
    1 + to_do { s with
        two := two, read_op := false, got := s.got ++ data, task := s.task.took data }
      ≤ to_do s := by
  cases poll_read_cases h with
  | data hne =>
      cases hb : s.two.buffer with
      | nil => exact absurd hb hne
      | cons x rest =>
          simp only [to_do, ht, OutTask.took, hb, List.take_succ_cons, List.length_drop,
            List.length_cons]
          omega
  | eof hb hc =>
      simp only [to_do, ht, OutTask.took, hb, List.length_nil]
      omega

/-- A task that leaves its loop without having been cancelled has left it. -/
theorem Ending.ended {given : Bytes} {s : Outward} (hs : Ending given s)
    (h : s.task.leaving s.must_cancel = true) : s.task = .ended := by
  rcases hs.inv.why h with hc | ht
  · rw [hs.going] at hc
    cases hc
  · exact ht

/-- A step that leaves the pipe's end, the flags and what the session wrote as they are keeps
`Ending`, unless a drain raised. -/
theorem Ending.keep {given : Bytes} {s t : Outward} (hs : Ending given s) (hinv : t.Inv)
    (hclosed : s.two.closed = true → t.two.closed = true) (hc : t.cancelled = s.cancelled)
    (hf : t.failed = s.failed) (hg : t.given = s.given)
    (hd : t.task = s.task ∨ t.task ≠ .drain (.done false)) : Ending given t := by
  refine ⟨hinv, hclosed hs.closed, hc.trans hs.going, hf.trans hs.fine, ?_, hg.trans hs.given⟩
  rcases hd with hd | hd
  · rw [hd]
    exact hs.drained
  · exact hd

/-- **What a calm step does to a direction that is to end.** It keeps on to its end, with what
the session wrote as it is, and a turn of `outbound` takes one off at least. -/
theorem Ending.outward {given : Bytes} {s t : Outward} {k : Outward.Label}
    (hs : Ending given s) (hk : (Label.outward k).calm = true) (h : s.step k = some t) :
    Ending given t ∧ (Label.outward k).flushes.toNat + to_do t ≤ to_do s := by
  have hinv := Outward.step_inv hs.inv h
  cases Outward.step_cases h with
  | refused => exact ⟨hs, Nat.le_of_eq (Nat.zero_add _)⟩
  | pipe_write hw =>
      -- the pipe is closed, and takes nothing
      have hopen := (poll_write_ok hw).1
      rw [hs.closed] at hopen
      cases hopen
  | pipe_shutdown | pipe_drop _ | end_drop _ =>
      exact ⟨hs.keep hinv (fun _ => rfl) rfl rfl rfl (.inl rfl), Nat.le_of_eq (Nat.zero_add _)⟩
  | drop_read _ =>
      exact ⟨hs.keep hinv id rfl rfl rfl (.inl rfl), Nat.le_of_eq (Nat.zero_add _)⟩
  | @pull two data hop hp =>
      have ht : s.task = .read .pending := (hs.inv.busy hop).resolve_right (by simp [hs.going])
      refine ⟨hs.keep hinv (fun hclosed => ?_) rfl rfl rfl (.inr (by simp [ht, OutTask.took])),
        pull_to_do ht hp⟩
      cases poll_read_cases hp with
      | data | eof => exact hclosed
  | never _ hm =>
      rw [hs.inv.unmarked hs.going] at hm
      cases hm
  | starts ht _ =>
      refine ⟨hs.keep hinv id rfl rfl rfl (.inr (by simp [Outward.call_read])), ?_⟩
      simp only [to_do, ht, Outward.call_read, Label.flushes, Bool.toNat_true]
      omega
  | read_end ht _ =>
      refine ⟨hs.keep hinv id rfl (Bool.or_false _) rfl (.inr (by simp [Outward.finish])), ?_⟩
      simp only [to_do, ht, Outward.finish, Label.flushes, Bool.toNat_true]
      omega
  | @writes ok size data u ht _ hne hn =>
      obtain ⟨count, noted, rfl, -⟩ := Outward.note_eq_some hn
      refine ⟨hs.keep hinv id rfl rfl rfl (.inr (by simp)), ?_⟩
      cases data with
      | nil => exact absurd rfl hne
      | cons x data =>
          simp only [to_do, ht, Label.flushes, Bool.toNat_true]
          omega
  | next ht _ hn =>
      obtain ⟨count, noted, rfl, -⟩ := Outward.note_eq_some hn
      refine ⟨hs.keep hinv id rfl rfl rfl (.inr (by simp [Outward.call_read])), ?_⟩
      simp only [to_do, ht, Outward.call_read, Label.flushes, Bool.toNat_true]
      omega
  | drain_done ok ht =>
      obtain rfl : ok = true := hk
      refine ⟨hs.keep hinv id rfl rfl rfl (.inr (by simp)), ?_⟩
      simp only [to_do, ht, Label.flushes, Bool.toNat_true]
      omega
  -- the ways out of the loop by an exception: the writer's, `note`'s, or a cancellation's
  | write_fails _ _ hbad =>
      simp only [Label.calm, Bool.and_eq_true, decide_eq_true_eq] at hk
      rcases hbad with hok | hn
      · rw [hk.1] at hok
        cases hok
      · exact absurd hn (note_isSome hk.2)
  | fails ht hbad =>
      simp only [Label.calm, Bool.and_eq_true, decide_eq_true_eq] at hk
      rcases hbad with hn | rfl | hstop
      · exact absurd hn (note_isSome hk.2)
      · exact absurd ht hs.drained
      · have hend := hs.ended (by rw [ht]; exact hstop)
        rw [ht] at hend
        cases hend
  | read_stops ht hstop =>
      have hend := hs.ended (by rw [ht]; exact hstop)
      rw [ht] at hend
      cases hend
  | cancel_start | cancel_read | cancel_drain => cases hk

/-- **One calm step** on the way to the end: the bytes that are owed stay the same, and a
flushing step brings the end nearer. -/
theorem Ending.step {given : Bytes} {s s' : Bridge} {l : Label} (hs : Ending given s.outward)
    (hl : l.calm = true) (h : step s l = some s') :
    Ending given s'.outward ∧ l.flushes.toNat + to_do s'.outward ≤ to_do s.outward := by
  cases l with
  | inward k =>
      simp only [StreamBridge.step, Option.ite_none_left_eq_some, Option.map_eq_some_iff] at h
      obtain ⟨-, t, -, rfl⟩ := h
      exact ⟨hs, Nat.le_of_eq (Nat.zero_add _)⟩
  | outward k =>
      simp only [StreamBridge.step, Option.ite_none_left_eq_some, Option.map_eq_some_iff] at h
      obtain ⟨-, t, ht, rfl⟩ := h
      exact hs.outward hl ht
  | pipe_drop | end_drop =>
      obtain ⟨t, -, h⟩ := Option.bind_eq_some_iff.1 h
      obtain ⟨u, hu, rfl⟩ := Option.map_eq_some_iff.1 h
      exact hs.outward rfl hu

/-- A turn of `outbound` that can be taken is a step of the bridge. -/
theorem exists_step {s : Bridge} {k : Outward.Label} (hf : (Label.outward k).flushes = true)
    (hk : (Label.outward k).calm = true) (h : (s.outward.step k).isSome = true) :
    ∃ l s', Label.flushes l = true ∧ Label.calm l = true ∧ step s l = some s' := by
  have hno : ¬ (k = .pipe_drop ∨ k = .end_drop) := by
    rintro (rfl | rfl) <;> cases hf
  obtain ⟨t, ht⟩ := Option.isSome_iff_exists.1 h
  refine ⟨.outward k, { s with outward := t }, hf, hk, ?_⟩
  rw [step, if_neg hno, ht]
  rfl

/-- What `outbound` does next, for as long as it has not closed the writer. -/
theorem Ending.next {given : Bytes} {s : Bridge} (hs : Ending given s.outward)
    (hopen : s.outward.closes ≠ 1) :
    ∃ l s', Label.flushes l = true ∧ Label.calm l = true ∧ StreamBridge.step s l = some s' := by
  have hmark := hs.inv.unmarked hs.going
  have hrun : (s.outward.run_task true 0).isSome = true → ∃ l s', Label.flushes l = true
      ∧ Label.calm l = true ∧ StreamBridge.step s l = some s' :=
    exists_step (k := .run true 0) rfl rfl
  cases ht : s.outward.task with
  | start => exact hrun (by simp [Outward.run_task, ht, hmark])
  | read f =>
      cases f with
      | pending =>
          -- the pipe is closed, so that a read of it does not wait
          refine exists_step (k := .pull) rfl rfl ?_
          have hop := hs.inv.waits ht
          cases hb : s.outward.two.buffer with
          | nil => simp [Outward.step, Outward.pull, hop, poll_read, hb, hs.closed]
          | cons x rest => simp [Outward.step, Outward.pull, hop, poll_read, hb]
      | done data => exact hrun (by simp [Outward.run_task, ht, hmark, Await.resume])
      | cancelled =>
          have hend := hs.ended (by rw [ht]; rfl)
          rw [ht] at hend
          cases hend
  | drain f =>
      cases f with
      | pending =>
          exact exists_step (k := .drain_done true) rfl rfl
            (by simp [Outward.step, Outward.drain_done, ht])
      | done ok => exact hrun (by simp [Outward.run_task, ht, hmark, Await.resume])
      | cancelled =>
          have hend := hs.ended (by rw [ht]; rfl)
          rw [ht] at hend
          cases hend
  | ended =>
      rcases hs.inv.ended ht with hc | hc
      · exact absurd hc hopen
      · rw [hs.going] at hc
        cases hc

/-- By induction on the run, with the flushing steps counted. -/
theorem run_ending {given : Bytes} {s t : Bridge} {more : List Label}
    (hs : Ending given s.outward) (h : run step s more = some t)
    (hl : ∀ l ∈ more, l.calm = true) :
    Ending given t.outward
    ∧ more.countP Label.flushes + to_do t.outward ≤ to_do s.outward := by
  refine @run_inv_past _ _ step (fun ls u => (∀ l ∈ ls, l.calm = true) → Ending given u.outward
    ∧ ls.countP Label.flushes + to_do u.outward ≤ to_do s.outward) ?_ _ _ _ ?_ h hl
  · intro ls u l v hu hstep hl
    rw [List.forall_mem_append, List.forall_mem_singleton] at hl
    obtain ⟨hend, hle⟩ := hu hl.1
    obtain ⟨hend', hone⟩ := hend.step hl.2 hstep
    refine ⟨hend', ?_⟩
    rw [countP_snoc]
    omega
  · intro _
    exact ⟨hs, Nat.le_of_eq (Nat.zero_add _)⟩

/-- **A session that has ended its side has everything written, and the writer closed.** Let
a run have reached a state with the session's side shut down or dropped, `outbound` neither
cancelled nor failed and no drain that raised, and let it go on in any way in which nobody
cancels `outbound` and the writer does not raise. The session writes nothing more, and at
most `to_do` of the steps are turns of `outbound`. It comes to call `writer.close`, and by
then it has written every byte that the session wrote; until then its next turn can be
taken. -/
theorem bridge_flushes_at_end {counts : Bool} {ls : List Label} {s : Bridge}
    (h : run step (init counts) ls = some s) (hshut : s.outward.pipe_shut = true)
    (hc : s.outward.cancelled = false) (hf : s.outward.failed = false)
    (hd : s.outward.task ≠ .drain (.done false)) {more : List Label} {t : Bridge}
    (h' : run step s more = some t) (hcalm : ∀ l ∈ more, l.calm = true) :
    t.outward.given = s.outward.given
    ∧ more.countP Label.flushes ≤ to_do s.outward
    ∧ (t.outward.closes = 1 ∧ t.outward.writes.flatten = s.outward.given
      ∨ t.outward.closes = 0 ∧ ∃ l t', Label.flushes l = true ∧ Label.calm l = true
        ∧ step t l = some t') := by
  have hinv := run_bridge h
  have hs : Ending s.outward.given s.outward :=
    ⟨hinv.outward, hinv.shut hshut, hc, hf, hd, rfl⟩
  obtain ⟨ht, hle⟩ := run_ending hs h' hcalm
  refine ⟨ht.given, by omega, ?_⟩
  rcases ht.inv.closes with hopen | ⟨hclosed, -⟩
  · exact .inr ⟨hopen, ht.next (by omega)⟩
  · obtain ⟨-, hb, -, hw⟩ := ht.inv.clean hclosed ht.fine
    refine .inl ⟨hclosed, ?_⟩
    rw [hw, ← ht.given, ht.inv.carries.fifo, hb, List.append_nil]

/-- The session drops its side with two bytes in the pipe. -/
def dropped_pipe : List Label := [.outward (.pipe_write [7, 8]), .pipe_drop]

/-- They are written, while data comes in from the stream, which nobody reads any more. -/
def written_out : List Label :=
  [.outward (.run true 0), .inward .run, .outward .pull, .inward (.read_done (some [5])),
    .outward (.run true 2), .inward .run, .inward .push, .outward (.drain_done true),
    .outward (.run true 0), .outward .pull, .outward (.run true 0)]

/-- The hypotheses can be met, by a pipe that is dropped with two bytes in it; and a run that
writes them and closes. -/
theorem bridge_flushes_at_end_dropped :
    ∃ s t, run step (init true) dropped_pipe = some s ∧ s.outward.given = [7, 8]
      ∧ run step s written_out = some t ∧ to_do s.outward = 11
      ∧ t.outward.closes = 1 ∧ t.outward.writes.flatten = [7, 8] :=
  ⟨_, _, rfl, rfl, rfl, rfl,
    (@bridge_flushes_at_end true dropped_pipe _ rfl rfl rfl rfl (by decide) written_out _ rfl
      (by decide)).2.2.resolve_right fun h => by cases h.1⟩

end ZmuxPy.StreamBridge
