/-
The direction of a bridge from the session to the stream: what holds over whole runs.

The one place where bytes can be lost is between `end.read()` and `writer.write(data)`: an
operation that took them while its task was cancelled. `writer.close()` stands in a
`finally`, so what is worth knowing is when it comes after everything (`Inv.clean`): if the
loop was not left by an exception, the last read was empty, so the session had shut its
side down and the pipe was drained.
-/
import ZmuxPy.StreamBridge

set_option autoImplicit false

namespace ZmuxPy.StreamBridge

open Machine Asyncio Duplex

namespace Outward

/-- What each step does, and why: `note` is told apart by whether it raises, and a loop that
is left by an exception by what raised it. -/
inductive Step (s : Outward) : Label → Outward → Prop where
  | refused {data : Bytes} : Step s (.pipe_write data) s
  | pipe_write {data : Bytes} {two : Simplex UInt8} {n : ℕ}
      (h : poll_write s.two data = some (.ok two n)) :
      Step s (.pipe_write data) { s with two := two, given := s.given ++ data.take n }
  | pipe_shutdown :
      Step s .pipe_shutdown { s with two := Duplex.close s.two, pipe_shut := true }
  | pull {two : Simplex UInt8} {data : Bytes} (hop : s.read_op = true)
      (h : poll_read s.two 65536 = some (two, data)) :
      Step s .pull { s with
        two := two, read_op := false, got := s.got ++ data, task := s.task.took data }
  | drop_read (ht : s.task ≠ .read .pending) : Step s .drop_read { s with read_op := false }
  | never {ok : Bool} {size : ℤ} (ht : s.task = .start) (hm : s.must_cancel = true) :
      Step s (.run ok size) { s with task := .ended, must_cancel := false, failed := true }
  | starts {ok : Bool} {size : ℤ} (ht : s.task = .start) (hm : s.must_cancel = false) :
      Step s (.run ok size) (call_read s)
  | read_end {ok : Bool} {size : ℤ} (ht : s.task = .read (.done []))
      (hm : s.must_cancel = false) : Step s (.run ok size) (finish s false)
  | writes {ok : Bool} {size : ℤ} {data : Bytes} {u : Outward}
      (ht : s.task = .read (.done data)) (hm : s.must_cancel = false) (hne : data ≠ [])
      (hn : note { s with writes := s.writes ++ [data], must_cancel := false } size = some u) :
      Step s (.run ok size) { u with task := .drain .pending }
  | write_fails {ok : Bool} {size : ℤ} {data : Bytes} (ht : s.task = .read (.done data))
      (hm : s.must_cancel = false)
      (hbad : ok = false
        ∨ note { s with writes := s.writes ++ [data], must_cancel := false } size = none) :
      Step s (.run ok size)
        (finish { s with writes := s.writes ++ [data], must_cancel := false } true)
  | next {ok : Bool} {size : ℤ} {u : Outward} (ht : s.task = .drain (.done true))
      (hm : s.must_cancel = false) (hn : note s size = some u) :
      Step s (.run ok size) (call_read u)
  | fails {ok : Bool} {size : ℤ} {f : Await Bool} (ht : s.task = .drain f)
      (hbad : note s size = none ∨ f = .done false ∨ f.stops s.must_cancel = true) :
      Step s (.run ok size) (finish s true)
  | read_stops {ok : Bool} {size : ℤ} {f : Await Bytes} (ht : s.task = .read f)
      (hs : f.stops s.must_cancel = true) : Step s (.run ok size) (finish s true)
  | drain_done (ok : Bool) (ht : s.task = .drain .pending) :
      Step s (.drain_done ok) { s with task := .drain (.done ok) }
  | cancel_start (ht : s.task = .start) :
      Step s .cancel { s with must_cancel := true, cancelled := true }
  | cancel_read {f : Await Bytes} (ht : s.task = .read f) :
      Step s .cancel { s with
        task := .read (f.cancel s.must_cancel).1
        must_cancel := (f.cancel s.must_cancel).2, cancelled := true }
  | cancel_drain {f : Await Bool} (ht : s.task = .drain f) :
      Step s .cancel { s with
        task := .drain (f.cancel s.must_cancel).1
        must_cancel := (f.cancel s.must_cancel).2, cancelled := true }
  | pipe_drop (ha : s.pipe_alive = true) :
      Step s .pipe_drop
        { s with two := Duplex.close s.two, pipe_alive := false, pipe_shut := true }
  | end_drop (ht : s.task = .ended) :
      Step s .end_drop { s with two := Duplex.close s.two }

/-- A run of the task. What a `writer.write` or a `note` that raises comes to is here, next to
the turns that go well. -/
theorem run_task_cases {s s' : Outward} {ok : Bool} {size : ℤ}
    (h : run_task s ok size = some s') : Step s (.run ok size) s' := by
  unfold run_task at h
  split at h
  · rename_i ht
    split at h
    · cases h
      exact .never ht ‹_›
    · rename_i hm
      cases h
      exact .starts ht (Bool.eq_false_iff.2 hm)
  · rename_i f ht
    obtain ⟨r, hr, rfl⟩ := Option.map_eq_some_iff.1 h
    split
    · obtain ⟨rfl, hm⟩ := Await.resume_eq_some hr
      exact .read_end ht hm
    · rename_i data hne
      obtain ⟨rfl, hm⟩ := Await.resume_eq_some hr
      dsimp only
      split
      · split
        · exact .writes ht hm (fun hnil => hne (by rw [hnil])) ‹_›
        · exact .write_fails ht hm (.inr ‹_›)
      · exact .write_fails ht hm (.inl (Bool.eq_false_iff.2 ‹_›))
    · exact .read_stops ht (Await.stops_of_resume hr)
  · rename_i f ht
    obtain ⟨r, hr, rfl⟩ := Option.map_eq_some_iff.1 h
    split
    · obtain ⟨rfl, hm⟩ := Await.resume_eq_some hr
      split
      · exact .next ht hm ‹_›
      · exact .fails ht (.inl ‹_›)
    · obtain ⟨rfl, -⟩ := Await.resume_eq_some hr
      exact .fails ht (.inr (.inl rfl))
    · exact .fails ht (.inr (.inr (Await.stops_of_resume hr)))
  · cases h

/-- **Every step is one of these**, with the guard that it passed. -/
theorem step_cases {s s' : Outward} {l : Label} (h : step s l = some s') : Step s l s' := by
  cases l with
  | pipe_write data =>
      simp only [step, pipe_write, Option.ite_none_right_eq_some, Option.map_eq_some_iff] at h
      obtain ⟨-, r, hr, rfl⟩ := h
      cases r with
      | broken_pipe => exact .refused
      | ok two n => exact .pipe_write hr
  | pipe_shutdown =>
      simp only [step, Option.ite_none_right_eq_some, Option.some.injEq] at h
      obtain ⟨-, rfl⟩ := h
      exact .pipe_shutdown
  | pull =>
      simp only [step, pull, Option.ite_none_right_eq_some, Option.map_eq_some_iff] at h
      obtain ⟨hop, ⟨two, data⟩, hp, rfl⟩ := h
      exact .pull hop hp
  | drop_read =>
      simp only [step, drop_read, Option.ite_none_right_eq_some, Option.some.injEq] at h
      obtain ⟨⟨-, ht⟩, rfl⟩ := h
      exact .drop_read ht
  | run ok size => exact run_task_cases h
  | drain_done ok =>
      simp only [step, drain_done] at h
      split at h
      · cases h
        exact .drain_done ok ‹_›
      · cases h
  | cancel =>
      simp only [step, cancel] at h
      split at h
      · cases h
        exact .cancel_start ‹_›
      · cases h
        exact .cancel_read ‹_›
      · cases h
        exact .cancel_drain ‹_›
      · cases h
  | pipe_drop =>
      simp only [step, Option.ite_none_right_eq_some, Option.some.injEq] at h
      obtain ⟨ha, rfl⟩ := h
      exact .pipe_drop ha
  | end_drop =>
      simp only [step, Option.ite_none_right_eq_some, Option.some.injEq] at h
      obtain ⟨⟨ht, -⟩, rfl⟩ := h
      exact .end_drop ht

end Outward

/-! ### What holds -/

/-- The data that the task has and has not written. -/
def OutTask.flight : OutTask → Bytes
  | .read (.done data) => data
  | _ => []

/-- The task is over, or will be the next time it runs, by a `CancelledError`. -/
def OutTask.leaving (mark : Bool) : OutTask → Bool
  | .start => mark
  | .read f => f.stops mark
  | .drain f => f.stops mark
  | .ended => true

/-- Only a task that still waits gets the data. -/
theorem OutTask.took_cases (t : OutTask) (data : Bytes) :
    t = .read .pending ∧ t.took data = .read (.done data)
      ∨ t ≠ .read .pending ∧ t.took data = t := by
  unfold OutTask.took
  split
  · exact .inl ⟨rfl, rfl⟩
  · exact .inr ⟨‹_›, rfl⟩

/-- A size is read back as it was stored, up to the one number that stands for `None`. -/
theorem UnsentCount.value_store (n : Option ℕ) :
    (UnsentCount.store n).value = n.map fun n => min n (U64_MAX - 1) := by
  cases n with
  | none => rfl
  | some n =>
      have hne : min n (U64_MAX - 1) ≠ U64_MAX := by
        unfold U64_MAX
        omega
      simp [UnsentCount.store, UnsentCount.value, hne]

namespace Outward

/-- What the session wrote is in the pipe, with the task or was written; the writer is
closed once, and without a failure only after all of it. -/
structure Inv (s : Outward) : Prop where
  carries : Carries s.two s.given s.got
  max : s.two.max = 256 * 1024
  mark : s.must_cancel = true → s.cancelled = true
  leaving : s.cancelled = true → s.task.leaving s.must_cancel = true
  why : s.task.leaving s.must_cancel = true → s.cancelled = true ∨ s.task = .ended
  busy : s.read_op = true → s.task = .read .pending ∨ s.cancelled = true
  waits : s.task = .read .pending → s.read_op = true
  passed : s.writes.flatten <+: s.got
  whole : s.cancelled = false → s.got = s.writes.flatten ++ s.task.flight
  closes : s.closes = 0 ∨ s.closes = 1 ∧ s.task = .ended
  ended : s.task = .ended → s.closes = 1 ∨ s.cancelled = true
  shut : s.two.closed = true → s.pipe_shut = true ∨ s.task = .ended
  last : s.task = .read (.done []) →
    s.two.closed = true ∧ s.two.buffer = [] ∧ s.pipe_shut = true
  clean : s.closes = 1 → s.failed = false → s.two.closed = true ∧ s.two.buffer = []
    ∧ s.pipe_shut = true ∧ s.writes.flatten = s.got
  count : ∀ c, s.count = some c → c = .store s.noted.getLast?

/-- Nothing was written, and the writer is open. -/
theorem init_inv (counts : Bool) : Inv (init counts) := by
  refine ⟨.new _, rfl, nofun, nofun, nofun, nofun, nofun, List.nil_prefix, fun _ => rfl, .inl rfl,
    nofun, nofun, nofun, nofun, fun c hc => ?_⟩
  cases counts <;> cases hc
  rfl

variable {s : Outward}

/-- A `note` that returns changes the count and what was noted, and nothing else. -/
theorem note_eq_some {size : ℤ} {u : Outward} (h : note s size = some u) :
    ∃ count noted, u = { s with count := count, noted := noted }
      ∧ ((∀ c, s.count = some c → c = .store s.noted.getLast?) →
        ∀ c, count = some c → c = .store noted.getLast?) := by
  unfold note at h
  split at h
  · cases h
    exact ⟨s.count, s.noted, rfl, id⟩
  · obtain ⟨c, hc, rfl⟩ := Option.map_eq_some_iff.1 h
    refine ⟨some c, s.noted ++ [size.toNat], rfl, fun _ c' hc' => ?_⟩
    cases hc'
    unfold UnsentCount.set at hc
    split at hc <;> cases hc
    rw [List.getLast?_concat]

/-- A task that goes on was not cancelled. -/
theorem Inv.going (hs : Inv s) (h : s.task.leaving s.must_cancel = false) :
    s.cancelled = false := by
  rw [Bool.eq_false_iff]
  intro hc
  rw [hs.leaving hc] at h
  cases h

/-- Only `cancel` leaves a mark. -/
theorem Inv.unmarked (hs : Inv s) (hc : s.cancelled = false) : s.must_cancel = false := by
  rw [Bool.eq_false_iff]
  intro hm
  rw [hs.mark hm] at hc
  cases hc

/-- The writer is open while the task runs. -/
theorem Inv.not_closed (hs : Inv s) (h : s.task ≠ .ended) : s.closes = 0 :=
  hs.closes.resolve_right fun hc => h hc.2

/-- The session writes, shuts its side down or drops it. -/
theorem Inv.session {two : Simplex UInt8} {given : Bytes} {alive shut : Bool} (hs : Inv s)
    (hc : Carries two given s.got) (hmax : two.max = s.two.max)
    (hshut : s.pipe_shut = true → shut = true)
    (hclosed : two.closed = true → s.two.closed = true ∨ shut = true)
    (hkeep : s.two.closed = true → two.closed = true ∧ two.buffer = s.two.buffer) :
    Inv { s with two := two, given := given, pipe_alive := alive, pipe_shut := shut } := by
  refine ⟨hc, hmax.trans hs.max, hs.mark, hs.leaving, hs.why, hs.busy, hs.waits, hs.passed,
    hs.whole, hs.closes, hs.ended, fun h => ?_, fun h => ?_, fun h hf => ?_, hs.count⟩
  · rcases hclosed h with h | h
    · exact (hs.shut h).imp hshut id
    · exact .inl h
  · obtain ⟨hcl, hb, hp⟩ := hs.last h
    obtain ⟨hcl', hb'⟩ := hkeep hcl
    exact ⟨hcl', hb'.trans hb, hshut hp⟩
  · obtain ⟨hcl, hb, hp, hw⟩ := hs.clean h hf
    obtain ⟨hcl', hb'⟩ := hkeep hcl
    exact ⟨hcl', hb'.trans hb, hshut hp, hw⟩

/-- `end.read()` takes what is there. -/
theorem Inv.pull {two : Simplex UInt8} {data : Bytes} (hs : Inv s) (hop : s.read_op = true)
    (h : poll_read s.two 65536 = some (two, data)) :
    Inv { s with
      two := two, read_op := false, got := s.got ++ data, task := s.task.took data } := by
  -- a read of the pipe returns nothing only at its end, and then nothing is left in it
  have hsame : two.max = s.two.max ∧ two.closed = s.two.closed
      ∧ (s.two.buffer = [] → data = [] ∧ two.buffer = [])
      ∧ (data = [] → s.two.closed = true ∧ two.buffer = []) := by
    cases poll_read_cases h with
    | data hne =>
        refine ⟨rfl, rfl, fun hb => absurd hb hne, fun hnil => ?_⟩
        rcases List.take_eq_nil_iff.1 hnil with h0 | hnil
        · cases h0
        · exact absurd hnil hne
    | eof hb hc => exact ⟨rfl, rfl, fun _ => ⟨rfl, hb⟩, fun _ => ⟨hc, hb⟩⟩
  obtain ⟨hmax, hclosed, hempty, hnil⟩ := hsame
  have hpassed : s.writes.flatten <+: s.got ++ data := hs.passed.trans (List.prefix_append _ _)
  have hclean : s.closes = 1 → s.failed = false → two.closed = true ∧ two.buffer = []
      ∧ s.pipe_shut = true ∧ s.writes.flatten = s.got ++ data := by
    intro hcl hf
    obtain ⟨hc, hb, hp, hw⟩ := hs.clean hcl hf
    obtain ⟨hd, hb'⟩ := hempty hb
    exact ⟨hclosed.trans hc, hb', hp, by rw [hd, List.append_nil]; exact hw⟩
  rcases s.task.took_cases data with ⟨hp, ht⟩ | ⟨hp, ht⟩
  -- the task still waits, and has the data in hand from now on
  · have hgoing : s.cancelled = false := hs.going (by rw [hp]; rfl)
    have hopen : s.task ≠ .ended := by rw [hp]; exact nofun
    rw [ht]
    refine ⟨hs.carries.read h, hmax.trans hs.max, hs.mark, fun hc => ?_, fun hl => ?_, nofun, nofun,
      hpassed, fun _ => ?_, .inl (hs.not_closed hopen), nofun, fun hc => ?_, fun hd => ?_, hclean,
      hs.count⟩
    · rw [hgoing] at hc
      cases hc
    · rw [OutTask.leaving, hs.unmarked hgoing] at hl
      cases hl
    · change s.got ++ data = s.writes.flatten ++ data
      rw [hs.whole hgoing, hp]
      simp [OutTask.flight]
    · exact .inl ((hs.shut (hclosed ▸ hc)).resolve_right hopen)
    · cases hd
      obtain ⟨hc, hb⟩ := hnil rfl
      exact ⟨hclosed.trans hc, hb, (hs.shut hc).resolve_right hopen⟩
  -- the task was cancelled: what the operation took is lost with it
  · have hc : s.cancelled = true := (hs.busy hop).resolve_left hp
    rw [ht]
    refine ⟨hs.carries.read h, hmax.trans hs.max, hs.mark, hs.leaving, hs.why, nofun,
      fun hr => absurd hr hp, hpassed, fun hno => ?_, hs.closes, hs.ended, ?_, fun hd => ?_, hclean,
      hs.count⟩
    · rw [hc] at hno
      cases hno
    · rw [hclosed]
      exact hs.shut
    · obtain ⟨hcl, hb, hps⟩ := hs.last hd
      exact ⟨hclosed.trans hcl, (hempty hb).2, hps⟩

/-- The loop is left, and the writer is closed. -/
theorem Inv.finish {failed : Bool} (hs : Inv s) (ht : s.task ≠ .ended)
    (hr : s.task ≠ .read .pending) (hflight : s.cancelled = false → s.task.flight = [])
    (hclean : failed = false → s.task = .read (.done []) ∧ s.cancelled = false) :
    Inv (finish s failed) := by
  have hzero := hs.not_closed ht
  refine ⟨hs.carries, hs.max, nofun, fun _ => rfl, fun _ => .inr rfl, ?_, nofun, hs.passed,
    fun hc => ?_, .inr ⟨by rw [Outward.finish, hzero], rfl⟩,
    fun _ => .inl (by rw [Outward.finish, hzero]), fun _ => .inr rfl, nofun, fun _ hf => ?_,
    hs.count⟩
  · exact fun hop => .inr ((hs.busy hop).resolve_left hr)
  · have hwhole := hs.whole hc
    rw [hflight hc] at hwhole
    exact hwhole
  · obtain ⟨hread, hc⟩ := hclean (Bool.or_eq_false_iff.1 hf).2
    obtain ⟨hcl, hb, hp⟩ := hs.last hread
    have hwhole := hs.whole hc
    rw [hflight hc, List.append_nil] at hwhole
    exact ⟨hcl, hb, hp, hwhole.symm⟩

/-- A cancelled task leaves the next time it runs. The end of the session's data, if it had
that in hand, stays in its hand. -/
theorem Inv.cancel {task : OutTask} {mark : Bool} (hs : Inv s) (ht : s.task ≠ .ended)
    (hleaving : task.leaving mark = true) (hwait : task ≠ .read .pending)
    (hread : task = .read (.done []) → s.task = .read (.done [])) (hend : task ≠ .ended) :
    Inv { s with task := task, must_cancel := mark, cancelled := true } := by
  have hzero := hs.not_closed ht
  refine ⟨hs.carries, hs.max, fun _ => rfl, fun _ => hleaving, fun _ => .inl rfl, fun _ => .inr rfl,
    fun h => absurd h hwait, hs.passed, nofun, .inl hzero, fun h => absurd h hend,
    fun h => ?_, fun h => hs.last (hread h), hs.clean, hs.count⟩
  exact .inl ((hs.shut h).resolve_right ht)

/-- The count is the last size that was noted. -/
theorem Inv.recount {count : Option UnsentCount} {noted : List ℕ} (hs : Inv s)
    (h : ∀ c, count = some c → c = .store noted.getLast?) :
    Inv { s with count := count, noted := noted } :=
  ⟨hs.carries, hs.max, hs.mark, hs.leaving, hs.why, hs.busy, hs.waits, hs.passed, hs.whole,
    hs.closes, hs.ended, hs.shut, hs.last, hs.clean, h⟩

/-- The task goes on with nothing in its hands. -/
theorem Inv.go_on {task : OutTask} {op : Bool} {writes : List Bytes} (hs : Inv s)
    (hstay : s.task.leaving s.must_cancel = false) (hnext : task = .read .pending ∧ op = true
      ∨ task = .drain .pending ∧ op = s.read_op ∧ s.read_op = false)
    (hw : s.got = writes.flatten) :
    Inv { s with writes := writes, must_cancel := false, task := task, read_op := op } := by
  have hgoing := hs.going hstay
  have hopen : s.task ≠ .ended := by
    intro he
    rw [he] at hstay
    cases hstay
  have hshut : s.two.closed = true → s.pipe_shut = true ∨ task = .ended :=
    fun h => .inl ((hs.shut h).resolve_right hopen)
  have hzero := hs.not_closed hopen
  rcases hnext with ⟨rfl, rfl⟩ | ⟨rfl, rfl, hop⟩
  · refine ⟨hs.carries, hs.max, nofun, fun hc => ?_, nofun, fun _ => .inl rfl, fun _ => rfl,
      ⟨[], by rw [List.append_nil]; exact hw.symm⟩, fun _ => ?_, .inl hzero, nofun, hshut, nofun,
      fun h => ?_, hs.count⟩
    · rw [hgoing] at hc
      cases hc
    · exact hw.trans (List.append_nil _).symm
    · rw [hzero] at h
      cases h
  · refine ⟨hs.carries, hs.max, nofun, fun hc => ?_, nofun, fun h => ?_, nofun,
      ⟨[], by rw [List.append_nil]; exact hw.symm⟩, fun _ => ?_, .inl hzero, nofun, hshut, nofun,
      fun h => ?_, hs.count⟩
    · rw [hgoing] at hc
      cases hc
    · rw [hop] at h
      cases h
    · exact hw.trans (List.append_nil _).symm
    · rw [hzero] at h
      cases h

/-- `writer.write(data)` is called. -/
theorem Inv.write {data : Bytes} (hs : Inv s) (ht : s.task = .read (.done data))
    (hm : s.must_cancel = false) :
    Inv { s with writes := s.writes ++ [data], must_cancel := false, task := .drain .pending } := by
  have hstay : s.task.leaving s.must_cancel = false := by rw [ht]; exact hm
  have hgoing := hs.going hstay
  have hop : s.read_op = false := by
    rw [Bool.eq_false_iff]
    intro hop
    rcases hs.busy hop with hp | hc
    · rw [ht] at hp
      cases hp
    · rw [hgoing] at hc
      cases hc
  refine hs.go_on hstay (.inr ⟨rfl, rfl, hop⟩) ?_
  rw [hs.whole hgoing, ht]
  simp [OutTask.flight]

/-- `end.read()` is called. -/
theorem Inv.read (hs : Inv s) (hstay : s.task.leaving s.must_cancel = false)
    (hf : s.task.flight = []) : Inv (call_read s) := by
  refine hs.go_on hstay (.inl ⟨rfl, rfl⟩) ?_
  rw [hs.whole (hs.going hstay), hf, List.append_nil]

/-- **One step keeps the invariant.** -/
theorem step_inv {s' : Outward} {l : Label} (hs : Inv s) (h : step s l = some s') : Inv s' := by
  cases step_cases h with
  | refused => exact hs
  | pipe_write hw =>
      obtain ⟨hopen, hone, -⟩ := poll_write_ok hw
      refine hs.session (hs.carries.write hw) (by rw [hone]) id (fun hc => ?_) fun hc => ?_
      · rw [hone] at hc
        exact .inl hc
      · rw [hopen] at hc
        cases hc
  | pipe_shutdown =>
      exact hs.session hs.carries.close rfl (fun _ => rfl) (fun _ => .inr rfl) fun _ => ⟨rfl, rfl⟩
  | pull hop hp => exact hs.pull hop hp
  | drop_read ht =>
      exact ⟨hs.carries, hs.max, hs.mark, hs.leaving, hs.why, nofun, fun h => absurd h ht,
        hs.passed, hs.whole, hs.closes, hs.ended, hs.shut, hs.last, hs.clean, hs.count⟩
  | never ht hm =>
      have hc := hs.mark hm
      -- a task that is cancelled before its first step ends without its `finally`: no close
      have hzero := hs.not_closed (by rw [ht]; exact nofun)
      refine ⟨hs.carries, hs.max, nofun, fun _ => rfl, fun _ => .inr rfl, fun _ => .inr hc, nofun,
        hs.passed, fun hno => ?_, .inl hzero, fun _ => .inr hc, fun _ => .inr rfl, nofun,
        fun _ hf => ?_, hs.count⟩
      · rw [hc] at hno
        cases hno
      · cases hf
  | starts ht hm => exact hs.read (by rw [ht]; exact hm) (by rw [ht]; rfl)
  | read_end ht hm =>
      exact hs.finish (by simp [ht]) (by simp [ht]) (fun _ => by rw [ht]; rfl)
        fun _ => ⟨ht, hs.going (by rw [ht]; exact hm)⟩
  | writes ht hm _ hn =>
      -- the write first, then the count, which the rest of the invariant does not look at
      obtain ⟨count, noted, rfl, hcount⟩ := note_eq_some hn
      exact (hs.write ht hm).recount (hcount hs.count)
  | write_fails ht hm _ => exact (hs.write ht hm).finish nofun nofun (fun _ => rfl) nofun
  | next ht hm hn =>
      obtain ⟨count, noted, rfl, hcount⟩ := note_eq_some hn
      exact (hs.recount (hcount hs.count)).read (by simp [ht, hm, OutTask.leaving, Await.stops])
        (by simp [ht, OutTask.flight])
  | fails ht _ => exact hs.finish (by simp [ht]) (by simp [ht]) (fun _ => by rw [ht]; rfl) nofun
  | @read_stops _ _ f ht hst =>
      have hc := (hs.why (by rw [ht]; exact hst)).resolve_right (by simp [ht])
      refine hs.finish (by simp [ht]) ?_ (fun hno => ?_) nofun
      · rw [ht]
        rintro ⟨⟩
        cases hst
      · rw [hc] at hno
        cases hno
  | drain_done ok ht =>
      -- a drain that is awaited is not cancelled yet
      have hgoing : s.cancelled = false := hs.going (by rw [ht]; rfl)
      have hopen : s.task ≠ .ended := by simp [ht]
      have hzero := hs.not_closed hopen
      refine ⟨hs.carries, hs.max, hs.mark, fun hc => ?_, fun hl => ?_, fun hop => ?_, nofun,
        hs.passed, fun _ => ?_, .inl hzero, nofun,
        fun h => .inl ((hs.shut h).resolve_right hopen), nofun, hs.clean, hs.count⟩
      · rw [hgoing] at hc
        cases hc
      · rw [OutTask.leaving, hs.unmarked hgoing] at hl
        cases hl
      · exact .inr ((hs.busy hop).resolve_left (by simp [ht]))
      · have hwhole := hs.whole hgoing
        rw [ht] at hwhole
        exact hwhole
  | cancel_start ht =>
      exact hs.cancel (by simp [ht]) (by rw [ht]; rfl) (by simp [ht]) id (by simp [ht])
  | @cancel_read f ht =>
      refine hs.cancel (by simp [ht]) (Await.cancel_stops _ _) ?_ ?_ nofun
      · cases f <;> exact nofun
      · rw [ht]
        cases f with
        | pending | cancelled => exact nofun
        | done data => exact id
  | cancel_drain ht =>
      exact hs.cancel (by simp [ht]) (Await.cancel_stops _ _) nofun nofun nofun
  | pipe_drop ha =>
      exact hs.session hs.carries.close rfl (fun _ => rfl) (fun _ => .inr rfl) fun _ => ⟨rfl, rfl⟩
  | end_drop ht =>
      refine ⟨hs.carries.close, hs.max, hs.mark, hs.leaving, hs.why, hs.busy, hs.waits, hs.passed,
        hs.whole, hs.closes, hs.ended, fun _ => .inr ht, fun h => ?_, fun h hf => ?_, hs.count⟩
      · rw [ht] at h
        cases h
      -- the pipe was closed and empty before; closing it once more changes nothing
      · obtain ⟨-, hb, hp, hw⟩ := hs.clean h hf
        exact ⟨rfl, hb, hp, hw⟩

/-- The session's end of writing stays. -/
theorem step_shut {s' : Outward} {l : Label} (hs : s.pipe_shut = true → s.two.closed = true)
    (h : step s l = some s') : s'.pipe_shut = true → s'.two.closed = true := by
  cases step_cases h with
  | pipe_write hw =>
      obtain ⟨-, hone, -⟩ := poll_write_ok hw
      rw [hone]
      exact hs
  | pull _ hp =>
      cases poll_read_cases hp with
      | data | eof => exact hs
  | pipe_shutdown | pipe_drop | end_drop => exact fun _ => rfl
  | writes _ _ _ hn | next _ _ hn =>
      obtain ⟨count, noted, rfl, -⟩ := note_eq_some hn
      exact hs
  | _ => exact hs

end Outward

end ZmuxPy.StreamBridge
