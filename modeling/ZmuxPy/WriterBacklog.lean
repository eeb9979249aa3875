/-
The backlog of a `zmux.StreamWriter` and the errors of its sends
(`python/zmux/__init__.py`, over the model of `ZmuxPy.StreamWriter`).

`_queued` is what `drain` compares with `high_water`. `write` adds `len(data)` to
it, which counts the items of a view; `_flush` takes off the length of the `bytes`
it sent. The two agree as long as an item is a byte.

An error of a send is kept in one place only, the flush task that sent it. `drain`
raises the error of the task it finds, and `write` puts a new task in the place of
one that is done. Whether anyone has been told of an error is not part of the
writer, so it is kept in a ledger beside it.
-/
import Mathlib.Algebra.GroupWithZero.Nat
import ZmuxPy.StreamWriter

set_option autoImplicit false

namespace ZmuxPy.StreamWriter

open Machine Asyncio

/-! ## What a step does to the sending side -/

/-- A step of the closing side, or of a waiting coroutine. -/
structure Aside (w w' : Writer) : Prop where
  buf : w'.buf = w.buf
  queued : w'.queued = w.queued
  task : w'.task = w.task
  mark : w'.task_must_cancel = w.task_must_cancel
  past : w'.past = w.past
  waits : ∀ n, .drain n ∈ w'.waiters → .drain n ∈ w.waiters ∨ n = w.past.length

/-- The waiting coroutines stay as they are. -/
theorem Aside.of_eq {w w' : Writer} (hb : w'.buf = w.buf) (hq : w'.queued = w.queued)
    (ht : w'.task = w.task) (hm : w'.task_must_cancel = w.task_must_cancel)
    (hp : w'.past = w.past) (hw : w'.waiters = w.waiters) : Aside w w' :=
  ⟨hb, hq, ht, hm, hp, fun _ hn => .inl (hw ▸ hn)⟩

/-- A coroutine is added, or takes another's place. -/
theorem Aside.with_waiters {w : Writer} {ws : List Waiter}
    (h : ∀ n, .drain n ∈ ws → .drain n ∈ w.waiters ∨ n = w.past.length) :
    Aside w { w with waiters := ws } :=
  ⟨rfl, rfl, rfl, rfl, rfl, h⟩

/-- A coroutine that goes on, or is cancelled, is not in a `drain` after it; the others are
where they were. -/
theorem mem_of_mem_set_over {ws : List Waiter} {i n : ℕ} {x : Waiter} (hx : x ≠ .drain n)
    (h : .drain n ∈ ws.set i x) : .drain n ∈ ws := by
  rcases List.mem_or_eq_of_mem_set h with h | h
  · exact h
  · exact absurd h.symm hx

/-- A close is on the closing side, -/
theorem finishing_aside (w : Writer) : Aside w (finishing w) := by
  unfold finishing
  split <;> exact .of_eq rfl rfl rfl rfl rfl rfl

/-- and so is `_finish`, -/
theorem finish_aside (w : Writer) (r : Outcome) : Aside w (finish w r) := by
  cases r <;> exact .of_eq rfl rfl rfl rfl rfl rfl

/-- step by step, -/
theorem run_finish_aside {w w' : Writer} (h : run_finish w = some w') : Aside w w' := by
  unfold run_finish at h
  split at h
  · split at h
    · cases h
      exact .of_eq rfl rfl rfl rfl rfl rfl
    · split at h
      · cases h
        exact finish_aside w .ok
      · cases h
        exact finish_aside w _
      · cases h
        exact .of_eq rfl rfl rfl rfl rfl rfl
  · split at h
    · split at h
      · cases h
        exact .of_eq rfl rfl rfl rfl rfl rfl
      · cases h
        exact finish_aside w _
    · cases h
  · split at h <;> cases h <;> exact .of_eq rfl rfl rfl rfl rfl rfl
  · cases h

/-- up to the result of `stream.finish()`. -/
theorem finish_done_aside {w w' : Writer} {ok : Bool} (h : finish_done w ok = some w') :
    Aside w w' := by
  unfold finish_done at h
  split at h
  · cases h
    exact .of_eq rfl rfl rfl rfl rfl rfl
  · cases h

/-- A `drain` may wait for the flush task in place, whose number is the number of those that
were replaced. -/
theorem drain_aside (w : Writer) : Aside w (drain w) := by
  unfold drain
  split
  · exact .with_waiters fun n hn => .inl (by simpa using hn)
  · split
    · exact .with_waiters fun n hn => by simpa using hn
    · exact .with_waiters fun n hn => .inl (by simpa using hn)

/-- A coroutine that goes on waits no more. -/
theorem resume_aside {w w' : Writer} {i : ℕ} (h : resume w i = some w') : Aside w w' := by
  obtain ⟨r, rfl⟩ := resume_cases h
  exact .with_waiters fun n hn => .inl (mem_of_mem_set_over (by simp) hn)

/-- A cancellation of the finishing task stays on the closing side, or goes on to the
flush task. -/
theorem cancel_closing_cases (w : Writer) :
    Aside w (cancel_closing w) ∨ cancel_closing w = cancel_task w := by
  have hsame : ∀ c m, Aside w { w with closing := c, closing_must_cancel := m } :=
    fun _ _ => .of_eq rfl rfl rfl rfl rfl rfl
  unfold cancel_closing
  split
  · exact .inl (hsame _ _)
  · split
    · exact .inl (hsame _ _)
    · exact .inr rfl
  · exact .inl (hsame _ _)
  · exact .inl (hsame _ _)
  · exact .inl (hsame _ _)

/-- The steps of the writer, as the sending side sees them. -/
inductive Sends (w : Writer) : Label → Writer → Prop where
  | write {d : Data} {w' : Writer} (h : write w d = some w') : Sends w (.write d) w'
  | writelines (ds : List Data) : Sends w (.writelines ds) (writelines w ds)
  | flush {w' : Writer} (h : run_flush w = some w') : Sends w .run_flush w'
  | sent {ok : Bool} {w' : Writer} (h : send_done w ok = some w') : Sends w (.send_done ok) w'
  | cancelled {l : Label} (hl : l = .cancel_task ∨ l = .cancel_closing ∨ ∃ i, l = .cancel i) :
      Sends w l (cancel_task w)
  | refused {d : Data} (hc : w.closing.isSome = true) : Sends w (.write d) w
  | aside {l : Label} {w' : Writer} (h : Aside w w') (hw : ∀ d, l ≠ .write d)
      (hws : ∀ ds, l ≠ .writelines ds) (hs : ∀ ok, l ≠ .send_done ok) (hf : l ≠ .run_flush) :
      Sends w l w'

/-- **Every step is one of these.** What follows is proved by these cases and does not unfold
`step` again. -/
theorem step_sends {w w' : Writer} {l : Label} (h : step w l = some w') : Sends w l w' := by
  -- a cancelled finishing task passes it on to the flush task, or keeps it to itself
  have hcancel : ∀ {l : Label}, (l = .cancel_closing ∨ ∃ i, l = .cancel i) →
      Sends w l (cancel_closing w) := by
    intro l hl
    rcases cancel_closing_cases w with ha | ha
    · refine .aside ha ?_ ?_ ?_ ?_ <;> rcases hl with rfl | ⟨i, rfl⟩ <;> simp
    · rw [ha]
      exact .cancelled (.inr hl)
  cases l with
  | write d =>
      simp only [step, Option.some.injEq] at h
      cases hw : write w d with
      | none =>
          rw [hw] at h
          cases h
          -- the only reason for `write` to raise is a writer that is closing
          refine .refused ?_
          unfold StreamWriter.write at hw
          split at hw
          · assumption
          · dsimp only at hw
            split at hw <;> cases hw
      | some v =>
          rw [hw] at h
          cases h
          exact .write hw
  | writelines ds =>
      cases h
      exact .writelines ds
  | run_flush => exact .flush h
  | send_done ok => exact .sent h
  | cancel_task =>
      cases h
      exact .cancelled (.inl rfl)
  | cancel_closing =>
      cases h
      exact hcancel (.inl rfl)
  | cancel i =>
      rcases cancel_cases h with ⟨x, hx, rfl⟩ | rfl
      · exact .aside (.with_waiters fun n hn => .inl (mem_of_mem_set_over (hx n) hn))
          (by simp) (by simp) (by simp) (by simp)
      · exact hcancel (.inr ⟨i, rfl⟩)
  | drain =>
      cases h
      exact .aside (drain_aside w) (by simp) (by simp) (by simp) (by simp)
  | write_eof | close =>
      cases h
      exact .aside (finishing_aside w) (by simp) (by simp) (by simp) (by simp)
  | wait_closed =>
      cases h
      have hf := finishing_aside w
      refine .aside ⟨hf.buf, hf.queued, hf.task, hf.mark, hf.past, fun n hn => ?_⟩ (by simp)
        (by simp) (by simp) (by simp)
      simp only [wait_closed, List.mem_append] at hn
      rcases hn with hn | hn
      · exact hf.waits n hn
      · simp at hn
  | run_finish => exact .aside (run_finish_aside h) (by simp) (by simp) (by simp) (by simp)
  | finish_done ok => exact .aside (finish_done_aside h) (by simp) (by simp) (by simp) (by simp)
  | resume i => exact .aside (resume_aside h) (by simp) (by simp) (by simp) (by simp)

/-! ## `_queued` -/

/-- The chunk that the flush task has taken out of the buffer and not taken off
`_queued`: its `SendStream.write` is under way, until the task is told of its end. -/
def taken (w : Writer) : Bytes :=
  match w.task with
  | some (.sending d) | some (.sent d _) => d
  | _ => []

/-- `_queued` is the number of bytes that are in the buffer or on their way. -/
def Counts (w : Writer) : Prop := w.queued = w.buf.length + (taken w).length

/-- The items of the arguments are their bytes, in number. -/
def balanced (w : Writer) : Label → Bool
  | .write d => w.closing.isSome || d.items == d.bytes.length
  | .writelines ds =>
    w.closing.isSome || (ds.map Data.items).sum == (ds.map fun d => d.bytes.length).sum
  | _ => true

/-- `write` counts the items of its argument and buffers its bytes. -/
theorem write_adds {w w' : Writer} {d : Data} (h : write w d = some w') :
    w'.closing = none ∧ w'.queued = w.queued + d.items ∧ w'.buf = w.buf ++ d.bytes
      ∧ taken w' = taken w := by
  have hc := closing_of_write h
  simp only [write, hc, Option.isSome_none, Bool.false_eq_true, if_false] at h
  split at h
  all_goals
    rename_i ht
    cases h
    refine ⟨rfl, rfl, rfl, ?_⟩
    simp [taken, ht]

/-- So does `writelines`, for all of its arguments, on a writer that is open. -/
theorem writelines_adds {w : Writer} (hc : w.closing = none) (ds : List Data) :
    (writelines w ds).queued = w.queued + (ds.map Data.items).sum
      ∧ (writelines w ds).buf.length = w.buf.length + (ds.map fun d => d.bytes.length).sum
      ∧ taken (writelines w ds) = taken w := by
  induction ds generalizing w with
  | nil => simp [writelines]
  | cons d ds ih =>
      obtain ⟨v, hw⟩ := exists_write hc d
      obtain ⟨hc', hq, hb, ht⟩ := write_adds hw
      obtain ⟨hq', hb', ht'⟩ := ih hc'
      simp only [writelines, hw]
      refine ⟨?_, ?_, ht'.trans ht⟩
      · rw [hq', hq, List.map_cons, List.sum_cons]
        push_cast
        omega
      · rw [hb', hb, List.length_append, List.map_cons, List.sum_cons]
        omega

/-- At the head of the loop nothing is on its way, and the buffer goes as a whole. -/
theorem flush_loop_counts {w : Writer} (h : w.queued = w.buf.length) : Counts (flush_loop w) := by
  unfold flush_loop
  split
  · simpa [Counts, taken] using h
  · simpa [Counts, taken] using h

/-- What is taken off is the chunk that was on its way, however its send ended. -/
theorem run_flush_counts {w w' : Writer} (hc : Counts w) (h : run_flush w = some w') :
    Counts w' := by
  unfold Counts at hc
  unfold run_flush at h
  split at h
  · rename_i ht
    have hq : w.queued = w.buf.length := by simpa [taken, ht] using hc
    split at h
    · cases h
      simpa [Counts, taken] using hq
    · cases h
      exact flush_loop_counts hq
  · rename_i d r ht
    -- `finally`: the chunk goes off `_queued`, however its send ended
    have htaken : taken w = d := by simp [taken, ht]
    have hq : w.queued - d.length = w.buf.length := by
      rw [hc, htaken]
      omega
    dsimp only at h
    split at h
    · cases h
      simpa [Counts, taken] using hq
    · split at h
      · cases h
        exact flush_loop_counts hq
      · cases h
        simpa [Counts, taken] using hq
  · cases h

/-- The result of a send changes nothing yet: the chunk is taken off when the task goes on, -/
theorem send_done_counts {w w' : Writer} {ok : Bool} (hc : Counts w)
    (h : send_done w ok = some w') : Counts w' := by
  unfold send_done at h
  split at h
  · rename_i d ht
    cases h
    simpa [Counts, taken, ht] using hc
  · cases h

/-- and so it is with a cancelled send. -/
theorem cancel_task_counts {w : Writer} (hc : Counts w) : Counts (cancel_task w) := by
  unfold cancel_task
  split
  · exact hc
  · rename_i d ht
    simpa [Counts, taken, ht] using hc
  · exact hc
  · exact hc

/-- One step from a true count: it stays true exactly if the items written are as many as
the bytes. -/
theorem step_counts {w w' : Writer} {l : Label} (hc : Counts w) (h : step w l = some w') :
    Counts w' ↔ balanced w l = true := by
  unfold Counts at hc
  cases step_sends h with
  | write hw =>
      rename_i d
      have hcl := closing_of_write hw
      -- one side grows by the items, the other by the bytes
      obtain ⟨-, hq, hb, ht⟩ := write_adds hw
      rw [Counts, hq, hb, ht, hc, List.length_append]
      simp only [balanced, hcl, Option.isSome_none, Bool.false_or, beq_iff_eq]
      omega
  | writelines ds =>
      cases hcl : w.closing with
      | some c =>
          have hsome : w.closing.isSome = true := by rw [hcl]; rfl
          rw [writelines_of_closing (Option.isSome_iff_ne_none.1 hsome)]
          simp only [balanced, hsome, Bool.true_or, iff_true]
          exact hc
      | none =>
          obtain ⟨hq, hb, ht⟩ := writelines_adds hcl ds
          rw [Counts, hq, hb, ht, hc]
          simp only [balanced, hcl, Option.isSome_none, Bool.false_or, beq_iff_eq]
          omega
  | flush hf => exact iff_of_true (run_flush_counts hc hf) rfl
  | sent hs => exact iff_of_true (send_done_counts hc hs) rfl
  | cancelled hl =>
      refine iff_of_true (cancel_task_counts hc) ?_
      rcases hl with rfl | rfl | ⟨i, rfl⟩ <;> rfl
  | refused hsome => exact iff_of_true hc (by simp [balanced, hsome])
  | aside ha hw hws _ _ =>
      refine iff_of_true ?_ ?_
      · rw [Counts, ha.queued, ha.buf, taken, ha.task]
        exact hc
      · unfold balanced
        split
        · exact absurd rfl (hw _)
        · exact absurd rfl (hws _)
        · rfl

/-- **`_queued` counts bytes only while items are bytes.** In every run `_queued` is
the number of bytes in the buffer and on their way in every state passed, exactly if
every accepted argument (the arguments of one `writelines` together) has as many items
as bytes; and it is then never negative. -/
theorem queued_counts_bytes_iff {hw : ℤ} {ls : List Label} {w : Writer}
    (h : run step (init hw) ls = some w) :
    ((∀ u, Visits step (init hw) ls u → u.queued = u.buf.length + (taken u).length)
      ↔ Meets step (fun w l => balanced w l = true) (init hw) ls)
    ∧ (Meets step (fun w l => balanced w l = true) (init hw) ls → 0 ≤ w.queued) := by
  have hiff : (∀ u, Visits step (init hw) ls u → Counts u)
      ↔ Meets step (fun w l => balanced w l = true) (init hw) ls :=
    @visits_iff _ _ step (fun _ => True) Counts _ (fun _ _ _ _ _ => trivial)
      (fun _ _ _ _ hp hs => step_counts hp hs) _ _ _ trivial rfl h
  refine ⟨hiff, fun hm => ?_⟩
  have hcount := hiff.2 hm w ⟨ls, [], (List.append_nil ls).symm, h⟩
  rw [hcount]
  omega

/-- A view of two items of two bytes each. -/
def two_words : Data := ⟨[1, 0, 2, 0], 2, 2, rfl⟩

/-- Writes of bytes, a send that fails, and one that is cancelled. -/
def failed_and_cancelled : List Label :=
  [.write (.ofBytes [97]), .run_flush, .writelines [.ofBytes [98], .ofBytes [99]],
    .send_done false, .run_flush, .write (.ofBytes [100]), .run_flush, .cancel_task]

/-- The run has a failed send and a cancelled one, and the count is right to the end: three
bytes, and all of them on their way. -/
theorem queued_counts_bytes_iff_failed :
    ∃ w, run step (init 65536) failed_and_cancelled = some w ∧ w.queued = 3
      ∧ ((∀ u, Visits step (init 65536) failed_and_cancelled u →
            u.queued = u.buf.length + (taken u).length)
          ↔ Meets step (fun w l => balanced w l = true) (init 65536) failed_and_cancelled)
      ∧ 0 ≤ w.queued := by
  have h := @queued_counts_bytes_iff 65536 failed_and_cancelled _ rfl
  exact ⟨_, rfl, rfl, h.1, h.2 (by decide)⟩

/-- Two items are counted in and four bytes out: `_queued` is negative, with nothing
queued and nothing on its way. -/
theorem items_are_not_bytes :
    ∃ w, run step (init 65536) [.write two_words, .run_flush, .send_done true, .run_flush]
        = some w
      ∧ w.queued = -2 ∧ w.buf = [] ∧ taken w = [] :=
  ⟨_, rfl, rfl, rfl, rfl⟩

/-! ## The errors of failed sends -/

/-- How a coroutine ended. -/
def Waiter.outcome : Waiter → Option Outcome
  | .over r => some r
  | _ => none

/-- How a `drain()` ends in a step, when it is called or when it goes on. -/
def drained (w : Writer) : Label → Option Outcome
  | .drain => (drain w).waiters.getLast?.bind Waiter.outcome
  | .resume i =>
    match w.waiters[i]? with
    | some (.drain _) => ((resume w i).bind (·.waiters[i]?)).bind Waiter.outcome
    | _ => none
  | _ => none

/-- The flush task whose error a step raises, in a `drain()` or a `wait_closed()`. -/
def tells (w : Writer) : Label → Option ℕ
  | .drain => if drained w .drain = some .raised then some w.past.length else none
  | .resume i =>
    match w.waiters[i]? with
    | some (.drain n) => if drained w (.resume i) = some .raised then some n else none
    -- `_finish` awaits the flush task first, and raises what that raised
    | some (.wait_closed false) =>
      if w.closing = some (.ended .raised) ∧ w.task = some (.ended .raised) then
        some w.past.length
      else none
    | _ => none
  | _ => none

/-- The ledger after a step: the flush tasks that had a failed send, without those
whose error was raised since. -/
def settle (w : Writer) (l : Label) (owed : List ℕ) : List ℕ :=
  match l with
  | .send_done false => owed ++ [w.past.length]
  | l => owed.filter fun n => tells w l ≠ some n

/-- The writer with its ledger. -/
abbrev books : Writer × List ℕ → Label → Option (Writer × List ℕ) := recorded step settle

/-- While an error is owed, a `drain()` that ends in the step raises one. -/
def shows (s : Writer × List ℕ) (l : Label) : Bool :=
  s.2 = [] || (drained s.1 l).all (· = .raised)

/-- Nobody cancels a waiting coroutine or a background task. -/
def Label.uncancelled : Label → Bool
  | .cancel _ | .cancel_task | .cancel_closing => false
  | _ => true

/-- A new flush task does not come in the place of one whose error is owed, or of one
that a `drain()` still waits for (unless that one is going to raise). -/
def replaces_told (s : Writer × List ℕ) : Bool :=
  s.1.closing.isSome ||
    match s.1.task with
    | some (.ended .raised) => s.2 = []
    | some (.ended _) => Waiter.drain s.1.past.length ∉ s.1.waiters
    | _ => true

/-- Neither is an error put aside, nor is the writer drained before the flush task has
been told of the error. -/
def keeps (s : Writer × List ℕ) : Label → Bool
  | .write _ => replaces_told s
  | .writelines ds => ds = [] || replaces_told s
  | .drain =>
    match s.1.task with
    | some (.sent _ .raised) => s.1.high_water < s.1.queued
    | _ => true
  | _ => true

/-- A `drain` that does not wait ends at once, well unless the flush task has failed. -/
theorem drained_drain (w : Writer) :
    drained w .drain = match w.task with
      | none => some .ok
      | some t => if t.done = false ∧ w.queued > w.high_water then none
        else some (if t = .ended .raised then .raised else .ok) := by
  simp only [drained, drain]
  cases w.task with
  | none => simp [Waiter.outcome]
  | some t =>
      dsimp only
      split <;> simp [Waiter.outcome]

/-- One that waited ends as the task did that it waited for. -/
theorem drained_resume {w : Writer} {i n : ℕ} (h : w.waiters[i]? = some (.drain n)) :
    drained w (.resume i) = task_outcome w n := by
  have hlt : i < w.waiters.length := (List.getElem?_eq_some_iff.1 h).1
  simp only [drained, h, resume]
  cases task_outcome w n with
  | none => rfl
  | some r => simp [Waiter.outcome, hlt]

/-- A `drain()` raises the error of the flush task in place only if that one has failed. -/
theorem task_of_tells {w : Writer} {l : Label} (h : tells w l = some w.past.length) :
    w.task = some (.ended .raised) := by
  unfold tells at h
  split at h
  · rw [Option.ite_none_right_eq_some] at h
    rw [drained_drain] at h
    have hd := h.1
    split at hd
    · cases hd
    · rename_i t ht
      split at hd
      · cases hd
      · rw [Option.some.injEq] at hd
        by_cases hr : t = .ended .raised
        · rw [ht, hr]
        · rw [if_neg hr] at hd
          cases hd
  · split at h
    · rename_i n hget
      rw [Option.ite_none_right_eq_some, Option.some.injEq] at h
      obtain ⟨hd, rfl⟩ := h
      rw [drained_resume hget, task_outcome, if_neg (Nat.lt_irrefl _)] at hd
      split at hd
      · rename_i r ht
        rw [ht]
        cases hd
        rfl
      · cases hd
    · rw [Option.ite_none_right_eq_some] at h
      exact h.1.2
    · cases h
  · cases h

/-- A step that neither fails a send nor raises an error leaves the ledger alone. -/
theorem settle_of_silent {w : Writer} {l : Label} (hl : l ≠ .send_done false)
    (ht : tells w l = none) (owed : List ℕ) : settle w l owed = owed := by
  unfold settle
  split
  · exact absurd rfl hl
  · rw [ht]
    simp

/-- Only a failed send adds to the ledger. -/
theorem settle_subset {w : Writer} {l : Label} (hl : l ≠ .send_done false) (owed : List ℕ) :
    settle w l owed ⊆ owed := by
  unfold settle
  split
  · exact absurd rfl hl
  · exact List.filter_subset_self _

/-! ### While the errors are kept -/

/-- Neither told to cancel its send, nor ended by a cancellation. -/
def Flush.plain : Flush → Bool
  | .sent _ .cancelled | .ended .cancelled => false
  | _ => true

/-- An error is owed only while the flush task that has it is in place, and a `drain()`
waits for the task in place, or for one that has failed. -/
structure Kept (s : Writer × List ℕ) : Prop where
  unmarked : s.1.task_must_cancel = false
  plain : ∀ t, s.1.task = some t → t.plain = true
  owed : s.2 ≠ [] → s.1.task = some (.ended .raised) ∨ ∃ d, s.1.task = some (.sent d .raised)
  failed : ∀ d, s.1.task = some (.sent d .raised) → s.1.past.length ∈ s.2
  waiting : ∀ n, .drain n ∈ s.1.waiters → n = s.1.past.length ∨ s.1.past[n]? = some .raised

/-- Nothing is owed by a new writer. -/
theorem Kept.init (hw : ℤ) : Kept (init hw, []) :=
  ⟨rfl, by simp [StreamWriter.init], by simp, by simp [StreamWriter.init],
    by simp [StreamWriter.init]⟩

/-- With a task in place that has not failed, nothing is owed. -/
theorem Kept.owed_eq_nil {s : Writer × List ℕ} (hs : Kept s)
    (he : s.1.task ≠ some (.ended .raised)) (hd : ∀ d, s.1.task ≠ some (.sent d .raised)) :
    s.2 = [] := by
  by_contra hne
  rcases hs.owed hne with h | ⟨d, h⟩
  · exact he h
  · exact hd d h

/-- What `write` does to the flush task: it replaces one that is done, or leaves it. -/
theorem write_task {w w' : Writer} {d : Data} (h : write w d = some w') :
    w'.waiters = w.waiters ∧
      ((∃ r, w.task = some (.ended r) ∧ w'.task = some .start ∧ w'.past = w.past ++ [r]
          ∧ w'.task_must_cancel = false)
        ∨ (w.task = none ∧ w'.task = some .start ∧ w'.past = w.past
          ∧ w'.task_must_cancel = w.task_must_cancel)
        ∨ (∃ t, w.task = some t ∧ t.done = false ∧ w'.task = some t ∧ w'.past = w.past
          ∧ w'.task_must_cancel = w.task_must_cancel)) := by
  have hc := closing_of_write h
  simp only [write, hc, Option.isSome_none, Bool.false_eq_true, if_false] at h
  split at h
  · rename_i ht
    cases h
    exact ⟨rfl, .inr (.inl ⟨ht, rfl, rfl, rfl⟩)⟩
  · rename_i r ht
    cases h
    exact ⟨rfl, .inl ⟨r, ht, rfl, rfl, rfl⟩⟩
  · rename_i t hne ht
    cases h
    refine ⟨rfl, .inr (.inr ⟨t, ht, ?_, ht, rfl, rfl⟩)⟩
    cases t with
    | ended r => exact absurd rfl (hne r)
    | start | sending _ | sent _ _ => rfl

/-- A `write` that replaces no flush task whose error is owed keeps this, and another one may
follow. -/
theorem write_kept {w w' : Writer} {d : Data} {owed : List ℕ} (hs : Kept (w, owed))
    (hr : replaces_told (w, owed) = true) (h : write w d = some w') :
    Kept (w', owed) ∧ replaces_told (w', owed) = true := by
  have hc := closing_of_write h
  obtain ⟨hw, ⟨r, ht, ht', hp, hm⟩ | ⟨ht, ht', hp, hm⟩ | ⟨t, ht, htd, ht', hp, hm⟩⟩ := write_task h
  · simp only [replaces_told, hc, Option.isSome_none, Bool.false_or, ht] at hr
    have hnil : owed = [] := by
      cases r with
      | raised => simpa using hr
      | ok | cancelled => exact hs.owed_eq_nil (by simp [ht]) (by simp [ht])
    subst hnil
    refine ⟨⟨hm, ?_, by simp, by simp [ht'], fun n hn => .inr ?_⟩, by simp [replaces_told, ht']⟩
    · intro t h
      rw [ht', Option.some.injEq] at h
      rw [← h]
      rfl
    -- a `drain()` that waits for the old task is going to raise
    · rw [hw] at hn
      rw [hp]
      rcases hs.waiting n hn with rfl | hpast
      · cases r with
        | raised => simp
        | ok | cancelled => simp [hn] at hr
      · have hlt : n < w.past.length := (List.getElem?_eq_some_iff.1 hpast).1
        rw [List.getElem?_append_left hlt]
        exact hpast
  · have hnil : owed = [] := hs.owed_eq_nil (by simp [ht]) (by simp [ht])
    subst hnil
    refine ⟨⟨hm.trans hs.unmarked, ?_, by simp, by simp [ht'], ?_⟩, by simp [replaces_told, ht']⟩
    · intro t h
      rw [ht', Option.some.injEq] at h
      rw [← h]
      rfl
    · rw [hw, hp]
      exact hs.waiting
  · refine ⟨⟨hm.trans hs.unmarked, ?_, ?_, ?_, ?_⟩, ?_⟩
    · rw [ht', ← ht]
      exact hs.plain
    · rw [ht', ← ht]
      exact hs.owed
    · rw [ht', ← ht, hp]
      exact hs.failed
    · rw [hw, hp]
      exact hs.waiting
    · cases t with
      | ended r => cases htd
      | start | sending _ | sent _ _ => simp [replaces_told, ht']

/-- By induction on the list: the condition on the first `write` carries over to the next. -/
theorem writelines_kept {w : Writer} {ds : List Data} {owed : List ℕ} (hs : Kept (w, owed))
    (hr : replaces_told (w, owed) = true) : Kept (writelines w ds, owed) := by
  have hall := writelines_keeps (P := fun w => Kept (w, owed) ∧ replaces_told (w, owed) = true)
    (fun h hw => write_kept h.1 h.2 hw) ⟨hs, hr⟩ ds
  exact hall.1

/-- A flush task that goes on with the loop has not failed, and then nothing is owed. -/
theorem flush_loop_kept {w : Writer} (hm : w.task_must_cancel = false)
    (hw : ∀ n, .drain n ∈ w.waiters → n = w.past.length ∨ w.past[n]? = some .raised) :
    Kept (flush_loop w, []) := by
  unfold flush_loop
  split
  · refine ⟨hm, ?_, by simp, by simp, hw⟩
    rintro t ⟨⟩
    rfl
  · refine ⟨hm, ?_, by simp, by simp, hw⟩
    rintro t ⟨⟩
    rfl

/-- A flush task that is told of the error of its send ends with it, and stays in place. -/
theorem run_flush_kept {w w' : Writer} {owed : List ℕ} (hs : Kept (w, owed))
    (h : run_flush w = some w') : Kept (w', owed) := by
  have hm : w.task_must_cancel = false := hs.unmarked
  unfold run_flush at h
  split at h
  · rename_i ht
    rw [hm, if_neg (by simp), Option.some.injEq] at h
    have hnil : owed = [] := hs.owed_eq_nil (by simp [ht]) (by simp [ht])
    rw [← h, hnil]
    exact flush_loop_kept hm hs.waiting
  · rename_i d r ht
    dsimp only at h
    rw [hm, if_neg (by simp)] at h
    cases r with
    | ok =>
        rw [Option.some.injEq] at h
        have hnil : owed = [] := hs.owed_eq_nil (by simp [ht]) (by simp [ht])
        rw [← h, hnil]
        exact flush_loop_kept rfl hs.waiting
    | raised =>
        rw [Option.some.injEq] at h
        subst h
        refine ⟨rfl, ?_, fun _ => .inl rfl, by simp, hs.waiting⟩
        rintro t ⟨⟩
        rfl
    | cancelled => exact absurd (hs.plain _ ht) (by simp [Flush.plain])
  · cases h

/-- A send that fails is entered under the task in place, which is the one to raise it. -/
theorem send_done_kept {w w' : Writer} {ok : Bool} {owed : List ℕ} (hs : Kept (w, owed))
    (h : send_done w ok = some w') : Kept (w', settle w (.send_done ok) owed) := by
  unfold send_done at h
  split at h
  · rename_i d ht
    cases h
    have hnil : owed = [] := hs.owed_eq_nil (by simp [ht]) (by simp [ht])
    subst hnil
    cases ok with
    | true =>
        refine ⟨hs.unmarked, ?_, by simp [settle], by simp, hs.waiting⟩
        rintro t ⟨⟩
        rfl
    | false =>
        refine ⟨hs.unmarked, ?_, fun _ => .inr ⟨d, rfl⟩, by simp [settle], hs.waiting⟩
        rintro t ⟨⟩
        rfl
  · cases h

/-- One step that keeps the errors. -/
theorem step_kept {s s' : Writer × List ℕ} {l : Label} (hs : Kept s) (hu : l.uncancelled = true)
    (hk : keeps s l = true) (h : books s l = some s') : Kept s' := by
  obtain ⟨w, owed⟩ := s
  obtain ⟨w', owed'⟩ := s'
  obtain ⟨hstep, rfl⟩ := (recorded_eq_some step settle).1 h
  cases step_sends hstep with
  | write hw =>
      rw [settle_of_silent (by simp) rfl]
      exact (write_kept hs hk hw).1
  | writelines ds =>
      rw [settle_of_silent (by simp) rfl]
      simp only [keeps, Bool.or_eq_true, decide_eq_true_eq] at hk
      rcases hk with rfl | hk
      · exact hs
      · exact writelines_kept hs hk
  | flush hf =>
      rw [settle_of_silent (by simp) rfl]
      exact run_flush_kept hs hf
  | sent hsent => exact send_done_kept hs hsent
  | cancelled hl => rcases hl with rfl | rfl | ⟨i, rfl⟩ <;> cases hu
  | refused _ =>
      rw [settle_of_silent (by simp) rfl]
      exact hs
  | aside ha _ _ hsd _ =>
      have hsub := settle_subset (w := w) (hsd false) owed
      refine ⟨ha.mark.trans hs.unmarked, ?_, fun hne => ?_, fun d hd => ?_, fun n hn => ?_⟩
      · rw [ha.task]
        exact hs.plain
      · rw [ha.task]
        refine hs.owed fun hnil => hne ?_
        exact List.subset_nil.1 (hnil ▸ hsub)
      -- nobody is told of an error before the flush task is
      · rw [ha.task] at hd
        rw [ha.past]
        have hmem := hs.failed d hd
        unfold settle
        split
        · exact absurd rfl (hsd false)
        · refine List.mem_filter.2 ⟨hmem, ?_⟩
          rw [decide_eq_true_eq]
          intro htell
          have := task_of_tells htell
          rw [hd] at this
          cases this
      · rw [ha.past]
        rcases ha.waits n hn with hn | rfl
        · exact hs.waiting n hn
        · exact .inl rfl

/-- A `drain()` that ends shows what is owed. -/
theorem Kept.shows {s : Writer × List ℕ} {l : Label} (hs : Kept s) (hk : keeps s l = true) :
    shows s l = true := by
  unfold StreamWriter.shows
  by_cases hne : s.2 = []
  · simp [hne]
  rw [Bool.or_eq_true]
  refine .inr ?_
  rw [Option.all_eq_true]
  intro r hr
  rw [decide_eq_true_eq]
  cases l with
  | drain =>
      rw [drained_drain] at hr
      rcases hs.owed hne with ht | ⟨d, ht⟩
      · simpa [ht, Flush.done] using hr.symm
      · simp only [keeps, ht, decide_eq_true_eq] at hk
        simp [ht, Flush.done, hk] at hr
  | resume i =>
      cases hget : s.1.waiters[i]? with
      | none => simp [drained, hget] at hr
      | some x =>
          cases x with
          | drain n =>
              rw [drained_resume hget, task_outcome] at hr
              rcases hs.waiting n (List.mem_of_getElem? hget) with rfl | hpast
              · rw [if_neg (Nat.lt_irrefl _)] at hr
                rcases hs.owed hne with ht | ⟨d, ht⟩
                · simpa [ht] using hr.symm
                · simp [ht] at hr
              · rw [if_pos (List.getElem?_eq_some_iff.1 hpast).1, hpast, Option.some.injEq] at hr
                exact hr.symm
          | _ => simp [drained, hget] at hr
  | _ => simp [drained] at hr

/-! ### An error that is put aside is hidden by some `drain()` -/

/-- A step that neither fails a send nor raises an error goes on with the same ledger. -/
theorem books_of_silent {w w' : Writer} {l : Label} {owed : List ℕ} (h : step w l = some w')
    (hl : l ≠ .send_done false) (ht : tells w l = none) :
    books (w, owed) l = some (w', owed) :=
  (recorded_eq_some step settle).2 ⟨h, (settle_of_silent hl ht owed).symm⟩

/-- A run with a `drain()` that hides an error. -/
structure Hides (s : Writer × List ℕ) (ls : List Label) : Prop where
  uncancelled : ∀ l ∈ ls, l.uncancelled = true
  runs : (run books s ls).isSome = true
  hides : ¬ Meets books (fun s l => shows s l = true) s ls

/-- What hides an error later in a run hides it from before. -/
theorem Hides.of_run {s t : Writer × List ℕ} {pre ls : List Label}
    (hu : ∀ l ∈ pre, l.uncancelled = true) (h : run books s pre = some t) (ht : Hides t ls) :
    Hides s (pre ++ ls) := by
  obtain ⟨u, hu'⟩ := Option.isSome_iff_exists.1 ht.runs
  refine ⟨List.forall_mem_append.2 ⟨hu, ht.uncancelled⟩, ?_, fun hm => ht.hides (hm.of_append _ h)⟩
  rw [run_append books h hu']
  rfl

/-- The step itself hides one. -/
theorem Hides.of_step {s t : Writer × List ℕ} {l : Label} (hu : l.uncancelled = true)
    (h : books s l = some t) (hs : shows s l = false) : Hides s [l] := by
  refine ⟨by simpa using hu, ?_, fun hm => ?_⟩
  · rw [(run_cons_eq_some books).2 ⟨t, h, rfl⟩]
    rfl
  · rw [hm.1] at hs
    cases hs

/-- One step on, which tells nobody anything. -/
theorem Hides.cons {w w' : Writer} {l : Label} {owed : List ℕ} {ls : List Label}
    (hu : l.uncancelled = true) (hl : l ≠ .send_done false) (ht : tells w l = none)
    (h : step w l = some w') (hw : Hides (w', owed) ls) : Hides (w, owed) (l :: ls) := by
  have hrun : run books (w, owed) [l] = some (w', owed) :=
    (run_cons_eq_some books).2 ⟨_, books_of_silent h hl ht, rfl⟩
  exact .of_run (by simpa using hu) hrun hw

/-- A `drain()` finds nothing wrong with a flush task that succeeded. -/
theorem hides_of_succeeded {w : Writer} {owed : List ℕ} (ht : w.task = some (.ended .ok))
    (howed : owed ≠ []) : Hides (w, owed) [.drain] := by
  have hdrain : books (w, owed) .drain = some (drain w, settle w .drain owed) := rfl
  refine .of_step rfl hdrain ?_
  simp [shows, howed, drained_drain, ht, Flush.done]

/-- The flush task in place of the failed one may succeed. -/
theorem hides_of_replaced {w : Writer} {owed : List ℕ} (ht : w.task = some .start)
    (hm : w.task_must_cancel = false) (howed : owed ≠ []) : ∃ ls, Hides (w, owed) ls := by
  have hflush : step w .run_flush = some (flush_loop w) := by simp [step, run_flush, ht, hm]
  by_cases hb : w.buf = []
  · refine ⟨[.run_flush, .drain], .cons rfl (by simp) rfl hflush (hides_of_succeeded ?_ howed)⟩
    simp [flush_loop, hb]
  · have hsent : step (flush_loop w) (.send_done true) = some { flush_loop w with
        task := some (.sent w.buf .ok), log := (flush_loop w).log ++ [.wrote w.buf .ok] } := by
      simp [step, send_done, flush_loop, hb]
    have hend : step { flush_loop w with
        task := some (.sent w.buf .ok), log := (flush_loop w).log ++ [.wrote w.buf .ok] }
        .run_flush = some { flush_loop w with
          queued := w.queued - w.buf.length, task := some (.ended .ok)
          log := (flush_loop w).log ++ [.wrote w.buf .ok] } := by
      simp [step, run_flush, flush_loop, hb, hm]
    refine ⟨[.run_flush, .send_done true, .run_flush, .drain], ?_⟩
    refine .cons rfl (by simp) rfl hflush (.cons rfl (by simp) rfl hsent ?_)
    exact .cons rfl (by simp) rfl hend (hides_of_succeeded rfl howed)

/-- A `drain()` that waits for a replaced task which has not failed does not hear of a
later failure. -/
theorem hides_of_waiting {w : Writer} {owed : List ℕ} {i n : ℕ} {r : Outcome}
    (ht : w.task = some .start) (hm : w.task_must_cancel = false) (hc : w.closing = none)
    (hi : w.waiters[i]? = some (.drain n)) (hn : w.past[n]? = some r) (hr : r ≠ .raised) :
    ∃ ls, Hides (w, owed) ls := by
  have hlt : n < w.past.length := (List.getElem?_eq_some_iff.1 hn).1
  -- one more byte, so that there is something to send, and a send that fails
  obtain ⟨w₁, hw₁⟩ := exists_write hc (.ofBytes [0])
  have hb₁ : w₁.buf = w.buf ++ [0] := (write_adds hw₁).2.2.1
  obtain ⟨hi₁, ⟨r', ht', -⟩ | ⟨ht', -⟩ | ⟨t, ht', -, ht₁, hp₁, hm₁⟩⟩ := write_task hw₁
  · rw [ht] at ht'
    cases ht'
  · rw [ht] at ht'
    cases ht'
  rw [ht, Option.some.injEq] at ht'
  rw [← ht'] at ht₁
  rw [hm] at hm₁
  obtain ⟨w₂, hw₂, ht₂, hi₂, hp₂⟩ : ∃ w₂, step w₁ .run_flush = some w₂
      ∧ w₂.task = some (.sending (w.buf ++ [0])) ∧ w₂.waiters = w.waiters ∧ w₂.past = w.past := by
    refine ⟨flush_loop w₁, by simp [step, run_flush, ht₁, hm₁], ?_, ?_, ?_⟩ <;>
      simp [flush_loop, hb₁, hi₁, hp₁]
  obtain ⟨w₃, hw₃, hi₃, hp₃⟩ : ∃ w₃, step w₂ (.send_done false) = some w₃
      ∧ w₃.waiters = w.waiters ∧ w₃.past = w.past :=
    ⟨{ w₂ with
      task := some (.sent (w.buf ++ [0]) .raised)
      log := w₂.log ++ [.wrote (w.buf ++ [0]) .raised] },
      by simp [step, send_done, ht₂], hi₂, hp₂⟩
  have hfail : run books (w₂, owed) [.send_done false] = some (w₃, owed ++ [w₂.past.length]) :=
    (run_cons_eq_some books).2 ⟨_, (recorded_eq_some step settle).2 ⟨hw₃, rfl⟩, rfl⟩
  have hout : task_outcome w₃ n = some r := by rw [task_outcome, hp₃, if_pos hlt, hn]
  have hget : w₃.waiters[i]? = some (.drain n) := by rw [hi₃, hi]
  have hres : step w₃ (.resume i) = some { w₃ with waiters := w₃.waiters.set i (.over r) } := by
    simp [step, resume, hget, hout]
  have hbook : books (w₃, owed ++ [w₂.past.length]) (.resume i)
      = some ({ w₃ with waiters := w₃.waiters.set i (.over r) },
        settle w₃ (.resume i) (owed ++ [w₂.past.length])) :=
    (recorded_eq_some step settle).2 ⟨hres, rfl⟩
  have hlast : Hides (w₃, owed ++ [w₂.past.length]) [.resume i] := by
    refine .of_step rfl hbook ?_
    simp [shows, drained_resume hget, hout, hr]
  refine ⟨.write (.ofBytes [0]) :: .run_flush :: ([.send_done false] ++ [.resume i]), ?_⟩
  refine .cons rfl (by simp) rfl (by simp [step, hw₁]) (.cons rfl (by simp) rfl hw₂ ?_)
  exact .of_run (by simp [Label.uncancelled]) hfail hlast

/-- A flush task that was done is replaced, by one or more writes. -/
structure Replaced (w : Writer) (r : Outcome) (w' : Writer) : Prop where
  closing : w'.closing = none
  task : w'.task = some .start
  mark : w'.task_must_cancel = false
  past : w'.past = w.past ++ [r]
  waiters : w'.waiters = w.waiters

/-- A `write` that is accepted replaces a flush task that is done, -/
theorem write_replaced {w w' : Writer} {d : Data} {r : Outcome} (ht : w.task = some (.ended r))
    (h : write w d = some w') : Replaced w r w' := by
  have hc := (write_adds h).1
  obtain ⟨hw, ⟨r', ht', hs, hp, hm⟩ | ⟨ht', -⟩ | ⟨t, ht', htd, -⟩⟩ := write_task h
  · rw [ht, Option.some.injEq, Flush.ended.injEq] at ht'
    exact ⟨hc, hs, hm, ht' ▸ hp, hw⟩
  · rw [ht] at ht'
    cases ht'
  · rw [ht, Option.some.injEq] at ht'
    rw [← ht'] at htd
    cases htd

/-- and so does a `writelines` of at least one argument: its first `write` does, the others
find the new task. -/
theorem writelines_replaced {w : Writer} {ds : List Data} {r : Outcome} (hc : w.closing = none)
    (ht : w.task = some (.ended r)) (hds : ds ≠ []) : Replaced w r (writelines w ds) := by
  -- the first one replaces the task, the others find it
  have hrest : ∀ {v v' : Writer} {d : Data}, Replaced w r v → write v d = some v' →
      Replaced w r v' := by
    intro v v' d hv h
    obtain ⟨hw, ⟨r', ht', -⟩ | ⟨ht', -⟩ | ⟨t, ht', -, hs, hp, hm⟩⟩ := write_task h
    · rw [hv.task] at ht'
      cases ht'
    · rw [hv.task] at ht'
      cases ht'
    · exact ⟨(write_adds h).1, hs.trans (ht'.symm.trans hv.task), hm.trans hv.mark,
        hp.trans hv.past, hw.trans hv.waiters⟩
  cases ds with
  | nil => exact absurd rfl hds
  | cons d ds =>
      obtain ⟨w', h⟩ := exists_write hc d
      simp only [writelines, h]
      exact writelines_keeps hrest (write_replaced ht h) ds

/-- Some run that begins with the step has a `drain()` that hides an error. -/
theorem hides_of_replaces {s : Writer × List ℕ} {w' : Writer} {l : Label} {r : Outcome}
    (hs : Kept s) (hu : l.uncancelled = true) (hl : l ≠ .send_done false)
    (htell : tells s.1 l = none) (hstep : step s.1 l = some w') (ht : s.1.task = some (.ended r))
    (hrep : Replaced s.1 r w') (htold : replaces_told s = false) : ∃ ms, Hides s (l :: ms) := by
  have hnext : ∃ ms, Hides (w', s.2) ms := by
    simp only [replaces_told, Bool.or_eq_false_iff, ht] at htold
    cases r with
    | raised => exact hides_of_replaced hrep.task hrep.mark (by simpa using htold.2)
    | cancelled => exact absurd (hs.plain _ ht) (by simp [Flush.plain])
    | ok =>
        have hmem : Waiter.drain s.1.past.length ∈ s.1.waiters := by simpa using htold.2
        obtain ⟨i, hi⟩ := List.mem_iff_getElem?.1 hmem
        refine hides_of_waiting hrep.task hrep.mark hrep.closing (hrep.waiters ▸ hi) ?_
          (by simp : Outcome.ok ≠ .raised)
        rw [hrep.past]
        simp
  obtain ⟨ms, hms⟩ := hnext
  exact ⟨ms, .cons hu hl htell hstep hms⟩

/-- **A step that does not keep an error** leads to a `drain()` that hides one. -/
theorem hides_of_not_keeps {s : Writer × List ℕ} {l : Label} (hs : Kept s)
    (hk : keeps s l = false) : ∃ ms, Hides s (l :: ms) := by
  have hdone : replaces_told s = false → s.1.closing = none ∧ ∃ r, s.1.task = some (.ended r) := by
    intro h
    simp only [replaces_told, Bool.or_eq_false_iff, Option.isSome_eq_false_iff,
      Option.isNone_iff_eq_none] at h
    refine ⟨h.1, ?_⟩
    have := h.2
    split at this
    · exact ⟨_, ‹_›⟩
    · exact ⟨_, ‹_›⟩
    · cases this
  cases l with
  | write d =>
      obtain ⟨hc, r, ht⟩ := hdone hk
      obtain ⟨w', h⟩ := exists_write hc d
      exact hides_of_replaces hs rfl (by simp) rfl (by simp [step, h]) ht (write_replaced ht h) hk
  | writelines ds =>
      simp only [keeps, Bool.or_eq_false_iff, decide_eq_false_iff_not] at hk
      obtain ⟨hc, r, ht⟩ := hdone hk.2
      exact hides_of_replaces hs rfl (by simp) rfl rfl ht (writelines_replaced hc ht hk.1) hk.2
  | drain =>
      simp only [keeps] at hk
      split at hk
      · rename_i d ht
        have hne : s.2 ≠ [] := fun hnil => by
          have := hs.failed d ht
          rw [hnil] at this
          cases this
        have hstep : books s .drain = some (drain s.1, settle s.1 .drain s.2) := rfl
        refine ⟨[], .of_step rfl hstep ?_⟩
        rw [decide_eq_false_iff_not] at hk
        simp [shows, hne, drained_drain, ht, hk]
      · cases hk
  | _ => cases hk

/-- **When `drain()` shows a failed send.** In every run of writes and drains whose
steps all keep the errors, a `drain()` that ends while the error of a failed send has
not been raised raises one. And a step that does not keep them (a flush task replaced
with its error owed, or with a `drain()` waiting for it that is not going to raise; a
`drain()` with room in the queue before the flush task was told) leads to a `drain()`
that returns normally instead. -/
theorem drain_shows_failures {hw : ℤ} {ls : List Label} {w : Writer}
    (h : run step (init hw) ls = some w) (hu : ∀ l ∈ ls, l.uncancelled = true)
    (hk : Meets books (fun s l => keeps s l = true) (init hw, []) ls) :
    Meets books (fun s l => shows s l = true) (init hw, []) ls
    ∧ ∃ owed, run books (init hw, []) ls = some (w, owed)
      ∧ ∀ l, keeps (w, owed) l = false → ∃ ms, Hides (w, owed) (l :: ms) := by
  have hboth := (meets_of_forall books hu (init hw, [])).and books hk
  have hstep : ∀ s l s', Kept s → l.uncancelled = true ∧ keeps s l = true →
      books s l = some s' → Kept s' := fun s l s' hs hc => step_kept hs hc.1 hc.2
  obtain ⟨owed, hrun⟩ := exists_run_recorded step settle h []
  refine ⟨hboth.imp_of_inv books hstep (fun s l hs hc => hs.shows hc.2) (.init hw), owed, hrun, ?_⟩
  intro l hl
  exact hides_of_not_keeps (meets_inv books hstep (.init hw) hboth hrun) hl

/-- A write after the error of the failed one was raised, and one more send. -/
def told_and_restarted : List Label :=
  [.write (.ofBytes [97]), .run_flush, .send_done false, .run_flush, .drain,
    .write (.ofBytes [98]), .run_flush, .send_done true, .run_flush, .drain]

/-- The hypothesis can be met: an error is raised in a `drain`, and a new flush task comes
after that. -/
theorem drain_shows_failures_restarted :
    ∃ w, run step (init 65536) told_and_restarted = some w
      ∧ w.waiters = [.over .raised, .over .ok]
      ∧ Meets books (fun s l => shows s l = true) (init 65536, []) told_and_restarted
      ∧ ∃ owed, run books (init 65536, []) told_and_restarted = some (w, owed)
        ∧ ∀ l, keeps (w, owed) l = false → ∃ ms, Hides (w, owed) (l :: ms) :=
  ⟨_, rfl, rfl, @drain_shows_failures 65536 told_and_restarted _ rfl (by decide) (by decide)⟩

/-- The send of the first byte fails; a second write starts a new flush task, and the
`drain()` after it returns normally. Nobody ever gets the error. -/
theorem write_hides_failure :
    ∃ w, run books (init 65536, []) [.write (.ofBytes [97]), .run_flush, .send_done false,
        .run_flush, .write (.ofBytes [98]), .drain] = some (w, [0])
      ∧ .wrote [97] .raised ∈ w.log ∧ w.waiters = [.over .ok] :=
  ⟨_, rfl, by decide, rfl⟩

end ZmuxPy.StreamWriter
