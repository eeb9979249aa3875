/-
`future_into_py` (`src/rt.rs`) and a read bridged by it (`RecvStream::read`,
`src/lib.rs`).

`future_into_py` runs a Rust future on the runtime behind an asyncio future.
Three schedulers take part: a runtime worker polls the task's biased `select!`
(the cancel channel first, then the future), a thread of the blocking pool
posts the result to the loop, and the event loop runs `Complete`, which sets
the result unless the future is done already, and `OnCancel`, which reports a
cancellation to the runtime task. Each of these is a step of its own below.

A read holds the stream's part (a fair lock) from its first poll until it
completes or is dropped, and consumes bytes of the native stream only in the
poll that returns them. So a read that is dropped while pending loses nothing.
What does lose bytes is the way from that poll to the asyncio future: a result
that finds its future cancelled is discarded by `Complete`, and nobody puts the
bytes back. `read_loses_nothing_iff` says when exactly that happens.
-/
import Mathlib.Data.List.Flatten
import ZmuxPy.Asyncio
import ZmuxPy.FairLock
import ZmuxPy.Machine
import ZmuxPy.Parties

set_option autoImplicit false

namespace ZmuxPy.FutureIntoPy

open Machine Parties FairLock Asyncio

/-! ## The bridge -/

/-- An asyncio future that only `Complete` sets and anyone may cancel. -/
inductive Target (ρ : Type) where
  | pending
  | cancelled
  | set (r : ρ)
  deriving DecidableEq, Repr

/-- The `OnCancel` done callback: waiting for the future to be done, in the
loop's queue, or run (and its object dropped). -/
inductive Callback where
  | registered
  | scheduled
  | ran
  deriving DecidableEq, Repr

/-- The cancel channel as the runtime task sees it. A sender dropped unsent
closes it, which resolves `cancel_rx` just as a message does. -/
inductive Oneshot where
  | empty
  | sent
  | closed
  deriving DecidableEq, Repr

/-- The runtime task: in its `select!`, with its result handed to the blocking
pool, with `Complete` posted to the loop, or over. -/
inductive Task (ρ : Type) where
  | select
  | blocking (r : ρ)
  | posted (r : ρ)
  | ended
  deriving DecidableEq, Repr

/-- One call of `future_into_py`. -/
structure Bridge (ρ : Type) where
  target : Target ρ
  on_cancel : Callback
  cancel : Oneshot
  task : Task ρ
  deriving DecidableEq, Repr

namespace Bridge

variable {ρ : Type}

/-- The callback is registered, and the task is in its `select!`. -/
def new : Bridge ρ :=
  { target := .pending, on_cancel := .registered, cancel := .empty, task := .select }

/-- `asyncio.Future.cancel()`: schedules the done callbacks; no effect on a
future that is done. -/
def cancel_future (b : Bridge ρ) : Bridge ρ :=
  match b.target with
  | .pending => { b with target := .cancelled, on_cancel := .scheduled }
  | _ => b

/-- `OnCancel.__call__`, after which the callback and its sender are dropped. -/
def run_on_cancel (b : Bridge ρ) : Option (Bridge ρ) :=
  match b.on_cancel with
  | .scheduled =>
    match b.target with
    | .cancelled => some { b with on_cancel := .ran, cancel := .sent }
    -- `fut.cancelled()` is false: the sender is dropped with the callback, unsent
    | _ => some { b with on_cancel := .ran, cancel := .closed }
  | _ => none

/-- The runtime task left its `select!` with the future's result. -/
def ready (b : Bridge ρ) (r : ρ) : Bridge ρ := { b with task := .blocking r }

/-- The `spawn_blocking` closure: `call_soon_threadsafe(Complete, ..)`. -/
def post (b : Bridge ρ) : Option (Bridge ρ) :=
  match b.task with
  | .blocking r => some { b with task := .posted r }
  | _ => none

/-- `Complete.__call__`: nothing if the future is done already. -/
def complete (b : Bridge ρ) : Option (Bridge ρ) :=
  match b.task with
  | .posted r =>
    match b.target with
    -- setting the result schedules the done callbacks too
    | .pending => some { b with task := .ended, target := .set r, on_cancel := .scheduled }
    -- the future is done already: the result goes away with `Complete`
    | _ => some { b with task := .ended }
  | _ => none

/-- The callback changes the cancel channel only. -/
theorem run_on_cancel_eq_some {b b' : Bridge ρ} (h : b.run_on_cancel = some b') :
    b'.target = b.target ∧ b'.task = b.task := by
  unfold run_on_cancel at h
  split at h
  · split at h <;> cases h <;> exact ⟨rfl, rfl⟩
  · cases h

/-- The blocking pool moves the result on. -/
theorem post_eq_some {b b' : Bridge ρ} (h : b.post = some b') :
    ∃ r, b.task = .blocking r ∧ b' = { b with task := .posted r } := by
  unfold post at h
  split at h
  · rename_i r hr
    cases h
    exact ⟨r, hr, rfl⟩
  · cases h

/-- `Complete` sets the result, or drops it. -/
theorem complete_eq_some {b b' : Bridge ρ} (h : b.complete = some b') :
    ∃ r, b.task = .posted r
      ∧ (b.target = .pending
          ∧ b' = { b with task := .ended, target := .set r, on_cancel := .scheduled }
        ∨ b.target ≠ .pending ∧ b' = { b with task := .ended }) := by
  unfold complete at h
  split at h
  · rename_i r hr
    split at h
    · rename_i hp
      cases h
      exact ⟨r, hr, .inl ⟨hp, rfl⟩⟩
    · rename_i hp
      cases h
      exact ⟨r, hr, .inr ⟨hp, rfl⟩⟩
  · cases h

end Bridge

/-! ## Reads of one stream -/

/-- What `RecvStream::read`'s future resolves to. -/
inductive Result where
  | ok (b : Bytes)
  | err
  deriving DecidableEq, Repr

/-- One `RecvStream.read(n)`. -/
structure Call extends Bridge Result where
  n : ℕ
  deriving DecidableEq, Repr

/-- A stream's receiving part, the reads called on it and the history:
`received` is all the stream received, `taken` the native reads in their order,
`returned` the results set on asyncio futures in theirs. -/
structure Recv where
  received : Bytes
  unread : Bytes
  lock : List ℕ
  calls : List Call
  taken : List (ℕ × Bytes)
  returned : List Bytes
  deriving DecidableEq, Repr

/-- What the native `read_chunk` does if it is polled now. -/
inductive Native where
  | pending
  | data (k : ℕ)
  | eof
  | error
  deriving DecidableEq, Repr

/-- What the peer, Python, the loop, the runtime and the blocking pool do. -/
inductive Label where
  /-- Bytes arrive on the stream. -/
  | receive (b : Bytes)
  /-- Python calls `read(n)`. -/
  | read (n : ℕ)
  /-- The asyncio future of a read is cancelled. -/
  | cancel (i : ℕ)
  /-- The loop runs `OnCancel`. -/
  | on_cancel (i : ℕ)
  /-- The runtime polls the task. -/
  | poll (i : ℕ) (native : Native)
  /-- The blocking pool runs the task's closure. -/
  | post (i : ℕ)
  /-- The loop runs `Complete`. -/
  | complete (i : ℕ)
  deriving DecidableEq, Repr

/-- Nothing has arrived, and nobody reads. -/
def init : Recv :=
  { received := [], unread := [], lock := [], calls := [], taken := [], returned := [] }

/-- The read's future: `held(&s).await?.read_chunk(n).await`. `lock` is the
queue with the caller in it; without the lock the future is pending. -/
def poll_read (s : Recv) (i : ℕ) (c : Call) (lock : List ℕ) (native : Native) : Option Recv :=
  if Holds lock i then
    match native with
    | .pending => some { s with lock := lock }
    | .data k =>
      -- at most `n` bytes, and only bytes that have arrived
      if k ≤ c.n ∧ k ≤ s.unread.length then
        some { s with
          lock := leave lock i
          unread := s.unread.drop k
          taken := s.taken ++ [(i, s.unread.take k)]
          calls := s.calls.set i { c with toBridge := c.ready (.ok (s.unread.take k)) } }
      else none
    | .eof =>
      -- the end of the stream comes after all of its bytes
      if s.unread = [] then
        some { s with
          lock := leave lock i
          calls := s.calls.set i { c with toBridge := c.ready (.ok []) } }
      else none
    | .error =>
      some { s with
        lock := leave lock i
        calls := s.calls.set i { c with toBridge := c.ready .err } }
  -- still waiting for the part, with a place in the queue
  else some { s with lock := lock }

/-- One poll of the runtime task: the biased `select!`. Leaving through the
cancel branch drops the future, and with it the place at the lock. -/
def poll (s : Recv) (i : ℕ) (c : Call) (native : Native) : Option Recv :=
  if c.task = .select then
    -- biased: the cancel branch comes first, so the future is polled only without it
    if c.cancel = .empty then poll_read s i c (ask s.lock i) native
    else some { s with
      lock := leave s.lock i
      calls := s.calls.set i { c with task := .ended } }
  else none

/-- What `Complete` sets on the future, if it sets a result. -/
def returned_by (c : Call) : List Bytes :=
  match c.task, c.target with
  | .posted (.ok b), .pending => [b]
  | _, _ => []

/-- One step of the stream. -/
def step (s : Recv) : Label → Option Recv
  | .receive b => some { s with received := s.received ++ b, unread := s.unread ++ b }
  | .read n => some { s with calls := s.calls ++ [{ Bridge.new with n := n }] }
  | .cancel i =>
    (s.calls[i]?).map fun c =>
      { s with calls := s.calls.set i { c with toBridge := c.cancel_future } }
  | .on_cancel i =>
    (s.calls[i]?).bind fun c => c.run_on_cancel.map fun b =>
      { s with calls := s.calls.set i { c with toBridge := b } }
  | .poll i native => (s.calls[i]?).bind fun c => poll s i c native
  | .post i =>
    (s.calls[i]?).bind fun c => c.post.map fun b =>
      { s with calls := s.calls.set i { c with toBridge := b } }
  | .complete i =>
    (s.calls[i]?).bind fun c => c.complete.map fun b =>
      { s with
        calls := s.calls.set i { c with toBridge := b }
        returned := s.returned ++ returned_by c }

/-- Nothing is left to run: no result on its way to the loop, no callback in the
loop's queue, no cancellation a runtime task has not seen. -/
def Quiescent (s : Recv) : Prop :=
  ∀ c ∈ s.calls, c.on_cancel ≠ .scheduled
    ∧ (c.task = .ended ∨ c.task = .select ∧ c.cancel = .empty)

instance Quiescent.decidable (s : Recv) : Decidable (Quiescent s) :=
  inferInstanceAs (Decidable (∀ c ∈ s.calls, c.on_cancel ≠ .scheduled
    ∧ (c.task = .ended ∨ c.task = .select ∧ c.cancel = .empty)))

/-- The asyncio future of a call. -/
def target (s : Recv) (i : ℕ) : Option (Target Result) := (s.calls[i]?).map (·.target)

/-- The bytes of the result a call has returned to Python. -/
def result_of (s : Recv) (i : ℕ) : Bytes :=
  match target s i with
  | some (.set (.ok b)) => b
  | _ => []

/-- The results returned to Python, each at the place of its native read. -/
def in_stream_order (s : Recv) : Bytes := s.taken.flatMap fun t => result_of s t.1

/-- The bytes on their way from a call's native read to its asyncio future. -/
def Call.in_flight (c : Call) : Bytes :=
  match c.task with
  | .blocking (.ok b) => b
  | .posted (.ok b) => b
  | _ => []

/-- The same, by the number of the call. -/
def in_flight (s : Recv) (i : ℕ) : Bytes := ((s.calls[i]?).map Call.in_flight).getD []

/-- The bytes a poll of a call's task takes from the native stream. -/
def taken_by (s : Recv) (i : ℕ) (native : Native) : Bytes :=
  match s.calls[i]?, native with
  | some c, .data k =>
    if c.task = .select ∧ c.cancel = .empty ∧ Holds (ask s.lock i) i then s.unread.take k else []
  | _, _ => []

/-! ## What a step does

A step either changes no call, adds one, or replaces one. `step_cases` lists
the replacements; the invariants are read off it. -/

theorem target_set {s : Recv} {i j : ℕ} {c c' : Call} (hc : s.calls[i]? = some c)
    {s' : Recv} (hs' : s'.calls = s.calls.set i c') :
    target s' j = if i = j then some c'.target else target s j := by
  have hlt : i < s.calls.length := (List.getElem?_eq_some_iff.1 hc).1
  unfold target
  rw [hs']
  by_cases hij : i = j
  · subst hij
    simp [hlt]
  · rw [List.getElem?_set_ne hij, if_neg hij]

/-- How one call changes: the label's own transition on it, the native read it
makes and the results it returns. -/
inductive Move (s : Recv) (i : ℕ) (c : Call) :
    Label → Call → List (ℕ × Bytes) → List Bytes → Prop
  | cancel : Move s i c (.cancel i) { c with toBridge := c.cancel_future } [] []
  | on_cancel {b : Bridge Result} (h : c.run_on_cancel = some b) :
      Move s i c (.on_cancel i) { c with toBridge := b } [] []
  | dropped {native : Native} (ht : c.task = .select) (hc : c.cancel ≠ .empty) :
      Move s i c (.poll i native) { c with task := .ended } [] []
  | data {k : ℕ} (ht : c.task = .select) (hc : c.cancel = .empty)
      (hl : Holds (ask s.lock i) i) :
      Move s i c (.poll i (.data k))
        { c with toBridge := c.ready (.ok (s.unread.take k)) } [(i, s.unread.take k)] []
  | other {native : Native} {r : Result} (ht : c.task = .select) (hn : ∀ k, native ≠ .data k)
      (hr : r = .ok [] ∨ r = .err) :
      Move s i c (.poll i native) { c with toBridge := c.ready r } [] []
  | post {b : Bridge Result} (h : c.post = some b) :
      Move s i c (.post i) { c with toBridge := b } [] []
  | complete {b : Bridge Result} (h : c.complete = some b) :
      Move s i c (.complete i) { c with toBridge := b } [] (returned_by c)

/-- A step that replaces call `i`. -/
structure Replaces (s s' : Recv) (l : Label) (i : ℕ) (c c' : Call)
    (reads : List (ℕ × Bytes)) (results : List Bytes) : Prop where
  call : s.calls[i]? = some c
  move : Move s i c l c' reads results
  calls : s'.calls = s.calls.set i c'
  received : s'.received = s.received
  unread : s.unread = reads.flatMap Prod.snd ++ s'.unread
  taken : s'.taken = s.taken ++ reads
  returned : s'.returned = s.returned ++ results

/-- A poll makes the call wait with a place in the queue, or moves it. -/
theorem poll_cases {s s' : Recv} {i : ℕ} {c : Call} {native : Native}
    (hc : s.calls[i]? = some c) (h : poll s i c native = some s') :
    (taken_by s i native = [] ∧ s' = { s with lock := ask s.lock i })
    ∨ ∃ c' reads, Replaces s s' (.poll i native) i c c' reads [] := by
  unfold poll at h
  split at h
  · rename_i ht
    split at h
    · rename_i hcn
      -- the cancel branch was polled first, and is not ready
      unfold poll_read at h
      split at h
      · rename_i hl
        cases native with
        | pending =>
            cases h
            exact .inl ⟨by simp [taken_by, hc], rfl⟩
        | data k =>
            simp only at h
            split at h
            · cases h
              exact .inr ⟨_, _, ⟨hc, .data ht hcn hl, rfl, rfl, by simp, rfl, by simp⟩⟩
            · cases h
        | eof =>
            simp only at h
            split at h
            · cases h
              exact .inr ⟨_, _, ⟨hc, .other ht (by simp) (.inl rfl), rfl, rfl, by simp, by simp,
                by simp⟩⟩
            · cases h
        | error =>
            cases h
            exact .inr ⟨_, _, ⟨hc, .other ht (by simp) (.inr rfl), rfl, rfl, by simp, by simp,
              by simp⟩⟩
      · rename_i hl
        cases h
        refine .inl ⟨?_, rfl⟩
        cases native <;> simp [taken_by, hc, hl]
    · rename_i hcn
      cases h
      exact .inr ⟨_, _, ⟨hc, .dropped ht hcn, rfl, rfl, by simp, by simp, by simp⟩⟩
  · cases h

/-- **What a step does**: bytes arrive, a call is made, a poll waits, or one call moves. -/
theorem step_cases {s s' : Recv} {l : Label} (h : step s l = some s') :
    (∃ b, l = .receive b
      ∧ s' = { s with received := s.received ++ b, unread := s.unread ++ b })
    ∨ (∃ n, l = .read n ∧ s' = { s with calls := s.calls ++ [{ Bridge.new with n := n }] })
    ∨ (∃ i native, l = .poll i native ∧ taken_by s i native = []
      ∧ s' = { s with lock := ask s.lock i })
    ∨ ∃ i c c' reads results, Replaces s s' l i c c' reads results := by
  cases l with
  | receive b =>
      simp only [step, Option.some.injEq] at h
      exact .inl ⟨b, rfl, h.symm⟩
  | read n =>
      simp only [step, Option.some.injEq] at h
      exact .inr (.inl ⟨n, rfl, h.symm⟩)
  | cancel i =>
      obtain ⟨c, hc, rfl⟩ := Option.map_eq_some_iff.1 h
      exact .inr (.inr (.inr ⟨i, c, _, _, _, ⟨hc, .cancel, rfl, rfl, by simp, by simp, by simp⟩⟩))
  | on_cancel i =>
      obtain ⟨c, hc, h⟩ := Option.bind_eq_some_iff.1 h
      obtain ⟨b, hb, rfl⟩ := Option.map_eq_some_iff.1 h
      exact .inr (.inr (.inr ⟨i, c, _, _, _,
        ⟨hc, .on_cancel hb, rfl, rfl, by simp, by simp, by simp⟩⟩))
  | poll i native =>
      obtain ⟨c, hc, h⟩ := Option.bind_eq_some_iff.1 h
      rcases poll_cases hc h with ⟨ht, rfl⟩ | ⟨c', reads, hr⟩
      · exact .inr (.inr (.inl ⟨i, native, rfl, ht, rfl⟩))
      · exact .inr (.inr (.inr ⟨i, c, c', reads, [], hr⟩))
  | post i =>
      obtain ⟨c, hc, h⟩ := Option.bind_eq_some_iff.1 h
      obtain ⟨b, hb, rfl⟩ := Option.map_eq_some_iff.1 h
      exact .inr (.inr (.inr ⟨i, c, _, _, _,
        ⟨hc, .post hb, rfl, rfl, by simp, by simp, by simp⟩⟩))
  | complete i =>
      obtain ⟨c, hc, h⟩ := Option.bind_eq_some_iff.1 h
      obtain ⟨b, hb, rfl⟩ := Option.map_eq_some_iff.1 h
      exact .inr (.inr (.inr ⟨i, c, _, _, _,
        ⟨hc, .complete hb, rfl, rfl, by simp, by simp, rfl⟩⟩))

/-! ## The invariant of every run -/

/-- The call took `b` from the native stream: it is carrying it to the loop, or
it is over, with `b` set on its future or discarded. -/
def Took (c : Call) (b : Bytes) : Prop :=
  c.task = .blocking (.ok b) ∨ c.task = .posted (.ok b)
    ∨ c.task = .ended ∧ (c.target = .set (.ok b) ∨ c.target = .cancelled)

/-- Only `Complete` sets the future, and with it the task is over. -/
def Unset (c : Call) : Prop := c.task ≠ .ended → ∀ r, c.target ≠ .set r

/-- What arrived is what was taken and what is unread, and each call has taken what its task
and its future say. -/
structure Inv (s : Recv) : Prop where
  conserved : s.received = s.taken.flatMap Prod.snd ++ s.unread
  once : (s.taken.map Prod.fst).Nodup
  took : ∀ t ∈ s.taken, ∃ c, s.calls[t.1]? = some c ∧ Took c t.2
  unset : ∀ c ∈ s.calls, Unset c
  carried : ∀ i c, s.calls[i]? = some c → c.in_flight ≠ [] → (i, c.in_flight) ∈ s.taken

theorem move_took {s : Recv} {i : ℕ} {c c' : Call} {l : Label} {reads : List (ℕ × Bytes)}
    {results : List Bytes} {b : Bytes} (hm : Move s i c l c' reads results) (hu : Unset c)
    (h : Took c b) : Took c' b ∧ reads = [] := by
  have hns : c.task ≠ .select := by
    rcases h with h | h | ⟨h, -⟩ <;> simp [h]
  cases hm with
  | cancel =>
      refine ⟨?_, rfl⟩
      unfold Bridge.cancel_future
      cases ht : c.target with
      | pending => exact h.imp_right (Or.imp_right fun h => ⟨h.1, .inr rfl⟩)
      | cancelled => exact h
      | set r => exact h
  | on_cancel hb =>
      obtain ⟨htarget, htask⟩ := Bridge.run_on_cancel_eq_some hb
      simp only [Took, htarget, htask]
      exact ⟨h, trivial⟩
  -- the native read was over before, so no poll of it is left
  | dropped ht hc => exact absurd ht hns
  | data ht hc hl => exact absurd ht hns
  | other ht hn hr => exact absurd ht hns
  | post hb =>
      obtain ⟨r, hr, rfl⟩ := Bridge.post_eq_some hb
      rcases h with h | h | ⟨h, -⟩ <;> rw [hr] at h <;> cases h
      exact ⟨.inr (.inl rfl), rfl⟩
  | complete hb =>
      obtain ⟨r, hr, ⟨-, rfl⟩ | ⟨hnp, rfl⟩⟩ := Bridge.complete_eq_some hb
      · rcases h with h | h | ⟨h, -⟩ <;> rw [hr] at h <;> cases h
        exact ⟨.inr (.inr ⟨rfl, .inl rfl⟩), rfl⟩
      · refine ⟨.inr (.inr ⟨rfl, .inr ?_⟩), rfl⟩
        cases ht : c.target with
        | pending => exact absurd ht hnp
        | cancelled => rfl
        -- a future that is set belongs to a task that is over
        | set r => exact absurd ht (hu (by simp [hr]) r)

theorem move_unset {s : Recv} {i : ℕ} {c c' : Call} {l : Label} {reads : List (ℕ × Bytes)}
    {results : List Bytes} (hm : Move s i c l c' reads results) (hu : Unset c) : Unset c' := by
  cases hm with
  | cancel =>
      unfold Unset Bridge.cancel_future at *
      cases ht : c.target <;> simp_all
  | on_cancel hb =>
      obtain ⟨htarget, htask⟩ := Bridge.run_on_cancel_eq_some hb
      simp only [Unset, htarget, htask]
      exact hu
  | dropped ht hc => exact fun h => absurd rfl h
  | data ht hc hl => exact fun _ => hu (by simp [ht])
  | other ht hn hr => exact fun _ => hu (by simp [ht])
  | post hb =>
      obtain ⟨r, hr, rfl⟩ := Bridge.post_eq_some hb
      exact fun _ => hu (by simp [hr])
  | complete hb =>
      obtain ⟨r, -, ⟨-, rfl⟩ | ⟨-, rfl⟩⟩ := Bridge.complete_eq_some hb
      · exact fun h => absurd rfl h
      · exact fun h => absurd rfl h

/-- What a call carries afterwards it carried before, or just took. -/
theorem move_in_flight {s : Recv} {i : ℕ} {c c' : Call} {l : Label} {reads : List (ℕ × Bytes)}
    {results : List Bytes} (hm : Move s i c l c' reads results) (h : c'.in_flight ≠ []) :
    c'.in_flight = c.in_flight ∨ reads = [(i, c'.in_flight)] := by
  cases hm with
  | cancel =>
      refine .inl ?_
      unfold Call.in_flight Bridge.cancel_future
      cases ht : c.target <;> simp
  | on_cancel hb =>
      obtain ⟨-, htask⟩ := Bridge.run_on_cancel_eq_some hb
      exact .inl (by simp only [Call.in_flight, htask])
  | dropped ht hc => exact absurd rfl h
  | data ht hc hl => exact .inr rfl
  | other ht hn hr =>
      rcases hr with rfl | rfl <;> exact absurd rfl h
  | post hb =>
      obtain ⟨r, hr, rfl⟩ := Bridge.post_eq_some hb
      refine .inl ?_
      cases r <;> simp [Call.in_flight, hr]
  | complete hb =>
      obtain ⟨r, -, ⟨-, rfl⟩ | ⟨-, rfl⟩⟩ := Bridge.complete_eq_some hb
      · exact absurd rfl h
      · exact absurd rfl h

/-- A native read is made by a call that made none before. -/
theorem Replaces.fresh {s s' : Recv} {l : Label} {i : ℕ} {c c' : Call}
    {reads : List (ℕ × Bytes)} {results : List Bytes}
    (h : Replaces s s' l i c c' reads results) (hs : Inv s) (hr : reads ≠ []) :
    i ∉ s.taken.map Prod.fst := by
  intro hi
  obtain ⟨t, ht, rfl⟩ := List.mem_map.1 hi
  obtain ⟨c₀, hc₀, htook⟩ := hs.took t ht
  rw [h.call, Option.some.injEq] at hc₀
  subst hc₀
  exact hr (move_took h.move (hs.unset _ (List.mem_of_getElem? h.call)) htook).2

/-- A native read belongs to the call that made it, and the call carries it. -/
theorem Move.reads {s : Recv} {i : ℕ} {c c' : Call} {l : Label} {reads : List (ℕ × Bytes)}
    {results : List Bytes} (hm : Move s i c l c' reads results) :
    reads = [] ∨ ∃ b, reads = [(i, b)] ∧ c'.task = .blocking (.ok b) := by
  cases hm with
  | data ht hc hl => exact .inr ⟨_, rfl, rfl⟩
  | cancel | on_cancel _ | dropped _ _ | other _ _ _ | post _ | complete _ => exact .inl rfl

/-- A move of one call keeps the invariant. -/
theorem Replaces.inv {s s' : Recv} {l : Label} {i : ℕ} {c c' : Call}
    {reads : List (ℕ × Bytes)} {results : List Bytes}
    (h : Replaces s s' l i c c' reads results) (hs : Inv s) : Inv s' := by
  have hget : s'.calls[i]? = some c' := by
    rw [h.calls]
    exact getElem?_set_of_some h.call
  have hne : ∀ j, j ≠ i → s'.calls[j]? = s.calls[j]? := by
    intro j hj
    rw [h.calls, List.getElem?_set_ne (Ne.symm hj)]
  have hu := hs.unset _ (List.mem_of_getElem? h.call)
  refine ⟨?_, ?_, ?_, ?_, ?_⟩
  · rw [h.received, h.taken, List.flatMap_append, List.append_assoc, ← h.unread, hs.conserved]
  · rw [h.taken, List.map_append, List.nodup_append]
    rcases h.move.reads with rfl | ⟨b, rfl, -⟩
    · exact ⟨hs.once, by simp, by simp⟩
    · refine ⟨hs.once, by simp, ?_⟩
      intro x hx y hy hxy
      simp only [List.map_cons, List.map_nil, List.mem_singleton] at hy
      -- a call reads once
      exact h.fresh hs (by simp) (hy ▸ hxy ▸ hx)
  · intro t ht
    rw [h.taken, List.mem_append] at ht
    rcases ht with ht | ht
    · obtain ⟨c₀, hc₀, htook⟩ := hs.took t ht
      by_cases hti : t.1 = i
      · rw [hti, h.call, Option.some.injEq] at hc₀
        subst hc₀
        exact ⟨c', hti ▸ hget, (move_took h.move hu htook).1⟩
      · exact ⟨c₀, (hne _ hti).trans hc₀, htook⟩
    · rcases h.move.reads with rfl | ⟨b, rfl, hb⟩
      · simp at ht
      · rw [List.mem_singleton] at ht
        subst ht
        exact ⟨c', hget, .inl hb⟩
  · rw [h.calls]
    exact forall_mem_set hs.unset (move_unset h.move hu)
  · intro j x hx hfl
    rw [h.taken, List.mem_append]
    by_cases hj : j = i
    · subst hj
      rw [hget, Option.some.injEq] at hx
      subst hx
      rcases move_in_flight h.move hfl with he | he
      · exact .inl (he ▸ hs.carried j c h.call (he ▸ hfl))
      · exact .inr (by rw [he]; exact List.mem_singleton_self _)
    · exact .inl (hs.carried j x ((hne j hj).symm.trans hx) hfl)

/-- **One step keeps the invariant.** -/
theorem step_inv {s s' : Recv} {l : Label} (hs : Inv s) (h : step s l = some s') : Inv s' := by
  rcases step_cases h with ⟨b, -, rfl⟩ | ⟨n, -, rfl⟩ | ⟨i, native, -, -, rfl⟩
    | ⟨i, c, c', reads, results, hr⟩
  · refine ⟨?_, hs.once, hs.took, hs.unset, hs.carried⟩
    rw [hs.conserved, List.append_assoc]
  · refine ⟨hs.conserved, hs.once, ?_, ?_, ?_⟩
    · intro t ht
      obtain ⟨c, hc, htook⟩ := hs.took t ht
      exact ⟨c, getElem?_concat_of_some hc, htook⟩
    · intro c hc
      rcases List.mem_append.1 hc with hc | hc
      · exact hs.unset c hc
      · rw [List.mem_singleton.1 hc]
        exact fun _ r => by simp [Bridge.new]
    · intro i c hc hfl
      rcases getElem?_concat_cases hc with ⟨-, rfl⟩ | hc
      · exact absurd rfl hfl
      · exact hs.carried i c hc hfl
  · exact ⟨hs.conserved, hs.once, hs.took, hs.unset, hs.carried⟩
  · exact hr.inv hs

/-- Nothing has arrived. -/
theorem init_inv : Inv init :=
  ⟨rfl, List.nodup_nil, by simp [init], by simp [init], by simp [init]⟩

/-- So it holds in every run. -/
theorem run_inv_init {s : Recv} {ls : List Label} (h : run step init ls = some s) : Inv s :=
  run_inv step (fun _ _ _ hs hstep => step_inv hs hstep) init_inv h

/-! ## When bytes are lost

A result is discarded when its future was cancelled on the way (`Safe` on
`cancel`) or before the native read (`Safe` on `poll`: the cancellation has
reached the future but not yet the runtime task). -/

/-- No read whose bytes are in flight is cancelled, and no read that was
cancelled takes bytes. -/
def Safe (s : Recv) : Label → Prop
  | .cancel i => in_flight s i = []
  | .poll i native => target s i = some .cancelled → taken_by s i native = []
  | _ => True

instance Safe.decidable (s : Recv) : ∀ l, Decidable (Safe s l)
  | .cancel i => inferInstanceAs (Decidable (in_flight s i = []))
  | .poll i native =>
    inferInstanceAs (Decidable (target s i = some .cancelled → taken_by s i native = []))
  | .receive _ | .read _ | .on_cancel _ | .post _ | .complete _ => .isTrue trivial

/-- No bytes taken from the native stream belong to a cancelled read. -/
def NotLost (s : Recv) : Prop :=
  ∀ t ∈ s.taken, t.2 ≠ [] → target s t.1 ≠ some .cancelled

theorem in_flight_eq {s : Recv} {i : ℕ} {c : Call} (hc : s.calls[i]? = some c) :
    in_flight s i = c.in_flight := by
  simp [in_flight, hc]

theorem target_eq {s : Recv} {i : ℕ} {c : Call} (hc : s.calls[i]? = some c) :
    target s i = some c.target := by
  simp [target, hc]

/-- Bytes that were taken and are neither set nor discarded are in flight. -/
theorem Took.cases {c : Call} {b : Bytes} (h : Took c b) :
    c.task ≠ .ended ∧ c.in_flight = b
      ∨ c.task = .ended ∧ (c.target = .set (.ok b) ∨ c.target = .cancelled) := by
  rcases h with h | h | h
  · exact .inl ⟨by simp [h], by simp [Call.in_flight, h]⟩
  · exact .inl ⟨by simp [h], by simp [Call.in_flight, h]⟩
  · exact .inr h

theorem in_flight_ended {c : Call} (h : c.task = .ended) : c.in_flight = [] := by
  simp [Call.in_flight, h]

theorem cancel_future_target (b : Bridge Result) :
    b.cancel_future.target = .cancelled ↔ ∀ r, b.target ≠ .set r := by
  unfold Bridge.cancel_future
  cases ht : b.target <;> simp [ht]

/-- The future changes only in `Future.cancel` and in `Complete`. -/
theorem move_target {s : Recv} {i : ℕ} {c c' : Call} {l : Label} {reads : List (ℕ × Bytes)}
    {results : List Bytes} (hm : Move s i c l c' reads results) (hl : l ≠ .cancel i)
    (hl' : l ≠ .complete i) : c'.target = c.target := by
  cases hm with
  | cancel => exact absurd rfl hl
  | on_cancel hb => exact (Bridge.run_on_cancel_eq_some hb).1
  | dropped | data | other => rfl
  | post hb =>
      obtain ⟨r, -, rfl⟩ := Bridge.post_eq_some hb
      rfl
  | complete hb => exact absurd rfl hl'

/-- Only `Future.cancel` makes a future cancelled, and nothing undoes it. -/
theorem move_cancelled {s : Recv} {i : ℕ} {c c' : Call} {l : Label} {reads : List (ℕ × Bytes)}
    {results : List Bytes} (hm : Move s i c l c' reads results) (hl : l ≠ .cancel i) :
    c'.target = .cancelled ↔ c.target = .cancelled := by
  by_cases hl' : l = .complete i
  · subst hl'
    cases hm with
    | complete hb =>
        obtain ⟨r, -, ⟨hp, rfl⟩ | ⟨-, rfl⟩⟩ := Bridge.complete_eq_some hb
        · simp [hp]
        · exact Iff.rfl
  · rw [move_target hm hl hl']

/-- Cancelling is safe exactly when it discards nothing. -/
theorem cancel_not_lost {s s' : Recv} {i : ℕ} {c : Call} (hs : Inv s)
    (hc : s.calls[i]? = some c) (ht : s'.taken = s.taken)
    (hcalls : s'.calls = s.calls.set i { c with toBridge := c.cancel_future }) :
    NotLost s' ↔ NotLost s ∧ in_flight s i = [] := by
  have htg : ∀ j, target s' j =
      if i = j then some c.cancel_future.target else target s j := fun j => target_set hc hcalls
  have hu := hs.unset c (List.mem_of_getElem? hc)
  rw [in_flight_eq hc]
  constructor
  · intro h
    refine ⟨?_, ?_⟩
    · intro t ht' hne hcan
      refine h t (ht ▸ ht') hne ?_
      rw [htg]
      split
      · rename_i hi
        rw [← hi, target_eq hc, Option.some.injEq] at hcan
        rw [Option.some.injEq, cancel_future_target]
        simp [hcan]
      · exact hcan
    · by_contra hfl
      refine h _ (ht ▸ hs.carried i c hc hfl) hfl ?_
      rw [htg, if_pos rfl, Option.some.injEq, cancel_future_target]
      exact hu fun he => hfl (in_flight_ended he)
  · rintro ⟨h, hfl⟩ t ht' hne hcan
    rw [ht] at ht'
    rw [htg] at hcan
    split at hcan
    · rename_i hi
      -- the bytes of the call itself: with nothing in flight they are set or lost already
      obtain ⟨c₀, hc₀, htook⟩ := hs.took t ht'
      rw [← hi, hc, Option.some.injEq] at hc₀
      subst hc₀
      rcases htook.cases with ⟨-, hb⟩ | ⟨-, hset | hcd⟩
      · exact hne (hb ▸ hfl)
      · rw [Option.some.injEq, cancel_future_target] at hcan
        exact hcan _ hset
      · exact h t ht' hne (by rw [← hi, target_eq hc, hcd])
    · exact h t ht' hne hcan

/-- Any other step that replaces a call loses exactly the bytes it takes for a
cancelled read. -/
theorem Replaces.not_lost {s s' : Recv} {l : Label} {i : ℕ} {c c' : Call}
    {reads : List (ℕ × Bytes)} {results : List Bytes}
    (h : Replaces s s' l i c c' reads results) (hl : l ≠ .cancel i) :
    NotLost s' ↔ NotLost s ∧ ∀ t ∈ reads, t.2 ≠ [] → target s t.1 ≠ some .cancelled := by
  have htg : ∀ j, target s' j = some .cancelled ↔ target s j = some .cancelled := by
    intro j
    rw [target_set h.call h.calls]
    split
    · rename_i hij
      rw [← hij, target_eq h.call, Option.some.injEq, Option.some.injEq,
        move_cancelled h.move hl]
    · exact Iff.rfl
  unfold NotLost
  simp only [h.taken, List.forall_mem_append, ne_eq, htg]

theorem Replaces.safe {s s' : Recv} {l : Label} {i : ℕ} {c c' : Call}
    {reads : List (ℕ × Bytes)} {results : List Bytes}
    (h : Replaces s s' l i c c' reads results) (hl : l ≠ .cancel i) :
    Safe s l ↔ ∀ t ∈ reads, t.2 ≠ [] → target s t.1 ≠ some .cancelled := by
  have hc := h.call
  cases h.move with
  | cancel => exact absurd rfl hl
  | on_cancel _ | post _ | complete _ => simp [Safe]
  | dropped ht hcn =>
      have : ∀ native, taken_by s i native = [] := by
        intro native
        cases native <;> simp [taken_by, hc, hcn]
      simp [Safe, this]
  | data ht hcn hlk =>
      simp only [Safe, taken_by, hc, ht, hcn, hlk, and_self, if_true, List.forall_mem_singleton]
      -- an empty read of a cancelled call loses nothing, so both sides ask for non-empty bytes
      exact ⟨fun h hne hcan => hne (h hcan), fun h hcan => by_contra fun hne => h hne hcan⟩
  | @other native _ ht hn _ =>
      have : taken_by s i native = [] := by
        cases native with
        | data k => exact absurd rfl (hn k)
        | pending | eof | error => simp [taken_by, hc]
      simp [Safe, this]

/-- A step loses bytes exactly when it is not safe. -/
theorem step_not_lost {s s' : Recv} {l : Label} (hs : Inv s) (h : step s l = some s') :
    NotLost s' ↔ NotLost s ∧ Safe s l := by
  rcases step_cases h with ⟨b, rfl, rfl⟩ | ⟨n, rfl, rfl⟩ | ⟨i, native, rfl, ht, rfl⟩
    | ⟨i, c, c', reads, results, hr⟩
  · exact (and_iff_left trivial).symm
  · rw [show Safe s (.read n) = True from rfl, and_true]
    refine forall₂_congr fun t ht => ?_
    obtain ⟨c, hc, -⟩ := hs.took t ht
    simp only [target, getElem?_concat_of_some hc, hc]
  · exact (and_iff_left fun _ => ht).symm
  · by_cases hl : l = .cancel i
    · subst hl
      cases hr.move with
      | cancel =>
          have ht : s'.taken = s.taken := by rw [hr.taken, List.append_nil]
          exact cancel_not_lost hs hr.call ht hr.calls
    · rw [hr.not_lost hl, hr.safe hl]

/-- **Bytes are lost exactly by unsafe steps**, over whole runs. -/
theorem run_not_lost {s : Recv} {ls : List Label} (h : run step init ls = some s) :
    NotLost s ↔ Meets step Safe init ls := by
  -- bytes once lost stay lost, so the last state tells about the whole run
  rw [meets_iff step (fun _ _ _ => step_inv) (fun _ _ _ => step_not_lost) init_inv h]
  exact and_iff_right (by simp [NotLost, init])

/-! ## Quiescent states -/

/-- Concatenations of which one only drops pieces of the other agree exactly
when nothing is dropped. -/
theorem flatMap_eq_iff_of_eq_or_nil {α β : Type} {f g : α → List β} {l : List α}
    (h : ∀ x ∈ l, f x = g x ∨ f x = []) :
    l.flatMap f = l.flatMap g ↔ ∀ x ∈ l, f x = g x := by
  refine ⟨?_, fun hfg => List.flatMap_congr hfg⟩
  intro heq
  have hsub : ∀ x, f x = g x ∨ f x = [] → (f x).Sublist (g x) := by
    rintro x (hx | hx)
    · rw [hx]
    · rw [hx]
      exact List.nil_sublist _
  induction l with
  | nil => simp
  | cons a l ih =>
      rw [List.forall_mem_cons] at h ⊢
      have hl : (l.flatMap f).length ≤ (l.flatMap g).length :=
        (List.Sublist.flatMap_right l fun x hx => hsub x (h.2 x hx)).length_le
      have hlen := congrArg List.length heq
      simp only [List.flatMap_cons, List.length_append] at hlen
      have ha : f a = g a := by
        rcases h.1 with ha | ha
        · exact ha
        · have : (g a).length = 0 := by
            rw [ha] at hlen
            simp only [List.length_nil] at hlen
            omega
          rw [ha, List.eq_nil_of_length_eq_zero this]
      refine ⟨ha, ih h.2 ?_⟩
      rw [List.flatMap_cons, List.flatMap_cons, ha] at heq
      exact List.append_cancel_left heq

/-- A quiescent read that took bytes has returned or discarded them. -/
theorem quiescent_took {s : Recv} (hs : Inv s) (hq : Quiescent s) {t : ℕ × Bytes}
    (ht : t ∈ s.taken) :
    target s t.1 = some (.set (.ok t.2)) ∨ target s t.1 = some .cancelled := by
  obtain ⟨c, hc, htook⟩ := hs.took t ht
  rw [target_eq hc, Option.some.injEq, Option.some.injEq]
  rcases (hq c (List.mem_of_getElem? hc)).2 with he | ⟨hsel, -⟩
  · rcases htook.cases with ⟨hne, -⟩ | ⟨-, h⟩
    · exact absurd he hne
    · exact h
  · rcases htook with h | h | ⟨h, -⟩ <;> rw [hsel] at h <;> cases h

/-- With nothing on its way, the bytes are all accounted for exactly if no read has lost its
result. -/
theorem quiescent_not_lost {s : Recv} (hs : Inv s) (hq : Quiescent s) :
    in_stream_order s ++ s.unread = s.received ↔ NotLost s := by
  have hcases : ∀ t ∈ s.taken, result_of s t.1 = t.2 ∨ result_of s t.1 = [] := by
    intro t ht
    rcases quiescent_took hs hq ht with h | h <;> simp [result_of, h]
  rw [hs.conserved, List.append_left_inj, in_stream_order, flatMap_eq_iff_of_eq_or_nil hcases]
  refine forall₂_congr fun t ht => ?_
  rcases quiescent_took hs hq ht with h | h
  · simp [result_of, h]
  · simp [result_of, h, eq_comm]

/-! ## The order of the results

Reads may overlap, and each posts its result from a thread of its own, so
results can be set in another order than their bytes were read in. In stream
order they concatenate to the stream whatever the schedule; in the order they
were returned they do so if each `Complete` runs for the oldest read whose
bytes are still on the way. -/

/-- The native reads whose bytes have not been returned, oldest first. -/
def waiting (s : Recv) : List (ℕ × Bytes) :=
  s.taken.filter fun t => t.2 ≠ [] ∧ target s t.1 = some .pending

/-- Results are set on the asyncio futures in the order of the native reads. -/
def InOrder (s : Recv) : Label → Prop
  | .complete i => in_flight s i ≠ [] → (waiting s).head? = some (i, in_flight s i)
  | _ => True

instance InOrder.decidable (s : Recv) : ∀ l, Decidable (InOrder s l)
  | .complete i =>
    inferInstanceAs (Decidable (in_flight s i ≠ [] →
      (waiting s).head? = some (i, in_flight s i)))
  | .receive _ | .read _ | .cancel _ | .on_cancel _ | .poll _ _ | .post _ => .isTrue trivial

/-- What was returned, followed by what is on the way, is what was taken. -/
def Returned (s : Recv) : Prop :=
  s.returned.flatten ++ (waiting s).flatMap Prod.snd = s.taken.flatMap Prod.snd

theorem waiting_congr {s s' : Recv} (ht : s'.taken = s.taken)
    (h : ∀ t ∈ s.taken, t.2 ≠ [] →
      (target s' t.1 = some .pending ↔ target s t.1 = some .pending)) :
    waiting s' = waiting s := by
  unfold waiting
  rw [ht]
  refine List.filter_congr fun t htm => ?_
  by_cases hne : t.2 = []
  · simp [hne]
  · simp [hne, h t htm hne]

/-- A read that took bytes keeps its future pending until its `Complete`. -/
theorem move_pending {s : Recv} {i : ℕ} {c c' : Call} {l : Label} {reads : List (ℕ × Bytes)}
    {results : List Bytes} {b : Bytes} (hm : Move s i c l c' reads results) (htook : Took c b)
    (hne : b ≠ []) (hsafe : l = .cancel i → c.in_flight = []) (hl : l ≠ .complete i) :
    c'.target = .pending ↔ c.target = .pending := by
  by_cases hcan : l = .cancel i
  · subst hcan
    cases hm with
    | cancel =>
        rcases htook.cases with ⟨-, hb⟩ | ⟨-, hset | hcd⟩
        · exact absurd (hb ▸ hsafe rfl) hne
        · simp [Bridge.cancel_future, hset]
        · simp [Bridge.cancel_future, hcd]
  · rw [move_target hm hcan hl]

theorem posted_took {c : Call} {r : Result} {b : Bytes} (hr : c.task = .posted r)
    (h : Took c b) : r = .ok b := by
  rcases h with h | h | ⟨h, -⟩ <;> rw [hr] at h <;> cases h
  rfl

theorem Replaces.target_self {s s' : Recv} {l : Label} {i : ℕ} {c c' : Call}
    {reads : List (ℕ × Bytes)} {results : List Bytes}
    (h : Replaces s s' l i c c' reads results) : target s' i = some c'.target := by
  rw [target_set h.call h.calls, if_pos rfl]

theorem Replaces.target_ne {s s' : Recv} {l : Label} {i j : ℕ} {c c' : Call}
    {reads : List (ℕ × Bytes)} {results : List Bytes}
    (h : Replaces s s' l i c c' reads results) (hj : i ≠ j) : target s' j = target s j := by
  rw [target_set h.call h.calls, if_neg hj]

/-- The replaced call decides whether the waiting reads stay the same. -/
theorem Replaces.waiting_congr {s s' : Recv} {l : Label} {i : ℕ} {c c' : Call}
    {reads : List (ℕ × Bytes)} {results : List Bytes}
    (h : Replaces s s' l i c c' reads results) (hs : Inv s)
    (hcc : ∀ b, Took c b → b ≠ [] → (c'.target = .pending ↔ c.target = .pending)) :
    ∀ t ∈ s.taken, t.2 ≠ [] →
      (target s' t.1 = some .pending ↔ target s t.1 = some .pending) := by
  intro t ht hne
  by_cases hi : i = t.1
  · obtain ⟨c₀, hc₀, htook⟩ := hs.took t ht
    rw [← hi, h.call, Option.some.injEq] at hc₀
    subst hc₀
    rw [← hi, h.target_self, target_eq h.call, Option.some.injEq, Option.some.injEq]
    exact hcc t.2 htook hne
  · rw [h.target_ne hi]

/-- Setting the oldest waiting result takes it off the waiting reads. -/
theorem waiting_tail {s s' : Recv} {i : ℕ} {b : Bytes} (hs : Inv s) (ht : s'.taken = s.taken)
    (hi : target s' i ≠ some .pending) (hne : ∀ j, i ≠ j → target s' j = target s j)
    (hd : (waiting s).head? = some (i, b)) : waiting s = (i, b) :: waiting s' := by
  obtain ⟨rest, hrest⟩ : ∃ rest, waiting s = (i, b) :: rest := by
    cases hw : waiting s with
    | nil => simp [hw] at hd
    | cons x rest =>
        rw [hw, List.head?_cons, Option.some.injEq] at hd
        exact ⟨rest, by rw [hd]⟩
  have hnd : ((waiting s).map Prod.fst).Nodup :=
    hs.once.sublist ((List.filter_sublist).map Prod.fst)
  -- only the entry of `i` goes, and there is one: a call reads once
  have hfil : waiting s' = (waiting s).filter fun t => t.1 ≠ i := by
    unfold waiting
    rw [ht, List.filter_filter]
    refine List.filter_congr fun t _ => ?_
    by_cases hti : t.1 = i
    · simp [hti, hi]
    · rw [hne t.1 (Ne.symm hti)]
      simp [hti]
  rw [hrest, List.map_cons, List.nodup_cons] at hnd
  have hkeep : ∀ t ∈ rest, decide (t.1 ≠ i) = true := by
    intro t htr
    exact decide_eq_true fun h => hnd.1 (List.mem_map.2 ⟨t, htr, h⟩)
  rw [hfil, hrest, List.filter_cons_of_neg (by simp), List.filter_eq_self.2 hkeep]

theorem complete_returned {s s' : Recv} {i : ℕ} {c c' : Call} {reads : List (ℕ × Bytes)}
    {results : List Bytes} (h : Replaces s s' (.complete i) i c c' reads results) (hs : Inv s)
    (ho : InOrder s (.complete i)) (hret : Returned s) : Returned s' := by
  have hcall := h.call
  cases h.move with
  | @complete b' hb =>
      have ht : s'.taken = s.taken := by rw [h.taken, List.append_nil]
      obtain ⟨r, hr, ⟨hp, rfl⟩ | ⟨hp, rfl⟩⟩ := Bridge.complete_eq_some hb
      · cases r with
        | err =>
            -- nothing was taken by this call, and nothing is returned
            have hw := waiting_congr ht (h.waiting_congr hs fun b htook _ =>
              absurd (posted_took hr htook) (by simp))
            have hres : returned_by c = [] := by simp [returned_by, hr]
            rw [Returned, hw, h.returned, ht, hres, List.append_nil]
            exact hret
        | ok b =>
            have hres : s'.returned = s.returned ++ [b] := by
              rw [h.returned]
              simp [returned_by, hr, hp]
            by_cases hbn : b = []
            -- an empty result was never among the waiting ones
            · have hw := waiting_congr ht (h.waiting_congr hs fun b' htook hne =>
                absurd (Result.ok.inj (posted_took hr htook)) (hbn ▸ Ne.symm hne))
              rw [Returned, hw, hres, ht, hbn, List.flatten_concat, List.append_nil]
              exact hret
            · have hfl : in_flight s i = b := by
                rw [in_flight_eq hcall]
                simp [Call.in_flight, hr]
              -- in order: this call is the oldest one that waits
              have hd := ho (by rwa [hfl])
              rw [hfl] at hd
              have hw := waiting_tail hs ht (by rw [h.target_self]; simp)
                (fun j hj => h.target_ne hj) hd
              rw [Returned, hres, ht, ← hret, hw]
              simp
      -- the future was done: nothing is returned and nothing stops waiting
      · have hw := waiting_congr ht (h.waiting_congr hs fun b htook _ => Iff.rfl)
        have hres : returned_by c = [] := by
          unfold returned_by
          split
          · exact absurd (by assumption) hp
          · rfl
        rw [Returned, hw, h.returned, ht, hres, List.append_nil]
        exact hret

/-- What the step takes is on the way, for a read it takes for is not cancelled. -/
theorem Replaces.waiting_append {s s' : Recv} {l : Label} {i : ℕ} {c c' : Call}
    {reads : List (ℕ × Bytes)} {results : List Bytes}
    (h : Replaces s s' l i c c' reads results) (hs : Inv s) (hn' : NotLost s')
    (hold : ∀ t ∈ s.taken, t.2 ≠ [] →
      (target s' t.1 = some .pending ↔ target s t.1 = some .pending)) :
    waiting s' = waiting s ++ reads.filter fun t => t.2 ≠ [] := by
  have hnew : ∀ t ∈ reads, t.2 ≠ [] → target s' t.1 = some .pending := by
    intro t ht hne
    have hcan := hn' t (by rw [h.taken]; exact List.mem_append_right _ ht) hne
    rcases h.move.reads with rfl | ⟨b, rfl, hb⟩
    · simp at ht
    · rw [List.mem_singleton] at ht
      subst ht
      have hun := move_unset h.move (hs.unset c (List.mem_of_getElem? h.call)) (by simp [hb])
      rw [h.target_self] at hcan ⊢
      cases htg : c'.target with
      | pending => rfl
      | cancelled => exact absurd (congrArg some htg) hcan
      | set r => exact absurd htg (hun r)
  unfold waiting
  rw [h.taken, List.filter_append]
  congr 1
  · refine List.filter_congr fun t ht => ?_
    by_cases hne : t.2 = []
    · simp [hne]
    · simp [hne, hold t ht hne]
  · refine List.filter_congr fun t ht => ?_
    by_cases hne : t.2 = []
    · simp [hne]
    · simp [hne, hnew t ht hne]

/-- One step keeps the results in the order of the native reads. -/
theorem step_returned {s s' : Recv} {l : Label} (hs : Inv s) (hn' : NotLost s')
    (hc : Safe s l) (ho : InOrder s l) (hret : Returned s) (h : step s l = some s') :
    Returned s' := by
  rcases step_cases h with ⟨b, -, rfl⟩ | ⟨n, -, rfl⟩ | ⟨i, native, -, -, rfl⟩
    | ⟨i, c, c', reads, results, hr⟩
  · exact hret
  · have hw : waiting { s with calls := s.calls ++ [{ Bridge.new with n := n }] } = waiting s := by
      refine waiting_congr rfl fun t ht _ => ?_
      obtain ⟨c, hc, -⟩ := hs.took t ht
      simp only [target, getElem?_concat_of_some hc, hc]
    rw [Returned, hw]
    exact hret
  · exact hret
  · by_cases hl : l = .complete i
    · subst hl
      exact complete_returned hr hs ho hret
    · have hsafe : l = .cancel i → c.in_flight = [] := by
        rintro rfl
        rw [← in_flight_eq hr.call]
        exact hc
      have hold := hr.waiting_congr hs fun b htook hne => move_pending hr.move htook hne hsafe hl
      have hres : s'.returned = s.returned := by
        rw [hr.returned]
        cases hr.move with
        | complete hb => exact absurd rfl hl
        | cancel | on_cancel _ | dropped _ _ | data _ _ _ | other _ _ _ | post _ =>
            exact List.append_nil _
      have hw := hr.waiting_append hs hn' hold
      have hflat : (reads.filter fun t => t.2 ≠ []).flatMap Prod.snd
          = reads.flatMap Prod.snd := by
        rcases hr.move.reads with rfl | ⟨b, rfl, -⟩
        · rfl
        · by_cases hbn : b = [] <;> simp [hbn]
      rw [Returned, hres, hw, hr.taken, List.flatMap_append, List.flatMap_append, hflat, ← hret,
        List.append_assoc]

/-- What a run keeps whose steps are safe and return results in order. -/
theorem run_returned {s : Recv} {ls : List Label} (h : run step init ls = some s)
    (hm : Meets step (fun s l => Safe s l ∧ InOrder s l) init ls) :
    NotLost s ∧ Returned s := by
  have hstep : ∀ s l s', Inv s → NotLost s ∧ Returned s → Safe s l ∧ InOrder s l →
      step s l = some s' → NotLost s' ∧ Returned s' := by
    rintro s l s' hs ⟨hn, hr⟩ ⟨hc, ho⟩ hstep
    have hn' := (step_not_lost hs hstep).2 ⟨hn, hc⟩
    exact ⟨hn', step_returned hs hn' hc ho hr hstep⟩
  exact meets_inv_of_inv step (fun _ _ _ => step_inv) hstep init_inv
    ⟨by simp [NotLost, init], rfl⟩ hm h

/-- With nothing left to run, no result waits for its future. -/
theorem quiescent_waiting {s : Recv} (hs : Inv s) (hq : Quiescent s) : waiting s = [] := by
  refine List.filter_eq_nil_iff.2 fun t ht => ?_
  rcases quiescent_took hs hq ht with h | h <;> simp [h]

/-! ## The contract -/

/-- **When a read loses nothing.** For every run of reads, cancellations and the
three schedulers that has come to rest: the results returned to Python, in stream
order, followed by the unread bytes, are the received bytes exactly if every step
of the run was safe; and if results were also returned in order, the same holds
of the results as they were returned. -/
theorem read_loses_nothing_iff {s : Recv} {ls : List Label}
    (h : run step init ls = some s) (hq : Quiescent s) :
    (in_stream_order s ++ s.unread = s.received ↔ Meets step Safe init ls)
    ∧ (Meets step (fun s l => Safe s l ∧ InOrder s l) init ls →
        s.returned.flatten ++ s.unread = s.received) := by
  have hs := run_inv_init h
  refine ⟨(quiescent_not_lost hs hq).trans (run_not_lost h), ?_⟩
  intro hm
  have hret := (run_returned h hm).2
  rw [Returned, quiescent_waiting hs hq, List.flatMap_nil, List.append_nil] at hret
  rw [hret, hs.conserved]

/-- Two overlapping reads, the second cancelled while it waits for the first. -/
def cancelled_waiter : List Label :=
  [.receive [1, 2, 3], .read 2, .read 5, .poll 0 .pending, .poll 1 .pending, .cancel 1,
    .poll 0 (.data 2), .on_cancel 1, .poll 1 .pending, .post 0, .complete 0, .on_cancel 0]

/-- The hypothesis can be met: a read that is cancelled while it waits for the part loses
nothing. -/
theorem read_loses_nothing_iff_cancelled_waiter :
    ∃ s, run step init cancelled_waiter = some s
      ∧ Quiescent s ∧ s.returned = [[1, 2]] ∧ s.unread = [3]
      ∧ in_stream_order s ++ s.unread = s.received
      ∧ s.returned.flatten ++ s.unread = s.received := by
  have h := @read_loses_nothing_iff _ cancelled_waiter rfl (by decide)
  exact ⟨_, rfl, by decide, rfl, rfl, h.1.2 (by decide), h.2 (by decide)⟩

/-- One read, cancelled after its native read returned and before the loop ran
`Complete`: the three bytes are neither returned nor unread. -/
theorem cancelled_read_loses_bytes :
    ∃ s, run step init
        [.receive [1, 2, 3], .read 3, .poll 0 (.data 3), .cancel 0, .post 0, .on_cancel 0,
          .complete 0] = some s
      ∧ Quiescent s ∧ s.received = [1, 2, 3]
      ∧ s.returned.flatten ++ s.unread = [] ∧ in_stream_order s ++ s.unread = [] :=
  ⟨_, rfl, by decide, rfl, rfl, rfl⟩

end ZmuxPy.FutureIntoPy
