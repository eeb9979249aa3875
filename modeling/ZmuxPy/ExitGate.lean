/-
The exit gate of `src/rt.rs`: `attach`, `_shutdown` and the two atomics
between them.

A runtime thread enters Python only through `attach`, which counts itself in
`INFLIGHT`, loads `EXITING` and either goes on into `Python::attach` or drops
its `Leave` guard and parks for good. The `atexit` hook `_shutdown` stores
`EXITING`, detaches, waits (bounded) for `INFLIGHT = 0` and attaches again.

The atomics are `SeqCst`, so each access is one step of the machine below and
every interleaving of them is a schedule. A thread is its stack of `attach`
activations, innermost first: a closure may call `attach` again (as
`Session.wait_closed` does through `session_err` and `raise`), and each
activation evaluates the gate for itself. Unwinding closures take the same
steps as returning ones, because both `Python::attach`'s guard and `Leave`
are dropped on the way out.

Two results. The gate is **sound** (`inflight_counts_and_drained_is_final`):
`INFLIGHT` is the number of activations under way, and a wait that ended on
zero leaves no thread in Python for good. The gate is **not** re-entrant: a
thread that passed it once meets it again in a nested call, and parks while
attached if the store came in between. `parks_detached` is what remains true,
`nested_call_parks_attached` the run that breaks the rest.
-/
import ZmuxPy.Machine
import ZmuxPy.Parties

set_option autoImplicit false

namespace ZmuxPy.ExitGate

open Machine Parties

/-! ## The model -/

/-- Where one activation of `attach` on a runtime thread is. -/
inductive Frame where
  /-- `INFLIGHT` was incremented and `leave` exists; `EXITING` not loaded yet. -/
  | counted
  /-- `EXITING` was loaded as `true`; `leave` not dropped yet. -/
  | refused
  /-- `leave` was dropped; in the `std::thread::park` loop, which has no exit. -/
  | parked
  /-- In `Python::attach`, waiting for the interpreter or running the closure. -/
  | inside
  /-- `Python::attach` returned or unwound; `leave` not dropped yet. -/
  | returned
  deriving DecidableEq, Repr

/-- Whether the activation is between its increment and the drop of its guard. -/
def Frame.counts : Frame → Bool
  | .parked => false
  | _ => true

/-- Who is attached to the interpreter: the thread `_shutdown` runs on, another
thread of Python (which `attach` never holds), or a runtime thread. -/
inductive Owner where
  | main
  | other
  | runtime (i : ℕ)
  deriving DecidableEq, Repr

/-- Where `_shutdown` is. `over zero` and `done zero` remember whether the wait
loop ended because it read `INFLIGHT = 0` (otherwise `EXIT_WAIT` ran out). -/
inductive Hook where
  | idle
  | stored
  | waiting
  | over (zero : Bool)
  | done (zero : Bool)
  deriving DecidableEq, Repr

/-- The process: the two statics, every runtime thread's stack of activations,
the interpreter's owner and the hook. `inflight` is an integer, so that a
decrement below zero would show. -/
structure Gate where
  exiting : Bool
  inflight : ℤ
  threads : List (List Frame)
  interp : Option Owner
  hook : Hook
  deriving DecidableEq, Repr

/-- What a runtime thread does inside `attach`. -/
inductive Act where
  /-- Calls `attach`: `INFLIGHT.fetch_add(1)`. -/
  | fetch_add
  /-- `EXITING.load()`, and the branch on it. -/
  | load_exiting
  /-- The closure ends (`unwinds`: by a panic) and `Python::attach` with it. -/
  | finish (unwinds : Bool)
  /-- `Leave::drop`: `INFLIGHT.fetch_sub(1)`. -/
  | drop_leave
  deriving DecidableEq, Repr

/-- The steps of the runtime's threads, of Python's threads, and of the hook. -/
inductive Label where
  /-- The runtime starts a thread (`on_thread_start` marks it). -/
  | spawn
  | thread (i : ℕ) (a : Act)
  /-- The interpreter goes to a runtime thread that waits for it. -/
  | acquire (i : ℕ)
  /-- The interpreter switches away from a runtime thread inside a closure. -/
  | switch (i : ℕ)
  /-- A thread of Python attaches (`true`: the one the hook runs on). -/
  | py_attach (main : Bool)
  | py_detach
  /-- `_shutdown`: `EXITING.store(true)`. -/
  | store
  /-- `_shutdown`: `py.detach`. -/
  | detach
  /-- `_shutdown`: one turn of the wait loop (`late`: `end` has passed). -/
  | load_inflight (late : Bool)
  /-- `_shutdown`: the end of `py.detach`. -/
  | reattach
  deriving DecidableEq, Repr

/-- The thread-local part of `attach`: the stack after an action and what the
action adds to `INFLIGHT`. `runs` says that the thread owns the interpreter,
i.e. that the closure of its innermost activation is running. -/
def attach (exiting runs : Bool) : Act → List Frame → Option (List Frame × ℤ)
  | .fetch_add, [] => some ([.counted], 1)
  -- a closure calls `attach` again, on the same thread
  | .fetch_add, .inside :: rest =>
    if runs then some (.counted :: .inside :: rest, 1) else none
  | .load_exiting, .counted :: rest =>
    some ((if exiting then .refused else .inside) :: rest, 0)
  | .finish _, .inside :: rest => if runs then some (.returned :: rest, 0) else none
  -- `drop(leave)` before the park loop, so a parked thread is not counted
  | .drop_leave, .refused :: rest => some (.parked :: rest, -1)
  | .drop_leave, .returned :: rest => some (rest, -1)
  | _, _ => none

/-- Leaving the outermost `Python::attach` gives the interpreter up; an inner
one only pops. -/
def interpAfter (a : Act) (interp : Option Owner) (stack : List Frame) : Option Owner :=
  match a with
  | .finish _ => if .inside ∈ stack then interp else none
  | _ => interp

/-- One step of the process. -/
def step (s : Gate) : Label → Option Gate
  | .spawn => some { s with threads := s.threads ++ [[]] }
  | .thread i a =>
    match s.threads[i]? with
    | none => none
    | some st =>
      match attach s.exiting (s.interp = some (.runtime i)) a st with
      | none => none
      | some (st', d) =>
        some { s with
          threads := s.threads.set i st'
          inflight := s.inflight + d
          interp := interpAfter a s.interp st' }
  | .acquire i =>
    if s.interp = none ∧ (s.threads[i]?.bind List.head?) = some .inside then
      some { s with interp := some (.runtime i) }
    else none
  | .switch i =>
    if s.interp = some (.runtime i) ∧ (s.threads[i]?.bind List.head?) = some .inside then
      some { s with interp := none }
    else none
  | .py_attach main =>
    if s.interp = none ∧ (main = true → s.hook = .idle) then
      some { s with interp := some (if main then .main else .other) }
    else none
  | .py_detach =>
    if s.interp = some .other ∨ (s.interp = some .main ∧ s.hook = .idle) then
      some { s with interp := none }
    else none
  | .store =>
    if s.hook = .idle ∧ s.interp = some .main then
      some { s with exiting := true, hook := .stored }
    else none
  | .detach =>
    if s.hook = .stored then some { s with interp := none, hook := .waiting } else none
  | .load_inflight late =>
    if s.hook = .waiting then
      if s.inflight > 0 ∧ late = false then some s
      else some { s with hook := .over (decide (¬ s.inflight > 0)) }
    else none
  | .reattach =>
    match s.hook with
    | .over z => if s.interp = none then some { s with interp := some .main, hook := .done z }
      else none
    | _ => none

/-- No thread has attached, and the process is not exiting. -/
def init : Gate :=
  { exiting := false, inflight := 0, threads := [], interp := none, hook := .idle }

/-- The activations of `attach` between their increment and the drop of their
`Leave` guard, over all threads. -/
def activations (s : Gate) : ℕ := (s.threads.map fun st => st.countP Frame.counts).sum

/-! ## What one action of a thread does

`attach_cases` and `step_cases` take an action and a step of the process apart;
the invariants below read a step off them. -/

/-- What an action does to the stack of its thread. -/
theorem attach_cases {e r : Bool} {a : Act} {st st' : List Frame} {d : ℤ}
    (h : attach e r a st = some (st', d)) :
    (a = .fetch_add ∧ st' = .counted :: st ∧ d = 1
        ∧ (st = [] ∨ r = true ∧ ∃ rest, st = .inside :: rest))
    ∨ (a = .load_exiting ∧ d = 0
        ∧ ∃ rest, st = .counted :: rest ∧ st' = (if e then .refused else .inside) :: rest)
    ∨ ((∃ u, a = .finish u) ∧ d = 0 ∧ r = true
        ∧ ∃ rest, st = .inside :: rest ∧ st' = .returned :: rest)
    ∨ (a = .drop_leave ∧ d = -1 ∧ ∃ rest, st = .refused :: rest ∧ st' = .parked :: rest)
    ∨ (a = .drop_leave ∧ d = -1 ∧ st = .returned :: st') := by
  unfold attach at h
  split at h
  · simp only [Option.some.injEq, Prod.mk.injEq] at h
    exact .inl ⟨rfl, h.1.symm, h.2.symm, .inl rfl⟩
  · split at h
    · rename_i rest hr
      simp only [Option.some.injEq, Prod.mk.injEq] at h
      exact .inl ⟨rfl, h.1.symm, h.2.symm, .inr ⟨hr, rest, rfl⟩⟩
    · cases h
  · rename_i rest
    simp only [Option.some.injEq, Prod.mk.injEq] at h
    exact .inr (.inl ⟨rfl, h.2.symm, rest, rfl, h.1.symm⟩)
  · split at h
    · rename_i u rest hr
      simp only [Option.some.injEq, Prod.mk.injEq] at h
      exact .inr (.inr (.inl ⟨⟨u, rfl⟩, h.2.symm, hr, rest, rfl, h.1.symm⟩))
    · cases h
  · rename_i rest
    simp only [Option.some.injEq, Prod.mk.injEq] at h
    exact .inr (.inr (.inr (.inl ⟨rfl, h.2.symm, rest, rfl, h.1.symm⟩)))
  · simp only [Option.some.injEq, Prod.mk.injEq] at h
    exact .inr (.inr (.inr (.inr ⟨rfl, h.2.symm, by rw [h.1]⟩)))
  · cases h

/-- What each step of the process does, with the guard it passed. -/
inductive Step (s : Gate) : Label → Gate → Prop where
  | spawn : Step s .spawn { s with threads := s.threads ++ [[]] }
  | thread {i : ℕ} {a : Act} {st st' : List Frame} {d : ℤ} (hst : s.threads[i]? = some st)
      (hatt : attach s.exiting (s.interp = some (.runtime i)) a st = some (st', d)) :
      Step s (.thread i a) { s with
        threads := s.threads.set i st'
        inflight := s.inflight + d
        interp := interpAfter a s.interp st' }
  | acquire {i : ℕ} {st : List Frame} (hfree : s.interp = none)
      (hst : s.threads[i]? = some st) (hhd : st.head? = some .inside) :
      Step s (.acquire i) { s with interp := some (.runtime i) }
  | switch {i : ℕ} {st : List Frame} (hown : s.interp = some (.runtime i))
      (hst : s.threads[i]? = some st) (hhd : st.head? = some .inside) :
      Step s (.switch i) { s with interp := none }
  | py_attach {main : Bool} (hfree : s.interp = none) (hmain : main = true → s.hook = .idle) :
      Step s (.py_attach main) { s with interp := some (if main then .main else .other) }
  | py_detach (hown : s.interp = some .other ∨ s.interp = some .main ∧ s.hook = .idle) :
      Step s .py_detach { s with interp := none }
  | store (hk : s.hook = .idle) (hown : s.interp = some .main) :
      Step s .store { s with exiting := true, hook := .stored }
  | detach (hk : s.hook = .stored) :
      Step s .detach { s with interp := none, hook := .waiting }
  | wait (hk : s.hook = .waiting) (hin : s.inflight > 0) : Step s (.load_inflight false) s
  | waited {late : Bool} (hk : s.hook = .waiting) (hend : ¬ (s.inflight > 0 ∧ late = false)) :
      Step s (.load_inflight late) { s with hook := .over (decide (¬ s.inflight > 0)) }
  | reattach {z : Bool} (hk : s.hook = .over z) (hfree : s.interp = none) :
      Step s .reattach { s with interp := some .main, hook := .done z }

/-- **What each step does**, with the guard it passed. -/
theorem step_cases {s s' : Gate} {l : Label} (h : step s l = some s') : Step s l s' := by
  cases l with
  | spawn =>
      simp only [step, Option.some.injEq] at h
      exact h ▸ .spawn
  | thread i a =>
      simp only [step] at h
      split at h
      · cases h
      · rename_i st hst
        split at h
        · cases h
        · rename_i st' d hatt
          exact Option.some.inj h ▸ .thread hst hatt
  | acquire i =>
      simp only [step, Option.ite_none_right_eq_some, Option.some.injEq] at h
      obtain ⟨⟨hfree, hin⟩, rfl⟩ := h
      obtain ⟨st, hst, hhd⟩ := Option.bind_eq_some_iff.1 hin
      exact .acquire hfree hst hhd
  | switch i =>
      simp only [step, Option.ite_none_right_eq_some, Option.some.injEq] at h
      obtain ⟨⟨hown, hin⟩, rfl⟩ := h
      obtain ⟨st, hst, hhd⟩ := Option.bind_eq_some_iff.1 hin
      exact .switch hown hst hhd
  | py_attach main =>
      simp only [step, Option.ite_none_right_eq_some, Option.some.injEq] at h
      obtain ⟨⟨hfree, hmain⟩, rfl⟩ := h
      exact .py_attach hfree hmain
  | py_detach =>
      simp only [step, Option.ite_none_right_eq_some, Option.some.injEq] at h
      obtain ⟨hown, rfl⟩ := h
      exact .py_detach hown
  | store =>
      simp only [step, Option.ite_none_right_eq_some, Option.some.injEq] at h
      obtain ⟨⟨hk, hown⟩, rfl⟩ := h
      exact .store hk hown
  | detach =>
      simp only [step, Option.ite_none_right_eq_some, Option.some.injEq] at h
      obtain ⟨hk, rfl⟩ := h
      exact .detach hk
  | load_inflight late =>
      simp only [step, Option.ite_none_right_eq_some] at h
      obtain ⟨hk, h⟩ := h
      split at h
      · rename_i hin
        obtain ⟨hin, rfl⟩ := hin
        cases h
        exact .wait hk hin
      · rename_i hend
        cases h
        exact .waited hk hend
  | reattach =>
      simp only [step] at h
      split at h
      · rename_i z hk
        rw [Option.ite_none_right_eq_some, Option.some.injEq] at h
        obtain ⟨hfree, rfl⟩ := h
        exact .reattach hk hfree
      · cases h

/-- `INFLIGHT` moves with the number of activations on the thread's stack. -/
theorem attach_counts {e r : Bool} {a : Act} {st st' : List Frame} {d : ℤ}
    (h : attach e r a st = some (st', d)) :
    (st'.countP Frame.counts : ℤ) = st.countP Frame.counts + d := by
  rcases attach_cases h with ⟨-, rfl, rfl, -⟩ | ⟨-, rfl, rest, rfl, rfl⟩
    | ⟨-, rfl, -, rest, rfl, rfl⟩ | ⟨-, rfl, rest, rfl, rfl⟩ | ⟨-, rfl, rfl⟩
  · simp [List.countP_cons, Frame.counts]
  -- refused or admitted, the activation stays counted
  · cases e <;> simp [List.countP_cons, Frame.counts]
  · simp [List.countP_cons, Frame.counts]
  · simp [List.countP_cons, Frame.counts]
  · simp [List.countP_cons, Frame.counts]

/-- Everything below the innermost activation is in `Python::attach`: only a
running closure calls `attach` again. -/
theorem attach_nested {e r : Bool} {a : Act} {st st' : List Frame} {d : ℤ}
    (h : attach e r a st = some (st', d)) (hst : ∀ f ∈ st.tail, f = .inside) :
    ∀ f ∈ st'.tail, f = .inside := by
  rcases attach_cases h with ⟨-, rfl, -, hc⟩ | ⟨-, -, rest, rfl, rfl⟩
    | ⟨-, -, -, rest, rfl, rfl⟩ | ⟨-, -, rest, rfl, rfl⟩ | ⟨-, -, rfl⟩
  · rcases hc with rfl | ⟨-, rest, rfl⟩
    · simp
    · intro f hf
      rcases List.mem_cons.1 hf with rfl | hf
      · rfl
      · exact hst f hf
  · exact hst
  · exact hst
  · exact hst
  · intro f hf
    exact hst f (List.mem_of_mem_tail hf)

/-- With the gate closed no activation gets into `Python::attach`. -/
theorem attach_closed {r : Bool} {a : Act} {st st' : List Frame} {d : ℤ}
    (h : attach true r a st = some (st', d)) (hst : .inside ∉ st) : .inside ∉ st' := by
  rcases attach_cases h with ⟨-, rfl, -, -⟩ | ⟨-, -, rest, rfl, rfl⟩
    | ⟨-, -, -, rest, rfl, -⟩ | ⟨-, -, rest, rfl, rfl⟩ | ⟨-, -, rfl⟩
  · simpa using hst
  · simpa using hst
  · simp at hst
  · simpa using hst
  · exact fun hin => hst (List.mem_cons_of_mem _ hin)

/-! ## The invariant of every run -/

/-- The hook's wait ended because it read `INFLIGHT = 0`. -/
def Drained (s : Gate) : Prop := s.hook = .over true ∨ s.hook = .done true

/-- The counter is the number of counted activations, and below a thread's innermost activation
there are closures only. -/
structure Wf (s : Gate) : Prop where
  counts : s.inflight = activations s
  nested : ∀ st ∈ s.threads, ∀ f ∈ st.tail, f = .inside
  owner : ∀ i, s.interp = some (.runtime i) → ∃ st, s.threads[i]? = some st ∧ .inside ∈ st
  exiting : s.exiting = true ↔ s.hook ≠ .idle
  stored : s.hook = .stored → s.interp = some .main
  main : s.hook = .waiting ∨ (∃ z, s.hook = .over z) → s.interp ≠ some .main
  drained : Drained s → ∀ st ∈ s.threads, .inside ∉ st

theorem init_wf : Wf init where
  counts := rfl
  nested := by simp [init]
  owner := by simp [init]
  exiting := by simp [init]
  stored := by simp [init]
  main := by simp [init]
  drained := by simp [init]

/-- A thread's step hands the interpreter to nobody. -/
theorem interpAfter_eq_some {a : Act} {interp : Option Owner} {st' : List Frame} {o : Owner}
    (h : interpAfter a interp st' = some o) : interp = some o := by
  cases a with
  | finish u =>
      simp only [interpAfter] at h
      split at h
      · exact h
      · cases h
  | fetch_add | load_exiting | drop_leave => exact h

/-- The owner of the interpreter keeps an activation inside it: an inner `finish`
pops one of several, and the outermost one gives the interpreter up. -/
theorem attach_keeps_inside {e r : Bool} {a : Act} {st st' : List Frame} {d : ℤ}
    {interp : Option Owner} {o : Owner} (h : attach e r a st = some (st', d))
    (ho : interpAfter a interp st' = some o) (hin : .inside ∈ st) : .inside ∈ st' := by
  rcases attach_cases h with ⟨-, rfl, -, -⟩ | ⟨-, -, rest, rfl, rfl⟩
    | ⟨⟨u, rfl⟩, -, -, rest, rfl, rfl⟩ | ⟨-, -, rest, rfl, rfl⟩ | ⟨-, -, rfl⟩
  · exact List.mem_cons_of_mem _ hin
  · exact List.mem_cons_of_mem _ (by simpa using hin)
  · simp only [interpAfter] at ho
    split at ho
    · assumption
    · cases ho
  · exact List.mem_cons_of_mem _ (by simpa using hin)
  · simpa using hin

/-- A thread's own step keeps the invariant. -/
theorem thread_wf {s : Gate} {i : ℕ} {a : Act} {st st' : List Frame} {d : ℤ} (hs : Wf s)
    (hst : s.threads[i]? = some st)
    (hatt : attach s.exiting (s.interp = some (.runtime i)) a st = some (st', d)) :
    Wf { s with
      threads := s.threads.set i st'
      inflight := s.inflight + d
      interp := interpAfter a s.interp st' } := by
  have hmem : st ∈ s.threads := List.mem_of_getElem? hst
  refine ⟨?_, ?_, ?_, hs.exiting, ?_, ?_, ?_⟩
  -- one stack changes, and `INFLIGHT` by the change of its count
  · have hsum := sum_map_set (fun x => x.countP Frame.counts) st' hst
    have hd := attach_counts hatt
    have hc := hs.counts
    simp only [activations] at hc ⊢
    omega
  · exact forall_mem_set hs.nested (attach_nested hatt (hs.nested st hmem))
  · intro j hj
    obtain ⟨sj, hsj, hin⟩ := hs.owner j (interpAfter_eq_some hj)
    by_cases hij : i = j
    · subst hij
      rw [hst, Option.some.injEq] at hsj
      subst hsj
      exact ⟨st', getElem?_set_of_some hst, attach_keeps_inside hatt hj hin⟩
    · exact ⟨sj, by rw [List.getElem?_set_ne hij]; exact hsj, hin⟩
  · intro hh
    -- While the hook's thread is attached no closure runs, so nothing finishes.
    have hm := hs.stored hh
    rcases attach_cases hatt with ⟨rfl, -⟩ | ⟨rfl, -⟩ | ⟨⟨u, rfl⟩, -, hr, -⟩ | ⟨rfl, -⟩ | ⟨rfl, -⟩
    · exact hm
    · exact hm
    · rw [hm] at hr
      simp at hr
    · exact hm
    · exact hm
  · exact fun hh hm => hs.main hh (interpAfter_eq_some hm)
  · intro hdr
    have hno := hs.drained hdr
    have hex : s.exiting = true := by
      rw [hs.exiting]
      rcases hdr with hk | hk <;> exact fun h0 => by simp [h0] at hk
    rw [hex] at hatt
    exact forall_mem_set hno (attach_closed hatt (hno st hmem))

/-- From the store until its `detach` the hook's thread holds the interpreter. -/
theorem Wf.not_stored {s : Gate} (hs : Wf s) (h : s.interp ≠ some .main) : s.hook ≠ .stored :=
  fun hk => h (hs.stored hk)

/-- `INFLIGHT = 0` leaves no activation anywhere, so none inside Python. -/
theorem Wf.none_inside {s : Gate} (hs : Wf s) (hz : ¬ s.inflight > 0) :
    ∀ st ∈ s.threads, .inside ∉ st := by
  intro st hst hin
  have hcnt := hs.counts
  have hsum : activations s = 0 := by omega
  have hst0 : st.countP Frame.counts = 0 :=
    List.sum_eq_zero_iff_forall_eq_nat.1 hsum _ (List.mem_map_of_mem hst)
  exact absurd rfl (List.countP_eq_zero.1 hst0 _ hin)

/-- One step keeps the process well formed. -/
theorem step_wf {s s' : Gate} {l : Label} (hs : Wf s) (h : step s l = some s') : Wf s' := by
  cases step_cases h with
  | spawn =>
      refine ⟨?_, List.forall_mem_append.2 ⟨hs.nested, by simp⟩, ?_, hs.exiting, hs.stored,
        hs.main, ?_⟩
      · simpa [activations] using hs.counts
      · intro i hi
        obtain ⟨st, hst, hin⟩ := hs.owner i hi
        exact ⟨st, getElem?_concat_of_some hst, hin⟩
      · exact fun hdr => List.forall_mem_append.2 ⟨hs.drained hdr, by simp⟩
  | thread hst hatt => exact thread_wf hs hst hatt
  | acquire hfree hst hhd =>
      have hk := hs.not_stored (by simp [hfree])
      refine ⟨hs.counts, hs.nested, ?_, hs.exiting, fun h => absurd h hk, by simp, hs.drained⟩
      intro j hj
      cases hj
      exact ⟨_, hst, List.mem_of_head? hhd⟩
  | switch hown _ _ =>
      have hk := hs.not_stored (by simp [hown])
      exact ⟨hs.counts, hs.nested, by simp, hs.exiting, fun h => absurd h hk, by simp, hs.drained⟩
  | @py_attach main hfree hmain =>
      have hk := hs.not_stored (by simp [hfree])
      refine ⟨hs.counts, hs.nested, ?_, hs.exiting, fun h => absurd h hk, ?_, hs.drained⟩
      · intro i hi
        cases main <;> simp at hi
      · intro hh hm
        cases main with
        | false => simp at hm
        | true => rcases hh with hh | ⟨z, hh⟩ <;> simp [hmain rfl] at hh
  | py_detach hown =>
      have hk : s.hook ≠ .stored := by
        rcases hown with hown | ⟨-, hk⟩
        · exact hs.not_stored (by simp [hown])
        · simp [hk]
      exact ⟨hs.counts, hs.nested, by simp, hs.exiting, fun h => absurd h hk, by simp, hs.drained⟩
  | store hk hown =>
      exact ⟨hs.counts, hs.nested, hs.owner, by simp, fun _ => hown, by simp, by simp [Drained]⟩
  | detach hk =>
      have hex := hs.exiting.2 (by simp [hk])
      exact ⟨hs.counts, hs.nested, by simp, by simp [hex], by simp, by simp, by simp [Drained]⟩
  | wait _ _ => exact hs
  | waited hk _ =>
      have hex := hs.exiting.2 (by simp [hk])
      -- the hook's thread is detached during the wait
      refine ⟨hs.counts, hs.nested, hs.owner, by simp [hex], by simp, fun _ => hs.main (.inl hk),
        ?_⟩
      exact fun hdr => hs.none_inside (by simpa [Drained] using hdr)
  | reattach hk _ =>
      have hex := hs.exiting.2 (by simp [hk])
      refine ⟨hs.counts, hs.nested, by simp, by simp [hex], by simp, by simp, ?_⟩
      intro hdr
      refine hs.drained (.inl ?_)
      rw [hk]
      simpa [Drained] using hdr

/-- So it is in every run. -/
theorem run_wf {s : Gate} {ls : List Label} (h : run step init ls = some s) : Wf s :=
  run_inv step (fun _ _ _ hs hstep => step_wf hs hstep) init_wf h

/-! ## Soundness of the gate -/

/-- A wait that ended on zero stays ended on zero. -/
theorem drained_step {s s' : Gate} {l : Label} (hs : Drained s) (h : step s l = some s') :
    Drained s' := by
  cases step_cases h with
  | reattach hk _ => simpa [Drained, hk] using hs
  | store hk _ | detach hk | waited hk _ => simp [Drained, hk] at hs
  | thread _ _ | spawn | acquire _ _ _ | switch _ _ _ | py_attach _ _ | py_detach _ | wait _ _ =>
      exact hs

/-- **The gate is sound.** In every run, `INFLIGHT` is the number of
activations between their increment and the drop of their guard, so it never
underflows; and once the wait ended because it read zero, no runtime thread is
in `Python::attach`, in that state or in any later one. -/
theorem inflight_counts_and_drained_is_final {ls : List Label} {s : Gate}
    (h : run step init ls = some s) :
    s.inflight = activations s ∧
      (Drained s → ∀ ls' s', run step s ls' = some s' → ∀ st ∈ s'.threads, .inside ∉ st) := by
  refine ⟨(run_wf h).counts, ?_⟩
  intro hdr ls' s' h'
  have hdr' : Drained s' := run_inv step (fun _ _ _ hd hstep => drained_step hd hstep) hdr h'
  exact (run_wf (run_append step h h')).drained hdr'

/-- The gate at work: a thread passes it before the store and leaves Python, the
hook reads zero, and a second call is refused and parks. -/
def late_call : List Label :=
  [.spawn, .thread 0 .fetch_add, .thread 0 .load_exiting, .acquire 0,
    .thread 0 (.finish false), .thread 0 .drop_leave, .py_attach true, .store, .detach,
    .load_inflight false, .thread 0 .fetch_add, .thread 0 .load_exiting, .thread 0 .drop_leave]

/-- The hypothesis can be met: a call that comes after the hook ran parks. -/
theorem inflight_counts_and_drained_is_final_one_thread :
    ∃ s, run step init late_call = some s
      ∧ Drained s ∧ s.inflight = activations s ∧ ∀ st ∈ s.threads, .inside ∉ st := by
  refine ⟨_, rfl, .inl rfl, ?_⟩
  have h := @inflight_counts_and_drained_is_final late_call _ rfl
  exact ⟨h.1, h.2 (.inl rfl) [] _ rfl⟩

/-! ## Re-entrance

`attach` evaluates the gate once per activation, so a thread that passed it can
find it closed in a nested call, with the interpreter in its hands. -/

/-- **The race, as a condition on steps**: no `attach` is called inside another
one once `EXITING` is stored, and none is between its increment and its load of
`EXITING` at the store. -/
def Calm (s : Gate) : Label → Prop
  | .thread i .fetch_add => s.exiting = true → s.threads[i]? = some []
  | .store => ∀ st ∈ s.threads, st.head? = some .counted → st.tail = []
  | _ => True

instance Calm.decidable (s : Gate) : ∀ l, Decidable (Calm s l)
  | .thread i .fetch_add =>
    inferInstanceAs (Decidable (s.exiting = true → s.threads[i]? = some []))
  | .store =>
    inferInstanceAs (Decidable (∀ st ∈ s.threads, st.head? = some .counted → st.tail = []))
  | .thread _ .load_exiting | .thread _ (.finish _) | .thread _ .drop_leave | .spawn
  | .acquire _ | .switch _ | .py_attach _ | .py_detach | .detach | .load_inflight _
  | .reattach => .isTrue trivial

/-- A nested activation that parked, or whose remaining steps are the park. -/
def Doomed (exiting : Bool) (st : List Frame) : Prop :=
  st.tail ≠ [] ∧ (st.head? = some .refused ∨ st.head? = some .parked
    ∨ exiting = true ∧ st.head? = some .counted)

theorem attach_not_doomed {e r : Bool} {a : Act} {st st' : List Frame} {d : ℤ}
    (h : attach e r a st = some (st', d)) (hnest : ∀ f ∈ st.tail, f = .inside)
    (hcalm : a = .fetch_add → e = true → st = []) (hst : ¬ Doomed e st) : ¬ Doomed e st' := by
  rcases attach_cases h with ⟨rfl, rfl, -, -⟩ | ⟨-, -, rest, rfl, rfl⟩
    | ⟨-, -, -, rest, rfl, rfl⟩ | ⟨-, -, rest, rfl, rfl⟩ | ⟨-, -, rfl⟩
  · rintro ⟨htl, hhd⟩
    simp only [List.head?_cons, Option.some.injEq, reduceCtorEq, false_or, and_true] at hhd
    -- a calm call with the gate closed is an outermost one
    exact htl (hcalm rfl hhd)
  · rintro ⟨htl, hhd⟩
    cases e with
    | false => simp at hhd
    -- refused now: it was doomed when it was counted
    | true => exact hst ⟨htl, .inr (.inr ⟨rfl, rfl⟩)⟩
  · rintro ⟨-, hhd⟩
    simp at hhd
  · rintro ⟨htl, -⟩
    exact hst ⟨htl, .inl rfl⟩
  · -- Popping a nested activation uncovers the closure that called it.
    rintro ⟨-, hhd⟩
    cases st' with
    | nil => simp at hhd
    | cons f rest =>
        have hf : f = .inside := hnest f List.mem_cons_self
        simp [hf] at hhd

/-- A calm step leaves no thread that parks inside a closure. -/
theorem step_not_doomed {s s' : Gate} {l : Label} (hs : Wf s) (hcalm : Calm s l)
    (hd : ∀ st ∈ s.threads, ¬ Doomed s.exiting st) (h : step s l = some s') :
    ∀ st ∈ s'.threads, ¬ Doomed s'.exiting st := by
  cases step_cases h with
  | thread hst hatt =>
      have hmem := List.mem_of_getElem? hst
      refine forall_mem_set hd (attach_not_doomed hatt (hs.nested _ hmem) ?_ (hd _ hmem))
      rintro rfl hex
      have hnil := hcalm hex
      rwa [hst, Option.some.injEq] at hnil
  | spawn => exact List.forall_mem_append.2 ⟨hd, by simp [Doomed]⟩
  | store _ _ =>
      rintro st hst ⟨htl, hhd | hhd | ⟨-, hhd⟩⟩
      · exact hd st hst ⟨htl, .inl hhd⟩
      · exact hd st hst ⟨htl, .inr (.inl hhd)⟩
      · exact htl (hcalm st hst hhd)
  | acquire _ _ _ | switch _ _ _ | py_attach _ _ | py_detach _ | detach _ | wait _ _
  | waited _ _ | reattach _ _ => exact hd

/-- A doomed activation stays doomed under its thread's own steps. -/
theorem attach_doomed {e r : Bool} {a : Act} {st st' : List Frame} {d : ℤ}
    (h : attach e r a st = some (st', d)) (hst : Doomed e st) : Doomed e st' := by
  obtain ⟨htl, hhd⟩ := hst
  rcases attach_cases h with ⟨-, rfl, -, hc⟩ | ⟨-, -, rest, rfl, rfl⟩
    | ⟨-, -, -, rest, rfl, rfl⟩ | ⟨-, -, rest, rfl, rfl⟩ | ⟨-, -, rfl⟩
  · rcases hc with rfl | ⟨-, rest, rfl⟩ <;> simp at hhd
  · simp only [List.head?_cons, Option.some.injEq, reduceCtorEq, false_or, and_true] at hhd
    exact ⟨htl, .inl (by simp [hhd])⟩
  · simp at hhd
  · exact ⟨htl, .inr (.inl rfl)⟩
  · simp at hhd

/-- `EXITING` is never cleared. -/
theorem exiting_mono {s s' : Gate} {l : Label} (h : step s l = some s')
    (he : s.exiting = true) : s'.exiting = true := by
  cases step_cases h with
  | store _ _ => rfl
  | spawn | thread _ _ | acquire _ _ _ | switch _ _ _ | py_attach _ _ | py_detach _ | detach _
  | wait _ _ | waited _ _ | reattach _ _ => exact he

theorem Doomed.mono {e e' : Bool} {st : List Frame} (he : e = true → e' = true)
    (h : Doomed e st) : Doomed e' st := by
  obtain ⟨htl, hhd | hhd | ⟨hex, hhd⟩⟩ := h
  · exact ⟨htl, .inl hhd⟩
  · exact ⟨htl, .inr (.inl hhd)⟩
  · exact ⟨htl, .inr (.inr ⟨he hex, hhd⟩)⟩

/-- No step saves a doomed activation. -/
theorem step_keeps_doomed {s s' : Gate} {l : Label} (h : step s l = some s')
    {st : List Frame} (hst : st ∈ s.threads) (hd : Doomed s.exiting st) :
    ∃ st' ∈ s'.threads, Doomed s'.exiting st' := by
  have hd' : Doomed s'.exiting st := hd.mono (exiting_mono h)
  cases step_cases h with
  | @thread i a si si' d hsi hatt =>
      obtain ⟨j, hj⟩ := List.mem_iff_getElem?.1 hst
      by_cases hij : i = j
      · subst hij
        rw [hsi, Option.some.injEq] at hj
        subst hj
        exact ⟨si', List.mem_of_getElem? (getElem?_set_of_some hsi), attach_doomed hatt hd⟩
      · refine ⟨st, List.mem_of_getElem? (i := j) ?_, hd⟩
        rw [List.getElem?_set_ne hij]
        exact hj
  | spawn => exact ⟨st, List.mem_append_left _ hst, hd⟩
  | store _ _ | acquire _ _ _ | switch _ _ _ | py_attach _ _ | py_detach _ | detach _ | wait _ _
  | waited _ _ | reattach _ _ => exact ⟨st, hst, hd'⟩

/-- A step that is not calm dooms an activation. -/
theorem step_dooms {s s' : Gate} {l : Label} (h : step s l = some s') (hc : ¬ Calm s l) :
    ∃ st ∈ s'.threads, Doomed s'.exiting st := by
  cases step_cases h with
  | thread hst hatt =>
      refine ⟨_, List.mem_of_getElem? (getElem?_set_of_some hst), ?_⟩
      rcases attach_cases hatt with ⟨rfl, rfl, -⟩ | ⟨rfl, -⟩ | ⟨⟨u, rfl⟩, -⟩ | ⟨rfl, -⟩ | ⟨rfl, -⟩
      -- the new activation is nested and will load `true`
      · simp only [Calm, Classical.not_imp, hst, Option.some.injEq] at hc
        exact ⟨hc.2, .inr (.inr ⟨hc.1, rfl⟩)⟩
      all_goals exact absurd trivial hc
  | store _ _ =>
      simp only [Calm, not_forall] at hc
      obtain ⟨st, hst, hhd, htl⟩ := hc
      exact ⟨st, hst, htl, .inr (.inr ⟨rfl, hhd⟩)⟩
  | spawn | acquire _ _ _ | switch _ _ _ | py_attach _ _ | py_detach _ | detach _ | wait _ _
  | waited _ _ | reattach _ _ => exact absurd trivial hc

/-- **The condition is exact**: a run breaks it exactly when it leaves a thread
whose own next steps are to park inside an enclosing `Python::attach`. -/
theorem calm_iff_not_doomed {s : Gate} {ls : List Label} (h : run step init ls = some s) :
    (∀ st ∈ s.threads, ¬ Doomed s.exiting st) ↔ Meets step Calm init ls := by
  have hstep : ∀ s l s', Wf s → step s l = some s' →
      ((∀ st ∈ s'.threads, ¬ Doomed s'.exiting st) ↔
        (∀ st ∈ s.threads, ¬ Doomed s.exiting st) ∧ Calm s l) := by
    intro s l s' hs hstep
    constructor
    · intro hd
      constructor
      · intro st hst hdm
        obtain ⟨st', hst', hdm'⟩ := step_keeps_doomed hstep hst hdm
        exact hd st' hst' hdm'
      · by_contra hc
        obtain ⟨st', hst', hdm'⟩ := step_dooms hstep hc
        exact hd st' hst' hdm'
    · exact fun hd => step_not_doomed hs hd.2 hd.1 hstep
  -- nothing saves a doomed activation, so the last state tells about the whole run
  rw [meets_iff step (fun _ _ _ => step_wf) hstep init_wf h]
  exact and_iff_right (by simp [init])

/-- So it is in every calm run. -/
theorem run_calm {s : Gate} {ls : List Label} (h : run step init ls = some s)
    (hcalm : Meets step Calm init ls) : Wf s ∧ ∀ st ∈ s.threads, ¬ Doomed s.exiting st :=
  ⟨run_wf h, (calm_iff_not_doomed h).2 hcalm⟩

/-! ### The hook gets the interpreter back -/

/-- The closures of the thread that owns the interpreter end one after the
other, and the last one gives it up. -/
theorem closures_end {i : ℕ} {rest : List Frame} : ∀ {s : Gate},
    s.interp = some (.runtime i) → s.threads[i]? = some (.inside :: rest) →
    (∀ f ∈ rest, f = .inside) →
    ∃ ls u, Meets step Calm s ls ∧ run step s ls = some u ∧ u.interp = none ∧ u.hook = s.hook := by
  induction rest with
  | nil =>
      intro s hown hst _
      let s₁ : Gate := { s with threads := s.threads.set i [.returned], interp := none }
      have h₁ : step s (.thread i (.finish false)) = some s₁ := by
        simp only [step, hst, hown, attach, decide_true, if_true, interpAfter]
        simp [s₁]
      exact ⟨[.thread i (.finish false)], s₁, (meets_cons step h₁).2 ⟨trivial, trivial⟩,
        (run_cons_eq_some step).2 ⟨s₁, h₁, rfl⟩, rfl, rfl⟩
  | cons f rest ih =>
      intro s hown hst hin
      have hf : f = .inside := hin f List.mem_cons_self
      subst hf
      have hlt : i < s.threads.length := (List.getElem?_eq_some_iff.1 hst).1
      -- One `finish` and one `drop_leave` uncover the enclosing closure.
      let s₁ : Gate := { s with threads := s.threads.set i (.returned :: .inside :: rest) }
      let s₂ : Gate := { s₁ with
        threads := s₁.threads.set i (.inside :: rest), inflight := s₁.inflight + -1 }
      have h₁ : step s (.thread i (.finish false)) = some s₁ := by
        simp only [step, hst, hown, attach, decide_true, if_true, interpAfter]
        simp [s₁, hown]
      have h₂ : step s₁ (.thread i .drop_leave) = some s₂ := by
        simp only [step, s₁, List.getElem?_set_self hlt, attach, interpAfter]
        rfl
      obtain ⟨ls, u, hm, hr, hu, hk⟩ := ih (s := s₂) hown
        (by simp [s₂, s₁, hlt]) (fun g hg => hin g (List.mem_cons_of_mem _ hg))
      refine ⟨.thread i (.finish false) :: .thread i .drop_leave :: ls, u, ?_, ?_, hu, hk⟩
      · exact (meets_cons step h₁).2 ⟨trivial, (meets_cons step h₂).2 ⟨trivial, hm⟩⟩
      · exact (run_cons_eq_some step).2 ⟨s₁, h₁, (run_cons_eq_some step).2 ⟨s₂, h₂, hr⟩⟩

/-- In a calm run the thread that owns the interpreter is never about to park,
so the interpreter can be freed. -/
theorem interp_freed {s : Gate} (hs : Wf s) (hd : ∀ st ∈ s.threads, ¬ Doomed s.exiting st)
    {z : Bool} (hk : s.hook = .over z) :
    ∃ ls u, Meets step Calm s ls ∧ run step s ls = some u ∧ u.interp = none ∧ u.hook = s.hook := by
  match hown : s.interp with
  | none => exact ⟨[], s, trivial, rfl, hown, rfl⟩
  | some .main => exact absurd hown (hs.main (.inr ⟨z, hk⟩))
  | some .other =>
      have h₁ : step s .py_detach = some { s with interp := none } := by
        simp only [step, hown, true_or, if_true]
      exact ⟨[.py_detach], _, (meets_cons step h₁).2 ⟨trivial, trivial⟩,
        (run_cons_eq_some step).2 ⟨_, h₁, rfl⟩, rfl, rfl⟩
  | some (.runtime i) =>
      obtain ⟨st, hst, hin⟩ := hs.owner i hown
      have hmem : st ∈ s.threads := List.mem_of_getElem? hst
      have hlt : i < s.threads.length := (List.getElem?_eq_some_iff.1 hst).1
      have hex : s.exiting = true := hs.exiting.2 (by simp [hk])
      obtain ⟨f, rest, rfl⟩ := List.exists_cons_of_ne_nil (List.ne_nil_of_mem hin)
      have hnest : ∀ g ∈ rest, g = .inside := hs.nested _ hmem
      have hbelow : f ≠ .inside → rest ≠ [] := by
        rintro hf rfl
        exact hf (List.mem_singleton.1 hin).symm
      have hnd := hd _ hmem
      cases f with
      -- the owner's closure runs: it can end, and those around it
      | inside => exact closures_end hown hst hnest
      | returned =>
          obtain ⟨g, rest, rfl⟩ := List.exists_cons_of_ne_nil (hbelow (by simp))
          have hg : g = .inside := hnest g List.mem_cons_self
          subst hg
          let s₁ : Gate := { s with
            threads := s.threads.set i (.inside :: rest), inflight := s.inflight + -1 }
          have h₁ : step s (.thread i .drop_leave) = some s₁ := by
            simp only [step, hst, attach, interpAfter]
            rfl
          obtain ⟨ls, u, hm, hr, hu, hk'⟩ := @closures_end i rest s₁ hown
            (by simp [s₁, hlt]) (fun x hx => hnest x (List.mem_cons_of_mem _ hx))
          exact ⟨.thread i .drop_leave :: ls, u, (meets_cons step h₁).2 ⟨trivial, hm⟩,
            (run_cons_eq_some step).2 ⟨s₁, h₁, hr⟩, hu, hk'⟩
      -- the other three would park inside the owner's closure
      | counted => exact absurd ⟨hbelow (by simp), .inr (.inr ⟨hex, rfl⟩)⟩ hnd
      | refused => exact absurd ⟨hbelow (by simp), .inl rfl⟩ hnd
      | parked => exact absurd ⟨hbelow (by simp), .inr (.inl rfl)⟩ hnd

/-- **What remains true of parking.** In every run without the race, a thread in
the park loop is inside no enclosing `Python::attach`, and when the hook's wait
is over there is a way on in which it attaches again. -/
theorem parks_detached {ls : List Label} {s : Gate} (h : run step init ls = some s)
    (hcalm : Meets step Calm init ls) :
    (∀ st ∈ s.threads, .parked ∈ st → .inside ∉ st) ∧
      (∀ z, s.hook = .over z → ∃ ls' u, Meets step Calm s ls' ∧ run step s ls' = some u
        ∧ u.hook = .done z) := by
  obtain ⟨hs, hd⟩ := run_calm h hcalm
  constructor
  · intro st hst hp hin
    obtain ⟨f, rest, rfl⟩ := List.exists_cons_of_ne_nil (List.ne_nil_of_mem hp)
    have hnest : ∀ g ∈ rest, g = .inside := hs.nested _ hst
    have hf : f = .parked := by
      rcases List.mem_cons.1 hp with hp | hp
      · exact hp.symm
      · exact absurd (hnest _ hp) (by simp)
    subst hf
    have hrest : rest ≠ [] := by
      rintro rfl
      simp at hin
    exact hd _ hst ⟨hrest, .inr (.inl rfl)⟩
  · intro z hk
    obtain ⟨ls', u, hm, hr, hu, hk'⟩ := interp_freed hs hd hk
    let v : Gate := { u with interp := some .main, hook := .done z }
    have h₁ : step u .reattach = some v := by
      simp only [step, hk', hk, hu, if_true]
      rfl
    have hm₁ : Meets step Calm u [.reattach] := (meets_cons step h₁).2 ⟨trivial, trivial⟩
    exact ⟨ls' ++ [.reattach], v, hm.append step hr hm₁,
      run_append step hr ((run_cons_eq_some step).2 ⟨v, h₁, rfl⟩), rfl⟩

/-- Nested calls before the store are harmless: both activations end, and the
hook attaches again. -/
def nested_before_store : List Label :=
  [.spawn, .thread 0 .fetch_add, .thread 0 .load_exiting, .acquire 0, .thread 0 .fetch_add,
    .thread 0 .load_exiting, .switch 0, .py_attach true, .store, .detach, .load_inflight true]

/-- The hypotheses can be met: a nested call that began before the hook ran. -/
theorem parks_detached_nested_before_store :
    ∃ s, run step init nested_before_store = some s
      ∧ s.hook = .over false
      ∧ (∀ st ∈ s.threads, .parked ∈ st → .inside ∉ st)
      ∧ ∃ ls' u, Meets step Calm s ls' ∧ run step s ls' = some u ∧ u.hook = .done false := by
  refine ⟨_, rfl, rfl, ?_⟩
  have h := @parks_detached nested_before_store _ rfl (by decide)
  exact ⟨h.1, h.2 false rfl⟩

/-! ### The race -/

/-- The interpreter belongs to a thread that parked in a nested call, and the
hook has detached and not attached again. -/
structure ParkedOwner (i : ℕ) (rest : List Frame) (s : Gate) : Prop where
  owner : s.interp = some (.runtime i)
  parked : s.threads[i]? = some (.parked :: rest)
  not_done : ∀ z, s.hook ≠ .done z
  not_stored : s.hook ≠ .stored

/-- A thread that parked in a nested call keeps the interpreter for good. -/
theorem parked_owner_step {s s' : Gate} {l : Label} {i : ℕ} {rest : List Frame}
    (hs : ParkedOwner i rest s) (h : step s l = some s') : ParkedOwner i rest s' := by
  obtain ⟨hown, hst, hk, hk'⟩ := hs
  cases step_cases h with
  | @thread j a sj sj' d hsj hatt =>
      have hne : j ≠ i := by
        rintro rfl
        rw [hst, Option.some.injEq] at hsj
        subst hsj
        rcases attach_cases hatt with ⟨-, -, -, hc⟩ | ⟨-, -, r, hc, -⟩ | ⟨-, -, -, r, hc, -⟩
          | ⟨-, -, r, hc, -⟩ | ⟨-, -, hc⟩
        · rcases hc with hc | ⟨-, r, hc⟩ <;> simp at hc
        all_goals simp at hc
      refine ⟨?_, by rw [List.getElem?_set_ne hne]; exact hst, hk, hk'⟩
      -- Another thread's closure cannot end: it does not own the interpreter.
      rcases attach_cases hatt with ⟨rfl, -⟩ | ⟨rfl, -⟩ | ⟨⟨u, rfl⟩, -, hr, -⟩ | ⟨rfl, -⟩
        | ⟨rfl, -⟩
      · exact hown
      · exact hown
      · simp [hown, hne.symm] at hr
      · exact hown
      · exact hown
  | spawn => exact ⟨hown, getElem?_concat_of_some hst, hk, hk'⟩
  | switch hj hsj hhd =>
      -- the interpreter switches away from running closures only
      rw [hown] at hj
      cases hj
      rw [hst, Option.some.injEq] at hsj
      subst hsj
      simp at hhd
  | wait _ _ => exact ⟨hown, hst, hk, hk'⟩
  | waited _ _ => exact ⟨hown, hst, by simp, by simp⟩
  | detach hj => exact absurd hj hk'
  | acquire hfree _ _ | py_attach hfree _ | reattach _ hfree => simp [hown] at hfree
  | py_detach hj => simp [hown] at hj
  | store _ hj => simp [hown] at hj

/-- **The race.** A thread passes the gate, the hook stores `EXITING` and
detaches, the thread gets the interpreter and its closure calls `attach` again
(`session_err` → `raise` in `Session.wait_closed`): the inner call finds the
gate closed and parks, inside the outer `Python::attach`. The hook's wait runs
out, and in no continuation does it attach again. -/
theorem nested_call_parks_attached :
    ∃ s, run step init
        [.spawn, .py_attach true, .thread 0 .fetch_add, .thread 0 .load_exiting, .store,
          .detach, .acquire 0, .thread 0 .fetch_add, .thread 0 .load_exiting,
          .thread 0 .drop_leave, .load_inflight true] = some s
      ∧ ¬ (∀ st ∈ s.threads, .parked ∈ st → .inside ∉ st)
      ∧ s.hook = .over false ∧ ∀ ls' u z, run step s ls' = some u → u.hook ≠ .done z := by
  refine ⟨_, rfl, by decide, rfl, ?_⟩
  intro ls' u z h
  -- the outer closure never ends, and only its end gives the interpreter up
  have hinv : ParkedOwner 0 [.inside] u :=
    run_inv step (fun _ _ _ => parked_owner_step) ⟨rfl, rfl, by simp, by simp⟩ h
  exact hinv.not_done z

end ZmuxPy.ExitGate
