/-
The serve loops of a `Listener` (`src/lib.rs`): who ends the tasks that the
`serve_*` calls spawn.

Each `serve_*` call returns a future at once. Its Rust side binds (resolves the
address first, for the QUIC based carriers), spawns the serve loop as a task of
its own, and pushes the task's handle on the listener's list, where `close` and
`shutdown`, once the sessions ended, find it: they drain the list and abort what
was on it. The list is behind a mutex that the drain holds throughout, so a drain
is one step; a spawn and its push are two, and the asyncio future is told of the
result later still.

`shutdown` waits for the sessions before it drains. Cancelled there, its Rust
side is dropped and does not come to the drain, though a poll that is under way
on another thread may still do it; the same holds of a cancelled `serve_*` call,
which may still spawn its task.

`ends` is history: for each return of `close` and each completion or cancellation
of `shutdown`, how many `serve_*` calls had been made by then.
-/
import Mathlib.Data.List.Basic
import Mathlib.Tactic.Basic
import ZmuxPy.Machine
import ZmuxPy.Parties

set_option autoImplicit false

namespace ZmuxPy.ListenerTasks

open Machine Parties

/-! ## The state -/

/-- How far the Rust side of a `serve_*` call is. -/
inductive Progress where
  /-- At its awaits: the name resolution and the bind. -/
  | binding
  /-- The task runs; its handle is not on the list yet. -/
  | spawned
  | registered
  /-- It failed before the spawn, or was dropped. -/
  | gone
  deriving DecidableEq, Repr

/-- The loop was spawned. -/
def Progress.has_task : Progress → Bool
  | .spawned | .registered => true
  | _ => false

/-- A `serve_*` call. -/
structure Serve where
  progress : Progress
  /-- Whether the asyncio future is done. -/
  resolved : Bool
  deriving DecidableEq, Repr

/-- How far a call of `shutdown` is. -/
inductive Shutdown where
  /-- In `l.shutdown(code, &reason).await`. -/
  | waiting
  /-- The list is drained; the asyncio future is not told yet. -/
  | drained
  /-- The asyncio future is cancelled; the Rust side may still come to the drain. -/
  | cancelled
  | ended
  deriving DecidableEq, Repr

/-- A listener: its calls, the handles on its list and those that it aborted. -/
structure Listener where
  serves : List Serve
  /-- The handles on the list: the tasks go by the number of their call. -/
  tasks : List ℕ
  aborted : List ℕ
  shutdowns : List Shutdown
  ends : List ℕ
  deriving DecidableEq, Repr

/-- A listener that serves nothing. -/
def init : Listener := ⟨[], [], [], [], []⟩

/-! ## The steps -/

/-- A step of call `i`. -/
def on_serve (l : Listener) (i : ℕ) (f : Serve → Option Serve) : Option Listener :=
  (move l.serves i f).map fun serves => { l with serves := serves }

/-- `for t in self.tasks.lock().unwrap().drain(..) { t.abort(); }`. -/
def drain (l : Listener) : Listener := { l with aborted := l.aborted ++ l.tasks, tasks := [] }

/-- `close` returned, or `shutdown` completed or was cancelled. -/
def record_end (l : Listener) : Listener := { l with ends := l.ends ++ [l.serves.length] }

/-- The calls, and what their Rust sides do. -/
inductive Label where
  /-- A `serve_*` call. -/
  | serve
  /-- The name resolution, the bind or the rest before the spawn fails. -/
  | fail (i : ℕ)
  /-- `tokio::spawn(..)`. -/
  | spawn (i : ℕ)
  /-- `tasks.lock().unwrap().push(h)`. -/
  | push (i : ℕ)
  /-- The call's future gets the result or the error. -/
  | resolve (i : ℕ)
  /-- Python cancels the call's future. -/
  | cancel (i : ℕ)
  /-- The Rust side of a cancelled call is dropped at its await. -/
  | drop (i : ℕ)
  | close
  | shutdown
  /-- The sessions ended, and `shutdown` drains. -/
  | shutdown_drain (k : ℕ)
  /-- The future of `shutdown` gets its result. -/
  | shutdown_done (k : ℕ)
  | shutdown_cancel (k : ℕ)
  deriving DecidableEq, Repr

/-- A step of shutdown `k`. -/
def on_shutdown (l : Listener) (k : ℕ) (f : Shutdown → Option Shutdown) : Option Listener :=
  (move l.shutdowns k f).map fun shutdowns => { l with shutdowns := shutdowns }

/-- One step of the listener. -/
def step (l : Listener) : Label → Option Listener
  | .serve => some { l with serves := l.serves ++ [⟨.binding, false⟩] }
  | .fail i => on_serve l i fun s =>
      if s.progress = .binding then some { s with progress := .gone } else none
  | .spawn i => on_serve l i fun s =>
      if s.progress = .binding then some { s with progress := .spawned } else none
  | .push i => (on_serve l i fun s =>
      if s.progress = .spawned then some { s with progress := .registered } else none).map
      fun l => { l with tasks := l.tasks ++ [i] }
  | .resolve i => on_serve l i fun s =>
      if s.resolved = false ∧ (s.progress = .registered ∨ s.progress = .gone)
      then some { s with resolved := true } else none
  | .cancel i => on_serve l i fun s =>
      if s.resolved = false then some { s with resolved := true } else none
  | .drop i => on_serve l i fun s =>
      if s.resolved = true ∧ s.progress = .binding then some { s with progress := .gone } else none
  | .close => some (record_end (drain l))
  | .shutdown => some { l with shutdowns := l.shutdowns ++ [.waiting] }
  | .shutdown_drain k => (on_shutdown l k fun
      | .waiting => some .drained
      -- a poll that was under way when the future was cancelled
      | .cancelled => some .ended
      | _ => none).map drain
  | .shutdown_done k => (on_shutdown l k fun
      | .drained => some .ended
      | _ => none).map record_end
  | .shutdown_cancel k => (on_shutdown l k fun
      | .waiting => some .cancelled
      | .drained => some .ended
      | _ => none).map record_end

/-! ## Every task is aborted -/

/-- Once the calls made before an end of the listener have all resolved, the tasks
they spawned are aborted. -/
def AllAborted (l : Listener) : Prop :=
  ∀ n ∈ l.ends, (∀ i s, i < n → l.serves[i]? = some s → s.resolved = true) →
    ∀ i s, i < n → l.serves[i]? = some s → s.progress.has_task = true → i ∈ l.aborted

/-- No call is between its spawn and its push. -/
def none_spawned (l : Listener) : Bool := l.serves.all fun s => decide (s.progress ≠ .spawned)

/-- No end overtakes a call: a task is spawned with no end of the listener since the
call was made, no end comes between a spawn and its push, and `shutdown` ends, by
itself or cancelled, only with nothing on the list. -/
def prompt (l : Listener) : Label → Bool
  | .spawn i => l.ends.all (· ≤ i)
  | .close => none_spawned l
  | .shutdown_done _ | .shutdown_cancel _ => decide (l.tasks = []) && none_spawned l
  | _ => true

/-- What prompt runs keep: a registered task is on the list or aborted, no end came
since the call of a task that is not registered yet, and the registered tasks of
calls before an end are aborted. -/
structure Inv (l : Listener) : Prop where
  listed : ∀ i s, l.serves[i]? = some s → s.progress = .registered → i ∈ l.tasks ∨ i ∈ l.aborted
  pending : ∀ i s, l.serves[i]? = some s → s.progress = .spawned → ∀ n ∈ l.ends, n ≤ i
  ended : ∀ i s, l.serves[i]? = some s → s.progress = .registered → ∀ n ∈ l.ends, i < n →
    i ∈ l.aborted

/-- It says more than was asked for: the tasks are aborted whether the calls have resolved or
not. -/
theorem Inv.allAborted {l : Listener} (h : Inv l) : AllAborted l := by
  intro n hn _ i s hi hs ht
  cases hp : s.progress with
  | registered => exact h.ended i s hs hp n hn hi
  | spawned => exact absurd hi (Nat.not_lt.2 (h.pending i s hs hp n hn))
  | binding | gone =>
      rw [hp] at ht
      cases ht

/-- A step of a call changes that call only, -/
theorem on_serve_eq_some {l l' : Listener} {i : ℕ} {f : Serve → Option Serve}
    (h : on_serve l i f = some l') :
    ∃ s s', l.serves[i]? = some s ∧ f s = some s'
      ∧ l' = { l with serves := l.serves.set i s' } := by
  obtain ⟨serves, hmove, rfl⟩ := Option.map_eq_some_iff.1 h
  obtain ⟨s, s', hs, hf, rfl⟩ := move_eq_some.1 hmove
  exact ⟨s, s', hs, hf, rfl⟩

/-- and one of a shutdown none of the calls. -/
theorem on_shutdown_eq_some {l l' : Listener} {k : ℕ} {f : Shutdown → Option Shutdown}
    (h : on_shutdown l k f = some l') : ∃ ss, l' = { l with shutdowns := ss } := by
  obtain ⟨ss, -, rfl⟩ := Option.map_eq_some_iff.1 h
  exact ⟨ss, rfl⟩

/-- The invariant reads the calls at their progress alone: a call that is new, or
that neither gains a task nor registers one, is no concern of it. -/
theorem Inv.of_serves {l : Listener} {serves : List Serve} (h : Inv l)
    (hserves : ∀ (j : ℕ) (t : Serve), serves[j]? = some t → t.progress.has_task = true →
      ∃ s, l.serves[j]? = some s ∧ s.progress = t.progress) :
    Inv { l with serves := serves } := by
  refine ⟨fun j t ht hreg => ?_, fun j t ht hsp => ?_, fun j t ht hreg => ?_⟩
  · obtain ⟨s, hs, hp⟩ := hserves j t ht (by rw [hreg]; rfl)
    exact h.listed j s hs (hp.trans hreg)
  · obtain ⟨s, hs, hp⟩ := hserves j t ht (by rw [hsp]; rfl)
    exact h.pending j s hs (hp.trans hsp)
  · obtain ⟨s, hs, hp⟩ := hserves j t ht (by rw [hreg]; rfl)
    exact h.ended j s hs (hp.trans hreg)

/-- A new call has no task. -/
theorem Inv.serve {l : Listener} (h : Inv l) :
    Inv { l with serves := l.serves ++ [⟨.binding, false⟩] } := by
  refine h.of_serves fun j t ht htask => ?_
  rcases getElem?_concat_cases ht with ⟨-, rfl⟩ | ht
  · cases htask
  · exact ⟨t, ht, rfl⟩

/-- A call that resolves, or goes without a task, changes nothing for the tasks. -/
theorem Inv.idle {l : Listener} {i : ℕ} {s s' : Serve} (h : Inv l) (hs : l.serves[i]? = some s)
    (hp : s.progress = s'.progress ∨ s'.progress = .gone) :
    Inv { l with serves := l.serves.set i s' } := by
  refine h.of_serves fun j t ht htask => ?_
  rcases getElem?_set_cases ht with ⟨rfl, rfl⟩ | ⟨-, ht⟩
  · rcases hp with hp | hp
    · exact ⟨s, hs, hp⟩
    · rw [hp] at htask
      cases htask
  · exact ⟨t, ht, rfl⟩

/-- A task is spawned with no end since its call was made. -/
theorem Inv.spawn {l : Listener} {i : ℕ} {s : Serve} (h : Inv l)
    (hprompt : ∀ n ∈ l.ends, n ≤ i) :
    Inv { l with serves := l.serves.set i { s with progress := .spawned } } := by
  refine ⟨fun j t ht hreg => ?_, fun j t ht hsp => ?_, fun j t ht hreg => ?_⟩
  · rcases getElem?_set_cases ht with ⟨-, rfl⟩ | ⟨-, ht⟩
    · cases hreg
    · exact h.listed j t ht hreg
  · rcases getElem?_set_cases ht with ⟨rfl, -⟩ | ⟨-, ht⟩
    · exact hprompt
    · exact h.pending j t ht hsp
  · rcases getElem?_set_cases ht with ⟨-, rfl⟩ | ⟨-, ht⟩
    · cases hreg
    · exact h.ended j t ht hreg

/-- A task that is pushed is on the list. No end came since its call, so it is not among those
that must be aborted by now. -/
theorem Inv.push {l : Listener} {i : ℕ} {s : Serve} (h : Inv l) (hs : l.serves[i]? = some s)
    (hp : s.progress = .spawned) :
    Inv { l with
      serves := l.serves.set i { s with progress := .registered }, tasks := l.tasks ++ [i] } := by
  refine ⟨fun j t ht hreg => ?_, fun j t ht hsp => ?_, fun j t ht hreg n hn hlt => ?_⟩
  · rcases getElem?_set_cases ht with ⟨rfl, -⟩ | ⟨-, ht⟩
    · exact .inl (List.mem_append_right _ (List.mem_singleton_self _))
    · exact (h.listed j t ht hreg).imp_left (List.mem_append_left _)
  · rcases getElem?_set_cases ht with ⟨-, rfl⟩ | ⟨-, ht⟩
    · cases hsp
    · exact h.pending j t ht hsp
  · rcases getElem?_set_cases ht with ⟨rfl, -⟩ | ⟨-, ht⟩
    · exact absurd hlt (Nat.not_lt.2 (h.pending j s hs hp n hn))
    · exact h.ended j t ht hreg n hn hlt

/-- What was on the list is aborted. -/
theorem Inv.drain {l : Listener} (h : Inv l) : Inv (drain l) := by
  refine ⟨fun j t ht hreg => .inr ?_, h.pending, fun j t ht hreg n hn hlt => ?_⟩
  · exact List.mem_append.2 (h.listed j t ht hreg).symm
  · exact List.mem_append_left _ (h.ended j t ht hreg n hn hlt)

/-- An end with nothing on the list and no call between its spawn and its push. -/
theorem Inv.record_end {l : Listener} (h : Inv l) (htasks : l.tasks = [])
    (hnone : none_spawned l = true) : Inv (record_end l) := by
  refine ⟨h.listed, fun j t ht hsp => ?_, fun j t ht hreg n hn hlt => ?_⟩
  · have hne := List.all_eq_true.1 hnone t (List.mem_of_getElem? ht)
    exact absurd hsp (of_decide_eq_true hne)
  · refine (h.listed j t ht hreg).resolve_left ?_
    rw [htasks]
    exact List.not_mem_nil

/-- The shutdowns matter by what they do to the list. -/
theorem Inv.of_shutdowns {l : Listener} (h : Inv l) (ss : List Shutdown) :
    Inv { l with shutdowns := ss } := ⟨h.listed, h.pending, h.ended⟩

/-- **One prompt step** keeps the invariant. -/
theorem step_inv {l l' : Listener} {a : Label} (h : Inv l) (hp : prompt l a = true)
    (hs : step l a = some l') : Inv l' := by
  cases a with
  | serve =>
      cases hs
      exact h.serve
  | fail i | drop i =>
      obtain ⟨s, s', hget, hf, rfl⟩ := on_serve_eq_some hs
      split at hf
      · cases hf
        exact h.idle hget (.inr rfl)
      · cases hf
  | resolve i | cancel i =>
      obtain ⟨s, s', hget, hf, rfl⟩ := on_serve_eq_some hs
      split at hf
      · cases hf
        exact h.idle hget (.inl rfl)
      · cases hf
  | spawn i =>
      obtain ⟨s, s', hget, hf, rfl⟩ := on_serve_eq_some hs
      split at hf
      · cases hf
        exact h.spawn (by simpa [prompt] using hp)
      · cases hf
  | push i =>
      obtain ⟨l₁, h₁, rfl⟩ := Option.map_eq_some_iff.1 hs
      obtain ⟨s, s', hget, hf, rfl⟩ := on_serve_eq_some h₁
      split at hf
      · rename_i hsp
        cases hf
        exact h.push hget hsp
      · cases hf
  | close =>
      cases hs
      exact h.drain.record_end rfl hp
  | shutdown =>
      cases hs
      exact h.of_shutdowns _
  | shutdown_drain k =>
      obtain ⟨l₁, h₁, rfl⟩ := Option.map_eq_some_iff.1 hs
      obtain ⟨ss, rfl⟩ := on_shutdown_eq_some h₁
      exact (h.of_shutdowns ss).drain
  | shutdown_done k | shutdown_cancel k =>
      obtain ⟨l₁, h₁, rfl⟩ := Option.map_eq_some_iff.1 hs
      obtain ⟨ss, rfl⟩ := on_shutdown_eq_some h₁
      obtain ⟨htasks, hnone⟩ := Bool.and_eq_true_iff.1 hp
      exact (h.of_shutdowns ss).record_end (of_decide_eq_true htasks) hnone

/-- **Ending a listener ends its serve loops, unless a call is overtaken.** In every
run in which no end overtakes a `serve_*` call and no `shutdown` ends over running
tasks: once the calls made before an end have resolved, each task they
spawned is aborted. -/
theorem serve_tasks_aborted {ls : List Label} {l : Listener} (h : run step init ls = some l)
    (hm : Meets step (fun l a => prompt l a = true) init ls) : AllAborted l := by
  have hinit : Inv init := ⟨nofun, nofun, nofun⟩
  exact (meets_inv step (fun _ _ _ => step_inv) hinit hm h).allAborted

/-- Two calls, one of which fails; then a shutdown. -/
def serve_then_shutdown : List Label :=
  [.serve, .serve, .spawn 1, .fail 0, .push 1, .resolve 0, .resolve 1, .shutdown,
    .shutdown_drain 0, .shutdown_done 0, .serve, .spawn 2]

/-- The hypotheses can be met, and there is a task to abort. -/
theorem serve_tasks_aborted_shutdown :
    ∃ l, run step init serve_then_shutdown = some l ∧ l.ends = [2] ∧ l.aborted = [1]
      ∧ AllAborted l :=
  ⟨_, rfl, rfl, rfl, @serve_tasks_aborted serve_then_shutdown _ rfl (by decide)⟩

/-- `close()` between the start and the end of a bind: the serve loop runs on. And a
`shutdown` that is cancelled aborts nothing. -/
theorem serve_task_outlives_close :
    (∃ l, run step init [.serve, .close, .spawn 0, .push 0, .resolve 0] = some l ∧ ¬ AllAborted l)
    ∧ ∃ l, run step init
        [.serve, .spawn 0, .push 0, .resolve 0, .shutdown, .shutdown_cancel 0] = some l
      ∧ ¬ AllAborted l := by
  have hresolved : ∀ i s, i < 1 → [(⟨.registered, true⟩ : Serve)][i]? = some s →
      s.resolved = true := by
    intro i s _ hs
    have hmem := List.mem_of_getElem? hs
    simp only [List.mem_singleton] at hmem
    rw [hmem]
  refine ⟨⟨_, rfl, fun h => ?_⟩, ⟨_, rfl, fun h => ?_⟩⟩
  · have := h 1 (by decide) hresolved 0 ⟨.registered, true⟩ (by decide) rfl rfl
    cases this
  · have := h 1 (by decide) hresolved 0 ⟨.registered, true⟩ (by decide) rfl rfl
    cases this

end ZmuxPy.ListenerTasks
