/-
`layer::wrap` (`src/layer.rs`, `PipeIo.wrap`) over a `_CarrierTransport`: what
becomes of the carrier when its layer does not come up.

`wrap` gives a `CarrierStream` to Python, runs `zmux._layer.run` as a task and
waits for it. If the task fails, `wrap` takes both halves out of the stream
(`release`) and returns the error; if the `wrap` future is dropped, it cancels
the task and leaves the halves to Python's collector. Both halves sit behind a
lock, and every `CarrierStream` operation keeps its lock while it waits for the
peer. `release` waits for the same locks.

The transport is the machine of `CarrierTransport`, whose two loops live on
after the task failed. A read or write it begins is an operation on a `Half`
here: it asks for the lock, gets the half or finds it released, and its result
travels back to the loop. An operation whose asyncio future was cancelled is
dropped by the runtime.

Steps are divided in two. Internal ones are those of the event loop, the runtime
and the collector; the peer, the application and the layer make the others. A
state without internal steps is quiescent, and `layer_failure_closes` says when
the carrier is closed there.
-/
import Mathlib.Data.List.Basic
import Mathlib.Tactic.Basic
import ZmuxPy.CarrierTransport
import ZmuxPy.FairLock
import ZmuxPy.Machine

set_option autoImplicit false

namespace ZmuxPy.LayerWrap

open Machine FairLock Asyncio
open CarrierTransport (Transport Exc Event)

/-! ## A half of the carrier -/

/-- Who may ask for a half: an operation of the transport, or `release`. -/
inductive Owner where
  | op
  | release
  deriving DecidableEq, Repr

/-- The transport's operation on a half: none, a future on the runtime, or one
that is complete, with its result on the way to the event loop. -/
inductive Op (ρ : Type) where
  | idle
  | live
  | finished (r : ρ)
  deriving DecidableEq, Repr

/-- A half of a `CarrierStream`: the operation on it, its lock, and whether it is
still there. -/
structure Half (ρ : Type) where
  op : Op ρ
  lock : List Owner
  present : Bool
  deriving DecidableEq, Repr

namespace Half

variable {ρ : Type}

/-- A half that nobody has asked for. -/
def new : Half ρ := { op := .idle, lock := [], present := true }

/-- The transport begins an operation. -/
def begin (h : Half ρ) (b : Bool) : Half ρ := if b then { h with op := .live } else h

/-- The runtime polls the operation: it asks for the lock, or has it and finds
the half released. With the half it waits for the peer. -/
def poll (released : ρ) (h : Half ρ) : Option (Half ρ) :=
  match h.op with
  | .live =>
    -- its first poll, with a place in the queue from then on
    if .op ∉ h.lock then some { h with lock := ask h.lock .op }
    -- `ok_or_else(released)`
    else if Holds h.lock .op ∧ h.present = false then
      some { h with op := .finished released, lock := leave h.lock .op }
    else none
  | _ => none

/-- The peer lets the operation complete. -/
def answer (r : ρ) (h : Half ρ) : Option (Half ρ) :=
  match h.op with
  | .live =>
    if Holds h.lock .op ∧ h.present = true then
      some { h with op := .finished r, lock := leave h.lock .op }
    else none
  | _ => none

/-- The runtime drops the operation. -/
def drop (h : Half ρ) : Half ρ := { h with op := .idle, lock := leave h.lock .op }

/-- `release` asks for the lock and, once it has it, takes the half. -/
def release (h : Half ρ) : Option (Half ρ) :=
  if Holds (ask h.lock .release) .release then
    some { h with lock := leave (ask h.lock .release) .release, present := false }
  else if .release ∉ h.lock then some { h with lock := ask h.lock .release }
  else none

/-- `release` is dropped. -/
def abandon (h : Half ρ) : Half ρ := { h with lock := leave h.lock .release }

/-- An operation has the half and waits for the peer. -/
def AtPeer (h : Half ρ) : Prop := Holds h.lock .op ∧ h.present = true

/-- An operation has asked for a half that is still there. -/
def Asked (h : Half ρ) : Prop := .op ∈ h.lock ∧ h.present = true

/-- Whoever asks next has the half. -/
def Free (h : Half ρ) : Prop := h.lock = [] ∧ h.present = true

/-- All three can be checked, so that runs can be tested for them. -/
instance AtPeer.decidable (h : Half ρ) : Decidable h.AtPeer :=
  inferInstanceAs (Decidable (_ ∧ _))

instance Asked.decidable (h : Half ρ) : Decidable h.Asked :=
  inferInstanceAs (Decidable (_ ∧ _))

instance Free.decidable (h : Half ρ) : Decidable h.Free :=
  inferInstanceAs (Decidable (_ ∧ _))

/-! ### What happens to a half -/

/-- A step of an operation: `release` keeps its place, the half stays, and no
operation comes to the peer but by a poll that finds the half free. -/
structure OpStep (polled : Prop) (h h' : Half ρ) : Prop where
  present : h'.present = h.present
  nodup : h.lock.Nodup → h'.lock.Nodup
  release : .release ∈ h'.lock ↔ .release ∈ h.lock
  atPeer : h.lock.Nodup → h'.AtPeer → h.AtPeer ∨ polled ∧ h.Free

variable {polled : Prop}

/-- The lock and the half stay as they are. -/
theorem OpStep.of_eq {h h' : Half ρ} (hl : h'.lock = h.lock) (hp : h'.present = h.present) :
    OpStep polled h h' := by
  refine ⟨hp, fun hn => hl ▸ hn, by rw [hl], fun _ ha => .inl ?_⟩
  unfold AtPeer at ha ⊢
  rwa [hl, hp] at ha

/-- The operation leaves the lock. -/
theorem OpStep.of_leave {h h' : Half ρ} (hl : h'.lock = leave h.lock .op)
    (hp : h'.present = h.present) : OpStep polled h h' := by
  refine ⟨hp, fun hn => hl ▸ nodup_leave hn _, ?_, fun hn ha => ?_⟩
  · rw [hl, leave]
    exact List.mem_erase_of_ne (by simp)
  -- whoever left is not first in the queue
  · have hm : .op ∈ leave h.lock .op := hl ▸ List.mem_of_mem_head? ha.1
    exact absurd rfl ((mem_leave hn).1 hm).1

/-- The operation asks for the lock. -/
theorem OpStep.of_ask {h h' : Half ρ} (hl : h'.lock = ask h.lock .op)
    (hp : h'.present = h.present) (hnot : .op ∉ h.lock) (hpolled : polled) :
    OpStep polled h h' := by
  refine ⟨hp, fun hn => hl ▸ nodup_ask hn _, by simp [hl, mem_ask], fun _ ha => .inr ⟨hpolled, ?_⟩⟩
  obtain ⟨hh, hpres⟩ := ha
  exact ⟨eq_nil_of_holds_ask hnot (hl ▸ hh), hp ▸ hpres⟩

/-- A new operation has not asked for the lock yet, -/
theorem begin_opStep (h : Half ρ) (b : Bool) : OpStep polled h (h.begin b) := by
  unfold Half.begin
  split
  · exact .of_eq rfl rfl
  · exact .of_eq rfl rfl

/-- its first poll asks, and a later one finds the half released or waits, -/
theorem poll_opStep {released : ρ} {h h' : Half ρ} (hp : h.poll released = some h')
    (hpolled : polled) : OpStep polled h h' := by
  unfold poll at hp
  split at hp
  · split at hp
    · rename_i hnot
      cases hp
      exact .of_ask rfl rfl hnot hpolled
    · split at hp <;> cases hp
      exact .of_leave rfl rfl
  · cases hp

/-- and the peer's answer ends it. -/
theorem answer_opStep {r : ρ} {h h' : Half ρ} (hp : h.answer r = some h') :
    OpStep polled h h' := by
  unfold answer at hp
  split at hp
  · split at hp <;> cases hp
    exact .of_leave rfl rfl
  · cases hp

/-- Whoever is in the lock's queue, an operation or `release` has the lock. -/
theorem holds_op {q : List Owner} {o : Owner} (ho : o ∈ q) (hrel : ¬ Holds q .release) :
    Holds q .op := by
  cases q with
  | nil => cases ho
  | cons o' rest =>
      cases o' with
      | op => rfl
      | release => exact absurd rfl hrel

/-- `release` waits only behind an operation. -/
theorem release_eq_none {h : Half ρ} (hr : h.release = none) : Holds h.lock .op := by
  unfold release at hr
  split at hr
  · cases hr
  · rename_i hnot
    split at hr
    · cases hr
    · rename_i hmem
      rw [not_not] at hmem
      rw [ask_of_mem hmem] at hnot
      exact holds_op hmem hnot

/-- `release` has taken the half, or waits in the queue. -/
theorem release_cases {h h' : Half ρ} (hr : h.release = some h') :
    (h'.present = false ∧ h'.lock = leave (ask h.lock .release) .release)
    ∨ h'.present = h.present ∧ h'.lock = ask h.lock .release := by
  unfold release at hr
  split at hr
  · cases hr
    exact .inl ⟨rfl, rfl⟩
  · split at hr <;> cases hr
    exact .inr ⟨rfl, rfl⟩

/-- Once it has the half, it is out of the queue. -/
theorem release_notMem_leave {q : List Owner} (hn : q.Nodup) : .release ∉ leave q .release :=
  fun hm => ((mem_leave hn).1 hm).1 rfl

/-- `release` has taken the half and left, or waits. -/
theorem release_spec {h h' : Half ρ} (hn : h.lock.Nodup) (hp : h.present = true)
    (hr : h.release = some h') :
    h'.lock.Nodup ∧ (h'.present = false ∧ .release ∉ h'.lock ∨ h'.present = true) := by
  have hask := nodup_ask hn .release
  rcases release_cases hr with ⟨hp', hl⟩ | ⟨hp', hl⟩ <;> rw [hl, hp']
  · exact ⟨nodup_leave hask _, .inl ⟨rfl, release_notMem_leave hask⟩⟩
  · exact ⟨hask, .inr hp⟩

/-- Asking for `release` puts no operation at the peer. -/
theorem release_atPeer {h h' : Half ρ} (hr : h.release = some h') (ha : ¬ h.AtPeer) :
    ¬ h'.AtPeer := by
  rcases release_cases hr with ⟨hp, -⟩ | ⟨hp, hl⟩
  · rintro ⟨-, hpres⟩
    rw [hp] at hpres
    cases hpres
  · rintro ⟨hh, hpres⟩
    rw [hl] at hh
    exact ha ⟨hh.of_ask (by simp), hp ▸ hpres⟩

/-- An operation that the runtime cannot move on, without `release` in its way,
is at the peer. -/
theorem atPeer_of_poll_none {released : ρ} {h : Half ρ} (hop : h.op = .live)
    (hrel : .release ∉ h.lock) (hp : h.poll released = none) : h.AtPeer := by
  unfold poll at hp
  rw [hop] at hp
  simp only at hp
  split at hp
  · cases hp
  · rename_i hmem
    rw [not_not] at hmem
    have hh : Holds h.lock .op := holds_op hmem fun hr => hrel (List.mem_of_mem_head? hr)
    split at hp
    · cases hp
    · rename_i hnot
      refine ⟨hh, ?_⟩
      by_contra hpres
      exact hnot ⟨hh, Bool.eq_false_iff.2 hpres⟩

end Half

/-! ## The model -/

/-- The task of `run`: not started, in the layer, in the layer with a
cancellation delivered to it, failed, or returned, with the pumps running or
over. -/
inductive Run where
  | queued
  | running
  | cancelling
  | failed
  | pumping
  | finished
  deriving DecidableEq, Repr

/-- The future of `wrap`: waiting for the task, in `release` at either lock,
returned with the error or with the pipe, or dropped. -/
inductive Wrap where
  | waiting
  | releasing_r
  | releasing_w
  | failed
  | piped
  | dropped
  deriving DecidableEq, Repr

/-- The transport with its two halves, the task of `run`, the future of `wrap`, and who else
refers to the stream. -/
structure State where
  transport : Transport
  r : Half (Except Exc Bytes)
  w : Half (Except Exc Unit)
  run : Run
  wrap : Wrap
  /-- The layer or the application keeps a reference to the stream. -/
  kept : Bool
  /-- Python's collector has freed the stream. -/
  collected : Bool
  deriving DecidableEq, Repr

/-- `wrap` has made the stream and handed `run` to the event loop. -/
def init : State :=
  { transport := CarrierTransport.init false, r := .new, w := .new, run := .queued, wrap := .waiting
    kept := false, collected := false }

/-- Whether the transport called the carrier in a step. -/
def began (t t' : Transport) (p : Event → Bool) : Bool := (t'.log.drop t.log.length).any p

/-- The transport's call of `CarrierStream.read`, -/
def is_read : Event → Bool
  | .read => true
  | _ => false

/-- and of `write` or `shutdown`, which share the other half. -/
def is_write : Event → Bool
  | .write _ | .shutdown => true
  | _ => false

/-- A step of the transport, with the operations it begins. -/
def lift (s : State) (t : Transport) : State :=
  { s with
    transport := t
    r := s.r.begin (began s.transport t is_read)
    w := s.w.begin (began s.transport t is_write) }

/-- The steps of the transport that no carrier operation is part of. -/
def own : CarrierTransport.Label → Bool
  | .made | .read_done _ | .write_done _ | .shutdown_done _ => false
  | _ => true

/-- The `RuntimeError` of a half that was released. -/
def released {α : Type} : Except Exc α := .error .runtime_error

/-- The read loop still waits for its operation. If it does not, the future is cancelled, and
the runtime drops the operation. -/
def awaits_read (t : Transport) : Bool :=
  match t.reader with
  | .read .pending => true
  | _ => false

/-- The same for the write loop. -/
def awaits_write (t : Transport) : Bool :=
  match t.writer with
  | .write _ .pending | .shutdown .pending => true
  | _ => false

/-- The loop gets the result of a read; one for a cancelled future is discarded. -/
def post_read (s : State) : Option State :=
  match s.r.op with
  | .finished res =>
    if CarrierTransport.current s.transport = none then
      some { s with
        r := { s.r with op := .idle }
        -- `Complete` on a future that is done already changes nothing
        transport := (CarrierTransport.step s.transport (.read_done res)).getD s.transport }
    else none
  | _ => none

/-- The loop gets the result of a write or of the shutdown. -/
def post_write (s : State) : Option State :=
  match s.w.op with
  | .finished res =>
    if CarrierTransport.current s.transport = none then
      some { s with
        w := { s.w with op := .idle }
        transport := (CarrierTransport.step s.transport (.write_done res)).getD
          ((CarrierTransport.step s.transport (.shutdown_done res)).getD s.transport) }
    else none
  | _ => none

/-- `ours.release().await`. -/
def poll_release (s : State) : Option State :=
  match s.wrap with
  | .releasing_r => s.r.release.map fun h =>
    { s with r := h, wrap := if h.present then .releasing_r else .releasing_w }
  | .releasing_w => s.w.release.map fun h =>
    { s with w := h, wrap := if h.present then .releasing_w else .failed }
  | _ => none

/-- The `wrap` future is dropped: a task that runs is cancelled, one that has not
started never does, and a `release` leaves the locks' queues. -/
def drop_wrap (s : State) : Option State :=
  match s.wrap with
  | .waiting =>
    some { s with
      wrap := .dropped
      run := match s.run with
        -- `Start` finds the slot dropped and closes the coroutine
        | .queued => .failed
        -- `CancelOnDrop` hands the task's `cancel` to the loop
        | .running => .cancelling
        | run => run }
  | .releasing_r | .releasing_w =>
    some { s with wrap := .dropped, r := s.r.abandon, w := s.w.abandon }
  | _ => none

/-- The event loop has nothing to do for the transport. -/
def idle (t : Transport) : Bool :=
  CarrierTransport.current t = none && (CarrierTransport.run_reader t).isNone
    && (CarrierTransport.run_writer t).isNone && t.losing = []

/-- Nothing refers to the stream: `wrap` and the task are over, no operation is
under way and no loop can run. -/
def unreferenced (s : State) : Bool :=
  (s.wrap = .dropped || s.wrap = .failed) && (s.run = .failed || s.run = .finished) && !s.kept
    && s.r.op = .idle && s.w.op = .idle && idle s.transport

/-- Python's collector frees the stream, and with it the halves. -/
def collect (s : State) : Option State :=
  if !s.collected && unreferenced s then
    some { s with
      collected := true
      r := { s.r with present := false }
      w := { s.w with present := false } }
  else none

/-- What may happen next. -/
inductive Label where
  /-- The transport: a call of it, or a step of its loops. -/
  | transport (l : CarrierTransport.Label)
  | poll_read
  | poll_write
  /-- The runtime drops an operation nobody awaits. -/
  | drop_read
  | drop_write
  | post_read
  | post_write
  /-- The peer answers an operation. -/
  | answer_read (res : Except Exc Bytes)
  | answer_write (res : Except Exc Unit)
  | run_start
  /-- The layer raises, or `run` cannot be started. -/
  | run_fails
  | run_cancelled
  /-- The layer goes on after a cancellation. -/
  | swallow
  | run_returns
  | pumps_end
  | keep
  | let_go
  /-- The result of the task reaches `wrap`. -/
  | wrap_resumes
  | poll_release
  | drop_wrap
  | collect

/-- One step. The transport runs from the start of the task on, and until the stream is
collected; its loops outlive the task. -/
def step (s : State) : Label → Option State
  | .transport l =>
    if own l = true ∧ s.run ≠ .queued ∧ s.collected = false then
      (CarrierTransport.step s.transport l).map (lift s)
    else none
  | .poll_read => (s.r.poll released).map fun h => { s with r := h }
  | .poll_write => (s.w.poll released).map fun h => { s with w := h }
  | .drop_read =>
    match s.r.op with
    | .live => if awaits_read s.transport then none else some { s with r := s.r.drop }
    | _ => none
  | .drop_write =>
    match s.w.op with
    | .live => if awaits_write s.transport then none else some { s with w := s.w.drop }
    | _ => none
  | .post_read => post_read s
  | .post_write => post_write s
  | .answer_read res => (s.r.answer res).map fun h => { s with r := h }
  | .answer_write res => (s.w.answer res).map fun h => { s with w := h }
  | .run_start =>
    match s.run with
    | .queued => (CarrierTransport.step s.transport .made).map fun t =>
      { s with transport := t, run := .running }
    | _ => none
  | .run_fails =>
    match s.run with
    | .queued | .running => some { s with run := .failed }
    | _ => none
  | .run_cancelled => if s.run = .cancelling then some { s with run := .failed } else none
  | .swallow => if s.run = .cancelling then some { s with run := .running } else none
  | .run_returns =>
    match s.run with
    | .running | .cancelling => some { s with run := .pumping }
    | _ => none
  | .pumps_end => if s.run = .pumping then some { s with run := .finished } else none
  | .keep =>
    match s.run with
    | .running | .cancelling | .pumping => some { s with kept := true }
    | _ => none
  | .let_go => some { s with kept := false }
  | .wrap_resumes =>
    match s.wrap, s.run with
    -- `if let Err(e) = r { ours.release().await; .. }`
    | .waiting, .failed => some { s with wrap := .releasing_r }
    | .waiting, .pumping | .waiting, .finished => some { s with wrap := .piped }
    | _, _ => none
  | .poll_release => poll_release s
  | .drop_wrap => drop_wrap s
  | .collect => collect s

/-! ## Failed layers and quiescent states -/

/-- `wrap` does not return a pipe: the layer failed, or the future was dropped. -/
def Failing : Wrap → Prop
  | .releasing_r | .releasing_w | .failed | .dropped => True
  | .waiting | .piped => False

/-- Whether `wrap` has failed can be checked, -/
instance Failing.decidable : ∀ wrap, Decidable (Failing wrap)
  | .releasing_r | .releasing_w | .failed | .dropped => .isTrue trivial
  | .waiting | .piped => .isFalse id

/-- The steps of the event loop, the runtime and the collector. -/
def Label.internal : Label → Bool
  -- these are calls of the application, the protocol or the layer
  | .transport (.call _) | .transport (.cancel _) => false
  | .transport _ | .poll_read | .poll_write | .drop_read | .drop_write | .post_read | .post_write
  | .run_start | .run_cancelled | .wrap_resumes | .poll_release | .collect => true
  | .answer_read _ | .answer_write _ | .run_fails | .swallow | .run_returns | .pumps_end | .keep
  | .let_go | .drop_wrap => false

/-- Only the peer, the application and the layer could still act. -/
def Quiescent (s : State) : Prop := ∀ l : Label, l.internal = true → step s l = none

/-- Both halves were taken and dropped, and an error was returned. -/
def Closed (s : State) : Prop :=
  s.r.present = false ∧ s.w.present = false ∧ (s.wrap = .failed ∨ s.wrap = .dropped)

/-- and so can whether the carrier is closed, -/
instance Closed.decidable (s : State) : Decidable (Closed s) :=
  inferInstanceAs (Decidable (_ ∧ _ ∧ _))

/-- The task of `run` and its pumps are over. -/
def Over (run : Run) : Prop := run = .failed ∨ run = .finished

/-- What the steps of a run are asked for. When `wrap` learns of the failure, no
operation is at the peer, and none gets a half after that. A `wrap` that is
dropped besides leaves no operation in a queue, and the layer neither keeps the
stream nor goes on. -/
def Prompt (s : State) : Label → Prop
  | .wrap_resumes => s.run = .failed → ¬ s.r.AtPeer ∧ ¬ s.w.AtPeer
  | .drop_wrap => ¬ s.r.Asked ∧ ¬ s.w.Asked ∧ s.kept = false
      ∧ s.run ≠ .pumping
  | .poll_read => Failing s.wrap → ¬ s.r.Free
  | .poll_write => Failing s.wrap → ¬ s.w.Free
  | .keep | .run_returns | .swallow => s.wrap ≠ .dropped
  | _ => True

/-- and whether a step meets what is asked of it. -/
instance Prompt.decidable (s : State) : ∀ l, Decidable (Prompt s l)
  | .wrap_resumes => inferInstanceAs (Decidable (s.run = .failed → ¬ s.r.AtPeer ∧ ¬ s.w.AtPeer))
  | .drop_wrap => inferInstanceAs (Decidable (¬ s.r.Asked ∧ ¬ s.w.Asked ∧ s.kept = false
      ∧ s.run ≠ .pumping))
  | .poll_read => inferInstanceAs (Decidable (Failing s.wrap → ¬ s.r.Free))
  | .poll_write => inferInstanceAs (Decidable (Failing s.wrap → ¬ s.w.Free))
  | .keep | .run_returns | .swallow => inferInstanceAs (Decidable (s.wrap ≠ .dropped))
  | .transport _ | .drop_read | .drop_write | .post_read | .post_write | .answer_read _
  | .answer_write _ | .run_start | .run_fails | .run_cancelled | .pumps_end | .let_go
  | .poll_release | .collect => .isTrue trivial

/-! ### The invariant -/

/-- What is left of the halves in each phase of `wrap`. -/
def HalvesInv (s : State) : Prop :=
  match s.wrap with
  | .waiting | .releasing_r => s.r.present = true ∧ s.w.present = true
  | .releasing_w => s.r.present = false ∧ s.w.present = true
  | .failed => s.r.present = false ∧ s.w.present = false
  | .dropped => s.collected = false → s.w.present = true
  | .piped => True

/-- What every run keeps: nobody is twice in a queue, `release` is in the queue it is at, the
halves are as the phase of `wrap` has left them, and what is collected is not used. -/
structure Inv (s : State) : Prop where
  r_nodup : s.r.lock.Nodup
  w_nodup : s.w.lock.Nodup
  r_release : .release ∈ s.r.lock → s.wrap = .releasing_r
  w_release : .release ∈ s.w.lock → s.wrap = .releasing_w
  halves : HalvesInv s
  collected : s.collected = true → s.r.present = false ∧ s.w.present = false
    ∧ s.kept = false ∧ Over s.run ∧ (s.wrap = .dropped ∨ s.wrap = .failed)
  started : Failing s.wrap → s.run ≠ .queued
  ended : Failing s.wrap → s.wrap = .dropped ∨ Over s.run

/-- At first both halves are there and free. -/
theorem init_inv : Inv init := by
  constructor <;> simp [init, Half.new, HalvesInv, Failing]

/-- What a step does to the task of `run` and to the references to the stream. -/
structure TaskStep (s : State) (l : Label) (s' : State) : Prop where
  ended : Over s.run → s'.run = s.run
  kept : s'.kept = true → s.kept = true ∨ l = .keep ∧ ¬ Over s.run
  queued : s.run ≠ .queued → s'.run ≠ .queued
  cancelling : s.run = .cancelling →
    s'.run = .cancelling ∨ Over s'.run ∨ l = .run_returns ∨ l = .swallow

/-- A step that does not concern the task. -/
theorem TaskStep.of_eq {s s' : State} {l : Label} (hrun : s'.run = s.run)
    (hkept : s'.kept = true → s.kept = true) : TaskStep s l s' :=
  ⟨fun _ => hrun, fun h => .inl (hkept h), fun h => hrun ▸ h, fun h => .inl (hrun.trans h)⟩

/-- A step of the transport, of an operation or of the layer. -/
structure Around (s : State) (l : Label) (s' : State) : Prop where
  r : Half.OpStep (l = .poll_read) s.r s'.r
  w : Half.OpStep (l = .poll_write) s.w s'.w
  task : TaskStep s l s'
  wrap : s'.wrap = s.wrap
  collected : s'.collected = s.collected

/-- A step of the task leaves the halves alone. -/
theorem Around.of_task {s s' : State} {l : Label} (hr : s'.r = s.r) (hw : s'.w = s.w)
    (hwrap : s'.wrap = s.wrap) (hcol : s'.collected = s.collected) (htask : TaskStep s l s') :
    Around s l s' :=
  ⟨hr ▸ .of_eq rfl rfl, hw ▸ .of_eq rfl rfl, htask, hwrap, hcol⟩

/-- A step of the reading half leaves everything else alone, -/
theorem Around.of_r {s s' : State} {l : Label} (hr : Half.OpStep (l = .poll_read) s.r s'.r)
    (heq : s' = { s with r := s'.r, transport := s'.transport }) : Around s l s' := by
  refine ⟨hr, ?_, .of_eq ?_ ?_, ?_, ?_⟩ <;> rw [heq]
  · exact .of_eq rfl rfl
  · exact id

/-- and so does one of the writing half. -/
theorem Around.of_w {s s' : State} {l : Label} (hw : Half.OpStep (l = .poll_write) s.w s'.w)
    (heq : s' = { s with w := s'.w, transport := s'.transport }) : Around s l s' := by
  refine ⟨?_, hw, .of_eq ?_ ?_, ?_, ?_⟩ <;> rw [heq]
  · exact .of_eq rfl rfl
  · exact id

/-- A step that is none of `wrap`'s or the collector's keeps the invariant. -/
theorem Around.inv {s s' : State} {l : Label} (h : Around s l s') (hs : Inv s) : Inv s' := by
  obtain ⟨h1, h2, h3, h4, h5, h6, h7, h8⟩ := hs
  refine ⟨h.r.nodup h1, h.w.nodup h2, ?_, ?_, ?_, ?_, ?_, ?_⟩
  · rw [h.r.release, h.wrap]
    exact h3
  · rw [h.w.release, h.wrap]
    exact h4
  · unfold HalvesInv at h5 ⊢
    rw [h.wrap, h.collected, h.r.present, h.w.present]
    exact h5
  · rw [h.collected, h.r.present, h.w.present, h.wrap]
    intro hc
    obtain ⟨hr, hw, hkept, hover, hd⟩ := h6 hc
    refine ⟨hr, hw, ?_, by rwa [h.task.ended hover], hd⟩
    by_contra hk
    rw [Bool.not_eq_false] at hk
    -- a stream that was collected gets no new references
    rcases h.task.kept hk with hk | ⟨-, hk⟩
    · rw [hkept] at hk
      cases hk
    · exact hk hover
  · rw [h.wrap]
    exact fun hf => h.task.queued (h7 hf)
  · rw [h.wrap]
    exact fun hf => (h8 hf).imp id fun hover => by rwa [h.task.ended hover]

/-- While `wrap` is there, nothing is collected. -/
theorem Inv.not_collected {s : State} (hs : Inv s)
    (hwrap : s.wrap ≠ .dropped ∧ s.wrap ≠ .failed) : ¬ s.collected = true := by
  intro hc
  rcases (hs.collected hc).2.2.2.2 with h | h
  · exact hwrap.1 h
  · exact hwrap.2 h

/-- `release` takes the halves one after the other. -/
theorem poll_release_inv {s s' : State} (hs : Inv s) (h : poll_release s = some s') :
    Inv s' := by
  have hhal := hs.halves
  unfold poll_release at h
  split at h
  · rename_i hwrap
    simp only [HalvesInv, hwrap] at hhal
    have hnc := hs.not_collected (by simp [hwrap])
    have hwrel : Owner.release ∉ s.w.lock := fun hm => by simpa [hwrap] using hs.w_release hm
    have hrun : s.run ≠ .queued := hs.started (by rw [hwrap]; trivial)
    have hover : Over s.run := (hs.ended (by rw [hwrap]; trivial)).resolve_left (by simp [hwrap])
    obtain ⟨h', hrel, rfl⟩ := Option.map_eq_some_iff.1 h
    obtain ⟨hn, ⟨hp, hnot⟩ | hp⟩ := Half.release_spec hs.r_nodup hhal.1 hrel <;> simp only [hp]
    · exact ⟨hn, hs.w_nodup, fun hm => absurd hm hnot, fun hm => absurd hm hwrel, ⟨hp, hhal.2⟩,
        fun hc => absurd hc hnc, fun _ => hrun, fun _ => .inr hover⟩
    · exact ⟨hn, hs.w_nodup, fun _ => rfl, fun hm => absurd hm hwrel, ⟨hp, hhal.2⟩,
        fun hc => absurd hc hnc, fun _ => hrun, fun _ => .inr hover⟩
  · rename_i hwrap
    simp only [HalvesInv, hwrap] at hhal
    have hnc := hs.not_collected (by simp [hwrap])
    have hrrel : Owner.release ∉ s.r.lock := fun hm => by simpa [hwrap] using hs.r_release hm
    have hrun : s.run ≠ .queued := hs.started (by rw [hwrap]; trivial)
    have hover : Over s.run := (hs.ended (by rw [hwrap]; trivial)).resolve_left (by simp [hwrap])
    obtain ⟨h', hrel, rfl⟩ := Option.map_eq_some_iff.1 h
    obtain ⟨hn, ⟨hp, hnot⟩ | hp⟩ := Half.release_spec hs.w_nodup hhal.2 hrel <;> simp only [hp]
    · exact ⟨hs.r_nodup, hn, fun hm => absurd hm hrrel, fun hm => absurd hm hnot, ⟨hhal.1, hp⟩,
        fun hc => absurd hc hnc, fun _ => hrun, fun _ => .inr hover⟩
    · exact ⟨hs.r_nodup, hn, fun hm => absurd hm hrrel, fun _ => rfl, ⟨hhal.1, hp⟩,
        fun hc => absurd hc hnc, fun _ => hrun, fun _ => .inr hover⟩
  · cases h

/-- A dropped `wrap` leaves the queues, and the halves where they are. -/
theorem drop_wrap_inv {s s' : State} (hs : Inv s) (h : drop_wrap s = some s') : Inv s' := by
  have hhal := hs.halves
  have habandon : ∀ hw : s.wrap ≠ .dropped ∧ s.wrap ≠ .failed, Failing s.wrap →
      s.w.present = true → Inv { s with wrap := .dropped, r := s.r.abandon, w := s.w.abandon } := by
    intro hwrap hf hpres
    have hnc := hs.not_collected hwrap
    refine ⟨nodup_leave hs.r_nodup _, nodup_leave hs.w_nodup _, ?_, ?_, fun _ => hpres,
      fun hc => absurd hc hnc, fun _ => hs.started hf, fun _ => .inl rfl⟩
    · exact fun hm => absurd hm (Half.release_notMem_leave hs.r_nodup)
    · exact fun hm => absurd hm (Half.release_notMem_leave hs.w_nodup)
  unfold drop_wrap at h
  split at h
  · rename_i hwrap
    simp only [HalvesInv, hwrap] at hhal
    have hnc := hs.not_collected (by simp [hwrap])
    cases h
    refine ⟨hs.r_nodup, hs.w_nodup, ?_, ?_, fun _ => hhal.2, fun hc => absurd hc hnc, fun _ => ?_,
      fun _ => .inl rfl⟩
    · exact fun hm => by simpa [hwrap] using hs.r_release hm
    · exact fun hm => by simpa [hwrap] using hs.w_release hm
    · cases hrun : s.run <;> simp
  · rename_i hwrap
    simp only [HalvesInv, hwrap] at hhal
    cases h
    exact habandon (by simp [hwrap]) (by rw [hwrap]; trivial) hhal.2
  · rename_i hwrap
    simp only [HalvesInv, hwrap] at hhal
    cases h
    exact habandon (by simp [hwrap]) (by rw [hwrap]; trivial) hhal.2
  · cases h

/-- What the collector may free nobody refers to. -/
theorem unreferenced_spec {s : State} (h : unreferenced s = true) :
    (s.wrap = .dropped ∨ s.wrap = .failed) ∧ Over s.run ∧ s.kept = false := by
  simp only [unreferenced, Bool.and_eq_true, Bool.or_eq_true, decide_eq_true_eq,
    Bool.not_eq_true'] at h
  exact ⟨h.1.1.1.1.1, h.1.1.1.1.2, h.1.1.1.2⟩

/-- It takes both halves at once. -/
theorem collect_inv {s s' : State} (hs : Inv s) (h : collect s = some s') : Inv s' := by
  unfold collect at h
  split at h
  · rename_i hu
    rw [Bool.and_eq_true] at hu
    obtain ⟨hwrap, hover, hkept⟩ := unreferenced_spec hu.2
    cases h
    refine ⟨hs.r_nodup, hs.w_nodup, hs.r_release, hs.w_release, ?_,
      fun _ => ⟨rfl, rfl, hkept, hover, hwrap⟩, hs.started, hs.ended⟩
    rcases hwrap with hw | hw <;> simp [HalvesInv, hw]
  · cases h

/-- `wrap` learns how the task ended. -/
theorem wrap_resumes_inv {s s' : State} (hs : Inv s) (h : step s .wrap_resumes = some s') :
    Inv s' := by
  have hhal := hs.halves
  have hrel : ∀ {wrap : Wrap}, s.wrap = .waiting →
      (.release ∈ s.r.lock → wrap = .releasing_r)
        ∧ (.release ∈ s.w.lock → wrap = .releasing_w) := by
    intro wrap hw
    exact ⟨fun hm => by simpa [hw] using hs.r_release hm,
      fun hm => by simpa [hw] using hs.w_release hm⟩
  simp only [step] at h
  split at h
  · rename_i hwrap hrun
    simp only [HalvesInv, hwrap] at hhal
    cases h
    exact ⟨hs.r_nodup, hs.w_nodup, (hrel hwrap).1, (hrel hwrap).2, hhal,
      fun hc => absurd hc (hs.not_collected (by simp [hwrap])), fun _ => by simp [hrun],
      fun _ => .inr (.inl hrun)⟩
  · rename_i hwrap hrun
    cases h
    exact ⟨hs.r_nodup, hs.w_nodup, (hrel hwrap).1, (hrel hwrap).2, trivial,
      fun hc => absurd hc (hs.not_collected (by simp [hwrap])), False.elim, False.elim⟩
  · rename_i hwrap hrun
    cases h
    exact ⟨hs.r_nodup, hs.w_nodup, (hrel hwrap).1, (hrel hwrap).2, trivial,
      fun hc => absurd hc (hs.not_collected (by simp [hwrap])), False.elim, False.elim⟩
  · cases h

/-- A result on its way to the read loop has left the lock, -/
theorem post_read_around {s s' : State} (h : post_read s = some s') : Around s .post_read s' := by
  unfold post_read at h
  split at h
  · split at h <;> cases h
    exact .of_r (.of_eq rfl rfl) rfl
  · cases h

/-- and so has one for the write loop. -/
theorem post_write_around {s s' : State} (h : post_write s = some s') :
    Around s .post_write s' := by
  unfold post_write at h
  split at h
  · split at h <;> cases h
    exact .of_w (.of_eq rfl rfl) rfl
  · cases h

/-- A step is one of `wrap`, one of the collector or one around them. -/
theorem step_cases {s s' : State} {l : Label} (h : step s l = some s') :
    l = .wrap_resumes ∨ l = .poll_release ∨ l = .drop_wrap ∨ l = .collect ∨ Around s l s' := by
  rw [or_iff_not_imp_left, or_iff_not_imp_left, or_iff_not_imp_left, or_iff_not_imp_left]
  intro hwr hpr hdw hc
  cases l with
  | wrap_resumes | poll_release | drop_wrap | collect => contradiction
  | transport l =>
      simp only [step] at h
      split at h
      · obtain ⟨t, -, rfl⟩ := Option.map_eq_some_iff.1 h
        exact ⟨Half.begin_opStep _ _, Half.begin_opStep _ _, .of_eq rfl id, rfl, rfl⟩
      · cases h
  | poll_read =>
      obtain ⟨h', hp, rfl⟩ := Option.map_eq_some_iff.1 h
      exact .of_r (Half.poll_opStep hp rfl) rfl
  | poll_write =>
      obtain ⟨h', hp, rfl⟩ := Option.map_eq_some_iff.1 h
      exact .of_w (Half.poll_opStep hp rfl) rfl
  | drop_read =>
      simp only [step] at h
      split at h
      · split at h <;> cases h
        exact .of_r (.of_leave rfl rfl) rfl
      · cases h
  | drop_write =>
      simp only [step] at h
      split at h
      · split at h <;> cases h
        exact .of_w (.of_leave rfl rfl) rfl
      · cases h
  | post_read => exact post_read_around h
  | post_write => exact post_write_around h
  | answer_read res =>
      obtain ⟨h', hp, rfl⟩ := Option.map_eq_some_iff.1 h
      exact .of_r (Half.answer_opStep hp) rfl
  | answer_write res =>
      obtain ⟨h', hp, rfl⟩ := Option.map_eq_some_iff.1 h
      exact .of_w (Half.answer_opStep hp) rfl
  | let_go =>
      simp only [step, Option.some.injEq] at h
      subst h
      exact .of_task rfl rfl rfl rfl (.of_eq rfl (fun h => by cases h))
  | run_start =>
      simp only [step] at h
      split at h
      · rename_i hrun
        obtain ⟨t, -, rfl⟩ := Option.map_eq_some_iff.1 h
        exact .of_task rfl rfl rfl rfl (by constructor <;> simp [Over, hrun])
      · cases h
  | run_fails | run_returns | keep =>
      simp only [step] at h
      split at h <;> cases h <;> rename_i hrun <;>
        exact .of_task rfl rfl rfl rfl (by constructor <;> simp [Over, hrun])
  | run_cancelled | swallow | pumps_end =>
      simp only [step, Option.ite_none_right_eq_some, Option.some.injEq] at h
      obtain ⟨hrun, rfl⟩ := h
      exact .of_task rfl rfl rfl rfl (by constructor <;> simp [Over, hrun])

/-- One step keeps the invariant. -/
theorem step_inv {s s' : State} {l : Label} (hs : Inv s) (h : step s l = some s') : Inv s' := by
  rcases step_cases h with rfl | rfl | rfl | rfl | ha
  · exact wrap_resumes_inv hs h
  · exact poll_release_inv hs h
  · exact drop_wrap_inv hs h
  · exact collect_inv hs h
  · exact ha.inv hs

/-! ### Prompt runs -/

/-- What a prompt run keeps: once `wrap` has failed, no operation waits for the peer; and a
dropped one leaves nobody who keeps the stream. -/
structure PromptInv (s : State) : Prop where
  r : Failing s.wrap → ¬ s.r.AtPeer
  w : Failing s.wrap → ¬ s.w.AtPeer
  dropped : s.wrap = .dropped → s.kept = false ∧ (s.run = .cancelling ∨ Over s.run)

/-- At first `wrap` has not failed. -/
theorem init_promptInv : PromptInv init := by
  constructor <;> simp [init, Failing]

/-- Whoever waits for the peer has asked. -/
theorem Half.AtPeer.asked {ρ : Type} {h : Half ρ} (ha : h.AtPeer) : h.Asked :=
  ⟨List.mem_of_mem_head? ha.1, ha.2⟩

/-- A `release` that gives up brings nobody to the peer who had not asked. -/
theorem Half.asked_of_abandon {ρ : Type} {h : Half ρ} (ha : h.abandon.Asked) : h.Asked :=
  ⟨List.mem_of_mem_erase ha.1, ha.2⟩

/-- `wrap` learns of the failure with nobody at the peer. -/
theorem wrap_resumes_promptInv {s s' : State} (hp : Prompt s .wrap_resumes)
    (h : step s .wrap_resumes = some s') : PromptInv s' := by
  simp only [step] at h
  split at h <;> cases h
  · rename_i hwrap hrun
    exact ⟨fun _ => (hp hrun).1, fun _ => (hp hrun).2, by simp⟩
  · exact ⟨False.elim, False.elim, by simp⟩
  · exact ⟨False.elim, False.elim, by simp⟩

/-- `release` brings nobody there. -/
theorem poll_release_promptInv {s s' : State} (hi : PromptInv s)
    (h : poll_release s = some s') : PromptInv s' := by
  unfold poll_release at h
  split at h
  · rename_i hwrap
    have hf : Failing s.wrap := by rw [hwrap]; trivial
    obtain ⟨h', hrel, rfl⟩ := Option.map_eq_some_iff.1 h
    refine ⟨fun _ => Half.release_atPeer hrel (hi.r hf), fun _ => hi.w hf, ?_⟩
    cases h'.present <;> simp
  · rename_i hwrap
    have hf : Failing s.wrap := by rw [hwrap]; trivial
    obtain ⟨h', hrel, rfl⟩ := Option.map_eq_some_iff.1 h
    refine ⟨fun _ => hi.r hf, fun _ => Half.release_atPeer hrel (hi.w hf), ?_⟩
    cases h'.present <;> simp
  · cases h

/-- A `wrap` that is dropped has nobody in the queues to be let in. -/
theorem drop_wrap_promptInv {s s' : State} (hs : Inv s) (hp : Prompt s .drop_wrap)
    (h : drop_wrap s = some s') : PromptInv s' := by
  obtain ⟨hr, hw, hkept, hrun⟩ := hp
  have habandon : Failing s.wrap → s.wrap ≠ .dropped →
      PromptInv { s with wrap := .dropped, r := s.r.abandon, w := s.w.abandon } := by
    intro hf hnd
    exact ⟨fun _ ha => hr (Half.asked_of_abandon ha.asked),
      fun _ ha => hw (Half.asked_of_abandon ha.asked),
      fun _ => ⟨hkept, .inr ((hs.ended hf).resolve_left hnd)⟩⟩
  unfold drop_wrap at h
  split at h
  · cases h
    refine ⟨fun _ ha => hr ha.asked, fun _ ha => hw ha.asked, fun _ => ⟨hkept, ?_⟩⟩
    cases hs' : s.run <;> simp [Over]
    exact hrun hs'
  · rename_i hwrap
    cases h
    exact habandon (by rw [hwrap]; trivial) (by simp [hwrap])
  · rename_i hwrap
    cases h
    exact habandon (by rw [hwrap]; trivial) (by simp [hwrap])
  · cases h

/-- The collector finds nobody there. -/
theorem collect_promptInv {s s' : State} (hi : PromptInv s) (h : collect s = some s') :
    PromptInv s' := by
  unfold collect at h
  split at h <;> cases h
  exact ⟨(fun _ ha => by cases ha.2), (fun _ ha => by cases ha.2), hi.dropped⟩

/-- The other steps bring an operation to the peer only by a poll that finds the half free, and
in a prompt run there is none after the failure. -/
theorem Around.promptInv {s s' : State} {l : Label} (h : Around s l s') (hs : Inv s)
    (hi : PromptInv s) (hp : Prompt s l) : PromptInv s' := by
  refine ⟨?_, ?_, ?_⟩
  · rw [h.wrap]
    intro hf ha
    rcases h.r.atPeer hs.r_nodup ha with ha | ⟨rfl, hfree⟩
    · exact hi.r hf ha
    · exact hp hf hfree
  · rw [h.wrap]
    intro hf ha
    rcases h.w.atPeer hs.w_nodup ha with ha | ⟨rfl, hfree⟩
    · exact hi.w hf ha
    · exact hp hf hfree
  · rw [h.wrap]
    intro hd
    obtain ⟨hkept, hrun⟩ := hi.dropped hd
    refine ⟨?_, ?_⟩
    · by_contra hk
      rcases h.task.kept (Bool.not_eq_false _ ▸ hk) with hk | ⟨rfl, -⟩
      · rw [hkept] at hk
        cases hk
      · exact hp hd
    · rcases hrun with hrun | hover
      · rcases h.task.cancelling hrun with hrun | hover | rfl | rfl
        · exact .inl hrun
        · exact .inr hover
        · exact absurd hd hp
        · exact absurd hd hp
      · exact .inr (by rwa [h.task.ended hover])

/-- One prompt step keeps it. -/
theorem step_promptInv {s s' : State} {l : Label} (hs : Inv s) (hi : PromptInv s)
    (hp : Prompt s l) (h : step s l = some s') : PromptInv s' := by
  rcases step_cases h with rfl | rfl | rfl | rfl | ha
  · exact wrap_resumes_promptInv hp h
  · exact poll_release_promptInv hi h
  · exact drop_wrap_promptInv hs hp h
  · exact collect_promptInv hi h
  · exact ha.promptInv hs hi hp

/-- A prompt run keeps it. -/
theorem run_promptInv {s : State} {ls : List Label} (hm : Meets step Prompt init ls)
    (h : run step init ls = some s) : PromptInv s :=
  meets_inv_of_inv step (fun _ _ _ => step_inv) (fun _ _ _ => step_promptInv) init_inv
    init_promptInv hm h

/-! ### Quiescent states -/

section Quiescent

variable {s : State} (hq : Quiescent s)
include hq

/-- In a quiescent state the transport has no step of its own, -/
theorem Quiescent.transport (hrun : s.run ≠ .queued) (hc : s.collected = false)
    {l : CarrierTransport.Label} (ho : own l = true) (hi : (Label.transport l).internal = true) :
    CarrierTransport.step s.transport l = none := by
  have h := hq _ hi
  rwa [step, if_pos ⟨ho, hrun, hc⟩, Option.map_eq_none_iff] at h

/-- A call of the protocol could still end. -/
theorem Quiescent.current (hrun : s.run ≠ .queued) (hc : s.collected = false) :
    CarrierTransport.current s.transport = none := by
  have h : CarrierTransport.raises s.transport .cancelled_error = none :=
    hq.transport hrun hc (l := .raises .cancelled_error) rfl rfl
  unfold CarrierTransport.raises at h
  split at h
  · cases h
  · cases h
  · assumption

/-- so the event loop has nothing to do for it. -/
theorem Quiescent.idle (hrun : s.run ≠ .queued) (hc : s.collected = false) :
    idle s.transport = true := by
  have hcur := hq.current hrun hc
  have hloop : ∀ {l : CarrierTransport.Label}, own l = true →
      (Label.transport l).internal = true →
      CarrierTransport.step s.transport l = CarrierTransport.from_loop s.transport l →
      CarrierTransport.from_loop s.transport l = none :=
    fun ho hi hl => hl ▸ hq.transport hrun hc ho hi
  have hr : CarrierTransport.run_reader s.transport = none :=
    hloop (l := .run_reader) rfl rfl (if_pos hcur)
  have hw : CarrierTransport.run_writer s.transport = none :=
    hloop (l := .run_writer) rfl rfl (if_pos hcur)
  have hl := hloop (l := .run_lost) rfl rfl (if_pos hcur)
  have hlosing : s.transport.losing = [] := by
    cases hls : s.transport.losing with
    | nil => rfl
    | cons exc rest => simp [CarrierTransport.from_loop, hls] at hl
  simp [LayerWrap.idle, hcur, hr, hw, hlosing]

/-- `release` waits for an operation at the peer. -/
theorem Quiescent.atPeer_of_releasing (hs : Inv s)
    (hwrap : s.wrap = .releasing_r ∨ s.wrap = .releasing_w) : s.r.AtPeer ∨ s.w.AtPeer := by
  have hhal := hs.halves
  have h : poll_release s = none := hq .poll_release rfl
  unfold poll_release at h
  rcases hwrap with hwrap | hwrap <;> simp only [HalvesInv, hwrap] at hhal h
  · exact .inl ⟨Half.release_eq_none (Option.map_eq_none_iff.1 h), hhal.1⟩
  · exact .inr ⟨Half.release_eq_none (Option.map_eq_none_iff.1 h), hhal.2⟩

/-- A read that neither waits for the peer nor for `release` is over: the runtime would have
moved it, dropped it, or delivered its result. -/
theorem Quiescent.read_idle (hcur : CarrierTransport.current s.transport = none)
    (hrel : .release ∉ s.r.lock) (ha : ¬ s.r.AtPeer) : s.r.op = .idle := by
  have hpoll := hq .poll_read rfl
  have hpost : post_read s = none := hq .post_read rfl
  cases hop : s.r.op with
  | idle => rfl
  | live => exact absurd (Half.atPeer_of_poll_none hop hrel (Option.map_eq_none_iff.1 hpoll)) ha
  | finished res => simp [post_read, hop, hcur] at hpost

/-- The same for a write or a shutdown. -/
theorem Quiescent.write_idle (hcur : CarrierTransport.current s.transport = none)
    (hrel : .release ∉ s.w.lock) (ha : ¬ s.w.AtPeer) : s.w.op = .idle := by
  have hpoll := hq .poll_write rfl
  have hpost : post_write s = none := hq .post_write rfl
  cases hop : s.w.op with
  | idle => rfl
  | live => exact absurd (Half.atPeer_of_poll_none hop hrel (Option.map_eq_none_iff.1 hpoll)) ha
  | finished res => simp [post_write, hop, hcur] at hpost

/-- After a dropped `wrap` the collector gets the stream, once nothing holds it. -/
theorem Quiescent.collected_of_dropped (hs : Inv s) (hwrap : s.wrap = .dropped)
    (hr : ¬ s.r.AtPeer) (hw : ¬ s.w.AtPeer) (hkept : s.kept = false) (hover : Over s.run) :
    s.collected = true := by
  by_contra hc
  rw [Bool.not_eq_true] at hc
  have hrun : s.run ≠ .queued := hs.started (by rw [hwrap]; trivial)
  have hcur := hq.current hrun hc
  have hrop := hq.read_idle hcur (fun hm => by simpa [hwrap] using hs.r_release hm) hr
  have hwop := hq.write_idle hcur (fun hm => by simpa [hwrap] using hs.w_release hm) hw
  have hu : unreferenced s = true := by
    unfold Over at hover
    simp [unreferenced, hwrap, hover, hkept, hrop, hwop, hq.idle hrun hc]
  have h : collect s = none := hq .collect rfl
  simp [collect, hc, hu] at h

/-- In a quiescent state, what keeps a failed carrier open is an operation that waits for the
peer; for a dropped `wrap` it may also be someone who keeps the stream. -/
theorem Quiescent.closed_iff (hs : Inv s) (hf : Failing s.wrap) :
    Closed s ↔ ¬ s.r.AtPeer ∧ ¬ s.w.AtPeer
      ∧ (s.wrap = .dropped → s.kept = false ∧ Over s.run) := by
  have hhal := hs.halves
  constructor
  · rintro ⟨hr, hw, -⟩
    refine ⟨(fun ha => by simpa [hr] using ha.2), (fun ha => by simpa [hw] using ha.2),
      fun hd => ?_⟩
    -- after a drop only the collector takes the halves
    simp only [HalvesInv, hd, hw] at hhal
    have hc : s.collected = true := by
      by_contra hc
      exact Bool.false_ne_true (hhal (Bool.not_eq_true _ ▸ hc))
    exact ⟨(hs.collected hc).2.2.1, (hs.collected hc).2.2.2.1⟩
  · rintro ⟨hr, hw, hd⟩
    -- `release` can only wait for an operation that waits for the peer
    have hstuck : ¬ (s.wrap = .releasing_r ∨ s.wrap = .releasing_w) :=
      fun hrel => (hq.atPeer_of_releasing hs hrel).elim hr hw
    cases hwrap : s.wrap with
    | waiting | piped =>
        rw [hwrap] at hf
        exact hf.elim
    | releasing_r => exact absurd (.inl hwrap) hstuck
    | releasing_w => exact absurd (.inr hwrap) hstuck
    | failed =>
        simp only [HalvesInv, hwrap] at hhal
        exact ⟨hhal.1, hhal.2, .inl hwrap⟩
    | dropped =>
        have hc := hq.collected_of_dropped hs hwrap hr hw (hd hwrap).1 (hd hwrap).2
        exact ⟨(hs.collected hc).1, (hs.collected hc).2.1, .inr hwrap⟩

end Quiescent

/-- Outside a call of the protocol there is nothing to return from. -/
theorem returns_eq_none {t : Transport} (hcur : CarrierTransport.current t = none)
    (a : CarrierTransport.Answer) : CarrierTransport.returns t a = none := by
  unfold CarrierTransport.current at hcur
  unfold CarrierTransport.returns
  split
  · simp_all
  · simp_all
  · simp_all
  · simp_all
  · rename_i hw _ _
    rw [hw] at hcur
    split at hcur <;> simp_all
  · rfl

/-- A transport the event loop has nothing to do for has no internal step. -/
theorem step_eq_none_of_idle {t : Transport} (hi : idle t = true) {l : CarrierTransport.Label}
    (ho : own l = true) (hl : (Label.transport l).internal = true) :
    CarrierTransport.step t l = none := by
  simp only [idle, Bool.and_eq_true, decide_eq_true_eq, Option.isNone_iff_eq_none] at hi
  obtain ⟨⟨⟨hcur, hr⟩, hw⟩, hlosing⟩ := hi
  cases l with
  | made | read_done _ | write_done _ | shutdown_done _ => cases ho
  | call _ | cancel _ => cases hl
  | returns a => exact returns_eq_none hcur a
  | raises r => simp [CarrierTransport.step, CarrierTransport.raises, hcur]
  | run_reader => simp [CarrierTransport.step, CarrierTransport.from_loop, hr]
  | run_writer => simp [CarrierTransport.step, CarrierTransport.from_loop, hw]
  | run_lost => simp [CarrierTransport.step, CarrierTransport.from_loop, hlosing]

/-- Quiescence, as a check of the transport and of the steps without arguments. -/
def settled (s : State) : Bool :=
  (s.run = .queued || s.collected || idle s.transport)
    && [Label.poll_read, .poll_write, .drop_read, .drop_write, .post_read, .post_write, .run_start,
      .run_cancelled, .wrap_resumes, .poll_release, .collect].all fun l => (step s l).isNone

/-- Quiescence is a finite check: the labels with arguments are the transport's, and it is idle. -/
theorem quiescent_iff_settled {s : State} : Quiescent s ↔ settled s = true := by
  simp only [settled, Bool.and_eq_true, Bool.or_eq_true, decide_eq_true_eq, List.all_cons,
    List.all_nil, Option.isNone_iff_eq_none, and_true]
  constructor
  · intro hq
    -- the steps without arguments are among the internal ones
    refine ⟨?_, hq _ rfl, hq _ rfl, hq _ rfl, hq _ rfl, hq _ rfl, hq _ rfl, hq _ rfl, hq _ rfl,
      hq _ rfl, hq _ rfl, hq _ rfl⟩
    by_contra hcon
    rw [not_or, not_or, Bool.not_eq_true] at hcon
    exact hcon.2 (hq.idle hcon.1.1 hcon.1.2)
  · rintro ⟨ht, h1, h2, h3, h4, h5, h6, h7, h8, h9, h10, h11⟩ l hl
    cases l with
    | transport l =>
        by_cases hg : own l = true ∧ s.run ≠ .queued ∧ s.collected = false
        · have hi : idle s.transport = true := by simpa [hg] using ht
          rw [step, if_pos hg, step_eq_none_of_idle hi hg.1 hl, Option.map_none]
        · rw [step, if_neg hg]
    | poll_read => exact h1
    | poll_write => exact h2
    | drop_read => exact h3
    | drop_write => exact h4
    | post_read => exact h5
    | post_write => exact h6
    | run_start => exact h7
    | run_cancelled => exact h8
    | wrap_resumes => exact h9
    | poll_release => exact h10
    | collect => exact h11
    | answer_read _ | answer_write _ | run_fails | swallow | run_returns | pumps_end | keep
    | let_go | drop_wrap => cases hl

/-- So runs can be tested for it. -/
instance Quiescent.decidable (s : State) : Decidable (Quiescent s) :=
  decidable_of_iff _ quiescent_iff_settled.symm

/-! ## The carrier of a layer that failed -/

/-- **A failed layer closes its carrier, unless an operation waits for the peer.**
In every quiescent state of a run where `wrap` returns no pipe, the carrier is
closed exactly if no operation of the transport has a half and waits for the peer
and, for a dropped `wrap`, nobody keeps the stream and the task is over. Prompt
runs come to nothing else. -/
theorem layer_failure_closes {s : State} {ls : List Label} (h : run step init ls = some s)
    (hf : Failing s.wrap) (hq : Quiescent s) :
    (Closed s ↔ ¬ s.r.AtPeer ∧ ¬ s.w.AtPeer
      ∧ (s.wrap = .dropped → s.kept = false ∧ Over s.run))
    ∧ (Meets step Prompt init ls → Closed s) := by
  have hs : Inv s := run_inv step (fun _ _ _ => step_inv) init_inv h
  refine ⟨hq.closed_iff hs hf, fun hm => ?_⟩
  have hi : PromptInv s := run_promptInv hm h
  refine (hq.closed_iff hs hf).2 ⟨hi.r hf, hi.w hf, fun hd => ?_⟩
  obtain ⟨hkept, hrun | hover⟩ := hi.dropped hd
  · -- A cancellation that was delivered still ends the task.
    have hc := hq .run_cancelled rfl
    rw [step, if_pos hrun] at hc
    cases hc
  · exact ⟨hkept, hover⟩

/-- The layer pauses reading and raises in its first turn, before the loops have run. The read
loop then waits for `resume_reading` and not for the peer. -/
def early_failure : List Label :=
  [.run_start, .transport (.call .pause_reading), .run_fails, .transport .run_reader,
    .transport .run_writer, .wrap_resumes, .poll_release, .poll_release, .collect]

theorem layer_failure_closes_early_failure :
    ∃ s, run step init early_failure = some s ∧ Failing s.wrap ∧ Quiescent s
      ∧ Meets step Prompt init early_failure ∧ Closed s := by
  have hrun := (Option.some_get (x := run step init early_failure) (by decide)).symm
  refine ⟨_, hrun, by decide, by decide, by decide, ?_⟩
  exact (layer_failure_closes hrun (by decide) (by decide)).2 (by decide)

/-- The layer raises while the read loop waits for the peer. -/
def failure_with_read : List Label :=
  [.run_start, .transport .run_reader, .transport .run_writer, .poll_read, .run_fails,
    .wrap_resumes, .poll_release]

/-- `wrap` is dropped while the read loop waits for the peer. -/
def drop_with_read : List Label :=
  [.run_start, .transport .run_reader, .transport .run_writer, .poll_read, .drop_wrap,
    .run_cancelled]

/-- **A pending read keeps the carrier of a failed layer open.** Whether the layer
raised or `wrap` was dropped, both halves are there and only the peer could act;
in the error case `wrap` has not returned. -/
theorem pending_read_keeps_carrier :
    (∃ s, run step init failure_with_read = some s ∧ Quiescent s ∧ s.wrap = .releasing_r
      ∧ s.r.present = true ∧ s.w.present = true ∧ ¬ Closed s)
    ∧ ∃ s, run step init drop_with_read = some s ∧ Quiescent s ∧ s.wrap = .dropped
      ∧ s.run = .failed ∧ s.kept = false ∧ s.r.present = true ∧ s.w.present = true
      ∧ ¬ Closed s := by
  refine ⟨⟨_, (Option.some_get (x := run step init failure_with_read) (by decide)).symm, ?_⟩,
    ⟨_, (Option.some_get (x := run step init drop_with_read) (by decide)).symm, ?_⟩⟩
  · decide
  · decide

end ZmuxPy.LayerWrap
