/-
An await that crosses both bridges (`src/rt.rs`): Python awaits the asyncio future of a Rust
future (`future_into_py`), which itself awaits a coroutine on the same loop (`into_future`).
`PipeIo.wrap` is such a call: it awaits `layer::wrap` (`src/layer.rs`), which runs
`zmux._layer.run`.

The two bridges are the machines of `ZmuxPy.FutureIntoPy` and `ZmuxPy.IntoFuture`. What is
added here is the Rust future between them. It makes the coroutine in its first poll, which
may raise; it awaits the coroutine, and what it comes to is the result; it may await something
else before it returns (`wrap` waits for the carrier's locks after an error). Dropping it
drops what it awaits.
-/
import ZmuxPy.FutureIntoPy
import ZmuxPy.IntoFuture

set_option autoImplicit false

namespace ZmuxPy.BridgedAwait

open Machine FutureIntoPy
open IntoFuture (Call CloseAttr Output)

variable {ρ : Type}

/-! ## The model -/

/-- What the Rust future comes to. -/
inductive Result (ρ : Type) where
  /-- What the coroutine came to. -/
  | output (o : Output ρ)
  /-- There was no coroutine: the call, or `into_future`, raised. -/
  | raised
  deriving DecidableEq, Repr

/-- The Rust future: not polled, awaiting the coroutine, awaiting something else with its
result in hand, or complete or dropped. -/
inductive Stage (ρ : Type) where
  | new
  | awaiting
  | after (r : Result ρ)
  | gone
  deriving DecidableEq, Repr

/-- The two bridges, with the Rust future between them. There is no inner one before the
coroutine is made. -/
structure Await (ρ : Type) where
  loop_closed : Bool
  outer : Bridge (Result ρ)
  stage : Stage ρ
  inner : Option (Call ρ)
  deriving DecidableEq, Repr

/-- `future_into_py` has returned; the Rust future was not polled yet. -/
def init : Await ρ := { loop_closed := false, outer := .new, stage := .new, inner := none }

/-- The Rust future has its result; `at_once` if it has nothing else to await. -/
def comes (a : Await ρ) (r : Result ρ) (at_once : Bool) : Await ρ :=
  if at_once then { a with stage := .gone, outer := a.outer.ready r }
  else { a with stage := .after r }

/-- A poll of the Rust future. `made` is how its first one makes the coroutine. -/
def poll_future (a : Await ρ) (made : Option CloseAttr) (at_once : Bool) : Option (Await ρ) :=
  match a.stage, a.inner with
  | .new, _ =>
    match made, a.loop_closed with
    | some close, false =>
      some { a with stage := .awaiting, inner := some (IntoFuture.init close) }
    -- `call_soon_threadsafe` raises on a closed loop
    | _, _ => some (comes a .raised at_once)
  | .awaiting, some c =>
    match (IntoFuture.poll c).fut with
    | .complete o =>
      some (comes { a with inner := some (IntoFuture.poll c) } (.output o) at_once)
    | _ => some { a with inner := some (IntoFuture.poll c) }
  | .after r, _ => some (comes a r at_once)
  | _, _ => none

/-- The Rust future is dropped, and with it the future of the coroutine. -/
def drop_inner (c : Call ρ) : Call ρ :=
  match c.fut with
  | .waiting => { c with fut := .dropping }
  | _ => c

/-- A poll of the runtime task: the biased `select!`. -/
def poll (a : Await ρ) (made : Option CloseAttr) (at_once : Bool) : Option (Await ρ) :=
  match a.outer.task, a.outer.cancel with
  | .select, .empty => poll_future a made at_once
  | .select, _ =>
    some { a with
      outer := { a.outer with task := .ended }
      stage := .gone
      inner := a.inner.map drop_inner }
  | _, _ => none

/-- The steps of Python, the loop and the runtime on either bridge. -/
inductive Label (ρ : Type) where
  /-- Python cancels the future it awaits. -/
  | cancel
  | on_cancel
  | poll (made : Option CloseAttr) (at_once : Bool)
  | post
  | complete
  /-- A step of the coroutine's side. -/
  | inner (l : IntoFuture.Label ρ)
  | close_loop
  deriving DecidableEq, Repr

/-- The steps of `into_future` that are not the Rust future's. -/
def own : IntoFuture.Label ρ → Bool
  | .poll | .drop | .close_loop => false
  | _ => true

/-- One step. What the loop runs, it does not run once it is closed. -/
def step (a : Await ρ) : Label ρ → Option (Await ρ)
  | .cancel => some { a with outer := a.outer.cancel_future }
  | .on_cancel =>
    if a.loop_closed then none
    else a.outer.run_on_cancel.map fun b => { a with outer := b }
  | .poll made at_once => poll a made at_once
  | .post => a.outer.post.map fun b => { a with outer := b }
  | .complete =>
    if a.loop_closed then none
    else a.outer.complete.map fun b => { a with outer := b }
  | .inner l =>
    if own l then
      a.inner.bind fun c => (IntoFuture.step c l).map fun c' => { a with inner := some c' }
    else none
  | .close_loop =>
    some { a with
      loop_closed := true, inner := a.inner.map fun c => { c with loop_closed := true } }

/-! ## The outer bridge -/

/-- The future, its callback and the cancel channel go together. -/
structure Outer (b : Bridge (Result ρ)) : Prop where
  registered : b.on_cancel = .registered ↔ b.target = .pending
  empty : b.cancel = .empty ↔ b.on_cancel ≠ .ran
  sent : b.cancel ≠ .empty → b.target = .cancelled ∨ b.task = .ended
  set : ∀ r, b.target = .set r → b.task = .ended
  ended : b.task = .ended → b.target ≠ .pending

/-- The callback is registered, and the channel is empty. -/
theorem Outer.new : Outer (Bridge.new : Bridge (Result ρ)) := by
  constructor <;> simp [Bridge.new]

variable {b b' : Bridge (Result ρ)}

/-- A cancelled future schedules its callback. -/
theorem Outer.cancel (h : Outer b) : Outer b.cancel_future := by
  unfold Bridge.cancel_future
  split
  · rename_i hp
    have hreg := h.registered.2 hp
    have hempty : b.cancel = .empty := h.empty.2 (by simp [hreg])
    exact ⟨by simp, by simp [hempty], fun hne => absurd hempty hne, by simp, by simp⟩
  · exact h

/-- The callback sends for a cancelled future only; with a result the sender goes unused. -/
theorem Outer.on_cancel (h : Outer b) (hb : b.run_on_cancel = some b') : Outer b' := by
  unfold Bridge.run_on_cancel at hb
  split at hb
  · rename_i hsched
    have htarget : b.target ≠ .pending := fun hp => by
      rw [h.registered.2 hp] at hsched
      cases hsched
    split at hb
    · rename_i hcan
      cases hb
      exact ⟨by simp [hcan], by simp, fun _ => .inl hcan, h.set, h.ended⟩
    · rename_i hcan
      cases hb
      refine ⟨by simp [htarget], by simp, fun _ => .inr ?_, h.set, h.ended⟩
      cases ht : b.target with
      | pending => exact absurd ht htarget
      | cancelled => exact absurd ht hcan
      | set r => exact h.set r ht
  · cases hb

/-- The runtime task leaves its `select!`, or goes on behind it. -/
theorem Outer.task (h : Outer b) (hne : b.task ≠ .ended) {t : FutureIntoPy.Task (Result ρ)}
    (ht : t = .ended → b.target ≠ .pending) : Outer { b with task := t } := by
  have hset : ∀ r, b.target ≠ .set r := fun r hr => hne (h.set r hr)
  refine ⟨h.registered, h.empty, fun hc => ?_, fun r hr => absurd hr (hset r), ht⟩
  exact .inl ((h.sent hc).resolve_right hne)

/-- A result is set on a pending future, and comes too late for one that is done. -/
theorem Outer.complete (h : Outer b) (hb : b.complete = some b') : Outer b' := by
  obtain ⟨r, hr, ⟨hp, rfl⟩ | ⟨hp, rfl⟩⟩ := Bridge.complete_eq_some hb
  · have hreg := h.registered.2 hp
    have hempty : b.cancel = .empty := h.empty.2 (by simp [hreg])
    exact ⟨by simp, by simp [hempty], fun hne => absurd hempty hne, fun _ _ => rfl, by simp⟩
  · exact ⟨h.registered, h.empty, fun _ => .inr rfl, fun _ _ => rfl, fun _ => hp⟩

/-! ## The inner bridge -/

variable {c c' : Call ρ} {l : IntoFuture.Label ρ}

/-- What the coroutine's side does to the Rust side: nothing, or the guard goes on. -/
structure Beside (c c' : Call ρ) : Prop where
  fut : c'.fut = c.fut
    ∨ (c.fut = .dropping ∨ c.fut = .cancelling) ∧ (c'.fut = .cancelling ∨ c'.fut = .dropped)
  loop_closed : c'.loop_closed = c.loop_closed
  done : c'.done = .dropped → c.done = .dropped ∨ c.loop_closed = true ∨ c.fut = .dropped

/-- Most steps leave the three fields alone. -/
theorem Beside.of_eq (hf : c'.fut = c.fut) (hl : c'.loop_closed = c.loop_closed)
    (hd : c'.done = .dropped → c.done = .dropped) : Beside c c' :=
  ⟨.inl hf, hl, fun h => .inl (hd h)⟩

/-- Unless the guard is at work, the future is as it was. -/
theorem Beside.fut_eq (h : Beside c c') {f : IntoFuture.Fut ρ} (hf : c.fut = f)
    (hd : f ≠ .dropping) (hc : f ≠ .cancelling) : c'.fut = f := by
  rcases h.fut with heq | ⟨hat | hat, -⟩
  · exact heq.trans hf
  · exact absurd (hf.symm.trans hat) hd
  · exact absurd (hf.symm.trans hat) hc

/-- **The coroutine's side does not complete the future**: it sends, and the next poll finds
it. What it does to it is the work of the guard. -/
theorem own_beside (h : IntoFuture.step c l = some c') (ho : own l = true) : Beside c c' := by
  cases IntoFuture.step_cases h with
  | enter_start _ _ => exact .of_eq rfl rfl id
  | run_start e _ =>
      unfold IntoFuture.run_start
      split
      · exact .of_eq rfl rfl id
      · cases e with
        | raises => exact .of_eq rfl rfl id
        | running | finished r => exact .of_eq rfl rfl fun hd => by cases hd
  | drop_start _ => exact .of_eq rfl rfl id
  | finish_task r _ =>
      refine .of_eq rfl rfl fun hd => ?_
      cases hdone : c.done <;> simp [hdone] at hd ⊢
  | run_done _ _ =>
      unfold IntoFuture.run_done
      split <;> exact .of_eq rfl rfl fun hd => by cases hd
  | drop_done hu =>
      refine ⟨.inl rfl, rfl, fun _ => .inr ?_⟩
      unfold IntoFuture.done_unreferenced at hu
      split at hu
      · rcases Bool.or_eq_true_iff.1 hu with hl | hf
        · exact .inl hl
        · split at hf
          · exact .inr ‹_›
          · cases hf
      · rcases Bool.or_eq_true_iff.1 hu with hl | hf
        · exact .inl hl
        · split at hf
          · exact .inr ‹_›
          · cases hf
      · cases hu
  | drop_slot hf =>
      refine ⟨.inr ⟨.inl hf, ?_⟩, rfl, fun hd => .inl hd⟩
      unfold IntoFuture.drop_slot
      cases c.slot_task
      · exact .inr rfl
      · exact .inl rfl
  | hand_cancel hf => exact ⟨.inr ⟨.inr hf, .inr rfl⟩, rfl, fun hd => .inl hd⟩
  | run_cancel _ _ => exact .of_eq rfl rfl id
  | poll _ => cases ho
  | drop _ => cases ho
  | close_loop => cases ho

/-! ## The invariant -/

/-- The result came from the coroutine's side. -/
def Came (a : Await ρ) : Result ρ → Prop
  | .output o => ∃ c, a.inner = some c ∧ c.fut = .complete o
  | .raised => a.inner = none

/-- Where the Rust future is. -/
def StageInv (a : Await ρ) : Prop :=
  match a.stage with
  | .new => a.outer.task = .select ∧ a.inner = none
  | .awaiting => a.outer.task = .select ∧ ∃ c, a.inner = some c ∧ c.fut = .waiting
  | .after r => a.outer.task = .select ∧ Came a r
  | .gone => a.outer.task ≠ .select ∧ ∀ c, a.inner = some c → c.fut ≠ .waiting

/-- The coroutine's side, as the Rust side needs it. -/
structure InnerInv (a : Await ρ) (c : Call ρ) : Prop where
  inv : IntoFuture.Inv c
  loop_closed : c.loop_closed = a.loop_closed
  done : c.done = .dropped → c.loop_closed = true ∨ c.fut = .dropped
  /-- Its future is dropped only when the outer one was cancelled. -/
  dropped : c.fut = .dropping ∨ c.fut = .cancelling ∨ c.fut = .dropped →
    a.outer.target = .cancelled

/-- The invariant: the stage of the Rust future goes with the task of the outer bridge, and a
result on its way out came from the coroutine's side. -/
structure Inv (a : Await ρ) : Prop where
  outer : Outer a.outer
  stage : StageInv a
  came : ∀ r, a.outer.task = .blocking r ∨ a.outer.task = .posted r ∨ a.outer.target = .set r →
    Came a r
  inner : ∀ c, a.inner = some c → InnerInv a c

/-- No coroutine was made. -/
theorem init_inv : Inv (init : Await ρ) := by
  refine ⟨.new, ⟨rfl, rfl⟩, fun r hr => ?_, fun c hc => ?_⟩
  · rcases hr with hr | hr | hr <;> cases hr
  · cases hc

variable {a a' : Await ρ}

/-- A step of the outer bridge that does not leave the `select!`. -/
theorem Inv.bridge (hs : Inv a) (ho : Outer b) (htask : b.task = .select ↔ a.outer.task = .select)
    (hcame : ∀ r, b.task = .blocking r ∨ b.task = .posted r ∨ b.target = .set r →
      a.outer.task = .blocking r ∨ a.outer.task = .posted r ∨ a.outer.target = .set r)
    (hcancelled : a.outer.target = .cancelled → b.target = .cancelled) :
    Inv { a with outer := b } := by
  refine ⟨ho, ?_, fun r hr => hs.came r (hcame r hr), fun c hc => ?_⟩
  · have hstage := hs.stage
    unfold StageInv at hstage ⊢
    cases hst : a.stage with
    | new | awaiting | after r =>
        simp only [hst] at hstage ⊢
        exact ⟨htask.2 hstage.1, hstage.2⟩
    | gone =>
        simp only [hst] at hstage ⊢
        exact ⟨fun ht => hstage.1 (htask.1 ht), hstage.2⟩
  · have hi := hs.inner c hc
    exact ⟨hi.inv, hi.loop_closed, hi.done, fun hd => hcancelled (hi.dropped hd)⟩

/-- What came stays. -/
theorem Came.beside {r : Result ρ} (h : Came a r) (hc : a.inner = some c) (hb : Beside c c') :
    Came { a with inner := some c' } r := by
  cases r with
  | output o =>
      obtain ⟨d, hd, ho⟩ := h
      rw [hc, Option.some.injEq] at hd
      subst hd
      exact ⟨c', rfl, hb.fut_eq ho (by simp) (by simp)⟩
  | raised =>
      rw [Came, hc] at h
      cases h

/-- A step of the coroutine's side. -/
theorem Inv.beside (hs : Inv a) (hc : a.inner = some c) (hb : Beside c c')
    (hinv : IntoFuture.Inv c') : Inv { a with inner := some c' } := by
  refine ⟨hs.outer, ?_, fun r hr => (hs.came r hr).beside hc hb, fun d hd => ?_⟩
  · have hstage := hs.stage
    unfold StageInv at hstage ⊢
    cases hst : a.stage with
    | new =>
        simp only [hst, hc] at hstage
        cases hstage.2
    | awaiting =>
        simp only [hst] at hstage ⊢
        obtain ⟨htask, d, hd, hw⟩ := hstage
        rw [hc, Option.some.injEq] at hd
        subst hd
        exact ⟨htask, c', rfl, hb.fut_eq hw (by simp) (by simp)⟩
    | after r =>
        simp only [hst] at hstage ⊢
        exact ⟨hstage.1, hstage.2.beside hc hb⟩
    | gone =>
        simp only [hst] at hstage ⊢
        refine ⟨hstage.1, fun d hd hw => ?_⟩
        cases hd
        rcases hb.fut with hf | ⟨-, hf⟩
        · exact hstage.2 c hc (hf ▸ hw)
        · rcases hf with hf | hf <;> rw [hw] at hf <;> cases hf
  · cases hd
    have hi := hs.inner c hc
    refine ⟨hinv, hb.loop_closed.trans hi.loop_closed, fun hd => ?_, fun hd => hi.dropped ?_⟩
    -- a `Done` is dropped unrun with a closed loop, or after the future
    · rcases hb.done hd with hd | hl | hf
      · rcases hi.done hd with hl | hf
        · exact .inl (hb.loop_closed.trans hl)
        · exact .inr (hb.fut_eq hf (by simp) (by simp))
      · exact .inl (hb.loop_closed.trans hl)
      · exact .inr (hb.fut_eq hf (by simp) (by simp))
    · rcases hb.fut with hf | ⟨hf, -⟩
      · rwa [hf] at hd
      · exact hf.imp_right .inl

/-- The Rust future has a result, and returns it or goes on awaiting something else. -/
theorem Inv.comes {r : Result ρ} (ho : Outer a.outer) (htask : a.outer.task = .select)
    (hcame : Came a r) (hinner : ∀ c, a.inner = some c → InnerInv a c) (at_once : Bool) :
    Inv (comes a r at_once) := by
  have hne : a.outer.task ≠ .ended := by simp [htask]
  have hnot : ∀ r', a.outer.target ≠ .set r' := fun r' hr => hne (ho.set r' hr)
  unfold BridgedAwait.comes
  split
  · refine ⟨ho.task hne (by simp), ⟨by simp [Bridge.ready], fun c hc hw => ?_⟩, fun r' hr => ?_,
      fun c hc => ?_⟩
    · cases r with
      | output o =>
          obtain ⟨d, hd, hf⟩ := hcame
          rw [show a.inner = some c from hc, Option.some.injEq] at hd
          rw [← hd, hw] at hf
          cases hf
      | raised =>
          rw [Came, show a.inner = some c from hc] at hcame
          cases hcame
    · rcases hr with hr | hr | hr
      · cases hr
        exact hcame
      · cases hr
      · exact absurd hr (hnot r')
    · have hi := hinner c hc
      exact ⟨hi.inv, hi.loop_closed, hi.done, hi.dropped⟩
  · refine ⟨ho, ⟨htask, hcame⟩, fun r' hr => ?_, fun c hc => ?_⟩
    · rcases hr with hr | hr | hr
      · rw [show a.outer.task = .blocking r' from hr] at htask
        cases htask
      · rw [show a.outer.task = .posted r' from hr] at htask
        cases htask
      · exact absurd hr (hnot r')
    · have hi := hinner c hc
      exact ⟨hi.inv, hi.loop_closed, hi.done, hi.dropped⟩

/-! ### The steps -/

/-- A coroutine that was just handed to the loop. -/
theorem InnerInv.new {close : CloseAttr} (hl : a.loop_closed = false) :
    InnerInv a (IntoFuture.init close) := by
  refine ⟨IntoFuture.init_inv close, hl.symm, fun hd => ?_, fun hd => ?_⟩
  · cases hd
  · rcases hd with hd | hd | hd <;> cases hd

/-- A poll completes the future, or does nothing. -/
theorem inner_poll_cases (c : Call ρ) :
    IntoFuture.poll c = c ∨ ∃ o, IntoFuture.poll c = { c with fut := .complete o } := by
  unfold IntoFuture.poll
  split
  · exact .inr ⟨_, rfl⟩
  · exact .inr ⟨_, rfl⟩
  · exact .inl rfl

/-- The future of the coroutine is polled as long as it waits. -/
theorem InnerInv.poll (h : InnerInv a c) (hw : c.fut = .waiting) :
    InnerInv a (IntoFuture.poll c) := by
  have hinv := IntoFuture.poll_inv h.inv hw
  rcases inner_poll_cases c with heq | ⟨o, heq⟩
  · rw [heq]
    exact h
  · rw [heq] at hinv ⊢
    refine ⟨hinv, h.loop_closed, fun hd => .inl ?_, fun hd => ?_⟩
    · refine (h.done hd).resolve_right fun hf => ?_
      rw [hw] at hf
      cases hf
    · rcases hd with hd | hd | hd <;> cases hd

/-- Nothing has come while the task is in its `select!`. -/
theorem Inv.not_come (hs : Inv a) (htask : a.outer.task = .select) {r : Result ρ} :
    ¬ (a.outer.task = .blocking r ∨ a.outer.task = .posted r ∨ a.outer.target = .set r) := by
  rintro (hr | hr | hr)
  · rw [htask] at hr
    cases hr
  · rw [htask] at hr
    cases hr
  · rw [hs.outer.set r hr] at htask
    cases htask

/-- A poll of the Rust future, by its stage. -/
theorem poll_future_inv {made : Option CloseAttr} {at_once : Bool} (hs : Inv a)
    (htask : a.outer.task = .select) (h : poll_future a made at_once = some a') : Inv a' := by
  have hstage := hs.stage
  unfold StageInv at hstage
  unfold poll_future at h
  split at h
  · rename_i hst
    simp only [hst] at hstage
    split at h
    · rename_i close hl
      cases h
      refine ⟨hs.outer, ⟨htask, _, rfl, rfl⟩, fun r hr => absurd hr (hs.not_come htask),
        fun c hc => ?_⟩
      cases hc
      exact .new hl
    · cases h
      exact .comes (r := .raised) hs.outer htask hstage.2 hs.inner at_once
  · rename_i c hst hc
    simp only [hst] at hstage
    obtain ⟨-, d, hd, hw⟩ := hstage
    rw [hc, Option.some.injEq] at hd
    subst hd
    have hi := (hs.inner c hc).poll hw
    split at h
    · rename_i o ho
      cases h
      refine Inv.comes (a := { a with inner := some (IntoFuture.poll c) }) (r := .output o)
        hs.outer htask ⟨_, rfl, ho⟩ (fun d hd => ?_) at_once
      cases hd
      exact ⟨hi.inv, hi.loop_closed, hi.done, hi.dropped⟩
    · rename_i hno
      cases h
      have heq : IntoFuture.poll c = c := by
        refine (inner_poll_cases c).resolve_right ?_
        rintro ⟨o, ho⟩
        exact hno o (by rw [ho])
      rw [heq, ← hc]
      exact hs
  · rename_i r hst
    cases h
    simp only [hst] at hstage
    exact .comes hs.outer htask hstage.2 hs.inner at_once
  · cases h

/-- The Rust future is dropped. -/
theorem InnerInv.drop (h : InnerInv a c) :
    IntoFuture.Inv (drop_inner c) ∧ (drop_inner c).loop_closed = a.loop_closed
      ∧ ((drop_inner c).done = .dropped →
        (drop_inner c).loop_closed = true ∨ (drop_inner c).fut = .dropped)
      ∧ (drop_inner c).fut ≠ .waiting := by
  unfold drop_inner
  split
  · rename_i hw
    refine ⟨IntoFuture.drop_inv h.inv hw, h.loop_closed, fun hd => .inl ?_, by simp⟩
    refine (h.done hd).resolve_right fun hf => ?_
    rw [hw] at hf
    cases hf
  · rename_i hw
    exact ⟨h.inv, h.loop_closed, h.done, hw⟩

/-- The `select!` looks at the cancel channel first; then the future is dropped, with what it
awaits. -/
theorem poll_inv {made : Option CloseAttr} {at_once : Bool} (hs : Inv a)
    (h : poll a made at_once = some a') : Inv a' := by
  unfold poll at h
  split at h
  · rename_i htask _
    exact poll_future_inv hs htask h
  · rename_i htask hcancel
    cases h
    have hne : a.outer.task ≠ .ended := by simp [htask]
    have hcan : a.outer.target = .cancelled := (hs.outer.sent hcancel).resolve_right hne
    refine ⟨hs.outer.task hne (by simp [hcan]), ⟨by simp, fun d hd => ?_⟩, fun r hr => ?_,
      fun d hd => ?_⟩
    · obtain ⟨c, hc, rfl⟩ := Option.map_eq_some_iff.1 hd
      exact (hs.inner c hc).drop.2.2.2
    · rcases hr with hr | hr | hr
      · cases hr
      · cases hr
      · rw [show a.outer.target = .set r from hr] at hcan
        cases hcan
    · obtain ⟨c, hc, rfl⟩ := Option.map_eq_some_iff.1 hd
      obtain ⟨hinv, hloop, hdone, -⟩ := (hs.inner c hc).drop
      exact ⟨hinv, hloop, hdone, fun _ => hcan⟩
  · cases h

/-- A future that is done cannot be cancelled. -/
theorem cancel_future_cases (b : Bridge (Result ρ)) :
    b.cancel_future = b ∨ b.target = .pending
      ∧ b.cancel_future = { b with target := .cancelled, on_cancel := .scheduled } := by
  unfold Bridge.cancel_future
  split
  · exact .inr ⟨‹_›, rfl⟩
  · exact .inl rfl

/-- The loop closes: only the coroutine's side sees it. -/
theorem Came.close {r : Result ρ} (h : Came a r) :
    Came { a with
      loop_closed := true, inner := a.inner.map fun c => { c with loop_closed := true } } r := by
  cases r with
  | output o =>
      obtain ⟨c, hc, ho⟩ := h
      exact ⟨_, Option.map_eq_some_iff.2 ⟨c, hc, rfl⟩, ho⟩
  | raised => exact Option.map_eq_none_iff.2 h

/-- A loop that closes changes no result. -/
theorem close_loop_inv (hs : Inv a) :
    Inv { a with
      loop_closed := true, inner := a.inner.map fun c => { c with loop_closed := true } } := by
  refine ⟨hs.outer, ?_, fun r hr => (hs.came r hr).close, fun d hd => ?_⟩
  · have hstage := hs.stage
    unfold StageInv at hstage ⊢
    cases hst : a.stage with
    | new =>
        simp only [hst] at hstage ⊢
        exact ⟨hstage.1, Option.map_eq_none_iff.2 hstage.2⟩
    | awaiting =>
        simp only [hst] at hstage ⊢
        obtain ⟨htask, c, hc, hw⟩ := hstage
        exact ⟨htask, _, Option.map_eq_some_iff.2 ⟨c, hc, rfl⟩, hw⟩
    | after r =>
        simp only [hst] at hstage ⊢
        exact ⟨hstage.1, hstage.2.close⟩
    | gone =>
        simp only [hst] at hstage ⊢
        refine ⟨hstage.1, fun d hd => ?_⟩
        obtain ⟨c, hc, rfl⟩ := Option.map_eq_some_iff.1 hd
        exact hstage.2 c hc
  · obtain ⟨c, hc, rfl⟩ := Option.map_eq_some_iff.1 hd
    have hi := hs.inner c hc
    exact ⟨IntoFuture.step_inv (l := .close_loop) hi.inv rfl, rfl, fun _ => .inl rfl, hi.dropped⟩

/-- **One step keeps the invariant.** -/
theorem step_inv {l : Label ρ} (hs : Inv a) (h : step a l = some a') : Inv a' := by
  cases l with
  | cancel =>
      cases h
      -- only a pending future is cancelled, and then no result is on it
      rcases cancel_future_cases a.outer with heq | ⟨hp, heq⟩
      · rw [heq]
        exact hs
      · refine hs.bridge hs.outer.cancel ?_ (fun r hr => ?_) fun _ => ?_
        · rw [heq]
        · rw [heq] at hr
          exact hr.imp_right (Or.imp_right fun h => by cases h)
        · rw [heq]
  | on_cancel =>
      simp only [step] at h
      split at h
      · cases h
      · obtain ⟨b, hb, rfl⟩ := Option.map_eq_some_iff.1 h
        obtain ⟨htarget, htask⟩ := Bridge.run_on_cancel_eq_some hb
        refine hs.bridge (hs.outer.on_cancel hb) (by rw [htask]) (fun r hr => ?_) fun hc => ?_
        · rwa [htask, htarget] at hr
        · rw [htarget, hc]
  | poll made at_once => exact poll_inv hs h
  | post =>
      obtain ⟨b, hb, rfl⟩ := Option.map_eq_some_iff.1 h
      obtain ⟨r, hr, rfl⟩ := Bridge.post_eq_some hb
      refine hs.bridge (hs.outer.task (by simp [hr]) (by simp)) (by simp [hr]) (fun r' hr' => ?_) id
      rcases hr' with hr' | hr' | hr'
      · cases hr'
      · cases hr'
        exact .inl hr
      · exact .inr (.inr hr')
  | complete =>
      simp only [step] at h
      split at h
      · cases h
      · obtain ⟨b, hb, rfl⟩ := Option.map_eq_some_iff.1 h
        -- the future takes the result, or was cancelled in between
        have ho := hs.outer.complete hb
        obtain ⟨r, hr, ⟨hp, rfl⟩ | ⟨hp, rfl⟩⟩ := Bridge.complete_eq_some hb
        · refine hs.bridge ho (by simp [hr]) (fun r' hr' => ?_) fun hc => ?_
          · rcases hr' with hr' | hr' | hr'
            · cases hr'
            · cases hr'
            · cases hr'
              exact .inr (.inl hr)
          · rw [hp] at hc
            cases hc
        · refine hs.bridge ho (by simp [hr]) (fun r' hr' => ?_) id
          rcases hr' with hr' | hr' | hr'
          · cases hr'
          · cases hr'
          · exact .inr (.inr hr')
  | inner l =>
      simp only [step] at h
      split at h
      · rename_i ho
        obtain ⟨c, hc, h⟩ := Option.bind_eq_some_iff.1 h
        obtain ⟨c', hc', rfl⟩ := Option.map_eq_some_iff.1 h
        exact hs.beside hc (own_beside hc' ho) (IntoFuture.step_inv (hs.inner c hc).inv hc')
      · cases h
  | close_loop =>
      cases h
      exact close_loop_inv hs

/-- So it holds in every run. -/
theorem run_await {ls : List (Label ρ)} (h : run step init ls = some a) : Inv a :=
  run_inv step (fun _ _ _ hs h => step_inv hs h) init_inv h

/-! ## Coming to an end -/

/-- How far the coroutine is from its result. -/
def wait_rank (c : Call ρ) : ℕ :=
  match c.channel, c.done, c.start with
  | .sent _, _, _ | .lost, _, _ => 0
  | .in_done, .scheduled, _ => 1
  | .in_done, _, _ => 2
  | .in_start, _, .queued => 4
  | .in_start, _, .entered => 3
  | .in_start, _, _ => 1

/-- The coroutine's side can go on, if its task comes to `v`. -/
theorem inner_goes_on (hinv : IntoFuture.Inv c) (hw : c.fut = .waiting)
    (hl : c.loop_closed = false) (hne : wait_rank c ≠ 0) (v : ρ) :
    ∃ l c', own l = true ∧ IntoFuture.step c l = some c' ∧ wait_rank c' < wait_rank c
      ∧ (∀ r, l = .finish_task r → r = v) := by
  have hchan := hinv.channel
  have hguard := hinv.guard
  unfold IntoFuture.ChannelInv at hchan
  unfold IntoFuture.GuardInv at hguard
  simp only [hw] at hguard
  cases hc : c.channel with
  | in_start =>
      simp only [hc] at hchan
      cases hst : c.start with
      | queued =>
          refine ⟨.enter_start, _, rfl, if_pos ⟨hst, hl⟩, ?_, by simp⟩
          simp [wait_rank, hc, hst]
      | entered =>
          refine ⟨.run_start .running, _, rfl, if_pos hst, ?_, by simp⟩
          simp [wait_rank, hc, hst, IntoFuture.run_start, hguard.1]
      | returned =>
          refine ⟨.drop_start, _, rfl, if_pos (by simp [IntoFuture.start_unreferenced, hst]), ?_,
            by simp⟩
          simp [wait_rank, hc, hst, IntoFuture.drop_start]
      | dropped => exact absurd hst hchan.2.2.1
  | in_done =>
      simp only [hc] at hchan
      rcases hchan.1 with ⟨hd, ht⟩ | ⟨hd, r, ht⟩
      · refine ⟨.finish_task v, _, rfl, by simp only [IntoFuture.step, ht]; rfl, ?_,
          by simp⟩
        simp [wait_rank, hc, hd]
      · refine ⟨.run_done, _, rfl, if_pos ⟨hd, hl⟩, ?_, by simp⟩
        simp [wait_rank, hc, hd, IntoFuture.run_done, ht]
  | sent r => exact absurd (by simp [wait_rank, hc]) hne
  | lost => exact absurd (by simp [wait_rank, hc]) hne

/-- The steps of the bridges, the loop and the runtime; the others are Python's. -/
def machinery : Label ρ → Bool
  | .cancel | .close_loop | .inner (.finish_task _) => false
  | _ => true

/-- How far the outer future is from its result. -/
def pending_rank (a : Await ρ) : ℕ :=
  match a.outer.task, a.stage, a.inner with
  | .ended, _, _ => 0
  | .posted _, _, _ => 1
  | .blocking _, _, _ => 2
  | .select, .awaiting, some c => 4 + wait_rank c
  | .select, .new, _ => 9
  | .select, _, _ => 3

/-- The coroutine's result is there for the next poll. -/
theorem poll_of_wait_rank (h : wait_rank c = 0) :
    ∃ o, IntoFuture.poll c = { c with fut := .complete o } := by
  unfold IntoFuture.poll
  cases hc : c.channel with
  | sent r => exact ⟨_, rfl⟩
  | lost => exact ⟨_, rfl⟩
  | in_start => cases hst : c.start <;> simp [wait_rank, hc, hst] at h
  | in_done => cases hd : c.done <;> simp [wait_rank, hc, hd] at h

/-- One step of an await that nobody cancels. -/
def GoesOn (a : Await ρ) (v : ρ) (l : Label ρ) (a' : Await ρ) : Prop :=
  (machinery l = true ∨ l = .inner (.finish_task v)) ∧ step a l = some a'
    ∧ pending_rank a' < pending_rank a ∧ a'.loop_closed = false
    ∧ (a'.outer.target = .pending ∨ ∃ r, a'.outer.target = .set r)

/-- The Rust future has its result, and returns it. -/
theorem comes_goesOn (hl : a.loop_closed = false) (hp : a.outer.target = .pending) (v : ρ)
    (r : Result ρ) (inner : Option (Call ρ))
    (hstep : step a (.poll none true) = some (comes { a with inner := inner } r true))
    (hrank : 2 < pending_rank a) :
    GoesOn a v (.poll none true) (comes { a with inner := inner } r true) :=
  ⟨.inl rfl, hstep, hrank, hl, .inl hp⟩

/-- In the `select!`, the Rust future makes its coroutine, waits for it, and returns its result. -/
theorem select_goes_on (hs : Inv a) (hl : a.loop_closed = false) (hp : a.outer.target = .pending)
    (htask : a.outer.task = .select) (v : ρ) : ∃ l a', GoesOn a v l a' := by
  -- nobody cancelled the future, so the `select!` comes to the Rust future
  have hempty : a.outer.cancel = .empty := hs.outer.empty.2 (by simp [hs.outer.registered.2 hp])
  have hpoll : ∀ m o, step a (.poll m o) = poll_future a m o := by
    intro m o
    simp only [step, poll, htask, hempty]
  have hstage := hs.stage
  unfold StageInv at hstage
  cases hst : a.stage with
  | new =>
      refine ⟨.poll (some .present) true,
        { a with stage := .awaiting, inner := some (IntoFuture.init .present) }, .inl rfl, ?_, ?_,
        hl, .inl hp⟩
      · rw [hpoll]
        simp only [poll_future, hst, hl]
      · simp [pending_rank, htask, hst, wait_rank, IntoFuture.init]
  | awaiting =>
      simp only [hst] at hstage
      obtain ⟨-, c, hc, hw⟩ := hstage
      -- the result is there for the next poll, or the coroutine's side has a step nearer to it
      have hrank : pending_rank a = 4 + wait_rank c := by simp only [pending_rank, htask, hst, hc]
      by_cases hwait : wait_rank c = 0
      · obtain ⟨o, ho⟩ := poll_of_wait_rank hwait
        refine ⟨_, _, comes_goesOn hl hp v (.output o) (some (IntoFuture.poll c)) ?_ (by omega)⟩
        rw [hpoll]
        simp only [poll_future, hst, hc, ho]
      · have hi := hs.inner c hc
        obtain ⟨l, c', hown, hstep, hlt, hfin⟩ :=
          inner_goes_on hi.inv hw (hi.loop_closed.trans hl) hwait v
        refine ⟨.inner l, { a with inner := some c' }, ?_, ?_, ?_, hl, .inl hp⟩
        · cases l with
          | finish_task r => exact .inr (by rw [hfin r rfl])
          | enter_start | run_start e | drop_start | run_done | drop_done | poll | drop | drop_slot
          | hand_cancel | run_cancel | close_loop => exact .inl rfl
        · simp only [step, hown, if_true, hc, Option.bind_some, hstep, Option.map_some]
        · simp only [pending_rank, htask, hst, hc]
          omega
  | after r =>
      have hcomes : poll_future a none true = some (comes a r true) := by
        simp only [poll_future, hst]
      refine ⟨_, _, comes_goesOn hl hp v r a.inner ((hpoll _ _).trans hcomes) ?_⟩
      simp [pending_rank, htask, hst]
  | gone =>
      simp only [hst] at hstage
      exact absurd htask hstage.1

/-- Behind it, the result is posted and set. -/
theorem pending_goes_on (hs : Inv a) (hl : a.loop_closed = false) (hp : a.outer.target = .pending)
    (v : ρ) : ∃ l a', GoesOn a v l a' := by
  cases htask : a.outer.task with
  | ended => exact absurd hp (hs.outer.ended htask)
  | posted r =>
      refine ⟨.complete, { a with outer := { a.outer with
        task := .ended, target := .set r, on_cancel := .scheduled } }, .inl rfl, ?_, ?_, hl,
        .inr ⟨r, rfl⟩⟩
      · simp only [step, hl, Bool.false_eq_true, if_false, Bridge.complete, htask, hp,
          Option.map_some]
      · simp [pending_rank, htask]
  | blocking r =>
      refine ⟨.post, { a with outer := { a.outer with task := .posted r } }, .inl rfl, ?_, ?_, hl,
        .inl hp⟩
      · simp only [step, Bridge.post, htask, Option.map_some]
      · simp [pending_rank, htask]
  | select => exact select_goes_on hs hl hp htask v

/-! ## A cancellation -/

/-- The coroutine is over: it was never started and never will be, it came to an end, or its
task was told to cancel. -/
def Settled (c : Call ρ) : Prop :=
  c.task = none ∧ c.awaitable ≠ .held ∧ c.awaitable ≠ .taken
    ∨ (∃ r, c.task = some (.finished r)) ∨ c.cancel = .ran

/-- How far the guard and `Start` are from that, once the future was dropped. -/
def drop_rank (c : Call ρ) : ℕ :=
  match c.fut, c.cancel, c.start with
  | .dropping, _, _ => 5
  | .cancelling, _, _ => 4
  | .dropped, .handed, _ => 3
  | .dropped, _, .queued => 2
  | .dropped, _, .entered => 1
  | _, _, _ => 0

/-- A future that is complete has a coroutine that is over. -/
theorem settled_of_complete (hi : InnerInv a c) (hl : c.loop_closed = false) {o : Output ρ}
    (hf : c.fut = .complete o) : Settled c := by
  have hout := hi.inv.output o hf
  have hchan := hi.inv.channel
  unfold IntoFuture.ChannelInv at hchan
  cases o with
  | of_task r =>
      simp only [hout] at hchan
      exact .inr (.inl ⟨r, hchan.2.1⟩)
  | the_task_was_dropped =>
      simp only [hout] at hchan
      rcases hchan.1 with ⟨hst, ht, -⟩ | ⟨-, hd⟩
      · have hstart := hi.inv.start
        rw [IntoFuture.StartInv, hst] at hstart
        exact .inl ⟨ht, hstart⟩
      · -- `Done` goes unrun only with the loop, or after the future
        rcases hi.done hd with hcl | hfd
        · rw [hl] at hcl
          cases hcl
        · rw [hf] at hfd
          cases hfd

/-- A dropped future's side goes on until the coroutine is settled. -/
theorem dropped_goes_on (hi : InnerInv a c) (hl : c.loop_closed = false) (hw : c.fut ≠ .waiting)
    (hns : ¬ Settled c) : ∃ l c', own l = true ∧ machinery (.inner l) = true
      ∧ IntoFuture.step c l = some c' ∧ drop_rank c' < drop_rank c := by
  have hguard := hi.inv.guard
  have hstart := hi.inv.start
  unfold IntoFuture.GuardInv at hguard
  unfold IntoFuture.StartInv at hstart
  cases hf : c.fut with
  | waiting => exact absurd hf hw
  | complete o => exact absurd (settled_of_complete hi hl hf) hns
  | dropping =>
      -- the guard has not come to the slot: it marks it, and takes the task if there is one
      simp only [hf] at hguard
      refine ⟨.drop_slot, IntoFuture.drop_slot c, rfl, rfl, by simp only [IntoFuture.step, hf], ?_⟩
      unfold drop_rank IntoFuture.drop_slot
      rw [hf, hguard.2.2]
      cases c.slot_task <;> cases c.start <;> simp
  | cancelling =>
      refine ⟨.hand_cancel, _, rfl, rfl, by simp only [IntoFuture.step, hf]; rfl, ?_⟩
      simp [drop_rank, hf, hl]
  | dropped =>
      simp only [hf] at hguard
      obtain ⟨hslot, -, hiff⟩ := hguard
      by_cases ht : c.task = none
      -- no task: a `Start` that is still to run finds the slot marked, and starts none
      · have hcancel : c.cancel = .none := by
          by_contra hne
          exact hiff.2 hne ht
        cases hst : c.start with
        | queued =>
            refine ⟨.enter_start, _, rfl, rfl, if_pos ⟨hst, hl⟩, ?_⟩
            simp [drop_rank, hf, hcancel, hst]
        | entered =>
            refine ⟨.run_start .running, _, rfl, rfl, if_pos hst, ?_⟩
            simp [drop_rank, hf, hcancel, hst, IntoFuture.run_start, hslot]
        | returned =>
            refine absurd (.inl ⟨ht, ?_⟩) hns
            simp only [hst] at hstart
            rcases hstart with ha | ha | ⟨-, ha | ⟨ha, -⟩⟩ <;> simp [ha]
        | dropped =>
            simp only [hst] at hstart
            exact absurd (.inl ⟨ht, hstart⟩) hns
      · cases hcancel : c.cancel with
        | none => exact absurd hcancel (hiff.1 ht)
        | ran => exact absurd (.inr (.inr hcancel)) hns
        | refused =>
            -- only a closed loop refuses
            rw [hi.inv.refused hcancel] at hl
            cases hl
        | handed =>
            refine ⟨.run_cancel, _, rfl, rfl, if_pos ⟨hcancel, hl⟩, ?_⟩
            unfold drop_rank
            rw [hf, hcancel]
            cases c.start <;> simp

/-- The cancellation has gone all the way. -/
def Through (a : Await ρ) : Prop :=
  a.outer.task ≠ .select ∧ ∀ c, a.inner = some c → Settled c

/-- How far a cancelled await is from having cancelled the coroutine too. -/
def cancelled_rank (a : Await ρ) : ℕ :=
  (if a.outer.on_cancel = .scheduled then 1 else 0)
    + (match a.outer.task with
      | .select => 6
      | _ => 0)
    + (match a.inner with
      | some c => drop_rank c
      | none => 0)

/-- To drop the Rust future is to begin with the guard's work. -/
theorem drop_inner_rank (c : Call ρ) : drop_rank (drop_inner c) ≤ 5 + drop_rank c := by
  unfold drop_inner
  split
  · simp [drop_rank]
  · omega

/-- A cancelled await that is not through can go on, and then is nearer to it. -/
theorem cancelled_goes_on (hs : Inv a) (hl : a.loop_closed = false)
    (hc : a.outer.target = .cancelled) (hnot : ¬ Through a) :
    ∃ l a', machinery l = true ∧ step a l = some a' ∧ cancelled_rank a' < cancelled_rank a
      ∧ a'.loop_closed = false ∧ a'.outer.target = .cancelled := by
  cases hon : a.outer.on_cancel with
  | registered =>
      rw [hs.outer.registered.1 hon] at hc
      cases hc
  | scheduled =>
      refine ⟨.on_cancel, { a with outer := { a.outer with on_cancel := .ran, cancel := .sent } },
        rfl, ?_, ?_, hl, hc⟩
      · simp only [step, hl, Bool.false_eq_true, if_false, Bridge.run_on_cancel, hon, hc,
          Option.map_some]
      · simp [cancelled_rank, hon]
  | ran =>
      have hcancel : a.outer.cancel ≠ .empty := fun h => hs.outer.empty.1 h hon
      by_cases htask : a.outer.task = .select
      · refine ⟨.poll none false, { a with
          outer := { a.outer with task := .ended }
          stage := .gone
          inner := a.inner.map drop_inner }, rfl, ?_, ?_, hl, hc⟩
        · simp only [step, poll, htask]
        · cases hin : a.inner with
          | none => simp [cancelled_rank, hon, htask, hin]
          | some c =>
              have hle := drop_inner_rank c
              simp only [cancelled_rank, hon, htask, hin, Option.map_some]
              omega
      · -- the future is gone, so what is left to do is the coroutine's side
        obtain ⟨c, hin, hns⟩ : ∃ c, a.inner = some c ∧ ¬ Settled c := by
          by_contra hall
          exact hnot ⟨htask, fun c hin => by_contra fun hns => hall ⟨c, hin, hns⟩⟩
        have hi := hs.inner c hin
        have hw : c.fut ≠ .waiting := by
          have hstage := hs.stage
          unfold StageInv at hstage
          cases hst : a.stage with
          | gone =>
              simp only [hst] at hstage
              exact hstage.2 c hin
          | new | awaiting | after r =>
              simp only [hst] at hstage
              exact absurd hstage.1 htask
        obtain ⟨l, c', hown, hm, hstep, hlt⟩ :=
          dropped_goes_on hi (hi.loop_closed.trans hl) hw hns
        refine ⟨.inner l, { a with inner := some c' }, hm, ?_, ?_, hl, hc⟩
        · simp only [step, hown, if_true, hin, Option.bind_some, hstep, Option.map_some]
        · simp only [cancelled_rank, hin]
          omega

/-! ## Every run -/

/-- What the outer future may be set to, and what the coroutine's side says then. -/
def Delivers (a : Await ρ) : Result ρ → Prop
  | .output (.of_task v) => ∃ c, a.inner = some c ∧ c.task = some (.finished v)
  | .output .the_task_was_dropped =>
    ∃ c, a.inner = some c ∧ c.sends = [] ∧ (c.task = none ∨ a.loop_closed = true)
  | .raised => a.inner = none

/-- What the outer future was set to is what the coroutine came to, or that there was none. -/
theorem Inv.delivers (hs : Inv a) {r : Result ρ} (hr : a.outer.target = .set r) :
    Delivers a r := by
  have hcame := hs.came r (.inr (.inr hr))
  cases r with
  | raised => exact hcame
  | output o =>
      obtain ⟨c, hc, ho⟩ := hcame
      have hi := hs.inner c hc
      have hout := hi.inv.output o ho
      have hchan := hi.inv.channel
      unfold IntoFuture.ChannelInv at hchan
      cases o with
      | of_task v =>
          simp only [hout] at hchan
          exact ⟨c, hc, hchan.2.1⟩
      | the_task_was_dropped =>
          simp only [hout] at hchan
          refine ⟨c, hc, hchan.2, ?_⟩
          rcases hchan.1 with ⟨-, ht, -⟩ | ⟨-, hd⟩
          · exact .inl ht
          · refine .inr (hi.loop_closed ▸ (hi.done hd).resolve_right fun hf => ?_)
            rw [ho] at hf
            cases hf

/-- **An await through both bridges ends, and a cancellation goes through both.** From every
reachable state:

1. a result that the awaited future has is the coroutine's own; without one, there was no
   task, or its loop closed;
2. the coroutine's task is told to cancel only if Python cancelled the future it awaits;
3. while the loop is open and the future is pending, it gets a result by steps of the two
   bridges, if the coroutine comes to its end;
4. while the loop is open, a cancelled future has its coroutine settled by steps of the two
   bridges alone: never started, finished, or with its task told to cancel. -/
theorem await_through_both_bridges {ls : List (Label ρ)} (h : run step init ls = some a) :
    (∀ r, a.outer.target = .set r → Delivers a r)
    ∧ (∀ c, a.inner = some c → c.cancel ≠ .none → a.outer.target = .cancelled)
    ∧ (a.loop_closed = false → a.outer.target = .pending → ∀ v, ∃ ls' a',
        (∀ l ∈ ls', machinery l = true ∨ l = .inner (.finish_task v))
        ∧ run step a ls' = some a' ∧ ∃ r, a'.outer.target = .set r)
    ∧ (a.loop_closed = false → a.outer.target = .cancelled → ∃ ls' a',
        (∀ l ∈ ls', machinery l = true) ∧ run step a ls' = some a' ∧ Through a') := by
  have hs := run_await h
  refine ⟨fun r hr => hs.delivers hr, fun c hc hcancel => ?_, fun hl hp v => ?_, fun hl hc => ?_⟩
  · have hi := hs.inner c hc
    -- a cancel was asked for only by a guard that is through
    refine hi.dropped (.inr (.inr ?_))
    have hguard := hi.inv.guard
    unfold IntoFuture.GuardInv at hguard
    cases hf : c.fut with
    | dropped => rfl
    | waiting | dropping | complete o =>
        simp only [hf] at hguard
        exact absurd hguard.2.2 hcancel
    | cancelling =>
        simp only [hf] at hguard
        exact absurd hguard.2.2.2 hcancel
  -- each of the two comes to an end by a rank that some step makes smaller
  · have hgo : ∀ u : Await ρ, (Inv u ∧ u.loop_closed = false
          ∧ (u.outer.target = .pending ∨ ∃ r, u.outer.target = .set r)) →
        ¬ (∃ r, u.outer.target = .set r) → ∃ l u',
          (machinery l = true ∨ l = .inner (.finish_task v)) ∧ step u l = some u'
          ∧ (Inv u' ∧ u'.loop_closed = false
            ∧ (u'.outer.target = .pending ∨ ∃ r, u'.outer.target = .set r))
          ∧ pending_rank u' < pending_rank u := by
      rintro u ⟨hu, hul, hup⟩ hnot
      obtain ⟨l, u', hm, hstep, hlt, hul', hup'⟩ :=
        pending_goes_on hu hul (hup.resolve_right hnot) v
      exact ⟨l, u', hm, hstep, ⟨step_inv hu hstep, hul', hup'⟩, hlt⟩
    exact exists_run_of_decreasing step pending_rank hgo ⟨hs, hl, .inl hp⟩
  · have hgo : ∀ u : Await ρ, (Inv u ∧ u.loop_closed = false ∧ u.outer.target = .cancelled) →
        ¬ Through u → ∃ l u', machinery l = true ∧ step u l = some u'
          ∧ (Inv u' ∧ u'.loop_closed = false ∧ u'.outer.target = .cancelled)
          ∧ cancelled_rank u' < cancelled_rank u := by
      rintro u ⟨hu, hul, huc⟩ hnot
      obtain ⟨l, u', hm, hstep, hlt, hul', huc'⟩ := cancelled_goes_on hu hul huc hnot
      exact ⟨l, u', hm, hstep, ⟨step_inv hu hstep, hul', huc'⟩, hlt⟩
    exact exists_run_of_decreasing step cancelled_rank hgo ⟨hs, hl, hc⟩

/-- The coroutine runs when Python cancels the future. -/
def cancelled_while_running : List (Label ℕ) :=
  [.poll (some .present) true, .inner .enter_start, .inner (.run_start .running), .cancel]

/-- The hypotheses can be met: cancelled while the coroutine runs. -/
theorem await_through_both_bridges_cancelled :
    ∃ a, run step init cancelled_while_running = some a ∧ a.outer.target = .cancelled
      ∧ ∃ ls' a', (∀ l ∈ ls', machinery l = true) ∧ run step a ls' = some a' ∧ Through a' := by
  have h := @await_through_both_bridges ℕ _ cancelled_while_running rfl
  exact ⟨_, rfl, rfl, h.2.2.2 rfl rfl⟩

end ZmuxPy.BridgedAwait
