/-
Carriers that pass through Python callables: a listener's inbound transform (`transform`,
`call` and `Release` in `src/layer.rs`), the `dial` of a `PipePool` (`PipePool::native` in
`src/pool.rs`) and the `rejoin` of `resolve_duplicate` (`src/helpers.rs`).

All three call Python, await the coroutine on its loop, and take the native carrier out of
the `PipeIo` that comes back. A transform is also given a carrier, in a `PipeIo` of its own,
and Python may do anything with that object while the call is under way and afterwards: use
it, label it, wrap it, hand it back, hand another one back, keep it in a traceback. The
listener in turn may drop the future at any await. `Release` is there so that the carrier
does not outlive the call in an object that Python forgot.

Handles and carriers are numbers. Each `take` is a step of its own: on an interpreter without
the global lock other threads may come between the two of one poll. `moved` and `reported`
are history: the carriers that Python itself took out of a handle, and the calls whose error
was reported as unraisable.
-/
import Mathlib.Data.List.Basic
import ZmuxPy.Machine
import ZmuxPy.Parties
import ZmuxPy.Slots

set_option autoImplicit false

namespace ZmuxPy.CarrierCallbacks

open Machine Parties Slots

/-! ## The model -/

/-- Whom a callable is called for. -/
inductive Kind where
  | transform
  /-- A pool's `dial`, or `rejoin`: the call has no carrier of its own. -/
  | dial
  deriving DecidableEq, Repr

/-- What the callable returned, or its coroutine came to. -/
inductive Object where
  | pipe (handle : ℕ)
  | other
  | raised (cancelled : Bool)
  deriving DecidableEq, Repr

/-- What a call comes to: a carrier, or an error. -/
inductive Outcome where
  | ok (io : ℕ)
  | failed (cancelled : Bool)
  deriving DecidableEq, Repr

/-- The future: not polled yet; in the call of the Python function; awaiting the coroutine,
which may have ended; with the object; behind the `take`; over. -/
inductive Phase where
  | new
  | running
  | awaiting (r : Option Object)
  | got (r : Object)
  | took (o : Outcome)
  | ended (o : Outcome)
  | dropped
  deriving DecidableEq, Repr

/-- A call of a Python callable, with the future that made it. -/
structure Call where
  kind : Kind
  /-- The carrier that a transform is called for. -/
  io : Option ℕ
  /-- `Release`: the handle that Python was given. -/
  given : Option ℕ
  phase : Phase
  deriving DecidableEq, Repr

/-- The handles, the calls, and where every carrier has gone. -/
structure World where
  /-- The `PipeIo` objects. -/
  pipes : List (Option ℕ)
  calls : List Call
  /-- The carriers that a `wrap` is running on. -/
  layers : List ℕ
  /-- The carriers that Python used up: for a session, a stream, another listener. -/
  used : List ℕ
  closed : List ℕ
  /-- What the calls gave back, by the number of the call. -/
  delivered : List (ℕ × ℕ)
  moved : List ℕ
  reported : List ℕ
  /-- The carriers from here on do not exist yet. -/
  fresh : ℕ
  deriving DecidableEq, Repr

/-- No carrier has arrived. -/
def init : World :=
  { pipes := [], calls := [], layers := [], used := [], closed := [], delivered := [], moved := []
    reported := [], fresh := 0 }

/-- Call `k` goes on to a phase. -/
def World.go (w : World) (k : ℕ) (c : Call) (phase : Phase) : World :=
  { w with calls := w.calls.set k { c with phase := phase } }

/-- `Release::drop`: what is left in the handle is dropped, and so closed. -/
def release (w : World) (given : Option ℕ) : World :=
  match given.bind (peek w.pipes ·), given with
  | some io, some p => { w with pipes := clear w.pipes p, closed := w.closed ++ [io] }
  | _, _ => w

/-- The first poll of a future, up to the call of the Python function. -/
def start (w : World) (k : ℕ) (c : Call) : Option World :=
  match c.phase, c.io with
  | .new, some io =>
    some { w with
      pipes := w.pipes ++ [some io]
      calls := w.calls.set k { c with given := some w.pipes.length, phase := .running } }
  | .new, none => some (w.go k c .running)
  | _, _ => none

/-- The function returned `r`, which is not an awaitable, or raised. What `dial` returns is
always awaited. -/
def returns (w : World) (k : ℕ) (c : Call) (r : Object) : Option World :=
  match c.phase, c.kind, r with
  | .running, _, .raised b => some (w.go k c (.got (.raised b)))
  | .running, .transform, r => some (w.go k c (.got r))
  | _, _, _ => none

/-- The function returned an awaitable, and `into_future` took it. -/
def awaits (w : World) (k : ℕ) (c : Call) : Option World :=
  if c.phase = .running then some (w.go k c (.awaiting none)) else none

/-- The coroutine comes to its end. -/
def resolve (w : World) (k : ℕ) (c : Call) (r : Object) : Option World :=
  if c.phase = .awaiting none then some (w.go k c (.awaiting (some r))) else none

/-- The future is polled behind that. -/
def poll (w : World) (k : ℕ) (c : Call) : Option World :=
  match c.phase with
  | .awaiting (some r) => some (w.go k c (.got r))
  | _ => none

/-- `obj.cast::<PipeIo>()?.get().take()`. -/
def take (w : World) (k : ℕ) (c : Call) : Option World :=
  match c.phase with
  | .got (.pipe j) =>
    match peek w.pipes j with
    | some io =>
      some { w with
        pipes := clear w.pipes j
        calls := w.calls.set k { c with phase := .took (.ok io) }
        delivered := w.delivered ++ [(k, io)] }
    -- "pipe already used"
    | none => some (w.go k c (.took (.failed false)))
  | .got .other => some (w.go k c (.took (.failed false)))
  | .got (.raised b) => some (w.go k c (.took (.failed b)))
  | _ => none

/-- The end of the future: the guard is dropped, and an error of a transform reported unless
it is a cancellation. -/
def finish (w : World) (k : ℕ) (c : Call) : Option World :=
  match c.phase with
  | .took o =>
    let w := (release w c.given).go k c (.ended o)
    some (if c.kind = .transform ∧ o = .failed false then { w with reported := w.reported ++ [k] }
      else w)
  | _ => none

/-- The listener, or the pool, drops the future: before its first poll, or at its await. -/
def drop_call (w : World) (k : ℕ) (c : Call) : Option World :=
  match c.phase with
  | .new =>
    some { w with
      calls := w.calls.set k { c with phase := .dropped }, closed := w.closed ++ c.io.toList }
  | .awaiting _ => some ((release w c.given).go k c .dropped)
  | _ => none

/-- `pipe.take()` in a call that Python makes; it raises, and changes nothing, on a handle
that is used up. -/
def python_take (w : World) (i : ℕ) (f : World → ℕ → World) : World :=
  match peek w.pipes i with
  | some io => f { w with pipes := clear w.pipes i, moved := w.moved ++ [io] } io
  | none => w

/-- Some call still refers to handle `i`. -/
def referred (w : World) (i : ℕ) : Bool :=
  w.calls.any fun c =>
    match c.phase with
    | .new | .ended _ | .dropped => false
    | .awaiting (some (.pipe j)) | .got (.pipe j) => j = i || c.given = some i
    | _ => c.given = some i

/-- What the listeners and pools, the runtime, Python's callables and the rest of the Python
program do. -/
inductive Label where
  /-- A carrier arrives at a listener with a transform. -/
  | arrive
  /-- A pool wants a carrier, or `resolve_duplicate` one to rejoin with. -/
  | dial
  | start (k : ℕ)
  | returns (k : ℕ) (r : Object)
  | awaits (k : ℕ)
  | resolve (k : ℕ) (r : Object)
  | poll (k : ℕ)
  | take (k : ℕ)
  | finish (k : ℕ)
  | drop_call (k : ℕ)
  /-- Python makes a carrier: `dial_tcp` and the like. -/
  | make
  /-- `Session.connect(pipe)`, `pipe.into_stream()` and the like. -/
  | use (i : ℕ)
  /-- `pipe.with_carrier(..)` and the like. -/
  | label (i : ℕ)
  | wrap (i : ℕ)
  /-- A `wrap` on carrier `io` returns or fails. -/
  | wrapped (io : ℕ) (ok : Bool)
  /-- An object that nobody has is deallocated. -/
  | collect (i : ℕ)
  deriving DecidableEq, Repr

/-- Call `k` takes a step. -/
def on (w : World) (k : ℕ) (f : World → ℕ → Call → Option World) : Option World :=
  (w.calls[k]?).bind fun c => f w k c

/-- One step. -/
def step (w : World) : Label → Option World
  | .arrive =>
    some { w with
      calls := w.calls ++ [{ kind := .transform, io := some w.fresh, given := none, phase := .new }]
      fresh := w.fresh + 1 }
  | .dial =>
    some { w with
      calls := w.calls ++ [{ kind := .dial, io := none, given := none, phase := .new }] }
  | .start k => on w k start
  | .returns k r => on w k fun w k c => returns w k c r
  | .awaits k => on w k awaits
  | .resolve k r => on w k fun w k c => resolve w k c r
  | .poll k => on w k poll
  | .take k => on w k take
  | .finish k => on w k finish
  | .drop_call k => on w k drop_call
  | .make => some { w with pipes := w.pipes ++ [some w.fresh], fresh := w.fresh + 1 }
  | .use i => some (python_take w i fun w io => { w with used := w.used ++ [io] })
  | .label i => some (python_take w i fun w io => { w with pipes := w.pipes ++ [some io] })
  | .wrap i => some (python_take w i fun w io => { w with layers := w.layers ++ [io] })
  | .wrapped io ok =>
    if io ∈ w.layers then
      if ok then some { w with layers := w.layers.erase io, pipes := w.pipes ++ [some io] }
      else some { w with layers := w.layers.erase io, closed := w.closed ++ [io] }
    else none
  | .collect i =>
    if referred w i then none
    else some (release w (some i))

/-! ## Where the carriers are -/

/-- A future that was not polled yet has its carrier. -/
def inside (io : ℕ) (c : Call) : ℕ := if c.phase = .new ∧ c.io = some io then 1 else 0

/-- In how many places carrier `io` is. -/
def places (w : World) (io : ℕ) : ℕ :=
  w.pipes.count (some io) + (w.calls.map (inside io)).sum + w.layers.count io + w.used.count io
    + w.closed.count io + (w.delivered.map Prod.snd).count io

/-- Python took the carrier out of a handle, a call gave it back, or it was closed. -/
def Gone (w : World) (io : ℕ) : Prop :=
  io ∈ w.moved ∨ io ∈ w.delivered.map Prod.snd ∨ io ∈ w.closed

/-! ## What handles lose -/

/-- Handles are made at the end, and what one has lost is gone. -/
structure Fades (w w' : World) : Prop where
  length : w.pipes.length ≤ w'.pipes.length
  gone : ∀ io, Gone w io → Gone w' io
  pipes : ∀ p, p < w.pipes.length → peek w'.pipes p = peek w.pipes p
    ∨ peek w'.pipes p = none ∧ ∀ io, peek w.pipes p = some io → Gone w' io

variable {w w' : World} {io : ℕ}

/-- No handle was touched. -/
theorem Fades.same (hpipes : w'.pipes = w.pipes) (hgone : ∀ io, Gone w io → Gone w' io) :
    Fades w w' :=
  ⟨Nat.le_of_eq (congrArg List.length hpipes.symm), hgone, fun p _ => .inl (by rw [hpipes])⟩

/-- A handle was made. -/
theorem Fades.append {o : Option ℕ} (hpipes : w'.pipes = w.pipes ++ [o])
    (hgone : ∀ io, Gone w io → Gone w' io) : Fades w w' := by
  refine ⟨?_, hgone, fun p hp => .inl ?_⟩
  · rw [hpipes, List.length_append]
    exact Nat.le_add_right _ _
  · rw [hpipes, peek_append_left _ _ hp]

/-- One handle lost its carrier, which is gone in one of the three ways; others may have been
made. -/
theorem Fades.clear {j : ℕ} (hj : peek w.pipes j = some io)
    (hpipes : ∃ more, w'.pipes = Slots.clear w.pipes j ++ more)
    (hgone : ∀ io, Gone w io → Gone w' io) (hio : Gone w' io) : Fades w w' := by
  obtain ⟨more, hpipes⟩ := hpipes
  refine ⟨?_, hgone, fun p hp => ?_⟩
  · rw [hpipes, List.length_append, length_clear]
    exact Nat.le_add_right _ _
  · rw [hpipes, peek_append_left _ _ (by rwa [length_clear])]
    by_cases hpj : j = p
    · subst hpj
      refine .inr ⟨peek_clear_self _ _, fun io' hio' => ?_⟩
      rw [hj, Option.some.injEq] at hio'
      exact hio' ▸ hio
    · exact .inl (peek_clear_ne _ hpj)

/-- `Release` finds its handle empty, or empties it. -/
theorem release_cases (w : World) (given : Option ℕ) :
    release w given = w ∧ (∀ p, given = some p → peek w.pipes p = none)
    ∨ ∃ p io, given = some p ∧ peek w.pipes p = some io
      ∧ release w given = { w with pipes := clear w.pipes p, closed := w.closed ++ [io] } := by
  unfold release
  cases given with
  | none =>
      refine .inl ⟨rfl, fun p hp => ?_⟩
      cases hp
  | some p =>
      simp only [Option.bind_some]
      cases hp : peek w.pipes p with
      | none =>
          refine .inl ⟨rfl, fun q hq => ?_⟩
          rw [← Option.some.inj hq]
          exact hp
      | some io => exact .inr ⟨p, io, rfl, hp, rfl⟩

/-- What is gone stays gone when something is closed. -/
theorem Gone.closed_append (l : List ℕ) (h : Gone w io) :
    Gone { w with closed := w.closed ++ l } io :=
  h.imp_right (Or.imp_right (List.mem_append_left _))

/-- What `Release` finds in the handle, it closes. -/
theorem release_fades (w : World) (given : Option ℕ) : Fades w (release w given) := by
  rcases release_cases w given with ⟨heq, -⟩ | ⟨p, io, -, hp, heq⟩
  · rw [heq]
    exact .same rfl fun _ => id
  · rw [heq]
    refine .clear hp ⟨[], (List.append_nil _).symm⟩ (fun _ h => h.closed_append _) ?_
    exact .inr (.inr (by simp))

/-- After it the handle is empty, -/
theorem release_empties (w : World) {given : Option ℕ} {p : ℕ} (hg : given = some p) :
    peek (release w given).pipes p = none := by
  rcases release_cases w given with ⟨heq, hnone⟩ | ⟨q, io, hq, -, heq⟩
  · rw [heq]
    exact hnone p hg
  · rw [heq]
    rw [hg, Option.some.injEq] at hq
    rw [hq]
    exact peek_clear_self _ _

/-- and no call has moved. -/
theorem release_calls (w : World) (given : Option ℕ) : (release w given).calls = w.calls := by
  rcases release_cases w given with ⟨heq, -⟩ | ⟨p, io, -, -, heq⟩ <;> rw [heq]

/-- What is taken out of a handle is in one place more, and in one place less. -/
theorem release_places (w : World) (given : Option ℕ) (io : ℕ) :
    places (release w given) io = places w io := by
  rcases release_cases w given with ⟨heq, -⟩ | ⟨p, io', -, hp, heq⟩
  · rw [heq]
  · rw [heq]
    have hcount := count_clear hp io
    simp only [places, List.count_append, List.count_singleton, beq_iff_eq]
    omega

/-! ## The invariant -/

/-- The future is over. -/
def is_over (c : Call) : Bool :=
  match c.phase with
  | .ended _ | .dropped => true
  | _ => false

/-- The carrier that a call gave back. -/
def gave (c : Call) : Option ℕ :=
  match c.phase with
  | .took (.ok io) | .ended (.ok io) => some io
  | _ => none

/-- A transform that failed, and not by a cancellation. -/
def fails (c : Call) : Bool :=
  match c.kind, c.phase with
  | .transform, .ended (.failed false) => true
  | _, _ => false

/-- What becomes of the carrier of a call. -/
structure Fate (w : World) (c : Call) : Prop where
  new : c.phase = .new → c.given = none
  idle : c.io = none → c.given = none
  live : ∀ io p, c.io = some io → c.given = some p → p < w.pipes.length
    ∧ (peek w.pipes p = some io ∨ peek w.pipes p = none ∧ Gone w io)
  unpolled : ∀ io, c.io = some io → c.phase ≠ .new → c.given = none → Gone w io
  emptied : is_over c = true → ∀ p, c.given = some p → peek w.pipes p = none

/-- **Every carrier is in exactly one place**, and each call's outcome has been entered once. -/
structure Inv (w : World) : Prop where
  once : ∀ io, places w io = if io < w.fresh then 1 else 0
  fate : ∀ (k : ℕ) (c : Call), w.calls[k]? = some c → Fate w c
  gave : ∀ (k io : ℕ), (k, io) ∈ w.delivered ↔ ∃ c, w.calls[k]? = some c ∧ gave c = some io
  nodup : (w.delivered.map Prod.fst).Nodup
  reported : ∀ k : ℕ, w.reported.count k = if (w.calls[k]?).any fails then 1 else 0

/-- There is nothing to keep. -/
theorem init_inv : Inv init := by
  refine ⟨fun io => rfl, fun k c hc => ?_, fun k io => ⟨fun h => ?_, fun h => ?_⟩, List.nodup_nil,
    fun k => rfl⟩
  · cases hc
  · cases h
  · obtain ⟨c, hc, -⟩ := h
    cases hc

/-- A call that did not move keeps its fate. -/
theorem Fate.fades {c : Call} (h : Fate w c) (hf : Fades w w') : Fate w' c := by
  refine ⟨h.new, h.idle, fun io p hio hp => ?_, fun io hio hph hg => ?_, fun ho p hp => ?_⟩
  · obtain ⟨hlt, hpeek⟩ := h.live io p hio hp
    refine ⟨Nat.lt_of_lt_of_le hlt hf.length, ?_⟩
    rcases hf.pipes p hlt with heq | ⟨hnone, hgone⟩
    · rw [heq]
      exact hpeek.imp_right fun ⟨hnone, hgone⟩ => ⟨hnone, hf.gone io hgone⟩
    · refine .inr ⟨hnone, ?_⟩
      rcases hpeek with hpeek | ⟨-, hg⟩
      · exact hgone io hpeek
      · exact hf.gone io hg
  · exact hf.gone io (h.unpolled io hio hph hg)
  · have hnone := h.emptied ho p hp
    cases hio : c.io with
    | none =>
        rw [h.idle hio] at hp
        cases hp
    | some io =>
        rcases hf.pipes p (h.live io p hio hp).1 with heq | ⟨hnone', -⟩
        · rw [heq]
          exact hnone
        · exact hnone'

/-- A step of Python: no call moves, and nothing is given back or reported. -/
theorem Inv.python (hs : Inv w) (hf : Fades w w') (hcalls : w'.calls = w.calls)
    (hdel : w'.delivered = w.delivered) (hrep : w'.reported = w.reported)
    (honce : ∀ io, places w' io = if io < w'.fresh then 1 else 0) : Inv w' := by
  refine ⟨honce, fun k c hc => ?_, fun k io => ?_, ?_, fun k => ?_⟩
  · rw [hcalls] at hc
    exact (hs.fate k c hc).fades hf
  · rw [hdel, hcalls]
    exact hs.gave k io
  · rw [hdel]
    exact hs.nodup
  · rw [hrep, hcalls]
    exact hs.reported k

/-- A new call. -/
theorem Inv.call (hs : Inv w) {c : Call} (hf : Fades w w') (hcalls : w'.calls = w.calls ++ [c])
    (hphase : c.phase = .new) (hgiven : c.given = none) (hdel : w'.delivered = w.delivered)
    (hrep : w'.reported = w.reported)
    (honce : ∀ io, places w' io = if io < w'.fresh then 1 else 0) : Inv w' := by
  -- a new call has given nothing back and reported nothing
  have hgave : CarrierCallbacks.gave c = none := by rw [CarrierCallbacks.gave, hphase]
  have hfails : fails c = false := by
    unfold fails
    rw [hphase]
    split
    · cases ‹Phase.new = _›
    · rfl
  refine ⟨honce, fun k d hd => ?_, fun k io => ?_, hdel ▸ hs.nodup, fun k => ?_⟩
  · rw [hcalls] at hd
    rcases getElem?_concat_cases hd with ⟨rfl, rfl⟩ | hd
    · refine ⟨fun _ => hgiven, fun _ => hgiven, fun io p _ hp => ?_,
        fun io _ hne => absurd hphase hne, fun ho => ?_⟩
      · rw [hgiven] at hp
        cases hp
      · rw [is_over, hphase] at ho
        cases ho
    · exact (hs.fate k d hd).fades hf
  · rw [hdel, hs.gave k io, hcalls]
    constructor
    · rintro ⟨d, hd, hg⟩
      exact ⟨d, getElem?_concat_of_some hd, hg⟩
    · rintro ⟨d, hd, hg⟩
      rcases getElem?_concat_cases hd with ⟨rfl, rfl⟩ | hd
      · rw [hgave] at hg
        cases hg
      · exact ⟨d, hd, hg⟩
  · rw [hrep, hs.reported k, hcalls]
    by_cases hk : k < w.calls.length
    · rw [List.getElem?_append_left hk]
    · by_cases hk' : k = w.calls.length
      · rw [hk', List.getElem?_concat_length, List.getElem?_eq_none (Nat.le_refl _)]
        simp [hfails]
      · rw [List.getElem?_eq_none (Nat.le_of_not_lt hk), List.getElem?_eq_none (by simp; omega)]

/-- A step of call `k`. -/
theorem Inv.move (hs : Inv w) {k : ℕ} {c c' : Call} (hc : w.calls[k]? = some c) (hf : Fades w w')
    (hcalls : w'.calls = w.calls.set k c') (hfate : Fate w' c')
    (hdel : w'.delivered = w.delivered ∧ CarrierCallbacks.gave c' = CarrierCallbacks.gave c
      ∨ ∃ io, w'.delivered = w.delivered ++ [(k, io)] ∧ CarrierCallbacks.gave c = none
        ∧ CarrierCallbacks.gave c' = some io)
    (hrep : w'.reported = w.reported ∧ fails c' = fails c
      ∨ w'.reported = w.reported ++ [k] ∧ fails c = false ∧ fails c' = true)
    (hfresh : w'.fresh = w.fresh) (hplaces : ∀ io, places w' io = places w io) : Inv w' := by
  have hself : w'.calls[k]? = some c' := by
    rw [hcalls]
    exact getElem?_set_of_some hc
  have hother : ∀ {j : ℕ}, j ≠ k → w'.calls[j]? = w.calls[j]? := by
    intro j hj
    rw [hcalls, List.getElem?_set_ne (Ne.symm hj)]
  refine ⟨fun io => ?_, fun j d hd => ?_, fun j io => ?_, ?_, fun j => ?_⟩
  · rw [hplaces io, hfresh]
    exact hs.once io
  · by_cases hj : j = k
    · subst hj
      rw [hself, Option.some.injEq] at hd
      exact hd ▸ hfate
    · rw [hother hj] at hd
      exact (hs.fate j d hd).fades hf
  · by_cases hj : j = k
    · subst hj
      rw [hself]
      simp only [Option.some.injEq, exists_eq_left']
      have hold := hs.gave j io
      rw [hc] at hold
      simp only [Option.some.injEq, exists_eq_left'] at hold
      rcases hdel with ⟨hdel, hg⟩ | ⟨io', hdel, hg, hg'⟩
      · rw [hdel, hg]
        exact hold
      · rw [hdel, List.mem_append, hold, hg, hg']
        simp [eq_comm]
    · rw [hother hj, ← hs.gave j io]
      rcases hdel with ⟨hdel, -⟩ | ⟨io', hdel, -, -⟩
      · rw [hdel]
      · rw [hdel]
        simp [hj]
  · rcases hdel with ⟨hdel, -⟩ | ⟨io', hdel, hg, -⟩
    · rw [hdel]
      exact hs.nodup
    · rw [hdel, List.map_append, List.nodup_append]
      refine ⟨hs.nodup, by simp, fun a ha b hb hab => ?_⟩
      -- whoever gives back now has not given anything back yet
      obtain ⟨⟨j, io⟩, hj, rfl⟩ := List.mem_map.1 ha
      simp only [List.map_cons, List.map_nil, List.mem_singleton] at hb
      obtain ⟨d, hd, hgd⟩ := (hs.gave j io).1 hj
      simp only at hab
      rw [hab, hb, hc, Option.some.injEq] at hd
      rw [← hd, hg] at hgd
      cases hgd
  · by_cases hj : j = k
    · subst hj
      have hold := hs.reported j
      rw [hc, Option.any_some] at hold
      rw [hself, Option.any_some]
      rcases hrep with ⟨hrep, hfl⟩ | ⟨hrep, hfl, hfl'⟩
      · rw [hrep, hfl]
        exact hold
      · rw [hrep, List.count_append, hold, hfl, hfl']
        simp
    · rw [hother hj, ← hs.reported j]
      rcases hrep with ⟨hrep, -⟩ | ⟨hrep, -, -⟩
      · rw [hrep]
      · rw [hrep, List.count_append]
        simp [Ne.symm hj]

/-! ### The steps of a call -/

variable {k : ℕ} {c : Call}

/-- A call that has its carrier no more, and changes its phase only. -/
theorem Fate.phase (h : Fate w c) {ph : Phase} (hold : c.phase ≠ .new ∨ c.io = none)
    (hnew : ph ≠ .new) (hover : is_over { c with phase := ph } = true →
      ∀ p, c.given = some p → peek w.pipes p = none) : Fate w { c with phase := ph } := by
  refine ⟨fun hph => absurd hph hnew, h.idle, h.live, fun io hio _ hg => ?_, hover⟩
  rcases hold with hold | hold
  · exact h.unpolled io hio hold hg
  · rw [show c.io = some io from hio] at hold
    cases hold

/-- The phases in which a call has neither given anything back nor ended. -/
def pending : Phase → Bool
  | .new | .running | .awaiting _ | .got _ | .took (.failed _) => true
  | _ => false

/-- A call that is under way has neither given a carrier back nor failed. -/
theorem pending_spec (h : pending c.phase = true) :
    CarrierCallbacks.gave c = none ∧ fails c = false ∧ is_over c = false := by
  obtain ⟨kind, io, given, ph⟩ := c
  cases ph with
  | new | running | awaiting _ | got _ => cases kind <;> exact ⟨rfl, rfl, rfl⟩
  | took o =>
      cases o with
      | ok io => cases h
      | failed b => cases kind <;> exact ⟨rfl, rfl, rfl⟩
  | ended o => cases h
  | dropped => cases h

/-- A change of phase moves no carrier, unless it is the first. -/
theorem sum_inside (hc : w.calls[k]? = some c) (c' : Call)
    (hold : c.phase ≠ .new ∨ c.io = none) (hnew : c'.phase ≠ .new) (io : ℕ) :
    ((w.calls.set k c').map (inside io)).sum = (w.calls.map (inside io)).sum := by
  have hin : inside io c = 0 := by
    unfold inside
    rw [if_neg]
    rintro ⟨hph, hio⟩
    rcases hold with hold | hold
    · exact hold hph
    · rw [hold] at hio
      cases hio
  have hin' : inside io c' = 0 := if_neg fun h => hnew h.1
  have hsum := sum_map_set (inside io) c' hc
  omega

/-- From one phase to another, before anything is given back. -/
theorem Inv.phase (hs : Inv w) (hc : w.calls[k]? = some c) {ph : Phase}
    (hold : c.phase ≠ .new ∨ c.io = none) (hnew : ph ≠ .new) (hpend : pending c.phase = true)
    (hpend' : pending ph = true) : Inv (w.go k c ph) := by
  obtain ⟨hg, hfl, -⟩ := pending_spec hpend
  obtain ⟨hg', hfl', ho'⟩ := @pending_spec { c with phase := ph } hpend'
  have hfade : Fades w (w.go k c ph) := .same rfl fun _ => id
  have hfate : Fate w { c with phase := ph } := by
    refine (hs.fate k c hc).phase hold hnew fun ho => ?_
    rw [ho'] at ho
    cases ho
  refine hs.move hc hfade rfl (hfate.fades hfade) (.inl ⟨rfl, hg'.trans hg.symm⟩)
    (.inl ⟨rfl, hfl'.trans hfl.symm⟩) rfl fun io => ?_
  simp only [places, World.go, sum_inside hc { c with phase := ph } hold hnew]

/-- The carrier goes from the future to the handle that Python is given. -/
theorem start_inv (hs : Inv w) (hc : w.calls[k]? = some c) (h : start w k c = some w') :
    Inv w' := by
  unfold start at h
  split at h
  · rename_i io hph hio
    cases h
    refine hs.move hc (.append rfl fun _ => id) rfl ⟨?_, ?_, fun io' p hio' hp => ?_, ?_, ?_⟩
      (.inl ⟨rfl, ?_⟩) (.inl ⟨rfl, ?_⟩) rfl fun io' => ?_
    · intro hnew
      cases hnew
    · intro hnone
      rw [show c.io = none from hnone] at hio
      cases hio
    · rw [show c.io = some io' from hio', Option.some.injEq] at hio
      cases hp
      refine ⟨by simp, .inl ?_⟩
      rw [hio]
      exact peek_concat_length _ _
    · intro io' _ _ hg
      cases hg
    · intro ho
      cases ho
    · rw [gave, gave, hph]
    · simp only [fails, hph]
      cases c.kind <;> rfl
    · -- the carrier goes from the future to its handle
      have hsum := sum_map_set (inside io')
        { c with given := some w.pipes.length, phase := .running } hc
      have hin : inside io' c = if io = io' then 1 else 0 := by
        simp [inside, hph, hio]
      have hin' : inside io' { c with given := some w.pipes.length, phase := .running } = 0 :=
        if_neg fun h => by cases h.1
      have hcount : (w.pipes ++ [some io]).count (some io')
          = w.pipes.count (some io') + if io = io' then 1 else 0 := by
        simp [List.count_append, List.count_singleton]
      simp only [places, hcount]
      omega
  · rename_i hph hio
    cases h
    exact hs.phase hc (.inr hio) (by simp) (by rw [hph]; rfl) rfl
  · cases h

/-- A callable that returns, or raises, at once. -/
theorem returns_inv (hs : Inv w) (hc : w.calls[k]? = some c) {r : Object}
    (h : returns w k c r = some w') : Inv w' := by
  unfold returns at h
  split at h
  · rename_i hph
    cases h
    exact hs.phase hc (.inl (by simp [hph])) (by simp) (by rw [hph]; rfl) rfl
  · rename_i hph _ _
    cases h
    exact hs.phase hc (.inl (by simp [hph])) (by simp) (by rw [hph]; rfl) rfl
  · cases h

/-- A callable that returns a coroutine, -/
theorem awaits_inv (hs : Inv w) (hc : w.calls[k]? = some c) (h : awaits w k c = some w') :
    Inv w' := by
  unfold awaits at h
  split at h
  · rename_i hph
    cases h
    exact hs.phase hc (.inl (by simp [hph])) (by simp) (by rw [hph]; rfl) rfl
  · cases h

/-- which comes to its end at some time, -/
theorem resolve_inv (hs : Inv w) (hc : w.calls[k]? = some c) {r : Object}
    (h : resolve w k c r = some w') : Inv w' := by
  unfold resolve at h
  split at h
  · rename_i hph
    cases h
    exact hs.phase hc (.inl (by simp [hph])) (by simp) (by rw [hph]; rfl) rfl
  · cases h

/-- and the future is told. -/
theorem poll_inv (hs : Inv w) (hc : w.calls[k]? = some c) (h : poll w k c = some w') :
    Inv w' := by
  unfold poll at h
  split at h
  · rename_i hph
    cases h
    exact hs.phase hc (.inl (by simp [hph])) (by simp) (by rw [hph]; rfl) rfl
  · cases h

/-- The carrier goes from the handle that came back to whoever made the call. -/
theorem take_inv (hs : Inv w) (hc : w.calls[k]? = some c) (h : take w k c = some w') :
    Inv w' := by
  unfold take at h
  split at h
  · rename_i j hph
    split at h
    · rename_i io hj
      cases h
      -- the future has given its carrier to a handle long before it takes one
      have hold : c.phase ≠ .new ∨ c.io = none := .inl (by simp [hph])
      have hfade : Fades w { w with
          pipes := clear w.pipes j
          calls := w.calls.set k { c with phase := .took (.ok io) }
          delivered := w.delivered ++ [(k, io)] } := by
        refine .clear hj ⟨[], (List.append_nil _).symm⟩ (fun io' hg => ?_) (.inr (.inl (by simp)))
        refine hg.imp_right (Or.imp_left fun h => ?_)
        rw [List.map_append]
        exact List.mem_append_left _ h
      have hfate : Fate w { c with phase := .took (.ok io) } := by
        refine (hs.fate k c hc).phase hold (by simp) fun ho => ?_
        cases ho
      obtain ⟨hg, hfl, -⟩ := pending_spec (c := c) (by rw [hph]; rfl)
      refine hs.move hc hfade rfl (hfate.fades hfade) (.inr ⟨io, rfl, hg, rfl⟩)
        (.inl ⟨rfl, ?_⟩) rfl fun io' => ?_
      · rw [hfl]
        cases c.kind <;> rfl
      -- out of the handle, into what was delivered
      · have hcount := count_clear hj io'
        have hsum := sum_inside hc { c with phase := .took (.ok io) } hold (by simp) io'
        simp only [places, hsum, List.map_append, List.map_cons, List.map_nil, List.count_append,
          List.count_singleton, beq_iff_eq]
        omega
    · cases h
      exact hs.phase hc (.inl (by simp [hph])) (by simp) (by rw [hph]; rfl) rfl
  · rename_i hph
    cases h
    exact hs.phase hc (.inl (by simp [hph])) (by simp) (by rw [hph]; rfl) rfl
  · rename_i hph
    cases h
    exact hs.phase hc (.inl (by simp [hph])) (by simp) (by rw [hph]; rfl) rfl
  · cases h

/-- A handle is emptied: by the guard of its call, or because nobody has it any more. -/
theorem Inv.release (hs : Inv w) (given : Option ℕ) : Inv (CarrierCallbacks.release w given) := by
  have hrest : (CarrierCallbacks.release w given).delivered = w.delivered
      ∧ (CarrierCallbacks.release w given).reported = w.reported
      ∧ (CarrierCallbacks.release w given).fresh = w.fresh := by
    rcases release_cases w given with ⟨heq, -⟩ | ⟨p, io, -, -, heq⟩ <;> rw [heq] <;>
      exact ⟨rfl, rfl, rfl⟩
  refine hs.python (release_fades w given) (release_calls w given) hrest.1 hrest.2.1 fun io => ?_
  rw [release_places, hrest.2.2]
  exact hs.once io

/-- The end of a call whose handle is empty. -/
theorem Inv.ends (hs : Inv w) (hc : w.calls[k]? = some c) {ph : Phase} (hold : c.phase ≠ .new)
    (hnew : ph ≠ .new) (hempty : ∀ p, c.given = some p → peek w.pipes p = none)
    (hgave : CarrierCallbacks.gave { c with phase := ph } = CarrierCallbacks.gave c)
    {reported : List ℕ}
    (hrep : reported = w.reported ∧ fails { c with phase := ph } = fails c
      ∨ reported = w.reported ++ [k] ∧ fails c = false ∧ fails { c with phase := ph } = true) :
    Inv { w with calls := w.calls.set k { c with phase := ph }, reported := reported } := by
  have hfade : Fades w { w with
      calls := w.calls.set k { c with phase := ph }, reported := reported } := .same rfl fun _ => id
  have hfate : Fate w { c with phase := ph } :=
    (hs.fate k c hc).phase (.inl hold) hnew fun _ => hempty
  refine hs.move hc hfade rfl (hfate.fades hfade) (.inl ⟨rfl, hgave⟩) hrep rfl fun io => ?_
  simp only [places, sum_inside hc { c with phase := ph } (.inl hold) hnew]

/-- The guard empties the handle that Python was given, and an error is reported once. -/
theorem finish_inv (hs : Inv w) (hc : w.calls[k]? = some c) (h : finish w k c = some w') :
    Inv w' := by
  unfold finish at h
  split at h
  · rename_i o hph
    cases h
    have hs' := hs.release c.given
    have hc' : (release w c.given).calls[k]? = some c := by rw [release_calls, hc]
    have hold : c.phase ≠ .new := by simp [hph]
    have hempty : ∀ p, c.given = some p → peek (release w c.given).pipes p = none :=
      fun p hp => release_empties w hp
    have hgave : gave { c with phase := .ended o } = gave c := by
      rw [gave, gave, hph]
      cases o <;> rfl
    have hfails : fails c = false := by
      simp only [fails, hph]
      cases c.kind <;> rfl
    split
    · rename_i hrep
      refine hs'.ends hc' hold (by simp) hempty hgave (.inr ⟨rfl, hfails, ?_⟩)
      rw [fails, hrep.1, hrep.2]
    · rename_i hrep
      refine hs'.ends hc' hold (by simp) hempty hgave (.inl ⟨rfl, hfails ▸ ?_⟩)
      -- what is not reported is a success, a cancellation or a dial
      rw [Bool.eq_false_iff]
      intro hf
      unfold fails at hf
      split at hf
      · rename_i hk hp
        exact hrep ⟨hk, Phase.ended.inj hp⟩
      · cases hf
  · cases h

/-- A dropped future has its carrier closed: its own before the first poll, that in the handle
after it. -/
theorem drop_call_inv (hs : Inv w) (hc : w.calls[k]? = some c) (h : drop_call w k c = some w') :
    Inv w' := by
  unfold drop_call at h
  split at h
  · rename_i hph
    cases h
    have hfate := hs.fate k c hc
    have hgiven : c.given = none := hfate.new hph
    have hfade : Fades w { w with
        calls := w.calls.set k { c with phase := .dropped }
        closed := w.closed ++ c.io.toList } :=
      .same rfl fun _ hg => hg.imp_right (Or.imp_right (List.mem_append_left _))
    refine hs.move hc hfade rfl ⟨?_, hfate.idle, fun io p _ hp => ?_, fun io hio _ _ => ?_,
      fun _ p hp => ?_⟩ (.inl ⟨rfl, ?_⟩) (.inl ⟨rfl, ?_⟩) rfl fun io => ?_
    · intro hnew
      cases hnew
    · rw [show c.given = some p from hp] at hgiven
      cases hgiven
    · refine .inr (.inr ?_)
      rw [show c.io = some io from hio]
      simp
    · rw [show c.given = some p from hp] at hgiven
      cases hgiven
    · rw [gave, gave, hph]
    · simp only [fails, hph]
      cases c.kind <;> rfl
    · -- the carrier goes from the future to those that are closed
      have hsum := sum_map_set (inside io) { c with phase := .dropped } hc
      have hin : inside io c = c.io.toList.count io := by
        cases hio : c.io with
        | none => simp [inside, hio]
        | some io' => simp [inside, hph, hio, List.count_singleton]
      have hin' : inside io { c with phase := .dropped } = 0 := if_neg fun h => by cases h.1
      simp only [places, List.count_append]
      omega
  · rename_i r hph
    cases h
    have hc' : (release w c.given).calls[k]? = some c := by rw [release_calls, hc]
    have hfails : fails c = false := (pending_spec (c := c) (by rw [hph]; rfl)).2.1
    refine (hs.release c.given).ends hc' (by simp [hph]) (by simp)
      (fun p hp => release_empties w hp) ?_ (.inl ⟨rfl, hfails ▸ ?_⟩)
    · rw [gave, gave, hph]
    · rw [fails]
      cases c.kind <;> rfl
  · cases h

/-! ### The steps of Python -/

/-- Python takes a carrier out of a handle, and puts it in one place. -/
theorem Inv.python_take (hs : Inv w) {i : ℕ} {f : World → ℕ → World}
    (hf : ∀ io, peek w.pipes i = some io →
      let w' := f { w with pipes := clear w.pipes i, moved := w.moved ++ [io] } io
      (∃ more, w'.pipes = clear w.pipes i ++ more) ∧ w'.calls = w.calls ∧ w'.closed = w.closed
        ∧ w'.delivered = w.delivered ∧ w'.moved = w.moved ++ [io] ∧ w'.reported = w.reported
        ∧ w'.fresh = w.fresh ∧ ∀ io', places w' io' = places w io') :
    Inv (CarrierCallbacks.python_take w i f) := by
  unfold CarrierCallbacks.python_take
  split
  · rename_i io hi
    obtain ⟨hpipes, hcalls, hclosed, hdel, hmoved, hrep, hfresh, hplaces⟩ := hf io hi
    refine hs.python (.clear hi hpipes (fun io' hg => ?_) ?_) hcalls hdel hrep fun io' => ?_
    · rw [Gone, hmoved, hdel, hclosed]
      exact hg.imp_left (List.mem_append_left _)
    · rw [Gone, hmoved]
      exact .inl (by simp)
    · rw [hplaces, hfresh]
      exact hs.once io'
  · exact hs

/-- A step of a call is one of a call that there is. -/
theorem on_eq_some {f : World → ℕ → Call → Option World} (h : on w k f = some w') :
    ∃ c, w.calls[k]? = some c ∧ f w k c = some w' := Option.bind_eq_some_iff.1 h

/-- **One step keeps the invariant.** What Python does by itself takes a carrier from a handle
to another place. -/
theorem step_inv {l : Label} (hs : Inv w) (h : step w l = some w') : Inv w' := by
  cases l with
  | arrive =>
      cases h
      refine hs.call (.same rfl fun _ => id) rfl rfl rfl rfl rfl fun io => ?_
      have honce := hs.once io
      simp only [places, List.map_append, List.map_cons, List.map_nil, List.sum_append,
        List.sum_cons, List.sum_nil, inside, Option.some.injEq, true_and] at honce ⊢
      -- the new carrier is in the new future, and the old ones are where they were
      split_ifs at honce ⊢ <;> omega
  | dial =>
      cases h
      refine hs.call (.same rfl fun _ => id) rfl rfl rfl rfl rfl fun io => ?_
      have honce := hs.once io
      simp only [places, List.map_append, List.map_cons, List.map_nil, List.sum_append,
        List.sum_cons, List.sum_nil, inside, reduceCtorEq, and_false, if_false] at honce ⊢
      -- a `dial` brings no carrier with it
      exact honce
  | start k =>
      obtain ⟨c, hc, h⟩ := on_eq_some h
      exact start_inv hs hc h
  | returns k r =>
      obtain ⟨c, hc, h⟩ := on_eq_some (f := fun w k c => returns w k c r) h
      exact returns_inv hs hc h
  | awaits k =>
      obtain ⟨c, hc, h⟩ := on_eq_some h
      exact awaits_inv hs hc h
  | resolve k r =>
      obtain ⟨c, hc, h⟩ := on_eq_some (f := fun w k c => resolve w k c r) h
      exact resolve_inv hs hc h
  | poll k =>
      obtain ⟨c, hc, h⟩ := on_eq_some h
      exact poll_inv hs hc h
  | take k =>
      obtain ⟨c, hc, h⟩ := on_eq_some h
      exact take_inv hs hc h
  | finish k =>
      obtain ⟨c, hc, h⟩ := on_eq_some h
      exact finish_inv hs hc h
  | drop_call k =>
      obtain ⟨c, hc, h⟩ := on_eq_some h
      exact drop_call_inv hs hc h
  | make =>
      cases h
      refine hs.python (.append rfl fun _ => id) rfl rfl rfl fun io => ?_
      have honce := hs.once io
      simp only [places, List.count_append, List.count_singleton, beq_iff_eq,
        Option.some.injEq] at honce ⊢
      split_ifs at honce ⊢ <;> omega
  | use i =>
      cases h
      refine hs.python_take fun io hi => ⟨⟨[], (List.append_nil _).symm⟩, rfl, rfl, rfl, rfl, rfl,
        rfl, fun io' => ?_⟩
      have hcount := count_clear hi io'
      simp only [places, List.count_append, List.count_singleton, beq_iff_eq]
      omega
  | label i =>
      cases h
      refine hs.python_take fun io hi => ⟨⟨[some io], rfl⟩, rfl, rfl, rfl, rfl, rfl, rfl,
        fun io' => ?_⟩
      have hcount := count_clear hi io'
      simp only [places, List.count_append, List.count_singleton, beq_iff_eq, Option.some.injEq]
      omega
  | wrap i =>
      cases h
      refine hs.python_take fun io hi => ⟨⟨[], (List.append_nil _).symm⟩, rfl, rfl, rfl, rfl, rfl,
        rfl, fun io' => ?_⟩
      have hcount := count_clear hi io'
      simp only [places, List.count_append, List.count_singleton, beq_iff_eq]
      omega
  | wrapped io ok =>
      simp only [step] at h
      split at h
      · rename_i hmem
        -- a `wrap` takes its carrier out of the layers, and it goes to a new handle or is
        -- closed
        have hcount : ∀ io', w.layers.count io'
            = (w.layers.erase io).count io' + if io = io' then 1 else 0 := by
          intro io'
          have := (List.perm_cons_erase hmem).count_eq io'
          rw [this, List.count_cons]
          simp
        split at h
        · cases h
          refine hs.python (.append rfl fun _ => id) rfl rfl rfl fun io' => ?_
          rw [← show places w io' = if io' < w.fresh then 1 else 0 from hs.once io']
          have hc := hcount io'
          simp only [places, List.count_append, List.count_singleton, beq_iff_eq,
            Option.some.injEq]
          omega
        · cases h
          refine hs.python (.same rfl fun _ hg => hg.closed_append _) rfl rfl rfl fun io' => ?_
          rw [← show places w io' = if io' < w.fresh then 1 else 0 from hs.once io']
          have hc := hcount io'
          simp only [places, List.count_append, List.count_singleton, beq_iff_eq]
          omega
      · cases h
  | collect i =>
      simp only [step] at h
      split at h
      · cases h
      · cases h
        exact hs.release (some i)

/-! ## Every run -/

/-- So it holds in every run. -/
theorem run_callbacks {ls : List Label} (h : run step init ls = some w) : Inv w :=
  run_inv step (fun _ _ _ hs h => step_inv hs h) init_inv h

/-- The carrier of a call that is over has left the call's handle. -/
theorem Fate.gone {c : Call} (h : Fate w c) (ho : is_over c = true)
    (hio : c.io = some io) : Gone w io := by
  cases hp : c.given with
  | none =>
      refine h.unpolled io hio (fun hph => ?_) hp
      rw [is_over, hph] at ho
      cases ho
  | some p =>
      have hnone := h.emptied ho p hp
      rcases (h.live io p hio hp).2 with hpeek | ⟨-, hgone⟩
      · rw [hnone] at hpeek
        cases hpeek
      · exact hgone

/-- **No carrier is lost, doubled or left behind in a Python object**, in whatever order
calls, coroutines, other threads and the dropping of futures come.

1. Every carrier there is, is in one place: in one handle, in a future that was not polled,
   under a running `wrap`, used up, closed, or given back by one call.
2. Once a call is over, returned or dropped, the handle it gave to Python is empty and stays
   so, and the carrier it was called for is closed, unless a call gave it back or Python had
   taken it out of the handle itself.
3. A call gives back at most one carrier, and exactly when it ends well.
4. An error is reported once for each transform that failed, and never for a cancellation, a
   dropped future or a `dial`. -/
theorem carriers_go_one_way {ls : List Label} (h : run step init ls = some w) :
    (∀ io, places w io = if io < w.fresh then 1 else 0)
    ∧ (∀ (k : ℕ) (c : Call), w.calls[k]? = some c → is_over c = true →
        (∀ p, c.given = some p → peek w.pipes p = none)
        ∧ ∀ io, c.io = some io → io ∉ w.moved →
          io ∈ w.closed ∨ io ∈ w.delivered.map Prod.snd)
    ∧ (∀ k io, (k, io) ∈ w.delivered ↔ ∃ c, w.calls[k]? = some c ∧ gave c = some io)
    ∧ (w.delivered.map Prod.fst).Nodup
    ∧ ∀ k : ℕ, w.reported.count k = if (w.calls[k]?).any fails then 1 else 0 := by
  have hs := run_callbacks h
  refine ⟨hs.once, fun k c hc ho => ⟨(hs.fate k c hc).emptied ho, fun io hio hmoved => ?_⟩, hs.gave,
    hs.nodup, hs.reported⟩
  rcases (hs.fate k c hc).gone ho hio with hg | hg | hg
  · exact absurd hg hmoved
  · exact .inr hg
  · exact .inl hg

/-- Three carriers arrive. The first transform hands its handle back from a coroutine; the
second one keeps its own in a traceback, and the listener drops it at the await. The third
returns the handle of the first, which is used up by then. -/
def three_carriers : List Label :=
  [.arrive, .arrive, .arrive, .start 0, .awaits 0, .start 1, .awaits 1, .resolve 0 (.pipe 0),
    .poll 0, .take 0, .drop_call 1, .finish 0, .start 2, .returns 2 (.pipe 0), .take 2, .finish 2]

/-- The hypothesis can be met: one carrier is handed back. The other two are closed, one with
its dropped future and one because its transform handed back the wrong handle. -/
theorem carriers_go_one_way_three :
    ∃ w, run step init three_carriers = some w ∧ w.delivered = [(0, 0)] ∧ w.closed = [1, 2]
      ∧ peek w.pipes 1 = none ∧ w.reported.count 2 = 1 := by
  have h := @carriers_go_one_way _ three_carriers rfl
  exact ⟨_, rfl, rfl, rfl, (h.2.1 1 _ rfl rfl).1 1 rfl, h.2.2.2.2 2⟩

end ZmuxPy.CarrierCallbacks
