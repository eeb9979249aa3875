/-
The handles of carriers: `PipeIo` and `PipeReservation` of `src/lib.rs`, and the
calls that use them up.

A `PipeIo` is a cell with one native carrier. The calls that need the carrier
take it out; a cell is empty from then on ("pipe already used"). What a call does
before and after the `take` is its own order: most convert their arguments first,
`start` (the three ways to establish a session) takes first, `attach` takes the
carrier before the reservation, and the calls that return a future make it last,
which fails without a running event loop. A carrier that was taken and not given
to anyone is dropped when the call raises, and with that closed.

`handed` is history: which native carrier was given to which consumer. The crate
is a parameter: its carrier kinds, its answer to `add_pipe` and `attach`, and what
`ZmuxPy.PipeOptions` leaves open.
-/
import ZmuxPy.Machine
import ZmuxPy.PipeOptions
import ZmuxPy.Slots

set_option autoImplicit false

namespace ZmuxPy.CarrierHandles

open List Machine Pyo3 PipeOptions Slots

/-! ## The handles -/

/-- `zmux::PipeIo`: a native carrier. `id` tells carriers apart; the other fields
are what `with_carrier`, `with_unsent` and `with_write_overhead` set. -/
structure Carrier (K : Type) where
  id : ℕ
  kind : Option K
  unsent : Option ℕ
  write_overhead : UInt16
  deriving DecidableEq, Repr

/-- What takes a carrier over. -/
inductive Consumer where
  | connect
  | accept
  | peer
  | add_pipe
  | attach
  | handle_pipe
  | into_stream
  | wrap
  deriving DecidableEq, Repr

/-- The handles that Python has, and to whom carriers were given. -/
structure Handles (K : Type) where
  /-- The `PipeIo` objects. -/
  pipes : List (Option (Carrier K))
  /-- The `PipeReservation` objects. -/
  reservations : List (Option ℕ)
  handed : List (ℕ × Consumer)
  /-- The identities from here on are not in use yet. -/
  fresh : ℕ
  deriving DecidableEq, Repr

/-- Python has no carrier. -/
def init {K : Type} : Handles K := ⟨[], [], [], 0⟩

variable {K : Type}

/-- `PipeIo::wrap(io)`: a new handle. -/
def Handles.wrap (h : Handles K) (io : Carrier K) : Handles K :=
  { h with pipes := h.pipes ++ [some io] }

/-- The carrier `io` is given away. -/
def Handles.hand (h : Handles K) (io : Carrier K) (consumer : Consumer) : Handles K :=
  { h with handed := h.handed ++ [(io.id, consumer)] }

/-- What a call leaves behind, and how it ended. -/
abbrev Ran (K : Type) := Handles K × PyResult Unit

/-- `?` on the result of something that does not touch the handles. -/
def after {α : Type} (r : PyResult α) (h : Handles K) (f : α → Ran K) : Ran K :=
  match r with
  | .ok a => f a
  | .error e => (h, .error e)

/-- `pipe.take()?`. -/
def take (h : Handles K) (pipe : ℕ) (f : Carrier K → Handles K → Ran K) : Ran K :=
  match peek h.pipes pipe with
  | some io => f io { h with pipes := clear h.pipes pipe }
  | none => (h, .error (.runtime_error "pipe already used"))

/-- `reservation.take()?`. -/
def take_reservation (h : Handles K) (reservation : ℕ) (f : Handles K → Ran K) : Ran K :=
  match peek h.reservations reservation with
  | some _ => f { h with reservations := clear h.reservations reservation }
  | none => (h, .error (.runtime_error "reservation already used"))

/-- `future_into_py`: it fails first of all without a running event loop, and
drops what it was given. -/
def future_into_py (loop : Bool) (h h' : Handles K) : Ran K :=
  if loop then (h', .ok ()) else (h, .error (.runtime_error "no running event loop"))

/-! ## Arguments -/

/-- What is missing of the crate and of Rust's library. -/
structure Env (F D K I : Type) extends Crate F D where
  /-- `CarrierKind::from_name`. -/
  from_name : String → Option K
  /-- `str::parse::<IpAddr>()`. -/
  parse_ip : String → Option I

variable {F D I : Type} (env : Env F D K I)

/-- The argument of `with_carrier`: its text if it is a `str`, and its attribute
`value`. -/
structure KindArg (F : Type) where
  text : Option String
  value : Option (PyVal F)
  deriving DecidableEq, Repr

/-- `shaping::carrier_kind(k)`. -/
def carrier_kind (k : KindArg F) : PyResult K := do
  let name ←
    match k.value, k.text with
    | some v, none => extract_string v
    | _, some s => .ok s
    | none, none => .error .type_error
  (env.from_name name).elim
    (.error (.value_error ("unknown carrier kind " ++ name.quote))) .ok

/-- The `config` of `connect`, `accept` and `peer`. -/
inductive ConfigArg where
  | none
  /-- A native `Config`. -/
  | native
  /-- Another object: its attribute `_native`, if it has one, and whether that is a
  native `Config`. -/
  | object (attr : Option Bool)
  deriving DecidableEq, Repr

/-- `cfg(c)`, as far as it fails. -/
def cfg : ConfigArg → PyResult Unit
  | .none | .native | .object (some true) => .ok ()
  | .object (some false) => .error .type_error
  | .object none => .error .attribute_error

/-- The `options` of `add_pipe`. -/
inductive OptionsArg (F : Type) where
  | none
  | options (p : PyOptions F)
  /-- Another object, whose attributes are not all there. -/
  | object
  deriving DecidableEq, Repr

/-- `pipe_options(options)`. -/
def options_of : OptionsArg F → PyResult (Native F D)
  | .none => pipe_options env.toCrate none
  | .options p => pipe_options env.toCrate (some p)
  | .object => .error .attribute_error

/-- The `overhead: i64` of `with_write_overhead`, as a `u16`. -/
def write_overhead (v : PyVal F) : PyResult UInt16 := do
  let n ← extract_i64 v
  if 0 ≤ n ∧ n < 2 ^ 16 then .ok (UInt16.ofNat n.toNat)
  else .error (.value_error "write_overhead is between 0 and 65535")

/-- The closure `addr` of `handle_pipe`. -/
def addr (a : Option (String × UInt16)) : PyResult (Option (I × UInt16)) :=
  match a with
  | none => .ok none
  | some (h, p) =>
    (env.parse_ip h).elim (.error (.value_error "invalid IP address syntax"))
      fun ip => .ok (some (ip, p))

/-! ## The calls -/

/-- `connect`, `accept` or `peer`: the `how` of `start`. -/
inductive How where
  | connect
  | accept
  | peer
  deriving DecidableEq, Repr

/-- The three ways to establish a session. -/
def How.consumer : How → Consumer
  | .connect => .connect
  | .accept => .accept
  | .peer => .peer

/-- A call that uses up a carrier, with its arguments as Python gave them and what
the crate answers. -/
inductive Call (F : Type) where
  | with_carrier (pipe : ℕ) (kind : KindArg F)
  | with_unsent (pipe : ℕ) (count : ℕ)
  | with_write_overhead (pipe : ℕ) (overhead : PyVal F)
  | into_stream (pipe : ℕ)
  | wrap (pipe : ℕ)
  | start (how : How) (pipe : ℕ) (config : ConfigArg)
  | add_pipe (pipe : ℕ) (options : OptionsArg F) (answer : PyResult Unit)
  | attach (reservation pipe : ℕ) (answer : PyResult Unit)
  | handle_pipe (pipe : ℕ) (peer source : Option (String × UInt16))
  deriving Repr

/-- `PipeIo.with_carrier(kind)`. -/
def with_carrier (h : Handles K) (pipe : ℕ) (kind : KindArg F) : Ran K :=
  after (carrier_kind env kind) h fun k =>
    take h pipe fun io h => (h.wrap { io with kind := some k }, .ok ())

/-- `PipeIo.with_unsent(count)`. -/
def with_unsent (h : Handles K) (pipe count : ℕ) : Ran K :=
  take h pipe fun io h => (h.wrap { io with unsent := some count }, .ok ())

/-- `PipeIo.with_write_overhead(overhead)`. -/
def with_write_overhead (h : Handles K) (pipe : ℕ) (overhead : PyVal F) : Ran K :=
  after (write_overhead overhead) h fun n =>
    take h pipe fun io h => (h.wrap { io with write_overhead := n }, .ok ())

/-- `PipeIo.into_stream()`. -/
def into_stream (h : Handles K) (pipe : ℕ) : Ran K :=
  take h pipe fun io h => (h.hand io .into_stream, .ok ())

/-- `PipeIo.wrap(layer)`: `get_current_locals` comes before the `take`. -/
def wrap_layer (h : Handles K) (loop : Bool) (pipe : ℕ) : Ran K :=
  after (if loop then .ok () else .error (.runtime_error "no running event loop")) h fun _ =>
    take h pipe fun io h => future_into_py loop h (h.hand io .wrap)

/-- `start(py, pipe, config, how)`: the `take` comes first. -/
def start (h : Handles K) (loop : Bool) (how : How) (pipe : ℕ) (config : ConfigArg) : Ran K :=
  take h pipe fun io h =>
    after (cfg config) h fun _ => future_into_py loop h (h.hand io how.consumer)

/-- `Session.add_pipe(pipe, options)`: the crate has the carrier once it was
called, whatever it answers. -/
def add_pipe (h : Handles K) (pipe : ℕ) (options : OptionsArg F)
    (answer : PyResult Unit) : Ran K :=
  after (options_of env options) h fun _ =>
    take h pipe fun io h => (h.hand io .add_pipe, answer)

/-- `PipeReservation.attach(pipe)`: the carrier first, then the reservation. -/
def attach (h : Handles K) (reservation pipe : ℕ) (answer : PyResult Unit) : Ran K :=
  take h pipe fun io h => take_reservation h reservation fun h => (h.hand io .attach, answer)

/-- `Listener.handle_pipe(pipe, peer, source)`. -/
def handle_pipe (h : Handles K) (loop : Bool) (pipe : ℕ) (peer source : Option (String × UInt16)) :
    Ran K :=
  after (addr env peer) h fun _ =>
    after (addr env source) h fun _ =>
      take h pipe fun io h => future_into_py loop h (h.hand io .handle_pipe)

/-- A call, with or without a running event loop. -/
def exec (h : Handles K) (loop : Bool) : Call F → Ran K
  | .with_carrier pipe kind => with_carrier env h pipe kind
  | .with_unsent pipe count => with_unsent h pipe count
  | .with_write_overhead pipe overhead => with_write_overhead h pipe overhead
  | .into_stream pipe => into_stream h pipe
  | .wrap pipe => wrap_layer h loop pipe
  | .start how pipe config => start h loop how pipe config
  | .add_pipe pipe options answer => add_pipe env h pipe options answer
  | .attach reservation pipe answer => attach h reservation pipe answer
  | .handle_pipe pipe peer source => handle_pipe env h loop pipe peer source

/-! ## A call that raises

`Spared` is asked of a call that raised with the carrier still the binding's: the
handles are then as they were. -/

/-- A call that raises leaves every handle as it was. -/
def Spared (h : Handles K) (r : Ran K) : Prop :=
  ∀ e, r.2 = .error e → r.1.handed = h.handed →
    r.1.pipes = h.pipes ∧ r.1.reservations = h.reservations

theorem spared_ok (h h' : Handles K) : Spared h (h', .ok ()) := fun _ he => by cases he

/-- Once the carrier was given away, nothing is asked any more. -/
theorem spared_hand {h h' : Handles K} (heq : h'.handed = h.handed) (io : Carrier K)
    (consumer : Consumer) (r : PyResult Unit) : Spared h (h'.hand io consumer, r) := by
  intro e _ hsame
  have hlen := congrArg List.length hsame
  simp [Handles.hand, heq] at hlen

/-- What fails before the `take` spares the handles. -/
theorem spared_after {α : Type} {r : PyResult α} {h : Handles K} {f : α → Ran K} :
    Spared h (after r h f) ↔ ∀ a, r = .ok a → Spared h (f a) := by
  cases r with
  | ok a => simp [after]
  | error e => exact ⟨(fun _ a ha => by cases ha), fun _ _ _ _ => ⟨rfl, rfl⟩⟩

/-- A handle that is empty spares itself; what is taken out is at risk from there on. -/
theorem spared_take {h : Handles K} {pipe : ℕ} {f : Carrier K → Handles K → Ran K} :
    Spared h (take h pipe f)
      ↔ ∀ io, peek h.pipes pipe = some io →
          Spared h (f io { h with pipes := clear h.pipes pipe }) := by
  unfold take
  split
  · rename_i io hio
    simp [hio]
  · rename_i hnone
    refine ⟨fun _ io hio => ?_, fun _ _ _ _ => ⟨rfl, rfl⟩⟩
    rw [hnone] at hio
    cases hio

/-- A carrier that was taken and is then dropped is missed. -/
theorem not_spared {h : Handles K} {pipe : ℕ} {io : Carrier K}
    (hio : peek h.pipes pipe = some io) (e : PyErr) :
    ¬ Spared h ({ h with pipes := clear h.pipes pipe }, .error e) := by
  intro hs
  exact clear_ne hio (hs e rfl rfl).1

/-- A `future_into_py` after the `take` needs the loop. -/
theorem spared_future {h h' : Handles K} {loop : Bool} {pipe : ℕ} {io : Carrier K}
    (hio : peek h.pipes pipe = some io) :
    Spared h (future_into_py loop { h with pipes := clear h.pipes pipe } h') ↔ loop = true := by
  cases loop with
  | true => simpa [future_into_py] using spared_ok h h'
  | false => simpa [future_into_py] using not_spared hio _

/-- What spares the carrier: `start` gets a configuration that it can read and a
running event loop, `attach` a reservation that is not used up, and `handle_pipe`
a running event loop or an address that stops it before. -/
def spares (h : Handles K) (loop : Bool) : Call F → Bool
  | .start _ pipe config => (peek h.pipes pipe).isNone || ((cfg config).isOk && loop)
  | .attach reservation pipe _ =>
    (peek h.pipes pipe).isNone || (peek h.reservations reservation).isSome
  | .handle_pipe pipe peer source =>
    (peek h.pipes pipe).isNone || !(addr env peer).isOk || !(addr env source).isOk || loop
  | _ => true

theorem start_spared (h : Handles K) (loop : Bool) (how : How) (pipe : ℕ) (config : ConfigArg) :
    Spared h (start h loop how pipe config)
      ↔ spares env h loop (.start how pipe config) = true := by
  simp only [start, spared_take, spares]
  cases hp : peek h.pipes pipe with
  | none => simp
  | some io =>
      cases hc : cfg config with
      | error e => simpa [after, Except.isOk, Except.toBool] using not_spared hp e
      | ok u => simpa [after, Except.isOk, Except.toBool] using spared_future hp

theorem attach_spared (h : Handles K) (loop : Bool) (reservation pipe : ℕ)
    (answer : PyResult Unit) :
    Spared h (attach h reservation pipe answer)
      ↔ spares env h loop (.attach reservation pipe answer) = true := by
  simp only [attach, spared_take, spares]
  cases hp : peek h.pipes pipe with
  | none => simp
  | some io =>
      cases hr : peek h.reservations reservation with
      | none => simpa [take_reservation, hr] using not_spared hp _
      | some r =>
          refine iff_of_true (fun io' _ => ?_) (by simp)
          simp only [take_reservation, hr]
          refine spared_hand ?_ io' .attach answer
          rfl

theorem handle_pipe_spared (h : Handles K) (loop : Bool) (pipe : ℕ)
    (peer source : Option (String × UInt16)) :
    Spared h (handle_pipe env h loop pipe peer source)
      ↔ spares env h loop (.handle_pipe pipe peer source) = true := by
  simp only [handle_pipe, spared_after, spared_take, spares]
  cases ha : addr env peer with
  | error e => simp [Except.isOk, Except.toBool]
  | ok a =>
      cases hs : addr env source with
      | error e => simp [Except.isOk, Except.toBool]
      | ok b =>
          cases hp : peek h.pipes pipe with
          | none => simp
          | some io => simpa [Except.isOk, Except.toBool] using spared_future hp

/-- **One call spares the handles exactly under that condition.** -/
theorem exec_spared (h : Handles K) (loop : Bool) (c : Call F) :
    Spared h (exec env h loop c) ↔ spares env h loop c = true := by
  cases c with
  | start how pipe config => exact start_spared env h loop how pipe config
  | attach reservation pipe answer => exact attach_spared env h loop reservation pipe answer
  | handle_pipe pipe peer source => exact handle_pipe_spared env h loop pipe peer source
  | with_carrier pipe kind =>
      refine iff_of_true ?_ rfl
      exact spared_after.2 fun k _ => spared_take.2 fun io _ => spared_ok _ _
  | with_unsent pipe count =>
      refine iff_of_true ?_ rfl
      exact spared_take.2 fun io _ => spared_ok _ _
  | with_write_overhead pipe overhead =>
      refine iff_of_true ?_ rfl
      exact spared_after.2 fun n _ => spared_take.2 fun io _ => spared_ok _ _
  | into_stream pipe =>
      refine iff_of_true ?_ rfl
      exact spared_take.2 fun io _ => spared_ok _ _
  | wrap pipe =>
      refine iff_of_true ?_ rfl
      refine spared_after.2 fun _ hloop => spared_take.2 fun io hio => (spared_future hio).2 ?_
      -- without a loop the locals are not there, and nothing is taken
      cases loop with
      | true => rfl
      | false => cases hloop
  | add_pipe pipe options answer =>
      refine iff_of_true ?_ rfl
      refine spared_after.2 fun o _ => spared_take.2 fun io _ => spared_hand ?_ io _ answer
      rfl

/-! ## One consumer for each carrier -/

/-- The carriers in the handles and those given away. -/
def ids (h : Handles K) : List ℕ := h.pipes.reduceOption.map Carrier.id ++ h.handed.map Prod.fst

theorem ids_wrap (h : Handles K) (io : Carrier K) : ids (h.wrap io) ~ io.id :: ids h := by
  have : ids (h.wrap io)
      = h.pipes.reduceOption.map Carrier.id ++ io.id :: h.handed.map Prod.fst := by
    simp [ids, Handles.wrap, reduceOption_append]
  rw [this]
  exact perm_middle

theorem ids_hand (h : Handles K) (io : Carrier K) (consumer : Consumer) :
    ids (h.hand io consumer) ~ io.id :: ids h := by
  have : ids (h.hand io consumer) = ids h ++ [io.id] := by simp [ids, Handles.hand]
  rw [this]
  exact perm_append_singleton _ _

theorem ids_clear {h : Handles K} {pipe : ℕ} {io : Carrier K}
    (hio : peek h.pipes pipe = some io) :
    ids h ~ io.id :: ids { h with pipes := clear h.pipes pipe } :=
  ((reduceOption_perm hio).map Carrier.id).append_right _

/-- A call moves carriers and makes none: what it leaves is part of what was there. -/
def Moves (h : Handles K) (r : Ran K) : Prop := ids r.1 <+~ ids h ∧ r.1.fresh = h.fresh

theorem moves_after {α : Type} {r : PyResult α} {h : Handles K} {f : α → Ran K}
    (hf : ∀ a, Moves h (f a)) : Moves h (after r h f) := by
  cases r with
  | ok a => exact hf a
  | error e => exact ⟨Subperm.refl _, rfl⟩

/-- With the carrier taken, what is left and the carrier itself are what was there. -/
theorem moves_take {h : Handles K} {pipe : ℕ} {f : Carrier K → Handles K → Ran K}
    (hf : ∀ io h', h'.fresh = h.fresh → (ids (f io h').1 <+~ io.id :: ids h')
      ∧ (f io h').1.fresh = h.fresh) : Moves h (take h pipe f) := by
  unfold take
  split
  · rename_i io hio
    obtain ⟨hsub, hfresh⟩ := hf io { h with pipes := clear h.pipes pipe } rfl
    exact ⟨hsub.trans (ids_clear hio).symm.subperm, hfresh⟩
  · exact ⟨Subperm.refl _, rfl⟩

theorem future_moves {h h' : Handles K} {io : Carrier K} (loop : Bool) (consumer : Consumer)
    (hfresh : h'.fresh = h.fresh) :
    (ids (future_into_py loop h' (h'.hand io consumer)).1 <+~ io.id :: ids h')
      ∧ (future_into_py loop h' (h'.hand io consumer)).1.fresh = h.fresh := by
  cases loop with
  | true => exact ⟨(ids_hand h' io consumer).subperm, hfresh⟩
  | false => exact ⟨(sublist_cons_self _ _).subperm, hfresh⟩

/-- No call makes a carrier, or gives one to two. -/
theorem exec_moves (h : Handles K) (loop : Bool) (c : Call F) : Moves h (exec env h loop c) := by
  cases c with
  | with_carrier pipe kind =>
      exact moves_after fun k => moves_take fun io h' hf => ⟨(ids_wrap h' _).subperm, hf⟩
  | with_unsent pipe count => exact moves_take fun io h' hf => ⟨(ids_wrap h' _).subperm, hf⟩
  | with_write_overhead pipe overhead =>
      exact moves_after fun n => moves_take fun io h' hf => ⟨(ids_wrap h' _).subperm, hf⟩
  | into_stream pipe => exact moves_take fun io h' hf => ⟨(ids_hand h' io _).subperm, hf⟩
  | wrap pipe => exact moves_after fun _ => moves_take fun io h' hf => future_moves loop _ hf
  | start how pipe config =>
      refine moves_take fun io h' hf => ?_
      cases hc : cfg config with
      | ok u => simpa [after] using future_moves loop _ hf
      | error e => exact ⟨(sublist_cons_self _ _).subperm, hf⟩
  | add_pipe pipe options answer =>
      exact moves_after fun o => moves_take fun io h' hf => ⟨(ids_hand h' io _).subperm, hf⟩
  | attach reservation pipe answer =>
      refine moves_take fun io h' hf => ?_
      unfold take_reservation
      split
      · exact ⟨(ids_hand { h' with reservations := _ } io _).subperm, hf⟩
      · exact ⟨(sublist_cons_self _ _).subperm, hf⟩
  | handle_pipe pipe peer source =>
      exact moves_after fun _ => moves_after fun _ => moves_take fun io h' hf =>
        future_moves loop _ hf

/-! ## Runs -/

/-- A carrier or a reservation is made, or Python calls. -/
inductive Label (F K : Type) where
  /-- A new `PipeIo`: dialled, accepted, or the result of `wrap`. -/
  | made (kind : Option K)
  /-- `Session.reserve_pipe()`. -/
  | reserved
  /-- `PipeReservation.cancel()`. -/
  | cancel (reservation : ℕ)
  | call (loop : Bool) (c : Call F)

/-- One step. -/
def step (h : Handles K) : Label F K → Option (Handles K)
  | .made kind => some { h with
      pipes := h.pipes ++ [some ⟨h.fresh, kind, none, 0⟩], fresh := h.fresh + 1 }
  | .reserved => some { h with
      reservations := h.reservations ++ [some h.fresh], fresh := h.fresh + 1 }
  | .cancel reservation => some (take_reservation h reservation fun h => (h, .ok ())).1
  | .call loop c => some (exec env h loop c).1

/-- Each carrier is in one place. -/
structure Inv (h : Handles K) : Prop where
  nodup : (ids h).Nodup
  lt : ∀ i ∈ ids h, i < h.fresh

theorem Inv.moves {h : Handles K} {r : Ran K} (hi : Inv h) (hm : Moves h r) : Inv r.1 := by
  refine ⟨nodup_of_subperm hm.1 hi.nodup, fun i hmem => ?_⟩
  rw [hm.2]
  exact hi.lt i (hm.1.subset hmem)

/-- One step gives no carrier twice. -/
theorem step_inv {h h' : Handles K} {l : Label F K} (hi : Inv h)
    (hs : step env h l = some h') : Inv h' := by
  cases l with
  | made kind =>
      simp only [step, Option.some.injEq] at hs
      subst hs
      have hp := ids_wrap { h with fresh := h.fresh + 1 } ⟨h.fresh, kind, none, 0⟩
      refine ⟨hp.nodup_iff.2 ?_, fun i hmem => ?_⟩
      · refine nodup_cons.2 ⟨fun hmem => ?_, hi.nodup⟩
        exact absurd (hi.lt _ hmem) (Nat.lt_irrefl _)
      · rcases mem_cons.1 (hp.subset hmem) with rfl | hmem
        · exact Nat.lt_succ_self _
        · exact Nat.lt_succ_of_lt (hi.lt i hmem)
  | reserved =>
      simp only [step, Option.some.injEq] at hs
      subst hs
      exact ⟨hi.nodup, fun i hmem => Nat.lt_succ_of_lt (hi.lt i hmem)⟩
  | cancel reservation =>
      simp only [step, Option.some.injEq, take_reservation] at hs
      subst hs
      split
      · exact ⟨hi.nodup, hi.lt⟩
      · exact hi
  | call loop c =>
      simp only [step, Option.some.injEq] at hs
      subst hs
      exact hi.moves (exec_moves env h loop c)

/-- **What a failing call leaves behind, and who gets a carrier.** A call that
raises before the carrier was given away leaves the handles as they were exactly
if `spares` says so: `start` reads the configuration and makes its future after
the `take`, `attach` takes the reservation after it, `handle_pipe` makes its future
after it. And over any run each native carrier is given to one consumer at most. -/
theorem failing_call_spares_handles_iff (env : Env F D K I) :
    (∀ (h : Handles K) (loop : Bool) (c : Call F),
      (∀ e, (exec env h loop c).2 = .error e → (exec env h loop c).1.handed = h.handed →
        (exec env h loop c).1.pipes = h.pipes
        ∧ (exec env h loop c).1.reservations = h.reservations)
      ↔ spares env h loop c = true)
    ∧ ∀ (ls : List (Label F K)) (h : Handles K), run (step env) init ls = some h →
        (h.handed.map Prod.fst).Nodup := by
  refine ⟨fun h loop c => exec_spared env h loop c, fun ls h hrun => ?_⟩
  have hinit : Inv (init : Handles K) := ⟨by simp [ids, init], by simp [ids, init]⟩
  have hi := run_inv (step env) (fun _ _ _ => step_inv env) hinit hrun
  exact (nodup_append.1 hi.nodup).2.1

/-- A carrier labelled and handed to a listener, a second one for which the
configuration cannot be read, and a third one attached. -/
def three_carriers : List (Label ℤ Unit) :=
  [.made none, .call true (.with_carrier 0 ⟨some "quic", none⟩),
    .call true (.handle_pipe 1 none none), .made none,
    .call true (.start .connect 2 (.object none)), .made none, .reserved,
    .call false (.attach 0 3 (.ok ()))]

/-- The crate with one carrier kind and no addresses. -/
def one_kind : Env ℤ ℕ Unit Unit :=
  { millis with
    from_name := fun s => if s = "quic" then some () else none
    parse_ip := fun _ => none }

/-- The hypothesis can be met: two of three carriers are given away, and one is lost on the way. -/
theorem failing_call_spares_handles_iff_three :
    ∃ h, run (step one_kind) init three_carriers = some h
      ∧ h.handed = [(0, .handle_pipe), (2, .attach)] ∧ (h.handed.map Prod.fst).Nodup :=
  ⟨_, rfl, by decide, (failing_call_spares_handles_iff one_kind).2 three_carriers _ rfl⟩

/-- `Session.connect(pipe, config=object())` raises, and the carrier is gone. -/
theorem connect_drops_carrier :
    ∃ h : Handles Unit, run (step one_kind) init [.made none] = some h
      ∧ (exec one_kind h true (.start .connect 0 (.object none))).2 = .error .attribute_error
      ∧ (exec one_kind h true (.start .connect 0 (.object none))).1.handed = h.handed
      ∧ peek h.pipes 0 ≠ none
      ∧ peek (exec one_kind h true (.start .connect 0 (.object none))).1.pipes 0 = none :=
  ⟨_, rfl, rfl, rfl, by decide, rfl⟩

end ZmuxPy.CarrierHandles
