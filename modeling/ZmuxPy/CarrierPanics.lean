/-
`with_info` (`src/admission.rs`) when its call panics.

The model of `ZmuxPy/CarrierInfo.lean` has calls `f(view)` that return. Here the call
may panic instead, at any point. On the helper thread the unwinding drops the thread's
sender and does not come to the send of `Done`; the answering loop then ends when the
last sender is gone, and that is the view's, which Python may hold for as long as it
likes. `call.join()` reports the panic. Without an exporter the call is on the
carrier's own thread, and the panic leaves `with_info` by unwinding: the carrier
stays in the call for good.

The state is the other model's beside what the call came to and the result that
`with_info` is going to return. A helper that panicked is still `running` there, as
one that does nothing any more.
-/
import ZmuxPy.CarrierInfo

set_option autoImplicit false

namespace ZmuxPy.CarrierPanics

open Machine Mpsc
open CarrierInfo (Info World Ask Call)

variable {R : Type}

/-! ## The model -/

/-- What the call `f(view)` came to. -/
inductive Outcome (R : Type) where
  | returned (r : R)
  | panicked

/-- The two errors `with_info` returns by itself. -/
inductive IoError where
  /-- Of `spawn_scoped`. -/
  | spawn
  /-- `std::io::Error::other`. -/
  | other (msg : String)
  deriving DecidableEq, Repr

/-- The other model's state, what the call came to, and the result. -/
structure State (R : Type) where
  world : World
  outcome : Option (Outcome R)
  /-- What `with_info` is going to return. -/
  result : Option (Except IoError R)

/-- Before the call. -/
def init : State R := ⟨CarrierInfo.init, none, none⟩

/-- The call has panicked. -/
def State.panicked (s : State R) : Bool :=
  match s.outcome with
  | some .panicked => true
  | _ => false

/-- What may happen next: the call returns or panics, or a step of the other model is made. -/
inductive Event (R : Type) where
  | f_returns (r : R)
  | panics
  /-- A step of the other model, but for the call's return. -/
  | other (l : CarrierInfo.Label)

/-- The helper's sender goes, and `Done` is not sent. -/
def unwind (w : World) : World :=
  if w.carrier = .direct then w else { w with chan := w.chan.drop_sender }

/-- `call.join().map_err(..)`. -/
def join (info : Info) (s : State R) : Option (State R) :=
  match s.outcome with
  | some .panicked =>
    if s.world.carrier = .joining then
      some { s with
        world := { s.world with carrier := .dropping, chan := s.world.chan.drop_receiver }
        result := some (.error (.other "the call panicked")) }
    else none
  | some (.returned r) =>
    (CarrierInfo.step info s.world .join).map fun w => { s with world := w, result := some (.ok r) }
  | none => none

/-- One step. The steps of the other model are as they are there, but for the call's return and
for those that decide the result. -/
def step (info : Info) (s : State R) : Event R → Option (State R)
  | .f_returns r =>
    if s.outcome.isNone then
      (CarrierInfo.step info s.world .f_return).map fun w =>
        { world := w, outcome := some (.returned r)
          -- without an exporter: `return Ok(f(view))`
          result := if s.world.carrier = .direct then some (.ok r) else s.result }
    else none
  | .panics =>
    if s.outcome.isNone ∧ s.world.helper = .running then
      some { s with world := unwind s.world, outcome := some .panicked }
    else none
  | .other .f_return => none
  | .other .spawn_failed =>
    (CarrierInfo.step info s.world .spawn_failed).map fun w =>
      { s with world := w, result := some (.error .spawn) }
  | .other .join => join info s
  | .other l => (CarrierInfo.step info s.world l).map fun w => { s with world := w }

/-- A step of the answering loop. -/
def Event.in_loop : Event R → Bool
  | .other l => l.in_loop
  | _ => false

/-- A step on the carrier's own thread. -/
def Event.on_carrier : Event R → Bool
  | .other l => l.on_carrier
  | _ => false

/-! ## The senders -/

/-- The helper thread has a sender until its end, of either kind. -/
def helper_sender (panicked : Bool) (w : World) : Bool :=
  (w.helper = .running && !panicked) || w.helper = .returned

/-- What the two threads and the view have of the request channel. -/
structure Threads (info : Info) (panicked : Bool) (w : World) : Prop where
  starting : w.carrier = .starting → w = CarrierInfo.init
  running : panicked = true → w.helper = .running
  senders : info.has_exporter = true → w.helper ≠ .unstarted →
    w.chan.senders = w.view.toNat + (helper_sender panicked w).toNat
  no_done : w.helper ≠ .ended → Ask.done ∉ w.chan.queue
  /-- The loop is left after `Done`, without a helper, or after the last sender. -/
  left : info.has_exporter = true →
    w.carrier = .joining ∨ w.carrier = .dropping ∨ w.carrier = .returned →
    w.helper = .ended ∨ w.helper = .unstarted ∨ panicked = true ∧ w.view = false
  idle : w.view = false → ∀ c ∈ w.calls, c.finished = true
  direct : info.has_exporter = false → w.helper = .running → w.carrier = .direct

/-- At first nobody has a sender but `with_info`. -/
theorem threads_init (info : Info) : Threads info false CarrierInfo.init :=
  ⟨fun _ => rfl, nofun, fun _ h => absurd rfl h, fun _ => List.not_mem_nil,
    by simp [CarrierInfo.init], fun _ => by simp [CarrierInfo.init], nofun⟩

/-- While the call runs, the loop is not left, and `with_info` has not returned. -/
theorem Threads.not_left {info : Info} {w : World} (h : Threads info false w)
    (hh : w.helper = .running ∨ w.helper = .returned) (he : info.has_exporter = true) :
    ¬ (w.carrier = .joining ∨ w.carrier = .dropping ∨ w.carrier = .returned) := by
  intro hc
  rcases h.left he hc with hend | hun | ⟨hp, -⟩
  · rw [hend] at hh
    rcases hh with hh | hh <;> cases hh
  · rw [hun] at hh
    rcases hh with hh | hh <;> cases hh
  · cases hp

/-- A step that changes neither thread nor view, and adds at most requests. -/
theorem Threads.frame {info : Info} {panicked : Bool} {w w' : World} (h : Threads info panicked w)
    (hstart : w'.carrier ≠ .starting) (hh : w'.helper = w.helper) (hv : w'.view = w.view)
    (hs : w'.chan.senders = w.chan.senders)
    (hq : Ask.done ∈ w'.chan.queue → Ask.done ∈ w.chan.queue)
    (hl : info.has_exporter = true →
      w'.carrier = .joining ∨ w'.carrier = .dropping ∨ w'.carrier = .returned →
      w.helper = .ended ∨ w.helper = .unstarted ∨ panicked = true ∧ w.view = false)
    (hi : w.view = false → ∀ c ∈ w'.calls, c.finished = true)
    (hd : w.carrier = .direct → w'.carrier = .direct) : Threads info panicked w' := by
  refine ⟨fun hc => absurd hc hstart, ?_, ?_, ?_, ?_, ?_, ?_⟩
  · rw [hh]
    exact h.running
  · rw [hh, hs, hv, helper_sender, hh]
    exact h.senders
  · rw [hh]
    exact fun hne hm => h.no_done hne (hq hm)
  · rw [hh, hv]
    exact hl
  · rw [hv]
    exact hi
  · rw [hh]
    exact fun he hr => hd (h.direct he hr)

/-- The answering loop is left by the last sender's end, or by `Done`. -/
theorem take_senders {w w' : World} (h : CarrierInfo.take w = some w')
    (hq : w.chan.queue = []) : w.chan.senders = 0 := by
  by_contra hs
  have hb : w.chan.recv = .blocked := Chan.recv_eq_blocked.2 ⟨hq, hs⟩
  simp [CarrierInfo.take, hb] at h

/-- The loop receives a request, or is left: by `Done`, or because the last sender is gone. -/
theorem Threads.take {info : Info} {panicked : Bool} {w w' : World} (h : Threads info panicked w)
    (hc : w.carrier = .receiving) (ht : CarrierInfo.take w = some w') :
    Threads info panicked w' := by
  obtain ⟨r, i, rest, hq, rfl⟩ | ⟨rest, hq, rfl⟩ := CarrierInfo.take_eq_some ht
  · refine h.frame (by simp) rfl rfl rfl ?_ (by simp) h.idle (by simp [hc])
    rw [hq]
    exact List.mem_cons_of_mem _
  · refine h.frame (by simp) rfl rfl rfl ?_ (fun he _ => ?_) h.idle (by simp [hc])
    · rcases hq with hq | ⟨hq, rfl⟩
      · rw [hq]
        exact fun _ => List.mem_cons_self
      · exact fun hm => absurd hm List.not_mem_nil
    · by_cases hend : w.helper = .ended
      · exact .inl hend
      by_cases hun : w.helper = .unstarted
      · exact .inr (.inl hun)
      -- no `Done`, so no sender is left: not the view's, not the helper's
      rcases hq with hq | ⟨hq, -⟩
      · exact absurd (hq ▸ List.mem_cons_self) (h.no_done hend)
      · have hsum := h.senders he hun
        rw [take_senders ht hq] at hsum
        have hview : w.view = false := by
          cases hv : w.view with
          | false => rfl
          | true =>
              rw [hv, Bool.toNat_true] at hsum
              omega
        have hsend : helper_sender panicked w = false := by
          cases hv : helper_sender panicked w with
          | false => rfl
          | true => simp [hv] at hsum
        refine .inr (.inr ⟨?_, hview⟩)
        cases hh : w.helper with
        | unstarted => exact absurd hh hun
        | ended => exact absurd hh hend
        | returned => simp [helper_sender, hh] at hsend
        | running => simpa [helper_sender, hh] using hsend

/-- One step of the other model keeps the account of the senders, with a panicked helper as one
that has none. -/
theorem step_threads {info : Info} {panicked : Bool} {w w' : World} {l : CarrierInfo.Label}
    (hinv : CarrierInfo.Inv info w) (h : Threads info panicked w)
    (hl : panicked = true → l ≠ .f_return) (hs : CarrierInfo.step info w l = some w') :
    Threads info panicked w' := by
  have hd := CarrierInfo.step_does hs
  -- a call that changes without ending or starting again leaves a dropped view without open
  -- calls
  have hfin : ∀ {i c c'}, w.calls[i]? = some c → c'.finished = c.finished →
      w.view = false → ∀ b ∈ w.calls.set i c', b.finished = true := by
    intro i c c' hget heq hv b hb
    refine Parties.forall_mem_set (h.idle hv) ?_ b hb
    rw [heq]
    exact h.idle hv c (List.mem_of_getElem? hget)
  cases l with
  | direct =>
      obtain ⟨hc, he, rfl⟩ := hd
      -- without an exporter `f` runs on the carrier's own thread, and the channel is not used
      have hun := hinv.phases.starting hc
      exact ⟨nofun, fun _ => rfl, by simp [he], fun _ => h.no_done (by simp [hun]), by simp,
        nofun, fun _ _ => rfl⟩
  | spawn =>
      obtain ⟨hc, he, rfl⟩ := hd
      have hun := hinv.phases.starting hc
      have hp : panicked = false := by
        cases panicked with
        | false => rfl
        | true => exact absurd (hun.symm.trans (h.running rfl)) (by decide)
      subst hp
      refine ⟨nofun, nofun, fun _ _ => ?_, fun _ => h.no_done (by simp [hun]), by simp, nofun,
        by simp [he]⟩
      -- two senders from here on: the view's and the helper's
      rw [h.starting hc]
      rfl
  | spawn_failed =>
      obtain ⟨hc, he, rfl⟩ := hd
      have hun := hinv.phases.starting hc
      refine ⟨nofun, h.running, fun _ hne => absurd hun hne, fun _ => h.no_done (by simp [hun]),
        fun _ _ => .inr (.inl hun), h.idle, by simp [he]⟩
  | f_return =>
      have hp : panicked = false := by
        cases panicked with
        | false => rfl
        | true => exact absurd rfl (hl rfl)
      subst hp
      obtain ⟨hh, ⟨hc, rfl⟩ | ⟨hc, rfl⟩⟩ := hd
      · have he := (hinv.phases.direct hc).1
        exact ⟨nofun, nofun, by simp [he], nofun, by simp [he], h.idle, nofun⟩
      · refine ⟨fun hst => ?_, nofun, fun he _ => ?_, fun _ => h.no_done (by simp [hh]), ?_, h.idle,
          nofun⟩
        · exact absurd ((hinv.phases.starting hst).symm.trans hh) (by decide)
        · rw [h.senders he (by simp [hh])]
          simp [helper_sender, hh]
        · exact fun he hleft => absurd hleft (h.not_left (.inl hh) he)
  | send_done =>
      obtain ⟨hh, rfl⟩ := hd
      -- the helper's sender goes with its last message, whether anyone is there to get it
      have hsend : (w.chan.send_last Ask.done).senders = w.chan.senders - 1 := by
        cases hr : w.chan.receiver with
        | true => rw [Chan.send_last_of_receiver hr]
        | false =>
            rw [Chan.send_last_of_no_receiver hr]
            rfl
      refine ⟨fun hst => ?_, fun hp => ?_, fun he _ => ?_, fun hne => absurd rfl hne,
        fun _ _ => .inl rfl, h.idle, nofun⟩
      · exact absurd ((hinv.phases.starting hst).symm.trans hh) (by decide)
      · exact absurd ((h.running hp).symm.trans hh) (by decide)
      · have hsum := h.senders he (by simp [hh])
        have hone : helper_sender panicked w = true := by simp [helper_sender, hh]
        rw [hone, Bool.toNat_true] at hsum
        simp only [hsend, hsum, helper_sender]
        simp
  | take => exact h.take hd.1 hd.2
  | answer =>
      obtain ⟨r, i, c, hc, hget, rfl⟩ := hd
      exact h.frame (by simp) rfl rfl rfl id (by simp) (hfin hget rfl) (by simp [hc])
  | join =>
      obtain ⟨hc, hh, rfl⟩ := hd
      exact h.frame (by simp) rfl rfl rfl id (fun _ _ => .inl hh) h.idle (by simp [hc])
  | discard =>
      obtain ⟨hc, ht⟩ := hd
      obtain ⟨r, i, rest, c, hq, hget, rfl⟩ | ⟨rest, hq, rfl⟩ := CarrierInfo.discard_eq_some ht
      · refine h.frame (by simp [hc]) rfl rfl rfl ?_ (fun he => h.left he) (hfin hget rfl) id
        rw [hq]
        exact List.mem_cons_of_mem _
      · refine h.frame (by simp [hc]) rfl rfl rfl ?_ (fun he => h.left he) h.idle id
        rw [hq]
        exact List.mem_cons_of_mem _
  | ret =>
      obtain ⟨hc, -, rfl⟩ := hd
      exact h.frame (by simp) rfl rfl rfl id (fun he _ => h.left he (.inr (.inl hc))) h.idle
        (by simp [hc])
  | call r =>
      obtain ⟨hv, rfl⟩ := hd
      refine h.frame (fun hst => ?_) rfl rfl rfl id (fun he => h.left he) ?_ id
      · rw [h.starting hst] at hv
        cases hv
      · rw [hv]
        exact nofun
  | send i =>
      obtain ⟨c, hget, ha, rfl⟩ := hd
      -- a call that still asks borrows the view, so the view is there
      have hbusy : w.view = false → c.finished = true :=
        fun hv => h.idle hv c (List.mem_of_getElem? hget)
      have hview : w.view ≠ false := fun hv => by simpa [Call.finished, ha] using hbusy hv
      have hst : w.carrier ≠ .starting := fun hst => by
        rw [h.starting hst] at hget
        cases hget
      obtain ⟨-, he⟩ | ⟨-, he⟩ := CarrierInfo.send_cases w i c
      · rw [he]
        refine h.frame hst rfl rfl rfl ?_ (fun he => h.left he) (fun hv => absurd hv hview) id
        simp
      · rw [he]
        exact h.frame hst rfl rfl rfl id (fun he => h.left he) (fun hv => absurd hv hview) id
  | recv i =>
      obtain ⟨c, c', hget, hc, rfl⟩ := hd
      have hst : w.carrier ≠ .starting := fun hst => by
        rw [h.starting hst] at hget
        cases hget
      refine h.frame hst rfl rfl rfl id (fun he => h.left he) (fun hv => ?_) id
      have hf := h.idle hv c (List.mem_of_getElem? hget)
      cases hp : c.progress with
      | asking => simp [Call.finished, hp] at hf
      | receiving => simp [Call.finished, hp] at hf
      | returned v => simp [Call.recv, hp] at hc
  | drop_view =>
      simp only [CarrierInfo.step, Option.ite_none_right_eq_some, Option.some.injEq,
        List.all_eq_true] at hs
      obtain ⟨⟨hv, hall⟩, rfl⟩ := hs
      refine ⟨fun hst => ?_, h.running, fun he hun => ?_, h.no_done, ?_, fun _ => hall, h.direct⟩
      · rw [h.starting hst] at hv
        cases hv
      · have hsum := h.senders he hun
        rw [hv, Bool.toNat_true] at hsum
        simp only [Chan.drop_sender, hsum, helper_sender]
        simp
      · intro he hc
        rcases h.left he hc with hend | hun | ⟨hp, -⟩
        · exact .inl hend
        · exact .inr (.inl hun)
        · exact .inr (.inr ⟨hp, rfl⟩)

/-! ## The whole state -/

/-- What `with_info` has to return, by what the call came to. -/
def State.expected (s : State R) : Except IoError R :=
  match s.outcome with
  | some (.returned r) => .ok r
  | some .panicked => .error (.other "the call panicked")
  | none => .error .spawn

/-- What every run keeps: the other model's invariant, the account of the senders, and that the
result is the one expected. -/
structure Inv (info : Info) (s : State R) : Prop where
  world : CarrierInfo.Inv info s.world
  threads : Threads info s.panicked s.world
  calling : s.outcome = none → s.world.helper = .unstarted ∨ s.world.helper = .running
  called : ∀ r, s.outcome = some (.returned r) →
    s.world.helper = .returned ∨ s.world.helper = .ended
  result : s.world.carrier = .dropping ∨ s.world.carrier = .returned →
    s.result = some s.expected

/-- At first nothing has happened. -/
theorem init_inv (info : Info) : Inv info (init : State R) := by
  refine ⟨CarrierInfo.run_inv_init (rfl : run _ _ [] = _), threads_init info, fun _ => .inl rfl,
    nofun, ?_⟩
  rintro (h | h) <;> cases h

/-- Unwinding keeps the other model's invariant: a helper that does nothing more is one of its
states. -/
theorem unwind_inv {info : Info} {w : World} (h : CarrierInfo.Inv info w) :
    CarrierInfo.Inv info (unwind w) := by
  unfold unwind
  split
  · exact h
  · exact h.frame (h.phases.of_send rfl rfl rfl (.inl rfl)) rfl (fun _ _ => Iff.rfl) id

/-- It drops the helper's sender. -/
theorem unwind_threads {info : Info} {w : World} (hinv : CarrierInfo.Inv info w)
    (h : Threads info false w) (hh : w.helper = .running) : Threads info true (unwind w) := by
  have hst : w.carrier ≠ .starting := fun hst =>
    absurd ((hinv.phases.starting hst).symm.trans hh) (by decide)
  unfold unwind
  split
  · rename_i hc
    have he := (hinv.phases.direct hc).1
    exact ⟨fun hs => absurd hs hst, fun _ => hh, by simp [he], h.no_done, by simp [he], h.idle,
      h.direct⟩
  · refine ⟨fun hs => absurd hs hst, fun _ => hh, fun he hun => ?_, h.no_done, ?_, h.idle,
      h.direct⟩
    · have hsum := h.senders he hun
      have hone : helper_sender false w = true := by simp [helper_sender, hh]
      rw [hone, Bool.toNat_true] at hsum
      simp only [Chan.drop_sender, hsum, helper_sender, hh]
      simp
    · exact fun he hc => absurd hc (h.not_left (.inl hh) he)

/-- The join of a helper that panicked. -/
theorem join_panicked_inv {info : Info} {w : World} (h : CarrierInfo.Inv info w)
    (hh : w.helper = .running) (hc : w.carrier = .joining) :
    CarrierInfo.Inv info { w with carrier := .dropping, chan := w.chan.drop_receiver } := by
  refine h.frame ⟨nofun, nofun, by simp [CarrierInfo.Carrier.in_loop], fun _ _ => rfl, by simp, ?_⟩
    rfl (fun r i => by simp [World.Pending, hc, Chan.drop_receiver]) (by simp [hc])
  simp [hh]

/-! ### What a step can do -/

/-- The result that a step of the other model leaves. -/
def result_after (s : State R) : CarrierInfo.Label → Option (Except IoError R)
  | .spawn_failed => some (.error .spawn)
  | .join => some s.expected
  | _ => s.result

/-- The steps as a relation, event by event. -/
def Does (info : Info) (s s' : State R) : Event R → Prop
  | .f_returns r => s.outcome = none ∧ CarrierInfo.step info s.world .f_return = some s'.world
      ∧ s'.outcome = some (.returned r)
      ∧ s'.result = if s.world.carrier = .direct then some (.ok r) else s.result
  | .panics => s.outcome = none ∧ s.world.helper = .running
      ∧ s' = { s with world := unwind s.world, outcome := some .panicked }
  | .other l =>
      (s.panicked = true ∧ l = .join ∧ s.world.carrier = .joining ∧ s' = { s with
        world := { s.world with carrier := .dropping, chan := s.world.chan.drop_receiver }
        result := some s.expected })
      ∨ (s.panicked = true → l ≠ .join) ∧ l ≠ .f_return
        ∧ CarrierInfo.step info s.world l = some s'.world
        ∧ s'.outcome = s.outcome ∧ s'.result = result_after s l

/-- What each step does, in terms of the other model. -/
theorem step_does {info : Info} {s s' : State R} {e : Event R} (h : step info s e = some s') :
    Does info s s' e := by
  cases e with
  | f_returns r =>
      simp only [step, Option.ite_none_right_eq_some, Option.isNone_iff_eq_none] at h
      obtain ⟨ho, h⟩ := h
      obtain ⟨w, hw, rfl⟩ := Option.map_eq_some_iff.1 h
      exact ⟨ho, hw, rfl, rfl⟩
  | panics =>
      simp only [step, Option.ite_none_right_eq_some, Option.isNone_iff_eq_none,
        Option.some.injEq] at h
      exact ⟨h.1.1, h.1.2, h.2.symm⟩
  | other l =>
      cases l with
      | f_return => cases h
      | join =>
          simp only [step, join] at h
          split at h
          · rename_i ho
            have hp : s.panicked = true := by simp [State.panicked, ho]
            have he : s.expected = .error (.other "the call panicked") := by
              simp [State.expected, ho]
            simp only [Option.ite_none_right_eq_some, Option.some.injEq] at h
            refine .inl ⟨hp, rfl, h.1, ?_⟩
            rw [he]
            exact h.2.symm
          · rename_i r ho
            obtain ⟨w, hw, rfl⟩ := Option.map_eq_some_iff.1 h
            refine .inr ⟨fun hp => ?_, by simp, hw, rfl, ?_⟩
            · simp [State.panicked, ho] at hp
            · simp [result_after, State.expected, ho]
          · cases h
      | spawn_failed | direct | spawn | send_done | take | answer | discard | ret | call r | send i
      | recv i | drop_view =>
          obtain ⟨w, hw, rfl⟩ := Option.map_eq_some_iff.1 h
          exact .inr ⟨by simp, by simp, hw, rfl, rfl⟩

/-- Whether the call has panicked is known from its outcome, -/
theorem panicked_congr {s s' : State R} (h : s'.outcome = s.outcome) :
    s'.panicked = s.panicked := by
  simp only [State.panicked, h]

/-- and so is the result to expect. -/
theorem expected_congr {s s' : State R} (h : s'.outcome = s.outcome) :
    s'.expected = s.expected := by
  simp only [State.expected, h]

/-- A call that is still running has not panicked. -/
theorem panicked_of_calling {s : State R} (h : s.outcome = none) : s.panicked = false := by
  simp [State.panicked, h]

/-- A panic is the outcome. -/
theorem outcome_of_panicked {s : State R} (h : s.panicked = true) :
    s.outcome = some .panicked := by
  unfold State.panicked at h
  split at h
  · assumption
  · cases h

/-- The helper starts, or ends, or stays as it is. -/
theorem helper_cases {info : Info} {w w' : World} {l : CarrierInfo.Label}
    (h : CarrierInfo.step info w l = some w') (hl : l ≠ .f_return) :
    w'.helper = w.helper ∨ w.carrier = .starting ∧ w'.helper = .running
      ∨ w.helper = .returned ∧ w'.helper = .ended := by
  have hd := CarrierInfo.step_does h
  cases l with
  | f_return => exact absurd rfl hl
  | direct | spawn =>
      obtain ⟨hc, -, rfl⟩ := hd
      exact .inr (.inl ⟨hc, rfl⟩)
  | send_done =>
      obtain ⟨hh, rfl⟩ := hd
      exact .inr (.inr ⟨hh, rfl⟩)
  | take =>
      obtain ⟨r, i, rest, -, rfl⟩ | ⟨rest, -, rfl⟩ := CarrierInfo.take_eq_some hd.2
      all_goals exact .inl rfl
  | discard =>
      obtain ⟨r, i, rest, c, -, -, rfl⟩ | ⟨rest, -, rfl⟩ := CarrierInfo.discard_eq_some hd.2
      all_goals exact .inl rfl
  | answer =>
      obtain ⟨r, i, c, -, -, rfl⟩ := hd
      exact .inl rfl
  | send i =>
      obtain ⟨c, -, -, rfl⟩ := hd
      obtain ⟨-, he⟩ | ⟨-, he⟩ := CarrierInfo.send_cases w i c
      all_goals exact .inl (he ▸ rfl)
  | recv i =>
      obtain ⟨c, c', -, -, rfl⟩ := hd
      exact .inl rfl
  | spawn_failed | join | ret =>
      obtain ⟨-, -, rfl⟩ := hd
      exact .inl rfl
  | call r =>
      obtain ⟨-, rfl⟩ := hd
      exact .inl rfl
  | drop_view =>
      cases hd
      exact .inl rfl

/-- The receiver is dropped after a join, or for want of a helper. -/
theorem dropping_cases {info : Info} {w w' : World} {l : CarrierInfo.Label}
    (h : CarrierInfo.step info w l = some w') (hl : l ≠ .f_return)
    (hc' : w'.carrier = .dropping ∨ w'.carrier = .returned) :
    l = .join ∨ l = .spawn_failed ∨ w.carrier = .dropping ∨ w.carrier = .returned := by
  have hd := CarrierInfo.step_does h
  cases l with
  | f_return => exact absurd rfl hl
  | join => exact .inl rfl
  | spawn_failed => exact .inr (.inl rfl)
  | direct | spawn =>
      obtain ⟨-, -, rfl⟩ := hd
      rcases hc' with hc' | hc' <;> cases hc'
  | take =>
      obtain ⟨r, i, rest, -, rfl⟩ | ⟨rest, -, rfl⟩ := CarrierInfo.take_eq_some hd.2
      all_goals rcases hc' with hc' | hc' <;> cases hc'
  | answer =>
      obtain ⟨r, i, c, -, -, rfl⟩ := hd
      rcases hc' with hc' | hc' <;> cases hc'
  | discard => exact .inr (.inr (.inl hd.1))
  | ret => exact .inr (.inr (.inl hd.1))
  | send i =>
      obtain ⟨c, -, -, rfl⟩ := hd
      obtain ⟨-, he⟩ | ⟨-, he⟩ := CarrierInfo.send_cases w i c
      all_goals
        rw [he] at hc'
        exact .inr (.inr hc')
  | recv i =>
      obtain ⟨c, c', -, -, rfl⟩ := hd
      exact .inr (.inr hc')
  | send_done | call r =>
      obtain ⟨-, rfl⟩ := hd
      exact .inr (.inr hc')
  | drop_view =>
      cases hd
      exact .inr (.inr hc')

/-- While the call runs, there is no result yet. -/
theorem Inv.not_dropping {info : Info} {s : State R} (h : Inv info s) (ho : s.outcome = none)
    (hh : s.world.helper = .running) :
    ¬ (s.world.carrier = .dropping ∨ s.world.carrier = .returned) := by
  intro hc
  have ht := panicked_of_calling ho ▸ h.threads
  cases he : info.has_exporter with
  | true => exact ht.not_left (.inl hh) he (.inr hc)
  | false =>
      rw [ht.direct he hh] at hc
      rcases hc with hc | hc <;> cases hc

/-- One step keeps the invariant. -/
theorem step_inv {info : Info} {s s' : State R} {e : Event R} (h : Inv info s)
    (hs : step info s e = some s') : Inv info s' := by
  have hd := step_does hs
  cases e with
  | f_returns r =>
      obtain ⟨ho, hw, ho', hres⟩ := hd
      have hpan : s.panicked = false := panicked_of_calling ho
      have hpan' : s'.panicked = false := by simp [State.panicked, ho']
      have ht := hpan ▸ h.threads
      have hdw := CarrierInfo.step_does hw
      refine ⟨CarrierInfo.step_inv h.world hw, ?_, ?_, fun r' _ => ?_, fun hc => ?_⟩
      · rw [hpan']
        exact step_threads h.world ht nofun hw
      · rw [ho']
        exact nofun
      · obtain ⟨-, ⟨-, he⟩ | ⟨-, he⟩⟩ := hdw
        · exact .inr (he ▸ rfl)
        · exact .inl (he ▸ rfl)
      · have hexp : s'.expected = .ok r := by simp [State.expected, ho']
        rw [hexp, hres]
        obtain ⟨hh, ⟨hdir, -⟩ | ⟨-, he⟩⟩ := hdw
        · rw [if_pos hdir]
        · rw [he] at hc
          exact absurd hc (h.not_dropping ho hh)
  | panics =>
      obtain ⟨ho, hh, rfl⟩ := hd
      have ht := panicked_of_calling ho ▸ h.threads
      refine ⟨unwind_inv h.world, unwind_threads h.world ht hh, nofun, nofun, fun hc => ?_⟩
      refine absurd ?_ (h.not_dropping ho hh)
      simp only [unwind] at hc
      split at hc <;> exact hc
  | other l =>
      obtain ⟨hp, rfl, hc, rfl⟩ | ⟨hp, hl, hw, ho, hres⟩ := hd
      · have hh := h.threads.running hp
        have hlost := h.threads.left
        refine ⟨join_panicked_inv h.world hh hc, ?_, fun ho => ?_, fun r ho => ?_, fun _ => rfl⟩
        · exact h.threads.frame (by simp) rfl rfl rfl id (fun he _ => hlost he (.inl hc))
            h.threads.idle (by simp [hc])
        · cases (outcome_of_panicked hp).symm.trans ho
        · cases (outcome_of_panicked hp).symm.trans ho
      · refine ⟨CarrierInfo.step_inv h.world hw, ?_, ?_, ?_, fun hc => ?_⟩
        · rw [panicked_congr ho]
          exact step_threads h.world h.threads (fun _ => hl) hw
        · intro hn
          have hbefore := h.calling (ho ▸ hn)
          rcases helper_cases hw hl with he | ⟨-, he⟩ | ⟨hret, -⟩
          · rw [he]
            exact hbefore
          · exact .inr he
          · rw [hret] at hbefore
            rcases hbefore with hb | hb <;> cases hb
        · intro r hr
          have hbefore := h.called r (ho ▸ hr)
          rcases helper_cases hw hl with he | ⟨hst, -⟩ | ⟨-, he⟩
          · rw [he]
            exact hbefore
          · rw [h.world.phases.starting hst] at hbefore
            rcases hbefore with hb | hb <;> cases hb
          · exact .inr he
        · rw [expected_congr ho, hres]
          rcases dropping_cases hw hl hc with rfl | rfl | hc
          · rfl
          · -- nothing was called, and so nothing came of it
            have hst := (CarrierInfo.step_does hw).1
            have hun := h.world.phases.starting hst
            have hn : s.outcome = none := by
              cases hout : s.outcome with
              | none => rfl
              | some o =>
                  cases o with
                  | returned r =>
                      have := h.called r hout
                      rw [hun] at this
                      rcases this with hb | hb <;> cases hb
                  | panicked =>
                      have := h.threads.running (by simp [State.panicked, hout])
                      rw [hun] at this
                      cases this
            simp [result_after, State.expected, hn]
          · have hres' : result_after s l = s.result := by
              cases l with
              | join | spawn_failed =>
                  have hst := (CarrierInfo.step_does hw).1
                  rw [hst] at hc
                  rcases hc with hc | hc <;> cases hc
              | _ => rfl
            rw [hres']
            exact h.result hc

/-- Every run does. -/
theorem run_inv_init {info : Info} {es : List (Event R)} {s : State R}
    (h : run (step info) init es = some s) : Inv info s :=
  run_inv (step info) (fun _ _ _ => step_inv) (init_inv info) h

/-! ## The return of `with_info` -/

/-- `with_info` returns: the answering loop takes boundedly many steps, whatever the
others do, and from wherever that leads to, the steps of the carrier's thread alone
lead to the return. -/
def Returns (info : Info) (s : State R) : Prop :=
  ∃ n, ∀ es s', run (step info) s es = some s' →
    es.countP Event.in_loop ≤ n
    ∧ ∃ ks s'', (∀ k ∈ ks, k.on_carrier = true) ∧ run (step info) s' ks = some s''
      ∧ s''.world.carrier = .returned

/-- The steps the carrier's thread has left, at most. -/
def todo (w : World) : ℕ :=
  match w.carrier with
  | .receiving => 3 * w.chan.queue.length + 4
  | .answering _ _ => 3 * w.chan.queue.length + 5
  | .joining => w.chan.queue.length + 2
  | .dropping => w.chan.queue.length + 1
  | _ => 0

/-- Every step on the carrier's thread brings `with_info` nearer to its return. -/
theorem step_todo {info : Info} {w w' : World} {l : CarrierInfo.Label}
    (h : CarrierInfo.step info w l = some w') (hl : l.on_carrier = true) : todo w' < todo w := by
  have hd := CarrierInfo.step_does h
  cases l with
  | take =>
      obtain ⟨hc, ht⟩ := hd
      obtain ⟨r, i, rest, hq, rfl⟩ | ⟨rest, hq | ⟨hq, rfl⟩, rfl⟩ := CarrierInfo.take_eq_some ht
      · simp only [todo, hc, hq, List.length_cons]
        omega
      · simp only [todo, hc, hq, List.length_cons]
        omega
      · simp [todo, hc, hq]
  | answer =>
      obtain ⟨r, i, c, hc, -, rfl⟩ := hd
      simp [todo, hc]
  | join =>
      obtain ⟨hc, -, rfl⟩ := hd
      simp [todo, hc, Chan.drop_receiver]
  | discard =>
      obtain ⟨hc, ht⟩ := hd
      obtain ⟨r, i, rest, c, hq, -, rfl⟩ | ⟨rest, hq, rfl⟩ := CarrierInfo.discard_eq_some ht
      all_goals simp [todo, hc, hq]
  | ret =>
      obtain ⟨hc, -, rfl⟩ := hd
      simp [todo, hc]
  | _ => cases hl

/-- A state in which the loop is bounded and the carrier's thread never blocks, and that
stays so, is one `with_info` returns from. -/
theorem returns_of {info : Info} {P : State R → Prop} {μ : State R → ℕ}
    (hloop : ∀ s e s', P s → step info s e = some s' →
      P s' ∧ e.in_loop.toNat + μ s' ≤ μ s)
    (hgo : ∀ s, P s → s.world.carrier ≠ .returned →
      ∃ e s', e.on_carrier = true ∧ step info s e = some s' ∧ todo s'.world < todo s.world)
    {s : State R} (hs : P s) : Returns info s := by
  refine ⟨μ s, fun es s' hrun => ?_⟩
  obtain ⟨hs', hcount⟩ := countP_add_le (step info) hloop hs hrun
  refine ⟨by omega, ?_⟩
  refine exists_run_of_decreasing (step info) (fun s => todo s.world) (fun u hu hg => ?_) hs'
  obtain ⟨e, u', he, hstep, hlt⟩ := hgo u hu hg
  exact ⟨e, u', he, hstep, (hloop u e u' hu hstep).1, hlt⟩

/-! ### After `Done` -/

/-- The helper has ended, and so the call returned. -/
theorem Inv.not_panicked {info : Info} {s : State R} (h : Inv info s)
    (hh : s.world.helper = .ended) : s.panicked = false ∧ s.outcome ≠ none := by
  constructor
  · cases hp : s.panicked with
    | false => rfl
    | true => exact absurd ((h.threads.running hp).symm.trans hh) (by decide)
  · intro ho
    have := h.calling ho
    rw [hh] at this
    rcases this with hb | hb <;> cases hb

/-- Once the helper has ended, each turn of the loop takes one request off those that remain. -/
theorem step_after_done {info : Info} {s s' : State R} {e : Event R} (h : Inv info s)
    (hh : s.world.helper = .ended) (hs : step info s e = some s') :
    s'.world.helper = .ended ∧ e.in_loop.toNat + s'.world.remaining = s.world.remaining := by
  obtain ⟨hpan, hout⟩ := h.not_panicked hh
  have hd := step_does hs
  cases e with
  | f_returns r => exact absurd hd.1 hout
  | panics => exact absurd hd.1 hout
  | other l =>
      obtain ⟨hp, -⟩ | ⟨-, -, hw, -⟩ := hd
      · rw [hpan] at hp
        cases hp
      · exact CarrierInfo.step_remaining h.world.phases hh hw

/-- A step on the carrier's thread of the other model is one here, and for the join the outcome
has to be known. -/
theorem step_of_world {info : Info} {s : State R} {l : CarrierInfo.Label} {w : World}
    (hl : l.on_carrier = true) (hj : l = .join → ∃ r, s.outcome = some (.returned r))
    (hw : CarrierInfo.step info s.world l = some w) :
    ∃ s', step info s (.other l) = some s' ∧ s'.world = w := by
  cases l with
  | join =>
      obtain ⟨r, ho⟩ := hj rfl
      exact ⟨_, by simp only [step, join, ho, hw, Option.map_some]; rfl, rfl⟩
  | take | answer | discard | ret =>
      exact ⟨_, by simp only [step, hw, Option.map_some]; rfl, rfl⟩
  | _ => cases hl

/-- So `with_info` returns. -/
theorem returns_after_done {info : Info} {s : State R} (h : Inv info s)
    (hh : s.world.helper = .ended) : Returns info s := by
  refine @returns_of _ info (fun u => Inv info u ∧ u.world.helper = .ended)
    (fun u => u.world.remaining) ?_ ?_ _ ⟨h, hh⟩
  · rintro u e u' ⟨hu, huh⟩ hstep
    obtain ⟨huh', hrem⟩ := step_after_done hu huh hstep
    exact ⟨⟨step_inv hu hstep, huh'⟩, Nat.le_of_eq hrem⟩
  · rintro u ⟨hu, huh⟩ hc
    obtain ⟨l, hl, henabled⟩ := CarrierInfo.carrier_enabled hu.world huh hc
    obtain ⟨w, hw⟩ := Option.isSome_iff_exists.1 henabled
    have hj : l = .join → ∃ r, u.outcome = some (.returned r) := by
      intro _
      obtain ⟨hpan, hout⟩ := hu.not_panicked huh
      cases ho : u.outcome with
      | none => exact absurd ho hout
      | some o =>
          cases o with
          | returned r => exact ⟨r, rfl⟩
          | panicked => simp [State.panicked, ho] at hpan
    obtain ⟨u', hstep, rfl⟩ := step_of_world hl hj hw
    exact ⟨.other l, u', hl, hstep, step_todo hw hl⟩

/-! ### After a panic -/

/-- The steps the answering loop has left, when no more requests come. -/
def loop_left (w : World) : ℕ :=
  match w.carrier with
  | .receiving => 2 * w.chan.queue.length + 1
  | .answering _ _ => 2 * w.chan.queue.length + 2
  | _ => 0

/-- Without the view nobody asks, and the loop takes what is there. -/
theorem step_loop_left {info : Info} {panicked : Bool} {w w' : World} {l : CarrierInfo.Label}
    (h : Threads info panicked w) (hp : panicked = true) (hv : w.view = false)
    (hinv : CarrierInfo.Inv info w) (hl : l ≠ .f_return)
    (hs : CarrierInfo.step info w l = some w') :
    w'.view = false ∧ l.in_loop.toNat + loop_left w' ≤ loop_left w := by
  have hd := CarrierInfo.step_does hs
  have hrun := h.running hp
  -- the panicked helper was started, and counts as running for ever
  have hst : w.carrier ≠ .starting := fun hst =>
    absurd ((hinv.phases.starting hst).symm.trans hrun) (by decide)
  cases l with
  | f_return => exact absurd rfl hl
  | direct | spawn | spawn_failed => exact absurd hd.1 hst
  | send_done => exact absurd (hrun.symm.trans hd.1) (by decide)
  | take =>
      obtain ⟨hc, ht⟩ := hd
      obtain ⟨r, i, rest, hq, rfl⟩ | ⟨rest, -, rfl⟩ := CarrierInfo.take_eq_some ht
      · refine ⟨hv, ?_⟩
        simp only [CarrierInfo.Label.in_loop, Bool.toNat_true, loop_left, hc, hq, List.length_cons]
        omega
      · refine ⟨hv, ?_⟩
        simp only [CarrierInfo.Label.in_loop, Bool.toNat_true, loop_left, hc]
        omega
  | answer =>
      obtain ⟨r, i, c, hc, -, rfl⟩ := hd
      refine ⟨hv, ?_⟩
      simp only [CarrierInfo.Label.in_loop, Bool.toNat_true, loop_left, hc]
      omega
  | join =>
      obtain ⟨hc, -, rfl⟩ := hd
      exact ⟨hv, by simp [CarrierInfo.Label.in_loop, loop_left]⟩
  | discard =>
      obtain ⟨hc, ht⟩ := hd
      obtain ⟨r, i, rest, c, -, -, rfl⟩ | ⟨rest, -, rfl⟩ := CarrierInfo.discard_eq_some ht
      all_goals exact ⟨hv, by simp [CarrierInfo.Label.in_loop, loop_left, hc]⟩
  | ret =>
      obtain ⟨hc, -, rfl⟩ := hd
      exact ⟨hv, by simp [CarrierInfo.Label.in_loop, loop_left]⟩
  | call r =>
      -- nobody can call through a view that is gone, so the queue only gets shorter
      cases hv.symm.trans hd.1
  | send i =>
      obtain ⟨c, hget, ha, -⟩ := hd
      have hf := h.idle hv c (List.mem_of_getElem? hget)
      simp [Call.finished, ha] at hf
  | recv i =>
      obtain ⟨c, c', -, -, rfl⟩ := hd
      exact ⟨hv, by simp [CarrierInfo.Label.in_loop, loop_left]⟩
  | drop_view =>
      cases hd
      exact ⟨rfl, by simp [CarrierInfo.Label.in_loop, loop_left, Chan.drop_sender]⟩

/-- After a panic without a view, each turn of the loop takes something off as well, since
nobody is left to ask. -/
theorem step_after_panic {info : Info} {s s' : State R} {e : Event R} (h : Inv info s)
    (hp : s.panicked = true) (hv : s.world.view = false) (hs : step info s e = some s') :
    s'.panicked = true ∧ s'.world.view = false
      ∧ e.in_loop.toNat + loop_left s'.world ≤ loop_left s.world := by
  have hd := step_does hs
  have hout := outcome_of_panicked hp
  cases e with
  | f_returns r => cases hout.symm.trans hd.1
  | panics => cases hout.symm.trans hd.1
  | other l =>
      obtain ⟨-, rfl, hc, rfl⟩ | ⟨-, hl, hw, ho, -⟩ := hd
      · exact ⟨hp, hv, by simp [Event.in_loop, CarrierInfo.Label.in_loop, loop_left]⟩
      · obtain ⟨hv', hle⟩ := step_loop_left h.threads hp hv h.world hl hw
        exact ⟨(panicked_congr ho).trans hp, hv', hle⟩

/-- After a panic, with the view gone, the last sender is gone. -/
theorem carrier_enabled_after_panic {info : Info} {s : State R} (h : Inv info s)
    (he : info.has_exporter = true) (hp : s.panicked = true) (hv : s.world.view = false)
    (hc : s.world.carrier ≠ .returned) :
    ∃ e s', e.on_carrier = true ∧ step info s e = some s' ∧ todo s'.world < todo s.world := by
  have hrun := h.threads.running hp
  have hgo : ∀ {l}, l.on_carrier = true → l ≠ .join →
      (CarrierInfo.step info s.world l).isSome = true →
      ∃ e s', e.on_carrier = true ∧ step info s e = some s' ∧ todo s'.world < todo s.world := by
    intro l hl hj hen
    obtain ⟨w, hw⟩ := Option.isSome_iff_exists.1 hen
    obtain ⟨s', hstep, rfl⟩ := step_of_world hl (fun h => absurd h hj) hw
    exact ⟨.other l, s', hl, hstep, step_todo hw hl⟩
  cases hcar : s.world.carrier with
  | returned => exact absurd hcar hc
  | starting => exact absurd ((h.world.phases.starting hcar).symm.trans hrun) (by decide)
  | direct =>
      rw [(h.world.phases.direct hcar).1] at he
      cases he
  | receiving =>
      have hsum := h.threads.senders he (by simp [hrun])
      have hnone : helper_sender s.panicked s.world = false := by simp [helper_sender, hrun, hp]
      rw [hv, hnone] at hsum
      exact hgo (l := .take) rfl (by simp) (CarrierInfo.take_enabled hcar (.inr hsum))
  | answering r i =>
      exact hgo (l := .answer) rfl (by simp) (CarrierInfo.answer_enabled h.world hcar)
  | joining =>
      refine ⟨.other .join, { s with
        world := { s.world with carrier := .dropping, chan := s.world.chan.drop_receiver }
        result := some (.error (.other "the call panicked")) }, rfl, ?_, ?_⟩
      · simp only [step, join, outcome_of_panicked hp, hcar, if_true]
      · simp [todo, hcar, Chan.drop_receiver]
  | dropping =>
      rcases CarrierInfo.dropping_enabled h.world hcar with hret | hdis
      · exact hgo (l := .ret) rfl (by simp) hret
      · exact hgo (l := .discard) rfl (by simp) hdis

/-- So `with_info` returns, with the error. -/
theorem returns_after_panic {info : Info} {s : State R} (h : Inv info s)
    (he : info.has_exporter = true) (hp : s.panicked = true) (hv : s.world.view = false) :
    Returns info s := by
  refine @returns_of _ info (fun u => Inv info u ∧ u.panicked = true ∧ u.world.view = false)
    (fun u => loop_left u.world) ?_ ?_ _ ⟨h, hp, hv⟩
  · rintro u e u' ⟨hu, hup, huv⟩ hstep
    obtain ⟨hup', huv', hle⟩ := step_after_panic hu hup huv hstep
    exact ⟨⟨step_inv hu hstep, hup', huv'⟩, hle⟩
  · rintro u ⟨hu, hup, huv⟩ hc
    exact carrier_enabled_after_panic hu he hup huv hc

/-- The carrier's thread has nothing to do with the view. -/
theorem carrier_step_view {info : Info} {w w' : World} {l : CarrierInfo.Label}
    (h : CarrierInfo.step info w l = some w') (hl : l.on_carrier = true) : w'.view = w.view := by
  have hd := CarrierInfo.step_does h
  cases l with
  | take =>
      obtain ⟨r, i, rest, -, rfl⟩ | ⟨rest, -, rfl⟩ := CarrierInfo.take_eq_some hd.2
      all_goals rfl
  | discard =>
      obtain ⟨r, i, rest, c, -, -, rfl⟩ | ⟨rest, -, rfl⟩ := CarrierInfo.discard_eq_some hd.2
      all_goals rfl
  | answer =>
      obtain ⟨r, i, c, -, -, rfl⟩ := hd
      rfl
  | join | ret =>
      obtain ⟨-, -, rfl⟩ := hd
      rfl
  | _ => cases hl

/-- While the view is held, the carrier's thread does not come past the loop. -/
theorem step_held {info : Info} {s s' : State R} {e : Event R} (hp : s.panicked = true)
    (hv : s.world.view = true) (he : e.on_carrier = true) (hs : step info s e = some s') :
    s'.panicked = true ∧ s'.world.view = true := by
  have hd := step_does hs
  cases e with
  | f_returns r => cases he
  | panics => cases he
  | other l =>
      obtain ⟨-, -, -, rfl⟩ | ⟨-, -, hw, ho, -⟩ := hd
      · exact ⟨hp, hv⟩
      · exact ⟨(panicked_congr ho).trans hp, (carrier_step_view hw he).trans hv⟩

/-- After a panic with a view that Python holds, or without an exporter, `with_info` has not
returned, -/
theorem Inv.not_returned {info : Info} {s : State R} (h : Inv info s) (hp : s.panicked = true)
    (hv : info.has_exporter = true → s.world.view = true) : s.world.carrier ≠ .returned := by
  intro hc
  have hrun := h.threads.running hp
  cases he : info.has_exporter with
  | false => cases hc.symm.trans (h.threads.direct he hrun)
  | true =>
      rcases h.threads.left he (.inr (.inr hc)) with hend | hun | ⟨-, hnot⟩
      · cases hrun.symm.trans hend
      · cases hrun.symm.trans hun
      · cases hnot.symm.trans (hv he)

/-- and no step of the loop makes it. -/
theorem not_returns_after_panic {info : Info} {s : State R} (h : Inv info s)
    (hp : s.panicked = true) (hv : info.has_exporter = true → s.world.view = true) :
    ¬ Returns info s := by
  rintro ⟨n, hret⟩
  obtain ⟨-, ks, t, hks, hrun, hc⟩ := hret [] s rfl
  have hkeep : Inv info t ∧ t.panicked = true
      ∧ (info.has_exporter = true → t.world.view = true) := by
    refine @meets_inv _ _ (step info)
      (fun u => Inv info u ∧ u.panicked = true ∧ (info.has_exporter = true → u.world.view = true))
      (fun _ k => k.on_carrier = true) ?_ _ _ _ ⟨h, hp, hv⟩ (meets_of_forall _ hks s) hrun
    rintro u k u' ⟨hu, hup, huv⟩ hk hstep
    refine ⟨step_inv hu hstep, ?_, fun he => (step_held hup (huv he) hk hstep).2⟩
    cases he : info.has_exporter with
    | true => exact (step_held hup (huv he) hk hstep).1
    | false =>
        -- the carrier is still in the call that panicked, and has no step
        have hdir := hu.threads.direct he (hu.threads.running hup)
        have hd := step_does hstep
        cases k with
        | f_returns r => cases hk
        | panics => cases hk
        | other l =>
            obtain ⟨-, -, hc, -⟩ | ⟨-, -, hw, ho, -⟩ := hd
            · cases hdir.symm.trans hc
            · exact (panicked_congr ho).trans hup
  exact hkeep.1.not_returned hkeep.2.1 hkeep.2.2 hc

/-! ## However the call ends -/

/-- **When `with_info` returns.** In every run: a call that returned is followed by the
send of `Done`; once the call is over, `with_info` returns, whatever the others do,
exactly if the call returned, or it panicked on a helper thread and nobody holds the
view; and what it returns is the result of the call, the error that reports the panic,
or that of the spawn if there was no call. -/
theorem with_info_returns_iff (info : Info) {es : List (Event R)} {s : State R}
    (h : run (step info) init es = some s) :
    (s.world.helper = .returned → (step info s (.other .send_done)).isSome = true)
    ∧ (s.world.helper = .ended ∨ s.panicked = true →
        (Returns info s
          ↔ s.panicked = false ∨ info.has_exporter = true ∧ s.world.view = false))
    ∧ (s.world.carrier = .returned → s.result = some s.expected) := by
  have hinv := run_inv_init h
  refine ⟨fun hh => ?_, fun hover => ?_, fun hc => hinv.result (.inr hc)⟩
  · simp [step, CarrierInfo.step, hh]
  · cases hp : s.panicked with
    | false =>
        rw [hp] at hover
        have hh : s.world.helper = .ended := hover.resolve_right Bool.false_ne_true
        exact iff_of_true (returns_after_done hinv hh) (.inl rfl)
    | true =>
        by_cases hgone : info.has_exporter = true ∧ s.world.view = false
        · exact iff_of_true (returns_after_panic hinv hgone.1 hp hgone.2) (.inr hgone)
        · have hv : info.has_exporter = true → s.world.view = true := by
            intro he
            cases hview : s.world.view with
            | true => rfl
            | false => exact absurd ⟨he, hview⟩ hgone
          refine iff_of_false (not_returns_after_panic hinv hp hv) ?_
          rintro (hf | hg)
          · cases hf
          · exact hgone hg

/-- A call that asks once and panics; then the view goes. -/
def panics_and_drops : List (Event Unit) :=
  [.other .spawn, .other (.call ⟨[1], [], 1⟩), .other (.send 0), .other .take, .other .answer,
    .other (.recv 0), .panics, .other .drop_view]

theorem with_info_returns_iff_dropped :
    ∃ s, run (step CarrierInfo.echo) init panics_and_drops = some s
      ∧ s.panicked = true ∧ s.world.view = false ∧ Returns CarrierInfo.echo s
      ∧ (s.world.carrier = .returned → s.result = some s.expected) := by
  have h := @with_info_returns_iff Unit CarrierInfo.echo panics_and_drops _ rfl
  exact ⟨_, rfl, rfl, rfl, (h.2.1 (.inr rfl)).2 (.inr ⟨rfl, rfl⟩), h.2.2⟩

/-- A call that panics while Python keeps the view: the answering loop waits for a sender
that nobody uses, and the carrier's thread has no step. -/
theorem kept_view_blocks_carrier :
    ∃ s : State Unit, run (step CarrierInfo.echo) init [.other .spawn, .panics] = some s
      ∧ s.panicked = true ∧ s.world.view = true ∧ s.world.carrier = .receiving
      ∧ ∀ e : Event Unit, e.on_carrier = true → (step CarrierInfo.echo s e).isNone = true := by
  refine ⟨_, rfl, rfl, rfl, rfl, fun e he => ?_⟩
  cases e with
  | f_returns r => cases he
  | panics => cases he
  | other l =>
      cases l with
      | take | answer | join | discard | ret => rfl
      | _ => cases he

end ZmuxPy.CarrierPanics
