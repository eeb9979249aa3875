/-
The event loop of an `async` decide (`src/admission.rs`, `Admission`, `PyDecide`).

A decider written in Python has a cell, `locals`, for the event loop its coroutines
run on. The constructor of the `Admission` fills it when it is called inside a
running loop, and so does the constructor of every `Listener` that is given the
admission; it is a `OnceLock`, so the first one that is called inside a loop wins,
for every listener of the admission. A listener's constructor may still raise after
it came to the cell, when the configuration is not readable.

Loops are a type of names. A closed one runs nothing any more, so nothing is made
inside it, and a coroutine given to it is an error.
-/
import Mathlib.Data.List.Basic
import Mathlib.Tactic.Basic
import ZmuxPy.Machine
import ZmuxPy.Pyo3

set_option autoImplicit false

namespace ZmuxPy.AdmissionLoops

open Machine Pyo3

variable {Loop : Type} [DecidableEq Loop]

/-! ## A decision -/

/-- `Verdict`. -/
inductive Verdict where
  | accept (skip : ℕ)
  | fallback
  | stall
  | close
  deriving DecidableEq, Repr

/-- What `decide(info, prefix)` returns. -/
inductive Value where
  | verdict (v : Verdict)
  /-- It has an `__await__`. -/
  | awaitable
  | other
  deriving DecidableEq, Repr

/-- `Started`: a future that is ready with an error, or a coroutine's. -/
inductive Started (Loop : Type) where
  | ready (e : PyErr)
  | runs_on (loop : Loop)
  deriving DecidableEq, Repr

/-- `into_future(locals, awaitable)`: `call_soon_threadsafe` raises on a closed loop. -/
def into_future (closed : List Loop) (loop : Loop) : PyResult (Started Loop) :=
  if loop ∈ closed then .error (.runtime_error "Event loop is closed") else .ok (.runs_on loop)

/-- `PyDecide::start`. `called` is what `with_info` comes to: its own error, or what
the call of `decide` raised or returned. -/
def start (closed : List Loop) (locals : Option Loop) (called : Except String (PyResult Value)) :
    Except (Started Loop) Value :=
  match called with
  | .error e => .error (.ready (.value_error e))
  | .ok (.error e) => .error (.ready e)
  | .ok (.ok .awaitable) =>
    match locals with
    | none => .error (.ready (.value_error
        "an async decide needs its Listener made inside a running event loop"))
    | some loop =>
      match into_future closed loop with
      | .ok f => .error f
      | .error e => .error (.ready e)
  | .ok (.ok v) => .ok v

/-- `PyDecide::verdict`: an exception or another value closes. -/
def verdict : PyResult Value → Verdict
  | .ok (.verdict v) => v
  | _ => .close

/-- What becomes of a carrier: its verdict, or a coroutine on a loop that is to give
it. -/
inductive Decision (Loop : Type) where
  | verdict (v : Verdict)
  | runs_on (loop : Loop)
  deriving DecidableEq, Repr

/-- `Decide::decide`, to the first await. -/
def decision (closed : List Loop) (locals : Option Loop)
    (called : Except String (PyResult Value)) : Decision Loop :=
  match start closed locals called with
  | .ok v => .verdict (verdict (.ok v))
  | .error (.ready e) => .verdict (verdict (.error e))
  | .error (.runs_on loop) => .runs_on loop

/-! ## Admissions and listeners -/

/-- An `Admission`: with a decider and its cell, or of `prefix_auth`, without one. -/
inductive Admission (Loop : Type) where
  | decider (locals : Option Loop)
  | prefix_auth
  deriving DecidableEq, Repr

/-- `Admission::for_listener`, called inside the loop `running`, if any:
`locals.set(..)` leaves a cell that is filled as it is. -/
def Admission.for_listener (a : Admission Loop) (running : Option Loop) : Admission Loop :=
  match a with
  | .decider locals => .decider (locals.or running)
  | .prefix_auth => .prefix_auth

/-- A listener, with the admission it was given. -/
structure Listener (Loop : Type) where
  admission : ℕ
  /-- The loop it was made inside. -/
  made_in : Option Loop
  deriving DecidableEq, Repr

/-- The admissions with their cells, the listeners, and the loops that closed. -/
structure World (Loop : Type) where
  admissions : List (Admission Loop)
  listeners : List (Listener Loop)
  closed : List Loop
  deriving DecidableEq, Repr

/-- No admission was made. -/
def init : World Loop := ⟨[], [], []⟩

/-- The constructors, and the end of a loop. -/
inductive Label (Loop : Type) where
  /-- `Admission(decide)`. -/
  | admission (running : Option Loop)
  /-- `Admission.prefix_auth(auth)`. -/
  | prefix_auth
  /-- `Listener(admission=a)`; with `raises`, the configuration is not readable. -/
  | listener (a : ℕ) (running : Option Loop) (raises : Bool)
  | close_loop (loop : Loop)
  deriving DecidableEq, Repr

/-- One step. -/
def step (w : World Loop) : Label Loop → Option (World Loop)
  | .admission running =>
    if running.any (· ∈ w.closed) then none
    else some { w with admissions := w.admissions ++ [.decider running] }
  | .prefix_auth => some { w with admissions := w.admissions ++ [.prefix_auth] }
  | .listener a running raises =>
    match w.admissions[a]? with
    | some admission =>
      if running.any (· ∈ w.closed) then none
      else some { w with
        admissions := w.admissions.set a (admission.for_listener running)
        listeners := if raises then w.listeners else w.listeners ++ [⟨a, running⟩] }
    | none => none
  | .close_loop loop => some { w with closed := loop :: w.closed }

/-- A listener's constructor, given an admission that is there. -/
theorem step_listener {w w' : World Loop} {a : ℕ} {running : Option Loop} {raises : Bool}
    (h : step w (.listener a running raises) = some w') :
    ∃ ad, w.admissions[a]? = some ad ∧ (∀ loop, running = some loop → loop ∉ w.closed)
      ∧ w'.admissions = w.admissions.set a (ad.for_listener running) ∧ w'.closed = w.closed
      ∧ ∀ L, L ∈ w'.listeners ↔ L ∈ w.listeners ∨ raises = false ∧ L = ⟨a, running⟩ := by
  simp only [step] at h
  split at h
  · rename_i ad ha
    split at h
    · cases h
    · rename_i hrun
      cases h
      refine ⟨ad, ha, ?_, rfl, rfl, ?_⟩
      · rintro loop rfl hc
        exact hrun (by simp [hc])
      · cases raises with
        | true => simp
        | false => simp
  · cases h

/-! ## Whose loop a coroutine runs on -/

/-- What becomes of a carrier whose decide returned a coroutine. -/
def async_decision (closed : List Loop) (locals : Option Loop) : Decision Loop :=
  decision closed locals (.ok (.ok .awaitable))

/-- What the documentation says of it: the coroutine runs on the loop the listener was
made in, while that one is not closed, and otherwise the carrier is closed. -/
def Listener.own_decision (L : Listener Loop) (closed : List Loop) : Decision Loop :=
  match L.made_in with
  | some loop => if loop ∈ closed then .verdict .close else .runs_on loop
  | none => .verdict .close

/-- The model's decision in the terms of the documentation's. -/
theorem async_decision_eq (closed : List Loop) (locals : Option Loop) (a : ℕ) :
    async_decision closed locals = Listener.own_decision ⟨a, locals⟩ closed := by
  unfold async_decision decision start into_future Listener.own_decision
  cases locals with
  | none => rfl
  | some loop =>
      by_cases hc : loop ∈ closed
      · simp [hc, verdict]
      · simp [hc]

/-- A coroutine that is decided for `L` runs where `L` was made. -/
def RightFor (w : World Loop) (L : Listener Loop) : Prop :=
  ∀ locals, w.admissions[L.admission]? = some (.decider locals) →
    async_decision w.closed locals = L.own_decision w.closed

/-- So it is for every listener. -/
def Right (w : World Loop) : Prop := ∀ L ∈ w.listeners, RightFor w L

/-- A listener is made in the loop that the cell holds (or outside, and that loop is
closed already), or is the first to fill the cell. -/
def shares_loop (w : World Loop) : Label Loop → Bool
  | .listener a running raises =>
    match w.admissions[a]? with
    | some (.decider (some loop)) =>
      raises || running = some loop || (running = none && loop ∈ w.closed)
    | some (.decider none) => running = none || w.listeners.all (·.admission ≠ a)
    | _ => true
  | _ => true

/-- The same decision as before for a listener whose cell is the same, also when a loop
is closed. -/
theorem right_close_loop {w : World Loop} (loop : Loop) (h : Right w) :
    Right { w with closed := loop :: w.closed } := by
  intro L hL locals ha
  have hbefore := h L hL locals ha
  rw [async_decision_eq _ _ L.admission] at hbefore ⊢
  unfold Listener.own_decision at hbefore ⊢
  simp only [List.mem_cons]
  grind

/-- A decision inside a loop that is open is that of its listener exactly if the cell
holds the loop; outside, exactly if the cell is empty or its loop closed. -/
theorem own_decision_iff {closed : List Loop} {locals running : Option Loop} {a : ℕ}
    (hopen : ∀ loop, running = some loop → loop ∉ closed) :
    async_decision closed locals = Listener.own_decision ⟨a, running⟩ closed
      ↔ locals = running ∨ running = none ∧ ∃ loop ∈ closed, locals = some loop := by
  rw [async_decision_eq _ _ a]
  unfold Listener.own_decision
  cases running with
  | none =>
      cases locals with
      | none => simp
      | some loop =>
          by_cases hc : loop ∈ closed
          · simp [hc]
          · simp [hc]
  | some loop =>
      have hl := hopen loop rfl
      cases locals with
      | none => simp [hl]
      | some l =>
          by_cases hc : l ∈ closed
          · have hne : l ≠ loop := fun he => hl (he ▸ hc)
            simp [hl, hc, hne]
          · simp [hl, hc]

/-- A listener's constructor comes to the cell: its admission's listeners find the cell
filled, the others find theirs as before. -/
theorem rightFor_for_listener {w w' : World Loop} {a : ℕ} {ad : Admission Loop}
    {running : Option Loop} {L : Listener Loop} (ha : w.admissions[a]? = some ad)
    (had : w'.admissions = w.admissions.set a (ad.for_listener running))
    (hclosed : w'.closed = w.closed) :
    RightFor w' L ↔ if L.admission = a
      then ∀ locals, ad = .decider locals →
        async_decision w.closed (locals.or running) = L.own_decision w.closed
      else RightFor w L := by
  have hlt : a < w.admissions.length := (List.getElem?_eq_some_iff.1 ha).1
  unfold RightFor
  rw [had, hclosed, List.getElem?_set]
  by_cases hL : L.admission = a
  · rw [if_pos hL.symm, if_pos hlt, if_pos hL]
    cases ad with
    | prefix_auth => simp [Admission.for_listener]
    | decider locals => simp [Admission.for_listener]
  · rw [if_neg (Ne.symm hL), if_neg hL]

/-- What is left to ask of a listener's constructor: the listeners of its admission, and
the one it makes. -/
theorem right_for_listener {w w' : World Loop} {a : ℕ} {ad : Admission Loop}
    {running : Option Loop} {raises : Bool} (hw : Right w) (ha : w.admissions[a]? = some ad)
    (had : w'.admissions = w.admissions.set a (ad.for_listener running))
    (hclosed : w'.closed = w.closed)
    (hmem : ∀ L, L ∈ w'.listeners ↔ L ∈ w.listeners ∨ raises = false ∧ L = ⟨a, running⟩) :
    Right w' ↔ ∀ locals, ad = .decider locals →
      (∀ L ∈ w.listeners, L.admission = a →
        async_decision w.closed (locals.or running) = L.own_decision w.closed)
      ∧ (raises = false → async_decision w.closed (locals.or running)
          = Listener.own_decision ⟨a, running⟩ w.closed) := by
  have hfor := fun L => @rightFor_for_listener Loop _ w w' a ad running L ha had hclosed
  constructor
  · intro h locals hd
    refine ⟨fun L hL hLa => ?_, fun hr => ?_⟩
    · have hR := h L ((hmem L).2 (.inl hL))
      rw [hfor, if_pos hLa] at hR
      exact hR locals hd
    · have hR := h ⟨a, running⟩ ((hmem _).2 (.inr ⟨hr, rfl⟩))
      rw [hfor, if_pos rfl] at hR
      exact hR locals hd
  · intro h L hL
    rw [hfor]
    by_cases hLa : L.admission = a
    · rw [if_pos hLa]
      intro locals hd
      rcases (hmem L).1 hL with hL | ⟨hr, rfl⟩
      · exact (h locals hd).1 L hL hLa
      · exact (h locals hd).2 hr
    · rw [if_neg hLa]
      rcases (hmem L).1 hL with hL | ⟨hr, rfl⟩
      · exact hw L hL
      · exact absurd rfl hLa

/-- A cell that was empty: the listeners it had were made outside a loop, or it had
none. -/
theorem right_first_iff {w : World Loop} {a : ℕ} {running : Option Loop} (hw : Right w)
    (ha : w.admissions[a]? = some (.decider none))
    (hopen : ∀ loop, running = some loop → loop ∉ w.closed) :
    (∀ L ∈ w.listeners, L.admission = a →
        async_decision w.closed running = L.own_decision w.closed)
      ↔ running = none ∨ ∀ L ∈ w.listeners, L.admission ≠ a := by
  have hbefore : ∀ L ∈ w.listeners, L.admission = a →
      .verdict .close = L.own_decision w.closed :=
    fun L hL hLa => hw L hL none (hLa.symm ▸ ha)
  cases running with
  | none => exact iff_of_true hbefore (.inl rfl)
  | some loop =>
      have hruns : async_decision w.closed (some loop) = .runs_on loop := by
        rw [async_decision_eq _ _ a]
        simp only [Listener.own_decision, if_neg (hopen loop rfl)]
      constructor
      · intro h
        refine .inr fun L hL hLa => ?_
        have heq := h L hL hLa
        rw [hruns, ← hbefore L hL hLa] at heq
        cases heq
      · rintro (h | h) L hL hLa
        · cases h
        · exact absurd hLa (h L hL)

/-- The listeners' admissions are there. -/
def Inv (w : World Loop) : Prop := ∀ L ∈ w.listeners, L.admission < w.admissions.length

omit [DecidableEq Loop] in
theorem inv_init : Inv (init : World Loop) := by
  intro L hL
  cases hL

/-- A cell that is filled stays as it is. -/
theorem step_inv {w w' : World Loop} {l : Label Loop} (hw : Inv w) (h : step w l = some w') :
    Inv w' := by
  have hsnoc : ∀ ad, Inv { w with admissions := w.admissions ++ [ad] } := by
    intro ad L hL
    rw [List.length_append]
    exact Nat.lt_add_right _ (hw L hL)
  cases l with
  | admission running =>
      simp only [step] at h
      split at h
      · cases h
      · cases h
        exact hsnoc _
  | prefix_auth =>
      cases h
      exact hsnoc _
  | close_loop loop =>
      cases h
      exact hw
  | listener a running raises =>
      obtain ⟨ad, ha, -, had, -, hmem⟩ := step_listener h
      intro L hL
      rw [had, List.length_set]
      rcases (hmem L).1 hL with hL | ⟨-, rfl⟩
      · exact hw L hL
      · exact (List.getElem?_eq_some_iff.1 ha).1

theorem right_snoc_admission {w : World Loop} (hinv : Inv w) (hw : Right w)
    (ad : Admission Loop) : Right { w with admissions := w.admissions ++ [ad] } := by
  intro L hL locals ha
  rw [List.getElem?_append_left (hinv L hL)] at ha
  exact hw L hL locals ha

/-- **One step** keeps it right exactly if the new listener finds its own loop in the cell, or
fills it. -/
theorem step_right_iff {w w' : World Loop} {l : Label Loop} (hinv : Inv w)
    (hw : Right w) (h : step w l = some w') : Right w' ↔ shares_loop w l = true := by
  cases l with
  | admission running =>
      simp only [step] at h
      split at h
      · cases h
      · cases h
        exact iff_of_true (right_snoc_admission hinv hw _) rfl
  | prefix_auth =>
      cases h
      exact iff_of_true (right_snoc_admission hinv hw _) rfl
  | close_loop loop =>
      cases h
      exact iff_of_true (right_close_loop loop hw) rfl
  | listener a running raises =>
      obtain ⟨ad, ha, hopen, had, hclosed, hmem⟩ := step_listener h
      rw [right_for_listener hw ha had hclosed hmem]
      simp only [shares_loop, ha]
      cases ad with
      | prefix_auth => simp
      | decider locals =>
          simp only [Admission.decider.injEq, forall_eq', own_decision_iff hopen]
          cases locals with
          | none =>
              rw [Option.none_or, right_first_iff hw ha hopen]
              simp
          | some loop =>
              -- the cell is filled: nothing changes for the listeners it has
              rw [Option.some_or, and_iff_right fun L hL hLa => hw L hL _ (hLa.symm ▸ ha)]
              cases raises with
              | true => simp
              | false => simp [@eq_comm _ running]

/-- **When an async decide runs on its listener's loop.** In every state of a run, a
coroutine decided for a listener runs on the loop the listener was made in (the
carrier is closed when it was made outside one, or its loop is closed by now), exactly
if every listener is made in the loop that its admission's cell already holds, or is,
with the cell still empty, the first listener of the admission or made outside a loop
like the ones before it. The one other way is a listener made outside a loop when the
cell's loop is closed. -/
theorem async_decide_on_listener_loop_iff {ls : List (Label Loop)} {w : World Loop}
    (h : run step init ls = some w) :
    (∀ u, Visits step init ls u → ∀ L ∈ u.listeners, ∀ locals,
        u.admissions[L.admission]? = some (.decider locals) →
          decision u.closed locals (.ok (.ok .awaitable)) = L.own_decision u.closed)
      ↔ Meets step (fun u l => shares_loop u l = true) init ls :=
  visits_iff step (fun _ _ _ => step_inv) (fun _ _ _ => step_right_iff) inv_init
    (fun _ hL => by cases hL) h

/-- An admission made inside a loop, and two listeners of it there. -/
def shared_in_one_loop : List (Label ℕ) :=
  [.admission (some 0), .listener 0 (some 0) false, .listener 0 (some 0) false, .close_loop 0]

theorem async_decide_on_listener_loop_iff_shared :
    ∃ w, run step init shared_in_one_loop = some w
      ∧ w.listeners = [⟨0, some 0⟩, ⟨0, some 0⟩]
      ∧ ((∀ u, Visits step init shared_in_one_loop u → ∀ L ∈ u.listeners, ∀ locals,
            u.admissions[L.admission]? = some (.decider locals) →
              decision u.closed locals (.ok (.ok .awaitable)) = L.own_decision u.closed)
          ↔ Meets step (fun u l => shares_loop u l = true) init shared_in_one_loop) :=
  ⟨_, rfl, rfl, @async_decide_on_listener_loop_iff ℕ _ shared_in_one_loop _ rfl⟩

/-- An admission made in one `asyncio.run` and its listener in a second one: the
coroutine is given to the first loop; once that one is closed, every carrier is
closed. -/
theorem coroutine_on_admission_loop :
    ∃ w, run step init [.admission (some 0), .listener 0 (some 1) false] = some w
      ∧ w.listeners = [⟨0, some 1⟩] ∧ w.admissions = [.decider (some 0)]
      ∧ decision w.closed (some 0) (.ok (.ok .awaitable)) = .runs_on 0
      ∧ decision [0] (some 0) (.ok (.ok .awaitable)) = .verdict .close :=
  ⟨_, rfl, rfl, rfl, rfl, rfl⟩

end ZmuxPy.AdmissionLoops
