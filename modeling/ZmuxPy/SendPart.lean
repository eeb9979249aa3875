/-
The sending part of a stream and the calls that share it (`Part`, `held` and
`SendStream` in `src/lib.rs`).

Every asynchronous call of a `SendStream` runs as a future of its own and gets
the native stream through `held`, a fair lock. `finish` and `reset` give the
part back in the poll they get it in; `write`, `write_chunk` and
`wait_send_capacity` keep it while they wait for credit. `stopped` looks as if
it let go of it (the guard is in an inner block), but the guard is moved into
the future the block returns, so it is kept for the whole wait, and that wait
ends in two ways only: the peer stops the stream, or it acknowledged all data
of a finished stream.

So a `finish` behind a pending `stopped` waits for a `stopped` that may be
waiting for the `finish`. `senders_proceed_iff` says when no run comes to that.

The session is taken to stay up, and the data of a write is left out: neither
has a part in who waits for whom.
-/
import Mathlib.Data.List.Basic
import ZmuxPy.FairLock
import ZmuxPy.Machine
import ZmuxPy.Parties

set_option autoImplicit false

namespace ZmuxPy.SendPart

open Machine Parties FairLock

/-! ## The model -/

/-- A call of `SendStream`, as far as the part goes. -/
inductive Op where
  | write
  | write_chunk
  | finish
  | reset (code : ℕ)
  | wait_send_capacity
  /-- `__aexit__`, after a normal exit or an exception. -/
  | aexit (ok : Bool)
  | stopped
  deriving DecidableEq, Repr

/-- What a call comes to. -/
inductive Result where
  | ok
  /-- What `stopped` returns: the peer's code, or `None`. -/
  | code (c : Option ℕ)
  /-- `StreamError` of kind `ClosedLocally`. -/
  | closed_locally
  /-- Another error of the native stream. -/
  | error
  /-- None: the call was cancelled, and its future dropped. -/
  | cancelled
  deriving DecidableEq, Repr

/-- A call, and its result once it has one. -/
structure Call where
  op : Op
  result : Option Result
  deriving DecidableEq, Repr

/-- The native stream. -/
structure Native where
  finished : Bool
  was_reset : Bool
  peer_stop : Option ℕ
  acked : Bool
  deriving DecidableEq, Repr

/-- A handle: whether it still holds the part, the part's lock, the native
stream and the calls made. -/
structure Handle where
  part : Bool
  lock : List ℕ
  native : Native
  calls : List Call
  deriving DecidableEq, Repr

/-- A new stream: the part is in its handle, and nobody has asked for it. -/
def init : Handle :=
  { part := true, lock := []
    native := { finished := false, was_reset := false, peer_stop := none, acked := false }
    calls := [] }

/-- What the native stream answers a poll of a call that has the part. -/
inductive Answer where
  | pending
  | ready
  | error
  deriving DecidableEq, Repr

/-- `finish` and `reset`: neither waits. -/
def close_native (n closed : Native) : Answer → Option (Option (Native × Result))
  | .pending => none
  | a =>
    if n.finished || n.was_reset then some (some (n, .closed_locally))
    else if a = .ready then some (some (closed, .ok)) else some (some (n, .error))

/-- `write_chunk` and `wait_send_capacity`: they may wait for credit. -/
def wait_native (n : Native) : Answer → Option (Option (Native × Result))
  | .pending => if n.finished || n.was_reset then none else some none
  | a =>
    if n.finished || n.was_reset then some (some (n, .closed_locally))
    else some (some (n, if a = .ready then .ok else .error))

/-- `__aexit__`: `finish`, without the error of a stream that has ended already,
or `reset`, without any. -/
def aexit_native (n : Native) (ok : Bool) (a : Answer) : Option (Option (Native × Result)) :=
  if ok then
    (close_native n { n with finished := true } a).map (·.map fun x =>
      (x.1, if x.2 = .closed_locally then .ok else x.2))
  else (close_native n { n with was_reset := true } a).map (·.map fun x => (x.1, .ok))

/-- The native `stopped`. -/
def stopped_native (n : Native) : Option (Option (Native × Result)) :=
  match n.peer_stop with
  | some c => some (some (n, .code (some c)))
  | none => if n.acked then some (some (n, .code none)) else some none

/-- A poll of a call that has the part: not possible, pending, or complete. -/
def perform (h : Handle) (op : Op) (a : Answer) : Option (Option (Native × Result)) :=
  if h.part then
    match op with
    | .write | .write_chunk | .wait_send_capacity => wait_native h.native a
    | .finish => close_native h.native { h.native with finished := true } a
    | .reset _ => close_native h.native { h.native with was_reset := true } a
    | .aexit ok => aexit_native h.native ok a
    -- the guard lives in the awaited future, so the part is kept while this is pending
    | .stopped => stopped_native h.native
  else
    match op with
    | .aexit _ => some (some (h.native, .ok))
    -- `taken()`: another call took the part out of the handle
    | _ => some (some (h.native, .closed_locally))

/-- What Python, the runtime and the peer do to the handle. -/
inductive Label where
  /-- Python makes a call. -/
  | call (op : Op)
  /-- The runtime polls the call's future. -/
  | poll (i : ℕ) (a : Answer)
  /-- The call is cancelled: its future is dropped. -/
  | cancel (i : ℕ)
  /-- `take_now`, by a call that consumes the part. -/
  | take
  /-- The peer sends STOP_SENDING. -/
  | peer_stop (code : ℕ)
  /-- The peer acknowledged all data of the finished stream. -/
  | ack
  deriving DecidableEq, Repr

/-- Whether a poll completes the call: the part is released in it. -/
def completes (h : Handle) (i : ℕ) (c : Call) (a : Answer) : Option (Native × Result) :=
  if Holds (ask h.lock i) i then (perform h c.op a).join else none

/-- A poll of the future of call `i`: it takes its place in the queue, and does its work if it
is the first. -/
def poll (h : Handle) (i : ℕ) (c : Call) (a : Answer) : Option Handle :=
  if c.result = none ∧ (Holds (ask h.lock i) i → perform h c.op a ≠ none) then
    match completes h i c a with
    | some (n, r) =>
      some { h with
        lock := leave (ask h.lock i) i
        native := n
        calls := h.calls.set i { c with result := some r } }
    | none => some { h with lock := ask h.lock i }
  else none

/-- One step of the handle. -/
def step (h : Handle) : Label → Option Handle
  | .call op => some { h with calls := h.calls ++ [{ op := op, result := none }] }
  | .poll i a => (h.calls[i]?).bind fun c => poll h i c a
  | .cancel i =>
    (h.calls[i]?).bind fun c =>
      if c.result = none then
        some { h with
          lock := leave h.lock i
          calls := h.calls.set i { c with result := some .cancelled } }
      else none
  -- `try_lock`, so it never waits
  | .take => if h.lock = [] ∧ h.part = true then some { h with part := false } else none
  | .peer_stop code =>
    if h.native.peer_stop = none then
      some { h with native := { h.native with peer_stop := some code } }
    else none
  | .ack =>
    -- all data of a stream is acknowledged only after its FIN
    if h.native.finished then some { h with native := { h.native with acked := true } } else none

/-! ## Who waits for whom -/

/-- The operation of call `i`. -/
def op_of (h : Handle) (i : ℕ) : Option Op := (h.calls[i]?).map (·.op)

/-- Call `i` is a `stopped`. -/
def is_stopped (h : Handle) (i : ℕ) : Bool :=
  match op_of h i with
  | some .stopped => true
  | _ => false

/-- A `finish`, `reset` or write. -/
def is_sender (h : Handle) (i : ℕ) : Bool :=
  match op_of h i with
  | some .write | some .write_chunk | some .finish | some (.reset _) => true
  | _ => false

/-- A `stopped` that has the part can resolve only through the peer. -/
def Unresolved (h : Handle) : Prop :=
  h.part = true ∧ h.native.peer_stop = none ∧ h.native.acked = false

/-- A finite check on the fields, as are the ones below: a run can be tested for them. -/
instance Unresolved.decidable (h : Handle) : Decidable (Unresolved h) :=
  inferInstanceAs (Decidable (_ ∧ _ ∧ _))

/-- A `stopped` is the first of the queue, and a sender is behind it. -/
def StopsSender (h : Handle) (q : List ℕ) : Prop :=
  q.head?.any (is_stopped h) = true ∧ ∃ k ∈ q.tail, is_sender h k = true

/-- The queue is finite. -/
instance StopsSender.decidable (h : Handle) (q : List ℕ) : Decidable (StopsSender h q) :=
  inferInstanceAs (Decidable (_ ∧ ∃ k ∈ q.tail, _))

/-- A `finish`, `reset` or write waits for the part, which a `stopped` has that
only the peer can resolve. -/
def Blocked (h : Handle) : Prop := Unresolved h ∧ StopsSender h h.lock

/-- Both parts can be computed. -/
instance Blocked.decidable (h : Handle) : Decidable (Blocked h) :=
  inferInstanceAs (Decidable (_ ∧ _))

/-- Whether a poll releases the part. -/
def releases (h : Handle) (i : ℕ) (a : Answer) : Bool :=
  (h.calls[i]?).any fun c => (completes h i c a).isSome

/-- **The race, as a condition on steps.** While only the peer can resolve a
`stopped`, no sender asks for the part behind one that has it, and the part is
not handed on to one with a sender behind it. -/
def Clear (h : Handle) : Label → Prop
  | .poll i a => Unresolved h →
      (is_sender h i = true → i ∉ h.lock → h.lock.head?.any (is_stopped h) = false)
      ∧ (releases h i a = true → ¬ StopsSender h h.lock.tail)
  | .cancel i => Unresolved h → Holds h.lock i → ¬ StopsSender h h.lock.tail
  | _ => True

/-- Only a poll and a cancellation have anything to check. -/
instance Clear.decidable (h : Handle) : ∀ l, Decidable (Clear h l)
  | .poll i a =>
    inferInstanceAs (Decidable (Unresolved h →
      (is_sender h i = true → i ∉ h.lock → h.lock.head?.any (is_stopped h) = false)
      ∧ (releases h i a = true → ¬ StopsSender h h.lock.tail)))
  | .cancel i =>
    inferInstanceAs (Decidable (Unresolved h → Holds h.lock i → ¬ StopsSender h h.lock.tail))
  | .call _ | .take | .peer_stop _ | .ack => .isTrue trivial

/-! ## The queue -/

/-- What is behind what is read off the operations of the calls, whatever else changed. -/
theorem stopsSender_congr {h h' : Handle} {q : List ℕ}
    (hop : ∀ i ∈ q, op_of h' i = op_of h i) : StopsSender h' q ↔ StopsSender h q := by
  cases q with
  | nil => simp [StopsSender]
  | cons j rest =>
      have hj : is_stopped h' j = is_stopped h j := by
        rw [is_stopped, is_stopped, hop j List.mem_cons_self]
      have hk : ∀ k ∈ rest, is_sender h' k = is_sender h k := by
        intro k hk
        rw [is_sender, is_sender, hop k (List.mem_cons_of_mem _ hk)]
      simp only [StopsSender, List.head?_cons, Option.any_some, List.tail_cons, hj]
      refine and_congr_right fun _ => exists_congr fun k => and_congr_right fun hkm => ?_
      rw [hk k hkm]

/-- Asking last makes a sender wait behind whoever is first. -/
theorem stopsSender_append {h : Handle} {q : List ℕ} {i : ℕ} :
    StopsSender h (q ++ [i]) ↔
      StopsSender h q ∨ q.head?.any (is_stopped h) = true ∧ is_sender h i = true := by
  cases q with
  | nil => simp [StopsSender]
  | cons j rest =>
      simp only [StopsSender, List.cons_append, List.head?_cons, Option.any_some, List.tail_cons,
        List.mem_append, List.mem_singleton, or_and_right, exists_or, exists_eq_left, and_or_left]

/-- Leaving from behind makes nobody wait. -/
theorem StopsSender.of_erase {h : Handle} {q : List ℕ} {i : ℕ} (hi : ¬ Holds q i)
    (hst : StopsSender h (q.erase i)) : StopsSender h q := by
  cases q with
  | nil => exact hst
  | cons j rest =>
      have hji : j ≠ i := fun hji => hi (by rw [Holds, List.head?_cons, hji])
      rw [List.erase_cons_tail (by simpa using hji)] at hst
      obtain ⟨hj, k, hk, hs⟩ := hst
      exact ⟨hj, k, List.mem_of_mem_erase hk, hs⟩

/-! ## What a step does to the queue -/

/-- Two states of the native stream that a `stopped` does not tell apart. -/
def SameStop (n n' : Native) : Prop := n'.peer_stop = n.peer_stop ∧ n'.acked = n.acked

/-- `finish` and `reset` change neither, if the state that they go to does not: that one
differs in `finished` or `was_reset`. -/
theorem close_native_same {n closed : Native} {a : Answer} {x : Native × Result}
    (h : close_native n closed a = some (some x)) (hc : SameStop n closed) :
    SameStop n x.1 := by
  cases a <;> simp only [close_native] at h <;> grind [SameStop]

/-- The waiting calls leave the native stream as it was. -/
theorem wait_native_same {n : Native} {a : Answer} {x : Native × Result}
    (h : wait_native n a = some (some x)) : SameStop n x.1 := by
  cases a <;> simp only [wait_native] at h <;> grind [SameStop]

/-- `__aexit__` does what `finish` or `reset` does. -/
theorem aexit_native_same {n : Native} {ok : Bool} {a : Answer} {x : Native × Result}
    (h : aexit_native n ok a = some (some x)) : SameStop n x.1 := by
  unfold aexit_native at h
  split at h <;>
    · obtain ⟨y, hy, hxy⟩ := Option.map_eq_some_iff.1 h
      obtain ⟨z, rfl, rfl⟩ := Option.map_eq_some_iff.1 hxy
      have hz : SameStop n z.1 := close_native_same hy ⟨rfl, rfl⟩
      exact hz

/-- No call changes what a `stopped` waits for. -/
theorem perform_same {h : Handle} {op : Op} {a : Answer} {x : Native × Result}
    (hp : perform h op a = some (some x)) : SameStop h.native x.1 := by
  unfold perform at hp
  split at hp
  · split at hp
    · exact wait_native_same hp
    · exact wait_native_same hp
    · exact wait_native_same hp
    · exact close_native_same hp ⟨rfl, rfl⟩
    · exact close_native_same hp ⟨rfl, rfl⟩
    · exact aexit_native_same hp
    · unfold stopped_native at hp
      grind [SameStop]
  · grind [SameStop]

/-- Whoever is in the queue is a call that has not completed. -/
structure Inv (h : Handle) : Prop where
  nodup : h.lock.Nodup
  pending : ∀ i ∈ h.lock, ∃ c, h.calls[i]? = some c ∧ c.result = none

/-- **What a poll does.** It takes a place in the queue, or it is the one of the first, and
completes: then the part is released and the call has its result. -/
theorem poll_cases {h h' : Handle} {i : ℕ} {c : Call} {a : Answer}
    (hp : poll h i c a = some h') :
    c.result = none ∧
      ((completes h i c a = none ∧ h' = { h with lock := ask h.lock i })
      ∨ ∃ n r, completes h i c a = some (n, r) ∧ Holds (ask h.lock i) i
        ∧ SameStop h.native n
        ∧ h' = { h with
            lock := leave (ask h.lock i) i
            native := n
            calls := h.calls.set i { c with result := some r } }) := by
  unfold poll at hp
  split at hp
  · rename_i hc
    refine ⟨hc.1, ?_⟩
    split at hp
    · rename_i n r hcomp
      cases hp
      have hcomp' := hcomp
      unfold completes at hcomp'
      split at hcomp'
      · rename_i hh
        rw [Option.join_eq_some_iff] at hcomp'
        exact .inr ⟨n, r, hcomp, hh, perform_same hcomp', rfl⟩
      · cases hcomp'
    · rename_i hcomp
      cases hp
      exact .inl ⟨hcomp, rfl⟩
  · cases hp

/-- A result does not change what a call is. -/
theorem op_of_set {h : Handle} {i : ℕ} {c : Call} (hc : h.calls[i]? = some c) {h' : Handle}
    {r : Option Result} (hcalls : h'.calls = h.calls.set i { c with result := r }) (j : ℕ) :
    op_of h' j = op_of h j := by
  unfold op_of
  rw [hcalls]
  by_cases hij : i = j
  · subst hij
    rw [getElem?_set_of_some hc, hc]
    rfl
  · rw [List.getElem?_set_ne hij]

/-- Who leaves the queue is the one whose call is over. The queue `q` is that before it leaves,
in which it may have just asked. -/
theorem Inv.settle {h h' : Handle} {i : ℕ} {c : Call} (hs : Inv h) {q : List ℕ} (hq : q.Nodup)
    (hsub : ∀ j ∈ q, j = i ∨ j ∈ h.lock) (hlock : h'.lock = leave q i)
    (hcalls : h'.calls = h.calls.set i c) : Inv h' := by
  refine ⟨hlock ▸ nodup_leave hq i, ?_⟩
  intro j hj
  rw [hlock, mem_leave hq] at hj
  rcases hsub j hj.2 with hji | hjl
  · exact absurd hji hj.1
  · obtain ⟨cj, hcj, hres⟩ := hs.pending j hjl
    exact ⟨cj, by rw [hcalls, List.getElem?_set_ne (Ne.symm hj.1)]; exact hcj, hres⟩

/-- A call joins the queue by its own poll, and leaves it with its result. -/
theorem step_inv {h h' : Handle} {l : Label} (hs : Inv h) (hstep : step h l = some h') :
    Inv h' := by
  cases l with
  | call op =>
      simp only [step, Option.some.injEq] at hstep
      subst hstep
      refine ⟨hs.nodup, fun i hi => ?_⟩
      obtain ⟨c, hc, hres⟩ := hs.pending i hi
      exact ⟨c, getElem?_concat_of_some hc, hres⟩
  | poll i a =>
      obtain ⟨c, hc, hp⟩ := Option.bind_eq_some_iff.1 hstep
      obtain ⟨hres, ⟨-, rfl⟩ | ⟨n, r, -, -, -, rfl⟩⟩ := poll_cases hp
      · refine ⟨nodup_ask hs.nodup i, fun j hj => ?_⟩
        rcases mem_ask.1 hj with hj | rfl
        · exact hs.pending j hj
        · exact ⟨c, hc, hres⟩
      · exact hs.settle (nodup_ask hs.nodup i) (fun j hj => (mem_ask.1 hj).symm) rfl rfl
  | cancel i =>
      obtain ⟨c, hc, hp⟩ := Option.bind_eq_some_iff.1 hstep
      split at hp
      · cases hp
        exact hs.settle hs.nodup (fun j hj => .inr hj) rfl rfl
      · cases hp
  | take | peer_stop _ | ack =>
      simp only [step, Option.ite_none_right_eq_some, Option.some.injEq] at hstep
      rw [← hstep.2]
      exact ⟨hs.nodup, hs.pending⟩

/-- Nobody has asked. -/
theorem init_inv : Inv init := ⟨List.nodup_nil, by simp [init]⟩

/-! ## When a sender gets stuck -/

/-- Only the peer, and the `take` of the part, settle a `stopped`. -/
theorem unresolved_congr {h h' : Handle} (hp : h'.part = h.part)
    (hn : SameStop h.native h'.native) : Unresolved h' ↔ Unresolved h := by
  rw [Unresolved, Unresolved, hp, hn.1, hn.2]

/-- A poll that does not complete gets someone stuck only by joining the queue, as a sender,
behind a `stopped`. -/
theorem poll_wait_blocked {h : Handle} {i : ℕ} {c : Call} {a : Answer} (hb : ¬ Blocked h)
    (hc : h.calls[i]? = some c) (hcomp : completes h i c a = none) :
    ¬ Blocked { h with lock := ask h.lock i } ↔ Clear h (.poll i a) := by
  have hrel : releases h i a = false := by simp [releases, hc, hcomp]
  have hbl : Blocked { h with lock := ask h.lock i } ↔
      Unresolved h ∧ StopsSender h (ask h.lock i) := Iff.rfl
  rw [hbl, not_and]
  -- a poll that waits changes the queue only by asking for a place at its end
  refine forall_congr' fun hu => ?_
  have hst : ¬ StopsSender h h.lock := fun hst => hb ⟨hu, hst⟩
  rw [hrel, and_iff_left (by simp)]
  by_cases hi : i ∈ h.lock
  · rw [ask_of_mem hi]
    exact iff_of_true hst fun _ hn => absurd hi hn
  · rw [ask_of_notMem hi, stopsSender_append, or_iff_right hst]
    simp only [hi, not_false_eq_true, true_imp_iff, not_and, Bool.not_eq_true]
    exact ⟨fun h hs => Bool.eq_false_iff.2 fun ht => by simp [h ht] at hs,
      fun h ht => Bool.eq_false_iff.2 fun hs => by simp [h hs] at ht⟩

/-- A poll that completes can do so only by what it leaves behind: the next of the queue gets
the part. -/
theorem poll_done_blocked {h h' : Handle} {i : ℕ} {c : Call} {a : Answer}
    (hc : h.calls[i]? = some c) {x : Native × Result} (hcomp : completes h i c a = some x)
    (hh : Holds (ask h.lock i) i) (hu' : Unresolved h' ↔ Unresolved h)
    (hop : ∀ j, op_of h' j = op_of h j) (hlock : h'.lock = leave (ask h.lock i) i) :
    ¬ Blocked h' ↔ Clear h (.poll i a) := by
  have hrel : releases h i a = true := by simp [releases, hc, hcomp]
  have hbl : Blocked h' ↔ Unresolved h ∧ StopsSender h (leave (ask h.lock i) i) := by
    rw [Blocked, hu', hlock, stopsSender_congr fun j _ => hop j]
  rw [hbl, not_and]
  refine forall_congr' fun hu => ?_
  -- the part goes to the next in the queue, in the same poll
  rw [forall_prop_of_true hrel, leave_of_holds hh]
  by_cases hi : i ∈ h.lock
  · rw [ask_of_mem hi]
    exact (and_iff_right fun _ hn => absurd hi hn).symm
  · -- the part was free, so nobody is left in the queue
    have hnil : h.lock = [] := eq_nil_of_holds_ask hi hh
    simp [ask, hnil, StopsSender]

/-- And so can a cancellation, if it is of the one who has the part. -/
theorem cancel_blocked {h h' : Handle} {i : ℕ} (hb : ¬ Blocked h)
    (hu' : Unresolved h' ↔ Unresolved h) (hop : ∀ j, op_of h' j = op_of h j)
    (hlock : h'.lock = leave h.lock i) : ¬ Blocked h' ↔ Clear h (.cancel i) := by
  have hbl : Blocked h' ↔ Unresolved h ∧ StopsSender h (leave h.lock i) := by
    rw [Blocked, hu', hlock, stopsSender_congr fun j _ => hop j]
  rw [hbl, not_and]
  refine forall_congr' fun hu => ?_
  by_cases hh : Holds h.lock i
  · rw [leave_of_holds hh]
    exact ⟨fun hn _ => hn, fun hn => hn hh⟩
  -- whoever leaves from behind leaves the holder as it was
  · refine iff_of_true (fun hst => hb ⟨hu, ?_⟩) fun hn => absurd hn hh
    exact StopsSender.of_erase hh hst

/-- **A step gets a sender stuck exactly when it is not clear.** -/
theorem step_blocked {h h' : Handle} {l : Label} (hs : Inv h) (hb : ¬ Blocked h)
    (hstep : step h l = some h') : ¬ Blocked h' ↔ Clear h l := by
  cases l with
  | call op =>
      simp only [step, Option.some.injEq] at hstep
      subst hstep
      refine iff_of_true (fun hbl => hb ⟨hbl.1, ?_⟩) trivial
      refine (stopsSender_congr fun i hi => ?_).1 hbl.2
      obtain ⟨c, hc, -⟩ := hs.pending i hi
      simp only [op_of, getElem?_concat_of_some hc, hc]
  | poll i a =>
      obtain ⟨c, hc, hp⟩ := Option.bind_eq_some_iff.1 hstep
      obtain ⟨-, ⟨hcomp, rfl⟩ | ⟨n, r, hcomp, hh, hn, rfl⟩⟩ := poll_cases hp
      · exact poll_wait_blocked hb hc hcomp
      · exact poll_done_blocked hc hcomp hh (unresolved_congr rfl hn) (op_of_set hc rfl) rfl
  | cancel i =>
      obtain ⟨c, hc, hp⟩ := Option.bind_eq_some_iff.1 hstep
      split at hp
      · cases hp
        exact cancel_blocked hb (unresolved_congr rfl ⟨rfl, rfl⟩) (op_of_set hc rfl) rfl
      · cases hp
  | take =>
      simp only [step, Option.ite_none_right_eq_some, Option.some.injEq] at hstep
      obtain ⟨-, rfl⟩ := hstep
      exact iff_of_true (fun hbl => by simpa using hbl.1.1) trivial
  | peer_stop code =>
      simp only [step, Option.ite_none_right_eq_some, Option.some.injEq] at hstep
      obtain ⟨-, rfl⟩ := hstep
      exact iff_of_true (fun hbl => by simpa using hbl.1.2.1) trivial
  | ack =>
      simp only [step, Option.ite_none_right_eq_some, Option.some.injEq] at hstep
      obtain ⟨-, rfl⟩ := hstep
      exact iff_of_true (fun hbl => by simpa using hbl.1.2.2) trivial

/-- A call has been completed, by a result or a cancellation. -/
def completed (h : Handle) (i : ℕ) : Bool := (h.calls[i]?).any (·.result.isSome)

/-- A `finish` or `reset` that has the part is done at once, well or not, -/
theorem close_native_ready (n closed : Native) :
    ∃ x, close_native n closed .ready = some (some x) := by
  simp only [close_native]
  split
  · exact ⟨_, rfl⟩
  · exact ⟨_, rfl⟩

/-- and so is `__aexit__`. -/
theorem aexit_native_ready (n : Native) (ok : Bool) :
    ∃ x, aexit_native n ok .ready = some (some x) := by
  unfold aexit_native
  split
  · obtain ⟨x, hx⟩ := close_native_ready n { n with finished := true }
    rw [hx]
    exact ⟨_, rfl⟩
  · obtain ⟨x, hx⟩ := close_native_ready n { n with was_reset := true }
    rw [hx]
    exact ⟨_, rfl⟩

/-- A `stopped` is done once the peer has stopped the stream or has everything. -/
theorem stopped_native_ready {h : Handle} (hp : h.part = true) (hu : ¬ Unresolved h) :
    ∃ x, stopped_native h.native = some (some x) := by
  unfold stopped_native
  split
  · exact ⟨_, rfl⟩
  · rename_i hps
    have hack : h.native.acked = true := by
      by_contra hack
      exact hu ⟨hp, hps, Bool.eq_false_iff.2 hack⟩
    exact ⟨_, if_pos hack⟩

/-- The calls that may wait for credit, with the part in their hands. -/
def Op.waits_for_credit : Op → Bool
  | .write | .write_chunk | .wait_send_capacity => true
  | _ => false

/-- Without the part in its handle every call is done at once, with `taken()` or without. -/
theorem perform_ready {h : Handle} {op : Op} (hw : op.waits_for_credit = false)
    (hst : op = .stopped → ¬ Unresolved h) : ∃ x, perform h op .ready = some (some x) := by
  by_cases hp : h.part = true
  · cases op with
    | write | write_chunk | wait_send_capacity => cases hw
    | finish =>
        simp only [perform, if_pos hp]
        exact close_native_ready _ _
    | reset code =>
        simp only [perform, if_pos hp]
        exact close_native_ready _ _
    | aexit ok =>
        simp only [perform, if_pos hp]
        exact aexit_native_ready _ ok
    | stopped =>
        simp only [perform, if_pos hp]
        exact stopped_native_ready hp (hst rfl)
  · cases op <;> simp [perform, hp]

/-- Whoever has the part and does not wait for credit completes in the next poll,
unless it is a `stopped` that only the peer can resolve. -/
theorem holder_completes {h : Handle} {i : ℕ} {op : Op} (hs : Inv h) (hh : Holds h.lock i)
    (hop : op_of h i = some op) (hw : op.waits_for_credit = false)
    (hst : op = .stopped → ¬ Unresolved h) :
    ∃ h', step h (.poll i .ready) = some h' ∧ completed h' i = true := by
  have hi : i ∈ h.lock := List.mem_of_mem_head? hh
  obtain ⟨c, hc, hres⟩ := hs.pending i hi
  have hlt : i < h.calls.length := (List.getElem?_eq_some_iff.1 hc).1
  have hcop : c.op = op := by simpa [op_of, hc] using hop
  obtain ⟨x, hx⟩ := perform_ready hw hst
  rw [← hcop] at hx
  have hh' : Holds (ask h.lock i) i := by rwa [ask_of_mem hi]
  have hcomp : completes h i c .ready = some x := by
    rw [completes, if_pos hh', hx, Option.join_some]
  refine ⟨{ h with
    lock := leave (ask h.lock i) i
    native := x.1
    calls := h.calls.set i { c with result := some x.2 } }, ?_, ?_⟩
  · simp only [step, hc, Option.bind_some, poll]
    rw [if_pos ⟨hres, fun _ => by simp [hx]⟩, hcomp]
  · simp [completed, hlt]

/-! ## The contract -/

/-- **When senders proceed.** In a run, no state on the way has a `finish`,
`reset` or write waiting for the part of a `stopped` that only the peer can
resolve exactly if every step was clear; and then, while a sender waits, whoever
has the part waits for credit or completes in its next poll. -/
theorem senders_proceed_iff {ls : List Label} {h : Handle} (hrun : run step init ls = some h) :
    ((∀ u, Visits step init ls u → ¬ Blocked u) ↔ Meets step Clear init ls)
    ∧ (Meets step Clear init ls → ∀ i k, Holds h.lock i → Waits h.lock k → is_sender h k = true →
        (op_of h i).any Op.waits_for_credit = true
        ∨ ∃ h', step h (.poll i .ready) = some h' ∧ completed h' i = true) := by
  have hiff := visits_iff step (fun _ _ _ => step_inv) (fun _ _ _ => step_blocked) init_inv
    (by decide) hrun
  refine ⟨hiff, ?_⟩
  intro hm i k hi hk hks
  have hb : ¬ Blocked h := hiff.2 hm h ⟨ls, [], (List.append_nil ls).symm, hrun⟩
  have hs : Inv h := run_inv step (fun _ _ _ => step_inv) init_inv hrun
  obtain ⟨c, hc, -⟩ := hs.pending i (List.mem_of_mem_head? hi)
  have hop : op_of h i = some c.op := by simp [op_of, hc]
  cases hw : c.op.waits_for_credit with
  | true => exact .inl (by rw [hop]; exact hw)
  | false =>
      refine .inr (holder_completes hs hi hop hw fun hst hu => hb ⟨hu, ?_, k, hk, hks⟩)
      rw [show h.lock.head? = some i from hi]
      simp [is_stopped, hop, hst]

/-- A `stopped` behind a pending write, cancelled before the write is done, and a
`finish` behind both. -/
def cancelled_stopped : List Label :=
  [.call .write, .call .stopped, .call .finish, .poll 0 .pending, .poll 1 .pending,
    .poll 2 .pending, .cancel 1, .poll 0 .ready]

/-- The hypothesis can be met: the `stopped` leaves in time, and the `finish` has the part in
the end. -/
theorem senders_proceed_iff_cancelled_stopped :
    ∃ h, run step init cancelled_stopped = some h
      ∧ (∀ u, Visits step init cancelled_stopped u → ¬ Blocked u) ∧ Holds h.lock 2 :=
  ⟨_, rfl, (@senders_proceed_iff cancelled_stopped _ rfl).1.2 (by decide), by decide⟩

/-! ### The circular wait -/

/-- A `stopped` has the part of a stream that nobody finished. -/
structure Circular (i : ℕ) (h : Handle) : Prop where
  holds : Holds h.lock i
  op : op_of h i = some .stopped
  unresolved : Unresolved h
  unfinished : h.native.finished = false

/-- Nobody but the peer and a cancellation of the `stopped` can end it. -/
theorem circular_step {i : ℕ} {h h' : Handle} {l : Label}
    (hl : l ≠ .cancel i ∧ ∀ code, l ≠ .peer_stop code) (hc : Circular i h)
    (hstep : step h l = some h') : Circular i h' := by
  obtain ⟨hh, hop, hu, hf⟩ := hc
  cases l with
  | call op =>
      simp only [step, Option.some.injEq] at hstep
      subst hstep
      refine ⟨hh, ?_, hu, hf⟩
      obtain ⟨c, hci, -⟩ := Option.map_eq_some_iff.1 hop
      rw [← hop]
      simp only [op_of, getElem?_concat_of_some hci, hci]
  | poll j a =>
      obtain ⟨c, hcj, hp⟩ := Option.bind_eq_some_iff.1 hstep
      obtain ⟨-, ⟨-, rfl⟩ | ⟨n, r, hcomp, hj, -, -⟩⟩ := poll_cases hp
      · exact ⟨hh.ask j, hop, hu, hf⟩
      · -- only the holder can complete, and it is a `stopped` that is pending
        exfalso
        have hji : i = j := Option.some.inj ((hh.ask j).symm.trans hj)
        subst hji
        have hcop : c.op = .stopped := by simpa [op_of, hcj] using hop
        simp [completes, hj, perform, hcop, hu.1, stopped_native, hu.2.1, hu.2.2] at hcomp
  | cancel j =>
      obtain ⟨c, hcj, hp⟩ := Option.bind_eq_some_iff.1 hstep
      split at hp
      · cases hp
        have hji : j ≠ i := fun hji => hl.1 (hji ▸ rfl)
        exact ⟨hh.leave_ne hji, (op_of_set hcj rfl i).trans hop, hu, hf⟩
      · cases hp
  | take =>
      simp only [step, Option.ite_none_right_eq_some] at hstep
      rw [Holds, hstep.1.1] at hh
      cases hh
  | peer_stop code => exact absurd rfl (hl.2 code)
  | ack => simp [step, hf] at hstep

/-- A `stopped` that waits, and then a `finish`. -/
def stopped_then_finish : List Label :=
  [.call .stopped, .poll 0 .pending, .call .finish, .poll 1 .ready]

/-- **The circular wait.** `stopped()` and then `finish()`: the `finish` waits for
the part, and in no continuation without the peer's STOP_SENDING or a
cancellation of the `stopped` is the stream ever finished, let alone all of it
acknowledged. -/
theorem stopped_keeps_finish_waiting :
    ∃ h, run step init stopped_then_finish = some h
      ∧ Blocked h
      ∧ ∀ ls' h', (∀ l ∈ ls', l ≠ .cancel 0 ∧ ∀ code, l ≠ .peer_stop code) →
        run step h ls' = some h' → h'.native.finished = false ∧ completed h' 0 = false := by
  refine ⟨_, rfl, by decide, ?_⟩
  intro ls' h' hls hrun
  have hstep : ∀ (s : Handle) (l : Label) s', (Inv s ∧ Circular 0 s) →
      (l ≠ .cancel 0 ∧ ∀ code, l ≠ .peer_stop code) → step s l = some s' →
      Inv s' ∧ Circular 0 s' :=
    fun _ _ _ hs hl hstep => ⟨step_inv hs.1 hstep, circular_step hl hs.2 hstep⟩
  have hinit := @run_inv _ _ step _ (fun _ _ _ => step_inv) _ _ stopped_then_finish init_inv rfl
  obtain ⟨hs, hc⟩ : Inv h' ∧ Circular 0 h' := by
    refine meets_inv step hstep ⟨hinit, ?_⟩ (meets_of_forall step hls _) hrun
    exact ⟨rfl, rfl, by decide, rfl⟩
  obtain ⟨c, hc0, hres⟩ := hs.pending 0 (List.mem_of_mem_head? hc.holds)
  exact ⟨hc.unfinished, by simp [completed, hc0, hres]⟩

end ZmuxPy.SendPart
