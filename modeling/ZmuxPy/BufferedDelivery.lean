/-
How a `_CarrierTransport` hands a chunk to a `BufferedProtocol`: the loop `while view:`
of `_deliver` (`python/zmux/_layer.py`).

Each turn asks the protocol for a buffer, copies as much as fits, and reports it. The
protocol chooses the size of the buffer, and every call of it may raise; `deliver` is the
loop under the turns that the protocol has played so far. It has ended once it is not
`running` any more. Nothing in the code asks for progress: a buffer of no bytes is a turn
like any other, and the loop goes on with the same view.

The last sections connect the loop to the transport, whose read loop takes the same
turns, one step of the transport for each answer of the protocol and with the protocol's
calls of the transport in between.
-/
import Mathlib.Algebra.GroupWithZero.Nat
import ZmuxPy.TransportReading

set_option autoImplicit false

namespace ZmuxPy.BufferedDelivery

open Asyncio CarrierTransport Machine

/-! ## The loop -/

/-- One turn of the loop, as the protocol plays it. -/
inductive Turn where
  /-- `get_buffer` raises, or returns what takes no bytes: it is no buffer, or a read-only
  one, or not one of bytes. -/
  | fails (r : Raised)
  /-- `get_buffer` returns a buffer of `size` bytes, and `buffer_updated` returns or
  raises. -/
  | takes (size : ℕ) (updated : Except Raised Unit)
  deriving Repr

/-- How the loop stands after the turns played so far. -/
inductive Outcome where
  /-- The loop is about to ask for a buffer, for `view`. -/
  | running (view : Bytes)
  | returned
  | raised (r : Raised)
  deriving DecidableEq, Repr

/-- What the loop has done: the pieces it copied, and how it stands. -/
structure Delivery where
  /-- What was copied before each `buffer_updated`. -/
  copied : List Bytes
  outcome : Outcome
  deriving DecidableEq, Repr

/-- One piece was copied before. -/
def Delivery.after (d : Delivery) (c : Bytes) : Delivery := { d with copied := c :: d.copied }

/-- `while view:` of `_deliver`, under the protocol's turns. -/
def deliver (view : Bytes) (turns : List Turn) : Delivery :=
  if view = [] then ⟨[], .returned⟩
  else
    match turns with
    | [] => ⟨[], .running view⟩
    | .fails r :: _ => ⟨[], .raised r⟩
    | .takes size updated :: turns =>
      let n := min size view.length
      match updated with
      | .error r => ⟨[view.take n], .raised r⟩
      | .ok () => (deliver (view.drop n) turns).after (view.take n)

/-- The loop has neither returned nor raised. -/
def Outcome.is_running : Outcome → Bool
  | .running _ => true
  | _ => false

/-- The exception of a turn. -/
def Turn.raises : Turn → Option Raised
  | .fails r | .takes _ (.error r) => some r
  | .takes _ (.ok ()) => none

/-- The size of the buffer that a turn offers. -/
def Turn.size : Turn → ℕ
  | .fails _ => 0
  | .takes size _ => size

/-- An empty view ends the loop without another call of the protocol. -/
theorem deliver_nil (turns : List Turn) : deliver [] turns = ⟨[], .returned⟩ := by
  rw [deliver.eq_def, if_pos rfl]

/-- With something left, the loop waits for the protocol's next turn. -/
theorem deliver_waits {view : Bytes} (hv : view ≠ []) : deliver view [] = ⟨[], .running view⟩ := by
  rw [deliver, if_neg hv]

/-- A turn that raises nothing copies as much as fits, and the loop goes on with the rest. A
buffer of size zero copies nothing and leaves the whole view. -/
theorem deliver_takes {view : Bytes} (hv : view ≠ []) (size : ℕ) (turns : List Turn) :
    deliver view (.takes size (.ok ()) :: turns)
      = (deliver (view.drop size) turns).after (view.take size) := by
  rw [deliver, if_neg hv]
  dsimp only
  rw [← List.take_eq_take_min, ← List.drop_eq_drop_min]

/-! ## What is copied, and when the loop ends -/

/-- What was copied is the front of the chunk; all of it, if the loop returned. -/
theorem deliver_copies (view : Bytes) (turns : List Turn) :
    ∃ rest, view = (deliver view turns).copied.flatten ++ rest
      ∧ ((deliver view turns).outcome = .returned → rest = [])
      ∧ ∀ v, (deliver view turns).outcome = .running v → v = rest := by
  fun_induction deliver view turns with
  | case1 => exact ⟨[], rfl, fun _ => rfl, nofun⟩
  | case2 view => exact ⟨view, rfl, nofun, fun v h => (Outcome.running.inj h).symm⟩
  | case3 view => exact ⟨view, rfl, nofun, nofun⟩
  | case4 view hv size turns n r =>
      refine ⟨view.drop n, ?_, nofun, nofun⟩
      simp [List.take_append_drop]
  | case5 view hv size turns n ih =>
      obtain ⟨rest, hsplit, hret, hrun⟩ := ih
      refine ⟨rest, ?_, hret, hrun⟩
      rw [Delivery.after, List.flatten_cons, List.append_assoc, ← hsplit, List.take_append_drop]

/-- However it ends, what was copied is a beginning of the chunk, in order. -/
theorem copied_prefix (view : Bytes) (turns : List Turn) :
    (deliver view turns).copied.flatten <+: view := by
  obtain ⟨rest, hsplit, -⟩ := deliver_copies view turns
  exact ⟨rest, hsplit.symm⟩

/-- A loop that returned has copied all of it. -/
theorem copied_of_returned {view : Bytes} {turns : List Turn}
    (h : (deliver view turns).outcome = .returned) :
    (deliver view turns).copied.flatten = view := by
  obtain ⟨rest, hsplit, hret, -⟩ := deliver_copies view turns
  rw [hret h, List.append_nil] at hsplit
  exact hsplit.symm

/-- **The loop goes on exactly as long as no turn raises and the buffers together are
smaller than the chunk.** -/
theorem running_iff (view : Bytes) (turns : List Turn) :
    (deliver view turns).outcome.is_running = true
      ↔ (∀ t ∈ turns, t.raises = none) ∧ (turns.map Turn.size).sum < view.length := by
  fun_induction deliver view turns with
  | case1 => simp [Outcome.is_running]
  | case2 view hv =>
      have hlen : 0 < view.length := List.length_pos_iff.2 hv
      simp [Outcome.is_running, hlen]
  | case3 | case4 => simp [Outcome.is_running, Turn.raises]
  | case5 view hv size turns n ih =>
      have hn : n = min size view.length := rfl
      rw [Delivery.after, ih, List.forall_mem_cons, List.map_cons, List.sum_cons, List.length_drop,
        Turn.raises, Turn.size]
      constructor
      · rintro ⟨hall, hlt⟩
        exact ⟨⟨rfl, hall⟩, by omega⟩
      · rintro ⟨⟨-, hall⟩, hlt⟩
        exact ⟨hall, by omega⟩

/-- A loop that raised was raised in by a turn. -/
theorem raises_of_raised {view : Bytes} {turns : List Turn} {r : Raised}
    (h : (deliver view turns).outcome = .raised r) : ∃ t ∈ turns, t.raises = some r := by
  fun_induction deliver view turns with
  | case1 | case2 => cases h
  | case3 view hv r' turns =>
      cases h
      exact ⟨_, List.mem_cons_self, rfl⟩
  | case4 view hv size turns n r' =>
      cases h
      exact ⟨_, List.mem_cons_self, rfl⟩
  | case5 view hv size turns n ih =>
      obtain ⟨t, ht, hr⟩ := ih h
      exact ⟨t, List.mem_cons_of_mem _ ht, hr⟩

/-- One more turn of a loop that is still running. -/
theorem deliver_snoc {view v : Bytes} {turns : List Turn}
    (h : (deliver view turns).outcome = .running v) (size : ℕ) :
    deliver view (turns ++ [.takes size (.ok ())])
      = ⟨(deliver view turns).copied ++ [v.take size],
          if v.drop size = [] then .returned else .running (v.drop size)⟩ := by
  fun_induction deliver view turns with
  | case1 | case3 | case4 => cases h
  | case2 view hv =>
      obtain rfl := Outcome.running.inj h
      rw [List.nil_append, deliver_takes hv]
      by_cases hd : view.drop size = []
      · rw [hd, deliver_nil, if_pos rfl]
        rfl
      · rw [deliver_waits hd, if_neg hd]
        rfl
  | case5 view hv size' turns n ih =>
      rw [List.cons_append, deliver, if_neg hv]
      dsimp only
      rw [ih h]
      rfl

/-! ## Sequences of turns -/

/-- The first `k` turns of a protocol. -/
def first (proto : ℕ → Turn) (k : ℕ) : List Turn := (List.range k).map proto

/-- The bytes that its first `k` buffers take. -/
def room (proto : ℕ → Turn) (k : ℕ) : ℕ := ((first proto k).map Turn.size).sum

/-- The loop ends after finitely many turns. -/
def Ends (data : Bytes) (proto : ℕ → Turn) : Prop :=
  ∃ k, (deliver data (first proto k)).outcome.is_running = false

/-- The turns played so far are the protocol's. -/
theorem mem_first {proto : ℕ → Turn} {k : ℕ} {t : Turn} :
    t ∈ first proto k ↔ ∃ i < k, proto i = t := by
  simp [first]

/-- One turn more. -/
theorem first_succ (proto : ℕ → Turn) (k : ℕ) :
    first proto (k + 1) = first proto k ++ [proto k] := by
  rw [first, List.range_succ, List.map_append]
  rfl

/-- It offers its buffer in addition. -/
theorem room_succ (proto : ℕ → Turn) (k : ℕ) :
    room proto (k + 1) = room proto k + (proto k).size := by
  rw [room, first_succ, List.map_append, List.sum_append, List.map_cons, List.map_nil,
    List.sum_singleton]
  rfl

/-- **The loop ends exactly if some turn raises or the buffers together take the chunk.** A
protocol that offers empty buffers for ever does neither. -/
theorem ends_iff (data : Bytes) (proto : ℕ → Turn) :
    Ends data proto ↔ ∃ k, (proto k).raises ≠ none ∨ data.length ≤ room proto k := by
  have hended : ∀ k, (deliver data (first proto k)).outcome.is_running = false
      ↔ (∃ i < k, (proto i).raises ≠ none) ∨ data.length ≤ room proto k := by
    intro k
    rw [← Bool.not_eq_true, running_iff, not_and_or, Nat.not_lt]
    simp [mem_first, room]
  constructor
  · rintro ⟨k, hk⟩
    rcases (hended k).1 hk with ⟨i, -, hi⟩ | hroom
    · exact ⟨i, .inl hi⟩
    · exact ⟨k, .inr hroom⟩
  · rintro ⟨k, hraises | hroom⟩
    · exact ⟨k + 1, (hended _).2 (.inl ⟨k, by omega, hraises⟩)⟩
    · exact ⟨k, (hended _).2 (.inr hroom)⟩

/-- Buffers of at least one byte each. -/
theorem le_room {proto : ℕ → Turn} (h : ∀ i, 0 < (proto i).size) (k : ℕ) : k ≤ room proto k := by
  induction k with
  | zero => exact Nat.zero_le _
  | succ k ih =>
      have hk := h k
      rw [room_succ]
      omega

/-- What is raised is raised by one of the turns played. -/
theorem raised_by_turn {data : Bytes} {proto : ℕ → Turn} {k : ℕ} {r : Raised}
    (h : (deliver data (first proto k)).outcome = .raised r) :
    ∃ i < k, (proto i).raises = some r := by
  obtain ⟨t, ht, hr⟩ := raises_of_raised h
  obtain ⟨i, hi, rfl⟩ := mem_first.1 ht
  exact ⟨i, hi, hr⟩

/-- A protocol that makes progress in every turn needs at most one for each byte. -/
theorem returned_within_length (data : Bytes) {proto : ℕ → Turn}
    (h : ∀ i, (proto i).raises = none ∧ 0 < (proto i).size) :
    (deliver data (first proto data.length)).outcome = .returned := by
  cases hcase : (deliver data (first proto data.length)).outcome with
  | returned => rfl
  | raised r =>
      obtain ⟨i, -, hr⟩ := raised_by_turn hcase
      rw [(h i).1] at hr
      cases hr
  | running v =>
      have hrun := (running_iff data (first proto data.length)).1 (by rw [hcase]; rfl)
      have hroom := le_room (fun i => (h i).2) data.length
      exact absurd hrun.2 (Nat.not_lt.2 hroom)

/-- **A chunk is handed over completely, if the loop ends.** It ends exactly if a call of
the protocol raises, or the buffers make room for the whole chunk at some point. Where it
has ended without an exception, what was copied is the chunk; an exception is one of the
protocol's, and what was copied before it is the front of the chunk. With buffers of at
least one byte, and without exceptions, it ends within as many turns as the chunk has
bytes. -/
theorem delivery_ends_iff (data : Bytes) (proto : ℕ → Turn) :
    (Ends data proto ↔ ∃ k, (proto k).raises ≠ none ∨ data.length ≤ room proto k)
    ∧ (∀ k, (deliver data (first proto k)).outcome = .returned →
        (deliver data (first proto k)).copied.flatten = data)
    ∧ (∀ k r, (deliver data (first proto k)).outcome = .raised r →
        (∃ i < k, (proto i).raises = some r)
          ∧ (deliver data (first proto k)).copied.flatten <+: data)
    ∧ ((∀ i, (proto i).raises = none ∧ 0 < (proto i).size) →
        (deliver data (first proto data.length)).outcome = .returned
          ∧ (deliver data (first proto data.length)).copied.flatten = data) := by
  refine ⟨ends_iff data proto, ?_, ?_, ?_⟩
  · intro k h
    exact copied_of_returned h
  · intro k r h
    exact ⟨raised_by_turn h, copied_prefix data _⟩
  · intro hproto
    have hret := returned_within_length data hproto
    exact ⟨hret, copied_of_returned hret⟩

/-- Buffers of two bytes, of none and of ten, for three bytes. -/
def two_none_ten : ℕ → Turn
  | 0 => .takes 2 (.ok ())
  | 1 => .takes 0 (.ok ())
  | _ => .takes 10 (.ok ())

theorem delivery_ends_iff_two_none_ten :
    Ends [1, 2, 3] two_none_ten
      ∧ (deliver [1, 2, 3] (first two_none_ten 3)).outcome = .returned
      ∧ (deliver [1, 2, 3] (first two_none_ten 3)).copied = [[1, 2], [], [3]]
      ∧ (deliver [1, 2, 3] (first two_none_ten 3)).copied.flatten = [1, 2, 3] := by
  have h := delivery_ends_iff [1, 2, 3] two_none_ten
  exact ⟨h.1.2 ⟨3, .inr (by decide)⟩, by decide, by decide, h.2.1 3 (by decide)⟩

/-- A protocol whose `get_buffer` returns an empty buffer every time. -/
def empty_buffers : ℕ → Turn := fun _ => .takes 0 (.ok ())

/-- After any number of turns the loop asks again for the same view. -/
theorem deliver_empty_buffers {view : Bytes} (hv : view ≠ []) (k : ℕ) :
    deliver view (first empty_buffers k) = ⟨List.replicate k [], .running view⟩ := by
  induction k with
  | zero => exact deliver_waits hv
  | succ k ih =>
      have hrun : (deliver view (first empty_buffers k)).outcome = .running view := by rw [ih]
      rw [first_succ, empty_buffers, deliver_snoc hrun, List.drop_zero, if_neg hv, ih,
        List.replicate_succ']
      rfl

theorem empty_buffers_spin :
    ¬ Ends [1] empty_buffers
      ∧ deliver [1] (first empty_buffers 2) = ⟨[[], []], .running [1]⟩ := by
  refine ⟨?_, deliver_empty_buffers (by decide) 2⟩
  rintro ⟨k, hk⟩
  rw [deliver_empty_buffers (by decide)] at hk
  cases hk

end ZmuxPy.BufferedDelivery

namespace ZmuxPy.CarrierTransport

open Asyncio BufferedDelivery Machine

/-! ## The transport in a delivery -/

/-- In the loop `while view:` of `_deliver`. -/
def Reader.delivering : Reader → Bool
  | .get_buffer _ | .buffer_updated _ => true
  | _ => false

/-- The size of the buffer that `get_buffer` returned. -/
def Label.size : Label → Option ℕ
  | .returns (.size n) => some n
  | _ => none

/-- In the middle of a delivery the loop is in a call of the protocol. -/
theorem Reader.in_call_of_delivering {r : Reader} (h : r.delivering = true) :
    r.in_call = true := by
  cases r with
  | get_buffer _ | buffer_updated _ => rfl
  | unborn | start | wait _ | read _ | data_received | eof_received | ended _ => cases h

/-- What the step of a transport does in a delivery. -/
inductive DeliveryStep (t : Transport) : Label → Transport → Prop where
  | aside {l : Label} {t' : Transport} (hl : l.size = none) (hr : t'.reader = t.reader)
      (hd : delivered t'.log = delivered t.log) : DeliveryStep t l t'
  | copied {v : Bytes} {n : ℕ} {t' : Transport} (hv : t.reader = .get_buffer v)
      (hr : t'.reader = .buffer_updated (v.drop n))
      (hd : delivered t'.log = delivered t.log ++ [v.take n]) :
      DeliveryStep t (.returns (.size n)) t'
  | asked {v : Bytes} {t' : Transport} (hv : t.reader = .buffer_updated v) (hne : v ≠ [])
      (hr : t'.reader = .get_buffer v) (hd : delivered t'.log = delivered t.log) :
      DeliveryStep t (.returns .none) t'
  | returned {t' : Transport} (hv : t.reader = .buffer_updated [])
      (hr : t'.reader.delivering = false) (hd : delivered t'.log = delivered t.log) :
      DeliveryStep t (.returns .none) t'
  | raised {r : Raised} {e : Ended} {t' : Transport} (hr : t'.reader = .ended e)
      (hd : delivered t'.log = delivered t.log) : DeliveryStep t (.raises r) t'

/-- Only the read loop's own calls deliver. -/
theorem delivered_of_reader_log {t t' : Transport} (h : reader_log t'.log = reader_log t.log) :
    delivered t'.log = delivered t.log := by
  rw [← delivered_reader_log, h, delivered_reader_log]

/-- Whoever else acts in between does not disturb the delivery; -/
theorem SameReader.delivery {t t' : Transport} {l : Label} (h : SameReader t t')
    (hl : l.size = none) : DeliveryStep t l t' :=
  .aside hl h.reader (delivered_of_reader_log h.log)

/-- A cancellation waits for the next await, and so for the end of the delivery. -/
theorem CancelsReader.delivery {t t' : Transport} {l : Label} (h : CancelsReader t t')
    (ht : t.reader.delivering = true) (hl : l.size = none) : DeliveryStep t l t' := by
  refine .aside hl ?_ (delivered_of_reader_log h.log)
  have hreader : t'.reader = (read_loop t).cancel.reader := congrArg ReadLoop.reader h.loop
  rw [hreader]
  unfold ReadLoop.cancel read_loop
  cases hr : t.reader with
  | get_buffer _ | buffer_updated _ => rfl
  | unborn | start | wait _ | read _ | data_received | eof_received | ended _ =>
      simp [hr, Reader.delivering] at ht

/-- not even `_lose`, which does not stop a loop that is in a callback. -/
theorem lose_delivery {t u : Transport} (ht : t.reader.delivering = true) (hs : SameReader t u)
    (cur : Option Side) (exc : Option Exc) {l : Label} (hl : l.size = none) :
    DeliveryStep t l (lose u cur exc) := by
  rcases lose_reader u cur exc with ⟨-, h⟩ | h
  · exact (hs.trans h).delivery hl
  · exact (hs.trans_cancels h).delivery ht hl

/-- So the protocol may call what it likes from inside its methods. -/
theorem call_delivery {t : Transport} (ht : t.reader.delivering = true) (c : Call) :
    DeliveryStep t (.call c) (call t c) := by
  cases c with
  | write data => exact (write_reader t data).delivery rfl
  | close =>
      have hset : SameReader t (set_wake { t with closing := true }) := ⟨rfl, rfl⟩
      unfold call close
      dsimp only
      split
      · exact (SameReader.refl t).delivery rfl
      · split
        · exact lose_delivery ht hset _ _ rfl
        · exact hset.delivery rfl
  | abort => exact lose_delivery ht (.refl t) _ _ rfl
  | resume_reading =>
      refine .aside rfl ?_ rfl
      unfold call set_reading
      dsimp only
      split
      · rename_i hr
        rw [hr] at ht
        cases ht
      · rfl
  | pause_reading | write_eof | set_protocol _ | set_write_buffer_limits _ _ =>
      exact .aside rfl rfl rfl

/-- Its answer is the next turn. -/
theorem returns_delivery {t t' : Transport} {a : Answer} (ht : t.reader.delivering = true)
    (h : returns t a = some t') : DeliveryStep t (.returns a) t' := by
  unfold returns at h
  split at h
  · rename_i hr
    rw [hr] at ht
    cases ht
  · rename_i v n hr
    cases h
    exact .copied hr rfl (delivered_append _ _)
  · rename_i v hr
    cases h
    unfold deliver_view
    split
    · rename_i hv
      subst hv
      refine .returned hr ?_ ?_ <;> unfold reader_top <;> split
      · rfl
      · rfl
      · exact (delivered_append _ _).trans (List.append_nil _)
      · rfl
    · rename_i hv
      exact .asked hr hv rfl rfl
  · rename_i hr
    rw [hr] at ht
    cases ht
  · cases h
    exact (writer_top_reader t).delivery rfl
  · cases h

/-- An exception of it ends the delivery. -/
theorem raises_delivery {t t' : Transport} {r : Raised} (ht : t.reader.delivering = true)
    (h : raises t r = some t') : DeliveryStep t (.raises r) t' := by
  have hcur : current t = some .reader := current_eq_reader.2 (Reader.in_call_of_delivering ht)
  rw [raises, hcur, Option.some.injEq] at h
  subst h
  cases r with
  | cancelled_error => exact .raised rfl rfl
  | exc e =>
      unfold reader_raised
      dsimp only
      split
      · exact .raised rfl (delivered_of_reader_log (lose_reading t _ _).2)
      · exact .raised rfl rfl

/-- **A step of the transport in the middle of a delivery is a turn of the loop, or leaves it
where it is.** -/
theorem step_delivery {t t' : Transport} {l : Label} (ht : t.reader.delivering = true)
    (h : step t l = some t') : DeliveryStep t l t' := by
  cases step_cases h with
  | call c => exact call_delivery ht c
  | returns h => exact returns_delivery ht h
  | raises h => exact raises_delivery ht h
  | cancel_reader => exact (cancel_reader_cancels t).delivery ht rfl
  | cancel_writer => exact (cancel_writer_reader t).delivery rfl
  | from_loop hcur =>
      rw [current_eq_reader.2 (Reader.in_call_of_delivering ht)] at hcur
      cases hcur

/-! ## Runs of a delivery -/

/-- The transport, stopped once the delivery is over. -/
def delivery_step (t : Transport) (l : Label) : Option Transport :=
  if t.reader.delivering then step t l else none

/-- The turns that the protocol has played. -/
def played (ls : List Label) : List Turn := (ls.filterMap Label.size).map fun n => .takes n (.ok ())

/-- Where the read loop is, when the loop of `_deliver` is at `d`. -/
inductive DeliveryAt (d : Delivery) (ls : List Label) : Reader → Prop where
  | asks {v : Bytes} (h : d.outcome = .running v) : DeliveryAt d ls (.get_buffer v)
  | tells {v : Bytes} (hne : v ≠ []) (h : d.outcome = .running v) :
      DeliveryAt d ls (.buffer_updated v)
  | tells_last (h : d.outcome = .returned) : DeliveryAt d ls (.buffer_updated [])
  | returned {r : Reader} (hr : r.delivering = false) (h : d.outcome = .returned) :
      DeliveryAt d ls r
  | raised {e : Ended} {r : Raised} (hr : .raises r ∈ ls) : DeliveryAt d ls (.ended e)

/-- Where the delivery is does not depend on what else happened. -/
theorem DeliveryAt.snoc {d : Delivery} {ls : List Label} {r : Reader} (h : DeliveryAt d ls r)
    (l : Label) : DeliveryAt d (ls ++ [l]) r := by
  cases h with
  | asks h => exact .asks h
  | tells hne h => exact .tells hne h
  | tells_last h => exact .tells_last h
  | returned hr h => exact .returned hr h
  | raised hr => exact .raised (List.mem_append_left _ hr)

/-- A step that is no answer is no turn, -/
theorem played_snoc {ls : List Label} {l : Label} (h : l.size = none) :
    played (ls ++ [l]) = played ls := by
  simp [played, h]

/-- and an answer with a buffer is one. -/
theorem played_snoc_size (ls : List Label) (n : ℕ) :
    played (ls ++ [.returns (.size n)]) = played ls ++ [.takes n (.ok ())] := by
  simp [played, Label.size]

/-- What the transport gave to the protocol since `t`, and where it is, are what the loop
copied and where it is, under the same buffers. -/
structure Follows (t : Transport) (data : Bytes) (ls : List Label) (u : Transport) : Prop where
  log : delivered u.log = delivered t.log ++ (BufferedDelivery.deliver data (played ls)).copied
  place : DeliveryAt (BufferedDelivery.deliver data (played ls)) ls u.reader

/-- One step more of the transport is followed by the loop under one turn more, or under the
same turns. -/
theorem Follows.step {t u u' : Transport} {data : Bytes} {ls : List Label} {l : Label}
    (h : Follows t data ls u) (hstep : delivery_step u l = some u') :
    Follows t data (ls ++ [l]) u' := by
  obtain ⟨hlog, hplace⟩ := h
  rw [delivery_step, Option.ite_none_right_eq_some] at hstep
  obtain ⟨hu, hstep⟩ := hstep
  -- the play of the protocol goes one step further exactly when the reader calls it
  cases step_delivery hu hstep with
  | aside hl hr hd =>
      refine ⟨by rw [played_snoc hl, hd, hlog], ?_⟩
      rw [played_snoc hl, hr]
      exact hplace.snoc l
  | copied hv hr hd =>
      rename_i v n
      rw [hv] at hplace
      cases hplace with
      | returned hfalse => cases hfalse
      | asks hrun =>
          refine ⟨?_, ?_⟩ <;> rw [played_snoc_size, deliver_snoc hrun]
          · rw [hd, hlog, List.append_assoc]
          · rw [hr]
            -- the last piece ends the delivery, any other one asks for the next buffer
            by_cases hend : v.drop n = []
            · rw [if_pos hend, hend]
              exact .tells_last rfl
            · rw [if_neg hend]
              exact .tells hend rfl
  | asked hv hne hr hd =>
      rw [hv] at hplace
      refine ⟨by rw [played_snoc rfl, hd, hlog], ?_⟩
      rw [played_snoc rfl, hr]
      cases hplace with
      | tells _ hrun => exact .asks hrun
      | tells_last => exact absurd rfl hne
      | returned hfalse => cases hfalse
  | returned hv hr hd =>
      rw [hv] at hplace
      refine ⟨by rw [played_snoc rfl, hd, hlog], ?_⟩
      rw [played_snoc rfl]
      cases hplace with
      | tells hne => exact absurd rfl hne
      | tells_last hret => exact .returned hr hret
      | returned hfalse => cases hfalse
  | raised hr hd =>
      refine ⟨by rw [played_snoc rfl, hd, hlog], ?_⟩
      rw [hr]
      exact .raised (List.mem_append_right _ List.mem_cons_self)

/-- **The transport hands a chunk over as the loop of `_deliver` does**, as long as its
read loop is in the delivery of `data` and in the step that ends it. -/
theorem run_delivery {t u : Transport} {data : Bytes} {ls : List Label}
    (ht : t.reader = .get_buffer data) (hne : data ≠ [])
    (h : run delivery_step t ls = some u) : Follows t data ls u := by
  have hstart : Follows t data [] t := by
    refine ⟨?_, ?_⟩ <;> rw [played, List.filterMap_nil, List.map_nil, deliver_waits hne]
    · rw [List.append_nil]
    · rw [ht]
      exact .asks rfl
  exact run_inv_past delivery_step (fun _ _ _ _ hf hs => hf.step hs) hstart h

/-- A delivery that is over, and in which nothing was raised, gave the whole chunk to the
protocol, in order. -/
theorem run_delivery_complete {t u : Transport} {data : Bytes} {ls : List Label}
    (ht : t.reader = .get_buffer data) (hne : data ≠ []) (h : run delivery_step t ls = some u)
    (hover : u.reader.delivering = false) (hls : ∀ r, .raises r ∉ ls) :
    ∃ copies, delivered u.log = delivered t.log ++ copies ∧ copies.flatten = data := by
  obtain ⟨hlog, hplace⟩ := run_delivery ht hne h
  refine ⟨_, hlog, ?_⟩
  have hret : (BufferedDelivery.deliver data (played ls)).outcome = .returned := by
    generalize u.reader = r at hplace hover
    cases hplace with
    | returned _ hret => exact hret
    | raised hr => exact absurd hr (hls _)
    | asks | tells | tells_last => cases hover
  exact copied_of_returned hret

end ZmuxPy.CarrierTransport
