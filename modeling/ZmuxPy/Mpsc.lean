/-
Channels of many senders and one receiver, as `std::sync::mpsc` documents them.

A send succeeds while the receiver is there and never blocks. A receive takes
the oldest message; with none, it fails if every sender is gone and blocks
otherwise. Dropping the receiver discards the messages that are left, which
drops what they carry; each is a step of its own (`discard`), since what they
carry may be the sender of another channel.
-/
import Mathlib.Data.List.Basic
import Mathlib.Tactic.Basic

set_option autoImplicit false

namespace Mpsc

variable {α : Type*}

/-- A channel: the messages not yet received, oldest first, the number of senders, and whether
the receiver is there. -/
structure Chan (α : Type*) where
  queue : List α
  senders : ℕ
  receiver : Bool
  deriving DecidableEq, Repr

/-- A new channel has one sender. -/
def channel : Chan α := ⟨[], 1, true⟩

namespace Chan

/-- One sender more; it sends to the same queue. -/
def clone_sender (c : Chan α) : Chan α := { c with senders := c.senders + 1 }

/-- One sender less. At zero, a receive from the empty queue fails instead of blocking. -/
def drop_sender (c : Chan α) : Chan α := { c with senders := c.senders - 1 }

/-- The receiver goes. The messages stay until they are discarded, one by one. -/
def drop_receiver (c : Chan α) : Chan α := { c with receiver := false }

/-- `none` is the error of a send without a receiver. -/
def send (c : Chan α) (a : α) : Option (Chan α) :=
  if c.receiver then some { c with queue := c.queue ++ [a] } else none

/-- A send whose error is ignored, and the end of the sender that made it. -/
def send_last (c : Chan α) (a : α) : Chan α := ((c.send a).getD c).drop_sender

end Chan

/-- What a receive comes to: a message and the channel without it, the error of a channel that
nobody can send to any more, or neither yet. -/
inductive Recv (α : Type*) where
  | value (a : α) (rest : Chan α)
  | disconnected
  | blocked

/-- `recv`. A message that was sent before the last sender went is still received. -/
def Chan.recv (c : Chan α) : Recv α :=
  match c.queue with
  | a :: q => .value a { c with queue := q }
  | [] => if c.senders = 0 then .disconnected else .blocked

/-- The oldest of the messages that a dropped receiver leaves. -/
def Chan.discard (c : Chan α) : Option (α × Chan α) :=
  match c.queue with
  | a :: q => some (a, { c with queue := q })
  | [] => none

namespace Chan

/-- A send that succeeds found the receiver there and put its message last. -/
theorem send_eq_some {c c' : Chan α} {a : α} (h : c.send a = some c') :
    c.receiver = true ∧ c' = { c with queue := c.queue ++ [a] } := by
  unfold send at h
  split at h
  · exact ⟨‹_›, (Option.some.inj h).symm⟩
  · cases h

/-- A send fails exactly if the receiver is gone; how full the queue is has no part in it. -/
theorem send_eq_none {c : Chan α} {a : α} : c.send a = none ↔ c.receiver = false := by
  unfold send
  split <;> simp_all

/-- With a receiver, a last send is a message more and a sender less, -/
theorem send_last_of_receiver {c : Chan α} {a : α} (h : c.receiver = true) :
    c.send_last a = ⟨c.queue ++ [a], c.senders - 1, true⟩ := by
  obtain ⟨queue, senders, receiver⟩ := c
  subst h
  rfl

/-- and without one only a sender less: the message is lost, and nobody is told. -/
theorem send_last_of_no_receiver {c : Chan α} {a : α} (h : c.receiver = false) :
    c.send_last a = c.drop_sender := by
  rw [send_last, send_eq_none.2 h]
  rfl

/-- A receive takes the oldest message, and changes nothing else. -/
theorem recv_eq_value {c rest : Chan α} {a : α} (h : c.recv = .value a rest) :
    c.queue = a :: rest.queue ∧ rest = { c with queue := rest.queue } := by
  unfold recv at h
  split at h
  · cases h
    exact ⟨‹_›, rfl⟩
  · split at h <;> cases h

/-- A disconnected receive leaves no message behind. -/
theorem recv_eq_disconnected {c : Chan α} (h : c.recv = .disconnected) : c.queue = [] := by
  unfold recv at h
  split at h
  · cases h
  · assumption

/-- A receive blocks exactly if there is no message and somebody is left to send one. -/
theorem recv_eq_blocked {c : Chan α} : c.recv = .blocked ↔ c.queue = [] ∧ c.senders ≠ 0 := by
  unfold recv
  split
  · simp_all
  · split <;> simp_all

/-- A discard, like a receive, takes the oldest message and changes nothing else. -/
theorem discard_eq_some {c rest : Chan α} {a : α} (h : c.discard = some (a, rest)) :
    c.queue = a :: rest.queue ∧ rest = { c with queue := rest.queue } := by
  unfold discard at h
  split at h
  · cases h
    exact ⟨‹_›, rfl⟩
  · cases h

end Chan

end Mpsc
