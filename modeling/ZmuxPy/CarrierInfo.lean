/-
The exporter protocol of `with_info` (`src/admission.rs`).

A decider or a credential is called with a `CarrierInfo`, a view of the carrier's
metadata whose `export` asks for keying material of the carrier's handshake. The
metadata itself borrows the carrier and stays on the carrier's thread. With an
exporter, `with_info` therefore runs the call `f(view)` on a helper thread, and
answers the requests of `export` meanwhile: each carries the sender of a reply
channel of its own. When `f` returned, the helper sends `Done`, which ends the
answering loop; `with_info` joins the helper and returns, and its receiver is
dropped on the way out.

The view may be kept by Python and used from any thread, before and after. A
call of `export` that has sent its request waits until it is answered or the
request is dropped; the model has one party for each call, and the three
threads' steps interleave freely. `f` returns normally.
-/
import Mathlib.Data.List.Basic
import Mathlib.Tactic.Basic
import ZmuxPy.Machine
import ZmuxPy.Mpsc
import ZmuxPy.Parties

set_option autoImplicit false

namespace ZmuxPy.CarrierInfo

open Machine Parties Mpsc

/-! ## The state -/

abbrev Bytes := List UInt8

/-- The arguments of `export`. -/
structure Request where
  label : Bytes
  context : Bytes
  length : ℕ
  deriving DecidableEq, Repr

/-- The carrier's metadata: whether it has an exporter, and what `info.export`
answers. -/
structure Info where
  has_exporter : Bool
  exports : Request → Option Bytes

/-- `Ask`: what goes to the thread that has the metadata. -/
inductive Ask where
  /-- `Ask::Export`, with the sender of the reply channel of call `reply`. -/
  | exports (request : Request) (reply : ℕ)
  | done
  deriving DecidableEq, Repr

/-- Where a call of `export` is. -/
inductive Progress where
  /-- Before the send of its request. -/
  | asking
  /-- In `rx.recv()`. -/
  | receiving
  | returned (value : Option Bytes)
  deriving DecidableEq, Repr

/-- A call of `export`, with its reply channel. -/
structure Call where
  request : Request
  reply : Chan (Option Bytes)
  progress : Progress
  /-- History: the call began after `with_info` returned. -/
  late : Bool
  deriving DecidableEq, Repr

/-- The thread that called `with_info`. -/
inductive Carrier where
  | starting
  /-- Without an exporter: it calls `f` itself. -/
  | direct
  /-- At the `rx.recv()` of the answering loop. -/
  | receiving
  /-- In the loop's body. -/
  | answering (request : Request) (reply : ℕ)
  /-- In `call.join()`. -/
  | joining
  /-- The receiver is dropped, and the messages left are. -/
  | dropping
  | returned
  deriving DecidableEq, Repr

/-- In the answering loop. -/
def Carrier.in_loop : Carrier → Bool
  | .receiving | .answering _ _ => true
  | _ => false

/-- The call `f(view)`, and the helper thread after it. -/
inductive Helper where
  | unstarted
  | running
  /-- `f` returned; `Done` is not sent yet. -/
  | returned
  | ended
  deriving DecidableEq, Repr

/-- The two threads, the view and the calls made through it. -/
structure World where
  carrier : Carrier
  helper : Helper
  /-- Someone holds the view. -/
  view : Bool
  /-- The channel of the requests; without an exporter there is none, and nobody
  sends on this one. -/
  chan : Chan Ask
  calls : List Call
  deriving DecidableEq, Repr

/-- `with_info` was called. -/
def init : World := ⟨.starting, .unstarted, false, channel, []⟩

/-! ## The steps -/

/-- The steps of the thread of `with_info`, of the helper, and of those who call `export`. -/
inductive Label where
  | direct
  | spawn
  | spawn_failed
  | f_return
  /-- `tx.send(Ask::Done)`, and the helper's end. -/
  | send_done
  /-- `rx.recv()` of the answering loop. -/
  | take
  /-- `reply.send(info.export(..))`. -/
  | answer
  | join
  /-- A message left in the dropped channel is dropped. -/
  | discard
  | ret
  /-- A thread that holds the view calls `export`. -/
  | call (request : Request)
  /-- `ask.send(Ask::Export(..))` of call `i`. -/
  | send (i : ℕ)
  /-- `rx.recv()` of call `i`. -/
  | recv (i : ℕ)
  /-- The last reference to the view goes away. -/
  | drop_view
  deriving DecidableEq, Repr

def Label.in_loop : Label → Bool
  | .take | .answer => true
  | _ => false

/-- The steps of the thread that called `with_info`, once the helper is started. -/
def Label.on_carrier : Label → Bool
  | .take | .answer | .join | .discard | .ret => true
  | _ => false

/-- `self.exporter.as_ref()?`: without an exporter the call is over at once. -/
def Call.made (info : Info) (w : World) (request : Request) : Call where
  request := request
  reply := channel
  progress := if info.has_exporter then .asking else .returned none
  late := decide (w.carrier = .returned)

/-- `.ok()?` on a request that cannot be sent; its sender comes back and is dropped. -/
def Call.refused (c : Call) : Call :=
  { c with progress := .returned none, reply := c.reply.drop_sender.drop_receiver }

/-- `rx.recv().ok().flatten()`. -/
def Call.recv (c : Call) : Option Call :=
  match c.progress with
  | .receiving =>
    match c.reply.recv with
    | .value v rest => some { c with progress := .returned v, reply := rest.drop_receiver }
    | .disconnected => some { c with progress := .returned none, reply := c.reply.drop_receiver }
    | .blocked => none
  | _ => none

/-- The reply, after which the request's sender goes. -/
def Call.answered (c : Call) (value : Option Bytes) : Call :=
  { c with reply := c.reply.send_last value }

def Call.dropped (c : Call) : Call := { c with reply := c.reply.drop_sender }

def Call.finished (c : Call) : Bool :=
  match c.progress with
  | .returned _ => true
  | _ => false

/-- The answering loop takes a message. -/
def take (w : World) : Option World :=
  match w.chan.recv with
  | .value (.exports r i) rest => some { w with carrier := .answering r i, chan := rest }
  | .value .done rest => some { w with carrier := .joining, chan := rest }
  | .disconnected => some { w with carrier := .joining }
  | .blocked => none

/-- One message of the dropped channel goes, with the sender of its reply. -/
def discard (w : World) : Option World :=
  match w.chan.discard with
  | some (.exports _ i, rest) =>
    (move w.calls i fun c => some c.dropped).map fun calls =>
      { w with calls := calls, chan := rest }
  | some (.done, rest) => some { w with chan := rest }
  | none => none

/-- Call `i`, which is `c`, sends its request. -/
def send (w : World) (i : ℕ) (c : Call) : World :=
  match w.chan.send (.exports c.request i) with
  | some chan => { w with chan := chan, calls := w.calls.set i { c with progress := .receiving } }
  | none => { w with calls := w.calls.set i c.refused }

/-- One step of one of the parties. -/
def step (info : Info) (w : World) : Label → Option World
  | .direct =>
    if w.carrier = .starting ∧ info.has_exporter = false then
      some { w with carrier := .direct, helper := .running, view := true }
    else none
  | .spawn =>
    if w.carrier = .starting ∧ info.has_exporter = true then
      some { w with
        carrier := .receiving, helper := .running, view := true, chan := w.chan.clone_sender }
    else none
  | .spawn_failed =>
    -- the closure is dropped, with the view and both senders
    if w.carrier = .starting ∧ info.has_exporter = true then
      some { w with carrier := .dropping, chan := w.chan.drop_sender.drop_receiver }
    else none
  | .f_return =>
    if w.helper = .running then
      if w.carrier = .direct then some { w with carrier := .returned, helper := .ended }
      else some { w with helper := .returned }
    else none
  | .send_done =>
    if w.helper = .returned then some { w with helper := .ended, chan := w.chan.send_last .done }
    else none
  | .take => if w.carrier = .receiving then take w else none
  | .answer =>
    match w.carrier with
    | .answering r i =>
      (move w.calls i fun c => some (c.answered (info.exports r))).map fun calls =>
        { w with calls := calls, carrier := .receiving }
    | _ => none
  | .join =>
    if w.carrier = .joining ∧ w.helper = .ended then
      some { w with carrier := .dropping, chan := w.chan.drop_receiver }
    else none
  | .discard => if w.carrier = .dropping then discard w else none
  | .ret =>
    if w.carrier = .dropping ∧ w.chan.queue = [] then some { w with carrier := .returned } else none
  | .call r => if w.view then some { w with calls := w.calls ++ [.made info w r] } else none
  | .send i =>
    match w.calls[i]? with
    | some c => if c.progress = .asking then some (send w i c) else none
    | none => none
  | .recv i => (move w.calls i Call.recv).map fun calls => { w with calls := calls }
  | .drop_view =>
    -- a call in progress borrows the view
    if w.view = true ∧ w.calls.all Call.finished = true then
      some { w with view := false, chan := w.chan.drop_sender }
    else none

/-! ## What a step can do -/

/-- The loop takes a request, or leaves. -/
theorem take_eq_some {w w' : World} (h : take w = some w') :
    (∃ r i rest, w.chan.queue = .exports r i :: rest ∧
      w' = { w with carrier := .answering r i, chan := { w.chan with queue := rest } }) ∨
    (∃ rest, (w.chan.queue = .done :: rest ∨ w.chan.queue = [] ∧ rest = []) ∧
      w' = { w with carrier := .joining, chan := { w.chan with queue := rest } }) := by
  unfold take at h
  split at h
  · rename_i r i rest hrecv
    obtain ⟨hq, hrest⟩ := Chan.recv_eq_value hrecv
    cases h
    exact .inl ⟨r, i, rest.queue, hq, by rw [← hrest]⟩
  · rename_i rest hrecv
    obtain ⟨hq, hrest⟩ := Chan.recv_eq_value hrecv
    cases h
    exact .inr ⟨rest.queue, .inl hq, by rw [← hrest]⟩
  · rename_i hrecv
    have hq := Chan.recv_eq_disconnected hrecv
    cases h
    exact .inr ⟨[], .inr ⟨hq, rfl⟩, by rw [← hq]⟩
  · cases h

/-- A message is dropped, with the sender it carries. -/
theorem discard_eq_some {w w' : World} (h : discard w = some w') :
    (∃ r i rest c, w.chan.queue = .exports r i :: rest ∧ w.calls[i]? = some c ∧
      w' = { w with calls := w.calls.set i c.dropped, chan := { w.chan with queue := rest } }) ∨
    (∃ rest, w.chan.queue = .done :: rest ∧
      w' = { w with chan := { w.chan with queue := rest } }) := by
  unfold discard at h
  split at h
  · rename_i r i rest hd
    obtain ⟨hq, hrest⟩ := Chan.discard_eq_some hd
    obtain ⟨calls, hmove, rfl⟩ := Option.map_eq_some_iff.1 h
    obtain ⟨c, c', hc, hc', rfl⟩ := move_eq_some.1 hmove
    cases hc'
    exact .inl ⟨r, i, rest.queue, c, hq, hc, by rw [← hrest]⟩
  · rename_i rest hd
    obtain ⟨hq, hrest⟩ := Chan.discard_eq_some hd
    cases h
    exact .inr ⟨rest.queue, hq, by rw [← hrest]⟩
  · cases h

/-- A request is sent, or refused for want of a receiver. -/
theorem send_cases (w : World) (i : ℕ) (c : Call) :
    (w.chan.receiver = true ∧ send w i c = { w with
      chan := { w.chan with queue := w.chan.queue ++ [.exports c.request i] },
      calls := w.calls.set i { c with progress := .receiving } }) ∨
    (w.chan.receiver = false ∧ send w i c = { w with calls := w.calls.set i c.refused }) := by
  unfold send
  split
  · rename_i chan hs
    obtain ⟨hr, rfl⟩ := Chan.send_eq_some hs
    exact .inl ⟨hr, rfl⟩
  · rename_i hs
    exact .inr ⟨Chan.send_eq_none.1 hs, rfl⟩

/-- The steps as a relation, label by label. -/
def Does (info : Info) (w w' : World) : Label → Prop
  | .direct => w.carrier = .starting ∧ info.has_exporter = false ∧
      w' = { w with carrier := .direct, helper := .running, view := true }
  | .spawn => w.carrier = .starting ∧ info.has_exporter = true ∧ w' = { w with
        carrier := .receiving, helper := .running, view := true, chan := w.chan.clone_sender }
  | .spawn_failed => w.carrier = .starting ∧ info.has_exporter = true ∧
      w' = { w with carrier := .dropping, chan := w.chan.drop_sender.drop_receiver }
  | .f_return => w.helper = .running ∧
      (w.carrier = .direct ∧ w' = { w with carrier := .returned, helper := .ended } ∨
        w.carrier ≠ .direct ∧ w' = { w with helper := .returned })
  | .send_done => w.helper = .returned ∧
      w' = { w with helper := .ended, chan := w.chan.send_last .done }
  | .take => w.carrier = .receiving ∧ take w = some w'
  | .answer => ∃ r i c, w.carrier = .answering r i ∧ w.calls[i]? = some c ∧
      w' = { w with calls := w.calls.set i (c.answered (info.exports r)), carrier := .receiving }
  | .join => w.carrier = .joining ∧ w.helper = .ended ∧
      w' = { w with carrier := .dropping, chan := w.chan.drop_receiver }
  | .discard => w.carrier = .dropping ∧ discard w = some w'
  | .ret => w.carrier = .dropping ∧ w.chan.queue = [] ∧ w' = { w with carrier := .returned }
  | .call r => w.view = true ∧ w' = { w with calls := w.calls ++ [.made info w r] }
  | .send i => ∃ c, w.calls[i]? = some c ∧ c.progress = .asking ∧ w' = send w i c
  | .recv i => ∃ c c', w.calls[i]? = some c ∧ c.recv = some c' ∧
      w' = { w with calls := w.calls.set i c' }
  | .drop_view => w' = { w with view := false, chan := w.chan.drop_sender }

/-- **What each step does**, with the guard it passed. Nothing below unfolds `step` again. -/
theorem step_does {info : Info} {w w' : World} {l : Label} (h : step info w l = some w') :
    Does info w w' l := by
  cases l with
  | answer =>
      simp only [step] at h
      split at h
      · rename_i r i hc
        obtain ⟨calls, hmove, rfl⟩ := Option.map_eq_some_iff.1 h
        obtain ⟨c, c', hget, hc', rfl⟩ := move_eq_some.1 hmove
        cases hc'
        exact ⟨r, i, c, hc, hget, rfl⟩
      · cases h
  | recv i =>
      obtain ⟨calls, hmove, rfl⟩ := Option.map_eq_some_iff.1 h
      obtain ⟨c, c', hget, hc', rfl⟩ := move_eq_some.1 hmove
      exact ⟨c, c', hget, hc', rfl⟩
  | send i =>
      simp only [step] at h
      split at h
      · rename_i c hget
        rw [Option.ite_none_right_eq_some, Option.some.injEq] at h
        exact ⟨c, hget, h.1, h.2.symm⟩
      · cases h
  | f_return =>
      simp only [step, Option.ite_none_right_eq_some] at h
      obtain ⟨hr, h⟩ := h
      split at h
      · exact ⟨hr, .inl ⟨‹_›, (Option.some.inj h).symm⟩⟩
      · exact ⟨hr, .inr ⟨‹_›, (Option.some.inj h).symm⟩⟩
  | take | discard => simpa only [step, Option.ite_none_right_eq_some, Does] using h
  | drop_view =>
      simp only [step, Option.ite_none_right_eq_some, Option.some.injEq] at h
      exact h.2.symm
  | direct | spawn | spawn_failed | send_done | join | ret | call r =>
      simpa only [step, Option.ite_none_right_eq_some, Option.some.injEq, and_assoc,
        eq_comm (a := w'), Does] using h

/-! ## The phases of `with_info` -/

/-- What the place of the carrier's thread says of the request channel. -/
structure Phases (info : Info) (w : World) : Prop where
  starting : w.carrier = .starting → w.helper = .unstarted
  direct : w.carrier = .direct → info.has_exporter = false ∧ w.helper = .running
  listening : w.carrier = .starting ∨ w.carrier.in_loop = true → w.chan.receiver = true
  closed : info.has_exporter = true → w.carrier = .dropping ∨ w.carrier = .returned →
    w.chan.receiver = false
  emptied : info.has_exporter = true → w.carrier = .returned → w.chan.queue = []
  /-- The helper has ended, and the loop has not: `Done` is on its way. -/
  done : w.helper = .ended → w.carrier.in_loop = true → Ask.done ∈ w.chan.queue

theorem phases_init (info : Info) : Phases info init :=
  ⟨fun _ => rfl, nofun, fun _ => rfl, by simp [init], nofun, nofun⟩

/-- The carrier and the helper stay, and at most a message is added, to a channel
that has its receiver. -/
theorem Phases.of_send {info : Info} {w w' : World} (h : Phases info w)
    (hc : w'.carrier = w.carrier) (hh : w'.helper = w.helper)
    (hr : w'.chan.receiver = w.chan.receiver)
    (hq : w'.chan.queue = w.chan.queue ∨
      w.chan.receiver = true ∧ ∃ m, w'.chan.queue = w.chan.queue ++ [m]) :
    Phases info w' := by
  refine ⟨?_, ?_, ?_, ?_, ?_, ?_⟩
  · rw [hc, hh]
    exact h.starting
  · rw [hc, hh]
    exact h.direct
  · rw [hc, hr]
    exact h.listening
  · rw [hc, hr]
    exact h.closed
  · rw [hc]
    intro he hret
    rcases hq with hq | ⟨hrecv, -⟩
    · rw [hq]
      exact h.emptied he hret
    · rw [h.closed he (.inr hret)] at hrecv
      cases hrecv
  · rw [hc, hh]
    intro hend hl
    rcases hq with hq | ⟨-, m, hq⟩
    · rw [hq]
      exact h.done hend hl
    · rw [hq]
      exact List.mem_append_left _ (h.done hend hl)

/-- The helper's last send reaches a loop that is still there. -/
theorem Phases.send_done {info : Info} {w : World} (h : Phases info w)
    (hh : w.helper = .returned) :
    Phases info { w with helper := .ended, chan := w.chan.send_last .done } := by
  have hstarting : w.carrier = .starting → Helper.ended = .unstarted := by
    intro hc
    rw [h.starting hc] at hh
    cases hh
  have hdirect : w.carrier = .direct → info.has_exporter = false ∧ Helper.ended = .running := by
    intro hc
    rw [(h.direct hc).2] at hh
    cases hh
  cases hr : w.chan.receiver with
  | true =>
      rw [Chan.send_last_of_receiver hr]
      refine ⟨hstarting, hdirect, fun _ => rfl, fun he hc => ?_, fun he hc => ?_,
        fun _ _ => by simp⟩
      · exact absurd (h.closed he hc) (by simp [hr])
      · exact absurd (h.closed he (.inr hc)) (by simp [hr])
  | false =>
      rw [Chan.send_last_of_no_receiver hr]
      refine ⟨hstarting, hdirect, fun hc => ?_, fun _ _ => hr, h.emptied, fun _ hc => ?_⟩
      · exact absurd (h.listening hc) (by simp [hr])
      · exact absurd (h.listening (.inr hc)) (by simp [hr])

/-- The phases of the two threads go together. -/
theorem step_phases {info : Info} {w w' : World} {l : Label} (h : Phases info w)
    (hs : step info w l = some w') : Phases info w' := by
  have hd := step_does hs
  cases l with
  | direct =>
      obtain ⟨-, he, rfl⟩ := hd
      exact ⟨nofun, fun _ => ⟨he, rfl⟩, by simp [Carrier.in_loop], by simp, by simp, nofun⟩
  | spawn =>
      obtain ⟨hc, he, rfl⟩ := hd
      exact ⟨nofun, nofun, fun _ => h.listening (.inl hc), by simp, by simp, nofun⟩
  | spawn_failed =>
      obtain ⟨hc, he, rfl⟩ := hd
      exact ⟨nofun, nofun, by simp [Carrier.in_loop], fun _ _ => rfl, by simp,
        by simp [Carrier.in_loop]⟩
  | f_return =>
      obtain ⟨hh, ⟨hc, rfl⟩ | ⟨hc, rfl⟩⟩ := hd
      · have he := (h.direct hc).1
        exact ⟨nofun, nofun, by simp [Carrier.in_loop], by simp [he], by simp [he], nofun⟩
      · refine ⟨fun hst => ?_, fun hdir => absurd hdir hc, h.listening, h.closed, h.emptied, nofun⟩
        rw [h.starting hst] at hh
        cases hh
  | send_done =>
      obtain ⟨hh, rfl⟩ := hd
      exact h.send_done hh
  | take =>
      obtain ⟨hc, ht⟩ := hd
      have hl : w.carrier.in_loop = true := by rw [hc]; rfl
      obtain ⟨r, i, rest, hq, rfl⟩ | ⟨rest, -, rfl⟩ := take_eq_some ht
      · refine ⟨nofun, nofun, fun _ => h.listening (.inr hl), by simp, by simp, fun hh _ => ?_⟩
        -- the helper has sent its last message, and what is taken here is another one before
        -- it
        have hdone := h.done hh hl
        rw [hq] at hdone
        simpa using hdone
      · exact ⟨nofun, nofun, by simp [Carrier.in_loop], by simp, by simp, by simp [Carrier.in_loop]⟩
  | answer =>
      obtain ⟨r, i, c, hc, -, rfl⟩ := hd
      have hl : w.carrier.in_loop = true := by rw [hc]; rfl
      exact ⟨nofun, nofun, fun _ => h.listening (.inr hl), by simp, by simp,
        fun hh _ => h.done hh hl⟩
  | join =>
      obtain ⟨-, -, rfl⟩ := hd
      exact ⟨nofun, nofun, by simp [Carrier.in_loop], fun _ _ => rfl, by simp,
        by simp [Carrier.in_loop]⟩
  | discard =>
      obtain ⟨hc, ht⟩ := hd
      obtain ⟨r, i, rest, c, -, -, rfl⟩ | ⟨rest, -, rfl⟩ := discard_eq_some ht
      all_goals
        refine ⟨h.starting, h.direct, h.listening, h.closed, ?_, ?_⟩
        · simp [hc]
        · simp [hc, Carrier.in_loop]
  | ret =>
      obtain ⟨hc, hq, rfl⟩ := hd
      exact ⟨nofun, nofun, by simp [Carrier.in_loop], fun he _ => h.closed he (.inl hc),
        fun _ _ => hq, by simp [Carrier.in_loop]⟩
  | call r =>
      obtain ⟨-, rfl⟩ := hd
      exact h.of_send rfl rfl rfl (.inl rfl)
  | send i =>
      obtain ⟨c, -, -, rfl⟩ := hd
      obtain ⟨hr, he⟩ | ⟨-, he⟩ := send_cases w i c
      · rw [he]
        exact h.of_send rfl rfl rfl (.inr ⟨hr, _, rfl⟩)
      · rw [he]
        exact h.of_send rfl rfl rfl (.inl rfl)
  | recv i =>
      obtain ⟨c, c', -, -, rfl⟩ := hd
      exact h.of_send rfl rfl rfl (.inl rfl)
  | drop_view =>
      cases hd
      exact h.of_send rfl rfl rfl (.inl rfl)

/-! ## The calls -/

/-- The request of call `i` is in the channel, or in the loop's hands. -/
def World.Pending (w : World) (r : Request) (i : ℕ) : Prop :=
  Ask.exports r i ∈ w.chan.queue ∨ w.carrier = .answering r i

/-- What holds of call `i`: its reply and its value are `info.export` of its own
arguments, what it waits for will come, and a late one never waits. -/
structure CallOk (info : Info) (w : World) (i : ℕ) (c : Call) : Prop where
  senders : c.reply.senders ≤ 1
  receiver : c.finished = false → c.reply.receiver = true
  own_reply : ∀ v ∈ c.reply.queue, v = info.exports c.request
  own_value : ∀ v, c.progress = .returned (some v) → info.exports c.request = some v
  waiting : c.progress = .receiving → c.reply.recv ≠ .blocked ∨ w.Pending c.request i
  late : c.late = true → w.carrier = .returned ∧
    (c.progress = .asking ∨ c.progress = .returned none)
  plain : info.has_exporter = false → c.progress = .returned none

/-- What happens elsewhere is no concern of a call, as long as its request is not
lost and a return of `with_info` is not taken back. -/
theorem CallOk.mono {info : Info} {w w' : World} {i : ℕ} {c : Call} (h : CallOk info w i c)
    (hp : w.Pending c.request i → w'.Pending c.request i)
    (hr : w.carrier = .returned → w'.carrier = .returned) : CallOk info w' i c :=
  ⟨h.senders, h.receiver, h.own_reply, h.own_value, fun hw => (h.waiting hw).imp_right hp,
    fun hl => ⟨hr (h.late hl).1, (h.late hl).2⟩, h.plain⟩

/-- A call that has its answer does not depend on its request any more. -/
theorem CallOk.answered {info : Info} {w w' : World} {i : ℕ} {c : Call} (h : CallOk info w i c)
    (hr : w.carrier = .returned → w'.carrier = .returned) :
    CallOk info w' i (c.answered (info.exports c.request)) := by
  have hsend : (c.answered (info.exports c.request)).reply.senders ≤ 1 := by
    have := h.senders
    cases hr : c.reply.receiver with
    | true =>
        simp only [Call.answered, Chan.send_last_of_receiver hr]
        omega
    | false =>
        simp only [Call.answered, Chan.send_last_of_no_receiver hr, Chan.drop_sender]
        omega
  refine ⟨hsend, ?_, ?_, h.own_value, fun hw => .inl ?_, fun hl => ?_, h.plain⟩
  · intro hf
    simp only [Call.answered, Chan.send_last_of_receiver (h.receiver hf)]
  · cases hrecv : c.reply.receiver with
    | true =>
        simp only [Call.answered, Chan.send_last_of_receiver hrecv, List.mem_append,
          List.mem_singleton]
        rintro v (hv | rfl)
        · exact h.own_reply v hv
        · rfl
    | false =>
        simp only [Call.answered, Chan.send_last_of_no_receiver hrecv]
        exact h.own_reply
  · have hrecv : c.reply.receiver = true := h.receiver (by
      have : c.progress = .receiving := hw
      simp [Call.finished, this])
    simp [Call.answered, Chan.send_last_of_receiver hrecv, Chan.recv_eq_blocked]
  · exact ⟨hr (h.late hl).1, (h.late hl).2⟩

/-- Nor does one whose request was dropped. -/
theorem CallOk.dropped {info : Info} {w w' : World} {i : ℕ} {c : Call} (h : CallOk info w i c)
    (hr : w.carrier = .returned → w'.carrier = .returned) : CallOk info w' i c.dropped := by
  have hsend := h.senders
  refine ⟨?_, h.receiver, h.own_reply, h.own_value, fun _ => .inl ?_,
    fun hl => ⟨hr (h.late hl).1, (h.late hl).2⟩, h.plain⟩
  · simp only [Call.dropped, Chan.drop_sender]
    omega
  · simp only [Call.dropped, Chan.drop_sender, ne_eq, Chan.recv_eq_blocked]
    omega

theorem CallOk.refused {info : Info} {w w' : World} {i : ℕ} {c : Call} (h : CallOk info w i c)
    (hr : w.carrier = .returned → w'.carrier = .returned) : CallOk info w' i c.refused := by
  have hsend := h.senders
  refine ⟨?_, nofun, h.own_reply, nofun, nofun, fun hl => ⟨hr (h.late hl).1, .inr rfl⟩,
    fun _ => rfl⟩
  simp only [Call.refused, Chan.drop_sender, Chan.drop_receiver]
  omega

/-- A call sends its request: it is not a late one, since there is a receiver. -/
theorem CallOk.sent {info : Info} {w w' : World} {i : ℕ} {c : Call} (h : CallOk info w i c)
    (hph : Phases info w) (ha : c.progress = .asking) (hr : w.chan.receiver = true)
    (hp : w'.Pending c.request i) : CallOk info w' i { c with progress := .receiving } := by
  have he : info.has_exporter = true := by
    by_contra hne
    have := h.plain (by simpa using hne)
    rw [ha] at this
    cases this
  refine ⟨h.senders, fun _ => h.receiver (by simp [Call.finished, ha]), h.own_reply, nofun,
    fun _ => .inr hp, fun hl => ?_, fun hne => ?_⟩
  · rw [hph.closed he (.inr (h.late hl).1)] at hr
    cases hr
  · rw [he] at hne
    cases hne

theorem CallOk.recv {info : Info} {w : World} {i : ℕ} {c c' : Call} (h : CallOk info w i c)
    (hc : c.recv = some c') : CallOk info w i c' ∧ c'.request = c.request := by
  unfold Call.recv at hc
  split at hc
  · rename_i hprog
    have hlate : c.late ≠ true := fun hl => by
      rcases (h.late hl).2 with ha | ha <;> rw [hprog] at ha <;> cases ha
    split at hc
    · rename_i v rest hrecv
      obtain ⟨hq, hrest⟩ := Chan.recv_eq_value hrecv
      cases hc
      have hv : v = info.exports c.request := h.own_reply v (by simp [hq])
      refine ⟨⟨?_, nofun, fun v hv => h.own_reply v ?_, ?_, nofun, fun hl => absurd hl hlate, ?_⟩,
        rfl⟩
      · rw [hrest]
        exact h.senders
      · rw [hq]
        exact List.mem_cons_of_mem _ hv
      · intro u hu
        rw [← hv]
        exact (Progress.returned.inj hu)
      · intro hne
        have := h.plain hne
        rw [hprog] at this
        cases this
    · cases hc
      exact ⟨⟨h.senders, nofun, h.own_reply, nofun, nofun, fun hl => absurd hl hlate,
        fun _ => rfl⟩, rfl⟩
    · cases hc
  · cases hc

/-- The invariant of the calls: each is well, and each request is of its call. -/
structure Inv (info : Info) (w : World) : Prop where
  phases : Phases info w
  calls : ∀ i c, w.calls[i]? = some c → CallOk info w i c
  asked : ∀ r i, w.Pending r i → ∃ c, w.calls[i]? = some c ∧ c.request = r

/-- A step of the carrier or the helper that keeps every request where it can be
answered. -/
theorem Inv.frame {info : Info} {w w' : World} (h : Inv info w) (hph : Phases info w')
    (hcalls : w'.calls = w.calls) (hp : ∀ r i, w'.Pending r i ↔ w.Pending r i)
    (hr : w.carrier = .returned → w'.carrier = .returned) : Inv info w' := by
  refine ⟨hph, fun i c hc => ?_, fun r i hpend => ?_⟩
  · rw [hcalls] at hc
    exact (h.calls i c hc).mono (hp _ _).2 hr
  · rw [hcalls]
    exact h.asked r i ((hp r i).1 hpend)

/-- A step that touches call `i`, and perhaps its request. -/
theorem Inv.moved {info : Info} {w w' : World} {i : ℕ} {c c' : Call} (h : Inv info w)
    (hph : Phases info w') (hget : w.calls[i]? = some c) (hcalls : w'.calls = w.calls.set i c')
    (hok : CallOk info w' i c') (hreq : c'.request = c.request)
    (hkeep : ∀ r j, j ≠ i → w.Pending r j → w'.Pending r j)
    (hback : ∀ r j, w'.Pending r j → w.Pending r j ∨ r = c.request ∧ j = i)
    (hr : w.carrier = .returned → w'.carrier = .returned) : Inv info w' := by
  refine ⟨hph, fun j b hb => ?_, fun r j hpend => ?_⟩
  · rw [hcalls] at hb
    rcases getElem?_set_cases hb with ⟨rfl, rfl⟩ | ⟨hne, hb⟩
    · exact hok
    · exact (h.calls j b hb).mono (hkeep _ j hne) hr
  · rw [hcalls]
    have hold : ∃ b, w.calls[j]? = some b ∧ b.request = r := by
      rcases hback r j hpend with hpend | ⟨rfl, rfl⟩
      · exact h.asked r j hpend
      · exact ⟨c, hget, rfl⟩
    obtain ⟨b, hb, hbr⟩ := hold
    by_cases hji : j = i
    · subst hji
      rw [hget, Option.some.injEq] at hb
      exact ⟨c', getElem?_set_of_some hget, by rw [hreq, hb, hbr]⟩
    · exact ⟨b, by rw [List.getElem?_set_ne (Ne.symm hji), hb], hbr⟩

/-- A call through a view without an exporter is over when it is made. -/
theorem CallOk.made {info : Info} {w w' : World} (r : Request) (i : ℕ)
    (hr : w'.carrier = w.carrier) : CallOk info w' i (.made info w r) := by
  refine ⟨Nat.le_refl 1, fun _ => rfl, nofun, fun v hv => ?_, fun hw => ?_, fun hl => ?_,
    fun he => ?_⟩
  · simp only [Call.made] at hv
    split at hv <;> cases hv
  · simp only [Call.made] at hw
    split at hw <;> cases hw
  · refine ⟨hr.trans (of_decide_eq_true hl), ?_⟩
    simp only [Call.made]
    split
    · exact .inl rfl
    · exact .inr rfl
  · simp only [Call.made, he, Bool.false_eq_true, if_false]

theorem Inv.called {info : Info} {w : World} (h : Inv info w) (r : Request)
    (hph : Phases info { w with calls := w.calls ++ [.made info w r] }) :
    Inv info { w with calls := w.calls ++ [.made info w r] } := by
  refine ⟨hph, fun i c hc => ?_, fun r' i hpend => ?_⟩
  · rcases getElem?_concat_cases hc with ⟨-, rfl⟩ | hc
    · exact CallOk.made r i rfl
    · exact (h.calls i c hc).mono id id
  · obtain ⟨c, hc, hreq⟩ := h.asked r' i hpend
    exact ⟨c, getElem?_concat_of_some hc, hreq⟩

/-- The loop takes a message: a request changes hands, and `Done` is no request. -/
theorem Inv.take {info : Info} {w w' : World} (h : Inv info w) (hph : Phases info w')
    (hc : w.carrier = .receiving) (ht : take w = some w') : Inv info w' := by
  obtain ⟨r, i, rest, hq, rfl⟩ | ⟨rest, hq, rfl⟩ := take_eq_some ht
  · refine h.frame hph rfl (fun r' j => ?_) (by simp [hc])
    simp [World.Pending, hq, hc, or_comm, eq_comm]
  · refine h.frame hph rfl (fun r' j => ?_) (by simp [hc])
    rcases hq with hq | ⟨hq, rfl⟩
    · simp [World.Pending, hq, hc]
    · simp [World.Pending, hq, hc]

theorem Inv.answer {info : Info} {w : World} {r : Request} {i : ℕ} {c : Call} (h : Inv info w)
    (hc : w.carrier = .answering r i) (hget : w.calls[i]? = some c)
    (hph : Phases info { w with
      calls := w.calls.set i (c.answered (info.exports r)), carrier := .receiving }) :
    Inv info { w with
      calls := w.calls.set i (c.answered (info.exports r)), carrier := .receiving } := by
  have hreq : c.request = r := by
    obtain ⟨b, hb, hbr⟩ := h.asked r i (.inr hc)
    rw [hget, Option.some.injEq] at hb
    rw [hb, hbr]
  subst hreq
  refine h.moved hph hget rfl ((h.calls i c hget).answered (by simp [hc])) rfl ?_ ?_ (by simp [hc])
  · rintro r' j hne (hq | hans)
    · exact .inl hq
    · rw [hc] at hans
      cases hans
      exact absurd rfl hne
  · rintro r' j (hq | hans)
    · exact .inl (.inl hq)
    · cases hans

theorem Inv.discard {info : Info} {w w' : World} (h : Inv info w) (hph : Phases info w')
    (hc : w.carrier = .dropping) (ht : discard w = some w') : Inv info w' := by
  obtain ⟨r, i, rest, c, hq, hget, rfl⟩ | ⟨rest, hq, rfl⟩ := discard_eq_some ht
  · refine h.moved hph hget rfl ((h.calls i c hget).dropped id) rfl ?_ ?_ id
    · intro r' j hne hpend
      simp only [World.Pending, hq, hc, List.mem_cons, Ask.exports.injEq] at hpend ⊢
      simpa [hne] using hpend
    · intro r' j hpend
      simp only [World.Pending, hq, List.mem_cons] at hpend ⊢
      exact .inl (hpend.imp_left .inr)
  · refine h.frame hph rfl (fun r' j => ?_) id
    simp [World.Pending, hq]

theorem Inv.send {info : Info} {w : World} {i : ℕ} {c : Call} (h : Inv info w)
    (hget : w.calls[i]? = some c) (ha : c.progress = .asking) (hph : Phases info (send w i c)) :
    Inv info (send w i c) := by
  have hok := h.calls i c hget
  obtain ⟨hr, he⟩ | ⟨hr, he⟩ := send_cases w i c
  · rw [he] at hph ⊢
    refine h.moved hph hget rfl (hok.sent h.phases ha hr (.inl (by simp))) rfl ?_ ?_ id
    · rintro r j - hpend
      exact hpend.imp_left (List.mem_append_left _)
    · rintro r j (hq | hans)
      · rcases List.mem_append.1 hq with hq | hq
        · exact .inl (.inl hq)
        · cases List.mem_singleton.1 hq
          exact .inr ⟨rfl, rfl⟩
      · exact .inl (.inr hans)
  · rw [he] at hph ⊢
    exact h.moved hph hget rfl (hok.refused id) rfl (fun _ _ _ hp => hp) (fun _ _ hp => .inl hp) id

/-- **One step keeps the invariant.** -/
theorem step_inv {info : Info} {w w' : World} {l : Label} (h : Inv info w)
    (hs : step info w l = some w') : Inv info w' := by
  have hph := step_phases h.phases hs
  have hd := step_does hs
  cases l with
  | direct | spawn | spawn_failed =>
      obtain ⟨hc, -, rfl⟩ := hd
      exact h.frame hph rfl (fun r i => by simp [World.Pending, hc, Chan.clone_sender,
        Chan.drop_sender, Chan.drop_receiver]) (by simp [hc])
  | f_return =>
      obtain ⟨-, ⟨hc, rfl⟩ | ⟨-, rfl⟩⟩ := hd
      · exact h.frame hph rfl (fun r i => by simp [World.Pending, hc]) (by simp)
      · exact h.frame hph rfl (fun r i => Iff.rfl) id
  | send_done =>
      obtain ⟨-, rfl⟩ := hd
      refine h.frame hph rfl (fun r i => ?_) id
      cases hr : w.chan.receiver with
      | true => simp [World.Pending, Chan.send_last_of_receiver hr]
      | false => simp [World.Pending, Chan.send_last_of_no_receiver hr, Chan.drop_sender]
  | take => exact h.take hph hd.1 hd.2
  | answer =>
      obtain ⟨r, i, c, hc, hget, rfl⟩ := hd
      exact h.answer hc hget hph
  | join =>
      obtain ⟨hc, -, rfl⟩ := hd
      exact h.frame hph rfl (fun r i => by simp [World.Pending, hc, Chan.drop_receiver])
        (by simp [hc])
  | discard => exact h.discard hph hd.1 hd.2
  | ret =>
      obtain ⟨hc, -, rfl⟩ := hd
      exact h.frame hph rfl (fun r i => by simp [World.Pending, hc]) (by simp)
  | call r =>
      obtain ⟨-, rfl⟩ := hd
      exact h.called r hph
  | send i =>
      obtain ⟨c, hget, ha, rfl⟩ := hd
      exact h.send hget ha hph
  | recv i =>
      obtain ⟨c, c', hget, hc, rfl⟩ := hd
      -- the caller takes the reply: the request itself is the same one
      obtain ⟨hok, hreq⟩ := (h.calls i c hget).recv hc
      exact h.moved hph hget rfl (hok.mono id id) hreq (fun _ _ _ hp => hp)
        (fun _ _ hp => .inl hp) id
  | drop_view =>
      cases hd
      exact h.frame hph rfl (fun r i => Iff.rfl) id

/-- So it holds in every run. -/
theorem run_inv_init {info : Info} {ls : List Label} {w : World}
    (h : run (step info) init ls = some w) : Inv info w := by
  have hinit : Inv info init := by
    refine ⟨phases_init info, nofun, ?_⟩
    rintro r i (hq | hc)
    · cases hq
    · cases hc
  exact run_inv (step info) (fun _ _ _ => step_inv) hinit h

/-! ## The answering loop ends -/

/-- The steps the answering loop has left once `Done` is sent: two for each request
ahead of `Done`, and one for `Done`. -/
def World.remaining (w : World) : ℕ :=
  match w.carrier with
  | .receiving => 2 * (w.chan.queue.takeWhile (· ≠ .done)).length + 1
  | .answering _ _ => 2 * (w.chan.queue.takeWhile (· ≠ .done)).length + 2
  | _ => 0

theorem World.remaining_eq_zero {w : World} : w.remaining = 0 ↔ w.carrier.in_loop = false := by
  unfold remaining
  split <;> simp_all [Carrier.in_loop]

/-- What comes behind `Done` does not count. -/
theorem takeWhile_append_of_done {q : List Ask} (h : Ask.done ∈ q) (ms : List Ask) :
    (q ++ ms).takeWhile (· ≠ .done) = q.takeWhile (· ≠ .done) := by
  induction q with
  | nil => cases h
  | cons m q ih =>
      cases m with
      | done => simp
      | exports r i =>
          have hmem : Ask.done ∈ q := by simpa using h
          simp only [List.cons_append]
          rw [List.takeWhile_cons_of_pos (by simp), List.takeWhile_cons_of_pos (by simp), ih hmem]

/-- The carrier stays where it is, and messages are added behind `Done`. -/
theorem remaining_of_append {info : Info} {w w' : World} (h : Phases info w)
    (hh : w.helper = .ended) (hc : w'.carrier = w.carrier) {ms : List Ask}
    (hq : w'.chan.queue = w.chan.queue ++ ms) : w'.remaining = w.remaining := by
  cases hl : w.carrier.in_loop with
  | false => rw [World.remaining_eq_zero.2 hl, World.remaining_eq_zero.2 (hc ▸ hl)]
  | true =>
      unfold World.remaining
      rw [hc, hq, takeWhile_append_of_done (h.done hh hl)]

/-- Once the helper has ended, each step of the loop is one step less to go, and
no other step changes what is to go. -/
theorem step_remaining {info : Info} {w w' : World} {l : Label} (h : Phases info w)
    (hh : w.helper = .ended) (hs : step info w l = some w') :
    w'.helper = .ended ∧ l.in_loop.toNat + w'.remaining = w.remaining := by
  have hd := step_does hs
  -- the helper has ended, so it was started
  have hstarting : w.carrier ≠ .starting := by
    intro hc
    rw [h.starting hc] at hh
    cases hh
  -- a step outside the carrier's loop leaves its distance as it was
  have hsame : ∀ {w' : World}, w'.helper = w.helper → w'.carrier = w.carrier →
      w'.chan.queue = w.chan.queue → w'.helper = .ended ∧ 0 + w'.remaining = w.remaining := by
    intro w' hhelper hc hq
    refine ⟨hhelper.trans hh, ?_⟩
    rw [Nat.zero_add]
    exact remaining_of_append h hh hc (hq.trans (List.append_nil _).symm)
  cases l with
  | direct | spawn | spawn_failed => exact absurd hd.1 hstarting
  | f_return | send_done => exact absurd (hh.symm.trans hd.1) (by decide)
  | take =>
      obtain ⟨hc, ht⟩ := hd
      -- the last message is in the queue: the loop does not wait for more
      have hdone := h.done hh (by rw [hc]; rfl)
      obtain ⟨r, i, rest, hq, rfl⟩ | ⟨rest, hq | ⟨hq, -⟩, rfl⟩ := take_eq_some ht
      · refine ⟨hh, ?_⟩
        simp [Label.in_loop, World.remaining, hc, hq]
        omega
      · refine ⟨hh, ?_⟩
        simp [Label.in_loop, World.remaining, hc, hq]
      · rw [hq] at hdone
        cases hdone
  | answer =>
      obtain ⟨r, i, c, hc, -, rfl⟩ := hd
      refine ⟨hh, ?_⟩
      simp only [Label.in_loop, World.remaining, hc, Bool.toNat_true]
      omega
  | join =>
      obtain ⟨hc, -, rfl⟩ := hd
      exact ⟨hh, by simp [Label.in_loop, World.remaining, hc]⟩
  | discard =>
      obtain ⟨hc, ht⟩ := hd
      obtain ⟨r, i, rest, c, -, -, rfl⟩ | ⟨rest, -, rfl⟩ := discard_eq_some ht
      all_goals exact ⟨hh, by simp [Label.in_loop, World.remaining, hc]⟩
  | ret =>
      obtain ⟨hc, -, rfl⟩ := hd
      exact ⟨hh, by simp [Label.in_loop, World.remaining, hc]⟩
  | call r =>
      obtain ⟨-, rfl⟩ := hd
      exact hsame rfl rfl rfl
  | send i =>
      obtain ⟨c, -, -, rfl⟩ := hd
      obtain ⟨-, he⟩ | ⟨-, he⟩ := send_cases w i c
      · rw [he]
        refine ⟨hh, ?_⟩
        rw [show Label.in_loop (.send i) = false from rfl, Bool.toNat_false, Nat.zero_add]
        exact remaining_of_append h hh rfl rfl
      · rw [he]
        exact hsame rfl rfl rfl
  | recv i =>
      obtain ⟨c, c', -, -, rfl⟩ := hd
      exact hsame rfl rfl rfl
  | drop_view =>
      cases hd
      exact hsame rfl rfl rfl

/-- Over a run: the loop takes the steps it had to go, and not one more, whatever
is sent behind `Done`. -/
theorem run_remaining {info : Info} {w w' : World} {ls : List Label} (h : Inv info w)
    (hh : w.helper = .ended) (hr : run (step info) w ls = some w') :
    w'.helper = .ended ∧ ls.countP Label.in_loop + w'.remaining = w.remaining := by
  induction ls generalizing w with
  | nil =>
      cases hr
      exact ⟨hh, by simp⟩
  | cons l ls ih =>
      obtain ⟨w₁, hs, hrest⟩ := (run_cons_eq_some (step info)).1 hr
      obtain ⟨hh₁, hstep⟩ := step_remaining h.phases hh hs
      obtain ⟨hh', hrun⟩ := ih (step_inv h hs) hh₁ hrest
      refine ⟨hh', ?_⟩
      rw [List.countP_cons]
      cases hl : l.in_loop <;> simp [hl] at hstep ⊢ <;> omega

/-- A request that was taken can be answered: its call is there. -/
theorem answer_enabled {info : Info} {w : World} (h : Inv info w) {r : Request} {i : ℕ}
    (hc : w.carrier = .answering r i) : (step info w .answer).isSome = true := by
  obtain ⟨c, hget, -⟩ := h.asked r i (.inr hc)
  simp [step, hc, move, hget]

/-- The receiver goes, with the messages it has left. -/
theorem dropping_enabled {info : Info} {w : World} (h : Inv info w) (hc : w.carrier = .dropping) :
    (step info w .ret).isSome = true ∨ (step info w .discard).isSome = true := by
  cases hq : w.chan.queue with
  | nil => exact .inl (by simp [step, hc, hq])
  | cons m q =>
      refine .inr ?_
      cases m with
      | done => simp [step, hc, discard, Chan.discard, hq]
      | exports r i =>
          obtain ⟨c, hget, -⟩ := h.asked r i (.inl (by simp [hq]))
          simp [step, hc, discard, Chan.discard, hq, move, hget]

/-- The loop waits only for an empty queue with a sender left. -/
theorem take_enabled {info : Info} {w : World} (hc : w.carrier = .receiving)
    (hq : w.chan.queue ≠ [] ∨ w.chan.senders = 0) : (step info w .take).isSome = true := by
  simp only [step, hc, if_true, take, Chan.recv]
  cases hqueue : w.chan.queue with
  | nil =>
      have hs : w.chan.senders = 0 := hq.resolve_left fun hne => hne hqueue
      simp [hs]
  | cons m q => cases m <;> rfl

/-- Once the helper has ended, `with_info` never blocks before it returned. -/
theorem carrier_enabled {info : Info} {w : World} (h : Inv info w) (hh : w.helper = .ended)
    (hc : w.carrier ≠ .returned) :
    ∃ l, l.on_carrier = true ∧ (step info w l).isSome = true := by
  cases hcar : w.carrier with
  | returned => exact absurd hcar hc
  | starting => exact absurd ((h.phases.starting hcar).symm.trans hh) (by decide)
  | direct => exact absurd ((h.phases.direct hcar).2.symm.trans hh) (by decide)
  | receiving =>
      have hdone := h.phases.done hh (by rw [hcar]; rfl)
      exact ⟨.take, rfl, take_enabled hcar (.inl (List.ne_nil_of_mem hdone))⟩
  | answering r i => exact ⟨.answer, rfl, answer_enabled h hcar⟩
  | joining => exact ⟨.join, rfl, by simp [step, hcar, hh]⟩
  | dropping =>
      rcases dropping_enabled h hcar with hret | hdis
      · exact ⟨.ret, rfl, hret⟩
      · exact ⟨.discard, rfl, hdis⟩

/-! ## The protocol -/

/-- An `export` that returns a value returns `info.export` of its own arguments. -/
def OwnValues (info : Info) (w : World) : Prop :=
  ∀ (i : ℕ) (c : Call) (v : Bytes), w.calls[i]? = some c → c.progress = .returned (some v) →
    info.exports c.request = some v

/-- An `export` that begins after `with_info` returned yields `None`: it never waits,
and what it returns is `None`. -/
def LateNone (w : World) : Prop :=
  ∀ (i : ℕ) (c : Call), w.calls[i]? = some c → c.late = true →
    c.progress = .asking ∨ c.progress = .returned none

/-- Once `with_info` returned, no `export` waits: each one that has not returned does
so by its own next step. -/
def NoneWaiting (info : Info) (w : World) : Prop :=
  w.carrier = .returned → ∀ (i : ℕ) (c : Call), w.calls[i]? = some c → c.finished = false →
    ∃ (l : Label) (w' : World) (c' : Call), (l = .send i ∨ l = .recv i) ∧ step info w l = some w' ∧
      w'.calls[i]? = some c' ∧ c'.finished = true

/-- Once `f` returned, the helper's send of `Done` is not held up; and once it is
sent, in every continuation, the answering loop takes as many steps as there were
to go and no more, and is not held up before its end, nor is the rest of
`with_info` before it returned. -/
def LoopEnds (info : Info) (w : World) : Prop :=
  (w.helper = .returned → (step info w .send_done).isSome = true) ∧
  (w.helper = .ended → ∀ ms w', run (step info) w ms = some w' →
    ms.countP Label.in_loop + w'.remaining = w.remaining ∧
    (w'.remaining = 0 ↔ w'.carrier.in_loop = false) ∧
    (w'.carrier ≠ .returned → ∃ l, l.on_carrier = true ∧ (step info w' l).isSome = true))

/-- Once `with_info` has returned, the queue is gone, and with it every sender of a reply that
was not sent. -/
theorem Inv.noneWaiting {info : Info} {w : World} (h : Inv info w) : NoneWaiting info w := by
  intro hret i c hget hf
  have hok := h.calls i c hget
  have he : info.has_exporter = true := by
    by_contra hne
    have := hok.plain (by simpa using hne)
    simp [Call.finished, this] at hf
  cases hp : c.progress with
  | asking =>
      refine ⟨.send i, _, c.refused, .inl rfl, by simp only [step, hget, hp, if_true]; rfl, ?_, rfl⟩
      obtain ⟨hr, -⟩ | ⟨-, hsend⟩ := send_cases w i c
      · rw [h.phases.closed he (.inr hret)] at hr
        cases hr
      · rw [hsend]
        exact getElem?_set_of_some hget
  | receiving =>
      have hrecv : c.reply.recv ≠ .blocked := by
        rcases hok.waiting hp with hrecv | hq | hans
        · exact hrecv
        · rw [h.phases.emptied he hret] at hq
          cases hq
        · rw [hret] at hans
          cases hans
      obtain ⟨c', hc', hfin⟩ : ∃ c', c.recv = some c' ∧ c'.finished = true := by
        unfold Call.recv
        rw [hp]
        cases hrep : c.reply.recv with
        | value v rest => exact ⟨_, rfl, rfl⟩
        | disconnected => exact ⟨_, rfl, rfl⟩
        | blocked => exact absurd hrep hrecv
      refine ⟨.recv i, { w with calls := w.calls.set i c' }, c', .inr rfl, ?_,
        getElem?_set_of_some hget, hfin⟩
      simp only [step, move, hget, hc', Option.map_some]
  | returned r => simp [Call.finished, hp] at hf

/-- **The exporter protocol answers each request for itself and leaves no caller
waiting**, in every interleaving of the call, the answering loop and any number of
`export` calls. -/
theorem exporter_protocol (info : Info) {ls : List Label} {w : World}
    (h : run (step info) init ls = some w) :
    OwnValues info w ∧ LateNone w ∧ NoneWaiting info w ∧ LoopEnds info w := by
  have hi := run_inv_init h
  refine ⟨?_, ?_, hi.noneWaiting, ?_, ?_⟩
  · exact fun i c v hc => (hi.calls i c hc).own_value v
  · exact fun i c hc hl => ((hi.calls i c hc).late hl).2
  · intro hh
    simp [step, hh]
  · intro hh ms w' hr
    obtain ⟨hh', hcount⟩ := run_remaining hi hh hr
    have hi' : Inv info w' := run_inv (step info) (fun _ _ _ => step_inv) hi hr
    exact ⟨hcount, World.remaining_eq_zero, carrier_enabled hi' hh'⟩

/-- An exporter that answers with the label's own bytes, up to the length. -/
def echo : Info := ⟨true, fun r => some (r.label.take r.length)⟩

/-- Four calls: one is answered, one asks behind `Done`, one began before the return
and sends after it, one comes late. -/
def four_exports : List Label :=
  [.spawn, .call ⟨[1, 2], [], 1⟩, .send 0, .take, .answer, .recv 0, .f_return, .send_done,
    .call ⟨[3], [], 1⟩, .send 1, .call ⟨[4], [], 1⟩, .take, .join, .discard, .ret,
    .call ⟨[5], [], 1⟩, .send 3, .send 2, .recv 1]

/-- The hypothesis can be met, by calls that are answered, dropped, refused and made too late. -/
theorem exporter_protocol_four_exports :
    ∃ w, run (step echo) init four_exports = some w
      ∧ w.calls.map Call.progress
        = [.returned (some [1]), .returned none, .returned none, .returned none]
      ∧ OwnValues echo w ∧ LateNone w ∧ NoneWaiting echo w ∧ LoopEnds echo w :=
  ⟨_, rfl, by decide, @exporter_protocol echo four_exports _ rfl⟩

end ZmuxPy.CarrierInfo
