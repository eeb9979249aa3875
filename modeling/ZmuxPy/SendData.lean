/-
The bytes of a sending part that several calls share (`SendStream` in `src/lib.rs`).

`ZmuxPy.SendPart` says who has the part and who waits for it. Here the writes have their
data. The native stream takes the bytes of a write as credit comes, a piece in each poll,
and the write may be cancelled between two of them; so nothing about a single call says
that the bytes of two calls are not mixed, or that a `finish` behind a write does not cut
it short. Both rest on the lock: a call keeps the part from its first piece to its end,
and the part goes round in the order of asking.

A step here is a step of the part with the data added, so whatever holds of the part's
runs holds of these. `asked` and `pieces` are history: the calls in the order of their
first poll, and what the native stream took, with the call it took it from.
-/
import ZmuxPy.Asyncio
import ZmuxPy.LockTurns
import ZmuxPy.SendPart

set_option autoImplicit false

namespace ZmuxPy.SendData

open Machine Parties FairLock Asyncio SendPart

/-! ## The model -/

/-- The calls that have data. -/
def writes : Op → Bool
  | .write | .write_chunk => true
  | _ => false

/-- The handle, with the data of its calls and what the native stream has taken. -/
structure Stream where
  handle : Handle
  /-- The data of each call. -/
  data : List Bytes
  asked : List ℕ
  pieces : List (ℕ × Bytes)
  deriving DecidableEq, Repr

/-- A new stream, without calls. -/
def init : Stream := { handle := SendPart.init, data := [], asked := [], pieces := [] }

/-- The bytes on the stream. -/
def sent (s : Stream) : Bytes := s.pieces.flatMap Prod.snd

/-- The data of call `i`, none if there is no such call. -/
def payload (s : Stream) (i : ℕ) : Bytes := (s.data[i]?).getD []

/-- What is left to write of call `i`. -/
def rest (s : Stream) (i : ℕ) : Bytes := (payload s i).drop (share s.pieces i).length

/-- Neither finished nor reset. -/
def is_open (n : Native) : Bool := !(n.finished || n.was_reset)

/-- What the native `write_chunk` takes in a poll: all that is left if it is ready, and
otherwise as much as there is credit for. -/
def takes (s : Stream) (i : ℕ) (c : Call) (a : Answer) (n : ℕ) : Option Bytes :=
  if Holds (ask s.handle.lock i) i ∧ s.handle.part = true ∧ writes c.op = true
      ∧ is_open s.handle.native = true then
    some (if a = .ready then rest s i else (rest s i).take n)
  else none

/-- The steps of the part, a call with its data and a poll with the credit that there is in it. -/
inductive Label where
  | call (op : Op) (data : Bytes)
  /-- A poll, in which there is credit for `n` bytes. -/
  | poll (i : ℕ) (a : Answer) (n : ℕ)
  | cancel (i : ℕ)
  | take
  | peer_stop (code : ℕ)
  | ack
  deriving DecidableEq, Repr

/-- The step of the part. -/
def Label.part : Label → SendPart.Label
  | .call op _ => .call op
  | .poll i a _ => .poll i a
  | .cancel i => .cancel i
  | .take => .take
  | .peer_stop code => .peer_stop code
  | .ack => .ack

/-- One step: the step of the part, and what it means for the data. -/
def step (s : Stream) (l : Label) : Option Stream :=
  (SendPart.step s.handle l.part).map fun h =>
    match l with
    | .call op data =>
      { s with handle := h, data := s.data ++ [if writes op then data else []] }
    | .poll i a n =>
      { s with
        handle := h
        asked := ask s.asked i
        pieces := s.pieces
          ++ (((s.handle.calls[i]?).bind fun c => takes s i c a n).map (i, ·)).toList }
    | _ => { s with handle := h }

/-! ## What a call comes to -/

/-- The call ended the stream. -/
def ends (c : Call) : Bool :=
  match c.op, c.result with
  | .finish, some .ok | .reset _, some .ok => true
  | _, _ => false

/-- The call has an answer, a result or an error, and was not cancelled. -/
def answered (c : Call) : Bool := c.result.isSome && c.result != some .cancelled

/-- The calls that finish a stream. -/
def finishes : Op → Bool
  | .finish | .aexit _ => true
  | _ => false

/-- What an answer of the native stream says: `m` is its state before, `n` after. -/
structure Answers (part : Bool) (m : Native) (op : Op) (a : Answer) (n : Native) (r : Result) :
    Prop where
  opens : is_open n = true → is_open m = true
  wrote : writes op = true → r = .ok → part = true ∧ is_open m = true ∧ a = .ready
  ended : op = .finish ∨ (∃ code, op = .reset code) → r = .ok → is_open n = false
  finished : op = .finish → r = .ok → n.finished = true
  kept : m.finished = true → n.finished = true
  finisher : n.finished = true → m.finished = true ∨ finishes op = true

/-- What the native stream answers keeps to that, by the operations of the call. Only `finish`,
`reset` and `__aexit__` change its state. -/
theorem perform_answers {h : Handle} {op : Op} {a : Answer} {n : Native} {r : Result}
    (hp : perform h op a = some (some (n, r))) : Answers h.part h.native op a n r := by
  unfold perform at hp
  by_cases hpart : h.part = true
  · rw [if_pos hpart] at hp
    cases op with
    | write | write_chunk | wait_send_capacity =>
        simp only [wait_native] at hp
        constructor <;> grind [writes, finishes, is_open]
    | finish | reset code =>
        simp only [close_native] at hp
        constructor <;> grind [writes, finishes, is_open]
    | aexit ok =>
        cases ok <;> cases a <;> simp only [aexit_native, close_native] at hp <;>
          constructor <;> grind [writes, finishes, is_open]
    | stopped =>
        simp only [stopped_native] at hp
        constructor <;> grind [writes, finishes, is_open]
  · rw [if_neg hpart] at hp
    constructor <;> grind [writes, finishes, is_open]

/-- The same of a poll, of whoever has the part. -/
theorem completes_answers {h : Handle} {i : ℕ} {c : Call} {a : Answer} {n : Native} {r : Result}
    (hi : Holds (ask h.lock i) i) (hcomp : completes h i c a = some (n, r)) :
    Answers h.part h.native c.op a n r := by
  rw [completes, if_pos hi] at hcomp
  exact perform_answers (Option.join_eq_some_iff.1 hcomp)

/-- A call that is cancelled leaves the native stream as it was. -/
theorem Answers.cancelled (part : Bool) (m : Native) (op : Op) :
    Answers part m op .pending m .cancelled := by
  refine ⟨id, ?_, ?_, ?_, id, .inl⟩
  · intro _ hok
    cases hok
  · intro _ hok
    cases hok
  · intro _ hok
    cases hok

/-- Only a `finish` or a `reset` ends the stream, and only if it succeeded. -/
theorem ends_op {c : Call} (h : ends c = true) :
    (c.op = .finish ∨ ∃ code, c.op = .reset code) ∧ c.result = some .ok := by
  unfold ends at h
  split at h
  · exact ⟨.inl ‹_›, ‹_›⟩
  · exact ⟨.inr ⟨_, ‹_›⟩, ‹_›⟩
  · cases h

/-- A call that ends the stream has no data. -/
theorem ends_writes {c : Call} (h : ends c = true) : writes c.op = false := by
  rcases (ends_op h).1 with hop | ⟨code, hop⟩
  · rw [hop]
    rfl
  · rw [hop]
    rfl

/-- A pending call has ended nothing. -/
theorem ends_pending {c : Call} (h : c.result = none) : ends c = false := by
  rw [Bool.eq_false_iff]
  intro he
  rw [(ends_op he).2] at h
  cases h

/-! ## The invariant -/

/-- **The invariant of a run**: the pieces are taken turn by turn in the order of asking, each
call's share is a beginning of its data, and the stream is closed for who asked after its end. -/
structure Inv (s : Stream) : Prop where
  part : SendPart.Inv s.handle
  data : s.data.length = s.handle.calls.length
  /-- The calls without data. -/
  idle : ∀ (i : ℕ) (c : Call), s.handle.calls[i]? = some c → writes c.op = false → payload s i = []
  turns : Turns s.handle.lock s.asked s.pieces
  /-- Whoever asked and left has a result. -/
  left : ∀ i ∈ s.asked,
    i ∈ s.handle.lock ∨ ∃ c : Call, s.handle.calls[i]? = some c ∧ c.result ≠ none
  share : ∀ i, share s.pieces i <+: payload s i
  whole : ∀ (i : ℕ) (c : Call), s.handle.calls[i]? = some c → writes c.op = true →
    c.result = some .ok → FairLock.share s.pieces i = payload s i
  served : ∀ (i : ℕ) (c : Call), s.handle.calls[i]? = some c → answered c = true →
    i ∈ s.asked ∧ Served s.handle.lock s.asked i
  closed : ∀ (i : ℕ) (c : Call), s.handle.calls[i]? = some c → ends c = true →
    is_open s.handle.native = false
  finished : ∀ (i : ℕ) (c : Call), s.handle.calls[i]? = some c → c.op = .finish →
    c.result = some .ok → s.handle.native.finished = true
  finisher : s.handle.native.finished = true →
    ∃ (i : ℕ) (c : Call), s.handle.calls[i]? = some c ∧ finishes c.op = true
  /-- Nobody who asked after the end of the stream has written. -/
  after : ∀ p ∈ s.pieces, ∀ l₁ l₂, s.asked = l₁ ++ p.1 :: l₂ → ∀ f ∈ l₁, ∀ c : Call,
    s.handle.calls[f]? = some c → ends c = false

/-- There are no calls. -/
theorem init_inv : Inv init := by
  refine ⟨SendPart.init_inv, rfl, ?_, .nil, ?_, fun i => List.nil_prefix, ?_, ?_, ?_, ?_,
    ?_, ?_⟩
  · intro i c hc
    cases hc
  · intro i hi
    cases hi
  · intro i c hc
    cases hc
  · intro i c hc
    cases hc
  · intro i c hc
    cases hc
  · intro i c hc
    cases hc
  · intro hf
    cases hf
  · intro p hp
    cases hp

variable {s : Stream} {i : ℕ} {c : Call}

/-- Only a call that was made is polled. -/
theorem Inv.known (hs : Inv s) (hi : i ∈ s.asked) : i < s.handle.calls.length := by
  rcases hs.left i hi with hl | ⟨c, hc, -⟩
  · obtain ⟨c, hc, -⟩ := hs.part.pending i hl
    exact (List.getElem?_eq_some_iff.1 hc).1
  · exact (List.getElem?_eq_some_iff.1 hc).1

/-- Who is polled is in the queue, or asks for the first time. -/
theorem Inv.asks (hs : Inv s) (hc : s.handle.calls[i]? = some c) (hr : c.result = none) :
    i ∈ s.handle.lock ∨ i ∉ s.asked := by
  by_cases hi : i ∈ s.asked
  · rcases hs.left i hi with hl | ⟨c', hc', hr'⟩
    · exact .inl hl
    · rw [hc, Option.some.injEq] at hc'
      exact absurd (hc' ▸ hr) hr'
  · exact .inr hi

/-- A pending call asks for the part. -/
theorem Inv.ask (hs : Inv s) (hc : s.handle.calls[i]? = some c) (hr : c.result = none) :
    Inv { s with
      handle := { s.handle with lock := FairLock.ask s.handle.lock i }
      asked := FairLock.ask s.asked i } := by
  have hask := hs.asks hc hr
  refine ⟨⟨nodup_ask hs.part.nodup i, fun j hj => ?_⟩, hs.data, hs.idle, hs.turns.ask hask,
    fun j hj => ?_, hs.share, hs.whole, fun j c' hc' ha => ?_, hs.closed, hs.finished, hs.finisher,
    ?_⟩
  · rcases mem_ask.1 hj with hj | rfl
    · exact hs.part.pending j hj
    · exact ⟨c, hc, hr⟩
  · rcases mem_ask.1 hj with hj | rfl
    · exact (hs.left j hj).imp_left fun hl => mem_ask.2 (.inl hl)
    · exact .inl (mem_ask.2 (.inr rfl))
  · obtain ⟨hj, hserved⟩ := hs.served j c' hc' ha
    exact ⟨mem_ask.2 (.inl hj), hserved.ask hj hask⟩
  · intro p hp l₁ l₂ hasked f hf c' hc'
    obtain ⟨l, hl⟩ := split_of_ask (hs.turns.served p hp).1 hasked
    exact hs.after p hp l₁ l hl f hf c' hc'

/-- The holder has a piece taken. -/
theorem Inv.add (hs : Inv s) (hc : s.handle.calls[i]? = some c) (hr : c.result = none)
    (hi : Holds s.handle.lock i) (hopen : is_open s.handle.native = true) {piece : Bytes}
    (hp : piece <+: rest s i) : Inv { s with pieces := s.pieces ++ [(i, piece)] } := by
  refine ⟨hs.part, hs.data, hs.idle, hs.turns.add hi piece, hs.left, fun j => ?_, ?_, hs.served,
    hs.closed, hs.finished, hs.finisher, ?_⟩
  · show FairLock.share (s.pieces ++ [(i, piece)]) j <+: payload s j
    rw [share_snoc]
    by_cases hij : i = j
    · subst hij
      obtain ⟨more, hmore⟩ := hp
      obtain ⟨tail, htail⟩ := hs.share i
      rw [if_pos rfl]
      refine ⟨more, ?_⟩
      rw [List.append_assoc, hmore, rest, ← htail, List.drop_left]
    · rw [if_neg hij, List.append_nil]
      exact hs.share j
  · intro j c' hc' hw hr'
    have hij : i ≠ j := by
      rintro rfl
      rw [hc, Option.some.injEq] at hc'
      rw [← hc', hr] at hr'
      cases hr'
    show FairLock.share (s.pieces ++ [(i, piece)]) j = payload s j
    rw [share_snoc, if_neg hij, List.append_nil]
    exact hs.whole j c' hc' hw hr'
  · intro p hp' l₁ l₂ hasked f hf c' hc'
    rcases List.mem_append.1 hp' with hp' | hp'
    · exact hs.after p hp' l₁ l₂ hasked f hf c' hc'
    · -- the native stream is open, so nobody has ended it
      rw [Bool.eq_false_iff]
      intro hend
      have hclosed := hs.closed f c' hc' hend
      rw [hopen] at hclosed
      cases hclosed

/-- A pending call leaves, with an answer of the native stream or cancelled. -/
theorem Inv.settle (hs : Inv s) (hc : s.handle.calls[i]? = some c)
    {a : Answer} {n : Native} {r : Result} (hholds : r ≠ .cancelled → Holds s.handle.lock i)
    (hans : Answers s.handle.part s.handle.native c.op a n r)
    (hwhole : writes c.op = true → r = .ok → FairLock.share s.pieces i = payload s i) :
    Inv { s with handle := { s.handle with
      lock := leave s.handle.lock i
      native := n
      calls := s.handle.calls.set i { c with result := some r } } } := by
  refine ⟨hs.part.settle hs.part.nodup (fun j hj => .inr hj) rfl rfl, ?_, ?_, hs.turns.leave i,
    fun j hj => ?_, hs.share, ?_, ?_, ?_, ?_, fun hf => ?_, ?_⟩
  · simpa using hs.data
  · intro j c' hc' hw
    rcases getElem?_set_cases hc' with ⟨rfl, rfl⟩ | ⟨-, hc'⟩
    · exact hs.idle j c hc hw
    · exact hs.idle j c' hc' hw
  · by_cases hji : j = i
    · subst hji
      exact .inr ⟨_, getElem?_set_of_some hc, by simp⟩
    · rcases hs.left j hj with hl | ⟨c', hc', hr'⟩
      · exact .inl ((mem_leave hs.part.nodup).2 ⟨hji, hl⟩)
      · exact .inr ⟨c', by rw [List.getElem?_set_ne (Ne.symm hji)]; exact hc', hr'⟩
  · intro j c' hc' hw hr'
    rcases getElem?_set_cases hc' with ⟨rfl, rfl⟩ | ⟨-, hc'⟩
    · exact hwhole hw (Option.some.inj hr')
    · exact hs.whole j c' hc' hw hr'
  · intro j c' hc' ha
    rcases getElem?_set_cases hc' with ⟨rfl, rfl⟩ | ⟨-, hc'⟩
    · have hj : Holds s.handle.lock j := by
        refine hholds fun hre => ?_
        rw [answered, hre] at ha
        cases ha
      have hasked := hs.turns.order.sub.subset (List.mem_of_mem_head? hj)
      exact ⟨hasked, (hs.turns.order.served hj).leave j⟩
    · exact ⟨(hs.served j c' hc' ha).1, (hs.served j c' hc' ha).2.leave i⟩
  · intro j c' hc' he
    rcases getElem?_set_cases hc' with ⟨rfl, rfl⟩ | ⟨-, hc'⟩
    · obtain ⟨hop, hok⟩ := ends_op he
      exact hans.ended hop (Option.some.inj hok)
    · rw [Bool.eq_false_iff]
      intro ho
      have hclosed := hs.closed j c' hc' he
      rw [hans.opens ho] at hclosed
      cases hclosed
  · intro j c' hc' hop hok
    rcases getElem?_set_cases hc' with ⟨rfl, rfl⟩ | ⟨-, hc'⟩
    · exact hans.finished hop (Option.some.inj hok)
    · exact hans.kept (hs.finished j c' hc' hop hok)
  · rcases hans.finisher hf with hf | hf
    · obtain ⟨j, c', hc', hfin⟩ := hs.finisher hf
      by_cases hji : j = i
      · subst hji
        rw [hc, Option.some.injEq] at hc'
        subst hc'
        exact ⟨j, _, getElem?_set_of_some hc, hfin⟩
      · exact ⟨j, c', (List.getElem?_set_ne (Ne.symm hji)).trans hc', hfin⟩
    · exact ⟨i, _, getElem?_set_of_some hc, hf⟩
  · intro p hp l₁ l₂ hasked f hf c' hc'
    rcases getElem?_set_cases hc' with ⟨rfl, rfl⟩ | ⟨-, hc'⟩
    · -- who ends the stream now still has the part, so nobody behind it has written
      rw [Bool.eq_false_iff]
      intro he
      have hf' : Holds s.handle.lock f := by
        refine hholds fun hre => ?_
        have hok := (ends_op he).2
        rw [hre] at hok
        cases hok
      exact (hs.turns.served p hp).2 l₁ l₂ hasked f hf (List.mem_of_mem_head? hf')
    · exact hs.after p hp l₁ l₂ hasked f hf c' hc'

/-- A new call. -/
theorem Inv.call (hs : Inv s) (op : Op) (data : Bytes) :
    Inv { s with
      handle := { s.handle with calls := s.handle.calls ++ [{ op := op, result := none }] }
      data := s.data ++ [if writes op then data else []] } := by
  have hpayload : ∀ j, j < s.handle.calls.length →
      payload { s with data := s.data ++ [if writes op then data else []] } j = payload s j := by
    intro j hj
    rw [payload, payload, List.getElem?_append_left (hs.data ▸ hj)]
  have hold : ∀ {j : ℕ} {c : Call}, s.handle.calls[j]? = some c → j < s.handle.calls.length :=
    fun hc => (List.getElem?_eq_some_iff.1 hc).1
  refine ⟨⟨hs.part.nodup, fun j hj => ?_⟩, by simp [hs.data], ?_, hs.turns, fun j hj => ?_,
    fun j => ?_, ?_, ?_, ?_, ?_, fun hf => ?_, ?_⟩
  · obtain ⟨c, hc, hr⟩ := hs.part.pending j hj
    exact ⟨c, getElem?_concat_of_some hc, hr⟩
  · intro j c hc hw
    rcases getElem?_concat_cases hc with ⟨rfl, rfl⟩ | hc
    · simp [payload, ← hs.data, show writes op = false from hw]
    · exact (hpayload j (hold hc)).trans (hs.idle j c hc hw)
  · rcases hs.left j hj with hl | ⟨c, hc, hr⟩
    · exact .inl hl
    · exact .inr ⟨c, getElem?_concat_of_some hc, hr⟩
  · -- a call that nobody has polled yet has no share
    by_cases hj : j ∈ s.asked
    · have hprefix := hs.share j
      rwa [← hpayload j (hs.known hj)] at hprefix
    · have hnone : FairLock.share s.pieces j = [] := by
        by_contra hne
        obtain ⟨p, hp, rfl⟩ := exists_of_share_ne_nil hne
        exact hj (hs.turns.served p hp).1
      show FairLock.share s.pieces j <+: _
      rw [hnone]
      exact List.nil_prefix
  · intro j c hc hw hr
    rcases getElem?_concat_cases hc with ⟨rfl, rfl⟩ | hc
    · cases hr
    · exact (hs.whole j c hc hw hr).trans (hpayload j (hold hc)).symm
  · intro j c hc ha
    rcases getElem?_concat_cases hc with ⟨rfl, rfl⟩ | hc
    · cases ha
    · exact hs.served j c hc ha
  · intro j c hc he
    rcases getElem?_concat_cases hc with ⟨rfl, rfl⟩ | hc
    · rw [ends_pending rfl] at he
      cases he
    · exact hs.closed j c hc he
  · intro j c hc hop hok
    rcases getElem?_concat_cases hc with ⟨rfl, rfl⟩ | hc
    · cases hok
    · exact hs.finished j c hc hop hok
  · obtain ⟨j, c, hc, hfin⟩ := hs.finisher hf
    exact ⟨j, c, getElem?_concat_of_some hc, hfin⟩
  · intro p hp l₁ l₂ hasked f hf c hc
    rcases getElem?_concat_cases hc with ⟨rfl, rfl⟩ | hc
    · exact ends_pending rfl
    · exact hs.after p hp l₁ l₂ hasked f hf c hc

/-- A step of somebody else: of the peer, or of one who takes the part out of its handle. -/
theorem Inv.frame (hs : Inv s) {h : Handle} (hlock : h.lock = s.handle.lock)
    (hcalls : h.calls = s.handle.calls)
    (hfin : h.native.finished = s.handle.native.finished)
    (hreset : h.native.was_reset = s.handle.native.was_reset) : Inv { s with handle := h } := by
  obtain ⟨part, lock, native, calls⟩ := h
  subst hlock hcalls
  have hopen : is_open native = is_open s.handle.native := by rw [is_open, is_open, hfin, hreset]
  refine ⟨⟨hs.part.nodup, hs.part.pending⟩, hs.data, hs.idle, hs.turns, hs.left, hs.share, hs.whole,
    hs.served, fun j c hc he => hopen.trans (hs.closed j c hc he),
    fun j c hc hop hok => hfin.trans (hs.finished j c hc hop hok),
    fun hf => hs.finisher (hfin.symm.trans hf), hs.after⟩

/-! ## One step, and runs -/

/-- What a poll adds is a piece of the rest of the holder's data, on an open stream. -/
theorem takes_eq_some {a : Answer} {n : ℕ} {piece : Bytes} (h : takes s i c a n = some piece) :
    Holds (ask s.handle.lock i) i ∧ is_open s.handle.native = true ∧ piece <+: rest s i
      ∧ (a = .ready → piece = rest s i) := by
  unfold takes at h
  split at h
  · rename_i hh
    cases h
    refine ⟨hh.1, hh.2.2.2, ?_, fun ha => if_pos ha⟩
    split
    · exact List.prefix_refl _
    · exact List.take_prefix n _
  · cases h

/-- The state between the polling of the native stream and the release of the part. -/
theorem Inv.polled (hs : Inv s) (hc : s.handle.calls[i]? = some c) (hr : c.result = none)
    (a : Answer) (n : ℕ) :
    Inv { s with
      handle := { s.handle with lock := FairLock.ask s.handle.lock i }
      asked := FairLock.ask s.asked i
      pieces := s.pieces ++ ((takes s i c a n).map (i, ·)).toList } := by
  have hask := hs.ask hc hr
  cases htakes : takes s i c a n with
  | none => simpa using hask
  | some piece =>
      obtain ⟨hi, hopen, hp, -⟩ := takes_eq_some htakes
      exact hask.add hc hr hi hopen hp

/-- A write that is ready has had all of its data taken. -/
theorem share_of_ready (hs : Inv s) {n : ℕ} (hw : writes c.op = true)
    (hi : Holds (ask s.handle.lock i) i) (hpart : s.handle.part = true)
    (hopen : is_open s.handle.native = true) :
    FairLock.share (s.pieces ++ ((takes s i c .ready n).map (i, ·)).toList) i = payload s i := by
  have htakes : takes s i c .ready n = some (rest s i) := by
    rw [takes, if_pos ⟨hi, hpart, hw, hopen⟩, if_pos rfl]
  obtain ⟨tail, htail⟩ := hs.share i
  rw [htakes]
  show FairLock.share (s.pieces ++ [(i, rest s i)]) i = payload s i
  rw [share_snoc, if_pos rfl, rest, ← htail, List.drop_left]

/-- **One step keeps the invariant.** A poll is put together from asking, taking a piece, and
leaving with the result. -/
theorem step_inv {s' : Stream} {l : Label} (hs : Inv s) (h : step s l = some s') : Inv s' := by
  obtain ⟨t, ht, rfl⟩ := Option.map_eq_some_iff.1 h
  cases l with
  | call op data =>
      cases ht
      exact hs.call op data
  | poll i a n =>
      obtain ⟨c, hc, hp⟩ := Option.bind_eq_some_iff.1 ht
      simp only [hc, Option.bind_some]
      obtain ⟨hr, ⟨-, rfl⟩ | ⟨n', r, hcomp, hi, -, rfl⟩⟩ := SendPart.poll_cases hp
      · exact hs.polled hc hr a n
      · have hans := completes_answers hi hcomp
        refine (hs.polled hc hr a n).settle hc (fun _ => hi) hans fun hw hok => ?_
        obtain ⟨hpart, hop, rfl⟩ := hans.wrote hw hok
        exact share_of_ready hs hw hi hpart hop
  | cancel i =>
      obtain ⟨c, hc, hp⟩ := Option.bind_eq_some_iff.1 ht
      split at hp
      · cases hp
        refine hs.settle hc (fun hne => absurd rfl hne) (Answers.cancelled s.handle.part _ c.op)
          fun _ hok => ?_
        cases hok
      · cases hp
  | take =>
      simp only [Label.part, SendPart.step, Option.ite_none_right_eq_some, Option.some.injEq] at ht
      exact hs.frame (ht.2 ▸ rfl) (ht.2 ▸ rfl) (ht.2 ▸ rfl) (ht.2 ▸ rfl)
  | peer_stop code =>
      simp only [Label.part, SendPart.step, Option.ite_none_right_eq_some, Option.some.injEq] at ht
      exact hs.frame (ht.2 ▸ rfl) (ht.2 ▸ rfl) (ht.2 ▸ rfl) (ht.2 ▸ rfl)
  | ack =>
      simp only [Label.part, SendPart.step, Option.ite_none_right_eq_some, Option.some.injEq] at ht
      exact hs.frame (ht.2 ▸ rfl) (ht.2 ▸ rfl) (ht.2 ▸ rfl) (ht.2 ▸ rfl)

/-- So it holds in every run. -/
theorem run_data {ls : List Label} (h : run step init ls = some s) : Inv s :=
  run_inv step (fun _ _ _ hs h => step_inv hs h) init_inv h

/-! ## What a step leaves as it was -/

/-- A step that adds a piece of a pending write, or none. -/
def Adds (s s' : Stream) : Prop :=
  s'.pieces = s.pieces ∨ ∃ (i : ℕ) (piece : Bytes) (c : Call),
    s'.pieces = s.pieces ++ [(i, piece)] ∧ s.handle.calls[i]? = some c ∧ c.result = none
      ∧ writes c.op = true

/-- No call changes what it is, or its result; and only a pending write has a piece taken. -/
structure Moves (s : Stream) (l : Label) (s' : Stream) : Prop where
  calls : ∀ (k : ℕ) (c : Call), s.handle.calls[k]? = some c →
    ∃ c', s'.handle.calls[k]? = some c' ∧ c'.op = c.op ∧ (c.result ≠ none → c' = c)
  made : ∀ (k : ℕ) (c : Call), s'.handle.calls[k]? = some c →
    (∃ c', s.handle.calls[k]? = some c' ∧ c.op = c'.op)
    ∨ k = s.handle.calls.length ∧ ∃ data, l = .call c.op data
  payload : ∀ k, k < s.handle.calls.length → payload s' k = payload s k
  pieces : Adds s s'
  finished : s.handle.native.finished = true → s'.handle.native.finished = true

/-- A step in which no call is made or ends. -/
theorem Moves.same {s' : Stream} {l : Label} (hcalls : s'.handle.calls = s.handle.calls)
    (hdata : s'.data = s.data) (hadds : Adds s s')
    (hfin : s.handle.native.finished = true → s'.handle.native.finished = true) :
    Moves s l s' := by
  refine ⟨fun k c hc => ⟨c, hcalls ▸ hc, rfl, fun _ => rfl⟩, fun k c hc => .inl ⟨c, ?_, rfl⟩,
    fun k _ => ?_, hadds, hfin⟩
  · rw [← hcalls]
    exact hc
  · rw [SendData.payload, SendData.payload, hdata]

/-- A step in which one pending call ends. -/
theorem Moves.set {s' : Stream} {l : Label} {r : Option Result}
    (hc : s.handle.calls[i]? = some c) (hr : c.result = none)
    (hcalls : s'.handle.calls = s.handle.calls.set i { c with result := r })
    (hdata : s'.data = s.data) (hadds : Adds s s')
    (hfin : s.handle.native.finished = true → s'.handle.native.finished = true) :
    Moves s l s' := by
  refine ⟨fun k c' hc' => ?_, fun k c' hc' => .inl ?_, fun k _ => ?_, hadds, hfin⟩
  · by_cases hki : k = i
    · subst hki
      rw [hc, Option.some.injEq] at hc'
      subst hc'
      refine ⟨{ c with result := r }, ?_, rfl, fun hne => absurd hr hne⟩
      rw [hcalls]
      exact getElem?_set_of_some hc
    · exact ⟨c', by rw [hcalls, List.getElem?_set_ne (Ne.symm hki)]; exact hc', rfl, fun _ => rfl⟩
  · rw [hcalls] at hc'
    rcases getElem?_set_cases hc' with ⟨rfl, rfl⟩ | ⟨-, hc'⟩
    · exact ⟨c, hc, rfl⟩
    · exact ⟨c', hc', rfl⟩
  · rw [SendData.payload, SendData.payload, hdata]

/-- Only a call with data has a piece taken. -/
theorem takes_writes {a : Answer} {n : ℕ} {piece : Bytes} (h : takes s i c a n = some piece) :
    writes c.op = true := by
  unfold takes at h
  split at h
  · rename_i hh
    exact hh.2.2.1
  · cases h

/-- **What a step leaves as it was**, for whoever follows a call through a run. -/
theorem step_moves {s' : Stream} {l : Label} (hs : Inv s) (h : step s l = some s') :
    Moves s l s' := by
  obtain ⟨t, ht, rfl⟩ := Option.map_eq_some_iff.1 h
  cases l with
  | call op data =>
      cases ht
      refine ⟨fun k c hc => ⟨c, getElem?_concat_of_some hc, rfl, fun _ => rfl⟩, fun k c hc => ?_,
        fun k hk => ?_, .inl rfl, id⟩
      · rcases getElem?_concat_cases hc with ⟨rfl, rfl⟩ | hc
        · exact .inr ⟨rfl, data, rfl⟩
        · exact .inl ⟨c, hc, rfl⟩
      · simp only [SendData.payload]
        rw [List.getElem?_append_left (hs.data ▸ hk)]
  | poll i a n =>
      obtain ⟨c, hc, hp⟩ := Option.bind_eq_some_iff.1 ht
      have hr : c.result = none := (SendPart.poll_cases hp).1
      simp only [hc, Option.bind_some]
      have hadds : ∀ {s' : Stream},
          s'.pieces = s.pieces ++ ((takes s i c a n).map (i, ·)).toList → Adds s s' := by
        intro s' hs'
        cases htakes : takes s i c a n with
        | none => exact .inl (by rw [hs', htakes]; exact List.append_nil _)
        | some piece =>
            exact .inr ⟨i, piece, c, by rw [hs', htakes]; rfl, hc, hr, takes_writes htakes⟩
      obtain ⟨-, ⟨-, rfl⟩ | ⟨n', r, hcomp, hi, -, rfl⟩⟩ := SendPart.poll_cases hp
      · exact .same rfl rfl (hadds rfl) id
      · exact .set hc hr rfl rfl (hadds rfl) (completes_answers hi hcomp).kept
  | cancel i =>
      obtain ⟨c, hc, hp⟩ := Option.bind_eq_some_iff.1 ht
      split at hp
      · rename_i hr
        cases hp
        exact .set hc hr rfl rfl (.inl rfl) id
      · cases hp
  | take =>
      simp only [Label.part, SendPart.step, Option.ite_none_right_eq_some, Option.some.injEq] at ht
      exact .same (ht.2 ▸ rfl) rfl (.inl rfl) (ht.2 ▸ id)
  | peer_stop code =>
      simp only [Label.part, SendPart.step, Option.ite_none_right_eq_some, Option.some.injEq] at ht
      exact .same (ht.2 ▸ rfl) rfl (.inl rfl) (ht.2 ▸ id)
  | ack =>
      simp only [Label.part, SendPart.step, Option.ite_none_right_eq_some, Option.some.injEq] at ht
      exact .same (ht.2 ▸ rfl) rfl (.inl rfl) (ht.2 ▸ id)

/-- Behind the end of the stream, nobody has a share. -/
theorem Inv.share_behind (hs : Inv s) {l₁ l₂ : List ℕ} (hasked : s.asked = l₁ ++ i :: l₂)
    (hc : s.handle.calls[i]? = some c) (he : ends c = true) {j : ℕ} (hj : j ∈ l₂) :
    FairLock.share s.pieces j = [] := by
  by_contra hne
  obtain ⟨p, hp, rfl⟩ := exists_of_share_ne_nil hne
  obtain ⟨a, b, rfl⟩ := List.append_of_mem hj
  have hsplit : s.asked = (l₁ ++ i :: a) ++ p.1 :: b := by
    rw [hasked]
    simp
  have hno := hs.after p hp _ _ hsplit i (by simp) c hc
  rw [he] at hno
  cases hno

/-- **The writes of a stream go out whole, in the order of asking, and its end comes behind
them.** In every run, with any number of calls on one `SendStream`, cancelled at any time:
the bytes on the stream are the shares of the calls, one after the other, in the order in
which the calls first asked for the part. A call's share is a beginning of its data, and all
of it if the write returned. A call that was answered, with an error or without, got its answer
after everyone who had asked before it was over; and once a `finish` or `reset` has returned, the
stream is the shares of those before it, and nothing else. -/
theorem writes_whole_in_turn {ls : List Label} (h : run step init ls = some s) :
    s.asked.Nodup ∧ sent s = s.asked.flatMap (share s.pieces)
    ∧ (∀ j c, s.handle.calls[j]? = some c → share s.pieces j <+: payload s j
        ∧ (writes c.op = true → c.result = some .ok → share s.pieces j = payload s j))
    ∧ ∀ l₁ j l₂ c, s.asked = l₁ ++ j :: l₂ → s.handle.calls[j]? = some c →
        (answered c = true → ∀ k ∈ l₁, completed s.handle k = true)
        ∧ (ends c = true → sent s = l₁.flatMap (share s.pieces)) := by
  have hs := run_data h
  refine ⟨hs.turns.order.nodup, hs.turns.whole, fun j c hc => ⟨hs.share j, hs.whole j c hc⟩,
    fun l₁ j l₂ c hasked hc => ⟨fun ha k hk => ?_, fun he => ?_⟩⟩
  · have hk' : k ∈ s.asked := hasked ▸ List.mem_append_left _ hk
    rcases hs.left k hk' with hl | ⟨c', hc', hr⟩
    · exact absurd hl ((hs.served j c hc ha).2 l₁ l₂ hasked k hk)
    · rw [completed, hc', Option.any_some]
      exact Option.isSome_iff_ne_none.2 hr
  · have hself : share s.pieces j = [] := by
      have hprefix := hs.share j
      rw [hs.idle j c hc (ends_writes he)] at hprefix
      exact List.prefix_nil.1 hprefix
    have hbehind : l₂.flatMap (share s.pieces) = [] :=
      List.flatMap_eq_nil_iff.2 fun k hk => hs.share_behind hasked hc he hk
    rw [sent, hs.turns.whole, hasked, List.flatMap_append, List.flatMap_cons, hself, hbehind,
      List.nil_append, List.append_nil]

/-- Three writes and a `finish`; the second write is cancelled with one byte taken. -/
def three_writes : List Label :=
  [.call .write [1, 2], .call .write_chunk [3, 4], .call .write [5], .call .finish [],
    .poll 0 .pending 1, .poll 1 .pending 0, .poll 2 .pending 0, .poll 3 .pending 0,
    .poll 0 .ready 0, .poll 1 .pending 1, .cancel 1, .poll 2 .ready 0, .poll 3 .ready 0]

/-- The hypothesis can be met. Of the cancelled write the first byte is on the stream and the
second is not, and the write behind it follows at once. -/
theorem writes_whole_in_turn_three :
    ∃ s, run step init three_writes = some s ∧ s.asked = [0, 1, 2] ++ 3 :: []
      ∧ sent s = [0, 1, 2].flatMap (share s.pieces) ∧ sent s = [1, 2, 3, 5] := by
  have h := @writes_whole_in_turn _ three_writes rfl
  exact ⟨_, rfl, rfl, (h.2.2.2 [0, 1, 2] 3 [] _ rfl rfl).2 rfl, rfl⟩

end ZmuxPy.SendData
