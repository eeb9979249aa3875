/-
`stream_pipe` and `splice` (`src/helpers.rs`): calls that take the parts of
bidirectional streams out of their Python handles.

A `SendStream` or `RecvStream` object is a mutex around its part of a stream;
`None` in it once a call took the part, and locked while an operation is in
progress. `pair` takes both parts of one stream: it locks both handles before it
takes either, so that a failure takes neither. Whether the two parts belong
together it decides by their stream IDs, which a stream does not have before it is
on the wire, and which are unique within a session only. `splice` takes two
pairs, one after the other, and makes its asyncio future last.

Handles go by the identity of their objects. What the crate guarantees of stream
IDs is a field of `Streams`; what it makes of the parts of a pair
(`zmux::PipeIo::from_stream`) is a parameter, about which nothing is assumed.
-/
import Mathlib.Logic.Function.Basic
import Mathlib.Tactic.Basic
import ZmuxPy.Pyo3

set_option autoImplicit false

namespace ZmuxPy.StreamHelpers

open Function Pyo3

/-! ## Streams and handles -/

/-- A stream as one endpoint has it: two ends of one connection are two sessions. -/
structure Stream where
  session : ℕ
  /-- `None` until the stream is opened on the wire. -/
  id : Option ℕ
  deriving DecidableEq, Repr

/-- The streams there are; `S` tells them apart. -/
structure Streams (S : Type) where
  get : S → Stream
  unique : ∀ s t n, (get s).session = (get t).session → (get s).id = some n →
    (get t).id = some n → s = t

/-- A `SendStream` or a `RecvStream` object. -/
structure Handle (S : Type) where
  /-- The stream whose part it holds. -/
  part : Option S
  /-- An operation is in progress. -/
  locked : Bool
  deriving DecidableEq, Repr

/-- The handles of the sending and the receiving parts. -/
structure Handles (S : Type) where
  sends : ℕ → Handle S
  recvs : ℕ → Handle S

/-- A `SendStream` and a `RecvStream` object, as Python gives them. -/
structure Pair where
  send : ℕ
  recv : ℕ
  deriving DecidableEq, Repr

variable {S L P : Type} (streams : Streams S)

/-- Both parts leave their handles. -/
def Handles.take (h : Handles S) (p : Pair) : Handles S where
  sends := update h.sends p.send { h.sends p.send with part := none }
  recvs := update h.recvs p.recv { h.recvs p.recv with part := none }

@[simp] theorem part_take_send (h : Handles S) (p : Pair) :
    ((h.take p).sends p.send).part = none := by simp [Handles.take]

@[simp] theorem part_take_recv (h : Handles S) (p : Pair) :
    ((h.take p).recvs p.recv).part = none := by simp [Handles.take]

theorem take_sends_of_ne (h : Handles S) {p : Pair} {i : ℕ} (hne : i ≠ p.send) :
    (h.take p).sends i = h.sends i := update_of_ne hne _ _

theorem take_recvs_of_ne (h : Handles S) {p : Pair} {i : ℕ} (hne : i ≠ p.recv) :
    (h.take p).recvs i = h.recvs i := update_of_ne hne _ _

/-! ## The calls -/

/-- What the calls raise. -/
inductive Raised where
  | py (e : PyErr)
  /-- `StreamError` of kind `ClosedLocally`. -/
  | closed_locally
  deriving DecidableEq, Repr

/-- What a call leaves behind, and how it ended. -/
abbrev Ran (S α : Type) := Handles S × Except Raised α

/-- The error of a part that another operation has. -/
def busy : Raised := .py (.runtime_error "another operation on this stream is in progress")

/-- `x != y`, where both streams have an ID. -/
def ids_differ (s r : S) : Bool :=
  match (streams.get s).id, (streams.get r).id with
  | some x, some y => x != y
  | _, _ => false

/-- `pair(send, recv)`. -/
def pair (h : Handles S) (p : Pair) : Ran S (S × S) :=
  if (h.sends p.send).locked then (h, .error busy)
  else if (h.recvs p.recv).locked then (h, .error busy)
  else
    match (h.sends p.send).part, (h.recvs p.recv).part with
    | some s, some r =>
      if ids_differ streams s r then
        (h, .error (.py (.value_error "the parts of two different streams")))
      else (h.take p, .ok (s, r))
    | _, _ => (h, .error .closed_locally)

/-- `stream_pipe(send, recv)`, over the crate's `zmux::PipeIo::from_stream`. Where that
panics (`none`) the handles are used up all the same. -/
def stream_pipe (from_stream : S → S → Option P) (h : Handles S) (p : Pair) :
    Ran S (Option P) :=
  match pair streams h p with
  | (h', .ok (s, r)) => (h', .ok (from_stream s r))
  | (h', .error e) => (h', .error e)

/-- The arguments of `splice`; `L` is for the limiter objects. -/
structure Args (L : Type) where
  a : Pair
  b : Pair
  chunk : ℕ
  a_to_b : Option L
  b_to_a : Option L
  deriving DecidableEq, Repr

/-- What the future of a `splice` runs: `zmux::helpers::splice(sa, sb, opts)`. -/
structure Splicing (S L : Type) where
  sa : S × S
  sb : S × S
  chunk : ℕ
  a_to_b : Option L
  b_to_a : Option L
  deriving DecidableEq, Repr

/-- The error of `future_into_py` without a loop. -/
def no_loop : Raised := .py (.runtime_error "no running event loop")

/-- `future_into_py`: it fails first of all without a running event loop, and drops
what it was given. -/
def future_into_py (loop : Bool) (h : Handles S) (f : Splicing S L) : Ran S (Splicing S L) :=
  if loop then (h, .ok f) else (h, .error no_loop)

def Args.limited (x : Args L) : Bool := x.a_to_b.isSome || x.b_to_a.isSome

/-- `splice`: the arguments are checked, both pairs are taken, and then the future is made. -/
def splice (h : Handles S) (loop : Bool) (x : Args L) : Ran S (Splicing S L) :=
  if x.chunk = 0 then (h, .error (.py (.value_error "chunk is at least 1")))
  else if x.a.send = x.b.send ∨ x.a.recv = x.b.recv then
    (h, .error (.py (.value_error "a stream cannot be spliced into itself")))
  -- `get_current_locals(py)?`
  else if x.limited && !loop then (h, .error no_loop)
  else
    match pair streams h x.a with
    | (h₁, .error e) => (h₁, .error e)
    | (h₁, .ok sa) =>
      match pair streams h₁ x.b with
      | (h₂, .error e) => (h₂, .error e)
      | (h₂, .ok sb) => future_into_py loop h₂ ⟨sa, sb, x.chunk, x.a_to_b, x.b_to_a⟩

/-! ## `pair` -/

/-- Both handles are free and hold their parts, and nothing is known against the
two. -/
def fits (h : Handles S) (p : Pair) : Bool :=
  !(h.sends p.send).locked && !(h.recvs p.recv).locked &&
    match (h.sends p.send).part, (h.recvs p.recv).part with
    | some s, some r => !ids_differ streams s r
    | _, _ => false

/-- `pair` takes both parts of handles that fit, and otherwise neither. -/
theorem pair_cases (h : Handles S) (p : Pair) :
    (fits streams h p = true ∧ ∃ s r, (h.sends p.send).part = some s ∧
      (h.recvs p.recv).part = some r ∧ ids_differ streams s r = false ∧
      pair streams h p = (h.take p, .ok (s, r))) ∨
    (fits streams h p = false ∧ ∃ e, pair streams h p = (h, .error e)) := by
  unfold fits pair
  cases (h.sends p.send).locked with
  | true => exact .inr ⟨rfl, _, rfl⟩
  | false =>
      cases (h.recvs p.recv).locked with
      | true => exact .inr ⟨rfl, _, rfl⟩
      | false =>
          cases (h.sends p.send).part with
          | none => exact .inr ⟨rfl, _, rfl⟩
          | some s =>
              cases (h.recvs p.recv).part with
              | none => exact .inr ⟨rfl, _, rfl⟩
              | some r =>
                  cases hd : ids_differ streams s r with
                  | true => exact .inr ⟨by simp [hd], _, if_pos hd⟩
                  | false => exact .inl ⟨by simp [hd], s, r, rfl, rfl, hd, by simp [hd]⟩

/-! ## All or nothing -/

/-- What the four handles of a `splice` hold. -/
def held (h : Handles S) (x : Args L) : List (Option S) :=
  [(h.sends x.a.send).part, (h.recvs x.a.recv).part,
    (h.sends x.b.send).part, (h.recvs x.b.recv).part]

/-- A call that raises leaves the four handles with what they held; one that returns
has taken all four parts. -/
def AllOrNothing (x : Args L) (h : Handles S) (out : Ran S (Splicing S L)) : Prop :=
  match out.2 with
  | .error _ => held out.1 x = held h x
  | .ok f =>
    held h x = [some f.sa.1, some f.sa.2, some f.sb.1, some f.sb.2] ∧
      held out.1 x = [none, none, none, none]

/-- The call fails before it takes anything. -/
def refused (h : Handles S) (loop : Bool) (x : Args L) : Bool :=
  decide (x.chunk = 0) || decide (x.a.send = x.b.send ∨ x.a.recv = x.b.recv) ||
    (x.limited && !loop) || !fits streams h x.a

/-- It does, or nothing is left to fail once it takes the first pair: the second one
fits too, and there is a running event loop. -/
def whole (h : Handles S) (loop : Bool) (x : Args L) : Bool :=
  refused streams h loop x || (fits streams h x.b && loop)

variable {streams}

/-- Other handles are not affected by what `pair` takes. -/
theorem fits_take {h : Handles S} {p q : Pair} (hs : q.send ≠ p.send) (hr : q.recv ≠ p.recv) :
    fits streams (h.take p) q = fits streams h q := by
  simp only [fits, take_sends_of_ne h hs, take_recvs_of_ne h hr]

/-- `splice` stops before it takes anything, or goes on with the first pair in hand
and the handles of the second untouched. -/
theorem splice_cases (streams : Streams S) (h : Handles S) (loop : Bool) (x : Args L) :
    (refused streams h loop x = true ∧ ∃ e, splice streams h loop x = (h, .error e)) ∨
    (refused streams h loop x = false ∧ x.a.send ≠ x.b.send ∧ x.a.recv ≠ x.b.recv ∧
      ∃ s r, (h.sends x.a.send).part = some s ∧ (h.recvs x.a.recv).part = some r ∧
      pair streams h x.a = (h.take x.a, .ok (s, r)) ∧
      splice streams h loop x = match pair streams (h.take x.a) x.b with
        | (h₂, .error e) => (h₂, .error e)
        | (h₂, .ok sb) => future_into_py loop h₂ ⟨(s, r), sb, x.chunk, x.a_to_b, x.b_to_a⟩) := by
  unfold splice refused
  by_cases hchunk : x.chunk = 0
  · exact .inl ⟨by simp [hchunk], _, if_pos hchunk⟩
  by_cases hself : x.a.send = x.b.send ∨ x.a.recv = x.b.recv
  · rw [if_neg hchunk, if_pos hself]
    exact .inl ⟨by simp [hself], _, rfl⟩
  rw [if_neg hchunk, if_neg hself]
  cases hlim : x.limited && !loop with
  | true => exact .inl ⟨by simp, _, rfl⟩
  | false =>
      rcases pair_cases streams h x.a with ⟨hfit, s, r, hs, hr, -, hpair⟩ | ⟨hno, e, hpair⟩
      · refine .inr ⟨by simp [hchunk, hself, hfit], ?_, ?_, s, r, hs, hr, hpair, ?_⟩
        · exact fun heq => hself (.inl heq)
        · exact fun heq => hself (.inr heq)
        · rw [hpair]
          rfl
      · rw [hpair]
        exact .inl ⟨by simp [hno], e, rfl⟩

/-- The first part is gone, and the call raised. -/
theorem not_allOrNothing {h h' : Handles S} {x : Args L} {s : S} {e : Raised}
    (hs : (h.sends x.a.send).part = some s) (hgone : (h'.sends x.a.send).part = none) :
    ¬ AllOrNothing x h (h', .error e) := by
  intro hall
  have hhead : (h'.sends x.a.send).part = (h.sends x.a.send).part := (List.cons.inj hall).1
  rw [hgone, hs] at hhead
  cases hhead

theorem held_take_take (h : Handles S) {x : Args L} (hs : x.a.send ≠ x.b.send)
    (hr : x.a.recv ≠ x.b.recv) :
    held ((h.take x.a).take x.b) x = [none, none, none, none] := by
  simp only [held, take_sends_of_ne _ hs, take_recvs_of_ne _ hr, part_take_send, part_take_recv]

/-- **`splice` is all or nothing just when nothing can fail once it has the first
pair.** It is not when the second pair does not fit or there is no running event
loop: the parts taken by then are dropped, and their handles are empty. -/
theorem splice_all_or_nothing_iff (streams : Streams S) (h : Handles S) (loop : Bool)
    (x : Args L) :
    AllOrNothing x h (splice streams h loop x) ↔ whole streams h loop x = true := by
  rcases splice_cases streams h loop x with
    ⟨hno, e, hsplice⟩ | ⟨hgo, hsend, hrecv, s, r, hs, hr, -, hsplice⟩
  · rw [hsplice, whole, hno]
    exact ⟨fun _ => rfl, fun _ => rfl⟩
  · rw [hsplice, whole, hgo, Bool.false_or, ← fits_take hsend.symm hrecv.symm]
    rcases pair_cases streams (h.take x.a) x.b with
      ⟨hb, s', r', hs', hr', -, hpair⟩ | ⟨hb, e, hpair⟩
    · rw [hpair, hb]
      cases loop with
      | true =>
          rw [take_sends_of_ne h hsend.symm] at hs'
          rw [take_recvs_of_ne h hrecv.symm] at hr'
          refine ⟨fun _ => rfl, fun _ => ⟨?_, held_take_take h hsend hrecv⟩⟩
          simp only [held, hs, hr, hs', hr']
      | false =>
          refine iff_of_false (not_allOrNothing hs ?_) (by simp)
          rw [take_sends_of_ne _ hsend, part_take_send]
    · rw [hpair, hb]
      exact iff_of_false (not_allOrNothing hs (part_take_send h x.a)) (by simp)

/-- Two streams of one session, not on the wire yet. -/
def fresh_streams : Streams Bool := ⟨fun _ => ⟨0, none⟩, nofun⟩

/-- Handles `0` and `1` hold the parts of the first and the second stream; a read is
in progress on the second. -/
def reading : Handles Bool where
  sends := fun i => ⟨some (i == 1), false⟩
  recvs := fun i => ⟨some (i == 1), i == 1⟩

/-- The call raises `RuntimeError`, and the parts of the first stream are gone. -/
theorem splice_drops_first_pair :
    (splice fresh_streams reading true (⟨⟨0, 0⟩, ⟨1, 1⟩, 65536, none, none⟩ : Args Unit)).2
        = .error busy
    ∧ ¬ AllOrNothing (⟨⟨0, 0⟩, ⟨1, 1⟩, 65536, none, none⟩ : Args Unit) reading
        (splice fresh_streams reading true ⟨⟨0, 0⟩, ⟨1, 1⟩, 65536, none, none⟩) :=
  ⟨rfl, fun h => by cases (List.cons.inj h).1⟩

/-! ## Parts of one stream -/

/-- `pair` succeeds only for the two parts of one stream; otherwise it raises and
takes neither. -/
def OneStream (h : Handles S) (out : Ran S (S × S)) : Prop :=
  match out.2 with
  | .ok (s, r) => s = r
  | .error _ => out.1 = h

/-- The handles do not both offer a part, or the parts are of one stream, or the IDs
tell the streams apart. -/
def told_apart [DecidableEq S] (streams : Streams S) (h : Handles S) (p : Pair) : Bool :=
  (h.sends p.send).locked || (h.recvs p.recv).locked ||
    match (h.sends p.send).part, (h.recvs p.recv).part with
    | some s, some r => decide (s = r) || ids_differ streams s r
    | _, _ => true

/-- Two streams of one session that are on the wire are told apart. -/
theorem ids_differ_of_session {s r : S} {x y : ℕ} (hne : s ≠ r)
    (hses : (streams.get s).session = (streams.get r).session)
    (hx : (streams.get s).id = some x) (hy : (streams.get r).id = some y) :
    ids_differ streams s r = true := by
  have hxy : x ≠ y := by
    intro heq
    exact hne (streams.unique s r x hses hx (heq ▸ hy))
  simp [ids_differ, hx, hy, hxy]

variable [DecidableEq S]

theorem oneStream_pair_iff (streams : Streams S) (h : Handles S) (p : Pair) :
    OneStream h (pair streams h p) ↔ told_apart streams h p = true := by
  rcases pair_cases streams h p with ⟨hfit, s, r, hs, hr, hd, hpair⟩ | ⟨hno, e, hpair⟩
  · have hlock : (h.sends p.send).locked = false ∧ (h.recvs p.recv).locked = false := by
      simp only [fits, Bool.and_eq_true, Bool.not_eq_true'] at hfit
      exact hfit.1
    rw [hpair]
    simp [OneStream, told_apart, hlock, hs, hr, hd]
  · rw [hpair]
    refine ⟨fun _ => ?_, fun _ => rfl⟩
    simp only [fits, Bool.and_eq_false_iff, Bool.not_eq_false'] at hno
    unfold told_apart
    rcases hno with (hl | hl) | hparts
    · simp [hl]
    · simp [hl]
    · cases hs : (h.sends p.send).part with
      | none => simp
      | some s =>
          cases hr : (h.recvs p.recv).part with
          | none => simp
          | some r =>
              have hd : ids_differ streams s r = true := by simpa [hs, hr] using hparts
              simp [hd]

theorem told_apart_take {streams : Streams S} {h : Handles S} {p q : Pair}
    (hs : q.send ≠ p.send) (hr : q.recv ≠ p.recv) :
    told_apart streams (h.take p) q = told_apart streams h q := by
  simp only [told_apart, take_sends_of_ne h hs, take_recvs_of_ne h hr]

/-- What `pair` returns for handles that are told apart. -/
theorem pair_ok {streams : Streams S} {h h' : Handles S} {p : Pair} {s r : S}
    (htold : told_apart streams h p = true) (hpair : pair streams h p = (h', .ok (s, r))) :
    s = r := by
  have hone := (oneStream_pair_iff streams h p).2 htold
  rw [hpair] at hone
  exact hone

/-- `stream_pipe` raises and takes nothing, or hands the crate the two parts of one
stream. -/
theorem stream_pipe_cases {streams : Streams S} (from_stream : S → S → Option P)
    {h : Handles S} {p : Pair} (htold : told_apart streams h p = true) :
    (∃ e, stream_pipe streams from_stream h p = (h, .error e)) ∨
    ∃ s, (h.sends p.send).part = some s ∧ (h.recvs p.recv).part = some s ∧
      stream_pipe streams from_stream h p = (h.take p, .ok (from_stream s s)) := by
  unfold stream_pipe
  rcases pair_cases streams h p with ⟨-, s, r, hs, hr, -, hpair⟩ | ⟨-, e, hpair⟩
  · obtain rfl : s = r := pair_ok htold hpair
    rw [hpair]
    exact .inr ⟨s, hs, hr, rfl⟩
  · rw [hpair]
    exact .inl ⟨e, rfl⟩

/-- A splice that is started has four parts of two streams. -/
theorem splice_ok {streams : Streams S} {h h' : Handles S} {loop : Bool} {x : Args L}
    {f : Splicing S L} (ha : told_apart streams h x.a = true)
    (hb : told_apart streams h x.b = true) (hsplice : splice streams h loop x = (h', .ok f)) :
    f.sa.1 = f.sa.2 ∧ f.sb.1 = f.sb.2 := by
  rcases splice_cases streams h loop x with
    ⟨-, e, heq⟩ | ⟨-, hsend, hrecv, s, r, -, -, hpair, heq⟩
  · rw [heq] at hsplice
    cases hsplice
  · rw [heq] at hsplice
    rw [← told_apart_take hsend.symm hrecv.symm] at hb
    split at hsplice
    · cases hsplice
    · rename_i h₂ sb hpair'
      unfold future_into_py at hsplice
      split at hsplice
      · cases hsplice
        exact ⟨pair_ok ha hpair, pair_ok hb hpair'⟩
      · cases hsplice

/-- **`pair` tells streams apart just when their IDs do.** It takes only the two parts
of one stream just when the handles offer no two parts, or parts of one stream, or
of streams whose IDs are known and differ, as those of two streams of one session
that are on the wire are. For such handles `stream_pipe` raises and takes nothing or
hands the crate the two parts of one stream, whatever the crate makes of them, and
both sides of `splice` are each of one stream. -/
theorem pair_one_stream_iff (streams : Streams S) (from_stream : S → S → Option P)
    (h : Handles S) :
    (∀ p, OneStream h (pair streams h p) ↔ told_apart streams h p = true) ∧
    (∀ s r, s ≠ r → (streams.get s).session = (streams.get r).session →
      (streams.get s).id ≠ none → (streams.get r).id ≠ none → ids_differ streams s r = true) ∧
    (∀ p, told_apart streams h p = true →
      (∃ e, stream_pipe streams from_stream h p = (h, .error e)) ∨
      ∃ s, (h.sends p.send).part = some s ∧ (h.recvs p.recv).part = some s ∧
        stream_pipe streams from_stream h p = (h.take p, .ok (from_stream s s))) ∧
    (∀ loop (x : Args L) h' f, told_apart streams h x.a = true →
      told_apart streams h x.b = true → splice streams h loop x = (h', .ok f) →
      f.sa.1 = f.sa.2 ∧ f.sb.1 = f.sb.2) := by
  refine ⟨oneStream_pair_iff streams h, fun s r hne hses hs hr => ?_,
    fun p => stream_pipe_cases from_stream, fun loop x h' f => splice_ok⟩
  obtain ⟨x, hx⟩ := Option.ne_none_iff_exists'.1 hs
  obtain ⟨y, hy⟩ := Option.ne_none_iff_exists'.1 hr
  exact ids_differ_of_session hne hses hx hy

/-- Two streams of one session, and one of another. -/
inductive Three where
  | first
  | second
  | elsewhere
  deriving DecidableEq, Repr

/-- All are on the wire; the first of each session has ID 4. -/
def three_streams : Streams Three where
  get
    | .first => ⟨0, some 4⟩
    | .second => ⟨0, some 8⟩
    | .elsewhere => ⟨1, some 4⟩
  unique := by
    intro s t n hses hs ht
    cases s <;> cases t <;> simp_all <;> omega

def three_parts : ℕ → Handle Three
  | 0 => ⟨some .first, false⟩
  | 1 => ⟨some .second, false⟩
  | 2 => ⟨some .elsewhere, false⟩
  | _ => ⟨none, false⟩

def three_handles : Handles Three := ⟨three_parts, three_parts⟩

/-- A crate that makes a pipe of the parts of one stream, and panics on others. -/
def strict_pipe (s r : Three) : Option Three := if s = r then some s else none

/-- A crossed pair of one session is refused; the two parts of a stream become a pipe;
the relay of two sessions forwards two whole streams. -/
theorem pair_one_stream_iff_three :
    OneStream three_handles (pair three_streams three_handles ⟨0, 1⟩)
    ∧ ids_differ three_streams .first .second = true
    ∧ ((∃ e, stream_pipe three_streams strict_pipe three_handles ⟨0, 0⟩
          = (three_handles, .error e)) ∨
      ∃ s, (three_handles.sends 0).part = some s ∧ (three_handles.recvs 0).part = some s ∧
        stream_pipe three_streams strict_pipe three_handles ⟨0, 0⟩
          = (three_handles.take ⟨0, 0⟩, .ok (strict_pipe s s)))
    ∧ (stream_pipe three_streams strict_pipe three_handles ⟨0, 0⟩).2 = .ok (some .first)
    ∧ ∃ h' f, splice three_streams three_handles true
        (⟨⟨1, 1⟩, ⟨2, 2⟩, 65536, none, none⟩ : Args Unit) = (h', .ok f)
      ∧ f.sa.1 = f.sa.2 ∧ f.sb.1 = f.sb.2 := by
  obtain ⟨hpair, hids, hpipe, hsplice⟩ :=
    pair_one_stream_iff (L := Unit) three_streams strict_pipe three_handles
  refine ⟨(hpair ⟨0, 1⟩).2 (by decide), hids .first .second (by decide) rfl nofun nofun,
    hpipe ⟨0, 0⟩ (by decide), rfl, _, _, rfl, ?_⟩
  exact hsplice true ⟨⟨1, 1⟩, ⟨2, 2⟩, 65536, none, none⟩ _ _ (by decide) (by decide) rfl

/-- `splice` takes a stream of one session and one of another with their halves crossed:
both sides are the sending part of one and the receiving part of the other. `pair` does
the same with two streams that are not on the wire yet. -/
theorem pair_takes_two_streams :
    (∃ h' f, splice three_streams three_handles true
        (⟨⟨0, 2⟩, ⟨2, 0⟩, 65536, none, none⟩ : Args Unit) = (h', .ok f)
      ∧ f.sa = (.first, .elsewhere) ∧ f.sb = (.elsewhere, .first))
    ∧ (pair three_streams three_handles ⟨0, 2⟩).2 = .ok (.first, .elsewhere)
    ∧ ¬ OneStream three_handles (pair three_streams three_handles ⟨0, 2⟩)
    ∧ ¬ OneStream reading (pair fresh_streams reading ⟨1, 0⟩) :=
  ⟨⟨_, _, rfl, rfl, rfl⟩, rfl, nofun, nofun⟩

end ZmuxPy.StreamHelpers
