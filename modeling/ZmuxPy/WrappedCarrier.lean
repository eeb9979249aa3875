/-
A wrapped carrier as a whole (`PipeIo.wrap`): the channel to the layer and its pumps
(`ZmuxPy.LayerChannel`), asyncio's streams (`ZmuxPy.AsyncioStreams`) and the transport
over the carrier below (`ZmuxPy.CarrierTransport`), put together as `_streams` and `run`
of `python/zmux/_layer.py` put them together.

The layer is one that does no I/O of its own before it returns, hands on the reader it was
given, and whose writer makes one write below for each write on it: `encode` is what it
writes, from a state of its own. So `up` reads from the `StreamReader` that the transport's
protocol feeds, and `down` writes to the transport. `drain` and `close` are the given
writer's. A layer with a handshake, with a reader of its own or with something to write when
it is closed (TLS has all three) is not of this kind, and none of the theorems about a
wrapped carrier is about it.

The protocol is a `StreamReaderProtocol`. The calls that the transport makes of it are
what a step adds to the transport's log; `react` is what the protocol does on each. It
calls back in one place only: a reader with too much in its buffer pauses reading. While
the transport is in a call of the protocol, the event loop runs nothing else, so the
pumps' steps need `current` to be `none`.

`asserts` says that an assertion of asyncio failed; the model stops there.
-/
import ZmuxPy.AsyncioStreams
import ZmuxPy.LayerChannel
import ZmuxPy.TransportContract

set_option autoImplicit false

namespace ZmuxPy.WrappedCarrier

open Machine Asyncio CarrierTransport
open LayerChannel (Layer)

/-! ## The model -/

/-- A wrapped carrier: the channels and the pumps of its layer, the transport over the carrier
below, and the reader and the flow control of asyncio's stream protocol between them. -/
structure Wrapped (κ : Type) where
  chan : Layer
  transport : Transport
  reader : StreamReader
  flow : Flow
  /-- The state of the layer's writer. -/
  key : κ
  /-- History: the writes of the layer on the writer it was given. -/
  encoded : List Bytes
  asserts : Bool
  deriving DecidableEq, Repr

variable {κ : Type}

/-- `_streams` has made the transport and its tasks, `run` the pumps. -/
def init (key : κ) : Wrapped κ :=
  { chan := LayerChannel.init
    transport := { CarrierTransport.init false with reader := .start, writer := .start }
    reader := .new 65536, flow := .new, key := key, encoded := [], asserts := false }

/-- What `StreamReaderProtocol` does on a call of the transport. -/
def react (w : Wrapped κ) : Event → Wrapped κ
  | .data_received data =>
    match w.reader.feed_data data with
    | some (r, pause) =>
      { w with
        reader := r
        transport := if pause then call w.transport .pause_reading else w.transport }
    | none => { w with asserts := true }
  | .eof_received => { w with reader := w.reader.feed_eof }
  | .pause_writing =>
    match w.flow.pause_writing with
    | some f => { w with flow := f }
    | none => { w with asserts := true }
  | .resume_writing =>
    match w.flow.resume_writing with
    | some f => { w with flow := f }
    | none => { w with asserts := true }
  | .connection_lost exc =>
    { w with
      reader := if exc.isNone then w.reader.feed_eof else w.reader.set_exception
      flow := w.flow.lose exc.isNone }
  | _ => w

/-- The transport moves on, and the protocol reacts to its calls. -/
def protocol (w : Wrapped κ) (t : Transport) : Wrapped κ :=
  (t.log.drop w.transport.log.length).foldl react { w with transport := t }

/-- What the protocol's method returns: `eof_received` keeps the transport open. -/
def answer (t : Transport) : Option Answer :=
  match current t, t.reader with
  | some .reader, .eof_received => some (.keep_open true)
  | some _, _ => some .none
  | none, _ => none

variable (encode : κ → Bytes → κ × Bytes)

/-- `w2.write(data)`, and into `w2.drain()`. -/
def w2_write (w : Wrapped κ) (data : Bytes) : Wrapped κ :=
  let (key, b) := encode w.key data
  protocol
    { w with key := key, encoded := w.encoded ++ [b], flow := { w.flow with drain := .entered } }
    (call w.transport (.write (.ofBytes b)))

/-- `w2.close()`. -/
def w2_close (w : Wrapped κ) : Wrapped κ := protocol w (call w.transport .close)

/-- The event loop runs `down`. The writer it was given never raises in `write`. -/
def run_down (w : Wrapped κ) : Option (Wrapped κ) :=
  (LayerChannel.run_down w.chan true).map fun chan =>
    match w.chan.down with
    | .read [] | .drained false => w2_close { w with chan := chan }
    | .read data => w2_write encode { w with chan := chan } data
    | _ => { w with chan := chan }

/-- The event loop runs `down` in `w2.drain()`. -/
def run_drain (w : Wrapped κ) : Option (Wrapped κ) :=
  match w.flow.run_drain w.reader.exception w.transport.closing with
  | some (flow, some ok) =>
    (LayerChannel.step w.chan (.drain_done ok)).map fun chan =>
      { w with flow := flow, chan := chan }
  | some (flow, none) => some { w with flow := flow }
  | none => none

/-- The event loop runs `up` in `r2.read(65536)`. -/
def run_read (w : Wrapped κ) : Option (Wrapped κ) :=
  match w.chan.up, w.reader.read 65536 with
  | .reading, some (reader, out, resume) =>
    let w' := { w with
      reader := reader
      transport := if resume then call w.transport .resume_reading else w.transport }
    match out with
    | some r => (LayerChannel.step w.chan (.r2_read r)).map fun chan => { w' with chan := chan }
    | none => some w'
  | _, _ => none

/-- What may happen next: a step of one of the parts, or a callback of the protocol that returns. -/
inductive Label where
  /-- The carrier's user, and the native ends of the channels. -/
  | channel (l : LayerChannel.Label)
  /-- The tasks of the transport and the carrier below. -/
  | transport (l : CarrierTransport.Label)
  /-- The protocol's method returns to the transport. -/
  | returns
  | run_up
  | run_down
  | run_drain
  | run_read

/-- A step of the channels that is none of the pumps'. -/
def native : LayerChannel.Label → Bool
  | .run_down _ | .drain_done _ | .r2_read _ | .run_up => false
  | _ => true

/-- A step of the transport that is no call of it, and not its birth. -/
def inner : CarrierTransport.Label → Bool
  | .made | .call _ | .returns _ | .raises _ => false
  | _ => true

/-- One step. A part moves by its own step function; where the transport calls the protocol in
it, the protocol reacts in the same step. -/
def step (w : Wrapped κ) (l : Label) : Option (Wrapped κ) :=
  if w.asserts then none
  else
    match l with
    | .channel l =>
      if native l then (LayerChannel.step w.chan l).map fun chan => { w with chan := chan }
      else none
    | .transport l =>
      if inner l then (CarrierTransport.step w.transport l).map (protocol w) else none
    | .returns =>
      (answer w.transport).bind fun a =>
        (CarrierTransport.step w.transport (.returns a)).map (protocol w)
    | .run_up =>
      if current w.transport = none then
        (LayerChannel.run_up w.chan).map fun chan => { w with chan := chan }
      else none
    | .run_down => if current w.transport = none then run_down encode w else none
    | .run_drain => if current w.transport = none then run_drain w else none
    | .run_read => if current w.transport = none then run_read w else none

/-- What the carrier's user is assumed to do: it writes no empty slices and reads into
some room. -/
def Label.ok : Label → Bool
  | .channel l => l.ok
  | _ => true

/-- The bytes a step brings from the carrier below. -/
def Label.brings : Label → Bytes
  | .transport l => l.brings
  | _ => []

/-- All that the carrier below has brought. -/
def received (ls : List Label) : Bytes := ls.flatMap Label.brings

/-- What the layer's writer makes of a sequence of writes. -/
def encodes (key : κ) : List Bytes → List Bytes
  | [] => []
  | data :: rest => (encode key data).2 :: encodes (encode key data).1 rest

/-- Its state after them. -/
def key_after (key : κ) (ws : List Bytes) : κ := ws.foldl (fun k data => (encode k data).1) key

/-- The layer encodes one write more from the state that the earlier ones left. -/
theorem encodes_snoc (key : κ) (ws : List Bytes) (data : Bytes) :
    encodes encode key (ws ++ [data])
      = encodes encode key ws ++ [(encode (key_after encode key ws) data).2] := by
  induction ws generalizing key with
  | nil => rfl
  | cons x ws ih =>
      change _ :: encodes encode _ (ws ++ [data]) = _ :: (encodes encode _ ws ++ _)
      rw [ih]
      rfl

/-- That state after one write more. -/
theorem key_after_snoc (key : κ) (ws : List Bytes) (data : Bytes) :
    key_after encode key (ws ++ [data]) = (encode (key_after encode key ws) data).1 := by
  simp [key_after]

/-- The encodings of fewer writes are a beginning of those of more. -/
theorem encodes_prefix {ws vs : List Bytes} (key : κ) (h : ws <+: vs) :
    encodes encode key ws <+: encodes encode key vs := by
  obtain ⟨rest, rfl⟩ := h
  induction ws generalizing key with
  | nil => exact List.nil_prefix
  | cons x ws ih => exact List.cons_prefix_cons.2 ⟨rfl, ih _⟩

/-! ## What a step does -/

/-- What each step does, with the parts' own steps in it. -/
inductive Step (w : Wrapped κ) : Label → Wrapped κ → Prop where
  | channel {l : LayerChannel.Label} {chan : Layer} (hl : native l = true)
      (h : LayerChannel.step w.chan l = some chan) : Step w (.channel l) { w with chan := chan }
  | transport {l : CarrierTransport.Label} {t : Transport} (hl : inner l = true)
      (h : CarrierTransport.step w.transport l = some t) : Step w (.transport l) (protocol w t)
  | returns {a : Answer} {t : Transport} (ha : a ≠ .keep_open false)
      (h : CarrierTransport.step w.transport (.returns a) = some t) :
      Step w .returns (protocol w t)
  | run_up {chan : Layer} (h : LayerChannel.run_up w.chan = some chan) :
      Step w .run_up { w with chan := chan }
  | down_moves {chan : Layer} (hd : w.chan.down = .start ∨ w.chan.down = .drained true)
      (h : LayerChannel.run_down w.chan true = some chan) :
      Step w .run_down { w with chan := chan }
  | down_closes {chan : Layer} (hcur : current w.transport = none)
      (hd : w.chan.down = .read [] ∨ w.chan.down = .drained false)
      (h : LayerChannel.run_down w.chan true = some chan) :
      Step w .run_down (w2_close { w with chan := chan })
  | down_writes {chan : Layer} {data : Bytes} (hd : w.chan.down = .read data) (hne : data ≠ [])
      (h : LayerChannel.run_down w.chan true = some chan) :
      Step w .run_down (w2_write encode { w with chan := chan } data)
  | drains {flow : Flow}
      (h : w.flow.run_drain w.reader.exception w.transport.closing = some (flow, none)) :
      Step w .run_drain { w with flow := flow }
  | drained {flow : Flow} {ok : Bool} {chan : Layer}
      (h : w.flow.run_drain w.reader.exception w.transport.closing = some (flow, some ok))
      (hc : LayerChannel.step w.chan (.drain_done ok) = some chan) :
      Step w .run_drain { w with flow := flow, chan := chan }
  | waits {reader : StreamReader} {resume : Bool}
      (h : w.reader.read 65536 = some (reader, none, resume)) :
      Step w .run_read { w with
        reader := reader
        transport := if resume then call w.transport .resume_reading else w.transport }
  | reads {reader : StreamReader} {r : Option Bytes} {resume : Bool} {chan : Layer}
      (h : w.reader.read 65536 = some (reader, some r, resume))
      (hc : LayerChannel.step w.chan (.r2_read r) = some chan) :
      Step w .run_read { w with
        reader := reader
        transport := if resume then call w.transport .resume_reading else w.transport
        chan := chan }

/-- The protocol never asks for the transport to be closed. -/
theorem answer_ne {t : Transport} {a : Answer} (h : answer t = some a) :
    a ≠ .keep_open false := by
  unfold answer at h
  split at h
  all_goals cases h
  all_goals exact nofun

variable {encode} in
/-- What a turn of `down` does, by where it was. -/
theorem run_down_cases {w w' : Wrapped κ} (hcur : current w.transport = none)
    (h : run_down encode w = some w') : Step encode w .run_down w' := by
  obtain ⟨chan, hchan, rfl⟩ := Option.map_eq_some_iff.1 h
  cases hd : w.chan.down with
  | start => exact .down_moves (.inl hd) hchan
  | read data =>
      cases data with
      | nil => exact .down_closes hcur (.inl hd) hchan
      | cons x data => exact .down_writes hd (List.cons_ne_nil x data) hchan
  | drained ok =>
      cases ok with
      | true => exact .down_moves (.inr hd) hchan
      | false => exact .down_closes hcur (.inr hd) hchan
  | reading | draining | ended =>
      rw [LayerChannel.run_down, hd] at hchan
      cases hchan

variable {encode} in
/-- What a turn of `up` in its read does. -/
theorem run_read_cases {w w' : Wrapped κ} (h : run_read w = some w') :
    Step encode w .run_read w' := by
  unfold run_read at h
  split at h
  · rename_i reader out resume hu hread
    dsimp only at h
    cases out with
    | none =>
        cases h
        exact .waits hread
    | some r =>
        obtain ⟨chan, hchan, rfl⟩ := Option.map_eq_some_iff.1 h
        exact .reads hread hchan
  · cases h

variable {encode} in
/-- What a turn of `down` in its drain does. -/
theorem run_drain_cases {w w' : Wrapped κ} (h : run_drain w = some w') :
    Step encode w .run_drain w' := by
  unfold run_drain at h
  split at h
  · rename_i flow ok hrun
    obtain ⟨chan, hchan, rfl⟩ := Option.map_eq_some_iff.1 h
    exact .drained hrun hchan
  · rename_i flow hrun
    cases h
    exact .drains hrun
  · cases h

variable {encode} in
/-- **Every step is one of `Step`.** The proofs about wrapped carriers go through these cases. -/
theorem step_cases {w w' : Wrapped κ} {l : Label} (h : step encode w l = some w') :
    Step encode w l w' := by
  unfold step at h
  split at h
  · cases h
  · cases l with
    | channel l =>
        simp only [Option.ite_none_right_eq_some, Option.map_eq_some_iff] at h
        obtain ⟨hl, chan, hchan, rfl⟩ := h
        exact .channel hl hchan
    | transport l =>
        simp only [Option.ite_none_right_eq_some, Option.map_eq_some_iff] at h
        obtain ⟨hl, t, ht, rfl⟩ := h
        exact .transport hl ht
    | returns =>
        obtain ⟨a, ha, h⟩ := Option.bind_eq_some_iff.1 h
        obtain ⟨t, ht, rfl⟩ := Option.map_eq_some_iff.1 h
        exact .returns (answer_ne ha) ht
    | run_up =>
        simp only [Option.ite_none_right_eq_some, Option.map_eq_some_iff] at h
        obtain ⟨-, chan, hchan, rfl⟩ := h
        exact .run_up hchan
    | run_down =>
        simp only [Option.ite_none_right_eq_some] at h
        exact run_down_cases h.1 h.2
    | run_drain =>
        simp only [Option.ite_none_right_eq_some] at h
        exact run_drain_cases h.2
    | run_read =>
        simp only [Option.ite_none_right_eq_some] at h
        exact run_read_cases h.2

/-! ## The protocol -/

/-- What a reaction leaves alone. -/
structure Reacted (w w' : Wrapped κ) : Prop where
  chan : w'.chan = w.chan
  key : w'.key = w.key
  encoded : w'.encoded = w.encoded
  transport : w'.transport = w.transport ∨ w'.transport = call w.transport .pause_reading

/-- No reaction. -/
theorem Reacted.refl (w : Wrapped κ) : Reacted w w := ⟨rfl, rfl, rfl, .inl rfl⟩

/-- Reacting twice. -/
theorem Reacted.trans {u v w : Wrapped κ} (h₁ : Reacted u v) (h₂ : Reacted v w) : Reacted u w := by
  refine ⟨h₂.chan.trans h₁.chan, h₂.key.trans h₁.key, h₂.encoded.trans h₁.encoded, ?_⟩
  rcases h₁.transport with ht | ht <;> rcases h₂.transport with ht' | ht' <;> rw [ht', ht]
  · exact .inl rfl
  · exact .inr rfl
  · exact .inr rfl
  · exact .inr rfl

/-- The protocol's methods touch their reader and their flow control, and call back only
`pause_reading`. -/
theorem react_reacted (w : Wrapped κ) (e : Event) : Reacted w (react w e) := by
  unfold react
  split
  · split
    · refine ⟨rfl, rfl, rfl, ?_⟩
      dsimp only
      split
      · exact .inr rfl
      · exact .inl rfl
    · exact ⟨rfl, rfl, rfl, .inl rfl⟩
  · exact ⟨rfl, rfl, rfl, .inl rfl⟩
  · split <;> exact ⟨rfl, rfl, rfl, .inl rfl⟩
  · split <;> exact ⟨rfl, rfl, rfl, .inl rfl⟩
  · exact ⟨rfl, rfl, rfl, .inl rfl⟩
  · exact .refl w

/-- So it is for a step with several calls, -/
theorem foldl_reacted (w : Wrapped κ) (es : List Event) : Reacted w (es.foldl react w) := by
  induction es generalizing w with
  | nil => exact .refl w
  | cons e es ih => exact (react_reacted w e).trans (ih _)

/-- for every step of the transport -/
theorem protocol_reacted (w : Wrapped κ) (t : Transport) :
    Reacted { w with transport := t } (protocol w t) := foldl_reacted _ _

/-- `w2.write(data)` before the protocol's reaction. -/
def w2_given (w : Wrapped κ) (data : Bytes) : Wrapped κ :=
  { w with
    key := (encode w.key data).1
    encoded := w.encoded ++ [(encode w.key data).2]
    flow := { w.flow with drain := .entered }
    transport := CarrierTransport.write w.transport (.ofBytes (encode w.key data).2) }

/-- and for a write, which may call `pause_writing`. -/
theorem w2_write_reacted (w : Wrapped κ) (data : Bytes) :
    Reacted (w2_given encode w data) (w2_write encode w data) := foldl_reacted _ _

/-- What the streams have of what the protocol was told. -/
structure Hears (c : Told) (w : Wrapped κ) : Prop where
  paused : w.flow.paused = c.paused
  lost : w.flow.connection_lost = c.lost
  eof : w.reader.eof = true → c.eof = true ∨ c.lost = true
  exception : w.reader.exception = true → c.lost = true
  woken : w.reader.Woken
  drain : w.flow.drain = .woken false → c.lost = true

/-- The protocol and the reader, after the calls in `log`: the bytes that were delivered
were read by `up` or are in the reader's buffer. -/
structure Heard (log : List Event) (w : Wrapped κ) : Prop where
  told : ∃ c, run Told.hear .new log = some c ∧ Hears c w
  fed : (delivered log).flatten = w.chan.r2_reads.flatten ++ w.reader.buffer

/-- The fields that this is about. -/
theorem Heard.congr {log : List Event} {w w' : Wrapped κ} (h : Heard log w)
    (hr : w'.reader = w.reader) (hp : w'.flow.paused = w.flow.paused)
    (hl : w'.flow.connection_lost = w.flow.connection_lost)
    (hd : w'.flow.drain = .woken false → w.flow.drain = .woken false)
    (hc : w'.chan.r2_reads = w.chan.r2_reads) : Heard log w' := by
  obtain ⟨⟨c, hrun, h1, h2, h3, h4, h5, h6⟩, hfed⟩ := h
  refine ⟨⟨c, hrun, hp.trans h1, hl.trans h2, ?_, ?_, ?_, fun h => h6 (hd h)⟩, ?_⟩
  all_goals rw [hr]
  · exact h3
  · exact h4
  · exact h5
  · rw [hc]
    exact hfed

/-- `StreamReaderProtocol` accepts what the contract allows: no assertion fails. -/
theorem react_hears {c c' : Told} {w : Wrapped κ} {e : Event} (h : Hears c w)
    (hc : c.hear e = some c') : Hears c' (react w e) ∧ (react w e).asserts = w.asserts := by
  cases e with
  | data_received data =>
      simp only [Told.hear, Option.ite_none_left_eq_some, Option.some.injEq] at hc
      obtain ⟨hno, rfl⟩ := hc
      simp only [Bool.or_eq_true, not_or] at hno
      -- a transport that keeps to its contract sends no data after the end, so the assertion
      -- holds
      have heof : w.reader.eof = false := by
        rw [Bool.eq_false_iff]
        intro he
        rcases h.eof he with he | hl
        · exact hno.1.1 he
        · exact hno.1.2 hl
      cases hfeed : w.reader.feed_data data with
      | none =>
          rw [StreamReader.feed_data, heof] at hfeed
          simp only [Bool.false_eq_true, if_false] at hfeed
          split at hfeed <;> cases hfeed
      | some p =>
          obtain ⟨r, pause⟩ := p
          obtain ⟨-, -, he, hx, -⟩ := StreamReader.feed_data_eq_some hfeed
          simp only [react, hfeed]
          refine ⟨⟨h.paused, h.lost, ?_, ?_, h.woken.feed_data hfeed, h.drain⟩, trivial⟩
          · rw [he]
            exact h.eof
          · rw [hx]
            exact h.exception
  | eof_received =>
      simp only [Told.hear, Option.ite_none_left_eq_some, Option.some.injEq] at hc
      obtain ⟨-, rfl⟩ := hc
      exact ⟨⟨h.paused, h.lost, fun _ => .inl rfl, h.exception, h.woken.feed_eof, h.drain⟩, rfl⟩
  | pause_writing =>
      simp only [Told.hear, Option.ite_none_left_eq_some, Option.some.injEq] at hc
      obtain ⟨hno, rfl⟩ := hc
      simp only [Bool.or_eq_true, not_or, ← h.paused] at hno
      -- the protocol was not paused, since the transport pauses and resumes in turn
      have hpause : w.flow.pause_writing = some { w.flow with paused := true } := if_neg hno.1
      simp only [react, hpause]
      exact ⟨⟨rfl, h.lost, h.eof, h.exception, h.woken, h.drain⟩, trivial⟩
  | resume_writing =>
      simp only [Told.hear, Option.ite_none_right_eq_some, Option.some.injEq] at hc
      obtain ⟨hyes, rfl⟩ := hc
      simp only [Bool.and_eq_true, ← h.paused] at hyes
      have hresume : w.flow.resume_writing
          = some { w.flow with paused := false, drain := w.flow.wake true } := if_pos hyes.1
      simp only [react, hresume]
      exact ⟨⟨rfl, h.lost, h.eof, h.exception, h.woken, fun hd => h.drain (Flow.wake_true hd)⟩,
        trivial⟩
  | connection_lost exc =>
      simp only [Told.hear, Option.ite_none_left_eq_some, Option.some.injEq] at hc
      obtain ⟨-, rfl⟩ := hc
      refine ⟨⟨h.paused, rfl, fun _ => .inr rfl, fun _ => rfl, ?_, fun _ => rfl⟩, rfl⟩
      simp only [react]
      split
      · exact h.woken.feed_eof
      · exact h.woken.set_exception
  | buffer_updated _ =>
      simp only [Told.hear, Option.ite_none_left_eq_some, Option.some.injEq] at hc
      obtain ⟨-, rfl⟩ := hc
      exact ⟨h, rfl⟩
  | write_called _ _ _ | read | write _ | wrote _ _ | shutdown | shut _
  | connection_lost_scheduled _ =>
      cases hc
      exact ⟨h, rfl⟩

/-- Data that is received goes to the end of the reader's buffer; nothing else does. -/
theorem react_fed {log : List Event} {w : Wrapped κ} {e : Event}
    (h : (delivered log).flatten = w.chan.r2_reads.flatten ++ w.reader.buffer)
    (hass : (react w e).asserts = false) (hne : ∀ data, e ≠ .buffer_updated data) :
    (delivered (log ++ [e])).flatten
      = (react w e).chan.r2_reads.flatten ++ (react w e).reader.buffer := by
  rw [delivered_append, List.flatten_append, (react_reacted w e).chan, h, List.append_assoc]
  congr 1
  cases e with
  | data_received data =>
      cases hfeed : w.reader.feed_data data with
      | none =>
          simp only [react, hfeed] at hass
          cases hass
      | some p =>
          simp only [react, hfeed, (StreamReader.feed_data_eq_some hfeed).2.1]
          simp [delivered, Event.delivered]
  | buffer_updated data => exact absurd rfl (hne data)
  | pause_writing | resume_writing =>
      simp only [react]
      split <;> simp [delivered, Event.delivered]
  | connection_lost exc =>
      simp only [react]
      split <;> simp [delivered, Event.delivered, StreamReader.feed_eof,
        StreamReader.set_exception]
  | eof_received => simp [react, delivered, Event.delivered, StreamReader.feed_eof]
  | write_called _ _ _ | read | write _ | wrote _ _ | shutdown | shut _
  | connection_lost_scheduled _ => simp [react, delivered, Event.delivered]

/-- If the calls keep the contract, the protocol hears them all without a failed assertion, and
its reader and its flow control are where the contract's automaton is. -/
theorem foldl_heard {log es : List Event} {w : Wrapped κ} (h : Heard log w)
    (hass : w.asserts = false) (hc : ∃ c, run Told.hear .new (log ++ es) = some c)
    (hne : ∀ data, .buffer_updated data ∉ es) :
    Heard (log ++ es) (es.foldl react w) ∧ (es.foldl react w).asserts = false := by
  induction es generalizing log w with
  | nil => exact ⟨by simpa using h, hass⟩
  | cons e es ih =>
      obtain ⟨c, hrun, hears⟩ := h.told
      obtain ⟨d, hd⟩ := hc
      obtain ⟨c₀, h₀, hrest⟩ := (run_append_eq_some Told.hear).1 hd
      rw [hrun, Option.some.injEq] at h₀
      subst h₀
      obtain ⟨c', hc', -⟩ := (run_cons_eq_some Told.hear).1 hrest
      obtain ⟨hears', hass'⟩ := react_hears hears hc'
      rw [hass] at hass'
      have hlog : log ++ e :: es = (log ++ [e]) ++ es := by simp
      rw [hlog] at hd ⊢
      refine ih ⟨⟨c', run_append _ hrun ((run_cons_eq_some _).2 ⟨c', hc', rfl⟩), hears'⟩, ?_⟩
        hass' ⟨d, hd⟩ fun data hm => hne data (List.mem_cons_of_mem _ hm)
      exact react_fed h.fed hass' fun data he => hne data (he ▸ List.mem_cons_self)

/-! ## The transport's health

What the transport of a wrapped carrier keeps, whoever steps it. -/

/-- What the transport below keeps: the contract with its protocol, plain delivery, its
settings, and that its tasks are there. -/
structure Healthy (t : Transport) : Prop where
  conforms : Conforms t
  plain : Plain t
  settings : settings t = (false, 65536, 16384, false)
  born : t.reader ≠ .unborn

/-- `StreamReaderProtocol` is no `BufferedProtocol`. -/
theorem Healthy.buffered {t : Transport} (h : Healthy t) : t.buffered = false :=
  congrArg Prod.fst h.settings

/-- Nobody calls `write_eof`. -/
theorem Healthy.eof {t : Transport} (h : Healthy t) : t.eof = false :=
  congrArg (fun p => p.2.2.2) h.settings

/-- The tasks of a transport do not go away. -/
theorem born_of_step {t t' : Transport} {l : CarrierTransport.Label} (hb : t.reader ≠ .unborn)
    (h : CarrierTransport.step t l = some t') : t'.reader ≠ .unborn := by
  obtain ⟨es, -, hturn⟩ := step_reader h
  have hall : ∀ s s' : ReadLoop, s.Turn l s' es → s.reader ≠ .unborn → s'.reader ≠ .unborn := by
    intro s s' hturn hb
    cases hturn with
    | aside | marked | pause => exact hb
    | resume =>
        unfold Reader.resumed
        split
        · exact nofun
        · exact hb
    | _ => exact nofun
  exact hall _ _ hturn hb

/-- One step of the transport keeps it healthy, unless it sets something or loses the transport
from inside. -/
theorem Healthy.step {t t' : Transport} {l : CarrierTransport.Label} (ht : Healthy t)
    (hp : polite t l = true) (hs : l.sets = false)
    (h : CarrierTransport.step t l = some t') : Healthy t' :=
  ⟨step_conforms ht.conforms hp h, step_plain ht.plain ht.buffered h,
    (step_settings h hs).trans ht.settings, born_of_step ht.born h⟩

/-- Outside of a call of the protocol nobody is inside a loop's work. -/
theorem Healthy.polite_close {t : Transport} (ht : Healthy t) (hcur : current t = none) :
    polite t (.call .close) = true := by
  obtain ⟨hr, hw⟩ := current_eq_none.1 hcur
  have hborn : t.reader.phase ≠ .unborn := fun hu => ht.born (Reader.phase_unborn.1 hu)
  have hreader : t.reader.stoppable = true := by
    refine Reader.stoppable_of_phase hborn fun hc => ?_
    rw [Reader.phase_calling.1 hc] at hr
    cases hr
  have hwriter : t.writer.stoppable = true :=
    Writer.stoppable_iff.2 ⟨fun hu => hborn (ht.conforms.sound.unborn.2 hu),
      fun hc => hw (Writer.phase_calling.1 hc)⟩
  simp [polite, inside, hreader, hwriter]

/-- So do the protocol's `pause_reading` -/
theorem Healthy.pause {t : Transport} (ht : Healthy t) : Healthy (call t .pause_reading) :=
  ht.step (l := .call .pause_reading) rfl rfl rfl

/-- and the reader's `resume_reading`. -/
theorem Healthy.resume {t : Transport} (ht : Healthy t) : Healthy (call t .resume_reading) :=
  ht.step (l := .call .resume_reading) rfl rfl rfl

/-- What holds of a wrapped carrier between any two steps. -/
structure Sane (w : Wrapped κ) : Prop where
  asserts : w.asserts = false
  healthy : Healthy w.transport
  heard : Heard w.transport.log w

/-- The transport moves on by a step of its own, and the protocol reacts. -/
theorem protocol_sane {w : Wrapped κ} {t : Transport} {l : CarrierTransport.Label}
    (hass : w.asserts = false) (hh : Healthy w.transport) (hw : Heard w.transport.log w)
    (hp : polite w.transport l = true) (hs : l.sets = false)
    (h : CarrierTransport.step w.transport l = some t) : Sane (protocol w t) := by
  have ht := hh.step hp hs h
  obtain ⟨es, hlog⟩ := step_log h
  have hprot : protocol w t = es.foldl react { w with transport := t } := by
    rw [protocol, hlog, List.drop_left]
  have hnew : ∀ data, .buffer_updated data ∉ es := by
    intro data hm
    refine ht.plain.log data ?_
    rw [hlog]
    exact List.mem_append_right _ hm
  have htold := ht.conforms.told
  rw [hlog] at htold
  obtain ⟨hheard, hass'⟩ := foldl_heard (w := { w with transport := t })
    (hw.congr rfl rfl rfl id rfl) hass htold hnew
  rw [← hprot, ← hlog] at hheard
  rw [← hprot] at hass'
  rcases (protocol_reacted w t).transport with htr | htr
  · exact ⟨hass', by rw [htr]; exact ht, by rw [htr]; exact hheard⟩
  · exact ⟨hass', by rw [htr]; exact ht.pause, by rw [htr]; exact hheard⟩

/-! ## The pumps -/

/-- What a step of the native ends leaves to the pumps: it completes the future that a
pump awaits, and no more. -/
structure Native (s s' : Layer) : Prop where
  w2_writes : s'.w2_writes = s.w2_writes
  w2_closed : s'.w2_closed = s.w2_closed
  w2_error : s'.w2_error = s.w2_error
  r2_reads : s'.r2_reads = s.r2_reads
  down : s'.down = s.down ∨ s.down = .reading ∧ ∃ b, s'.down = .read b
  up : s'.up = s.up ∨ (∃ b, s.up = .writing b) ∧ s'.up = .wrote true

/-- A step that does not touch what the pumps keep. -/
theorem Native.same {s s' : Layer} (hw : s'.w2_writes = s.w2_writes)
    (hc : s'.w2_closed = s.w2_closed) (he : s'.w2_error = s.w2_error)
    (hr : s'.r2_reads = s.r2_reads) (hd : s'.down = s.down) (hu : s'.up = s.up) : Native s s' :=
  ⟨hw, hc, he, hr, .inl hd, .inl hu⟩

/-- The session's polls and the native ends leave alone what the pumps keep, but that they hand
a message to `down` or a place to `up`. -/
theorem native_keeps {s s' : Layer} {l : LayerChannel.Label} (hl : native l = true)
    (h : LayerChannel.step s l = some s') : Native s s' := by
  cases LayerChannel.step_cases h with
  | poll_write _ hp =>
      unfold LayerChannel.poll_write at hp
      split at hp
      · cases hp
        exact .same rfl rfl rfl rfl rfl rfl
      · split at hp
        · cases hp
          exact .same rfl rfl rfl rfl rfl rfl
        · split at hp
          · cases hp
            exact .same rfl rfl rfl rfl rfl rfl
          · split at hp <;> cases hp
            exact .same rfl rfl rfl rfl rfl rfl
  | poll_read _ hp =>
      unfold LayerChannel.poll_read at hp
      split at hp
      · split at hp <;> cases hp
        exact .same rfl rfl rfl rfl rfl rfl
      · split at hp
        · split at hp <;> cases hp
          exact .same rfl rfl rfl rfl rfl rfl
        · cases hp
          exact .same rfl rfl rfl rfl rfl rfl
  | poll_shutdown | drop_io => exact .same rfl rfl rfl rfl rfl rfl
  | end_read h =>
      unfold LayerChannel.end_read at h
      split at h
      · cases h
        -- `down` is handed what `end.read()` returned,
        exact ⟨rfl, rfl, rfl, rfl, .inr ⟨‹_›, _, rfl⟩, .inl rfl⟩
      · split at h <;> cases h
        exact ⟨rfl, rfl, rfl, rfl, .inr ⟨‹_›, _, rfl⟩, .inl rfl⟩
      · cases h
  | end_write h =>
      unfold LayerChannel.end_write at h
      split at h
      · split at h
        · cases h
          -- and `up` is told that `end.write()` is done, also if the carrier is gone
          exact ⟨rfl, rfl, rfl, rfl, .inl rfl, .inr ⟨⟨_, ‹_›⟩, rfl⟩⟩
        · split at h <;> cases h
          exact ⟨rfl, rfl, rfl, rfl, .inl rfl, .inr ⟨⟨_, ‹_›⟩, rfl⟩⟩
      · cases h
  | drop_end h =>
      unfold LayerChannel.drop_end at h
      split at h <;> cases h
      exact .same rfl rfl rfl rfl rfl rfl
  | run_down | drain_done | r2_read | run_up => cases hl

/-- What the layer has read is recorded by the read alone: not by `up`'s other turns -/
theorem run_up_r2_reads {s s' : Layer} (h : LayerChannel.run_up s = some s') :
    s'.r2_reads = s.r2_reads := by
  unfold LayerChannel.run_up at h
  split at h <;> cases h <;> rfl

/-- and not by `down`. -/
theorem run_down_r2_reads {s s' : Layer} {ok : Bool} (h : LayerChannel.run_down s ok = some s') :
    s'.r2_reads = s.r2_reads := congrArg (fun p => p.2.1) (LayerChannel.run_down_incoming h)

/-- What a pump's read does to the bytes: they go from the buffer to what was read. -/
theorem reads_heard {log : List Event} {w w' : Wrapped κ} {r : StreamReader}
    {out : Option (Option Bytes)} {resume : Bool} (h : Heard log w)
    (hread : w.reader.read 65536 = some (r, out, resume)) (hr : w'.reader = r)
    (hf : w'.flow = w.flow)
    (hc : w'.chan.r2_reads = w.chan.r2_reads ++ (out.getD none).toList) : Heard log w' := by
  obtain ⟨⟨c, hrun, h1, h2, h3, h4, h5, h6⟩, hfed⟩ := h
  have hwoken := h5.read hread
  have hkeep : r.eof = w.reader.eof ∧ r.exception = w.reader.exception
      ∧ w.reader.buffer = (out.getD none).getD [] ++ r.buffer := by
    cases StreamReader.read_cases hread with
    | taken hb he hx =>
        refine ⟨he, hx, ?_⟩
        rw [hb]
        exact (List.take_append_drop _ _).symm
    | raised hb he hx | waits hb he hx => exact ⟨he, hx, hb.symm⟩
  refine ⟨⟨c, hrun, ?_, ?_, ?_, ?_, ?_, hf ▸ h6⟩, ?_⟩
  · rw [hf]
    exact h1
  · rw [hf]
    exact h2
  · rw [hr, hkeep.1]
    exact h3
  · rw [hr, hkeep.2.1]
    exact h4
  · rw [hr]
    exact hwoken
  · rw [hfed, hc, hr, hkeep.2.2, List.flatten_append, List.append_assoc]
    congr 1
    cases out.getD none with
    | none => rfl
    | some b => simp

/-- The read comes back to `up`, and is recorded. -/
theorem r2_read_chan {s s' : Layer} {r : Option Bytes}
    (h : LayerChannel.step s (.r2_read r) = some s') :
    s.up = .reading ∧ s' = { s with up := .read r, r2_reads := s.r2_reads ++ r.toList } := by
  cases LayerChannel.step_cases h with
  | r2_read _ hu => exact ⟨hu, rfl⟩

/-- The drain comes back to `down`. -/
theorem drain_done_chan {s s' : Layer} {ok : Bool}
    (h : LayerChannel.step s (.drain_done ok) = some s') :
    s.down = .draining ∧ s' = { s with down := .drained ok } := by
  cases LayerChannel.step_cases h with
  | drain_done _ hd => exact ⟨hd, rfl⟩

/-- What happens below the layer is polite, and sets nothing. -/
theorem inner_polite {t : Transport} {l : CarrierTransport.Label} (h : inner l = true) :
    polite t l = true ∧ l.sets = false := by
  cases l with
  | made | call _ | returns _ | raises _ => cases h
  | _ => exact ⟨rfl, rfl⟩

/-- At first all parts agree. -/
theorem init_sane (key : κ) : Sane (init key) := by
  have hmade : CarrierTransport.step (CarrierTransport.init false) .made
      = some { CarrierTransport.init false with reader := .start, writer := .start } := rfl
  refine ⟨rfl, ⟨step_conforms (init_conforms false) rfl hmade, ⟨rfl, ?_⟩, rfl, fun h => ?_⟩, ?_⟩
  · simp [init, CarrierTransport.init]
  · cases h
  · refine ⟨⟨.new, rfl, rfl, rfl, fun h => ?_, fun h => ?_, .new _, fun h => ?_⟩, rfl⟩
    all_goals cases h

/-- A reader that resumes its transport tells nobody, -/
theorem log_of_resumed (t : Transport) (resume : Bool) :
    (if resume then call t .resume_reading else t).log = t.log := by
  cases resume <;> rfl

/-- and does not change how the transport was lost. -/
theorem lost_of_resumed (t : Transport) (resume : Bool) :
    (if resume then call t .resume_reading else t).lost = t.lost := by
  cases resume <;> rfl

variable {encode} in
/-- **One step keeps the parts in agreement**, without a failed assertion. -/
theorem step_sane {w w' : Wrapped κ} {l : Label} (hw : Sane w)
    (h : step encode w l = some w') : Sane w' := by
  obtain ⟨hass, hh, hheard⟩ := hw
  cases step_cases h with
  | channel hl hs => exact ⟨hass, hh, hheard.congr rfl rfl rfl id (native_keeps hl hs).r2_reads⟩
  | transport hl hs =>
      obtain ⟨hp, hset⟩ := inner_polite hl
      exact protocol_sane hass hh hheard hp hset hs
  | returns _ hs => exact protocol_sane (l := .returns _) hass hh hheard rfl rfl hs
  | run_up hs => exact ⟨hass, hh, hheard.congr rfl rfl rfl id (run_up_r2_reads hs)⟩
  | down_moves _ hs => exact ⟨hass, hh, hheard.congr rfl rfl rfl id (run_down_r2_reads hs)⟩
  | down_closes hcur _ hs =>
      exact protocol_sane (l := .call .close) hass hh
        (hheard.congr rfl rfl rfl id (run_down_r2_reads hs)) (hh.polite_close hcur) rfl rfl
  | down_writes _ _ hs =>
      exact protocol_sane (l := .call (.write _)) hass hh
        (hheard.congr rfl rfl rfl nofun (run_down_r2_reads hs)) rfl rfl rfl
  | drains hs =>
      obtain ⟨hp, hl, hd⟩ := (Flow.run_drain_cases hs).frame
      exact ⟨hass, hh, hheard.congr rfl hp hl (fun h => absurd h (hd _)) rfl⟩
  | drained hs hc =>
      obtain ⟨hp, hl, hd⟩ := (Flow.run_drain_cases hs).frame
      obtain ⟨-, rfl⟩ := drain_done_chan hc
      exact ⟨hass, hh, hheard.congr rfl hp hl (fun h => absurd h (hd _)) rfl⟩
  | @waits reader resume hs =>
      refine ⟨hass, ?_, ?_⟩
      · cases resume
        · exact hh
        · exact hh.resume
      · rw [log_of_resumed]
        exact reads_heard hheard hs rfl rfl (by simp)
  | @reads reader r resume chan hs hc =>
      obtain ⟨-, rfl⟩ := r2_read_chan hc
      refine ⟨hass, ?_, ?_⟩
      · cases resume
        · exact hh
        · exact hh.resume
      · rw [log_of_resumed]
        exact reads_heard hheard hs rfl rfl rfl

end ZmuxPy.WrappedCarrier
