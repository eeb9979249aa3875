/-
A direction of a Python layer that fails, as the wrapped carrier sees it
(`python/zmux/_layer.py`, `run`; `src/layer.rs`, `ChanIo`, `LayerEnd`).

The two pumps share one `LayerEnd`. `up` can end its own direction, by `end.close()`;
`down` cannot: the receiver of the carrier's writes is dropped with the `LayerEnd`,
and so not before `up` has ended too. Until then the carrier's writes go into a
channel that nobody reads.

Over the model of `ZmuxPy/LayerChannel.lean`.
-/
import ZmuxPy.LayerChannel

set_option autoImplicit false

namespace ZmuxPy.LayerChannel

open Machine Asyncio

/-! ## The ends of the channels -/

/-- A carrier that is gone has no sender, and neither has an `up` that has ended; the
`LayerEnd` outlives `up`. -/
structure Ends (s : Layer) : Prop where
  io : s.io_alive = false → s.tx = false
  up : s.up = .ended → s.end_tx = false
  layer_end : s.end_alive = false → s.up = .ended

/-- What is gone stays gone. -/
structure Gone (s s' : Layer) : Prop where
  tx : s.tx = false → s'.tx = false
  end_alive : s.end_alive = false → s'.end_alive = false
  up : s.up = .ended → s'.up = .ended

/-- Nothing went. -/
theorem Gone.refl (s : Layer) : Gone s s := ⟨id, id, id⟩

/-- What went before is still gone after. -/
theorem Gone.trans {s t u : Layer} (h₁ : Gone s t) (h₂ : Gone t u) : Gone s u :=
  ⟨fun h => h₂.tx (h₁.tx h), fun h => h₂.end_alive (h₁.end_alive h), fun h => h₂.up (h₁.up h)⟩

/-- What `Ends` and `Gone` read. -/
def handles (s : Layer) : Bool × Bool × Bool × Bool × Up :=
  (s.io_alive, s.tx, s.end_alive, s.end_tx, s.up)

/-- A step that touches none of the five keeps both. -/
theorem keeps_of_handles {s s' : Layer} (hs : Ends s) (h : handles s' = handles s) :
    Ends s' ∧ Gone s s' := by
  simp only [handles, Prod.mk.injEq] at h
  obtain ⟨hio, htx, hend, hetx, hup⟩ := h
  refine ⟨⟨?_, ?_, ?_⟩, ?_, ?_, ?_⟩
  · rw [hio, htx]
    exact hs.io
  · rw [hup, hetx]
    exact hs.up
  · rw [hend, hup]
    exact hs.layer_end
  · exact fun h => htx.trans h
  · exact fun h => hend.trans h
  · exact fun h => hup.trans h

/-- A write of the carrier closes nothing, -/
theorem poll_write_handles {s s' : Layer} {data : Bytes} {ready : Bool} {r : WritePoll}
    (h : poll_write s data ready = some (s', r)) : handles s' = handles s := by
  unfold poll_write at h
  split at h
  · cases h
    rfl
  · split at h
    · cases h
      rfl
    · split at h
      · cases h
        rfl
      · split at h <;> cases h
        rfl

/-- nor does a read, -/
theorem poll_read_handles {s s' : Layer} {cap : ℕ} {ready : Bool} {r : ReadPoll}
    (h : poll_read s cap ready = some (s', r)) : handles s' = handles s := by
  unfold poll_read at h
  split at h
  · split at h <;> cases h
    rfl
  · split at h
    · split at h <;> cases h
      rfl
    · cases h
      rfl

/-- nor `end.read()`, -/
theorem end_read_handles {s s' : Layer} (h : end_read s = some s') : handles s' = handles s := by
  unfold end_read at h
  split at h
  · cases h
    rfl
  · split at h <;> cases h
    rfl
  · cases h

/-- nor `down`, not even at its end: it closes the layer's writer, and has no handle on its own
side of the channel. -/
theorem run_down_handles {s s' : Layer} {ok : Bool} (h : run_down s ok = some s') :
    handles s' = handles s := by
  unfold run_down at h
  split at h
  · cases h
    rfl
  · cases h
    rfl
  · split at h <;> cases h <;> rfl
  · cases h
    rfl
  · cases h
    rfl
  · cases h

/-- A step of `up` that has not ended. -/
theorem keeps_of_up {s s' : Layer} (hs : Ends s) (hu : s.up ≠ .ended)
    (hu' : s'.up = .ended → s'.end_tx = false) (hio : s'.io_alive = s.io_alive)
    (htx : s'.tx = s.tx) (hend : s'.end_alive = s.end_alive) : Ends s' ∧ Gone s s' := by
  have hal : s.end_alive ≠ false := fun h => hu (hs.layer_end h)
  refine ⟨⟨?_, hu', fun h => absurd (hend ▸ h) hal⟩, fun h => htx.trans h, fun h => hend.trans h,
    fun h => absurd h hu⟩
  rw [hio, htx]
  exact hs.io

/-- `up` closes its sender as it ends. -/
theorem run_up_keeps {s s' : Layer} (hs : Ends s) (h : run_up s = some s') :
    Ends s' ∧ Gone s s' := by
  unfold run_up at h
  split at h <;> cases h <;> rename_i hu
  · exact keeps_of_up hs (by simp [hu]) (fun h => by cases h) rfl rfl rfl
  · exact keeps_of_up hs (by simp [hu]) (fun _ => rfl) rfl rfl rfl
  · exact keeps_of_up hs (by simp [hu]) (fun _ => rfl) rfl rfl rfl
  · refine keeps_of_up hs (by simp [hu]) (fun h => ?_) rfl rfl rfl
    simp only at h
    split at h <;> cases h
  · exact keeps_of_up hs (by simp [hu]) (fun h => by cases h) rfl rfl rfl
  · exact keeps_of_up hs (by simp [hu]) (fun _ => rfl) rfl rfl rfl

/-- `end.write()` closes nothing. -/
theorem end_write_keeps {s s' : Layer} (hs : Ends s) (h : end_write s = some s') :
    Ends s' ∧ Gone s s' := by
  unfold end_write at h
  split at h
  · rename_i hu
    split at h
    · cases h
      exact keeps_of_up hs (by simp [hu]) (fun h => by cases h) rfl rfl rfl
    · split at h <;> cases h
      exact keeps_of_up hs (by simp [hu]) (fun h => by cases h) rfl rfl rfl
  · cases h

/-- One step keeps what is gone, and how the ends depend on each other. -/
theorem step_keeps {s s' : Layer} {l : Label} (hs : Ends s) (h : step s l = some s') :
    Ends s' ∧ Gone s s' := by
  cases step_cases h with
  | poll_write _ hp => exact keeps_of_handles hs (poll_write_handles hp)
  | poll_read _ hp => exact keeps_of_handles hs (poll_read_handles hp)
  | poll_shutdown | drop_io => exact ⟨⟨fun _ => rfl, hs.up, hs.layer_end⟩, fun _ => rfl, id, id⟩
  | end_read h => exact keeps_of_handles hs (end_read_handles h)
  | run_down h => exact keeps_of_handles hs (run_down_handles h)
  | drain_done => exact keeps_of_handles hs rfl
  | r2_read r hu => exact keeps_of_up hs (by simp [hu]) (fun h => by cases h) rfl rfl rfl
  | run_up h => exact run_up_keeps hs h
  | end_write h => exact end_write_keeps hs h
  | drop_end h =>
      simp only [drop_end] at h
      split at h
      · rename_i hu hd
        cases h
        exact ⟨⟨hs.io, fun _ => rfl, fun _ => hu⟩, id, fun _ => rfl, id⟩
      · cases h

/-- At first both ends are there. -/
theorem init_ends : Ends init := by
  constructor <;> simp [init]

/-- In every run the ends depend on each other in that way, -/
theorem run_ends {ls : List Label} {s : Layer} (h : run step init ls = some s) : Ends s :=
  run_inv step (fun _ _ _ hs hstep => (step_keeps hs hstep).1) init_ends h

/-- and what is gone stays gone. -/
theorem run_gone {ms : List Label} {s u : Layer} (hs : Ends s) (h : run step s ms = some u) :
    Ends u ∧ Gone s u :=
  @run_inv _ _ step (fun v => Ends v ∧ Gone s v)
    (fun _ _ _ hv hstep => ⟨(step_keeps hv.1 hstep).1, hv.2.trans (step_keeps hv.1 hstep).2⟩)
    _ _ _ ⟨hs, .refl s⟩ h

/-! ## The carrier's writes -/

/-- Whatever is written, the carrier is told. -/
def Refused (s : Layer) : Prop := ∀ data, ∃ s', poll_write s data true = some (s', .broken_pipe)

/-- A write is refused exactly if the carrier has shut down its side or the `LayerEnd` is gone.
Neither is a consequence of `down`'s end. -/
theorem refused_iff {s : Layer} : Refused s ↔ s.tx = false ∨ s.end_alive = false := by
  unfold Refused poll_write
  cases htx : s.tx with
  | false => simp
  | true =>
      cases hend : s.end_alive with
      | false => simp
      | true =>
          by_cases hroom : s.out.length < DEPTH
          · simp [hroom]
          · simp [hroom]

/-- So it is from then on, if it is so now; and if it is not, the carrier may go on writing
into the channel. -/
theorem refused_after_iff {s : Layer} (hs : Ends s) :
    (∀ ms u, run step s ms = some u → u.io_alive = true → Refused u)
      ↔ s.tx = false ∨ s.end_alive = false := by
  constructor
  · intro h
    by_cases hio : s.io_alive = true
    · exact refused_iff.1 (h [] s rfl hio)
    · exact .inl (hs.io (Bool.eq_false_iff.2 hio))
  · intro h ms u hrun _
    obtain ⟨-, hgone⟩ := run_gone hs hrun
    exact refused_iff.2 (h.imp hgone.tx hgone.end_alive)

/-! ## The carrier's reads -/

/-- The bytes handed over that `poll_read` has not returned. -/
def left (s : Layer) : Bytes := s.buf ++ s.inn.flatten

/-- A read takes from what is left, and gives the end of file once nothing is. -/
theorem poll_read_left {s : Layer} (hs : Ends s) (hu : s.up = .ended) {cap : ℕ} (hcap : 0 < cap) :
    ∃ s' r, poll_read s cap true = some (s', r)
      ∧ (left s = [] → r = .eof)
      ∧ (left s ≠ [] → ∃ b, r = .data b ∧ b ≠ [] ∧ left s = b ++ left s') := by
  have hsend : in_sender s = false := by simp [in_sender, hs.up hu, hu]
  have hflat := recv_flatten s.buf s.inn
  unfold poll_read left
  cases hrecv : recv s.buf s.inn with
  | mk buf inn =>
      rw [hrecv] at hflat
      simp only at hflat
      cases buf with
      | nil =>
          obtain ⟨hb, hi⟩ := recv_nil (congrArg Prod.fst hrecv)
          have hnil : s.buf ++ s.inn.flatten = [] := by rw [hb, hi, List.append_nil]
          refine ⟨{ s with eof := true }, .eof, ?_, fun _ => rfl, fun h => absurd hnil h⟩
          simp [hsend]
      | cons x buf =>
          have hne : s.buf ++ s.inn.flatten ≠ [] := by
            rw [← hflat]
            simp
          refine ⟨_, .data ((x :: buf).take cap), rfl, fun h => absurd h hne, fun _ => ?_⟩
          refine ⟨_, rfl, ?_, ?_⟩
          · obtain ⟨n, rfl⟩ := Nat.exists_eq_add_of_lt hcap
            simp
          · rw [← List.append_assoc, List.take_append_drop]
            exact hflat.symm

/-- What `up` has handed over, once it has ended: returned, or left. -/
def handed (s : Layer) : Bytes := s.returned.flatten ++ left s

/-- A step on the other direction hands nothing over. -/
theorem handed_of_incoming {s s' : Layer} (h : incoming s' = incoming s) :
    handed s' = handed s := by
  simp only [incoming, Prod.mk.injEq] at h
  obtain ⟨hr, -, -, hb, hi, -⟩ := h
  rw [handed, handed, left, left, hr, hb, hi]

/-- A read returns part of what is left; the two together stay the same. -/
theorem poll_read_handed {s s' : Layer} {cap : ℕ} {ready : Bool} {r : ReadPoll}
    (h : poll_read s cap ready = some (s', r)) : handed s' = handed s := by
  have hflat := recv_flatten s.buf s.inn
  unfold poll_read at h
  split at h
  · split at h <;> cases h
    rfl
  · split at h
    · split at h <;> cases h
      rfl
    · rename_i buf inn _ hrecv
      cases h
      rw [hrecv] at hflat
      simp only [handed, left, List.flatten_append, List.flatten_cons, List.flatten_nil,
        List.append_nil, List.append_assoc] at hflat ⊢
      rw [← hflat]
      conv_rhs => rw [← List.take_append_drop cap buf]
      simp only [List.append_assoc]

/-- After the end of `up` nothing is handed over any more, and nothing is lost as long as
the carrier is there. -/
theorem step_handed {s s' : Layer} {l : Label} (hu : s.up = .ended) (h : step s l = some s')
    (hio : s'.io_alive = true) : s.io_alive = true ∧ handed s' = handed s := by
  have hin : incoming s' = incoming s → s.io_alive = true ∧ handed s' = handed s := by
    intro hin
    refine ⟨?_, handed_of_incoming hin⟩
    simp only [incoming, Prod.mk.injEq] at hin
    exact hin.2.2.1 ▸ hio
  cases step_cases h with
  | poll_write _ hp => exact hin (poll_write_incoming hp)
  | poll_read ha hp => exact ⟨ha, poll_read_handed hp⟩
  | poll_shutdown | drain_done => exact hin rfl
  | drop_io => cases hio
  | end_read h => exact hin (end_read_incoming h)
  | run_down h => exact hin (run_down_incoming h)
  | r2_read r hr => cases hu.symm.trans hr
  | run_up h =>
      simp only [run_up, hu] at h
      cases h
  | end_write h =>
      simp only [end_write, hu] at h
      cases h
  | drop_end h =>
      simp only [drop_end] at h
      split at h <;> cases h
      exact ⟨hio, rfl⟩

/-- After the end of `up` nothing more is handed over. -/
theorem run_handed {ms : List Label} {s u : Layer} (hs : Ends s) (hu : s.up = .ended)
    (h : run step s ms = some u) (hio : u.io_alive = true) : handed u = handed s := by
  have hinv : u.up = .ended ∧ Ends u ∧ (u.io_alive = true → handed u = handed s) := by
    refine @run_inv _ _ step
      (fun v => v.up = .ended ∧ Ends v ∧ (v.io_alive = true → handed v = handed s))
      ?_ _ _ _ ⟨hu, hs, fun _ => rfl⟩ h
    rintro v l v' ⟨hvu, hv, hh⟩ hstep
    obtain ⟨hv', hgone⟩ := step_keeps hv hstep
    refine ⟨hgone.up hvu, hv', fun hio' => ?_⟩
    obtain ⟨hio, heq⟩ := step_handed hvu hstep hio'
    exact heq.trans (hh hio)
  exact hinv.2.2 hio

/-! ## What the carrier sees -/

/-- **Which failed direction the carrier sees.** In every run. Once `down` has ended
because the layer's writer raised: every later write is refused with a broken pipe
exactly if the carrier has shut its writes down, or the `LayerEnd` is gone, which it is
not before `up` has ended too; while it is there, writes are accepted until the channel
is full, and then not ready. Once `up` has ended: the reads return the bytes already
handed over, none at all only with the end of file, which comes after the last. -/
theorem failed_direction_seen_iff {ls : List Label} {s : Layer}
    (h : run step init ls = some s) :
    (s.down = .ended → s.w2_error = true →
      ((∀ ms u, run step s ms = some u → u.io_alive = true → ∀ data, ∃ u',
          poll_write u data true = some (u', .broken_pipe))
        ↔ s.tx = false ∨ s.end_alive = false)
      ∧ (s.end_alive = false → s.up = .ended)
      ∧ (s.tx = true → s.end_alive = true → ∀ data,
          if s.out.length < DEPTH then ∃ s', poll_write s data true = some (s', .ok data.length)
          else poll_write s data true = none))
    ∧ (s.up = .ended → ∀ ms u, run step s ms = some u → u.io_alive = true →
        u.returned.flatten ++ left u = s.returned.flatten ++ left s
        ∧ ∀ cap, 0 < cap → ∃ u' r, poll_read u cap true = some (u', r)
          ∧ (left u = [] → r = .eof)
          ∧ (left u ≠ [] → ∃ b, r = .data b ∧ b ≠ [] ∧ left u = b ++ left u')) := by
  have hs := run_ends h
  refine ⟨fun _ _ => ⟨refused_after_iff hs, hs.layer_end, fun htx hend data => ?_⟩, ?_⟩
  · by_cases hroom : s.out.length < DEPTH
    · simp [poll_write, htx, hend, hroom]
    · simp [poll_write, htx, hend, hroom]
  · intro hu ms u hrun hio
    obtain ⟨hus, hgone⟩ := run_gone hs hrun
    exact ⟨run_handed hs hu hrun hio, fun cap hcap => poll_read_left hus (hgone.up hu) hcap⟩

/-- The writer raises on the first message, and `up` ends with a byte unread. -/
def writer_raises : List Label :=
  [.run_down true, .run_up, .poll_write [1] true, .r2_read (some [5]), .run_up, .end_write, .run_up,
    .end_read, .run_down false, .r2_read none, .run_up, .drop_end]

theorem failed_direction_seen_iff_writer_raises :
    ∃ s, run step init writer_raises = some s ∧ s.down = .ended ∧ s.w2_error = true
      ∧ s.up = .ended ∧ left s = [5]
      ∧ (∀ ms u, run step s ms = some u → u.io_alive = true → ∀ data, ∃ u',
          poll_write u data true = some (u', .broken_pipe))
      ∧ ∃ u' r, poll_read s 9 true = some (u', r) ∧ (left s = [] → r = .eof)
          ∧ (left s ≠ [] → ∃ b, r = .data b ∧ b ≠ [] ∧ left s = b ++ left u') := by
  have h := @failed_direction_seen_iff writer_raises _ rfl
  exact ⟨_, rfl, rfl, rfl, rfl, rfl, (h.1 rfl rfl).1.2 (.inr rfl),
    (h.2 rfl [] _ rfl rfl).2 9 (by decide)⟩

/-- The writer raises on the first message while the layer's reader goes on: the carrier's
next eight writes are accepted, and the ninth is pending until `up` ends. -/
theorem failed_writer_accepts_writes :
    ∃ s, run step init [.run_down true, .run_up, .poll_write [1] true, .end_read, .run_down false]
        = some s
      ∧ s.down = .ended ∧ s.w2_error = true ∧ s.io_alive = true
      ∧ (poll_write s [2] true).map Prod.snd = some (.ok 1)
      ∧ ∃ u, run step s (List.replicate 8 (.poll_write [2] true)) = some u
        ∧ u.w2_writes = s.w2_writes ∧ poll_write u [2] true = none :=
  ⟨_, rfl, rfl, rfl, rfl, rfl, _, rfl, rfl, rfl⟩

end ZmuxPy.LayerChannel
