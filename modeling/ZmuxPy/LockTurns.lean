/-
What the holders of a fair lock do, in the order in which they asked for it.

A lock that is handed on in the order of asking puts the work of its holders in that
order too: whatever anybody did while it held the lock comes before all that a later one
does. `Turns` says so of a log of pieces of data, each with the holder that added it. The
log is then the same data as the shares of the holders, one after the other, in the order
of asking: no two shares are mixed (`Turns.whole`).

Nobody may ask twice (it is a call that asks, and is over when it leaves), which is why
`Order.ask` wants one who is in the queue, or who has not asked yet.
-/
import Mathlib.Data.List.Flatten
import ZmuxPy.FairLock

set_option autoImplicit false

namespace FairLock

variable {ι α : Type*} [DecidableEq ι]

/-! ## The order of asking -/

/-- The queue is in the order of asking; `asked` has everyone who ever asked. -/
structure Order (q asked : List ι) : Prop where
  nodup : asked.Nodup
  sub : q.Sublist asked

/-- Whoever asked before `i` has left. -/
def Served (q asked : List ι) (i : ι) : Prop :=
  ∀ l₁ l₂, asked = l₁ ++ i :: l₂ → ∀ k ∈ l₁, k ∉ q

variable {q asked : List ι} {i j : ι}

omit [DecidableEq ι] in
/-- At first nobody has asked. -/
theorem Order.nil : Order ([] : List ι) [] := ⟨List.nodup_nil, List.Sublist.refl _⟩

/-- A newcomer is last in both; whoever is in the queue keeps the place in both. Somebody who
asked and left may not ask again. -/
theorem Order.ask (h : Order q asked) (hi : i ∈ q ∨ i ∉ asked) :
    Order (FairLock.ask q i) (FairLock.ask asked i) := by
  refine ⟨nodup_ask h.nodup i, ?_⟩
  rcases hi with hi | hi
  · rw [ask_of_mem hi, ask_of_mem (h.sub.subset hi)]
    exact h.sub
  · rw [ask_of_notMem hi, ask_of_notMem fun hq => hi (h.sub.subset hq)]
    exact h.sub.append_right [i]

/-- Leaving keeps the order of the others. -/
theorem Order.leave (h : Order q asked) (i : ι) : Order (FairLock.leave q i) asked :=
  ⟨h.nodup, List.erase_sublist.trans h.sub⟩

omit [DecidableEq ι] in
/-- The holder is the first of those who are left. -/
theorem Order.served (h : Order q asked) (hi : Holds q i) : Served q asked i := by
  intro l₁ l₂ hasked k hk hkq
  have hnodup := h.nodup
  have hsub := h.sub
  rw [hasked] at hnodup hsub
  obtain ⟨-, -, hdisj⟩ := List.nodup_append.1 hnodup
  obtain ⟨a, b, hab, ha, hb⟩ := List.sublist_append_iff.1 hsub
  -- nothing of the queue is in `l₁`, because the head would be
  have hnil : a = [] := by
    cases a with
    | nil => rfl
    | cons c rest =>
        rw [hab, Holds, List.cons_append, List.head?_cons, Option.some.injEq] at hi
        exact absurd rfl (hdisj i (ha.subset (hi ▸ List.mem_cons_self)) i List.mem_cons_self)
  rw [hab, hnil, List.nil_append] at hkq
  exact hdisj k hk k (hb.subset hkq) rfl

/-- One more at the end changes nothing of what is before `i`. -/
theorem split_of_ask {l₁ l₂ : List ι} (hi : i ∈ asked)
    (h : FairLock.ask asked j = l₁ ++ i :: l₂) : ∃ l, asked = l₁ ++ i :: l := by
  by_cases hj : j ∈ asked
  · exact ⟨l₂, (ask_of_mem hj).symm.trans h⟩
  · rw [ask_of_notMem hj] at h
    rcases List.eq_nil_or_concat l₂ with rfl | ⟨l, x, rfl⟩
    · exact absurd ((List.cons.inj (List.append_inj_right' h rfl)).1 ▸ hi) hj
    · rw [List.concat_eq_append, ← List.cons_append, ← List.append_assoc] at h
      exact ⟨l, List.append_inj_left' h rfl⟩

/-- Those before one who was served stay over when others ask, -/
theorem Served.ask (h : Served q asked i) (hi : i ∈ asked) (hj : j ∈ q ∨ j ∉ asked) :
    Served (FairLock.ask q j) (FairLock.ask asked j) i := by
  intro l₁ l₂ hasked k hk hkq
  obtain ⟨l, hl⟩ := split_of_ask hi hasked
  have hka : k ∈ asked := hl ▸ List.mem_append_left _ hk
  rcases mem_ask.1 hkq with hkq | rfl
  · exact h l₁ l hl k hk hkq
  · exact h l₁ l hl k hk (hj.resolve_right fun hno => hno hka)

/-- and when others leave. -/
theorem Served.leave (h : Served q asked i) (j : ι) : Served (FairLock.leave q j) asked i :=
  fun l₁ l₂ hasked k hk hkq => h l₁ l₂ hasked k hk (List.mem_of_mem_erase hkq)

/-! ## The log -/

/-- What `i` added to the log. -/
def share (log : List (ι × List α)) (i : ι) : List α :=
  log.flatMap fun p => if p.1 = i then p.2 else []

/-- A piece goes to the share of the one who made it. -/
theorem share_snoc (log : List (ι × List α)) (i : ι) (piece : List α) (j : ι) :
    share (log ++ [(i, piece)]) j = share log j ++ if i = j then piece else [] := by
  simp [share]

/-- Whoever has a share has made a piece. -/
theorem exists_of_share_ne_nil {log : List (ι × List α)} (h : share log i ≠ []) :
    ∃ p ∈ log, p.1 = i := by
  by_contra hno
  refine h (List.flatMap_eq_nil_iff.2 fun p hp => if_neg fun hpi => hno ⟨p, hp, hpi⟩)

/-- A log to which only holders of the lock added. -/
structure Turns (q asked : List ι) (log : List (ι × List α)) : Prop where
  order : Order q asked
  served : ∀ p ∈ log, p.1 ∈ asked ∧ Served q asked p.1
  /-- The log is the shares, in the order of asking. -/
  whole : log.flatMap Prod.snd = asked.flatMap (share log)

variable {log : List (ι × List α)}

/-- At first there are no pieces. -/
theorem Turns.nil : Turns ([] : List ι) [] ([] : List (ι × List α)) :=
  ⟨.nil, fun _ h => absurd h List.not_mem_nil, rfl⟩

/-- Asking disturbs no share, -/
theorem Turns.ask (h : Turns q asked log) (hi : i ∈ q ∨ i ∉ asked) :
    Turns (FairLock.ask q i) (FairLock.ask asked i) log := by
  refine ⟨h.order.ask hi, fun p hp => ?_, ?_⟩
  · obtain ⟨hpa, hps⟩ := h.served p hp
    exact ⟨mem_ask.2 (.inl hpa), hps.ask hpa hi⟩
  · rw [h.whole]
    by_cases hia : i ∈ asked
    · rw [ask_of_mem hia]
    · -- who asks for the first time has no share yet
      have hnone : share log i = [] := by
        by_contra hne
        obtain ⟨p, hp, hpi⟩ := exists_of_share_ne_nil hne
        exact hia (hpi ▸ (h.served p hp).1)
      rw [ask_of_notMem hia, List.flatMap_append, List.flatMap_singleton, hnone, List.append_nil]

/-- nor does leaving. -/
theorem Turns.leave (h : Turns q asked log) (i : ι) : Turns (FairLock.leave q i) asked log :=
  ⟨h.order.leave i, fun p hp => ⟨(h.served p hp).1, (h.served p hp).2.leave i⟩, h.whole⟩

/-- Whoever asked after the holder has added nothing yet. -/
theorem Turns.share_behind (h : Turns q asked log) (hi : Holds q i) {l₁ l₂ : List ι}
    (hasked : asked = l₁ ++ i :: l₂) (hj : j ∈ l₂) : share log j = [] := by
  by_contra hne
  obtain ⟨p, hp, rfl⟩ := exists_of_share_ne_nil hne
  obtain ⟨a, b, rfl⟩ := List.append_of_mem hj
  have hsplit : asked = (l₁ ++ i :: a) ++ p.1 :: b := by rw [hasked]; simp
  exact (h.served p hp).2 _ _ hsplit i (by simp) (List.mem_of_mem_head? hi)

/-- The holder adds a piece. -/
theorem Turns.add (h : Turns q asked log) (hi : Holds q i) (piece : List α) :
    Turns q asked (log ++ [(i, piece)]) := by
  have hia : i ∈ asked := h.order.sub.subset (List.mem_of_mem_head? hi)
  refine ⟨h.order, fun p hp => ?_, ?_⟩
  · rcases List.mem_append.1 hp with hp | hp
    · exact h.served p hp
    · rw [List.mem_singleton.1 hp]
      exact ⟨hia, h.order.served hi⟩
  · obtain ⟨l₁, l₂, hasked⟩ := List.append_of_mem hia
    have hnodup := h.order.nodup
    rw [hasked] at hnodup
    obtain ⟨-, hnodup₂, hdisj⟩ := List.nodup_append.1 hnodup
    have hbefore : l₁.flatMap (share (log ++ [(i, piece)])) = l₁.flatMap (share log) := by
      refine List.flatMap_congr fun j hj => ?_
      rw [share_snoc, if_neg fun hij => hdisj j hj i List.mem_cons_self hij.symm, List.append_nil]
    have hbehind : l₂.flatMap (share (log ++ [(i, piece)])) = [] := by
      refine List.flatMap_eq_nil_iff.2 fun j hj => ?_
      rw [share_snoc, h.share_behind hi hasked hj, if_neg, List.append_nil]
      rintro rfl
      exact (List.nodup_cons.1 hnodup₂).1 hj
    have hbehind' : l₂.flatMap (share log) = [] :=
      List.flatMap_eq_nil_iff.2 fun j hj => h.share_behind hi hasked hj
    have hwhole := h.whole
    rw [hasked, List.flatMap_append, List.flatMap_cons, hbehind', List.append_nil] at hwhole
    calc (log ++ [(i, piece)]).flatMap Prod.snd
        = (l₁.flatMap (share log) ++ share log i) ++ piece := by
          rw [List.flatMap_append, List.flatMap_singleton, hwhole]
      _ = asked.flatMap (share (log ++ [(i, piece)])) := by
          rw [hasked, List.flatMap_append, List.flatMap_cons, hbefore, hbehind, share_snoc,
            if_pos rfl, List.append_nil, List.append_assoc]

end FairLock
