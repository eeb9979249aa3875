/-
Labelled machines: what it means to run one, and the rules every module above
this one reasons with.

A machine is a partial step function `step : σ → α → Option σ`. All
nondeterminism (which thread moves, what the peer sends, what a foreign call
answers) sits in the label, so a schedule is a list of labels and a run is a
computation: a concrete schedule can be evaluated, and "for every
interleaving" is a quantifier over lists.

Two notions are defined on runs. `run` follows a schedule and fails as soon as
a label is not enabled. `Meets` says that every step of a schedule satisfies a
condition on the state **before** it; it is how a result that holds only off
some race names the race without mentioning the states the race leads to.
-/
import Mathlib.Data.List.Basic
import Mathlib.Tactic.Basic

set_option autoImplicit false

namespace Machine

variable {σ α : Type*} (step : σ → α → Option σ)

/-! ## Runs -/

/-- Follows a schedule; `none` as soon as a label is not enabled. -/
def run : σ → List α → Option σ
  | s, [] => some s
  | s, a :: as =>
    match step s a with
    | some s' => run s' as
    | none => none

@[simp] theorem run_nil (s : σ) : run step s [] = some s := rfl

/-- A run that starts with `a` is one step and the rest of the run. -/
theorem run_cons_eq_some {s t : σ} {a : α} {as : List α} :
    run step s (a :: as) = some t ↔ ∃ s', step s a = some s' ∧ run step s' as = some t := by
  simp only [run]
  cases h : step s a with
  | none => simp
  | some s' => simp

/-- Two runs, one after the other. -/
theorem run_append {s t u : σ} {as bs : List α}
    (h₁ : run step s as = some t) (h₂ : run step t bs = some u) :
    run step s (as ++ bs) = some u := by
  induction as generalizing s with
  | nil =>
      rw [run_nil, Option.some.injEq] at h₁
      rw [h₁]
      exact h₂
  | cons a as ih =>
      obtain ⟨s', hs', hrest⟩ := (run_cons_eq_some step).1 h₁
      exact (run_cons_eq_some step).2 ⟨s', hs', ih hrest⟩

/-- Every run can be cut in two. -/
theorem run_append_eq_some {s u : σ} {as bs : List α} :
    run step s (as ++ bs) = some u ↔ ∃ t, run step s as = some t ∧ run step t bs = some u := by
  refine ⟨?_, fun ⟨t, h₁, h₂⟩ => run_append step h₁ h₂⟩
  intro h
  induction as generalizing s with
  | nil => exact ⟨s, rfl, h⟩
  | cons a as ih =>
      obtain ⟨s', hs', hrest⟩ := (run_cons_eq_some step).1 h
      obtain ⟨t, ht, hu⟩ := ih hrest
      exact ⟨t, (run_cons_eq_some step).2 ⟨s', hs', ht⟩, hu⟩

/-- `t` is one of the states a schedule passes through, both ends included. -/
def Visits (s : σ) (as : List α) (t : σ) : Prop :=
  ∃ pre post, as = pre ++ post ∧ run step s pre = some t

/-- A run is in its first state at first. -/
theorem visits_self (s : σ) (as : List α) : Visits step s as s := ⟨[], as, rfl, rfl⟩

/-- After that it visits what the rest of it visits. -/
theorem visits_cons {s s' t : σ} {a : α} {as : List α} (hs : step s a = some s') :
    Visits step s (a :: as) t ↔ t = s ∨ Visits step s' as t := by
  constructor
  · rintro ⟨pre, post, hsplit, hrun⟩
    cases pre with
    | nil =>
        rw [run_nil, Option.some.injEq] at hrun
        exact .inl hrun.symm
    | cons b pre =>
        rw [List.cons_append, List.cons.injEq] at hsplit
        obtain ⟨rfl, hsplit⟩ := hsplit
        obtain ⟨u, hu, hrest⟩ := (run_cons_eq_some step).1 hrun
        rw [hs, Option.some.injEq] at hu
        subst hu
        exact .inr ⟨pre, post, hsplit, hrest⟩
  · rintro (rfl | ⟨pre, post, rfl, hrun⟩)
    · exact visits_self step t _
    · exact ⟨a :: pre, post, rfl, (run_cons_eq_some step).2 ⟨s', hs, hrun⟩⟩

/-! ## Conditions on the steps of a run -/

/-- Every step of the schedule meets `cond` in the state before it. -/
def Meets (cond : σ → α → Prop) : σ → List α → Prop
  | _, [] => True
  | s, a :: as =>
    cond s a ∧
      match step s a with
      | some s' => Meets cond s' as
      | none => True

/-- A condition that can be computed can be checked along a run. -/
instance Meets.decidable (cond : σ → α → Prop) [∀ s a, Decidable (cond s a)] :
    ∀ s as, Decidable (Meets step cond s as)
  | _, [] => .isTrue trivial
  | s, a :: as =>
    match h : step s a with
    | some s' =>
      have := Meets.decidable cond s' as
      decidable_of_iff (cond s a ∧ Meets step cond s' as) (by simp only [Meets, h])
    | none => decidable_of_iff (cond s a) (by simp only [Meets, h, and_true])

/-- One step of the run, and the rest. -/
theorem meets_cons {cond : σ → α → Prop} {s s' : σ} {a : α} {as : List α}
    (hs : step s a = some s') :
    Meets step cond s (a :: as) ↔ cond s a ∧ Meets step cond s' as := by
  simp only [Meets, hs]

/-- A condition on the labels alone. -/
theorem meets_of_forall {p : α → Prop} {as : List α} (h : ∀ a ∈ as, p a) (s : σ) :
    Meets step (fun _ a => p a) s as := by
  induction as generalizing s with
  | nil => trivial
  | cons a as ih =>
      refine ⟨h a List.mem_cons_self, ?_⟩
      cases step s a with
      | none => trivial
      | some s' => exact ih (fun b hb => h b (List.mem_cons_of_mem _ hb)) s'

/-- Two conditions that are met together. -/
theorem Meets.and {c₁ c₂ : σ → α → Prop} {s : σ} {as : List α} (h₁ : Meets step c₁ s as)
    (h₂ : Meets step c₂ s as) : Meets step (fun s a => c₁ s a ∧ c₂ s a) s as := by
  induction as generalizing s with
  | nil => trivial
  | cons a as ih =>
      obtain ⟨hc₁, h₁⟩ := h₁
      obtain ⟨hc₂, h₂⟩ := h₂
      refine ⟨⟨hc₁, hc₂⟩, ?_⟩
      cases h : step s a with
      | none => trivial
      | some s' =>
          rw [h] at h₁ h₂
          exact ih h₁ h₂

/-- A run goes on under the same condition; -/
theorem Meets.append {cond : σ → α → Prop} {s t : σ} {as bs : List α}
    (h₁ : Meets step cond s as) (ht : run step s as = some t) (h₂ : Meets step cond t bs) :
    Meets step cond s (as ++ bs) := by
  induction as generalizing s with
  | nil =>
      rw [run_nil, Option.some.injEq] at ht
      rw [ht]
      exact h₂
  | cons a as ih =>
      obtain ⟨s', hs', hrest⟩ := (run_cons_eq_some step).1 ht
      obtain ⟨hc, hm⟩ := (meets_cons step hs').1 h₁
      exact (meets_cons step hs').2 ⟨hc, ih hm hrest⟩

/-- and so its second part meets it, from where the first one came to. -/
theorem Meets.of_append {cond : σ → α → Prop} {s t : σ} {as bs : List α}
    (h : Meets step cond s (as ++ bs)) (ht : run step s as = some t) : Meets step cond t bs := by
  induction as generalizing s with
  | nil =>
      rw [run_nil, Option.some.injEq] at ht
      rw [← ht]
      exact h
  | cons a as ih =>
      obtain ⟨s', hs', hrest⟩ := (run_cons_eq_some step).1 ht
      exact ih ((meets_cons step hs').1 h).2 hrest

/-! ## Invariants

The induction rules. `run_inv` is the plain one; `meets_inv` and
`meets_inv_of_inv` carry an invariant that only steps meeting a condition
preserve. `run_inv_past` is the plain one for an invariant that also speaks of
the steps so far. `meets_iff` and
`visits_iff` prove a run-level equivalence from a step-level one: the first for
a property that, once lost, stays lost, the second for one that may come back,
and so is asked of every state on the way. -/

/-- **The rule of invariants.** What one step preserves, a run preserves. -/
theorem run_inv {Inv : σ → Prop}
    (hstep : ∀ s a s', Inv s → step s a = some s' → Inv s')
    {s t : σ} {as : List α} (hs : Inv s) (h : run step s as = some t) : Inv t := by
  induction as generalizing s with
  | nil =>
      rw [run_nil, Option.some.injEq] at h
      exact h ▸ hs
  | cons a as ih =>
      obtain ⟨s', hs', hrest⟩ := (run_cons_eq_some step).1 h
      exact ih (hstep s a s' hs hs') hrest

/-- The same for an invariant that also speaks of the steps taken so far. -/
theorem run_inv_past {Inv : List α → σ → Prop}
    (hstep : ∀ as s a s', Inv as s → step s a = some s' → Inv (as ++ [a]) s')
    {s t : σ} {as : List α} (hs : Inv [] s) (h : run step s as = some t) : Inv as t := by
  have hgen : ∀ (past : List α) (s : σ), Inv past s → run step s as = some t →
      Inv (past ++ as) t := by
    clear hs h
    induction as with
    | nil =>
        intro past s hs h
        rw [run_nil, Option.some.injEq] at h
        rw [List.append_nil]
        exact h ▸ hs
    | cons a as ih =>
        intro past s hs h
        obtain ⟨s', hs', hrest⟩ := (run_cons_eq_some step).1 h
        have := ih (past ++ [a]) s' (hstep past s a s' hs hs') hrest
        rwa [List.append_assoc] at this
  exact hgen [] s hs h

/-- What one more step adds to a count of the steps taken so far. -/
theorem countP_snoc (p : α → Bool) (as : List α) (a : α) :
    (as ++ [a]).countP p = as.countP p + (p a).toNat := by
  rw [List.countP_append, List.countP_singleton]
  cases p a <;> rfl

/-- The same, if a step preserves it only under a condition. -/
theorem meets_inv {Inv : σ → Prop} {cond : σ → α → Prop}
    (hstep : ∀ s a s', Inv s → cond s a → step s a = some s' → Inv s')
    {s t : σ} {as : List α} (hs : Inv s) (hm : Meets step cond s as)
    (h : run step s as = some t) : Inv t := by
  induction as generalizing s with
  | nil =>
      rw [run_nil, Option.some.injEq] at h
      exact h ▸ hs
  | cons a as ih =>
      obtain ⟨s', hs', hrest⟩ := (run_cons_eq_some step).1 h
      obtain ⟨hc, hm'⟩ := (meets_cons step hs').1 hm
      exact ih (hstep s a s' hs hc hs') hm' hrest

/-- The same on top of an invariant that every step preserves. -/
theorem meets_inv_of_inv {Inv P : σ → Prop} {cond : σ → α → Prop}
    (hinv : ∀ s a s', Inv s → step s a = some s' → Inv s')
    (hstep : ∀ s a s', Inv s → P s → cond s a → step s a = some s' → P s')
    {s t : σ} {as : List α} (hs : Inv s) (hp : P s) (hm : Meets step cond s as)
    (h : run step s as = some t) : P t := by
  have hboth : ∀ s a s', Inv s ∧ P s → cond s a → step s a = some s' → Inv s' ∧ P s' :=
    fun s a s' hs hc hs' => ⟨hinv s a s' hs.1 hs', hstep s a s' hs.1 hs.2 hc hs'⟩
  exact (meets_inv step hboth ⟨hs, hp⟩ hm h).2

/-- A condition that implies another one on every step, by an invariant that it keeps. -/
theorem Meets.imp_of_inv {Inv : σ → Prop} {c₁ c₂ : σ → α → Prop}
    (hinv : ∀ s a s', Inv s → c₁ s a → step s a = some s' → Inv s')
    (himp : ∀ s a, Inv s → c₁ s a → c₂ s a)
    {s : σ} {as : List α} (hs : Inv s) (h : Meets step c₁ s as) : Meets step c₂ s as := by
  induction as generalizing s with
  | nil => trivial
  | cons a as ih =>
      obtain ⟨hc, hrest⟩ := h
      refine ⟨himp s a hs hc, ?_⟩
      cases hs' : step s a with
      | none => trivial
      | some s' =>
          rw [hs'] at hrest
          exact ih (hinv s a s' hs hc hs') hrest

/-- For the runs whose steps all meet `c`. -/
theorem meets_iff_of_meets {Inv P : σ → Prop} {c cond : σ → α → Prop}
    (hinv : ∀ s a s', c s a → Inv s → step s a = some s' → Inv s')
    (hstep : ∀ s a s', c s a → Inv s → step s a = some s' → (P s' ↔ P s ∧ cond s a))
    {s t : σ} {as : List α} (hm : Meets step c s as) (hs : Inv s) (h : run step s as = some t) :
    P t ↔ P s ∧ Meets step cond s as := by
  induction as generalizing s with
  | nil =>
      rw [run_nil, Option.some.injEq] at h
      rw [h]
      exact ⟨fun hp => ⟨hp, trivial⟩, fun hp => hp.1⟩
  | cons a as ih =>
      obtain ⟨s', hs', hrest⟩ := (run_cons_eq_some step).1 h
      obtain ⟨hc, hm'⟩ := (meets_cons step hs').1 hm
      rw [ih hm' (hinv s a s' hc hs hs') hrest, hstep s a s' hc hs hs', meets_cons step hs',
        and_assoc]

/-- For the runs whose labels all satisfy `p`. -/
theorem meets_iff_of_forall {Inv P : σ → Prop} {cond : σ → α → Prop} {p : α → Prop}
    (hinv : ∀ s a s', p a → Inv s → step s a = some s' → Inv s')
    (hstep : ∀ s a s', p a → Inv s → step s a = some s' → (P s' ↔ P s ∧ cond s a))
    {s t : σ} {as : List α} (hp : ∀ a ∈ as, p a) (hs : Inv s) (h : run step s as = some t) :
    P t ↔ P s ∧ Meets step cond s as :=
  meets_iff_of_meets step hinv hstep (meets_of_forall step hp s) hs h

/-- If a step keeps `P` exactly when it meets the condition, then a run ends in `P` exactly
when it began in it and met the condition throughout. -/
theorem meets_iff {Inv P : σ → Prop} {cond : σ → α → Prop}
    (hinv : ∀ s a s', Inv s → step s a = some s' → Inv s')
    (hstep : ∀ s a s', Inv s → step s a = some s' → (P s' ↔ P s ∧ cond s a))
    {s t : σ} {as : List α} (hs : Inv s) (h : run step s as = some t) :
    P t ↔ P s ∧ Meets step cond s as :=
  meets_iff_of_forall step (p := fun _ => True) (fun s a s' _ => hinv s a s')
    (fun s a s' _ => hstep s a s') (fun _ _ => trivial) hs h

/-- A property of every state on the way: one that a step from a good state
keeps exactly when it meets the condition. -/
theorem visits_iff {Inv P : σ → Prop} {cond : σ → α → Prop}
    (hinv : ∀ s a s', Inv s → step s a = some s' → Inv s')
    (hstep : ∀ s a s', Inv s → P s → step s a = some s' → (P s' ↔ cond s a))
    {s t : σ} {as : List α} (hs : Inv s) (hp : P s) (h : run step s as = some t) :
    (∀ u, Visits step s as u → P u) ↔ Meets step cond s as := by
  induction as generalizing s with
  | nil =>
      refine ⟨fun _ => trivial, ?_⟩
      rintro - u ⟨pre, post, hnil, hrun⟩
      obtain ⟨rfl, -⟩ := List.append_eq_nil_iff.1 hnil.symm
      rw [run_nil, Option.some.injEq] at hrun
      exact hrun ▸ hp
  | cons a as ih =>
      obtain ⟨s', hs', hrest⟩ := (run_cons_eq_some step).1 h
      have hiff := hstep s a s' hs hp hs'
      rw [meets_cons step hs']
      constructor
      · intro hall
        have hp' : P s' := hall s' ((visits_cons step hs').2 (.inr (visits_self step s' as)))
        refine ⟨hiff.1 hp', (ih (hinv s a s' hs hs') hp' hrest).1 ?_⟩
        exact fun u hu => hall u ((visits_cons step hs').2 (.inr hu))
      · rintro ⟨hc, hm⟩ u hu
        have hp' := hiff.2 hc
        rcases (visits_cons step hs').1 hu with rfl | hu
        · exact hp
        · exact (ih (hinv s a s' hs hs') hp' hrest).2 hm u hu

/-! ## Measures -/

/-- Steps of one kind that each use up a measure, which no other step adds to. -/
theorem countP_add_le {P : σ → Prop} {p : α → Bool} {μ : σ → ℕ}
    (hstep : ∀ s a s', P s → step s a = some s' → P s' ∧ (p a).toNat + μ s' ≤ μ s)
    {s t : σ} {as : List α} (hs : P s) (h : run step s as = some t) :
    P t ∧ as.countP p + μ t ≤ μ s := by
  induction as generalizing s with
  | nil =>
      rw [run_nil, Option.some.injEq] at h
      rw [← h]
      exact ⟨hs, by simp⟩
  | cons a as ih =>
      obtain ⟨s', hs', hrest⟩ := (run_cons_eq_some step).1 h
      obtain ⟨hp, hle⟩ := hstep s a s' hs hs'
      obtain ⟨ht, hcount⟩ := ih hp hrest
      refine ⟨ht, ?_⟩
      rw [List.countP_cons]
      cases hpa : p a with
      | false =>
          rw [hpa, Bool.toNat_false] at hle
          simp only [Bool.false_eq_true, if_false]
          omega
      | true =>
          rw [hpa, Bool.toNat_true] at hle
          simp only [if_true]
          omega

/-- A goal is reached by steps that are there until then, and use up a measure. -/
theorem exists_run_of_decreasing {P G : σ → Prop} {p : α → Prop} (μ : σ → ℕ)
    (hstep : ∀ s, P s → ¬ G s → ∃ a s', p a ∧ step s a = some s' ∧ P s' ∧ μ s' < μ s)
    {s : σ} (hs : P s) : ∃ as t, (∀ a ∈ as, p a) ∧ run step s as = some t ∧ G t := by
  induction hn : μ s using Nat.strongRecOn generalizing s with
  | ind n ih =>
      by_cases hg : G s
      · exact ⟨[], s, nofun, rfl, hg⟩
      · obtain ⟨a, s', ha, hs', hp, hlt⟩ := hstep s hs hg
        obtain ⟨as, t, has, ht, hgt⟩ := ih (μ s') (hn ▸ hlt) hp rfl
        exact ⟨a :: as, t, List.forall_mem_cons.2 ⟨ha, has⟩,
          (run_cons_eq_some step).2 ⟨s', hs', ht⟩, hgt⟩

/-! ## Frames -/

/-- A change of the state that every step of a schedule commutes with: the run from
the changed state is the run, changed. -/
theorem run_map {φ : σ → σ} {P : σ → Prop} {p : α → Prop}
    (hinv : ∀ s a s', P s → step s a = some s' → P s')
    (hstep : ∀ s a, P s → p a → step (φ s) a = (step s a).map φ)
    {s : σ} {as : List α} (hs : P s) (has : ∀ a ∈ as, p a) :
    run step (φ s) as = (run step s as).map φ := by
  induction as generalizing s with
  | nil => rfl
  | cons a as ih =>
      simp only [run, hstep s a hs (has a List.mem_cons_self)]
      cases h : step s a with
      | none => rfl
      | some s' => exact ih (hinv s a s' hs h) fun b hb => has b (List.mem_cons_of_mem _ hb)

/-! ## Records

What a property says of the past (who has been told what, what came in so far) need
not be part of a machine's state: a record beside it is brought up to date by every
step, and read by none. -/

variable {γ : Type*} (update : σ → α → γ → γ)

/-- The machine with a record beside its state. -/
def recorded (s : σ × γ) (a : α) : Option (σ × γ) :=
  (step s.1 a).map fun s' => (s', update s.1 a s.2)

/-- A recorded step is a step, and an entry. -/
theorem recorded_eq_some {s s' : σ × γ} {a : α} :
    recorded step update s a = some s' ↔ step s.1 a = some s'.1 ∧ s'.2 = update s.1 a s.2 := by
  unfold recorded
  rw [Option.map_eq_some_iff]
  constructor
  · rintro ⟨t, ht, rfl⟩
    exact ⟨ht, rfl⟩
  · rintro ⟨ht, hc⟩
    exact ⟨s'.1, ht, Prod.ext rfl hc.symm⟩

/-- The record changes nothing about the runs. -/
theorem exists_run_recorded {s t : σ} {as : List α} (h : run step s as = some t) (c : γ) :
    ∃ d, run (recorded step update) (s, c) as = some (t, d) := by
  induction as generalizing s c with
  | nil =>
      rw [run_nil, Option.some.injEq] at h
      rw [h]
      exact ⟨c, rfl⟩
  | cons a as ih =>
      obtain ⟨s', hs', hrest⟩ := (run_cons_eq_some step).1 h
      obtain ⟨d, hd⟩ := ih hrest (update s a c)
      exact ⟨d, (run_cons_eq_some _).2 ⟨(s', update s a c),
        (recorded_eq_some step update).2 ⟨hs', rfl⟩, hd⟩⟩

end Machine
