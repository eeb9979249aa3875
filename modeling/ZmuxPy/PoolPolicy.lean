/-
`PoolPolicy.decide` of `src/pool.rs`: one decision of a pool policy, on members and times
that Python gives as dicts and floats.

The call converts every argument before it locks the policy. A `?` ends it with a Python
exception, and `Duration::from_secs_f64` panics on a number that no `Duration` has; so does
`f64::clamp` on bounds out of order, and `unwrap` on a poisoned lock. All of these are
stops of the call, told apart by `Stop`. The guards (`metric`, and the one on
`since_dial`) ask for finite numbers that are not negative, which says nothing about
`from_secs_f64`'s upper bound.

A member's dict is what a lookup of each key comes to, which may be an exception. Each key
is looked up once, so this is also right for objects whose conversion runs Python code.
The crate's policy, a parameter, is a function from its state and the arguments to a new
state and an answer, or a panic.
-/
import ZmuxPy.Pyo3
import ZmuxPy.RustFloat

set_option autoImplicit false

namespace ZmuxPy.PoolPolicy

open Pyo3 RustFloat

/-! ## Arguments and answers -/

/-- The keys of a member's dict. -/
inductive Key where
  | id
  | age
  | idle
  | pipes
  | bytes_sent
  | bytes_received
  deriving DecidableEq, Repr

/-- The key of the Python dict. -/
def Key.name : Key → String
  | .id => "id"
  | .age => "age"
  | .idle => "idle"
  | .pipes => "pipes"
  | .bytes_sent => "bytes_sent"
  | .bytes_received => "bytes_received"

/-- `d.get_item(k)`, for each key. -/
abbrev Dict (Obj : Type) := Key → PyResult (Option Obj)

/-- `extract`, on Python objects. -/
structure Python (Obj : Type) where
  extract_f64 : Obj → PyResult F64
  extract_u64 : Obj → PyResult UInt64

/-- A member of the pool, as the policy sees it. -/
structure PoolMember where
  id : UInt64
  age : Duration
  idle : Duration
  pipes : UInt64
  bytes_sent : UInt64
  bytes_received : UInt64
  deriving DecidableEq, Repr

structure MemberDecision where
  count : Option ℕ
  dial_after : Option F64
  retire : List UInt64
  recheck : Option Duration
  probe_interval : Option F64
  probe_jitter : Option F64
  deriving DecidableEq, Repr

structure PoolPolicyDecision where
  count : Option ℕ
  dial_after : Option F64
  retire : List UInt64
  recheck : Option F64
  probe_interval : Option F64
  probe_jitter : Option F64
  deriving DecidableEq, Repr

/-- The ways in which the call panics. -/
inductive Panic where
  | from_secs_f64
  | clamp
  /-- The `unwrap` of a lock whose holder panicked. -/
  | poisoned
  /-- In the crate's policy. -/
  | policy
  deriving DecidableEq, Repr

/-- How a call ends without an answer. -/
inductive Stop where
  | raised (e : PyErr)
  | panicked (p : Panic)
  deriving DecidableEq, Repr

abbrev Flow := Except Stop

/-- `?`. -/
def raise {α : Type} : PyResult α → Flow α
  | .ok a => .ok a
  | .error e => .error (.raised e)

/-- A call that panics where it has no value. -/
def unwrap {α : Type} (p : Panic) : Option α → Flow α
  | some a => .ok a
  | none => .error (.panicked p)

/-- `Mutex<P>`. -/
structure Mutex (P : Type) where
  value : P
  poisoned : Bool
  deriving DecidableEq, Repr

/-- `MachinePoolPolicy::decide_members`; no answer is a panic. -/
structure Crate (P : Type) where
  decide_members : P → UInt32 → Option Duration → List PoolMember → P × Option MemberDecision

variable {Obj P : Type} (py : Python Obj) (cr : Crate P)

/-! ## The call -/

/-- `metric(d, k)`. -/
def metric (d : Dict Obj) (k : Key) : PyResult F64 := do
  match ← d k with
  | some v =>
    let x ← py.extract_f64 v
    if !x.is_finite || x.lt (.finite 0) then
      .error (.value_error ("member " ++ k.name ++ " is a finite non-negative number"))
    else .ok x
  | none => .ok (.finite 0)

/-- `count(x)`. As a float, `u64::MAX` is `2 ^ 64`. -/
def count (x : F64) : Option UInt64 := (x.clamp (.finite 0) (.finite (2 ^ 64))).map F64.as_u64

/-- `Duration::from_secs_f64(metric(d, k)?)`. -/
def duration (d : Dict Obj) (k : Key) : Flow Duration := do
  unwrap .from_secs_f64 (Duration.from_secs_f64 (← raise (metric py d k)))

/-- `count(metric(d, k)?)`. -/
def counter (d : Dict Obj) (k : Key) : Flow UInt64 := do
  unwrap .clamp (count (← raise (metric py d k)))

/-- The member's `id`. -/
def member_id (d : Dict Obj) : PyResult UInt64 := do
  match ← d .id with
  | some v => py.extract_u64 v
  | none => .error (.value_error "member without an id")

/-- One turn of the loop over `members`. -/
def member (d : Dict Obj) : Flow PoolMember := do
  let id ← raise (member_id py d)
  let age ← duration py d .age
  let idle ← duration py d .idle
  let pipes ← counter py d .pipes
  let bytes_sent ← counter py d .bytes_sent
  let bytes_received ← counter py d .bytes_received
  .ok { id, age, idle, pipes, bytes_sent, bytes_received }

/-- The loop over `members`. -/
def convert : List (Dict Obj) → Flow (List PoolMember)
  | [] => .ok []
  | d :: ds => do
    let m ← member py d
    let ms ← convert ds
    .ok (m :: ms)

/-- The conversion of `since_dial`. -/
def since : Option F64 → Flow (Option Duration)
  | some s =>
    if !s.is_finite || s.lt (.finite 0) then
      .error (.raised (.value_error "since_dial is a finite non-negative number"))
    else do .ok (some (← unwrap .from_secs_f64 (Duration.from_secs_f64 s)))
  | none => .ok none

/-- Everything before the lock. -/
def arguments (members : List (Dict Obj)) (since_dial : Option F64) :
    Flow (List PoolMember × Option Duration) := do
  let ms ← convert py members
  let since ← since since_dial
  .ok (ms, since)

def answer (out : MemberDecision) : PoolPolicyDecision :=
  { count := out.count
    dial_after := out.dial_after
    retire := out.retire
    recheck := out.recheck.map Duration.as_secs_f64
    probe_interval := out.probe_interval
    probe_jitter := out.probe_jitter }

/-- `self.0.lock().unwrap().decide_members(..)`. -/
def consult (policy : Mutex P) (failures : UInt32) (since : Option Duration)
    (ms : List PoolMember) : Mutex P × Flow PoolPolicyDecision :=
  if policy.poisoned then (policy, .error (.panicked .poisoned))
  else
    match cr.decide_members policy.value failures since ms with
    | (p, some out) => (⟨p, false⟩, .ok (answer out))
    -- the guard is dropped by the panic, which poisons the lock
    | (p, none) => (⟨p, true⟩, .error (.panicked .policy))

/-- `PoolPolicy.decide`: the policy afterwards, and how the call ended. -/
def decide (policy : Mutex P) (failures : UInt32) (members : List (Dict Obj))
    (since_dial : Option F64) : Mutex P × Flow PoolPolicyDecision :=
  match arguments py members since_dial with
  | .ok (ms, since) => consult cr policy failures since ms
  | .error s => (policy, .error s)

/-! ## Where a call stops

What the arguments alone say. The call looks at them in a fixed order, and each one ends
it or lets it go on. -/

/-- An argument that the call looks at. -/
inductive Argument (Obj : Type) where
  | id (d : Dict Obj)
  | duration (d : Dict Obj) (k : Key)
  | count (d : Dict Obj) (k : Key)
  | since_dial (x : F64)

def Argument.of_member (d : Dict Obj) : List (Argument Obj) :=
  [.id d, .duration d .age, .duration d .idle, .count d .pipes, .count d .bytes_sent,
    .count d .bytes_received]

/-- All of them, in order. -/
def Argument.of_call (members : List (Dict Obj)) (since_dial : Option F64) :
    List (Argument Obj) :=
  members.flatMap of_member ++ since_dial.toList.map .since_dial

/-- The number a dict has for a key; 0 where it has none. -/
def number (d : Dict Obj) (k : Key) : PyResult F64 := do
  match ← d k with
  | some v => py.extract_f64 v
  | none => .ok (.finite 0)

namespace Argument

/-- The name of an argument in the exception about its number. -/
def name : Argument Obj → String
  | .id _ => "member id"
  | .duration _ k | .count _ k => "member " ++ k.name
  | .since_dial _ => "since_dial"

/-- The float of an argument; an `id` has none. -/
def value : Argument Obj → PyResult (Option F64)
  | .id d => (member_id py d).map fun _ => none
  | .duration d k | .count d k => (number py d k).map some
  | .since_dial x => .ok (some x)

/-- Whether the float becomes a `Duration`. -/
def is_duration : Argument Obj → Bool
  | .duration _ _ | .since_dial _ => true
  | _ => false

/-- The exception of a number that is negative or not finite. -/
def bad_number (a : Argument Obj) : Stop :=
  .raised (.value_error (a.name ++ " is a finite non-negative number"))

/-- The stop of a call at an argument that is the number `x`. -/
def number_stop (a : Argument Obj) : F64 → Option Stop
  | .finite q =>
    if q < 0 then some a.bad_number
    else if a.is_duration = true ∧ 2 ^ 64 ≤ q then some (.panicked .from_secs_f64)
    else none
  | _ => some a.bad_number

/-- The stop of a call at an argument. -/
def stop (a : Argument Obj) : Option Stop :=
  match a.value py with
  | .ok (some x) => a.number_stop x
  | .ok none => none
  | .error e => some (.raised e)

/-- An argument that converts: its float, if it has one, is in the domain of what is done
with it. -/
def InDomain (a : Argument Obj) : Prop :=
  ∃ o, a.value py = .ok o
    ∧ ∀ x, o = some x → ∃ q, x = .finite q ∧ 0 ≤ q ∧ (a.is_duration = true → q < 2 ^ 64)

theorem number_stop_eq_none {a : Argument Obj} {x : F64} :
    a.number_stop x = none
      ↔ ∃ q, x = .finite q ∧ 0 ≤ q ∧ (a.is_duration = true → q < 2 ^ 64) := by
  cases x with
  | finite q =>
      by_cases hq : q < 0
      · simp [number_stop, hq, not_le.2 hq]
      · simp [number_stop, hq, not_lt.1 hq]
  | infinity _ | nan => simp [number_stop]

theorem number_stop_of_bad (a : Argument Obj) {x : F64} (h : ∀ q, x = .finite q → q < 0) :
    a.number_stop x = some a.bad_number := by
  cases x with
  | finite q => rw [number_stop, if_pos (h q rfl)]
  | infinity _ | nan => rfl

/-- At its arguments a call stops with an exception, or in `from_secs_f64`. -/
theorem stop_cases {a : Argument Obj} {s : Stop} (h : a.stop py = some s) :
    (∃ e, s = .raised e) ∨ s = .panicked .from_secs_f64 := by
  unfold stop at h
  split at h
  · rename_i x _
    cases x with
    | finite q =>
        simp only [number_stop] at h
        split at h
        · cases h
          exact .inl ⟨_, rfl⟩
        · split at h
          · cases h
            exact .inr rfl
          · cases h
    | infinity _ | nan =>
        cases h
        exact .inl ⟨_, rfl⟩
  · cases h
  · cases h
    exact .inl ⟨_, rfl⟩

/-- **An argument converts exactly if it is in its domain.** -/
theorem stop_eq_none_iff {a : Argument Obj} : a.stop py = none ↔ a.InDomain py := by
  unfold stop InDomain
  cases a.value py with
  | error e => simp
  | ok o =>
      cases o with
      | none => simp
      | some x => simpa using number_stop_eq_none

end Argument

/-- The stop of a call at its arguments: that of the first one which does not convert. -/
def first_stop (members : List (Dict Obj)) (since_dial : Option F64) : Option Stop :=
  (Argument.of_call members since_dial).findSome? (Argument.stop py)

/-- All of them convert exactly if all of them are in their domains. -/
theorem first_stop_eq_none_iff {members : List (Dict Obj)} {since_dial : Option F64} :
    first_stop py members since_dial = none
      ↔ ∀ a ∈ Argument.of_call members since_dial, a.InDomain py := by
  simp only [first_stop, List.findSome?_eq_none_iff, Argument.stop_eq_none_iff]

theorem first_stop_cases {members : List (Dict Obj)} {since_dial : Option F64} {s : Stop}
    (h : first_stop py members since_dial = some s) :
    (∃ e, s = .raised e) ∨ s = .panicked .from_secs_f64 := by
  obtain ⟨a, -, ha⟩ := List.exists_of_findSome?_eq_some h
  exact a.stop_cases py ha

/-- The first argument that does not convert is where the call stops. -/
theorem first_stop_of_split {members : List (Dict Obj)} {since_dial : Option F64}
    {pre post : List (Argument Obj)} {a : Argument Obj} {s : Stop}
    (h : Argument.of_call members since_dial = pre ++ a :: post)
    (hpre : ∀ b ∈ pre, b.InDomain py) (ha : a.stop py = some s) :
    first_stop py members since_dial = some s := by
  have hnone : pre.findSome? (Argument.stop py) = none := by
    rw [List.findSome?_eq_none_iff]
    exact fun b hb => (b.stop_eq_none_iff py).2 (hpre b hb)
  rw [first_stop, h, List.findSome?_append, hnone, List.findSome?_cons, ha]
  rfl

/-! ## The conversions, one by one -/

def stop_of {α : Type} : Flow α → Option Stop
  | .ok _ => none
  | .error s => some s

/-- What comes after a step stops the call only if the step does not. -/
theorem stop_of_bind {α β : Type} {x : Flow α} {f : α → Flow β} {o : Option Stop}
    (h : ∀ a, stop_of (f a) = o) : stop_of (x >>= f) = (stop_of x).or o := by
  cases x with
  | ok a => exact h a
  | error s => rfl

/-- The guard of `metric`, and the conversion after it. -/
theorem stop_of_metric {α : Type} {a : Argument Obj} {d : Dict Obj} {k : Key} {f : F64 → Flow α}
    (hname : a.name = "member " ++ k.name) (hvalue : a.value py = (number py d k).map some)
    (hf : ∀ q, 0 ≤ q → stop_of (f (.finite q)) = a.number_stop (.finite q)) :
    stop_of (raise (metric py d k) >>= f) = a.stop py := by
  unfold Argument.stop
  rw [hvalue]
  unfold metric number
  cases d k with
  | error e => rfl
  | ok o =>
      cases o with
      | none => exact hf 0 le_rfl
      | some v =>
          simp only [ok_bind]
          cases py.extract_f64 v with
          | error e => rfl
          | ok x =>
              simp only [ok_bind]
              cases hguard : (!x.is_finite || x.lt (.finite 0)) with
              | false =>
                  obtain ⟨q, rfl, hq⟩ := F64.exists_finite_of_guard hguard
                  exact hf q hq
              | true =>
                  rw [if_pos rfl, ← hname]
                  exact (a.number_stop_of_bad (F64.guard_eq_true_iff.1 hguard)).symm

/-- `Duration::from_secs_f64` behind a guard. -/
theorem stop_of_from_secs {a : Argument Obj} (ha : a.is_duration = true) {q : ℚ} (hq : 0 ≤ q) :
    stop_of (unwrap .from_secs_f64 (Duration.from_secs_f64 (.finite q)))
      = a.number_stop (.finite q) := by
  have hneg := not_lt.2 hq
  cases hd : Duration.from_secs_f64 (.finite q) with
  | none =>
      have hlong := (Duration.from_secs_f64_eq_none_iff hq).1 hd
      simp [Argument.number_stop, hneg, ha, hlong, unwrap, stop_of]
  | some d =>
      have hshort : ¬ 2 ^ 64 ≤ q := by
        rw [← Duration.from_secs_f64_eq_none_iff hq, hd]
        simp
      simp [Argument.number_stop, hneg, hshort, unwrap, stop_of]

theorem stop_of_duration (d : Dict Obj) (k : Key) :
    stop_of (duration py d k) = Argument.stop py (.duration d k) :=
  stop_of_metric py rfl rfl fun _ hq => stop_of_from_secs rfl hq

/-- The bounds of `count` are in order, so it has a value everywhere. -/
theorem stop_of_count (x : F64) : stop_of (unwrap .clamp (count x)) = none := by
  have hle : F64.le (.finite 0) (.finite (2 ^ 64)) = true := by simp [F64.le, F64.lt]
  obtain ⟨y, hy⟩ := Option.isSome_iff_exists.1 (F64.isSome_clamp hle x)
  rw [count, hy]
  rfl

theorem stop_of_counter (d : Dict Obj) (k : Key) :
    stop_of (counter py d k) = Argument.stop py (.count d k) := by
  refine stop_of_metric py rfl rfl fun q hq => ?_
  rw [stop_of_count, eq_comm, Argument.number_stop_eq_none]
  exact ⟨q, rfl, hq, nofun⟩

theorem stop_of_id (d : Dict Obj) :
    stop_of (raise (member_id py d)) = Argument.stop py (.id d) := by
  have hvalue : Argument.value py (.id d) = (member_id py d).map fun _ => none := rfl
  rw [Argument.stop, hvalue]
  cases member_id py d <;> rfl

/-! ## The whole call -/

theorem findSome?_cons_eq_or {α β : Type} (f : α → Option β) (a : α) (l : List α) :
    (a :: l).findSome? f = (f a).or (l.findSome? f) := by
  rw [List.findSome?_cons]
  cases f a <;> rfl

theorem stop_of_member (d : Dict Obj) :
    stop_of (member py d) = (Argument.of_member d).findSome? (Argument.stop py) := by
  have hchain := stop_of_bind (x := raise (member_id py d)) fun id =>
    stop_of_bind (x := duration py d .age) fun age =>
    stop_of_bind (x := duration py d .idle) fun idle =>
    stop_of_bind (x := counter py d .pipes) fun pipes =>
    stop_of_bind (x := counter py d .bytes_sent) fun sent =>
    stop_of_bind (x := counter py d .bytes_received) fun received =>
    (rfl : stop_of (.ok (PoolMember.mk id age idle pipes sent received)) = none)
  simp only [Argument.of_member, findSome?_cons_eq_or, List.findSome?_nil, ← stop_of_id,
    ← stop_of_duration, ← stop_of_counter]
  exact hchain

theorem stop_of_convert (members : List (Dict Obj)) :
    stop_of (convert py members)
      = (members.flatMap Argument.of_member).findSome? (Argument.stop py) := by
  induction members with
  | nil => rfl
  | cons d ds ih =>
      rw [List.flatMap_cons, List.findSome?_append, ← stop_of_member, ← ih]
      refine stop_of_bind fun m => (stop_of_bind (o := none) fun ms => rfl).trans ?_
      exact Option.or_none

theorem stop_of_since (since_dial : Option F64) :
    stop_of (since since_dial)
      = (since_dial.toList.map .since_dial).findSome? (Argument.stop py) := by
  cases since_dial with
  | none => rfl
  | some x =>
      have hstop : [Argument.since_dial x].findSome? (Argument.stop py)
          = (Argument.since_dial x : Argument Obj).number_stop x := by
        rw [findSome?_cons_eq_or, List.findSome?_nil, Option.or_none]
        rfl
      rw [Option.toList_some, List.map_cons, List.map_nil, hstop, since]
      cases hguard : (!x.is_finite || x.lt (.finite 0)) with
      | false =>
          obtain ⟨q, rfl, hq⟩ := F64.exists_finite_of_guard hguard
          rw [if_neg (by simp), ← stop_of_from_secs rfl hq]
          refine (stop_of_bind (o := none) fun d => ?_).trans Option.or_none
          rfl
      | true =>
          have hmsg : "since_dial" ++ " is a finite non-negative number"
              = "since_dial is a finite non-negative number" := by decide
          rw [if_pos rfl, Argument.number_stop_of_bad _ (F64.guard_eq_true_iff.1 hguard),
            Argument.bad_number, Argument.name, hmsg]
          rfl

/-- **A call stops before it locks the policy exactly where the first of its arguments
does.** -/
theorem stop_of_arguments (members : List (Dict Obj)) (since_dial : Option F64) :
    stop_of (arguments py members since_dial) = first_stop py members since_dial := by
  rw [first_stop, Argument.of_call, List.findSome?_append, ← stop_of_convert, ← stop_of_since]
  refine stop_of_bind fun ms => (stop_of_bind (o := none) fun s => rfl).trans ?_
  exact Option.or_none

theorem consult_stop {policy : Mutex P} {failures : UInt32} {since : Option Duration}
    {ms : List PoolMember} {s : Stop} (h : (consult cr policy failures since ms).2 = .error s) :
    s = .panicked .poisoned ∨ s = .panicked .policy := by
  unfold consult at h
  split at h
  · cases h
    exact .inl rfl
  · split at h
    · cases h
    · cases h
      exact .inr rfl

/-- **A call that stops at its arguments leaves the policy alone; any other one is the
policy's.** -/
theorem decide_cases (policy : Mutex P) (failures : UInt32) (members : List (Dict Obj))
    (since_dial : Option F64) :
    (∃ s, first_stop py members since_dial = some s
        ∧ decide py cr policy failures members since_dial = (policy, .error s))
      ∨ first_stop py members since_dial = none
        ∧ ∃ ms since, arguments py members since_dial = .ok (ms, since)
          ∧ decide py cr policy failures members since_dial
            = consult cr policy failures since ms := by
  rw [← stop_of_arguments, decide]
  cases arguments py members since_dial with
  | ok args => exact .inr ⟨rfl, args.1, args.2, rfl, rfl⟩
  | error s => exact .inl ⟨s, rfl, rfl⟩

/-- The first argument that stops, stops the call, before the policy is locked. -/
theorem decide_of_first_stop {members : List (Dict Obj)} {since_dial : Option F64} {s : Stop}
    (h : first_stop py members since_dial = some s) (policy : Mutex P) (failures : UInt32) :
    decide py cr policy failures members since_dial = (policy, .error s) := by
  rcases decide_cases py cr policy failures members since_dial with ⟨s', h', hd⟩ | ⟨h', -⟩
  · rw [h, Option.some.injEq] at h'
    rw [hd, h']
  · rw [h] at h'
    cases h'

/-- A stop of the policy is none of those that the arguments cause. -/
theorem first_stop_of_decide {policy : Mutex P} {failures : UInt32} {members : List (Dict Obj)}
    {since_dial : Option F64} {s : Stop}
    (h : (decide py cr policy failures members since_dial).2 = .error s)
    (hpoisoned : s ≠ .panicked .poisoned) (hpolicy : s ≠ .panicked .policy) :
    first_stop py members since_dial = some s := by
  rcases decide_cases py cr policy failures members since_dial with
    ⟨s', h', hd⟩ | ⟨-, ms, t, -, hd⟩
  · rw [hd, Except.error.injEq] at h
    rw [h', h]
  · rw [hd] at h
    rcases consult_stop cr h with hs | hs
    · exact absurd hs hpoisoned
    · exact absurd hs hpolicy

/-- **The arguments of `decide` are converted safely, if no duration is too long.** A call
raises before it touches the policy, or has all its numbers in the domain of their
conversions, exactly if the first argument that does not convert is not an age, an idle time
or a `since_dial` that, as a float, is `2 ^ 64` seconds or more; there, the call panics, also
before it touches the policy. What is raised is the exception of the first argument that has
one, and a `ValueError` for a number that is negative or not finite. Counts never panic. -/
theorem decide_converts_iff (policy : Mutex P) (failures : UInt32) (members : List (Dict Obj))
    (since_dial : Option F64) :
    ((∃ e, decide py cr policy failures members since_dial = (policy, .error (.raised e)))
        ∨ (∀ a ∈ Argument.of_call members since_dial, a.InDomain py)
      ↔ first_stop py members since_dial ≠ some (.panicked .from_secs_f64))
    ∧ (first_stop py members since_dial = some (.panicked .from_secs_f64) →
        decide py cr policy failures members since_dial
          = (policy, .error (.panicked .from_secs_f64)))
    ∧ (∀ e, (decide py cr policy failures members since_dial).2 = .error (.raised e) →
        first_stop py members since_dial = some (.raised e)
          ∧ (decide py cr policy failures members since_dial).1 = policy)
    ∧ (∀ pre a post x, Argument.of_call members since_dial = pre ++ a :: post →
        (∀ b ∈ pre, b.InDomain py) → a.value py = .ok (some x) →
        (∀ q, x = .finite q → q < 0) →
        decide py cr policy failures members since_dial = (policy, .error a.bad_number))
    ∧ (decide py cr policy failures members since_dial).2 ≠ .error (.panicked .clamp) := by
  refine ⟨⟨?_, fun h => ?_⟩, ?_, fun e h => ?_, fun pre a post x hsplit hpre hx hbad => ?_,
    fun h => ?_⟩
  · rintro (⟨e, he⟩ | hall) h
    -- an error that is raised comes from the arguments, which stop at one place only
    · have hraised := first_stop_of_decide py cr (congrArg Prod.snd he) (by simp) (by simp)
      rw [h] at hraised
      cases hraised
    · rw [(first_stop_eq_none_iff py).2 hall] at h
      cases h
  · cases hfirst : first_stop py members since_dial with
    | none => exact .inr ((first_stop_eq_none_iff py).1 hfirst)
    | some s =>
        rcases first_stop_cases py hfirst with ⟨e, rfl⟩ | rfl
        · exact .inl ⟨e, decide_of_first_stop py cr hfirst policy failures⟩
        · exact absurd hfirst h
  · exact fun h => decide_of_first_stop py cr h policy failures
  · have hfirst := first_stop_of_decide py cr h (by simp) (by simp)
    rw [decide_of_first_stop py cr hfirst]
    exact ⟨hfirst, rfl⟩
  -- the first argument that is out of its domain names the stop
  · have ha : a.stop py = some a.bad_number := by
      rw [Argument.stop, hx]
      exact a.number_stop_of_bad hbad
    exact decide_of_first_stop py cr (first_stop_of_split py hsplit hpre ha) policy failures
  · have hfirst := first_stop_of_decide py cr h (by simp) (by simp)
    rcases first_stop_cases py hfirst with ⟨e, he⟩ | he <;> cases he

/-- Python's own numbers. An `int` is rounded to a float; beyond the floats it is an
`OverflowError`. -/
def builtins : Python (PyVal F64) :=
  { extract_f64 := extract_f64 ⟨F64.of_int⟩
    extract_u64 := fun v => (extract_usize v).map UInt64.ofNat }

def dict (items : List (Key × PyVal F64)) : Dict (PyVal F64) := fun k => .ok (items.lookup k)

/-- A policy that counts its decisions, and asks for as many members as there are. -/
def counting : Crate ℕ :=
  ⟨fun p _ _ ms => (p + 1, some
    { count := some ms.length, dial_after := none, retire := [], recheck := none
      probe_interval := none, probe_jitter := none })⟩

/-- A member whose idle time is not a number. -/
theorem decide_converts_iff_nan_idle :
    let d := dict [(.id, .int 1), (.age, .float (.finite 60)), (.idle, .float .nan)]
    decide builtins counting ⟨0, false⟩ 0 [d] none
      = (⟨0, false⟩,
          .error (.raised (.value_error "member idle is a finite non-negative number"))) := by
  intro d
  obtain ⟨-, -, -, hbad, -⟩ := decide_converts_iff builtins counting ⟨0, false⟩ 0 [d] none
  refine hbad [.id d, .duration d .age] (.duration d .idle) _ .nan rfl ?_ rfl nofun
  simp only [List.mem_cons, List.not_mem_nil, or_false]
  rintro b (rfl | rfl)
  · exact ⟨none, rfl, nofun⟩
  · refine ⟨some (.finite 60), rfl, fun x hx => ?_⟩
    cases hx
    exact ⟨60, rfl, by norm_num, fun _ => by norm_num⟩

/-- An age of `2 ^ 64` seconds is finite and not negative, and no `Duration`. -/
theorem long_age_panics :
    decide builtins counting ⟨0, false⟩ 0
        [dict [(.id, .int 1), (.age, .float (.finite (2 ^ 64)))]] none
      = (⟨0, false⟩, .error (.panicked .from_secs_f64)) := by
  decide +kernel

-- it is the float that counts: the greatest `u64` is rounded to `2 ^ 64`
example : decide builtins counting ⟨0, false⟩ 0
    [dict [(.id, .int 1), (.age, .int (2 ^ 64 - 1))]] none
      = (⟨0, false⟩, .error (.panicked .from_secs_f64)) := by
  decide +kernel

end ZmuxPy.PoolPolicy
