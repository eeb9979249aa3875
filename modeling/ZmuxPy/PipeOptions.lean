/-
The options of a pipe on their way through Python: `pipe_options` and
`options_obj` of `src/lib.rs`, and the dataclass `PipeOptions` of
`python/zmux/_types.py`.

The two sides differ in what "unset" is. An unset tier, standby flag, duration,
label or jitter is `None` on both; `receive_priority`, `receive_standby`,
`weight` and `fate_group` always have a value in Rust, and `None` in Python
stands for the default; and the three values of the native `probe_interval`
(unset, off, every so often) are spread over the two Python fields
`probe_interval` and `idle_probes`.

The crate's `PipeOptions::new()` and `PipeOptions::validate` are parameters, as
are the conversions between a `Duration` and a float number of seconds; the
round trip is proved for any of them, given that the conversions are inverse on
the durations at hand. A Python field may hold any value: the dataclass does not
check, the conversion does.
-/
import ZmuxPy.Pyo3

set_option autoImplicit false

namespace ZmuxPy.PipeOptions

open Pyo3

/-! ## The two records -/

/-- `zmux::Period`. -/
inductive Period (D : Type) where
  | off
  | every (d : D)
  deriving DecidableEq, Repr

/-- `Period::duration`. -/
def Period.duration {D : Type} : Period D → Option D
  | .off => none
  | .every d => some d

/-- `zmux::PipeOptions`. -/
structure Native (F D : Type) where
  send_priority : Option UInt64
  receive_priority : UInt64
  send_standby : Option Bool
  receive_standby : Bool
  weight : UInt64
  probation : Option D
  label : Option String
  fate_group : UInt64
  suspect_floor : Option D
  dead_timeout : Option D
  probe_interval : Option (Period D)
  probe_jitter : Option F
  deriving DecidableEq, Repr

/-- The Python dataclass. -/
structure PyOptions (F : Type) where
  send_priority : PyVal F
  receive_priority : PyVal F
  send_standby : PyVal F
  receive_standby : PyVal F
  weight : PyVal F
  probation : PyVal F
  label : PyVal F
  fate_group : PyVal F
  suspect_floor : PyVal F
  dead_timeout : PyVal F
  probe_interval : PyVal F
  idle_probes : PyVal F
  probe_jitter : PyVal F
  deriving DecidableEq, Repr

/-- What the binding uses of Rust's `Duration` and of the crate. -/
structure Crate (F D : Type) extends Floats F where
  as_secs_f64 : D → F
  try_from_secs_f64 : F → Option D
  /-- `PipeOptions::new()`. -/
  new : Native F D
  /-- `PipeOptions::validate`. -/
  validate : Native F D → Bool

variable {F D : Type} (cr : Crate F D)

/-! ## The converters -/

/-- `seconds(name, v)`. -/
def seconds (name : String) (v : F) : PyResult D :=
  (cr.try_from_secs_f64 v).elim
    (.error (.value_error (name ++ " is a non-negative number of seconds"))) .ok

/-- `natural(name, v)`. -/
def natural (name : String) (v : PyVal F) : PyResult UInt64 := do
  let n ← extract_i128 v
  if 0 ≤ n ∧ n < 2 ^ 64 then .ok (UInt64.ofNat n.toNat)
  else .error (.value_error (name ++ " is a non-negative integer"))

/-- The closure `int` of `pipe_options`. -/
def int (name : String) : PyVal F → PyResult (Option UInt64) := extract_option (natural name)

/-- The closure `dur` of `pipe_options`. -/
def dur (name : String) : PyVal F → PyResult (Option D) :=
  extract_option fun v => do seconds cr name (← extract_f64 cr.toFloats v)

/-- The native `probe_interval` of the two Python fields. -/
def probe_interval (idle_probes : Option Bool) (d : Option D) : PyResult (Option (Period D)) :=
  match idle_probes, d with
  | some false, some _ =>
    .error (.value_error "probe_interval is set only with idle probes on")
  | some false, none => .ok (some .off)
  | _, d => .ok (d.map .every)

/-- `pipe_options(options)`. The fields are read, and so fail, in this order. -/
def pipe_options (options : Option (PyOptions F)) : PyResult (Native F D) :=
  match options with
  | none => .ok cr.new
  | some opts => do
    let send_priority ← int "send_priority" opts.send_priority
    let receive_priority ← int "receive_priority" opts.receive_priority
    let send_standby ← extract_option extract_bool opts.send_standby
    let receive_standby ← extract_option extract_bool opts.receive_standby
    let weight ← int "weight" opts.weight
    let probation ← dur cr "probation" opts.probation
    let label ← extract_option extract_string opts.label
    let fate_group ← int "fate_group" opts.fate_group
    let suspect_floor ← dur cr "suspect_floor" opts.suspect_floor
    let dead_timeout ← dur cr "dead_timeout" opts.dead_timeout
    let idle_probes ← extract_option extract_bool opts.idle_probes
    let interval ← dur cr "probe_interval" opts.probe_interval
    let probe_interval ← probe_interval idle_probes interval
    let probe_jitter ← extract_option (extract_f64 cr.toFloats) opts.probe_jitter
    let o : Native F D :=
      { send_priority, send_standby, probation, label, suspect_floor, dead_timeout
        probe_interval, probe_jitter
        receive_priority := receive_priority.getD cr.new.receive_priority
        receive_standby := receive_standby.getD cr.new.receive_standby
        weight := weight.getD cr.new.weight
        fate_group := fate_group.getD cr.new.fate_group }
    if cr.validate o then .ok o
    else .error (.value_error ("suspect_floor is at least 0.05 s, dead_timeout at least 1 s, " ++
      "probe_interval at least 1 s, probe_jitter in [0, 1)"))

/-- An unsigned number, as Python sees it. -/
def py_u64 (n : UInt64) : PyVal F := .int n.toNat

/-- A duration, as Python sees it: a float of seconds. -/
def py_secs (d : D) : PyVal F := .float (cr.as_secs_f64 d)

/-- `options_obj(o)`. -/
def options_obj (o : Native F D) : PyOptions F :=
  { send_priority := into_py py_u64 o.send_priority
    receive_priority := py_u64 o.receive_priority
    send_standby := into_py .bool o.send_standby
    receive_standby := .bool o.receive_standby
    weight := py_u64 o.weight
    probation := into_py (py_secs cr) o.probation
    label := into_py .str o.label
    fate_group := py_u64 o.fate_group
    suspect_floor := into_py (py_secs cr) o.suspect_floor
    dead_timeout := into_py (py_secs cr) o.dead_timeout
    probe_interval := into_py (py_secs cr) (o.probe_interval.bind Period.duration)
    idle_probes := into_py .bool (o.probe_interval.map fun p =>
      match p with
      | .off => false
      | .every _ => true)
    probe_jitter := into_py .float o.probe_jitter }

/-! ## The round trip, field by field -/

theorem natural_int {name : String} {n : ℤ} (h : 0 ≤ n ∧ n < 2 ^ 64) :
    natural name (.int n : PyVal F) = .ok (UInt64.ofNat n.toNat) := by
  have h128 : -2 ^ 127 ≤ n ∧ n < 2 ^ 127 := by omega
  rw [natural, extract_i128_int h128, ok_bind, if_pos h]

/-- What Rust handed out, Rust takes back. -/
theorem natural_u64 (name : String) (n : UInt64) :
    natural name (py_u64 n : PyVal F) = .ok n := by
  have hlt := n.toNat_lt
  rw [py_u64, natural_int (by omega), Int.toNat_natCast, UInt64.ofNat_toNat]

theorem int_u64 (name : String) (o : Option UInt64) :
    int name (into_py py_u64 o : PyVal F) = .ok o :=
  extract_option_into_py (natural_u64 name) (fun _ h => by cases h) o

theorem int_some (name : String) (n : UInt64) :
    int name (py_u64 n : PyVal F) = .ok (some n) := int_u64 name (some n)

theorem bool_some (b : Bool) : extract_option extract_bool (.bool b : PyVal F) = .ok (some b) :=
  rfl

theorem bool_option (o : Option Bool) :
    extract_option extract_bool (into_py .bool o : PyVal F) = .ok o :=
  extract_option_into_py (f := PyVal.bool) (fun _ => rfl) (fun _ h => by cases h) o

theorem string_option (o : Option String) :
    extract_option extract_string (into_py .str o : PyVal F) = .ok o :=
  extract_option_into_py (f := PyVal.str) (fun _ => rfl) (fun _ h => by cases h) o

theorem f64_option (fl : Floats F) (o : Option F) :
    extract_option (extract_f64 fl) (into_py .float o) = .ok o :=
  extract_option_into_py (f := PyVal.float) (fun _ => rfl) (fun _ h => by cases h) o

/-- The conversions to seconds and back are inverse at `d`. -/
def Exact (d : D) : Prop := cr.try_from_secs_f64 (cr.as_secs_f64 d) = some d

instance [DecidableEq D] (d : D) : Decidable (Exact cr d) :=
  inferInstanceAs (Decidable (_ = _))

/-- A duration comes back if its float of seconds is exact. -/
theorem dur_option {name : String} {o : Option D} (h : ∀ d, o = some d → Exact cr d) :
    dur cr name (into_py (py_secs cr) o) = .ok o := by
  cases o with
  | none => rfl
  | some d =>
      have hd : seconds cr name (cr.as_secs_f64 d) = .ok d := by
        rw [seconds, h d rfl]
        rfl
      show (seconds cr name (cr.as_secs_f64 d)).map some = .ok (some d)
      rw [hd]
      rfl

/-- Unset, off and every so often come back from the two Python fields. -/
theorem probe_interval_option (o : Option (Period D)) :
    probe_interval (o.map fun p => match p with
      | .off => false
      | .every _ => true) (o.bind Period.duration) = .ok o := by
  cases o with
  | none => rfl
  | some p => cases p <;> rfl

/-- The durations of native options. -/
def durations (o : Native F D) : List D :=
  o.probation.toList ++ o.suspect_floor.toList ++ o.dead_timeout.toList
    ++ (o.probe_interval.bind Period.duration).toList

/-! ## The round trip -/

/-- The fields come back as they were. -/
theorem pipe_options_obj (o : Native F D) (hd : ∀ d ∈ durations o, Exact cr d)
    (hv : cr.validate o = true) : pipe_options cr (some (options_obj cr o)) = .ok o := by
  simp only [durations, List.forall_mem_append, Option.mem_toList] at hd
  obtain ⟨⟨⟨h1, h2⟩, h3⟩, h4⟩ := hd
  simp only [pipe_options, options_obj, int_u64, int_some, bool_some, bool_option, string_option,
    f64_option, dur_option cr h1, dur_option cr h2, dur_option cr h3, dur_option cr h4,
    probe_interval_option, ok_bind, Option.getD_some]
  rw [if_pos hv]

/-- What `pipe_options` returns has passed `validate`. -/
theorem validate_of_pipe_options {p : PyOptions F} {o : Native F D}
    (h : pipe_options cr (some p) = .ok o) : cr.validate o = true := by
  unfold pipe_options at h
  iterate 14 obtain ⟨_, -, h⟩ := bind_eq_ok h
  dsimp only at h
  split at h
  · rename_i hv
    cases h
    exact hv
  · cases h

/-- **Pipe options survive the trip through Python.** Native options that
`validate` accepts come back as they were from the Python object made of them; so
options that came from Python once are the same after another round. -/
theorem options_survive_python (cr : Crate F D) :
    (∀ o : Native F D, cr.validate o = true → (∀ d ∈ durations o, Exact cr d) →
      pipe_options cr (some (options_obj cr o)) = .ok o)
    ∧ ∀ (p : PyOptions F) (o : Native F D), pipe_options cr (some p) = .ok o →
        (∀ d ∈ durations o, Exact cr d) →
        pipe_options cr (some (options_obj cr o)) = pipe_options cr (some p) := by
  refine ⟨fun o hv hd => pipe_options_obj cr o hd hv, fun p o h hd => ?_⟩
  rw [h]
  exact pipe_options_obj cr o hd (validate_of_pipe_options cr h)

/-- The crate with durations in milliseconds and floats as whole milliseconds, and
the checks that `pipe_options` names in its error. -/
def millis : Crate ℤ ℕ :=
  { of_int := fun n => some (n * 1000)
    as_secs_f64 := fun d => d
    try_from_secs_f64 := fun x => if 0 ≤ x then some x.toNat else none
    new :=
      { send_priority := none, receive_priority := 0, send_standby := none
        receive_standby := false, weight := 1, probation := none, label := none, fate_group := 0
        suspect_floor := none, dead_timeout := none, probe_interval := none
        probe_jitter := none }
    validate := fun o =>
      o.suspect_floor.all (50 ≤ ·) && o.dead_timeout.all (1000 ≤ ·)
        && (o.probe_interval.bind Period.duration).all (1000 ≤ ·)
        && o.probe_jitter.all fun j => 0 ≤ j && j < 1000 }

/-- A standby pipe that is probed every two and a half seconds. -/
def standby : PyOptions ℤ :=
  { send_priority := .int 3, receive_priority := .none, send_standby := .bool true
    receive_standby := .none, weight := .int 5, probation := .int 0, label := .str "group"
    fate_group := .none, suspect_floor := .float 50, dead_timeout := .none
    probe_interval := .float 2500, idle_probes := .none, probe_jitter := .float 250 }

/-- The hypotheses can be met, by options with numbers, durations, a label and fields left out. -/
theorem options_survive_python_standby :
    ∃ o, pipe_options millis (some standby) = .ok o
      ∧ o.probe_interval = some (.every 2500) ∧ o.weight = 5 ∧ o.probation = some 0
      ∧ pipe_options millis (some (options_obj millis o)) = pipe_options millis (some standby)
      ∧ pipe_options millis (some (options_obj millis o)) = .ok o := by
  have h := options_survive_python millis
  exact ⟨_, rfl, rfl, rfl, rfl, h.2 standby _ rfl (by decide), h.1 _ (by decide) (by decide)⟩

end ZmuxPy.PipeOptions
