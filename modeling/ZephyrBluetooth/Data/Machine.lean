import Mathlib.Data.List.Nodup

namespace ZephyrBluetooth.Data

open List

universe u v w

structure Machine (State : Type u) (Input : Type v) (Output : Type w) where
  step : State → Input → State × List Output

namespace Machine

variable {State : Type u} {Input : Type v} {Output : Type w}
variable (machine : Machine State Input Output)

variable {admitted : State → Input → Prop} {property : State → Prop} {state : State}
  {inputs : List Input}

def next (state : State) (input : Input) : State :=
  (machine.step state input).1

def emit (state : State) (input : Input) : List Output :=
  (machine.step state input).2

def run : State → List Input → State
  | state, [] => state
  | state, input :: rest => run (machine.next state input) rest

def trace : State → List Input → List Output
  | _, [] => []
  | state, input :: rest =>
    machine.emit state input ++ trace (machine.next state input) rest

def Along (admitted : State → Input → Prop) : State → List Input → Prop
  | _, [] => True
  | state, input :: rest =>
    admitted state input ∧ Along admitted (machine.next state input) rest

def Always (property : State → Prop) : State → List Input → Prop
  | state, [] => property state
  | state, input :: rest =>
    property state ∧ Always property (machine.next state input) rest

instance decidableAlong (admitted : State → Input → Prop)
    [∀ state input, Decidable (admitted state input)] :
    ∀ state inputs, Decidable (machine.Along admitted state inputs)
  | _, [] => .isTrue trivial
  | state, input :: rest =>
    have := decidableAlong admitted (machine.next state input) rest
    inferInstanceAs (Decidable (admitted state input ∧
      machine.Along admitted (machine.next state input) rest))

variable {machine}

@[simp] theorem run_nil (state : State) : machine.run state [] = state := rfl

@[simp] theorem run_cons (state : State) (input : Input) (rest : List Input) :
    machine.run state (input :: rest) =
      machine.run (machine.next state input) rest := rfl

@[simp] theorem trace_nil (state : State) : machine.trace state [] = [] := rfl

@[simp] theorem trace_cons (state : State) (input : Input) (rest : List Input) :
    machine.trace state (input :: rest) = machine.emit state input ++
        machine.trace (machine.next state input) rest := rfl

theorem always_iff_along_of
    {invariant property : State → Prop} {allowed admitted : State → Input → Prop}
    (kept : ∀ state input, invariant state → allowed state input →
      invariant (machine.next state input))
    (exact_step : ∀ state input, invariant state → property state →
      allowed state input →
      (property (machine.next state input) ↔ admitted state input))
    {state : State} (inputs : List Input) (within : machine.Along allowed state inputs)
    (start : invariant state) (holds : property state) :
    machine.Always property state inputs ↔ machine.Along admitted state inputs := by
  induction inputs generalizing state with
  | nil => exact ⟨fun _ => trivial, fun _ => holds⟩
  | cons input rest ih =>
    have step := exact_step state input start holds within.1
    have later := kept state input start within.1
    constructor
    · intro always
      have reached : property (machine.next state input) := by
        cases rest with
        | nil => exact always.2
        | cons => exact always.2.1
      exact ⟨step.mp reached, (ih within.2 later reached).mp always.2⟩
    · intro along
      have reached := step.mpr along.1
      exact ⟨holds, (ih within.2 later reached).mpr along.2⟩

theorem along_trivial (state : State) (inputs : List Input) :
    machine.Along (fun _ _ => True) state inputs := by
  induction inputs generalizing state with
  | nil => trivial
  | cons input rest ih => exact ⟨trivial, ih _⟩

/-- A property that a step keeps exactly when the step is admitted holds along
the whole run exactly when the run is admitted.  The invariant is what every
step keeps. -/
theorem always_iff_along
    {invariant property : State → Prop} {admitted : State → Input → Prop}
    (kept : ∀ state input, invariant state → invariant (machine.next state input))
    (exact_step : ∀ state input, invariant state → property state →
      (property (machine.next state input) ↔ admitted state input))
    {state : State} (inputs : List Input)
    (start : invariant state) (holds : property state) :
    machine.Always property state inputs ↔ machine.Along admitted state inputs :=
  always_iff_along_of (fun state input start _ => kept state input start)
    (fun state input start holds _ => exact_step state input start holds)
    inputs (along_trivial state inputs) start holds

theorem always_of_along
    {admitted : State → Input → Prop} {property : State → Prop}
    (kept : ∀ state input, property state → admitted state input →
      property (machine.next state input)) {state : State} {inputs : List Input}
    (start : property state) (along : machine.Along admitted state inputs) :
    machine.Always property state inputs := by
  induction inputs generalizing state with
  | nil => exact start
  | cons input rest ih => exact ⟨start, ih (kept state input start along.1) along.2⟩

theorem always_of_kept {property : State → Prop}
    (kept : ∀ state input, property state → property (machine.next state input))
    {state : State} {inputs : List Input} (start : property state) :
    machine.Always property state inputs := by
  induction inputs generalizing state with
  | nil => exact start
  | cons input rest ih => exact ⟨start, ih (kept state input start)⟩

theorem along_of_along
    {admitted shown : State → Input → Prop} {property : State → Prop}
    (step : ∀ state input, property state → admitted state input →
      shown state input ∧ property (machine.next state input))
    {state : State} {inputs : List Input}
    (start : property state) (along : machine.Along admitted state inputs) :
    machine.Along shown state inputs := by
  induction inputs generalizing state with
  | nil => trivial
  | cons input rest ih =>
    obtain ⟨first, kept⟩ := step state input start along.1
    exact ⟨first, ih kept along.2⟩

theorem trace_of_along {good : Output → Prop}
    (step : ∀ state input, property state → admitted state input →
      (∀ output ∈ machine.emit state input, good output) ∧
        property (machine.next state input)) (start : property state)
    (along : machine.Along admitted state inputs) :
    ∀ output ∈ machine.trace state inputs, good output := by
  induction inputs generalizing state with
  | nil => nofun
  | cons input rest ih =>
    obtain ⟨first, kept⟩ := step state input start along.1
    exact forall_mem_append.mpr ⟨first, ih kept along.2⟩

theorem along_congr {other : State → Input → Prop}
    (same : ∀ state input, admitted state input ↔ other state input) (state : State)
    (inputs : List Input) :
    machine.Along admitted state inputs ↔ machine.Along other state inputs := by
  induction inputs generalizing state with
  | nil => exact Iff.rfl
  | cons input rest ih => exact and_congr (same state input) (ih _)

theorem trace_iff_along_of {invariant : State → Prop} {good : Output → Prop}
    {admitted : State → Input → Prop}
    (kept : ∀ state input, invariant state → invariant (machine.next state input))
    (step : ∀ state input, invariant state →
      ((∀ output ∈ machine.emit state input, good output) ↔ admitted state input))
    {state : State} (start : invariant state) (inputs : List Input) :
    (∀ output ∈ machine.trace state inputs, good output) ↔
      machine.Along admitted state inputs := by
  induction inputs generalizing state with
  | nil => simp [Along]
  | cons input rest ih =>
    rw [trace_cons, forall_mem_append, step state input start,
      ih (kept state input start)]
    rfl

theorem trace_iff_along {good : Output → Prop} (step : ∀ state input,
      (∀ output ∈ machine.emit state input, good output) ↔ admitted state input)
    (state : State) (inputs : List Input) :
    (∀ output ∈ machine.trace state inputs, good output) ↔
      machine.Along admitted state inputs :=
  @trace_iff_along_of _ _ _ machine (fun _ => True) good admitted
    (fun _ _ _ => trivial) (fun state input _ => step state input) state trivial
    inputs

theorem related_run {Other : Type u} {Shown : Type w}
    {other : Machine Other Input Shown} {related : State → Other → Prop}
    (step : ∀ state twin input, related state twin → admitted state input →
      related (machine.next state input) (other.next twin input)) {twin : Other}
    (start : related state twin) (along : machine.Along admitted state inputs) :
    related (machine.run state inputs) (other.run twin inputs) := by
  induction inputs generalizing state twin with
  | nil => exact start
  | cons input rest ih =>
    apply ih
    · exact step state twin input start along.1
    · exact along.2

theorem run_append (state : State) (inputs later : List Input) :
    machine.run state (inputs ++ later) =
      machine.run (machine.run state inputs) later := by
  induction inputs generalizing state with
  | nil => rfl
  | cons input rest ih => exact ih _

theorem run_append_last (state : State) (inputs : List Input) (last : Input) :
    machine.run state (inputs ++ [last]) =
      machine.next (machine.run state inputs) last :=
  run_append state inputs [last]

theorem Along.append_last {last : Input}
    (along : machine.Along admitted state (inputs ++ [last])) :
    machine.Along admitted state inputs ∧
      admitted (machine.run state inputs) last := by
  induction inputs generalizing state with
  | nil => exact ⟨trivial, along.1⟩
  | cons input rest ih =>
    obtain ⟨earlier, final⟩ := ih along.2
    exact ⟨⟨along.1, earlier⟩, final⟩

theorem Always.last (always : machine.Always property state inputs) :
    property (machine.run state inputs) := by
  induction inputs generalizing state with
  | nil => exact always
  | cons input rest ih => exact ih always.2

theorem Always.mono {weaker : State → Prop}
    (weaken : ∀ state, property state → weaker state)
    (always : machine.Always property state inputs) :
    machine.Always weaker state inputs := by
  induction inputs generalizing state with
  | nil => exact weaken state always
  | cons input rest ih => exact ⟨weaken state always.1, ih always.2⟩

def unskipped (machine : Machine State Input Output)
    (skipped : State → Input → Prop)
    [∀ state input, Decidable (skipped state input)] :
    State → List Input → List Input
  | _, [] => []
  | state, input :: rest =>
    if skipped state input then
      unskipped machine skipped (machine.next state input) rest
    else
      input :: unskipped machine skipped (machine.next state input) rest

theorem unskipped_run {related : State → State → Prop}
    {skipped : State → Input → Prop}
    [∀ state input, Decidable (skipped state input)]
    (passes : ∀ state twin input, related state twin → admitted state input →
      skipped state input →
      machine.emit state input = [] ∧ related (machine.next state input) twin)
    (takes : ∀ state twin input, related state twin → admitted state input →
      ¬ skipped state input → machine.emit twin input = machine.emit state input ∧
        related (machine.next state input) (machine.next twin input) ∧
        ¬ skipped twin input) {twin : State} (start : related state twin)
    (along : machine.Along admitted state inputs) :
    machine.trace twin (machine.unskipped skipped state inputs) =
        machine.trace state inputs ∧ related (machine.run state inputs)
        (machine.run twin (machine.unskipped skipped state inputs)) ∧
      machine.Along (fun state input => ¬ skipped state input) twin
        (machine.unskipped skipped state inputs) := by
  induction inputs generalizing state twin with
  | nil => exact ⟨rfl, start, trivial⟩
  | cons input rest ih =>
    obtain ⟨here, later⟩ := along
    by_cases skip : skipped state input
    · obtain ⟨quiet, kept⟩ := passes state twin input start here skip
      obtain ⟨traces, runs, taken⟩ := ih kept later
      simp only [unskipped, if_pos skip]
      rw [trace_cons, quiet, nil_append]
      exact ⟨traces, runs, taken⟩
    · obtain ⟨emits, kept, taken⟩ := takes state twin input start here skip
      obtain ⟨traces, runs, others⟩ := ih kept later
      simp only [unskipped, if_neg skip]
      rw [trace_cons, trace_cons, emits, traces]
      exact ⟨rfl, runs, taken, others⟩

structure Fresh (machine : Machine State Input Output)
    (property : State → Prop) (covered : State → Output → Prop)
    (state : State) (input : Input) : Prop where
  kept : property (machine.next state input)
  distinct : (machine.emit state input).Nodup
  fresh : ∀ output ∈ machine.emit state input, ¬ covered state output
  covers : ∀ output ∈ machine.emit state input,
    covered (machine.next state input) output
  stays : ∀ output, covered state output → covered (machine.next state input) output

theorem Fresh.silent {covered : State → Output → Prop} {input : Input}
    (quiet : machine.emit state input = [])
    (kept : property (machine.next state input))
    (stays : ∀ output, covered state output →
      covered (machine.next state input) output) :
    machine.Fresh property covered state input where
  kept := kept
  distinct := by rw [quiet]; exact nodup_nil
  fresh := by rw [quiet]; simp
  covers := by rw [quiet]; simp
  stays := stays

theorem trace_nodup {covered : State → Output → Prop}
    (step : ∀ state input, property state → admitted state input →
      machine.Fresh property covered state input) (start : property state)
    (along : machine.Along admitted state inputs) :
    (machine.trace state inputs).Nodup ∧
      ∀ output ∈ machine.trace state inputs, ¬ covered state output := by
  induction inputs generalizing state with
  | nil => exact ⟨nodup_nil, by simp⟩
  | cons input rest ih =>
    have first := step state input start along.1
    obtain ⟨tailNodup, tailFresh⟩ := ih first.kept along.2
    constructor
    · rw [trace_cons, nodup_append]
      refine ⟨first.distinct, tailNodup, ?_⟩
      intro output emitted later repeated same
      subst same
      exact tailFresh output repeated (first.covers output emitted)
    · intro output member
      rcases mem_append.mp member with emitted | later
      · exact first.fresh output emitted
      · intro old
        exact tailFresh output later (first.stays output old)

end Machine

end ZephyrBluetooth.Data
