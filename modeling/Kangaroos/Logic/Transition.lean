import Mathlib.Data.List.Basic

/-!
# Labelled transition systems

A `TransitionSystem` has initial states and labelled steps. The rules below are
the only inductions over runs that the development makes: `Reachable.invariant`
lifts a fact from one step to every reachable state, `restrict` selects the runs
whose steps all meet a condition, and `Simulation.reachable` transports
reachability along a relation between two systems.
-/

/-- Initial states and labelled steps. -/
structure TransitionSystem (State Label : Type*) where
  initial : State → Prop
  step : State → Label → State → Prop

namespace TransitionSystem

variable {State Label : Type*}

/-- The states some finite run ends in. -/
inductive Reachable (system : TransitionSystem State Label) : State → Prop where
  | initial {state} (start : system.initial state) : Reachable system state
  | step {state label next} (prior : Reachable system state)
      (transition : system.step state label next) : Reachable system next

/-- A fact that starts true and survives every step from a reachable state holds
in every reachable state. -/
theorem Reachable.invariant {system : TransitionSystem State Label} (Inv : State → Prop)
    (start : ∀ state, system.initial state → Inv state)
    (preserved : ∀ state label next, system.Reachable state → Inv state →
      system.step state label next → Inv next)
    {state : State} (reachable : system.Reachable state) : Inv state := by
  induction reachable with
  | initial valid => exact start _ valid
  | step prior transition ih => exact preserved _ _ _ prior ih transition

/-- The same states and initial states, with only the steps that meet `allowed`. -/
def restrict (system : TransitionSystem State Label) (allowed : State → Label → Prop) :
    TransitionSystem State Label where
  initial := system.initial
  step state label next := allowed state label ∧ system.step state label next

/-- Every run of a restricted system is a run of the full one. -/
theorem Reachable.of_restrict {system : TransitionSystem State Label}
    {allowed : State → Label → Prop} {state : State}
    (reachable : (system.restrict allowed).Reachable state) : system.Reachable state := by
  induction reachable with
  | initial valid => exact .initial valid
  | step _ transition ih => exact .step ih transition.2

/-- A run whose steps meet a condition meets every weaker one. -/
theorem Reachable.restrict_mono {system : TransitionSystem State Label}
    {strong weak : State → Label → Prop}
    (weaken : ∀ state label, (system.restrict strong).Reachable state → strong state label →
      weak state label)
    {state : State} (reachable : (system.restrict strong).Reachable state) :
    (system.restrict weak).Reachable state := by
  induction reachable with
  | initial valid => exact .initial valid
  | step prior transition ih => exact .step ih ⟨weaken _ _ prior transition.1, transition.2⟩

/-- The same steps, from one state on. -/
def startingAt (system : TransitionSystem State Label) (first : State) :
    TransitionSystem State Label where
  initial state := state = first
  step := system.step

/-- A run goes on from any state it reaches. -/
theorem Reachable.of_startingAt {system : TransitionSystem State Label} {first state : State}
    (reachable : system.Reachable first) (onward : (system.startingAt first).Reachable state) :
    system.Reachable state := by
  induction onward with
  | initial valid =>
      obtain rfl := valid
      exact reachable
  | step _ transition ih => exact .step ih transition

/-- The state after a step that can happen and does not fail. -/
def succeeded {ε α : Type*} : Option (Except ε α) → Option α
  | some (.ok result) => some result
  | _ => none

theorem succeeded_eq_some {ε α : Type*} {attempt : Option (Except ε α)} {result : α} :
    succeeded attempt = some result ↔ attempt = some (.ok result) := by
  rcases attempt with _ | _ | _ <;> simp [succeeded]

/-- Executing steps leads from a reachable state to a reachable one. -/
theorem Reachable.of_foldlM {system : TransitionSystem State Label}
    {next? : State → Label → Option State}
    (sound : ∀ state label next, next? state label = some next → system.step state label next)
    {state last : State} {labels : List Label} (reachable : system.Reachable state)
    (executed : labels.foldlM next? state = some last) : system.Reachable last := by
  induction labels generalizing state with
  | nil =>
      obtain rfl : state = last := by simpa using executed
      exact reachable
  | cons label rest ih =>
      obtain ⟨next, performed, onward⟩ := Option.bind_eq_some_iff.mp executed
      exact ih (.step reachable (sound state label next performed)) onward

/-- A forward simulation: related initial states, and every concrete step from a
related pair is matched by an abstract step with the same label. -/
structure Simulation {Concrete Abstract : Type*} (concrete : TransitionSystem Concrete Label)
    (abstract : TransitionSystem Abstract Label) (related : Concrete → Abstract → Prop) :
    Prop where
  initial : ∀ state, concrete.initial state → ∃ spec, abstract.initial spec ∧ related state spec
  step : ∀ state label next spec, related state spec → abstract.Reachable spec →
    concrete.step state label next → ∃ spec', abstract.step spec label spec' ∧ related next spec'

/-- Every reachable concrete state is related to a reachable abstract one. -/
theorem Simulation.reachable {Concrete Abstract : Type*}
    {concrete : TransitionSystem Concrete Label} {abstract : TransitionSystem Abstract Label}
    {related : Concrete → Abstract → Prop} (simulation : Simulation concrete abstract related)
    {state : Concrete} (reachable : concrete.Reachable state) :
    ∃ spec, abstract.Reachable spec ∧ related state spec := by
  induction reachable with
  | initial valid =>
      obtain ⟨spec, start, rel⟩ := simulation.initial _ valid
      exact ⟨spec, .initial start, rel⟩
  | step _ transition ih =>
      obtain ⟨spec, reach, rel⟩ := ih
      obtain ⟨spec', matched, rel'⟩ := simulation.step _ _ _ _ rel reach transition
      exact ⟨spec', .step reach matched, rel'⟩

/-- A run of allowed steps is matched by an abstract run that keeps what every such step keeps. -/
theorem Simulation.restrict_invariant {Concrete Abstract : Type*}
    {concrete : TransitionSystem Concrete Label} {abstract : TransitionSystem Abstract Label}
    {related : Concrete → Abstract → Prop} (simulation : Simulation concrete abstract related)
    {allowed : Concrete → Label → Prop} (Inv : Abstract → Prop)
    (start : ∀ spec, abstract.initial spec → Inv spec)
    (preserved : ∀ state label next spec spec', related state spec → related next spec' →
      abstract.Reachable spec → Inv spec → allowed state label → concrete.step state label next →
      abstract.step spec label spec' → Inv spec')
    {state : Concrete} (reachable : (concrete.restrict allowed).Reachable state) :
    ∃ spec, abstract.Reachable spec ∧ related state spec ∧ Inv spec := by
  induction reachable with
  | initial valid =>
      obtain ⟨spec, valid', rel⟩ := simulation.initial _ valid
      exact ⟨spec, .initial valid', rel, start spec valid'⟩
  | step _ transition ih =>
      obtain ⟨spec, reach, rel, holds⟩ := ih
      obtain ⟨spec', matched, rel'⟩ := simulation.step _ _ _ _ rel reach transition.2
      exact ⟨spec', .step reach matched, rel',
        preserved _ _ _ _ _ rel rel' reach holds transition.1 transition.2 matched⟩

end TransitionSystem
