import Kangaroos.Logic.Transition

/-!
# History variables

A claim about what happened along a run needs more than the state the run ends in.
`observed` runs a system beside an observer that notes every step and that no step reads,
so it has the runs of the system, each with its history. An invariant of state and history
is proved from one step, and histories carry over along a simulation.
-/

namespace TransitionSystem

variable {State Label History : Type*}

/-- The system with a history beside its state. -/
def observed (system : TransitionSystem State Label) (blank : History)
    (record : State → Label → State → History → History) :
    TransitionSystem (State × History) Label where
  initial pair := system.initial pair.1 ∧ pair.2 = blank
  step pair label next :=
    system.step pair.1 label next.1 ∧ next.2 = record pair.1 label next.1 pair.2

namespace Reachable

variable {system : TransitionSystem State Label} {blank : History}
  {record : State → Label → State → History → History}

/-- An observed run is a run. -/
theorem of_observed {pair : State × History}
    (reachable : (system.observed blank record).Reachable pair) : system.Reachable pair.1 := by
  induction reachable with
  | initial start => exact .initial start.1
  | step _ transition ih => exact .step ih transition.1

/-- Every run has a history. -/
theorem exists_history (blank : History) (record : State → Label → State → History → History)
    {state : State} (reachable : system.Reachable state) :
    ∃ history, (system.observed blank record).Reachable (state, history) := by
  induction reachable with
  | initial start => exact ⟨blank, .initial ⟨start, rfl⟩⟩
  | @step state label next _ transition ih =>
      obtain ⟨history, observed⟩ := ih
      exact ⟨record state label next history, .step observed ⟨transition, rfl⟩⟩

/-- What holds of state and history at the start and survives every step of a reachable
state holds along every observed run. -/
theorem observed_invariant (Inv : State → History → Prop)
    (start : ∀ state, system.initial state → Inv state blank)
    (preserved : ∀ state label next history, system.Reachable state → Inv state history →
      system.step state label next → Inv next (record state label next history))
    {pair : State × History} (reachable : (system.observed blank record).Reachable pair) :
    Inv pair.1 pair.2 := by
  induction reachable with
  | initial valid =>
      rw [valid.2]
      exact start _ valid.1
  | step prior transition ih =>
      rw [transition.2]
      exact preserved _ _ _ _ prior.of_observed ih transition.1

end Reachable

/-- Execute a sequence of steps of an executable system and note them. -/
def executeNoting (next? : State → Label → Option State)
    (record : State → Label → State → History → History) :
    State × History → List Label → Option (State × History)
  | pair, [] => some pair
  | pair, label :: rest =>
    match next? pair.1 label with
    | some next => executeNoting next? record (next, record pair.1 label next pair.2) rest
    | none => none

/-- An execution leads from a reachable state and history to a reachable one. -/
theorem Reachable.of_executeNoting {system : TransitionSystem State Label} {blank : History}
    {next? : State → Label → Option State} {record : State → Label → State → History → History}
    (sound : ∀ state label next, next? state label = some next → system.step state label next)
    {pair last : State × History} {labels : List Label}
    (reachable : (system.observed blank record).Reachable pair)
    (executed : executeNoting next? record pair labels = some last) :
    (system.observed blank record).Reachable last := by
  induction labels generalizing pair with
  | nil =>
      obtain rfl : pair = last := by simpa [executeNoting] using executed
      exact reachable
  | cons label rest ih =>
      rw [executeNoting] at executed
      split at executed
      · rename_i next performed
        have noted : (system.observed blank record).step pair label
            (next, record pair.1 label next pair.2) := ⟨sound _ _ _ performed, rfl⟩
        exact ih (.step reachable noted) executed
      · cases executed

/-- Observers that note the same of related steps keep the same history. -/
theorem Simulation.observed {Concrete Abstract : Type*}
    {concrete : TransitionSystem Concrete Label} {abstract : TransitionSystem Abstract Label}
    {related : Concrete → Abstract → Prop} (simulation : Simulation concrete abstract related)
    (blank : History) {record : Concrete → Label → Concrete → History → History}
    {record' : Abstract → Label → Abstract → History → History}
    (same : ∀ state label next spec spec', related state spec → related next spec' →
      record state label next = record' spec label spec') :
    Simulation (concrete.observed blank record) (abstract.observed blank record')
      fun pair spec => related pair.1 spec.1 ∧ pair.2 = spec.2 where
  initial := by
    rintro ⟨state, history⟩ ⟨start, rfl⟩
    obtain ⟨spec, start', rel⟩ := simulation.initial state start
    exact ⟨(spec, history), ⟨start', rfl⟩, rel, rfl⟩
  step := by
    rintro pair label next spec ⟨rel, sameHistory⟩ reachable ⟨transition, noted⟩
    obtain ⟨spec', matched, rel'⟩ :=
      simulation.step pair.1 label next.1 spec.1 rel reachable.of_observed transition
    refine ⟨(spec', record' spec.1 label spec' spec.2), ⟨matched, rfl⟩, rel', ?_⟩
    rw [noted, same pair.1 label next.1 spec.1 spec' rel rel', sameHistory]

end TransitionSystem
