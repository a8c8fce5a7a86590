import Kangaroos.Logic.Observer
import Kangaroos.Step

/-!
# Runs with books

A claim about what happened along a run is stated with books that note each step of the
machine. `withBooks` is the machine beside such books; `passesNoting` executes it.
-/

namespace Kangaroos

namespace Config

variable {n : Nat} {History : Type}

/-- The machine with books beside it: `record` notes a step in the state it starts from. -/
abbrev withBooks (config : Config n) (V Link Head : Type) [ops : WaitOps n V Link Head]
    (blank : History) (record : Machine n V Link Head → Action V → History → History) :
    TransitionSystem (Machine n V Link Head × History) (Action V) :=
  (config.system V Link Head).observed blank fun machine action _ => record machine action

end Config

namespace Machine

section Parking

variable {n : Nat} {V Link Head : Type}

/-- A task is parked inside a call: it waits to be woken and will return from there. -/
def parked (machine : Machine n V Link Head) (pc : Pc) (task : Fin n) : Bool :=
  (machine.thread task).pc = pc && (machine.kernel.tcb task).state.isBlocked

/-- The tasks a step wakes from a call. -/
def woken (machine next : Machine n V Link Head) (pc : Pc) : Finset (Fin n) :=
  Finset.univ.filter fun task => machine.parked pc task && !next.parked pc task

end Parking

variable {n : Nat} {V Link Head History : Type} [ops : WaitOps n V Link Head]

/-- Perform a sequence of actions and note them. -/
def performNoting (record : Machine n V Link Head → Action V → History → History) (idle : Fin n) :
    Machine n V Link Head × History → List (Action V) → Option (Exec (Machine n V Link Head × History))
  | pair, [] => some (.ok pair)
  | pair, action :: rest =>
    match pair.1.perform idle action with
    | some (.ok next) => performNoting record idle (next, record pair.1 action pair.2) rest
    | some (.error fault) => some (.error fault)
    | none => none

/-- Boot and perform a sequence of actions, noting them, and check the state and the books at
the end. -/
def passesNoting (config : Config n) (blank : History)
    (record : Machine n V Link Head → Action V → History → History) (actions : List (Action V))
    (check : Machine n V Link Head × History → Bool) : Bool :=
  match config.boot V Link Head with
  | .ok kernel =>
    match performNoting record config.idle (Config.start V Link Head kernel, blank) actions with
    | some (.ok pair) => check pair
    | _ => false
  | .error _ => false

variable {config : Config n} {blank : History}
  {record : Machine n V Link Head → Action V → History → History}

theorem reachable_of_performNoting {pair last : Machine n V Link Head × History}
    {actions : List (Action V)}
    (reachable : (config.withBooks V Link Head blank record).Reachable pair)
    (performed : performNoting record config.idle pair actions = some (.ok last)) :
    (config.withBooks V Link Head blank record).Reachable last := by
  induction actions generalizing pair with
  | nil =>
      obtain rfl : pair = last := by simpa [performNoting] using performed
      exact reachable
  | cons action rest ih =>
      rw [performNoting] at performed
      split at performed
      · rename_i next step
        have noted : (config.withBooks V Link Head blank record).step pair action
            (next, record pair.1 action pair.2) := ⟨step, rfl⟩
        exact ih (.step reachable noted) performed
      · simp at performed
      · simp at performed

/-- An execution that passes a check ends in a state and books some run reaches. -/
theorem exists_of_checkNoting (actions : List (Action V))
    (check : Machine n V Link Head × History → Bool)
    (passes : passesNoting config blank record actions check = true) :
    ∃ pair, (config.withBooks V Link Head blank record).Reachable pair ∧ check pair = true := by
  unfold passesNoting at passes
  split at passes
  · rename_i kernel boot
    split at passes
    · rename_i pair performed
      exact ⟨pair, reachable_of_performNoting (.initial ⟨⟨kernel, boot, rfl⟩, rfl⟩) performed, passes⟩
    · simp at passes
  · simp at passes

end Machine

end Kangaroos
