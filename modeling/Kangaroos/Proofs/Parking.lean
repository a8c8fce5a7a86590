import Kangaroos.Abstract.Moves
import Kangaroos.Observed
import Kangaroos.Refine.Machine

/-!
# Parked tasks

A task is parked inside a call from the section that blocks it to the operation that wakes it.
On a list that only one call waits on, the parked tasks are the list.
-/

namespace Kangaroos

namespace SpecMachine

variable {n : Nat} {V : Type} {config : Config n} {machine : SpecMachine n V}

/-- Parked inside a call that waits on one list means on that list, when no other call
waits on it. -/
theorem Core.parked_iff (core : Core config machine) (pc : Pc) (list : WaitList)
    (waits : ∀ other, pc.awaits other → other = list)
    (only : ∀ other : Pc, other.awaits list → other = pc) (task : Fin n) :
    machine.parked pc task = true ↔ task ∈ machine.kernel.waitHead list := by
  simp only [Machine.parked, Bool.and_eq_true, decide_eq_true_eq]
  rw [core.wf.mem, TaskState.isBlocked_iff]
  constructor
  · rintro ⟨isPc, on, blocked⟩
    have awaits := core.awaits task on blocked
    rw [isPc] at awaits
    obtain rfl := waits on awaits
    exact blocked
  · intro blocked
    exact ⟨only _ (core.awaits task list blocked), list, blocked⟩

end SpecMachine

namespace RepMachine

variable {n : Nat} {V : Type} {machine next : RtosMachine n V} {spec spec' : SpecMachine n V}

/-- Both machines park the same tasks. -/
theorem parked_eq (rep : RepMachine machine spec) (pc : Pc) (task : Fin n) :
    machine.parked pc task = spec.parked pc task := by
  rw [Machine.parked, Machine.parked, rep.thread, rep.kernel.isBlocked]

theorem woken_eq (rep : RepMachine machine spec) (rep' : RepMachine next spec') (pc : Pc) :
    machine.woken next pc = spec.woken spec' pc := by
  ext task
  simp only [Machine.woken, rep.parked_eq, rep'.parked_eq]

end RepMachine

end Kangaroos
