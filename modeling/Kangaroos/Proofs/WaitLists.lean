import Kangaroos.Refine.Machine

/-!
# Wait-list integrity

In every reachable state each wait list is a finite chain without repetition, a
task is on a list exactly when it is blocked, and then on one list only. No loop
over a list runs forever and no `unreachable!()` arm is taken.
-/

namespace Kangaroos

/-- Following `wait_next` from the head of `list` visits `task`. -/
def Kernel.WaitsOn {n : Nat} {V : Type} (kernel : Rtos n V) (list : WaitList) (task : Fin n) :
    Prop :=
  Linked.Follows kernel.waitLink (kernel.waitHead list) task

namespace Rep

variable {n : Nat} {V : Type} {kernel : Rtos n V} {spec : Spec n V}

/-- The links visit the tasks of the abstract list. -/
theorem waitsOn_iff {hole : TcbPtr n} (rep : Rep hole kernel spec) (list : WaitList)
    (task : Fin n) : kernel.WaitsOn list task ↔ task ∈ spec.waitHead list :=
  (rep.chain list).follows_iff task

theorem isBlocked_iff (rep : Rep none kernel spec) (task : Fin n) :
    (kernel.tcb task).state.isBlocked = true ↔ ∃ list, (spec.tcb task).state = .blocked list := by
  rw [← TaskState.isBlocked_iff]
  have same := rep.state task
  cases left : (kernel.tcb task).state <;> cases right : (spec.tcb task).state <;>
    simp_all [TaskState.forget, TaskState.isBlocked]

end Rep

variable {n : Nat} {V : Type} {config : Config n} {machine : RtosMachine n V}

/-- A task is blocked exactly when it is on a list. -/
theorem RepMachine.isBlocked_iff (reachable : (RepMachine.system config V).Reachable machine)
    (task : Fin n) : (machine.kernel.tcb task).state.isBlocked = true ↔
      ∃ list, machine.kernel.WaitsOn list task := by
  obtain ⟨spec, reach, rep⟩ := RepMachine.exists_spec reachable
  rw [rep.kernel.isBlocked_iff]
  simp only [rep.kernel.waitsOn_iff, (SpecMachine.core_of_reachable reach).wf.mem]

/-- Every wait list is a chain that ends and repeats no task, a task is on a list exactly
when it is blocked, it is then on exactly one, and no step from here takes an
`unreachable!()` arm or enters a loop that never ends. -/
theorem wait_lists_intact (reachable : (RepMachine.system config V).Reachable machine) :
    (∀ list, ∃ tasks : List (Fin n), tasks.Nodup ∧
      Linked.Chain machine.kernel.waitLink (machine.kernel.waitHead list) tasks ∧
      ∀ task ∈ tasks, (machine.kernel.tcb task).state.isBlocked = true) ∧
    (∀ task, (machine.kernel.tcb task).state.isBlocked = true ↔
      ∃ list, machine.kernel.WaitsOn list task) ∧
    (∀ task list other, machine.kernel.WaitsOn list task → machine.kernel.WaitsOn other task →
      list = other) ∧
    ∀ action fault, machine.perform config.idle action = some (.error fault) →
      fault ≠ .unreachable ∧ fault ≠ .diverges := by
  obtain ⟨spec, reach, rep⟩ := RepMachine.exists_spec reachable
  have core := SpecMachine.core_of_reachable reach
  have blockedIff := RepMachine.isBlocked_iff reachable
  refine ⟨?_, blockedIff, ?_, ?_⟩
  · intro list
    refine ⟨spec.kernel.waitHead list, core.wf.nodup list, rep.kernel.chain list, ?_⟩
    intro task member
    exact (blockedIff task).mpr ⟨list, (rep.kernel.waitsOn_iff list task).mpr member⟩
  · intro task list other first second
    rw [rep.kernel.waitsOn_iff] at first second
    exact core.wf.list_unique first second
  · intro action fault performed
    exact (core.perform_triple (rep.perform_error core performed)).of_error rfl

/-- Two tasks have blocked on a semaphore in turn; the newer one heads the list. -/
theorem wait_lists_intact_two_waiters : ∃ machine : RtosMachine 4 Unit,
    (machine.kernel.waitHead (.semaphore 0) = some 2 ∧ machine.kernel.waitLink 2 = some 1) ∧
    ∀ task, (machine.kernel.tcb task).state.isBlocked = true ↔
      ∃ list, machine.kernel.WaitsOn list task := by
  let check (machine : RtosMachine 4 Unit) : Bool :=
    machine.kernel.waitHead (.semaphore 0) = some 2 ∧ machine.kernel.waitLink 2 = some 1
  let actions : List (Action Unit) :=
    .launch :: Config.thenSwitch (.take 0) ++ Config.thenSwitch (.take 0)
  obtain ⟨machine, reachable, checked⟩ :=
    Machine.exists_of_check actions check
      (by decide +kernel : (Config.small 10 20 30).passes Unit _ _ actions check = true)
  exact ⟨machine, of_decide_eq_true checked, (wait_lists_intact reachable).2.1⟩

end Kangaroos
