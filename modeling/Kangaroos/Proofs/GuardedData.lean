import Kangaroos.Logic.SharedCell
import Kangaroos.Proofs.MutualExclusion

/-!
# The data behind the mutexes

`MutexGuard` derefs to the data of its mutex. Here a task reads and writes it as two steps,
with anything that may happen in between, as `*guard += 1` does: what it has read is gone
with the guard it was read through. No update of the data is lost.
-/

namespace Kangaroos

variable {n : Nat} {V D Link Head : Type}

/-- The machine, and the data of its mutexes with what the tasks have read of it. -/
structure DataMachine (n : Nat) (V D Link Head : Type) where
  machine : Machine n V Link Head
  cell : Nat → SharedCell (Fin n) D

/-- The steps of the machine and the accesses through a live guard. -/
inductive DataAction (V D : Type) where
  | machine (action : Action V)
  /-- `*guard` through `Deref`. -/
  | read (id : Nat)
  /-- `*guard = …` through `DerefMut`, with a value made of what was read. -/
  | write (id : Nat) (update : D → D)

/-- The tasks with a live guard of a mutex. -/
def Machine.Holds (machine : Machine n V Link Head) (id : Nat) (task : Fin n) : Prop :=
  id ∈ (machine.thread task).guards

instance (machine : Machine n V Link Head) (id : Nat) : DecidablePred (machine.Holds id) :=
  fun task => inferInstanceAs (Decidable (id ∈ (machine.thread task).guards))

/-- The task that may access the data of a mutex: it executes application code and has a
live guard. -/
def Machine.accessor (idle : Fin n) (machine : Machine n V Link Head) (id : Nat) : TcbPtr n :=
  match machine.threadTask with
  | none => none
  | some task =>
    let thread := machine.thread task
    if task ≠ idle ∧ thread.trig = false ∧ thread.pc = .user ∧ machine.Holds id task then some task
    else none

namespace DataMachine

variable [ops : WaitOps n V Link Head]

/-- Perform an action: `none` if it cannot happen in this state. -/
def perform (idle : Fin n) (state : DataMachine n V D Link Head) :
    DataAction V D → Option (Exec (DataMachine n V D Link Head))
  | .machine action =>
    match state.machine.perform idle action with
    | some (.ok machine) =>
      some (.ok { machine, cell := fun id => (state.cell id).keep (machine.Holds id) })
    | some (.error fault) => some (.error fault)
    | none => none
  | .read id =>
    match state.machine.accessor idle id with
    | some task =>
      some (.ok { state with cell := Function.update state.cell id ((state.cell id).read task) })
    | none => none
  | .write id update =>
    match state.machine.accessor idle id with
    | some task =>
      match (state.cell id).copy task with
      | some copied =>
        some (.ok { state with
          cell := Function.update state.cell id ((state.cell id).write task copied update) })
      | none => none
    | none => none

variable {idle : Fin n} {state next : DataMachine n V D Link Head} {id : Nat}

/-- A step of the machine takes the copies along with the guards. -/
theorem perform_machine {action : Action V}
    (performed : state.perform idle (.machine action) = some (.ok next)) :
    ∃ machine, state.machine.perform idle action = some (.ok machine) ∧
      next = { machine, cell := fun id => (state.cell id).keep (machine.Holds id) } := by
  simp only [perform] at performed
  split at performed
  · rename_i machine steps
    exact ⟨machine, steps, by simpa using performed.symm⟩
  · cases performed
  · cases performed

theorem perform_read (performed : state.perform idle (.read id) = some (.ok next)) :
    ∃ task, state.machine.accessor idle id = some task ∧
      next = { state with cell := Function.update state.cell id ((state.cell id).read task) } := by
  simp only [perform] at performed
  split at performed
  · rename_i task isAccessor
    exact ⟨task, isAccessor, by simpa using performed.symm⟩
  · cases performed

theorem perform_write {update : D → D}
    (performed : state.perform idle (.write id update) = some (.ok next)) :
    ∃ task copied, state.machine.accessor idle id = some task ∧
      (state.cell id).copy task = some copied ∧ next = { state with
        cell := Function.update state.cell id ((state.cell id).write task copied update) } := by
  simp only [perform] at performed
  split at performed
  · rename_i task isAccessor
    split at performed
    · rename_i copied isCopy
      exact ⟨task, copied, isAccessor, isCopy, by simpa using performed.symm⟩
    · cases performed
  · cases performed

end DataMachine

/-- The machine with its data: `Mutex::new` gives each mutex its first value. -/
def Config.dataSystem (config : Config n) (V Link Head : Type) [ops : WaitOps n V Link Head]
    (first : Nat → D) : TransitionSystem (DataMachine n V D Link Head) (DataAction V D) where
  initial state := (config.system V Link Head).initial state.machine ∧
    state.cell = fun id => .new (first id)
  step state action next := state.perform config.idle action = some (.ok next)

/-- Boot, perform a sequence of actions, and check the state at the end. -/
def Config.dataPasses (config : Config n) (V Link Head : Type) [ops : WaitOps n V Link Head]
    (first : Nat → D) (actions : List (DataAction V D))
    (check : DataMachine n V D Link Head → Bool) : Bool :=
  match config.boot V Link Head with
  | .ok kernel =>
    (actions.foldlM (fun state action => TransitionSystem.succeeded (state.perform config.idle action))
      { machine := Config.start V Link Head kernel, cell := fun id => .new (first id) }).any check
  | .error _ => false

/-- An execution that passes a check ends in a state some run reaches. -/
theorem Config.exists_of_dataPasses {config : Config n} [ops : WaitOps n V Link Head]
    {first : Nat → D} (actions : List (DataAction V D)) (check : DataMachine n V D Link Head → Bool)
    (passes : config.dataPasses V Link Head first actions check = true) :
    ∃ state, (config.dataSystem V Link Head first).Reachable state ∧ check state = true := by
  unfold Config.dataPasses at passes
  split at passes
  · rename_i kernel boot
    obtain ⟨state, executed, checked⟩ := Option.any_eq_true _ _ |>.mp passes
    refine ⟨state, .of_foldlM (fun state action next happens => ?_)
      (.initial ⟨⟨kernel, boot, rfl⟩, rfl⟩) executed, checked⟩
    exact TransitionSystem.succeeded_eq_some.mp happens
  · cases passes

theorem Machine.accessor_eq_some {idle : Fin n} {machine : Machine n V Link Head} {id : Nat}
    {task : Fin n} (isAccessor : machine.accessor idle id = some task) : machine.Holds id task := by
  unfold accessor at isAccessor
  split at isAccessor
  · cases isAccessor
  · obtain ⟨guard, isTask⟩ := Option.ite_none_right_eq_some.mp isAccessor
    obtain rfl := Option.some.inj isTask
    exact guard.2.2.2

namespace RepMachine

variable {config : Config n} {machine : RtosMachine n V} {id : Nat}

/-- A live guard is the owner's. -/
theorem owner_of_holds (reachable : (system config V).Reachable machine) {task : Fin n}
    (holds : machine.Holds id task) : machine.kernel.owner id = some task := by
  obtain ⟨spec, reach, rep⟩ := exists_spec reachable
  rw [rep.kernel.statics]
  refine (SpecMachine.guarded_of_reachable reach id).held task ?_
  rwa [← rep.thread]

variable {first : Nat → D} {state : DataMachine n V D (TcbPtr n) (TcbPtr n)}

/-- The data of a mutex is what all the updates written through its guards make of its first
value, in the order they were written, however they interleave with each other and with
everything else: none is lost. Until it gives up its guard a task has what the data is, and
it is the owner. -/
theorem no_lost_update (reachable : (config.dataSystem V (TcbPtr n) (TcbPtr n) first).Reachable
      state) (id : Nat) :
    (state.cell id).value =
      (state.cell id).updates.foldl (fun value update => update value) (first id) ∧
    ∀ task copied, (state.cell id).copy task = some copied →
      (state.cell id).value = copied ∧ state.machine.kernel.owner id = some task := by
  have coherent : (system config V).Reachable state.machine ∧
      ∀ id, (state.cell id).Coherent (first id) (state.machine.Holds id) := by
    refine reachable.invariant (fun state => (system config V).Reachable state.machine ∧
      ∀ id, (state.cell id).Coherent (first id) (state.machine.Holds id)) ?_ ?_
    · rintro state ⟨start, cells⟩
      exact ⟨.initial start, fun id => cells ▸ .new _ _⟩
    · rintro state action next - ⟨reached, coherent⟩ performed
      cases action with
      | machine action =>
          obtain ⟨machine, steps, rfl⟩ := DataMachine.perform_machine performed
          exact ⟨.step reached steps, fun id => (coherent id).keep _⟩
      | read id =>
          obtain ⟨task, isAccessor, rfl⟩ := DataMachine.perform_read performed
          refine ⟨reached, (Function.forall_update_iff state.cell fun id cell =>
            cell.Coherent (first id) (state.machine.Holds id)).mpr ⟨?_, fun other _ => coherent other⟩⟩
          exact (coherent id).read (Machine.accessor_eq_some isAccessor)
      | write id update =>
          obtain ⟨task, copied, isAccessor, isCopy, rfl⟩ := DataMachine.perform_write performed
          refine ⟨reached, (Function.forall_update_iff state.cell fun id cell =>
            cell.Coherent (first id) (state.machine.Holds id)).mpr ⟨?_, fun other _ => coherent other⟩⟩
          have owned := owner_of_holds reached (Machine.accessor_eq_some isAccessor)
          refine (coherent id).write isCopy (fun other holds => ?_) update
          exact Option.some.inj ((owner_of_holds reached holds).symm.trans owned)
  obtain ⟨reached, coherent⟩ := coherent
  refine ⟨(coherent id).updated, fun task copied isCopy => ⟨?_, ?_⟩⟩
  · exact ((coherent id).fresh task copied isCopy).symm
  · exact owner_of_holds reached ((coherent id).access task (by simp [isCopy]))

/-- Task 2 reads the data of a mutex and is preempted by task 1, which blocks on the mutex; then
task 2 writes and releases it, and task 1 goes on with what it wrote. -/
theorem no_lost_update_preempted : ∃ state : DataMachine 4 Unit Nat (TcbPtr 4) (TcbPtr 4),
    (state.cell 0).updates.length = 2 ∧ (state.cell 0).value = 12 ∧
    state.machine.kernel.owner 0 = some 1 := by
  let switch (call : Call Unit) : List (DataAction Unit Nat) :=
    (Config.thenSwitch call).map .machine
  let actions : List (DataAction Unit Nat) := [.machine .launch] ++ switch (.take 0) ++
    [.machine (.call (.lock 0)), .machine .ret, .read 0, .machine (.isr (.give 0))] ++
    List.replicate 10 (.machine (.pendsv 0)) ++ [.machine .ret] ++ switch (.lock 0) ++
    [.write 0 (· + 1)] ++ switch (.dropGuard 0) ++ [.machine .ret, .read 0, .write 0 (· * 2)]
  let check (state : DataMachine 4 Unit Nat (TcbPtr 4) (TcbPtr 4)) : Bool :=
    (state.cell 0).updates.length = 2 ∧ (state.cell 0).copy 1 = some 12
  obtain ⟨state, reachable, checked⟩ := Config.exists_of_dataPasses actions check
    (by decide +kernel : (Config.small 10 20 30).dataPasses Unit (TcbPtr 4) (TcbPtr 4)
      (fun _ => 5) actions check = true)
  obtain ⟨two, isCopy⟩ := of_decide_eq_true checked
  obtain ⟨value, owner⟩ := (no_lost_update reachable 0).2 1 12 isCopy
  exact ⟨state, two, value, owner⟩

end RepMachine

end Kangaroos
