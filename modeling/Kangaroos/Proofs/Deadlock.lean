import Kangaroos.Logic.WaitsFor
import Kangaroos.Proofs.PriorityInheritance

/-!
# Deadlocks

Who waits for whom at the mutexes. A task that is dead or waits for a mutex gives up none of
the mutexes it owns, and nobody else takes them from it: a set of tasks in which each is dead
or waits for a mutex of another is stuck for good, and so is everybody who comes to wait for
one of them. Tasks that block only on mutexes ranked above all those they own never get into
such a circle.
-/

namespace Kangaroos

variable {n : Nat} {V : Type}

/-- The waits-for graph of the mutexes: a task that has exited is gone. -/
def Kernel.waitGraph (kernel : Rtos n V) : WaitGraph (Fin n) Nat where
  waits task id := kernel.WaitsOn (.mutex id) task
  owner := kernel.owner
  gone task := (kernel.tcb task).state = .dead

/-- Whenever a `lock` blocks, the mutex it asks for ranks above all those its caller owns. -/
def Kernel.LocksInOrder (rank : Nat → Nat) (kernel : Rtos n V) : Action V → Prop
  | .call (.lock id) => kernel.owner id ≠ none → ∀ task held, kernel.current = some task →
      kernel.owner held = some task → rank held < rank id
  | _ => True

/-- The waits-for graph of the abstract kernel. -/
def Spec.waitGraph (kernel : Spec n V) : WaitGraph (Fin n) Nat where
  waits task id := task ∈ kernel.waitHead (.mutex id)
  owner := kernel.owner
  gone task := (kernel.tcb task).state = .dead

theorem Rep.waitGraph_eq {kernel : Rtos n V} {spec : Spec n V} (rep : Rep none kernel spec) :
    kernel.waitGraph = spec.waitGraph := by
  simp only [Kernel.waitGraph, Spec.waitGraph, rep.waitsOn_iff, rep.dead_iff, rep.statics]

namespace SpecMachine

variable {config : Config n} {machine next : SpecMachine n V} {id : Nat} {action : Action V}

/-- Only a task that runs changes its own record, `trig` apart. -/
theorem Moves.thread_kept (moves : Moves machine action next) {task : Fin n}
    (stopped : (machine.kernel.tcb task).state.isRunning = false) :
    (next.thread task).pc = (machine.thread task).pc ∧
      (next.thread task).frames = (machine.thread task).frames ∧
      (next.thread task).guards = (machine.thread task).guards := by
  have other : ∀ {caller : Fin n}, (machine.kernel.tcb caller).state.isRunning = true →
      task ≠ caller := by
    rintro caller runs rfl
    simp [stopped] at runs
  cases moves with
  | scheduled scheduled => exact scheduled.thread task
  | isr safe returned contract slots => exact ⟨rfl, rfl, rfl⟩
  | isrRet assigned => exact ⟨rfl, rfl, rfl⟩
  | writeBox live stored => exact ⟨rfl, rfl, rfl⟩
  | call isCurrent runs may returned contract => simp [Machine.setThread, other runs]
  | dropBox runs user live inBounds => simp [Machine.setThread, Machine.removeBox, other runs]
  | forgetGuard runs user held => simp [Machine.setThread, other runs]
  | ret runs returns =>
      cases returns <;> simp [Machine.setThread, Machine.addBox, other runs]

/-- A step leaves mutexes and priorities alone, or is a section of a task that runs. -/
theorem Moves.mutexStep (moves : Moves machine action next) (core : Core config machine)
    (guarded : ∀ id, Guarded machine id) :
    ((∀ id, next.kernel.waitHead (.mutex id) = machine.kernel.waitHead (.mutex id)) ∧
      (∀ id, next.kernel.owner id = machine.kernel.owner id) ∧
      ∀ task, (next.kernel.tcb task).priority = (machine.kernel.tcb task).priority) ∨
    ∃ call caller, action = .call call ∧ machine.kernel.current = some caller ∧
      (machine.kernel.tcb caller).state.isRunning = true ∧
      MutexStep machine.kernel caller call next.kernel := by
  by_cases isCall : ∃ call, action = .call call
  · obtain ⟨call, rfl⟩ := isCall
    cases moves with
    | scheduled scheduled schedules => cases schedules
    | call isCurrent runs may returned contract =>
        exact .inr ⟨call, _, rfl, isCurrent, runs,
          core.mutexStep guarded isCurrent runs may returned contract⟩
  · exact .inl (moves.mutexes_same fun call same => isCall ⟨call, same⟩)

/-- The waiters of a mutex wait on until its owner releases it. -/
theorem Moves.waiter_kept (moves : Moves machine action next) (core : Core config machine)
    (guarded : ∀ id, Guarded machine id) {owner : Fin n}
    (owned : machine.kernel.owner id = some owner)
    (stopped : (machine.kernel.tcb owner).state.isRunning = false) {task : Fin n}
    (waits : task ∈ machine.kernel.waitHead (.mutex id)) :
    task ∈ next.kernel.waitHead (.mutex id) := by
  rcases moves.mutexStep core guarded with ⟨waitHead, _⟩ | ⟨call, caller, _, _, runs, step⟩
  · rwa [waitHead]
  · cases step with
    | apart harmless waitHead => rwa [waitHead]
    | acquire acquires free taken => rwa [taken]
    | wait locks contended blocked =>
        rename_i other holder
        by_cases same : id = other
        · subst same
          simp [blocked, Spec.blockAndPush, waits]
        · simp [blocked, Spec.blockAndPush, same, waits]
    | release releases held passed waitHead =>
        rename_i other ownerKept priority
        have different : id ≠ other := by
          rintro rfl
          obtain rfl := Option.some.inj (owned.symm.trans held)
          simp [stopped] at runs
        rwa [waitHead id different]

/-- A waiter was waiting before, or has just found the mutex owned. -/
theorem Moves.waiting_cases (moves : Moves machine action next) (core : Core config machine)
    (guarded : ∀ id, Guarded machine id) {task : Fin n}
    (waits : task ∈ next.kernel.waitHead (.mutex id)) :
    task ∈ machine.kernel.waitHead (.mutex id) ∨
      action = .call (.lock id) ∧ machine.kernel.current = some task ∧
        machine.kernel.owner id ≠ none := by
  rcases moves.mutexStep core guarded with ⟨waitHead, _⟩ | ⟨call, caller, rfl, isCurrent, _, step⟩
  · exact .inl (waitHead id ▸ waits)
  · cases step with
    | apart harmless waitHead => exact .inl (waitHead id ▸ waits)
    | acquire acquires free taken => exact .inl (by rwa [taken] at waits)
    | wait locks contended blocked =>
        rename_i other holder
        by_cases same : id = other
        · subst same
          have joined : task = caller ∨ task ∈ machine.kernel.waitHead (.mutex id) := by
            simpa [blocked, Spec.blockAndPush] using waits
          rcases joined with rfl | earlier
          · exact .inr ⟨by rw [locks], isCurrent, by simp [contended]⟩
          · exact .inl earlier
        · exact .inl (by simpa [blocked, Spec.blockAndPush, same] using waits)
    | release releases held passed waitHead =>
        rename_i other ownerKept priority
        by_cases same : id = other
        · subst same
          rcases passed with ⟨_, _, empty⟩ | ⟨waiter, _, _, left, _⟩
          · simp [empty] at waits
          · exact .inl (List.mem_of_mem_erase (left ▸ waits))
        · exact .inl (waitHead id same ▸ waits)

/-- A task that waits has come by no mutex in this step. -/
theorem Moves.owner_of_waiting (moves : Moves machine action next) (core : Core config machine)
    (guarded : ∀ id, Guarded machine id) {task : Fin n} {held : Nat}
    (waits : task ∈ next.kernel.waitHead (.mutex id))
    (owned : next.kernel.owner held = some task) : machine.kernel.owner held = some task := by
  rcases moves.mutexStep core guarded with ⟨_, owner, _⟩ | ⟨call, caller, rfl, isCurrent, runs, step⟩
  · rwa [owner] at owned
  · cases step with
    | apart harmless waitHead owner => rwa [owner] at owned
    | acquire acquires free taken =>
        rename_i other
        rw [taken] at waits owned
        by_cases same : held = other
        · subst same
          -- the caller, who gets the free mutex, waits nowhere
          have isTask : machine.kernel.current = some task := by simpa using owned
          obtain rfl : caller = task := Option.some.inj (isCurrent.symm.trans isTask)
          exact absurd waits (core.wf.not_mem_of_running runs)
        · simpa [same] using owned
    | wait locks contended blocked => simpa [blocked, Spec.blockAndPush] using owned
    | release releases held' passed waitHead owner =>
        rename_i other priority
        by_cases same : held = other
        · subst same
          rcases passed with ⟨_, free, _⟩ | ⟨waiter, member, taken, left, _⟩
          · cases free.symm.trans owned
          · -- the waiter that gets the mutex has left its list, and was on no other
            obtain rfl : waiter = task := Option.some.inj (taken.symm.trans owned)
            by_cases list : id = held
            · rw [list, left] at waits
              exact absurd waits (core.wf.nodup _).not_mem_erase
            · rw [waitHead id list] at waits
              have twice := (core.wf.mem.mp waits).symm.trans (core.wf.mem.mp member)
              exact absurd (by simpa using twice) list
        · rwa [owner held same] at owned

/-- A task that is dead or waits for a mutex does not run. -/
theorem Core.stopped_of_idle (core : Core config machine) {task : Fin n}
    (idle : (Spec.waitGraph machine.kernel).Idle task) :
    (machine.kernel.tcb task).state.isRunning = false := by
  rcases idle with died | ⟨id, waits⟩
  · simp [show (machine.kernel.tcb task).state = .dead from died]
  · simp [core.wf.mem.mp waits]

/-- Every step keeps what such a task owns, and those who wait for it. -/
theorem Moves.waitGraph_keeps (moves : Moves machine action next) (core : Core config machine)
    (guarded : ∀ id, Guarded machine id) :
    WaitGraph.Keeps (Spec.waitGraph machine.kernel) (Spec.waitGraph next.kernel) where
  gone task died := moves.dead_stays died
  owner id owner owned idle := by
    have stopped := core.stopped_of_idle idle
    rcases moves.owner_cases (guarded id) owned with same | ⟨call, rfl, _, isCurrent⟩
    · exact same
    · cases moves with
      | scheduled scheduled schedules => cases schedules
      | call isCaller runs may returned contract =>
          obtain rfl := Option.some.inj (isCurrent.symm.trans isCaller)
          simp [stopped] at runs
  waits task id owner waits owned idle :=
    moves.waiter_kept core guarded owned (core.stopped_of_idle idle) waits

/-- The ranks survive a step in which a `lock` that blocks asks for a mutex above all its caller
owns. -/
theorem Moves.waitGraph_ranked (moves : Moves machine action next) (core : Core config machine)
    (guarded : ∀ id, Guarded machine id) {rank : Nat → Nat}
    (ranked : (Spec.waitGraph machine.kernel).Ranked rank)
    (ordered : ∀ id, action = .call (.lock id) → machine.kernel.owner id ≠ none → ∀ task held,
      machine.kernel.current = some task → machine.kernel.owner held = some task →
      rank held < rank id) :
    (Spec.waitGraph next.kernel).Ranked rank := by
  intro task id held waits owned
  have before := moves.owner_of_waiting core guarded waits owned
  rcases moves.waiting_cases core guarded waits with waited | ⟨isLock, isCurrent, contended⟩
  · exact ranked task id held waited before
  · exact ordered id isLock contended task held isCurrent before

end SpecMachine

namespace RepMachine

variable {config : Config n} {machine next : RtosMachine n V}

/-- Tasks that are each dead or wait for a mutex of another of them never run again, in no run
that goes on from there: they stay so, keep every mutex they own, and stay in the call they are
in with the guards they hold. -/
theorem stuck_forever (reachable : (system config V).Reachable machine) {tasks : Set (Fin n)}
    (stuck : machine.kernel.waitGraph.Stuck tasks)
    (onward : ((system config V).startingAt machine).Reachable next) :
    next.kernel.waitGraph.Stuck tasks ∧
    ∀ task ∈ tasks, (next.kernel.tcb task).state.runnable = false ∧
      (∀ id, machine.kernel.owner id = some task → next.kernel.owner id = some task) ∧
      (next.thread task).pc = (machine.thread task).pc ∧
      (next.thread task).frames = (machine.thread task).frames ∧
      (next.thread task).guards = (machine.thread task).guards := by
  have kept : next.kernel.waitGraph.Stuck tasks ∧ ∀ task ∈ tasks,
      (∀ id, machine.kernel.owner id = some task → next.kernel.owner id = some task) ∧
      (next.thread task).pc = (machine.thread task).pc ∧
      (next.thread task).frames = (machine.thread task).frames ∧
      (next.thread task).guards = (machine.thread task).guards := by
    induction onward with
    | initial first =>
        obtain rfl := first
        exact ⟨stuck, fun task _ => ⟨fun _ owned => owned, rfl, rfl, rfl⟩⟩
    | @step state action after prior performed ih =>
        obtain ⟨still, unchanged⟩ := ih
        obtain ⟨spec, reach, rep⟩ := exists_spec (reachable.of_startingAt prior)
        have core := SpecMachine.core_of_reachable reach
        have guarded := SpecMachine.guarded_of_reachable reach
        obtain ⟨spec', performed', rep'⟩ := rep.perform_ok core performed
        have moves := core.moves (Machine.step_of_perform performed')
        have keeps := moves.waitGraph_keeps core guarded
        rw [rep.kernel.waitGraph_eq] at still
        rw [rep'.kernel.waitGraph_eq]
        refine ⟨still.keeps keeps, fun task member => ?_⟩
        obtain ⟨owners, pc, frames, guards⟩ := unchanged task member
        obtain ⟨pc', frames', guards'⟩ := moves.thread_kept (core.stopped_of_idle (still.idle member))
        rw [← rep.thread, ← rep'.thread] at pc' frames' guards'
        refine ⟨fun id owned => ?_, pc'.trans pc, frames'.trans frames, guards'.trans guards⟩
        have ownedHere := owners id owned
        rw [rep.kernel.statics] at ownedHere
        rw [rep'.kernel.statics]
        exact keeps.owner id task ownedHere (still.idle member)
  refine ⟨kept.1, fun task member => ⟨?_, kept.2 task member⟩⟩
  obtain ⟨spec, reach, rep⟩ := exists_spec (reachable.of_startingAt onward)
  have core := SpecMachine.core_of_reachable reach
  have idle := kept.1.idle member
  rw [rep.kernel.waitGraph_eq] at idle
  rw [rep.kernel.runnable]
  rcases idle with died | ⟨id, waits⟩
  · rw [show (spec.kernel.tcb task).state = .dead from died]
    rfl
  · rw [core.wf.mem.mp waits]
    rfl

/-- Tasks 2 and 3 each wait for the mutex of the other. -/
theorem stuck_forever_circle : ∃ machine : RtosMachine 4 Unit,
    (machine.kernel.waitHead (.mutex 0) = some 2 ∧ machine.kernel.waitHead (.mutex 1) = some 3) ∧
    ∀ next, ((system (Config.small 10 20 30) Unit).startingAt machine).Reachable next →
      next.kernel.waitGraph.Stuck {2, 3} ∧ next.kernel.owner 0 = some 3 := by
  let actions : List (Action Unit) := [.launch] ++ Config.thenSwitch (.take 0) ++
    Config.thenSwitch (.take 1) ++ [.call (.lock 0), .ret] ++ Config.thenSwitch (.give 1) ++
    [.ret, .call (.lock 1), .ret] ++ Config.thenSwitch (.lock 0) ++ Config.thenSwitch (.lock 1)
  let check (machine : RtosMachine 4 Unit) : Bool :=
    (machine.kernel.waitHead (.mutex 0) = some 2 ∧ machine.kernel.waitHead (.mutex 1) = some 3) ∧
      machine.kernel.owner 0 = some 3 ∧ machine.kernel.owner 1 = some 2
  obtain ⟨machine, reachable, checked⟩ := Machine.exists_of_check actions check
    (by decide +kernel : (Config.small 10 20 30).passes Unit _ _ actions check = true)
  obtain ⟨heads, owner, owner'⟩ := of_decide_eq_true checked
  have waits : machine.kernel.WaitsOn (.mutex 0) 2 := by
    rw [Kernel.WaitsOn, heads.1]
    exact .here 2
  have waits' : machine.kernel.WaitsOn (.mutex 1) 3 := by
    rw [Kernel.WaitsOn, heads.2]
    exact .here 3
  have stuck : machine.kernel.waitGraph.Stuck {2, 3} := by
    rintro task (rfl | rfl)
    · exact .inr ⟨3, by simp, 0, waits, owner⟩
    · exact .inr ⟨2, by simp, 1, waits', owner'⟩
  refine ⟨machine, heads, fun next onward => ?_⟩
  obtain ⟨still, kept⟩ := stuck_forever reachable stuck onward
  exact ⟨still, (kept 3 (by simp)).2.1 0 owner⟩

/-- Lock ordering prevents deadlock. If every `lock` that blocks asks for a mutex ranked above
all those its caller owns, then from every task the chain of owners ends at a task that waits for
no mutex, and any set of tasks that is stuck has a task in it that has exited. -/
theorem no_deadlock {rank : Nat → Nat} (reachable : ((system config V).restrict
      fun machine action => machine.kernel.LocksInOrder rank action).Reachable machine) :
    (∀ task, ∃ last, Relation.ReflTransGen machine.kernel.waitGraph.WaitsFor task last ∧
      ∀ id, ¬machine.kernel.WaitsOn (.mutex id) last) ∧
    ∀ tasks, machine.kernel.waitGraph.Stuck tasks → tasks.Nonempty →
      ∃ task ∈ tasks, (machine.kernel.tcb task).state = .dead := by
  obtain ⟨spec, reach, rep, ranked⟩ := (simulation config V).restrict_invariant
    (fun spec => (Spec.waitGraph spec.kernel).Ranked rank) (by
      rintro spec ⟨kernel, boot, rfl⟩ task id held waits _
      have listed : task ∈ kernel.waitHead (.mutex id) := waits
      rw [(Config.booted_of_boot boot).waitHead] at listed
      cases listed) (by
      intro state action after spec spec' rep _ reach ranked ordered _ performed
      have core := SpecMachine.core_of_reachable reach
      refine (core.moves (Machine.step_of_perform performed)).waitGraph_ranked core
        (SpecMachine.guarded_of_reachable reach) ranked ?_
      rintro id rfl
      simpa only [Kernel.LocksInOrder, rep.kernel.statics] using ordered) reachable
  rw [← rep.kernel.waitGraph_eq] at ranked
  refine ⟨fun task => ?_, fun tasks stuck nonempty => ranked.exists_gone stuck nonempty⟩
  obtain ⟨last, chain, ends⟩ := ranked.exists_last task
  refine ⟨last, chain, fun id waits => ?_⟩
  -- a mutex with waiters has an owner, so the last task of a chain is none of them
  have listed := (rep.kernel.waitsOn_iff (.mutex id) last).mp waits
  have owned := (SpecMachine.guarded_of_reachable reach id).owned (List.ne_nil_of_mem listed)
  obtain ⟨owner, isOwner⟩ := Option.ne_none_iff_exists'.mp owned
  exact ends owner ⟨id, waits, by
    rw [Kernel.waitGraph, rep.kernel.statics]
    exact isOwner⟩

/-- Mutex 0 ranks above the others. -/
def zeroLast (id : Nat) : Nat := if id = 0 then 1 else 0

/-- Mutex 0 is locked by others than its owner, and the others only while they are free. -/
def locksZeroLast (machine : RtosMachine n V) : Action V → Bool
  | .call (.lock 0) => machine.kernel.owner 0 = none ∨ machine.kernel.owner 0 ≠ machine.kernel.current
  | .call (.lock id) => machine.kernel.owner id = none
  | _ => true

theorem locksInOrder_zeroLast {action : Action V} (allowed : locksZeroLast machine action = true) :
    machine.kernel.LocksInOrder zeroLast action := by
  cases action with
  | call call =>
      cases call with
      | lock id =>
          cases id with
          | zero =>
              intro contended task held isCurrent owned
              have apart : machine.kernel.owner 0 ≠ machine.kernel.current := by
                rcases of_decide_eq_true allowed with free | apart
                · exact absurd free contended
                · exact apart
              have notZero : held ≠ 0 := by
                rintro rfl
                exact apart (owned.trans isCurrent.symm)
              simp [zeroLast, notZero]
          | succ id => exact fun contended => absurd (of_decide_eq_true allowed) contended
      | _ => trivial
  | _ => trivial

/-- Task 2 owns mutex 1 and waits for mutex 0. -/
theorem no_deadlock_contended : ∃ machine : RtosMachine 4 Unit,
    (machine.kernel.owner 0 = some 3 ∧ machine.kernel.owner 1 = some 2 ∧
      machine.kernel.waitHead (.mutex 0) = some 2) ∧
    ∀ task, ∃ last, Relation.ReflTransGen machine.kernel.waitGraph.WaitsFor task last ∧
      ∀ id, ¬machine.kernel.WaitsOn (.mutex id) last := by
  let actions : List (Action Unit) := [.launch] ++ Config.thenSwitch (.take 0) ++
    Config.thenSwitch (.take 1) ++ [.call (.lock 0), .ret] ++ Config.thenSwitch (.give 1) ++
    [.ret, .call (.lock 1), .ret, .call (.lock 0)]
  let check (machine : RtosMachine 4 Unit) : Bool :=
    machine.kernel.owner 0 = some 3 ∧ machine.kernel.owner 1 = some 2 ∧
      machine.kernel.waitHead (.mutex 0) = some 2
  obtain ⟨machine, reachable, checked⟩ := Machine.exists_of_checkWithin
    (fun _ _ _ allowed => locksInOrder_zeroLast allowed) actions check
    (by decide +kernel : (Config.small 10 20 30).passesWithin Unit _ _ locksZeroLast actions
      check = true)
  exact ⟨machine, of_decide_eq_true checked, (no_deadlock reachable).1⟩

end RepMachine

end Kangaroos
