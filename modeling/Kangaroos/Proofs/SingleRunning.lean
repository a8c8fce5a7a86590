import Kangaroos.Abstract.Moves
import Kangaroos.Refine.Switch

/-!
# One running task

After the launch at most one task is `Running`, and it is `CURRENT`; the idle
task can always be picked. So `find_next` always finds a ready task, PendSV runs
through, and when it is done exactly one task is `Running`.
-/

namespace Kangaroos

namespace SpecMachine

variable {n : Nat} {V : Type} {config : Config n} {machine next : SpecMachine n V}

/-- When PendSV returns, the task it has picked runs and no other does. -/
theorem Core.unique_running (core : Core config machine) {sp : Word}
    (switches : Machine.SwitchStep machine sp next) (active : machine.handler ≠ .inactive)
    (done : next.handler = .inactive) :
    ∃! task, (next.kernel.tcb task).state.isRunning = true := by
  cases switches with
  | finish switched marked =>
      rename_i task kernel
      have phase := core.phase
      rw [switched] at phase
      obtain ⟨stopped, ready, _⟩ := phase
      obtain ⟨_, _, runs, others⟩ := (Spec.markRunning_spec ready).of_ok marked
      refine ⟨task, runs, ?_⟩
      intro other running
      by_contra different
      rw [others other different, stopped other] at running
      simp at running
  | enter inactive pending => exact absurd inactive active
  | _ => simp at done

/-- Picked tasks are ready. -/
theorem Core.picked_ready (core : Core config machine) {task : Fin n}
    (picked : machine.handler = .selected task ∨ machine.handler = .switched task) :
    (machine.kernel.tcb task).state.isReady = true := by
  have phase := core.phase
  rcases picked with selected | switched
  · rw [selected] at phase
    exact phase.2
  · rw [switched] at phase
    exact phase.2.1

end SpecMachine

namespace RepMachine

variable {n : Nat} {V : Type} {config : Config n} {machine : RtosMachine n V}
  {spec : SpecMachine n V}

theorem allLink_eq (rep : RepMachine machine spec) :
    machine.kernel.allLink = spec.kernel.allLink := by
  funext task
  exact rep.kernel.allNext task

/-- `ALL_TASKS` visits every spawned task. -/
theorem allTasks_chain (rep : RepMachine machine spec) (core : SpecMachine.Core config spec) :
    Linked.Chain machine.kernel.allLink machine.kernel.allTasks config.order := by
  rw [rep.allLink_eq, rep.kernel.statics]
  exact core.chain

/-- From its entry, PendSV left alone runs to its end in at most `2 n + 5` steps and
computes `pendsv_save_and_switch`. -/
theorem switch_completes (reachable : (system config V).Reachable machine)
    (entered : machine.handler = .entered) (sp : Word) :
    ∃ count ≤ 2 * n + 5, ∃ kernel nextSp,
      machine.kernel.pendsvSaveAndSwitch sp = .ok (kernel, nextSp) ∧
      Machine.Switches config.idle sp count machine
        { machine with kernel, handler := .inactive } := by
  obtain ⟨spec, reach, rep⟩ := exists_spec reachable
  have core := SpecMachine.core_of_reachable reach
  have enough : config.order.length ≤ n := by simpa using config.order_nodup.length_le_card
  -- the save succeeds, because PendSV never faults
  obtain ⟨saved, returned⟩ : ∃ saved, machine.kernel.saveCurrent sp = .ok saved := by
    cases returned : machine.kernel.saveCurrent sp with
    | ok saved => exact ⟨saved, rfl⟩
    | error fault =>
        have faults : machine.perform config.idle (.pendsv sp) = some (.error fault) := by
          simp [Machine.perform, Machine.pendsvStep, entered, returned, bind, Except.bind]
        obtain ⟨_, isOk⟩ := core.pendsvStep_ok (rep.perform_error core faults)
        cases isOk
  -- the node the search starts at heads a part of `ALL_TASKS`
  have saves : machine.perform config.idle (.pendsv sp) = some (.ok { machine with
      kernel := saved, handler := .pass1 saved.searchStart saved.searchStart (none, 255) }) := by
    simp [Machine.perform, Machine.pendsvStep, entered, returned, bind, Except.bind]
  obtain ⟨specSaved, reachSaved, repSaved⟩ := exists_spec (.step reachable saves)
  have phase := (SpecMachine.core_of_reachable reachSaved).phase
  rw [← repSaved.handler] at phase
  obtain ⟨_, _, ⟨rest, suffix, chainRest⟩, _⟩ := phase
  rw [← repSaved.allLink_eq] at chainRest
  have enoughRest : rest.length ≤ n := suffix.length_le.trans enough
  -- the search ends with a ready task, because it passes the idle task
  obtain ⟨count, bound, last, best, atEnd, searched, found⟩ := Machine.switches_search
    config.idle entered returned (rep.allTasks_chain core) chainRest enough enoughRest
  obtain ⟨specFound, reachFound, repFound⟩ :=
    exists_spec (Machine.reachable_of_performAll reachable searched)
  obtain ⟨task, isBest, ready⟩ := (SpecMachine.core_of_reachable reachFound).found
    repFound.handler.symm atEnd
  rw [isBest] at found
  rw [← repFound.kernel.isReady] at ready
  obtain ⟨slice, isReady⟩ := TaskState.isReady_iff.mp ready
  have marked : (saved.setCurrent (some task)).markRunning task =
      .ok ((saved.setCurrent (some task)).setState task (.running slice)) := by
    simp only [Kernel.markRunning, Kernel.modifyStatics_tcb]
    rw [show (saved.tcb task).state = .ready slice from isReady]
  have computes : ∃ nextSp, machine.kernel.pendsvSaveAndSwitch sp =
      .ok ((saved.setCurrent (some task)).setState task (.running slice), nextSp) := by
    simp only [Kernel.pendsvSaveAndSwitch, returned, found, marked, bind, Except.bind]
    exact ⟨_, rfl⟩
  obtain ⟨nextSp, computes⟩ := computes
  exact ⟨count + 3, by omega, _, nextSp, computes,
    searched.trans (Machine.switches_select rfl atEnd isBest marked)⟩

/-- After the launch: at most one task is `Running`, and that is `CURRENT`, a member of
`ALL_TASKS`; the idle task is `Ready` or `Running`; a dead task stays dead. No step of
PendSV faults: the task it picks is `Ready`, PendSV left alone runs to its end and
computes `pendsv_save_and_switch`, and when it ends exactly one task is `Running`. -/
theorem single_running_task (reachable : (system config V).Reachable machine)
    (launched : machine.kernel.current ≠ none) :
    (∀ task, (machine.kernel.tcb task).state.isRunning = true →
      machine.kernel.current = some task) ∧
    (∃ current, machine.kernel.current = some current ∧
      Linked.Follows machine.kernel.allLink machine.kernel.allTasks current) ∧
    ((machine.kernel.tcb config.idle).state.isReady = true ∨
      (machine.kernel.tcb config.idle).state.isRunning = true) ∧
    (∀ action next task, machine.perform config.idle action = some (.ok next) →
      (machine.kernel.tcb task).state = .dead → (next.kernel.tcb task).state = .dead) ∧
    (∀ sp fault, machine.perform config.idle (.pendsv sp) ≠ some (.error fault)) ∧
    (∀ task, machine.handler = .selected task ∨ machine.handler = .switched task →
      (machine.kernel.tcb task).state.isReady = true) ∧
    (machine.handler = .entered → ∀ sp, ∃ count ≤ 2 * n + 5, ∃ kernel nextSp,
      machine.kernel.pendsvSaveAndSwitch sp = .ok (kernel, nextSp) ∧
      Machine.Switches config.idle sp count machine
        { machine with kernel, handler := .inactive }) ∧
    ∀ sp next, machine.perform config.idle (.pendsv sp) = some (.ok next) →
      machine.handler ≠ .inactive → next.handler = .inactive →
      ∃! task, (next.kernel.tcb task).state.isRunning = true := by
  obtain ⟨spec, reach, rep⟩ := exists_spec reachable
  have core := SpecMachine.core_of_reachable reach
  refine ⟨?_, ?_, ?_, ?_, ?_, ?_, fun entered => switch_completes reachable entered, ?_⟩
  · intro task runs
    rw [rep.kernel.isRunning] at runs
    rw [rep.kernel.statics]
    exact core.running task runs
  · obtain ⟨current, isCurrent⟩ := Option.ne_none_iff_exists'.mp launched
    refine ⟨current, isCurrent, ((rep.allTasks_chain core).follows_iff current).mpr ?_⟩
    rw [rep.kernel.statics] at isCurrent
    exact core.member current isCurrent
  · rw [← Bool.or_eq_true_iff]
    exact (rep.kernel.runnable config.idle).trans core.idle
  · intro action next task performed died
    obtain ⟨specNext, performedSpec, repNext⟩ := rep.perform_ok core performed
    have diedSpec := (rep.kernel.dead_iff task).mp died
    exact (repNext.kernel.dead_iff task).mpr
      ((core.moves (Machine.step_of_perform performedSpec)).dead_stays diedSpec)
  · intro sp fault faults
    obtain ⟨_, isOk⟩ := core.pendsvStep_ok (rep.perform_error core faults)
    cases isOk
  · intro task picked
    rw [rep.kernel.isReady]
    rw [rep.handler] at picked
    exact core.picked_ready picked
  · intro sp next performed active done
    obtain ⟨specNext, performedSpec, repNext⟩ := rep.perform_ok core performed
    rw [rep.handler] at active
    rw [repNext.handler] at done
    simp only [repNext.kernel.isRunning]
    exact core.unique_running (Machine.switchStep_of_pendsvStep performedSpec) active done

/-- A task blocks, PendSV is entered, and at its end the next most urgent task runs alone. -/
theorem single_running_task_switched : ∃ entered switched next : RtosMachine 4 Unit,
    ((entered.kernel.tcb 1).state.isBlocked = true ∧ entered.handler = .entered ∧
      ∃ count ≤ 13, ∃ kernel nextSp, entered.kernel.pendsvSaveAndSwitch 0 = .ok (kernel, nextSp) ∧
        Machine.Switches (Config.small 10 20 30).idle 0 count entered
          { entered with kernel, handler := .inactive }) ∧
    (switched.handler = .switched 2 ∧ (switched.kernel.tcb 2).state.isReady = true) ∧
    switched.perform (Config.small 10 20 30).idle (.pendsv 0) = some (.ok next) ∧
    ∃! task, (next.kernel.tcb task).state.isRunning = true := by
  let blocks : List (Action Unit) := [.launch, .call (.take 0), .trigger]
  let isEntered (machine : RtosMachine 4 Unit) : Bool := machine.kernel.current = some 1 ∧
    (machine.kernel.tcb 1).state.isBlocked = true ∧ machine.handler = .entered
  let isSwitched (machine : RtosMachine 4 Unit) : Bool :=
    machine.kernel.current = some 2 ∧ machine.handler = .switched 2
  obtain ⟨entered, reachable, checked⟩ := Machine.exists_of_check (blocks ++ [.pendsv 0]) isEntered
    (by decide +kernel : (Config.small 10 20 30).passes Unit _ _ (blocks ++ [.pendsv 0])
      isEntered = true)
  obtain ⟨switched, reachable', checked'⟩ := Machine.exists_of_check
    (blocks ++ List.replicate 9 (.pendsv 0)) isSwitched
    (by decide +kernel : (Config.small 10 20 30).passes Unit _ _
      (blocks ++ List.replicate 9 (.pendsv 0)) isSwitched = true)
  obtain ⟨isFirst, blocked, isEntered⟩ := of_decide_eq_true checked
  obtain ⟨isSecond, isSwitched⟩ := of_decide_eq_true checked'
  obtain ⟨_, _, _, _, _, _, completes, _⟩ := single_running_task reachable (by simp [isFirst])
  obtain ⟨_, _, _, _, noFault, ready, _, unique⟩ :=
    single_running_task reachable' (by simp [isSecond])
  cases performed : switched.perform (Config.small 10 20 30).idle (.pendsv 0) with
  | none => simp [Machine.perform, Machine.pendsvStep, isSwitched] at performed
  | some run =>
      cases run with
      | error fault => exact absurd performed (noFault 0 fault)
      | ok next =>
          have done : next.handler = .inactive := by
            cases Machine.switchStep_of_pendsvStep performed <;> simp_all
          exact ⟨entered, switched, next, ⟨blocked, isEntered, completes isEntered 0⟩,
            ⟨isSwitched, ready 2 (.inr isSwitched)⟩, performed,
            unique 0 next performed (by simp [isSwitched]) done⟩

end RepMachine

end Kangaroos
