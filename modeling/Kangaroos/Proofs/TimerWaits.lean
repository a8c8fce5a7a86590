import Kangaroos.Proofs.SleepDuration
import Kangaroos.TimerMachine

/-!
# Inside `Timer::wait`

What the steps of the others do to a task inside `wait`: while it sleeps only a tick that
finds a running task wakes it, and once it is awake nothing but its own calls stops it.
-/

namespace Kangaroos

/-- The kernel as coded with a timer. -/
abbrev RtosTimerMachine (n : Nat) (V : Type) := TimerMachine n V (TcbPtr n) (TcbPtr n)

/-- The end of a dispatch changes no task that is not ready. -/
theorem Kernel.markRunning_tcb {n : Nat} {V Link Head : Type} {kernel after : Kernel n V Link Head}
    {task other : Fin n} (marked : kernel.markRunning task = .ok after)
    (notReady : (kernel.tcb other).state.isReady = false) : after.tcb other = kernel.tcb other := by
  unfold Kernel.markRunning at marked
  split at marked
  · rename_i slice ready
    cases marked
    have different : other ≠ task := by
      rintro rfl
      simp [ready] at notReady
    simp [different]
  · simp at marked

namespace SpecMachine

variable {n : Nat} {V : Type} {config : Config n} {machine next : SpecMachine n V}
  {action : Action V} {task : Fin n} {deadline : U64}

/-- Only a tick ends a sleep. -/
theorem Core.sleeping_stays (core : Core config machine)
    (step : Machine.Step config.idle machine action next) (noTick : action ≠ .tick)
    (sleeps : (machine.kernel.tcb task).state = .sleeping deadline) :
    (next.kernel.tcb task).state = .sleeping deadline := by
  have notReady : (machine.kernel.tcb task).state.isReady = false := by
    rw [sleeps]
    rfl
  have notRunning : (machine.kernel.tcb task).state.isRunning = false := by
    rw [sleeps]
    rfl
  have notBlocked : ∀ list, (machine.kernel.tcb task).state ≠ .blocked list := by simp [sleeps]
  cases step with
  | launch fresh returned =>
      obtain ⟨best, first, marked⟩ := Kernel.markRunning_of_launch returned
      rw [Kernel.markRunning_tcb marked notReady]
      exact sleeps
  | tick returned => exact absurd rfl noTick
  | pendsv switches =>
      cases switches with
      | save entered saved =>
          exact (((Spec.saveCurrent_spec _ _).of_ok saved).others task (.inr notRunning)).trans sleeps
      | finish switched marked =>
          rw [Kernel.markRunning_tcb marked notReady]
          exact sleeps
      | _ => exact sleeps
  | isr safe returned slots =>
      obtain ⟨_, effect, _⟩ := (core.isr_contract safe returned).effect
      exact (effect.state_of_not_blocked (by simp) notBlocked).trans sleeps
  | call isTask notIdle triggered may returned =>
      rename_i call caller kernel outcome
      obtain ⟨_, effect, _⟩ := (core.call_contract isTask triggered returned).effect
      have other : some caller ≠ some task := by
        rintro isCaller
        obtain rfl := Option.some.inj isCaller
        simp [core.task_running isTask triggered] at notRunning
      exact (effect.state_of_not_blocked other notBlocked).trans sleeps
  | ret isTask triggered returns => cases returns <;> exact sleeps
  | dropBox isTask notIdle triggered user live returned =>
      obtain ⟨_, _, rfl⟩ := Pool.destroy_ok returned
      exact sleeps
  | writeBox isTask notIdle triggered user live returned =>
      obtain ⟨_, _, rfl⟩ := Pool.write_ok returned
      exact sleeps
  | _ => exact sleeps

/-- Nothing but its own instructions stops a runnable task. -/
theorem Core.runnable_stays (core : Core config machine)
    (step : Machine.Step config.idle machine action next)
    (others : action.application = true → machine.threadTask ≠ some task)
    (runnable : (machine.kernel.tcb task).state.runnable = true) :
    (next.kernel.tcb task).state.runnable = true := by
  have notBlocked : ∀ list, (machine.kernel.tcb task).state ≠ .blocked list := by
    intro list blocked
    simp [blocked, TaskState.runnable] at runnable
  have inThread : ∀ call, action = .call call → machine.threadTask = machine.kernel.current := by
    rintro call rfl
    cases step with
    | call isTask notIdle triggered may returned =>
        rw [isTask, (Machine.threadTask_eq_some.mp isTask).2.2]
  cases core.moves step with
  | scheduled scheduled schedules =>
      rcases scheduled.moved.state task with same | ⟨_, runs⟩
      · rw [same]
        exact runnable
      · exact runs
  | isr safe returned contract slots =>
      obtain ⟨_, effect, _⟩ := contract.effect
      rw [effect.state_of_not_blocked (by simp) notBlocked]
      exact runnable
  | call isCurrent runs may returned contract =>
      rename_i call caller kernel outcome pendsv
      obtain ⟨_, effect, _⟩ := contract.effect
      have other : some caller ≠ some task := by
        rw [← isCurrent, ← inThread call rfl]
        exact others rfl
      rw [effect.state_of_not_blocked other notBlocked]
      exact runnable
  | ret runs returns => cases returns <;> exact runnable
  | isrRet assigned => exact runnable
  | dropBox runs user live inBounds => exact runnable
  | writeBox live stored => exact runnable
  | forgetGuard runs user held => exact runnable

end SpecMachine

namespace RepMachine

variable {n : Nat} {V : Type} {config : Config n} {machine next : RtosMachine n V}
  {spec : SpecMachine n V} {action : Action V} {task : Fin n} {deadline : U64}

theorem sleeping_iff (rep : RepMachine machine spec) :
    (machine.kernel.tcb task).state = .sleeping deadline ↔
      (spec.kernel.tcb task).state = .sleeping deadline := by
  have same := rep.kernel.state task
  cases left : (machine.kernel.tcb task).state <;> cases right : (spec.kernel.tcb task).state <;>
    simp_all [TaskState.forget]

/-- What a step does to a sleeper: nothing, or a tick that finds a running task has reached
its deadline. -/
theorem sleeping_step (reachable : (system config V).Reachable machine)
    (performed : machine.perform config.idle action = some (.ok next))
    (sleeps : (machine.kernel.tcb task).state = .sleeping deadline) :
    (next.kernel.tcb task).state = .sleeping deadline ∨
      action = .tick ∧ machine.kernel.CurrentRunning ∧ deadline ≤ next.kernel.tickCount ∧
        (next.kernel.tcb task).state.isReady = true := by
  by_cases noTick : action = .tick
  · subst noTick
    obtain ⟨_, ⟨ready, runs, passed⟩ | ⟨still, _⟩⟩ := tick_sleeper reachable performed sleeps
    · exact .inr ⟨rfl, runs, passed, ready⟩
    · exact .inl still
  · obtain ⟨spec, reach, rep⟩ := exists_spec reachable
    have core := SpecMachine.core_of_reachable reach
    obtain ⟨spec', performed', rep'⟩ := rep.perform_ok core performed
    exact .inl (rep'.sleeping_iff.mpr (core.sleeping_stays (Machine.step_of_perform performed')
      noTick (rep.sleeping_iff.mp sleeps)))

/-- A tick that finds a task running wakes every sleeper whose deadline it reaches. -/
theorem tick_wakes (reachable : (system config V).Reachable machine)
    (ticked : machine.perform config.idle .tick = some (.ok next))
    (runs : machine.kernel.CurrentRunning)
    (sleeps : (machine.kernel.tcb task).state = .sleeping deadline)
    (passed : deadline ≤ next.kernel.tickCount) : (next.kernel.tcb task).state.isReady = true := by
  obtain ⟨_, ⟨ready, _, _⟩ | ⟨_, awaits⟩⟩ := tick_sleeper reachable ticked sleeps
  · exact ready
  · exact absurd passed (awaits runs)

/-- A runnable task is stopped by its own instructions only. -/
theorem runnable_step (reachable : (system config V).Reachable machine)
    (performed : machine.perform config.idle action = some (.ok next))
    (others : action.application = true → machine.threadTask ≠ some task)
    (runnable : (machine.kernel.tcb task).state.runnable = true) :
    (next.kernel.tcb task).state.runnable = true := by
  obtain ⟨spec, reach, rep⟩ := exists_spec reachable
  have core := SpecMachine.core_of_reachable reach
  obtain ⟨spec', performed', rep'⟩ := rep.perform_ok core performed
  rw [rep'.kernel.runnable task]
  rw [rep.threadTask_eq] at others
  exact core.runnable_stays (Machine.step_of_perform performed') others
    (by rwa [← rep.kernel.runnable task])

/-- A task that executes its next instruction outside a pending trigger runs. -/
theorem task_running (reachable : (system config V).Reachable machine)
    (isTask : machine.threadTask = some task) (triggered : (machine.thread task).trig = false) :
    (machine.kernel.tcb task).state.isRunning = true := by
  obtain ⟨spec, reach, rep⟩ := exists_spec reachable
  rw [rep.kernel.isRunning task]
  rw [rep.threadTask_eq] at isTask
  rw [rep.thread] at triggered
  exact (SpecMachine.core_of_reachable reach).task_running isTask triggered

/-- Only SysTick writes `TICK`. -/
theorem tickCount_step (reachable : (system config V).Reachable machine)
    (performed : machine.perform config.idle action = some (.ok next)) :
    (action = .tick → next.kernel.tickCount = machine.kernel.tickCount + 1) ∧
      (action ≠ .tick → next.kernel.tickCount = machine.kernel.tickCount) := by
  obtain ⟨spec, reach, rep⟩ := exists_spec reachable
  have core := SpecMachine.core_of_reachable reach
  obtain ⟨spec', performed', rep'⟩ := rep.perform_ok core performed
  have counted := core.tickCount (Machine.step_of_perform performed')
  rw [rep'.kernel.statics, rep.kernel.statics]
  constructor
  · rintro rfl
    exact counted
  · intro noTick
    cases action <;> first | exact counted | exact absurd rfl noTick

/-- The critical section of `sleep_until`. -/
theorem sleepUntil_step
    (performed : machine.perform config.idle (.call (.sleepUntil deadline)) = some (.ok next)) :
    ∃ owner, machine.threadTask = some owner ∧
      (next.kernel.tcb owner).state = .sleeping deadline := by
  cases Machine.step_of_perform performed with
  | call isTask notIdle triggered may returned =>
      rename_i owner kernel outcome
      obtain ⟨slept, sleepsUntil, rest⟩ := Except.ok_of_bind returned
      obtain ⟨_, _, isCurrent⟩ := Machine.threadTask_eq_some.mp isTask
      simp only [Kernel.sleepUntil, isCurrent, deref_some, Except.ok_bind] at sleepsUntil
      cases sleepsUntil
      cases rest
      exact ⟨owner, isTask, by simp⟩

end RepMachine

end Kangaroos
