import Kangaroos.Proofs.TaskRegistry

/-!
# Sleepers and the tick

`tick` compares the counter with every deadline, but only when `CURRENT` is running. While
`CURRENT` has given up the processor and PendSV has not switched away from it, a tick leaves
every sleeper asleep, whatever its deadline.
-/

namespace Kangaroos

namespace Kernel

variable {n : Nat} {V Link Head : Type} {kernel : Kernel n V Link Head} {order : List (Fin n)}

/-- A task sleeps although its deadline has come. -/
def Overdue (kernel : Kernel n V Link Head) (now : U64) (task : Fin n) : Prop :=
  ∃ deadline, (kernel.tcb task).state = .sleeping deadline ∧ deadline ≤ now

/-- No task but the current one is overdue. -/
def SleepersWoken (kernel : Kernel n V Link Head) : Prop :=
  ∀ task, kernel.current ≠ some task → ¬ kernel.Overdue kernel.tickCount task

/-- The current task is in Thread mode and runs. -/
def CurrentRunning (kernel : Kernel n V Link Head) : Prop :=
  ∃ current, kernel.current = some current ∧ (kernel.tcb current).state.isRunning = true

/-- What `tick` does to sleepers. -/
theorem tick_sleepers {next : Kernel n V Link Head} {preempt : Bool}
    (chain : Linked.Chain kernel.allLink kernel.allTasks order)
    (returned : kernel.tick = .ok (next, preempt)) :
    next.current = kernel.current ∧ next.tickCount = kernel.tickCount + 1 ∧
      (kernel.CurrentRunning → ∀ task ∈ order, kernel.current ≠ some task →
        ¬ next.Overdue next.tickCount task) ∧
      (¬ kernel.CurrentRunning → next.tcb = kernel.tcb) ∧
      ∀ task, kernel.current ≠ some task →
        next.tcb task = kernel.tcb task ∨ kernel.Overdue (kernel.tickCount + 1) task ∧
          (next.tcb task).state.isReady = true := by
  obtain ⟨current, slice, isCurrent, runs⟩ | stopped := kernel.running_or_stopped
  · obtain ⟨result, ticked, ticks⟩ := tick_running chain isCurrent runs
    obtain rfl : result = (next, preempt) := Except.ok.inj (ticked.symm.trans returned)
    obtain ⟨statics, _, others⟩ := ticks.others
    have clock : next.tickCount = kernel.tickCount + 1 := congrArg Statics.tickCount statics
    have woken : ∀ task, kernel.current ≠ some task → next.tcb task =
        if task ∈ order then (kernel.tcb task).wake (kernel.tickCount + 1) else kernel.tcb task := by
      intro task notCurrent
      have different : task ≠ current := by
        rintro rfl
        exact notCurrent isCurrent
      rw [show next.tcb task = _ from others task different, wakeAll_tcb]
      simp only [ne_eq, different, not_false_eq_true, and_true]
      rfl
    refine ⟨(congrArg Statics.current statics :), clock, fun _ task member notCurrent => ?_,
      fun idle => absurd ⟨current, isCurrent, by rw [runs]; rfl⟩ idle, fun task notCurrent => ?_⟩
    · unfold Kernel.Overdue
      rw [woken task notCurrent, if_pos member, clock]
      exact Tcb.not_overdue_wake _ _
    · rw [woken task notCurrent]
      split
      · obtain ⟨overdue, wakes⟩ | ⟨_, same⟩ := Tcb.wake_cases (kernel.tickCount + 1) (kernel.tcb task)
        · exact .inr ⟨overdue, by rw [wakes]; rfl⟩
        · exact .inl same
      · exact .inl rfl
  · cases (tick_stopped stopped).symm.trans returned
    refine ⟨rfl, rfl, ?_, fun _ => rfl, fun _ _ => .inl rfl⟩
    rintro ⟨current, isCurrent, runs⟩
    simp [stopped current isCurrent] at runs

end Kernel

namespace RepMachine

variable {n : Nat} {V : Type} {config : Config n} {machine next : RtosMachine n V}

/-- The tick is one step of the machine. -/
theorem tick_ok (ticked : machine.perform config.idle .tick = some (.ok next)) :
    ∃ preempt, machine.kernel.tick = .ok (next.kernel, preempt) := by
  obtain ⟨⟨kernel, preempt⟩, returned, rest⟩ := Except.ok_of_bind (Option.some.inj ticked)
  cases rest
  exact ⟨preempt, returned⟩

/-- What a tick does to a sleeper: it wakes it when it finds a task running and reaches the
deadline, and else lets it sleep. -/
theorem tick_sleeper (reachable : (system config V).Reachable machine)
    (ticked : machine.perform config.idle .tick = some (.ok next)) {task : Fin n} {deadline : U64}
    (sleeps : (machine.kernel.tcb task).state = .sleeping deadline) :
    next.kernel.tickCount = machine.kernel.tickCount + 1 ∧
      ((next.kernel.tcb task).state.isReady = true ∧ machine.kernel.CurrentRunning ∧
          deadline ≤ next.kernel.tickCount ∨
        (next.kernel.tcb task).state = .sleeping deadline ∧
          (machine.kernel.CurrentRunning → ¬deadline ≤ next.kernel.tickCount)) := by
  obtain ⟨chain, _, spawned⟩ := registry reachable
  obtain ⟨preempt, returned⟩ := tick_ok ticked
  obtain ⟨_, clock, wakes, idles, due⟩ := Kernel.tick_sleepers chain returned
  refine ⟨clock, ?_⟩
  by_cases runs : machine.kernel.CurrentRunning
  · have notCurrent : machine.kernel.current ≠ some task := by
      obtain ⟨current, isCurrent, running⟩ := runs
      rw [isCurrent]
      rintro isTask
      obtain rfl := Option.some.inj isTask
      simp [sleeps] at running
    have listed : task ∈ config.order := spawned task (by simp [sleeps])
    rcases due task notCurrent with same | ⟨⟨other, until_, passed⟩, ready⟩
    · have still : (next.kernel.tcb task).state = .sleeping deadline := by rw [same, sleeps]
      exact .inr ⟨still, fun _ passed => wakes runs task listed notCurrent ⟨deadline, still, passed⟩⟩
    · obtain rfl : deadline = other := by simpa [sleeps] using until_
      exact .inl ⟨ready, runs, clock ▸ passed⟩
  · exact .inr ⟨by rw [idles runs, sleeps], fun running => absurd running runs⟩

/-- A tick leaves a task overdue exactly when it meets `CURRENT` not running and a deadline
that has come. After the launch `CURRENT` is not running from the critical section that blocks
it, puts it to sleep or ends it until PendSV has dispatched the next task. -/
theorem sleepers_woken_iff (reachable : (system config V).Reachable machine)
    (ticked : machine.perform config.idle .tick = some (.ok next)) :
    next.kernel.SleepersWoken ↔ machine.kernel.CurrentRunning ∨
      ∀ task, machine.kernel.current ≠ some task →
        ¬ machine.kernel.Overdue (machine.kernel.tickCount + 1) task := by
  obtain ⟨chain, _, _⟩ := registry reachable
  obtain ⟨_, _, spawned⟩ := registry (.step reachable ticked)
  obtain ⟨preempt, returned⟩ := tick_ok ticked
  obtain ⟨sameCurrent, clock, wakes, idles, _⟩ := Kernel.tick_sleepers chain returned
  unfold Kernel.SleepersWoken
  rw [sameCurrent]
  by_cases runs : machine.kernel.CurrentRunning
  · refine ⟨fun _ => .inl runs, fun _ task notCurrent overdue => ?_⟩
    obtain ⟨deadline, sleeps, due⟩ := overdue
    have listed : task ∈ config.order := spawned task (by simp [sleeps])
    exact wakes runs task listed notCurrent ⟨deadline, sleeps, due⟩
  · -- nothing but the counter has changed
    unfold Kernel.Overdue
    rw [idles runs, clock]
    exact ⟨.inr, fun quiet => quiet.resolve_left runs⟩

/-- Task 1 sleeps for one tick and task 2 is dispatched. -/
def sleepOneTick : List (Action Unit) :=
  [.launch, .call (.sleep 1)] ++ Config.thenSwitch (.sleepUntil 1)

/-- The tick finds task 2 running, and task 1 is woken. -/
theorem sleepers_woken_iff_running : ∃ machine next : RtosMachine 4 Unit,
    (machine.kernel.tcb 1).state = .sleeping 1 ∧ machine.perform 0 .tick = some (.ok next) ∧
    next.kernel.SleepersWoken := by
  let check (machine : RtosMachine 4 Unit) : Bool :=
    (machine.kernel.tcb 1).state = .sleeping 1 ∧ machine.kernel.current = some 2 ∧
    (machine.kernel.tcb 2).state.isRunning = true ∧
    machine.performPasses 0 .tick (fun _ => true) = true
  obtain ⟨machine, reachable, checked⟩ := Machine.exists_of_check sleepOneTick check
    (by decide +kernel : (Config.small 10 20 30).passes Unit _ _ sleepOneTick check = true)
  obtain ⟨sleeps, isCurrent, runs, performs⟩ := of_decide_eq_true checked
  obtain ⟨next, performed, _⟩ := Machine.exists_of_performPasses performs
  exact ⟨machine, next, sleeps, performed,
    (sleepers_woken_iff reachable performed).mpr (.inl ⟨2, isCurrent, runs⟩)⟩

/-- Task 2 has just blocked, and PendSV has not yet been triggered, when the tick arrives that
task 1 sleeps for. -/
theorem not_sleepers_woken_while_switching :
    ¬∀ machine next : RtosMachine 4 Unit,
      (system (Config.small 10 20 30) Unit).Reachable machine → machine.kernel.current ≠ none →
      machine.perform 0 .tick = some (.ok next) → next.kernel.SleepersWoken := by
  intro always
  let actions : List (Action Unit) := sleepOneTick ++ [.call (.take 0)]
  let late (next : RtosMachine 4 Unit) : Bool :=
    next.kernel.current = some 2 ∧ next.kernel.tickCount = 1 ∧
    (next.kernel.tcb 1).state = .sleeping 1
  let check (machine : RtosMachine 4 Unit) : Bool :=
    machine.kernel.current = some 2 ∧
    machine.performPasses 0 .tick late = true
  obtain ⟨machine, reachable, checked⟩ := Machine.exists_of_check actions check
    (by decide +kernel : (Config.small 10 20 30).passes Unit _ _ actions check = true)
  obtain ⟨isCurrent, performs⟩ := of_decide_eq_true checked
  obtain ⟨next, performed, isLate⟩ := Machine.exists_of_performPasses performs
  obtain ⟨stillCurrent, clock, sleeps⟩ := of_decide_eq_true isLate
  refine always machine next reachable (by simp [isCurrent]) performed 1 (by simp [stillCurrent])
    ⟨1, sleeps, ?_⟩
  rw [clock]

end RepMachine

end Kangaroos
