import Kangaroos.Proofs.TickWork

/-!
# The task PendSV dispatches

`tick` decides with its own two scans whether a switch is due; `find_next` decides with its
search which task gets the processor. Both look at the same tasks, so a switch that `tick` asks
for leads to another task, and one it does not ask for would not lead to a more urgent one.
-/

namespace Kangaroos

namespace TaskState

variable {Link : Type}

/-- What PendSV makes of the state of the task it interrupts. -/
def saved : TaskState Link → TaskState Link
  | running slice => ready slice
  | state => state

/-- `slice_remaining`, where the state has one. -/
def sliceRemaining : TaskState Link → Option U8
  | ready slice | running slice => some slice
  | _ => none

@[simp] theorem runnable_saved (state : TaskState Link) : state.saved.runnable = state.runnable := by
  cases state <;> rfl

@[simp] theorem isRunning_saved (state : TaskState Link) : state.saved.isRunning = false := by
  cases state <;> rfl

@[simp] theorem sliceRemaining_saved (state : TaskState Link) :
    state.saved.sliceRemaining = state.sliceRemaining := by
  cases state <;> rfl

/-- A runnable task that does not run is ready. -/
theorem exists_ready {state : TaskState Link} (runnable : state.runnable = true)
    (stopped : state.isRunning = false) : ∃ slice, state = ready slice := by
  cases state with
  | ready slice => exact ⟨slice, rfl⟩
  | running slice => cases stopped
  | _ => cases runnable

end TaskState

namespace Kernel

variable {n : Nat} {V Link Head : Type} {kernel next : Kernel n V Link Head}
  {order : List (Fin n)} {current task : Fin n} {slice : U8} {sp : Word}

/-- The state after the interrupted task has been saved. -/
def saved (kernel : Kernel n V Link Head) (current : Fin n) (sp : Word) : Kernel n V Link Head :=
  kernel.modifyTcb current fun tcb => { tcb with sp, state := tcb.state.saved }

/-- The state after PendSV has replaced `current` by the ready task `task`. -/
def dispatched (kernel : Kernel n V Link Head) (current : Fin n) (sp : Word) (task : Fin n)
    (slice : U8) : Kernel n V Link Head :=
  ((kernel.saved current sp).setCurrent (some task)).setState task (.running slice)

/-- `CURRENT` is in the list, and no other task of the list runs. -/
structure Sole (kernel : Kernel n V Link Head) (order : List (Fin n)) (current : Fin n) : Prop where
  chain : Linked.Chain kernel.allLink kernel.allTasks order
  isCurrent : kernel.current = some current
  listed : current ∈ order
  alone : ∀ task ∈ order, task ≠ current → (kernel.tcb task).state.isRunning = false

theorem saveCurrent_eq (isCurrent : kernel.current = some current) :
    kernel.saveCurrent sp = .ok (kernel.saved current sp) := by
  simp only [saveCurrent, isCurrent, deref_some, Except.ok_bind, modifyTcb_tcb,
    Function.update_self, saved]
  cases runs : (kernel.tcb current).state <;> simp [modifyTcb, TaskState.saved, runs]

theorem saved_allLink (kernel : Kernel n V Link Head) (current : Fin n) (sp : Word) :
    (kernel.saved current sp).allLink = kernel.allLink :=
  modifyTcb_allLink rfl

/-- Saving leaves every task where it stands for `find_next`. -/
theorem saved_keeps (kernel : Kernel n V Link Head) (current : Fin n) (sp : Word) (task : Fin n) :
    ((kernel.saved current sp).tcb task).priority = (kernel.tcb task).priority ∧
      ((kernel.saved current sp).tcb task).timeSlice = (kernel.tcb task).timeSlice ∧
      ((kernel.saved current sp).tcb task).state.runnable = (kernel.tcb task).state.runnable ∧
      ((kernel.saved current sp).tcb task).state.sliceRemaining =
        (kernel.tcb task).state.sliceRemaining := by
  by_cases isCurrent : task = current
  · subst isCurrent
    simp [saved]
  · simp [saved, isCurrent]

theorem candidates_saved (kernel : Kernel n V Link Head) (current : Fin n) (sp : Word)
    (order : List (Fin n)) :
    (kernel.saved current sp).candidates order = kernel.candidates order := by
  unfold candidates
  congr 1
  funext task
  exact (kernel.saved_keeps current sp task).2.2.1

theorem priorityOf_saved (kernel : Kernel n V Link Head) (current : Fin n) (sp : Word) :
    (kernel.saved current sp).priorityOf = kernel.priorityOf :=
  funext fun task => (kernel.saved_keeps current sp task).1

/-- The dispatched task runs with the slice it had; nothing else of any task changes but the
stack pointer of the interrupted one. -/
theorem dispatched_keeps (ready : ((kernel.saved current sp).tcb task).state = .ready slice)
    (other : Fin n) :
    ((kernel.dispatched current sp task slice).tcb other).priority = (kernel.tcb other).priority ∧
      ((kernel.dispatched current sp task slice).tcb other).timeSlice =
        (kernel.tcb other).timeSlice ∧
      ((kernel.dispatched current sp task slice).tcb other).state.runnable =
        (kernel.tcb other).state.runnable ∧
      ((kernel.dispatched current sp task slice).tcb other).state.sliceRemaining =
        (kernel.tcb other).state.sliceRemaining := by
  obtain ⟨priority, timeSlice, runnable, remaining⟩ := kernel.saved_keeps current sp other
  rw [← priority, ← timeSlice, ← runnable, ← remaining]
  by_cases isTask : other = task
  · subst isTask
    rw [ready]
    exact ⟨by simp [dispatched], by simp [dispatched], by simp [dispatched, TaskState.runnable],
      by simp [dispatched, TaskState.sliceRemaining]⟩
  · simp [dispatched, isTask]

/-- `pendsv_save_and_switch` dispatches the first of the most urgent candidates. -/
theorem Sole.dispatches (sole : kernel.Sole order current) (sp : Word)
    (occupied : ∃ task ∈ order, (kernel.tcb task).state.runnable = true) :
    ∃ task slice, FirstMin kernel.priorityOf (kernel.candidates order) task ∧
      ((kernel.saved current sp).tcb task).state = .ready slice ∧
      kernel.pendsvSaveAndSwitch sp =
        .ok (kernel.dispatched current sp task slice,
          ((kernel.dispatched current sp task slice).tcb task).sp) := by
  have chain : Linked.Chain (kernel.saved current sp).allLink kernel.allTasks order := by
    rw [saved_allLink]
    exact sole.chain
  have listed : ∀ other, kernel.current = some other → other ∈ order := by
    intro other isOther
    obtain rfl : current = other := Option.some.inj (sole.isCurrent.symm.trans isOther)
    exact sole.listed
  have found : (∃ task, (kernel.saved current sp).findNext = .ok task ∧
      FirstMin kernel.priorityOf (kernel.candidates order) task) ∨
      (kernel.saved current sp).findNext = .error .noReadyTask ∧ kernel.candidates order = [] := by
    rw [← kernel.candidates_saved current sp, ← kernel.priorityOf_saved current sp]
    exact findNext_found chain listed
  obtain ⟨task, returned, first⟩ | ⟨_, empty⟩ := found
  · obtain ⟨member, runnable⟩ := mem_candidates.mp first.mem
    have stopped : ((kernel.saved current sp).tcb task).state.isRunning = false := by
      by_cases isCurrent : task = current
      · subst isCurrent
        simp [saved]
      · simpa [saved, isCurrent] using sole.alone task member isCurrent
    rw [← (kernel.saved_keeps current sp task).2.2.1] at runnable
    obtain ⟨slice, ready⟩ := TaskState.exists_ready runnable stopped
    refine ⟨task, slice, first, ready, ?_⟩
    simp only [pendsvSaveAndSwitch, saveCurrent_eq sole.isCurrent, Except.ok_bind, returned,
      markRunning, modifyStatics_tcb, ready]
    rfl
  · obtain ⟨task, member, runnable⟩ := occupied
    have candidate := mem_candidates.mpr ⟨member, runnable⟩
    rw [empty] at candidate
    cases candidate

/-- After the switch the dispatched task is the one that runs. -/
theorem Sole.dispatched (sole : kernel.Sole order current) (listed : task ∈ order)
    (ready : ((kernel.saved current sp).tcb task).state = .ready slice) :
    (kernel.dispatched current sp task slice).Sole order task where
  chain := by
    have links : (kernel.dispatched current sp task slice).allLink = kernel.allLink :=
      (setState_allLink _ _ _).trans (saved_allLink kernel current sp)
    rw [links]
    exact sole.chain
  isCurrent := rfl
  listed := listed
  alone other member different := by
    by_cases isCurrent : other = current
    · subst isCurrent
      simp [Kernel.dispatched, saved, different]
    · simpa [Kernel.dispatched, saved, different, isCurrent] using
        sole.alone other member isCurrent

/-- A tick keeps the list, and `CURRENT` the only task that runs. -/
theorem Sole.ticked {preempt : Bool} (sole : kernel.Sole order current)
    (runs : (kernel.tcb current).state = .running slice) (returned : kernel.tick = .ok (next, preempt)) :
    next.Sole order current ∧ (next.tcb current).state.isRunning = true ∧
      TickWork kernel order current slice next preempt := by
  obtain ⟨result, ticks, ticked⟩ := tick_running sole.chain sole.isCurrent runs
  obtain rfl : result = (next, preempt) := Except.ok.inj (ticks.symm.trans returned)
  obtain ⟨_, _, same, links, head⟩ := tick_returns sole.chain
  cases same.symm.trans returned
  have work := ticked.work
  refine ⟨⟨?_, ?_, sole.listed, fun task member different => ?_⟩, ?_, work⟩
  · rw [links, head]
    exact sole.chain
  · exact (congrArg Statics.current ticked.others.1).trans sole.isCurrent
  · by_cases overdue : kernel.Overdue (kernel.tickCount + 1) task
    · rw [work.woken task member different overdue]
      rfl
    · rw [work.others task different fun due => overdue due.2]
      exact sole.alone task member different
  · by_cases outranked : next.Outranked order current
    · rw [(work.preempted outranked).2, runs]
      rfl
    · by_cases used : slice.val ≤ 1
      · rw [(work.reloaded outranked used).2]
        rfl
      · rw [(work.counted outranked (not_le.mp used)).2]
        rfl

/-- `tick` asks for a switch because of a ready task that is no less urgent. -/
theorem TickWork.cases {preempt : Bool}
    (work : TickWork kernel order current slice next preempt) :
    preempt = true ∧ (∃ other ∈ order, other ≠ current ∧ (next.tcb other).state.isReady = true ∧
        next.priorityOf other ≤ next.priorityOf current) ∨
      preempt = false ∧ ¬ next.Outranked order current := by
  by_cases outranked : next.Outranked order current
  · have set := (work.preempted outranked).1
    obtain ⟨other, member, different, ready, urgent⟩ := outranked
    exact .inl ⟨set, other, member, different, ready, urgent.le⟩
  · by_cases used : slice.val ≤ 1
    · cases preempt with
      | true =>
          obtain ⟨other, member, different, ready, same⟩ := (work.reloaded outranked used).1.mp rfl
          exact .inl ⟨rfl, other, member, different, ready, same.le⟩
      | false => exact .inr ⟨rfl, outranked⟩
    · exact .inr ⟨(work.counted outranked (not_le.mp used)).1, outranked⟩

/-- A switch that `tick` asks for dispatches another task, no less urgent; where it asks for
none, no ready task is more urgent and a switch would dispatch one of the same priority. -/
theorem tick_switches (sole : kernel.Sole order current)
    (runs : (kernel.tcb current).state.isRunning = true) :
    ∃ next preempt, kernel.tick = .ok (next, preempt) ∧
      (preempt = false → ∀ other ∈ order, (next.tcb other).state.isReady = true →
        next.priorityOf current ≤ next.priorityOf other) ∧
      ∀ sp, ∃ task after, next.pendsvSaveAndSwitch sp = .ok (after, (after.tcb task).sp) ∧
        after.current = some task ∧ (after.tcb task).state.isRunning = true ∧
        (preempt = true → task ≠ current ∧ next.priorityOf task ≤ next.priorityOf current) ∧
        (preempt = false → next.priorityOf task = next.priorityOf current) := by
  obtain ⟨slice, runs⟩ := TaskState.isRunning_iff.mp runs
  obtain ⟨next, preempt, returned, _, _⟩ := tick_returns sole.chain
  obtain ⟨soleNext, runsNext, work⟩ := sole.ticked runs returned
  have runnable : (next.tcb current).state.runnable = true := by
    rw [TaskState.runnable, runsNext, Bool.or_true]
  have least : ¬ next.Outranked order current → ∀ other ∈ order,
      (next.tcb other).state.runnable = true → next.priorityOf current ≤ next.priorityOf other := by
    intro leading other member runnableOther
    by_cases same : other = current
    · rw [same]
    · obtain ⟨left, ready⟩ :=
        TaskState.exists_ready runnableOther (soleNext.alone other member same)
      exact not_lt.mp fun less => leading ⟨other, member, same, by rw [ready]; rfl, less⟩
  refine ⟨next, preempt, returned, fun unset other member ready => ?_, fun sp => ?_⟩
  · obtain ⟨set, _⟩ | ⟨_, leading⟩ := work.cases
    · cases set.symm.trans unset
    · exact least leading other member (by rw [TaskState.runnable, ready, Bool.true_or])
  · obtain ⟨task, left, first, ready, switches⟩ :=
      soleNext.dispatches sp ⟨current, sole.listed, runnable⟩
    obtain ⟨member, runnableTask⟩ := mem_candidates.mp first.mem
    have noLess : next.priorityOf task ≤ next.priorityOf current :=
      first.le (mem_candidates.mpr ⟨sole.listed, runnable⟩)
    refine ⟨task, _, switches, rfl, by simp [Kernel.dispatched], ?_, fun unset => ?_⟩
    · rintro rfl
      refine ⟨?_, noLess⟩
      rintro rfl
      -- `CURRENT` would have been passed over for the task that `tick` has seen
      obtain ⟨_, other, inList, different, readyOther, rivals⟩ | ⟨unset, _⟩ := work.cases
      · have candidate : other ∈ next.candidates order :=
          mem_candidates.mpr ⟨inList, by rw [TaskState.runnable, readyOther, Bool.true_or]⟩
        have less := current_sole soleNext.chain soleNext.isCurrent member first other candidate
          different
        exact absurd rivals (not_le.mpr less)
      · cases unset
    · obtain ⟨set, _⟩ | ⟨_, leading⟩ := work.cases
      · cases set.symm.trans unset
      · exact le_antisymm noLess (least leading task member runnableTask)

/-- Task 3 runs with one tick left and task 2 has its priority. -/
theorem tick_switches_small : ∃ kernel small : Rtos 4 Nat,
    (Config.small 20 10 10).boot Nat (TcbPtr 4) (TcbPtr 4) = .ok kernel ∧
    small = (kernel.setCurrent (some 3)).setState 3 (.running 1) ∧
    ∃ next preempt, small.tick = .ok (next, preempt) ∧
      ∀ sp, ∃ task after, next.pendsvSaveAndSwitch sp = .ok (after, (after.tcb task).sp) ∧
        after.current = some task ∧ (preempt = true → task ≠ 3) := by
  obtain ⟨kernel, small, boot, isSmall, sole, runs⟩ : ∃ kernel small : Rtos 4 Nat,
      (Config.small 20 10 10).boot Nat (TcbPtr 4) (TcbPtr 4) = .ok kernel ∧
      small = (kernel.setCurrent (some 3)).setState 3 (.running 1) ∧
      small.Sole [0, 3, 2, 1] 3 ∧ (small.tcb 3).state.isRunning = true :=
    ⟨_, _, rfl, rfl, ⟨⟨rfl, rfl, rfl, rfl, rfl⟩, rfl, by decide, by decide⟩, rfl⟩
  obtain ⟨next, preempt, ticks, _, switches⟩ := tick_switches sole runs
  refine ⟨kernel, small, boot, isSmall, next, preempt, ticks, fun sp => ?_⟩
  obtain ⟨task, after, switched, isCurrent, _, other, _⟩ := switches sp
  exact ⟨task, after, switched, isCurrent, fun set => (other set).1⟩

end Kernel

end Kangaroos
