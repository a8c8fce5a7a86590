import Kangaroos.Proofs.Sleepers

/-!
# The work of one tick

`tick` wakes and looks for rivals in one loop, so whether it sees a rival could depend on where
in the list a sleeper stands. It does not: the answer is that of a scan after all sleepers due
have been woken. The slice of `CURRENT` is only counted when there is no rival.
-/

namespace Kangaroos

namespace Kernel

variable {n : Nat} {V Link Head : Type} {kernel next : Kernel n V Link Head}
  {order : List (Fin n)} {current : Fin n} {slice : U8} {preempt : Bool}

/-- A task of the list other than `current` is ready and more urgent than it. -/
def Outranked (kernel : Kernel n V Link Head) (order : List (Fin n)) (current : Fin n) : Prop :=
  ∃ other ∈ order, other ≠ current ∧ (kernel.tcb other).state.isReady = true ∧
    (kernel.tcb other).priority < (kernel.tcb current).priority

/-- A task of the list other than `current` is ready at its priority. -/
def Shared (kernel : Kernel n V Link Head) (order : List (Fin n)) (current : Fin n) : Prop :=
  ∃ other ∈ order, other ≠ current ∧ (kernel.tcb other).state.isReady = true ∧
    (kernel.tcb other).priority = (kernel.tcb current).priority

/-- What `tick` makes of a state in which `current` runs with `slice` ticks left. -/
structure TickWork (kernel : Kernel n V Link Head) (order : List (Fin n)) (current : Fin n)
    (slice : U8) (next : Kernel n V Link Head) (preempt : Bool) : Prop where
  woken : ∀ task ∈ order, task ≠ current → kernel.Overdue (kernel.tickCount + 1) task →
    next.tcb task = { kernel.tcb task with state := .ready (kernel.tcb task).timeSlice }
  others : ∀ task, task ≠ current → ¬ (task ∈ order ∧ kernel.Overdue (kernel.tickCount + 1) task) →
    next.tcb task = kernel.tcb task
  preempted : next.Outranked order current → preempt = true ∧ next.tcb current = kernel.tcb current
  counted : ¬ next.Outranked order current → 1 < slice.val → preempt = false ∧
    next.tcb current = { kernel.tcb current with state := .running (slice - 1) }
  reloaded : ¬ next.Outranked order current → slice.val ≤ 1 →
    (preempt = true ↔ next.Shared order current) ∧
    next.tcb current = { kernel.tcb current with state := .running (kernel.tcb current).timeSlice }

/-- Only the TCBs of the other tasks and the priority of `current` matter to the scans. -/
theorem outranked_iff {woken : Kernel n V Link Head}
    (others : ∀ task, task ≠ current → next.tcb task = woken.tcb task)
    (priority : (next.tcb current).priority = (woken.tcb current).priority) :
    next.Outranked order current ↔
      woken.rival current (woken.tcb current).priority order = true := by
  rw [rival_iff, Outranked, priority]
  refine exists_congr fun task => and_congr_right fun _ => and_congr_right fun different => ?_
  rw [others task different]

theorem shared_iff {woken : Kernel n V Link Head}
    (others : ∀ task, task ≠ current → next.tcb task = woken.tcb task)
    (priority : (next.tcb current).priority = (woken.tcb current).priority) :
    next.Shared order current ↔ woken.peer current (woken.tcb current).priority order = true := by
  rw [peer_iff, Shared, priority]
  refine exists_congr fun task => and_congr_right fun _ => and_congr_right fun different => ?_
  rw [others task different]

/-- The three exits of `tick` do that work. -/
theorem TickResult.work (ticks : TickResult order current slice
    (kernel.countTick.wakeAll (kernel.tickCount + 1) current order) (next, preempt)) :
    TickWork kernel order current slice next preempt := by
  obtain ⟨woken, isWoken⟩ : ∃ woken, woken =
    kernel.countTick.wakeAll (kernel.tickCount + 1) current order := ⟨_, rfl⟩
  have sameCurrent : woken.tcb current = kernel.tcb current := by
    rw [isWoken, wakeAll_current]
    rfl
  have visited : ∀ task, task ≠ current → woken.tcb task =
      if task ∈ order then (kernel.tcb task).wake (kernel.tickCount + 1) else kernel.tcb task := by
    intro task different
    rw [isWoken, wakeAll_tcb]
    simp only [ne_eq, different, not_false_eq_true, and_true]
    rfl
  rw [← isWoken] at ticks
  obtain ⟨_, _, others⟩ := ticks.others
  have priority : (next.tcb current).priority = (woken.tcb current).priority := by
    cases ticks with
    | preempts urgent => rfl
    | counts quiet remains => simp
    | expires quiet used => simp
  refine ⟨?_, ?_, ?_, ?_, ?_⟩
  · intro task member different overdue
    rw [show next.tcb task = _ from others task different, visited task different, if_pos member]
    exact Tcb.wake_of_overdue overdue
  · intro task different exempt
    rw [show next.tcb task = _ from others task different, visited task different]
    split
    · rename_i member
      exact Tcb.wake_of_not_overdue fun overdue => exempt ⟨member, overdue⟩
    · rfl
  · intro outranked
    have urgent := (outranked_iff others priority).mp outranked
    cases ticks with
    | preempts _ => exact ⟨rfl, sameCurrent⟩
    | counts quiet remains => exact absurd (urgent.symm.trans quiet) (by simp)
    | expires quiet used => exact absurd (urgent.symm.trans quiet) (by simp)
  · intro leading remains
    cases ticks with
    | preempts urgent => exact absurd ((outranked_iff others priority).mpr urgent) leading
    | counts quiet _ => exact ⟨rfl, by simp [sameCurrent]⟩
    | expires quiet used => omega
  · intro leading used
    rw [shared_iff others priority]
    cases ticks with
    | preempts urgent => exact absurd ((outranked_iff others priority).mpr urgent) leading
    | counts quiet remains => omega
    | expires quiet _ => exact ⟨.rfl, by simp [sameCurrent]⟩

/-- No priority changes. -/
theorem TickWork.priority_eq (work : TickWork kernel order current slice next preempt)
    (task : Fin n) : (next.tcb task).priority = (kernel.tcb task).priority := by
  by_cases isCurrent : task = current
  · subst isCurrent
    by_cases outranked : next.Outranked order task
    · rw [(work.preempted outranked).2]
    · by_cases used : slice.val ≤ 1
      · rw [(work.reloaded outranked used).2]
      · rw [(work.counted outranked (not_le.mp used)).2]
  · by_cases overdue : task ∈ order ∧ kernel.Overdue (kernel.tickCount + 1) task
    · rw [work.woken task overdue.1 isCurrent overdue.2]
    · rw [work.others task isCurrent overdue]

/-- `tick` advances `TICK`, and while `CURRENT` runs it wakes the sleepers that are due, asks
for a switch when `CURRENT` is outranked, and otherwise counts its slice; it always ends. -/
theorem tick_works (chain : Linked.Chain kernel.allLink kernel.allTasks order) :
    ∃ next preempt, kernel.tick = .ok (next, preempt) ∧
      next.toStatics = { kernel.toStatics with tickCount := kernel.tickCount + 1 } ∧
      next.waitHead = kernel.waitHead ∧
      (¬ kernel.CurrentRunning → next.tcb = kernel.tcb ∧ preempt = false) ∧
      ∀ current slice, kernel.current = some current →
        (kernel.tcb current).state = .running slice →
        TickWork kernel order current slice next preempt := by
  obtain ⟨current, slice, isCurrent, runs⟩ | stopped := kernel.running_or_stopped
  · obtain ⟨⟨next, preempt⟩, returned, ticks⟩ := tick_running chain isCurrent runs
    obtain ⟨statics, waitHead, _⟩ := ticks.others
    have running : kernel.CurrentRunning := ⟨current, isCurrent, by rw [runs]; rfl⟩
    refine ⟨next, preempt, returned, statics, waitHead, absurd running, ?_⟩
    intro other left isOther runsOther
    obtain rfl : current = other := Option.some.inj (isCurrent.symm.trans isOther)
    obtain rfl : slice = left := TaskState.running.inj (runs.symm.trans runsOther)
    exact ticks.work
  · refine ⟨_, _, tick_stopped stopped, rfl, rfl, fun _ => ⟨rfl, rfl⟩, ?_⟩
    intro current slice isCurrent runs
    have contradiction := stopped current isCurrent
    rw [runs] at contradiction
    cases contradiction

/-- Task 3 runs with one tick left while the equally urgent task 2 sleeps until that tick. -/
theorem tick_works_small : ∃ kernel small next : Rtos 4 Nat,
    (Config.small 20 10 10).boot Nat (TcbPtr 4) (TcbPtr 4) = .ok kernel ∧
    small = ((kernel.setCurrent (some 3)).setState 3 (.running 1)).setState 2 (.sleeping 1) ∧
    small.tick = .ok (next, true) ∧ (next.tcb 2).state = .ready 5 ∧
    (next.tcb 3).state = .running 5 := by
  obtain ⟨kernel, small, boot, isSmall, chain, isCurrent, runs, sleeps, slices, least, same⟩ :
      ∃ kernel small : Rtos 4 Nat, (Config.small 20 10 10).boot Nat (TcbPtr 4) (TcbPtr 4) = .ok kernel ∧
      small = ((kernel.setCurrent (some 3)).setState 3 (.running 1)).setState 2 (.sleeping 1) ∧
      Linked.Chain small.allLink small.allTasks [0, 3, 2, 1] ∧ small.current = some 3 ∧
      (small.tcb 3).state = .running 1 ∧ small.Overdue (small.tickCount + 1) 2 ∧
      (∀ task ∈ [2, 3], (small.tcb task).timeSlice = 5) ∧
      (∀ task, (small.tcb 3).priority ≤ (small.tcb task).priority) ∧
      (small.tcb 2).priority = (small.tcb 3).priority :=
    ⟨_, _, rfl, rfl, ⟨rfl, rfl, rfl, rfl, rfl⟩, rfl, rfl, ⟨1, rfl, by decide⟩, by decide, by decide, rfl⟩
  obtain ⟨next, preempt, returned, statics, _, _, works⟩ := tick_works chain
  have work := works 3 1 isCurrent runs
  have woken := work.woken 2 (by decide) (by decide) sleeps
  have leading : ¬ next.Outranked [0, 3, 2, 1] 3 := by
    rintro ⟨other, listed, different, _, urgent⟩
    rw [work.priority_eq, work.priority_eq] at urgent
    exact absurd urgent (not_lt.mpr (least other))
  obtain ⟨switches, reloaded⟩ := work.reloaded leading le_rfl
  have shared : next.Shared [0, 3, 2, 1] 3 :=
    ⟨2, by decide, by decide, by rw [woken]; rfl, by rw [work.priority_eq, work.priority_eq, same]⟩
  obtain rfl := switches.mpr shared
  exact ⟨kernel, small, next, boot, isSmall, returned, by rw [woken, (slices 2 (by decide))],
    by rw [reloaded, slices 3 (by decide)]⟩

end Kernel

end Kangaroos
