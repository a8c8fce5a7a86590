import Kangaroos.Proofs.WaitLists
import Kangaroos.Refine.WaitChain

/-!
# What `wait_list_pop_highest` removes

The first of the most urgent tasks of a list is unlinked, by one write: to the head, or to the
link of the task in front of it.
-/

namespace Kangaroos

variable {n : Nat} {V : Type} {kernel after : Rtos n V} {list : WaitList}
  {tasks before behind : List (Fin n)} {best : Fin n}

/-- One link has been redirected to `target`: the head of the list, or the link of the last of
the tasks in front. -/
structure Rtos.Redirected (list : WaitList) (before : List (Fin n)) (target : TcbPtr n)
    (kernel after : Rtos n V) : Prop where
  statics : after.toStatics = kernel.toStatics
  heads : ∀ other, other ≠ list → after.waitHead other = kernel.waitHead other
  atHead : before.getLast? = none → after.waitHead list = target ∧ after.tcb = kernel.tcb
  atTask : ∀ previous, before.getLast? = some previous →
    after.waitHead list = kernel.waitHead list ∧
      after.tcb previous = { kernel.tcb previous with state := .blocked target } ∧
      ∀ other, other ≠ previous → after.tcb other = kernel.tcb other

/-- Unlinking a task redirects the link to it. -/
theorem Kernel.WaitChain.redirected (waits : kernel.WaitChain list (before ++ best :: behind)) :
    Rtos.Redirected list before (kernel.waitLink best) kernel
      (kernel.unlinkBehind list before.getLast? (kernel.waitLink best)) := by
  cases last : before.getLast? with
  | none =>
      refine ⟨rfl, fun other different => ?_, fun _ => ⟨?_, rfl⟩, ?_⟩
      · simp [Rtos.unlinkBehind, different]
      · simp [Rtos.unlinkBehind]
      · simp [last]
  | some previous =>
      have member : previous ∈ before := List.mem_of_getLast? last
      have isBlocked := waits.blocked previous (by simp [member])
      rw [Rtos.unlinkBehind, Rtos.setWaitNext_of_isBlocked isBlocked]
      refine ⟨rfl, fun _ _ => rfl, by simp [last], fun other isLast => ?_⟩
      obtain rfl : previous = other := Option.some.inj (last.symm.trans isLast)
      exact ⟨rfl, by simp, fun other different => by simp [different]⟩

namespace Rtos

/-- `wait_list_pop_highest` terminates on every list of blocked tasks. An empty list stays as it
is. Otherwise the first of the most urgent tasks is returned, the list holds the others in their
order, and one link has been written. -/
theorem wait_list_pop_highest_removes (waits : kernel.WaitChain list tasks) :
    (tasks = [] → kernel.waitListPopHighest list = .ok (kernel, none)) ∧
    (tasks ≠ [] → ∃ before best behind after, tasks = before ++ best :: behind ∧
      kernel.waitListPopHighest list = .ok (after, some best) ∧
      (∀ other ∈ before, (kernel.tcb best).priority < (kernel.tcb other).priority) ∧
      (∀ other ∈ behind, (kernel.tcb best).priority ≤ (kernel.tcb other).priority) ∧
      after.WaitChain list (before ++ behind) ∧
      Redirected list before behind.head? kernel after) := by
  constructor
  · rintro rfl
    exact waits.pop_nil
  · intro nonempty
    obtain ⟨best, before, behind, rfl, earlier, later⟩ :=
      FirstMin.exists_of_ne_nil (fun task => (kernel.tcb task).priority) nonempty
    refine ⟨before, best, behind, _, rfl, waits.pop_eq earlier later, earlier, later,
      waits.unlinkBehind, ?_⟩
    rw [← waits.chain.split.eq_head?]
    exact waits.redirected

/-- Three tasks have blocked on a semaphore; the most urgent one blocked first. -/
theorem wait_list_pop_highest_removes_last : ∃ kernel after : Rtos 4 Unit,
    kernel.waitHead (.semaphore 0) = some 3 ∧
    kernel.waitListPopHighest (.semaphore 0) = .ok (after, some 2) ∧
    after.WaitChain (.semaphore 0) [3, 1] := by
  let check (machine : RtosMachine 4 Unit) : Bool :=
    (machine.kernel.waitHead (.semaphore 0) = some 3 ∧ machine.kernel.waitLink 3 = some 1 ∧
      machine.kernel.waitLink 1 = some 2 ∧ machine.kernel.waitLink 2 = none) ∧
    (∀ task ∈ [3, 1, 2], (machine.kernel.tcb task).state.isBlocked = true) ∧
    ∀ task ∈ [3, 1], (machine.kernel.tcb 2).priority < (machine.kernel.tcb task).priority
  obtain ⟨machine, _, checked⟩ := Machine.exists_of_check
    (.launch :: Config.thenSwitch (.take 0) ++ Config.thenSwitch (.take 0) ++
      Config.thenSwitch (.take 0)) check
    (by decide +kernel : (Config.small 20 10 30).passes Unit _ _ _ check = true)
  obtain ⟨⟨head, third, second, last⟩, blocked, urgent⟩ := of_decide_eq_true checked
  have waits : machine.kernel.WaitChain (.semaphore 0) [3, 1, 2] :=
    ⟨⟨head, third, second, last⟩, blocked⟩
  obtain ⟨before, best, behind, after, splits, popped, earlier, later, left, _⟩ :=
    (wait_list_pop_highest_removes waits).2 (by simp)
  have first : FirstMin (fun task => (machine.kernel.tcb task).priority) [3, 1, 2] best :=
    ⟨before, behind, splits, earlier, later⟩
  obtain rfl : best = 2 := first.unique ⟨[3, 1], [], rfl, urgent, by simp⟩
  have notBefore : 2 ∉ before := fun member => lt_irrefl _ (earlier 2 member)
  have others : before ++ behind = [3, 1] := by
    calc before ++ behind = (before ++ 2 :: behind).erase 2 := by
          rw [List.erase_append_right _ notBefore, List.erase_cons_head]
      _ = [3, 1] := by rw [← splits]; decide
  rw [others] at left
  exact ⟨machine.kernel, after, head, popped, left⟩

end Rtos

end Kangaroos
