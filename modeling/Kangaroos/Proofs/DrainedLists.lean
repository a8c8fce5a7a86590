import Kangaroos.Proofs.PopHighest

/-!
# Emptying a wait list

`notify_all` and the end of `call_once` pop and unblock one waiter after the other. Whatever the
list is, the loop ends with every waiter ready, and it has woken them by urgency, equally urgent
ones in the order of the list.
-/

namespace Kangaroos

variable {n : Nat} {V : Type} {kernel popped woken after : Rtos n V} {list : WaitList}
  {tasks order : List (Fin n)} {task : Fin n}

/-- Some of the tasks would preempt `CURRENT`. -/
def Kernel.SomeUrgent (kernel : Rtos n V) (tasks : List (Fin n)) : Prop :=
  ∃ task ∈ tasks, ∃ current, kernel.current = some current ∧
    (kernel.tcb task).priority < (kernel.tcb current).priority

namespace Rtos

/-- The loop that empties a list, with the tasks it wakes in order. -/
inductive Drains (list : WaitList) : Rtos n V → List (Fin n) → Rtos n V → Prop where
  | done {kernel : Rtos n V} (empty : kernel.waitHead list = none) : Drains list kernel [] kernel
  | wake {kernel popped woken after : Rtos n V} {task : Fin n} {urgent : Bool}
      {order : List (Fin n)} (waiting : kernel.waitHead list ≠ none)
      (pops : kernel.waitListPopHighest list = .ok (popped, some task))
      (unblocks : popped.unblock task = .ok (woken, urgent)) (rest : Drains list woken order after) :
      Drains list kernel (task :: order) after

/-- All tasks of a list are ready with a full slice, and nothing else has changed. -/
structure Drained (list : WaitList) (tasks : List (Fin n)) (kernel after : Rtos n V) : Prop where
  statics : after.toStatics = kernel.toStatics
  empty : after.waitHead list = none
  heads : ∀ other, other ≠ list → after.waitHead other = kernel.waitHead other
  ready : ∀ task ∈ tasks,
    after.tcb task = { kernel.tcb task with state := .ready (kernel.tcb task).timeSlice }
  kept : ∀ task, task ∉ tasks → after.tcb task = kernel.tcb task

/-- One iteration: `best` is ready with a full slice, and a task in front of it may have another
link. -/
structure Woken (list : WaitList) (before : List (Fin n)) (best : Fin n) (kernel after : Rtos n V) :
    Prop where
  statics : after.toStatics = kernel.toStatics
  heads : ∀ other, other ≠ list → after.waitHead other = kernel.waitHead other
  ready : after.tcb best = { kernel.tcb best with state := .ready (kernel.tcb best).timeSlice }
  others : ∀ task, task ≠ best → ∃ state, after.tcb task = { kernel.tcb task with state }
  kept : ∀ task, task ≠ best → task ∉ before → after.tcb task = kernel.tcb task

theorem Woken.priority {before : List (Fin n)} {best : Fin n}
    (woken : Woken list before best kernel after) (task : Fin n) :
    (after.tcb task).priority = (kernel.tcb task).priority := by
  by_cases same : task = best
  · subst same
    rw [woken.ready]
  · obtain ⟨state, changed⟩ := woken.others task same
    rw [changed]

/-- The woken task or one of the others would preempt `CURRENT`. -/
theorem Woken.someUrgent {before behind : List (Fin n)} {best current : Fin n}
    (woke : Woken list before best kernel after) (isCurrent : kernel.current = some current) :
    kernel.SomeUrgent (before ++ best :: behind) ↔
      (kernel.tcb best).priority < (kernel.tcb current).priority ∨
        after.SomeUrgent (before ++ behind) := by
  have stillCurrent : after.current = some current :=
    (congrArg Statics.current woke.statics).trans isCurrent
  simp only [Kernel.SomeUrgent, stillCurrent, isCurrent, woke.priority, Option.some.injEq,
    exists_eq_left']
  constructor
  · rintro ⟨task, member, urgent⟩
    rcases List.mem_append.mp member with inBefore | inRest
    · exact .inr ⟨task, List.mem_append_left _ inBefore, urgent⟩
    · rcases List.mem_cons.mp inRest with rfl | inBehind
      · exact .inl urgent
      · exact .inr ⟨task, List.mem_append_right _ inBehind, urgent⟩
  · rintro (urgent | ⟨task, member, urgent⟩)
    · exact ⟨best, by simp, urgent⟩
    · refine ⟨task, ?_, urgent⟩
      simp only [List.mem_append, List.mem_cons] at member ⊢
      tauto

/-- Waking one task and then the others of the list wakes them all. -/
theorem Woken.drained {before behind : List (Fin n)} {best : Fin n}
    (woke : Woken list before best kernel woken) (fresh : best ∉ before ++ behind)
    (drained : Drained list (before ++ behind) woken after) :
    Drained list (before ++ best :: behind) kernel after := by
  have same : ∀ task, task ∈ before ++ best :: behind ↔ task = best ∨ task ∈ before ++ behind := by
    intro task
    simp only [List.mem_append, List.mem_cons]
    tauto
  constructor
  case statics => exact drained.statics.trans woke.statics
  case empty => exact drained.empty
  case heads => exact fun other different =>
    (drained.heads other different).trans (woke.heads other different)
  case ready =>
    intro task member
    rcases (same task).mp member with rfl | rest
    · rw [drained.kept task fresh, woke.ready]
    · have different : task ≠ best := by
        rintro rfl
        exact fresh rest
      obtain ⟨state, changed⟩ := woke.others task different
      rw [drained.ready task rest, changed]
  case kept =>
    intro task outside
    rw [same, not_or] at outside
    rw [drained.kept task outside.2]
    exact woke.kept task outside.1 fun inBefore => outside.2 (List.mem_append_left _ inBefore)

/-- Redirecting a link changes the state of a task at most. -/
theorem Redirected.tcb_eq {before : List (Fin n)} {target : TcbPtr n}
    (redirected : Redirected list before target kernel popped) (task : Fin n) :
    ∃ state, popped.tcb task = { kernel.tcb task with state } := by
  cases last : before.getLast? with
  | none => exact ⟨_, congrFun (redirected.atHead last).2 task⟩
  | some previous =>
      obtain ⟨_, relinked, others⟩ := redirected.atTask previous last
      by_cases same : task = previous
      · subst same
        exact ⟨_, relinked⟩
      · exact ⟨_, others task same⟩

/-- Tasks that are not in front keep their TCB. -/
theorem Redirected.kept {before : List (Fin n)} {target : TcbPtr n}
    (redirected : Redirected list before target kernel popped) (outside : task ∉ before) :
    popped.tcb task = kernel.tcb task := by
  cases last : before.getLast? with
  | none => exact congrFun (redirected.atHead last).2 task
  | some previous =>
      refine (redirected.atTask previous last).2.2 task ?_
      rintro rfl
      exact outside (List.mem_of_getLast? last)

end Rtos

/-- `unblock` while a task is current. -/
theorem Kernel.unblock_of_current {current : Fin n} (isCurrent : kernel.current = some current)
    (task : Fin n) : kernel.unblock task =
      .ok (kernel.setState task (.ready (kernel.tcb task).timeSlice),
        decide ((kernel.tcb task).priority < (kernel.tcb current).priority)) := by
  have priority : ∀ other,
      ((kernel.setState task (.ready (kernel.tcb task).timeSlice)).tcb other).priority =
        (kernel.tcb other).priority := by
    intro other
    by_cases same : other = task
    · subst same
      simp
    · simp [same]
  simp only [Kernel.unblock, Kernel.modifyTcb_toStatics, isCurrent, deref_some, Except.ok_bind,
    priority]

namespace Kernel.WaitChain

/-- A change to a task that is not on the list. -/
theorem setState (waits : kernel.WaitChain list tasks) (outside : task ∉ tasks)
    (state : TaskState (TcbPtr n)) : (kernel.setState task state).WaitChain list tasks := by
  have different : ∀ other ∈ tasks, other ≠ task := by
    rintro other member rfl
    exact outside member
  constructor
  case chain =>
    refine waits.chain.congr fun other member => ?_
    simp [Kernel.waitLink, different other member]
  case blocked =>
    intro other member
    simpa [different other member] using waits.blocked other member

/-- One iteration of the loop. -/
theorem wake {before behind : List (Fin n)} {best current : Fin n}
    (waits : kernel.WaitChain list (before ++ best :: behind))
    (earlier : ∀ other ∈ before, (kernel.tcb best).priority < (kernel.tcb other).priority)
    (later : ∀ other ∈ behind, (kernel.tcb best).priority ≤ (kernel.tcb other).priority)
    (isCurrent : kernel.current = some current) :
    ∃ popped woken, kernel.waitListPopHighest list = .ok (popped, some best) ∧
      popped.unblock best =
        .ok (woken, decide ((kernel.tcb best).priority < (kernel.tcb current).priority)) ∧
      woken.WaitChain list (before ++ behind) ∧ Rtos.Woken list before best kernel woken := by
  have redirected := waits.redirected
  have left := waits.unlinkBehind
  obtain ⟨popped, isPopped⟩ : ∃ popped : Rtos n V, popped =
    kernel.unlinkBehind list before.getLast? (kernel.waitLink best) := ⟨_, rfl⟩
  have fresh : best ∉ before ++ behind :=
    (List.nodup_cons.mp (List.perm_middle.nodup waits.chain.nodup)).1
  have pops := waits.pop_eq earlier later
  rw [← isPopped] at redirected left pops
  have bestKept : popped.tcb best = kernel.tcb best :=
    redirected.kept fun inBefore => fresh (List.mem_append_left _ inBefore)
  have priority : ∀ task, (popped.tcb task).priority = (kernel.tcb task).priority := by
    intro task
    obtain ⟨state, changed⟩ := redirected.tcb_eq task
    rw [changed]
  have stillCurrent : popped.current = some current :=
    (congrArg Statics.current redirected.statics).trans isCurrent
  have unblocks := Kernel.unblock_of_current stillCurrent best
  rw [priority, priority] at unblocks
  refine ⟨popped, _, pops, unblocks, left.setState fresh _, ?_⟩
  constructor
  case statics => exact redirected.statics
  case heads => exact redirected.heads
  case ready => simp [bestKept]
  case others =>
    intro task different
    simpa [different] using redirected.tcb_eq task
  case kept =>
    intro task different outside
    simpa [different] using redirected.kept outside

/-- The loop leaves an empty list as it is. -/
theorem drain_nil (waits : kernel.WaitChain list []) (fuel : Nat) (pend : Bool) :
    ∃ order after preempt, Kernel.drain list fuel (kernel, pend) = .ok (after, preempt) ∧
      Picks (fun task => (kernel.tcb task).priority) [] order ∧
      Rtos.Drains list kernel order after ∧ Rtos.Drained list [] kernel after ∧
      (preempt = true ↔ pend = true ∨ kernel.SomeUrgent []) := by
  have noHead : kernel.waitHead list = none := waits.chain
  have empty : kernel.noWaiter list = true := by
    rw [Kernel.noWaiter, noHead]
    rfl
  refine ⟨[], kernel, pend, ?_, .done, .done noHead,
    ⟨rfl, noHead, fun _ _ => rfl, by simp, fun _ _ => rfl⟩, by simp [Kernel.SomeUrgent]⟩
  cases fuel <;> simp [Kernel.drain, empty]

/-- The loop ends when there is fuel for all of the list. -/
theorem drain (waits : kernel.WaitChain list tasks) (launched : kernel.current = none → tasks = [])
    (fuel : Nat) (enough : tasks.length ≤ fuel) (pend : Bool) :
    ∃ order after preempt, Kernel.drain list fuel (kernel, pend) = .ok (after, preempt) ∧
      Picks (fun task => (kernel.tcb task).priority) tasks order ∧
      Rtos.Drains list kernel order after ∧ Rtos.Drained list tasks kernel after ∧
      (preempt = true ↔ pend = true ∨ kernel.SomeUrgent tasks) := by
  induction fuel generalizing kernel tasks pend with
  | zero =>
      obtain rfl : tasks = [] := List.length_eq_zero_iff.mp (Nat.le_zero.mp enough)
      exact waits.drain_nil 0 pend
  | succ fuel ih =>
      by_cases none : tasks = []
      · subst none
        exact waits.drain_nil (fuel + 1) pend
      · obtain ⟨current, isCurrent⟩ := Option.ne_none_iff_exists'.mp (mt launched none)
        obtain ⟨best, before, behind, rfl, earlier, later⟩ :=
          FirstMin.exists_of_ne_nil (fun task => (kernel.tcb task).priority) none
        obtain ⟨popped, woken, pops, unblocks, left, woke⟩ := waits.wake earlier later isCurrent
        have fresh : best ∉ before ++ behind :=
          (List.nodup_cons.mp (List.perm_middle.nodup waits.chain.nodup)).1
        have waiting : kernel.waitHead list ≠ Option.none := mt waits.chain.head_eq_none_iff.mp none
        have busy : kernel.noWaiter list = false := by
          obtain ⟨head, isHead⟩ := Option.ne_none_iff_exists'.mp waiting
          rw [Kernel.noWaiter, isHead]
          rfl
        have stillCurrent : woken.current = some current :=
          (congrArg Statics.current woke.statics).trans isCurrent
        have shorter : (before ++ behind).length ≤ fuel := by
          simp only [List.length_append, List.length_cons] at enough ⊢
          omega
        obtain ⟨order, after, preempt, drains, picks, run, drained, flag⟩ := ih left
          (fun null => by simp [stillCurrent] at null) shorter
          (pend || decide ((kernel.tcb best).priority < (kernel.tcb current).priority))
        simp only [woke.priority] at picks
        refine ⟨best :: order, after, preempt, ?_, .pick earlier later picks,
          .wake waiting pops unblocks run, woke.drained fresh drained, ?_⟩
        · have wakes : kernel.wakeHighest list = .ok (woken,
              decide ((kernel.tcb best).priority < (kernel.tcb current).priority)) := by
            rw [Kernel.wakeHighest, show WaitOps.waitListPopHighest kernel list = _ from pops]
            exact unblocks
          simp only [Kernel.drain, busy, wakes, Except.ok_bind]
          exact drains
        · rw [flag, woke.someUrgent isCurrent, Bool.or_eq_true, decide_eq_true_eq, or_assoc]

end Kernel.WaitChain

namespace Rtos

/-- Every task of a list has been woken once, by urgency and equally urgent ones in the order of
the list, and the flag says whether one of them would preempt `CURRENT`. -/
structure WakesAll (list : WaitList) (tasks : List (Fin n)) (kernel after : Rtos n V)
    (preempt : Bool) : Prop where
  drained : Drained list tasks kernel after
  inOrder : ∃ order, Drains list kernel order after ∧ order.Nodup ∧ order.Perm tasks ∧
    order.Pairwise fun first second =>
      (kernel.tcb first).priority < (kernel.tcb second).priority ∨
        (kernel.tcb first).priority = (kernel.tcb second).priority ∧ [first, second].Sublist tasks
  urgent : preempt = true ↔ kernel.SomeUrgent tasks

/-- The loop over a list wakes all its tasks. -/
theorem drain_wakesAll (waits : kernel.WaitChain list tasks)
    (launched : kernel.current = none → tasks = []) :
    ∃ after preempt, Kernel.drain list n (kernel, false) = .ok (after, preempt) ∧
      WakesAll list tasks kernel after preempt := by
  have bound : tasks.length ≤ n := by simpa using waits.chain.nodup.length_le_card
  obtain ⟨order, after, preempt, drains, picks, run, drained, flag⟩ :=
    waits.drain launched n bound false
  exact ⟨after, preempt, drains, drained,
    ⟨order, run, picks.perm.nodup_iff.mpr waits.chain.nodup, picks.perm, picks.stable⟩,
    by simpa using flag⟩

/-- Whatever tasks wait, `notify_all` and the end of `call_once` wake them all: the loop ends with
an empty list, each of its tasks has been made ready once, with a full slice and in the order of
urgency, no other task has changed, and a switch is requested exactly when a woken task is more
urgent than `CURRENT`. -/
theorem drained_lists_wake_all (id : Nat) (who : TcbPtr n)
    (launched : kernel.current = none → tasks = []) :
    (kernel.WaitChain (.condvar id) tasks → ∃ after preempt,
      (Call.notifyAll id : Call V).run who kernel = .ok (after, { pend := preempt }) ∧
        WakesAll (.condvar id) tasks kernel after preempt) ∧
    (kernel.WaitChain (.once id) tasks → ∃ after preempt,
      (Call.finishOnce id : Call V).run who kernel = .ok (after, { pend := preempt }) ∧
        WakesAll (.once id) tasks (kernel.setOnce id .done) after preempt) := by
  constructor
  · intro waits
    obtain ⟨after, preempt, drains, wakes⟩ := drain_wakesAll waits launched
    refine ⟨after, preempt, ?_, wakes⟩
    simp only [Call.run, Condvar.notifyAll, drains, Except.ok_bind]
  · intro waits
    have done : (kernel.setOnce id .done).WaitChain (.once id) tasks := ⟨waits.chain, waits.blocked⟩
    obtain ⟨after, preempt, drains, wakes⟩ := drain_wakesAll done launched
    refine ⟨after, preempt, ?_, wakes⟩
    simp only [Call.run, Once.finish, drains, Except.ok_bind]

/-- Task 1 ends the initialisation that tasks 2 and 3 wait for. -/
theorem drained_lists_wake_all_two : ∃ (kernel after : Rtos 4 Unit) (preempt : Bool),
    kernel.waitHead (.once 0) = some 3 ∧ kernel.waitLink 3 = some 2 ∧
    (Call.finishOnce 0 : Call Unit).run (some 1) kernel = .ok (after, { pend := preempt }) ∧
    after.waitHead (.once 0) = none ∧ (after.tcb 2).state = .ready 5 ∧
    (after.tcb 3).state = .ready 5 := by
  let check (machine : RtosMachine 4 Unit) : Bool :=
    (machine.kernel.waitHead (.once 0) = some 3 ∧ machine.kernel.waitLink 3 = some 2 ∧
      machine.kernel.waitLink 2 = none) ∧ machine.kernel.current = some 1 ∧
    ∀ task ∈ [3, 2], (machine.kernel.tcb task).state.isBlocked = true ∧
      (machine.kernel.tcb task).timeSlice = 5
  obtain ⟨machine, _, checked⟩ := Machine.exists_of_check
    ([.launch, .call (.callOnce 0), .call (.sleep 1)] ++ Config.thenSwitch (.sleepUntil 1) ++
      Config.thenSwitch (.callOnce 0) ++ Config.thenSwitch (.callOnce 0) ++
      .tick :: List.replicate 10 (.pendsv 0)) check
    (by decide +kernel : (Config.small 10 20 30).passes Unit _ _ _ check = true)
  obtain ⟨⟨head, second, last⟩, isCurrent, waiters⟩ := of_decide_eq_true checked
  have waits : machine.kernel.WaitChain (.once 0) [3, 2] :=
    ⟨⟨head, second, last⟩, fun task member => (waiters task member).1⟩
  obtain ⟨after, preempt, performed, wakes⟩ :=
    (drained_lists_wake_all 0 (some 1) (by simp [isCurrent])).2 waits
  have ready : ∀ task ∈ [3, 2], (after.tcb task).state = .ready 5 := by
    intro task member
    rw [wakes.drained.ready task member]
    exact congrArg TaskState.ready (waiters task member).2
  exact ⟨machine.kernel, after, preempt, head, second, performed, wakes.drained.empty,
    ready 2 (by decide), ready 3 (by decide)⟩

end Rtos

end Kangaroos
