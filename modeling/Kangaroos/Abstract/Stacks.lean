import Kangaroos.Abstract.Moves

/-!
# The stack pointers

`sp` and `stack_base` are written by `spawn_into`, and `sp` by PendSV when it saves a task.
Nothing else the kernel does touches them: each critical section is walked through once.
-/

namespace Kangaroos

variable {n : Nat} {V : Type}

namespace Kernel

variable {Link Head α : Type} (kernel : Kernel n V Link Head) (task : Fin n)

/-- The saved stack pointer and the base of each stack. -/
def stackPtrs (task : Fin n) : Word × Word := ((kernel.tcb task).sp, (kernel.tcb task).stackBase)

/-- The statics hold no stack pointer. -/
@[simp] theorem stackPtrs_modifyStatics (write : Statics n V → Statics n V) :
    (kernel.modifyStatics write).stackPtrs = kernel.stackPtrs := rfl

/-- Neither do the heads of the wait lists. -/
@[simp] theorem stackPtrs_setHead (list : WaitList) (head : Head) :
    (kernel.setHead list head).stackPtrs = kernel.stackPtrs := rfl

/-- Writing other fields of a TCB. -/
theorem stackPtrs_modifyTcb {change : Tcb n Link → Tcb n Link}
    (sp : (change (kernel.tcb task)).sp = (kernel.tcb task).sp)
    (stackBase : (change (kernel.tcb task)).stackBase = (kernel.tcb task).stackBase) :
    (kernel.modifyTcb task change).stackPtrs = kernel.stackPtrs := by
  funext other
  by_cases same : other = task
  · subst same
    simp [stackPtrs, sp, stackBase]
  · simp [stackPtrs, same]

/-- The state of a task is not its stack pointer. -/
@[simp] theorem stackPtrs_setState (state : TaskState Link) :
    (kernel.setState task state).stackPtrs = kernel.stackPtrs := kernel.stackPtrs_modifyTcb task rfl rfl

/-- Neither is its priority. -/
@[simp] theorem stackPtrs_setPriority (priority : U8) :
    (kernel.setPriority task priority).stackPtrs = kernel.stackPtrs := kernel.stackPtrs_modifyTcb task rfl rfl

/-- Nor is its `wait_ptr`. -/
@[simp] theorem stackPtrs_setWaitPtr (waitPtr : WaitPtr n) :
    (kernel.setWaitPtr task waitPtr).stackPtrs = kernel.stackPtrs := kernel.stackPtrs_modifyTcb task rfl rfl

/-- A section that leaves the stacks where they are, if it ends. -/
def KeepsStacks (run : Exec (Kernel n V Link Head × α)) : Prop :=
  Triple run (fun result => result.1.stackPtrs = kernel.stackPtrs) fun _ => True

variable {kernel} {task}

/-- A section that has returned keeps the stacks if its result has them. -/
theorem keepsStacks_ok {result : Kernel n V Link Head × α} :
    kernel.KeepsStacks (.ok result) ↔ result.1.stackPtrs = kernel.stackPtrs := Iff.rfl

/-- A section that goes on from a state with the same stacks. -/
theorem KeepsStacks.of_eq {start : Kernel n V Link Head} {run : Exec (Kernel n V Link Head × α)}
    (keeps : start.KeepsStacks run) (same : start.stackPtrs = kernel.stackPtrs) :
    kernel.KeepsStacks run :=
  keeps.mono fun _ kept => kept.trans same

/-- A statement that only computes. -/
theorem KeepsStacks.compute {β : Type} {first : Exec β} {rest : β → Exec (Kernel n V Link Head × α)}
    (keeps : ∀ result, kernel.KeepsStacks (rest result)) : kernel.KeepsStacks (first >>= rest) :=
  Triple.compute keeps

/-- One section after another. -/
theorem KeepsStacks.bind {β : Type} {first : Exec (Kernel n V Link Head × β)}
    {rest : Kernel n V Link Head × β → Exec (Kernel n V Link Head × α)}
    (keeps : kernel.KeepsStacks first)
    (onward : ∀ result : Kernel n V Link Head × β, result.1.KeepsStacks (rest result)) :
    kernel.KeepsStacks (first >>= rest) :=
  Triple.bind keeps fun result kept => (onward result).of_eq kept

/-- The last statement of a section. -/
theorem KeepsStacks.ends {β : Type} {run : Exec (Kernel n V Link Head × β)}
    {result : Kernel n V Link Head × β → Kernel n V Link Head × α} (keeps : kernel.KeepsStacks run)
    (same : ∀ middle, (result middle).1.stackPtrs = middle.1.stackPtrs) :
    kernel.KeepsStacks (run >>= fun middle => .ok (result middle)) :=
  keeps.bind fun middle => keepsStacks_ok.mpr (same middle)

/-- Read it off a section that has ended. -/
theorem KeepsStacks.of_ok {run : Exec (Kernel n V Link Head × α)} {result : Kernel n V Link Head × α}
    (keeps : kernel.KeepsStacks run) (returned : run = .ok result) :
    result.1.stackPtrs = kernel.stackPtrs := by
  subst returned
  exact keeps

section Scheduler

variable {kernel : Kernel n V Link Head}

/-- Waking a sleeper that is due moves no stack. -/
theorem stackPtrs_wakeDue (now : U64) (task : Fin n) :
    (kernel.wakeDue now task).stackPtrs = kernel.stackPtrs := by
  unfold wakeDue
  split
  · split
    · exact kernel.stackPtrs_setState task _
    · rfl
  · rfl

/-- The wake-up loop of `tick` moves no stack, by induction on its fuel. -/
theorem tickWake_keepsStacks {now : U64} {current : Fin n} {curPrio : U8} (fuel : Nat)
    (next : TcbPtr n) (preempt : Bool) :
    kernel.KeepsStacks (tickWake now current curPrio fuel next (kernel, preempt)) := by
  induction fuel generalizing kernel next preempt with
  | zero => cases next <;> trivial
  | succ fuel ih =>
      cases next with
      | none => trivial
      | some task =>
          unfold tickWake
          split
          · exact ih _ _
          · exact (ih _ _).of_eq (stackPtrs_wakeDue now task)

/-- Neither does the time slice of `CURRENT`, whether it runs out or not. -/
theorem tickSlice_keepsStacks (current : Fin n) (curPrio : U8) :
    kernel.KeepsStacks (kernel.tickSlice current curPrio) := by
  unfold tickSlice
  split
  · rename_i slice _
    generalize (if 0 < slice then slice - 1 else slice) = remaining
    dsimp only
    split
    · refine .compute fun peer => ?_
      exact stackPtrs_setState kernel current _
    · exact stackPtrs_setState kernel current _
  · rfl

/-- Neither does `tick`. -/
theorem tick_keepsStacks : kernel.KeepsStacks kernel.tick := by
  unfold tick
  dsimp only
  split
  · rfl
  · rename_i current _
    split
    · refine KeepsStacks.of_eq ((tickWake_keepsStacks _ _ false).bind fun result => ?_) rfl
      split
      · rfl
      · exact tickSlice_keepsStacks current _
    · rfl

/-- Marking a task running moves no stack. -/
theorem stackPtrs_of_markRunning {after : Kernel n V Link Head} {task : Fin n}
    (marked : kernel.markRunning task = .ok after) : after.stackPtrs = kernel.stackPtrs := by
  unfold markRunning at marked
  split at marked
  · cases marked
    exact kernel.stackPtrs_setState task _
  · cases marked

/-- Nor does it change `CURRENT`. -/
theorem current_of_markRunning {after : Kernel n V Link Head} {task : Fin n}
    (marked : kernel.markRunning task = .ok after) : after.current = kernel.current := by
  unfold markRunning at marked
  split at marked
  · cases marked
    rfl
  · cases marked

/-- The launch selects a task and moves no stack. -/
theorem svcFirstTaskSp_keepsStacks : kernel.KeepsStacks kernel.svcFirstTaskSp := by
  unfold svcFirstTaskSp
  refine .compute fun found => .compute fun first => ?_
  cases marked : (kernel.setCurrent found.1).markRunning first with
  | error fault => trivial
  | ok after =>
      have same := stackPtrs_of_markRunning marked
      exact keepsStacks_ok.mpr same

/-- The first task, and where its stack pointer comes from. -/
theorem svcFirstTaskSp_ok {after : Kernel n V Link Head} {sp : Word}
    (returned : kernel.svcFirstTaskSp = .ok (after, sp)) :
    ∃ first, after.current = some first ∧ sp = (after.tcb first).sp := by
  obtain ⟨⟨best, priority⟩, _, rest⟩ := Except.ok_of_bind returned
  obtain ⟨first, isFirst, rest⟩ := Except.ok_of_bind rest
  obtain ⟨marked, marks, done⟩ := Except.ok_of_bind rest
  cases done
  have isBest := (deref_triple best).of_ok isFirst
  exact ⟨first, (current_of_markRunning marks).trans isBest, rfl⟩

/-- PendSV saves the stack pointer it is given in the TCB of `CURRENT`. -/
theorem sp_of_saveCurrent {after : Kernel n V Link Head} {sp : Word}
    (saved : kernel.saveCurrent sp = .ok after) (task : Fin n) :
    (after.tcb task).sp = if kernel.current = some task then sp else (kernel.tcb task).sp := by
  obtain ⟨old, isOld, rest⟩ := Except.ok_of_bind saved
  rw [(deref_triple kernel.current).of_ok isOld]
  have written : (kernel.modifyTcb old fun tcb => { tcb with sp }).stackPtrs task =
      (if some old = some task then sp else (kernel.tcb task).sp, (kernel.tcb task).stackBase) := by
    by_cases same : task = old
    · subst same
      simp [stackPtrs]
    · simp [stackPtrs, same, Ne.symm same]
  simp only at rest
  split at rest
  · cases rest
    exact congrArg Prod.fst ((congrFun (stackPtrs_setState _ old _) task).trans written)
  · cases rest
    exact congrArg Prod.fst written

/-- The bases stay. -/
theorem stackBase_of_saveCurrent {after : Kernel n V Link Head} {sp : Word}
    (saved : kernel.saveCurrent sp = .ok after) (task : Fin n) :
    (after.tcb task).stackBase = (kernel.tcb task).stackBase := by
  obtain ⟨old, isOld, rest⟩ := Except.ok_of_bind saved
  have written : ((kernel.modifyTcb old fun tcb => { tcb with sp }).tcb task).stackBase =
      (kernel.tcb task).stackBase := by
    by_cases same : task = old
    · subst same
      simp
    · simp [same]
  simp only at rest
  split at rest
  · cases rest
    exact (congrArg Prod.snd (congrFun (stackPtrs_setState _ old _) task)).trans written
  · cases rest
    exact written

end Scheduler

end Kernel

namespace Spec

open Kernel (KeepsStacks keepsStacks_ok)

variable {kernel : Spec n V} {list : WaitList}

/-- Taking a task off a list moves no stack. -/
@[simp] theorem stackPtrs_remove (kernel : Spec n V) (list : WaitList) (task : Fin n) :
    Kernel.stackPtrs (kernel.remove list task) = Kernel.stackPtrs kernel := rfl

/-- Putting one on a list moves none either. -/
@[simp] theorem stackPtrs_blockAndPush (kernel : Spec n V) (list : WaitList) (task : Fin n) :
    Kernel.stackPtrs (kernel.blockAndPush list task) = Kernel.stackPtrs kernel := by
  simp [blockAndPush]

/-- The most urgent waiter is removed from its list and keeps its stack. -/
theorem pop_keepsStacks : kernel.KeepsStacks (WaitOps.waitListPopHighest kernel list) := by
  rcases popHighest_cases kernel list with ⟨_, pops⟩ | ⟨task, _, pops, _⟩
  · rw [show WaitOps.waitListPopHighest kernel list = _ from congrArg Except.ok pops]
    rfl
  · rw [show WaitOps.waitListPopHighest kernel list = _ from congrArg Except.ok pops]
    exact stackPtrs_remove kernel list task

/-- A task that is made ready keeps its stack. -/
theorem unblock_keepsStacks (kernel : Spec n V) (task : Fin n) :
    kernel.KeepsStacks (kernel.unblock task) :=
  .compute fun _ => by simp [keepsStacks_ok]

/-- So waking the most urgent waiter moves no stack. -/
theorem wakeHighest_keepsStacks : kernel.KeepsStacks (kernel.wakeHighest list) :=
  pop_keepsStacks.bind fun _ => .compute fun task => unblock_keepsStacks _ task

/-- Blocking `CURRENT`, after which the section ends. -/
theorem blockCurrent_keepsStacks {α : Type} (flags : α) : kernel.KeepsStacks (do
    let after ← kernel.blockCurrent list
    .ok (after, flags)) := by
  unfold Kernel.blockCurrent
  rw [bind_assoc]
  exact .compute fun current => stackPtrs_blockAndPush kernel list current

/-- Nor does waking them all, by induction on the fuel of the loop. -/
theorem drain_keepsStacks (fuel : Nat) (pend : Bool) :
    kernel.KeepsStacks (Kernel.drain list fuel (kernel, pend)) := by
  induction fuel generalizing kernel pend with
  | zero =>
      unfold Kernel.drain
      split <;> trivial
  | succ fuel ih =>
      unfold Kernel.drain
      split
      · trivial
      · exact wakeHighest_keepsStacks.bind fun _ => ih _

/-- A waiter that is served has its bits taken, for `wait_any` in its `wait_ptr`, and is made ready. -/
theorem satisfy_keepsStacks (rule : ScanRule) (event : Nat) (task : Fin n) (taken : Word) :
    kernel.KeepsStacks (kernel.satisfy rule event task taken) := by
  cases rule with
  | any => exact (unblock_keepsStacks _ task).of_eq (by simp)
  | all => exact (unblock_keepsStacks _ task).of_eq (by simp)

/-- The scan of an event group moves no stack, by induction on the rest of its list. -/
theorem scanList_keepsStacks {rule : ScanRule} {event : Nat} (rest : List (Fin n)) (pend : Bool) :
    kernel.KeepsStacks (scanList rule event list rest (kernel, pend)) := by
  induction rest generalizing kernel pend with
  | nil => trivial
  | cons task rest ih =>
      unfold scanList
      refine .compute fun mask => ?_
      split
      · exact ((satisfy_keepsStacks rule event task _).of_eq (stackPtrs_remove kernel list task)).bind
          fun _ => ih _
      · exact ih pend

section Sections

variable {id : Nat} {who : TcbPtr n} {value : V}

/-- `take` counts a token or blocks its caller. -/
theorem take_keepsStacks : kernel.KeepsStacks (Semaphore.take kernel id) := by
  simp only [Semaphore.take]
  split
  · rfl
  · exact blockCurrent_keepsStacks true

/-- `give` wakes a task or counts a token. -/
theorem give_keepsStacks : kernel.KeepsStacks (Semaphore.give kernel id) := by
  simp only [Semaphore.give]
  split
  · exact wakeHighest_keepsStacks
  · split <;> rfl

/-- `lock` writes owners and priorities, and blocks its caller. -/
theorem lock_keepsStacks : kernel.KeepsStacks (Mutex.lock kernel id) := by
  unfold Mutex.lock
  split
  · rfl
  · refine .compute fun current => ?_
    dsimp only
    split
    · exact (blockCurrent_keepsStacks true).of_eq (Kernel.stackPtrs_setPriority _ _ _)
    · exact blockCurrent_keepsStacks true

/-- Unlocking restores a priority, and wakes the next owner if there is one. -/
theorem unlockInternal_keepsStacks : kernel.KeepsStacks (Mutex.unlockInternal kernel id) := by
  refine .compute fun owner => ?_
  dsimp only
  split
  · refine KeepsStacks.of_eq (.bind pop_keepsStacks fun result => .compute fun task => ?_)
      (Kernel.stackPtrs_setPriority kernel owner _)
    exact (unblock_keepsStacks _ task).of_eq rfl
  · exact Kernel.stackPtrs_setPriority kernel owner _

/-- `wait` blocks its caller and unlocks. -/
theorem wait_keepsStacks (condvar : Nat) : kernel.KeepsStacks (Condvar.wait kernel condvar id) := by
  unfold Condvar.wait Kernel.blockCurrent
  rw [bind_assoc]
  exact .compute fun current =>
    unlockInternal_keepsStacks.of_eq (stackPtrs_blockAndPush kernel _ current)

/-- `notify_one` wakes one task at most. -/
theorem notifyOne_keepsStacks : kernel.KeepsStacks (Condvar.notifyOne kernel id) := by
  unfold Condvar.notifyOne
  split
  · rfl
  · exact wakeHighest_keepsStacks

/-- `set_from_isr` is two scans. -/
theorem setFromIsr_keepsStacks (mask : Word) :
    kernel.KeepsStacks (EventGroup.setFromIsr kernel id mask) := by
  refine KeepsStacks.of_eq (.bind (scanList_keepsStacks _ false) fun result => .bind
    (scanList_keepsStacks _ false) fun final => ?_) (Kernel.stackPtrs_modifyStatics kernel _)
  rfl

/-- `wait_any` writes its caller's `wait_ptr` before it blocks or returns. -/
theorem waitAny_keepsStacks (mask : Word) :
    kernel.KeepsStacks (EventGroup.waitAny kernel id mask) := by
  refine .compute fun current => ?_
  dsimp only
  split
  · simp [keepsStacks_ok]
  · exact (blockCurrent_keepsStacks true).of_eq (Kernel.stackPtrs_setWaitPtr _ _ _)

/-- So does `wait_all`. -/
theorem waitAll_keepsStacks (mask : Word) :
    kernel.KeepsStacks (EventGroup.waitAll kernel id mask) := by
  unfold EventGroup.waitAll
  split
  · rfl
  · exact .compute fun current =>
      (blockCurrent_keepsStacks true).of_eq (Kernel.stackPtrs_setWaitPtr _ _ _)

/-- `call_once` changes the state of the cell, or blocks its caller. -/
theorem enter_keepsStacks : kernel.KeepsStacks (Once.enter kernel id) := by
  unfold Once.enter
  split
  · rfl
  · rfl
  · exact blockCurrent_keepsStacks Once.Role.waiter

/-- A hand-off writes a frame and a history, and wakes the receiver. -/
theorem handOff_keepsStacks : kernel.KeepsStacks (Channel.handOff kernel id who value) :=
  .bind pop_keepsStacks fun _ => .compute fun receiver => .compute fun _ =>
    (unblock_keepsStacks _ receiver).of_eq rfl

/-- A value is stored in the channel, after which the section ends. -/
theorem enqueue_keepsStacks {α : Type} (flags : α) : kernel.KeepsStacks (do
    let after ← Channel.enqueue kernel id who value
    .ok (after, flags)) := by
  unfold Channel.enqueue
  rw [bind_assoc]
  exact .compute fun inner => rfl

/-- A sender that is admitted is woken, its value stored. -/
theorem admitSender_keepsStacks : kernel.KeepsStacks (Channel.admitSender kernel id) := by
  unfold Channel.admitSender
  split
  · refine .bind pop_keepsStacks fun result => .compute fun sender => .compute fun src => ?_
    split
    · trivial
    · unfold Channel.enqueue
      rw [bind_assoc]
      exact .compute fun inner => (unblock_keepsStacks _ sender).of_eq rfl
  · rfl

/-- Sending is a hand-off, a store, or the caller blocked or sent away. -/
theorem send_keepsStacks : kernel.KeepsStacks (Channel.sendImpl kernel id who value) ∧
    kernel.KeepsStacks (Channel.trySendImpl kernel id who value) := by
  have logged : (Channel.logSent kernel id who value).stackPtrs = kernel.stackPtrs := rfl
  simp only [Channel.sendImpl, Channel.trySendImpl]
  constructor
  · split
    · refine KeepsStacks.of_eq ?_ logged
      exact handOff_keepsStacks.ends fun _ => rfl
    · split
      · exact (enqueue_keepsStacks (false, false)).of_eq logged
      · exact .compute fun current => (blockCurrent_keepsStacks (false, true)).of_eq (by simp [logged])
  · split
    · refine KeepsStacks.of_eq ?_ logged
      exact handOff_keepsStacks.ends fun _ => rfl
    · split
      · exact (enqueue_keepsStacks (false, true)).of_eq logged
      · rfl

/-- A value is fetched from the channel. -/
theorem dequeue_keepsStacks : kernel.KeepsStacks (Channel.dequeue kernel id who) :=
  .compute fun _ => keepsStacks_ok.mpr rfl

/-- `recv` fetches a value and admits a sender, or blocks its caller. -/
theorem recv_keepsStacks : kernel.KeepsStacks (Channel.recvImpl kernel id) := by
  simp only [Channel.recvImpl]
  split
  · refine .bind dequeue_keepsStacks fun read => ?_
    have stored : (read.1.setFrame read.1.current (some read.2)).stackPtrs = read.1.stackPtrs := rfl
    refine KeepsStacks.of_eq ?_ stored
    exact admitSender_keepsStacks.ends fun _ => rfl
  · exact .compute fun current => (blockCurrent_keepsStacks (false, true)).of_eq (by simp)

/-- `try_recv` never blocks. -/
theorem tryRecv_keepsStacks : kernel.KeepsStacks (Channel.tryRecvImpl kernel id who) := by
  simp only [Channel.tryRecvImpl]
  split
  · exact .bind dequeue_keepsStacks fun _ => admitSender_keepsStacks.ends fun _ => rfl
  · rfl

/-- Both ways to allocate take a slot, or leave the value with the caller. -/
theorem alloc_keepsStacks : kernel.KeepsStacks (Pool.alloc kernel id value) ∧
    kernel.KeepsStacks (Pool.allocBlocking kernel id value) := by
  simp only [Pool.alloc, Pool.allocBlocking]
  constructor
  · split
    · exact .compute fun _ => rfl
    · rfl
  · refine .compute fun current => ?_
    split
    · exact .compute fun _ => by simp [keepsStacks_ok]
    · exact (blockCurrent_keepsStacks true).of_eq (by simp)

/-- A dropped box gives its slot to a waiter or to the free list. -/
theorem release_keepsStacks (slot : U8) : kernel.KeepsStacks (Pool.release kernel id slot) := by
  simp only [Pool.release]
  split
  · refine .bind pop_keepsStacks fun _ => .compute fun waiter => .compute fun _ => ?_
    split
    · trivial
    · split
      · exact (unblock_keepsStacks _ waiter).of_eq (by simp)
      · trivial
  · split
    · rfl
    · trivial

end Sections

/-- No critical section moves a stack. -/
theorem run_keepsStacks (call : Call V) (who : TcbPtr n) :
    kernel.KeepsStacks (call.run who kernel) := by
  cases call with
  | take id => exact take_keepsStacks.ends fun _ => rfl
  | tryTake id =>
      refine keepsStacks_ok.mpr ?_
      simp only [Semaphore.tryTake]
      split <;> rfl
  | give id => exact give_keepsStacks.ends fun _ => rfl
  | lock id => exact lock_keepsStacks.ends fun _ => rfl
  | tryLock id =>
      refine keepsStacks_ok.mpr ?_
      dsimp only
      split <;> rfl
  | dropGuard id => exact unlockInternal_keepsStacks.ends fun _ => rfl
  | wait condvar mutex => exact (wait_keepsStacks condvar).ends fun _ => rfl
  | notifyOne id => exact notifyOne_keepsStacks.ends fun _ => rfl
  | notifyAll id => exact (drain_keepsStacks n false).ends fun _ => rfl
  | set id mask =>
      rw [Call.run, EventGroup.set_eq_setFromIsr, bind_assoc]
      exact (setFromIsr_keepsStacks mask).ends fun _ => rfl
  | setFromIsr id mask trigger => exact (setFromIsr_keepsStacks mask).ends fun _ => rfl
  | waitAny id mask => exact (waitAny_keepsStacks mask).ends fun _ => rfl
  | waitAll id mask => exact (waitAll_keepsStacks mask).ends fun _ => rfl
  | callOnce id => exact enter_keepsStacks.ends fun _ => rfl
  | finishOnce id => exact ((drain_keepsStacks n false).of_eq rfl).ends fun _ => rfl
  | send id value => exact send_keepsStacks.1.ends fun _ => rfl
  | trySend id value => exact send_keepsStacks.2.ends fun _ => rfl
  | recv id => exact recv_keepsStacks.ends fun _ => rfl
  | tryRecv id => exact tryRecv_keepsStacks.ends fun _ => rfl
  | alloc id value => exact alloc_keepsStacks.1.ends fun _ => rfl
  | allocBlocking id value => exact alloc_keepsStacks.2.ends fun _ => rfl
  | releaseBox id slot => exact (release_keepsStacks slot).ends fun _ => rfl
  | yieldNow =>
      simp only [Call.run, Kernel.yieldNow, bind_assoc]
      refine .compute fun current => ?_
      split
      · exact Kernel.stackPtrs_setState _ _ _
      · rfl
  | clear | sleep => exact keepsStacks_ok.mpr rfl
  | sleepUntil | exit =>
      simp only [Call.run, Kernel.sleepUntil, Kernel.exit, bind_assoc]
      exact .compute fun current => Kernel.stackPtrs_setState _ _ _

end Spec

namespace SpecMachine

variable {config : Config n} {machine next : SpecMachine n V}

/-- No step but those of PendSV moves a stack. -/
theorem stackPtrs_of_step {idle : Fin n} {action : Action V}
    (step : Machine.Step idle machine action next) (notSwitch : ∀ sp, action ≠ .pendsv sp) :
    next.kernel.stackPtrs = machine.kernel.stackPtrs := by
  cases step with
  | launch fresh returned => exact Kernel.svcFirstTaskSp_keepsStacks.of_ok returned
  | tick returned => exact Kernel.tick_keepsStacks.of_ok returned
  | pendsv switches => exact absurd rfl (notSwitch _)
  | isr safe returned => exact (Spec.run_keepsStacks _ _).of_ok returned
  | call isTask notIdle triggered may returned => exact (Spec.run_keepsStacks _ _).of_ok returned
  | ret isTask triggered returns => cases returns <;> rfl
  | dropBox isTask notIdle triggered user live returned =>
      obtain ⟨_, _, rfl⟩ := Pool.destroy_ok returned
      rfl
  | writeBox isTask notIdle triggered user live returned =>
      obtain ⟨_, _, rfl⟩ := Pool.write_ok returned
      rfl
  | isrRet | trigger | forgetGuard => rfl

end SpecMachine

end Kangaroos
