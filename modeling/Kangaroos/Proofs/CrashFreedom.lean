import Kangaroos.Abstract.Stacks
import Kangaroos.Proofs.ChannelFifo
import Kangaroos.Proofs.CondvarWaits
import Kangaroos.Proofs.EventDelivery
import Kangaroos.Proofs.LaunchSelection
import Kangaroos.Proofs.MutualExclusion
import Kangaroos.Proofs.OnceInitializer
import Kangaroos.Proofs.PoolOwnership
import Kangaroos.Proofs.SingleRunning

/-!
# No run crashes

What the kernel can run into is a panic, an `unreachable!()` arm, a null `CURRENT` or owner, an
index outside a buffer, a read of an uninitialised local or slot, a `wait_ptr` that is not what
it is taken for, and a loop that never ends. Each primitive's invariant excludes its own; here
they are put together. What is left is the launch of a program all of whose tasks have the
priority of the idle task, and the panic `systick_handler` is for: a damaged stack canary, which
no invariant of the kernel excludes, as tasks may store where they should not.
-/

namespace Kangaroos

variable {n : Nat} {V : Type}

namespace Kernel

variable {Link Head : Type} {kernel : Kernel n V Link Head} {order : List (Fin n)}

/-- The launch loop comes back empty-handed exactly from tasks of the lowest priority. -/
theorem foldl_launchConsider_eq_none {tasks : List (Fin n)} {best : TcbPtr n × U8} :
    (tasks.foldl kernel.launchConsider best).1 = none ↔ best.1 = none ∧
      ∀ task ∈ tasks, (kernel.tcb task).state.isReady = true →
        ¬(kernel.tcb task).priority < best.2 := by
  induction tasks generalizing best with
  | nil => simp
  | cons task rest ih =>
      rw [List.foldl_cons, ih, List.forall_mem_cons]
      by_cases taken : (kernel.tcb task).state.isReady = true ∧ (kernel.tcb task).priority < best.2
      · simp [launchConsider, taken]
      · have passed : kernel.launchConsider best task = best := if_neg taken
        rw [passed]
        exact and_congr_right fun _ =>
          ⟨fun others => ⟨not_and.mp taken, others⟩, fun all => all.2⟩

/-- What the launch loop comes back with is ready. -/
theorem isReady_of_launchConsider {tasks : List (Fin n)} {best : TcbPtr n × U8} {task : Fin n}
    (before : ∀ task, best.1 = some task → (kernel.tcb task).state.isReady = true)
    (found : (tasks.foldl kernel.launchConsider best).1 = some task) :
    (kernel.tcb task).state.isReady = true := by
  induction tasks generalizing best with
  | nil => exact before task found
  | cons visited rest ih =>
      refine ih (fun other chosen => ?_) found
      unfold launchConsider at chosen
      split at chosen
      · rename_i taken
        obtain rfl := Option.some.inj chosen
        exact taken.1
      · exact before other chosen

/-- The launch faults exactly when no ready task is more urgent than the idle task: it then
dereferences the null it has found. -/
theorem svcFirstTaskSp_error_iff (chain : Linked.Chain kernel.allLink kernel.allTasks order)
    {fault : Fault} : kernel.svcFirstTaskSp = .error fault ↔ fault = .nullPointer ∧
      ∀ task ∈ order, (kernel.tcb task).state.isReady = true →
        (kernel.tcb task).priority = 255 := by
  have enough : order.length ≤ n := by simpa using chain.nodup.length_le_card
  have searched : kernel.svcSearch n kernel.allTasks (none, 255) =
      .ok (order.foldl kernel.launchConsider (none, 255)) := svcSearch_eq chain enough
  have lowest : ∀ priority : U8, ¬priority < 255 ↔ priority = 255 := fun priority =>
    not_lt.trans ⟨fun above => le_antisymm (Fin.le_last _) above, fun same => same.ge⟩
  have nothing : (order.foldl kernel.launchConsider (none, 255)).1 = none ↔
      ∀ task ∈ order, (kernel.tcb task).state.isReady = true →
        (kernel.tcb task).priority = 255 := by
    simpa only [true_and, lowest] using
      @foldl_launchConsider_eq_none n V Link Head kernel order (none, 255)
  have ready : ∀ task, (order.foldl kernel.launchConsider (none, 255)).1 = some task →
      (kernel.tcb task).state.isReady = true :=
    fun task => isReady_of_launchConsider fun _ chosen => nomatch chosen
  rw [← nothing, svcFirstTaskSp, searched, Except.ok_bind]
  generalize order.foldl kernel.launchConsider (none, 255) = last at ready
  obtain ⟨chosen, priority⟩ := last
  cases chosen with
  | none =>
      have stops : (do
          let first ← deref (none : TcbPtr n)
          let launched ← (kernel.setCurrent none).markRunning first
          .ok (launched, (launched.tcb first).sp) : Exec (Kernel n V Link Head × Word)) =
          .error .nullPointer := rfl
      simp only [and_true]
      rw [stops, Except.error.injEq, eq_comm]
  | some task =>
      obtain ⟨slice, isReady⟩ := TaskState.isReady_iff.mp (ready task rfl)
      simp [markRunning, isReady, Except.ok_bind]

end Kernel

namespace Spec

variable {kernel : Spec n V}

/-- A mutex that has an owner is released without a fault. -/
theorem unlockInternal_ok {id : Nat} {owner : Fin n} (owned : kernel.owner id = some owner)
    (launched : kernel.current ≠ none) :
    ∃ after flag, Mutex.unlockInternal kernel id = .ok (after, flag) := by
  simp only [Mutex.unlockInternal, owned, deref_some, Except.ok_bind]
  split
  · rename_i waiting
    let restored : Spec n V := kernel.setPriority owner (kernel.tcb owner).basePriority
    have nonempty : restored.waitHead (.mutex id) ≠ [] := by simpa [restored] using waiting
    obtain ⟨task, _, pops⟩ := pop_eq nonempty
    simp only [show Kernel.setPriority kernel owner _ = restored from rfl, pops, Except.ok_bind,
      deref_some]
    let passed : Spec n V := (Spec.remove restored (.mutex id) task).setOwner id (some task)
    obtain ⟨urgent, unblocks⟩ := unblock_eq passed launched task
    exact ⟨_, urgent, unblocks⟩
  · exact ⟨_, false, rfl⟩

/-- `give` always returns. -/
theorem give_ok {id : Nat} (launched : kernel.waitHead (.semaphore id) ≠ [] →
    kernel.current ≠ none) :
    ∃ after flag, Semaphore.give kernel id = .ok (after, flag) := by
  simp only [Semaphore.give]
  split
  · rename_i waiting
    have nonempty : kernel.waitHead (.semaphore id) ≠ [] := by simpa using waiting
    obtain ⟨task, _, urgent, wakes⟩ := wakeHighest_ok nonempty (launched nonempty)
    exact ⟨_, urgent, wakes⟩
  · split <;> exact ⟨_, _, rfl⟩

/-- `lock` takes a free mutex, and blocks at one that is owned. -/
theorem lock_ok (id : Nat) {task : Fin n} (isCurrent : kernel.current = some task) :
    ∃ after flag, Mutex.lock kernel id = .ok (after, flag) := by
  unfold Mutex.lock
  split
  · exact ⟨_, _, rfl⟩
  · rename_i owner owned
    have blocks : ∀ boosted : Spec n V, boosted.current = some task →
        ∃ after flag, (do
          let kernel ← Kernel.blockCurrent boosted (.mutex id)
          .ok (kernel, true) : Exec (Spec n V × Bool)) = .ok (after, flag) :=
      fun boosted isCurrent => ⟨_, true, by rw [blockCurrent_eq isCurrent]; rfl⟩
    simp only [isCurrent, deref_some, Except.ok_bind]
    split <;> exact blocks _ isCurrent

/-- `wait` gives its mutex back after it has blocked its caller. -/
theorem wait_ok {mutex : Nat} {task owner : Fin n} (isCurrent : kernel.current = some task)
    (owned : kernel.owner mutex = some owner) (condvar : Nat) :
    ∃ after flag, Condvar.wait kernel condvar mutex = .ok (after, flag) := by
  simp only [Condvar.wait, blockCurrent_eq isCurrent, Except.ok_bind]
  have still : (kernel.blockAndPush (.condvar condvar) task).owner mutex = some owner := by
    simpa [Spec.blockAndPush] using owned
  exact unlockInternal_ok still (by simp [Spec.blockAndPush, isCurrent])

/-- A wait for an event is over at once or blocks its caller. -/
theorem waitEvent_ok (kernel : Spec n V) (id : Nat) (mask : Word) {task : Fin n}
    (isCurrent : kernel.current = some task) :
    (∃ after flag, EventGroup.waitAny kernel id mask = .ok (after, flag)) ∧
      ∃ after flag, EventGroup.waitAll kernel id mask = .ok (after, flag) := by
  have blocks : ∀ list, ∃ after,
      Kernel.blockCurrent (kernel.setWaitPtr task (.word mask)) list = .ok after := fun list =>
    ⟨_, blockCurrent_eq isCurrent⟩
  simp only [EventGroup.waitAny, EventGroup.waitAll, isCurrent, deref_some, Except.ok_bind]
  constructor
  · obtain ⟨after, blocked⟩ := blocks (.eventAny id)
    simp only [blocked]
    split <;> exact ⟨_, _, rfl⟩
  · obtain ⟨after, blocked⟩ := blocks (.eventAll id)
    simp only [blocked]
    split <;> exact ⟨_, _, rfl⟩

end Spec

namespace SpecMachine

variable {config : Config n} {machine : SpecMachine n V}

/-- What keeps the primitives from faulting, and the kernel with them. -/
structure Intact (config : Config n) (machine : SpecMachine n V) : Prop where
  core : Core config machine
  guarded : ∀ id, Guarded machine id
  flowing : ∀ id, ∃ flight contents, Flowing config machine id flight contents
  pooled : ∀ id, ∃ free, Pooled config machine id free
  events : ∀ id, ∃ book, Spec.Unserved machine.kernel id book.masks ∧ Attributes id machine book

theorem intact_of_reachable (reachable : (system config V).Reachable machine) :
    Intact config machine where
  core := core_of_reachable reachable
  guarded := guarded_of_reachable reachable
  flowing := flowing_of_reachable reachable
  pooled := pooled_of_reachable reachable
  events id := by
    obtain ⟨book, observed⟩ := reachable.exists_history {}
      fun machine action _ => EventGroup.note Kernel.waitHead id machine action
    exact ⟨book, attributes_of_reachable observed⟩

namespace Intact

/-- The kernel calls of a task do not fault. -/
theorem call_ok (intact : Intact config machine) (call : Call V) (fault : Fault) :
    machine.perform config.idle (.call call) ≠ some (.error fault) := by
  intro performed
  have core := intact.core
  cases Machine.faults_of_perform performed with
  | call isTask triggered may faults =>
      rename_i task
      obtain ⟨_, _, isCurrent⟩ := Machine.threadTask_eq_some.mp isTask
      have launched : machine.kernel.current ≠ none := by simp [isCurrent]
      cases call with
      | send id | trySend id | recv id | tryRecv id =>
          obtain ⟨flight, contents, flowing⟩ := intact.flowing id
          exact (flowing.call_ok core (by simp [Call.uses]) fault).1 performed
      | alloc id | allocBlocking id | releaseBox id =>
          obtain ⟨free, pooled⟩ := intact.pooled id
          exact (pooled.call_ok (by simp [Call.uses]) fault).1 performed
      | notifyOne id =>
          have notifies : (Call.notifyOne id : Call V).notifies id := rfl
          exact core.notifies_ok notifies (.inl rfl) fault performed
      | notifyAll id =>
          have notifies : (Call.notifyAll id : Call V).notifies id := rfl
          exact core.notifies_ok notifies (.inl rfl) fault performed
      | set id mask =>
          obtain ⟨book, unserved, _⟩ := intact.events id
          exact sets_ok core unserved ⟨mask, .inl rfl⟩ fault performed
      | setFromIsr => simp [Thread.mayCall] at may
      | finishOnce id => exact core.finishOnce_ok fault performed
      | tryTake | tryLock | clear | sleep => cases faults
      | take id =>
          simp only [Call.run, Semaphore.take, Spec.blockCurrent_eq isCurrent] at faults
          split at faults <;> cases faults
      | give id =>
          obtain ⟨after, flag, gives⟩ := Spec.give_ok (core.launched (.semaphore id))
          simp only [Call.run, gives] at faults
          cases faults
      | lock id =>
          obtain ⟨after, flag, locks⟩ := Spec.lock_ok id isCurrent
          simp only [Call.run, locks] at faults
          cases faults
      | dropGuard id =>
          have releases : (Call.dropGuard id : Call V).releases id := rfl
          obtain ⟨after, flag, unlocks⟩ := Spec.unlockInternal_ok
            ((intact.guarded id).held task (Thread.held_of_releases releases may)) launched
          simp only [Call.run, unlocks] at faults
          cases faults
      | wait condvar mutex =>
          have releases : (Call.wait condvar mutex : Call V).releases mutex := rfl
          obtain ⟨after, flag, waits⟩ := Spec.wait_ok isCurrent
            ((intact.guarded mutex).held task (Thread.held_of_releases releases may)) condvar
          simp only [Call.run, waits] at faults
          cases faults
      | waitAny id mask =>
          obtain ⟨⟨after, flag, waits⟩, _⟩ := Spec.waitEvent_ok machine.kernel id mask isCurrent
          simp only [Call.run, waits] at faults
          cases faults
      | waitAll id mask =>
          obtain ⟨_, after, flag, waits⟩ := Spec.waitEvent_ok machine.kernel id mask isCurrent
          simp only [Call.run, waits] at faults
          cases faults
      | callOnce id =>
          simp only [Call.run, Once.enter] at faults
          split at faults
          · cases faults
          · cases faults
          · rw [Spec.blockCurrent_eq isCurrent] at faults
            cases faults
      | yieldNow =>
          simp only [Call.run, Kernel.yieldNow, isCurrent, deref_some, Except.ok_bind] at faults
          split at faults <;> cases faults
      | sleepUntil | exit =>
          simp only [Call.run, Kernel.sleepUntil, Kernel.exit, isCurrent, deref_some] at faults
          cases faults

/-- The operations of interrupt handlers do not fault, before the launch or after. -/
theorem isr_ok (intact : Intact config machine) (call : Call V) (fault : Fault) :
    machine.perform config.idle (.isr call) ≠ some (.error fault) := by
  intro performed
  have core := intact.core
  cases Machine.faults_of_perform performed with
  | isr safe faults =>
      cases call with
      | trySend id | tryRecv id =>
          obtain ⟨flight, contents, flowing⟩ := intact.flowing id
          exact (flowing.call_ok core (by simp [Call.uses]) fault).2 performed
      | alloc id =>
          obtain ⟨free, pooled⟩ := intact.pooled id
          exact (pooled.call_ok (by simp [Call.uses]) fault).2 performed
      | notifyOne id =>
          have notifies : (Call.notifyOne id : Call V).notifies id := rfl
          exact core.notifies_ok notifies (.inr rfl) fault performed
      | notifyAll id =>
          have notifies : (Call.notifyAll id : Call V).notifies id := rfl
          exact core.notifies_ok notifies (.inr rfl) fault performed
      | set id mask =>
          obtain ⟨book, unserved, _⟩ := intact.events id
          exact sets_ok core unserved ⟨mask, .inr (.inl rfl)⟩ fault performed
      | setFromIsr id mask trigger =>
          obtain ⟨book, unserved, _⟩ := intact.events id
          exact sets_ok core unserved ⟨mask, .inr (.inr ⟨trigger, rfl⟩)⟩ fault performed
      | give id =>
          obtain ⟨after, flag, gives⟩ := Spec.give_ok (core.launched (.semaphore id))
          simp only [Call.run, gives] at faults
          cases faults
      | tryTake | clear => cases faults
      | _ => simp [Call.isrSafe] at safe

/-- What a task reads when it returns from a kernel call is there. -/
theorem ret_ok (intact : Intact config machine) (fault : Fault) :
    machine.perform config.idle .ret ≠ some (.error fault) := by
  intro performed
  have core := intact.core
  cases Machine.faults_of_perform performed with
  | ret isTask triggered faults =>
      rename_i task
      have away : ∀ list, task ∉ machine.kernel.waitHead list := fun list =>
        core.wf.not_mem_of_running (core.task_running isTask triggered)
      cases pc : (machine.thread task).pc with
      | waitAnyRet id =>
          obtain ⟨book, _, attributes⟩ := intact.events id
          have served := (attributes.served task pc (away _)).1
          simp [Machine.returnFrom, pc, Kernel.waitWord, served, Except.ok_bind] at faults
      | recvRet id =>
          obtain ⟨flight, contents, flowing⟩ := intact.flowing id
          exact flowing.ret_ok core isTask pc fault performed
      | allocBlockingRet id =>
          obtain ⟨free, pooled⟩ := intact.pooled id
          obtain ⟨slot, told⟩ := pooled.told task pc (away _)
          simp [Machine.returnFrom, pc, Pool.assignedSlot, Kernel.waitWord, told,
            Except.ok_bind] at faults
      | _ => simp [Machine.returnFrom, pc] at faults

/-- A live box has a value. -/
theorem box_ok (intact : Intact config machine) {id : Nat} {slot : U8}
    (live : slot ∈ machine.boxes id) : slot.val < (machine.kernel.pool id).capacity ∧
      ∃ value, (machine.kernel.pool id).nodes slot.val = some value := by
  obtain ⟨free, pooled⟩ := intact.pooled id
  exact ⟨pooled.inBounds .boxes live, Option.ne_none_iff_exists'.mp
    (pooled.stored .boxes trivial slot live)⟩

/-- No step but the launch faults. -/
theorem perform_ok (intact : Intact config machine) {action : Action V}
    (notLaunch : action ≠ .launch) (fault : Fault) :
    machine.perform config.idle action ≠ some (.error fault) := by
  intro performed
  cases action with
  | launch => exact notLaunch rfl
  | tick =>
      obtain ⟨next, preempt, ticks, _⟩ := Kernel.tick_returns intact.core.chain
      cases Machine.faults_of_perform performed with
      | tick faults => cases ticks.symm.trans faults
  | pendsv sp =>
      cases Machine.faults_of_perform performed with
      | pendsv faults =>
          obtain ⟨next, isNext⟩ := intact.core.pendsvStep_ok faults
          cases isNext
  | isr call => exact intact.isr_ok call fault performed
  | call call => exact intact.call_ok call fault performed
  | ret => exact intact.ret_ok fault performed
  | dropBox id slot =>
      cases Machine.faults_of_perform performed with
      | dropBox live faults =>
          obtain ⟨inBounds, value, stored⟩ := intact.box_ok live
          simp [Pool.destroy, inBounds, stored] at faults
  | writeBox id slot value =>
      cases Machine.faults_of_perform performed with
      | writeBox live faults =>
          obtain ⟨inBounds, value, stored⟩ := intact.box_ok live
          simp [Pool.write, inBounds, stored] at faults
  | isrRet | trigger | forgetGuard => cases Machine.faults_of_perform performed

end Intact

end SpecMachine

/-- What can run is not dead. -/
theorem TaskState.live_of_runnable {Link : Type} {state : TaskState Link}
    (runs : state.runnable = true) : state.live = true := by
  cases state <;> simp [runnable, isReady, isRunning, live] at runs ⊢

/-- The scheduler neither revives nor kills a task. -/
theorem Spec.Rescheduled.live {before after : Spec n V} (moved : Spec.Rescheduled before after)
    (task : Fin n) : (after.tcb task).state.live = (before.tcb task).state.live := by
  rcases moved.state task with same | ⟨runs | ⟨deadline, sleeps⟩, runs'⟩
  · rw [same]
  · rw [TaskState.live_of_runnable runs, TaskState.live_of_runnable runs']
  · rw [sleeps, TaskState.live_of_runnable runs']
    rfl

/-- A task is as dead as in the abstract state. -/
theorem Rep.live {hole : TcbPtr n} {kernel : Rtos n V} {spec : Spec n V}
    (rep : Rep hole kernel spec) (task : Fin n) :
    (kernel.tcb task).state.live = (spec.tcb task).state.live := by
  have same := rep.state task
  cases left : (kernel.tcb task).state <;> cases right : (spec.tcb task).state <;>
    simp_all [TaskState.forget, TaskState.live]

namespace RepMachine

variable {config : Config n} {machine : RtosMachine n V} {spec : SpecMachine n V}

/-- SysTick pends PendSV when `tick` says so. -/
theorem perform_tick {idle : Fin n} {kernel : Rtos n V} {preempt : Bool}
    (returned : machine.kernel.tick = .ok (kernel, preempt)) : machine.perform idle .tick =
      some (.ok { machine with kernel, pendsv := machine.pendsv || preempt }) := by
  simp only [Machine.perform, returned]
  rfl

/-- `tick` returns, with every task as dead as it was and on the stack it was on, and the canary
loop that follows it fails exactly on the canary of a live task. -/
theorem tick_canaries (rep : RepMachine machine spec) (core : SpecMachine.Core config spec) :
    ∃ kernel preempt, machine.kernel.tick = .ok (kernel, preempt) ∧
      (∀ task, (kernel.tcb task).state.live = (machine.kernel.tcb task).state.live) ∧
      (∀ task, (kernel.tcb task).stackBase = (machine.kernel.tcb task).stackBase) ∧
      ∀ canaryCheck, kernel.canaryPass canaryCheck n kernel.allTasks =
        if ∃ task ∈ config.order, (kernel.tcb task).state.live = true ∧
            canaryCheck (kernel.tcb task).stackBase = false then .error .stackOverflow
        else .ok () := by
  have chain := rep.allTasks_chain core
  have enough : config.order.length ≤ n := by simpa using config.order_nodup.length_le_card
  obtain ⟨kernel, preempt, returned, sameLinks, sameHead⟩ := Kernel.tick_returns chain
  refine ⟨kernel, preempt, returned, fun task => ?_, fun task => ?_, fun canaryCheck => ?_⟩
  · obtain ⟨spec', performed', rep'⟩ := rep.perform_ok core (perform_tick returned)
    rw [rep'.kernel.live, rep.kernel.live]
    cases Machine.step_of_perform performed' with
    | tick returned' => exact ((Spec.tick_spec core.chain).of_ok returned').moved.live task
  · exact congrArg Prod.snd (congrFun (Kernel.tick_keepsStacks.of_ok returned) task)
  · exact Kernel.canaryPass_eq (sameHead ▸ sameLinks ▸ chain) enough

/-- The one fault of `systick_handler` is the panic on a damaged canary of a live task. -/
theorem systickHandler_error_iff (rep : RepMachine machine spec)
    (core : SpecMachine.Core config spec) (canaryCheck : Word → Bool) (fault : Fault) :
    Kernel.systickHandler canaryCheck machine.kernel = .error fault ↔ fault = .stackOverflow ∧
      ∃ task, (machine.kernel.tcb task).state.live = true ∧
        canaryCheck (machine.kernel.tcb task).stackBase = false := by
  obtain ⟨kernel, preempt, returned, live, stackBase, canaries⟩ := rep.tick_canaries core
  have damaged : (∃ task ∈ config.order, (kernel.tcb task).state.live = true ∧
        canaryCheck (kernel.tcb task).stackBase = false) ↔
      ∃ task, (machine.kernel.tcb task).state.live = true ∧
        canaryCheck (machine.kernel.tcb task).stackBase = false := by
    simp only [live, stackBase]
    refine ⟨fun ⟨task, _, found⟩ => ⟨task, found⟩, fun ⟨task, lives, found⟩ => ⟨task, ?_, lives, found⟩⟩
    -- a task that was never spawned is not looked at
    rw [rep.kernel.live] at lives
    exact core.spawned task fun uninit => by simp [uninit, TaskState.live] at lives
  rw [← damaged]
  simp only [Kernel.systickHandler, returned, Except.ok_bind, canaries canaryCheck]
  split
  · rename_i found
    exact ⟨fun panics => ⟨(Except.error.inj panics).symm, found⟩, fun ⟨isOverflow, _⟩ =>
      congrArg Except.error isOverflow.symm⟩
  · rename_i intact
    exact ⟨nofun, fun ⟨_, found⟩ => absurd found intact⟩

/-- No run crashes: no step of PendSV, of `tick`, of an interrupt handler or of a task panics,
reaches an `unreachable!()`, dereferences a null pointer, leaves a buffer, reads an uninitialised
local or slot, takes a `wait_ptr` for what it is not, or runs for ever. `systick_handler` as a
whole has one fault, whatever there is in memory: it panics exactly when the canary of a task
that is neither dead nor uninitialised is damaged. The launch faults exactly on the null it
finds when every task that is ready has the priority of the idle task. -/
theorem never_faults (reachable : (system config V).Reachable machine) :
    (∀ action fault, action ≠ .launch →
      machine.perform config.idle action ≠ some (.error fault)) ∧
    (∀ canaryCheck fault, Kernel.systickHandler canaryCheck machine.kernel = .error fault ↔
      fault = .stackOverflow ∧ ∃ task, (machine.kernel.tcb task).state.live = true ∧
        canaryCheck (machine.kernel.tcb task).stackBase = false) ∧
    ∀ fault, machine.perform config.idle .launch = some (.error fault) ↔
      fault = .nullPointer ∧ machine.kernel.current = none ∧
        ∀ task, (machine.kernel.tcb task).state.isReady = true →
          (machine.kernel.tcb task).priority = 255 := by
  obtain ⟨spec, reach, rep⟩ := exists_spec reachable
  have intact := SpecMachine.intact_of_reachable reach
  have core := intact.core
  refine ⟨fun action fault notLaunch performed => intact.perform_ok notLaunch fault
    (rep.perform_error core performed), rep.systickHandler_error_iff core, fun fault => ?_⟩
  have chain := rep.allTasks_chain core
  have listed : ∀ task, (machine.kernel.tcb task).state.isReady = true → task ∈ config.order := by
    intro task ready
    rw [rep.kernel.isReady] at ready
    exact core.spawned task fun uninit => by simp [uninit, TaskState.isReady] at ready
  have same : (∀ task ∈ config.order, (machine.kernel.tcb task).state.isReady = true →
        (machine.kernel.tcb task).priority = 255) ↔
      ∀ task, (machine.kernel.tcb task).state.isReady = true →
        (machine.kernel.tcb task).priority = 255 :=
    ⟨fun all task ready => all task (listed task ready) ready, fun all task _ => all task⟩
  rw [← same]
  constructor
  · intro performed
    cases Machine.faults_of_perform performed with
    | launch fresh faults =>
        obtain ⟨isNull, lowest⟩ := (Kernel.svcFirstTaskSp_error_iff chain).mp faults
        exact ⟨isNull, fresh, lowest⟩
  · rintro ⟨isNull, fresh, lowest⟩
    have faults := (Kernel.svcFirstTaskSp_error_iff chain).mpr ⟨isNull, lowest⟩
    simp only [Machine.perform, fresh, if_true, faults]
    rfl

/-- The idle task alone: its launch faults, while `tick` before it does not, and
`systick_handler` does on a damaged canary. -/
theorem never_faults_bare : ∃ machine : RtosMachine 1 Unit,
    machine.perform Config.bare.idle .launch = some (.error .nullPointer) ∧
    Kernel.systickHandler (fun _ => false) machine.kernel = .error .stackOverflow ∧
    ∀ action fault, action ≠ .launch →
      machine.perform Config.bare.idle action ≠ some (.error fault) := by
  let check (machine : RtosMachine 1 Unit) : Bool :=
    machine.kernel.current = none ∧ (machine.kernel.tcb 0).priority = 255 ∧
      (machine.kernel.tcb 0).state.live = true
  obtain ⟨machine, reachable, checked⟩ := Machine.exists_of_check [.tick] check
    (by decide +kernel : Config.bare.passes Unit _ _ [.tick] check = true)
  obtain ⟨fresh, lowest, live⟩ := of_decide_eq_true checked
  obtain ⟨safe, canaries, launch⟩ := never_faults reachable
  refine ⟨machine, (launch .nullPointer).mpr ⟨rfl, fresh, fun task _ => ?_⟩,
    (canaries _ .stackOverflow).mpr ⟨rfl, 0, live, rfl⟩, safe⟩
  rw [Subsingleton.elim task 0]
  exact lowest

end RepMachine

end Kangaroos
