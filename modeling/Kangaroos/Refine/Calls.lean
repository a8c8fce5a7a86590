import Kangaroos.Refine.Lists
import Kangaroos.Machine

/-!
# Every critical section simulates its abstract counterpart

The sections are one text over two instances of `WaitOps`. From related states
they make the same decisions and return related states.
-/

namespace Kangaroos

/-- Related states and the same flags. -/
def Alike {n : Nat} {V : Type} {α : Type} (result : Rtos n V × α) (result' : Spec n V × α) : Prop :=
  Rep none result.1 result'.1 ∧ result.2 = result'.2

/-- One abstract result stands for one result of the code. -/
theorem Alike.unique {n : Nat} {V : Type} {α : Type} {result other : Rtos n V × α}
    {spec : Spec n V × α} (alike : Alike result spec) (alike' : Alike other spec) :
    result = other :=
  Prod.ext (alike.1.unique alike'.1) (alike.2.trans alike'.2.symm)

/-- The current task runs: what a section may assume in Thread mode. -/
def CurrentRuns {n : Nat} {V : Type} (spec : Spec n V) : Prop :=
  ∀ current, spec.current = some current → (spec.tcb current).state.isRunning = true

namespace Rep

variable {n : Nat} {V : Type} {kernel : Rtos n V} {spec : Spec n V} {list : WaitList} {id : Nat}

/-- Globals written alike, with the same flag. -/
theorem alike {α : Type} {flag : α} {write : Statics n V → Statics n V}
    (rep : Rep none kernel spec) :
    Alike (kernel.modifyStatics write, flag) (spec.modifyStatics write, flag) :=
  ⟨rep.modifyStatics write, rfl⟩

/-- A null head is an empty list. -/
theorem noWaiter_eq {hole : TcbPtr n} (rep : Rep hole kernel spec) (list : WaitList) :
    kernel.noWaiter list = spec.noWaiter list := by
  have empty := (rep.chain list).head_eq_none_iff
  show (kernel.waitHead list).isNone = (spec.waitHead list).isEmpty
  rw [Bool.eq_iff_iff, Option.isNone_iff_eq_none, List.isEmpty_iff]
  exact empty

/-- The task that is unlinked is the one that leaves the list, and both wake it. -/
theorem wakeHighest (rep : Rep none kernel spec) (list : WaitList) :
    Simulates Alike (kernel.wakeHighest list) (spec.wakeHighest list) := by
  unfold Kernel.wakeHighest
  apply Simulates.bind (rep.waitListPopHighest list)
  rintro ⟨popped, task⟩ ⟨popped', task'⟩ ⟨related, rfl⟩
  cases task with
  | none => exact rfl
  | some task => exact related.unblock.mono fun _ _ woken => ⟨woken.1, woken.2.1⟩

/-- `CURRENT` is linked before the old head. It is running, so no list has it yet. -/
theorem blockCurrent (rep : Rep none kernel spec) (running : CurrentRuns spec)
    (list : WaitList) :
    Simulates (Rep none) (kernel.blockCurrent list) (spec.blockCurrent list) := by
  simp only [Kernel.blockCurrent, rep.statics]
  cases isCurrent : spec.current with
  | none => exact rfl
  | some current => exact rep.blockAndPush (running current isCurrent)

/-- Waking while the head is not null wakes the whole list, in the same order and with the same
flag. -/
theorem drain (rep : Rep none kernel spec) (list : WaitList) (fuel : Nat) (pend : Bool) :
    Simulates Alike (Kernel.drain list fuel (kernel, pend)) (Kernel.drain list fuel (spec, pend)) := by
  induction fuel generalizing kernel spec pend with
  | zero =>
      rw [Kernel.drain, Kernel.drain, rep.noWaiter_eq]
      split
      · exact ⟨rep, rfl⟩
      · exact rfl
  | succ fuel ih =>
      rw [Kernel.drain, Kernel.drain, rep.noWaiter_eq]
      split
      · exact ⟨rep, rfl⟩
      · apply Simulates.bind (rep.wakeHighest list)
        rintro ⟨woken, urgent⟩ ⟨woken', urgent'⟩ ⟨related, rfl⟩
        exact ih related (pend || urgent)

/-- `take` takes a token in both, or blocks `CURRENT` in both. -/
theorem take (rep : Rep none kernel spec) (running : CurrentRuns spec) :
    Simulates Alike (Semaphore.take kernel id) (Semaphore.take spec id) := by
  simp only [Semaphore.take, rep.statics]
  split
  · exact rep.alike
  · apply Simulates.bind (rep.blockCurrent running _)
    exact fun _ _ related => ⟨related, rfl⟩

/-- `try_take` only looks at the count, which the two share. -/
theorem tryTake (rep : Rep none kernel spec) :
    Alike (Semaphore.tryTake kernel id) (Semaphore.tryTake spec id) := by
  simp only [Semaphore.tryTake, rep.statics]
  split
  · exact rep.alike
  · exact ⟨rep, rfl⟩

/-- `give` hands the token to the same waiter, or counts it in both. -/
theorem give (rep : Rep none kernel spec) :
    Simulates Alike (Semaphore.give kernel id) (Semaphore.give spec id) := by
  simp only [Semaphore.give, rep.noWaiter_eq, rep.statics]
  split
  · exact rep.wakeHighest _
  · split
    · exact rep.alike
    · exact ⟨rep, rfl⟩

/-- `lock` boosts the same owner, and `CURRENT` owns the mutex or waits for it in both. -/
theorem lock (rep : Rep none kernel spec) (running : CurrentRuns spec) :
    Simulates Alike (Mutex.lock kernel id) (Mutex.lock spec id) := by
  simp only [Mutex.lock, rep.statics, rep.priority]
  cases spec.owner id with
  | none => exact rep.alike
  | some owner =>
      apply Simulates.bind (Simulates.refl _)
      rintro current _ rfl
      split
      · have boosted := rep.setPriority owner (spec.tcb current).priority
        have runningBoost : CurrentRuns (spec.setPriority owner (spec.tcb current).priority) := by
          intro other isCurrent
          have runs := running other isCurrent
          by_cases same : other = owner
          · subst same
            simpa using runs
          · simpa [same] using runs
        apply Simulates.bind (boosted.blockCurrent runningBoost _)
        exact fun _ _ related => ⟨related, rfl⟩
      · apply Simulates.bind (rep.blockCurrent running _)
        exact fun _ _ related => ⟨related, rfl⟩

/-- `try_lock` only looks at the owner, which the two share. -/
theorem tryLock (rep : Rep none kernel spec) :
    Alike (Mutex.tryLock kernel id) (Mutex.tryLock spec id) := by
  simp only [Mutex.tryLock, rep.statics]
  cases spec.owner id with
  | none =>
      simp only
      exact rep.alike
  | some owner => exact ⟨rep, rfl⟩

/-- The next owner is the same waiter in both, the flag of `unblock` included. -/
theorem unlockInternal (rep : Rep none kernel spec) :
    Simulates Alike (Mutex.unlockInternal kernel id) (Mutex.unlockInternal spec id) := by
  simp only [Mutex.unlockInternal, rep.statics, rep.basePriority]
  apply Simulates.bind (Simulates.refl _)
  rintro owner _ rfl
  have reset := rep.setPriority owner (spec.tcb owner).basePriority
  rw [reset.noWaiter_eq]
  split
  · apply Simulates.bind (reset.waitListPopHighest _)
    rintro ⟨popped, task⟩ ⟨popped', task'⟩ ⟨related, rfl⟩
    cases task with
    | none => exact rfl
    | some task =>
        have handed : Rep (some task) (Kernel.setOwner popped id (some task))
            (Kernel.setOwner popped' id (some task)) := related.modifyStatics _
        exact handed.unblock.mono fun _ _ woken => ⟨woken.1, woken.2.1⟩
  · exact reset.alike

/-- `wait` blocks `CURRENT` on the condvar and releases the mutex, in this order in both. -/
theorem wait {mutex : Nat} (rep : Rep none kernel spec) (running : CurrentRuns spec) :
    Simulates Alike (Condvar.wait kernel id mutex) (Condvar.wait spec id mutex) := by
  unfold Condvar.wait
  apply Simulates.bind (rep.blockCurrent running _)
  exact fun _ _ related => related.unlockInternal

/-- `notify_one` wakes the same task, or nobody in both. -/
theorem notifyOne (rep : Rep none kernel spec) :
    Simulates Alike (Condvar.notifyOne kernel id) (Condvar.notifyOne spec id) := by
  simp only [Condvar.notifyOne, rep.noWaiter_eq]
  split
  · exact ⟨rep, rfl⟩
  · exact rep.wakeHighest _

/-- `notify_all` drains the list in both. -/
theorem notifyAll (rep : Rep none kernel spec) :
    Simulates Alike (Condvar.notifyAll kernel id) (Condvar.notifyAll spec id) :=
  rep.drain _ n false

/-- The loop over the links consumes the same masks as the one over the list. -/
theorem scan {rule : ScanRule} (rep : Rep none kernel spec) (list : WaitList) :
    Simulates Alike (WaitOps.scan kernel rule id list) (WaitOps.scan spec rule id list) :=
  rep.scanFrom false (List.nil_append _).symm (rep.chain list)
    (by simpa using (rep.wf.nodup list).length_le_card)

/-- `set_from_isr` sets the bits and scans both lists alike. -/
theorem setFromIsr {mask : Word} (rep : Rep none kernel spec) :
    Simulates Alike (EventGroup.setFromIsr kernel id mask) (EventGroup.setFromIsr spec id mask) := by
  simp only [EventGroup.setFromIsr, rep.statics]
  have bits := rep.modifyStatics fun statics =>
    { statics with bits := Function.update statics.bits id (spec.bits id ||| mask) }
  apply Simulates.bind (bits.scan _)
  rintro ⟨first, preemptAny⟩ ⟨first', preemptAny'⟩ ⟨related, rfl⟩
  apply Simulates.bind (related.scan _)
  rintro ⟨second, preemptAll⟩ ⟨second', preemptAll'⟩ ⟨related', rfl⟩
  exact ⟨related', rfl⟩

/-- `set` scans the list of `wait_any` and then that of `wait_all` alike. -/
theorem set {mask : Word} (rep : Rep none kernel spec) :
    Simulates Alike (EventGroup.set kernel id mask) (EventGroup.set spec id mask) := by
  rw [EventGroup.set_eq_setFromIsr, EventGroup.set_eq_setFromIsr]
  apply Simulates.bind rep.setFromIsr
  rintro ⟨after, preempt⟩ ⟨after', preempt'⟩ ⟨related, rfl⟩
  exact ⟨related, by simp only [show after.toStatics = after'.toStatics from related.statics]⟩

/-- `clear` writes the shared bits only. -/
theorem clear {mask : Word} (rep : Rep none kernel spec) :
    Rep none (EventGroup.clear kernel id mask) (EventGroup.clear spec id mask) := by
  simp only [EventGroup.clear, rep.statics]
  exact rep.modifyStatics _

/-- The current task stays running when its `wait_ptr` is written. -/
theorem currentRuns_setWaitPtr (running : CurrentRuns spec) (task : Fin n) (waitPtr : WaitPtr n) :
    CurrentRuns (spec.setWaitPtr task waitPtr) := by
  intro current isCurrent
  have runs := running current isCurrent
  by_cases same : current = task
  · subst same
    simpa using runs
  · simpa [same] using runs

/-- `wait_any` consumes the same bits, or parks the same mask in `wait_ptr` and blocks. -/
theorem waitAny {mask : Word} (rep : Rep none kernel spec) (running : CurrentRuns spec) :
    Simulates Alike (EventGroup.waitAny kernel id mask) (EventGroup.waitAny spec id mask) := by
  simp only [EventGroup.waitAny, rep.statics]
  apply Simulates.bind (Simulates.refl _)
  rintro current _ rfl
  split
  · have bits := rep.modifyStatics fun statics => { statics with
      bits := Function.update statics.bits id (spec.bits id &&& ~~~(spec.bits id &&& mask)) }
    exact ⟨bits.setWaitPtr (by simp), rfl⟩
  · have masked : Rep none (kernel.setWaitPtr current (.word mask))
        (spec.setWaitPtr current (.word mask)) := rep.setWaitPtr (by simp)
    apply Simulates.bind (masked.blockCurrent (currentRuns_setWaitPtr running _ _) _)
    exact fun _ _ related => ⟨related, rfl⟩

/-- `wait_all` consumes the whole mask, or parks it in `wait_ptr` and blocks. -/
theorem waitAll {mask : Word} (rep : Rep none kernel spec) (running : CurrentRuns spec) :
    Simulates Alike (EventGroup.waitAll kernel id mask) (EventGroup.waitAll spec id mask) := by
  simp only [EventGroup.waitAll, rep.statics]
  split
  · exact rep.alike
  · apply Simulates.bind (Simulates.refl _)
    rintro current _ rfl
    have masked : Rep none (kernel.setWaitPtr current (.word mask))
        (spec.setWaitPtr current (.word mask)) := rep.setWaitPtr (by simp)
    apply Simulates.bind (masked.blockCurrent (currentRuns_setWaitPtr running _ _) _)
    exact fun _ _ related => ⟨related, rfl⟩

/-- `call_once` finds the same role for its caller. -/
theorem enter (rep : Rep none kernel spec) (running : CurrentRuns spec) :
    Simulates Alike (Once.enter kernel id) (Once.enter spec id) := by
  simp only [Once.enter, rep.statics]
  cases spec.once id with
  | done => exact ⟨rep, rfl⟩
  | unstarted => exact rep.alike
  | running =>
      apply Simulates.bind (rep.blockCurrent running _)
      exact fun _ _ related => ⟨related, rfl⟩

/-- The end of `call_once` drains the waiters in both. -/
theorem finish (rep : Rep none kernel spec) :
    Simulates Alike (Once.finish kernel id) (Once.finish spec id) :=
  Rep.drain (rep.modifyStatics _) _ n false

/-- `yield_now` gives the same slice up. -/
theorem yieldNow (rep : Rep none kernel spec) (running : CurrentRuns spec) :
    Simulates (Rep none) (Kernel.yieldNow kernel) (Kernel.yieldNow spec) := by
  simp only [Kernel.yieldNow, rep.statics]
  cases isCurrent : spec.current with
  | none => exact rfl
  | some current =>
      have runs := running current isCurrent
      obtain ⟨slice, state⟩ := TaskState.isRunning_iff.mp runs
      have runs' : (kernel.tcb current).state.isRunning = true := by rw [rep.isRunning, runs]
      obtain ⟨slice', state'⟩ := TaskState.isRunning_iff.mp runs'
      simp only [deref_some, bind, Except.bind, state, state']
      exact rep.setState rfl (fun _ => rep.wf.not_mem_of_running runs)
        ((rep.wf.open_of_running runs).fill (by simp))

/-- `sleep_until` writes the same deadline into the state of `CURRENT`. -/
theorem sleepUntil {deadline : U64} (rep : Rep none kernel spec) (running : CurrentRuns spec) :
    Simulates (Rep none) (Kernel.sleepUntil kernel deadline) (Kernel.sleepUntil spec deadline) := by
  simp only [Kernel.sleepUntil, rep.statics]
  cases isCurrent : spec.current with
  | none => exact rfl
  | some current =>
      have runs := running current isCurrent
      exact rep.setState rfl (fun _ => rep.wf.not_mem_of_running runs)
        ((rep.wf.open_of_running runs).fill (by simp))

/-- `exit` leaves `CURRENT` dead in both. -/
theorem exit (rep : Rep none kernel spec) (running : CurrentRuns spec) :
    Simulates (Rep none) (Kernel.exit kernel) (Kernel.exit spec) := by
  simp only [Kernel.exit, rep.statics]
  cases isCurrent : spec.current with
  | none => exact rfl
  | some current =>
      have runs := running current isCurrent
      exact rep.setState rfl (fun _ => rep.wf.not_mem_of_running runs)
        ((rep.wf.open_of_running runs).fill (by simp))

/-- The histories are shared, so both note the value sent. -/
theorem logSent {who : TcbPtr n} {value : V} (rep : Rep none kernel spec) :
    Rep none (Channel.logSent kernel id who value) (Channel.logSent spec id who value) := by
  simp only [Channel.logSent, rep.statics]
  exact rep.modifyStatics _

/-- Both note the value rejected. -/
theorem logRejected {who : TcbPtr n} {value : V} (rep : Rep none kernel spec) :
    Rep none (Channel.logRejected kernel id who value) (Channel.logRejected spec id who value) := by
  simp only [Channel.logRejected, rep.statics]
  exact rep.modifyStatics _

/-- Both note the value returned. -/
theorem logReturned {who : TcbPtr n} {value : V} (rep : Rep none kernel spec) :
    Rep none (Channel.logReturned kernel id who value) (Channel.logReturned spec id who value) := by
  simp only [Channel.logReturned, rep.statics]
  exact rep.modifyStatics _

/-- The value goes to the frame of the same receiver. -/
theorem handOff {who : TcbPtr n} {value : V} (rep : Rep none kernel spec) :
    Simulates Alike (Channel.handOff kernel id who value) (Channel.handOff spec id who value) := by
  unfold Channel.handOff
  apply Simulates.bind (rep.waitListPopHighest _)
  rintro ⟨popped, task⟩ ⟨popped', task'⟩ ⟨related, rfl⟩
  cases task with
  | none => exact rfl
  | some task =>
      simp only [deref_some, bind, Except.bind]
      rw [related.waitFrame_eq]
      have owns := related.wf.ownFrame task
      cases frame : Kernel.waitFrame popped' task with
      | error fault => exact rfl
      | ok slot =>
          have filled : Rep (some task) (Kernel.setFrame popped (some slot) (some value))
              (Kernel.setFrame popped' (some slot) (some value)) := related.modifyStatics _
          simp only
          rw [show (Kernel.setFrame popped (some slot) (some value)).channel id =
            (Kernel.setFrame popped' (some slot) (some value)).channel id from
              congrArg (fun statics => statics.channel id) filled.statics]
          have logged := filled.modifyStatics fun statics => { statics with
            channel := Function.update statics.channel id
              { (Kernel.setFrame popped' (some slot) (some value)).channel id with
                entered := ((Kernel.setFrame popped' (some slot) (some value)).channel id).entered ++
                  [(who, value)]
                left := ((Kernel.setFrame popped' (some slot) (some value)).channel id).left ++
                  [(some task, value)] } }
          exact logged.unblock.mono fun _ _ woken => ⟨woken.1, woken.2.1⟩

/-- The buffer is shared, so both store the value or leave it alike. -/
theorem enqueue {hole who : TcbPtr n} {value : V} (rep : Rep hole kernel spec) :
    Simulates (Rep hole) (Channel.enqueue kernel id who value) (Channel.enqueue spec id who value) := by
  simp only [Channel.enqueue, rep.statics]
  apply Simulates.bind (Simulates.refl _)
  rintro inner _ rfl
  exact rep.modifyStatics _

/-- The caller leaves the address of a local behind and blocks. -/
theorem parkLocal {current : Fin n} {value : Option V} (rep : Rep none kernel spec)
    (running : CurrentRuns spec) (list : WaitList) :
    Simulates (Rep none)
      (((kernel.setFrame (some current) value).setWaitPtr current
        (.stack current)).blockCurrent list)
      (((spec.setFrame (some current) value).setWaitPtr current
        (.stack current)).blockCurrent list) := by
  have stored : Rep none (kernel.setFrame (some current) value)
      (spec.setFrame (some current) value) := rep.modifyStatics _
  have parked : Rep none
      ((kernel.setFrame (some current) value).setWaitPtr current (.stack current))
      ((spec.setFrame (some current) value).setWaitPtr current (.stack current)) :=
    stored.setWaitPtr (by simp)
  have runningStored : CurrentRuns (spec.setFrame (some current) value) := running
  exact parked.blockCurrent (currentRuns_setWaitPtr runningStored _ _) list

/-- `send_impl` takes the same of its three branches in both. -/
theorem sendImpl {who : TcbPtr n} {value : V} (rep : Rep none kernel spec)
    (running : CurrentRuns spec) :
    Simulates Alike (Channel.sendImpl kernel id who value) (Channel.sendImpl spec id who value) := by
  have logged : Rep none (Channel.logSent kernel id who value)
      (Channel.logSent spec id who value) := rep.logSent
  simp only [Channel.sendImpl, logged.noWaiter_eq, logged.statics]
  split
  · apply Simulates.bind logged.handOff
    rintro ⟨after, pend⟩ ⟨after', pend'⟩ ⟨related, rfl⟩
    exact ⟨related, rfl⟩
  · split
    · apply Simulates.bind logged.enqueue
      exact fun _ _ related => ⟨related, rfl⟩
    · apply Simulates.bind (Simulates.refl _)
      rintro current _ rfl
      apply Simulates.bind (logged.parkLocal running _)
      exact fun _ _ related => ⟨related, rfl⟩

/-- `try_send_impl` takes the same of its three branches in both. -/
theorem trySendImpl {who : TcbPtr n} {value : V} (rep : Rep none kernel spec) :
    Simulates Alike (Channel.trySendImpl kernel id who value)
      (Channel.trySendImpl spec id who value) := by
  have logged : Rep none (Channel.logSent kernel id who value)
      (Channel.logSent spec id who value) := rep.logSent
  simp only [Channel.trySendImpl, logged.noWaiter_eq, logged.statics]
  split
  · apply Simulates.bind logged.handOff
    rintro ⟨after, pend⟩ ⟨after', pend'⟩ ⟨related, rfl⟩
    exact ⟨related, rfl⟩
  · split
    · apply Simulates.bind logged.enqueue
      exact fun _ _ related => ⟨related, rfl⟩
    · exact ⟨logged.logRejected, rfl⟩

/-- The freed cell is filled from the frame of the same sender. -/
theorem admitSender (rep : Rep none kernel spec) :
    Simulates Alike (Channel.admitSender kernel id) (Channel.admitSender spec id) := by
  simp only [Channel.admitSender, rep.noWaiter_eq]
  split
  · apply Simulates.bind (rep.waitListPopHighest _)
    rintro ⟨popped, task⟩ ⟨popped', task'⟩ ⟨related, rfl⟩
    cases task with
    | none => exact rfl
    | some task =>
        simp only [deref_some, bind, Except.bind]
        rw [related.waitFrame_eq]
        cases Kernel.waitFrame popped' task with
        | error fault => exact rfl
        | ok src =>
            simp only [show popped.toStatics = popped'.toStatics from related.statics]
            cases popped'.frame (some src) with
            | none => exact rfl
            | some value =>
                apply Simulates.bind related.enqueue
                intro _ _ entered
                exact entered.unblock.mono fun _ _ woken => ⟨woken.1, woken.2.1⟩
  · exact ⟨rep, rfl⟩

/-- Both fetch the same value, or fault alike. -/
theorem dequeue {who : TcbPtr n} (rep : Rep none kernel spec) :
    Simulates Alike (Channel.dequeue kernel id who) (Channel.dequeue spec id who) := by
  simp only [Channel.dequeue, rep.statics]
  apply Simulates.bind (Simulates.refl _)
  rintro ⟨inner, value⟩ _ rfl
  exact rep.alike

/-- `recv_impl` finds the same buffer, and blocks or returns alike. -/
theorem recvImpl (rep : Rep none kernel spec) (running : CurrentRuns spec) :
    Simulates Alike (Channel.recvImpl kernel id) (Channel.recvImpl spec id) := by
  simp only [Channel.recvImpl, rep.statics]
  split
  · apply Simulates.bind rep.dequeue
    rintro ⟨after, value⟩ ⟨after', value'⟩ ⟨related, rfl⟩
    simp only [show after.toStatics = after'.toStatics from related.statics]
    have stored : Rep none (Kernel.setFrame after after'.current (some value))
        (Kernel.setFrame after' after'.current (some value)) := related.modifyStatics _
    apply Simulates.bind stored.admitSender
    rintro ⟨final, pend⟩ ⟨final', pend'⟩ ⟨admitted, rfl⟩
    exact ⟨admitted, rfl⟩
  · apply Simulates.bind (Simulates.refl _)
    rintro current _ rfl
    apply Simulates.bind (rep.parkLocal running _)
    exact fun _ _ related => ⟨related, rfl⟩

/-- `try_recv_impl` finds the same buffer and returns the same value. -/
theorem tryRecvImpl {who : TcbPtr n} (rep : Rep none kernel spec) :
    Simulates Alike (Channel.tryRecvImpl kernel id who) (Channel.tryRecvImpl spec id who) := by
  simp only [Channel.tryRecvImpl, rep.statics]
  split
  · apply Simulates.bind rep.dequeue
    rintro ⟨after, value⟩ ⟨after', value'⟩ ⟨related, rfl⟩
    apply Simulates.bind related.admitSender
    rintro ⟨final, pend⟩ ⟨final', pend'⟩ ⟨admitted, rfl⟩
    exact ⟨admitted.logReturned, rfl⟩
  · exact ⟨rep, rfl⟩

/-- `alloc` takes the same slot off the shared free list. -/
theorem alloc {value : V} (rep : Rep none kernel spec) :
    Simulates Alike (Pool.alloc kernel id value) (Pool.alloc spec id value) := by
  simp only [Pool.alloc, rep.statics]
  split
  · apply Simulates.bind (Simulates.refl _)
    rintro ⟨inner, slot⟩ _ rfl
    exact rep.alike
  · exact ⟨rep, rfl⟩

/-- `alloc_blocking` takes the same slot, or parks the value in the frame of `CURRENT` and blocks.
-/
theorem allocBlocking {value : V} (rep : Rep none kernel spec) (running : CurrentRuns spec) :
    Simulates Alike (Pool.allocBlocking kernel id value) (Pool.allocBlocking spec id value) := by
  simp only [Pool.allocBlocking, rep.statics]
  apply Simulates.bind (Simulates.refl _)
  rintro current _ rfl
  split
  · apply Simulates.bind (Simulates.refl _)
    rintro ⟨inner, slot⟩ _ rfl
    have taken : Rep none (kernel.setPool id inner) (spec.setPool id inner) := rep.modifyStatics _
    exact ⟨taken.setWaitPtr (by simp), rfl⟩
  · apply Simulates.bind (rep.parkLocal running _)
    exact fun _ _ related => ⟨related, rfl⟩

/-- `drop` hands the slot to the same waiter, or puts it back on the shared free list. -/
theorem release {slot : U8} (rep : Rep none kernel spec) :
    Simulates Alike (Pool.release kernel id slot) (Pool.release spec id slot) := by
  simp only [Pool.release, rep.noWaiter_eq]
  split
  · apply Simulates.bind (rep.waitListPopHighest _)
    rintro ⟨popped, task⟩ ⟨popped', task'⟩ ⟨related, rfl⟩
    cases task with
    | none => exact rfl
    | some task =>
        simp only [deref_some, bind, Except.bind]
        rw [related.waitFrame_eq]
        cases Kernel.waitFrame popped' task with
        | error fault => exact rfl
        | ok src =>
            simp only [show popped.toStatics = popped'.toStatics from related.statics]
            cases popped'.frame (some src) with
            | none => exact rfl
            | some value =>
                simp only
                split
                · have stored := related.modifyStatics fun statics => { statics with
                    pool := Function.update statics.pool id { popped'.pool id with
                      nodes := Function.update (popped'.pool id).nodes slot.val (some value) } }
                  have assigned : Rep (some task)
                      ((Kernel.modifyStatics popped _).setWaitPtr task
                        (.word (BitVec.ofNat 32 slot.val)))
                      ((Kernel.modifyStatics popped' _).setWaitPtr task
                        (.word (BitVec.ofNat 32 slot.val))) := stored.setWaitPtr (by simp)
                  exact assigned.unblock.mono fun _ _ woken => ⟨woken.1, woken.2.1⟩
                · exact rfl
  · simp only [rep.statics]
    split
    · exact rep.alike
    · exact rfl

/-- Sequencing for sections: same flags, related states. -/
theorem bind {α β : Type} {closure : Exec (Rtos n V × α)} {closure' : Exec (Spec n V × α)}
    {next : Rtos n V × α → Exec (Rtos n V × β)} {next' : Spec n V × α → Exec (Spec n V × β)}
    (first : Simulates Alike closure closure')
    (finish : ∀ after after' flag, Rep none after after' →
      Simulates Alike (next (after, flag)) (next' (after', flag))) :
    Simulates Alike (closure >>= next) (closure' >>= next') := by
  apply Simulates.bind first
  rintro ⟨after, flag⟩ ⟨after', flag'⟩ ⟨related, rfl⟩
  exact finish after after' flag related

/-- Every section. -/
theorem run {who : TcbPtr n} (call : Call V) (rep : Rep none kernel spec)
    (running : call.isrSafe = true ∨ CurrentRuns spec) :
    Simulates Alike (call.run who kernel) (call.run who spec) := by
  have inThread : call.isrSafe = false → CurrentRuns spec := by
    intro notSafe
    simpa [notSafe] using running
  cases call with
  | take id => exact Rep.bind (rep.take (inThread rfl)) fun _ _ _ related => ⟨related, rfl⟩
  | give id => exact Rep.bind rep.give fun _ _ _ related => ⟨related, rfl⟩
  | lock id => exact Rep.bind (rep.lock (inThread rfl)) fun _ _ _ related => ⟨related, rfl⟩
  | dropGuard id => exact Rep.bind rep.unlockInternal fun _ _ _ related => ⟨related, rfl⟩
  | wait condvar mutex => exact Rep.bind (rep.wait (inThread rfl)) fun _ _ _ related => ⟨related, rfl⟩
  | notifyOne id => exact Rep.bind rep.notifyOne fun _ _ _ related => ⟨related, rfl⟩
  | notifyAll id => exact Rep.bind rep.notifyAll fun _ _ _ related => ⟨related, rfl⟩
  | set id mask => exact Rep.bind rep.set fun _ _ _ related => ⟨related, rfl⟩
  | setFromIsr id mask trigger => exact Rep.bind rep.setFromIsr fun _ _ _ related => ⟨related, rfl⟩
  | waitAny id mask => exact Rep.bind (rep.waitAny (inThread rfl)) fun _ _ _ related => ⟨related, rfl⟩
  | waitAll id mask => exact Rep.bind (rep.waitAll (inThread rfl)) fun _ _ _ related => ⟨related, rfl⟩
  | callOnce id => exact Rep.bind (rep.enter (inThread rfl)) fun _ _ _ related => ⟨related, rfl⟩
  | finishOnce id => exact Rep.bind rep.finish fun _ _ _ related => ⟨related, rfl⟩
  | send id value => exact Rep.bind (rep.sendImpl (inThread rfl)) fun _ _ _ related => ⟨related, rfl⟩
  | trySend id value => exact Rep.bind rep.trySendImpl fun _ _ _ related => ⟨related, rfl⟩
  | recv id => exact Rep.bind (rep.recvImpl (inThread rfl)) fun _ _ _ related => ⟨related, rfl⟩
  | tryRecv id => exact Rep.bind rep.tryRecvImpl fun _ _ _ related => ⟨related, rfl⟩
  | alloc id value => exact Rep.bind rep.alloc fun _ _ _ related => ⟨related, rfl⟩
  | allocBlocking id value => exact Rep.bind (rep.allocBlocking (inThread rfl)) fun _ _ _ related => ⟨related, rfl⟩
  | releaseBox id slot => exact Rep.bind rep.release fun _ _ _ related => ⟨related, rfl⟩
  | yieldNow => exact Simulates.bind (rep.yieldNow (inThread rfl)) fun _ _ related => ⟨related, rfl⟩
  | sleepUntil deadline => exact Simulates.bind (rep.sleepUntil (inThread rfl)) fun _ _ related => ⟨related, rfl⟩
  | exit => exact Simulates.bind (rep.exit (inThread rfl)) fun _ _ related => ⟨related, rfl⟩
  | tryTake id => exact ⟨rep.tryTake.1, rfl⟩
  | tryLock id =>
      have tried : Alike (Mutex.tryLock kernel id) (Mutex.tryLock spec id) := rep.tryLock
      exact ⟨tried.1, congrArg (fun acquired : Bool =>
        ({ pc := if acquired then .lockRet id else .user } : Outcome)) tried.2⟩
  | clear id mask => exact ⟨rep.clear, rfl⟩
  | sleep duration => exact ⟨rep, by simp only [Kernel.sleepDeadline, rep.statics]⟩

end Rep

end Kangaroos
