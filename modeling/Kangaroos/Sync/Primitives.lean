import Kangaroos.Kernel.WaitList

/-!
# Synchronisation primitives

The critical sections of `sync/`: each definition is the closure of one
`interrupt_free` call (or the one function two of them share), from the state
before to the state after, together with the flags the closure leaves in the
locals of its function. What the function does with the flags afterwards is in
`Kangaroos.Machine`.
-/

namespace Kangaroos

variable {n : Nat} {V Link Head : Type} [ops : WaitOps n V Link Head]

/-- `inner.wait_head.is_null()`. -/
def Kernel.noWaiter (kernel : Kernel n V Link Head) (list : WaitList) : Bool :=
  ops.isNull (kernel.waitHead list)

/-- Pop the most urgent waiter and unblock it. -/
def Kernel.wakeHighest (kernel : Kernel n V Link Head) (list : WaitList) :
    Exec (Kernel n V Link Head × Bool) := do
  let (kernel, popped) ← WaitOps.waitListPopHighest kernel list
  let task ← deref popped
  kernel.unblock task

/-- `block_and_push(&mut inner.wait_head, CURRENT)`. -/
def Kernel.blockCurrent (kernel : Kernel n V Link Head) (list : WaitList) :
    Exec (Kernel n V Link Head) := do
  let current ← deref kernel.current
  .ok (WaitOps.blockAndPush kernel list current)

/-- `while !inner.wait_head.is_null()`: pop and unblock; the flag says whether any
woken task is more urgent than `CURRENT`. -/
def Kernel.drain (list : WaitList) :
    Nat → Kernel n V Link Head × Bool → Exec (Kernel n V Link Head × Bool)
  | 0, (kernel, preempt) =>
    if kernel.noWaiter list then .ok (kernel, preempt) else .error .diverges
  | fuel + 1, (kernel, preempt) =>
    if kernel.noWaiter list then .ok (kernel, preempt)
    else do
      let (kernel, urgent) ← kernel.wakeHighest list
      drain list fuel (kernel, preempt || urgent)

namespace Semaphore

/-- `Semaphore::new`. -/
def new (initial max : U8) : SemaphoreInner := { count := initial, max }

/-- `Semaphore::take`; the flag is `must_block`. -/
def take (kernel : Kernel n V Link Head) (id : Nat) : Exec (Kernel n V Link Head × Bool) := do
  let inner := kernel.semaphore id
  if 0 < inner.count then
    .ok (kernel.setSemaphore id { inner with count := inner.count - 1 }, false)
  else
    let kernel ← kernel.blockCurrent (.semaphore id)
    .ok (kernel, true)

/-- `Semaphore::try_take`; the flag is its result. -/
def tryTake (kernel : Kernel n V Link Head) (id : Nat) : Kernel n V Link Head × Bool :=
  let inner := kernel.semaphore id
  if 0 < inner.count then
    (kernel.setSemaphore id { inner with count := inner.count - 1 }, true)
  else (kernel, false)

/-- `Semaphore::give`; the flag is `need_preempt`. -/
def give (kernel : Kernel n V Link Head) (id : Nat) : Exec (Kernel n V Link Head × Bool) :=
  let inner := kernel.semaphore id
  if !kernel.noWaiter (.semaphore id) then kernel.wakeHighest (.semaphore id)
  else if inner.count < inner.max then
    .ok (kernel.setSemaphore id { inner with count := inner.count + 1 }, false)
  else .ok (kernel, false)

end Semaphore

namespace Mutex

/-- `Mutex::lock`; the flag is `must_block`. -/
def lock (kernel : Kernel n V Link Head) (id : Nat) : Exec (Kernel n V Link Head × Bool) :=
  match kernel.owner id with
  | none => .ok (kernel.setOwner id kernel.current, false)
  | some owner => do
    let current ← deref kernel.current
    let curPrio := (kernel.tcb current).priority
    -- priority inheritance: only the immediate owner is boosted
    let kernel :=
      if curPrio < (kernel.tcb owner).priority then kernel.setPriority owner curPrio else kernel
    let kernel ← kernel.blockCurrent (.mutex id)
    .ok (kernel, true)

/-- `Mutex::try_lock`; the flag is `acquired`. -/
def tryLock (kernel : Kernel n V Link Head) (id : Nat) : Kernel n V Link Head × Bool :=
  match kernel.owner id with
  | none => (kernel.setOwner id kernel.current, true)
  | some _ => (kernel, false)

/-- `Mutex::unlock_internal`; the flag is `need_preempt`. -/
def unlockInternal (kernel : Kernel n V Link Head) (id : Nat) :
    Exec (Kernel n V Link Head × Bool) := do
  let oldOwner ← deref (kernel.owner id)
  let kernel := kernel.setPriority oldOwner (kernel.tcb oldOwner).basePriority
  if !kernel.noWaiter (.mutex id) then do
    let (kernel, popped) ← WaitOps.waitListPopHighest kernel (.mutex id)
    let kernel := kernel.setOwner id popped
    let nextOwner ← deref popped
    kernel.unblock nextOwner
  else .ok (kernel.setOwner id none, false)

end Mutex

namespace Condvar

/-- `Condvar::wait` up to the end of its critical section; the flag says whether the
nested `unlock_internal` pended a switch. -/
def wait (kernel : Kernel n V Link Head) (id mutex : Nat) :
    Exec (Kernel n V Link Head × Bool) := do
  let kernel ← kernel.blockCurrent (.condvar id)
  Mutex.unlockInternal kernel mutex

/-- `Condvar::notify_one`; the flag is `need_preempt`. -/
def notifyOne (kernel : Kernel n V Link Head) (id : Nat) : Exec (Kernel n V Link Head × Bool) :=
  if kernel.noWaiter (.condvar id) then .ok (kernel, false)
  else kernel.wakeHighest (.condvar id)

/-- `Condvar::notify_all`; the flag is `need_preempt`. -/
def notifyAll (kernel : Kernel n V Link Head) (id : Nat) : Exec (Kernel n V Link Head × Bool) :=
  Kernel.drain (.condvar id) n (kernel, false)

end Condvar

namespace EventGroup

/-- `EventGroup::set`; its result and `need_preempt`. -/
def set (kernel : Kernel n V Link Head) (id : Nat) (mask : Word) :
    Exec (Kernel n V Link Head × Word × Bool) := do
  let kernel := kernel.setBits id (kernel.bits id ||| mask)
  let (kernel, preemptAny) ← WaitOps.scan kernel .any id (.eventAny id)
  let (kernel, preemptAll) ← WaitOps.scan kernel .all id (.eventAll id)
  .ok (kernel, kernel.bits id, preemptAny || preemptAll)

/-- `EventGroup::set_from_isr`; the flag is its result. -/
def setFromIsr (kernel : Kernel n V Link Head) (id : Nat) (mask : Word) :
    Exec (Kernel n V Link Head × Bool) := do
  let kernel := kernel.setBits id (kernel.bits id ||| mask)
  let (kernel, preemptAny) ← WaitOps.scan kernel .any id (.eventAny id)
  let (kernel, preemptAll) ← WaitOps.scan kernel .all id (.eventAll id)
  .ok (kernel, preemptAny || preemptAll)

/-- The two setters run the same scans. -/
theorem set_eq_setFromIsr (kernel : Kernel n V Link Head) (id : Nat) (mask : Word) :
    set kernel id mask = (do
      let (kernel, preempt) ← setFromIsr kernel id mask
      .ok (kernel, kernel.bits id, preempt)) := by
  simp only [set, setFromIsr, bind_assoc]
  rfl

/-- `EventGroup::clear`. -/
def clear (kernel : Kernel n V Link Head) (id : Nat) (mask : Word) : Kernel n V Link Head :=
  kernel.setBits id (kernel.bits id &&& ~~~mask)

/-- `EventGroup::wait_any`; the flag is `must_block`. -/
def waitAny (kernel : Kernel n V Link Head) (id : Nat) (mask : Word) :
    Exec (Kernel n V Link Head × Bool) := do
  let current ← deref kernel.current
  let matched := kernel.bits id &&& mask
  if matched ≠ 0 then
    let kernel := kernel.setBits id (kernel.bits id &&& ~~~matched)
    .ok (kernel.setWaitPtr current (.word matched), false)
  else
    let kernel := kernel.setWaitPtr current (.word mask)
    let kernel ← kernel.blockCurrent (.eventAny id)
    .ok (kernel, true)

/-- `EventGroup::wait_all`; the flag is `must_block`. -/
def waitAll (kernel : Kernel n V Link Head) (id : Nat) (mask : Word) :
    Exec (Kernel n V Link Head × Bool) := do
  if kernel.bits id &&& mask = mask then
    .ok (kernel.setBits id (kernel.bits id &&& ~~~mask), false)
  else
    let current ← deref kernel.current
    let kernel := kernel.setWaitPtr current (.word mask)
    let kernel ← kernel.blockCurrent (.eventAll id)
    .ok (kernel, true)

end EventGroup

namespace Once

/-- The part a caller of `call_once` plays. -/
inductive Role where
  | bystander
  | initializer
  | waiter
  deriving DecidableEq

/-- The first critical section of `Once::call_once`. -/
def enter (kernel : Kernel n V Link Head) (id : Nat) : Exec (Kernel n V Link Head × Role) :=
  match kernel.once id with
  | .done => .ok (kernel, .bystander)
  | .unstarted => .ok (kernel.setOnce id .running, .initializer)
  | .running => do
    let kernel ← kernel.blockCurrent (.once id)
    .ok (kernel, .waiter)

/-- The second critical section of `Once::call_once`; the flag is `need_preempt`. -/
def finish (kernel : Kernel n V Link Head) (id : Nat) : Exec (Kernel n V Link Head × Bool) :=
  Kernel.drain (.once id) n (kernel.setOnce id .done, false)

end Once

end Kangaroos
