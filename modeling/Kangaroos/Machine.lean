import Kangaroos.Kernel.Task
import Kangaroos.Logic.Transition
import Kangaroos.Sync.Channel
import Kangaroos.Sync.Pool

/-!
# The single-core machine

One core runs tasks in Thread mode and three kinds of handlers. Every
`interrupt_free` closure is one step, because it runs with interrupts masked.
Between closures anything may arrive: an interrupt handler that calls the
interrupt-safe operations, SysTick, or PendSV.

PendSV has the lowest priority and masks nothing, so it is taken as the steps it
is coded as and any other handler may run between two of them. A pending PendSV
is taken before the interrupted task executes its next instruction.

Each task carries its program point inside the kernel: the critical section it
enters next, or the place a call returns from. `trig` is set between the end of
a critical section and the `trigger_pendsv()` that follows it.
-/

namespace Kangaroos

/-- Where a task goes on after a critical section. -/
inductive Pc where
  | user
  | takeRet (id : Nat)
  | lockRet (id : Nat)
  | relock (id : Nat)
  | waitAnyRet (id : Nat)
  | waitAllRet (id : Nat)
  | onceRet (id : Nat)
  | sendRet (id : Nat)
  | recvRet (id : Nat)
  | allocRet (id : Nat) (slot : U8)
  | allocBlockingRet (id : Nat)
  | sleepUntil (deadline : U64)
  | halted
  deriving DecidableEq

/-- Application code that runs inside a kernel call: the closure of `call_once`, or
the destructor `PoolBox::drop` runs before its critical section. -/
inductive Frame where
  | once (id : Nat)
  | boxDrop (id : Nat) (slot : U8)
  deriving DecidableEq

/-- The critical sections of the kernel. -/
inductive Call (V : Type) where
  | take (id : Nat)
  | tryTake (id : Nat)
  | give (id : Nat)
  | lock (id : Nat)
  | tryLock (id : Nat)
  | dropGuard (id : Nat)
  | wait (condvar mutex : Nat)
  | notifyOne (id : Nat)
  | notifyAll (id : Nat)
  | set (id : Nat) (mask : Word)
  | setFromIsr (id : Nat) (mask : Word) (trigger : Bool)
  | clear (id : Nat) (mask : Word)
  | waitAny (id : Nat) (mask : Word)
  | waitAll (id : Nat) (mask : Word)
  | callOnce (id : Nat)
  | finishOnce (id : Nat)
  | send (id : Nat) (value : V)
  | trySend (id : Nat) (value : V)
  | recv (id : Nat)
  | tryRecv (id : Nat)
  | alloc (id : Nat) (value : V)
  | allocBlocking (id : Nat) (value : V)
  | releaseBox (id : Nat) (slot : U8)
  | yieldNow
  | sleep (duration : U64)
  | sleepUntil (deadline : U64)
  | exit

/-- What follows a critical section: whether `trigger_pendsv()` is called, whether
the section itself already called it, the program point after it, and the user
code it starts. -/
structure Outcome where
  pend : Bool := false
  inside : Bool := false
  pc : Pc := .user
  push : Option Frame := none

namespace Call

variable {n : Nat} {V Link Head : Type} [ops : WaitOps n V Link Head]

/-- Run one critical section on behalf of `who` (`none` in an interrupt handler). -/
def run (who : TcbPtr n) (kernel : Kernel n V Link Head) :
    Call V → Exec (Kernel n V Link Head × Outcome)
  | take id => do
    let (kernel, mustBlock) ← Semaphore.take kernel id
    .ok (kernel, { pend := mustBlock, pc := .takeRet id })
  | tryTake id => .ok ((Semaphore.tryTake kernel id).1, {})
  | give id => do
    let (kernel, needPreempt) ← Semaphore.give kernel id
    .ok (kernel, { pend := needPreempt })
  | lock id => do
    let (kernel, mustBlock) ← Mutex.lock kernel id
    .ok (kernel, { pend := mustBlock, pc := .lockRet id })
  | tryLock id =>
    let (kernel, acquired) := Mutex.tryLock kernel id
    .ok (kernel, { pc := if acquired then .lockRet id else .user })
  | dropGuard id => do
    let (kernel, needPreempt) ← Mutex.unlockInternal kernel id
    .ok (kernel, { pend := needPreempt })
  | wait condvar mutex => do
    let (kernel, inside) ← Condvar.wait kernel condvar mutex
    .ok (kernel, { pend := true, inside, pc := .relock mutex })
  | notifyOne id => do
    let (kernel, needPreempt) ← Condvar.notifyOne kernel id
    .ok (kernel, { pend := needPreempt })
  | notifyAll id => do
    let (kernel, needPreempt) ← Condvar.notifyAll kernel id
    .ok (kernel, { pend := needPreempt })
  | set id mask => do
    let (kernel, _, needPreempt) ← EventGroup.set kernel id mask
    .ok (kernel, { pend := needPreempt })
  | setFromIsr id mask trigger => do
    let (kernel, preempt) ← EventGroup.setFromIsr kernel id mask
    .ok (kernel, { pend := preempt && trigger })
  | clear id mask => .ok (EventGroup.clear kernel id mask, {})
  | waitAny id mask => do
    let (kernel, mustBlock) ← EventGroup.waitAny kernel id mask
    .ok (kernel, { pend := mustBlock, pc := .waitAnyRet id })
  | waitAll id mask => do
    let (kernel, mustBlock) ← EventGroup.waitAll kernel id mask
    .ok (kernel, { pend := mustBlock, pc := .waitAllRet id })
  | callOnce id => do
    let (kernel, role) ← Once.enter kernel id
    .ok (kernel,
      match role with
      | .bystander => {}
      | .initializer => { push := some (.once id) }
      | .waiter => { pend := true, pc := .onceRet id })
  | finishOnce id => do
    let (kernel, needPreempt) ← Once.finish kernel id
    .ok (kernel, { pend := needPreempt })
  | send id value => do
    let (kernel, needPreempt, mustBlock) ← Channel.sendImpl kernel id who value
    .ok (kernel, { pend := needPreempt || mustBlock, pc := .sendRet id })
  | trySend id value => do
    let (kernel, needPreempt, _) ← Channel.trySendImpl kernel id who value
    .ok (kernel, { pend := needPreempt })
  | recv id => do
    let (kernel, needPreempt, mustBlock) ← Channel.recvImpl kernel id
    .ok (kernel, { pend := needPreempt || mustBlock, pc := .recvRet id })
  | tryRecv id => do
    let (kernel, needPreempt, _) ← Channel.tryRecvImpl kernel id who
    .ok (kernel, { pend := needPreempt })
  | alloc id value => do
    let (kernel, slot) ← Pool.alloc kernel id value
    .ok (kernel, { pc := slot.elim .user (.allocRet id) })
  | allocBlocking id value => do
    let (kernel, mustBlock) ← Pool.allocBlocking kernel id value
    .ok (kernel, { pend := mustBlock, pc := .allocBlockingRet id })
  | releaseBox id slot => do
    let (kernel, needPreempt) ← Pool.release kernel id slot
    .ok (kernel, { pend := needPreempt })
  | yieldNow => do
    let kernel ← kernel.yieldNow
    .ok (kernel, { pend := true })
  | sleep duration => .ok (kernel, { pc := .sleepUntil (kernel.sleepDeadline duration) })
  | sleepUntil deadline => do
    let kernel ← kernel.sleepUntil deadline
    .ok (kernel, { pend := true })
  | exit => do
    let kernel ← kernel.exit
    .ok (kernel, { pend := true, pc := .halted })

/-- The operations documented as callable from interrupt handlers, and the notifies. -/
def isrSafe : Call V → Bool
  | tryTake _ | give _ | notifyOne _ | notifyAll _ | set _ _ | setFromIsr _ _ _ | clear _ _
  | trySend _ _ | tryRecv _ | alloc _ _ => true
  | _ => false

end Call

/-- A task as seen from outside the kernel data: its program point, whether a
`trigger_pendsv()` is still to be executed, the kernel calls whose user code is
running, and its live mutex guards. -/
structure Thread where
  pc : Pc := .user
  trig : Bool := false
  frames : List Frame := []
  guards : List Nat := []

namespace Thread

variable {V : Type}

/-- Whether a critical section is what the task executes next. Application code may
call any operation; it can drop or wait with the guards it has, and the section
that ends a `call_once` or a `PoolBox::drop` follows its user code. -/
def mayCall (thread : Thread) : Call V → Bool
  | .lock id => thread.pc = .user || thread.pc = .relock id
  | .sleepUntil deadline => thread.pc = .user || thread.pc = .sleepUntil deadline
  | .dropGuard id => thread.pc = .user && id ∈ thread.guards
  | .wait _ mutex => thread.pc = .user && mutex ∈ thread.guards
  | .finishOnce id => thread.pc = .user && thread.frames.head? = some (.once id)
  | .releaseBox id slot => thread.pc = .user && thread.frames.head? = some (.boxDrop id slot)
  | .setFromIsr _ _ _ => false
  | _ => thread.pc = .user

/-- The live guards after a critical section: `drop` and `wait` consume one. -/
def guardsAfter (thread : Thread) : Call V → List Nat
  | .dropGuard id => thread.guards.erase id
  | .wait _ mutex => thread.guards.erase mutex
  | _ => thread.guards

/-- The running user code after a critical section. -/
def framesAfter (thread : Thread) (push : Option Frame) : Call V → List Frame
  | .finishOnce _ => thread.frames.tail
  | .releaseBox _ _ => thread.frames.tail
  | _ => push.toList ++ thread.frames

/-- The task after a critical section. -/
def after (thread : Thread) (call : Call V) (outcome : Outcome) : Thread where
  pc := outcome.pc
  trig := outcome.pend
  frames := thread.framesAfter outcome.push call
  guards := thread.guardsAfter call

end Thread

/-- How far an activation of PendSV has come. A search pass holds where `find_next`
started, the node it looks at next, and the best task so far. -/
inductive Handler (n : Nat) where
  | inactive
  | entered
  | pass1 (start next : TcbPtr n) (best : TcbPtr n × U8)
  | pass2 (start next : TcbPtr n) (best : TcbPtr n × U8)
  | selected (task : Fin n)
  | switched (task : Fin n)
  deriving DecidableEq

/-- The whole system. `boxes` are the slots of the live `PoolBox`es of each pool, and
`isrSlots` those assigned to an `alloc` in an interrupt handler that has not returned. -/
structure Machine (n : Nat) (V Link Head : Type) where
  kernel : Kernel n V Link Head
  pendsv : Bool
  handler : Handler n
  thread : Fin n → Thread
  boxes : Nat → List U8
  isrSlots : Nat → List U8

/-- The steps of the machine. -/
inductive Action (V : Type) where
  /-- `svc #0`: dispatch the first task. -/
  | launch
  /-- The running task executes a critical section. -/
  | call (call : Call V)
  /-- The running task executes the `trigger_pendsv()` that follows a critical section. -/
  | trigger
  /-- The running task returns from a kernel call. -/
  | ret
  /-- The running task drops a live `PoolBox`: the value is destroyed. -/
  | dropBox (id : Nat) (slot : U8)
  /-- The running task writes through a live `PoolBox`. -/
  | writeBox (id : Nat) (slot : U8) (value : V)
  /-- The running task forgets a live guard. -/
  | forgetGuard (id : Nat)
  /-- An interrupt handler executes a critical section. -/
  | isr (call : Call V)
  /-- An `alloc` in an interrupt handler returns its box. -/
  | isrRet (id : Nat) (slot : U8)
  /-- SysTick. -/
  | tick
  /-- PendSV is taken, or advances by one step; `sp` is the stack pointer of the
  interrupted task. -/
  | pendsv (sp : Word)

namespace Machine

variable {n : Nat} {V Link Head : Type}

/-- The task whose next instruction may execute: none while PendSV is pending or active. -/
def threadTask (machine : Machine n V Link Head) : TcbPtr n :=
  match machine.handler with
  | .inactive => if machine.pendsv then none else machine.kernel.current
  | _ => none

/-- Replace the record of one task. -/
def setThread (machine : Machine n V Link Head) (task : Fin n) (thread : Thread) :
    Machine n V Link Head :=
  { machine with thread := Function.update machine.thread task thread }

/-- A slot becomes the slot of a live box. -/
def addBox (machine : Machine n V Link Head) (id : Nat) (slot : U8) : Machine n V Link Head :=
  { machine with boxes := Function.update machine.boxes id (slot :: machine.boxes id) }

/-- A live box is consumed. -/
def removeBox (machine : Machine n V Link Head) (id : Nat) (slot : U8) : Machine n V Link Head :=
  { machine with boxes := Function.update machine.boxes id ((machine.boxes id).erase slot) }

/-- The end of `find_next`. -/
def endSearch (machine : Machine n V Link Head) (best : TcbPtr n) : Exec (Machine n V Link Head) :=
  match best with
  | some task => .ok { machine with handler := .selected task }
  | none => .error .noReadyTask

/-- One step of PendSV, if it is pending or active. -/
def pendsvStep (machine : Machine n V Link Head) (sp : Word) :
    Option (Exec (Machine n V Link Head)) :=
  let kernel := machine.kernel
  match machine.handler with
  | .inactive =>
    if machine.pendsv then some (.ok { machine with pendsv := false, handler := .entered })
    else none
  | .entered => some do
    let kernel ← kernel.saveCurrent sp
    .ok { machine with
      kernel, handler := .pass1 kernel.searchStart kernel.searchStart (none, 255) }
  | .pass1 start (some task) best =>
    some (.ok { machine with
      handler := .pass1 start (kernel.tcb task).allNext (kernel.consider task best) })
  | .pass1 start none best =>
    some (.ok { machine with handler := .pass2 start kernel.allTasks best })
  | .pass2 start (some task) best =>
    if some task = start then some (machine.endSearch best.1)
    else
      some (.ok { machine with
        handler := .pass2 start (kernel.tcb task).allNext (kernel.consider task best) })
  | .pass2 _ none best => some (machine.endSearch best.1)
  | .selected task =>
    some (.ok { machine with
      kernel := kernel.setCurrent (some task), handler := .switched task })
  | .switched task => some do
    let kernel ← kernel.markRunning task
    .ok { machine with kernel, handler := .inactive }

/-- The running task returns from the kernel call it is in. -/
def returnFrom (machine : Machine n V Link Head) (task : Fin n) :
    Option (Exec (Machine n V Link Head)) :=
  let kernel := machine.kernel
  let thread := machine.thread task
  let back := machine.setThread task { thread with pc := .user }
  match thread.pc with
  | .takeRet _ | .waitAllRet _ | .onceRet _ | .sendRet _ => some (.ok back)
  | .lockRet id =>
    some (.ok (machine.setThread task { thread with pc := .user, guards := id :: thread.guards }))
  | .waitAnyRet _ => some do
    let _ ← kernel.waitWord task
    .ok back
  | .recvRet id =>
    match kernel.frame (some task) with
    | none => some (.error .uninitialised)
    | some value =>
      some (.ok { back with kernel := Channel.logReturned kernel id (some task) value })
  | .allocRet id slot => some (.ok (back.addBox id slot))
  | .allocBlockingRet id => some do
    let slot ← Pool.assignedSlot kernel task
    .ok (back.addBox id slot)
  | _ => none

variable [ops : WaitOps n V Link Head]

/-- Perform an action: `none` if it cannot happen in this state, otherwise the next
state or the fault it runs into. The idle task only waits for interrupts. -/
def perform (idle : Fin n) (machine : Machine n V Link Head) (action : Action V) :
    Option (Exec (Machine n V Link Head)) :=
  let kernel := machine.kernel
  match action with
  | .launch =>
    if kernel.current = none then some do
      let (kernel, _) ← kernel.svcFirstTaskSp
      .ok { machine with kernel }
    else none
  | .tick => some do
    let (kernel, preempt) ← kernel.tick
    .ok { machine with kernel, pendsv := machine.pendsv || preempt }
  | .pendsv sp => machine.pendsvStep sp
  | .isr call =>
    if call.isrSafe then some do
      let (kernel, outcome) ← call.run none kernel
      let isrSlots :=
        match outcome.pc with
        | .allocRet id slot => Function.update machine.isrSlots id (slot :: machine.isrSlots id)
        | _ => machine.isrSlots
      .ok { machine with kernel, pendsv := machine.pendsv || outcome.pend, isrSlots }
    else none
  | .isrRet id slot =>
    if slot ∈ machine.isrSlots id then
      some (.ok { machine.addBox id slot with
        isrSlots := Function.update machine.isrSlots id ((machine.isrSlots id).erase slot) })
    else none
  | .call call =>
    match machine.threadTask with
    | none => none
    | some task =>
      let thread := machine.thread task
      if task ≠ idle ∧ thread.trig = false ∧ thread.mayCall call = true then some do
        let (kernel, outcome) ← call.run (some task) kernel
        .ok { machine.setThread task (thread.after call outcome) with
          kernel, pendsv := outcome.inside }
      else none
  | .trigger =>
    match machine.threadTask with
    | none => none
    | some task =>
      let thread := machine.thread task
      if thread.trig = true then
        some (.ok { machine.setThread task { thread with trig := false } with pendsv := true })
      else none
  | .ret =>
    match machine.threadTask with
    | none => none
    | some task => if (machine.thread task).trig = true then none else machine.returnFrom task
  | .dropBox id slot =>
    match machine.threadTask with
    | none => none
    | some task =>
      let thread := machine.thread task
      if task ≠ idle ∧ thread.trig = false ∧ thread.pc = .user ∧ slot ∈ machine.boxes id then
        some do
          let kernel ← Pool.destroy kernel id slot
          let thread := { thread with frames := .boxDrop id slot :: thread.frames }
          .ok { (machine.removeBox id slot).setThread task thread with kernel }
      else none
  | .writeBox id slot value =>
    match machine.threadTask with
    | none => none
    | some task =>
      let thread := machine.thread task
      if task ≠ idle ∧ thread.trig = false ∧ thread.pc = .user ∧ slot ∈ machine.boxes id then
        some do
          let kernel ← Pool.write kernel id slot value
          .ok { machine with kernel }
      else none
  | .forgetGuard id =>
    match machine.threadTask with
    | none => none
    | some task =>
      let thread := machine.thread task
      if task ≠ idle ∧ thread.trig = false ∧ thread.pc = .user ∧ id ∈ thread.guards then
        some (.ok (machine.setThread task { thread with guards := thread.guards.erase id }))
      else none

/-- Whether an action can be performed and leaves a state that passes `check`. -/
def performPasses (idle : Fin n) (machine : Machine n V Link Head) (action : Action V)
    (check : Machine n V Link Head → Bool) : Bool :=
  match machine.perform idle action with
  | some (.ok next) => check next
  | _ => false

/-- Perform a sequence of actions as long as each is `allowed`, for executing the model on
concrete runs. -/
def performWithin (allowed : Machine n V Link Head → Action V → Bool) (idle : Fin n) :
    Machine n V Link Head → List (Action V) → Option (Exec (Machine n V Link Head))
  | machine, [] => some (.ok machine)
  | machine, action :: rest =>
    if allowed machine action then
      match machine.perform idle action with
      | some (.ok next) => performWithin allowed idle next rest
      | other => other
    else none

/-- Perform a sequence of actions. -/
def performAll (idle : Fin n) (machine : Machine n V Link Head) (actions : List (Action V)) :
    Option (Exec (Machine n V Link Head)) :=
  performWithin (fun _ _ => true) idle machine actions

end Machine

/-- A system: the tasks `main` spawns, in order, the TCB of the idle task, and the
arguments of the constructors of the statics. Every TCB is spawned once. -/
structure Config (n : Nat) where
  tokens : List (SpawnToken n)
  idle : Fin n
  semaphore : Nat → U8 × U8
  channel : Nat → Nat
  pool : Nat → Nat
  distinct : (idle :: tokens.map SpawnToken.tcb).Nodup
  poolBound : ∀ id, pool id ≤ 255

namespace Config

variable {n : Nat}

instance pair_neZero : NeZero 3 := inferInstance

instance small_neZero : NeZero 4 := inferInstance

/-- Pools of one slot are within the bound of a configuration. -/
theorem one_pool_slot (_ : Nat) : 1 ≤ 255 := by decide

/-- Three tasks of the given priorities beside the idle task, with one-slot semaphores,
channels and pools. -/
def small (first second third : U8) : Config 4 where
  tokens :=
    [{ tcb := 1, stackPtr := 0, stackLen := 64, priority := first, timeSlice := 5 },
     { tcb := 2, stackPtr := 0, stackLen := 64, priority := second, timeSlice := 5 },
     { tcb := 3, stackPtr := 0, stackLen := 64, priority := third, timeSlice := 5 }]
  idle := 0
  semaphore _ := (0, 1)
  channel _ := 1
  pool _ := 1
  distinct := by
    show ([0, 1, 2, 3] : List (Fin 4)).Nodup
    decide
  poolBound := one_pool_slot

/-- A kernel call that blocks the running task, and the PendSV it triggers: with four
tasks, ten steps from its pending to the next task. -/
def thenSwitch {V : Type} (call : Call V) : List (Action V) :=
  [.call call, .trigger] ++ List.replicate 10 (.pendsv 0)

/-- `idle::register`: priority `u8::MAX`, one tick, 64 words of stack. -/
def idleToken (config : Config n) : SpawnToken n where
  tcb := config.idle
  stackPtr := 0
  stackLen := 64
  priority := 255
  timeSlice := 1

variable (V Link Head : Type) [ops : WaitOps n V Link Head]

/-- The statics as their constructors leave them. -/
def reset (config : Config n) : Kernel n V Link Head where
  current := none
  allTasks := none
  tickCount := 0
  semaphore id := Semaphore.new (config.semaphore id).1 (config.semaphore id).2
  owner _ := none
  bits _ := 0
  once _ := .unstarted
  channel id := Channel.new n V (config.channel id)
  pool id := Pool.new V (config.pool id)
  frame _ := none
  tcb _ := .zeroed
  waitHead _ := ops.null

/-- `main` and the first line of `kernel::start`: spawn the tasks, register the idle task. -/
def boot (config : Config n) : Exec (Kernel n V Link Head) :=
  (config.tokens ++ [config.idleToken]).foldlM Kernel.spawnInto (config.reset V Link Head)

/-- The machine with a booted kernel. -/
def start (kernel : Kernel n V Link Head) : Machine n V Link Head where
  kernel := kernel
  pendsv := false
  handler := .inactive
  thread _ := {}
  boxes _ := []
  isrSlots _ := []

/-- Boot and perform a sequence of allowed actions. -/
def execute (config : Config n) (allowed : Machine n V Link Head → Action V → Bool)
    (actions : List (Action V)) : Option (Exec (Machine n V Link Head)) :=
  match config.boot V Link Head with
  | .ok kernel => Machine.performWithin allowed config.idle (start V Link Head kernel) actions
  | .error fault => some (.error fault)

/-- Whether a sequence of allowed actions can be performed and ends in a state that passes
`check`. -/
def passesWithin (config : Config n) (allowed : Machine n V Link Head → Action V → Bool)
    (actions : List (Action V)) (check : Machine n V Link Head → Bool) : Bool :=
  match config.execute V Link Head allowed actions with
  | some (.ok machine) => check machine
  | _ => false

/-- Whether a sequence of actions can be performed and ends in a state that passes `check`. -/
def passes (config : Config n) (actions : List (Action V)) (check : Machine n V Link Head → Bool) :
    Bool :=
  config.passesWithin V Link Head (fun _ _ => true) actions check

/-- The machine as a transition system: it starts booted, and steps that fault end it. -/
def system (config : Config n) : TransitionSystem (Machine n V Link Head) (Action V) where
  initial machine := ∃ kernel, config.boot V Link Head = .ok kernel ∧ machine = start V Link Head kernel
  step machine action next := machine.perform config.idle action = some (.ok next)

end Config

end Kangaroos
