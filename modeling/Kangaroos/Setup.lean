import Kangaroos.Machine

/-!
# Before the kernel starts

The body of `main` runs before `kernel::start`, in no task: `CURRENT` is null and nothing
preempts it. It spawns tasks and may call the operations of the kernel; a call that does not have
to wait returns to it.
-/

namespace Kangaroos

/-- The kernel data and what the body of `main` holds. -/
structure Setup (n : Nat) (V Link Head : Type) where
  kernel : Kernel n V Link Head
  thread : Thread := {}
  boxes : Nat → List U8 := fun _ => []

/-- What the body of `main` does. -/
inductive SetupAction (n : Nat) (V : Type) where
  /-- `Spawner::spawn`. -/
  | spawn (token : SpawnToken n)
  /-- A kernel call up to its return, or up to the user code it runs. -/
  | call (call : Call V)
  /-- A live `PoolBox` is dropped: the value is destroyed. -/
  | dropBox (id : Nat) (slot : U8)
  /-- A write through a live `PoolBox`. -/
  | writeBox (id : Nat) (slot : U8) (value : V)

namespace SetupAction

variable {n : Nat} {V : Type}

/-- The calls that dereference `CURRENT`, or the owner of a mutex, when they need not wait. -/
def derefs : SetupAction n V → Bool
  | .call (.waitAny _ _) | .call (.allocBlocking _ _) | .call (.dropGuard _) => true
  | _ => false

/-- The mutex a call asks for. -/
def asksFor : SetupAction n V → Option Nat
  | .call (.lock id) | .call (.tryLock id) => some id
  | _ => none

end SetupAction

namespace Setup

variable {n : Nat} {V Link Head : Type}

/-- A slot becomes the slot of a live box. -/
def addBox (setup : Setup n V Link Head) (id : Nat) (slot : U8) : Setup n V Link Head :=
  { setup with boxes := Function.update setup.boxes id (slot :: setup.boxes id) }

/-- A live box is consumed. -/
def removeBox (setup : Setup n V Link Head) (id : Nat) (slot : U8) : Setup n V Link Head :=
  { setup with boxes := Function.update setup.boxes id ((setup.boxes id).erase slot) }

/-- Whether a call has nothing to wait for: a mutex is free when there is no guard of it. -/
def immediate (setup : Setup n V Link Head) : Call V → Bool
  | .take id => 0 < (setup.kernel.semaphore id).count
  | .lock id => id ∉ setup.thread.guards
  | .waitAny id mask => setup.kernel.bits id &&& mask ≠ 0
  | .waitAll id mask => setup.kernel.bits id &&& mask = mask
  | .callOnce id => setup.kernel.once id ≠ .running
  | .send id _ => (setup.kernel.channel id).count < (setup.kernel.channel id).capacity
  | .recv id => 0 < (setup.kernel.channel id).count
  | .allocBlocking id _ => (setup.kernel.pool id).freeHead ≠ Pool.endMark
  | .wait _ _ | .yieldNow | .sleep _ | .sleepUntil _ | .exit => false
  | _ => true

/-- What `main` may do next without having to wait. `stack_init` asserts that the stack has room
for the first frame. -/
def may (setup : Setup n V Link Head) : SetupAction n V → Bool
  | .spawn token => 21 ≤ token.stackLen
  | .call call => setup.thread.mayCall call && setup.immediate call
  | .dropBox id slot => (setup.boxes id).contains slot
  | .writeBox id slot _ => (setup.boxes id).contains slot

/-- What a call that has not waited does after its critical section: `wait_any` and
`alloc_blocking` read their result through `CURRENT`. -/
def returnFrom (setup : Setup n V Link Head) : Exec (Setup n V Link Head) :=
  let kernel := setup.kernel
  let thread := setup.thread
  let back := { setup with thread := { thread with pc := .user } }
  match thread.pc with
  | .lockRet id =>
    .ok { setup with thread := { thread with pc := .user, guards := id :: thread.guards } }
  | .waitAnyRet _ => do
    let current ← deref kernel.current
    let _ ← kernel.waitWord current
    .ok back
  | .recvRet id =>
    match kernel.frame kernel.current with
    | none => .error .uninitialised
    | some value => .ok { back with kernel := Channel.logReturned kernel id kernel.current value }
  | .allocRet id slot => .ok (back.addBox id slot)
  | .allocBlockingRet id => do
    let current ← deref kernel.current
    let slot ← Pool.assignedSlot kernel current
    .ok (back.addBox id slot)
  | _ => .ok back

variable [ops : WaitOps n V Link Head]

/-- One action of `main`. -/
def perform (setup : Setup n V Link Head) : SetupAction n V → Exec (Setup n V Link Head)
  | .spawn token => do
    let kernel ← setup.kernel.spawnInto token
    .ok { setup with kernel }
  | .call call => do
    let (kernel, outcome) ← call.run setup.kernel.current setup.kernel
    returnFrom { setup with kernel, thread := setup.thread.after call outcome }
  | .dropBox id slot => do
    let kernel ← Pool.destroy setup.kernel id slot
    let frames := .boxDrop id slot :: setup.thread.frames
    .ok { setup.removeBox id slot with kernel, thread := { setup.thread with frames } }
  | .writeBox id slot value => do
    let kernel ← Pool.write setup.kernel id slot value
    .ok { setup with kernel }

/-- A sequence of actions up to the first fault; `none` if one of them cannot happen or has to
wait. -/
def performAll : List (SetupAction n V) → Setup n V Link Head →
    Option (Exec (Setup n V Link Head))
  | [], setup => some (.ok setup)
  | action :: rest, setup =>
    if setup.may action then
      match setup.perform action with
      | .ok next => performAll rest next
      | .error fault => some (.error fault)
    else none

variable (V Link Head)

/-- `main` begins with the statics as their constructors leave them. -/
def start (config : Config n) : Setup n V Link Head := { kernel := config.reset V Link Head }

end Setup

end Kangaroos
