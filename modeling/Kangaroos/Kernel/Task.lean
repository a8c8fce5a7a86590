import Kangaroos.Kernel.WaitList

/-!
# Task management

`spawn_into` and the critical sections of `yield_now`, `sleep`, `sleep_until`
and `exit`, followed by the boot sequence: `main` spawns its tasks and
`kernel::start` registers the idle task.
-/

namespace Kangaroos

/-- `SpawnToken`, less the entry function and the name. -/
structure SpawnToken (n : Nat) where
  tcb : Fin n
  stackPtr : Word
  stackLen : Nat
  priority : U8
  timeSlice : U8

/-- The statics behind the tasks of a program. The `task` macro gives each function its own
`TaskStorage` and replaces it by a factory; whatever was called before, a call yields a
token for that storage. -/
structure TaskStatics (n functions : Nat) where
  factory : Fin functions → SpawnToken n
  idle : Fin n
  idleStack : Word
  ownTcb : ∀ first second, (factory first).tcb = (factory second).tcb → first = second
  notIdle : ∀ function, (factory function).tcb ≠ idle

namespace Kernel

variable {n : Nat} {V Link Head : Type}

/-- `spawn_into`: `stack_init` needs 21 words and returns the address of word `len - 17`. -/
def spawnInto (kernel : Kernel n V Link Head) (token : SpawnToken n) :
    Exec (Kernel n V Link Head) :=
  if token.stackLen < 21 then .error .stackTooSmall
  else
    let kernel := kernel.modifyTcb token.tcb fun _ =>
      { sp := token.stackPtr + 4 * BitVec.ofNat 32 (token.stackLen - 17)
        state := .ready token.timeSlice
        priority := token.priority
        basePriority := token.priority
        timeSlice := token.timeSlice
        stackBase := token.stackPtr
        waitPtr := .word 0
        allNext := kernel.allTasks }
    .ok (kernel.modifyStatics fun statics => { statics with allTasks := some token.tcb })

/-- `idle::register`: priority `u8::MAX`, one tick, 64 words of stack. -/
def register (kernel : Kernel n V Link Head) (idle : Fin n) (stackPtr : Word) :
    Exec (Kernel n V Link Head) :=
  kernel.spawnInto { tcb := idle, stackPtr, stackLen := 64, priority := 255, timeSlice := 1 }

/-- `main`, which spawns a token of each function it calls, and the first line of
`kernel::start`. -/
def spawnAll {functions : Nat} (statics : TaskStatics n functions) (calls : List (Fin functions))
    (kernel : Kernel n V Link Head) : Exec (Kernel n V Link Head) := do
  let kernel ← (calls.map statics.factory).foldlM spawnInto kernel
  kernel.register statics.idle statics.idleStack

/-- `yield_now`: a running task gives up the rest of its slice. -/
def yieldNow (kernel : Kernel n V Link Head) : Exec (Kernel n V Link Head) := do
  let current ← deref kernel.current
  match (kernel.tcb current).state with
  | .running _ => .ok (kernel.setState current (.running 0))
  | _ => .ok kernel

/-- The deadline `sleep` computes: `TICK.wrapping_add(duration)`. -/
def sleepDeadline (kernel : Kernel n V Link Head) (duration : U64) : U64 :=
  kernel.tickCount + duration

/-- `sleep_until`. -/
def sleepUntil (kernel : Kernel n V Link Head) (deadline : U64) :
    Exec (Kernel n V Link Head) := do
  let current ← deref kernel.current
  .ok (kernel.setState current (.sleeping deadline))

/-- `exit`. -/
def exit (kernel : Kernel n V Link Head) : Exec (Kernel n V Link Head) := do
  let current ← deref kernel.current
  .ok (kernel.setState current .dead)

end Kernel

end Kangaroos
