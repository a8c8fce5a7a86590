import Kangaroos.Kernel.Scheduler

/-!
# Intrusive wait lists

`WaitOps` is what a primitive needs of a wait list: the null test,
`block_and_push`, `wait_list_pop_highest`, and the unlinking scan that
`EventGroup::set` writes out four times. The instance below is the code: links
live in the `Blocked` payload of the waiting tasks, and a loop that visits more
nodes than there are TCBs is a loop that never ends.
-/

namespace Kangaroos

/-- Which scan of `EventGroup::set`: the `wait_any` list or the `wait_all` list. -/
inductive ScanRule where
  | any
  | all
  deriving DecidableEq

/-- The bits a waiter with `mask` consumes of `bits`, if it is satisfied. -/
def ScanRule.taken : ScanRule → Word → Word → Option Word
  | .any, bits, mask => if bits &&& mask ≠ 0 then some (bits &&& mask) else none
  | .all, bits, mask => if bits &&& mask = mask then some mask else none

/-- The wait-list operations the primitives are written against. -/
class WaitOps (n : Nat) (V Link Head : Type) where
  null : Head
  isNull : Head → Bool
  blockAndPush : Kernel n V Link Head → WaitList → Fin n → Kernel n V Link Head
  waitListPopHighest : Kernel n V Link Head → WaitList →
    Exec (Kernel n V Link Head × TcbPtr n)
  scan : Kernel n V Link Head → ScanRule → Nat → WaitList → Exec (Kernel n V Link Head × Bool)

namespace Kernel

variable {n : Nat} {V Link Head : Type}

/-- `(*task).wait_ptr as u32`. -/
def waitWord (kernel : Kernel n V Link Head) (task : Fin n) : Exec Word :=
  match (kernel.tcb task).waitPtr with
  | .word value => .ok value
  | .stack _ => .error .notAPointer

/-- `(*task).wait_ptr as *mut T`: whose frame the address points into. -/
def waitFrame (kernel : Kernel n V Link Head) (task : Fin n) : Exec (Fin n) :=
  match (kernel.tcb task).waitPtr with
  | .word _ => .error .notAPointer
  | .stack owner => .ok owner

/-- What a scan does with a waiter it satisfies, after unlinking it: consume the
bits, hand a `wait_any` caller its result, and unblock it. -/
def satisfy (kernel : Kernel n V Link Head) (rule : ScanRule) (event : Nat) (task : Fin n)
    (taken : Word) : Exec (Kernel n V Link Head × Bool) :=
  let kernel := kernel.setBits event (kernel.bits event &&& ~~~taken)
  let kernel :=
    match rule with
    | .any => kernel.setWaitPtr task (.word taken)
    | .all => kernel
  kernel.unblock task

end Kernel

/-- The kernel as coded: links and heads are `*mut Tcb`. -/
abbrev Rtos (n : Nat) (V : Type) := Kernel n V (TcbPtr n) (TcbPtr n)

namespace Rtos

variable {n : Nat} {V : Type}

/-- `let TaskState::Blocked { wait_next } = (*task).state else { unreachable!() }`. -/
def waitNext (kernel : Rtos n V) (task : Fin n) : Exec (TcbPtr n) :=
  match (kernel.tcb task).state with
  | .blocked next => .ok next
  | _ => .error .unreachable

/-- `if let TaskState::Blocked { ref mut wait_next } = (*task).state { *wait_next = next }`. -/
def setWaitNext (kernel : Rtos n V) (task : Fin n) (next : TcbPtr n) : Rtos n V :=
  match (kernel.tcb task).state with
  | .blocked _ => kernel.setState task (.blocked next)
  | _ => kernel

/-- `block_and_push`. -/
def blockAndPush (kernel : Rtos n V) (list : WaitList) (task : Fin n) : Rtos n V :=
  (kernel.setState task (.blocked (kernel.waitHead list))).setHead list (some task)

/-- The search loop of `wait_list_pop_highest`: the first of the most urgent waiters. -/
def popBest (kernel : Rtos n V) : Nat → TcbPtr n → Fin n → U8 → Exec (Fin n)
  | _, none, best, _ => .ok best
  | 0, some _, _, _ => .error .diverges
  | fuel + 1, some cur, best, bestPrio => do
    let p := (kernel.tcb cur).priority
    let next ← kernel.waitNext cur
    if p < bestPrio then kernel.popBest fuel next cur p
    else kernel.popBest fuel next best bestPrio

/-- The predecessor loop of `wait_list_pop_highest`: relink past `best`. -/
def popUnlink (kernel : Rtos n V) (best : Fin n) (bestNext : TcbPtr n) :
    Nat → Fin n → Exec (Rtos n V)
  | 0, _ => .error .diverges
  | fuel + 1, prev => do
    let prevNext ← kernel.waitNext prev
    if prevNext = some best then .ok (kernel.setWaitNext prev bestNext)
    else do
      let prev ← deref prevNext
      kernel.popUnlink best bestNext fuel prev

/-- `wait_list_pop_highest`. -/
def waitListPopHighest (kernel : Rtos n V) (list : WaitList) : Exec (Rtos n V × TcbPtr n) :=
  match kernel.waitHead list with
  | none => .ok (kernel, none)
  | some head => do
    let headNext ← kernel.waitNext head
    let best ← kernel.popBest n headNext head (kernel.tcb head).priority
    let bestNext ← kernel.waitNext best
    if head = best then .ok (kernel.setHead list bestNext, some best)
    else do
      let kernel ← kernel.popUnlink best bestNext n head
      .ok (kernel, some best)

/-- How `EventGroup::set` unlinks a waiter: past the head, or past the last waiter left
in the list. -/
def unlinkBehind (kernel : Rtos n V) (list : WaitList) (prev next : TcbPtr n) : Rtos n V :=
  match prev with
  | none => kernel.setHead list next
  | some prev => kernel.setWaitNext prev next

/-- The scan loop of `EventGroup::set`: `prev` is the last waiter left in the list. -/
def scanFrom (rule : ScanRule) (event : Nat) (list : WaitList) :
    Nat → TcbPtr n → TcbPtr n → Rtos n V × Bool → Exec (Rtos n V × Bool)
  | _, _, none, acc => .ok acc
  | 0, _, some _, _ => .error .diverges
  | fuel + 1, prev, some cur, (kernel, preempt) => do
    let next ← kernel.waitNext cur
    let mask ← kernel.waitWord cur
    match rule.taken (kernel.bits event) mask with
    | some taken => do
      let (kernel, urgent) ← (kernel.unlinkBehind list prev next).satisfy rule event cur taken
      scanFrom rule event list fuel prev next (kernel, preempt || urgent)
    | none => scanFrom rule event list fuel (some cur) next (kernel, preempt)

end Rtos

instance (n : Nat) (V : Type) : WaitOps n V (TcbPtr n) (TcbPtr n) where
  null := none
  isNull head := head.isNone
  blockAndPush := Rtos.blockAndPush
  waitListPopHighest := Rtos.waitListPopHighest
  scan kernel rule event list :=
    Rtos.scanFrom rule event list n none (kernel.waitHead list) (kernel, false)

end Kangaroos
