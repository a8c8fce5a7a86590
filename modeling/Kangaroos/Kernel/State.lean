import Mathlib.Algebra.Ring.Nat
import Mathlib.Data.Fintype.Card
import Mathlib.Logic.Function.Basic
import Mathlib.Order.Fin.Basic

/-!
# Kernel data

The TCBs are statics, so a `*mut Tcb` is `none` (null) or the number of one of
`n` TCBs. `Kernel` holds every global the kernel code touches: the TCBs, the
scheduler's globals, and the `UnsafeCell` contents of every static primitive.

The model exists at two levels that share this one record. `Link` is what a
blocked task carries and `Head` is what a `wait_head` field holds: in the
kernel as coded both are `*mut Tcb`; in the abstract model a blocked task
carries the name of its list and a head is the list of waiting tasks.
-/

namespace Kangaroos

/-- `u8`: arithmetic wraps, the order is linear. -/
abbrev U8 := Fin (2 ^ 8)

/-- `u64`: arithmetic wraps, the order is linear. -/
abbrev U64 := Fin (2 ^ 64)

/-- The numerals of `U8` and `U64` go through these two. -/
instance U8.neZero : NeZero (2 ^ 8) := inferInstance

instance U64.neZero : NeZero (2 ^ 64) := inferInstance

/-- `u32`, and `usize` on every Cortex-M target. -/
abbrev Word := BitVec 32

/-- `*mut Tcb`. -/
abbrev TcbPtr (n : Nat) := Option (Fin n)

/-- Membership in a list of TCBs is decided through this one. -/
instance TcbPtr.lawfulBEq {n : Nat} : LawfulBEq (Fin n) := inferInstance

/-- What the code does instead of returning: a panic, an `unreachable!()` arm, a
null dereference, a read of an uninitialised value, or a loop that never ends. -/
inductive Fault where
  | unreachable
  | noReadyTask
  | nullPointer
  | indexOutOfBounds
  | uninitialised
  | notAPointer
  | stackTooSmall
  | stackOverflow
  | diverges
  deriving DecidableEq, Repr

/-- Kernel code runs to a result or to a fault. -/
abbrev Exec := Except Fault

/-- `*ptr` for a `*mut Tcb`. -/
def deref {n : Nat} : TcbPtr n → Exec (Fin n)
  | none => .error .nullPointer
  | some tcb => .ok tcb

@[simp] theorem deref_some {n : Nat} (tcb : Fin n) : deref (some tcb) = .ok tcb := rfl

@[simp] theorem deref_none {n : Nat} : deref (none : TcbPtr n) = .error .nullPointer := rfl

/-- Current execution state of a task. -/
inductive TaskState (Link : Type) where
  | uninit
  | ready (sliceRemaining : U8)
  | running (sliceRemaining : U8)
  | blocked (waitNext : Link)
  | sleeping (deadline : U64)
  | dead
  deriving DecidableEq, Repr

namespace TaskState

variable {Link : Type}

/-- `matches!(state, Ready { .. })`. -/
def isReady : TaskState Link → Bool
  | ready _ => true
  | _ => false

/-- `matches!(state, Running { .. })`. -/
def isRunning : TaskState Link → Bool
  | running _ => true
  | _ => false

/-- `matches!(state, Blocked { .. })`. -/
def isBlocked : TaskState Link → Bool
  | blocked _ => true
  | _ => false

/-- `!matches!(state, Dead | Uninit)`. -/
def live : TaskState Link → Bool
  | dead | uninit => false
  | _ => true

/-- `matches!(state, Ready { .. } | Running { .. })`. -/
def runnable (state : TaskState Link) : Bool := state.isReady || state.isRunning

@[simp] theorem isReady_ready (slice : U8) : (ready slice : TaskState Link).isReady = true := rfl
@[simp] theorem isReady_running (slice : U8) :
    (running slice : TaskState Link).isReady = false := rfl
@[simp] theorem isRunning_running (slice : U8) :
    (running slice : TaskState Link).isRunning = true := rfl
@[simp] theorem isRunning_ready (slice : U8) :
    (ready slice : TaskState Link).isRunning = false := rfl
@[simp] theorem isRunning_blocked (link : Link) : (blocked link).isRunning = false := rfl
@[simp] theorem isRunning_sleeping (deadline : U64) :
    (sleeping deadline : TaskState Link).isRunning = false := rfl
@[simp] theorem isRunning_dead : (dead : TaskState Link).isRunning = false := rfl
@[simp] theorem isReady_blocked (link : Link) : (blocked link).isReady = false := rfl
@[simp] theorem isReady_uninit : (uninit : TaskState Link).isReady = false := rfl
@[simp] theorem isBlocked_blocked (link : Link) : (blocked link).isBlocked = true := rfl
@[simp] theorem isBlocked_ready (slice : U8) :
    (ready slice : TaskState Link).isBlocked = false := rfl

theorem isReady_iff {state : TaskState Link} : state.isReady = true ↔ ∃ slice, state = ready slice := by
  cases state <;> simp [isReady]

theorem isRunning_iff {state : TaskState Link} :
    state.isRunning = true ↔ ∃ slice, state = running slice := by
  cases state <;> simp [isRunning]

theorem isBlocked_iff {state : TaskState Link} :
    state.isBlocked = true ↔ ∃ link, state = blocked link := by
  cases state <;> simp [isBlocked]

end TaskState

/-- The two uses of the `usize` in `Tcb::wait_ptr`: a number (an event mask, the
matched bits, a pool slot), or the address of the `MaybeUninit` local in the
frozen frame of a blocked task. -/
inductive WaitPtr (n : Nat) where
  | word (value : Word)
  | stack (owner : Fin n)
  deriving DecidableEq

/-- Task control block. -/
structure Tcb (n : Nat) (Link : Type) where
  sp : Word
  state : TaskState Link
  priority : U8
  basePriority : U8
  timeSlice : U8
  stackBase : Word
  allNext : TcbPtr n
  waitPtr : WaitPtr n

/-- `Tcb::zeroed`. -/
def Tcb.zeroed {n : Nat} {Link : Type} : Tcb n Link where
  sp := 0
  state := .uninit
  priority := 0
  basePriority := 0
  timeSlice := 0
  stackBase := 0
  allNext := none
  waitPtr := .word 0

/-- Every intrusive wait list of the system, named by the primitive that holds its
head field. -/
inductive WaitList where
  | semaphore (id : Nat)
  | mutex (id : Nat)
  | condvar (id : Nat)
  | eventAny (id : Nat)
  | eventAll (id : Nat)
  | once (id : Nat)
  | channelSend (id : Nat)
  | channelRecv (id : Nat)
  | pool (id : Nat)
  deriving DecidableEq

/-- `SemaphoreInner`, less its list head. -/
structure SemaphoreInner where
  count : U8
  max : U8

/-- `OnceState`. -/
inductive OnceState where
  | unstarted
  | running
  | done
  deriving DecidableEq

/-- `ChannelInner<T, N>`, less its list heads. The last five fields are history
variables: what was passed to a send, what `try_send` dropped, what entered and
what left the channel, and what was returned, each with the task concerned
(`none` for an interrupt handler). No operation reads them. -/
structure ChannelInner (n : Nat) (V : Type) where
  capacity : Nat
  buf : Nat → Option V
  head : Nat
  tail : Nat
  count : Nat
  sent : List (TcbPtr n × V)
  rejected : List (TcbPtr n × V)
  entered : List (TcbPtr n × V)
  left : List (TcbPtr n × V)
  returned : List (TcbPtr n × V)

/-- `PoolInner<T, N>`, less its list head. -/
structure PoolInner (V : Type) where
  capacity : Nat
  nodes : Nat → Option V
  next : Nat → U8
  freeHead : U8

/-- Every global except the TCBs and the wait-list heads. `tickCount` is `TICK`.
`frame c` is the `MaybeUninit` local (`src` or `slot`) in the frame of a kernel
call made by task `c`, or by `main` before the launch when `c` is null. -/
structure Statics (n : Nat) (V : Type) where
  current : TcbPtr n
  allTasks : TcbPtr n
  tickCount : U64
  semaphore : Nat → SemaphoreInner
  owner : Nat → TcbPtr n
  bits : Nat → Word
  once : Nat → OnceState
  channel : Nat → ChannelInner n V
  pool : Nat → PoolInner V
  frame : TcbPtr n → Option V

/-- The whole kernel state: TCBs, wait-list heads and the other globals. -/
structure Kernel (n : Nat) (V Link Head : Type) extends Statics n V where
  tcb : Fin n → Tcb n Link
  waitHead : WaitList → Head

namespace Kernel

variable {n : Nat} {V Link Head : Type}

/-- Write through a `*mut Tcb`. -/
def modifyTcb (kernel : Kernel n V Link Head) (task : Fin n) (change : Tcb n Link → Tcb n Link) :
    Kernel n V Link Head :=
  { kernel with tcb := Function.update kernel.tcb task (change (kernel.tcb task)) }

/-- Write a global other than the TCBs and the list heads. -/
def modifyStatics (kernel : Kernel n V Link Head) (change : Statics n V → Statics n V) :
    Kernel n V Link Head :=
  { kernel with toStatics := change kernel.toStatics }

/-- Write a list head. -/
def setHead (kernel : Kernel n V Link Head) (list : WaitList) (head : Head) :
    Kernel n V Link Head :=
  { kernel with waitHead := Function.update kernel.waitHead list head }

section Projections

variable (kernel : Kernel n V Link Head) (task : Fin n) (change : Tcb n Link → Tcb n Link)
  (write : Statics n V → Statics n V) (list : WaitList) (head : Head)

@[simp] theorem modifyTcb_toStatics :
    (kernel.modifyTcb task change).toStatics = kernel.toStatics := rfl
@[simp] theorem modifyTcb_waitHead :
    (kernel.modifyTcb task change).waitHead = kernel.waitHead := rfl
@[simp] theorem modifyTcb_tcb :
    (kernel.modifyTcb task change).tcb =
      Function.update kernel.tcb task (change (kernel.tcb task)) := rfl
@[simp] theorem modifyStatics_toStatics :
    (kernel.modifyStatics write).toStatics = write kernel.toStatics := rfl
@[simp] theorem modifyStatics_waitHead :
    (kernel.modifyStatics write).waitHead = kernel.waitHead := rfl
@[simp] theorem modifyStatics_tcb : (kernel.modifyStatics write).tcb = kernel.tcb := rfl
@[simp] theorem setHead_toStatics : (kernel.setHead list head).toStatics = kernel.toStatics := rfl
@[simp] theorem setHead_waitHead :
    (kernel.setHead list head).waitHead = Function.update kernel.waitHead list head := rfl
@[simp] theorem setHead_tcb : (kernel.setHead list head).tcb = kernel.tcb := rfl

end Projections

/-- `(*task).state = state`. -/
abbrev setState (kernel : Kernel n V Link Head) (task : Fin n) (state : TaskState Link) :
    Kernel n V Link Head :=
  kernel.modifyTcb task fun tcb => { tcb with state }

/-- `(*task).priority = priority`. -/
abbrev setPriority (kernel : Kernel n V Link Head) (task : Fin n) (priority : U8) :
    Kernel n V Link Head :=
  kernel.modifyTcb task fun tcb => { tcb with priority }

/-- `(*task).wait_ptr = waitPtr`. -/
abbrev setWaitPtr (kernel : Kernel n V Link Head) (task : Fin n) (waitPtr : WaitPtr n) :
    Kernel n V Link Head :=
  kernel.modifyTcb task fun tcb => { tcb with waitPtr }

/-- `CURRENT = current`. -/
abbrev setCurrent (kernel : Kernel n V Link Head) (current : TcbPtr n) : Kernel n V Link Head :=
  kernel.modifyStatics fun statics => { statics with current }

/-- Write the local in the frame of a kernel call of `context`. -/
abbrev setFrame (kernel : Kernel n V Link Head) (context : TcbPtr n) (value : Option V) :
    Kernel n V Link Head :=
  kernel.modifyStatics fun statics =>
    { statics with frame := Function.update statics.frame context value }

/-- Write the fields of a static `Semaphore`. -/
abbrev setSemaphore (kernel : Kernel n V Link Head) (id : Nat) (inner : SemaphoreInner) :
    Kernel n V Link Head :=
  kernel.modifyStatics fun statics =>
    { statics with semaphore := Function.update statics.semaphore id inner }

/-- Write the `owner` field of a static `Mutex`. -/
abbrev setOwner (kernel : Kernel n V Link Head) (id : Nat) (owner : TcbPtr n) :
    Kernel n V Link Head :=
  kernel.modifyStatics fun statics =>
    { statics with owner := Function.update statics.owner id owner }

/-- Write the `bits` field of a static `EventGroup`. -/
abbrev setBits (kernel : Kernel n V Link Head) (id : Nat) (bits : Word) :
    Kernel n V Link Head :=
  kernel.modifyStatics fun statics =>
    { statics with bits := Function.update statics.bits id bits }

/-- Write the `state` field of a static `Once`. -/
abbrev setOnce (kernel : Kernel n V Link Head) (id : Nat) (state : OnceState) :
    Kernel n V Link Head :=
  kernel.modifyStatics fun statics =>
    { statics with once := Function.update statics.once id state }

/-- Write the fields of a static `Channel`. -/
abbrev setChannel (kernel : Kernel n V Link Head) (id : Nat) (inner : ChannelInner n V) :
    Kernel n V Link Head :=
  kernel.modifyStatics fun statics =>
    { statics with channel := Function.update statics.channel id inner }

/-- Write the fields of a static `Pool`. -/
abbrev setPool (kernel : Kernel n V Link Head) (id : Nat) (inner : PoolInner V) :
    Kernel n V Link Head :=
  kernel.modifyStatics fun statics =>
    { statics with pool := Function.update statics.pool id inner }

end Kernel

end Kangaroos
