import Kangaroos.Arch.StackInit
import Kangaroos.Logic.Observer
import Kangaroos.Machine

/-!
# The device

The machine on a core without FPU, with the stacks of its tasks in memory: `main` spawns them,
`svc #0` launches the first, and from then on the running task computes and stores, handlers
interrupt it, and PendSV saves its registers, searches and restores those of another task.
A handler that interrupts PendSV has its frame on the main stack.
-/

namespace Kangaroos

open Words (loadWords Block)

namespace Slice

/-- The words of a slice. -/
def Owns (stack : Slice) (address : Word) : Prop := Block stack.ptr stack.len address

instance (base : Word) (count : Nat) (address : Word) : Decidable (Block base count address) :=
  inferInstanceAs (Decidable (∃ index < count, address = base + BitVec.ofNat 32 (4 * index)))

instance (stack : Slice) (address : Word) : Decidable (stack.Owns address) :=
  inferInstanceAs (Decidable (Block stack.ptr stack.len address))

/-- Two slices of one program. -/
def Apart (stack other : Slice) : Prop := ∀ address, stack.Owns address → ¬other.Owns address

/-- Slices that follow each other in memory. -/
theorem apart_of_le {stack other : Slice} (order : stack.ptr.toNat + 4 * stack.len ≤ other.ptr.toNat)
    (fits : other.ptr.toNat + 4 * other.len ≤ 2 ^ 32) : stack.Apart other := by
  rintro _ ⟨index, bound, rfl⟩ ⟨index', bound', same⟩
  have start := other.ptr.isLt
  have values := congrArg BitVec.toNat same
  rw [BitVec.toNat_add, BitVec.toNat_add, BitVec.toNat_ofNat, BitVec.toNat_ofNat,
    Nat.add_mod_mod, Nat.add_mod_mod, Nat.mod_eq_of_lt (by omega), Nat.mod_eq_of_lt (by omega)] at values
  omega

/-- A stack pointer with room for `count` words below it. -/
def Room (stack : Slice) (psp : Word) (count : Nat) : Prop :=
  ∃ base < stack.len + 1, count ≤ base ∧ psp = stack.address base

instance (stack : Slice) (psp : Word) (count : Nat) : Decidable (stack.Room psp count) :=
  inferInstanceAs (Decidable (∃ base < stack.len + 1, count ≤ base ∧ psp = stack.address base))

/-- The words in use above a stack pointer. -/
def inUse (stack : Slice) (mem : Word → Word) (psp : Word) : List Word :=
  loadWords mem psp ((stack.address stack.len - psp).toNat / 4)

end Slice

/-- The stack of the idle task fits the address space. -/
theorem idle_fits : 4 * 64 ≤ 2 ^ 32 := by decide

/-- What is flashed: a port, and the tasks with their entry functions and stacks. -/
structure Firmware (n : Nat) where
  arch : IntegerArch
  excReturn : ExcReturn
  taskExit : Port → Word
  config : Config n
  tasks : List (EntryToken n)
  tokens : config.tokens = tasks.map EntryToken.toSpawnToken
  idleStack : Word
  idleTask : Word
  apart : (tasks.map EntryToken.stack ++
    [({ ptr := idleStack, len := 64, fits := idle_fits } : Slice)]).Pairwise Slice.Apart

namespace Firmware

variable {n : Nat} (firmware : Firmware n)

/-- The port. -/
def port : Port := .integer firmware.arch

/-- `idle::register`, with the storage of the idle task. -/
def idleToken : EntryToken n where
  toSpawnToken := { firmware.config.idleToken with stackPtr := firmware.idleStack }
  entry := firmware.idleTask
  fits := idle_fits

/-- The tasks in the order they are spawned. -/
def entries : List (EntryToken n) := firmware.tasks ++ [firmware.idleToken]

/-- `main` and the first line of `kernel::start`, on the core. -/
def boot {V : Type} : Startup n V PUnit :=
  firmware.entries.forM (firmware.port.spawnInto firmware.taskExit)

end Firmware

/-- What a task sees of the core: its registers, its flags and the part of its stack in use.
Bit 9 of the xPSR means nothing in Thread mode. -/
@[ext] structure TaskView where
  r : Reg → Word
  pc : Word
  xpsr : Word
  psp : Word
  words : List Word

namespace Cpu

/-- What the running task sees. -/
def taskView (cpu : Cpu) (stack : Slice) : TaskView where
  r := cpu.r
  pc := cpu.pc
  xpsr := cpu.xpsr &&& ~~~0x200
  psp := cpu.psp
  words := stack.inUse cpu.mem cpu.psp

/-- The words exception entry pushes, without FPU. -/
def entryWords (cpu : Cpu) : Nat := if cpu.psp.getLsbD 2 then 9 else 8

/-- A handler runs on top of the task it interrupts. -/
def interrupted (excReturn : ExcReturn) (cpu : Cpu) : Cpu :=
  (cpu.exceptionEntry excReturn).exceptionReturn (excReturn.value cpu.fpca)

/-- PendSV up to the call of `pendsv_save_and_switch`. -/
def preempted (arch : IntegerArch) (excReturn : ExcReturn) (cpu : Cpu) : Cpu :=
  (cpu.exceptionEntry excReturn).saves arch

/-- PendSV from the end of `pendsv_save_and_switch`, which installs a stack limit and returns a
stack pointer, to the exception return. -/
def dispatched (cpu scratch : Cpu) (arch : IntegerArch) (limit sp : Word) : Cpu :=
  let called := { cpu.call scratch sp with psplim := limit }
  (called.restores arch).exceptionReturn (called.returnValue arch)

end Cpu

/-- What a task finds when it is first dispatched. -/
def EntryToken.firstView {n : Nat} (token : EntryToken n) (taskExit : Word) : TaskView where
  r := fun reg => if reg = .lr then taskExit ||| 1 else 0
  pc := token.entry &&& ~~~1
  xpsr := 0x01000000
  psp := token.stack.address token.stack.len
  words := []

/-- A core and the machine it runs. -/
structure Device (n : Nat) (V : Type) where
  cpu : Cpu
  machine : Machine n V (TcbPtr n) (TcbPtr n)

/-- The steps of a device. -/
inductive DeviceAction (V : Type) where
  /-- The running task computes: its registers change. -/
  | compute (next : Cpu)
  /-- The running task stores a word. -/
  | store (address value : Word)
  /-- A critical section of the running task or of an interrupt handler, or SysTick. -/
  | machine (action : Action V)
  /-- `svc #0`, up to the first instruction of the first task. -/
  | svCall (scratch : Cpu)
  /-- PendSV is taken, or advances by one step. -/
  | pendsv (scratch : Cpu)

/-- The actions that are handlers of their own. -/
def Action.interrupts {V : Type} : Action V → Bool
  | .tick | .isr _ => true
  | _ => false

/-- The actions with an assembly stub. -/
def Action.hasStub {V : Type} : Action V → Bool
  | .launch | .pendsv _ => true
  | _ => false

namespace Device

variable {n : Nat} {V : Type} (firmware : Firmware n) (device : Device n V)

/-- The task whose registers the core holds: none before the launch and while PendSV is active. -/
def executing : TcbPtr n :=
  match device.machine.handler with
  | .inactive => device.machine.kernel.current
  | _ => none

/-- The core after a handler other than PendSV. -/
def cpuAfter (action : Action V) : Cpu :=
  if action.interrupts = true ∧ device.executing ≠ none then
    device.cpu.interrupted firmware.excReturn
  else device.cpu

/-- The canary loop of `systick_handler` follows `tick`. -/
def checkCanaries (mem : Word → Word) (machine : Machine n V (TcbPtr n) (TcbPtr n)) :
    Action V → Exec Unit
  | .tick => machine.kernel.canaryPass (canaryCheck mem) n machine.kernel.allTasks
  | _ => .ok ()

/-- The core after a step of PendSV that leads to `machine`. -/
def cpuSwitched (scratch : Cpu) (machine : Machine n V (TcbPtr n) (TcbPtr n)) : Cpu :=
  match device.machine.handler with
  | .inactive => device.cpu.preempted firmware.arch firmware.excReturn
  | .switched task =>
    device.cpu.dispatched scratch firmware.arch
      (firmware.arch.callee.limit machine.kernel device.cpu) (machine.kernel.tcb task).sp
  | _ => device.cpu

/-- Perform an action: `none` if it cannot happen in this state, otherwise the next state or
the fault it runs into. -/
def perform : DeviceAction V → Option (Exec (Device n V))
  | .compute next =>
    match device.machine.threadTask with
    | none => none
    | some _ =>
      some (.ok { device with cpu := { next with
        mem := device.cpu.mem, control := device.cpu.control, psplim := device.cpu.psplim } })
  | .store address value =>
    match device.machine.threadTask with
    | none => none
    | some _ =>
      some (.ok { device with cpu := { device.cpu with
        mem := Function.update device.cpu.mem address value } })
  | .machine action =>
    if action.hasStub = true then none
    else
      match device.machine.perform firmware.config.idle action with
      | none => none
      | some (.error fault) => some (.error fault)
      | some (.ok machine) =>
        let cpu := device.cpuAfter firmware action
        match checkCanaries cpu.mem machine action with
        | .error fault => some (.error fault)
        | .ok () => some (.ok { cpu, machine })
  | .svCall scratch =>
    match device.machine.kernel.current with
    | some _ => none
    | none =>
      match Board.runSvc firmware.port scratch firmware.port.svCall
        { cpu := device.cpu, kernel := device.machine.kernel } with
      | none => none
      | some (board, exc) =>
        some (.ok { cpu := board.cpu.exceptionReturn exc,
                    machine := { device.machine with kernel := board.kernel } })
  | .pendsv scratch =>
    match device.machine.pendsvStep (device.cpu.r .r0) with
    | none => none
    | some (.error fault) => some (.error fault)
    | some (.ok machine) => some (.ok { cpu := device.cpuSwitched firmware scratch machine, machine })

/-- The views of the tasks that do not execute: PendSV interrupts the running task. -/
abbrev Views (n : Nat) := Fin n → Option TaskView

end Device

namespace Firmware

variable {n : Nat} {V : Type} (firmware : Firmware n)

/-- What each task finds when it is first dispatched. -/
def firstViews : Device.Views n := fun task =>
  (firmware.entries.find? (·.tcb = task)).map (·.firstView (firmware.taskExit firmware.port))

/-- Note what the running task sees when PendSV is taken. -/
def note (device : Device n V) (action : DeviceAction V) (_ : Device n V)
    (views : Device.Views n) : Device.Views n :=
  match action, device.executing with
  | .pendsv _, some task =>
    Function.update views task
      ((firmware.entries.find? (·.tcb = task)).map fun token => device.cpu.taskView token.stack)
  | _, _ => views

/-- The device as a transition system: it starts booted. -/
def system (V : Type) : TransitionSystem (Device n V) (DeviceAction V) where
  initial device := ∃ (cpu : Cpu) (after : Board n V),
    firmware.boot.run { cpu, kernel := firmware.config.reset V (TcbPtr n) (TcbPtr n) } =
        .ok ⟨⟩ after ∧
      device = { cpu := after.cpu, machine := Config.start V _ _ after.kernel }
  step device action next := device.perform firmware action = some (.ok next)

/-- A task stores into no other task's stack, and the frames of a task fit its own. The lowest
`spare` words of each stack are kept free. -/
def Contained (spare : Nat) (device : Device n V) : DeviceAction V → Prop
  | .store address _ => ∀ token ∈ firmware.entries,
      (device.executing ≠ some token.tcb → ¬token.stack.Owns address) ∧
        ¬Block token.stack.ptr spare address
  | .machine action => action.interrupts = true → ∀ token ∈ firmware.entries,
      device.executing = some token.tcb →
        token.stack.Room device.cpu.psp (spare + device.cpu.entryWords)
  | .pendsv _ => ∀ token ∈ firmware.entries, device.executing = some token.tcb →
      token.stack.Room device.cpu.psp (spare + (9 + device.cpu.entryWords))
  | _ => True

instance (spare : Nat) (device : Device n V) : DecidablePred (firmware.Contained spare device)
  | .compute _ | .svCall _ => inferInstanceAs (Decidable True)
  | .store address _ => inferInstanceAs (Decidable (∀ token ∈ firmware.entries,
      (device.executing ≠ some token.tcb → ¬token.stack.Owns address) ∧
        ¬Block token.stack.ptr spare address))
  | .machine action => inferInstanceAs (Decidable (action.interrupts = true →
      ∀ token ∈ firmware.entries, device.executing = some token.tcb →
        token.stack.Room device.cpu.psp (spare + device.cpu.entryWords)))
  | .pendsv _ => inferInstanceAs (Decidable (∀ token ∈ firmware.entries,
      device.executing = some token.tcb →
        token.stack.Room device.cpu.psp (spare + (9 + device.cpu.entryWords))))

/-- The runs of contained steps, with the view each task had when it was last interrupted. -/
def contained (spare : Nat) (V : Type) :
    TransitionSystem (Device n V × Device.Views n) (DeviceAction V) :=
  ((firmware.system V).restrict (firmware.Contained spare)).observed firmware.firstViews firmware.note

/-- Boot, perform a sequence of contained steps, and check the state and the views at the end. -/
def passes (spare : Nat) (V : Type) (cpu : Cpu) (actions : List (DeviceAction V))
    (check : Device n V × Device.Views n → Bool) : Bool :=
  match firmware.boot.run { cpu, kernel := firmware.config.reset V (TcbPtr n) (TcbPtr n) } with
  | .ok _ after =>
    (TransitionSystem.executeNoting
      (fun device action => if firmware.Contained spare device action then
        TransitionSystem.succeeded (device.perform firmware action) else none)
      firmware.note
      ({ cpu := after.cpu, machine := Config.start V _ _ after.kernel }, firmware.firstViews)
      actions).any check
  | .error _ _ => false

end Firmware

end Kangaroos
