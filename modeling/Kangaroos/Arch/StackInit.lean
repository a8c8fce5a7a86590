import Kangaroos.Arch.IntegerPendSV
import Kangaroos.Kernel.Task

/-!
# Initial stacks and the first dispatch

`spawn_into` writes the canary and the first frame of a task into its stack before it writes
the TCB. The frame is read back by `SVCall`, which launches the first task, and by `PendSV`.
A panic leaves behind what has been written before it.
-/

namespace Kangaroos

/-- A build of the kernel for a Cortex-M core, by the `PendSV` it links. -/
inductive Port where
  | integer (arch : IntegerArch)
  | fpu (arch : FpuArch)
  deriving DecidableEq

/-- A `&mut [u32]`: its bytes fit the address space. -/
structure Slice where
  ptr : Word
  len : Nat
  fits : 4 * len ≤ 2 ^ 32

/-- A `SpawnToken` with its entry function; the stack is a `&'static mut [u32; stack_len]`. -/
structure EntryToken (n : Nat) extends SpawnToken n where
  entry : Word
  fits : 4 * stackLen ≤ 2 ^ 32

/-- `from_raw_parts_mut(stack_ptr, stack_len)`. -/
def EntryToken.stack {n : Nat} (token : EntryToken n) : Slice where
  ptr := token.stackPtr
  len := token.stackLen
  fits := token.fits

/-- Code that runs on a board and may panic. -/
abbrev Startup (n : Nat) (V : Type) := EStateM Fault (Board n V)

variable {n : Nat} {V : Type}

/-- Write the memory of a board. -/
def Board.setMem (board : Board n V) (mem : Word → Word) : Board n V :=
  { board with cpu := { board.cpu with mem } }

namespace Slice

/-- `addr_of!(stack[index])`. -/
def address (stack : Slice) (index : Nat) : Word := stack.ptr + BitVec.ofNat 32 (4 * index)

/-- `stack[index] = value`. -/
def write (stack : Slice) (index : Nat) (value : Word) : Startup n V Unit :=
  if index < stack.len then
    modify fun board => board.setMem (Function.update board.cpu.mem (stack.address index) value)
  else throw .indexOutOfBounds

end Slice

/-- `CANARY`. -/
def canary : Word := 0xDEADBEEF

/-- `canary_init`. -/
def canaryInit (stack : Slice) : Startup n V Unit := do
  stack.write 0 canary
  stack.write 1 canary
  stack.write 2 canary
  stack.write 3 canary

/-- `canary_check`. -/
def canaryCheck (mem : Word → Word) (stackBase : Word) : Bool :=
  mem stackBase = canary && mem (stackBase + 4) = canary && mem (stackBase + 8) = canary &&
    mem (stackBase + 12) = canary

/-- `stack_init` with the address of `task_exit`. -/
def stackInitWith (taskExit : Word) (stack : Slice) (entry : Word) : Startup n V Word := do
  let len := stack.len
  if len < 21 then throw .stackTooSmall
  stack.write (len - 1) 0x01000000
  stack.write (len - 2) (entry &&& ~~~1)
  stack.write (len - 3) (taskExit ||| 1)
  stack.write (len - 4) 0
  stack.write (len - 5) 0
  stack.write (len - 6) 0
  stack.write (len - 7) 0
  stack.write (len - 8) 0
  stack.write (len - 9) 0xFFFFFFFD
  stack.write (len - 10) 0
  stack.write (len - 11) 0
  stack.write (len - 12) 0
  stack.write (len - 13) 0
  stack.write (len - 14) 0
  stack.write (len - 15) 0
  stack.write (len - 16) 0
  stack.write (len - 17) 0
  return stack.address (len - 17)

namespace Port

/-- `stack_init`: the four ports have the same text, each with a `task_exit` of its own. -/
def stackInit (port : Port) (taskExit : Port → Word) : Slice → Word → Startup n V Word :=
  stackInitWith (taskExit port)

end Port

/-- What `spawn_into` writes after the stack: the TCB, and `ALL_TASKS`. -/
def Kernel.enlist {Link Head : Type} (kernel : Kernel n V Link Head) (token : SpawnToken n)
    (sp : Word) : Kernel n V Link Head :=
  let kernel := kernel.modifyTcb token.tcb fun _ =>
    { sp
      state := .ready token.timeSlice
      priority := token.priority
      basePriority := token.priority
      timeSlice := token.timeSlice
      stackBase := token.stackPtr
      waitPtr := .word 0
      allNext := kernel.allTasks }
  kernel.modifyStatics fun statics => { statics with allTasks := some token.tcb }

/-- `spawn_into`. -/
def Port.spawnInto (port : Port) (taskExit : Port → Word) (token : EntryToken n) :
    Startup n V Unit := do
  canaryInit token.stack
  let sp ← port.stackInit taskExit token.stack token.entry
  modify fun board => { board with kernel := board.kernel.enlist token.toSpawnToken sp }

/-- The instructions of the `SVCall` stubs: those `PendSV` has too, and three more. -/
inductive SvcInstr where
  | bl
  | movs (rd : Reg) (imm : Word)
  | msrControl (rn : Reg)
  | isb
  | common (instr : Instr)

namespace Port

/-- `SVCall` from the call of `svc_first_task_sp` on. -/
def svCallRestore : Port → List SvcInstr
  | .integer .v6m | .integer .v8m | .fpu .v8m =>
    [.common (.ldmia .r0 [.r4, .r5, .r6, .r7]),
     .common (.ldmia .r0 [.r1, .r2]),
     .common (.mov .r8 .r1),
     .common (.mov .r9 .r2),
     .common (.ldmia .r0 [.r1, .r2]),
     .common (.mov .r10 .r1),
     .common (.mov .r11 .r2),
     .common (.ldr .r1 .r0),
     .common (.adds .r0 4),
     .common (.msrPsp .r0),
     .movs .r2 2,
     .msrControl .r2,
     .isb,
     .common (.bx .r1)]
  | .integer .v7m | .fpu .v7emFpu =>
    [.common (.msrPsp .r0),
     .movs .r1 2,
     .msrControl .r1,
     .isb,
     .common (.ldmia .r0 (Reg.calleeSaved ++ [.lr])),
     .common (.msrPsp .r0),
     .common (.bx .lr)]

/-- `SVCall`. -/
def svCall (port : Port) : List SvcInstr := .bl :: port.svCallRestore

/-- `PendSV` from the call of `pendsv_save_and_switch` on. -/
def pendSVRestore : Port → List Instr
  | .integer arch => arch.restoreNewTask ++ [.bx arch.returnReg]
  | .fpu arch => arch.restoreNewTask

/-- The scheduler functions a port links. -/
def callee : Port → FpuArch
  | .integer arch => arch.callee
  | .fpu arch => arch

end Port

/-- Execute one instruction of `SVCall` other than a branch. In Handler mode `msr control` does
not write `SPSEL`. -/
def Cpu.execSvc (cpu : Cpu) : SvcInstr → Cpu
  | .common instr => cpu.exec instr
  | .movs rd imm => { cpu.setReg rd imm with zero := decide (imm = 0) }
  | .msrControl rn => { cpu with control := (cpu.control &&& 2) ||| (cpu.r rn &&& ~~~2) }
  | .bl | .isb => cpu

namespace Board

/-- `bl svc_first_task_sp`: ARMv8-M installs the stack limit of the first task. -/
def blSvc (port : Port) (scratch : Cpu) (board : Board n V) : Option (Board n V) :=
  match board.kernel.svcFirstTaskSp with
  | .ok (kernel, sp) =>
    some { kernel, cpu := { board.cpu.call scratch sp with
      psplim := port.callee.limit kernel board.cpu } }
  | .error _ => none

/-- Execute `SVCall` to its `bx`: the state there and the value branched to. -/
def runSvc (port : Port) (scratch : Cpu) : List SvcInstr → Board n V → Option (Board n V × Word)
  | [], _ => none
  | .bl :: rest, board =>
    match board.blSvc port scratch with
    | some after => runSvc port scratch rest after
    | none => none
  | .common (.bx rm) :: _, board => some (board, board.cpu.r rm)
  | instr :: rest, board => runSvc port scratch rest { board with cpu := board.cpu.execSvc instr }

end Board

end Kangaroos
