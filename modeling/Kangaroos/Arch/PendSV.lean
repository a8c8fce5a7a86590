import Kangaroos.Arch.Cpu
import Kangaroos.Kernel.Scheduler
import Kangaroos.Kernel.WaitList

/-!
# The PendSV stubs with FPU

The two assembly stubs that switch floating-point context, as lists of
instructions, executed on a core together with the kernel:
`bl pendsv_save_and_switch` runs the scheduler.
-/

namespace Kangaroos

/-- The two ports with FPU. -/
inductive FpuArch where
  | v7emFpu
  | v8m
  deriving DecidableEq

namespace FpuArch

/-- `PendSV` up to the call: save the current task. -/
def saveCurrentTask : FpuArch → List Instr
  | .v7emFpu =>
    [.mrsPsp .r0,
     .mrsControl .r1,
     .tst .r1 4,
     .beq 1,
     .vstmdb .r0,
     .label 1,
     .stmdb .r0 (Reg.calleeSaved ++ [.lr])]
  | .v8m =>
    [.mrsPsp .r0,
     .mrsControl .r1,
     .tst .r1 4,
     .beq 1,
     .vstmdb .r0,
     .label 1,
     .subs .r0 36,
     .stmia .r0 [.r4, .r5, .r6, .r7],
     .mov .r4 .r8,
     .mov .r5 .r9,
     .mov .r6 .r10,
     .mov .r7 .r11,
     .stmia .r0 [.r4, .r5, .r6, .r7],
     .mov .r4 .lr,
     .str .r4 .r0,
     .subs .r0 32,
     .ldmia .r0 [.r4, .r5, .r6, .r7],
     .subs .r0 16]

/-- `PendSV` from the call on: restore the new task. -/
def restoreNewTask : FpuArch → List Instr
  | .v7emFpu =>
    [.ldmia .r0 (Reg.calleeSaved ++ [.lr]),
     .tst .lr 0x10,
     .bne 2,
     .vldmia .r0,
     .label 2,
     .msrPsp .r0,
     .bx .lr]
  | .v8m =>
    [.ldmia .r0 [.r4, .r5, .r6, .r7],
     .ldmia .r0 [.r1, .r2],
     .mov .r8 .r1,
     .mov .r9 .r2,
     .ldmia .r0 [.r1, .r2],
     .mov .r10 .r1,
     .mov .r11 .r2,
     .ldr .r1 .r0,
     .adds .r0 4,
     .tst .r1 0x10,
     .bne 2,
     .vldmia .r0,
     .label 2,
     .msrPsp .r0,
     .bx .r1]

/-- `PendSV`. -/
def pendSV (arch : FpuArch) : List Instr :=
  arch.saveCurrentTask ++ .bl :: arch.restoreNewTask

/-- The stack limit `pendsv_save_and_switch` installs: only ARMv8-M has `PSPLIM`. -/
def limit {n : Nat} {V : Type} (arch : FpuArch) (kernel : Rtos n V) (cpu : Cpu) : Word :=
  match arch, kernel.current with
  | .v8m, some task => (kernel.tcb task).stackBase
  | _, _ => cpu.psplim

end FpuArch

/-- A core and the kernel it runs. -/
structure Board (n : Nat) (V : Type) where
  cpu : Cpu
  kernel : Rtos n V

namespace Board

variable {n : Nat} {V : Type}

/-- `bl pendsv_save_and_switch`. -/
def bl (arch : FpuArch) (scratch : Cpu) (board : Board n V) : Option (Board n V) :=
  match board.kernel.pendsvSaveAndSwitch (board.cpu.r .r0) with
  | .ok (kernel, sp) =>
    some { kernel, cpu := { board.cpu.call scratch sp with psplim := arch.limit kernel board.cpu } }
  | .error _ => none

/-- Execute a program to its `bx`: the state there and the value branched to. While a
branch is taken, `target` is the label looked for. -/
def run (arch : FpuArch) (scratch : Cpu) :
    List Instr → Option Nat → Board n V → Option (Board n V × Word)
  | [], _, _ => none
  | instr :: rest, some label, board =>
    run arch scratch rest (if instr = .label label then none else some label) board
  | instr :: rest, none, board =>
    match instr with
    | .bx rm => some (board, board.cpu.r rm)
    | .bl =>
      match board.bl arch scratch with
      | some after => run arch scratch rest none after
      | none => none
    | .beq label => run arch scratch rest (if board.cpu.zero then some label else none) board
    | .bne label => run arch scratch rest (if board.cpu.zero then none else some label) board
    | instr => run arch scratch rest none { board with cpu := board.cpu.exec instr }

/-- The PendSV handler, from exception entry to the exception return it ends with. -/
def handler (arch : FpuArch) (excReturn : ExcReturn) (scratch : Cpu) (board : Board n V) :
    Option (Board n V × Word) :=
  run arch scratch arch.pendSV none { board with cpu := board.cpu.exceptionEntry excReturn }

end Board

end Kangaroos
