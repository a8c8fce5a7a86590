import Kangaroos.Arch.PendSV
import Kangaroos.Logic.Transition

/-!
# The PendSV stubs without FPU

Three ports switch the integer context only. ARMv7-M pushes and pops the nine words of the
software frame with one instruction each; the Thumb-1 subset of the other two reaches the high
registers only through the low ones.
-/

namespace Kangaroos

open Words (loadWords Block)

/-- The ports whose PendSV switches integer context only; `v8m` is the one without FPU. -/
inductive IntegerArch where
  | v6m
  | v7m
  | v8m
  deriving DecidableEq

namespace IntegerArch

/-- `PendSV` up to the call. -/
def saveCurrentTask : IntegerArch → List Instr
  | .v6m =>
    [.mrsPsp .r0,
     .subs .r0 36,
     .stmia .r0 [.r4, .r5, .r6, .r7],
     .mov .r4 .r8,
     .mov .r5 .r9,
     .mov .r6 .r10,
     .mov .r7 .r11,
     .stmia .r0 [.r4, .r5, .r6, .r7],
     .mov .r4 .lr,
     .str .r4 .r0,
     .subs .r0 32,
     .ldmia .r0 [.r4, .r5, .r6, .r7],
     .subs .r0 16]
  | .v7m =>
    [.mrsPsp .r0,
     .stmdb .r0 (Reg.calleeSaved ++ [.lr])]
  | .v8m =>
    [.mrsPsp .r0,
     .subs .r0 36,
     .stmia .r0 [.r4, .r5, .r6, .r7],
     .mov .r4 .r8,
     .mov .r5 .r9,
     .mov .r6 .r10,
     .mov .r7 .r11,
     .stmia .r0 [.r4, .r5, .r6, .r7],
     .mov .r4 .lr,
     .str .r4 .r0,
     .subs .r0 32,
     .ldmia .r0 [.r4, .r5, .r6, .r7],
     .subs .r0 16]

/-- `PendSV` from the call to the exception return. -/
def restoreNewTask : IntegerArch → List Instr
  | .v6m =>
    [.ldmia .r0 [.r4, .r5, .r6, .r7],
     .ldmia .r0 [.r1, .r2],
     .mov .r8 .r1,
     .mov .r9 .r2,
     .ldmia .r0 [.r1, .r2],
     .mov .r10 .r1,
     .mov .r11 .r2,
     .ldr .r1 .r0,
     .adds .r0 4,
     .msrPsp .r0]
  | .v7m =>
    [.ldmia .r0 (Reg.calleeSaved ++ [.lr]),
     .msrPsp .r0]
  | .v8m =>
    [.ldmia .r0 [.r4, .r5, .r6, .r7],
     .ldmia .r0 [.r1, .r2],
     .mov .r8 .r1,
     .mov .r9 .r2,
     .ldmia .r0 [.r1, .r2],
     .mov .r10 .r1,
     .mov .r11 .r2,
     .ldr .r1 .r0,
     .adds .r0 4,
     .msrPsp .r0]

/-- The register the final `bx` takes `EXC_RETURN` from. -/
def returnReg : IntegerArch → Reg
  | .v6m | .v8m => .r1
  | .v7m => .lr

/-- `PendSV`. -/
def pendSV (arch : IntegerArch) : List Instr :=
  arch.saveCurrentTask ++ .bl :: (arch.restoreNewTask ++ [.bx arch.returnReg])

/-- The `pendsv_save_and_switch` a port links: ARMv8-M has its own, the others share one. -/
def callee : IntegerArch → FpuArch
  | .v6m | .v7m => .v7emFpu
  | .v8m => .v8m

end IntegerArch

namespace Cpu

/-- Execute straight-line code. -/
def execAll (cpu : Cpu) (code : List Instr) : Cpu := code.foldl exec cpu

/-- The registers when a port calls `pendsv_save_and_switch`. -/
def saves (cpu : Cpu) (arch : IntegerArch) : Cpu := cpu.execAll arch.saveCurrentTask

/-- The registers at the exception return, from those after the call. -/
def restores (cpu : Cpu) (arch : IntegerArch) : Cpu := cpu.execAll arch.restoreNewTask

/-- The `EXC_RETURN` a port leaves PendSV with. -/
def returnValue (cpu : Cpu) (arch : IntegerArch) : Word := (cpu.restores arch).r arch.returnReg

end Cpu

/-- PendSV from its first instruction to its exception return. -/
def Board.integerHandler {n : Nat} {V : Type} (arch : IntegerArch) (scratch : Cpu)
    (board : Board n V) : Option (Board n V × Word) :=
  run arch.callee scratch arch.pendSV none board

/-- What a task takes with it: `r4` to `r11`, its `EXC_RETURN` and its stack pointer. -/
structure Context where
  callee : List Word
  exc : Word
  psp : Word
  deriving DecidableEq

/-- The context in the registers, with the `EXC_RETURN` of the exception. -/
def Cpu.context (cpu : Cpu) (exc : Word) : Context where
  callee := Reg.calleeSaved.map cpu.r
  exc := exc
  psp := cpu.psp

section Switching

variable {n : Nat} {V : Type}

/-- The contexts of the tasks that are switched out. -/
abbrev Contexts (n : Nat) := Fin n → Option Context

/-- The saved stack pointers and the frames of the tasks that are switched out stay. -/
def FramesKept (contexts : Contexts n) (before after : Board n V) : Prop :=
  ∀ task, contexts task ≠ none →
    (after.kernel.tcb task).sp = (before.kernel.tcb task).sp ∧
      ∀ address, Block (before.kernel.tcb task).sp 9 address →
        after.cpu.mem address = before.cpu.mem address

/-- What happens between two looks at the registers: anything but a switch, or a switch. -/
inductive SwitchLabel where
  | execute
  | pendsv (scratch : Cpu) (exc : Word)

/-- The contexts after a switch from `old` to `new`: that of `old` is put away. -/
def Contexts.switched (contexts : Contexts n) (old new : Fin n) (context : Context) : Contexts n :=
  Function.update (Function.update contexts old (some context)) new none

/-- The board under switches among its tasks, beside the contexts that are switched out. Both
anything else that executes and PendSV itself leave their frames alone. -/
def IntegerArch.switching (arch : IntegerArch) (n : Nat) (V : Type) :
    TransitionSystem (Board n V × Contexts n) SwitchLabel where
  initial pair := pair.2 = fun _ => none
  step
    | (board, contexts), .execute, (next, contexts') =>
      next.kernel.current = board.kernel.current ∧ FramesKept contexts board next ∧
        contexts' = contexts
    | (board, contexts), .pendsv scratch exc, (exit, contexts') =>
      board.integerHandler arch scratch = some (exit, exc) ∧
        ∃ old new, board.kernel.current = some old ∧ exit.kernel.current = some new ∧
          (∀ task, task ≠ old → contexts task ≠ none →
            ∀ address, Block (board.kernel.tcb task).sp 9 address →
              exit.cpu.mem address = board.cpu.mem address) ∧
          contexts' = contexts.switched old new (board.cpu.context (board.cpu.r .lr))

end Switching

end Kangaroos
