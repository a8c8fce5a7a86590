import Kangaroos.Kernel.State
import Kangaroos.Logic.Words

/-!
# Registers and exceptions

The registers of a Cortex-M core with FPU as far as a context switch sees them,
the instructions the PendSV stubs use, and what the hardware does on exception
entry and return. `mem` is the memory the task stacks live in; statics and the
main stack are elsewhere.
-/

namespace Kangaroos

open Words (storeWords loadWords)

/-- The core registers a stub names. -/
inductive Reg where
  | r0 | r1 | r2 | r3 | r4 | r5 | r6 | r7 | r8 | r9 | r10 | r11 | r12 | lr
  deriving DecidableEq

/-- `{r4-r11}`. -/
def Reg.calleeSaved : List Reg := [.r4, .r5, .r6, .r7, .r8, .r9, .r10, .r11]

/-- The registers of the core, with the process stack pointer and the Z flag of the
running handler. -/
structure Cpu where
  r : Reg → Word
  s : Fin 32 → Word
  psp : Word
  pc : Word
  xpsr : Word
  fpscr : Word
  control : Word
  psplim : Word
  zero : Bool
  mem : Word → Word

/-- The instructions of the stubs. `vstmdb rn` and `vldmia rn` transfer `{s16-s31}`. -/
inductive Instr where
  | mrsPsp (rd : Reg)
  | mrsControl (rd : Reg)
  | msrPsp (rn : Reg)
  | tst (rn : Reg) (mask : Word)
  | beq (label : Nat)
  | bne (label : Nat)
  | label (label : Nat)
  | vstmdb (rn : Reg)
  | vldmia (rn : Reg)
  | stmdb (rn : Reg) (regs : List Reg)
  | stmia (rn : Reg) (regs : List Reg)
  | ldmia (rn : Reg) (regs : List Reg)
  | subs (rd : Reg) (imm : Word)
  | adds (rd : Reg) (imm : Word)
  | mov (rd rm : Reg)
  | str (rt rn : Reg)
  | ldr (rt rn : Reg)
  | bl
  | bx (rm : Reg)
  deriving DecidableEq

namespace Cpu

/-- `CONTROL.FPCA`: the running task has an active floating-point context. -/
def fpca (cpu : Cpu) : Bool := cpu.control.getLsbD 2

/-- Write a register. -/
def setReg (cpu : Cpu) (rd : Reg) (value : Word) : Cpu :=
  { cpu with r := Function.update cpu.r rd value }

/-- Load registers from a block of words. -/
def setRegs (r : Reg → Word) : List Reg → List Word → Reg → Word
  | reg :: regs, word :: words => setRegs (Function.update r reg word) regs words
  | _, _ => r

/-- `s16` to `s31`. -/
def highWords (cpu : Cpu) : List Word :=
  [cpu.s 16, cpu.s 17, cpu.s 18, cpu.s 19, cpu.s 20, cpu.s 21, cpu.s 22, cpu.s 23,
   cpu.s 24, cpu.s 25, cpu.s 26, cpu.s 27, cpu.s 28, cpu.s 29, cpu.s 30, cpu.s 31]

/-- `s0` to `s15`. -/
def lowWords (cpu : Cpu) : List Word :=
  [cpu.s 0, cpu.s 1, cpu.s 2, cpu.s 3, cpu.s 4, cpu.s 5, cpu.s 6, cpu.s 7,
   cpu.s 8, cpu.s 9, cpu.s 10, cpu.s 11, cpu.s 12, cpu.s 13, cpu.s 14, cpu.s 15]

/-- Execute one instruction other than a branch. -/
def exec (cpu : Cpu) : Instr → Cpu
  | .mrsPsp rd => cpu.setReg rd cpu.psp
  | .mrsControl rd => cpu.setReg rd cpu.control
  | .msrPsp rn => { cpu with psp := cpu.r rn }
  | .tst rn mask => { cpu with zero := decide (cpu.r rn &&& mask = 0) }
  | .vstmdb rn =>
    let address := cpu.r rn - 64
    { cpu.setReg rn address with mem := storeWords cpu.mem address cpu.highWords }
  | .vldmia rn =>
    let address := cpu.r rn
    { cpu.setReg rn (address + 64) with
      s := fun i => if 16 ≤ i.val then cpu.mem (address + BitVec.ofNat 32 (4 * (i.val - 16)))
        else cpu.s i }
  | .stmdb rn regs =>
    let address := cpu.r rn - BitVec.ofNat 32 (4 * regs.length)
    { cpu.setReg rn address with mem := storeWords cpu.mem address (regs.map cpu.r) }
  | .stmia rn regs =>
    let address := cpu.r rn
    { cpu.setReg rn (address + BitVec.ofNat 32 (4 * regs.length)) with
      mem := storeWords cpu.mem address (regs.map cpu.r) }
  | .ldmia rn regs =>
    let address := cpu.r rn
    { cpu with
      r := Function.update (setRegs cpu.r regs (loadWords cpu.mem address regs.length)) rn
        (address + BitVec.ofNat 32 (4 * regs.length)) }
  | .subs rd imm =>
    let value := cpu.r rd - imm
    { cpu.setReg rd value with zero := decide (value = 0) }
  | .adds rd imm =>
    let value := cpu.r rd + imm
    { cpu.setReg rd value with zero := decide (value = 0) }
  | .mov rd rm => cpu.setReg rd (cpu.r rm)
  | .str rt rn => { cpu with mem := storeWords cpu.mem (cpu.r rn) [cpu.r rt] }
  | .ldr rt rn => cpu.setReg rt (cpu.mem (cpu.r rn))
  | _ => cpu

/-- A procedure call by the AAPCS: `r0` is the result, and the caller-saved registers
and the flags are whatever the callee leaves in them. -/
def call (cpu scratch : Cpu) (result : Word) : Cpu :=
  { cpu with
    r := fun reg =>
      match reg with
      | .r0 => result
      | .r1 | .r2 | .r3 | .r12 | .lr => scratch.r reg
      | _ => cpu.r reg
    s := fun i => if i.val < 16 then scratch.s i else cpu.s i
    fpscr := scratch.fpscr
    zero := scratch.zero }

end Cpu

/-- The bytes of a hardware exception frame: 8 words, or 26 with floating-point context. -/
def frameSize (extended : Bool) : Word := if extended then 104 else 32

/-- The choice of `EXC_RETURN` the architecture leaves to the core: bit 4 is clear exactly
when the frame is extended. -/
structure ExcReturn where
  value : Bool → Word
  bit4 : ∀ extended, (value extended).getLsbD 4 = !extended

namespace Cpu

/-- The hardware frame. Bit 9 of the stacked xPSR records the padding word. -/
def hardwareFrame (cpu : Cpu) (extended padded : Bool) : List Word :=
  [cpu.r .r0, cpu.r .r1, cpu.r .r2, cpu.r .r3, cpu.r .r12, cpu.r .lr, cpu.pc,
    if padded then cpu.xpsr ||| 0x200 else cpu.xpsr &&& ~~~0x200] ++
  if extended then cpu.lowWords ++ [cpu.fpscr, 0] else []

/-- Exception entry from Thread mode: push the frame on the process stack, aligned to 8
bytes, put `EXC_RETURN` into `lr` and clear `CONTROL.FPCA`. -/
def exceptionEntry (excReturn : ExcReturn) (cpu : Cpu) : Cpu :=
  let extended := cpu.fpca
  let padded := cpu.psp.getLsbD 2
  let frame := cpu.psp - (if padded then 4 else 0) - frameSize extended
  { cpu.setReg .lr (excReturn.value extended) with
    mem := storeWords cpu.mem frame (cpu.hardwareFrame extended padded)
    psp := frame
    control := cpu.control &&& ~~~4 }

/-- Exception entry pushes one hardware frame. -/
theorem exceptionEntry_mem (excReturn : ExcReturn) (cpu : Cpu) :
    (cpu.exceptionEntry excReturn).mem = storeWords cpu.mem (cpu.exceptionEntry excReturn).psp
      (cpu.hardwareFrame cpu.fpca (cpu.psp.getLsbD 2)) := by
  simp only [exceptionEntry, setReg]

/-- Exception return to Thread mode: pop the frame that bit 4 of `EXC_RETURN` names. -/
def exceptionReturn (cpu : Cpu) (exc : Word) : Cpu :=
  let extended := !exc.getLsbD 4
  let frame := cpu.psp
  let xpsr := cpu.mem (frame + 28)
  { cpu with
    r := setRegs cpu.r [.r0, .r1, .r2, .r3, .r12, .lr] (loadWords cpu.mem frame 6)
    pc := cpu.mem (frame + 24)
    xpsr := xpsr &&& ~~~0x200
    psp := frame + frameSize extended + if xpsr.getLsbD 9 then 4 else 0
    control := if extended then cpu.control ||| 4 else cpu.control &&& ~~~4
    s := fun i => if extended && decide (i.val < 16) then
        cpu.mem (frame + BitVec.ofNat 32 (32 + 4 * i.val)) else cpu.s i
    fpscr := if extended then cpu.mem (frame + 96) else cpu.fpscr }

/-- The handler starts with `CONTROL.FPCA` clear. -/
theorem exceptionEntry_control (excReturn : ExcReturn) (cpu : Cpu) :
    (cpu.exceptionEntry excReturn).control &&& 4 = 0 := by
  show (cpu.control &&& ~~~4) &&& 4 = 0
  simp [BitVec.and_assoc]

end Cpu

end Kangaroos
