import Kangaroos.Device
import Kangaroos.Proofs.InitialFrame

/-!
# Registers on the stack

A task that does not execute has its registers on its stack, below the part it has in use:
the hardware frame, and below it the software frame PendSV pushes. What exception entry and
PendSV put there is what they take from there.
-/

namespace Kangaroos

open Words (storeWords loadWords Block)

namespace Slice

variable {stack : Slice} {mem : Word → Word} {address : Word} {base count index : Nat}

theorem owns_address (bound : index < stack.len) : stack.Owns (stack.address index) :=
  ⟨index, bound, rfl⟩

/-- A part of a slice. -/
theorem owns_of_block (part : base + count ≤ stack.len)
    (inside : Block (stack.address base) count address) : stack.Owns address := by
  obtain ⟨index, bound, rfl⟩ := inside
  rw [← stack.address_add]
  exact owns_address (by omega)

/-- Parts of a slice that do not overlap. -/
theorem not_block_of_block {first last : Nat} (part : base + count ≤ stack.len)
    (part' : first + last ≤ stack.len) (apart : first + last ≤ base ∨ base + count ≤ first)
    (inside : Block (stack.address first) last address) : ¬Block (stack.address base) count address := by
  obtain ⟨index, bound, rfl⟩ := inside
  rw [← stack.address_add]
  exact not_block part (by omega) (by omega)

/-- The words from an element up. -/
theorem inUse_address (mem : Word → Word) (positive : 0 < base) (within : base ≤ stack.len) :
    stack.inUse mem (stack.address base) = loadWords mem (stack.address base) (stack.len - base) := by
  have fits := stack.fits
  obtain ⟨rest, isRest⟩ := Nat.exists_eq_add_of_le within
  have gap : stack.address stack.len - stack.address base = BitVec.ofNat 32 (4 * rest) := by
    rw [isRest, stack.address_add]
    exact add_sub_cancel_left _ _
  have small : 4 * rest < 2 ^ 32 := by omega
  rw [inUse, gap, BitVec.toNat_ofNat, Nat.mod_eq_of_lt small, Nat.mul_div_cancel_left _ (by decide),
    isRest, Nat.add_sub_cancel_left]

theorem Room.of_spare {psp : Word} {spare : Nat} (room : stack.Room psp (spare + count)) :
    stack.Room psp count := by
  obtain ⟨base, bound, enough, isPsp⟩ := room
  exact ⟨base, bound, by omega, isPsp⟩

end Slice

/-- The padding word bit 9 of the stacked xPSR records. -/
def padWords (xpsr : Word) : Nat := if xpsr.getLsbD 9 then 1 else 0

/-- The registers exception entry pushes. -/
def TaskView.hardwareFrame (view : TaskView) (xpsr : Word) : List Word :=
  [view.r .r0, view.r .r1, view.r .r2, view.r .r3, view.r .r12, view.r .lr, view.pc, xpsr]

/-- From element `base` up a stack holds the hardware frame of a task and what it has in use. -/
structure Slice.HardwareAt (stack : Slice) (mem : Word → Word) (view : TaskView) (base : Nat)
    (xpsr : Word) : Prop where
  fits : base + 8 + padWords xpsr ≤ stack.len
  frame : loadWords mem (stack.address base) 8 = view.hardwareFrame xpsr
  flags : view.xpsr = xpsr &&& ~~~0x200
  psp : view.psp = stack.address (base + 8 + padWords xpsr)
  words : view.words = loadWords mem view.psp (stack.len - (base + 8 + padWords xpsr))

/-- From `sp` up a stack holds all the registers of a task and what it has in use. -/
def Slice.Parked (stack : Slice) (mem : Word → Word) (sp : Word) (view : TaskView) : Prop :=
  ∃ frame exc xpsr, sp = stack.address frame ∧ exc.getLsbD 4 = true ∧
    loadWords mem sp 9 = Reg.calleeSaved.map view.r ++ [exc] ∧
    stack.HardwareAt mem view (frame + 9) xpsr

namespace Slice

variable {stack : Slice} {mem mem' : Word → Word} {view : TaskView} {base : Nat} {xpsr sp : Word}

/-- A hardware frame does not depend on what is below it. -/
theorem HardwareAt.congr (holds : stack.HardwareAt mem view base xpsr)
    (same : ∀ index, base ≤ index → index < stack.len →
      mem' (stack.address index) = mem (stack.address index)) :
    stack.HardwareAt mem' view base xpsr where
  fits := holds.fits
  frame := by
    rw [← holds.frame]
    refine Words.loadWords_congr fun target inside => ?_
    obtain ⟨index, bound, rfl⟩ := inside
    rw [← stack.address_add]
    exact same _ (by omega) (by have := holds.fits; omega)
  flags := holds.flags
  psp := holds.psp
  words := by
    rw [holds.words]
    refine (Words.loadWords_congr fun target inside => ?_).symm
    obtain ⟨index, bound, rfl⟩ := inside
    rw [holds.psp, ← stack.address_add]
    exact same _ (by omega) (by omega)

/-- The words of the stack are all that matters. -/
theorem Parked.congr (parked : stack.Parked mem sp view)
    (same : ∀ address, stack.Owns address → mem' address = mem address) :
    stack.Parked mem' sp view := by
  obtain ⟨frame, exc, xpsr, rfl, standard, software, hardware⟩ := parked
  have fits := hardware.fits
  refine ⟨frame, exc, xpsr, rfl, standard, ?_, hardware.congr fun index _ bound =>
    same _ (owns_address bound)⟩
  rw [← software]
  exact Words.loadWords_congr fun target inside =>
    same target (owns_of_block (by omega) inside)

end Slice

namespace Cpu

variable {stack : Slice} {cpu : Cpu} {view : TaskView} {base : Nat}
  {xpsr exc sp : Word}

theorem padWords_stacked (word : Word) (padded : Bool) :
    padWords (if padded then word ||| 0x200 else word &&& ~~~0x200) = (if padded then 1 else 0) := by
  cases padded <;> simp [padWords]

theorem flags_stacked (word : Word) (padded : Bool) :
    (if padded then word ||| 0x200 else word &&& ~~~0x200) &&& ~~~0x200 = word &&& ~~~0x200 := by
  cases padded
  · simp [BitVec.and_assoc]
  · ext index bound
    simp only [if_true, BitVec.getElem_and, BitVec.getElem_or, BitVec.getElem_not]
    cases word[index] <;> simp

theorem entryWords_eq (cpu : Cpu) : cpu.entryWords = 8 + if cpu.psp.getLsbD 2 then 1 else 0 := by
  unfold entryWords
  split <;> rfl

/-- Exception entry puts the view of the running task on its stack. -/
theorem hardwareAt_entry (excReturn : ExcReturn) (standard : cpu.fpca = false)
    (isPsp : cpu.psp = stack.address (base + cpu.entryWords)) (within : base + cpu.entryWords ≤ stack.len) :
    (cpu.exceptionEntry excReturn).psp = stack.address base ∧
      stack.HardwareAt (cpu.exceptionEntry excReturn).mem (cpu.taskView stack) base
        (if cpu.psp.getLsbD 2 then cpu.xpsr ||| 0x200 else cpu.xpsr &&& ~~~0x200) := by
  have words := cpu.entryWords_eq
  have below : (cpu.exceptionEntry excReturn).psp = stack.address base := by
    rw [stack.address_add] at isPsp
    show cpu.psp - (if cpu.psp.getLsbD 2 then 4 else 0) - frameSize cpu.fpca = stack.address base
    rw [standard]
    unfold entryWords at isPsp
    split
    · rename_i padded
      rw [if_pos padded] at isPsp
      rw [isPsp]
      simp [frameSize]
      bv_omega
    · rename_i unpadded
      rw [if_neg unpadded] at isPsp
      rw [isPsp]
      simp [frameSize]
  have stored := cpu.exceptionEntry_mem excReturn
  rw [below, standard] at stored
  have eight : (cpu.hardwareFrame false (cpu.psp.getLsbD 2)).length = 8 := rfl
  have pads := padWords_stacked cpu.xpsr (cpu.psp.getLsbD 2)
  refine ⟨below, ?_, ?_, ?_, ?_, ?_⟩
  · rw [pads]
    omega
  · rw [stored, ← eight]
    rw [Words.loadWords_storeWords _ _ _ (by rw [eight]; decide)]
    simp [hardwareFrame, TaskView.hardwareFrame, taskView]
  · exact (flags_stacked _ _).symm
  · rw [pads, Nat.add_assoc, ← words]
    exact isPsp
  · rw [pads, Nat.add_assoc, ← words]
    show stack.inUse cpu.mem cpu.psp = _
    rw [isPsp, Slice.inUse_address _ (by omega) within, show (cpu.taskView stack).psp = _ from isPsp]
    refine (Words.loadWords_congr fun target inside => ?_).symm
    rw [stored]
    refine Words.storeWords_of_outside ?_
    rw [eight]
    exact Slice.not_block_of_block (by omega) (by omega) (.inr (by omega)) inside

/-- Exception entry writes to the stack of the running task only. -/
theorem entry_outside (excReturn : ExcReturn) (standard : cpu.fpca = false)
    (isPsp : cpu.psp = stack.address (base + cpu.entryWords)) (within : base + cpu.entryWords ≤ stack.len)
    {address : Word} (outside : ¬Block (stack.address base) 8 address) :
    (cpu.exceptionEntry excReturn).mem address = cpu.mem address := by
  have below := (hardwareAt_entry excReturn standard isPsp within).1
  rw [exceptionEntry_mem, below, standard]
  exact Words.storeWords_of_outside outside

/-- Exception return gives a task its view back. -/
theorem taskView_return (holds : stack.HardwareAt cpu.mem view base xpsr)
    (isPsp : cpu.psp = stack.address base) (standard : exc.getLsbD 4 = true)
    (callee : Reg.calleeSaved.map cpu.r = Reg.calleeSaved.map view.r) :
    (cpu.exceptionReturn exc).taskView stack = view := by
  have frame := holds.frame
  simp only [loadWords, TaskView.hardwareFrame, BitVec.add_assoc, List.cons.injEq, and_true] at frame
  obtain ⟨r0, r1, r2, r3, r12, lr, pc, isXpsr⟩ := frame
  have flags : cpu.mem (cpu.psp + 28) = xpsr := by
    rw [isPsp]
    exact isXpsr
  have psp : (cpu.exceptionReturn exc).psp = view.psp := by
    simp only [exceptionReturn, standard, flags, frameSize, Bool.not_true, Bool.false_eq_true, if_false]
    rw [holds.psp, Nat.add_assoc, stack.address_add, isPsp, BitVec.add_assoc]
    unfold padWords
    cases xpsr.getLsbD 9 <;> rfl
  have registers : (cpu.exceptionReturn exc).r = view.r := by
    simp only [Reg.calleeSaved, List.map_cons, List.map_nil, List.cons.injEq, and_true] at callee
    obtain ⟨r4, r5, r6, r7, r8, r9, r10, r11⟩ := callee
    ext1 reg
    simp only [exceptionReturn, setRegs, loadWords, isPsp, BitVec.add_assoc]
    cases reg <;> assumption
  have positive : 0 < base + 8 + padWords xpsr := by omega
  refine TaskView.ext registers ?_ ?_ psp ?_
  · rw [← pc]
    simp [taskView, exceptionReturn, isPsp]
  · simp only [taskView, exceptionReturn, flags, BitVec.and_assoc, BitVec.and_self]
    exact holds.flags.symm
  · show stack.inUse cpu.mem (cpu.exceptionReturn exc).psp = view.words
    rw [psp, holds.words, holds.psp, Slice.inUse_address _ positive holds.fits]

@[simp] theorem exceptionReturn_mem (cpu : Cpu) (exc : Word) :
    (cpu.exceptionReturn exc).mem = cpu.mem := by
  simp only [exceptionReturn]

/-- Without FPU a task has no floating-point context. -/
theorem fpca_return (cpu : Cpu) (bit : exc.getLsbD 4 = true) :
    (cpu.exceptionReturn exc).fpca = false := by
  simp only [exceptionReturn, fpca, bit, Bool.not_true, Bool.false_eq_true, if_false]
  simp

@[simp] theorem taskView_r (cpu : Cpu) (stack : Slice) : (cpu.taskView stack).r = cpu.r := by
  rw [taskView]

/-- A handler leaves the view of the task it interrupts alone. -/
theorem interrupted_spec (excReturn : ExcReturn) (standard : cpu.fpca = false) (room : stack.Room cpu.psp cpu.entryWords) :
    (cpu.interrupted excReturn).taskView stack = cpu.taskView stack ∧
      (cpu.interrupted excReturn).fpca = false ∧
      (cpu.interrupted excReturn).psplim = cpu.psplim ∧
      ∀ address, ¬stack.Owns address → (cpu.interrupted excReturn).mem address = cpu.mem address := by
  obtain ⟨top, bound, enough, isPsp⟩ := room
  obtain ⟨base, rfl⟩ := Nat.exists_eq_add_of_le' enough
  have within : base + cpu.entryWords ≤ stack.len := Nat.le_of_lt_succ bound
  obtain ⟨below, hardware⟩ := hardwareAt_entry excReturn standard isPsp within
  have bit : (excReturn.value cpu.fpca).getLsbD 4 = true := by
    rw [excReturn.bit4, standard]
    rfl
  refine ⟨?_, ?_, rfl, fun address outside => ?_⟩
  · refine taskView_return hardware below bit ?_
    simp [exceptionEntry, setReg, taskView, Reg.calleeSaved]
  · exact fpca_return _ bit
  · have eight : 8 ≤ cpu.entryWords := cpu.entryWords_eq ▸ Nat.le_add_right _ _
    rw [interrupted, exceptionReturn_mem]
    exact entry_outside excReturn standard isPsp within fun inside =>
      outside (Slice.owns_of_block (by omega) inside)

/-- PendSV parks the running task. -/
theorem preempted_spec (arch : IntegerArch) (excReturn : ExcReturn) (standard : cpu.fpca = false)
    (room : stack.Room cpu.psp (9 + cpu.entryWords)) :
    stack.Parked (cpu.preempted arch excReturn).mem ((cpu.preempted arch excReturn).r .r0)
        (cpu.taskView stack) ∧
      ∀ address, ¬stack.Owns address →
        (cpu.preempted arch excReturn).mem address = cpu.mem address := by
  obtain ⟨top, bound, enough, isPsp⟩ := room
  obtain ⟨frame, rfl⟩ := Nat.exists_eq_add_of_le' enough
  have eight : 8 ≤ cpu.entryWords := cpu.entryWords_eq ▸ Nat.le_add_right _ _
  rw [← Nat.add_assoc] at isPsp
  obtain ⟨below, hardware⟩ := hardwareAt_entry excReturn standard isPsp (by omega)
  obtain ⟨given, pushed⟩ := (cpu.exceptionEntry excReturn).saves_eq arch
  have isSp : (cpu.exceptionEntry excReturn).psp - 36 = stack.address frame := by
    rw [below, stack.address_add]
    exact add_sub_cancel_right _ _
  rw [isSp] at given pushed
  have software : (((cpu.exceptionEntry excReturn).context
      ((cpu.exceptionEntry excReturn).r .lr)).callee ++ [excReturn.value cpu.fpca]).length = 9 := rfl
  have isExc : ((cpu.exceptionEntry excReturn).context
      ((cpu.exceptionEntry excReturn).r .lr)).exc = excReturn.value cpu.fpca := by
    simp [context, exceptionEntry, setReg]
  rw [isExc] at pushed
  refine ⟨⟨frame, excReturn.value cpu.fpca, _, given, ?_, ?_, hardware.congr fun index above inside => ?_⟩,
    fun address outside => ?_⟩
  · rw [excReturn.bit4, standard]
    rfl
  · show loadWords ((cpu.exceptionEntry excReturn).saves arch).mem
      (((cpu.exceptionEntry excReturn).saves arch).r .r0) 9 = _
    rw [given, pushed, ← software, Words.loadWords_storeWords _ _ _ (by rw [software]; decide)]
    simp [context, exceptionEntry, setReg, taskView, Reg.calleeSaved]
  · show ((cpu.exceptionEntry excReturn).saves arch).mem _ = _
    rw [pushed]
    refine Words.storeWords_of_outside ?_
    rw [software]
    exact stack.not_block (by omega) inside (.inr above)
  · show ((cpu.exceptionEntry excReturn).saves arch).mem address = _
    rw [pushed, Words.storeWords_of_outside, entry_outside excReturn standard isPsp (by omega)]
    · exact fun inside => outside (Slice.owns_of_block (by omega) inside)
    · rw [software]
      exact fun inside => outside (Slice.owns_of_block (by omega) inside)

/-- A stub has popped the software frame at `r0` and installed the stack pointer above it. -/
structure Unstacked (before after : Cpu) (exc : Word) : Prop where
  frame : Reg.calleeSaved.map after.r ++ [exc] = loadWords before.mem (before.r .r0) 9
  psp : after.psp = before.r .r0 + 36
  mem : after.mem = before.mem
  psplim : after.psplim = before.psplim

/-- The words of a popped frame. -/
theorem Popped.frame {before after : Cpu} {reg : Reg} (pops : before.Popped after reg) :
    Reg.calleeSaved.map after.r ++ [after.r reg] = loadWords before.mem (before.r .r0) 9 := by
  have nine : loadWords before.mem (before.r .r0) 9 =
      loadWords before.mem (before.r .r0) 8 ++ [before.mem (before.r .r0 + 32)] := by
    simp [loadWords, BitVec.add_assoc]
  rw [nine, pops.callee, pops.value]

theorem restores_unstacked (arch : IntegerArch) (cpu : Cpu) :
    cpu.Unstacked (cpu.restores arch) (cpu.returnValue arch) := by
  obtain ⟨frame, psp, mem⟩ := restores_eq arch cpu
  have limit : (cpu.restores arch).psplim = cpu.psplim := by cases arch <;> rfl
  exact ⟨frame, psp, mem, limit⟩

/-- The exception return of such a stub gives a parked task its view back. -/
theorem Unstacked.resumes {after : Cpu} (unstacked : cpu.Unstacked after exc)
    (parked : stack.Parked cpu.mem (cpu.r .r0) view) :
    (after.exceptionReturn exc).taskView stack = view ∧ (after.exceptionReturn exc).fpca = false := by
  obtain ⟨frame, stacked, xpsr, isSp, bit, software, hardware⟩ := parked
  have popped := unstacked.frame
  rw [software] at popped
  obtain ⟨callee, isExc⟩ := List.append_inj' popped rfl
  obtain rfl : exc = stacked := (List.cons.inj isExc).1
  rw [← unstacked.mem] at hardware
  refine ⟨taskView_return hardware ?_ bit callee, fpca_return _ bit⟩
  rw [unstacked.psp, isSp, stack.address_add]
  rfl

/-- What a port restores from the stack of a task is its view. -/
theorem dispatched_spec (arch : IntegerArch) (scratch : Cpu) (limit : Word)
    (parked : stack.Parked cpu.mem sp view) :
    (cpu.dispatched scratch arch limit sp).taskView stack = view ∧
      (cpu.dispatched scratch arch limit sp).fpca = false :=
  (restores_unstacked arch { cpu.call scratch sp with psplim := limit }).resumes parked

theorem dispatched_psplim (arch : IntegerArch) (cpu scratch : Cpu) (limit sp : Word) :
    (cpu.dispatched scratch arch limit sp).psplim = limit :=
  (restores_unstacked arch { cpu.call scratch sp with psplim := limit }).psplim

theorem dispatched_mem (arch : IntegerArch) (cpu scratch : Cpu) (limit sp : Word) :
    (cpu.dispatched scratch arch limit sp).mem = cpu.mem :=
  (restores_unstacked arch { cpu.call scratch sp with psplim := limit }).mem

end Cpu

section SVCall

variable {n : Nat} {V : Type} {board exit : Board n V} {scratch : Cpu}

/-- The ports that pop with Thumb-1 instructions. -/
theorem Board.svCallRestore_thumb_unstacked (port : Port) : ∃ exit exc,
    runSvc port scratch (Port.integer .v6m).svCallRestore board =
        some ({ board with cpu := exit }, exc) ∧ board.cpu.Unstacked exit exc := by
  have pops := board.cpu.thumb_popped
  have runs : runSvc port scratch (Port.integer .v6m).svCallRestore board =
      runSvc port scratch [.common (.msrPsp .r0), .movs .r2 2, .msrControl .r2, .isb, .common (.bx .r1)]
        { board with cpu := board.cpu.execAll Thumb.restoreFrame } := rfl
  have limit : (board.cpu.execAll Thumb.restoreFrame).psplim = board.cpu.psplim := rfl
  rw [runs]
  generalize board.cpu.execAll Thumb.restoreFrame = popped at pops limit ⊢
  exact ⟨_, _, rfl, pops.frame, pops.sp, pops.mem, limit⟩

/-- The port that pops with one instruction. -/
theorem Board.svCallRestore_ldmia_unstacked (port : Port) : ∃ exit exc,
    runSvc port scratch (Port.integer .v7m).svCallRestore board =
        some ({ board with cpu := exit }, exc) ∧ board.cpu.Unstacked exit exc := by
  obtain ⟨before, isBefore⟩ : ∃ before, before = ((board.cpu.exec (.msrPsp .r0)).execSvc
      (.movs .r1 2)).execSvc (.msrControl .r1) := ⟨_, rfl⟩
  have sameSp : before.r .r0 = board.cpu.r .r0 := by rw [isBefore]; rfl
  have sameMem : before.mem = board.cpu.mem := by rw [isBefore]; rfl
  have limit : (before.exec (.ldmia .r0 (Reg.calleeSaved ++ [.lr]))).psplim = board.cpu.psplim := by
    rw [isBefore]
    rfl
  have pops := before.ldmia_popped
  have runs : runSvc port scratch (Port.integer .v7m).svCallRestore board =
      runSvc port scratch [.common (.msrPsp .r0), .common (.bx .lr)]
        { board with cpu := before.exec (.ldmia .r0 (Reg.calleeSaved ++ [.lr])) } := by
    rw [isBefore]
    rfl
  rw [runs]
  generalize before.exec (.ldmia .r0 (Reg.calleeSaved ++ [.lr])) = popped at pops limit ⊢
  have frame := pops.frame
  have psp := pops.sp
  rw [sameSp] at frame psp
  rw [sameMem] at frame
  exact ⟨_, _, rfl, frame, psp, pops.mem.trans sameMem, limit⟩

/-- `SVCall` pops a software frame as PendSV does. -/
theorem Board.svCallRestore_unstacked (arch : IntegerArch) (port : Port) : ∃ exit exc,
    runSvc port scratch (Port.integer arch).svCallRestore board =
        some ({ board with cpu := exit }, exc) ∧ board.cpu.Unstacked exit exc :=
  match arch with
  | .v6m => svCallRestore_thumb_unstacked port
  | .v7m => svCallRestore_ldmia_unstacked port
  | .v8m => svCallRestore_thumb_unstacked port

/-- `svc #0` gives the first task what its stack holds, and the stack limit its port has. -/
theorem Board.svCall_spec (arch : IntegerArch) {exc : Word}
    (handled : board.runSvc (.integer arch) scratch (Port.integer arch).svCall = some (exit, exc)) :
    ∃ sp, board.kernel.svcFirstTaskSp = .ok (exit.kernel, sp) ∧
      (exit.cpu.exceptionReturn exc).mem = board.cpu.mem ∧
      (exit.cpu.exceptionReturn exc).psplim = arch.callee.limit exit.kernel board.cpu ∧
      ∀ stack view, Slice.Parked stack board.cpu.mem sp view →
        (exit.cpu.exceptionReturn exc).taskView stack = view ∧
          (exit.cpu.exceptionReturn exc).fpca = false := by
  simp only [Port.svCall, runSvc, blSvc] at handled
  cases returned : board.kernel.svcFirstTaskSp with
  | error fault =>
      simp only [returned] at handled
      cases handled
  | ok result =>
      obtain ⟨kernel, sp⟩ := result
      simp only [returned] at handled
      obtain ⟨called, isCalled⟩ : ∃ called : Board n V, called = { kernel, cpu :=
          { board.cpu.call scratch sp with
            psplim := (Port.integer arch).callee.limit kernel board.cpu } } := ⟨_, rfl⟩
      rw [← isCalled] at handled
      obtain ⟨cpu, value, runs, unstacked⟩ := called.svCallRestore_unstacked arch (.integer arch)
      rw [runs] at handled
      cases handled
      subst isCalled
      exact ⟨sp, rfl, unstacked.mem, unstacked.psplim, fun stack view => unstacked.resumes⟩

end SVCall

end Kangaroos
