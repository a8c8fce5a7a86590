import Kangaroos.Arch.StackInit
import Kangaroos.Proofs.IntegerSwitch

/-!
# The first frame of a task

`spawn_into` leaves the canary at the bottom of the stack and a software frame below a hardware
frame at the top, in 17 words; with 21 words the two touch and do not overlap. Every stub that
reads the frame back finds `r4` to `r11` zero, an `EXC_RETURN` without floating-point
context, and the hardware frame behind it.
-/

namespace Kangaroos

open Words (storeWords loadWords Block)

variable {n : Nat} {V : Type} {board : Board n V}

/-- A block that leaves the kernel alone, also when it panics. -/
def Startup.KeepsKernel {α : Type} (run : Startup n V α) : Prop :=
  ∀ board : Board n V, (∃ result after, run.run board = .ok result after ∧
      after.kernel = board.kernel) ∨
    ∃ fault after, run.run board = .error fault after ∧ after.kernel = board.kernel

/-- One part of the startup after another. -/
theorem Startup.KeepsKernel.bind {α β : Type} {first : Startup n V α} {rest : α → Startup n V β}
    (keeps : first.KeepsKernel) (keeps' : ∀ result, (rest result).KeepsKernel) :
    (first >>= rest).KeepsKernel := by
  intro board
  rcases keeps board with ⟨result, middle, returned, same⟩ | ⟨fault, middle, panics, same⟩
  · rw [EStateM.run_bind_of_ok returned]
    rcases keeps' result middle with ⟨last, after, returned', same'⟩ | ⟨fault, after, panics, same'⟩
    · exact .inl ⟨last, after, returned', same'.trans same⟩
    · exact .inr ⟨fault, after, panics, same'.trans same⟩
  · exact .inr ⟨fault, middle, EStateM.run_bind_of_error panics, same⟩

namespace Board

@[simp] theorem setMem_mem (board : Board n V) (mem : Word → Word) :
    (board.setMem mem).cpu.mem = mem := rfl

@[simp] theorem setMem_setMem (board : Board n V) (mem mem' : Word → Word) :
    (board.setMem mem).setMem mem' = board.setMem mem' := rfl

@[simp] theorem setMem_kernel (board : Board n V) (mem : Word → Word) :
    (board.setMem mem).kernel = board.kernel := rfl

end Board

namespace Slice

variable {stack : Slice} {index : Nat} {value : Word}

/-- The first word of a slice is where it starts. -/
theorem address_zero (stack : Slice) : stack.address 0 = stack.ptr := by
  simp [address]

/-- Words of a slice are four bytes apart. -/
theorem address_add (stack : Slice) (base index : Nat) :
    stack.address (base + index) = stack.address base + BitVec.ofNat 32 (4 * index) := by
  simp only [address, Nat.mul_add, BitVec.ofNat_add, BitVec.add_assoc]

/-- The elements of a slice have addresses of their own. -/
theorem address_inj {index' : Nat} (bound : index < stack.len) (bound' : index' < stack.len)
    (same : stack.address index = stack.address index') : index = index' := by
  have fits := stack.fits
  have offsets : BitVec.ofNat 32 (4 * index) = BitVec.ofNat 32 (4 * index') :=
    add_left_cancel (show stack.ptr + _ = stack.ptr + _ from same)
  have values := congrArg BitVec.toNat offsets
  rw [BitVec.toNat_ofNat, BitVec.toNat_ofNat, Nat.mod_eq_of_lt (by omega),
    Nat.mod_eq_of_lt (by omega)] at values
  omega

/-- An element outside a part of the slice is outside its block. -/
theorem not_block {base count : Nat} (part : base + count ≤ stack.len) (bound : index < stack.len)
    (outside : index < base ∨ base + count ≤ index) :
    ¬Block (stack.address base) count (stack.address index) := by
  rintro ⟨offset, inside, same⟩
  rw [← stack.address_add] at same
  have := address_inj bound (by omega) same
  omega

/-- A write inside a slice stores the word. -/
theorem write_ok (bound : index < stack.len) :
    (stack.write index value).run board =
      .ok () (board.setMem (Function.update board.cpu.mem (stack.address index) value)) := by
  rw [write, if_pos bound]
  rfl

/-- A write stores in memory only, or panics. -/
theorem write_keepsKernel (stack : Slice) (index : Nat) (value : Word) :
    (stack.write index value : Startup n V Unit).KeepsKernel := by
  intro board
  by_cases bound : index < stack.len
  · exact .inl ⟨(), _, write_ok bound, rfl⟩
  · refine .inr ⟨.indexOutOfBounds, board, ?_, rfl⟩
    rw [write, if_neg bound]
    rfl

/-- A write just below the words that have been written. -/
theorem run_write_below {mem : Word → Word} {words : List Word} {α : Type}
    {rest : Unit → Startup n V α} (bound : index + 1 + words.length ≤ stack.len) :
    (stack.write index value >>= rest).run
        (board.setMem (storeWords mem (stack.address (index + 1)) words)) =
      (rest ()).run (board.setMem (storeWords mem (stack.address index) (value :: words))) := by
  have fits := stack.fits
  have stored : Function.update (storeWords mem (stack.address (index + 1)) words)
      (stack.address index) value = storeWords mem (stack.address index) (value :: words) := by
    rw [stack.address_add index 1, ← Words.update_storeWords _ _ _ _ (by omega)]
    rfl
  rw [EStateM.run_bind_of_ok (write_ok (by omega)), Board.setMem_mem, Board.setMem_setMem, stored]

end Slice

/-- The 17 words of the first frame. -/
def initialFrame (taskExit entry : Word) : List Word :=
  List.replicate 8 0 ++ [0xFFFFFFFD] ++
    [0, 0, 0, 0, 0, taskExit ||| 1, entry &&& ~~~1, 0x01000000]

/-- `canary_init` fills the four lowest words. -/
theorem canaryInit_ok {stack : Slice} (enough : 4 ≤ stack.len) :
    (canaryInit stack).run board =
      .ok () (board.setMem (storeWords board.cpu.mem stack.ptr (List.replicate 4 canary))) := by
  unfold canaryInit
  rw [EStateM.run_bind_of_ok (Slice.write_ok (by omega)),
    EStateM.run_bind_of_ok (Slice.write_ok (by omega)),
    EStateM.run_bind_of_ok (Slice.write_ok (by omega)), Slice.write_ok (by omega)]
  simp [Slice.address, storeWords, List.replicate, BitVec.add_assoc]

/-- So does `canary_init`. -/
theorem canaryInit_keepsKernel (stack : Slice) : (canaryInit stack : Startup n V Unit).KeepsKernel :=
  .bind (stack.write_keepsKernel _ _) fun _ => .bind (stack.write_keepsKernel _ _) fun _ =>
    .bind (stack.write_keepsKernel _ _) fun _ => stack.write_keepsKernel _ _

/-- `canary_check` compares the four lowest words. -/
theorem canaryCheck_iff {mem : Word → Word} {stackBase : Word} :
    canaryCheck mem stackBase = true ↔ loadWords mem stackBase 4 = List.replicate 4 canary := by
  simp [canaryCheck, loadWords, List.replicate, BitVec.add_assoc, and_assoc]

/-- `stack_init` fills the 17 highest words, from the top down. -/
theorem stackInitWith_ok {stack : Slice} {taskExit entry : Word} {base : Nat}
    (isBase : stack.len = base + 17) (room : 4 ≤ base) :
    (stackInitWith taskExit stack entry).run board = .ok (stack.address base)
      (board.setMem (storeWords board.cpu.mem (stack.address base) (initialFrame taskExit entry))) := by
  have enough : ¬base + 17 < 21 := by omega
  have start : (stackInitWith taskExit stack entry).run board =
      (stackInitWith taskExit stack entry).run
        (board.setMem (storeWords board.cpu.mem (stack.address (base + 17)) [])) := rfl
  rw [start]
  simp only [stackInitWith, isBase, if_neg enough, Nat.reduceSubDiff]
  simp (disch := (simp only [isBase, List.length_cons, List.length_nil]; omega)) only
    [Slice.run_write_below]
  rfl

/-- `stack_init` refuses a small stack before it writes anything. -/
theorem stackInitWith_error {stack : Slice} {taskExit entry : Word} (small : stack.len < 21) :
    (stackInitWith taskExit stack entry).run board = .error .stackTooSmall board := by
  simp only [stackInitWith, if_pos small]
  exact EStateM.run_bind_of_error rfl

namespace Port

variable {port : Port} {taskExit : Port → Word} {token : EntryToken n}

/-- Memory after `spawn_into`: the canary at the bottom and the first frame at the top. -/
def spawned (mem : Word → Word) (stack : Slice) (taskExit entry : Word) : Word → Word :=
  storeWords (storeWords mem stack.ptr (List.replicate 4 canary))
    (stack.address (stack.len - 17)) (initialFrame taskExit entry)

/-- `spawn_into` writes the stack and enters the task. -/
theorem spawnInto_ok (enough : 21 ≤ token.stackLen) :
    (port.spawnInto taskExit token).run board = .ok ()
      { board.setMem (spawned board.cpu.mem token.stack (taskExit port) token.entry) with
        kernel := board.kernel.enlist token.toSpawnToken (token.stack.address (token.stackLen - 17)) } := by
  simp only [spawnInto, stackInit]
  rw [EStateM.run_bind_of_ok (canaryInit_ok (show 4 ≤ token.stackLen by omega)),
    EStateM.run_bind_of_ok (stackInitWith_ok (show token.stackLen = token.stackLen - 17 + 17 by omega)
      (by omega))]
  rfl

/-- A stack of less than 21 words panics before the kernel is written. -/
theorem spawnInto_error (small : token.stackLen < 21) : ∃ fault after,
    (port.spawnInto taskExit token).run board = .error fault after ∧ after.kernel = board.kernel := by
  unfold spawnInto
  rcases canaryInit_keepsKernel token.stack board with
    ⟨_, middle, returned, same⟩ | ⟨fault, middle, panics, same⟩
  · rw [EStateM.run_bind_of_ok returned]
    exact ⟨.stackTooSmall, middle, EStateM.run_bind_of_error (stackInitWith_error small), same⟩
  · exact ⟨fault, middle, EStateM.run_bind_of_error panics, same⟩

section Memory

variable {mem : Word → Word} {stack : Slice} {taskExit entry : Word}

/-- The canary is at the base. -/
theorem spawned_canary (enough : 21 ≤ stack.len) :
    loadWords (spawned mem stack taskExit entry) stack.ptr 4 = List.replicate 4 canary := by
  rw [spawned, Words.loadWords_congr fun target inside => ?_]
  · exact Words.loadWords_storeWords mem stack.ptr (List.replicate 4 canary) (by decide)
  · obtain ⟨index, bound, rfl⟩ := inside
    refine Words.storeWords_of_outside (stack.not_block ?_ ?_ (.inl ?_))
    · show stack.len - 17 + 17 ≤ stack.len
      omega
    · omega
    · omega

/-- The words between the canary and the frame are as they were. -/
theorem spawned_between {index : Nat} (above : 4 ≤ index) (below : index + 18 ≤ stack.len) :
    spawned mem stack taskExit entry (stack.address index) = mem (stack.address index) := by
  have canaryBlock : ¬Block (stack.address 0) 4 (stack.address index) :=
    stack.not_block (by omega) (by omega) (.inr (by omega))
  rw [stack.address_zero] at canaryBlock
  rw [spawned, Words.storeWords_of_outside (stack.not_block ?_ (by omega) (.inl (by omega))),
    Words.storeWords_of_outside canaryBlock]
  show stack.len - 17 + 17 ≤ stack.len
  omega

/-- The first frame is at the top. -/
theorem spawned_frame (mem : Word → Word) (stack : Slice) (taskExit entry : Word) :
    loadWords (spawned mem stack taskExit entry) (stack.address (stack.len - 17)) 17 =
      initialFrame taskExit entry :=
  Words.loadWords_storeWords _ _ (initialFrame taskExit entry) (show 4 * 17 ≤ 2 ^ 32 by decide)

end Memory

end Port

/-- What a stub has made of the first frame of a task: `exc` is the `EXC_RETURN` it leaves with. -/
structure Cpu.Launched (before after : Cpu) (exc : Word) (stack : Slice) (taskExit entry : Word) :
    Prop where
  callee : Reg.calleeSaved.map after.r = List.replicate 8 0
  value : exc = 0xFFFFFFFD
  high : after.s = before.s
  psp : after.psp = stack.address (stack.len - 8)
  frame : loadWords after.mem after.psp 8 =
    [0, 0, 0, 0, 0, taskExit ||| 1, entry &&& ~~~1, 0x01000000]

/-- The software frame and the hardware frame in a first frame. -/
theorem initialFrame_parts {mem : Word → Word} {sp taskExit entry : Word}
    (first : loadWords mem sp 17 = initialFrame taskExit entry) :
    loadWords mem sp 8 = List.replicate 8 0 ∧ mem (sp + 32) = 0xFFFFFFFD ∧
      loadWords mem (sp + 36) 8 =
        [0, 0, 0, 0, 0, taskExit ||| 1, entry &&& ~~~1, 0x01000000] := by
  have parts : loadWords mem sp 17 =
      loadWords mem sp 8 ++ ([mem (sp + 32)] ++ loadWords mem (sp + 36) 8) := by
    rw [Words.loadWords_add mem sp 8 9, Words.loadWords_add _ _ 1 8]
    simp [loadWords, BitVec.add_assoc]
  rw [parts, initialFrame, List.append_assoc] at first
  obtain ⟨callee, rest⟩ := List.append_inj first rfl
  obtain ⟨value, hardware⟩ := List.append_inj rest rfl
  exact ⟨callee, List.head_eq_of_cons_eq value, hardware⟩

/-- A stub that pops the software frame of a first frame, and then installs the stack pointer. -/
theorem Cpu.Popped.launched {before popped after : Cpu} {reg : Reg} {exc : Word} {stack : Slice}
    {taskExit entry : Word} (pops : before.Popped popped reg) (enough : 21 ≤ stack.len)
    (sp : before.r .r0 = stack.address (stack.len - 17))
    (first : loadWords before.mem (before.r .r0) 17 = initialFrame taskExit entry)
    (callee : Reg.calleeSaved.map after.r = Reg.calleeSaved.map popped.r) (value : exc = popped.r reg)
    (high : after.s = before.s) (psp : after.psp = popped.r .r0) (mem : after.mem = popped.mem) :
    before.Launched after exc stack taskExit entry := by
  obtain ⟨zeros, standard, hardware⟩ := initialFrame_parts first
  have top : after.psp = before.r .r0 + 36 := psp.trans pops.sp
  refine ⟨callee.trans (pops.callee.trans zeros), value.trans (pops.value.trans standard), high, ?_, ?_⟩
  · rw [top, sp, show (36 : Word) = BitVec.ofNat 32 (4 * 9) from rfl, ← stack.address_add]
    congr 1
    omega
  · rw [top, mem, pops.mem]
    exact hardware

section Restore

variable {stack : Slice} {taskExit entry : Word} {scratch : Cpu} {port : Port}

/-- `PendSV` without FPU. -/
theorem Board.pendSVRestore_integer (arch : IntegerArch) (enough : 21 ≤ stack.len)
    (sp : board.cpu.r .r0 = stack.address (stack.len - 17))
    (first : loadWords board.cpu.mem (board.cpu.r .r0) 17 = initialFrame taskExit entry) :
    ∃ exit exc, run arch.callee scratch (Port.integer arch).pendSVRestore none board =
      some ({ board with cpu := exit }, exc) ∧
        board.cpu.Launched exit exc stack taskExit entry := by
  have high : (board.cpu.execAll arch.popFrame).s = board.cpu.s := by cases arch <;> rfl
  have runs : run arch.callee scratch (Port.integer arch).pendSVRestore none board =
      some ({ board with cpu := board.cpu.restores arch }, board.cpu.returnValue arch) := by
    rw [Port.pendSVRestore, run_straight arch.restoreNewTask_straight]
    rfl
  have last : board.cpu.restores arch = (board.cpu.execAll arch.popFrame).exec (.msrPsp .r0) := by
    rw [Cpu.restores, arch.restoreNewTask_eq, Cpu.execAll, List.foldl_append]
    rfl
  refine ⟨_, _, runs, (arch.pops board.cpu).launched enough sp first ?_ ?_ ?_ ?_ ?_⟩
  · rw [last]
    rfl
  · rw [Cpu.returnValue, last]
    rfl
  · rw [last]
    exact high
  · rw [last]
    rfl
  · rw [last]
    rfl

/-- `PendSV` with FPU: bit 4 of `EXC_RETURN` is set, so `s16-s31` are not popped. -/
theorem Board.pendSVRestore_fpu (arch : FpuArch) (enough : 21 ≤ stack.len)
    (sp : board.cpu.r .r0 = stack.address (stack.len - 17))
    (first : loadWords board.cpu.mem (board.cpu.r .r0) 17 = initialFrame taskExit entry) :
    ∃ exit exc, run arch scratch (Port.fpu arch).pendSVRestore none board =
      some ({ board with cpu := exit }, exc) ∧
        board.cpu.Launched exit exc stack taskExit entry := by
  have high : (board.cpu.execAll arch.popFrame).s = board.cpu.s := by cases arch <;> rfl
  have pops := arch.pops board.cpu
  have standard := pops.value.trans (initialFrame_parts first).2.1
  rw [Port.pendSVRestore, arch.restoreNewTask_eq, run_straight arch.popFrame_straight]
  generalize board.cpu.execAll arch.popFrame = popped at high pops standard ⊢
  have bit : decide (popped.r arch.exc &&& 0x10 = 0) = false := by
    rw [standard]
    decide
  simp only [run, Cpu.exec, bit, Bool.false_eq_true, if_false, if_true, reduceCtorEq]
  exact ⟨_, _, rfl, pops.launched enough sp first rfl rfl high rfl rfl⟩

/-- `SVCall` of the ports that pop with Thumb-1 instructions. -/
theorem Board.svCallRestore_thumb (enough : 21 ≤ stack.len)
    (sp : board.cpu.r .r0 = stack.address (stack.len - 17))
    (first : loadWords board.cpu.mem (board.cpu.r .r0) 17 = initialFrame taskExit entry) :
    ∃ exit exc, runSvc port scratch (Port.integer .v6m).svCallRestore board =
      some ({ board with cpu := exit }, exc) ∧
        board.cpu.Launched exit exc stack taskExit entry := by
  have high : (board.cpu.execAll Thumb.restoreFrame).s = board.cpu.s := rfl
  have pops := board.cpu.thumb_popped
  have runs : runSvc port scratch (Port.integer .v6m).svCallRestore board =
      runSvc port scratch [.common (.msrPsp .r0), .movs .r2 2, .msrControl .r2, .isb, .common (.bx .r1)]
        { board with cpu := board.cpu.execAll Thumb.restoreFrame } := rfl
  rw [runs]
  generalize board.cpu.execAll Thumb.restoreFrame = popped at high pops ⊢
  exact ⟨_, _, rfl, pops.launched enough sp first rfl rfl high rfl rfl⟩

/-- `SVCall` of the ports that pop with one instruction: the stack pointer is set twice. -/
theorem Board.svCallRestore_ldmia (enough : 21 ≤ stack.len)
    (sp : board.cpu.r .r0 = stack.address (stack.len - 17))
    (first : loadWords board.cpu.mem (board.cpu.r .r0) 17 = initialFrame taskExit entry) :
    ∃ exit exc, runSvc port scratch (Port.integer .v7m).svCallRestore board =
      some ({ board with cpu := exit }, exc) ∧
        board.cpu.Launched exit exc stack taskExit entry := by
  obtain ⟨before, isBefore⟩ : ∃ before, before = ((board.cpu.exec (.msrPsp .r0)).execSvc
      (.movs .r1 2)).execSvc (.msrControl .r1) := ⟨_, rfl⟩
  have sameSp : before.r .r0 = board.cpu.r .r0 := by rw [isBefore]; rfl
  have sameMem : before.mem = board.cpu.mem := by rw [isBefore]; rfl
  have sameHigh : before.s = board.cpu.s := by rw [isBefore]; rfl
  have high : (before.exec (.ldmia .r0 (Reg.calleeSaved ++ [.lr]))).s = before.s := rfl
  have pops := before.ldmia_popped
  have runs : runSvc port scratch (Port.integer .v7m).svCallRestore board =
      runSvc port scratch [.common (.msrPsp .r0), .common (.bx .lr)]
        { board with cpu := before.exec (.ldmia .r0 (Reg.calleeSaved ++ [.lr])) } := by
    rw [isBefore]
    rfl
  rw [runs]
  generalize before.exec (.ldmia .r0 (Reg.calleeSaved ++ [.lr])) = popped at high pops ⊢
  have launched : before.Launched (popped.exec (.msrPsp .r0)) (popped.r .lr) stack taskExit entry :=
    pops.launched enough (sameSp.trans sp) (by rw [sameMem, sameSp]; exact first) rfl rfl high rfl rfl
  obtain ⟨callee, value, same, psp, frame⟩ := launched
  exact ⟨_, _, rfl, callee, value, same.trans sameHigh, psp, frame⟩

/-- `SVCall`. -/
theorem Board.svCallRestore (port : Port) (enough : 21 ≤ stack.len)
    (sp : board.cpu.r .r0 = stack.address (stack.len - 17))
    (first : loadWords board.cpu.mem (board.cpu.r .r0) 17 = initialFrame taskExit entry) :
    ∃ exit exc, runSvc port scratch port.svCallRestore board =
      some ({ board with cpu := exit }, exc) ∧
        board.cpu.Launched exit exc stack taskExit entry := by
  cases port with
  | integer arch =>
      cases arch with
      | v6m => exact svCallRestore_thumb enough sp first
      | v7m => exact svCallRestore_ldmia enough sp first
      | v8m => exact svCallRestore_thumb enough sp first
  | fpu arch =>
      cases arch with
      | v7emFpu => exact svCallRestore_ldmia enough sp first
      | v8m => exact svCallRestore_thumb enough sp first

/-- `PendSV`. -/
theorem Board.pendSVRestore (port : Port) (enough : 21 ≤ stack.len)
    (sp : board.cpu.r .r0 = stack.address (stack.len - 17))
    (first : loadWords board.cpu.mem (board.cpu.r .r0) 17 = initialFrame taskExit entry) :
    ∃ exit exc, run port.callee scratch port.pendSVRestore none board =
      some ({ board with cpu := exit }, exc) ∧
        board.cpu.Launched exit exc stack taskExit entry := by
  cases port with
  | integer arch => exact pendSVRestore_integer arch enough sp first
  | fpu arch => exact pendSVRestore_fpu arch enough sp first

/-- The exception return that follows starts the task at its entry, on an empty stack. -/
theorem Cpu.Launched.starts {before after : Cpu} {exc : Word}
    (launched : before.Launched after exc stack taskExit entry) (enough : 21 ≤ stack.len) :
    (after.exceptionReturn exc).pc = entry &&& ~~~1 ∧
      (after.exceptionReturn exc).r .lr = taskExit ||| 1 ∧
      (after.exceptionReturn exc).xpsr = 0x01000000 ∧
      (after.exceptionReturn exc).psp = stack.address stack.len := by
  obtain ⟨_, rfl, _, psp, frame⟩ := launched
  simp only [loadWords, BitVec.add_assoc, List.cons.injEq, and_true] at frame
  obtain ⟨_, _, _, _, _, lr, pc, xpsr⟩ := frame
  have standard : (0xFFFFFFFD : Word).getLsbD 4 = true := by decide
  refine ⟨pc, ?_, ?_, ?_⟩
  · simpa [Cpu.exceptionReturn, Cpu.setRegs, loadWords, BitVec.add_assoc] using lr
  · have word : after.mem (after.psp + 28) = 0x01000000 := xpsr
    simp only [Cpu.exceptionReturn, word]
    decide
  · have word : after.mem (after.psp + 28) = 0x01000000 := xpsr
    have unpadded : (0x01000000 : Word).getLsbD 9 = false := by decide
    simp only [Cpu.exceptionReturn, word, standard, unpadded, frameSize, Bool.not_true,
      Bool.false_eq_true, if_false, add_zero]
    rw [psp, show (32 : Word) = BitVec.ofNat 32 (4 * 8) from rfl, ← stack.address_add]
    congr 1
    omega

/-- `SVCall` starts the first task the scheduler selects. -/
theorem Board.svCall_starts (port : Port) {kernel : Rtos n V} (enough : 21 ≤ stack.len)
    (returned : board.kernel.svcFirstTaskSp = .ok (kernel, stack.address (stack.len - 17)))
    (first : loadWords board.cpu.mem (stack.address (stack.len - 17)) 17 =
      initialFrame taskExit entry) :
    ∃ exit exc, runSvc port scratch port.svCall board = some ({ kernel, cpu := exit }, exc) ∧
      (exit.exceptionReturn exc).pc = entry &&& ~~~1 ∧
      (exit.exceptionReturn exc).psp = stack.address stack.len := by
  obtain ⟨called, isCalled⟩ : ∃ called : Board n V, called = { kernel, cpu :=
      { board.cpu.call scratch (stack.address (stack.len - 17)) with
        psplim := port.callee.limit kernel board.cpu } } := ⟨_, rfl⟩
  have calls : runSvc port scratch port.svCall board =
      runSvc port scratch port.svCallRestore called := by
    rw [Port.svCall, runSvc, blSvc, returned, isCalled]
  obtain ⟨exit, exc, runs, launched⟩ := @svCallRestore n V called stack taskExit entry scratch port
    enough (by rw [isCalled]; rfl) (by rw [isCalled]; exact first)
  obtain ⟨pc, _, _, psp⟩ := launched.starts enough
  refine ⟨exit, exc, ?_, pc, psp⟩
  rw [calls, runs, isCalled]

end Restore

namespace Port

/-- `spawn_into` does to the kernel what its model without memory says. -/
theorem spawnInto_kernel (port : Port) (taskExit : Port → Word) (token : EntryToken n)
    (board : Board n V) :
    (∃ after, (port.spawnInto taskExit token).run board = .ok () after ∧
        board.kernel.spawnInto token.toSpawnToken = .ok after.kernel) ∨
      ∃ fault after, (port.spawnInto taskExit token).run board = .error fault after ∧
        after.kernel = board.kernel ∧
        board.kernel.spawnInto token.toSpawnToken = .error .stackTooSmall := by
  by_cases enough : 21 ≤ token.stackLen
  · refine .inl ⟨_, spawnInto_ok enough, ?_⟩
    have sp : token.stack.address (token.stackLen - 17) =
        token.stackPtr + 4 * BitVec.ofNat 32 (token.stackLen - 17) := by
      rw [Slice.address, BitVec.ofNat_mul]
      rfl
    rw [Kernel.spawnInto, if_neg (by omega), ← sp]
    rfl
  · obtain ⟨fault, after, panics, same⟩ := @spawnInto_error n V board port taskExit token (by omega)
    refine .inr ⟨fault, after, panics, same, ?_⟩
    rw [Kernel.spawnInto, if_pos (by omega)]

/-- The first frame is what every stub expects and leaves the canary alone, down to a stack of
21 words; a smaller one panics and leaves the kernel alone. -/
theorem initial_frame_fits (port : Port) (taskExit : Port → Word) (token : EntryToken n)
    (board : Board n V) :
    (21 ≤ token.stackLen → ∃ after, (port.spawnInto taskExit token).run board = .ok () after ∧
      (∀ index < 4, after.cpu.mem (token.stack.address index) = 0xDEADBEEF) ∧
      canaryCheck after.cpu.mem (after.kernel.tcb token.tcb).stackBase = true ∧
      (∀ index, 4 ≤ index → index + 18 ≤ token.stackLen →
        after.cpu.mem (token.stack.address index) = board.cpu.mem (token.stack.address index)) ∧
      ∀ (later : Board n V) (scratch : Cpu), later.cpu.r .r0 = (after.kernel.tcb token.tcb).sp →
        (∀ address, Block (after.kernel.tcb token.tcb).sp 17 address →
          later.cpu.mem address = after.cpu.mem address) →
        (∃ exit exc, later.runSvc port scratch port.svCallRestore =
            some ({ later with cpu := exit }, exc) ∧
          later.cpu.Launched exit exc token.stack (taskExit port) token.entry) ∧
        ∃ exit exc, later.run port.callee scratch port.pendSVRestore none =
            some ({ later with cpu := exit }, exc) ∧
          later.cpu.Launched exit exc token.stack (taskExit port) token.entry) ∧
    (token.stackLen < 21 → ∃ fault after,
      (port.spawnInto taskExit token).run board = .error fault after ∧
        after.kernel = board.kernel) := by
  refine ⟨fun enough => ?_, spawnInto_error⟩
  obtain ⟨kernel, isKernel⟩ : ∃ kernel, kernel = board.kernel.enlist token.toSpawnToken
      (token.stack.address (token.stackLen - 17)) := ⟨_, rfl⟩
  have sp : (kernel.tcb token.tcb).sp = token.stack.address (token.stackLen - 17) := by
    simp [isKernel, Kernel.enlist]
  have stackBase : (kernel.tcb token.tcb).stackBase = token.stack.ptr := by
    simp [isKernel, Kernel.enlist, EntryToken.stack]
  obtain ⟨mem, isMem⟩ : ∃ mem, mem = spawned board.cpu.mem token.stack (taskExit port) token.entry :=
    ⟨_, rfl⟩
  have canaries : loadWords mem token.stack.ptr 4 = List.replicate 4 canary := by
    rw [isMem]
    exact spawned_canary enough
  obtain ⟨first, second, third, fourth⟩ : mem token.stack.ptr = canary ∧
      mem (token.stack.ptr + 4) = canary ∧ mem (token.stack.ptr + 8) = canary ∧
      mem (token.stack.ptr + 12) = canary := by
    simpa [loadWords, List.replicate, BitVec.add_assoc] using canaries
  have frame := spawned_frame board.cpu.mem token.stack (taskExit port) token.entry
  rw [← isMem] at frame
  refine ⟨{ board.setMem mem with kernel }, ?_, ?_, ?_, ?_, ?_⟩
  · rw [isKernel, isMem]
    exact spawnInto_ok enough
  · intro index bound
    rw [show (0xDEADBEEF : Word) = canary from rfl, Slice.address]
    interval_cases index
    · simpa using first
    · exact second
    · exact third
    · exact fourth
  · show canaryCheck mem (kernel.tcb token.tcb).stackBase = true
    rw [stackBase]
    exact canaryCheck_iff.mpr canaries
  · intro index above below
    exact (congrFun isMem _).trans (spawned_between above below)
  · intro later scratch isSp same
    have isSp' : later.cpu.r .r0 = token.stack.address (token.stack.len - 17) := isSp.trans sp
    have first : loadWords later.cpu.mem (later.cpu.r .r0) 17 =
        initialFrame (taskExit port) token.entry := by
      rw [isSp', ← frame]
      exact Words.loadWords_congr fun target inside => same target (sp.symm ▸ inside)
    exact ⟨Board.svCallRestore port enough isSp' first, Board.pendSVRestore port enough isSp' first⟩

end Port

end Kangaroos
