import Kangaroos.Logic.Triple
import Kangaroos.Machine
import Kangaroos.Proofs.SoftwareFrame
import Mathlib.Tactic.IntervalCases

/-!
# The round trip of a task through PendSV

The save path asks `CONTROL.FPCA` whether to push `s16-s31`, the restore path asks
bit 4 of the saved `EXC_RETURN` whether to pop them. The hardware clears
`CONTROL.FPCA` on exception entry, so nothing is ever pushed; a task without
floating-point context comes back as it left, and one with it comes back with its
stack pointer 64 bytes too high.
-/

namespace Kangaroos

open Words (storeWords loadWords Block)

/-- `tst` with bit 4. -/
theorem tst_bit4 (word : Word) : decide (word &&& 0x10 = 0) = !word.getLsbD 4 := by
  have bit : (0x10 : Word) = BitVec.twoPow 32 4 := by decide
  rw [bit, BitVec.and_twoPow]
  cases word.getLsbD 4 with
  | true => decide
  | false => decide

/-- What the save path leaves behind when `CONTROL.FPCA` reads 0. -/
structure Cpu.Saved (before after : Cpu) : Prop where
  sp : after.r .r0 = before.psp - 36
  mem : after.mem = storeWords before.mem (before.psp - 36) before.softwareFrame
  callee : ∀ reg ∈ Reg.calleeSaved, after.r reg = before.r reg
  high : after.s = before.s

/-- What the restore path makes of the frame `r0` points to. -/
structure Cpu.Restored (before after : Cpu) (exc : Word) : Prop where
  value : exc = before.mem (before.r .r0 + 32)
  callee : Reg.calleeSaved.map after.r = loadWords before.mem (before.r .r0) 8
  psp : after.psp = before.r .r0 + 36 + if exc.getLsbD 4 then 0 else 64
  mem : after.mem = before.mem

namespace FpuArch

/-- How a port pushes the software frame. -/
def pushFrame : FpuArch → List Instr
  | .v7emFpu => [.stmdb .r0 (Reg.calleeSaved ++ [.lr])]
  | .v8m => Thumb.saveFrame

/-- How a port pops the software frame. -/
def popFrame : FpuArch → List Instr
  | .v7emFpu => [.ldmia .r0 (Reg.calleeSaved ++ [.lr])]
  | .v8m => Thumb.restoreFrame

/-- Where a port finds the popped `EXC_RETURN`. -/
def exc : FpuArch → Reg
  | .v7emFpu => .lr
  | .v8m => .r1

variable (arch : FpuArch)

theorem saveCurrentTask_eq : arch.saveCurrentTask =
    [.mrsPsp .r0, .mrsControl .r1, .tst .r1 4, .beq 1, .vstmdb .r0, .label 1] ++ arch.pushFrame := by
  cases arch <;> rfl

theorem restoreNewTask_eq : arch.restoreNewTask = arch.popFrame ++
    [.tst arch.exc 0x10, .bne 2, .vldmia .r0, .label 2, .msrPsp .r0, .bx arch.exc] := by
  cases arch <;> rfl

theorem pushFrame_straight : ∀ instr ∈ arch.pushFrame, instr.straight = true := by
  cases arch <;> decide

theorem popFrame_straight : ∀ instr ∈ arch.popFrame, instr.straight = true := by
  cases arch <;> decide

theorem pushes (cpu : Cpu) : cpu.Pushed (cpu.execAll arch.pushFrame) := by
  cases arch with
  | v7emFpu => exact cpu.stmdb_pushed
  | v8m => exact cpu.thumb_pushed

theorem pops (cpu : Cpu) : cpu.Popped (cpu.execAll arch.popFrame) arch.exc := by
  cases arch with
  | v7emFpu => exact cpu.ldmia_popped
  | v8m => exact cpu.thumb_popped

theorem exc_ne_r0 : arch.exc ≠ .r0 := by
  cases arch <;> decide

end FpuArch

namespace Board

variable {n : Nat} {V : Type} {arch : FpuArch} {scratch : Cpu} {board : Board n V}

/-- Both save paths push the software frame and nothing else. -/
theorem run_save (rest : List Instr) (clear : board.cpu.control &&& 4 = 0) :
    ∃ after, board.cpu.Saved after ∧
      run arch scratch (arch.saveCurrentTask ++ rest) none board =
        run arch scratch rest none { board with cpu := after } := by
  rw [arch.saveCurrentTask_eq, List.append_assoc]
  simp only [List.cons_append, List.nil_append, run, Cpu.exec, Cpu.setReg, Function.update_self,
    clear, decide_true, if_true, reduceCtorEq, if_false, run_straight arch.pushFrame_straight]
  refine ⟨_, ?_, rfl⟩
  have pushed := arch.pushes
    { board.cpu with
      r := Function.update (Function.update board.cpu.r .r0 board.cpu.psp) .r1 board.cpu.control
      zero := true }
  have frame : ∀ cpu : Cpu, cpu.softwareFrame = Reg.calleeSaved.map cpu.r ++ [cpu.r .lr] := by
    intro cpu
    simp [Cpu.softwareFrame]
  refine ⟨by simpa using pushed.sp, ?_, ?_, pushed.high⟩
  · rw [pushed.mem]
    simp [frame, Reg.calleeSaved]
  · intro reg member
    rw [pushed.callee reg member]
    revert reg
    simp [Reg.calleeSaved]

/-- Both restore paths pop the software frame, and 64 bytes more when bit 4 of the popped
`EXC_RETURN` is clear. -/
theorem run_restore :
    ∃ after exc, board.cpu.Restored after exc ∧
      run arch scratch arch.restoreNewTask none board = some ({ board with cpu := after }, exc) := by
  obtain ⟨sp, value, callee, mem⟩ := arch.pops board.cpu
  rw [arch.restoreNewTask_eq, run_straight arch.popFrame_straight]
  generalize board.cpu.execAll arch.popFrame = popped at sp value callee mem ⊢
  simp only [run, Cpu.exec, tst_bit4]
  cases bit : (popped.r arch.exc).getLsbD 4 with
  | true =>
      simp only [Bool.not_true, Bool.false_eq_true, if_false, if_true, reduceCtorEq, run, Cpu.exec]
      refine ⟨_, _, ?_, rfl⟩
      refine ⟨value, callee, ?_, mem⟩
      simp only [bit, if_true, sp]
      exact (BitVec.add_zero _).symm
  | false =>
      simp only [Bool.not_false, if_true, run, Cpu.exec, Cpu.setReg, Function.update_self, ne_eq,
        arch.exc_ne_r0, not_false_eq_true, Function.update_of_ne]
      refine ⟨_, _, ?_, rfl⟩
      refine ⟨value, ?_, ?_, mem⟩
      · rw [← callee]
        simp [Reg.calleeSaved]
      · simp only [bit, Bool.false_eq_true, if_false, sp]

end Board

/-- What PendSV makes of the registers it is entered with when the scheduler returns `sp`. -/
structure Cpu.Switched (entry : Cpu) (sp : Word) (exit : Cpu) (exc : Word) : Prop where
  mem : exit.mem = storeWords entry.mem (entry.psp - 36) entry.softwareFrame
  value : exc = exit.mem (sp + 32)
  callee : Reg.calleeSaved.map exit.r = loadWords exit.mem sp 8
  psp : exit.psp = sp + 36 + if exc.getLsbD 4 then 0 else 64

theorem Board.handler_spec {n : Nat} {V : Type} {arch : FpuArch} {excReturn : ExcReturn}
    {scratch : Cpu} {board exit : Board n V} {exc : Word}
    (handled : board.handler arch excReturn scratch = some (exit, exc)) :
    ∃ sp, board.kernel.pendsvSaveAndSwitch ((board.cpu.exceptionEntry excReturn).psp - 36) =
        .ok (exit.kernel, sp) ∧
      (board.cpu.exceptionEntry excReturn).Switched sp exit.cpu exc := by
  obtain ⟨entry, isEntry⟩ : ∃ entry : Board n V,
      entry = { board with cpu := board.cpu.exceptionEntry excReturn } := ⟨_, rfl⟩
  have clear : entry.cpu.control &&& 4 = 0 := by
    rw [isEntry]
    exact board.cpu.exceptionEntry_control excReturn
  obtain ⟨saved, saves, runs⟩ :=
    @run_save n V arch scratch entry (.bl :: arch.restoreNewTask) clear
  have handled : run arch scratch arch.pendSV none entry = some (exit, exc) := by
    rw [isEntry]
    exact handled
  rw [FpuArch.pendSV, runs] at handled
  simp only [run, bl, saves.sp] at handled
  have isCpu : board.cpu.exceptionEntry excReturn = entry.cpu := by rw [isEntry]
  have isKernel : board.kernel = entry.kernel := by rw [isEntry]
  rw [isCpu, isKernel]
  cases switches : entry.kernel.pendsvSaveAndSwitch (entry.cpu.psp - 36) with
  | error fault =>
      simp only [switches] at handled
      cases handled
  | ok result =>
      obtain ⟨kernel, sp⟩ := result
      simp only [switches] at handled
      obtain ⟨restored, value, restores, runs⟩ := @run_restore n V arch scratch
        { kernel, cpu := { saved.call scratch sp with psplim := arch.limit kernel saved } }
      rw [runs] at handled
      cases handled
      exact ⟨sp, rfl, restores.mem.trans saves.mem, by rw [restores.mem]; exact restores.value,
        by rw [restores.mem]; exact restores.callee, restores.psp⟩

namespace Kernel

variable {n : Nat} {V Link Head : Type} {kernel after : Kernel n V Link Head}

/-- `pendsv_save_and_switch` stores the stack pointer it is given in the TCB of the old
task and returns the one in the TCB of the new task. -/
theorem pendsvSaveAndSwitch_sp {sp sp' : Word}
    (returned : kernel.pendsvSaveAndSwitch sp = .ok (after, sp')) :
    ∃ old next, kernel.current = some old ∧ after.current = some next ∧
      sp' = (after.tcb next).sp ∧
      ∀ task, (after.tcb task).sp = if task = old then sp else (kernel.tcb task).sp := by
  obtain ⟨saved, saves, rest⟩ := Except.ok_of_bind returned
  obtain ⟨next, _, rest⟩ := Except.ok_of_bind rest
  obtain ⟨marked, marks, done⟩ := Except.ok_of_bind rest
  cases done
  obtain ⟨old, isOld, saves⟩ := Except.ok_of_bind saves
  have isCurrent : kernel.current = some old := by
    cases current : kernel.current with
    | none => simp [current] at isOld
    | some task => simpa [current] using isOld
  have savedSp : ∀ task, (saved.tcb task).sp = if task = old then sp else (kernel.tcb task).sp := by
    intro task
    simp only at saves
    split at saves
    · cases saves
      by_cases same : task = old
      · subst same
        simp
      · simp [same]
    · cases saves
      by_cases same : task = old
      · subst same
        simp
      · simp [same]
  unfold markRunning at marks
  split at marks
  · cases marks
    refine ⟨old, next, isCurrent, rfl, rfl, fun task => ?_⟩
    rw [← savedSp]
    by_cases same : task = next
    · subst same
      simp
    · simp [same]
  · cases marks

end Kernel

/-- The stack of a task from a saved stack pointer up to the one it had in Thread mode. -/
def InStack (sp top address : Word) : Prop := address - sp < top - sp

section RoundTrip

variable {n : Nat} {V : Type} (arch : FpuArch) (excReturn : ExcReturn) (task : Fin n)

/-- The system runs while `task` is switched out, until PendSV switches back to it: PendSV
switches among other tasks, and anything else executes, as long as neither touches the
stack of `task`, its saved stack pointer or `CURRENT`. -/
inductive Away (stack : Word → Prop) : Board n V → Board n V × Word → Prop where
  | back {board exit : Board n V} {scratch exc}
      (handled : board.handler arch excReturn scratch = some (exit, exc))
      (kept : ∀ address, stack address → exit.cpu.mem address = board.cpu.mem address)
      (isTask : exit.kernel.current = some task) : Away stack board (exit, exc)
  | switch {board other : Board n V} {scratch exc final}
      (handled : board.handler arch excReturn scratch = some (other, exc))
      (kept : ∀ address, stack address → other.cpu.mem address = board.cpu.mem address)
      (notTask : other.kernel.current ≠ some task)
      (rest : Away stack { other with cpu := other.cpu.exceptionReturn exc } final) :
      Away stack board final
  | execute {board next : Board n V} {final}
      (kept : ∀ address, stack address → next.cpu.mem address = board.cpu.mem address)
      (saved : (next.kernel.tcb task).sp = (board.kernel.tcb task).sp)
      (notTask : next.kernel.current ≠ some task) (rest : Away stack next final) :
      Away stack board final

/-- PendSV interrupts `task` and, at once or after switches through other tasks, switches
back to it: the state at the exception return and the `EXC_RETURN` used there. -/
inductive RoundTrip (board : Board n V) : Board n V × Word → Prop where
  | again {exit scratch exc} (handled : board.handler arch excReturn scratch = some (exit, exc))
      (isTask : exit.kernel.current = some task) : RoundTrip board (exit, exc)
  | away {out scratch exc final} (handled : board.handler arch excReturn scratch = some (out, exc))
      (notTask : out.kernel.current ≠ some task)
      (rest : Away arch excReturn task (InStack (out.kernel.tcb task).sp board.cpu.psp)
        { out with cpu := out.cpu.exceptionReturn exc } final) : RoundTrip board final

end RoundTrip

/-- The task gets back its stack pointer, `r4-r11`, its `EXC_RETURN` and, if it had
floating-point context, `s16-s31`. -/
structure Cpu.Resumed (excReturn : ExcReturn) (before exit : Cpu) (exc : Word) : Prop where
  psp : exit.psp = (before.exceptionEntry excReturn).psp
  callee : ∀ reg ∈ Reg.calleeSaved, exit.r reg = before.r reg
  value : exc = excReturn.value before.fpca
  high : before.fpca = true → ∀ i : Fin 32, 16 ≤ i.val → exit.s i = before.s i

namespace Cpu

variable {excReturn : ExcReturn} {before entry exit : Cpu} {sp exc : Word}

/-- The frame PendSV pushes for a task. -/
theorem softwareFrame_entry (excReturn : ExcReturn) (before : Cpu) :
    (before.exceptionEntry excReturn).softwareFrame =
      Reg.calleeSaved.map before.r ++ [excReturn.value before.fpca] := by
  simp [softwareFrame, exceptionEntry, setReg, Reg.calleeSaved]

/-- The software frame lies in the stack of the task. -/
theorem inStack_of_block {address : Word}
    (inside : Block ((before.exceptionEntry excReturn).psp - 36) 9 address) :
    InStack ((before.exceptionEntry excReturn).psp - 36) before.psp address := by
  obtain ⟨index, bound, rfl⟩ := inside
  have below : (BitVec.ofNat 32 (4 * index)).toNat ≤ 32 := by
    rw [BitVec.toNat_ofNat, Nat.mod_eq_of_lt] <;> omega
  simp only [InStack, exceptionEntry, setReg, frameSize]
  cases before.psp.getLsbD 2 <;> cases before.fpca <;> simp <;> bv_omega

/-- A frame that PendSV pushed and nobody touched brings the task back exactly when it had
no floating-point context. -/
theorem Switched.resumed_iff (switched : entry.Switched sp exit exc)
    (isSp : sp = (before.exceptionEntry excReturn).psp - 36)
    (frame : loadWords exit.mem sp 9 = (before.exceptionEntry excReturn).softwareFrame) :
    before.Resumed excReturn exit exc ↔ before.fpca = false := by
  have parts : loadWords exit.mem sp 9 = loadWords exit.mem sp 8 ++ [exit.mem (sp + 32)] := by
    simp [loadWords, BitVec.add_assoc]
  rw [softwareFrame_entry, parts] at frame
  obtain ⟨callee, last⟩ := List.append_inj' frame rfl
  have value : exc = excReturn.value before.fpca := by
    rw [switched.value]
    simpa using last
  have psp : exit.psp = (before.exceptionEntry excReturn).psp + if before.fpca then 64 else 0 := by
    rw [switched.psp, value, excReturn.bit4, isSp, BitVec.sub_add_cancel]
    cases before.fpca <;> rfl
  constructor
  · intro resumed
    by_contra extended
    have shifted := psp.symm.trans resumed.psp
    rw [if_pos (by simpa using extended)] at shifted
    simp at shifted
  · intro standard
    have same : Reg.calleeSaved.map exit.r = Reg.calleeSaved.map before.r :=
      switched.callee.trans callee
    exact ⟨by simp [psp, standard], List.map_inj_left.mp same, value, by simp [standard]⟩

end Cpu

section RoundTrip

variable {n : Nat} {V : Type} {arch : FpuArch} {excReturn : ExcReturn} {task : Fin n}

/-- The frame of a task that is switched out. -/
structure Suspended (task : Fin n) (sp : Word) (frame : List Word) (board : Board n V) : Prop where
  away : board.kernel.current ≠ some task
  saved : (board.kernel.tcb task).sp = sp
  stored : loadWords board.cpu.mem sp 9 = frame

/-- The frame of a task that is switched out stays, and PendSV brings the task back with it. -/
theorem Away.resumed_iff {before : Cpu} {board : Board n V} {final : Board n V × Word}
    (away : Away arch excReturn task
      (InStack ((before.exceptionEntry excReturn).psp - 36) before.psp) board final)
    (suspended : Suspended task ((before.exceptionEntry excReturn).psp - 36)
      (before.exceptionEntry excReturn).softwareFrame board) :
    before.Resumed excReturn final.1.cpu final.2 ↔ before.fpca = false := by
  induction away with
  | back handled kept isTask =>
      obtain ⟨sp, switches, switched⟩ := Board.handler_spec handled
      obtain ⟨old, next, isOld, isNext, isSp, saved⟩ := Kernel.pendsvSaveAndSwitch_sp switches
      obtain rfl : task = next := Option.some.inj (isTask.symm.trans isNext)
      have different : task ≠ old := by
        rintro rfl
        exact suspended.away isOld
      rw [saved, if_neg different, suspended.saved] at isSp
      apply switched.resumed_iff isSp
      rw [isSp, Words.loadWords_congr fun target inside => kept target (Cpu.inStack_of_block inside)]
      exact suspended.stored
  | switch handled kept notTask _ ih =>
      obtain ⟨sp, switches, switched⟩ := Board.handler_spec handled
      obtain ⟨old, next, isOld, isNext, isSp, saved⟩ := Kernel.pendsvSaveAndSwitch_sp switches
      have different : task ≠ old := by
        rintro rfl
        exact suspended.away isOld
      refine ih ⟨notTask, ?_, ?_⟩
      · rw [saved, if_neg different, suspended.saved]
      · rw [show ∀ cpu exc, (Cpu.exceptionReturn cpu exc).mem = cpu.mem from fun _ _ => rfl,
          Words.loadWords_congr fun target inside => kept target (Cpu.inStack_of_block inside)]
        exact suspended.stored
  | execute kept saved notTask _ ih =>
      refine ih ⟨notTask, saved.trans suspended.saved, ?_⟩
      rw [Words.loadWords_congr fun target inside => kept target (Cpu.inStack_of_block inside)]
      exact suspended.stored

/-- A task that PendSV interrupts and later switches back to, after any number of switches
through other tasks that leave its stack alone, gets its context back exactly when it had
no floating-point context. -/
theorem resumed_iff_not_fpca {board exit : Board n V} {exc : Word}
    (isCurrent : board.kernel.current = some task)
    (trip : RoundTrip arch excReturn task board (exit, exc)) :
    board.cpu.Resumed excReturn exit.cpu exc ↔ board.cpu.fpca = false := by
  have pushed : ∀ {cpu : Cpu} {sp value}, (board.cpu.exceptionEntry excReturn).Switched sp cpu value →
      loadWords cpu.mem ((board.cpu.exceptionEntry excReturn).psp - 36) 9 =
        (board.cpu.exceptionEntry excReturn).softwareFrame := by
    intro cpu sp value switched
    have nine := (board.cpu.exceptionEntry excReturn).softwareFrame_length
    rw [switched.mem, ← nine]
    exact Words.loadWords_storeWords _ _ _ (by rw [nine]; decide)
  cases trip with
  | again handled isTask =>
      obtain ⟨sp, switches, switched⟩ := Board.handler_spec handled
      obtain ⟨old, next, isOld, isNext, isSp, saved⟩ := Kernel.pendsvSaveAndSwitch_sp switches
      obtain rfl : task = next := Option.some.inj (isTask.symm.trans isNext)
      obtain rfl : task = old := Option.some.inj (isCurrent.symm.trans isOld)
      rw [saved, if_pos rfl] at isSp
      exact switched.resumed_iff isSp (isSp ▸ pushed switched)
  | away handled notTask rest =>
      obtain ⟨sp, switches, switched⟩ := Board.handler_spec handled
      obtain ⟨old, next, isOld, isNext, isSp, saved⟩ := Kernel.pendsvSaveAndSwitch_sp switches
      obtain rfl : task = old := Option.some.inj (isCurrent.symm.trans isOld)
      have isSaved := saved task
      rw [if_pos rfl] at isSaved
      have stored := pushed switched
      rw [isSaved] at rest
      exact rest.resumed_iff ⟨notTask, isSaved, stored⟩

end RoundTrip

/-- PendSV writes only the two frames it pushes. -/
theorem Board.handler_mem_outside {n : Nat} {V : Type} {arch : FpuArch} {excReturn : ExcReturn}
    {scratch : Cpu} {board exit : Board n V} {exc address : Word}
    (handled : board.handler arch excReturn scratch = some (exit, exc))
    (software : ¬Block ((board.cpu.exceptionEntry excReturn).psp - 36) 9 address)
    (hardware : ¬Block (board.cpu.exceptionEntry excReturn).psp
      (board.cpu.hardwareFrame board.cpu.fpca (board.cpu.psp.getLsbD 2)).length address) :
    exit.cpu.mem address = board.cpu.mem address := by
  obtain ⟨sp, _, switched⟩ := Board.handler_spec handled
  rw [switched.mem, Words.storeWords_of_outside (by rwa [Cpu.softwareFrame_length]),
    Cpu.exceptionEntry_mem, Words.storeWords_of_outside hardware]

/-- The values ARMv7-M uses for a task on the process stack. -/
def ExcReturn.thread : ExcReturn where
  value extended := if extended then 0xFFFFFFED else 0xFFFFFFFD
  bit4 extended := by cases extended <;> decide

/-- Two tasks of equal priority, each with a stack of 64 words. -/
def Config.pair : Config 3 where
  tokens :=
    [{ tcb := 1, stackPtr := 0x20002000, stackLen := 64, priority := 10, timeSlice := 5 },
     { tcb := 2, stackPtr := 0x20001000, stackLen := 64, priority := 10, timeSlice := 5 }]
  idle := 0
  semaphore _ := (0, 1)
  channel _ := 1
  pool _ := 1
  distinct := by
    show ([0, 1, 2] : List (Fin 3)).Nodup
    decide
  poolBound := Config.one_pool_slot

/-- The two tasks after the launch: task 2 runs at the top of its stack, with or without
floating-point context, and the stack of task 1 is as `stack_init` leaves it. -/
def Board.pair (fpca : Bool) : Board 3 Unit where
  cpu :=
    { r := fun _ => 0, s := fun _ => 0, psp := 0x20001100, pc := 0, xpsr := 0, fpscr := 0
      control := if fpca then 6 else 2, psplim := 0, zero := false
      mem := fun address => if address = 0x200020DC then 0xFFFFFFFD else 0 }
  kernel :=
    match Config.pair.boot Unit (TcbPtr 3) (TcbPtr 3) >>= Kernel.svcFirstTaskSp with
    | .ok (kernel, _) => kernel
    | .error _ => Config.pair.reset Unit (TcbPtr 3) (TcbPtr 3)

/-- PendSV from task 2 to task 1, and from there back to task 2: what a run of the model
shows. -/
def Board.pairCheck (arch : FpuArch) (fpca : Bool) : Bool :=
  let board := Board.pair fpca
  match board.handler arch .thread board.cpu with
  | some (out, exc) =>
    let other : Board 3 Unit := { out with cpu := out.cpu.exceptionReturn exc }
    (out.kernel.current = some 1 ∧
      ((out.kernel.tcb 2).sp = 0x20001074 ∨ (out.kernel.tcb 2).sp = 0x200010BC) ∧
      other.cpu.psp = 0x20002100 ∧ other.cpu.fpca = false) &&
    match other.handler arch .thread board.cpu with
    | some (exit, _) => exit.kernel.current = some 2 ∧
        (fpca = true → exit.cpu.psp ≠ (board.cpu.exceptionEntry .thread).psp)
    | none => false
  | none => false

/-- The stacks of the two tasks are apart. -/
theorem Board.not_block_of_inStack {sp address : Word} (isSp : sp = 0x20001074 ∨ sp = 0x200010BC)
    (inside : InStack sp 0x20001100 address) :
    ¬Block 0x200020BC 9 address ∧ ¬Block 0x200020E0 8 address := by
  constructor
  · rintro ⟨index, bound, rfl⟩
    rw [InStack] at inside
    rcases isSp with rfl | rfl <;> bv_omega
  · rintro ⟨index, bound, rfl⟩
    rw [InStack] at inside
    rcases isSp with rfl | rfl <;> bv_omega

/-- Task 2 makes the round trip through task 1; with floating-point context it comes back
with another stack pointer. -/
theorem Board.pair_roundTrip (arch : FpuArch) (fpca : Bool) : ∃ exit exc,
    RoundTrip arch .thread 2 (Board.pair fpca) (exit, exc) ∧
      (fpca = true → exit.cpu.psp ≠ ((Board.pair fpca).cpu.exceptionEntry .thread).psp) := by
  have checked : Board.pairCheck arch fpca = true := by
    cases arch <;> cases fpca <;> decide +kernel
  simp only [Board.pairCheck] at checked
  split at checked
  · rename_i out exc handled
    obtain ⟨first, back⟩ := Bool.and_eq_true_iff.mp checked
    obtain ⟨isOther, isSaved, psp, standard⟩ := of_decide_eq_true first
    split at back
    · rename_i exit exc' handled'
      obtain ⟨isTask, moved⟩ := of_decide_eq_true back
      refine ⟨exit, exc', .away handled (by simp [isOther]) (.back handled' ?_ isTask), moved⟩
      intro address inside
      have apart := Board.not_block_of_inStack isSaved inside
      apply Board.handler_mem_outside handled'
      · simpa [Cpu.exceptionEntry, Cpu.setReg, psp, standard, frameSize] using apart.1
      · simpa [Cpu.exceptionEntry, Cpu.setReg, Cpu.hardwareFrame, psp, standard, frameSize]
          using apart.2
    · cases back
  · cases checked

/-- The task without floating-point context gets its own back. -/
theorem resumed_iff_not_fpca_pair : ∃ exit exc,
    RoundTrip .v7emFpu .thread 2 (Board.pair false) (exit, exc) ∧
      ((Board.pair false).cpu.Resumed .thread exit.cpu exc ↔ (Board.pair false).cpu.fpca = false) := by
  obtain ⟨exit, exc, trip, _⟩ := Board.pair_roundTrip .v7emFpu false
  have isCurrent : (Board.pair false).kernel.current = some 2 := by decide +kernel
  exact ⟨exit, exc, trip, resumed_iff_not_fpca isCurrent trip⟩

/-- On both ports a task with floating-point context comes back with its stack pointer
moved. -/
theorem not_resumed_with_fpca :
    (¬∀ exit exc, RoundTrip .v7emFpu .thread 2 (Board.pair true) (exit, exc) →
      (Board.pair true).cpu.Resumed .thread exit.cpu exc) ∧
    ¬∀ exit exc, RoundTrip .v8m .thread 2 (Board.pair true) (exit, exc) →
      (Board.pair true).cpu.Resumed .thread exit.cpu exc := by
  constructor
  · intro always
    obtain ⟨exit, exc, trip, moved⟩ := Board.pair_roundTrip .v7emFpu true
    exact moved rfl (always exit exc trip).psp
  · intro always
    obtain ⟨exit, exc, trip, moved⟩ := Board.pair_roundTrip .v8m true
    exact moved rfl (always exit exc trip).psp

end Kangaroos
