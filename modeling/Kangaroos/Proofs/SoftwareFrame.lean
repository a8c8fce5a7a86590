import Kangaroos.Arch.IntegerPendSV

/-!
# The software frame

Every port keeps `r4` to `r11` and `EXC_RETURN` in the same nine words. The Thumb-1 sequences
store them in three parts and read the low registers back from the frame they have just
written.
-/

namespace Kangaroos

open Words (storeWords loadWords Block)

/-- The words of the software frame: `r4` to `r11` and `EXC_RETURN`. -/
def Cpu.softwareFrame (cpu : Cpu) : List Word :=
  (Reg.calleeSaved ++ [Reg.lr]).map cpu.r

theorem Cpu.softwareFrame_length (cpu : Cpu) : cpu.softwareFrame.length = 9 := rfl

/-- The instructions that `run` executes one after the other. -/
def Instr.straight : Instr → Bool
  | .beq _ | .bne _ | .bl | .bx _ => false
  | _ => true

/-- Straight-line code within a program. -/
theorem Board.run_straight {n : Nat} {V : Type} {arch : FpuArch} {scratch : Cpu}
    {board : Board n V} {code rest : List Instr} (straight : ∀ instr ∈ code, instr.straight = true) :
    run arch scratch (code ++ rest) none board =
      run arch scratch rest none { board with cpu := board.cpu.execAll code } := by
  induction code generalizing board with
  | nil => rfl
  | cons instr code ih =>
      have later : ∀ instr ∈ code, instr.straight = true := fun other member =>
        straight other (List.mem_cons_of_mem _ member)
      have first := straight instr List.mem_cons_self
      rw [List.cons_append]
      cases instr with
      | beq label => cases first
      | bne label => cases first
      | bl => cases first
      | bx rm => cases first
      | _ => exact ih later

namespace Thumb

/-- The Thumb-1 save: push the software frame below `r0`. -/
def saveFrame : List Instr :=
  [.subs .r0 36,
   .stmia .r0 [.r4, .r5, .r6, .r7],
   .mov .r4 .r8,
   .mov .r5 .r9,
   .mov .r6 .r10,
   .mov .r7 .r11,
   .stmia .r0 [.r4, .r5, .r6, .r7],
   .mov .r4 .lr,
   .str .r4 .r0,
   .subs .r0 32,
   .ldmia .r0 [.r4, .r5, .r6, .r7],
   .subs .r0 16]

/-- The Thumb-1 restore: pop the software frame at `r0`, with `EXC_RETURN` in `r1`. -/
def restoreFrame : List Instr :=
  [.ldmia .r0 [.r4, .r5, .r6, .r7],
   .ldmia .r0 [.r1, .r2],
   .mov .r8 .r1,
   .mov .r9 .r2,
   .ldmia .r0 [.r1, .r2],
   .mov .r10 .r1,
   .mov .r11 .r2,
   .ldr .r1 .r0,
   .adds .r0 4]

end Thumb

/-- The software frame has been pushed below `r0`. -/
structure Cpu.Pushed (before after : Cpu) : Prop where
  sp : after.r .r0 = before.r .r0 - 36
  mem : after.mem = storeWords before.mem (before.r .r0 - 36) before.softwareFrame
  callee : ∀ reg ∈ Reg.calleeSaved, after.r reg = before.r reg
  high : after.s = before.s

/-- The software frame at `r0` has been popped, with `EXC_RETURN` in `exc`. -/
structure Cpu.Popped (before after : Cpu) (exc : Reg) : Prop where
  sp : after.r .r0 = before.r .r0 + 36
  value : after.r exc = before.mem (before.r .r0 + 32)
  callee : Reg.calleeSaved.map after.r = loadWords before.mem (before.r .r0) 8
  mem : after.mem = before.mem

namespace Cpu

/-- `stmdb r0!, {r4-r11, lr}`. -/
theorem stmdb_pushed (cpu : Cpu) : cpu.Pushed (cpu.exec (.stmdb .r0 (Reg.calleeSaved ++ [.lr]))) where
  sp := by simp [exec, setReg, Reg.calleeSaved]
  mem := by simp [exec, setReg, Reg.calleeSaved, softwareFrame]
  callee := by simp [exec, setReg, Reg.calleeSaved]
  high := rfl

theorem thumb_pushed (cpu : Cpu) : cpu.Pushed (cpu.execAll Thumb.saveFrame) := by
  obtain ⟨base, isBase⟩ : ∃ base, base = cpu.r .r0 - 36 := ⟨_, rfl⟩
  have up : base + 16#32 + 16#32 = base + 32#32 := by
    rw [BitVec.add_assoc]
    rfl
  have down : base + 32#32 - 32#32 = base := BitVec.add_sub_cancel _ _
  have down' : base + 16#32 - 16#32 = base := BitVec.add_sub_cancel _ _
  have stored : storeWords (storeWords (storeWords cpu.mem base
      [cpu.r .r4, cpu.r .r5, cpu.r .r6, cpu.r .r7]) (base + 16#32)
      [cpu.r .r8, cpu.r .r9, cpu.r .r10, cpu.r .r11]) (base + 32#32) [cpu.r .lr] =
      storeWords cpu.mem base cpu.softwareFrame := by
    have parts : cpu.softwareFrame =
        [cpu.r .r4, cpu.r .r5, cpu.r .r6, cpu.r .r7] ++
          ([cpu.r .r8, cpu.r .r9, cpu.r .r10, cpu.r .r11] ++ [cpu.r .lr]) := rfl
    rw [parts, Words.storeWords_append, Words.storeWords_append, ← up]
    rfl
  have loaded : loadWords (storeWords cpu.mem base cpu.softwareFrame) base 4 =
      [cpu.r .r4, cpu.r .r5, cpu.r .r6, cpu.r .r7] := by
    have nine := cpu.softwareFrame_length
    have whole := Words.loadWords_storeWords cpu.mem base cpu.softwareFrame (by rw [nine]; decide)
    rw [← Words.take_loadWords _ _ (by decide : 4 ≤ 9), ← nine, whole]
    rfl
  simp only [Thumb.saveFrame, execAll, List.foldl_cons, List.foldl_nil, exec, setReg, ← isBase,
    Function.update_self, reduceCtorEq, List.map_cons, List.map_nil, List.length_cons,
    List.length_nil, Nat.reduceAdd, Nat.reduceMul, ne_eq, not_false_eq_true, Function.update_of_ne]
  simp only [BitVec.ofNat_eq_ofNat, up, down, down', stored, loaded, setRegs]
  constructor
  · simp [isBase]
  · rw [← isBase]
  · simp [Reg.calleeSaved]
  · rfl

/-- `ldmia r0!, {r4-r11, lr}`. -/
theorem ldmia_popped (cpu : Cpu) :
    cpu.Popped (cpu.exec (.ldmia .r0 (Reg.calleeSaved ++ [.lr]))) .lr where
  sp := by simp [exec, Reg.calleeSaved]
  value := by simp [exec, Reg.calleeSaved, loadWords, setRegs, BitVec.add_assoc]
  callee := by simp [exec, Reg.calleeSaved, loadWords, setRegs, BitVec.add_assoc]
  mem := rfl

theorem thumb_popped (cpu : Cpu) : cpu.Popped (cpu.execAll Thumb.restoreFrame) .r1 := by
  simp only [Thumb.restoreFrame, execAll, List.foldl_cons, List.foldl_nil, exec, setReg,
    List.length_cons, List.length_nil, Nat.reduceAdd, Nat.reduceMul, loadWords, setRegs, ne_eq,
    reduceCtorEq, not_false_eq_true, Function.update_of_ne, Function.update_self]
  constructor
  · simp [BitVec.add_assoc]
  · simp [BitVec.add_assoc]
  · simp [Reg.calleeSaved, loadWords, BitVec.add_assoc]
  · rfl

end Cpu

end Kangaroos
