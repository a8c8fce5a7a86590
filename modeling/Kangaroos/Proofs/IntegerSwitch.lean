import Kangaroos.Proofs.FpuRoundTrip

/-!
# Integer context switches

The Thumb-1 stubs and that of ARMv7-M push the same frame, call the scheduler with the same
stack pointer, and pop the same context from a frame. A task that is switched out has its
context in its frame, so whatever the order of switches it resumes with it.
-/

namespace Kangaroos

open Words (storeWords loadWords Block)

namespace IntegerArch

variable (arch : IntegerArch)

/-- How a port pushes the software frame. -/
def pushFrame : IntegerArch → List Instr
  | .v7m => [.stmdb .r0 (Reg.calleeSaved ++ [.lr])]
  | .v6m | .v8m => Thumb.saveFrame

/-- How a port pops the software frame. -/
def popFrame : IntegerArch → List Instr
  | .v7m => [.ldmia .r0 (Reg.calleeSaved ++ [.lr])]
  | .v6m | .v8m => Thumb.restoreFrame

theorem saveCurrentTask_eq : arch.saveCurrentTask = .mrsPsp .r0 :: arch.pushFrame := by
  cases arch <;> rfl

theorem restoreNewTask_eq : arch.restoreNewTask = arch.popFrame ++ [.msrPsp .r0] := by
  cases arch <;> rfl

theorem saveCurrentTask_straight : ∀ instr ∈ arch.saveCurrentTask, instr.straight = true := by
  cases arch <;> decide

theorem restoreNewTask_straight : ∀ instr ∈ arch.restoreNewTask, instr.straight = true := by
  cases arch <;> decide

theorem pushes (cpu : Cpu) : cpu.Pushed (cpu.execAll arch.pushFrame) := by
  cases arch with
  | v7m => exact cpu.stmdb_pushed
  | v6m => exact cpu.thumb_pushed
  | v8m => exact cpu.thumb_pushed

theorem pops (cpu : Cpu) : cpu.Popped (cpu.execAll arch.popFrame) arch.returnReg := by
  cases arch with
  | v7m => exact cpu.ldmia_popped
  | v6m => exact cpu.thumb_popped
  | v8m => exact cpu.thumb_popped

end IntegerArch

namespace Cpu

variable {arch : IntegerArch}

/-- What every port hands to the scheduler. -/
theorem saves_eq (arch : IntegerArch) (cpu : Cpu) :
    (cpu.saves arch).r .r0 = cpu.psp - 36 ∧
      (cpu.saves arch).mem = storeWords cpu.mem (cpu.psp - 36)
        ((cpu.context (cpu.r .lr)).callee ++ [(cpu.context (cpu.r .lr)).exc]) := by
  rw [saves, arch.saveCurrentTask_eq]
  obtain ⟨sp, mem, _, _⟩ := arch.pushes (cpu.exec (.mrsPsp .r0))
  constructor
  · rw [show (cpu.execAll (.mrsPsp .r0 :: arch.pushFrame)).r .r0 = _ from sp]
    simp [exec, setReg]
  · rw [show (cpu.execAll (.mrsPsp .r0 :: arch.pushFrame)).mem = _ from mem]
    simp [exec, setReg, softwareFrame, context, Reg.calleeSaved]

/-- What every port makes of the frame the scheduler returns. -/
theorem restores_eq (arch : IntegerArch) (cpu : Cpu) :
    ((cpu.restores arch).context (cpu.returnValue arch)).callee ++ [cpu.returnValue arch] =
        loadWords cpu.mem (cpu.r .r0) 9 ∧
      (cpu.restores arch).psp = cpu.r .r0 + 36 ∧ (cpu.restores arch).mem = cpu.mem := by
  obtain ⟨sp, value, callee, mem⟩ := arch.pops cpu
  have last : cpu.restores arch = (cpu.execAll arch.popFrame).exec (.msrPsp .r0) := by
    rw [restores, arch.restoreNewTask_eq, execAll, List.foldl_append]
    rfl
  have nine : loadWords cpu.mem (cpu.r .r0) 9 =
      loadWords cpu.mem (cpu.r .r0) 8 ++ [cpu.mem (cpu.r .r0 + 32)] := by
    simp [loadWords, BitVec.add_assoc]
  refine ⟨?_, ?_, ?_⟩
  · rw [nine, ← callee, ← value, returnValue, last]
    rfl
  · rw [last]
    exact sp
  · rw [last]
    exact mem

end Cpu

section Switching

variable {n : Nat} {V : Type} {arch : IntegerArch} {board exit : Board n V} {exc : Word}

/-- The words of a frame. -/
def Context.frame (context : Context) : List Word := context.callee ++ [context.exc]

/-- PendSV pushes the context of the interrupted task, and loads that of the frame at the
stack pointer the scheduler returns. -/
theorem Board.integerHandler_spec {scratch : Cpu}
    (handled : board.integerHandler arch scratch = some (exit, exc)) :
    ∃ sp, board.kernel.pendsvSaveAndSwitch (board.cpu.psp - 36) = .ok (exit.kernel, sp) ∧
      exit.cpu.mem = storeWords board.cpu.mem (board.cpu.psp - 36)
        (board.cpu.context (board.cpu.r .lr)).frame ∧
      (exit.cpu.context exc).frame = loadWords exit.cpu.mem sp 9 ∧
      (exit.cpu.context exc).psp = sp + 36 := by
  obtain ⟨given, pushed⟩ := board.cpu.saves_eq arch
  rw [integerHandler, IntegerArch.pendSV, run_straight arch.saveCurrentTask_straight] at handled
  simp only [run, bl, show board.cpu.execAll arch.saveCurrentTask = board.cpu.saves arch from rfl,
    given] at handled
  cases switches : board.kernel.pendsvSaveAndSwitch (board.cpu.psp - 36) with
  | error fault =>
      simp only [switches] at handled
      cases handled
  | ok result =>
      obtain ⟨kernel, sp⟩ := result
      simp only [switches, run_straight arch.restoreNewTask_straight, run] at handled
      cases handled
      obtain ⟨frame, psp, mem⟩ := Cpu.restores_eq arch
        { (board.cpu.saves arch).call scratch sp with
          psplim := arch.callee.limit kernel (board.cpu.saves arch) }
      refine ⟨sp, rfl, mem.trans pushed, ?_, psp⟩
      exact frame.trans (congrArg (loadWords · sp 9) mem.symm)

/-- A task that is switched out is not `CURRENT`, and its context is in its frame. -/
def Stored (board : Board n V) (contexts : Contexts n) : Prop :=
  ∀ task context, contexts task = some context → board.kernel.current ≠ some task ∧
    loadWords board.cpu.mem (board.kernel.tcb task).sp 9 = context.frame ∧
    (board.kernel.tcb task).sp + 36 = context.psp

/-- PendSV stores the context of the old task and restores what the new one has stored. -/
theorem Stored.switch {contexts : Contexts n} {scratch : Cpu} {old new : Fin n}
    (stored : Stored board contexts)
    (handled : board.integerHandler arch scratch = some (exit, exc))
    (isOld : board.kernel.current = some old) (isNew : exit.kernel.current = some new)
    (kept : ∀ task, task ≠ old → contexts task ≠ none →
      ∀ address, Block (board.kernel.tcb task).sp 9 address →
        exit.cpu.mem address = board.cpu.mem address) :
    Stored exit (contexts.switched old new (board.cpu.context (board.cpu.r .lr))) ∧
      ∀ context, Function.update contexts old (some (board.cpu.context (board.cpu.r .lr))) new =
        some context → exit.cpu.context exc = context := by
  obtain ⟨sp, switches, pushed, popped, psp⟩ := Board.integerHandler_spec handled
  obtain ⟨old', new', isOld', isNew', isSp, saved⟩ := Kernel.pendsvSaveAndSwitch_sp switches
  obtain rfl : old = old' := Option.some.inj (isOld.symm.trans isOld')
  obtain rfl : new = new' := Option.some.inj (isNew.symm.trans isNew')
  -- whatever was put away before the restore is in its frame
  have put : ∀ task context,
      Function.update contexts old (some (board.cpu.context (board.cpu.r .lr))) task = some context →
        loadWords exit.cpu.mem (exit.kernel.tcb task).sp 9 = context.frame ∧
          (exit.kernel.tcb task).sp + 36 = context.psp := by
    intro task context noted
    rw [saved]
    by_cases isTask : task = old
    · subst isTask
      rw [Function.update_self] at noted
      obtain rfl := Option.some.inj noted
      rw [if_pos rfl, pushed]
      have nine : (board.cpu.context (board.cpu.r .lr)).frame.length = 9 := rfl
      refine ⟨?_, BitVec.sub_add_cancel _ _⟩
      rw [← nine]
      exact Words.loadWords_storeWords _ _ _ (by rw [nine]; decide)
    · rw [Function.update_of_ne isTask] at noted
      obtain ⟨_, frame, base⟩ := stored task context noted
      rw [if_neg isTask, Words.loadWords_congr fun target inside =>
        kept task isTask (by simp [noted]) target inside]
      exact ⟨frame, base⟩
  constructor
  · intro task context noted
    rw [Contexts.switched] at noted
    by_cases isTask : task = new
    · subst isTask
      simp at noted
    · rw [Function.update_of_ne isTask] at noted
      refine ⟨?_, put task context noted⟩
      rw [isNew]
      exact fun same => isTask (Option.some.inj same).symm
  · intro context noted
    obtain ⟨frame, base⟩ := put new context noted
    rw [← isSp, ← popped] at frame
    rw [← isSp, ← psp] at base
    have parts := List.append_inj' frame rfl
    cases context
    simp only [Cpu.context, Context.mk.injEq]
    exact ⟨parts.1, (List.cons.inj parts.2).1, base⟩

/-- In every run each task that is switched out has its context stored. -/
theorem stored_of_reachable {pair : Board n V × Contexts n}
    (reachable : (arch.switching n V).Reachable pair) : Stored pair.1 pair.2 := by
  refine reachable.invariant (fun pair => Stored pair.1 pair.2) ?_ ?_
  · rintro ⟨board, contexts⟩ rfl task context noted
    cases noted
  · rintro ⟨board, contexts⟩ label ⟨next, contexts'⟩ _ stored step
    cases label with
    | execute =>
        obtain ⟨sameCurrent, kept, rfl⟩ := step
        intro task context noted
        obtain ⟨away, frame, base⟩ := stored task context noted
        have away' : contexts' task ≠ none := by
          rw [show contexts' task = some context from noted]
          simp
        obtain ⟨sameSp, sameWords⟩ := kept task away'
        refine ⟨?_, ?_, ?_⟩
        · rw [sameCurrent]
          exact away
        · rw [sameSp, Words.loadWords_congr sameWords]
          exact frame
        · rw [sameSp]
          exact base
    | pendsv scratch exc =>
        obtain ⟨handled, old, new, isOld, isNew, kept, rfl⟩ := step
        exact (stored.switch handled isOld isNew kept).1

end Switching

/-- Each port without FPU writes what ARMv7-M writes, hands over the same stack pointer and
restores the same context from any frame; and in every run in which the frames of the tasks
that are switched out are left alone, a task resumes with the context it was switched out
with. -/
theorem integer_stubs_agree (arch : IntegerArch) :
    (∀ cpu : Cpu, (cpu.saves arch).mem = (cpu.saves .v7m).mem ∧
      (cpu.saves arch).r .r0 = (cpu.saves .v7m).r .r0 ∧ (cpu.saves arch).r .r0 = cpu.psp - 36 ∧
      loadWords (cpu.saves arch).mem (cpu.psp - 36) 9 = Reg.calleeSaved.map cpu.r ++ [cpu.r .lr] ∧
      ∀ address, ¬Block (cpu.psp - 36) 9 address → (cpu.saves arch).mem address = cpu.mem address) ∧
    (∀ cpu : Cpu, (cpu.restores arch).context (cpu.returnValue arch) =
      (cpu.restores .v7m).context (cpu.returnValue .v7m)) ∧
    ∀ (n : Nat) (V : Type) (board exit : Board n V) (contexts : Contexts n) (scratch : Cpu)
      (exc : Word) (old new : Fin n) (context : Context),
      (arch.switching n V).Reachable (board, contexts) →
      (arch.switching n V).step (board, contexts) (.pendsv scratch exc)
        (exit, contexts.switched old new (board.cpu.context (board.cpu.r .lr))) →
      board.kernel.current = some old → exit.kernel.current = some new →
      Function.update contexts old (some (board.cpu.context (board.cpu.r .lr))) new = some context →
      exit.cpu.context exc = context := by
  refine ⟨fun cpu => ?_, fun cpu => ?_, ?_⟩
  · obtain ⟨sp, mem⟩ := cpu.saves_eq arch
    obtain ⟨spReference, memReference⟩ := cpu.saves_eq .v7m
    rw [sp, mem, spReference, memReference]
    refine ⟨rfl, rfl, rfl, ?_, fun address outside => ?_⟩
    · exact Words.loadWords_storeWords _ _ _ (by decide : 4 * 9 ≤ 2 ^ 32)
    · exact Words.storeWords_of_outside outside
  · obtain ⟨frame, psp, _⟩ := cpu.restores_eq arch
    obtain ⟨frameReference, pspReference, _⟩ := cpu.restores_eq .v7m
    have parts := List.append_inj' (frame.trans frameReference.symm) rfl
    simp only [Cpu.context, Context.mk.injEq]
    exact ⟨parts.1, (List.cons.inj parts.2).1, psp.trans pspReference.symm⟩
  · intro n V board exit contexts scratch exc old new context reachable step isOld isNew noted
    obtain ⟨handled, old', new', isOld', isNew', kept, _⟩ := step
    obtain rfl : old = old' := Option.some.inj (isOld.symm.trans isOld')
    obtain rfl : new = new' := Option.some.inj (isNew.symm.trans isNew')
    exact ((stored_of_reachable reachable).switch handled isOld isNew kept).2 context noted

namespace Board

/-- The two tasks of `Board.pair` at the first instruction of PendSV. -/
def integerPair : Board 3 Unit where
  kernel := (Board.pair false).kernel
  cpu :=
    { (Board.pair false).cpu with
      r := fun reg => if reg = .r4 then 4 else if reg = .r11 then 11 else 0xFFFFFFFD }

/-- The task executes, and uses the registers for something else. -/
def scribbled (board : Board 3 Unit) : Board 3 Unit :=
  { board with cpu := { board.cpu with r := fun _ => 7 } }

/-- Two switches, from task 2 to task 1 and back: what a run of the model shows. -/
def integerPairCheck (arch : IntegerArch) : Bool :=
  match integerPair.integerHandler arch integerPair.cpu with
  | some (out, _) =>
    (out.kernel.current = some 1 ∧ (out.kernel.tcb 2).sp = 0x200010DC ∧ out.cpu.psp = 0x200020E0) &&
    match out.scribbled.integerHandler arch integerPair.cpu with
    | some (exit, _) => exit.kernel.current = some 2
    | none => false
  | none => false

/-- The two frames are apart. -/
theorem frames_apart {address : Word} (inside : Block 0x200010DC 9 address) :
    ¬Block (0x200020E0 - 36) 9 address := by
  obtain ⟨index, bound, rfl⟩ := inside
  rintro ⟨other, bound', same⟩
  bv_omega

end Board

/-- Task 2 is switched out on ARMv6-M, task 1 uses all registers, and task 2 resumes with its
own. -/
theorem integer_stubs_agree_pair : ∃ board exit exc contexts,
    (IntegerArch.v6m.switching 3 Unit).Reachable (board, contexts) ∧
    board.integerHandler .v6m Board.integerPair.cpu = some (exit, exc) ∧
    exit.kernel.current = some 2 ∧
    exit.cpu.context exc = Board.integerPair.cpu.context 0xFFFFFFFD := by
  have checked : Board.integerPairCheck .v6m = true := by decide +kernel
  have isCurrent : Board.integerPair.kernel.current = some 2 := by decide +kernel
  simp only [Board.integerPairCheck] at checked
  split at checked
  · rename_i out exc handled
    obtain ⟨first, back⟩ := Bool.and_eq_true_iff.mp checked
    obtain ⟨isOther, isSaved, psp⟩ := of_decide_eq_true first
    split at back
    · rename_i exit exc' handled'
      have isTask : exit.kernel.current = some 2 := of_decide_eq_true back
      have own : Board.integerPair.cpu.r .lr = 0xFFFFFFFD := rfl
      obtain ⟨away, isAway⟩ : ∃ away, away = Contexts.switched (fun _ => none) (2 : Fin 3) 1
        (Board.integerPair.cpu.context 0xFFFFFFFD) := ⟨_, rfl⟩
      have start : (IntegerArch.v6m.switching 3 Unit).Reachable
          (Board.integerPair, fun _ => none) := .initial rfl
      have first : (IntegerArch.v6m.switching 3 Unit).step (Board.integerPair, fun _ => none)
          (.pendsv Board.integerPair.cpu exc) (out, away) :=
        ⟨handled, 2, 1, isCurrent, isOther, by simp, by rw [isAway, own]⟩
      have execute : (IntegerArch.v6m.switching 3 Unit).step (out, away) .execute
          (out.scribbled, away) := ⟨rfl, fun _ _ => ⟨rfl, fun _ _ => rfl⟩, rfl⟩
      have reached := TransitionSystem.Reachable.step (.step start first) execute
      have onlyTwo : ∀ task, task ≠ 1 → away task ≠ none → task = 2 := by
        rw [isAway]
        decide
      have kept : ∀ task, task ≠ 1 → away task ≠ none →
          ∀ address, Block (out.scribbled.kernel.tcb task).sp 9 address →
            exit.cpu.mem address = out.scribbled.cpu.mem address := by
        intro task different noted address inside
        obtain rfl := onlyTwo task different noted
        obtain ⟨_, _, pushed, _⟩ := Board.integerHandler_spec handled'
        rw [pushed, Words.storeWords_of_outside]
        rw [show (out.scribbled.kernel.tcb 2).sp = _ from isSaved] at inside
        rw [show out.scribbled.cpu.psp = _ from psp]
        exact Board.frames_apart inside
      have noted : Function.update away 1 (some (out.scribbled.cpu.context
          (out.scribbled.cpu.r .lr))) 2 = some (Board.integerPair.cpu.context 0xFFFFFFFD) := by
        rw [isAway]
        rfl
      refine ⟨out.scribbled, exit, exc', away, reached, handled', isTask, ?_⟩
      exact (integer_stubs_agree .v6m).2.2 3 Unit out.scribbled exit away Board.integerPair.cpu exc'
        1 2 _ reached ⟨handled', 1, 2, isOther, isTask, kept, rfl⟩ isOther isTask noted
    · cases back
  · cases checked

end Kangaroos
