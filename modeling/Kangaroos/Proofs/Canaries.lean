import Kangaroos.Proofs.CrashFreedom
import Kangaroos.Proofs.Transparency

/-!
# Stack canaries

SysTick looks at the canary of every live task: it panics if and only if one is not what the boot
has written there. Tasks that keep out of the four lowest words of their stacks, with the frames
they are interrupted on, never make it panic.
-/

namespace Kangaroos

open Words (loadWords Block)

variable {n : Nat} {V : Type}

namespace Slice

variable {stack : Slice} {spare count : Nat} {address psp : Word}

theorem above_fits (stack : Slice) (spare : Nat) : 4 * (stack.len - spare) ≤ 2 ^ 32 := by
  have fits := stack.fits
  omega

/-- A slice without its lowest words. -/
def above (stack : Slice) (spare : Nat) : Slice where
  ptr := stack.address spare
  len := stack.len - spare
  fits := stack.above_fits spare

theorem above_address (stack : Slice) (spare index : Nat) :
    (stack.above spare).address index = stack.address (spare + index) :=
  (stack.address_add spare index).symm

/-- The lowest words are not among the others. -/
theorem not_above_of_spare (low : Block stack.ptr spare address) :
    ¬(stack.above spare).Owns address := by
  rintro ⟨index, bound, rfl⟩
  have within : index < stack.len - spare := bound
  have part : Block (stack.address 0) spare ((stack.above spare).address index) := by
    rw [stack.address_zero]
    exact low
  rw [above_address] at part
  exact stack.not_block (by omega) (by omega) (.inr (by omega)) part

theorem owns_of_above (owns : (stack.above spare).Owns address) : stack.Owns address := by
  obtain ⟨index, bound, rfl⟩ := owns
  have within : index < stack.len - spare := bound
  exact ⟨spare + index, by omega, (stack.above_address spare index)⟩

/-- Room above the lowest words. -/
theorem Room.above (room : stack.Room psp (spare + count)) : (stack.above spare).Room psp count := by
  obtain ⟨base, bound, enough, rfl⟩ := room
  obtain ⟨rest, rfl⟩ := Nat.exists_eq_add_of_le (show spare ≤ base by omega)
  have below : rest < stack.len - spare + 1 := by omega
  exact ⟨rest, below, by omega, (stack.above_address spare rest).symm⟩

end Slice

/-- SysTick advances the time, and then checks the canary of every live task. -/
theorem RtosMachine.Valid.tick {config : Config n} {machine : RtosMachine n V}
    (valid : RtosMachine.Valid config machine) :
    ∃ next, machine.perform config.idle .tick = some (.ok next) ∧
      (∀ task, (next.kernel.tcb task).state.live = (machine.kernel.tcb task).state.live) ∧
      ∀ canaryCheck, next.kernel.canaryPass canaryCheck n next.kernel.allTasks =
        if ∃ task ∈ config.order, (next.kernel.tcb task).state.live = true ∧
            canaryCheck (next.kernel.tcb task).stackBase = false then .error .stackOverflow
        else .ok () := by
  obtain ⟨spec, rep, core⟩ := valid
  obtain ⟨kernel, preempt, returned, live, _, canaries⟩ := rep.tick_canaries core
  exact ⟨_, RepMachine.perform_tick returned, live, canaries⟩

namespace Device

variable {firmware : Firmware n} {device next : Device n V} {token : EntryToken n}
  {action : DeviceAction V} {views : Views n} {spare : Nat}

/-- When SysTick looks at it, the canary of a live task is not as the boot has left it. -/
def Overflowed (firmware : Firmware n) (device : Device n V) : Prop :=
  ∃ token ∈ firmware.entries, (device.machine.kernel.tcb token.tcb).state.live = true ∧
    loadWords (device.cpuAfter firmware (.tick : Action V)).mem token.stackPtr 4 ≠
      List.replicate 4 canary

/-- SysTick panics on a damaged canary, and on nothing else. -/
theorem Placed.perform_tick (placed : Placed firmware device) :
    (device.Overflowed firmware →
      device.perform firmware (.machine .tick) = some (.error .stackOverflow)) ∧
    (¬device.Overflowed firmware →
      ∃ next, device.perform firmware (.machine .tick) = some (.ok next)) := by
  obtain ⟨machine, performed, live, canaries⟩ := placed.valid.tick
  obtain ⟨_, _, stackPtrs⟩ := placed.valid.between_stubs performed rfl
  have stackBase : ∀ token ∈ firmware.entries,
      (machine.kernel.tcb token.tcb).stackBase = token.stackPtr := by
    intro token member
    rw [← placed.stackBase token member]
    exact congrArg Prod.snd (congrFun stackPtrs token.tcb)
  have overflowed : device.Overflowed firmware ↔ ∃ task ∈ firmware.config.order,
      (machine.kernel.tcb task).state.live = true ∧
        canaryCheck (device.cpuAfter firmware (.tick : Action V)).mem
          (machine.kernel.tcb task).stackBase = false := by
    constructor
    · rintro ⟨token, member, lives, damaged⟩
      refine ⟨token.tcb, Firmware.mem_order member, (live _).trans lives, ?_⟩
      rw [stackBase token member, ← Bool.not_eq_true, canaryCheck_iff]
      exact damaged
    · rintro ⟨task, listed, lives, damaged⟩
      obtain ⟨token, member, rfl⟩ := Firmware.exists_entry listed
      rw [stackBase token member, ← Bool.not_eq_true, canaryCheck_iff] at damaged
      exact ⟨token, member, (live _).symm.trans lives, damaged⟩
  have check := canaries (canaryCheck (device.cpuAfter firmware (.tick : Action V)).mem)
  constructor
  · intro overflow
    rw [if_pos (overflowed.mp overflow)] at check
    simp only [perform, Action.hasStub, performed, checkCanaries, check]
    rfl
  · intro intact
    rw [if_neg (mt overflowed.mpr intact)] at check
    simp only [perform, Action.hasStub, performed, checkCanaries, check]
    exact ⟨_, rfl⟩

/-- A handler writes no word below the room its frame has. -/
theorem Sound.cpuAfter_low (sound : Sound firmware device views) {step : Action V}
    (contained : firmware.Contained spare device (.machine step)) (member : token ∈ firmware.entries)
    {address : Word} (low : Block token.stack.ptr spare address) (part : spare ≤ token.stack.len) :
    (device.cpuAfter firmware step).mem address = device.cpu.mem address := by
  by_cases executes : device.executing = some token.tcb
  · unfold Device.cpuAfter
    split
    · rename_i handles
      have room := (contained handles.1 token member executes).above
      have standard := sound.standard (by simp [executes])
      obtain ⟨_, _, _, outside⟩ := Cpu.interrupted_spec firmware.excReturn standard room
      exact outside address (Slice.not_above_of_spare low)
    · rfl
  · have owns : token.stack.Owns address := by
      rw [← token.stack.address_zero] at low
      exact Slice.owns_of_block (by omega) low
    exact ((sound.cpuAfter contained).2.2 token member).2 executes address owns

/-- Neither does PendSV. -/
theorem Sound.preempted_low (sound : Sound firmware device views) {scratch : Cpu}
    (contained : firmware.Contained spare device (.pendsv scratch))
    (executes : device.executing ≠ none) (member : token ∈ firmware.entries)
    {address : Word} (low : Block token.stack.ptr spare address) (part : spare ≤ token.stack.len) :
    (device.cpu.preempted firmware.arch firmware.excReturn).mem address = device.cpu.mem address := by
  obtain ⟨task, isTask⟩ := Option.ne_none_iff_exists'.mp executes
  obtain ⟨own, isOwn, rfl⟩ := sound.exists_entry isTask
  have room := (contained own isOwn isTask).above
  obtain ⟨_, outside⟩ := Cpu.preempted_spec firmware.arch firmware.excReturn (sound.standard executes) room
  refine outside address fun owns => ?_
  by_cases same : token.tcb = own.tcb
  · obtain rfl := Firmware.eq_of_tcb isOwn member same.symm
    exact Slice.not_above_of_spare low owns
  · have ownsOther : token.stack.Owns address := by
      rw [← token.stack.address_zero] at low
      exact Slice.owns_of_block (by omega) low
    exact Firmware.apart_entries member isOwn same address ownsOther (Slice.owns_of_above owns)

/-- No contained step writes one of the lowest words of a stack. -/
theorem Sound.low_step (sound : Sound firmware device views)
    (contained : firmware.Contained spare device action)
    (performed : device.perform firmware action = some (.ok next)) (member : token ∈ firmware.entries)
    {address : Word} (low : Block token.stack.ptr spare address) (part : spare ≤ token.stack.len) :
    next.cpu.mem address = device.cpu.mem address := by
  cases step_of_perform performed with
  | compute isTask => rfl
  | store isTask =>
      rename_i target value task
      have elsewhere : address ≠ target := by
        rintro rfl
        exact (contained token member).2 low
      exact Function.update_of_ne elsewhere _ _
  | machine noStub steps checked => exact sound.cpuAfter_low contained member low part
  | svCall fresh handled =>
      obtain ⟨sp, returned, mem, _⟩ := Board.svCall_spec firmware.arch handled
      exact congrFun mem address
  | enter inactive pending =>
      have launched : device.machine.kernel.current ≠ none := by
        intro none
        simp [(sound.valid.fresh none).2] at pending
      have executes : device.executing ≠ none := by
        rwa [executing, inactive]
      exact sound.preempted_low contained executes member low part
  | save entered saved => rfl
  | search active past active' past' stackPtrs => rfl
  | finish switched marked => exact congrFun (Cpu.dispatched_mem ..) address

/-- All canaries are as the boot has left them. -/
def Intact (firmware : Firmware n) (device : Device n V) : Prop :=
  ∀ token ∈ firmware.entries, 4 ≤ token.stack.len ∧
    loadWords device.cpu.mem token.stackPtr 4 = List.replicate 4 canary

/-- They stay so while the tasks and their frames keep out of them. -/
theorem intact_of_reachable {pair : Device n V × Views n}
    (reachable : (firmware.contained 4 V).Reachable pair) :
    Sound firmware pair.1 pair.2 ∧ Intact firmware pair.1 := by
  refine reachable.observed_invariant
    (fun device views => Sound firmware device views ∧ Intact firmware device) ?_ ?_
  · exact fun _ start => Sound.of_initial start
  · rintro state action next views - ⟨sound, intact⟩ ⟨contained, performed⟩
    refine ⟨(sound.step contained performed).1, fun token member => ?_⟩
    obtain ⟨part, canaries⟩ := intact token member
    refine ⟨part, ?_⟩
    rw [← canaries]
    exact Words.loadWords_congr fun address low => sound.low_step contained performed member low part

end Device

end Kangaroos
