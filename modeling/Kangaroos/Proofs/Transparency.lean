import Kangaroos.Refine.Device

/-!
# Preemption is transparent

Whatever handlers, SysTick and PendSV do between two instructions of a task, it finds its
registers, its flags and the part of its stack in use as it left them. The invariant says
where they are meanwhile: parked on the stack, at the stack pointer in the TCB, or still at
that in `r0` while `pendsv_save_and_switch` has not stored it.
-/

namespace Kangaroos

open Words (storeWords loadWords Block)

variable {n : Nat} {V : Type}

namespace Device

variable {firmware : Firmware n} {device next : Device n V} {token : EntryToken n} {task : Fin n}
  {action : DeviceAction V}

/-- The steps of a device, with their guards. A step of the search moves no stack. -/
inductive Step (firmware : Firmware n) (device : Device n V) : DeviceAction V → Device n V → Prop where
  | compute {cpu task} (isTask : device.machine.threadTask = some task) :
      Step firmware device (.compute cpu) { device with cpu := { cpu with
        mem := device.cpu.mem, control := device.cpu.control, psplim := device.cpu.psplim } }
  | store {address value task} (isTask : device.machine.threadTask = some task) :
      Step firmware device (.store address value) { device with cpu := { device.cpu with
        mem := Function.update device.cpu.mem address value } }
  | machine {action machine} (noStub : action.hasStub = false)
      (performed : device.machine.perform firmware.config.idle action = some (.ok machine))
      (checked : checkCanaries (device.cpuAfter firmware action).mem machine action = .ok ()) :
      Step firmware device (.machine action) { cpu := device.cpuAfter firmware action, machine }
  | svCall {scratch board exc} (fresh : device.machine.kernel.current = none)
      (handled : Board.runSvc firmware.port scratch firmware.port.svCall
        { cpu := device.cpu, kernel := device.machine.kernel } = some (board, exc)) :
      Step firmware device (.svCall scratch)
        { cpu := board.cpu.exceptionReturn exc,
          machine := { device.machine with kernel := board.kernel } }
  | enter {scratch} (inactive : device.machine.handler = .inactive)
      (pending : device.machine.pendsv = true) :
      Step firmware device (.pendsv scratch)
        { cpu := device.cpu.preempted firmware.arch firmware.excReturn,
          machine := { device.machine with pendsv := false, handler := .entered } }
  | save {scratch kernel} (entered : device.machine.handler = .entered)
      (saved : device.machine.kernel.saveCurrent (device.cpu.r .r0) = .ok kernel) :
      Step firmware device (.pendsv scratch) { device with machine := { device.machine with
        kernel, handler := .pass1 kernel.searchStart kernel.searchStart (none, 255) } }
  | search {scratch kernel handler} (active : device.machine.handler ≠ .inactive)
      (past : device.machine.handler ≠ .entered) (active' : handler ≠ .inactive)
      (past' : handler ≠ .entered) (stackPtrs : kernel.stackPtrs = device.machine.kernel.stackPtrs) :
      Step firmware device (.pendsv scratch)
        { device with machine := { device.machine with kernel, handler } }
  | finish {scratch task kernel} (switched : device.machine.handler = .switched task)
      (marked : device.machine.kernel.markRunning task = .ok kernel) :
      Step firmware device (.pendsv scratch)
        { cpu := device.cpu.dispatched scratch firmware.arch
            (firmware.arch.callee.limit kernel device.cpu) (kernel.tcb task).sp,
          machine := { device.machine with kernel, handler := .inactive } }

/-- A step of PendSV is one of the cases. -/
theorem step_of_pendsv {scratch : Cpu} {machine : RtosMachine n V}
    (switches : Machine.SwitchStep device.machine (device.cpu.r .r0) machine) :
    Step firmware device (.pendsv scratch)
      { cpu := device.cpuSwitched firmware scratch machine, machine } := by
  have search : ∀ kernel handler, device.machine.handler ≠ .inactive →
      device.machine.handler ≠ .entered → (∀ task, device.machine.handler ≠ .switched task) →
      handler ≠ .inactive → handler ≠ .entered →
      kernel.stackPtrs = device.machine.kernel.stackPtrs →
      Step firmware device (.pendsv scratch)
        { cpu := device.cpuSwitched firmware scratch { device.machine with kernel, handler },
          machine := { device.machine with kernel, handler } } := by
    intro kernel handler active past notSwitched active' past' stackPtrs
    have sameCpu : device.cpuSwitched firmware scratch { device.machine with kernel, handler } =
        device.cpu := by
      unfold cpuSwitched
      split
      · contradiction
      · exact absurd ‹_› (notSwitched _)
      · rfl
    rw [sameCpu]
    exact .search active past active' past' stackPtrs
  cases switches with
  | enter inactive pending =>
      have isCpu : device.cpuSwitched firmware scratch { device.machine with
          pendsv := false, handler := .entered } = device.cpu.preempted firmware.arch firmware.excReturn := by
        rw [cpuSwitched, inactive]
      rw [isCpu]
      exact .enter inactive pending
  | save entered saved =>
      rename_i kernel
      have sameCpu : device.cpuSwitched firmware scratch { device.machine with
          kernel, handler := .pass1 kernel.searchStart kernel.searchStart (none, 255) } = device.cpu := by
        rw [cpuSwitched, entered]
      rw [sameCpu]
      exact .save entered saved
  | finish switched marked =>
      rename_i task kernel
      have isCpu : device.cpuSwitched firmware scratch { device.machine with
          kernel, handler := .inactive } = device.cpu.dispatched scratch firmware.arch
            (firmware.arch.callee.limit kernel device.cpu) (kernel.tcb task).sp := by
        rw [cpuSwitched, switched]
      rw [isCpu]
      exact .finish switched marked
  | visit1 at_ | wrap at_ | visit2 at_ _ | select at_ _ _ | switch at_ =>
      exact search _ _ (by simp [at_]) (by simp [at_]) (by simp [at_]) (by simp) (by simp) rfl

/-- Every step the device performs is one of the cases. -/
theorem step_of_perform (performed : device.perform firmware action = some (.ok next)) :
    Step firmware device action next := by
  cases action with
  | compute cpu =>
      simp only [perform] at performed
      split at performed
      · cases performed
      · rename_i task isTask
        obtain rfl := Except.ok.inj (Option.some.inj performed)
        exact .compute isTask
  | store address value =>
      simp only [perform] at performed
      split at performed
      · cases performed
      · rename_i task isTask
        obtain rfl := Except.ok.inj (Option.some.inj performed)
        exact .store isTask
  | machine action =>
      simp only [perform] at performed
      split at performed
      · cases performed
      · rename_i noStub
        split at performed
        · cases performed
        · cases performed
        · rename_i machine steps
          split at performed
          · cases performed
          · rename_i checked
            obtain rfl := Except.ok.inj (Option.some.inj performed)
            exact .machine (by simpa using noStub) steps checked
  | svCall scratch =>
      simp only [perform] at performed
      split at performed
      · cases performed
      · rename_i fresh
        split at performed
        · cases performed
        · rename_i board exc handled
          obtain rfl := Except.ok.inj (Option.some.inj performed)
          exact .svCall fresh handled
  | pendsv scratch =>
      simp only [perform] at performed
      split at performed
      · cases performed
      · cases performed
      · rename_i machine steps
        obtain rfl := Except.ok.inj (Option.some.inj performed)
        exact step_of_pendsv (Machine.switchStep_of_pendsvStep steps)

/-- The device only takes steps of the machine. -/
theorem machine_of_perform (performed : device.perform firmware action = some (.ok next)) :
    next.machine = device.machine ∨ ∃ step : Action V,
      device.machine.perform firmware.config.idle step = some (.ok next.machine) := by
  cases action with
  | pendsv scratch =>
      simp only [perform] at performed
      split at performed
      · cases performed
      · cases performed
      · rename_i machine steps
        obtain rfl := Except.ok.inj (Option.some.inj performed)
        exact .inr ⟨.pendsv (device.cpu.r .r0), steps⟩
  | compute cpu =>
      cases step_of_perform performed
      exact .inl rfl
  | store address value =>
      cases step_of_perform performed
      exact .inl rfl
  | machine action =>
      cases step_of_perform performed with
      | machine noStub steps checked => exact .inr ⟨action, steps⟩
  | svCall scratch =>
      cases step_of_perform performed with
      | svCall fresh handled =>
          obtain ⟨sp, returned, _⟩ := Board.svCall_spec firmware.arch handled
          refine .inr ⟨.launch, ?_⟩
          simp only [Machine.perform, fresh, if_true, returned]
          rfl

theorem executing_eq_some : device.executing = some task ↔
    device.machine.handler = .inactive ∧ device.machine.kernel.current = some task := by
  unfold executing
  split
  · rename_i inactive
    simp [inactive]
  · rename_i active
    simp only [reduceCtorEq, false_iff, not_and]
    exact fun inactive => absurd inactive active

theorem executing_of_active (active : device.machine.handler ≠ .inactive) :
    device.executing = none := by
  cases executes : device.executing with
  | none => rfl
  | some task => exact absurd (executing_eq_some.mp executes).1 active

/-- What holds of a device in every run: the bases of the stacks are those of the tokens, and
on ARMv8-M the stack limit is the stack base of the task that executes. -/
structure Placed (firmware : Firmware n) (device : Device n V) : Prop where
  valid : RtosMachine.Valid firmware.config device.machine
  stackBase : ∀ token ∈ firmware.entries,
    (device.machine.kernel.tcb token.tcb).stackBase = token.stackPtr
  limited : firmware.arch = .v8m → ∀ token ∈ firmware.entries, device.executing = some token.tcb →
    device.cpu.psplim = token.stackPtr

/-- The task that executes has a token. -/
theorem Placed.exists_entry (placed : Placed firmware device)
    (executes : device.executing = some task) : ∃ token ∈ firmware.entries, token.tcb = task :=
  Firmware.exists_entry (placed.valid.member (executing_eq_some.mp executes).2)

theorem cpuAfter_psplim (action : Action V) :
    (device.cpuAfter firmware action).psplim = device.cpu.psplim := by
  unfold cpuAfter
  split <;> rfl

/-- Every step keeps it. -/
theorem Placed.step (placed : Placed firmware device)
    (performed : device.perform firmware action = some (.ok next)) : Placed firmware next := by
  have valid : RtosMachine.Valid firmware.config next.machine := by
    rcases machine_of_perform performed with same | ⟨step, performed'⟩
    · exact same ▸ placed.valid
    · exact placed.valid.perform performed'
  have of_stackPtrs : next.machine.kernel.stackPtrs = device.machine.kernel.stackPtrs →
      ∀ token ∈ firmware.entries, (next.machine.kernel.tcb token.tcb).stackBase = token.stackPtr := by
    intro stackPtrs token member
    rw [← placed.stackBase token member]
    exact congrArg Prod.snd (congrFun stackPtrs token.tcb)
  -- the limit a port installs for the task it dispatches
  have of_limit : firmware.arch = .v8m → (∀ token ∈ firmware.entries,
        (next.machine.kernel.tcb token.tcb).stackBase = token.stackPtr) →
      (∃ cpu, next.cpu.psplim = firmware.arch.callee.limit next.machine.kernel cpu) →
      ∀ token ∈ firmware.entries, next.executing = some token.tcb →
        next.cpu.psplim = token.stackPtr := by
    rintro isV8m stackBase ⟨cpu, psplim⟩ token member executes
    rw [psplim, isV8m, ← stackBase token member]
    simp only [IntegerArch.callee, FpuArch.limit, (executing_eq_some.mp executes).2]
  have idles : next.machine.handler ≠ .inactive → firmware.arch = .v8m → ∀ token ∈ firmware.entries,
      next.executing = some token.tcb → next.cpu.psplim = token.stackPtr := by
    intro active _ token _ executes
    exact absurd (executing_eq_some.mp executes).1 active
  cases step_of_perform performed with
  | compute isTask => exact ⟨valid, placed.stackBase, placed.limited⟩
  | store isTask => exact ⟨valid, placed.stackBase, placed.limited⟩
  | machine noStub steps checked =>
      obtain ⟨sameHandler, sameCurrent, stackPtrs⟩ := placed.valid.between_stubs steps noStub
      refine ⟨valid, of_stackPtrs stackPtrs, fun isV8m token member executes => ?_⟩
      rw [executing_eq_some, sameHandler, sameCurrent, ← executing_eq_some] at executes
      exact (cpuAfter_psplim _).trans (placed.limited isV8m token member executes)
  | svCall fresh handled =>
      obtain ⟨sp, returned, _, psplim, _⟩ := Board.svCall_spec firmware.arch handled
      have stackBase := of_stackPtrs (Kernel.svcFirstTaskSp_keepsStacks.of_ok returned)
      exact ⟨valid, stackBase, fun isV8m => of_limit isV8m stackBase ⟨_, psplim⟩⟩
  | enter inactive pending => exact ⟨valid, placed.stackBase, idles nofun⟩
  | search active past active' past' stackPtrs => exact ⟨valid, of_stackPtrs stackPtrs, idles active'⟩
  | save entered saved =>
      refine ⟨valid, fun token member => ?_, idles nofun⟩
      rw [← placed.stackBase token member]
      exact Kernel.stackBase_of_saveCurrent saved token.tcb
  | finish switched marked =>
      have stackBase := of_stackPtrs (Kernel.stackPtrs_of_markRunning marked)
      exact ⟨valid, stackBase, fun isV8m =>
        of_limit isV8m stackBase ⟨_, Cpu.dispatched_psplim ..⟩⟩

/-- Where the registers of a task that does not execute are. -/
def savedSp (device : Device n V) (task : Fin n) : Word :=
  match device.machine.handler with
  | .entered => if device.machine.kernel.current = some task then device.cpu.r .r0
      else (device.machine.kernel.tcb task).sp
  | _ => (device.machine.kernel.tcb task).sp

theorem savedSp_of_not_entered (device : Device n V) (task : Fin n)
    (notEntered : device.machine.handler ≠ .entered) :
    device.savedSp task = (device.machine.kernel.tcb task).sp := by
  unfold savedSp
  split
  · contradiction
  · rfl

/-- The invariant of contained runs: a task that does not execute is parked, with the view it
had when it was interrupted. -/
structure Sound (firmware : Firmware n) (device : Device n V) (views : Views n) : Prop
    extends Placed firmware device where
  standard : device.executing ≠ none → device.cpu.fpca = false
  parked : ∀ token ∈ firmware.entries, device.executing ≠ some token.tcb →
    ∃ view, views token.tcb = some view ∧
      token.stack.Parked device.cpu.mem (device.savedSp token.tcb) view

/-- What a task sees, or has last seen. -/
def seen (device : Device n V) (views : Views n) (token : EntryToken n) : Option TaskView :=
  if device.executing = some token.tcb then some (device.cpu.taskView token.stack)
  else views token.tcb

/-- A step after which the tasks have seen what they had seen before it. -/
def Unseen (firmware : Firmware n) (device : Device n V) (views : Views n) (next : Device n V)
    (views' : Views n) : Prop :=
  ∀ token ∈ firmware.entries, seen next views' token = seen device views token

/-- The instructions of the running task itself. -/
def isOwn : DeviceAction V → Bool
  | .compute _ | .store _ _ => true
  | _ => false

variable {views : Views n} {spare : Nat}

/-- PendSV notes the task it interrupts. -/
theorem note_of_rests (rests : device.executing = none) (action : DeviceAction V)
    (next : Device n V) : firmware.note device action next views = views := by
  unfold Firmware.note
  rw [rests]
  cases action <;> rfl

/-- The running task computes or stores. -/
theorem Sound.instruction (sound : Sound firmware device views) {cpu : Cpu}
    (placed : Placed firmware { device with cpu })
    (isTask : device.machine.threadTask = some task) (control : cpu.control = device.cpu.control)
    (mem : ∀ token ∈ firmware.entries, device.executing ≠ some token.tcb →
      ∀ address, token.stack.Owns address → cpu.mem address = device.cpu.mem address) :
    Sound firmware { device with cpu } views := by
  have notEntered : device.machine.handler ≠ .entered := by
    simp [(Machine.threadTask_eq_some.mp isTask).1]
  refine ⟨placed, fun executes => ?_, fun token member rests => ?_⟩
  · have standard := sound.standard executes
    rwa [Cpu.fpca, ← control] at standard
  · obtain ⟨view, isView, parked⟩ := sound.parked token member rests
    have sameSp : ({ device with cpu } : Device n V).savedSp token.tcb = device.savedSp token.tcb :=
      (savedSp_of_not_entered { device with cpu } token.tcb notEntered).trans
        (savedSp_of_not_entered device token.tcb notEntered).symm
    exact ⟨view, isView, sameSp ▸ parked.congr (mem token member rests)⟩

/-- What a handler does to the core: the task it interrupts does not see it, and the others keep
their stacks. -/
theorem Sound.cpuAfter (sound : Sound firmware device views) {action : Action V}
    (contained : firmware.Contained spare device (.machine action)) :
    (device.executing ≠ none → (device.cpuAfter firmware action).fpca = false) ∧
      (device.cpuAfter firmware action).r .r0 = device.cpu.r .r0 ∧
      ∀ token ∈ firmware.entries,
        (device.executing = some token.tcb →
          (device.cpuAfter firmware action).taskView token.stack = device.cpu.taskView token.stack) ∧
        (device.executing ≠ some token.tcb → ∀ address, token.stack.Owns address →
          (device.cpuAfter firmware action).mem address = device.cpu.mem address) := by
  unfold Device.cpuAfter
  split
  · rename_i handles
    obtain ⟨interrupts, executes⟩ := handles
    obtain ⟨task, isTask⟩ := Option.ne_none_iff_exists'.mp executes
    obtain ⟨own, isOwn, rfl⟩ := sound.exists_entry isTask
    obtain ⟨sees, standard, _, outside⟩ := Cpu.interrupted_spec firmware.excReturn
      (sound.standard executes) (contained interrupts own isOwn isTask).of_spare
    have registers := congrArg TaskView.r sees
    rw [Cpu.taskView_r, Cpu.taskView_r] at registers
    refine ⟨fun _ => standard, congrFun registers .r0, fun token member =>
      ⟨fun isExecuting => ?_, fun rests address owns => ?_⟩⟩
    · obtain rfl := Firmware.eq_of_tcb isOwn member (Option.some.inj (isTask.symm.trans isExecuting))
      exact sees
    · refine outside address (Firmware.apart_entries member isOwn ?_ address owns)
      exact fun same => rests (same ▸ isTask)
  · exact ⟨sound.standard, rfl, fun token member => ⟨fun _ => rfl, fun _ _ _ => rfl⟩⟩

/-- A critical section, an interrupt handler, or SysTick. -/
theorem Sound.handler (sound : Sound firmware device views) {action : Action V}
    {machine : RtosMachine n V} (contained : firmware.Contained spare device (.machine action))
    (noStub : action.hasStub = false)
    (performed : device.machine.perform firmware.config.idle action = some (.ok machine))
    (isNext : next = { cpu := device.cpuAfter firmware action, machine })
    (placed : Placed firmware next) :
    Sound firmware next views ∧ Unseen firmware device views next views := by
  obtain ⟨sameHandler, sameCurrent, stackPtrs⟩ := sound.valid.between_stubs performed noStub
  obtain ⟨standard, r0, tokens⟩ := sound.cpuAfter contained
  have sameCpu : next.cpu = device.cpuAfter firmware action := by rw [isNext]
  have sameExecuting : next.executing = device.executing := by
    rw [isNext, executing, executing, sameHandler, sameCurrent]
  have sameSp : ∀ task, next.savedSp task = device.savedSp task := by
    intro task
    have sp : (machine.kernel.tcb task).sp = (device.machine.kernel.tcb task).sp :=
      congrArg Prod.fst (congrFun stackPtrs task)
    simp only [isNext, savedSp, sameHandler, sameCurrent, sp, r0]
  refine ⟨⟨placed, ?_, fun token member rests => ?_⟩, fun token member => ?_⟩
  · rw [sameExecuting, sameCpu]
    exact standard
  · rw [sameExecuting] at rests
    obtain ⟨view, isView, parked⟩ := sound.parked token member rests
    refine ⟨view, isView, ?_⟩
    rw [sameSp, sameCpu]
    exact parked.congr ((tokens token member).2 rests)
  · unfold seen
    rw [sameExecuting, sameCpu]
    split
    · rename_i isExecuting
      rw [(tokens token member).1 isExecuting]
    · rfl

/-- The task that starts to execute gets its view, and the others stay parked. -/
theorem Sound.dispatch (sound : Sound firmware device views) (placed : Placed firmware next)
    (stackPtrs : next.machine.kernel.stackPtrs = device.machine.kernel.stackPtrs)
    (rested : device.executing = none) (notEntered : device.machine.handler ≠ .entered)
    (executes : next.executing = some task) (mem : next.cpu.mem = device.cpu.mem)
    (resumes : ∀ stack view, Slice.Parked stack device.cpu.mem (next.machine.kernel.tcb task).sp view →
      next.cpu.taskView stack = view ∧ next.cpu.fpca = false) :
    Sound firmware next views ∧ Unseen firmware device views next views := by
  obtain ⟨token, isOwn, rfl⟩ := placed.exists_entry executes
  have notEntered' : next.machine.handler ≠ .entered := by
    simp [(executing_eq_some.mp executes).1]
  have sameSp : ∀ task, next.savedSp task = device.savedSp task := by
    intro task
    rw [savedSp_of_not_entered _ _ notEntered, savedSp_of_not_entered _ _ notEntered']
    exact congrArg Prod.fst (congrFun stackPtrs task)
  have asleep : ∀ other : EntryToken n, device.executing ≠ some other.tcb := by simp [rested]
  obtain ⟨view, isView, parked⟩ := sound.parked token isOwn (asleep token)
  rw [← sameSp, savedSp_of_not_entered _ _ notEntered'] at parked
  obtain ⟨sees, standard⟩ := resumes token.stack view parked
  refine ⟨⟨placed, fun _ => standard, fun other member _ => ?_⟩, fun other member => ?_⟩
  · rw [sameSp, mem]
    exact sound.parked other member (asleep other)
  · unfold seen
    rw [if_neg (asleep other)]
    split
    · rename_i isExecuting
      obtain rfl := Firmware.eq_of_tcb isOwn member (Option.some.inj (executes.symm.trans isExecuting))
      rw [sees, isView]
    · rfl

/-- PendSV is taken: it parks the task it interrupts. -/
theorem Sound.enter (sound : Sound firmware device views) {scratch : Cpu}
    (contained : firmware.Contained spare device (.pendsv scratch))
    (inactive : device.machine.handler = .inactive) (pending : device.machine.pendsv = true)
    (isNext : next = { cpu := device.cpu.preempted firmware.arch firmware.excReturn
                       machine := { device.machine with pendsv := false, handler := .entered } })
    (placed : Placed firmware next) :
    Sound firmware next (firmware.note device (.pendsv scratch) next views) ∧
      Unseen firmware device views next (firmware.note device (.pendsv scratch) next views) := by
  have launched : device.machine.kernel.current ≠ none := by
    intro none
    simp [(sound.valid.fresh none).2] at pending
  obtain ⟨task, isCurrent⟩ := Option.ne_none_iff_exists'.mp launched
  have executes : device.executing = some task := executing_eq_some.mpr ⟨inactive, isCurrent⟩
  obtain ⟨own, isOwn, rfl⟩ := sound.exists_entry executes
  obtain ⟨parked, outside⟩ := Cpu.preempted_spec firmware.arch firmware.excReturn
    (sound.standard (by simp [executes])) (contained own isOwn executes).of_spare
  have rests : next.executing = none := by rw [isNext, executing]
  have notes : firmware.note device (.pendsv scratch) next views =
      Function.update views own.tcb (some (device.cpu.taskView own.stack)) := by
    simp only [Firmware.note, executes, Firmware.find_entry isOwn, Option.map_some]
  rw [notes]
  refine ⟨⟨placed, by simp [rests], fun token member _ => ?_⟩, fun token member => ?_⟩
  · by_cases same : token.tcb = own.tcb
    · obtain rfl := Firmware.eq_of_tcb isOwn member same.symm
      refine ⟨_, Function.update_self .., ?_⟩
      rw [isNext, savedSp, if_pos isCurrent]
      exact parked
    · have other : some own.tcb ≠ some token.tcb := fun isSame => same (Option.some.inj isSame).symm
      obtain ⟨view, isView, parkedOther⟩ := sound.parked token member (executes ▸ other)
      rw [savedSp_of_not_entered _ _ (by simp [inactive])] at parkedOther
      refine ⟨view, by rw [Function.update_of_ne same]; exact isView, ?_⟩
      rw [isNext, savedSp, if_neg (isCurrent ▸ other)]
      exact parkedOther.congr fun address owns =>
        outside address (Firmware.apart_entries member isOwn same address owns)
  · unfold seen
    rw [rests, if_neg (by simp), executes]
    by_cases same : token.tcb = own.tcb
    · obtain rfl := Firmware.eq_of_tcb isOwn member same.symm
      rw [Function.update_self, if_pos rfl]
    · rw [Function.update_of_ne same, if_neg fun isSame => same (Option.some.inj isSame).symm]

/-- PendSV advances while no task executes. -/
theorem Sound.advance (sound : Sound firmware device views) {scratch : Cpu}
    (placed : Placed firmware next) (active : device.machine.handler ≠ .inactive)
    (active' : next.machine.handler ≠ .inactive) (sameCpu : next.cpu = device.cpu)
    (sp : ∀ task, next.savedSp task = device.savedSp task) :
    Sound firmware next (firmware.note device (.pendsv scratch) next views) ∧
      Unseen firmware device views next (firmware.note device (.pendsv scratch) next views) := by
  have rests := executing_of_active active
  have rests' := executing_of_active active'
  rw [note_of_rests rests]
  refine ⟨⟨placed, by simp [rests'], fun token member _ => ?_⟩, fun token member => ?_⟩
  · rw [sp, sameCpu]
    exact sound.parked token member (by simp [rests])
  · unfold seen
    rw [rests, rests', if_neg (by simp), if_neg (by simp)]

/-- Every contained step keeps the invariant, and no task sees any of it but its own
instructions. -/
theorem Sound.step (sound : Sound firmware device views)
    (contained : firmware.Contained spare device action)
    (performed : device.perform firmware action = some (.ok next)) :
    Sound firmware next (firmware.note device action next views) ∧
      ∀ token ∈ firmware.entries, (isOwn action = true → device.executing ≠ some token.tcb) →
        seen next (firmware.note device action next views) token = seen device views token := by
  have placed := sound.toPlaced.step performed
  cases step_of_perform performed with
  | compute isTask =>
      refine ⟨sound.instruction placed isTask rfl fun _ _ _ _ _ => rfl, fun token member others => ?_⟩
      have rests := others rfl
      exact (if_neg rests).trans (if_neg rests).symm
  | store isTask =>
      rename_i address value task
      refine ⟨sound.instruction placed isTask rfl fun token member rests target owns => ?_,
        fun token member others => ?_⟩
      · have outside := (contained token member).1 rests
        have elsewhere : target ≠ address := fun same => outside (same ▸ owns)
        exact Function.update_of_ne elsewhere _ _
      · have rests := others rfl
        exact (if_neg rests).trans (if_neg rests).symm
  | machine noStub steps checked =>
      obtain ⟨sound', same⟩ := sound.handler contained noStub steps rfl placed
      exact ⟨sound', fun token member _ => same token member⟩
  | svCall fresh handled =>
      obtain ⟨sp, returned, mem, _, resumes⟩ := Board.svCall_spec firmware.arch handled
      obtain ⟨first, isCurrent, rfl⟩ := Kernel.svcFirstTaskSp_ok returned
      obtain ⟨inactive, _⟩ := sound.valid.fresh fresh
      have rests : device.executing = none := by
        rw [executing, inactive]
        exact fresh
      obtain ⟨sound', same⟩ := sound.dispatch placed (Kernel.svcFirstTaskSp_keepsStacks.of_ok returned)
        rests (by simp [inactive]) (executing_eq_some.mpr ⟨inactive, isCurrent⟩) mem resumes
      exact ⟨sound', fun token member _ => same token member⟩
  | enter inactive pending =>
      obtain ⟨sound', same⟩ := sound.enter contained inactive pending rfl placed
      exact ⟨sound', fun token member _ => same token member⟩
  | save entered saved =>
      obtain ⟨sound', same⟩ := sound.advance placed (by simp [entered]) nofun rfl fun task => by
        rw [savedSp_of_not_entered _ _ (by simp), savedSp, entered]
        exact Kernel.sp_of_saveCurrent saved task
      exact ⟨sound', fun token member _ => same token member⟩
  | search active past active' past' stackPtrs =>
      obtain ⟨sound', same⟩ := sound.advance placed active active' rfl fun task => by
        rw [savedSp_of_not_entered _ _ past, savedSp_of_not_entered _ _ past']
        exact congrArg Prod.fst (congrFun stackPtrs task)
      exact ⟨sound', fun token member _ => same token member⟩
  | finish switched marked =>
      rename_i scratch task kernel
      have isCurrent := (Kernel.current_of_markRunning marked).trans (sound.valid.switched switched)
      have active : device.machine.handler ≠ .inactive := by simp [switched]
      rw [note_of_rests (executing_of_active active)]
      obtain ⟨sound', same⟩ := sound.dispatch placed (Kernel.stackPtrs_of_markRunning marked)
        (executing_of_active active) (by simp [switched]) (executing_eq_some.mpr ⟨rfl, isCurrent⟩)
        (Cpu.dispatched_mem ..) fun stack view => Cpu.dispatched_spec firmware.arch scratch _
      exact ⟨sound', fun token member _ => same token member⟩

/-- The boot parks every task before its first instruction. -/
theorem Sound.of_initial (start : (firmware.system V).initial device) :
    Sound firmware device firmware.firstViews ∧
      ∀ token ∈ firmware.entries, 4 ≤ token.stack.len ∧
        loadWords device.cpu.mem token.stackPtr 4 = List.replicate 4 canary := by
  obtain ⟨cpu, after, booted, rfl⟩ := start
  obtain ⟨spawns, spawned, _, _⟩ := Port.spawned_of_forM firmware.entries_nodup
    (fun _ member _ member' => Firmware.apart_entries member member') booted
  obtain ⟨valid, notLaunched⟩ := RtosMachine.valid_of_spawns spawns
  refine ⟨⟨⟨valid, fun token member => (spawned token member).stackBase, ?_⟩, ?_, fun token member _ => ?_⟩,
    fun token member => ⟨(spawned token member).enough, (spawned token member).canary⟩⟩
  · intro _ token member executes
    cases notLaunched.symm.trans executes
  · intro launched
    exact absurd notLaunched launched
  · refine ⟨_, ?_, (spawned token member).parked⟩
    rw [Firmware.firstViews, Firmware.find_entry member]
    rfl

end Device

/-- Stacks of 32 words. -/
theorem pair_fits : 4 * 32 ≤ 2 ^ 32 := by decide

namespace Firmware

/-- Two tasks with stacks of 32 words. -/
def pairTasks : List (EntryToken 3) :=
  [{ tcb := 1, stackPtr := 0x20001000, stackLen := 32, priority := 10, timeSlice := 5,
     entry := 0x08000101, fits := pair_fits },
   { tcb := 2, stackPtr := 0x20002000, stackLen := 32, priority := 20, timeSlice := 5,
     entry := 0x08000201, fits := pair_fits }]

theorem pair_distinct :
    ((0 : Fin 3) :: (pairTasks.map EntryToken.toSpawnToken).map SpawnToken.tcb).Nodup := by
  decide

theorem pair_apart : (pairTasks.map EntryToken.stack ++
    [({ ptr := 0x20003000, len := 64, fits := idle_fits } : Slice)]).Pairwise Slice.Apart := by
  simp only [pairTasks, List.map_cons, List.map_nil, List.cons_append, List.nil_append,
    List.pairwise_cons, List.forall_mem_cons]
  refine ⟨⟨Slice.apart_of_le ?_ ?_, Slice.apart_of_le ?_ ?_, by simp⟩,
    ⟨Slice.apart_of_le ?_ ?_, by simp⟩, by simp, List.Pairwise.nil⟩
  all_goals decide

/-- The two tasks and the idle task. -/
def pair (arch : IntegerArch) : Firmware 3 where
  arch
  excReturn := .thread
  taskExit _ := 0x08000001
  config :=
    { tokens := pairTasks.map EntryToken.toSpawnToken
      idle := 0
      semaphore _ := (0, 1)
      channel _ := 1
      pool _ := 1
      distinct := pair_distinct
      poolBound := Config.one_pool_slot }
  tasks := pairTasks
  tokens := rfl
  idleStack := 0x20003000
  idleTask := 0x08000301
  apart := pair_apart

/-- A core with one value in all its registers. -/
def core (value psp : Word) : Cpu where
  r _ := value
  s _ := 0
  psp
  pc := 0x08000110
  xpsr := 0x01000000
  fpscr := 0
  control := 0
  psplim := 0
  zero := false
  mem _ := 0

end Firmware

namespace Device

variable {firmware : Firmware n} {device : Device n V} {token : EntryToken n}

end Device

end Kangaroos
