import Kangaroos.Abstract.Core

/-!
# The moves of the abstract machine

Launch, SysTick, PendSV and `trigger_pendsv()` differ in what they do to the
processor and agree in what they leave alone: lists, primitives, program points
and boxes. `Moves` folds them into one case and gives every critical section its
contract, so that an invariant of a primitive is proved by eight cases.
-/

namespace Kangaroos

/-- The steps of the scheduler itself. -/
def Action.schedules {V : Type} : Action V → Bool
  | .launch | .tick | .pendsv _ | .trigger => true
  | _ => false

namespace SpecMachine

variable {n : Nat} {V : Type} {config : Config n} {machine next : SpecMachine n V}

/-- What the scheduler's own steps leave alone. -/
structure Scheduled (machine next : SpecMachine n V) : Prop where
  moved : Spec.Rescheduled machine.kernel next.kernel
  thread : ∀ task, (next.thread task).pc = (machine.thread task).pc ∧
    (next.thread task).frames = (machine.thread task).frames ∧
    (next.thread task).guards = (machine.thread task).guards
  boxes : next.boxes = machine.boxes
  isrSlots : next.isrSlots = machine.isrSlots

/-- The steps of the machine, as far as an invariant of a primitive needs them. -/
inductive Moves (machine : SpecMachine n V) : Action V → SpecMachine n V → Prop
  | scheduled {action next} (scheduled : Scheduled machine next)
      (schedules : action.schedules = true) : Moves machine action next
  | isr {call kernel outcome pendsv isrSlots} (safe : call.isrSafe = true)
      (returned : call.run none machine.kernel = .ok (kernel, outcome))
      (contract : call.Contract none machine.kernel (kernel, outcome))
      (slots : isrSlots = match outcome.pc with
        | .allocRet id slot => Function.update machine.isrSlots id (slot :: machine.isrSlots id)
        | _ => machine.isrSlots) :
      Moves machine (.isr call) { machine with kernel, pendsv, isrSlots }
  | isrRet {id slot} (assigned : slot ∈ machine.isrSlots id) :
      Moves machine (.isrRet id slot) { machine.addBox id slot with
        isrSlots := Function.update machine.isrSlots id ((machine.isrSlots id).erase slot) }
  | call {call task kernel outcome pendsv} (isCurrent : machine.kernel.current = some task)
      (runs : (machine.kernel.tcb task).state.isRunning = true)
      (may : (machine.thread task).mayCall call = true)
      (returned : call.run (some task) machine.kernel = .ok (kernel, outcome))
      (contract : call.Contract (some task) machine.kernel (kernel, outcome)) :
      Moves machine (.call call)
        { machine.setThread task ((machine.thread task).after call outcome) with kernel, pendsv }
  | ret {task next} (runs : (machine.kernel.tcb task).state.isRunning = true)
      (returns : Machine.ReturnStep machine task next) : Moves machine .ret next
  | dropBox {id slot task} (runs : (machine.kernel.tcb task).state.isRunning = true)
      (user : (machine.thread task).pc = .user) (live : slot ∈ machine.boxes id)
      (inBounds : slot.val < (machine.kernel.pool id).capacity) :
      Moves machine (.dropBox id slot)
        { (machine.removeBox id slot).setThread task { machine.thread task with
            frames := .boxDrop id slot :: (machine.thread task).frames } with
          kernel := machine.kernel.setPool id { machine.kernel.pool id with
            nodes := Function.update (machine.kernel.pool id).nodes slot.val none } }
  | writeBox {id slot value} (live : slot ∈ machine.boxes id)
      (stored : (machine.kernel.pool id).nodes slot.val ≠ none) :
      Moves machine (.writeBox id slot value)
        { machine with
          kernel := machine.kernel.setPool id { machine.kernel.pool id with
            nodes := Function.update (machine.kernel.pool id).nodes slot.val (some value) } }
  | forgetGuard {id task} (runs : (machine.kernel.tcb task).state.isRunning = true)
      (user : (machine.thread task).pc = .user) (held : id ∈ (machine.thread task).guards) :
      Moves machine (.forgetGuard id) (machine.setThread task
        { machine.thread task with guards := (machine.thread task).guards.erase id })

/-- PendSV only reschedules. -/
theorem Core.switch_scheduled (core : Core config machine) {sp : Word}
    (switches : Machine.SwitchStep machine sp next) : Scheduled machine next := by
  cases switches with
  | enter inactive pending => exact ⟨.refl _, fun _ => ⟨rfl, rfl, rfl⟩, rfl, rfl⟩
  | save entered saved =>
      exact ⟨((Spec.saveCurrent_spec _ _).of_ok saved).moved, fun _ => ⟨rfl, rfl, rfl⟩, rfl, rfl⟩
  | visit1 searching => exact ⟨.refl _, fun _ => ⟨rfl, rfl, rfl⟩, rfl, rfl⟩
  | wrap searching => exact ⟨.refl _, fun _ => ⟨rfl, rfl, rfl⟩, rfl, rfl⟩
  | visit2 searching notStart => exact ⟨.refl _, fun _ => ⟨rfl, rfl, rfl⟩, rfl, rfl⟩
  | select searching atEnd found => exact ⟨.refl _, fun _ => ⟨rfl, rfl, rfl⟩, rfl, rfl⟩
  | switch selected => exact ⟨.setCurrent _ _, fun _ => ⟨rfl, rfl, rfl⟩, rfl, rfl⟩
  | finish switched marked =>
      have phase := core.phase
      rw [switched] at phase
      exact ⟨((Spec.markRunning_spec phase.2.1).of_ok marked).1, fun _ => ⟨rfl, rfl, rfl⟩, rfl, rfl⟩

/-- Every step is one of the moves. -/
theorem Core.moves (core : Core config machine) {action : Action V}
    (step : Machine.Step config.idle machine action next) :
    Moves machine action next := by
  cases step with
  | launch fresh returned =>
      have launched := (Spec.svcFirstTaskSp_spec core.chain config.order_nodup).of_ok returned
      exact .scheduled ⟨launched.1, fun _ => ⟨rfl, rfl, rfl⟩, rfl, rfl⟩ rfl
  | tick returned =>
      have ticked := (Spec.tick_spec core.chain).of_ok returned
      exact .scheduled ⟨ticked.moved, fun _ => ⟨rfl, rfl, rfl⟩, rfl, rfl⟩ rfl
  | pendsv switches => exact .scheduled (core.switch_scheduled switches) rfl
  | isr safe returned slots => exact .isr safe returned (core.isr_contract safe returned) slots
  | isrRet assigned => exact .isrRet assigned
  | call isTask notIdle triggered may returned =>
      exact .call (Machine.threadTask_eq_some.mp isTask).2.2 (core.task_running isTask triggered) may
        returned (core.call_contract isTask triggered returned)
  | trigger isTask untriggered =>
      rename_i task
      refine .scheduled ⟨.refl _, fun other => ?_, rfl, rfl⟩ rfl
      by_cases same : other = task
      · subst same
        simp [Machine.setThread]
      · simp [Machine.setThread, same]
  | ret isTask triggered returns => exact .ret (core.task_running isTask triggered) returns
  | dropBox isTask notIdle triggered user live returned =>
      obtain ⟨inBounds, _, rfl⟩ := Pool.destroy_ok returned
      exact .dropBox (core.task_running isTask triggered) user live inBounds
  | writeBox isTask notIdle triggered user live returned =>
      obtain ⟨_, stored, rfl⟩ := Pool.write_ok returned
      exact .writeBox live stored
  | forgetGuard isTask notIdle triggered user held =>
      exact .forgetGuard (core.task_running isTask triggered) user held

/-- An invariant that starts true and survives every move holds in every reachable
state. The moves are made between states that meet `Core`. -/
theorem invariant_of_core_moves (Inv : SpecMachine n V → Prop)
    (start : ∀ kernel, config.boot V WaitList (List (Fin n)) = .ok kernel →
      Inv (Config.start V WaitList (List (Fin n)) kernel))
    (preserved : ∀ machine action next, Core config machine → Core config next → Inv machine →
      Moves machine action next → Inv next)
    (reachable : (system config V).Reachable machine) : Inv machine := by
  refine reachable.invariant Inv ?_ ?_
  · rintro state ⟨kernel, boot, rfl⟩
    exact start kernel boot
  · intro state action after reached holds performed
    have core := core_of_reachable reached
    have core' := core_of_reachable (.step reached performed)
    exact preserved state action after core core' holds
      (core.moves (Machine.step_of_perform performed))

/-- The same for an invariant that needs no more than `Core` of the state before. -/
theorem invariant_of_moves (Inv : SpecMachine n V → Prop)
    (start : ∀ kernel, config.boot V WaitList (List (Fin n)) = .ok kernel →
      Inv (Config.start V WaitList (List (Fin n)) kernel))
    (preserved : ∀ machine action next, Core config machine → Inv machine →
      Moves machine action next → Inv next)
    (reachable : (system config V).Reachable machine) : Inv machine :=
  invariant_of_core_moves Inv start
    (fun machine action next core _ => preserved machine action next core) reachable

/-- The program points after a section of a task. -/
theorem called_pc {call : Call V} {task : Fin n} {outcome : Outcome} {kernel : Spec n V}
    {pendsv : Bool} (other : Fin n) : (({ machine.setThread task ((machine.thread task).after call outcome) with
      kernel, pendsv } : SpecMachine n V).thread other).pc =
        if other = task then outcome.pc else (machine.thread other).pc := by
  by_cases same : other = task
  · subst same
    simp [Machine.setThread, Thread.after]
  · simp [Machine.setThread, same]

/-- No step brings a dead task back. -/
theorem Moves.dead_stays {action : Action V} (moves : Moves machine action next)
    {task : Fin n} (died : (machine.kernel.tcb task).state = .dead) :
    (next.kernel.tcb task).state = .dead := by
  cases moves with
  | scheduled scheduled =>
      rcases scheduled.moved.state task with same | ⟨source, _⟩
      · exact same.trans died
      · simp [died, TaskState.runnable, TaskState.isReady] at source
  | isr safe returned contract slots =>
      obtain ⟨flag, effect, _⟩ := contract.effect
      exact (effect.state_of_not_blocked (by simp) (by simp [died])).trans died
  | call isCurrent runs may returned contract =>
      rename_i call caller kernel outcome pendsv
      obtain ⟨flag, effect, _⟩ := contract.effect
      have other : some caller ≠ some task := by
        rintro isCaller
        obtain rfl := Option.some.inj isCaller
        simp [died] at runs
      exact (effect.state_of_not_blocked other (by simp [died])).trans died
  | ret runs returns => cases returns <;> exact died
  | isrRet assigned => exact died
  | dropBox runs user live inBounds => exact died
  | writeBox live stored => exact died
  | forgetGuard runs user held => exact died

end SpecMachine

end Kangaroos
