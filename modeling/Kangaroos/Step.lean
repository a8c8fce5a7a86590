import Kangaroos.Logic.Triple
import Kangaroos.Machine

/-!
# What a step can do

`perform` is a function; a proof about all steps wants its cases. `Step`,
`SwitchStep` and `ReturnStep` list them with their guards, and every invariant is
proved by cases on them.
-/

namespace Kangaroos

namespace Machine

variable {n : Nat} {V Link Head : Type}

/-- What holds of the new record of one task and of the records of the others holds of all. -/
theorem forall_setThread {machine : Machine n V Link Head} {task : Fin n} {thread : Thread}
    {P : Fin n → Thread → Prop} (own : P task thread)
    (others : ∀ other, other ≠ task → P other (machine.thread other)) (other : Fin n) :
    P other ((machine.setThread task thread).thread other) :=
  (Function.forall_update_iff machine.thread P).mpr ⟨own, others⟩ other

/-- The steps of PendSV. -/
inductive SwitchStep (machine : Machine n V Link Head) (sp : Word) : Machine n V Link Head → Prop
  where
  | enter (inactive : machine.handler = .inactive) (pending : machine.pendsv = true) :
      SwitchStep machine sp { machine with pendsv := false, handler := .entered }
  | save {kernel} (entered : machine.handler = .entered)
      (saved : machine.kernel.saveCurrent sp = .ok kernel) :
      SwitchStep machine sp { machine with
        kernel, handler := .pass1 kernel.searchStart kernel.searchStart (none, 255) }
  | visit1 {start task best} (searching : machine.handler = .pass1 start (some task) best) :
      SwitchStep machine sp { machine with
        handler := .pass1 start (machine.kernel.tcb task).allNext
          (machine.kernel.consider task best) }
  | wrap {start best} (searching : machine.handler = .pass1 start none best) :
      SwitchStep machine sp { machine with handler := .pass2 start machine.kernel.allTasks best }
  | visit2 {start task best} (searching : machine.handler = .pass2 start (some task) best)
      (notStart : some task ≠ start) :
      SwitchStep machine sp { machine with
        handler := .pass2 start (machine.kernel.tcb task).allNext
          (machine.kernel.consider task best) }
  | select {start next best task} (searching : machine.handler = .pass2 start next best)
      (atEnd : next = none ∨ next = start) (found : best.1 = some task) :
      SwitchStep machine sp { machine with handler := .selected task }
  | switch {task} (selected : machine.handler = .selected task) :
      SwitchStep machine sp { machine with
        kernel := machine.kernel.setCurrent (some task), handler := .switched task }
  | finish {task kernel} (switched : machine.handler = .switched task)
      (marked : machine.kernel.markRunning task = .ok kernel) :
      SwitchStep machine sp { machine with kernel, handler := .inactive }

theorem endSearch_ok {machine next : Machine n V Link Head} {best : TcbPtr n}
    (returned : machine.endSearch best = .ok next) :
    ∃ task, best = some task ∧ next = { machine with handler := .selected task } := by
  cases best with
  | none => simp [endSearch] at returned
  | some task => exact ⟨task, rfl, by simpa [endSearch] using returned.symm⟩

theorem switchStep_of_pendsvStep {machine next : Machine n V Link Head} {sp : Word}
    (performed : machine.pendsvStep sp = some (.ok next)) : SwitchStep machine sp next := by
  unfold pendsvStep at performed
  split at performed
  · rename_i inactive
    split at performed
    · rename_i pending
      simp only [Option.some.injEq, Except.ok.injEq] at performed
      exact performed ▸ .enter inactive pending
    · simp at performed
  · rename_i entered
    obtain ⟨kernel, saved, rest⟩ := Except.ok_of_bind (Option.some.inj performed)
    simp only [Except.ok.injEq] at rest
    exact rest ▸ .save entered saved
  · rename_i start task best searching
    simp only [Option.some.injEq, Except.ok.injEq] at performed
    exact performed ▸ .visit1 searching
  · rename_i start best searching
    simp only [Option.some.injEq, Except.ok.injEq] at performed
    exact performed ▸ .wrap searching
  · rename_i start task best searching
    split at performed
    · rename_i atStart
      obtain ⟨chosen, found, rfl⟩ := endSearch_ok (Option.some.inj performed)
      exact .select searching (.inr atStart) found
    · rename_i notStart
      simp only [Option.some.injEq, Except.ok.injEq] at performed
      exact performed ▸ .visit2 searching notStart
  · rename_i start best searching
    obtain ⟨chosen, found, rfl⟩ := endSearch_ok (Option.some.inj performed)
    exact .select searching (.inl rfl) found
  · rename_i task selected
    simp only [Option.some.injEq, Except.ok.injEq] at performed
    exact performed ▸ .switch selected
  · rename_i task switched
    obtain ⟨kernel, marked, rest⟩ := Except.ok_of_bind (Option.some.inj performed)
    simp only [Except.ok.injEq] at rest
    exact rest ▸ .finish switched marked

/-- The ways a task returns from a kernel call. -/
inductive ReturnStep (machine : Machine n V Link Head) (task : Fin n) :
    Machine n V Link Head → Prop where
  | plain (pc : (∃ id, (machine.thread task).pc = .takeRet id) ∨
        (∃ id, (machine.thread task).pc = .waitAnyRet id) ∨
        (∃ id, (machine.thread task).pc = .waitAllRet id) ∨
        (∃ id, (machine.thread task).pc = .onceRet id) ∨
        ∃ id, (machine.thread task).pc = .sendRet id) :
      ReturnStep machine task (machine.setThread task { machine.thread task with pc := .user })
  | guard {id} (pc : (machine.thread task).pc = .lockRet id) :
      ReturnStep machine task (machine.setThread task
        { machine.thread task with pc := .user, guards := id :: (machine.thread task).guards })
  | value {id value} (pc : (machine.thread task).pc = .recvRet id)
      (received : machine.kernel.frame (some task) = some value) :
      ReturnStep machine task
        { machine.setThread task { machine.thread task with pc := .user } with
          kernel := Channel.logReturned machine.kernel id (some task) value }
  | box {id slot} (pc : (machine.thread task).pc = .allocRet id slot ∨
        (machine.thread task).pc = .allocBlockingRet id ∧
          Pool.assignedSlot machine.kernel task = .ok slot) :
      ReturnStep machine task
        ((machine.setThread task { machine.thread task with pc := .user }).addBox id slot)

theorem returnStep_of_returnFrom {machine next : Machine n V Link Head} {task : Fin n}
    (performed : machine.returnFrom task = some (.ok next)) : ReturnStep machine task next := by
  unfold returnFrom at performed
  simp only at performed
  split at performed
  · rename_i id pc
    simp only [Option.some.injEq, Except.ok.injEq] at performed
    exact performed ▸ .plain (.inl ⟨id, pc⟩)
  · rename_i id pc
    simp only [Option.some.injEq, Except.ok.injEq] at performed
    exact performed ▸ .plain (.inr (.inr (.inl ⟨id, pc⟩)))
  · rename_i id pc
    simp only [Option.some.injEq, Except.ok.injEq] at performed
    exact performed ▸ .plain (.inr (.inr (.inr (.inl ⟨id, pc⟩))))
  · rename_i id pc
    simp only [Option.some.injEq, Except.ok.injEq] at performed
    exact performed ▸ .plain (.inr (.inr (.inr (.inr ⟨id, pc⟩))))
  · rename_i id pc
    simp only [Option.some.injEq, Except.ok.injEq] at performed
    exact performed ▸ .guard pc
  · rename_i id pc
    obtain ⟨word, _, rest⟩ := Except.ok_of_bind (Option.some.inj performed)
    simp only [Except.ok.injEq] at rest
    exact rest ▸ .plain (.inr (.inl ⟨id, pc⟩))
  · rename_i id pc
    split at performed
    · simp at performed
    · rename_i value received
      simp only [Option.some.injEq, Except.ok.injEq] at performed
      exact performed ▸ .value pc received
  · rename_i id slot pc
    simp only [Option.some.injEq, Except.ok.injEq] at performed
    exact performed ▸ .box (.inl pc)
  · rename_i id pc
    obtain ⟨slot, assigned, rest⟩ := Except.ok_of_bind (Option.some.inj performed)
    simp only [Except.ok.injEq] at rest
    exact rest ▸ .box (.inr ⟨pc, assigned⟩)
  · simp at performed

/-- A task executes its next instruction while no PendSV is pending or active. -/
theorem threadTask_eq_some {machine : Machine n V Link Head} {task : Fin n} :
    machine.threadTask = some task ↔
      machine.handler = .inactive ∧ machine.pendsv = false ∧ machine.kernel.current = some task := by
  unfold threadTask
  split
  · rename_i inactive
    cases machine.pendsv <;> simp [inactive]
  · rename_i active
    simp only [reduceCtorEq, false_iff, not_and]
    exact fun inactive => absurd inactive active

variable [ops : WaitOps n V Link Head]

/-- The steps of the machine, with their guards. -/
inductive Step (idle : Fin n) (machine : Machine n V Link Head) :
    Action V → Machine n V Link Head → Prop where
  | launch {kernel sp} (fresh : machine.kernel.current = none)
      (returned : machine.kernel.svcFirstTaskSp = .ok (kernel, sp)) :
      Step idle machine .launch { machine with kernel }
  | tick {kernel preempt} (returned : machine.kernel.tick = .ok (kernel, preempt)) :
      Step idle machine .tick { machine with kernel, pendsv := machine.pendsv || preempt }
  | pendsv {sp next} (switches : SwitchStep machine sp next) : Step idle machine (.pendsv sp) next
  | isr {call kernel outcome isrSlots} (safe : call.isrSafe = true)
      (returned : call.run none machine.kernel = .ok (kernel, outcome))
      (slots : isrSlots = match outcome.pc with
        | .allocRet id slot => Function.update machine.isrSlots id (slot :: machine.isrSlots id)
        | _ => machine.isrSlots) :
      Step idle machine (.isr call)
        { machine with kernel, pendsv := machine.pendsv || outcome.pend, isrSlots }
  | isrRet {id slot} (assigned : slot ∈ machine.isrSlots id) :
      Step idle machine (.isrRet id slot) { machine.addBox id slot with
        isrSlots := Function.update machine.isrSlots id ((machine.isrSlots id).erase slot) }
  | call {call task kernel outcome} (isTask : machine.threadTask = some task)
      (notIdle : task ≠ idle) (triggered : (machine.thread task).trig = false)
      (may : (machine.thread task).mayCall call = true)
      (returned : call.run (some task) machine.kernel = .ok (kernel, outcome)) :
      Step idle machine (.call call)
        { machine.setThread task ((machine.thread task).after call outcome) with
          kernel, pendsv := outcome.inside }
  | trigger {task} (isTask : machine.threadTask = some task)
      (untriggered : (machine.thread task).trig = true) :
      Step idle machine .trigger
        { machine.setThread task { machine.thread task with trig := false } with pendsv := true }
  | ret {task next} (isTask : machine.threadTask = some task)
      (triggered : (machine.thread task).trig = false) (returns : ReturnStep machine task next) :
      Step idle machine .ret next
  | dropBox {id slot task kernel} (isTask : machine.threadTask = some task) (notIdle : task ≠ idle)
      (triggered : (machine.thread task).trig = false) (user : (machine.thread task).pc = .user)
      (live : slot ∈ machine.boxes id)
      (returned : Pool.destroy machine.kernel id slot = .ok kernel) :
      Step idle machine (.dropBox id slot)
        { (machine.removeBox id slot).setThread task { machine.thread task with
            frames := .boxDrop id slot :: (machine.thread task).frames } with kernel }
  | writeBox {id slot value task kernel} (isTask : machine.threadTask = some task)
      (notIdle : task ≠ idle) (triggered : (machine.thread task).trig = false)
      (user : (machine.thread task).pc = .user) (live : slot ∈ machine.boxes id)
      (returned : Pool.write machine.kernel id slot value = .ok kernel) :
      Step idle machine (.writeBox id slot value) { machine with kernel }
  | forgetGuard {id task} (isTask : machine.threadTask = some task) (notIdle : task ≠ idle)
      (triggered : (machine.thread task).trig = false) (user : (machine.thread task).pc = .user)
      (held : id ∈ (machine.thread task).guards) :
      Step idle machine (.forgetGuard id) (machine.setThread task
        { machine.thread task with guards := (machine.thread task).guards.erase id })

/-- Every step the machine performs is one of the cases. -/
theorem step_of_perform {idle : Fin n} {machine next : Machine n V Link Head} {action : Action V}
    (performed : machine.perform idle action = some (.ok next)) : Step idle machine action next := by
  unfold perform at performed
  cases action with
  | launch =>
      simp only at performed
      split at performed
      · rename_i fresh
        obtain ⟨⟨kernel, sp⟩, returned, rest⟩ := Except.ok_of_bind (Option.some.inj performed)
        simp only [Except.ok.injEq] at rest
        exact rest ▸ .launch fresh returned
      · simp at performed
  | tick =>
      obtain ⟨⟨kernel, preempt⟩, returned, rest⟩ := Except.ok_of_bind (Option.some.inj performed)
      simp only [Except.ok.injEq] at rest
      exact rest ▸ .tick returned
  | pendsv sp => exact .pendsv (switchStep_of_pendsvStep performed)
  | isr call =>
      simp only at performed
      split at performed
      · rename_i safe
        obtain ⟨⟨kernel, outcome⟩, returned, rest⟩ := Except.ok_of_bind (Option.some.inj performed)
        simp only [Except.ok.injEq] at rest
        exact rest ▸ .isr safe returned rfl
      · simp at performed
  | isrRet id slot =>
      simp only at performed
      split at performed
      · rename_i assigned
        simp only [Option.some.injEq, Except.ok.injEq] at performed
        exact performed ▸ .isrRet assigned
      · simp at performed
  | call call =>
      simp only at performed
      split at performed
      · simp at performed
      · rename_i task isTask
        split at performed
        · rename_i guard
          obtain ⟨⟨kernel, outcome⟩, returned, rest⟩ := Except.ok_of_bind (Option.some.inj performed)
          simp only [Except.ok.injEq] at rest
          exact rest ▸ .call isTask guard.1 guard.2.1 guard.2.2 returned
        · simp at performed
  | trigger =>
      simp only at performed
      split at performed
      · simp at performed
      · rename_i task isTask
        split at performed
        · rename_i untriggered
          simp only [Option.some.injEq, Except.ok.injEq] at performed
          exact performed ▸ .trigger isTask untriggered
        · simp at performed
  | ret =>
      simp only at performed
      split at performed
      · simp at performed
      · rename_i task isTask
        split at performed
        · simp at performed
        · rename_i triggered
          exact .ret isTask (by simpa using triggered) (returnStep_of_returnFrom performed)
  | dropBox id slot =>
      simp only at performed
      split at performed
      · simp at performed
      · rename_i task isTask
        split at performed
        · rename_i guard
          obtain ⟨kernel, returned, rest⟩ := Except.ok_of_bind (Option.some.inj performed)
          simp only [Except.ok.injEq] at rest
          exact rest ▸ .dropBox isTask guard.1 guard.2.1 guard.2.2.1 guard.2.2.2 returned
        · simp at performed
  | writeBox id slot value =>
      simp only at performed
      split at performed
      · simp at performed
      · rename_i task isTask
        split at performed
        · rename_i guard
          obtain ⟨kernel, returned, rest⟩ := Except.ok_of_bind (Option.some.inj performed)
          simp only [Except.ok.injEq] at rest
          exact rest ▸ .writeBox isTask guard.1 guard.2.1 guard.2.2.1 guard.2.2.2 returned
        · simp at performed
  | forgetGuard id =>
      simp only at performed
      split at performed
      · simp at performed
      · rename_i task isTask
        split at performed
        · rename_i guard
          simp only [Option.some.injEq, Except.ok.injEq] at performed
          exact performed ▸ .forgetGuard isTask guard.1 guard.2.1 guard.2.2.1 guard.2.2.2
        · simp at performed

/-- The steps that fault, with their guards. -/
inductive Faults (idle : Fin n) (machine : Machine n V Link Head) : Action V → Fault → Prop where
  | launch {fault} (fresh : machine.kernel.current = none)
      (returned : machine.kernel.svcFirstTaskSp = .error fault) : Faults idle machine .launch fault
  | tick {fault} (returned : machine.kernel.tick = .error fault) : Faults idle machine .tick fault
  | pendsv {sp fault} (switches : machine.pendsvStep sp = some (.error fault)) :
      Faults idle machine (.pendsv sp) fault
  | isr {call fault} (safe : call.isrSafe = true)
      (returned : call.run none machine.kernel = .error fault) :
      Faults idle machine (.isr call) fault
  | call {call task fault} (isTask : machine.threadTask = some task)
      (triggered : (machine.thread task).trig = false)
      (may : (machine.thread task).mayCall call = true)
      (returned : call.run (some task) machine.kernel = .error fault) :
      Faults idle machine (.call call) fault
  | ret {task fault} (isTask : machine.threadTask = some task)
      (triggered : (machine.thread task).trig = false)
      (returned : machine.returnFrom task = some (.error fault)) : Faults idle machine .ret fault
  | dropBox {id slot fault} (live : slot ∈ machine.boxes id)
      (returned : Pool.destroy machine.kernel id slot = .error fault) :
      Faults idle machine (.dropBox id slot) fault
  | writeBox {id slot value fault} (live : slot ∈ machine.boxes id)
      (returned : Pool.write machine.kernel id slot value = .error fault) :
      Faults idle machine (.writeBox id slot value) fault

/-- Every step that faults is one of the cases. -/
theorem faults_of_perform {idle : Fin n} {machine : Machine n V Link Head} {action : Action V}
    {fault : Fault} (performed : machine.perform idle action = some (.error fault)) :
    Faults idle machine action fault := by
  unfold perform at performed
  cases action with
  | launch =>
      obtain ⟨fresh, stops⟩ := Option.ite_none_right_eq_some.mp performed
      exact .launch fresh (Except.error_of_bind_ok (Option.some.inj stops))
  | tick => exact .tick (Except.error_of_bind_ok (Option.some.inj performed))
  | pendsv sp => exact .pendsv performed
  | isr call =>
      obtain ⟨safe, stops⟩ := Option.ite_none_right_eq_some.mp performed
      exact .isr safe (Except.error_of_bind_ok (Option.some.inj stops))
  | isrRet id slot =>
      obtain ⟨_, returns⟩ := Option.ite_none_right_eq_some.mp performed
      cases returns
  | call call =>
      simp only at performed
      split at performed
      · cases performed
      · rename_i task isTask
        obtain ⟨guard, stops⟩ := Option.ite_none_right_eq_some.mp performed
        exact .call isTask guard.2.1 guard.2.2 (Except.error_of_bind_ok (Option.some.inj stops))
  | trigger =>
      simp only at performed
      split at performed
      · cases performed
      · obtain ⟨_, returns⟩ := Option.ite_none_right_eq_some.mp performed
        cases returns
  | ret =>
      simp only at performed
      split at performed
      · cases performed
      · rename_i task isTask
        obtain ⟨triggered, returned⟩ := Option.ite_none_left_eq_some.mp performed
        exact .ret isTask (by simpa using triggered) returned
  | dropBox id slot =>
      simp only at performed
      split at performed
      · cases performed
      · obtain ⟨guard, stops⟩ := Option.ite_none_right_eq_some.mp performed
        exact .dropBox guard.2.2.2 (Except.error_of_bind_ok (Option.some.inj stops))
  | writeBox id slot value =>
      simp only at performed
      split at performed
      · cases performed
      · obtain ⟨guard, stops⟩ := Option.ite_none_right_eq_some.mp performed
        exact .writeBox guard.2.2.2 (Except.error_of_bind_ok (Option.some.inj stops))
  | forgetGuard id =>
      simp only at performed
      split at performed
      · cases performed
      · obtain ⟨_, returns⟩ := Option.ite_none_right_eq_some.mp performed
        cases returns

/-- What every allowed step preserves holds after a sequence of them. -/
theorem of_performWithin {idle : Fin n} {allowed : Machine n V Link Head → Action V → Bool}
    (Inv : Machine n V Link Head → Prop)
    (preserved : ∀ machine action next, Inv machine → allowed machine action = true →
      machine.perform idle action = some (.ok next) → Inv next)
    {machine next : Machine n V Link Head} {actions : List (Action V)} (holds : Inv machine)
    (performed : performWithin allowed idle machine actions = some (.ok next)) : Inv next := by
  induction actions generalizing machine with
  | nil =>
      obtain rfl : machine = next := by simpa [performWithin] using performed
      exact holds
  | cons action rest ih =>
      rw [performWithin] at performed
      split at performed
      · rename_i isAllowed
        split at performed
        · rename_i middle first
          exact ih (preserved _ _ _ holds isAllowed first) performed
        · rename_i stuck
          exact absurd performed (stuck next)
      · simp at performed

/-- A sequence of actions leads from a reachable state to a reachable state. -/
theorem reachable_of_performAll {config : Config n} {machine next : Machine n V Link Head}
    {actions : List (Action V)} (reachable : (config.system V Link Head).Reachable machine)
    (performed : performAll config.idle machine actions = some (.ok next)) :
    (config.system V Link Head).Reachable next :=
  of_performWithin _ (fun _ _ _ reached _ step => .step reached step) reachable performed

/-- A step that passes a check returns. -/
theorem exists_of_performPasses {idle : Fin n} {machine : Machine n V Link Head} {action : Action V}
    {check : Machine n V Link Head → Bool}
    (passes : machine.performPasses idle action check = true) :
    ∃ next, machine.perform idle action = some (.ok next) ∧ check next = true := by
  unfold performPasses at passes
  split at passes
  · rename_i next performed
    exact ⟨next, performed, passes⟩
  · cases passes

/-- An execution whose steps are allowed and that passes a check ends in a state some run
of allowed steps reaches, and that passes the check. -/
theorem exists_of_checkWithin {config : Config n}
    {Allowed : Machine n V Link Head → Action V → Prop}
    {allowed : Machine n V Link Head → Action V → Bool}
    (sound : ∀ machine action, (config.system V Link Head).Reachable machine →
      allowed machine action = true → Allowed machine action)
    (actions : List (Action V)) (check : Machine n V Link Head → Bool)
    (passes : config.passesWithin V Link Head allowed actions check = true) :
    ∃ machine, ((config.system V Link Head).restrict Allowed).Reachable machine ∧
      check machine = true := by
  unfold Config.passesWithin Config.execute at passes
  split at passes
  · rename_i machine executed
    split at executed
    · rename_i kernel boot
      refine ⟨machine, of_performWithin _ ?_ (.initial ⟨kernel, boot, rfl⟩) executed, passes⟩
      intro state action next reached isAllowed step
      exact .step reached ⟨sound state action (.of_restrict reached) isAllowed, step⟩
    · simp at executed
  · simp at passes

/-- An execution that passes a check ends in a reachable state that does. -/
theorem exists_of_check {config : Config n} (actions : List (Action V))
    (check : Machine n V Link Head → Bool)
    (passes : config.passes V Link Head actions check = true) :
    ∃ machine, (config.system V Link Head).Reachable machine ∧ check machine = true := by
  have free : ∀ (machine : Machine n V Link Head) (action : Action V),
      (config.system V Link Head).Reachable machine → true = true →
      (fun _ _ => True : Machine n V Link Head → Action V → Prop) machine action :=
    fun _ _ _ _ => trivial
  obtain ⟨machine, reachable, checked⟩ := exists_of_checkWithin free actions check passes
  exact ⟨machine, .of_restrict reachable, checked⟩

end Machine

end Kangaroos
