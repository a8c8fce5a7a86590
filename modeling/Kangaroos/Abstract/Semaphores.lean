import Kangaroos.Abstract.Untouched

/-!
# Semaphores

What the semaphore operations compute, in one equation each, and what a step of the machine
does to a semaphore.
-/

namespace Kangaroos

namespace Spec

variable {n : Nat} {V : Type} {kernel after : Spec n V} {id : Nat} {flag : Bool} {task : Fin n}

/-- `Semaphore::take` consumes a token, or blocks its caller. -/
theorem take_cases (isCurrent : kernel.current = some task)
    (returned : Semaphore.take kernel id = .ok (after, flag)) :
    0 < (kernel.semaphore id).count ∧ after = kernel.setSemaphore id
      { kernel.semaphore id with count := (kernel.semaphore id).count - 1 } ∨
    (kernel.semaphore id).count = 0 ∧ after = kernel.blockAndPush (.semaphore id) task := by
  unfold Semaphore.take at returned
  simp only at returned
  split at returned
  · rename_i available
    cases returned
    exact .inl ⟨available, rfl⟩
  · rename_i none_left
    obtain ⟨blocked, blocks, rest⟩ := Except.ok_of_bind returned
    rw [blockCurrent_eq isCurrent] at blocks
    cases blocks
    cases rest
    exact .inr ⟨by simpa using none_left, rfl⟩

/-- `Semaphore::try_take` consumes a token and says so, or does nothing. -/
theorem tryTake_cases (kernel : Spec n V) (id : Nat) :
    0 < (kernel.semaphore id).count ∧ Semaphore.tryTake kernel id = (kernel.setSemaphore id
      { kernel.semaphore id with count := (kernel.semaphore id).count - 1 }, true) ∨
    (kernel.semaphore id).count = 0 ∧ Semaphore.tryTake kernel id = (kernel, false) := by
  unfold Semaphore.tryTake
  simp only
  split
  · rename_i available
    exact .inl ⟨available, rfl⟩
  · rename_i none_left
    exact .inr ⟨by simpa using none_left, rfl⟩

/-- `Semaphore::give` wakes the most urgent waiter, adds a token, or drops it. -/
theorem give_cases (returned : Semaphore.give kernel id = .ok (after, flag)) :
    (∃ task current, kernel.mostUrgent (kernel.waitHead (.semaphore id)) = some task ∧
      kernel.current = some current ∧ after = kernel.wake (.semaphore id) task ∧
      flag = decide ((kernel.tcb task).priority < (kernel.tcb current).priority)) ∨
    kernel.waitHead (.semaphore id) = [] ∧
      ((kernel.semaphore id).count < (kernel.semaphore id).max ∧ after = kernel.setSemaphore id
        { kernel.semaphore id with count := (kernel.semaphore id).count + 1 } ∨
      (kernel.semaphore id).max ≤ (kernel.semaphore id).count ∧ after = kernel) := by
  unfold Semaphore.give at returned
  simp only at returned
  split at returned
  · exact .inl (wakeHighest_cases returned)
  · rename_i noWaiter
    have empty : kernel.waitHead (.semaphore id) = [] := by
      apply noWaiter_iff.mp
      simpa using noWaiter
    split at returned
    · rename_i below
      cases returned
      exact .inr ⟨empty, .inl ⟨below, rfl⟩⟩
    · rename_i full
      cases returned
      exact .inr ⟨empty, .inr ⟨not_lt.mp full, rfl⟩⟩

end Spec

/-- The sections on a semaphore. -/
theorem Call.uses_semaphore {V : Type} {call : Call V} {id : Nat} (uses : .semaphore id ∈ call.uses) :
    call = .take id ∨ call = .tryTake id ∨ call = .give id := by
  cases call <;> simp_all [Call.uses]

namespace SpecMachine

variable {n : Nat} {V : Type} {config : Config n} {machine next : SpecMachine n V}
  {task : Fin n}

/-- What a step does to a semaphore. -/
inductive SemaphoreStep (id : Nat) (machine : SpecMachine n V) :
    Action V → SpecMachine n V → Prop where
  | passes {action next} (untouched : Untouched (.semaphore id) machine next)
      (apart : ∀ call, action = .call call ∨ action = .isr call → .semaphore id ∉ call.uses) :
      SemaphoreStep id machine action next
  | returns {next : SpecMachine n V} {task : Fin n} (kernel : next.kernel = machine.kernel)
      (pc : ∀ other, (next.thread other).pc = if other = task then .user
        else (machine.thread other).pc) :
      SemaphoreStep id machine .ret next
  | takes {next : SpecMachine n V} {task : Fin n} (isCurrent : machine.kernel.current = some task)
      (runs : (machine.kernel.tcb task).state.isRunning = true)
      (available : 0 < (machine.kernel.semaphore id).count)
      (kernel : next.kernel = machine.kernel.setSemaphore id { machine.kernel.semaphore id with
        count := (machine.kernel.semaphore id).count - 1 })
      (pc : ∀ other, (next.thread other).pc = if other = task then .takeRet id
        else (machine.thread other).pc) :
      SemaphoreStep id machine (.call (.take id)) next
  | parks {next : SpecMachine n V} {task : Fin n} (isCurrent : machine.kernel.current = some task)
      (empty : (machine.kernel.semaphore id).count = 0)
      (kernel : next.kernel = Spec.blockAndPush machine.kernel (.semaphore id) task)
      (pc : ∀ other, (next.thread other).pc = if other = task then .takeRet id
        else (machine.thread other).pc) :
      SemaphoreStep id machine (.call (.take id)) next
  | tries {action next} (asks : action = .call (.tryTake id) ∨ action = .isr (.tryTake id))
      (kernel : next.kernel = (Semaphore.tryTake machine.kernel id).1)
      (pc : ∀ task, (next.thread task).pc = (machine.thread task).pc) :
      SemaphoreStep id machine action next
  | gives {action next flag} (asks : action = .call (.give id) ∨ action = .isr (.give id))
      (returned : Semaphore.give machine.kernel id = .ok (next.kernel, flag))
      (pc : ∀ task, (next.thread task).pc = (machine.thread task).pc) :
      SemaphoreStep id machine action next

/-- Every move is one of the steps. -/
theorem Moves.semaphoreStep (core : Core config machine) {action : Action V} (id : Nat)
    (moves : Moves machine action next) : SemaphoreStep id machine action next := by
  cases moves with
  | scheduled scheduled schedules =>
      refine .passes (.of_scheduled scheduled) ?_
      rintro call (rfl | rfl) <;> simp [Action.schedules] at schedules
  | isr safe returned contract slots =>
      rename_i call kernel outcome pendsv isrSlots
      by_cases uses : .semaphore id ∈ call.uses
      · obtain rfl | rfl | rfl := Call.uses_semaphore uses
        · simp [Call.isrSafe] at safe
        · cases returned
          exact .tries (.inr rfl) rfl fun _ => rfl
        · obtain ⟨⟨after, flag⟩, given, rest⟩ := Except.ok_of_bind returned
          cases rest
          exact .gives (.inr rfl) given fun _ => rfl
      · refine .passes (.of_isr core uses returned contract slots) ?_
        rintro other (isCall | isIsr)
        · cases isCall
        · cases isIsr
          exact uses
  | call isCurrent runs may returned contract =>
      rename_i call task kernel outcome pendsv
      by_cases uses : .semaphore id ∈ call.uses
      · have user : (machine.thread task).pc = .user := by
          obtain rfl | rfl | rfl := Call.uses_semaphore uses <;> simpa [Thread.mayCall] using may
        have back : outcome.pc = .user → ∀ other, (({ machine.setThread task
            ((machine.thread task).after call outcome) with kernel, pendsv } :
            SpecMachine n V).thread other).pc = (machine.thread other).pc := by
          intro isUser other
          rw [called_pc, isUser]
          split
          · rename_i same
            rw [same, user]
          · rfl
        obtain rfl | rfl | rfl := Call.uses_semaphore uses
        · obtain ⟨⟨after, flag⟩, taken, rest⟩ := Except.ok_of_bind returned
          cases rest
          rcases Spec.take_cases isCurrent taken with ⟨available, rfl⟩ | ⟨empty, rfl⟩
          · exact .takes isCurrent runs available rfl called_pc
          · exact .parks isCurrent empty rfl called_pc
        · cases returned
          exact .tries (.inl rfl) rfl (back rfl)
        · obtain ⟨⟨after, flag⟩, given, rest⟩ := Except.ok_of_bind returned
          cases rest
          exact .gives (.inl rfl) given (back rfl)
      · refine .passes (.of_call core uses may returned contract) ?_
        rintro other (isCall | isIsr)
        · cases isCall
          exact uses
        · cases isIsr
  | ret runs returns =>
      rename_i task
      by_cases inside : (machine.thread task).pc.home = some (.semaphore id)
      · cases returns with
        | plain pc =>
            refine @SemaphoreStep.returns _ _ id machine _ task rfl fun other => ?_
            by_cases same : other = task
            · subst same
              simp [Machine.setThread]
            · simp [Machine.setThread, same]
        | guard pc => simp [pc, Pc.home] at inside
        | value pc received => simp [pc, Pc.home] at inside
        | box pc => obtain pc | ⟨pc, _⟩ := pc <;> simp [pc, Pc.home] at inside
      · exact .passes (.of_ret inside returns) (by simp)
  | isrRet assigned => exact .passes (.of_isrRet (by simp)) (by simp)
  | dropBox runs user live inBounds => exact .passes (.of_dropBox (by simp) user) (by simp)
  | writeBox live stored => exact .passes (.of_writeBox (by simp)) (by simp)
  | forgetGuard runs user held => exact .passes (.of_forgetGuard user) (by simp)

end SpecMachine

end Kangaroos
