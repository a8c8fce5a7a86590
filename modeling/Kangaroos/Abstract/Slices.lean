import Kangaroos.Abstract.Events
import Kangaroos.Abstract.Onces
import Kangaroos.Abstract.Variants

/-!
# Calls and the slice of the caller

`yield_now` is the one call that writes the slice of its caller. After any other call the
caller runs with the slice it had, or it no longer runs.
-/

namespace Kangaroos

namespace Spec

variable {n : Nat} {V : Type} {kernel after : Spec n V} {task : Fin n} {id : Nat}

/-- The state of a task is what it was, or it does not run. -/
def KeepsSlice (kernel after : Spec n V) (task : Fin n) : Prop :=
  (after.tcb task).state = (kernel.tcb task).state ∨ (after.tcb task).state.isRunning = false

theorem KeepsSlice.of_blocked (blocked : (after.tcb task).state.isBlocked = true) :
    KeepsSlice kernel after task := by
  right
  cases state : (after.tcb task).state with
  | running slice =>
      rw [state] at blocked
      cases blocked
  | _ => rfl

/-- The rest of a section does not make its blocked caller run. -/
theorem Sound.stays_stopped {scope : Prim → Prop} {on : WaitList → Prop} {result : Spec n V × Bool}
    (sound : Sound scope on none kernel result)
    (stopped : (kernel.tcb task).state.isRunning = false) :
    (result.1.tcb task).state.isRunning = false := by
  rcases sound.2.state task (by simp) with same | ⟨_, slice, ready⟩
  · rw [same]
    exact stopped
  · rw [ready]
    rfl

/-- A caller that waits on a condvar has stopped. -/
theorem wait_stops {condvar mutex : Nat} {flag : Bool} (wf : WellFormed kernel none)
    (isCurrent : kernel.current = some task)
    (running : (kernel.tcb task).state.isRunning = true)
    (returned : Condvar.wait kernel condvar mutex = .ok (after, flag)) :
    (after.tcb task).state.isRunning = false := by
  obtain ⟨parked, blocks, unlocks⟩ := Except.ok_of_bind returned
  have caller : CallerRuns kernel.current kernel := by
    intro caller isCaller
    obtain rfl : task = caller := Option.some.inj (isCurrent.symm.trans isCaller)
    exact running
  have parks : Sound (fun _ => True) (fun _ => True) kernel.current kernel (parked, true) :=
    ((blockCurrent_sound wf caller rfl trivial trivial).of_ok blocks).1
  have wfParked : WellFormed parked none := parks.1
  rw [blockCurrent_eq isCurrent] at blocks
  cases blocks
  have sound : Sound (fun _ => True) (fun _ => True) none
      (kernel.blockAndPush (.condvar condvar) task) (after, flag) :=
    (unlockInternal_sound wfParked (by simp) trivial).of_ok unlocks
  exact sound.stays_stopped (by simp [blockAndPush])

/-- `call_once` changes the state of its caller only to park it. -/
theorem enter_keepsSlice {role : Once.Role} (isCurrent : kernel.current = some task)
    (returned : Once.enter kernel id = .ok (after, role)) : KeepsSlice kernel after task := by
  obtain ⟨_, _, rfl⟩ | ⟨_, _, rfl⟩ | ⟨_, _, rfl⟩ := enter_cases isCurrent returned
  · exact .inl rfl
  · exact .inl rfl
  · exact .of_blocked (blockAndPush_isBlocked _ _ _)

end Spec

namespace Call

variable {n : Nat} {V : Type} {kernel after : Spec n V} {task : Fin n}

/-- A closure that could run in an interrupt handler leaves its caller as it was. -/
theorem keepsSlice_of_sound {γ : Type} {closure : Exec γ} {result : γ}
    (shape : γ → Spec n V × Bool)
    (sound : Triple closure (fun result => Spec.Sound (fun _ => True) (fun _ => True) none kernel
      (shape result)) Benign)
    (running : (kernel.tcb task).state.isRunning = true) (ran : closure = .ok result) :
    Spec.KeepsSlice kernel (shape result).1 task :=
  .inl ((sound.of_ok ran).state_eq running)

/-- After a call other than `yield_now` the caller has the slice it had, or it has stopped. -/
theorem keepsSlice {call : Call V} {outcome : Outcome} (notYield : call ≠ yieldNow)
    (wf : Spec.WellFormed kernel none) (isCurrent : kernel.current = some task)
    (running : (kernel.tcb task).state.isRunning = true)
    (flows : ∀ id, ∃ flight contents, Spec.Flows kernel id flight contents)
    (stocked : ∀ id, ∃ free, Spec.Stocked kernel id free ∧
      ∀ slot ∈ free, slot.val < (kernel.pool id).capacity)
    (returned : call.run (some task) kernel = .ok (after, outcome)) :
    Spec.KeepsSlice kernel after task := by
  have nobody := Spec.callerRuns_none kernel
  have waits : ∀ variant, call.variant = some variant → Spec.KeepsSlice kernel after task := by
    intro variant isVariant
    obtain ⟨_, _, _, _, ran, _, _, _, ends⟩ :=
      agreesWith_variant isVariant wf isCurrent running flows stocked
    cases returned.symm.trans ran
    rcases ends with ⟨blocked, _⟩ | ⟨same, _⟩
    · exact .of_blocked blocked
    · exact .inl same
  cases call with
  | take | lock | send | recv | allocBlocking => exact waits _ rfl
  | yieldNow => exact absurd rfl notYield
  | tryTake id =>
      cases returned
      have sound : Spec.Sound (fun _ => True) (fun _ => True) none kernel
          ((Semaphore.tryTake kernel id).1, false) := Spec.tryTake_sound wf trivial
      exact .inl (sound.state_eq running)
  | tryLock id =>
      cases returned
      have sound : Spec.Sound (fun _ => True) (fun _ => True) none kernel
          ((Mutex.tryLock kernel id).1, false) := Spec.tryLock_sound wf trivial
      exact .inl (sound.state_eq running)
  | clear id mask =>
      cases returned
      exact .inl rfl
  | sleep duration =>
      cases returned
      exact .inl rfl
  | give id =>
      obtain ⟨result, ran, rest⟩ := Except.ok_of_bind returned
      cases rest
      exact keepsSlice_of_sound (fun result => result) (Spec.give_sound wf nobody trivial) running ran
  | dropGuard id =>
      obtain ⟨result, ran, rest⟩ := Except.ok_of_bind returned
      cases rest
      exact keepsSlice_of_sound (fun result => result)
        (Spec.unlockInternal_sound wf (by simp) trivial) running ran
  | wait condvar mutex =>
      obtain ⟨result, ran, rest⟩ := Except.ok_of_bind returned
      cases rest
      exact .inr (Spec.wait_stops wf isCurrent running ran)
  | notifyOne id =>
      obtain ⟨result, ran, rest⟩ := Except.ok_of_bind returned
      cases rest
      exact keepsSlice_of_sound (fun result => result) (Spec.notifyOne_sound wf nobody trivial)
        running ran
  | notifyAll id =>
      obtain ⟨result, ran, rest⟩ := Except.ok_of_bind returned
      cases rest
      exact keepsSlice_of_sound (fun result => result) (Spec.notifyAll_sound wf nobody trivial)
        running ran
  | set id mask =>
      obtain ⟨result, ran, rest⟩ := Except.ok_of_bind returned
      cases rest
      exact keepsSlice_of_sound (fun result => (result.1, result.2.2))
        (Spec.set_sound wf nobody trivial) running ran
  | setFromIsr id mask trigger =>
      obtain ⟨result, ran, rest⟩ := Except.ok_of_bind returned
      cases rest
      exact keepsSlice_of_sound (fun result => result) (Spec.setFromIsr_sound wf nobody trivial)
        running ran
  | waitAny id mask =>
      obtain ⟨result, ran, rest⟩ := Except.ok_of_bind returned
      cases rest
      rcases Spec.waitAny_cases isCurrent ran with ⟨_, _, same⟩ | ⟨_, parked⟩
      · left
        rw [same]
        simp
      · rw [parked]
        exact .of_blocked (Spec.blockAndPush_isBlocked _ _ _)
  | waitAll id mask =>
      obtain ⟨result, ran, rest⟩ := Except.ok_of_bind returned
      cases rest
      rcases Spec.waitAll_cases isCurrent ran with ⟨_, same⟩ | ⟨_, parked⟩
      · left
        rw [same]
        rfl
      · rw [parked]
        exact .of_blocked (Spec.blockAndPush_isBlocked _ _ _)
  | callOnce id =>
      obtain ⟨result, ran, rest⟩ := Except.ok_of_bind returned
      cases rest
      exact Spec.enter_keepsSlice isCurrent ran
  | finishOnce id =>
      obtain ⟨result, ran, rest⟩ := Except.ok_of_bind returned
      cases rest
      exact keepsSlice_of_sound (fun result => result) (Spec.finish_sound wf nobody trivial)
        running ran
  | trySend id value =>
      obtain ⟨result, ran, rest⟩ := Except.ok_of_bind returned
      cases rest
      exact keepsSlice_of_sound (fun result => (result.1, result.2.1))
        (Spec.trySendImpl_sound wf nobody trivial) running ran
  | tryRecv id =>
      obtain ⟨result, ran, rest⟩ := Except.ok_of_bind returned
      cases rest
      exact keepsSlice_of_sound (fun result => (result.1, result.2.1))
        (Spec.tryRecvImpl_sound wf nobody trivial) running ran
  | alloc id value =>
      obtain ⟨result, ran, rest⟩ := Except.ok_of_bind returned
      cases rest
      exact keepsSlice_of_sound (fun result => (result.1, false)) (Spec.alloc_sound wf trivial)
        running ran
  | releaseBox id slot =>
      obtain ⟨result, ran, rest⟩ := Except.ok_of_bind returned
      cases rest
      exact keepsSlice_of_sound (fun result => result) (Spec.release_sound wf nobody trivial)
        running ran
  | sleepUntil deadline =>
      obtain ⟨result, ran, rest⟩ := Except.ok_of_bind returned
      cases rest
      simp only [Kernel.sleepUntil, isCurrent, deref_some, Except.ok_bind, Except.ok.injEq] at ran
      subst ran
      exact .inr (by simp)
  | exit =>
      obtain ⟨result, ran, rest⟩ := Except.ok_of_bind returned
      cases rest
      simp only [Kernel.exit, isCurrent, deref_some, Except.ok_bind, Except.ok.injEq] at ran
      subst ran
      exact .inr (by simp)

end Call

end Kangaroos
