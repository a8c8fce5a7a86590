import Kangaroos.Abstract.Mutexes

/-!
# Condition variables

What the notifies do to the list of a condvar: `notify_one` takes off the first of its most
urgent waiters, `notify_all` takes off all of them, and whoever is taken off is ready.
-/

namespace Kangaroos

/-- A section that notifies a condvar. -/
def Call.notifies {V : Type} : Call V → Nat → Prop
  | .notifyOne id, condvar | .notifyAll id, condvar => id = condvar
  | _, _ => False

/-- The sections that change the list of a condvar. -/
theorem Call.uses_condvar {V : Type} {call : Call V} {id : Nat} (uses : .condvar id ∈ call.uses) :
    call = .notifyOne id ∨ call = .notifyAll id ∨ ∃ mutex, call = .wait id mutex := by
  cases call <;> simp_all [Call.uses]

namespace Spec

variable {n : Nat} {V : Type} {kernel after : Spec n V} {id : Nat} {flag pend : Bool}
  {list : WaitList} {fuel : Nat}

/-- Tasks are taken off a list, and are ready. -/
structure Released (list : WaitList) (kernel after : Spec n V) : Prop where
  heads : ∀ other, other ≠ list → after.waitHead other = kernel.waitHead other
  shrinks : ∀ task, task ∈ after.waitHead list → task ∈ kernel.waitHead list
  ready : ∀ task, task ∈ kernel.waitHead list → task ∉ after.waitHead list →
    (after.tcb task).state.isReady = true

/-- A woken task is released. -/
theorem Released.wake {task : Fin n} : Released list kernel (kernel.wake list task) where
  heads other different := by
    rw [wake_waitHead, Function.update_of_ne different]
  shrinks other member := by
    rw [wake_waitHead, Function.update_self] at member
    exact List.mem_of_mem_erase member
  ready other member left := by
    rw [wake_waitHead, Function.update_self] at left
    by_cases same : other = task
    · subst same
      simp [Spec.wake]
    · exact absurd ((List.mem_erase_of_ne same).mpr member) left

/-- An empty list has nobody to release. -/
theorem Released.of_empty (empty : kernel.waitHead list = []) : Released list kernel kernel where
  heads _ _ := rfl
  shrinks _ member := member
  ready task member := by simp [empty] at member

/-- Emptying a list releases all its tasks. -/
theorem drain_released (returned : Kernel.drain list fuel (kernel, pend) = .ok (after, flag)) :
    after.waitHead list = [] ∧ Released list kernel after ∧
      ∀ task, task ∉ kernel.waitHead list → after.tcb task = kernel.tcb task := by
  induction fuel generalizing kernel pend with
  | zero =>
      unfold Kernel.drain at returned
      split at returned
      · rename_i empty
        cases returned
        rw [noWaiter_iff] at empty
        exact ⟨empty, .of_empty empty, fun _ _ => rfl⟩
      · simp at returned
  | succ fuel ih =>
      unfold Kernel.drain at returned
      split at returned
      · rename_i empty
        cases returned
        rw [noWaiter_iff] at empty
        exact ⟨empty, .of_empty empty, fun _ _ => rfl⟩
      · obtain ⟨⟨middle, urgent⟩, wakes, rest⟩ := Except.ok_of_bind returned
        obtain ⟨task, current, chosen, _, rfl, _⟩ := wakeHighest_cases wakes
        obtain ⟨empty, released, untouched⟩ := ih rest
        have head : (kernel.wake list task).waitHead list = (kernel.waitHead list).erase task := by
          rw [wake_waitHead, Function.update_self]
        refine ⟨empty, ⟨?_, ?_, ?_⟩, ?_⟩
        · intro other different
          rw [released.heads other different, Released.wake.heads other different]
        · intro other member
          simp [empty] at member
        · intro other member left
          by_cases listed : other ∈ (kernel.wake list task).waitHead list
          · exact released.ready other listed left
          · rw [untouched other listed]
            exact Released.wake.ready other member listed
        · intro other outside
          have notTask : other ≠ task := by
            rintro rfl
            exact outside (mem_of_mostUrgent chosen)
          rw [untouched other (by rw [head]; exact fun member => outside (List.mem_of_mem_erase member))]
          simp [Spec.wake, notTask]

/-- A list with a waiter has one to wake. -/
theorem wakeHighest_ok (nonempty : kernel.waitHead list ≠ []) (launched : kernel.current ≠ none) :
    ∃ task ∈ kernel.waitHead list, ∃ urgent,
      kernel.wakeHighest list = .ok (kernel.wake list task, urgent) := by
  obtain ⟨task, member, pops⟩ := pop_eq nonempty
  obtain ⟨urgent, unblocks⟩ := unblock_eq (kernel.remove list task) launched task
  refine ⟨task, member, urgent, ?_⟩
  simp only [Kernel.wakeHighest, pops, Except.ok_bind, deref_some]
  exact unblocks

/-- Emptying a list ends when there is fuel for all of it. -/
theorem drain_ok (launched : kernel.waitHead list ≠ [] → kernel.current ≠ none)
    (enough : (kernel.waitHead list).length ≤ fuel) :
    ∃ after flag, Kernel.drain list fuel (kernel, pend) = .ok (after, flag) := by
  induction fuel generalizing kernel pend with
  | zero =>
      have empty : kernel.noWaiter list = true :=
        noWaiter_iff.mpr (List.length_eq_zero_iff.mp (Nat.le_zero.mp enough))
      simp only [Kernel.drain, empty, if_true]
      exact ⟨kernel, pend, rfl⟩
  | succ fuel ih =>
      unfold Kernel.drain
      split
      · exact ⟨kernel, pend, rfl⟩
      · rename_i waiting
        have nonempty : kernel.waitHead list ≠ [] := by simpa using waiting
        obtain ⟨task, member, urgent, wakes⟩ := wakeHighest_ok nonempty (launched nonempty)
        simp only [wakes, Except.ok_bind]
        refine ih (fun _ => launched nonempty) ?_
        rw [wake_waitHead, Function.update_self, List.length_erase_of_mem member]
        omega

/-- `notify_one` does nothing, or wakes the first of the most urgent waiters. -/
theorem notifyOne_cases (returned : Condvar.notifyOne kernel id = .ok (after, flag)) :
    kernel.waitHead (.condvar id) = [] ∧ after = kernel ∨
    ∃ task, kernel.mostUrgent (kernel.waitHead (.condvar id)) = some task ∧
      after = kernel.wake (.condvar id) task := by
  unfold Condvar.notifyOne at returned
  split at returned
  · rename_i empty
    cases returned
    exact .inl ⟨noWaiter_iff.mp empty, rfl⟩
  · obtain ⟨task, _, chosen, _, woken, _⟩ := wakeHighest_cases returned
    exact .inr ⟨task, chosen, woken⟩

/-- A notify ends. -/
theorem notify_ok (wf : WellFormed kernel none)
    (launched : kernel.waitHead (.condvar id) ≠ [] → kernel.current ≠ none) :
    (∃ after flag, Condvar.notifyOne kernel id = .ok (after, flag)) ∧
      ∃ after flag, Condvar.notifyAll kernel id = .ok (after, flag) := by
  refine ⟨?_, drain_ok launched (wf.length_le _)⟩
  unfold Condvar.notifyOne
  split
  · exact ⟨kernel, false, rfl⟩
  · rename_i waiting
    have nonempty : kernel.waitHead (.condvar id) ≠ [] := by simpa using waiting
    obtain ⟨task, _, urgent, wakes⟩ := wakeHighest_ok nonempty (launched nonempty)
    exact ⟨_, urgent, wakes⟩

/-- A notify releases tasks of its condvar. -/
theorem released_of_notifies {call : Call V} {who : TcbPtr n} {outcome : Outcome}
    (notifies : call.notifies id) (returned : call.run who kernel = .ok (after, outcome)) :
    Released (.condvar id) kernel after := by
  cases call with
  | notifyOne condvar =>
      obtain rfl : condvar = id := notifies
      obtain ⟨⟨woken, flag⟩, notified, rest⟩ := Except.ok_of_bind returned
      cases rest
      rcases notifyOne_cases notified with ⟨_, rfl⟩ | ⟨task, _, rfl⟩
      · exact ⟨fun _ _ => rfl, fun _ member => member, fun _ member left => absurd member left⟩
      · exact .wake
  | notifyAll condvar =>
      obtain rfl : condvar = id := notifies
      obtain ⟨⟨woken, flag⟩, notified, rest⟩ := Except.ok_of_bind returned
      cases rest
      exact (drain_released notified).2.1
  | _ => exact notifies.elim

/-- `Condvar::wait` puts its caller on the list and changes the list of no other condvar. -/
theorem wait_heads {condvar : Nat} {current : Fin n} (isCurrent : kernel.current = some current)
    (returned : Condvar.wait kernel condvar id = .ok (after, flag)) (other : Nat) :
    after.waitHead (.condvar other) = if other = condvar
      then current :: kernel.waitHead (.condvar condvar) else kernel.waitHead (.condvar other) := by
  obtain ⟨caller, isCaller, unlocks⟩ := wait_cases returned
  obtain rfl : current = caller := Option.some.inj (isCurrent.symm.trans isCaller)
  have kept : after.waitHead (.condvar other) =
      (kernel.blockAndPush (.condvar condvar) current).waitHead (.condvar other) := by
    obtain ⟨owner, _, outcome⟩ := unlockInternal_cases unlocks
    rcases outcome with ⟨_, rfl, _⟩ | ⟨waiter, _, _, _, _, rfl, _⟩
    · rfl
    · simp [handOver]
  rw [kept]
  by_cases same : other = condvar
  · subst same
    simp [blockAndPush]
  · simp [blockAndPush, same]

end Spec

end Kangaroos
