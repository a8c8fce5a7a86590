import Kangaroos.Abstract.Condvars
import Kangaroos.Abstract.Untouched

/-!
# One-time initialisation

What the two sections of `call_once` do: the first decides what its caller is, the second ends
the initialisation and empties the list.
-/

namespace Kangaroos

/-- The sections on a `Once`. -/
theorem Call.uses_once {V : Type} {call : Call V} {id : Nat} (uses : .once id ∈ call.uses) :
    call = .callOnce id ∨ call = .finishOnce id := by
  cases call <;> simp_all [Call.uses]

namespace Spec

variable {n : Nat} {V : Type} {kernel after : Spec n V} {id : Nat} {task : Fin n} {flag pend : Bool}
  {list : WaitList} {fuel : Nat}

/-- The state of the `Once` alone decides what its caller is. -/
theorem enter_cases {role : Once.Role} (isCurrent : kernel.current = some task)
    (returned : Once.enter kernel id = .ok (after, role)) :
    kernel.once id = .done ∧ role = .bystander ∧ after = kernel ∨
    kernel.once id = .unstarted ∧ role = .initializer ∧ after = kernel.setOnce id .running ∨
    kernel.once id = .running ∧ role = .waiter ∧ after = kernel.blockAndPush (.once id) task := by
  unfold Once.enter at returned
  split at returned
  · rename_i done
    cases returned
    exact .inl ⟨done, rfl, rfl⟩
  · rename_i unstarted
    cases returned
    exact .inr (.inl ⟨unstarted, rfl, rfl⟩)
  · rename_i running
    obtain ⟨parked, blocks, rest⟩ := Except.ok_of_bind returned
    rw [blockCurrent_eq isCurrent] at blocks
    cases blocks
    cases rest
    exact .inr (.inr ⟨running, rfl, rfl⟩)

/-- Emptying a list writes no static. -/
theorem drain_toStatics (returned : Kernel.drain list fuel (kernel, pend) = .ok (after, flag)) :
    after.toStatics = kernel.toStatics := by
  induction fuel generalizing kernel pend with
  | zero =>
      unfold Kernel.drain at returned
      split at returned
      · cases returned
        rfl
      · cases returned
  | succ fuel ih =>
      unfold Kernel.drain at returned
      split at returned
      · cases returned
        rfl
      · obtain ⟨⟨middle, urgent⟩, wakes, rest⟩ := Except.ok_of_bind returned
        obtain ⟨task, current, _, _, rfl, _⟩ := wakeHighest_cases wakes
        exact (ih rest).trans (wake_toStatics _ _ _)

/-- The end of the initialisation releases everyone. -/
theorem finish_released (returned : Once.finish kernel id = .ok (after, flag)) :
    after.once id = .done ∧ after.waitHead (.once id) = [] ∧
      ∀ task ∈ kernel.waitHead (.once id), (after.tcb task).state.isReady = true := by
  obtain ⟨empty, released, _⟩ := drain_released returned
  refine ⟨?_, empty, fun task member => released.ready task member (by simp [empty])⟩
  rw [drain_toStatics returned]
  simp

/-- It runs into no fault. -/
theorem finish_ok (wf : WellFormed kernel none) (launched : kernel.current ≠ none) :
    ∃ after flag, Once.finish kernel id = .ok (after, flag) :=
  drain_ok (fun _ => launched) (wf.length_le _)

end Spec

end Kangaroos
