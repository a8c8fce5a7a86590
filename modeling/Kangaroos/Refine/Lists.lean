import Kangaroos.Refine.WaitChain

/-!
# The list loops simulate the list operations

`wait_list_pop_highest` and the scans of `EventGroup::set` follow links; their
abstract counterparts choose from a list. Each loop ends because it visits the
nodes of one chain once.
-/

namespace Kangaroos

namespace Rep

variable {n : Nat} {V : Type} {kernel : Rtos n V} {spec : Spec n V} {list : WaitList}

/-- The tasks of a list, along its links. -/
theorem waitChain (rep : Rep none kernel spec) (list : WaitList) :
    kernel.WaitChain list (spec.waitHead list) where
  chain := rep.chain list
  blocked task member := by
    rw [rep.blocked (rep.wf.mem.mp member)]
    rfl

/-- Unlinking a waiter behind the ones left in the list; the rest keeps its links. -/
theorem unlinkBehind {kept rest : List (Fin n)} {task : Fin n} (rep : Rep none kernel spec)
    (splits : spec.waitHead list = kept ++ task :: rest) :
    Rep (some task) (Rtos.unlinkBehind kernel list kept.getLast? (kernel.waitLink task))
        (spec.remove list task) ∧
      ∀ other ∈ rest, (Rtos.unlinkBehind kernel list kept.getLast?
        (kernel.waitLink task)).tcb other = kernel.tcb other := by
  rcases List.eq_nil_or_concat kept with rfl | ⟨before, previous, rfl⟩
  · exact ⟨rep.unlinkHead splits, fun _ _ => rfl⟩
  · have splits' : spec.waitHead list = before ++ previous :: task :: rest := by simpa using splits
    refine ⟨by simpa [Rtos.unlinkBehind] using rep.unlink splits', fun other member => ?_⟩
    have distinct := rep.wf.nodup list
    rw [splits'] at distinct
    have different : other ≠ previous := by
      rintro rfl
      have tail := (List.nodup_cons.mp (List.nodup_append.mp distinct).2.1).1
      exact tail (List.mem_cons_of_mem _ member)
    simp only [Rtos.unlinkBehind, List.concat_eq_append, List.getLast?_append,
      List.getLast?_singleton, Option.some_or, Rtos.setWaitNext]
    split <;> simp [different]

/-- `wait_list_pop_highest`. -/
theorem waitListPopHighest (rep : Rep none kernel spec) (list : WaitList) :
    Simulates (fun result result' => Rep result'.2 result.1 result'.1 ∧ result.2 = result'.2)
      (Rtos.waitListPopHighest kernel list) (.ok (spec.popHighest list) : Exec _) := by
  have waits := rep.waitChain list
  cases chosen : spec.mostUrgent (spec.waitHead list) with
  | none =>
      rw [Spec.mostUrgent_eq_none.mp chosen] at waits
      rw [waits.pop_nil]
      simp only [Spec.popHighest, chosen]
      exact ⟨rep, rfl⟩
  | some best =>
      obtain ⟨before, behind, splits, earlier, later⟩ := FirstMin.of_argmin chosen
      simp only [← rep.priority] at earlier later
      rw [splits] at waits
      rw [waits.pop_eq earlier later]
      simp only [Spec.popHighest, chosen]
      exact ⟨(rep.unlinkBehind splits).1, rfl⟩

theorem waitWord_eq {hole : TcbPtr n} (rep : Rep hole kernel spec) (task : Fin n) :
    kernel.waitWord task = spec.waitWord task := by
  rw [Kernel.waitWord, Kernel.waitWord, rep.waitPtr]

theorem waitFrame_eq {hole : TcbPtr n} (rep : Rep hole kernel spec) (task : Fin n) :
    kernel.waitFrame task = spec.waitFrame task := by
  rw [Kernel.waitFrame, Kernel.waitFrame, rep.waitPtr]

/-- `unblock` of a task that has just left its list. -/
theorem unblock {task : Fin n} (rep : Rep (some task) kernel spec) :
    Simulates (fun result result' => Rep none result.1 result'.1 ∧ result.2 = result'.2 ∧
        (∀ other, other ≠ task → result.1.tcb other = kernel.tcb other) ∧
        result'.1.waitHead = spec.waitHead)
      (kernel.unblock task) (spec.unblock task) := by
  have ready : Rep none (kernel.setState task (.ready (kernel.tcb task).timeSlice))
      (spec.setState task (.ready (spec.tcb task).timeSlice)) := by
    apply rep.setState
    · rw [rep.timeSlice]
      rfl
    · exact rep.wf.notListed task rfl
    · exact rep.wf.fill (by simp)
  simp only [Kernel.unblock, Kernel.modifyTcb_toStatics, rep.statics]
  apply Simulates.bind (Simulates.refl _)
  rintro current _ rfl
  refine ⟨ready, ?_, ?_, rfl⟩
  · rw [ready.priority, ready.priority]
  · intro other different
    simp [different]

/-- What a scan does with a waiter it satisfies. -/
theorem satisfy {task : Fin n} {rule : ScanRule} {event : Nat} {taken : Word}
    (rep : Rep (some task) kernel spec) :
    Simulates (fun result result' => Rep none result.1 result'.1 ∧ result.2 = result'.2 ∧
        (∀ other, other ≠ task → result.1.tcb other = kernel.tcb other) ∧
        result'.1.waitHead = spec.waitHead)
      (kernel.satisfy rule event task taken) (spec.satisfy rule event task taken) := by
  simp only [Kernel.satisfy, rep.statics]
  have bits := rep.modifyStatics fun statics =>
    { statics with bits := Function.update statics.bits event (spec.bits event &&& ~~~taken) }
  cases rule with
  | all => exact bits.unblock
  | any =>
      have ptr : Rep (some task)
          ((kernel.setBits event (spec.bits event &&& ~~~taken)).setWaitPtr task (.word taken))
          ((spec.setBits event (spec.bits event &&& ~~~taken)).setWaitPtr task (.word taken)) :=
        bits.setWaitPtr (by simp)
      apply ptr.unblock.mono
      rintro result result' ⟨related, flags, others, heads⟩
      refine ⟨related, flags, fun other different => ?_, heads⟩
      rw [others other different]
      simp [different]

/-- The scan of one list, from the point where `kept` have been left in it. -/
theorem scanFrom {rule : ScanRule} {event : Nat} {kept rest : List (Fin n)} {fuel : Nat}
    {next : TcbPtr n} (pend : Bool) (rep : Rep none kernel spec)
    (splits : spec.waitHead list = kept ++ rest)
    (chain : Linked.Chain kernel.waitLink next rest) (enough : rest.length ≤ fuel) :
    Simulates (fun result result' => Rep none result.1 result'.1 ∧ result.2 = result'.2)
      (Rtos.scanFrom rule event list fuel kept.getLast? next (kernel, pend))
      (Spec.scanList rule event list rest (spec, pend)) := by
  induction rest generalizing kernel spec kept next fuel pend with
  | nil =>
      obtain rfl : next = none := chain
      rw [Rtos.scanFrom, Spec.scanList]
      exact ⟨rep, rfl⟩
  | cons task rest ih =>
      obtain ⟨rfl, chainRest⟩ := chain
      have member : task ∈ spec.waitHead list := by simp [splits]
      have distinct := rep.wf.nodup list
      rw [splits] at distinct
      have notRest : task ∉ rest := (List.nodup_cons.mp (List.nodup_append.mp distinct).2.1).1
      cases fuel with
      | zero => simp at enough
      | succ fuel =>
          have enoughRest : rest.length ≤ fuel := by simpa using enough
          rw [Rtos.scanFrom, Spec.scanList,
            Rtos.waitNext_of_isBlocked ((rep.waitChain list).blocked task member), rep.waitWord_eq,
            rep.statics]
          simp only [bind, Except.bind]
          cases spec.waitWord task with
          | error fault => exact rfl
          | ok mask =>
              simp only
              cases rule.taken (spec.bits event) mask with
              | none =>
                  have splitsNext : spec.waitHead list = kept ++ [task] ++ rest := by
                    simp [splits]
                  simpa using ih pend rep splitsNext chainRest enoughRest
              | some taken =>
                  obtain ⟨unlinked, sameRest⟩ := rep.unlinkBehind splits
                  apply Simulates.bind unlinked.satisfy
                  rintro ⟨after, urgent⟩ ⟨after', urgent'⟩ ⟨related, flags, others, heads⟩
                  obtain rfl : urgent = urgent' := flags
                  have headsAfter : after'.waitHead list = kept ++ rest := by
                    have notKept : task ∉ kept := fun inKept =>
                      (List.nodup_append.mp distinct).2.2 task inKept task (by simp) rfl
                    rw [show after'.waitHead = _ from heads]
                    simp [Spec.remove, splits, List.erase_append_right _ notKept]
                  have frame : ∀ other ∈ rest, Kernel.waitLink after other = kernel.waitLink other := by
                    intro other inRest
                    have different : other ≠ task := by
                      rintro rfl
                      exact notRest inRest
                    have sameTcb := (others other different).trans (sameRest other inRest)
                    simp only [Kernel.waitLink, show after.tcb other = _ from sameTcb]
                  exact ih (pend || urgent) related headsAfter (chainRest.congr frame) enoughRest

end Rep

end Kangaroos
