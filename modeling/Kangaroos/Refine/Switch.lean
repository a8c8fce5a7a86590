import Kangaroos.Refine.Machine

/-!
# PendSV step by step

Undisturbed, the steps of PendSV compute what `pendsv_save_and_switch` computes
in one piece, in a number of steps bounded by the number of tasks. Both search
loops of `find_next` reduce to `bestOf`, the best of the tasks they visit.
-/

namespace Kangaroos

namespace Kernel

variable {n : Nat} {V Link Head : Type} {kernel : Kernel n V Link Head}

/-- What `find_next` finds when there is a current task. -/
theorem findNext_eq {tasks rest : List (Fin n)} (launched : kernel.current ≠ none)
    (chain : Linked.Chain kernel.allLink kernel.allTasks tasks)
    (chainRest : Linked.Chain kernel.allLink kernel.searchStart rest)
    (enough : tasks.length ≤ n) (enoughRest : rest.length ≤ n) :
    kernel.findNext =
      match (kernel.bestOf (before kernel.searchStart tasks)
        (kernel.bestOf rest (none, 255))).1 with
      | some task => .ok task
      | none => .error .noReadyTask := by
  unfold findNext
  cases found : (kernel.bestOf (before kernel.searchStart tasks)
      (kernel.bestOf rest (none, 255))).1 <;>
    simp only [searchPass_eq chainRest enoughRest, before_none, if_neg launched, bind, Except.bind,
      searchPass_eq chain enough, found]

/-- Saving the current task leaves `ALL_TASKS` and `CURRENT` alone. -/
theorem saveCurrent_ok {saved : Kernel n V Link Head} {sp : Word}
    (returned : kernel.saveCurrent sp = .ok saved) :
    kernel.current ≠ none ∧ saved.current = kernel.current ∧ saved.allTasks = kernel.allTasks ∧
      saved.allLink = kernel.allLink := by
  unfold saveCurrent at returned
  obtain ⟨old, isOld, rest⟩ := Except.ok_of_bind returned
  have isCurrent := (deref_triple kernel.current).of_ok isOld
  refine ⟨by simp [isCurrent], ?_⟩
  simp only at rest
  split at rest
  · obtain rfl := Except.ok.inj rest
    exact ⟨rfl, rfl, by rw [modifyTcb_allLink, modifyTcb_allLink] <;> rfl⟩
  · obtain rfl := Except.ok.inj rest
    exact ⟨rfl, rfl, by rw [modifyTcb_allLink]; rfl⟩

end Kernel

namespace Machine

variable {n : Nat} {V Link Head : Type} [ops : WaitOps n V Link Head] {idle : Fin n}
  {machine middle next : Machine n V Link Head} {sp : Word}

/-- `count` undisturbed steps of PendSV lead from one state to another. -/
def Switches (idle : Fin n) (sp : Word) (count : Nat) (machine next : Machine n V Link Head) :
    Prop :=
  performAll idle machine (List.replicate count (.pendsv sp)) = some (.ok next)

theorem Switches.refl (machine : Machine n V Link Head) : Switches idle sp 0 machine machine := rfl

theorem Switches.head {count : Nat} (first : machine.pendsvStep sp = some (.ok middle))
    (rest : Switches idle sp count middle next) : Switches idle sp (count + 1) machine next := by
  unfold Switches performAll
  rw [List.replicate_succ, performWithin, if_pos rfl,
    show machine.perform idle (.pendsv sp) = _ from first]
  exact rest

theorem Switches.trans {count count' : Nat} (left : Switches idle sp count machine middle)
    (right : Switches idle sp count' middle next) :
    Switches idle sp (count + count') machine next := by
  induction count generalizing machine with
  | zero =>
      obtain rfl : machine = middle := by
        simpa [Switches, performAll, performWithin] using left
      simpa using right
  | succ count ih =>
      rw [Switches, List.replicate_succ, performAll, performWithin, if_pos rfl] at left
      split at left
      · rename_i after performed
        rw [Nat.add_right_comm]
        exact .head performed (ih left)
      · rename_i stuck
        exact absurd left (stuck middle)

/-- The first search loop, undisturbed. -/
theorem switches_pass1 (machine : Machine n V Link Head) {start node : TcbPtr n}
    {best : TcbPtr n × U8} {tasks : List (Fin n)}
    (chain : Linked.Chain machine.kernel.allLink node tasks) :
    Switches idle sp tasks.length { machine with handler := .pass1 start node best }
      { machine with handler := .pass1 start none (machine.kernel.bestOf tasks best) } := by
  induction tasks generalizing node best with
  | nil =>
      obtain rfl : node = none := chain
      exact .refl _
  | cons task rest ih =>
      obtain ⟨rfl, chainRest⟩ := chain
      exact .head rfl (ih chainRest)

/-- The second search loop, undisturbed. -/
theorem switches_pass2 (machine : Machine n V Link Head) {start node : TcbPtr n}
    (best : TcbPtr n × U8) {tasks : List (Fin n)}
    (chain : Linked.Chain machine.kernel.allLink node tasks) :
    ∃ count ≤ tasks.length, ∃ last, (last = none ∨ last = start) ∧
      Switches idle sp count { machine with handler := .pass2 start node best }
        { machine with
          handler := .pass2 start last (machine.kernel.bestOf (Kernel.before start tasks) best) } := by
  induction tasks generalizing node best with
  | nil =>
      obtain rfl : node = none := chain
      exact ⟨0, le_rfl, none, .inl rfl, .refl _⟩
  | cons task rest ih =>
      obtain ⟨rfl, chainRest⟩ := chain
      by_cases atStart : some task = start
      · refine ⟨0, Nat.zero_le _, start, .inr rfl, ?_⟩
        have empty : machine.kernel.bestOf (Kernel.before start (task :: rest)) best = best := by
          simp [Kernel.before, Kernel.bestOf, atStart]
        rw [empty, atStart]
        exact .refl _
      · obtain ⟨count, bound, last, atEnd, onward⟩ := ih (machine.kernel.consider task best) chainRest
        have visit : ({ machine with handler := .pass2 start (some task) best }).pendsvStep sp =
            some (.ok { machine with
              handler := .pass2 start (machine.kernel.tcb task).allNext
                (machine.kernel.consider task best) }) := by
          simp [pendsvStep, atStart]
        refine ⟨count + 1, by simpa using bound, last, atEnd, .head visit ?_⟩
        simpa [Kernel.before, Kernel.bestOf, Kernel.allLink, atStart] using onward

/-- The save and both search loops, undisturbed: the search ends with what `find_next`
returns. -/
theorem switches_search (idle : Fin n) {saved : Kernel n V Link Head} {tasks rest : List (Fin n)}
    (entered : machine.handler = .entered) (returned : machine.kernel.saveCurrent sp = .ok saved)
    (chain : Linked.Chain machine.kernel.allLink machine.kernel.allTasks tasks)
    (chainRest : Linked.Chain saved.allLink saved.searchStart rest)
    (enough : tasks.length ≤ n) (enoughRest : rest.length ≤ n) :
    ∃ count ≤ 2 * n + 2, ∃ last best, (last = none ∨ last = saved.searchStart) ∧
      Switches idle sp count machine { machine with
        kernel := saved, handler := .pass2 saved.searchStart last best } ∧
      saved.findNext = match best.1 with
        | some task => .ok task
        | none => .error .noReadyTask := by
  obtain ⟨launched, sameCurrent, sameAll, sameLink⟩ := Kernel.saveCurrent_ok returned
  have chainSaved : Linked.Chain saved.allLink saved.allTasks tasks := by
    rw [sameLink, sameAll]
    exact chain
  have first : Switches idle sp 1 machine { machine with
      kernel := saved, handler := .pass1 saved.searchStart saved.searchStart (none, 255) } := by
    refine .head ?_ (.refl _)
    simp [pendsvStep, entered, returned, bind, Except.bind]
  have second := first.trans (switches_pass1 { machine with kernel := saved } chainRest)
  have third := second.trans (.head rfl (.refl _))
  obtain ⟨count, bound, last, atEnd, fourth⟩ :=
    switches_pass2 { machine with kernel := saved } _ chainSaved
  refine ⟨1 + rest.length + 1 + count, by omega, last, _, atEnd, third.trans fourth, ?_⟩
  exact Kernel.findNext_eq (by rwa [sameCurrent]) chainSaved chainRest enough enoughRest

/-- The end of PendSV, undisturbed. -/
theorem switches_select {start last : TcbPtr n} {best : TcbPtr n × U8} {task : Fin n}
    {after : Kernel n V Link Head} (searching : machine.handler = .pass2 start last best)
    (atEnd : last = none ∨ last = start) (found : best.1 = some task)
    (marked : (machine.kernel.setCurrent (some task)).markRunning task = .ok after) :
    Switches idle sp 3 machine { machine with kernel := after, handler := .inactive } := by
  have select : machine.pendsvStep sp = some (.ok { machine with handler := .selected task }) := by
    rcases atEnd with rfl | rfl
    · simp [pendsvStep, searching, endSearch, found]
    · cases last with
      | none => simp [pendsvStep, searching, endSearch, found]
      | some node => simp [pendsvStep, searching, endSearch, found]
  refine .head select (.head rfl (.head ?_ (.refl _)))
  simp [pendsvStep, marked, bind, Except.bind]

end Machine

end Kangaroos
