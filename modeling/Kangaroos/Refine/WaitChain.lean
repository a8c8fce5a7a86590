import Kangaroos.Logic.Selection
import Kangaroos.Refine.Rep

/-!
# The loops of a wait list

`wait_list_pop_highest` follows the links of one list twice: it looks for the first of its
most urgent tasks, and then for the task in front of it. What the loops do depends on the tasks
of this one list and on nothing else of the kernel.
-/

namespace Kangaroos

/-- The links of a list lead from one blocked task to the next, and end. -/
structure Kernel.WaitChain {n : Nat} {V : Type} (kernel : Rtos n V) (list : WaitList)
    (tasks : List (Fin n)) : Prop where
  chain : Linked.Chain kernel.waitLink (kernel.waitHead list) tasks
  blocked : ∀ task ∈ tasks, (kernel.tcb task).state.isBlocked = true

namespace Rtos

variable {n : Nat} {V : Type} {kernel : Rtos n V} {list : WaitList} {tasks : List (Fin n)}
  {task : Fin n}

/-- The state of a blocked task is its link. -/
theorem state_of_isBlocked (isBlocked : (kernel.tcb task).state.isBlocked = true) :
    (kernel.tcb task).state = .blocked (kernel.waitLink task) := by
  obtain ⟨next, state⟩ := TaskState.isBlocked_iff.mp isBlocked
  simp [Kernel.waitLink, state]

/-- The link of a blocked task can be read. -/
theorem waitNext_of_isBlocked (isBlocked : (kernel.tcb task).state.isBlocked = true) :
    kernel.waitNext task = .ok (kernel.waitLink task) := by
  rw [waitNext, state_of_isBlocked isBlocked]

/-- It can be written. -/
theorem setWaitNext_of_isBlocked (isBlocked : (kernel.tcb task).state.isBlocked = true)
    (next : TcbPtr n) : kernel.setWaitNext task next = kernel.setState task (.blocked next) := by
  simp only [setWaitNext, state_of_isBlocked isBlocked]

/-- The search loop ends with the first of the most urgent tasks, those it has seen before
included. -/
theorem popBest_eq {seen : List (Fin n)} {next : TcbPtr n} {best : Fin n} (fuel : Nat)
    (chain : Linked.Chain kernel.waitLink next tasks)
    (blocked : ∀ task ∈ tasks, (kernel.tcb task).state.isBlocked = true)
    (enough : tasks.length ≤ fuel)
    (first : FirstMin (fun task => (kernel.tcb task).priority) seen best) :
    ∃ chosen, kernel.popBest fuel next best (kernel.tcb best).priority = .ok chosen ∧
      FirstMin (fun task => (kernel.tcb task).priority) (seen ++ tasks) chosen := by
  induction tasks generalizing seen next best fuel with
  | nil =>
      obtain rfl : next = none := chain
      refine ⟨best, ?_, by simpa using first⟩
      rw [popBest]
  | cons task rest ih =>
      obtain ⟨rfl, chainRest⟩ := chain
      have blockedRest : ∀ other ∈ rest, (kernel.tcb other).state.isBlocked = true :=
        fun other member => blocked other (List.mem_cons_of_mem _ member)
      cases fuel with
      | zero => simp at enough
      | succ fuel =>
          have enoughRest : rest.length ≤ fuel := by simpa using enough
          rw [popBest, waitNext_of_isBlocked (blocked task List.mem_cons_self),
            List.append_cons]
          simp only [Except.ok_bind]
          split
          · rename_i urgent
            exact ih fuel chainRest blockedRest enoughRest (first.replace urgent)
          · rename_i notUrgent
            exact ih fuel chainRest blockedRest enoughRest (first.keep (not_lt.mp notUrgent))

/-- The predecessor loop relinks the task in front of `best`. -/
theorem popUnlink_eq {before after : List (Fin n)} {first previous best : Fin n}
    (bestNext : TcbPtr n) (fuel : Nat)
    (chain : Linked.Chain kernel.waitLink (some first) (before ++ previous :: best :: after))
    (blocked : ∀ task ∈ before ++ previous :: best :: after,
      (kernel.tcb task).state.isBlocked = true)
    (enough : before.length < fuel) :
    kernel.popUnlink best bestNext fuel first =
      .ok (kernel.setState previous (.blocked bestNext)) := by
  induction before generalizing first fuel with
  | nil =>
      obtain ⟨isFirst, link, _⟩ := chain
      obtain rfl : first = previous := Option.some.inj isFirst
      cases fuel with
      | zero => simp at enough
      | succ fuel =>
          have firstBlocked := blocked first List.mem_cons_self
          rw [popUnlink, waitNext_of_isBlocked firstBlocked, link]
          simp only [Except.ok_bind, if_true, setWaitNext_of_isBlocked firstBlocked]
  | cons head before ih =>
      have distinct := chain.nodup
      obtain ⟨isFirst, chainRest⟩ := chain
      obtain rfl : first = head := Option.some.inj isFirst
      cases fuel with
      | zero => simp at enough
      | succ fuel =>
          have whole : Linked.Chain kernel.waitLink (some first)
              ((first :: before) ++ previous :: best :: after) := ⟨rfl, chainRest⟩
          obtain ⟨second, member, link⟩ := whole.exists_next List.mem_cons_self
          have notBest : second ≠ best := by
            rintro rfl
            have parts : ((first :: before) ++ [previous] ++ second :: after).Nodup := by
              simpa using distinct
            have inFront : second ∈ (first :: before) ++ [previous] := by simpa using member
            exact (List.nodup_append.mp parts).2.2 second inFront second List.mem_cons_self rfl
          rw [popUnlink, waitNext_of_isBlocked (blocked first List.mem_cons_self), link]
          simp only [Except.ok_bind, Option.some.injEq, notBest, if_false, deref_some]
          rw [link] at chainRest
          exact ih fuel chainRest (fun task listed => blocked task (List.mem_cons_of_mem _ listed))
            (by simpa using enough)

end Rtos

namespace Kernel.WaitChain

variable {n : Nat} {V : Type} {kernel : Rtos n V} {list : WaitList} {before behind : List (Fin n)}
  {task best : Fin n}

/-- Unlinking a task leaves the others in their order, still blocked. -/
theorem unlinkBehind
    (waits : kernel.WaitChain list (before ++ task :: behind)) :
    (kernel.unlinkBehind list before.getLast? (kernel.waitLink task)).WaitChain list
      (before ++ behind) := by
  obtain rfl | ⟨front, previous, rfl⟩ := before.eq_nil_or_concat
  · refine ⟨?_, fun other member => waits.blocked other (List.mem_cons_of_mem _ member)⟩
    have onward : Linked.Chain kernel.waitLink (kernel.waitLink task) behind := waits.chain.2
    show Linked.Chain kernel.waitLink _ _
    simpa [Rtos.unlinkBehind] using onward
  · simp only [List.concat_eq_append, List.append_assoc, List.cons_append, List.nil_append] at waits ⊢
    have isBlocked := waits.blocked previous (by simp)
    have unlinked : kernel.unlinkBehind list (front ++ [previous]).getLast? (kernel.waitLink task) =
        kernel.setState previous (.blocked (kernel.waitLink task)) := by
      rw [List.getLast?_concat, Rtos.unlinkBehind, Rtos.setWaitNext_of_isBlocked isBlocked]
    rw [unlinked]
    constructor
    case chain =>
      have links : (kernel.setState previous (.blocked (kernel.waitLink task))).waitLink =
          Function.update kernel.waitLink previous (kernel.waitLink task) := by
        funext other
        by_cases same : other = previous
        · subst same
          simp [Kernel.waitLink]
        · simp [Kernel.waitLink, same]
      rw [links]
      exact Linked.Chain.unlink waits.chain.nodup waits.chain
    case blocked =>
      intro other member
      by_cases same : other = previous
      · subst same
        simp
      · have listed : other ∈ front ++ previous :: task :: behind := by
          simp only [List.mem_append, List.mem_cons] at member ⊢
          tauto
        simpa [same] using waits.blocked other listed

/-- An empty list has nobody to pop. -/
theorem pop_nil (waits : kernel.WaitChain list []) :
    kernel.waitListPopHighest list = .ok (kernel, none) := by
  have noHead : kernel.waitHead list = none := waits.chain
  rw [Rtos.waitListPopHighest, noHead]

/-- `wait_list_pop_highest` unlinks the first of the most urgent tasks. -/
theorem pop_eq
    (waits : kernel.WaitChain list (before ++ best :: behind))
    (earlier : ∀ other ∈ before, (kernel.tcb best).priority < (kernel.tcb other).priority)
    (later : ∀ other ∈ behind, (kernel.tcb best).priority ≤ (kernel.tcb other).priority) :
    kernel.waitListPopHighest list =
      .ok (kernel.unlinkBehind list before.getLast? (kernel.waitLink best), some best) := by
  have bound : (before ++ best :: behind).length ≤ n := by
    simpa using waits.chain.nodup.length_le_card
  have bestBlocked := waits.blocked best (by simp)
  obtain ⟨head, rest, starts⟩ : ∃ head rest, before ++ best :: behind = head :: rest := by
    cases before <;> simp
  have first : FirstMin (fun task => (kernel.tcb task).priority) (head :: rest) best :=
    ⟨before, behind, starts.symm, earlier, later⟩
  have chain := waits.chain
  rw [starts] at chain
  obtain ⟨isHead, chainRest⟩ := chain
  have listed : ∀ task ∈ head :: rest, (kernel.tcb task).state.isBlocked = true := by
    rw [← starts]
    exact waits.blocked
  have alone : FirstMin (fun task => (kernel.tcb task).priority) ([] ++ [head]) head :=
    .of_lt (by simp)
  obtain ⟨chosen, popped, least⟩ := Rtos.popBest_eq n chainRest
    (fun task member => listed task (List.mem_cons_of_mem _ member))
    (by rw [starts, List.length_cons] at bound; omega) alone
  obtain rfl : chosen = best := least.unique first
  simp only [Rtos.waitListPopHighest, isHead, Rtos.waitNext_of_isBlocked (listed head List.mem_cons_self),
    popped, Rtos.waitNext_of_isBlocked bestBlocked, Except.ok_bind]
  obtain rfl | ⟨front, previous, rfl⟩ := before.eq_nil_or_concat
  · obtain ⟨rfl, rfl⟩ := List.cons.inj starts
    simp [Rtos.unlinkBehind]
  · simp only [List.concat_eq_append, List.append_assoc, List.cons_append, List.nil_append] at *
    have notHead : head ≠ chosen := by
      rintro rfl
      have distinct := waits.chain.nodup
      cases front with
      | nil =>
          obtain ⟨rfl, _⟩ := List.cons.inj starts
          simp at distinct
      | cons first front =>
          obtain ⟨rfl, _⟩ := List.cons.inj starts
          simp at distinct
    have whole := waits.chain
    rw [isHead] at whole
    have unlinked := Rtos.popUnlink_eq (kernel.waitLink chosen) n whole waits.blocked
      (by rw [List.length_append, List.length_cons, List.length_cons] at bound; omega)
    rw [if_neg notHead, unlinked, Except.ok_bind, List.getLast?_concat, Rtos.unlinkBehind,
      Rtos.setWaitNext_of_isBlocked (waits.blocked previous (by simp))]

end Kernel.WaitChain

end Kangaroos
