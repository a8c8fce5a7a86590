import Kangaroos.Logic.Rotation
import Kangaroos.Logic.Selection
import Kangaroos.Refine.Switch

/-!
# What `find_next` selects

The two search loops of `find_next` read `ALL_TASKS` as a ring: the first begins behind
`CURRENT`, the second stops where the first began. Both replace their best task only by a
strictly more urgent one, so the first of the most urgent tasks of the whole sweep remains.
-/

namespace Kangaroos

namespace Kernel

variable {n : Nat} {V Link Head : Type} {kernel : Kernel n V Link Head} {order : List (Fin n)}

/-- The priority of a task. -/
def priorityOf (kernel : Kernel n V Link Head) (task : Fin n) : U8 :=
  (kernel.tcb task).priority

/-- The tasks of the list, cyclically from the node after `CURRENT`. -/
def searchOrder (kernel : Kernel n V Link Head) (order : List (Fin n)) : List (Fin n) :=
  match kernel.current with
  | none => order
  | some current => Rotation.sweep order current

/-- The tasks `find_next` chooses from, as it meets them. -/
def candidates (kernel : Kernel n V Link Head) (order : List (Fin n)) : List (Fin n) :=
  (kernel.searchOrder order).filter fun task => (kernel.tcb task).state.runnable

theorem mem_searchOrder {task : Fin n} : task ∈ kernel.searchOrder order ↔ task ∈ order := by
  unfold searchOrder
  split
  · rfl
  · exact Rotation.mem_sweep

theorem mem_candidates {task : Fin n} :
    task ∈ kernel.candidates order ↔ task ∈ order ∧ (kernel.tcb task).state.runnable = true := by
  rw [candidates, List.mem_filter, mem_searchOrder]

/-- What `find_next` remembers of the tasks it has visited. -/
def FoundBest (kernel : Kernel n V Link Head) (visited : List (Fin n)) :
    TcbPtr n × U8 → Prop
  | (none, _) => visited = []
  | (some task, priority) =>
    FirstMin kernel.priorityOf visited task ∧ priority = kernel.priorityOf task

theorem FoundBest.consider {visited : List (Fin n)} {best : TcbPtr n × U8} {task : Fin n}
    (found : kernel.FoundBest visited best)
    (runnable : (kernel.tcb task).state.runnable = true) :
    kernel.FoundBest (visited ++ [task]) (kernel.consider task best) := by
  obtain ⟨chosen, priority⟩ := best
  cases chosen with
  | none =>
      obtain rfl : visited = [] := found
      simp only [Kernel.consider, runnable, true_and, true_or, if_true]
      exact ⟨.of_lt (by simp), rfl⟩
  | some chosen =>
      obtain ⟨first, rfl⟩ := found
      simp only [Kernel.consider, runnable, true_and, reduceCtorEq, false_or]
      split
      · rename_i less
        exact ⟨first.replace less, rfl⟩
      · rename_i notLess
        exact ⟨first.keep (not_lt.mp notLess), rfl⟩

/-- A loop visits its tasks and passes over those that are not runnable. -/
theorem FoundBest.bestOf {visited : List (Fin n)} {best : TcbPtr n × U8}
    (found : kernel.FoundBest visited best) (tasks : List (Fin n)) :
    kernel.FoundBest (visited ++ tasks.filter fun task => (kernel.tcb task).state.runnable)
      (kernel.bestOf tasks best) := by
  induction tasks generalizing visited best with
  | nil => simpa [Kernel.bestOf] using found
  | cons task rest ih =>
      rw [show kernel.bestOf (task :: rest) best = kernel.bestOf rest (kernel.consider task best)
        from rfl]
      by_cases runnable : (kernel.tcb task).state.runnable = true
      · simpa [runnable] using ih (found.consider runnable)
      · have passed : kernel.consider task best = best := by
          simp [Kernel.consider, runnable]
        simpa [runnable, passed] using ih found

section Search

variable (chain : Linked.Chain kernel.allLink kernel.allTasks order)

include chain

/-- The two loops together sweep the ring once: `rest` is what the first one visits. -/
theorem exists_searchStart {current : Fin n} (isCurrent : kernel.current = some current)
    (listed : current ∈ order) :
    ∃ rest, rest <:+ order ∧ Linked.Chain kernel.allLink kernel.searchStart rest ∧
      rest ++ before kernel.searchStart order = Rotation.sweep order current := by
  have distinct := chain.nodup
  obtain ⟨front, rest, rfl⟩ := List.append_of_mem listed
  have fresh : current ∉ front := fun inFront =>
    (List.nodup_append.mp distinct).2.2 current inFront current List.mem_cons_self rfl
  have tail : Linked.Chain kernel.allLink (kernel.tcb current).allNext rest := chain.split
  rw [Rotation.sweep_append fresh]
  cases rest with
  | nil =>
      -- `CURRENT` is the last node, so the search starts at the head of the list
      have atEnd : (kernel.tcb current).allNext = none := tail
      have start : kernel.searchStart = kernel.allTasks := by
        simp only [searchStart, isCurrent, atEnd]
      rw [start]
      refine ⟨_, List.suffix_rfl, chain, ?_⟩
      cases front with
      | nil => simp [before, chain.1]
      | cons first front => simp [before, chain.1]
  | cons start rest =>
      have following : (kernel.tcb current).allNext = some start := tail.1
      have isStart : kernel.searchStart = some start := by
        simp only [searchStart, isCurrent, following]
      have split : front ++ current :: start :: rest = (front ++ [current]) ++ start :: rest := by
        simp
      rw [split] at distinct ⊢
      have unstarted : start ∉ front ++ [current] := fun inFront =>
        (List.nodup_append.mp distinct).2.2 start inFront start List.mem_cons_self rfl
      rw [isStart, before_append unstarted]
      exact ⟨_, List.suffix_append _ _, ⟨rfl, tail.2⟩, rfl⟩

/-- `find_next` has visited every candidate when it looks at its best task. -/
theorem findNext_searched (listed : ∀ current, kernel.current = some current → current ∈ order) :
    ∃ best, kernel.FoundBest (kernel.candidates order) best ∧
      (∀ task, best.1 = some task → kernel.findNext = .ok task) ∧
      (best.1 = none → kernel.findNext = .error .noReadyTask) := by
  have enough : order.length ≤ n := by simpa using chain.nodup.length_le_card
  have blank : kernel.FoundBest [] (none, 255) := rfl
  cases fresh : kernel.current with
  | none =>
      have start : kernel.searchStart = kernel.allTasks := by
        simp only [searchStart, fresh]
      have searched : kernel.searchPass none n kernel.allTasks (none, 255) =
          .ok (kernel.bestOf order (none, 255)) := by
        rw [searchPass_eq chain enough, before_none]
      refine ⟨kernel.bestOf order (none, 255), ?_, fun task chosen => ?_, fun missed => ?_⟩
      · simpa [candidates, searchOrder, fresh] using blank.bestOf order
      · simp only [findNext, start, fresh, if_true, searched, Except.ok_bind, chosen]
      · simp only [findNext, start, fresh, if_true, searched, Except.ok_bind, missed]
  | some current =>
      have launched : kernel.current ≠ none := by simp [fresh]
      obtain ⟨rest, suffix, chainRest, whole⟩ :=
        exists_searchStart chain fresh (listed current fresh)
      have searched := findNext_eq launched chain chainRest enough (suffix.length_le.trans enough)
      refine ⟨kernel.bestOf (before kernel.searchStart order) (kernel.bestOf rest (none, 255)), ?_,
        fun task chosen => ?_, fun missed => ?_⟩
      · simpa [candidates, searchOrder, fresh, ← whole] using
          (blank.bestOf rest).bestOf (before kernel.searchStart order)
      · rw [searched, chosen]
      · rw [searched, missed]

/-- `find_next` ends, with the first of the most urgent candidates if there is any. -/
theorem findNext_found (listed : ∀ current, kernel.current = some current → current ∈ order) :
    (∃ task, kernel.findNext = .ok task ∧
        FirstMin kernel.priorityOf (kernel.candidates order) task) ∨
      kernel.findNext = .error .noReadyTask ∧ kernel.candidates order = [] := by
  obtain ⟨⟨chosen, priority⟩, found, hit, miss⟩ := findNext_searched chain listed
  cases chosen with
  | none => exact .inr ⟨miss rfl, found⟩
  | some task => exact .inl ⟨task, hit task rfl, found.1⟩

/-- `CURRENT` comes last in the search, so it is selected only when no other candidate is as
urgent. -/
theorem current_sole {current : Fin n} (isCurrent : kernel.current = some current)
    (listed : current ∈ order)
    (first : FirstMin kernel.priorityOf (kernel.candidates order) current) :
    ∀ other ∈ kernel.candidates order, other ≠ current →
      kernel.priorityOf current < kernel.priorityOf other := by
  have runnable := (mem_candidates.mp first.mem).2
  obtain ⟨others, parts, fresh⟩ := Rotation.sweep_eq_append chain.nodup listed
  have whole : kernel.candidates order =
      (others.filter fun task => (kernel.tcb task).state.runnable) ++ [current] := by
    simp only [candidates, searchOrder, isCurrent, parts, List.filter_append]
    simp [runnable]
  rw [whole] at first ⊢
  intro other member different
  have earlier := (List.mem_append.mp member).resolve_right (by simpa using different)
  exact first.lt_of_last (fun again => fresh (List.mem_of_mem_filter again)) other earlier

/-- `find_next` selects by priority and then by cyclic position, `CURRENT` last; it panics
exactly when no task is ready or running, and it does nothing else. -/
theorem findNext_selects (listed : ∀ current, kernel.current = some current → current ∈ order) :
    (∀ task, kernel.findNext = .ok task ↔
      FirstMin kernel.priorityOf (kernel.candidates order) task) ∧
    (∀ fault, kernel.findNext = .error fault ↔
      fault = .noReadyTask ∧ ∀ task ∈ order, (kernel.tcb task).state.runnable = false) ∧
    ∀ current, kernel.current = some current → kernel.findNext = .ok current →
      ∀ other ∈ order, other ≠ current → (kernel.tcb other).state.runnable = true →
        kernel.priorityOf current < kernel.priorityOf other := by
  have empty_iff : kernel.candidates order = [] ↔
      ∀ task ∈ order, (kernel.tcb task).state.runnable = false := by
    simp [List.eq_nil_iff_forall_not_mem, mem_candidates]
  rcases findNext_found chain listed with ⟨task, returned, first⟩ | ⟨panics, empty⟩
  · have occupied : kernel.candidates order ≠ [] := List.ne_nil_of_mem first.mem
    rw [returned]
    refine ⟨fun other => ?_, fun fault => ?_, ?_⟩
    · constructor
      · intro same
        rwa [← Except.ok.inj same]
      · intro firstOther
        rw [first.unique firstOther]
    · simp [← empty_iff, occupied]
    · intro current isCurrent same
      obtain rfl : task = current := Except.ok.inj same
      exact fun other member different runnable =>
        current_sole chain isCurrent (listed task isCurrent) first other
          (mem_candidates.mpr ⟨member, runnable⟩) different
  · rw [panics]
    refine ⟨fun other => ?_, fun fault => ?_, ?_⟩
    · simp only [reduceCtorEq, false_iff]
      intro first
      rw [empty] at first
      exact List.not_mem_nil first.mem
    · constructor
      · intro same
        exact ⟨(Except.error.inj same).symm, empty_iff.mp empty⟩
      · rintro ⟨rfl, _⟩
        rfl
    · intro current _ same
      cases same

end Search

/-- Four ready tasks, the two most urgent of them on both sides of `CURRENT`. -/
theorem findNext_selects_small : ∃ kernel : Rtos 4 Nat,
    (Config.small 20 10 10).boot Nat (TcbPtr 4) (TcbPtr 4) = .ok kernel ∧
    (kernel.setCurrent (some 3)).findNext = .ok 2 := by
  obtain ⟨kernel, boot, chain, candidates, least⟩ : ∃ kernel : Rtos 4 Nat,
      (Config.small 20 10 10).boot Nat (TcbPtr 4) (TcbPtr 4) = .ok kernel ∧
      Linked.Chain (kernel.setCurrent (some 3)).allLink kernel.allTasks [0, 3, 2, 1] ∧
      (kernel.setCurrent (some 3)).candidates [0, 3, 2, 1] = [2, 1, 0, 3] ∧
      ∀ other ∈ [1, 0, 3], kernel.priorityOf 2 ≤ kernel.priorityOf other :=
    ⟨_, rfl, ⟨rfl, rfl, rfl, rfl, rfl⟩, by decide, by decide⟩
  have listed : ∀ current, (kernel.setCurrent (some 3)).current = some current →
      current ∈ [0, 3, 2, 1] := by
    intro current isCurrent
    obtain rfl : 3 = current := Option.some.inj isCurrent
    decide
  refine ⟨kernel, boot, ((findNext_selects chain listed).1 2).mpr ?_⟩
  rw [candidates]
  exact ⟨[], [1, 0, 3], rfl, by simp, least⟩

end Kernel

end Kangaroos
