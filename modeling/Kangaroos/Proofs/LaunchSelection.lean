import Kangaroos.Machine
import Kangaroos.Proofs.FindNext

/-!
# The launch and `find_next` select alike

`svc_first_task_sp` and `find_next` search the task list with different guards.
`find_next` takes the first candidate whatever its priority; the launch only takes a
priority below the initial best, 255, so it finds nothing when no task has one.
-/

namespace Kangaroos

namespace Kernel

variable {n : Nat} {V Link Head : Type} {kernel : Kernel n V Link Head} {order : List (Fin n)}

/-- `find_next` and the launch, in both of its versions, select the first of the most
urgent tasks, and the launch turns it from `Ready` to `Running` and changes no other. -/
def LaunchAgrees (kernel : Kernel n V Link Head) (order : List (Fin n)) : Prop :=
  ∃ task slice launched, FirstMin kernel.priorityOf order task ∧
    kernel.findNext = .ok task ∧
    kernel.svcFirstTaskSp = .ok (launched, (kernel.tcb task).sp) ∧
    kernel.svcFirstTaskSpV8m =
      .ok (launched, (kernel.tcb task).stackBase, (kernel.tcb task).sp) ∧
    launched.current = some task ∧
    (kernel.tcb task).state = .ready slice ∧
    launched.tcb task = { kernel.tcb task with state := .running slice } ∧
    ∀ other, other ≠ task → launched.tcb other = kernel.tcb other

/-- What the launch remembers of the tasks it has visited. -/
def LaunchBest (kernel : Kernel n V Link Head) (visited : List (Fin n)) :
    TcbPtr n × U8 → Prop
  | (none, priority) => priority = 255 ∧ ∀ task ∈ visited, kernel.priorityOf task = 255
  | (some task, priority) =>
    FirstMin kernel.priorityOf visited task ∧ priority = kernel.priorityOf task ∧ priority < 255

/-- The body of the launch loop. -/
theorem LaunchBest.visit {visited : List (Fin n)} {best : TcbPtr n × U8} {task : Fin n}
    (found : kernel.LaunchBest visited best) (ready : (kernel.tcb task).state.isReady = true) :
    kernel.LaunchBest (visited ++ [task]) (kernel.launchConsider best task) := by
  obtain ⟨chosen, priority⟩ := best
  simp only [launchConsider, ready, true_and]
  cases chosen with
  | none =>
      obtain ⟨rfl, lowest⟩ := found
      split
      · rename_i less
        refine ⟨.of_lt fun other member => ?_, rfl, less⟩
        rw [lowest other member]
        exact less
      · rename_i notLess
        refine ⟨rfl, fun other member => ?_⟩
        rcases List.mem_append.mp member with seen | isTask
        · exact lowest other seen
        · rw [List.mem_singleton.mp isTask]
          exact le_antisymm (Fin.le_last _) (not_lt.mp notLess)
  | some chosen =>
      obtain ⟨first, rfl, below⟩ := found
      split
      · rename_i less
        exact ⟨first.replace less, rfl, less.trans below⟩
      · rename_i notLess
        exact ⟨first.keep (not_lt.mp notLess), rfl, below⟩

theorem LaunchBest.foldl {visited rest : List (Fin n)} {best : TcbPtr n × U8}
    (found : kernel.LaunchBest visited best)
    (ready : ∀ task ∈ rest, (kernel.tcb task).state.isReady = true) :
    kernel.LaunchBest (visited ++ rest) (rest.foldl kernel.launchConsider best) := by
  induction rest generalizing visited best with
  | nil => simpa using found
  | cons task rest ih =>
      have seen := found.visit (ready task List.mem_cons_self)
      simpa using ih seen fun other member => ready other (List.mem_cons_of_mem _ member)

section Selection

variable (chain : Linked.Chain kernel.allLink kernel.allTasks order)
  (ready : ∀ task ∈ order, (kernel.tcb task).state.isReady = true)

include chain ready

/-- The search of the launch ends with that task, or with none when all priorities are 255. -/
theorem svcSearch_first : ∃ last, kernel.svcSearch n kernel.allTasks (none, 255) = .ok last ∧
    kernel.LaunchBest order last := by
  have enough : order.length ≤ n := by simpa using chain.nodup.length_le_card
  have blank : kernel.LaunchBest [] (none, 255) := ⟨rfl, by simp⟩
  exact ⟨_, svcSearch_eq chain enough, blank.foldl ready⟩

/-- Before the launch `find_next` selects the first of the most urgent tasks. -/
theorem findNext_first (occupied : order ≠ []) (fresh : kernel.current = none) :
    ∃ task, FirstMin kernel.priorityOf order task ∧ kernel.findNext = .ok task := by
  have all : kernel.candidates order = order := by
    simp only [candidates, searchOrder, fresh]
    refine List.filter_eq_self.mpr fun task member => ?_
    simp [TaskState.runnable, ready task member]
  have found := findNext_found chain (by simp [fresh])
  rw [all] at found
  rcases found with ⟨task, returned, first⟩ | ⟨_, empty⟩
  · exact ⟨task, first, returned⟩
  · exact absurd empty occupied

end Selection

/-- The launch and `find_next` agree exactly when some task has a priority below 255. A list
whose tasks all have priority 255, such as that of the idle task alone, is launched with a
null `CURRENT`, which `svc_first_task_sp` then dereferences. -/
theorem launch_agrees_iff (chain : Linked.Chain kernel.allLink kernel.allTasks order)
    (occupied : order ≠ []) (ready : ∀ task ∈ order, (kernel.tcb task).state.isReady = true)
    (fresh : kernel.current = none) :
    kernel.LaunchAgrees order ↔ ∃ task ∈ order, kernel.priorityOf task < 255 := by
  obtain ⟨⟨chosen, priority⟩, searched, best⟩ := svcSearch_first chain ready
  cases chosen with
  | none =>
      obtain ⟨rfl, lowest⟩ := best
      constructor
      · rintro ⟨_, _, _, _, _, launched, _⟩
        simp [Kernel.svcFirstTaskSp, searched, Except.ok_bind] at launched
        cases launched
      · rintro ⟨task, member, below⟩
        rw [lowest task member] at below
        exact absurd below (lt_irrefl _)
  | some task =>
      obtain ⟨first, rfl, below⟩ := best
      refine ⟨fun _ => ⟨task, first.mem, below⟩, fun _ => ?_⟩
      obtain ⟨found, firstFound, returned⟩ := findNext_first chain ready occupied fresh
      obtain rfl : task = found := first.unique firstFound
      obtain ⟨slice, isReady⟩ := TaskState.isReady_iff.mp (ready task first.mem)
      refine ⟨task, slice, (kernel.setCurrent (some task)).setState task (.running slice), first,
        returned, ?_, ?_, rfl, isReady, by simp, fun other different => by simp [different]⟩
      · simp [Kernel.svcFirstTaskSp, searched, Kernel.markRunning, isReady, Except.ok_bind]
      · simp [Kernel.svcFirstTaskSpV8m, searched, Kernel.markRunning, isReady, Except.ok_bind]

/-- Three ready tasks, two of them of the lowest priority number. -/
theorem launch_agrees_iff_small : ∃ kernel : Rtos 4 Nat,
    (Config.small 20 10 10).boot Nat (TcbPtr 4) (TcbPtr 4) = .ok kernel ∧
    kernel.LaunchAgrees [0, 3, 2, 1] := by
  obtain ⟨kernel, boot, chain, ready, fresh, below⟩ : ∃ kernel : Rtos 4 Nat,
      (Config.small 20 10 10).boot Nat (TcbPtr 4) (TcbPtr 4) = .ok kernel ∧
      Linked.Chain kernel.allLink kernel.allTasks [0, 3, 2, 1] ∧
      (∀ task ∈ [0, 3, 2, 1], (kernel.tcb task).state.isReady = true) ∧
      kernel.current = none ∧ kernel.priorityOf 3 < 255 :=
    ⟨_, rfl, ⟨rfl, rfl, rfl, rfl, rfl⟩, by decide, rfl, by decide⟩
  exact ⟨kernel, boot, (launch_agrees_iff chain (by simp) ready fresh).mpr ⟨3, by simp, below⟩⟩

end Kernel

namespace Config

/-- A program whose `main` spawns nothing. -/
def bare : Config 1 where
  tokens := []
  idle := 0
  semaphore _ := (0, 1)
  channel _ := 1
  pool _ := 1
  distinct := by simp
  poolBound := one_pool_slot

end Config

namespace Kernel

/-- With the idle task alone the launch leaves `CURRENT` null and dereferences it, where
`find_next` selects the idle task. -/
theorem not_launch_agrees_idle : ∃ kernel : Rtos 1 Nat,
    Config.bare.boot Nat (TcbPtr 1) (TcbPtr 1) = .ok kernel ∧
    Linked.Chain kernel.allLink kernel.allTasks [0] ∧
    (∀ task ∈ [0], (kernel.tcb task).state.isReady = true) ∧ kernel.current = none ∧
    kernel.findNext = .ok 0 ∧ kernel.svcFirstTaskSp = .error .nullPointer ∧
    ¬ kernel.LaunchAgrees [0] := by
  refine ⟨_, rfl, ⟨rfl, rfl⟩, by decide, rfl, rfl, rfl, ?_⟩
  rintro ⟨_, _, _, _, _, launched, _⟩
  cases launched

end Kernel

end Kangaroos
