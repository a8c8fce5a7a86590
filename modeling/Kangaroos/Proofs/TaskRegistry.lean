import Kangaroos.Proofs.FindNext

/-!
# The task registry

`spawn_into` prepends a TCB to `ALL_TASKS` whether or not it is there already. The list is
null-terminated exactly when no factory was called twice; a second spawn of a TCB closes a
cycle that no later spawn opens again. Over a null-terminated list every loop of the
scheduler ends.
-/

namespace Kangaroos

namespace Kernel

variable {n : Nat} {V Link Head : Type} {kernel after : Kernel n V Link Head}
  {order : List (Fin n)}

/-- `ALL_TASKS` is a null-terminated list with each spawned TCB once. -/
def Registered (kernel : Kernel n V Link Head) (spawned : List (Fin n)) : Prop :=
  ∃ order : List (Fin n), Linked.Chain kernel.allLink kernel.allTasks order ∧ order.Nodup ∧
    ∀ task, task ∈ order ↔ task ∈ spawned

/-- The traversals of `ALL_TASKS` end. -/
def TraversalsEnd (kernel : Kernel n V Link Head) : Prop :=
  kernel.findNext ≠ .error .diverges ∧ kernel.tick ≠ .error .diverges ∧
    kernel.svcFirstTaskSp ≠ .error .diverges ∧
    ∀ canaryCheck, systickHandler canaryCheck kernel ≠ .error .diverges

section Spawn

variable {token : SpawnToken n} {tokens : List (SpawnToken n)}

/-- What a spawn does to the list. -/
theorem spawnInto_links (spawned : kernel.spawnInto token = .ok after) :
    after.allLink = Function.update kernel.allLink token.tcb kernel.allTasks ∧
      after.allTasks = some token.tcb ∧ after.current = kernel.current := by
  unfold Kernel.spawnInto at spawned
  split at spawned
  · simp at spawned
  · simp only [Except.ok.injEq] at spawned
    subst spawned
    refine ⟨funext fun task => ?_, rfl, rfl⟩
    by_cases same : task = token.tcb
    · subst same
      simp [Kernel.allLink]
    · simp [Kernel.allLink, same]

/-- A list with a cycle stays one. -/
theorem endless_of_spawn (endless : Linked.Endless kernel.allLink kernel.allTasks)
    (spawned : tokens.foldlM Kernel.spawnInto kernel = .ok after) :
    Linked.Endless after.allLink after.allTasks := by
  induction tokens generalizing kernel with
  | nil =>
      obtain rfl : kernel = after := Except.ok.inj spawned
      exact endless
  | cons token rest ih =>
      rw [List.foldlM_cons] at spawned
      obtain ⟨middle, first, remaining⟩ := Except.ok_of_bind spawned
      obtain ⟨links, head, _⟩ := spawnInto_links first
      refine ih ?_ remaining
      rw [links, head]
      exact endless.push token.tcb

/-- The list after the spawns: reversed and proper as long as no TCB came twice. -/
theorem spawned_links (chain : Linked.Chain kernel.allLink kernel.allTasks order)
    (spawned : tokens.foldlM Kernel.spawnInto kernel = .ok after) :
    ((tokens.map SpawnToken.tcb).reverse ++ order).Nodup ∧
        Linked.Chain after.allLink after.allTasks ((tokens.map SpawnToken.tcb).reverse ++ order) ∨
      ¬ ((tokens.map SpawnToken.tcb).reverse ++ order).Nodup ∧
        Linked.Endless after.allLink after.allTasks := by
  induction tokens generalizing kernel order with
  | nil =>
      obtain rfl : kernel = after := Except.ok.inj spawned
      exact .inl ⟨by simpa using chain.nodup, by simpa using chain⟩
  | cons token rest ih =>
      rw [List.foldlM_cons] at spawned
      obtain ⟨middle, first, remaining⟩ := Except.ok_of_bind spawned
      obtain ⟨links, head, _⟩ := spawnInto_links first
      have split : ((token :: rest).map SpawnToken.tcb).reverse ++ order =
          (rest.map SpawnToken.tcb).reverse ++ token.tcb :: order := by simp
      rw [split]
      by_cases member : token.tcb ∈ order
      · refine .inr ⟨fun distinct => ?_, ?_⟩
        · exact (List.nodup_cons.mp (List.nodup_append.mp distinct).2.1).1 member
        · refine endless_of_spawn ?_ remaining
          rw [links, head]
          exact chain.push_again member
      · refine ih ?_ remaining
        rw [links, head]
        exact chain.push member

end Spawn

/-- Over a null-terminated list every traversal ends. -/
theorem traversals_end (chain : Linked.Chain kernel.allLink kernel.allTasks order)
    (listed : ∀ task, kernel.current = some task → task ∈ order) : kernel.TraversalsEnd := by
  have enough : order.length ≤ n := by simpa using chain.nodup.length_le_card
  obtain ⟨ticked, preempt, ticks, links, head⟩ := tick_returns chain
  refine ⟨fun diverged => ?_, fun diverged => ?_, fun diverged => ?_, fun canaryCheck diverged => ?_⟩
  · rcases findNext_found chain listed with ⟨task, returned, _⟩ | ⟨panics, _⟩
    · cases returned.symm.trans diverged
    · cases panics.symm.trans diverged
  · cases ticks.symm.trans diverged
  · have launches : Triple kernel.svcFirstTaskSp (fun _ => True) (· ≠ .diverges) := by
      rw [Kernel.svcFirstTaskSp, svcSearch_eq chain enough, Except.ok_bind]
      generalize order.foldl kernel.launchConsider (none, 255) = best
      obtain ⟨first, priority⟩ := best
      cases first with
      | none => simp [Triple, bind, Except.bind]
      | some first =>
          simp only [deref_some, Except.ok_bind, Kernel.markRunning]
          split <;> simp [Triple, bind, Except.bind]
    exact launches.of_error diverged rfl
  · rw [← links, ← head] at chain
    have handles : Triple (systickHandler canaryCheck kernel) (fun _ => True) (· ≠ .diverges) := by
      rw [systickHandler, ticks, Except.ok_bind]
      simp only [canaryPass_eq chain enough]
      split
      · exact fun stackFault => Fault.noConfusion stackFault
      · trivial
    exact handles.of_error diverged rfl

section Registry

variable {functions : Nat} {statics : TaskStatics n functions} {calls : List (Fin functions)}

/-- The TCBs `main` and `kernel::start` spawn. -/
def spawnedTcbs (statics : TaskStatics n functions) (calls : List (Fin functions)) :
    List (Fin n) :=
  statics.idle :: calls.map fun function => (statics.factory function).tcb

/-- `ALL_TASKS` after the boot. -/
theorem spawnAll_links (empty : kernel.allTasks = none)
    (booted : spawnAll statics calls kernel = .ok after) :
    calls.Nodup ∧ Linked.Chain after.allLink after.allTasks (statics.idle ::
        (calls.map fun function => (statics.factory function).tcb).reverse) ∨
      ¬ calls.Nodup ∧ Linked.Endless after.allLink after.allTasks := by
  obtain ⟨middle, spawned, registered⟩ := Except.ok_of_bind booted
  obtain ⟨links, head, _⟩ := spawnInto_links registered
  have start : Linked.Chain kernel.allLink kernel.allTasks [] := empty
  have same : (calls.map statics.factory).map SpawnToken.tcb =
      calls.map fun function => (statics.factory function).tcb := by simp
  have distinct : (calls.map fun function => (statics.factory function).tcb).Nodup ↔ calls.Nodup :=
    List.nodup_map_iff fun first second => statics.ownTcb first second
  rw [links, head]
  rcases spawned_links start spawned with ⟨once, chain⟩ | ⟨twice, endless⟩
  · rw [same, List.append_nil] at once chain
    refine .inl ⟨distinct.mp (List.nodup_reverse.mp once), chain.push ?_⟩
    simp only [List.mem_reverse, List.mem_map, not_exists, not_and]
    exact fun function _ => statics.notIdle function
  · rw [same, List.append_nil, List.nodup_reverse, distinct] at twice
    exact .inr ⟨twice, endless.push statics.idle⟩

/-- The registry is a proper list exactly when no factory was called twice; then every traversal
ends, also later, with other tasks ready and another one running. -/
theorem registered_iff (empty : kernel.allTasks = none)
    (booted : spawnAll statics calls kernel = .ok after) :
    (after.Registered (spawnedTcbs statics calls) ∧
      ∀ later : Kernel n V Link Head, later.allLink = after.allLink →
        later.allTasks = after.allTasks →
        (∀ task, later.current = some task → task ∈ spawnedTcbs statics calls) →
        later.TraversalsEnd) ↔ calls.Nodup := by
  rcases spawnAll_links empty booted with ⟨once, chain⟩ | ⟨twice, endless⟩
  · have same : ∀ task, task ∈ statics.idle ::
        (calls.map fun function => (statics.factory function).tcb).reverse ↔
          task ∈ spawnedTcbs statics calls := by
      simp [spawnedTcbs]
    refine ⟨fun _ => once, fun _ => ⟨⟨_, chain, chain.nodup, same⟩, ?_⟩⟩
    intro later links head listed
    rw [← links, ← head] at chain
    exact traversals_end chain fun task isCurrent => (same task).mpr (listed task isCurrent)
  · refine ⟨?_, fun once => absurd once twice⟩
    rintro ⟨⟨order, chain, _⟩, _⟩
    exact absurd chain (endless.not_chain order)

end Registry

end Kernel

namespace Config

variable {n : Nat} {V : Type}

/-- The statics of the programs of a configuration. -/
def statics (config : Config n) : TaskStatics n config.tokens.length where
  factory := config.tokens.get
  idle := config.idle
  idleStack := 0
  ownTcb first second same := by
    have distinct := (List.nodup_cons.mp config.distinct).2
    have bound : ∀ index : Fin config.tokens.length,
        index.val < (config.tokens.map SpawnToken.tcb).length := by simp
    have equal : (config.tokens.map SpawnToken.tcb).get ⟨first, bound first⟩ =
        (config.tokens.map SpawnToken.tcb).get ⟨second, bound second⟩ := by
      simpa using same
    have index := distinct.get_inj_iff.mp equal
    simpa [Fin.ext_iff] using index
  notIdle function same := by
    have apart := (List.nodup_cons.mp config.distinct).1
    exact apart (same ▸ List.mem_map_of_mem (List.get_mem _ _))

/-- The programs of the other results call each factory once. -/
theorem boot_eq_spawnAll (config : Config n) (V Link Head : Type) [ops : WaitOps n V Link Head] :
    config.boot V Link Head =
      Kernel.spawnAll config.statics (List.finRange config.tokens.length)
        (config.reset V Link Head) := by
  simp only [boot, Kernel.spawnAll, statics, List.map_get_finRange, List.foldlM_append]
  rfl

end Config

namespace RepMachine

variable {n : Nat} {V : Type} {config : Config n} {machine : RtosMachine n V}

/-- Every reachable state has the tasks of the boot on `ALL_TASKS`, `CURRENT` among them. -/
theorem registry (reachable : (system config V).Reachable machine) :
    Linked.Chain machine.kernel.allLink machine.kernel.allTasks config.order ∧
      (∀ task, machine.kernel.current = some task → task ∈ config.order) ∧
      ∀ task, (machine.kernel.tcb task).state ≠ .uninit → task ∈ config.order := by
  obtain ⟨spec, reach, rep⟩ := exists_spec reachable
  have core := SpecMachine.core_of_reachable reach
  have links : machine.kernel.allLink = spec.kernel.allLink := funext rep.kernel.allNext
  refine ⟨?_, fun task isCurrent => core.member task ?_, fun task alive => core.spawned task ?_⟩
  · rw [links, rep.kernel.statics]
    exact core.chain
  · rw [← rep.kernel.statics]
    exact isCurrent
  · intro dormant
    have same := rep.kernel.state task
    rw [dormant] at same
    cases state : (machine.kernel.tcb task).state <;> simp_all [TaskState.forget]

/-- In every reachable state the traversals end. -/
theorem traversals_end (reachable : (system config V).Reachable machine) :
    machine.kernel.TraversalsEnd := by
  obtain ⟨chain, listed, _⟩ := registry reachable
  exact Kernel.traversals_end chain listed

end RepMachine

namespace Kernel

/-- A program with three `task` functions. -/
def threeTasks : TaskStatics 4 3 := (Config.small 10 20 30).statics

/-- The registry of that program after some calls of its factories. -/
def spawnThree (calls : List (Fin 3)) : Exec (Rtos 4 Nat) :=
  spawnAll threeTasks calls ((Config.small 10 20 30).reset Nat (TcbPtr 4) (TcbPtr 4))

/-- Two factories called once each. -/
theorem registered_iff_small : ∃ kernel : Rtos 4 Nat,
    spawnThree [2, 0] = .ok kernel ∧ kernel.Registered [0, 3, 1] := by
  obtain ⟨kernel, booted⟩ : ∃ kernel : Rtos 4 Nat, spawnThree [2, 0] = .ok kernel := ⟨_, rfl⟩
  exact ⟨kernel, booted, ((registered_iff rfl booted).mpr (by decide)).1⟩

/-- A factory called twice in a row: behind the idle task its TCB links to itself, and the
launch never ends. -/
theorem not_registered_twice : ∃ kernel : Rtos 4 Nat, spawnThree [1, 1] = .ok kernel ∧
    kernel.svcFirstTaskSp = .error .diverges ∧ ¬ kernel.TraversalsEnd ∧
    ¬ kernel.Registered [0, 2, 2] := by
  obtain ⟨kernel, booted, head, first, second, launched⟩ : ∃ kernel : Rtos 4 Nat,
      spawnThree [1, 1] = .ok kernel ∧ kernel.allTasks = some 0 ∧ kernel.allLink 0 = some 2 ∧
        kernel.allLink 2 = some 2 ∧ kernel.svcFirstTaskSp = .error .diverges :=
    ⟨_, rfl, rfl, rfl, rfl, rfl⟩
  refine ⟨kernel, booted, launched, fun ends => ends.2.2.1 launched, ?_⟩
  rintro ⟨order, chain, _⟩
  refine Linked.Endless.not_chain ⟨[0, 2], ⟨0, by simp, head⟩, ?_⟩ order chain
  intro node inside
  simp only [List.mem_cons, List.not_mem_nil, or_false] at inside
  rcases inside with rfl | rfl
  · exact ⟨2, by simp, first⟩
  · exact ⟨2, by simp, second⟩

end Kernel

end Kangaroos
