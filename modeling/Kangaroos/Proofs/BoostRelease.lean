import Kangaroos.Proofs.PriorityInheritance

/-!
# A boost ends with the last mutex

`lock` raises the priority of an owner and every release puts the releasing task back to its
base priority, even while it owns other mutexes. So whatever the order of locks, releases and
waits, a task that owns no mutex runs at its base priority.
-/

namespace Kangaroos

namespace Spec

variable {n : Nat} {V : Type} {kernel after : Spec n V} {id : Nat}

/-- Priorities are raised only, and only for owners of mutexes. -/
structure OwnersRaised (kernel : Spec n V) : Prop where
  raised : ∀ task, (kernel.tcb task).priority ≤ (kernel.tcb task).basePriority
  owns : ∀ task, (kernel.tcb task).priority ≠ (kernel.tcb task).basePriority →
    ∃ id, kernel.owner id = some task

namespace OwnersRaised

/-- Priorities stay, and no owner loses all its mutexes. -/
theorem frame (owners : OwnersRaised kernel)
    (base : ∀ task, (after.tcb task).basePriority = (kernel.tcb task).basePriority)
    (priority : ∀ task, (after.tcb task).priority = (kernel.tcb task).priority)
    (owner : ∀ id task, kernel.owner id = some task → ∃ id', after.owner id' = some task) :
    OwnersRaised after where
  raised task := by
    rw [base, priority]
    exact owners.raised task
  owns task boosted := by
    rw [base, priority] at boosted
    obtain ⟨id, owned⟩ := owners.owns task boosted
    exact owner id task owned

/-- The owner of a mutex takes over a more urgent priority. -/
theorem boost (owners : OwnersRaised kernel) {owner current : Fin n}
    (owned : kernel.owner id = some owner)
    (base : ∀ task, (after.tcb task).basePriority = (kernel.tcb task).basePriority)
    (priority : ∀ task, (after.tcb task).priority = ((kernel.boost owner current).tcb task).priority)
    (sameOwner : ∀ id, after.owner id = kernel.owner id) : OwnersRaised after where
  raised task := by
    rw [base, priority, boost_priority]
    split
    · rename_i isOwner
      subst isOwner
      exact (min_le_left _ _).trans (owners.raised task)
    · exact owners.raised task
  owns task boosted := by
    rw [base, priority, boost_priority] at boosted
    split at boosted
    · rename_i isOwner
      subst isOwner
      exact ⟨id, by rw [sameOwner, owned]⟩
    · obtain ⟨other, isOwner⟩ := owners.owns task boosted
      exact ⟨other, by rw [sameOwner, isOwner]⟩

/-- A release puts its task back to the base priority. -/
theorem release (owners : OwnersRaised kernel) {task : Fin n}
    (owned : kernel.owner id = some task)
    (base : ∀ other, (after.tcb other).basePriority = (kernel.tcb other).basePriority)
    (priority : ∀ other, (after.tcb other).priority =
      if other = task then (kernel.tcb task).basePriority else (kernel.tcb other).priority)
    (others : ∀ other, other ≠ id → after.owner other = kernel.owner other) :
    OwnersRaised after where
  raised other := by
    rw [base, priority]
    split
    · rename_i isTask
      rw [isTask]
    · exact owners.raised other
  owns other boosted := by
    rw [base, priority] at boosted
    split at boosted
    · rename_i isTask
      exact absurd (by rw [isTask]) boosted
    · rename_i different
      obtain ⟨mutex, isOwner⟩ := owners.owns other boosted
      have kept : mutex ≠ id := by
        rintro rfl
        exact different (Option.some.inj (isOwner.symm.trans owned))
      exact ⟨mutex, by rw [others mutex kept, isOwner]⟩

end OwnersRaised

end Spec

namespace SpecMachine

variable {n : Nat} {V : Type} {config : Config n} {machine next : SpecMachine n V}

/-- No step changes a base priority. -/
theorem Moves.basePriority {action : Action V} (moves : Moves machine action next) (task : Fin n) :
    (next.kernel.tcb task).basePriority = (machine.kernel.tcb task).basePriority := by
  cases moves with
  | scheduled scheduled => exact (scheduled.moved.fixed task).2.1
  | isr safe returned contract slots =>
      obtain ⟨_, effect, _⟩ := contract.effect
      exact (effect.fixed task).1
  | call isCurrent runs may returned contract =>
      obtain ⟨_, effect, _⟩ := contract.effect
      exact (effect.fixed task).1
  | ret runs returns => cases returns <;> rfl
  | _ => rfl

/-- Critical sections raise owners only. -/
theorem Core.ownersRaised_call (core : Core config machine)
    (owners : Spec.OwnersRaised machine.kernel) (guarded : ∀ id, Guarded machine id) {call : Call V}
    {task : Fin n} {kernel : Spec n V} {outcome : Outcome}
    (isCurrent : machine.kernel.current = some task)
    (runs : (machine.kernel.tcb task).state.isRunning = true)
    (may : (machine.thread task).mayCall call = true)
    (returned : call.run (some task) machine.kernel = .ok (kernel, outcome))
    (contract : call.Contract (some task) machine.kernel (kernel, outcome)) :
    Spec.OwnersRaised kernel := by
  obtain ⟨flag, effect, _⟩ := contract.effect
  have base : ∀ other, (kernel.tcb other).basePriority = (machine.kernel.tcb other).basePriority :=
    fun other => (effect.fixed other).1
  cases core.mutexStep guarded isCurrent runs may returned contract with
  | apart harmless waitHead owner priority =>
      exact owners.frame base priority fun id holder owned => ⟨id, (owner id).trans owned⟩
  | acquire acquires free taken =>
      rename_i id
      rw [taken] at base ⊢
      refine owners.frame base (fun _ => rfl) fun other holder owned => ⟨other, ?_⟩
      have different : other ≠ id := by
        rintro rfl
        simp [free] at owned
      simpa [different] using owned
  | wait locks owned blocked =>
      rename_i id owner
      rw [blocked] at base ⊢
      refine owners.boost owned base (fun other => Spec.setState_priority ..) fun other => ?_
      exact congrFun (congrArg Statics.owner (Spec.boost_toStatics machine.kernel owner task)) other
  | release releases owned passed waitHead owner priority =>
      exact owners.release owned base priority owner

/-- A section of a task does not make it more urgent, and makes no other task less urgent. -/
theorem Core.call_priority (core : Core config machine)
    (owners : Spec.OwnersRaised machine.kernel) (guarded : ∀ id, Guarded machine id) {call : Call V}
    {task : Fin n} {kernel : Spec n V} {outcome : Outcome}
    (isCurrent : machine.kernel.current = some task)
    (runs : (machine.kernel.tcb task).state.isRunning = true)
    (may : (machine.thread task).mayCall call = true)
    (returned : call.run (some task) machine.kernel = .ok (kernel, outcome))
    (contract : call.Contract (some task) machine.kernel (kernel, outcome)) :
    (machine.kernel.tcb task).priority ≤ (kernel.tcb task).priority ∧
      ∀ other, other ≠ task → (kernel.tcb other).priority ≤ (machine.kernel.tcb other).priority := by
  cases core.mutexStep guarded isCurrent runs may returned contract with
  | apart harmless waitHead owner priority =>
      exact ⟨(priority task).ge, fun other _ => (priority other).le⟩
  | acquire acquires free taken =>
      rw [taken]
      exact ⟨le_rfl, fun _ _ => le_rfl⟩
  | wait locks owned blocked =>
      rename_i id owner
      have boosted : ∀ other, (kernel.tcb other).priority =
          ((Spec.boost machine.kernel owner task).tcb other).priority := by
        rw [blocked]
        exact fun other => Spec.setState_priority ..
      refine ⟨?_, fun other _ => ?_⟩
      · rw [boosted, Spec.boost_priority]
        split
        · rename_i same
          rw [same, min_self]
        · exact le_rfl
      · rw [boosted, Spec.boost_priority]
        split
        · rename_i same
          rw [same]
          exact min_le_left _ _
        · exact le_rfl
  | release releases owned passed waitHead owner priority =>
      refine ⟨?_, fun other different => ?_⟩
      · rw [priority, if_pos rfl]
        exact owners.raised task
      · rw [priority, if_neg different]

/-- So do all steps. -/
theorem Core.ownersRaised_moves (core : Core config machine) {action : Action V}
    (moves : Moves machine action next) (owners : Spec.OwnersRaised machine.kernel)
    (guarded : ∀ id, Guarded machine id) :
    Spec.OwnersRaised next.kernel := by
  by_cases isCall : ∃ call, action = .call call
  · obtain ⟨call, rfl⟩ := isCall
    cases moves with
    | scheduled scheduled schedules => simp [Action.schedules] at schedules
    | call isCurrent runs may returned contract =>
        exact core.ownersRaised_call owners guarded isCurrent runs may returned contract
  · obtain ⟨_, owner, priority⟩ := moves.mutexes_same fun call same => isCall ⟨call, same⟩
    exact owners.frame moves.basePriority priority fun id holder owned =>
      ⟨id, (owner id).trans owned⟩

/-- In every reachable state only owners of mutexes are raised. -/
theorem ownersRaised_of_reachable (reachable : (system config V).Reachable machine) :
    Spec.OwnersRaised machine.kernel := by
  refine reachable.invariant (fun machine => Spec.OwnersRaised machine.kernel) ?_ ?_
  · rintro state ⟨kernel, boot, rfl⟩
    have booted := Config.booted_of_boot boot
    have same : ∀ task, (kernel.tcb task).priority = (kernel.tcb task).basePriority := by
      intro task
      by_cases member : task ∈ config.order
      · exact booted.priority task member
      · rw [booted.others task member]
        rfl
    exact ⟨fun task => (same task).le, fun task boosted => absurd (same task) boosted⟩
  · intro state action after reached owners performed
    have core := core_of_reachable reached
    exact core.ownersRaised_moves (core.moves (Machine.step_of_perform performed)) owners
      (guarded_of_reachable reached)

end SpecMachine

/-- The TCBs as spawned have the base priorities of their tokens. -/
theorem Kernel.basePriority_of_spawns {n : Nat} {V Link Head : Type}
    {kernel after : Kernel n V Link Head} {tokens : List (SpawnToken n)}
    (distinct : (tokens.map SpawnToken.tcb).Nodup)
    (spawned : tokens.foldlM Kernel.spawnInto kernel = .ok after) :
    (∀ token ∈ tokens, (after.tcb token.tcb).basePriority = token.priority) ∧
      ∀ task, task ∉ tokens.map SpawnToken.tcb → after.tcb task = kernel.tcb task := by
  induction tokens generalizing kernel with
  | nil =>
      obtain rfl : kernel = after := Except.ok.inj spawned
      exact ⟨by simp, fun _ _ => rfl⟩
  | cons token rest ih =>
      rw [List.foldlM_cons] at spawned
      obtain ⟨middle, first, remaining⟩ := Except.ok_of_bind spawned
      obtain ⟨fresh, distinctRest⟩ := List.nodup_cons.mp distinct
      obtain ⟨later, others⟩ := ih distinctRest remaining
      unfold Kernel.spawnInto at first
      split at first
      · simp at first
      · simp only [Except.ok.injEq] at first
        subst first
        constructor
        · intro other member
          rcases List.mem_cons.mp member with rfl | inRest
          · rw [others _ fresh]
            simp
          · exact later other inRest
        · intro task outside
          rw [List.map_cons, List.mem_cons, not_or] at outside
          rw [others task outside.2]
          simp [outside.1]

namespace RepMachine

variable {n : Nat} {V : Type} {config : Config n} {machine : RtosMachine n V}

/-- Base priorities are those of the spawns in every reachable state. -/
theorem basePriority_eq (reachable : (system config V).Reachable machine) {token : SpawnToken n}
    (spawned : token ∈ config.tokens ++ [config.idleToken]) :
    (machine.kernel.tcb token.tcb).basePriority = token.priority := by
  obtain ⟨spec, reach, rep⟩ := exists_spec reachable
  rw [rep.kernel.basePriority]
  clear reachable rep
  refine reach.invariant
    (fun spec => (spec.kernel.tcb token.tcb).basePriority = token.priority) ?_ ?_
  · rintro state ⟨kernel, boot, rfl⟩
    have distinct : ((config.tokens ++ [config.idleToken]).map SpawnToken.tcb).Nodup := by
      have both := config.distinct
      rw [List.nodup_cons] at both
      simp only [List.map_append, List.map_cons, List.map_nil]
      refine List.nodup_append.mpr ⟨both.2, by simp, ?_⟩
      rintro task member _ isIdle rfl
      obtain rfl : task = config.idle := by simpa [Config.idleToken] using isIdle
      exact both.1 member
    exact (Kernel.basePriority_of_spawns distinct boot).1 token spawned
  · intro state action after reached same performed
    have core := SpecMachine.core_of_reachable reached
    exact ((core.moves (Machine.step_of_perform performed)).basePriority token.tcb).trans same

/-- No boost is stuck or spurious. In every reachable state every task is at least as urgent as
its base priority, the base priority of every task is the one it was spawned with, and a task
that owns no mutex runs at its base priority. -/
theorem boosted_only_owners (reachable : (system config V).Reachable machine) :
    (∀ task, (machine.kernel.tcb task).priority ≤ (machine.kernel.tcb task).basePriority) ∧
    (∀ token ∈ config.tokens ++ [config.idleToken],
      (machine.kernel.tcb token.tcb).basePriority = token.priority) ∧
    ∀ task, (∀ id, machine.kernel.owner id ≠ some task) →
      (machine.kernel.tcb task).priority = (machine.kernel.tcb task).basePriority := by
  obtain ⟨spec, reach, rep⟩ := exists_spec reachable
  have owners := SpecMachine.ownersRaised_of_reachable reach
  refine ⟨fun task => ?_, fun token => basePriority_eq reachable, fun task free => ?_⟩
  · rw [rep.kernel.priority, rep.kernel.basePriority]
    exact owners.raised task
  · rw [rep.kernel.priority, rep.kernel.basePriority]
    by_contra boosted
    obtain ⟨id, owned⟩ := owners.owns task boosted
    refine free id ?_
    rw [rep.kernel.statics]
    exact owned

/-- Task 3 is boosted by task 1, so it owns a mutex. -/
theorem boosted_only_owners_one : ∃ machine : RtosMachine 4 Unit,
    (machine.kernel.tcb 3).priority = 10 ∧ (machine.kernel.tcb 3).basePriority = 30 ∧
    ∃ id, machine.kernel.owner id = some 3 := by
  let actions : List (Action Unit) := [.launch] ++ Config.thenSwitch (.take 0) ++
    Config.thenSwitch (.take 1) ++ [.call (.lock 0), .ret] ++ Config.thenSwitch (.give 0) ++
    [.ret] ++ Config.thenSwitch (.lock 0)
  let check (machine : RtosMachine 4 Unit) : Bool :=
    (machine.kernel.tcb 3).priority = 10 ∧ (machine.kernel.tcb 3).basePriority = 30
  obtain ⟨machine, reachable, checked⟩ := Machine.exists_of_check actions check
    (by decide +kernel : (Config.small 10 20 30).passes Unit _ _ actions check = true)
  obtain ⟨boosted, base⟩ := of_decide_eq_true checked
  obtain ⟨_, _, unboosted⟩ := boosted_only_owners reachable
  refine ⟨machine, boosted, base, ?_⟩
  by_contra free
  have same := unboosted 3 fun id owned => free ⟨id, owned⟩
  rw [boosted, base] at same
  cases same

end RepMachine

end Kangaroos
