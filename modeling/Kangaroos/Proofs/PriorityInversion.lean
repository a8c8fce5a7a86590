import Mathlib.Order.Bounds.Basic
import Kangaroos.Proofs.BoostRelease
import Kangaroos.Proofs.Deadlock
import Kangaroos.Proofs.MostUrgent

/-!
# Priority inversion

Priority inheritance and the scheduler together. Where tasks lock one mutex at a time, every
task runs at exactly the priority of the most urgent one it keeps waiting, itself included. And
where the inheritance is complete and no preemption is lost, a task that executes is at least
as urgent as every task that waits, at a mutex or along a chain of them, for one that could run.
-/

namespace Kangaroos

variable {n : Nat} {V : Type}

/-- A task that asks for a mutex owns none. -/
def Kernel.OneAtATime {Link Head : Type} (kernel : Kernel n V Link Head) : Action V → Prop
  | .call (.lock _) | .call (.tryLock _) =>
    ∀ task held, kernel.current = some task → kernel.owner held ≠ some task
  | _ => True

/-- The base priorities a task runs for: its own, and those of the tasks that wait for a mutex it
owns. -/
def Kernel.claims (kernel : Rtos n V) (task : Fin n) : Set U8 :=
  {priority | priority = (kernel.tcb task).basePriority ∨ ∃ id waiter,
    kernel.owner id = some task ∧ kernel.WaitsOn (.mutex id) waiter ∧
      priority = (kernel.tcb waiter).basePriority}

namespace Spec

variable {kernel after : Spec n V} {id : Nat}

/-- A task runs at its base priority, or at that of a waiter. -/
def Lent (kernel : Spec n V) (task : Fin n) : Prop :=
  (kernel.tcb task).priority = (kernel.tcb task).basePriority ∨ ∃ id waiter,
    kernel.owner id = some task ∧ waiter ∈ kernel.waitHead (.mutex id) ∧
      (kernel.tcb task).priority = (kernel.tcb waiter).priority

/-- It does as long as it keeps its priority and its mutexes, and these their waiters. -/
theorem Lent.frame {task : Fin n} (lent : Lent kernel task)
    (base : (after.tcb task).basePriority = (kernel.tcb task).basePriority)
    (priority : (after.tcb task).priority = (kernel.tcb task).priority)
    (kept : ∀ id, kernel.owner id = some task → after.owner id = some task ∧
      ∀ waiter ∈ kernel.waitHead (.mutex id), waiter ∈ after.waitHead (.mutex id) ∧
        (after.tcb waiter).priority = (kernel.tcb waiter).priority) : Lent after task := by
  unfold Lent
  rw [base, priority]
  refine lent.imp_right ?_
  rintro ⟨id, waiter, owned, waits, same⟩
  obtain ⟨still, waiters⟩ := kept id owned
  obtain ⟨waits', same'⟩ := waiters waiter waits
  exact ⟨id, waiter, still, waits', same.trans same'.symm⟩

/-- Tasks own one mutex each at most, and none while they wait for one; and a raised priority is
that of a waiter. -/
structure OneEach (kernel : Spec n V) : Prop where
  single : ∀ task id held, kernel.owner id = some task → kernel.owner held = some task → id = held
  free : ∀ task id held, task ∈ kernel.waitHead (.mutex id) → kernel.owner held ≠ some task
  lent : ∀ task, Lent kernel task

/-- Waiters run at their base priority. -/
theorem OneEach.waiter (each : OneEach kernel) {task : Fin n}
    (waits : task ∈ kernel.waitHead (.mutex id)) :
    (kernel.tcb task).priority = (kernel.tcb task).basePriority := by
  rcases each.lent task with base | ⟨held, _, owned, _⟩
  · exact base
  · exact absurd owned (each.free task id held waits)

/-- A task that comes to wait lends its priority to the owner. -/
theorem OneEach.lent_wait (each : OneEach kernel) {owner current : Fin n}
    (owned : kernel.owner id = some owner) (alone : ∀ held, kernel.owner held ≠ some current)
    (blocked : after = (kernel.boost owner current).blockAndPush (.mutex id) current)
    (base : ∀ task, (after.tcb task).basePriority = (kernel.tcb task).basePriority)
    (task : Fin n) : Lent after task := by
  have priority : ∀ other, (after.tcb other).priority =
      if other = owner then min (kernel.tcb owner).priority (kernel.tcb current).priority
      else (kernel.tcb other).priority := by
    intro other
    rw [← boost_priority, blocked]
    exact setState_priority ..
  have owners : ∀ other, after.owner other = kernel.owner other := by
    intro other
    simp [blocked, blockAndPush]
  have joins : ∀ other waiter, waiter ∈ kernel.waitHead (.mutex other) →
      waiter ∈ after.waitHead (.mutex other) := by
    intro other waiter waits
    by_cases same : other = id
    · subst same
      simp [blocked, blockAndPush, waits]
    · simp [blocked, blockAndPush, same, waits]
  -- the owner, whose priority changes, waits for no mutex itself
  have steady : ∀ other waiter, waiter ∈ kernel.waitHead (.mutex other) →
      (after.tcb waiter).priority = (kernel.tcb waiter).priority := by
    intro other waiter waits
    rw [priority, if_neg]
    rintro rfl
    exact each.free waiter other id waits owned
  have framed : (after.tcb task).priority = (kernel.tcb task).priority → Lent after task :=
    fun same => (each.lent task).frame (base task) same fun other isOwner =>
      ⟨(owners other).trans isOwner, fun waiter waits =>
        ⟨joins other waiter waits, steady other waiter waits⟩⟩
  by_cases isOwner : task = owner
  · subst isOwner
    rcases le_total (kernel.tcb task).priority (kernel.tcb current).priority with behind | raised
    · exact framed (by rw [priority, if_pos rfl, min_eq_left behind])
    · refine .inr ⟨id, current, (owners id).trans owned, ?_, ?_⟩
      · simp [blocked, blockAndPush]
      · have different : current ≠ task := by
          rintro rfl
          exact alone id owned
        rw [priority, if_pos rfl, min_eq_right raised, priority current, if_neg different]
  · exact framed (by rw [priority, if_neg isOwner])

end Spec

namespace SpecMachine

variable {config : Config n} {machine next : SpecMachine n V} {id : Nat} {action : Action V}

/-- A task that waits after a step owns no mutex. -/
theorem Moves.free_kept (moves : Moves machine action next) (core : Core config machine)
    (guarded : ∀ id, Guarded machine id) (each : Spec.OneEach machine.kernel)
    (alone : machine.kernel.OneAtATime action) (task : Fin n) (id held : Nat)
    (waits : task ∈ next.kernel.waitHead (.mutex id)) : next.kernel.owner held ≠ some task := by
  intro owned
  have before := moves.owner_of_waiting core guarded waits owned
  rcases moves.waiting_cases core guarded waits with waited | ⟨rfl, isCurrent, _⟩
  · exact each.free task id held waited before
  · exact alone task held isCurrent before

/-- No task comes to own two mutexes. -/
theorem Moves.single_kept (moves : Moves machine action next) (core : Core config machine)
    (guarded : ∀ id, Guarded machine id) (each : Spec.OneEach machine.kernel)
    (alone : machine.kernel.OneAtATime action) (task : Fin n) (id held : Nat)
    (owned : next.kernel.owner id = some task) (owned' : next.kernel.owner held = some task) :
    id = held := by
  -- a mutex is new to its owner only where that task owned none
  obtain ⟨fresh, gains⟩ : ∃ fresh, ∀ other, next.kernel.owner other = some task →
      machine.kernel.owner other = some task ∨
        other = fresh ∧ ∀ mutex, machine.kernel.owner mutex ≠ some task := by
    rcases moves.mutexStep core guarded with ⟨_, owner, _⟩ | ⟨call, caller, rfl, isCurrent, runs, step⟩
    · exact ⟨0, fun other owned => .inl ((owner other).symm.trans owned)⟩
    · cases step with
      | apart harmless waitHead owner =>
          exact ⟨0, fun other owned => .inl ((owner other).symm.trans owned)⟩
      | acquire acquires free taken =>
          rename_i mutex
          refine ⟨mutex, fun other owned => ?_⟩
          rw [taken] at owned
          by_cases same : other = mutex
          · have isTask : machine.kernel.current = some task := by simpa [same] using owned
            refine .inr ⟨same, fun held => ?_⟩
            rcases acquires with rfl | rfl <;> exact alone task held isTask
          · exact .inl (by simpa [same] using owned)
      | wait locks contended blocked =>
          exact ⟨0, fun other owned => .inl (by simpa [blocked, Spec.blockAndPush] using owned)⟩
      | release releases held passed waitHead owner =>
          rename_i mutex priority
          refine ⟨mutex, fun other owned => ?_⟩
          by_cases same : other = mutex
          · subst same
            rcases passed with ⟨_, free, _⟩ | ⟨waiter, member, taken, _⟩
            · cases free.symm.trans owned
            · obtain rfl := Option.some.inj (taken.symm.trans owned)
              exact .inr ⟨rfl, fun held => each.free waiter other held member⟩
          · exact .inl ((owner other same).symm.trans owned)
  rcases gains id owned with before | ⟨isFresh, none⟩
  · rcases gains held owned' with before' | ⟨_, none⟩
    · exact each.single task id held before before'
    · exact absurd before (none id)
  · rcases gains held owned' with before' | ⟨isFresh', _⟩
    · exact absurd before' (none held)
    · exact isFresh.trans isFresh'.symm

/-- A raised priority stays that of a waiter. -/
theorem Moves.lent_kept (moves : Moves machine action next) (core : Core config machine)
    (guarded : ∀ id, Guarded machine id) (each : Spec.OneEach machine.kernel)
    (alone : machine.kernel.OneAtATime action) (task : Fin n) : Spec.Lent next.kernel task := by
  have base := moves.basePriority
  rcases moves.mutexStep core guarded with
    ⟨waitHead, owner, priority⟩ | ⟨call, caller, rfl, isCurrent, runs, step⟩
  · exact (each.lent task).frame (base task) (priority task) fun id owned =>
      ⟨(owner id).trans owned, fun waiter waits => ⟨waitHead id ▸ waits, priority waiter⟩⟩
  · cases step with
    | apart harmless waitHead owner priority =>
        exact (each.lent task).frame (base task) (priority task) fun id owned =>
          ⟨(owner id).trans owned, fun waiter waits => ⟨waitHead id ▸ waits, priority waiter⟩⟩
    | acquire acquires free taken =>
        rename_i mutex
        rw [taken]
        refine (each.lent task).frame rfl rfl fun id owned => ⟨?_, fun _ waits => ⟨waits, rfl⟩⟩
        have different : id ≠ mutex := by
          rintro rfl
          cases free.symm.trans owned
        simpa [different] using owned
    | wait locks contended blocked =>
        refine each.lent_wait contended (fun held => ?_) blocked base task
        subst locks
        exact alone caller held isCurrent
    | release releases held passed waitHead owner priority =>
        rename_i mutex
        by_cases same : task = caller
        · exact .inl (by rw [priority, if_pos same, base, same])
        · refine (each.lent task).frame (base task) (by rw [priority, if_neg same]) fun id owned => ?_
          have different : id ≠ mutex := by
            rintro rfl
            exact same (Option.some.inj (owned.symm.trans held))
          refine ⟨(owner id different).trans owned, fun waiter waits => ?_⟩
          -- the caller, whose priority changes, waits nowhere
          have apart : waiter ≠ caller := by
            rintro rfl
            exact core.wf.not_mem_of_running runs waits
          exact ⟨waitHead id different ▸ waits, by rw [priority, if_neg apart]⟩

/-- Whoever owns one mutex at most is careful. -/
theorem Core.careful_of_oneEach (guarded : ∀ id, Guarded machine id)
    (each : Spec.OneEach machine.kernel) (step : Machine.Step config.idle machine action next) :
    Spec.Careful machine.kernel action := by
  have release : ∀ {task : Fin n} {id : Nat}, machine.threadTask = some task →
      id ∈ (machine.thread task).guards → Spec.CarefulRelease machine.kernel id := by
    intro task id isTask holds current other waiter isCurrent different owned _
    obtain rfl := Option.some.inj ((Machine.threadTask_eq_some.mp isTask).2.2.symm.trans isCurrent)
    exact absurd (each.single task other id owned ((guarded id).held task holds)) different
  cases step with
  | call isTask notIdle triggered may returned =>
      rename_i call task kernel outcome
      cases call with
      | lock id =>
          intro current owner other holder _ owned _ _ waits _
          exact absurd owned (each.free owner other id waits)
      | dropGuard id =>
          have releases : (Call.dropGuard id : Call V).releases id := rfl
          exact release isTask (Thread.held_of_releases releases may)
      | wait condvar id =>
          have releases : (Call.wait condvar id : Call V).releases id := rfl
          exact release isTask (Thread.held_of_releases releases may)
      | _ => trivial
  | _ => trivial

/-- Every step in which nobody asks for a second mutex keeps the priorities exact. -/
theorem Core.oneEach_step (core : Core config machine) (guarded : ∀ id, Guarded machine id)
    (each : Spec.OneEach machine.kernel) (inherits : Spec.Inherits machine.kernel)
    (alone : machine.kernel.OneAtATime action) (step : Machine.Step config.idle machine action next) :
    Spec.OneEach next.kernel ∧ Spec.Inherits next.kernel := by
  have moves := core.moves step
  refine ⟨⟨moves.single_kept core guarded each alone, moves.free_kept core guarded each alone,
    moves.lent_kept core guarded each alone⟩, ?_⟩
  exact (core.inherits_step_iff guarded inherits step).mpr (Core.careful_of_oneEach guarded each step)

/-- A mutex that nobody owns or locks has no owner. -/
theorem Moves.unowned_kept (moves : Moves machine action next) (core : Core config machine)
    (guarded : ∀ id, Guarded machine id) (unlocked : action ≠ .call (.lock id))
    (untried : action ≠ .call (.tryLock id)) (unowned : machine.kernel.owner id = none) :
    next.kernel.owner id = none := by
  rcases moves.mutexStep core guarded with ⟨_, owner, _⟩ | ⟨call, caller, rfl, _, _, step⟩
  · exact (owner id).trans unowned
  · cases step with
    | apart harmless waitHead owner => exact (owner id).trans unowned
    | acquire acquires free taken =>
        rename_i mutex
        have different : id ≠ mutex := by
          rintro rfl
          rcases acquires with rfl | rfl
          · exact unlocked rfl
          · exact untried rfl
        simpa [taken, different] using unowned
    | wait locks contended blocked => simpa [blocked, Spec.blockAndPush] using unowned
    | release releases held passed waitHead owner =>
        rename_i mutex priority
        have different : id ≠ mutex := by
          rintro rfl
          cases unowned.symm.trans held
        exact (owner id different).trans unowned

/-- At the boot no task owns a mutex or waits for one. -/
theorem oneEach_of_initial (start : (system config V).initial machine) :
    Spec.OneEach machine.kernel ∧ Spec.Inherits machine.kernel := by
  obtain ⟨kernel, boot, rfl⟩ := start
  have booted := Config.booted_of_boot boot
  obtain ⟨_, statics⟩ := booted.statics
  have none : ∀ id, kernel.owner id = none := by
    intro id
    rw [statics]
    rfl
  have unraised : ∀ task, (kernel.tcb task).priority = (kernel.tcb task).basePriority := by
    intro task
    by_cases member : task ∈ config.order
    · exact booted.priority task member
    · rw [booted.others task member]
      rfl
  refine ⟨⟨?_, ?_, fun task => .inl (unraised task)⟩, ?_⟩
  · intro task id held owned
    cases (none id).symm.trans owned
  · intro task id held _ owned
    cases (none held).symm.trans owned
  · intro id owner waiter owned
    cases (none id).symm.trans owned

end SpecMachine

namespace RepMachine

variable {config : Config n} {machine : RtosMachine n V}

/-- Only owners and `CURRENT` matter. -/
theorem oneAtATime_iff {kernel : Rtos n V} {spec : Spec n V} (rep : Rep none kernel spec)
    (action : Action V) : kernel.OneAtATime action ↔ spec.OneAtATime action := by
  cases action with
  | call call => cases call <;> simp only [Kernel.OneAtATime, rep.statics]
  | _ => exact Iff.rfl

/-- Priorities are exact where tasks lock one mutex at a time: each task runs at the priority of
the most urgent task among itself and those that wait for a mutex it owns. It owns one at most,
and none while it waits for one, so that nobody waits in a circle. -/
theorem priority_isLeast (reachable : ((system config V).restrict fun machine action =>
      machine.kernel.OneAtATime action).Reachable machine) (task : Fin n) :
    IsLeast (machine.kernel.claims task) (machine.kernel.tcb task).priority ∧
    (∀ id held, machine.kernel.owner id = some task → machine.kernel.owner held = some task →
      id = held) ∧
    ∀ id, machine.kernel.WaitsOn (.mutex id) task → ∀ held,
      machine.kernel.owner held ≠ some task := by
  obtain ⟨spec, reach, rep, each, inherits⟩ := (simulation config V).restrict_invariant
    (fun spec => Spec.OneEach spec.kernel ∧ Spec.Inherits spec.kernel)
    (fun spec start => SpecMachine.oneEach_of_initial start) (by
      rintro state action next spec spec' rep rep' reach ⟨each, inherits⟩ alone _ performed
      have core := SpecMachine.core_of_reachable reach
      exact core.oneEach_step (SpecMachine.guarded_of_reachable reach) each inherits
        ((oneAtATime_iff rep.kernel action).mp alone) (Machine.step_of_perform performed)) reachable
  have raised := (SpecMachine.ownersRaised_of_reachable reach).raised
  simp only [Kernel.claims, rep.kernel.waitsOn_iff, rep.kernel.statics, rep.kernel.priority,
    rep.kernel.basePriority]
  refine ⟨⟨?_, ?_⟩, each.single task, fun id waits held => each.free task id held waits⟩
  · refine (each.lent task).imp_right ?_
    rintro ⟨id, waiter, owned, waits, same⟩
    exact ⟨id, waiter, owned, waits, same.trans (each.waiter waits)⟩
  · rintro priority (rfl | ⟨id, waiter, owned, waits, rfl⟩)
    · exact raised task
    · exact (inherits id task waiter owned waits).trans (raised waiter)

/-- Mutex 0 is locked by others than its owner, and no other mutex is. -/
def locksZeroAlone (machine : RtosMachine n V) : Action V → Bool
  | .call (.lock id) | .call (.tryLock id) =>
    id = 0 ∧ machine.kernel.owner 0 ≠ machine.kernel.current
  | _ => true

/-- So no task asks for a second one. -/
theorem oneAtATime_of_locksZeroAlone {action : Action V}
    (reachable : ((system config V).restrict fun machine action =>
      locksZeroAlone machine action = true).Reachable machine)
    (allowed : locksZeroAlone machine action = true) : machine.kernel.OneAtATime action := by
  obtain ⟨spec, _, rep, unowned⟩ := (simulation config V).restrict_invariant
    (fun spec => ∀ id, id ≠ 0 → spec.kernel.owner id = none) (by
      rintro spec ⟨kernel, boot, rfl⟩ id _
      obtain ⟨_, statics⟩ := (Config.booted_of_boot boot).statics
      show kernel.owner id = none
      rw [statics]
      rfl) (by
      intro state action next spec spec' _ _ reach unowned allowed _ performed id other
      have core := SpecMachine.core_of_reachable reach
      refine (core.moves (Machine.step_of_perform performed)).unowned_kept core
        (SpecMachine.guarded_of_reachable reach) ?_ ?_ (unowned id other)
      all_goals
        rintro rfl
        exact other (of_decide_eq_true allowed).1) reachable
  have free : machine.kernel.owner 0 ≠ machine.kernel.current →
      ∀ task held, machine.kernel.current = some task → machine.kernel.owner held ≠ some task := by
    intro apart task held isCurrent owned
    by_cases zero : held = 0
    · exact apart ((zero ▸ owned).trans isCurrent.symm)
    · rw [rep.kernel.statics, unowned held zero] at owned
      cases owned
  cases action with
  | call call =>
      cases call with
      | lock id => exact free (of_decide_eq_true allowed).2
      | tryLock id => exact free (of_decide_eq_true allowed).2
      | _ => trivial
  | _ => trivial

/-- Task 3 owns mutex 0 and runs for task 1. -/
theorem priority_isLeast_boosted : ∃ machine : RtosMachine 4 Unit,
    (machine.kernel.owner 0 = some 3 ∧ machine.kernel.waitHead (.mutex 0) = some 1 ∧
      (machine.kernel.tcb 3).priority = 10 ∧ (machine.kernel.tcb 3).basePriority = 30) ∧
    IsLeast (machine.kernel.claims 3) (machine.kernel.tcb 3).priority := by
  let actions : List (Action Unit) := [.launch] ++ Config.thenSwitch (.take 0) ++
    Config.thenSwitch (.take 1) ++ [.call (.lock 0), .ret] ++ Config.thenSwitch (.give 0) ++
    [.ret, .call (.lock 0)]
  let check (machine : RtosMachine 4 Unit) : Bool :=
    machine.kernel.owner 0 = some 3 ∧ machine.kernel.waitHead (.mutex 0) = some 1 ∧
      (machine.kernel.tcb 3).priority = 10 ∧ (machine.kernel.tcb 3).basePriority = 30
  obtain ⟨machine, reachable, checked⟩ := Machine.exists_of_checkWithin
    (fun _ _ _ allowed => allowed) actions check
    (by decide +kernel : (Config.small 10 20 30).passesWithin Unit _ _ locksZeroAlone actions
      check = true)
  exact ⟨machine, of_decide_eq_true checked, (priority_isLeast (reachable.restrict_mono
    fun _ _ reached allowed => oneAtATime_of_locksZeroAlone reached allowed) 3).1⟩

/-- Bounded priority inversion. In every careful run that loses no preemption, whenever a task
executes and has not asked for a switch, it is at least as urgent as every task that waits for a
mutex of a task that could run, or for a mutex whose owner waits for such a mutex, and so on. -/
theorem inversion_bounded (reachable : ((system config V).restrict fun machine action =>
      machine.kernel.Careful action ∧
        machine.LosesNoPreemption config.idle action).Reachable machine)
    {task : Fin n} (isTask : machine.threadTask = some task)
    (unasked : (machine.thread task).trig = false) {waiter last : Fin n}
    (chain : Relation.ReflTransGen machine.kernel.waitGraph.WaitsFor waiter last)
    (runnable : (machine.kernel.tcb last).state.runnable = true) :
    (machine.kernel.tcb task).priority ≤ (machine.kernel.tcb waiter).priority := by
  obtain ⟨spec, reach, rep, inherits⟩ := (simulation config V).restrict_invariant
    (fun spec => Spec.Inherits spec.kernel)
    (fun spec start => (SpecMachine.oneEach_of_initial start).2) (by
      rintro state action next spec spec' rep rep' reach inherits ⟨careful, _⟩ _ performed
      exact ((SpecMachine.core_of_reachable reach).inherits_step_iff
        (SpecMachine.guarded_of_reachable reach) inherits (Machine.step_of_perform performed)).mpr
          ((rep.kernel.careful_iff action).mp careful)) reachable
  have lends : machine.kernel.waitGraph.Lends fun task => (machine.kernel.tcb task).priority := by
    rintro waiter owner ⟨id, waits, owned⟩
    exact rep.kernel.inherits_iff.mpr inherits id owner waiter owned waits
  refine le_trans ?_ (lends.chain chain)
  obtain ⟨_, current, isCurrent, _, leads⟩ := settled_of_executes
    (reachable.restrict_mono fun _ _ _ allowed => allowed.2) isTask unasked
  obtain rfl : task = current :=
    Option.some.inj ((Machine.threadTask_eq_some.mp isTask).2.2.symm.trans isCurrent)
  rcases Bool.or_eq_true_iff.mp runnable with ready | runs
  · exact leads last ready
  · -- the only task that is `Running` is the one that executes
    rw [rep.kernel.isRunning] at runs
    have isLast := (SpecMachine.core_of_reachable reach).running last runs
    rw [← rep.kernel.statics, isCurrent] at isLast
    obtain rfl := Option.some.inj isLast
    exact le_rfl

/-- Task 1 waits for the mutex of task 3, and it is task 3 that executes, not task 2. -/
theorem inversion_bounded_boosted : ∃ machine : RtosMachine 4 Unit,
    (machine.threadTask = some 3 ∧ (machine.kernel.tcb 2).state.isReady = true ∧
      (machine.kernel.tcb 2).priority < (machine.kernel.tcb 3).basePriority) ∧
    (machine.kernel.tcb 3).priority ≤ (machine.kernel.tcb 1).priority := by
  let actions : List (Action Unit) := [.launch] ++ Config.thenSwitch (.take 0) ++
    Config.thenSwitch (.take 1) ++ [.call (.lock 0), .ret] ++ Config.thenSwitch (.give 0) ++
    [.ret, .isr (.give 1)] ++ Config.thenSwitch (.lock 0)
  let check (machine : RtosMachine 4 Unit) : Bool :=
    (machine.threadTask = some 3 ∧ (machine.kernel.tcb 2).state.isReady = true ∧
      (machine.kernel.tcb 2).priority < (machine.kernel.tcb 3).basePriority) ∧
      (machine.thread 3).trig = false ∧ machine.kernel.owner 0 = some 3 ∧
      machine.kernel.waitHead (.mutex 0) = some 1 ∧
      (machine.kernel.tcb 3).state.runnable = true
  have sound : ∀ (machine : RtosMachine 4 Unit) action,
      (system (Config.small 10 20 30) Unit).Reachable machine →
      (keepsGuards machine action && handlesEarly machine action) = true →
      machine.kernel.Careful action ∧
        machine.LosesNoPreemption (Config.small 10 20 30).idle action := by
    intro machine action reached allowed
    obtain ⟨kept, early⟩ := Bool.and_eq_true_iff.mp allowed
    exact ⟨careful_of_keepsGuards reached kept, losesNoPreemption_of_handlesEarly early⟩
  have passes : (Config.small 10 20 30).passesWithin Unit (TcbPtr 4) (TcbPtr 4)
      (fun machine action => keepsGuards machine action && handlesEarly machine action) actions
      check = true := by decide +kernel
  obtain ⟨machine, reachable, checked⟩ :=
    Machine.exists_of_checkWithin sound actions check passes
  obtain ⟨shape, unasked, owned, heads, runnable⟩ := of_decide_eq_true checked
  have waits : machine.kernel.WaitsOn (.mutex 0) 1 := by
    rw [Kernel.WaitsOn, heads]
    exact .here 1
  exact ⟨machine, shape,
    inversion_bounded reachable shape.1 unasked (.single ⟨0, waits, owned⟩) runnable⟩

end RepMachine

end Kangaroos
