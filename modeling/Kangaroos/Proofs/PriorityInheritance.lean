import Kangaroos.Proofs.MutualExclusion

/-!
# Priority inheritance

`Mutex::lock` boosts the immediate owner once, and every release resets the
releasing task to its base priority. Two steps can therefore leave an owner less
urgent than one of its waiters: releasing one mutex while a waiter of another
still relies on the boost, and boosting an owner that itself waits for a mutex.
`Careful` excludes exactly these two.
-/

namespace Kangaroos

/-- Every owner of a mutex is at least as urgent as every waiter. -/
def Kernel.Inherits {n : Nat} {V : Type} (kernel : Rtos n V) : Prop :=
  ∀ id owner waiter, kernel.owner id = some owner → kernel.WaitsOn (.mutex id) waiter →
    (kernel.tcb owner).priority ≤ (kernel.tcb waiter).priority

/-- What a step must respect for the inheritance to stay complete. A release must not
bring the running task, which owns other mutexes, behind their waiters; a boost must
not bring an owner that waits itself before the owner it waits for. -/
def Kernel.Careful {n : Nat} {V : Type} (kernel : Rtos n V) : Action V → Prop
  | .call (.dropGuard id) | .call (.wait _ id) =>
    ∀ task other waiter, kernel.current = some task → other ≠ id →
      kernel.owner other = some task → kernel.WaitsOn (.mutex other) waiter →
      (kernel.tcb task).basePriority ≤ (kernel.tcb waiter).priority
  | .call (.lock id) =>
    ∀ task owner other holder, kernel.current = some task → kernel.owner id = some owner →
      (kernel.tcb task).priority < (kernel.tcb owner).priority →
      kernel.owner other = some holder → kernel.WaitsOn (.mutex other) owner → holder ≠ owner →
      (kernel.tcb holder).priority ≤ (kernel.tcb task).priority
  | _ => True

namespace Spec

variable {n : Nat} {V : Type} {kernel after : Spec n V} {id : Nat}

/-- The abstract form of `Kernel.Inherits`. -/
def Inherits (kernel : Spec n V) : Prop :=
  ∀ id owner waiter, kernel.owner id = some owner → waiter ∈ kernel.waitHead (.mutex id) →
    (kernel.tcb owner).priority ≤ (kernel.tcb waiter).priority

/-- A release leaves the waiters of the other mutexes of `task` covered. -/
def CarefulRelease (kernel : Spec n V) (id : Nat) : Prop :=
  ∀ task other waiter, kernel.current = some task → other ≠ id →
    kernel.owner other = some task → waiter ∈ kernel.waitHead (.mutex other) →
    (kernel.tcb task).basePriority ≤ (kernel.tcb waiter).priority

/-- A boost keeps the owner covered wherever it waits itself. -/
def CarefulLock (kernel : Spec n V) (id : Nat) : Prop :=
  ∀ task owner other holder, kernel.current = some task → kernel.owner id = some owner →
    (kernel.tcb task).priority < (kernel.tcb owner).priority →
    kernel.owner other = some holder → owner ∈ kernel.waitHead (.mutex other) → holder ≠ owner →
    (kernel.tcb holder).priority ≤ (kernel.tcb task).priority

/-- The abstract form of `Kernel.Careful`. -/
def Careful (kernel : Spec n V) : Action V → Prop
  | .call (.dropGuard id) | .call (.wait _ id) => kernel.CarefulRelease id
  | .call (.lock id) => kernel.CarefulLock id
  | _ => True

/-- Steps that leave owners, waiters and priorities alone. -/
theorem Inherits.frame (inherits : Inherits kernel)
    (waitHead : ∀ id, after.waitHead (.mutex id) = kernel.waitHead (.mutex id))
    (owner : ∀ id, after.owner id = kernel.owner id)
    (priority : ∀ task, (after.tcb task).priority = (kernel.tcb task).priority) :
    Inherits after := by
  intro id holder waiter owned waits
  rw [owner] at owned
  rw [waitHead] at waits
  rw [priority, priority]
  exact inherits id holder waiter owned waits

/-- Taking a mutex nobody waits for. -/
theorem Inherits.setOwner (inherits : Inherits kernel) (owner : TcbPtr n)
    (empty : kernel.waitHead (.mutex id) = []) : Inherits (kernel.setOwner id owner) := by
  intro other holder waiter owned waits
  by_cases same : other = id
  · subst same
    simp [empty] at waits
  · exact inherits other holder waiter (by simpa [same] using owned) waits

/-- A waiting task covers itself at its own owner; the owner's other obligations are the
condition. -/
theorem inherits_lock_iff (inherits : Inherits kernel) {task owner : Fin n}
    (owned : kernel.owner id = some owner) (isCurrent : kernel.current = some task) :
    Inherits ((kernel.boost owner task).blockAndPush (.mutex id) task) ↔
      kernel.CarefulLock id := by
  obtain ⟨blocked, blockedEq⟩ : ∃ blocked : Spec n V,
      blocked = (kernel.boost owner task).blockAndPush (.mutex id) task := ⟨_, rfl⟩
  have owners : ∀ other, blocked.owner other = kernel.owner other := by
    intro other
    simp [blockedEq, blockAndPush]
  have priority : ∀ other, (blocked.tcb other).priority =
      if other = owner then min (kernel.tcb owner).priority (kernel.tcb task).priority
      else (kernel.tcb other).priority := by
    intro other
    rw [← boost_priority, blockedEq]
    exact setState_priority ..
  have lowered : ∀ other, (blocked.tcb other).priority ≤ (kernel.tcb other).priority := by
    intro other
    rw [priority]
    split
    · rename_i same
      exact same ▸ min_le_left _ _
    · exact le_rfl
  have waits : ∀ other waiter, waiter ∈ blocked.waitHead (.mutex other) ↔
      (other = id ∧ waiter = task) ∨ waiter ∈ kernel.waitHead (.mutex other) := by
    intro other waiter
    by_cases same : other = id
    · subst same
      simp [blockedEq, blockAndPush]
    · simp [blockedEq, blockAndPush, same]
  rw [← blockedEq]
  constructor
  · intro covered current holder other above isHolder isOwner urgent otherOwned ownerWaits different
    obtain rfl : task = current := Option.some.inj (isCurrent.symm.trans isHolder)
    obtain rfl : owner = holder := Option.some.inj (owned.symm.trans isOwner)
    have ordered := covered other above owner (by rwa [owners])
      ((waits other owner).mpr (.inr ownerWaits))
    rw [priority above, priority owner, if_neg different, if_pos rfl] at ordered
    exact ordered.trans (min_le_right _ _)
  · intro careful other holder waiter isHolder waiting
    rw [owners] at isHolder
    rcases (waits other waiter).mp waiting with ⟨rfl, rfl⟩ | waitsBefore
    · -- the new waiter has boosted the owner
      obtain rfl : owner = holder := Option.some.inj (owned.symm.trans isHolder)
      rw [priority owner, if_pos rfl, priority waiter]
      split
      · exact le_rfl
      · exact min_le_right _ _
    · have ordered := inherits other holder waiter isHolder waitsBefore
      by_cases boosted : waiter = owner
      · -- the boosted owner waits itself
        subst boosted
        rw [priority waiter, if_pos rfl, le_min_iff]
        refine ⟨(lowered holder).trans ordered, ?_⟩
        by_cases same : holder = waiter
        · rw [priority, if_pos same]
          exact min_le_right _ _
        · rcases le_or_gt (kernel.tcb waiter).priority (kernel.tcb task).priority with
            relaxed | urgent
          · exact (lowered holder).trans (ordered.trans relaxed)
          · exact (lowered holder).trans
              (careful task waiter other holder isCurrent owned urgent isHolder waitsBefore same)
      · rw [priority waiter, if_neg boosted]
        exact (lowered holder).trans ordered

/-- After a release the releasing task is back at its base priority. -/
theorem inherits_release_iff (inherits : Inherits kernel) {task : Fin n}
    (owned : kernel.owner id = some task) (isCurrent : kernel.current = some task)
    (away : ∀ other, task ∉ kernel.waitHead (.mutex other)) (passed : Passed kernel after id)
    (waitHead : ∀ other, other ≠ id →
      after.waitHead (.mutex other) = kernel.waitHead (.mutex other))
    (owner : ∀ other, other ≠ id → after.owner other = kernel.owner other)
    (priority : ∀ other, (after.tcb other).priority =
      if other = task then (kernel.tcb task).basePriority else (kernel.tcb other).priority) :
    Inherits after ↔ kernel.CarefulRelease id := by
  have steady : ∀ other waiter, waiter ∈ kernel.waitHead (.mutex other) →
      (after.tcb waiter).priority = (kernel.tcb waiter).priority := by
    intro other waiter waits
    have different : waiter ≠ task := by
      rintro rfl
      exact away other waits
    rw [priority, if_neg different]
  constructor
  · intro covered current other waiter isHolder different otherOwned waits
    obtain rfl : task = current := Option.some.inj (isCurrent.symm.trans isHolder)
    have ordered := covered other task waiter (by rwa [owner other different])
      (by rwa [waitHead other different])
    rwa [steady other waiter waits, priority, if_pos rfl] at ordered
  · intro careful other holder waiter isHolder waits
    by_cases same : other = id
    · subst same
      rcases passed with ⟨_, free, _⟩ | ⟨next, member, isNext, heads, least⟩
      · simp [free] at isHolder
      · obtain rfl : next = holder := Option.some.inj (isNext.symm.trans isHolder)
        rw [heads] at waits
        have waitsBefore := List.mem_of_mem_erase waits
        rw [steady other next member, steady other waiter waitsBefore]
        exact least waiter waitsBefore
    · rw [owner other same] at isHolder
      rw [waitHead other same] at waits
      rw [steady other waiter waits, priority holder]
      split
      · rename_i isTask
        subst isTask
        exact careful holder other waiter isCurrent same isHolder waits
      · exact inherits other holder waiter isHolder waits

end Spec

namespace SpecMachine

variable {n : Nat} {V : Type} {config : Config n} {machine next : SpecMachine n V}

/-- Steps other than critical sections of tasks do not touch mutexes or priorities. -/
theorem Moves.mutexes_same {action : Action V} (moves : Moves machine action next)
    (notCall : ∀ call, action ≠ .call call) :
    (∀ id, next.kernel.waitHead (.mutex id) = machine.kernel.waitHead (.mutex id)) ∧
    (∀ id, next.kernel.owner id = machine.kernel.owner id) ∧
    ∀ task, (next.kernel.tcb task).priority = (machine.kernel.tcb task).priority := by
  cases moves with
  | scheduled scheduled =>
      obtain ⟨_, _, same⟩ := scheduled.moved.statics
      refine ⟨fun id => by rw [scheduled.moved.waitHead], fun id => by rw [same], ?_⟩
      exact fun task => (scheduled.moved.fixed task).1
  | isr safe returned contract slots =>
      rename_i call kernel outcome pendsv isrSlots
      obtain ⟨flag, effect, _⟩ := contract.effect
      have outside : ∀ id, .mutex id ∉ call.uses := fun id => Call.not_uses_mutex_of_isrSafe safe
      exact ⟨fun id => effect.heads _ (outside id), fun id => effect.agree (.mutex id) (outside id),
        effect.priority outside⟩
  | call isCurrent runs may returned contract => exact absurd rfl (notCall _)
  | ret runs returns => cases returns <;> exact ⟨fun _ => rfl, fun _ => rfl, fun _ => rfl⟩
  | isrRet assigned => exact ⟨fun _ => rfl, fun _ => rfl, fun _ => rfl⟩
  | dropBox runs user live inBounds => exact ⟨fun _ => rfl, fun _ => rfl, fun _ => rfl⟩
  | writeBox live stored => exact ⟨fun _ => rfl, fun _ => rfl, fun _ => rfl⟩
  | forgetGuard runs user held => exact ⟨fun _ => rfl, fun _ => rfl, fun _ => rfl⟩

/-- What a section of a task may do to mutexes and priorities. -/
inductive MutexStep (kernel : Spec n V) (task : Fin n) (call : Call V) (after : Spec n V) : Prop
  | apart (harmless : ∀ id, call ≠ .lock id ∧ ¬call.releases id)
      (waitHead : ∀ id, after.waitHead (.mutex id) = kernel.waitHead (.mutex id))
      (owner : ∀ id, after.owner id = kernel.owner id)
      (priority : ∀ other, (after.tcb other).priority = (kernel.tcb other).priority)
  | acquire {id} (acquires : call = .lock id ∨ call = .tryLock id) (free : kernel.owner id = none)
      (taken : after = kernel.setOwner id kernel.current)
  | wait {id owner} (locks : call = .lock id) (owned : kernel.owner id = some owner)
      (blocked : after = (kernel.boost owner task).blockAndPush (.mutex id) task)
  | release {id} (releases : call.releases id) (owned : kernel.owner id = some task)
      (passed : Spec.Passed kernel after id)
      (waitHead : ∀ other, other ≠ id →
        after.waitHead (.mutex other) = kernel.waitHead (.mutex other))
      (owner : ∀ other, other ≠ id → after.owner other = kernel.owner other)
      (priority : ∀ other, (after.tcb other).priority =
        if other = task then (kernel.tcb task).basePriority else (kernel.tcb other).priority)

theorem Core.mutexStep (core : Core config machine) (guarded : ∀ id, Guarded machine id)
    {call : Call V} {task : Fin n} {kernel : Spec n V} {outcome : Outcome}
    (isCurrent : machine.kernel.current = some task)
    (runs : (machine.kernel.tcb task).state.isRunning = true)
    (may : (machine.thread task).mayCall call = true)
    (returned : call.run (some task) machine.kernel = .ok (kernel, outcome))
    (contract : call.Contract (some task) machine.kernel (kernel, outcome)) :
    MutexStep machine.kernel task call kernel := by
  obtain ⟨flag, effect, _⟩ := contract.effect
  by_cases uses : ∃ id, .mutex id ∈ call.uses
  · obtain ⟨id, uses⟩ := uses
    have release : call.releases id → (∀ other, other ≠ id → .mutex other ∉ call.uses) →
        MutexStep machine.kernel task call kernel := by
      intro releases outside
      have owned := (guarded id).held task (Thread.held_of_releases releases may)
      exact .release releases owned
        (Spec.passed_of_releases releases returned owned (core.wf.not_mem_of_running runs))
        (fun other different => effect.heads _ (outside other different))
        (fun other different => effect.agree (.mutex other) (outside other different))
        (Spec.priority_of_releases releases returned owned)
    obtain rfl | rfl | rfl | ⟨condvar, rfl⟩ := Call.uses_mutex uses
    · obtain ⟨⟨locked, flag⟩, locks, rest⟩ := Except.ok_of_bind returned
      cases rest
      rcases Spec.lock_cases locks with ⟨free, taken, _⟩ | ⟨owner, current, owned, isCaller, blocked, _⟩
      · exact .acquire (.inl rfl) free taken
      · obtain rfl : task = current := Option.some.inj (isCurrent.symm.trans isCaller)
        exact .wait rfl owned blocked
    · rcases Spec.tryLock_cases machine.kernel id with ⟨free, locks⟩ | ⟨owned, refused⟩
      · simp only [Call.run, locks] at returned
        cases returned
        exact .acquire (.inr rfl) free rfl
      · simp only [Call.run, refused] at returned
        cases returned
        exact .apart (fun _ => ⟨by simp, fun releases => releases⟩) (fun _ => rfl) (fun _ => rfl) (fun _ => rfl)
    · exact release rfl fun other different => by simp [Call.uses, different]
    · exact release rfl fun other different => by simp [Call.uses, different]
  · have outside : ∀ id, .mutex id ∉ call.uses := fun id uses' => uses ⟨id, uses'⟩
    refine .apart (fun id => ⟨?_, fun releases => ?_⟩) (fun id => effect.heads _ (outside id))
      (fun id => effect.agree (.mutex id) (outside id)) (effect.priority outside)
    · rintro rfl
      simp [Call.uses] at uses
    · cases call with
      | dropGuard mutex => simp [Call.uses] at uses
      | wait condvar mutex => simp [Call.uses] at uses
      | _ => cases releases

/-- Critical sections keep the inheritance complete exactly when they are careful. -/
theorem Core.inherits_call_iff (core : Core config machine)
    (guarded : ∀ id, Guarded machine id) (inherits : Spec.Inherits machine.kernel) {call : Call V}
    {task : Fin n} {kernel : Spec n V} {outcome : Outcome}
    (isCurrent : machine.kernel.current = some task)
    (runs : (machine.kernel.tcb task).state.isRunning = true)
    (may : (machine.thread task).mayCall call = true)
    (returned : call.run (some task) machine.kernel = .ok (kernel, outcome))
    (contract : call.Contract (some task) machine.kernel (kernel, outcome)) :
    Spec.Inherits kernel ↔ Spec.Careful machine.kernel (.call call) := by
  cases core.mutexStep guarded isCurrent runs may returned contract with
  | apart harmless waitHead owner priority =>
      refine iff_of_true (inherits.frame waitHead owner priority) ?_
      cases call with
      | lock id => exact absurd rfl (harmless id).1
      | dropGuard id => exact absurd rfl (harmless id).2
      | wait condvar id => exact absurd rfl (harmless id).2
      | _ => trivial
  | acquire acquires free taken =>
      rename_i id
      have empty : machine.kernel.waitHead (.mutex id) = [] := by
        by_contra waits
        exact (guarded id).owned waits free
      rw [taken]
      refine iff_of_true (inherits.setOwner _ empty) ?_
      rcases acquires with rfl | rfl
      · intro current owner other holder _ owned
        simp [free] at owned
      · trivial
  | wait locks owned blocked =>
      rw [locks, blocked]
      exact Spec.inherits_lock_iff inherits owned isCurrent
  | release releases owned passed waitHead owner priority =>
      have released := Spec.inherits_release_iff inherits owned isCurrent
        (fun other => core.wf.not_mem_of_running runs) passed waitHead owner priority
      cases call with
      | dropGuard mutex =>
          obtain rfl := releases
          exact released
      | wait condvar mutex =>
          obtain rfl := releases
          exact released
      | _ => cases releases

/-- So do all steps. -/
theorem Core.inherits_step_iff (core : Core config machine) (guarded : ∀ id, Guarded machine id)
    (inherits : Spec.Inherits machine.kernel) {action : Action V}
    (step : Machine.Step config.idle machine action next) :
    Spec.Inherits next.kernel ↔ Spec.Careful machine.kernel action := by
  by_cases isCall : ∃ call, action = .call call
  · obtain ⟨call, rfl⟩ := isCall
    cases step with
    | call isTask notIdle triggered may returned =>
        exact core.inherits_call_iff guarded inherits (Machine.threadTask_eq_some.mp isTask).2.2
          (core.task_running isTask triggered) may returned
          (core.call_contract isTask triggered returned)
  · have notCall : ∀ call, action ≠ .call call := fun call same => isCall ⟨call, same⟩
    obtain ⟨waitHead, owner, priority⟩ := (core.moves step).mutexes_same notCall
    refine iff_of_true (inherits.frame waitHead owner priority) ?_
    cases action <;> first | trivial | exact absurd rfl (notCall _)

end SpecMachine

namespace Rep

variable {n : Nat} {V : Type} {kernel : Rtos n V} {spec : Spec n V}

theorem inherits_iff (rep : Rep none kernel spec) : kernel.Inherits ↔ spec.Inherits := by
  simp only [Kernel.Inherits, Spec.Inherits, rep.statics, rep.waitsOn_iff, rep.priority]

theorem careful_iff (rep : Rep none kernel spec) (action : Action V) :
    kernel.Careful action ↔ spec.Careful action := by
  cases action with
  | call call =>
      cases call <;> simp only [Kernel.Careful, Spec.Careful, Spec.CarefulRelease, Spec.CarefulLock,
        rep.statics, rep.waitsOn_iff, rep.priority, rep.basePriority]
  | _ => exact Iff.rfl

end Rep

namespace RepMachine

variable {n : Nat} {V : Type} {config : Config n} {machine : RtosMachine n V}

/-- In a run of careful steps every owner of a mutex is at least as urgent as every
waiter, and the next step, whatever it is, keeps this so exactly when it is careful. -/
theorem inherits_of_careful
    (reachable : ((system config V).restrict fun machine action =>
      machine.kernel.Careful action).Reachable machine) :
    machine.kernel.Inherits ∧ ∀ action next,
      machine.perform config.idle action = some (.ok next) →
      (next.kernel.Inherits ↔ machine.kernel.Careful action) := by
  have exact_step : ∀ (machine : RtosMachine n V), (system config V).Reachable machine →
      machine.kernel.Inherits → ∀ action next,
      machine.perform config.idle action = some (.ok next) →
      (next.kernel.Inherits ↔ machine.kernel.Careful action) := by
    intro machine reached inherits action next performed
    obtain ⟨spec, reach, rep⟩ := exists_spec reached
    have core := SpecMachine.core_of_reachable reach
    obtain ⟨specNext, performedSpec, repNext⟩ := rep.perform_ok core performed
    rw [repNext.kernel.inherits_iff, rep.kernel.careful_iff]
    exact core.inherits_step_iff (SpecMachine.guarded_of_reachable reach)
      (rep.kernel.inherits_iff.mp inherits) (Machine.step_of_perform performedSpec)
  have inherits : machine.kernel.Inherits := by
    refine reachable.invariant (fun machine => machine.kernel.Inherits) ?_ ?_
    · rintro state ⟨kernel, boot, rfl⟩ id owner waiter owned waits
      obtain ⟨spec, booted, rep⟩ := (Rep.boot config).of_ok boot
      have listed := (rep.waitsOn_iff (.mutex id) waiter).mp waits
      rw [(Config.booted_of_boot booted).waitHead] at listed
      cases listed
    · intro state action next reached holds performed
      exact (exact_step state (.of_restrict reached) holds action next performed.2).mpr performed.1
  exact ⟨inherits, exact_step machine (.of_restrict reachable) inherits⟩

/-- A lock of a mutex that is free, or whose owner does not wait itself, is careful. -/
theorem careful_lock (reachable : (system config V).Reachable machine) {id : Nat}
    (notBlocked : ∀ owner, machine.kernel.owner id = some owner →
      (machine.kernel.tcb owner).state.isBlocked = false) :
    machine.kernel.Careful (.call (.lock id)) := by
  intro task owner other holder _ owned _ _ waits _
  have blocked := (isBlocked_iff reachable owner).mpr ⟨_, waits⟩
  simp [notBlocked owner owned] at blocked

/-- Guards are kept, and the owner of a mutex that is locked is not blocked. -/
def keepsGuards (machine : RtosMachine n V) : Action V → Bool
  | .call (.lock id) => ∀ owner, machine.kernel.owner id = some owner →
      (machine.kernel.tcb owner).state.isBlocked = false
  | .call (.dropGuard _) | .call (.wait _ _) => false
  | _ => true

theorem careful_of_keepsGuards (reachable : (system config V).Reachable machine) {action : Action V}
    (kept : keepsGuards machine action = true) : machine.kernel.Careful action := by
  cases action with
  | call call =>
      cases call with
      | lock id => exact careful_lock reachable (of_decide_eq_true kept)
      | dropGuard id => cases kept
      | wait condvar id => cases kept
      | _ => trivial
  | _ => trivial

/-- A careful run in which the owner is boosted: task 3 holds mutex 0 when task 1 comes to
wait for it. -/
theorem inherits_of_careful_boosted : ∃ machine : RtosMachine 4 Unit,
    (machine.kernel.owner 0 = some 3 ∧ machine.kernel.waitHead (.mutex 0) = some 1 ∧
      (machine.kernel.tcb 3).basePriority = 30) ∧ machine.kernel.Inherits := by
  have sound : ∀ (machine : RtosMachine 4 Unit) action,
      (system (Config.small 10 20 30) Unit).Reachable machine → keepsGuards machine action = true →
      machine.kernel.Careful action := fun _ _ reachable kept =>
    careful_of_keepsGuards reachable kept
  let actions : List (Action Unit) := [.launch] ++ Config.thenSwitch (.take 0) ++
    Config.thenSwitch (.take 1) ++ [.call (.lock 0), .ret] ++ Config.thenSwitch (.give 0) ++
    [.ret, .call (.lock 0)]
  let check (machine : RtosMachine 4 Unit) : Bool :=
    machine.kernel.owner 0 = some 3 ∧ machine.kernel.waitHead (.mutex 0) = some 1 ∧
      (machine.kernel.tcb 3).basePriority = 30
  have passes : (Config.small 10 20 30).passesWithin Unit (TcbPtr 4) (TcbPtr 4) keepsGuards actions
      check = true := by decide +kernel
  obtain ⟨machine, reachable, checked⟩ :=
    Machine.exists_of_checkWithin sound actions check passes
  exact ⟨machine, of_decide_eq_true checked, (inherits_of_careful reachable).1⟩

/-- A task that holds two mutexes loses the boost of the first when it releases the
second: mutex 0 is owned by task 3 at its base priority 30 while task 1 with priority
10 waits for it. -/
theorem not_inherits_after_nested_release :
    ¬∀ machine : RtosMachine 4 Unit,
      (system (Config.small 10 20 30) Unit).Reachable machine → machine.kernel.Inherits := by
  intro always
  let actions : List (Action Unit) := [.launch] ++ Config.thenSwitch (.take 0) ++
    Config.thenSwitch (.take 1) ++ [.call (.lock 0), .ret, .call (.lock 1), .ret] ++
    Config.thenSwitch (.give 0) ++ [.ret] ++ Config.thenSwitch (.lock 0) ++ [.call (.dropGuard 1)]
  let check (machine : RtosMachine 4 Unit) : Bool :=
    machine.kernel.owner 0 = some 3 ∧ machine.kernel.waitHead (.mutex 0) = some 1 ∧
      (machine.kernel.tcb 1).priority < (machine.kernel.tcb 3).priority
  obtain ⟨machine, reachable, checked⟩ := Machine.exists_of_check actions check
    (by decide +kernel : (Config.small 10 20 30).passes Unit _ _ actions check = true)
  obtain ⟨owned, waits, behind⟩ := of_decide_eq_true checked
  have waiting : machine.kernel.WaitsOn (.mutex 0) 1 := by
    rw [Kernel.WaitsOn, waits]
    exact .here 1
  exact absurd (always machine reachable 0 3 1 owned waiting) (not_le.mpr behind)

end RepMachine

end Kangaroos
