import Kangaroos.Abstract.Mutexes
import Kangaroos.Proofs.WaitLists

/-!
# Mutual exclusion with direct hand-off

`Guarded` ties the program points, guards, wait list and owner of one mutex
together. It survives every step: sections on other primitives leave it alone,
and the four that use the mutex are `lock`, `try_lock`, the drop of a guard and
`Condvar::wait`.
-/

namespace Kangaroos

namespace SpecMachine

variable {n : Nat} {V : Type} {config : Config n} {machine next : SpecMachine n V} {id : Nat}

/-- What ties owner, guards, program points and waiters of a mutex together. -/
structure Guarded (machine : SpecMachine n V) (id : Nat) : Prop where
  held : ∀ task, id ∈ (machine.thread task).guards → machine.kernel.owner id = some task
  once : ∀ task, (machine.thread task).guards.count id ≤ 1
  granted : ∀ task, (machine.thread task).pc = .lockRet id →
    task ∉ machine.kernel.waitHead (.mutex id) →
      machine.kernel.owner id = some task ∧ id ∉ (machine.thread task).guards
  owned : machine.kernel.waitHead (.mutex id) ≠ [] → machine.kernel.owner id ≠ none

namespace Guarded

/-- Steps that leave the mutex alone and bring nobody closer to a guard. -/
theorem frame (guarded : Guarded machine id)
    (waitHead : next.kernel.waitHead (.mutex id) = machine.kernel.waitHead (.mutex id))
    (owner : next.kernel.owner id = machine.kernel.owner id)
    (guards : ∀ task, (next.thread task).guards.count id ≤ (machine.thread task).guards.count id)
    (pc : ∀ task, (next.thread task).pc = .lockRet id → (machine.thread task).pc = .lockRet id) :
    Guarded next id where
  held task holds := by
    rw [owner]
    exact guarded.held task (List.count_pos_iff.mp
      ((List.count_pos_iff.mpr holds).trans_le (guards task)))
  once task := (guards task).trans (guarded.once task)
  granted task awaits away := by
    rw [waitHead] at away
    obtain ⟨isOwner, fresh⟩ := guarded.granted task (pc task awaits) away
    refine ⟨owner.trans isOwner, ?_⟩
    rw [← List.count_eq_zero] at fresh ⊢
    exact Nat.le_zero.mp (fresh ▸ guards task)
  owned waits := by
    rw [owner]
    exact guarded.owned (by rwa [← waitHead])

/-- A task changes its own record. -/
theorem own (guarded : Guarded machine id) {task : Fin n} {thread : Thread}
    (waitHead : next.kernel.waitHead (.mutex id) = machine.kernel.waitHead (.mutex id))
    (owner : next.kernel.owner id = machine.kernel.owner id)
    (threads : next.thread = Function.update machine.thread task thread)
    (guards : thread.guards.count id ≤ (machine.thread task).guards.count id)
    (pc : thread.pc = .lockRet id → (machine.thread task).pc = .lockRet id) :
    Guarded next id := by
  refine guarded.frame waitHead owner ?_ ?_
  · intro other
    by_cases same : other = task
    · subst same
      simpa [threads] using guards
    · simp [threads, same]
  · intro other awaits
    by_cases same : other = task
    · subst same
      exact pc (by simpa [threads] using awaits)
    · simpa [threads, same] using awaits

/-- A task that is about to get its guard gets it. -/
theorem enter (guarded : Guarded machine id) {task : Fin n}
    (awaits : (machine.thread task).pc = .lockRet id)
    (away : task ∉ machine.kernel.waitHead (.mutex id)) :
    Guarded (machine.setThread task { machine.thread task with
      pc := .user, guards := id :: (machine.thread task).guards }) id := by
  obtain ⟨isOwner, fresh⟩ := guarded.granted task awaits away
  have others : ∀ other, other ≠ task → (machine.setThread task { machine.thread task with
      pc := .user, guards := id :: (machine.thread task).guards }).thread other =
        machine.thread other := by
    intro other different
    simp [Machine.setThread, different]
  refine ⟨?_, ?_, ?_, guarded.owned⟩
  · intro other holds
    by_cases same : other = task
    · exact same ▸ isOwner
    · rw [others other same] at holds
      exact guarded.held other holds
  · intro other
    by_cases same : other = task
    · subst same
      have none := List.count_eq_zero.mpr fresh
      simp [Machine.setThread, none]
    · rw [others other same]
      exact guarded.once other
  · intro other awaitsNext notWaiting
    by_cases same : other = task
    · subst same
      simp [Machine.setThread] at awaitsNext
    · rw [others other same] at awaitsNext ⊢
      exact guarded.granted other awaitsNext notWaiting

/-- A task takes a free mutex. -/
theorem acquire (guarded : Guarded machine id) {task : Fin n}
    (free : machine.kernel.owner id = none) (owner : next.kernel.owner id = some task)
    (waitHead : next.kernel.waitHead (.mutex id) = machine.kernel.waitHead (.mutex id))
    (guards : ∀ other, (next.thread other).guards = (machine.thread other).guards)
    (pc : ∀ other, other ≠ task → (next.thread other).pc = (machine.thread other).pc) :
    Guarded next id where
  held other holds := by
    rw [guards] at holds
    simp [guarded.held other holds] at free
  once other := by
    rw [guards]
    exact guarded.once other
  granted other awaits away := by
    by_cases same : other = task
    · subst same
      refine ⟨owner, fun holds => ?_⟩
      rw [guards] at holds
      simp [guarded.held other holds] at free
    · rw [pc other same] at awaits
      rw [waitHead] at away
      simp [(guarded.granted other awaits away).1] at free
  owned _ := by simp [owner]

/-- A task joins the waiters of a mutex that has an owner. -/
theorem wait (guarded : Guarded machine id) {task : Fin n}
    (owned : machine.kernel.owner id ≠ none)
    (owner : next.kernel.owner id = machine.kernel.owner id)
    (waitHead : next.kernel.waitHead (.mutex id) = task :: machine.kernel.waitHead (.mutex id))
    (guards : ∀ other, (next.thread other).guards = (machine.thread other).guards)
    (pc : ∀ other, other ≠ task → (next.thread other).pc = (machine.thread other).pc) :
    Guarded next id where
  held other holds := by
    rw [guards] at holds
    exact owner.trans (guarded.held other holds)
  once other := by
    rw [guards]
    exact guarded.once other
  granted other awaits away := by
    rw [waitHead, List.mem_cons, not_or] at away
    rw [pc other away.1] at awaits
    rw [owner, guards]
    exact guarded.granted other awaits away.2
  owned _ := by rwa [owner]

/-- The owner passes the mutex on. -/
theorem release (guarded : Guarded machine id) {task : Fin n}
    (holds : id ∈ (machine.thread task).guards)
    (away : task ∉ machine.kernel.waitHead (.mutex id))
    (passed : Spec.Passed machine.kernel next.kernel id)
    (guards : (next.thread task).guards = (machine.thread task).guards.erase id)
    (pc : (next.thread task).pc ≠ .lockRet id)
    (others : ∀ other, other ≠ task → next.thread other = machine.thread other) :
    Guarded next id := by
  have isOwner := guarded.held task holds
  -- the only guard there was is consumed
  have consumed : ∀ other, id ∉ (next.thread other).guards := by
    intro other holdsNext
    by_cases same : other = task
    · subst same
      rw [guards, ← List.count_pos_iff, List.count_erase_self] at holdsNext
      have once := guarded.once other
      omega
    · rw [others other same] at holdsNext
      exact same (Option.some.inj ((guarded.held other holdsNext).symm.trans isOwner))
  -- and whoever is about to get one was waiting
  have waiting : ∀ other, (next.thread other).pc = .lockRet id →
      other ∈ machine.kernel.waitHead (.mutex id) := by
    intro other awaits
    by_cases same : other = task
    · exact absurd (same ▸ awaits) pc
    · rw [others other same] at awaits
      by_contra notWaiting
      exact same (Option.some.inj ((guarded.granted other awaits notWaiting).1.symm.trans isOwner))
  refine ⟨?_, ?_, ?_, ?_⟩
  · exact fun other holdsNext => absurd holdsNext (consumed other)
  · intro other
    rw [List.count_eq_zero.mpr (consumed other)]
    exact Nat.zero_le 1
  · intro other awaits notWaiting
    refine ⟨?_, consumed other⟩
    have member := waiting other awaits
    rcases passed with ⟨empty, _, _⟩ | ⟨waiter, _, owner, waitHead, _⟩
    · simp [empty] at member
    · rw [waitHead] at notWaiting
      by_cases same : other = waiter
      · exact same ▸ owner
      · exact absurd ((List.mem_erase_of_ne same).mpr member) notWaiting
  · rcases passed with ⟨_, _, empty⟩ | ⟨waiter, _, owner, _⟩
    · exact fun waits => absurd empty waits
    · exact fun _ => by simp [owner]

/-- Sections that use the mutex. -/
theorem call_uses (guarded : Guarded machine id) {call : Call V} {task : Fin n}
    {kernel : Spec n V} {outcome : Outcome} {pendsv : Bool} (core : Core config machine)
    (isCurrent : machine.kernel.current = some task)
    (runs : (machine.kernel.tcb task).state.isRunning = true)
    (may : (machine.thread task).mayCall call = true)
    (returned : call.run (some task) machine.kernel = .ok (kernel, outcome))
    (uses : .mutex id ∈ call.uses) :
    Guarded { machine.setThread task ((machine.thread task).after call outcome) with
      kernel, pendsv } id := by
  have away : task ∉ machine.kernel.waitHead (.mutex id) := core.wf.not_mem_of_running runs
  have others : ∀ other, other ≠ task → (machine.setThread task
      ((machine.thread task).after call outcome)).thread other = machine.thread other := by
    intro other different
    simp [Machine.setThread, different]
  have releases : call.releases id → outcome.pc ≠ .lockRet id → Guarded
      { machine.setThread task ((machine.thread task).after call outcome) with
        kernel, pendsv } id := by
    intro releases pc
    have holds := Thread.held_of_releases releases may
    refine guarded.release holds away ?_ ?_ ?_ others
    · exact Spec.passed_of_releases releases returned (guarded.held task holds) away
    · simpa [Machine.setThread, Thread.after] using Thread.guardsAfter_releases releases
    · simpa [Machine.setThread, Thread.after] using pc
  have ends := Call.run_endsAt returned
  obtain rfl | rfl | rfl | ⟨condvar, rfl⟩ := Call.uses_mutex uses
  · have guards : ∀ other, ((machine.setThread task
        ((machine.thread task).after (.lock (V := V) id) outcome)).thread other).guards =
          (machine.thread other).guards := by
      intro other
      by_cases same : other = task
      · subst same
        simp [Machine.setThread, Thread.after, Thread.guardsAfter]
      · rw [others other same]
    obtain ⟨⟨locked, flag⟩, locks, rest⟩ := Except.ok_of_bind returned
    cases rest
    rcases Spec.lock_cases locks with ⟨free, rfl, _⟩ | ⟨owner, current, owned, isCaller, rfl, _⟩
    · refine guarded.acquire free ?_ rfl guards (fun other different => by rw [others other different])
      simpa using isCurrent
    · obtain rfl : task = current := Option.some.inj (isCurrent.symm.trans isCaller)
      refine guarded.wait (by simp [owned]) ?_ ?_ guards
        (fun other different => by rw [others other different])
      · simp [Spec.blockAndPush]
      · simp [Spec.blockAndPush]
  · have guards : ∀ other, ((machine.setThread task
        ((machine.thread task).after (.tryLock (V := V) id) outcome)).thread other).guards =
          (machine.thread other).guards := by
      intro other
      by_cases same : other = task
      · subst same
        simp [Machine.setThread, Thread.after, Thread.guardsAfter]
      · rw [others other same]
    rcases Spec.tryLock_cases machine.kernel id with ⟨free, locks⟩ | ⟨owned, refused⟩
    · simp only [Call.run, locks] at returned
      cases returned
      refine guarded.acquire free ?_ rfl guards (fun other different => by rw [others other different])
      simpa using isCurrent
    · simp only [Call.run, refused] at returned
      cases returned
      refine guarded.frame rfl rfl (fun other => by rw [guards]) ?_
      intro other awaits
      by_cases same : other = task
      · subst same
        simp [Machine.setThread, Thread.after] at awaits
      · rwa [others other same] at awaits
  · refine releases rfl ?_
    intro pc
    rw [pc] at ends
    cases ends
  · refine releases rfl ?_
    intro pc
    rw [pc] at ends
    cases ends

/-- The invariant survives every move. -/
theorem moves (guarded : Guarded machine id) (core : Core config machine) {action : Action V}
    (moves : Moves machine action next) : Guarded next id := by
  cases moves with
  | scheduled scheduled =>
      refine guarded.frame (by rw [scheduled.moved.waitHead]) ?_ ?_ ?_
      · obtain ⟨_, _, same⟩ := scheduled.moved.statics
        rw [same]
      · intro task
        rw [(scheduled.thread task).2.2]
      · intro task
        rw [(scheduled.thread task).1]
        exact fun awaits => awaits
  | isr safe returned contract slots =>
      rename_i call kernel outcome pendsv isrSlots
      obtain ⟨flag, effect, _⟩ := contract.effect
      have outside : .mutex id ∉ call.uses := Call.not_uses_mutex_of_isrSafe safe
      exact guarded.frame (effect.heads _ outside) (effect.agree (.mutex id) outside)
        (fun _ => le_rfl) (fun _ awaits => awaits)
  | call isCurrent runs may returned contract =>
      rename_i call task kernel outcome pendsv
      by_cases uses : .mutex id ∈ call.uses
      · exact guarded.call_uses core isCurrent runs may returned uses
      · obtain ⟨flag, effect, _⟩ := contract.effect
        refine guarded.own (effect.heads _ uses) (effect.agree (.mutex id) uses) rfl ?_ ?_
        · exact Thread.count_guardsAfter_le
        · intro pc
          have ends := Call.run_endsAt returned
          rw [show outcome.pc = .lockRet id from pc] at ends
          exact absurd (Call.uses_of_endsAt_lockRet ends) uses
  | ret runs returns =>
      rename_i task
      cases returns with
      | plain pc => exact guarded.own rfl rfl rfl le_rfl (by simp)
      | value pc received => exact guarded.own rfl rfl rfl le_rfl (by simp)
      | box pc => exact guarded.own rfl rfl rfl le_rfl (by simp)
      | guard pc =>
          rename_i mutex
          by_cases same : mutex = id
          · subst same
            exact guarded.enter pc (core.wf.not_mem_of_running runs)
          · refine guarded.own rfl rfl rfl ?_ (by simp)
            simp [same]
  | isrRet assigned => exact guarded.frame rfl rfl (fun _ => le_rfl) (fun _ awaits => awaits)
  | writeBox live stored => exact guarded.frame rfl rfl (fun _ => le_rfl) (fun _ awaits => awaits)
  | dropBox runs user live inBounds => exact guarded.own rfl rfl rfl le_rfl (fun awaits => awaits)
  | forgetGuard runs user held =>
      exact guarded.own rfl rfl rfl (List.erase_sublist.count_le _) (fun awaits => awaits)

end Guarded

/-- The invariant holds of every mutex in every reachable state. -/
theorem guarded_of_reachable (reachable : (system config V).Reachable machine) (id : Nat) :
    Guarded machine id := by
  have start : ∀ kernel, config.boot V WaitList (List (Fin n)) = .ok kernel →
      Guarded (Config.start V WaitList (List (Fin n)) kernel) id := by
    intro kernel boot
    have empty : kernel.waitHead (.mutex id) = [] := by
      rw [(Config.booted_of_boot boot).waitHead]
      rfl
    exact ⟨by simp [Config.start], by simp [Config.start], by simp [Config.start],
      fun waits => absurd empty waits⟩
  exact invariant_of_moves (fun machine => Guarded machine id) start
    (fun _ _ _ core guarded moves => Guarded.moves guarded core moves) reachable

/-- An owner stays owner until its own release. -/
theorem Moves.owner_cases {action : Action V} (moves : Moves machine action next)
    (guarded : Guarded machine id) {owner : Fin n}
    (owned : machine.kernel.owner id = some owner) :
    next.kernel.owner id = some owner ∨
      ∃ call, action = .call call ∧ call.releases id ∧ machine.kernel.current = some owner := by
  cases moves with
  | scheduled scheduled =>
      obtain ⟨_, _, same⟩ := scheduled.moved.statics
      exact .inl (by rw [same]; exact owned)
  | isr safe returned contract slots =>
      obtain ⟨flag, effect, _⟩ := contract.effect
      exact .inl (Eq.trans (effect.agree (.mutex id) (Call.not_uses_mutex_of_isrSafe safe)) owned)
  | call isCurrent runs may returned contract =>
      rename_i call task kernel outcome pendsv
      obtain ⟨flag, effect, _⟩ := contract.effect
      by_cases uses : .mutex id ∈ call.uses
      · obtain rfl | rfl | rfl | ⟨condvar, rfl⟩ := Call.uses_mutex uses
        · obtain ⟨⟨locked, flag⟩, locks, rest⟩ := Except.ok_of_bind returned
          cases rest
          rcases Spec.lock_cases locks with ⟨free, _, _⟩ | ⟨_, current, _, _, rfl, _⟩
          · simp [free] at owned
          · exact .inl (by simpa [Spec.blockAndPush] using owned)
        · rcases Spec.tryLock_cases machine.kernel id with ⟨free, _⟩ | ⟨_, refused⟩
          · simp [free] at owned
          · simp only [Call.run, refused] at returned
            cases returned
            exact .inl owned
        · have releases : (Call.dropGuard id : Call V).releases id := rfl
          have holds := Thread.held_of_releases releases may
          rw [← owned, guarded.held task holds]
          exact .inr ⟨_, rfl, releases, isCurrent⟩
        · have releases : (Call.wait condvar id : Call V).releases id := rfl
          have holds := Thread.held_of_releases releases may
          rw [← owned, guarded.held task holds]
          exact .inr ⟨_, rfl, releases, isCurrent⟩
      · exact .inl (Eq.trans (effect.agree (.mutex id) uses) owned)
  | ret runs returns => cases returns <;> exact .inl owned
  | isrRet assigned => exact .inl owned
  | dropBox runs user live inBounds => exact .inl owned
  | writeBox live stored => exact .inl owned
  | forgetGuard runs user held => exact .inl owned

/-- A release is the owner's, and passes the mutex on. -/
theorem Core.passed (core : Core config machine) (guarded : Guarded machine id) {call : Call V}
    (releases : call.releases id) (step : Machine.Step config.idle machine (.call call) next) :
    machine.kernel.owner id = machine.kernel.current ∧
      Spec.Passed machine.kernel next.kernel id := by
  cases step with
  | call isTask notIdle triggered may returned =>
      obtain ⟨_, _, isCurrent⟩ := Machine.threadTask_eq_some.mp isTask
      have owned := guarded.held _ (Thread.held_of_releases releases may)
      have away : _ ∉ machine.kernel.waitHead (.mutex id) :=
        core.wf.not_mem_of_running (core.task_running isTask triggered)
      exact ⟨owned.trans isCurrent.symm, Spec.passed_of_releases releases returned owned away⟩

/-- A task that returns with a guard is the owner. -/
theorem Core.owner_of_return (core : Core config machine) (guarded : Guarded machine id)
    {task : Fin n} (isTask : machine.threadTask = some task)
    (awaits : (machine.thread task).pc = .lockRet id)
    (step : Machine.Step config.idle machine .ret next) :
    machine.kernel.owner id = some task ∧ next.kernel.owner id = some task := by
  cases step with
  | ret isCaller triggered returns =>
      rename_i caller
      obtain rfl : task = caller := Option.some.inj (isTask.symm.trans isCaller)
      have away : task ∉ machine.kernel.waitHead (.mutex id) :=
        core.wf.not_mem_of_running (core.task_running isTask triggered)
      have owned := (guarded.granted task awaits away).1
      cases returns <;> exact ⟨owned, owned⟩

end SpecMachine

namespace RepMachine

variable {n : Nat} {V : Type} {config : Config n} {machine : RtosMachine n V}

/-- A live guard belongs to the owner, and there is one at most. Whoever returns with a
guard is the owner. A mutex with waiters has an owner. A release is the owner's, and in
the same step the mutex passes to a most urgent waiter, or is free if there is none. No
other step takes a mutex from its owner. -/
theorem mutex_exclusive (reachable : (system config V).Reachable machine) (id : Nat) :
    (∀ task, id ∈ (machine.thread task).guards → machine.kernel.owner id = some task) ∧
    (∀ task, (machine.thread task).guards.count id ≤ 1) ∧
    (∀ task next, machine.threadTask = some task → (machine.thread task).pc = .lockRet id →
      machine.perform config.idle .ret = some (.ok next) →
      machine.kernel.owner id = some task ∧ next.kernel.owner id = some task) ∧
    (∀ task, machine.kernel.WaitsOn (.mutex id) task → machine.kernel.owner id ≠ none) ∧
    (∀ call next, call.releases id → machine.perform config.idle (.call call) = some (.ok next) →
      machine.kernel.owner id = machine.kernel.current ∧
      ((∀ waiter, ¬machine.kernel.WaitsOn (.mutex id) waiter) ∧ next.kernel.owner id = none ∨
        ∃ waiter, machine.kernel.WaitsOn (.mutex id) waiter ∧
          next.kernel.owner id = some waiter ∧
          ∀ other, machine.kernel.WaitsOn (.mutex id) other →
            (machine.kernel.tcb waiter).priority ≤ (machine.kernel.tcb other).priority)) ∧
    ∀ action next owner, machine.kernel.owner id = some owner →
      machine.perform config.idle action = some (.ok next) →
      next.kernel.owner id = some owner ∨
        ∃ call, action = .call call ∧ call.releases id ∧ machine.kernel.current = some owner := by
  obtain ⟨spec, reach, rep⟩ := exists_spec reachable
  have core := SpecMachine.core_of_reachable reach
  have guarded := SpecMachine.guarded_of_reachable reach id
  have waits : ∀ task, machine.kernel.WaitsOn (.mutex id) task ↔
      task ∈ spec.kernel.waitHead (.mutex id) := rep.kernel.waitsOn_iff (.mutex id)
  have owners := rep.kernel.statics
  refine ⟨?_, ?_, ?_, ?_, ?_, ?_⟩
  · rw [rep.thread, owners]
    exact guarded.held
  · rw [rep.thread]
    exact guarded.once
  · intro task next isTask awaits performed
    obtain ⟨specNext, performedSpec, repNext⟩ := rep.perform_ok core performed
    rw [rep.threadTask_eq] at isTask
    rw [rep.thread] at awaits
    rw [owners, repNext.kernel.statics]
    exact core.owner_of_return guarded isTask awaits (Machine.step_of_perform performedSpec)
  · intro task waiting
    rw [owners]
    exact guarded.owned (List.ne_nil_of_mem ((waits task).mp waiting))
  · intro call next releases performed
    obtain ⟨specNext, performedSpec, repNext⟩ := rep.perform_ok core performed
    rw [owners, repNext.kernel.statics]
    obtain ⟨isCurrent, passed⟩ :=
      core.passed guarded releases (Machine.step_of_perform performedSpec)
    refine ⟨isCurrent, ?_⟩
    simp only [waits, rep.kernel.priority]
    rcases passed with ⟨empty, free, _⟩ | ⟨waiter, member, owner, _, least⟩
    · exact .inl ⟨by simp [empty], free⟩
    · exact .inr ⟨waiter, member, owner, least⟩
  · intro action next owner owned performed
    obtain ⟨specNext, performedSpec, repNext⟩ := rep.perform_ok core performed
    rw [owners] at owned ⊢
    rw [repNext.kernel.statics]
    exact (core.moves (Machine.step_of_perform performedSpec)).owner_cases guarded owned

/-- A task blocks on a mutex while another holds its guard. -/
theorem mutex_exclusive_one_waiter : ∃ machine : RtosMachine 4 Unit,
    (0 ∈ (machine.thread 1).guards ∧ machine.kernel.waitHead (.mutex 0) = some 2) ∧
    machine.kernel.owner 0 = some 1 := by
  let check (machine : RtosMachine 4 Unit) : Bool :=
    0 ∈ (machine.thread 1).guards ∧ machine.kernel.waitHead (.mutex 0) = some 2
  let actions : List (Action Unit) := [.launch, .call (.lock 0), .ret] ++
    Config.thenSwitch (.take 0) ++ Config.thenSwitch (.lock 0)
  obtain ⟨machine, reachable, checked⟩ := Machine.exists_of_check actions check
    (by decide +kernel : (Config.small 10 20 30).passes Unit _ _ actions check = true)
  have shape := of_decide_eq_true checked
  exact ⟨machine, shape, (mutex_exclusive reachable 0).1 1 shape.1⟩

end RepMachine

end Kangaroos
