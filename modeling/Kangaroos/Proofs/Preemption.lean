import Kangaroos.Proofs.PriorityInheritance

/-!
# Preemption decisions

A settled state needs no switch: the running task is at least as urgent as every
ready one. An operation that wakes a task compares it with `CURRENT`, which is
enough while `CURRENT` keeps its priority. The drop of a guard may lower it, and
then looks at the woken waiter only.
-/

namespace Kangaroos

/-- No switch is needed and none is pending. -/
def Machine.Settled {n : Nat} {V Link Head : Type} (machine : Machine n V Link Head) : Prop :=
  machine.pendsv = false ∧ ∃ current, machine.kernel.current = some current ∧
    (machine.kernel.tcb current).state.isRunning = true ∧
    ∀ task, (machine.kernel.tcb task).state.isReady = true →
      (machine.kernel.tcb current).priority ≤ (machine.kernel.tcb task).priority

/-- An operation asks for a switch: `trigger_pendsv()` follows the section, or in a
handler has been called, or `set_from_isr` and `tick` return `true`. -/
def Machine.Requests {n : Nat} {V Link Head : Type} [ops : WaitOps n V Link Head]
    (machine next : Machine n V Link Head) : Action V → Prop
  | .call _ => ∃ task, machine.kernel.current = some task ∧ (next.thread task).trig = true
  | .isr (.setFromIsr id mask _) =>
    ∃ result, EventGroup.setFromIsr machine.kernel id mask = .ok result ∧ result.2 = true
  | _ => next.pendsv = true

/-- The kernel operations. -/
def Action.isOperation {V : Type} : Action V → Bool
  | .tick | .isr _ | .call _ => true
  | _ => false

/-- When a guard is dropped and `CURRENT` falls back to its base priority, either a waiter
of the mutex is more urgent than that, or no ready task is. -/
def Kernel.KeepsRank {n : Nat} {V : Type} (kernel : Rtos n V) : Action V → Prop
  | .call (.dropGuard id) => ∀ current, kernel.current = some current →
    (∃ waiter, kernel.WaitsOn (.mutex id) waiter ∧
      (kernel.tcb waiter).priority < (kernel.tcb current).basePriority) ∨
    ∀ task, (kernel.tcb task).state.isReady = true →
      (kernel.tcb current).basePriority ≤ (kernel.tcb task).priority
  | _ => True

namespace Call

variable {n : Nat} {V Link Head : Type} [ops : WaitOps n V Link Head]

/-- Only `Condvar::wait` pends a switch inside its section, and it triggers one anyway. -/
theorem run_inside {call : Call V} {who : TcbPtr n} {kernel after : Kernel n V Link Head}
    {outcome : Outcome} (returned : call.run who kernel = .ok (after, outcome))
    (unpended : outcome.pend = false) : outcome.inside = false := by
  cases call with
  | tryTake id => cases returned; rfl
  | tryLock id => cases returned; rfl
  | clear id mask => cases returned; rfl
  | sleep duration => cases returned; rfl
  | wait condvar mutex =>
      obtain ⟨_, _, rest⟩ := Except.ok_of_bind returned
      cases rest
      cases unpended
  | callOnce id =>
      obtain ⟨⟨_, role⟩, _, rest⟩ := Except.ok_of_bind returned
      cases rest
      cases role <;> rfl
  | _ =>
      obtain ⟨_, _, rest⟩ := Except.ok_of_bind returned
      cases rest
      rfl

end Call

namespace Spec

variable {n : Nat} {V : Type} {kernel after : Spec n V} {current : Fin n} {id : Nat}

/-- `current` is at least as urgent as every ready task. -/
def Leads (kernel : Spec n V) (current : Fin n) : Prop :=
  ∀ task, (kernel.tcb task).state.isReady = true →
    (kernel.tcb current).priority ≤ (kernel.tcb task).priority

/-- What the drop of a guard must meet. -/
def KeepsRankAt (kernel : Spec n V) (id : Nat) (current : Fin n) : Prop :=
  (∃ waiter ∈ kernel.waitHead (.mutex id),
    (kernel.tcb waiter).priority < (kernel.tcb current).basePriority) ∨
  ∀ task, (kernel.tcb task).state.isReady = true →
    (kernel.tcb current).basePriority ≤ (kernel.tcb task).priority

/-- The abstract form of `Kernel.KeepsRank`. -/
def KeepsRank (kernel : Spec n V) : Action V → Prop
  | .call (.dropGuard id) => ∀ current, kernel.current = some current → KeepsRankAt kernel id current
  | _ => True

/-- A section that raises no flag and changes no priority leaves `CURRENT` in the lead. -/
theorem Leads.of_effect {scope : Prim → Prop} {on : WaitList → Prop} {who : TcbPtr n}
    (leads : Leads kernel current) (effect : Effect scope on who false kernel after)
    (isCurrent : kernel.current = some current)
    (priority : ∀ task, (after.tcb task).priority = (kernel.tcb task).priority) :
    Leads after current := by
  intro task ready
  rcases effect.quiet rfl current task isCurrent ready with readyBefore | ordered
  · rw [priority, priority]
    exact leads task readyBefore
  · exact ordered

/-- The drop of a guard asks for a switch, or leaves `CURRENT` in the lead at its base
priority, exactly when that priority leads already or a waiter beats it. -/
theorem leads_unlock_iff {flag : Bool} (wf : WellFormed kernel none)
    (returned : Mutex.unlockInternal kernel id = .ok (after, flag))
    (isCurrent : kernel.current = some current) (owned : kernel.owner id = some current)
    (runs : (kernel.tcb current).state.isRunning = true) :
    flag = true ∨ Leads after current ↔ KeepsRankAt kernel id current := by
  have notReady : ∀ task, (kernel.tcb task).state.isReady = true → task ≠ current := by
    rintro task ready rfl
    obtain ⟨slice, running⟩ := TaskState.isRunning_iff.mp runs
    simp [running] at ready
  have priority := unlockInternal_priority returned owned
  obtain ⟨owner, isOwner, outcome⟩ := unlockInternal_cases returned
  obtain rfl : current = owner := Option.some.inj (owned.symm.trans isOwner)
  have resetState : ∀ task, ((kernel.reset current).tcb task).state = (kernel.tcb task).state := by
    intro task
    by_cases same : task = current
    · subst same
      simp
    · simp [same]
  rcases outcome with ⟨empty, rfl, rfl⟩ | ⟨waiter, member, caller, isCaller, least, rfl, rfl⟩
  · constructor
    · rintro (flagged | leads)
      · cases flagged
      · refine .inr fun task ready => ?_
        have ordered := leads task ((congrArg _ (resetState task)).trans ready)
        rwa [priority current, if_pos rfl, priority task, if_neg (notReady task ready)] at ordered
    · rintro (⟨waiter, member, _⟩ | leads)
      · simp [empty] at member
      · refine .inr fun task ready => ?_
        have readyBefore := (congrArg _ (resetState task)).symm.trans ready
        rw [priority current, if_pos rfl, priority task, if_neg (notReady task readyBefore)]
        exact leads task readyBefore
  · obtain rfl : current = caller := Option.some.inj (isCurrent.symm.trans isCaller)
    have apart : ∀ other ∈ kernel.waitHead (.mutex id), other ≠ current := by
      rintro other waits rfl
      exact wf.not_mem_of_running runs waits
    have steady : ∀ other ∈ kernel.waitHead (.mutex id),
        ((kernel.reset current).tcb other).priority = (kernel.tcb other).priority := by
      intro other waits
      rw [reset_priority, if_neg (apart other waits)]
    rw [steady waiter member, reset_priority, if_pos rfl, decide_eq_true_iff]
    have leader : ∀ other ∈ kernel.waitHead (.mutex id),
        (kernel.tcb waiter).priority ≤ (kernel.tcb other).priority := by
      intro other waits
      rw [← steady waiter member, ← steady other waits]
      exact least other waits
    constructor
    · rintro (urgent | leads)
      · exact .inl ⟨waiter, member, urgent⟩
      · refine .inr fun task ready => ?_
        have different : task ≠ waiter := by
          rintro rfl
          simp [wf.mem.mp member] at ready
        have readyAfter : (((kernel.reset current).handOver id waiter).tcb task).state.isReady =
            true := by
          simpa [handOver, different] using (congrArg _ (resetState task)).trans ready
        have ordered := leads task readyAfter
        rwa [priority current, if_pos rfl, priority task, if_neg (notReady task ready)] at ordered
    · rintro (⟨other, waits, urgent⟩ | leads)
      · exact .inl ((leader other waits).trans_lt urgent)
      · rcases lt_or_ge (kernel.tcb waiter).priority (kernel.tcb current).basePriority with
          urgent | relaxed
        · exact .inl urgent
        · refine .inr fun task ready => ?_
          rw [priority current, if_pos rfl, priority task]
          by_cases same : task = waiter
          · subst same
            rwa [if_neg (apart task member)]
          · have readyBefore : (kernel.tcb task).state.isReady = true := by
              rw [← resetState]
              simpa [handOver, same] using ready
            rw [if_neg (notReady task readyBefore)]
            exact leads task readyBefore

end Spec

namespace SpecMachine

variable {n : Nat} {V : Type} {config : Config n} {machine next : SpecMachine n V}

/-- `tick` compares every ready task with `CURRENT`. -/
theorem Core.settled_tick (core : Core config machine) (settled : machine.Settled)
    {kernel : Spec n V} {preempt : Bool} (returned : machine.kernel.tick = .ok (kernel, preempt))
    (unpended : preempt = false) :
    ({ machine with kernel, pendsv := machine.pendsv || preempt }).Settled := by
  obtain ⟨notPending, current, isCurrent, runs, leads⟩ := settled
  have ticked := (Spec.tick_spec core.chain).of_ok returned
  have runsAfter := ticked.running current isCurrent runs
  refine ⟨by simp [notPending, unpended], current, ticked.current.trans isCurrent, runsAfter, ?_⟩
  intro task ready
  have different : task ≠ current := by
    rintro rfl
    obtain ⟨slice, running⟩ := TaskState.isRunning_iff.mp runsAfter
    rw [show (kernel.tcb task).state = _ from running] at ready
    simp at ready
  have listed : task ∈ config.order := (core.tick returned).listed ready
  rw [(ticked.moved.fixed current).1]
  exact ticked.quiet unpended current isCurrent runs task listed different ready

/-- So does the flag of a section a handler runs. -/
theorem settled_isr (settled : machine.Settled) {scope : Prim → Prop} {on : WaitList → Prop}
    {kernel : Spec n V} {pend : Bool} {isrSlots : Nat → List U8}
    (effect : Spec.Effect scope on none false machine.kernel kernel)
    (outside : ∀ id, ¬scope (.mutex id)) (unpended : pend = false) :
    ({ machine with kernel, pendsv := machine.pendsv || pend, isrSlots }).Settled := by
  obtain ⟨notPending, current, isCurrent, runs, leads⟩ := settled
  refine ⟨by simp [notPending, unpended], current, effect.current.trans isCurrent, ?_, ?_⟩
  · have notBlocked : ∀ list, (machine.kernel.tcb current).state ≠ .blocked list := by
      intro list blocked
      simp [blocked] at runs
    exact (congrArg _ (effect.state_of_not_blocked (by simp) notBlocked)).trans runs
  · exact Spec.Leads.of_effect leads effect isCurrent (effect.priority outside)

/-- A section of the running task raises its flag or leaves it running. -/
theorem settled_call {kernel : Spec n V} {task : Fin n} {thread : Thread} {inside : Bool}
    (isCurrent : kernel.current = some task)
    (runs : (kernel.tcb task).state.isRunning = true) (notInside : inside = false)
    (leads : Spec.Leads kernel task) :
    ({ machine.setThread task thread with kernel, pendsv := inside }).Settled :=
  ⟨notInside, task, isCurrent, runs, leads⟩

/-- Sections of tasks decide soundly exactly when they keep the rank of `CURRENT`. -/
theorem Core.call_decides_iff (core : Core config machine) (guarded : ∀ id, Guarded machine id)
    (settled : machine.Settled) {call : Call V} {task : Fin n} {kernel : Spec n V}
    {outcome : Outcome} (isCurrent : machine.kernel.current = some task)
    (runs : (machine.kernel.tcb task).state.isRunning = true)
    (may : (machine.thread task).mayCall call = true)
    (returned : call.run (some task) machine.kernel = .ok (kernel, outcome))
    (contract : call.Contract (some task) machine.kernel (kernel, outcome)) :
    outcome.pend = true ∨ ({ machine.setThread task ((machine.thread task).after call outcome) with
      kernel, pendsv := outcome.inside }).Settled ↔ Spec.KeepsRank machine.kernel (.call call) := by
  obtain ⟨flag, effect, _, reports⟩ := contract.effect
  have leads : Spec.Leads machine.kernel task := by
    obtain ⟨_, current, isCurrent', _, leads⟩ := settled
    obtain rfl : task = current := Option.some.inj (isCurrent.symm.trans isCurrent')
    exact leads
  have isFlag : outcome.pend = flag := by
    apply reports
    cases call <;> first | rfl | simp [Thread.mayCall] at may
  have stays : outcome.pend = false → (kernel.tcb task).state.isRunning = true := by
    intro unpended
    rcases effect.own task rfl with same | ⟨pended, _⟩
    · exact (congrArg _ same).trans runs
    · rw [← isFlag, unpended] at pended
      cases pended
  have settles : outcome.pend = false → Spec.Leads kernel task →
      ({ machine.setThread task ((machine.thread task).after call outcome) with
        kernel, pendsv := outcome.inside }).Settled := fun unpended leads =>
    settled_call (effect.current.trans isCurrent) (stays unpended)
      (Call.run_inside returned unpended) leads
  have always : (outcome.pend = false → Spec.Leads kernel task) →
      (outcome.pend = true ∨ ({ machine.setThread task ((machine.thread task).after call outcome)
        with kernel, pendsv := outcome.inside }).Settled) := by
    intro leadsAfter
    cases unpended : outcome.pend with
    | true => exact .inl rfl
    | false => exact .inr (settles unpended (leadsAfter unpended))
  by_cases uses : ∃ id, .mutex id ∈ call.uses
  · obtain ⟨id, uses⟩ := uses
    obtain rfl | rfl | rfl | ⟨condvar, rfl⟩ := Call.uses_mutex uses
    · refine iff_of_true (always fun unpended => ?_) trivial
      obtain ⟨⟨locked, flag⟩, locks, rest⟩ := Except.ok_of_bind returned
      cases rest
      rcases Spec.lock_cases locks with ⟨_, rfl, _⟩ | ⟨_, _, _, _, _, blocks⟩
      · exact leads
      · cases blocks.symm.trans unpended
    · refine iff_of_true (always fun unpended => ?_) trivial
      rcases Spec.tryLock_cases machine.kernel id with ⟨_, locks⟩ | ⟨_, refused⟩
      · simp only [Call.run, locks] at returned
        cases returned
        exact leads
      · simp only [Call.run, refused] at returned
        cases returned
        exact leads
    · have releases : (Call.dropGuard id : Call V).releases id := rfl
      have owned := (guarded id).held task (Thread.held_of_releases releases may)
      obtain ⟨⟨unlocked, flag'⟩, unlocks, rest⟩ := Except.ok_of_bind returned
      cases rest
      have exactly := Spec.leads_unlock_iff core.wf unlocks isCurrent owned runs
      have atCurrent : Spec.KeepsRank machine.kernel (.call (.dropGuard id)) ↔
          Spec.KeepsRankAt machine.kernel id task := by
        constructor
        · exact fun keeps => keeps task isCurrent
        · intro keeps other isOther
          obtain rfl : task = other := Option.some.inj (isCurrent.symm.trans isOther)
          exact keeps
      rw [atCurrent, ← exactly]
      constructor
      · rintro (pended | ⟨_, other, isOther, _, leadsAfter⟩)
        · exact .inl pended
        · obtain rfl : task = other :=
            Option.some.inj (isCurrent.symm.trans (effect.current.symm.trans isOther))
          exact .inr leadsAfter
      · rintro (pended | leadsAfter)
        · exact .inl pended
        · exact always fun _ => leadsAfter
    · refine iff_of_true (always fun unpended => ?_) trivial
      obtain ⟨_, _, rest⟩ := Except.ok_of_bind returned
      cases rest
      cases unpended
  · have outside : ∀ id, .mutex id ∉ call.uses := fun id uses' => uses ⟨id, uses'⟩
    refine iff_of_true (always fun unpended => ?_) ?_
    · rw [← isFlag, unpended] at effect
      exact leads.of_effect effect isCurrent (effect.priority outside)
    · cases call <;> first | trivial | simp [Call.uses] at uses

/-- So do all operations. -/
theorem Core.decides_iff (core : Core config machine) (guarded : ∀ id, Guarded machine id)
    (settled : machine.Settled) {action : Action V} (operation : action.isOperation = true)
    (step : Machine.Step config.idle machine action next) :
    machine.Requests next action ∨ next.Settled ↔ Spec.KeepsRank machine.kernel action := by
  cases step with
  | tick returned =>
      rename_i kernel preempt
      refine iff_of_true ?_ trivial
      cases unpended : preempt with
      | true => exact .inl (by simp [Machine.Requests])
      | false => exact .inr (unpended ▸ core.settled_tick settled returned unpended)
  | isr safe returned slots =>
      rename_i call kernel outcome isrSlots
      refine iff_of_true ?_ trivial
      by_cases returnsFlag : call.returnsFlag = true
      · cases call with
        | setFromIsr id mask trigger =>
            obtain ⟨⟨after, preempt⟩, sets, rest⟩ := Except.ok_of_bind returned
            cases rest
            cases unpended : preempt with
            | true => exact .inl ⟨_, sets, unpended⟩
            | false =>
                rw [unpended] at sets
                have noCaller : Spec.CallerRuns none machine.kernel := fun _ isCaller => by cases isCaller
                have sound : Spec.Sound (Prim.event id = ·) (fun _ => False) none machine.kernel
                    (kernel, false) := (Spec.setFromIsr_sound core.wf noCaller rfl).of_ok sets
                exact .inr (settled_isr settled sound.2 (by simp) (by simp))
        | _ => cases returnsFlag
      · obtain ⟨flag, effect, _, reports⟩ := (core.isr_contract safe returned).effect
        have isFlag : outcome.pend = flag := reports (by simpa using returnsFlag)
        cases unpended : outcome.pend with
        | true =>
            left
            cases call with
            | setFromIsr id mask trigger => exact absurd rfl returnsFlag
            | _ => simp [Machine.Requests]
        | false =>
            rw [← isFlag, unpended] at effect
            have outside : ∀ id, .mutex id ∉ call.uses :=
              fun id => Call.not_uses_mutex_of_isrSafe safe
            exact .inr (unpended ▸ settled_isr settled effect outside unpended)
  | call isTask notIdle triggered may returned =>
      rename_i call task kernel outcome
      have isCurrent := (Machine.threadTask_eq_some.mp isTask).2.2
      rw [← core.call_decides_iff guarded settled isCurrent (core.task_running isTask triggered) may
        returned (core.call_contract isTask triggered returned)]
      have requests : machine.Requests { machine.setThread task
          ((machine.thread task).after call outcome) with kernel, pendsv := outcome.inside }
          (.call call) ↔ outcome.pend = true := by
        simp [Machine.Requests, isCurrent, Machine.setThread, Thread.after]
      rw [requests]
  | _ => cases operation

end SpecMachine

namespace RepMachine

variable {n : Nat} {V : Type} {config : Config n} {machine next : RtosMachine n V}
  {spec specNext : SpecMachine n V}

theorem settled_iff (rep : RepMachine machine spec) : machine.Settled ↔ spec.Settled := by
  simp only [Machine.Settled, rep.pendsv, rep.kernel.statics, rep.kernel.isRunning,
    rep.kernel.isReady, rep.kernel.priority]

theorem requests_iff (rep : RepMachine machine spec) (repNext : RepMachine next specNext)
    (action : Action V) : machine.Requests next action ↔ spec.Requests specNext action := by
  cases action with
  | call call => simp only [Machine.Requests, rep.kernel.statics, repNext.thread]
  | isr call =>
      cases call with
      | setFromIsr id mask trigger =>
          exact rep.kernel.setFromIsr.exists_ok_iff fun result result' related => by
            rw [related.2]
      | _ => simp only [Machine.Requests, repNext.pendsv]
  | _ => simp only [Machine.Requests, repNext.pendsv]

theorem keepsRank_iff (rep : RepMachine machine spec) (action : Action V) :
    machine.kernel.KeepsRank action ↔ Spec.KeepsRank spec.kernel action := by
  cases action with
  | call call =>
      cases call <;> simp only [Kernel.KeepsRank, Spec.KeepsRank, Spec.KeepsRankAt,
        rep.kernel.statics, rep.kernel.waitsOn_iff, rep.kernel.priority, rep.kernel.basePriority,
        rep.kernel.isReady]
  | _ => exact Iff.rfl

/-- In a settled state an operation asks for a switch or leaves the state settled exactly
when it keeps the rank of `CURRENT`: always, but for the drop of a guard. -/
theorem preemption_sound_iff (reachable : (system config V).Reachable machine)
    (settled : machine.Settled) {action : Action V} (operation : action.isOperation = true)
    (performed : machine.perform config.idle action = some (.ok next)) :
    machine.Requests next action ∨ next.Settled ↔ machine.kernel.KeepsRank action := by
  obtain ⟨spec, reach, rep⟩ := exists_spec reachable
  have core := SpecMachine.core_of_reachable reach
  obtain ⟨specNext, performedSpec, repNext⟩ := rep.perform_ok core performed
  rw [rep.requests_iff repNext, repNext.settled_iff, rep.keepsRank_iff]
  exact core.decides_iff (SpecMachine.guarded_of_reachable reach) (rep.settled_iff.mp settled)
    operation (Machine.step_of_perform performedSpec)

/-- The most urgent task drops the only guard it has. -/
theorem preemption_sound_iff_unboosted : ∃ machine next : RtosMachine 4 Unit,
    machine.perform 0 (.call (.dropGuard 0)) = some (.ok next) ∧
    (machine.Requests next (.call (.dropGuard 0)) ∨ next.Settled ↔
      machine.kernel.KeepsRank (.call (.dropGuard 0))) := by
  let check (machine : RtosMachine 4 Unit) : Bool :=
    machine.pendsv = false ∧ machine.kernel.current = some 1 ∧
    (machine.kernel.tcb 1).state.isRunning = true ∧
    (∀ task, (machine.kernel.tcb task).state.isReady = true →
      (machine.kernel.tcb 1).priority ≤ (machine.kernel.tcb task).priority) ∧
    machine.performPasses 0 (.call (.dropGuard 0)) (fun _ => true) = true
  let actions : List (Action Unit) := [.launch, .call (.lock 0), .ret]
  obtain ⟨machine, reachable, checked⟩ := Machine.exists_of_check actions check
    (by decide +kernel : (Config.small 10 20 30).passes Unit _ _ actions check = true)
  obtain ⟨pendsv, isCurrent, runs, leads, performs⟩ := of_decide_eq_true checked
  obtain ⟨next, performed, _⟩ := Machine.exists_of_performPasses performs
  exact ⟨machine, next, performed,
    preemption_sound_iff reachable ⟨pendsv, 1, isCurrent, runs, leads⟩ rfl performed⟩

/-- Task 3 runs at the inherited priority 10, and task 2 with priority 20 is ready. When
task 3 drops the guard of the other mutex it holds, it falls back to 30, and nobody asks
for a switch. -/
theorem not_preemption_sound_after_nested_release :
    ¬∀ machine next : RtosMachine 4 Unit,
      (system (Config.small 10 20 30) Unit).Reachable machine → machine.Settled →
      ∀ action : Action Unit, action.isOperation = true →
        machine.perform 0 action = some (.ok next) →
        machine.Requests next action ∨ next.Settled := by
  intro always
  let actions : List (Action Unit) := [.launch] ++ Config.thenSwitch (.take 0) ++
    Config.thenSwitch (.take 1) ++ [.call (.lock 0), .ret, .call (.lock 1), .ret] ++
    Config.thenSwitch (.give 0) ++ [.ret] ++ Config.thenSwitch (.lock 0) ++ [.isr (.give 1)]
  let undecided (next : RtosMachine 4 Unit) : Bool :=
    (next.thread 3).trig = false ∧ next.kernel.current = some 3 ∧
    (next.kernel.tcb 2).state.isReady = true ∧
    (next.kernel.tcb 2).priority < (next.kernel.tcb 3).priority
  let check (machine : RtosMachine 4 Unit) : Bool :=
    machine.pendsv = false ∧ machine.kernel.current = some 3 ∧
    (machine.kernel.tcb 3).state.isRunning = true ∧
    (∀ task, (machine.kernel.tcb task).state.isReady = true →
      (machine.kernel.tcb 3).priority ≤ (machine.kernel.tcb task).priority) ∧
    machine.performPasses 0 (.call (.dropGuard 1)) undecided = true
  obtain ⟨machine, reachable, checked⟩ := Machine.exists_of_check actions check
    (by decide +kernel : (Config.small 10 20 30).passes Unit _ _ actions check = true)
  obtain ⟨pendsv, isCurrent, runs, leads, performs⟩ := of_decide_eq_true checked
  obtain ⟨next, performed, isUndecided⟩ := Machine.exists_of_performPasses performs
  obtain ⟨untriggered, stillCurrent, ready, behind⟩ := of_decide_eq_true isUndecided
  rcases always machine next reachable ⟨pendsv, 3, isCurrent, runs, leads⟩ _ rfl performed with
    ⟨task, isTask, triggered⟩ | ⟨_, task, isTask, _, leadsAfter⟩
  · obtain rfl : 3 = task := Option.some.inj (isCurrent.symm.trans isTask)
    rw [untriggered] at triggered
    cases triggered
  · obtain rfl : 3 = task := Option.some.inj (stillCurrent.symm.trans isTask)
    exact absurd (leadsAfter 2 ready) (not_le.mpr behind)

end RepMachine

end Kangaroos
