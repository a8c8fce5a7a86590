import Kangaroos.Abstract.Stacks
import Kangaroos.Proofs.Preemption
import Kangaroos.Proofs.SwitchRace

/-!
# The most urgent task runs

An operation in a settled state asks for a switch or leaves it settled, and a switch that
notices every wake-up ends in a settled state unless another one is pending. Together: whenever
a task executes and no switch has been asked for, no ready task is more urgent.
-/

namespace Kangaroos

variable {n : Nat} {V : Type}

namespace Kernel

variable {Link Head : Type} {kernel : Kernel n V Link Head}

/-- The search of the launch ends with a candidate that no ready task beats. -/
theorem launchConsider_least {best : TcbPtr n × U8} (scored : kernel.Scored best)
    (tasks : List (Fin n)) :
    kernel.Scored (tasks.foldl kernel.launchConsider best) ∧
      (tasks.foldl kernel.launchConsider best).2 ≤ best.2 ∧
      ∀ task ∈ tasks, (kernel.tcb task).state.isReady = true →
        (tasks.foldl kernel.launchConsider best).2 ≤ (kernel.tcb task).priority := by
  induction tasks generalizing best with
  | nil => exact ⟨scored, le_rfl, by simp⟩
  | cons task rest ih =>
      have visited : kernel.Scored (kernel.launchConsider best task) ∧
          (kernel.launchConsider best task).2 ≤ best.2 ∧
          ((kernel.tcb task).state.isReady = true →
            (kernel.launchConsider best task).2 ≤ (kernel.tcb task).priority) := by
        unfold launchConsider
        split
        · rename_i taken
          refine ⟨fun other isOther => ?_, taken.2.le, fun _ => le_rfl⟩
          rw [← Option.some.inj isOther]
        · rename_i passed
          exact ⟨scored, le_rfl, fun ready => not_lt.mp fun less => passed ⟨ready, less⟩⟩
      obtain ⟨scoredHere, fallsHere, beatsHere⟩ := visited
      obtain ⟨scoredLast, falls, beats⟩ := ih scoredHere
      rw [List.foldl_cons]
      refine ⟨scoredLast, falls.trans fallsHere, fun other member ready => ?_⟩
      rcases List.mem_cons.mp member with rfl | inRest
      · exact falls.trans (beatsHere ready)
      · exact beats other inRest ready

end Kernel

namespace Spec

/-- The task the launch selects leads. -/
theorem leads_of_launch {kernel after : Spec n V} {sp : Word} {order : List (Fin n)}
    (chain : Linked.Chain kernel.allLink kernel.allTasks order) (distinct : order.Nodup)
    (listed : ∀ task, (kernel.tcb task).state.isReady = true → task ∈ order)
    (returned : kernel.svcFirstTaskSp = .ok (after, sp)) :
    ∃ first, after.current = some first ∧ (after.tcb first).state.isRunning = true ∧
      Leads after first := by
  have enough : order.length ≤ n := by simpa using distinct.length_le_card
  obtain ⟨moved, first, _, isCurrent, runs, others⟩ :=
    (svcFirstTaskSp_spec chain distinct).of_ok returned
  dsimp only at moved isCurrent runs others
  obtain ⟨last, isLast⟩ : ∃ last, last = order.foldl kernel.launchConsider (none, 255) := ⟨_, rfl⟩
  have blank : kernel.Scored (none, 255) := by simp [Kernel.Scored]
  obtain ⟨scored, _, beats⟩ := Kernel.launchConsider_least blank order
  rw [← isLast] at scored beats
  have chosen : last.1 = some first := by
    unfold Kernel.svcFirstTaskSp at returned
    rw [Kernel.svcSearch_eq chain enough, ← isLast] at returned
    simp only [Except.ok_bind] at returned
    obtain ⟨task, _, rest⟩ := Except.ok_of_bind returned
    obtain ⟨marked, marks, done⟩ := Except.ok_of_bind rest
    cases done
    rw [← isCurrent]
    exact (Kernel.current_of_markRunning marks).symm
  refine ⟨first, isCurrent, runs, fun task ready => ?_⟩
  have different : task ≠ first := by
    rintro rfl
    obtain ⟨slice, running⟩ := TaskState.isRunning_iff.mp runs
    simp [running] at ready
  rw [others task different] at ready ⊢
  rw [(moved.fixed first).1, ← scored first chosen]
  exact beats task (listed task ready) ready

end Spec

/-- A handler that calls `set_from_isr` triggers PendSV when it returns `true`. -/
def Action.triggers {V : Type} : Action V → Bool
  | .isr (.setFromIsr _ _ follows) => follows
  | _ => true

/-- The switch notices the tasks that a handler wakes. -/
def Machine.NoticesWoken {Link Head : Type} (machine next : Machine n V Link Head) : Action V → Prop
  | .isr _ => ∀ task, (machine.kernel.tcb task).state.isReady = false →
      (next.kernel.tcb task).state.isReady = true → machine.Notices task
  | _ => True

namespace SpecMachine

variable {config : Config n} {machine next : SpecMachine n V} {action : Action V}

/-- What holds in every run that loses no preemption: PendSV covers the ready tasks, and between
two switches the state is settled or another switch has been asked for. -/
structure Urgent (machine : SpecMachine n V) : Prop where
  covered : machine.Covered
  settled : machine.handler = .inactive → machine.pendsv = true ∨
    (∃ task, machine.kernel.current = some task ∧ (machine.thread task).trig = true) ∨
    machine.kernel.current = none ∨ machine.Settled

/-- A section of a handler keeps ready tasks covered, provided the switch notices those it
wakes. -/
theorem covered_isr {scope : Prim → Prop} {on : WaitList → Prop} (covered : machine.Covered)
    {kernel : Spec n V} {flag pend : Bool} {isrSlots : Nat → List U8}
    (effect : Spec.Effect scope on none flag machine.kernel kernel)
    (reports : pend = flag)
    (waits : next.handler = machine.handler ∧ next.toVisit = machine.toVisit ∧
      ∀ task, (next.kernel.tcb task).priority = (machine.kernel.tcb task).priority)
    (noticed : ∀ task, (machine.kernel.tcb task).state.isReady = false →
      (kernel.tcb task).state.isReady = true → machine.Notices task)
    (isNext : next = { machine with kernel, pendsv := machine.pendsv || pend, isrSlots }) :
    next.Covered := by
  obtain ⟨handler, visits, priority⟩ := waits
  have ready : ∀ task, (machine.kernel.tcb task).state.isReady = true →
      (next.kernel.tcb task).state.isReady = true := by
    intro task ready
    rw [isNext, show (kernel.tcb task).state = (machine.kernel.tcb task).state from ?_]
    · exact ready
    · apply effect.state_of_not_blocked (by simp)
      intro list blocked
      simp [blocked] at ready
  have keeps : ∀ task, machine.Covers task → next.Covers task := fun task =>
    covers_congr handler visits priority ready
  intro searching
  rw [handler] at searching
  rcases covered searching with pended | covers
  · exact .inl (by simp [isNext, pended])
  cases pends : pend with
  | true => exact .inl (by simp [isNext, pends])
  | false =>
      by_cases pended : machine.pendsv = true
      · exact .inl (by simp [isNext, pended])
      refine .inr fun task isReady => ?_
      have readyAfter : (kernel.tcb task).state.isReady = true := by
        rw [isNext] at isReady
        exact isReady
      cases readyBefore : (machine.kernel.tcb task).state.isReady with
      | true => exact keeps task (covers task readyBefore)
      | false =>
          rcases noticed task readyBefore readyAfter with
            unsearched | pended' | ⟨current, isCurrent, urgent⟩ | unvisited | behind
          · cases searching.symm.trans unsearched
          · exact absurd pended' pended
          · -- the section compares the task it wakes with `CURRENT`
            rcases effect.quiet (reports ▸ pends) current task isCurrent readyAfter with
              before | ordered
            · cases readyBefore.symm.trans before
            · have same := priority task
              have same' := priority current
              rw [isNext] at same same'
              rw [show (kernel.tcb task).priority = _ from same,
                show (kernel.tcb current).priority = _ from same'] at ordered
              exact absurd urgent (not_lt.mpr ordered)
          · exact ⟨task, le_rfl, .inl ⟨visits ▸ unvisited, isReady⟩⟩
          · exact keeps task behind

/-- Such a handler asks for a switch when its section wakes a more urgent task. -/
theorem Core.isr_effect (core : Core config machine) {call : Call V} {kernel : Spec n V}
    {outcome : Outcome} (safe : call.isrSafe = true)
    (returned : call.run none machine.kernel = .ok (kernel, outcome))
    (triggers : Action.triggers (.isr call) = true) :
    Spec.Effect (· ∈ call.uses) (call.parksOn = some ·) none outcome.pend machine.kernel kernel := by
  obtain ⟨flag, effect, _, reports⟩ := (core.isr_contract safe returned).effect
  by_cases returnsFlag : call.returnsFlag = true
  · cases call with
    | setFromIsr id mask follows =>
        obtain ⟨⟨after, preempt⟩, sets, rest⟩ := Except.ok_of_bind returned
        cases rest
        have noCaller : Spec.CallerRuns none machine.kernel := fun _ isCaller => by cases isCaller
        obtain rfl : follows = true := triggers
        have sound : Spec.Sound (· ∈ (Call.setFromIsr id mask true : Call V).uses) (fun _ => False)
            none machine.kernel (kernel, preempt) :=
          (Spec.setFromIsr_sound core.wf noCaller (by simp [Call.uses])).of_ok sets
        simpa [Call.parksOn] using sound.2
    | _ => cases returnsFlag
  · rw [reports (by simpa using returnsFlag)]
    exact effect

/-- Every such step keeps ready tasks covered. -/
theorem Core.urgent_covered (core : Core config machine) (scored : machine.Scored)
    (covered : machine.Covered) (triggers : action.triggers = true)
    (noticed : machine.NoticesWoken next action) (step : Machine.Step config.idle machine action next) : next.Covered := by
  by_cases isSwitch : ∃ sp, action = .pendsv sp
  · obtain ⟨sp, rfl⟩ := isSwitch
    cases step with
    | pendsv switches => exact core.covered_switch scored covered switches
  have other : ∀ sp, action ≠ .pendsv sp := fun sp same => isSwitch ⟨sp, same⟩
  by_cases inactive : machine.handler = .inactive
  · intro searching
    rw [step.handler_eq other, inactive] at searching
    cases searching
  -- while PendSV is active, only SysTick and interrupt handlers make steps
  obtain ⟨handler, -, visits, priority⟩ := core.search_waits step other inactive
  have idleOnly : ∀ task, machine.threadTask ≠ some task := fun task isTask =>
    inactive (Machine.threadTask_eq_some.mp isTask).1
  cases step with
  | launch fresh returned => exact absurd (core.fresh fresh).1 inactive
  | pendsv switches => exact absurd rfl (other _)
  | tick returned => exact core.covered_tick covered returned ⟨handler, visits, priority⟩ rfl
  | isr safe returned slots =>
      exact covered_isr covered (core.isr_effect safe returned triggers) rfl
        ⟨handler, visits, priority⟩ noticed rfl
  | isrRet assigned => exact covered
  | call isTask notIdle triggered may returned => exact absurd isTask (idleOnly _)
  | trigger isTask untriggered => exact absurd isTask (idleOnly _)
  | ret isTask triggered returns => exact absurd isTask (idleOnly _)
  | dropBox isTask notIdle triggered user live returned => exact absurd isTask (idleOnly _)
  | writeBox isTask notIdle triggered user live returned => exact absurd isTask (idleOnly _)
  | forgetGuard isTask notIdle triggered user held => exact absurd isTask (idleOnly _)

/-- The end of PendSV is settled, unless another one is pending. -/
theorem Core.urgent_switch (core : Core config machine) (covered : machine.Covered) {sp : Word}
    (switches : Machine.SwitchStep machine sp next) (done : next.handler = .inactive) :
    next.pendsv = true ∨
      (∃ task, next.kernel.current = some task ∧ (next.thread task).trig = true) ∨
      next.kernel.current = none ∨ next.Settled := by
  have coreNext := core.switchStep switches
  by_cases active : machine.handler = .inactive
  · cases switches with
    | enter inactive pending => cases done
    | save entered saved => cases active.symm.trans entered
    | visit1 searching => cases active.symm.trans searching
    | wrap searching => cases active.symm.trans searching
    | visit2 searching notStart => cases active.symm.trans searching
    | select searching atEnd found => cases active.symm.trans searching
    | switch selected => cases active.symm.trans selected
    | finish switched marked => cases active.symm.trans switched
  cases unpended : next.pendsv with
  | true => exact .inl rfl
  | false =>
      obtain ⟨current, isCurrent, leads⟩ := core.leads_of_covered covered switches active done unpended
      rcases coreNext.pending done current isCurrent with runs | triggers | pended
      · exact .inr (.inr (.inr ⟨unpended, current, isCurrent, runs, leads⟩))
      · exact .inr (.inl ⟨current, isCurrent, triggers⟩)
      · cases unpended.symm.trans pended

/-- A step that moves no task between states leaves a settled state settled. -/
theorem settled_congr (settled : machine.Settled) (tcb : next.kernel.tcb = machine.kernel.tcb)
    (current : next.kernel.current = machine.kernel.current) (pendsv : next.pendsv = machine.pendsv) :
    next.Settled := by
  unfold Machine.Settled
  rw [tcb, current, pendsv]
  exact settled

/-- A return from a kernel call moves no task between states. -/
theorem settled_ret {task : Fin n} (settled : machine.Settled)
    (returns : Machine.ReturnStep machine task next) : next.Settled := by
  cases returns <;> exact settled_congr settled rfl rfl rfl

/-- A step from a settled state leaves it settled or asks for a switch. -/
theorem Core.urgent_of_settled (core : Core config machine) (guarded : ∀ id, Guarded machine id)
    (settled : machine.Settled) (keeps : Spec.KeepsRank machine.kernel action)
    (triggers : action.triggers = true) (notSwitch : ∀ sp, action ≠ .pendsv sp)
    (step : Machine.Step config.idle machine action next) :
    next.pendsv = true ∨
      (∃ task, next.kernel.current = some task ∧ (next.thread task).trig = true) ∨
      next.Settled := by
  have decides : action.isOperation = true →
      machine.Requests next action ∨ next.Settled := fun operation =>
    (core.decides_iff guarded settled operation step).mpr keeps
  have current : next.Settled → next.pendsv = true ∨
      (∃ task, next.kernel.current = some task ∧ (next.thread task).trig = true) ∨
      next.Settled := fun settles => .inr (.inr settles)
  cases step with
  | launch fresh returned =>
      obtain ⟨_, task, isCurrent, _⟩ := settled
      cases fresh.symm.trans isCurrent
  | pendsv switches => exact absurd rfl (notSwitch _)
  | tick returned => exact (decides rfl).elim .inl current
  | isr safe returned slots =>
      rename_i call kernel outcome isrSlots
      refine (decides rfl).elim (fun requests => .inl ?_) current
      cases call with
      | setFromIsr id mask follows =>
          obtain ⟨⟨after, preempt⟩, sets, rest⟩ := Except.ok_of_bind returned
          obtain ⟨result, sets', asked⟩ := requests
          cases rest
          cases sets.symm.trans sets'
          obtain rfl : follows = true := triggers
          have asked : preempt = true := asked
          simp [asked]
      | _ => exact requests
  | isrRet assigned => exact current (settled_congr settled rfl rfl rfl)
  | call isTask notIdle triggered may returned =>
      rename_i call task kernel outcome
      refine (decides rfl).elim (fun requests => .inr (.inl ?_)) current
      obtain ⟨other, isOther, asks⟩ := requests
      obtain ⟨_, effect, _⟩ := (core.call_contract isTask triggered returned).effect
      exact ⟨other, effect.current.trans isOther, asks⟩
  | trigger isTask untriggered => exact .inl rfl
  | ret isTask triggered returns => exact current (settled_ret settled returns)
  | dropBox isTask notIdle triggered user live returned =>
      obtain ⟨_, _, rfl⟩ := Pool.destroy_ok returned
      exact current (settled_congr settled rfl rfl rfl)
  | writeBox isTask notIdle triggered user live returned =>
      obtain ⟨_, _, rfl⟩ := Pool.write_ok returned
      exact current (settled_congr settled rfl rfl rfl)
  | forgetGuard isTask notIdle triggered user held =>
      exact current (settled_congr settled rfl rfl rfl)

/-- Once a switch has been asked for, nothing but PendSV takes the request back. -/
theorem Core.request_stays (core : Core config machine)
    (requested : machine.pendsv = true ∨
      ∃ task, machine.kernel.current = some task ∧ (machine.thread task).trig = true)
    (notSwitch : ∀ sp, action ≠ .pendsv sp) (step : Machine.Step config.idle machine action next) :
    next.pendsv = true ∨
      ∃ task, next.kernel.current = some task ∧ (next.thread task).trig = true := by
  have idleOnly : ∀ task, machine.threadTask = some task → (machine.thread task).trig = true := by
    intro task isTask
    obtain ⟨_, unpended, isCurrent⟩ := Machine.threadTask_eq_some.mp isTask
    rcases requested with pended | ⟨other, isOther, asks⟩
    · cases unpended.symm.trans pended
    · obtain rfl : task = other := Option.some.inj (isCurrent.symm.trans isOther)
      exact asks
  have untriggered : ∀ task, machine.threadTask = some task →
      (machine.thread task).trig = false → False := fun task isTask triggered => by
    cases triggered.symm.trans (idleOnly task isTask)
  cases step with
  | launch fresh returned =>
      rcases requested with pended | ⟨task, isCurrent, _⟩
      · cases (core.fresh fresh).2.1.symm.trans pended
      · cases fresh.symm.trans isCurrent
  | pendsv switches => exact absurd rfl (notSwitch _)
  | tick returned =>
      refine requested.imp (by simp +contextual) ?_
      rintro ⟨task, isCurrent, asks⟩
      exact ⟨task, ((Spec.tick_spec core.chain).of_ok returned).current.trans isCurrent, asks⟩
  | isr safe returned slots =>
      refine requested.imp (by simp +contextual) ?_
      rintro ⟨task, isCurrent, asks⟩
      obtain ⟨_, effect, _⟩ := (core.isr_contract safe returned).effect
      exact ⟨task, effect.current.trans isCurrent, asks⟩
  | isrRet assigned => exact requested
  | trigger isTask untriggered => exact .inl rfl
  | call isTask notIdle triggered may returned => exact (untriggered _ isTask triggered).elim
  | ret isTask triggered returns => exact (untriggered _ isTask triggered).elim
  | dropBox isTask notIdle triggered user live returned =>
      exact (untriggered _ isTask triggered).elim
  | writeBox isTask notIdle triggered user live returned =>
      exact (untriggered _ isTask triggered).elim
  | forgetGuard isTask notIdle triggered user held => exact (untriggered _ isTask triggered).elim

/-- Before the launch nothing runs, and the launch selects a task that leads. -/
theorem Core.urgent_of_fresh (core : Core config machine) (fresh : machine.kernel.current = none)
    (notSwitch : ∀ sp, action ≠ .pendsv sp) (step : Machine.Step config.idle machine action next) :
    next.kernel.current = none ∨ next.Settled := by
  have idleOnly : ∀ task, machine.threadTask ≠ some task := fun task isTask => by
    cases fresh.symm.trans (Machine.threadTask_eq_some.mp isTask).2.2
  obtain ⟨inactive, unpended, _⟩ := core.fresh fresh
  cases step with
  | launch _ returned =>
      obtain ⟨first, isCurrent, runs, leads⟩ := Spec.leads_of_launch core.chain config.order_nodup
        (fun task => core.listed) returned
      exact .inr ⟨unpended, first, isCurrent, runs, leads⟩
  | pendsv switches => exact absurd rfl (notSwitch _)
  | tick returned =>
      exact .inl (((Spec.tick_spec core.chain).of_ok returned).current.trans fresh)
  | isr safe returned slots =>
      obtain ⟨_, effect, _⟩ := (core.isr_contract safe returned).effect
      exact .inl (effect.current.trans fresh)
  | isrRet assigned => exact .inl fresh
  | trigger isTask untriggered => exact absurd isTask (idleOnly _)
  | call isTask notIdle triggered may returned => exact absurd isTask (idleOnly _)
  | ret isTask triggered returns => exact absurd isTask (idleOnly _)
  | dropBox isTask notIdle triggered user live returned => exact absurd isTask (idleOnly _)
  | writeBox isTask notIdle triggered user live returned => exact absurd isTask (idleOnly _)
  | forgetGuard isTask notIdle triggered user held => exact absurd isTask (idleOnly _)

/-- Every such step keeps what holds of such runs. -/
theorem Core.urgent_step (core : Core config machine) (guarded : ∀ id, Guarded machine id)
    (scored : machine.Scored) (urgent : machine.Urgent)
    (keeps : Spec.KeepsRank machine.kernel action) (triggers : action.triggers = true)
    (noticed : machine.NoticesWoken next action) (step : Machine.Step config.idle machine action next) : next.Urgent where
  covered := core.urgent_covered scored urgent.covered triggers noticed step
  settled done := by
    by_cases isSwitch : ∃ sp, action = .pendsv sp
    · obtain ⟨sp, rfl⟩ := isSwitch
      cases step with
      | pendsv switches => exact core.urgent_switch urgent.covered switches done
    · have other : ∀ sp, action ≠ .pendsv sp := fun sp same => isSwitch ⟨sp, same⟩
      rw [step.handler_eq other] at done
      rcases urgent.settled done with pended | asked | fresh | settled
      · exact (core.request_stays (.inl pended) other step).imp_right .inl
      · exact (core.request_stays (.inr asked) other step).imp_right .inl
      · exact .inr (.inr (core.urgent_of_fresh fresh other step))
      · exact (core.urgent_of_settled guarded settled keeps triggers other step).imp_right
          (Or.imp_right .inr)

end SpecMachine

/-- A step that loses no preemption: the drop of a guard keeps the rank of `CURRENT`, a handler
heeds what `set_from_isr` returns, and the switch notices the tasks it wakes. -/
def Machine.LosesNoPreemption (idle : Fin n) (machine : RtosMachine n V) (action : Action V) : Prop :=
  machine.kernel.KeepsRank action ∧ action.triggers = true ∧
    ∀ next, machine.perform idle action = some (.ok next) → machine.NoticesWoken next action

namespace RepMachine

variable {config : Config n} {machine next : RtosMachine n V} {spec specNext : SpecMachine n V}
  {task : Fin n}

theorem noticesWoken_of (rep : RepMachine machine spec) (repNext : RepMachine next specNext)
    {action : Action V} (noticed : machine.NoticesWoken next action) :
    spec.NoticesWoken specNext action := by
  cases action with
  | isr call =>
      intro task before after
      rw [← rep.kernel.isReady] at before
      rw [← repNext.kernel.isReady] at after
      exact (rep.notices_iff task).mp (noticed task before after)
  | _ => trivial

/-- Such a run is matched by an abstract run in which no preemption is lost. -/
theorem exists_urgent (reachable : ((system config V).restrict
    (Machine.LosesNoPreemption config.idle)).Reachable machine) :
    ∃ spec, (SpecMachine.system config V).Reachable spec ∧ RepMachine machine spec ∧ spec.Urgent := by
  refine (simulation config V).restrict_invariant _ ?_ ?_ reachable
  · rintro spec ⟨kernel, boot, rfl⟩
    refine ⟨nofun, fun _ => .inr (.inr (.inl ?_))⟩
    obtain ⟨_, statics⟩ := (Config.booted_of_boot boot).statics
    show kernel.current = none
    rw [statics]
    rfl
  · rintro state action after spec specNext rep repNext reach urgent ⟨keeps, triggers, noticed⟩
      performed performedSpec
    have core := SpecMachine.core_of_reachable reach
    exact core.urgent_step (SpecMachine.guarded_of_reachable reach)
      (SpecMachine.scored_of_reachable reach) urgent ((rep.keepsRank_iff _).mp keeps) triggers
      (rep.noticesWoken_of repNext (noticed after performed)) (Machine.step_of_perform performedSpec)

/-- Whenever a task executes in such a run and has not asked for a switch, the state is settled. -/
theorem settled_of_executes (reachable : ((system config V).restrict
    (Machine.LosesNoPreemption config.idle)).Reachable machine)
    (isTask : machine.threadTask = some task) (unasked : (machine.thread task).trig = false) :
    machine.Settled := by
  obtain ⟨spec, reach, rep, urgent⟩ := exists_urgent reachable
  obtain ⟨inactive, unpended, isCurrent⟩ := Machine.threadTask_eq_some.mp isTask
  rcases urgent.settled (rep.handler ▸ inactive) with pended | ⟨other, isOther, asks⟩ | none | settled
  · rw [← rep.pendsv, unpended] at pended
    cases pended
  · rw [← rep.kernel.statics, isCurrent] at isOther
    obtain rfl : task = other := Option.some.inj isOther
    rw [← rep.thread, unasked] at asks
    cases asks
  · rw [← rep.kernel.statics, isCurrent] at none
    cases none
  · exact rep.settled_iff.mpr settled

/-- The most urgent task runs: in every run that loses no preemption, whenever a task executes
and has not asked for a switch, it is `Running` and no ready task is more urgent. -/
theorem most_urgent_runs (reachable : ((system config V).restrict
    (Machine.LosesNoPreemption config.idle)).Reachable machine)
    (isTask : machine.threadTask = some task) (unasked : (machine.thread task).trig = false) :
    (machine.kernel.tcb task).state.isRunning = true ∧
      ∀ other, (machine.kernel.tcb other).state.isReady = true →
        (machine.kernel.tcb task).priority ≤ (machine.kernel.tcb other).priority := by
  obtain ⟨_, _, isCurrent⟩ := Machine.threadTask_eq_some.mp isTask
  obtain ⟨_, current, isCurrent', runs, leads⟩ := settled_of_executes reachable isTask unasked
  obtain rfl : task = current := Option.some.inj (isCurrent.symm.trans isCurrent')
  exact ⟨runs, leads⟩

/-- A step of such a run: the drop of a guard leaves `CURRENT` in the lead, and a handler that
interrupts the search finds every task still to be visited. -/
def handlesEarly (machine : RtosMachine n V) (action : Action V) : Bool :=
  action.triggers && match action with
    | .call (.dropGuard _) => decide (∀ current, machine.kernel.current = some current → ∀ task,
        (machine.kernel.tcb task).state.isReady = true →
          (machine.kernel.tcb current).basePriority ≤ (machine.kernel.tcb task).priority)
    | .isr _ => !machine.handler.searching || decide (∀ task, task ∈ machine.toVisit)
    | _ => true

theorem losesNoPreemption_of_handlesEarly {idle : Fin n} {action : Action V}
    (early : handlesEarly machine action = true) : machine.LosesNoPreemption idle action := by
  obtain ⟨triggers, early⟩ := Bool.and_eq_true_iff.mp early
  cases action with
  | call call =>
      refine ⟨?_, triggers, fun _ _ => trivial⟩
      cases call with
      | dropGuard id => exact fun current isCurrent => .inr (of_decide_eq_true early current isCurrent)
      | _ => trivial
  | isr call =>
      refine ⟨trivial, triggers, fun next _ task _ _ => ?_⟩
      rcases Bool.or_eq_true_iff.mp early with unsearched | visits
      · exact .inl (by simpa using unsearched)
      · exact .inr (.inr (.inr (.inl (of_decide_eq_true visits task))))
  | _ => exact ⟨trivial, triggers, fun _ _ => trivial⟩

/-- Task 2 drops a guard, task 1 becomes ready while PendSV searches, and task 2 is not resumed. -/
theorem most_urgent_runs_interrupted : ∃ machine : RtosMachine 4 Unit,
    machine.threadTask = some 1 ∧ (machine.kernel.tcb 1).state.isRunning = true ∧
      ∀ other, (machine.kernel.tcb other).state.isReady = true →
        (machine.kernel.tcb 1).priority ≤ (machine.kernel.tcb other).priority := by
  let actions : List (Action Unit) := [.launch] ++ Config.thenSwitch (.take 0) ++
    [.call (.lock 0), .ret, .call (.dropGuard 0), .call .yieldNow, .trigger] ++
    List.replicate 2 (.pendsv 0) ++ [.isr (.give 0)] ++ List.replicate 18 (.pendsv 0)
  let check (machine : RtosMachine 4 Unit) : Bool :=
    machine.threadTask = some 1 && (machine.thread 1).trig = false
  obtain ⟨machine, reachable, checked⟩ := Machine.exists_of_checkWithin
    (fun _ _ _ early => losesNoPreemption_of_handlesEarly early) actions check
    (by decide +kernel : (Config.small 10 20 30).passesWithin Unit _ _ handlesEarly actions
      check = true)
  obtain ⟨isTask, unasked⟩ := Bool.and_eq_true_iff.mp checked
  exact ⟨machine, of_decide_eq_true isTask,
    most_urgent_runs reachable (of_decide_eq_true isTask) (of_decide_eq_true unasked)⟩

end RepMachine

end Kangaroos
