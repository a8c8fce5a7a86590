import Kangaroos.Abstract.Semaphores
import Kangaroos.Proofs.Search
import Kangaroos.Proofs.SingleRunning

/-!
# Interrupts during the switch

`find_next` visits the tasks one by one with interrupts enabled. A task that
becomes ready behind the search is compared with the outgoing `CURRENT` only. The
preemption is still noticed if that comparison asks for another PendSV, if the
search has yet to visit the task, or if the search ends with a task at least as
urgent anyway.
-/

namespace Kangaroos

namespace Kernel

variable {n : Nat} {V Link Head : Type} {kernel : Kernel n V Link Head}

/-- A search that has yet to visit `tasks` and has found `best` ends with a task at least
as urgent as `task`. -/
def Covers (kernel : Kernel n V Link Head) (tasks : List (Fin n)) (best : TcbPtr n)
    (task : Fin n) : Prop :=
  ∃ other, (kernel.tcb other).priority ≤ (kernel.tcb task).priority ∧
    (other ∈ tasks ∧ (kernel.tcb other).state.isReady = true ∨ best = some other)

/-- Visiting a task keeps what the search covers. -/
theorem Covers.consider {task other : Fin n} {rest : List (Fin n)} {best : TcbPtr n × U8}
    (scored : kernel.Scored best) (covers : kernel.Covers (task :: rest) best.1 other) :
    kernel.Covers rest (kernel.consider task best).1 other := by
  obtain ⟨leader, ordered, source⟩ := covers
  unfold Kernel.consider
  split
  · rename_i taken
    rcases source with ⟨member, ready⟩ | isBest
    · rcases List.mem_cons.mp member with rfl | inRest
      · exact ⟨leader, ordered, .inr rfl⟩
      · exact ⟨leader, ordered, .inl ⟨inRest, ready⟩⟩
    · have urgent : (kernel.tcb task).priority < (kernel.tcb leader).priority := by
        rw [← scored leader isBest]
        exact taken.2.resolve_left (by simp [isBest])
      exact ⟨task, urgent.le.trans ordered, .inr rfl⟩
  · rename_i passed
    rcases source with ⟨member, ready⟩ | isBest
    · rcases List.mem_cons.mp member with rfl | inRest
      · have runnable : (kernel.tcb leader).state.runnable = true := by
          simp [TaskState.runnable, ready]
        -- the visited task was passed over, so the best one is at least as urgent
        obtain ⟨found, notUrgent⟩ := not_or.mp fun better => passed ⟨runnable, better⟩
        obtain ⟨chosen, isBest⟩ := Option.ne_none_iff_exists'.mp found
        rw [scored chosen isBest] at notUrgent
        exact ⟨chosen, (not_lt.mp notUrgent).trans ordered, .inr isBest⟩
      · exact ⟨leader, ordered, .inl ⟨inRest, ready⟩⟩
    · exact ⟨leader, ordered, .inr isBest⟩

/-- When nothing is left to visit, the best task covers. -/
theorem Covers.of_nil {task : Fin n} {best : TcbPtr n} (covers : kernel.Covers [] best task) :
    ∃ chosen, best = some chosen ∧ (kernel.tcb chosen).priority ≤ (kernel.tcb task).priority := by
  obtain ⟨other, ordered, ⟨visited, _⟩ | isBest⟩ := covers
  · cases visited
  · exact ⟨other, isBest, ordered⟩

end Kernel

namespace Machine

variable {n : Nat} {V Link Head : Type}

/-- The switch ends well for `task`: it is at most as urgent as the task the search ends
with. -/
def Covers (machine : Machine n V Link Head) (task : Fin n) : Prop :=
  machine.kernel.Covers machine.toVisit machine.handler.best task

/-- Should `task` become ready now, its preemption is not lost: the search has not started,
or a PendSV is pending or gets triggered because `task` is more urgent than `CURRENT`, or
the search has yet to visit `task` or ends with a task at least as urgent. -/
def Notices (machine : Machine n V Link Head) (task : Fin n) : Prop :=
  machine.handler.searching = false ∨ machine.pendsv = true ∨
    (∃ current, machine.kernel.current = some current ∧
      (machine.kernel.tcb task).priority < (machine.kernel.tcb current).priority) ∨
    task ∈ machine.toVisit ∨ machine.Covers task

/-- While PendSV searches, it covers every ready task, or another one is pending. -/
def Covered (machine : Machine n V Link Head) : Prop :=
  machine.handler.searching = true → machine.pendsv = true ∨
    ∀ task, (machine.kernel.tcb task).state.isReady = true → machine.Covers task

end Machine

/-- The steps of a system whose tasks use only `take` and `sleep`, with interrupt handlers
that use only `give`. -/
def Action.takesAndSleeps {V : Type} : Action V → Bool
  | .launch | .tick | .pendsv _ | .trigger | .ret => true
  | .call (.take _) | .call (.sleep _) | .call (.sleepUntil _) => true
  | .isr (.give _) => true
  | _ => false

namespace Spec

variable {n : Nat} {V : Type} {kernel after : Spec n V}

/-- What `give` does to the tasks: nothing, or the most urgent waiter becomes ready and is
compared with `CURRENT`. -/
theorem give_tcb {id : Nat} {flag : Bool} (returned : Semaphore.give kernel id = .ok (after, flag)) :
    after.tcb = kernel.tcb ∨ ∃ task current slice,
      kernel.mostUrgent (kernel.waitHead (.semaphore id)) = some task ∧
      kernel.current = some current ∧ after.tcb = (kernel.setState task (.ready slice)).tcb ∧
      flag = decide ((kernel.tcb task).priority < (kernel.tcb current).priority) := by
  rcases give_cases returned with ⟨task, current, chosen, isCurrent, rfl, flagged⟩ |
    ⟨_, ⟨_, rfl⟩ | ⟨_, rfl⟩⟩
  · exact .inr ⟨task, current, _, chosen, isCurrent, rfl, flagged⟩
  · exact .inl rfl
  · exact .inl rfl

end Spec

namespace SpecMachine

variable {n : Nat} {V : Type} {config : Config n} {machine next : SpecMachine n V}

/-- What a search covers it covers as long as ready tasks stay ready. -/
theorem covers_congr (handler : next.handler = machine.handler)
    (visits : next.toVisit = machine.toVisit)
    (priority : ∀ task, (next.kernel.tcb task).priority = (machine.kernel.tcb task).priority)
    (ready : ∀ task, (machine.kernel.tcb task).state.isReady = true →
      (next.kernel.tcb task).state.isReady = true)
    {task : Fin n} (covers : machine.Covers task) : next.Covers task := by
  obtain ⟨other, ordered, source⟩ := covers
  refine ⟨other, by rwa [priority, priority], ?_⟩
  rw [visits, handler]
  exact source.imp_left fun visited => ⟨visited.1, ready other visited.2⟩

/-- A step of a search loop covers what was covered. -/
theorem Core.covered_pass (core : Core config machine) (scored : machine.Scored)
    (covered : machine.Covered) {sp : Word} {best : TcbPtr n × U8}
    (switches : Machine.SwitchStep machine sp next) (inPass : machine.handler.pass = some best) :
    next.Covered := by
  obtain ⟨kernel, pendsv, moved⟩ := core.search_moves switches inPass
  obtain ⟨searching, isBest⟩ := Handler.best_of_pass inPass
  intro _
  rw [pendsv, kernel]
  refine (covered searching).imp_right fun covers task ready => ?_
  have before := covers task ready
  rw [Machine.Covers, isBest] at before
  rw [Machine.Covers, kernel]
  rcases moved with ⟨visited, parts, considered⟩ | ⟨same, kept⟩ | ⟨chosen, done, found, selected⟩
  · rw [(Handler.best_of_pass considered).2]
    rw [parts] at before
    exact before.consider (Machine.scored_iff.mp scored best inPass)
  · rw [same, (Handler.best_of_pass kept).2]
    exact before
  · rw [done, found] at before
    simpa only [Machine.toVisit, selected, Handler.best] using before

/-- A step of PendSV covers what was covered, and its first one everything. -/
theorem Core.covered_switch (core : Core config machine) (scored : machine.Scored)
    (covered : machine.Covered) {sp : Word} (switches : Machine.SwitchStep machine sp next) :
    next.Covered := by
  cases inPass : machine.handler.pass with
  | some best => exact core.covered_pass scored covered switches inPass
  | none =>
      have coreNext := core.switchStep switches
      cases switches with
      | save entered saved =>
          refine fun _ => .inr fun task ready => ⟨task, le_rfl, .inl ⟨?_, ready⟩⟩
          obtain ⟨current, isCurrent⟩ := Option.ne_none_iff_exists'.mp fun noCurrent => by
            cases (coreNext.fresh noCurrent).1
          rw [coreNext.search_begins isCurrent rfl, Rotation.mem_sweep]
          exact coreNext.listed ready
      | switch selected =>
          intro _
          have covers := covered (by rw [selected]; rfl)
          unfold Machine.Covers Machine.toVisit at covers
          rw [selected] at covers
          exact covers
      | enter inactive pending => exact fun searching => by cases searching
      | finish switched marked => exact fun searching => by cases searching
      | visit1 searching => simp [searching, Handler.pass] at inPass
      | wrap searching => simp [searching, Handler.pass] at inPass
      | visit2 searching notStart => simp [searching, Handler.pass] at inPass
      | select searching atEnd found => simp [searching, Handler.pass] at inPass

/-- No task runs during the search, and then SysTick only advances the time. -/
theorem Core.covered_tick (core : Core config machine) (covered : machine.Covered)
    {kernel : Spec n V} {preempt : Bool} (returned : machine.kernel.tick = .ok (kernel, preempt))
    (waits : next.handler = machine.handler ∧ next.toVisit = machine.toVisit ∧
      ∀ task, (next.kernel.tcb task).priority = (machine.kernel.tcb task).priority)
    (isNext : next = { machine with kernel, pendsv := machine.pendsv || preempt }) :
    next.Covered := by
  obtain ⟨handler, visits, priority⟩ := waits
  intro searching
  rw [handler] at searching
  have active : machine.handler ≠ .inactive ∧ machine.handler ≠ .entered := by
    constructor <;> intro quiet <;> rw [quiet] at searching <;> cases searching
  have ticked := (Spec.tick_spec core.chain).of_ok returned
  have sameTcb : next.kernel.tcb = machine.kernel.tcb := by
    rw [isNext]
    exact (ticked.paused fun current _ => core.stopped_of_phase active.1 active.2 current).1
  rcases covered searching with pended | covers
  · exact .inl (by simp [isNext, pended])
  · refine .inr fun task ready => covers_congr handler visits priority ?_ (covers task ?_)
    · exact fun other readyBefore => by rwa [sameTcb]
    · rwa [← sameTcb]

/-- A `give` keeps ready tasks covered, provided the switch notices the task it wakes. -/
theorem covered_give {scope : Prim → Prop} {on : WaitList → Prop} (covered : machine.Covered)
    {id : Nat} {kernel : Spec n V} {preempt flag : Bool} {isrSlots : Nat → List U8}
    (gives : Semaphore.give machine.kernel id = .ok (kernel, preempt))
    (effect : Spec.Effect scope on none flag machine.kernel kernel)
    (waits : next.handler = machine.handler ∧ next.toVisit = machine.toVisit ∧
      ∀ task, (next.kernel.tcb task).priority = (machine.kernel.tcb task).priority)
    (noticed : ∀ task, Spec.mostUrgent machine.kernel
      (machine.kernel.waitHead (.semaphore id)) = some task → machine.Notices task)
    (isNext : next = { machine with kernel, pendsv := machine.pendsv || preempt, isrSlots }) :
    next.Covered := by
  obtain ⟨handler, visits, priority⟩ := waits
  have ready : ∀ task, (machine.kernel.tcb task).state.isReady = true →
      (next.kernel.tcb task).state.isReady = true := by
    intro task ready
    rw [isNext, show (kernel.tcb task).state = (machine.kernel.tcb task).state from ?_]
    · exact ready
    · apply effect.state_of_not_blocked (by simp)
      intro list blocked
      simp [blocked] at ready
  have keeps : ∀ task, machine.Covers task → next.Covers task := fun task =>
    covers_congr handler visits priority ready
  intro searching
  rw [handler] at searching
  rcases covered searching with pended | covers
  · exact .inl (by simp [isNext, pended])
  rcases Spec.give_tcb gives with sameTcb | ⟨woken, current, slice, chosen, isCurrent, wakes, flagged⟩
  · refine .inr fun task isReady => keeps task (covers task ?_)
    rw [isNext] at isReady
    rwa [← sameTcb]
  have others : ∀ task, task ≠ woken → (next.kernel.tcb task).state.isReady = true →
      next.Covers task := by
    intro task different isReady
    apply keeps task (covers task _)
    simp only [isNext, wakes] at isReady
    simpa [different] using isReady
  have suffices_woken : ((next.kernel.tcb woken).state.isReady = true → next.Covers woken) →
      ∀ task, (next.kernel.tcb task).state.isReady = true → next.Covers task := by
    intro coversWoken task isReady
    by_cases same : task = woken
    · subst same
      exact coversWoken isReady
    · exact others task same isReady
  rcases noticed woken chosen with unsearched | pended | urgent | unvisited | behind
  · cases searching.symm.trans unsearched
  · exact .inl (by simp [isNext, pended])
  · obtain ⟨other, isOther, urgent⟩ := urgent
    obtain rfl : current = other := Option.some.inj (isCurrent.symm.trans isOther)
    exact .inl (by simp [isNext, flagged, urgent])
  · refine .inr (suffices_woken fun isReady => ⟨woken, le_rfl, .inl ⟨?_, isReady⟩⟩)
    rw [visits]
    exact unvisited
  · exact .inr (suffices_woken fun _ => keeps woken behind)

/-- Every step of such a system keeps ready tasks covered, provided the switch notices the
task a `give` wakes. -/
theorem Core.covered_step (core : Core config machine) (scored : machine.Scored)
    (covered : machine.Covered) {action : Action V} (inScope : action.takesAndSleeps = true)
    (noticed : ∀ id, action = .isr (.give id) → ∀ task,
      Spec.mostUrgent machine.kernel (machine.kernel.waitHead (.semaphore id)) = some task →
      machine.Notices task)
    (step : Machine.Step config.idle machine action next) : next.Covered := by
  by_cases isSwitch : ∃ sp, action = .pendsv sp
  · obtain ⟨sp, rfl⟩ := isSwitch
    cases step with
    | pendsv switches => exact core.covered_switch scored covered switches
  have other : ∀ sp, action ≠ .pendsv sp := fun sp same => isSwitch ⟨sp, same⟩
  by_cases inactive : machine.handler = .inactive
  · intro searching
    rw [step.handler_eq other, inactive] at searching
    cases searching
  -- while PendSV is active, only SysTick and interrupt handlers make steps
  obtain ⟨handler, -, visits, priority⟩ := core.search_waits step other inactive
  have idleOnly : ∀ task, machine.threadTask ≠ some task := fun task isTask =>
    inactive (Machine.threadTask_eq_some.mp isTask).1
  cases step with
  | launch fresh returned => exact absurd (core.fresh fresh).1 inactive
  | call isTask notIdle triggered may returned => exact absurd isTask (idleOnly _)
  | trigger isTask untriggered => exact absurd isTask (idleOnly _)
  | ret isTask triggered returns => exact absurd isTask (idleOnly _)
  | pendsv switches => exact absurd rfl (other _)
  | tick returned => exact core.covered_tick covered returned ⟨handler, visits, priority⟩ rfl
  | isr safe returned slots =>
      rename_i call kernel outcome isrSlots
      cases call with
      | give id =>
          obtain ⟨flag, effect, _⟩ := (core.isr_contract safe returned).effect
          obtain ⟨⟨after, preempt⟩, gives, rest⟩ := Except.ok_of_bind returned
          cases rest
          exact covered_give covered gives effect ⟨handler, visits, priority⟩ (noticed id rfl) rfl
      | _ => cases inScope
  | _ => cases inScope

/-- When PendSV ends well and no other is pending, the new `CURRENT` leads. -/
theorem Core.leads_of_covered (core : Core config machine) (covered : machine.Covered) {sp : Word}
    (switches : Machine.SwitchStep machine sp next) (active : machine.handler ≠ .inactive)
    (done : next.handler = .inactive) (unpended : next.pendsv = false) :
    ∃ current, next.kernel.current = some current ∧
      ∀ task, (next.kernel.tcb task).state.isReady = true →
        (next.kernel.tcb current).priority ≤ (next.kernel.tcb task).priority := by
  cases switches with
  | finish switched marked =>
      rename_i task kernel
      have phase := core.phase
      rw [switched] at phase
      obtain ⟨_, ready, isCurrent⟩ := phase
      obtain ⟨moved, statics, runs, others⟩ := (Spec.markRunning_spec ready).of_ok marked
      refine ⟨task, (congrArg Statics.current statics).trans isCurrent, fun other isReady => ?_⟩
      have different : other ≠ task := by
        rintro rfl
        obtain ⟨slice, running⟩ := TaskState.isRunning_iff.mp runs
        simp [running] at isReady
      have readyBefore : (machine.kernel.tcb other).state.isReady = true := by
        rw [← others other different]
        exact isReady
      have covers := (covered (by rw [switched]; rfl)).resolve_left (by simpa using unpended)
      have ends := covers other readyBefore
      unfold Machine.Covers Machine.toVisit at ends
      rw [switched] at ends
      obtain ⟨chosen, isChosen, ordered⟩ := ends.of_nil
      obtain rfl : task = chosen := Option.some.inj isChosen
      rwa [(moved.fixed task).1, (moved.fixed other).1]
  | enter inactive pending => exact absurd inactive active
  | _ => cases done

end SpecMachine

/-- The waiter that the next wake-up on `list` picks: the first of the most urgent ones. -/
def Kernel.NextWoken {n : Nat} {V : Type} (kernel : Rtos n V) (list : WaitList) (task : Fin n) :
    Prop :=
  ∃ waiters, Linked.Chain kernel.waitLink (kernel.waitHead list) waiters ∧
    waiters.argmin (fun waiter => (kernel.tcb waiter).priority) = some task

/-- The switch notices the task that a `give` in an interrupt handler wakes. -/
def Machine.Noticed {n : Nat} {V : Type} (machine : RtosMachine n V) : Action V → Prop
  | .isr (.give id) => ∀ task, machine.kernel.NextWoken (.semaphore id) task → machine.Notices task
  | _ => True

/-- No PendSV is being handled. -/
def Handler.isInactive {n : Nat} : Handler n → Bool
  | .inactive => true
  | _ => false

theorem Handler.isInactive_iff {n : Nat} {handler : Handler n} :
    handler.isInactive = true ↔ handler = .inactive := by
  cases handler <;> simp [isInactive]

/-- An action of the scope in which a `give` in an interrupt handler finds every task still to
be visited. -/
def Machine.givesEarly {n : Nat} {V : Type} (machine : RtosMachine n V) (action : Action V) : Bool :=
  action.takesAndSleeps &&
    match action with
    | .isr (.give _) => !machine.handler.searching || decide (∀ task, task ∈ machine.toVisit)
    | _ => true

theorem Machine.noticed_of_givesEarly {n : Nat} {V : Type} {machine : RtosMachine n V}
    {action : Action V} (early : machine.givesEarly action = true) :
    action.takesAndSleeps = true ∧ machine.Noticed action := by
  obtain ⟨inScope, visits⟩ := Bool.and_eq_true_iff.mp early
  refine ⟨inScope, ?_⟩
  cases action with
  | isr call =>
      cases call with
      | give id =>
          intro task _
          rcases Bool.or_eq_true_iff.mp visits with unsearched | visits
          · exact .inl (by simpa using unsearched)
          · exact .inr (.inr (.inr (.inl (of_decide_eq_true visits task))))
      | _ => trivial
  | _ => trivial

namespace RepMachine

variable {n : Nat} {V : Type} {config : Config n} {machine next : RtosMachine n V}
  {spec : SpecMachine n V}

theorem nextWoken_iff (rep : RepMachine machine spec) (list : WaitList) (task : Fin n) :
    machine.kernel.NextWoken list task ↔
      Spec.mostUrgent spec.kernel (spec.kernel.waitHead list) = some task := by
  have chain := rep.kernel.chain list
  simp only [Kernel.NextWoken, Spec.mostUrgent, rep.kernel.priority]
  constructor
  · rintro ⟨waiters, visits, chosen⟩
    rwa [← visits.unique chain]
  · exact fun chosen => ⟨_, chain, chosen⟩

theorem toVisit_eq (rep : RepMachine machine spec) : machine.toVisit = spec.toVisit := by
  simp only [Machine.toVisit, rep.handler, rep.allLink_eq, rep.kernel.statics]

theorem covers_iff (rep : RepMachine machine spec) (task : Fin n) :
    machine.Covers task ↔ spec.Covers task := by
  simp only [Machine.Covers, Kernel.Covers, rep.toVisit_eq, rep.handler, rep.kernel.priority,
    rep.kernel.isReady]

theorem notices_iff (rep : RepMachine machine spec) (task : Fin n) :
    machine.Notices task ↔ spec.Notices task := by
  simp only [Machine.Notices, rep.handler, rep.pendsv, rep.kernel.statics, rep.kernel.priority,
    rep.toVisit_eq, rep.covers_iff]

/-- In a run in which the switch notices every task that an interrupt wakes, whenever PendSV
ends with no other PendSV pending, no ready task is more urgent than the new `CURRENT`. -/
theorem no_lost_preemption
    (reachable : ((system config V).restrict fun machine action =>
      action.takesAndSleeps = true ∧ machine.Noticed action).Reachable machine)
    {sp : Word} (performed : machine.perform config.idle (.pendsv sp) = some (.ok next))
    (active : machine.handler ≠ .inactive) (done : next.handler = .inactive)
    (unpended : next.pendsv = false) :
    ∃ current, next.kernel.current = some current ∧
      ∀ task, (next.kernel.tcb task).state.isReady = true →
        (next.kernel.tcb current).priority ≤ (next.kernel.tcb task).priority := by
  -- the run is matched by an abstract run that keeps every ready task covered
  have matched : ∃ spec, (SpecMachine.system config V).Reachable spec ∧ RepMachine machine spec ∧
      spec.Covered := by
    refine reachable.invariant (fun machine => ∃ spec, (SpecMachine.system config V).Reachable spec ∧
      RepMachine machine spec ∧ spec.Covered) ?_ ?_
    · rintro state start
      obtain ⟨spec, reach, rep⟩ := exists_spec (.initial start)
      obtain ⟨kernel, boot, rfl⟩ := start
      have inactive : spec.handler = .inactive := rep.handler.symm
      refine ⟨spec, reach, rep, fun searching => ?_⟩
      rw [inactive] at searching
      cases searching
    · rintro state action after _ ⟨spec, reach, rep, covered⟩ ⟨⟨inScope, noticed⟩, step⟩
      have core := SpecMachine.core_of_reachable reach
      obtain ⟨specNext, stepSpec, repNext⟩ := rep.perform_ok core step
      refine ⟨specNext, .step reach stepSpec, repNext, core.covered_step
        (SpecMachine.scored_of_reachable reach) covered inScope ?_ (Machine.step_of_perform stepSpec)⟩
      rintro id rfl task chosen
      exact (rep.notices_iff task).mp (noticed task ((rep.nextWoken_iff _ _).mpr chosen))
  obtain ⟨spec, reach, rep, covered⟩ := matched
  have core := SpecMachine.core_of_reachable reach
  obtain ⟨specNext, performedSpec, repNext⟩ := rep.perform_ok core performed
  rw [rep.handler] at active
  rw [repNext.handler] at done
  rw [repNext.pendsv] at unpended
  simp only [repNext.kernel.statics, repNext.kernel.isReady, repNext.kernel.priority]
  exact core.leads_of_covered covered (Machine.switchStep_of_pendsvStep performedSpec) active done
    unpended

/-- The semaphore of task 2 is given before the search has visited any task: task 2 is
picked. -/
theorem no_lost_preemption_early_give : ∃ machine next : RtosMachine 4 Unit,
    machine.perform 0 (.pendsv 0) = some (.ok next) ∧ ∃ current,
      next.kernel.current = some current ∧
      ∀ task, (next.kernel.tcb task).state.isReady = true →
        (next.kernel.tcb current).priority ≤ (next.kernel.tcb task).priority := by
  have sound : ∀ (machine : RtosMachine 4 Unit) action,
      (system (Config.small 10 20 30) Unit).Reachable machine → machine.givesEarly action = true →
      action.takesAndSleeps = true ∧ machine.Noticed action :=
    fun _ _ _ early => Machine.noticed_of_givesEarly early
  let actions : List (Action Unit) := [.launch] ++ Config.thenSwitch (.take 0) ++
    Config.thenSwitch (.take 1) ++ [.isr (.give 0)] ++ List.replicate 10 (.pendsv 0) ++
    [.ret, .call (.take 0), .trigger] ++ List.replicate 2 (.pendsv 0) ++ [.isr (.give 1)] ++
    List.replicate 7 (.pendsv 0)
  let settles (next : RtosMachine 4 Unit) : Bool :=
    next.handler.isInactive = true ∧ next.pendsv = false
  let check (machine : RtosMachine 4 Unit) : Bool :=
    machine.handler.searching = true ∧ machine.performPasses 0 (.pendsv 0) settles = true
  have passes : (Config.small 10 20 30).passesWithin Unit (TcbPtr 4) (TcbPtr 4) Machine.givesEarly actions
      check = true := by decide +kernel
  obtain ⟨machine, reachable, checked⟩ :=
    Machine.exists_of_checkWithin sound actions check passes
  obtain ⟨searching, ends⟩ := of_decide_eq_true checked
  have active : machine.handler ≠ .inactive := by
    intro inactive
    rw [inactive] at searching
    cases searching
  obtain ⟨next, performed, isSettled⟩ := Machine.exists_of_performPasses ends
  obtain ⟨done, unpended⟩ := of_decide_eq_true isSettled
  exact ⟨machine, next, performed,
    no_lost_preemption reachable performed active (Handler.isInactive_iff.mp done) unpended⟩

/-- Task 1 gives up the processor and the search has just passed task 2 when an interrupt
gives the semaphore task 2 waits for. Task 2 is compared with the outgoing task 1 only, and
PendSV ends in task 3 with none pending. -/
theorem lost_preemption_late_give :
    ¬∀ machine next : RtosMachine 4 Unit,
      ((system (Config.small 10 20 30) Unit).restrict fun _ action =>
        action.takesAndSleeps = true).Reachable machine →
      ∀ sp, machine.perform 0 (.pendsv sp) = some (.ok next) → machine.handler ≠ .inactive →
        next.handler = .inactive → next.pendsv = false →
        ∀ current, next.kernel.current = some current →
        ∀ task, (next.kernel.tcb task).state.isReady = true →
          (next.kernel.tcb current).priority ≤ (next.kernel.tcb task).priority := by
  intro always
  let allowed (_ : RtosMachine 4 Unit) (action : Action Unit) : Bool := action.takesAndSleeps
  have sound : ∀ (machine : RtosMachine 4 Unit) action,
      (system (Config.small 10 20 30) Unit).Reachable machine → allowed machine action = true →
      action.takesAndSleeps = true := fun _ _ _ isAllowed => isAllowed
  let actions : List (Action Unit) := [.launch] ++ Config.thenSwitch (.take 0) ++
    Config.thenSwitch (.take 1) ++ [.isr (.give 0)] ++ List.replicate 10 (.pendsv 0) ++
    [.ret, .call (.take 0), .trigger] ++ List.replicate 5 (.pendsv 0) ++ [.isr (.give 1)] ++
    List.replicate 4 (.pendsv 0)
  let lost (next : RtosMachine 4 Unit) : Bool :=
    next.handler.isInactive = true ∧ next.pendsv = false ∧ next.kernel.current = some 3 ∧
    (next.kernel.tcb 2).state.isReady = true ∧
    (next.kernel.tcb 2).priority < (next.kernel.tcb 3).priority
  let check (machine : RtosMachine 4 Unit) : Bool :=
    machine.handler.searching = true ∧ machine.performPasses 0 (.pendsv 0) lost = true
  have passes : (Config.small 10 20 30).passesWithin Unit (TcbPtr 4) (TcbPtr 4) allowed actions
      check = true := by decide +kernel
  obtain ⟨machine, reachable, checked⟩ :=
    Machine.exists_of_checkWithin sound actions check passes
  obtain ⟨searching, ends⟩ := of_decide_eq_true checked
  have active : machine.handler ≠ .inactive := by
    intro inactive
    rw [inactive] at searching
    cases searching
  obtain ⟨next, performed, isLost⟩ := Machine.exists_of_performPasses ends
  obtain ⟨done, unpended, isCurrent, ready, behind⟩ := of_decide_eq_true isLost
  have leads := always machine next reachable 0 performed active (Handler.isInactive_iff.mp done)
    unpended 3 isCurrent 2 ready
  exact absurd leads (not_le.mpr behind)

end RepMachine

end Kangaroos
