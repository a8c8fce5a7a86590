import Kangaroos.Logic.Observer
import Kangaroos.Proofs.BoostRelease
import Kangaroos.Proofs.Search
import Kangaroos.Proofs.SingleRunning
import Kangaroos.Proofs.Sleepers

/-!
# Round-robin

A tick that finds the slice of `CURRENT` used up and a peer of equal priority ready asks for
a switch, and `find_next` begins its sweep behind `CURRENT`. So from turn to turn the sweep
comes closer to a waiting peer, as long as no more urgent task is picked in between. The sweep
then begins behind that task, wherever it stands in the list, and the peer may be passed over
again and again.
-/

namespace Kangaroos

namespace Spec

variable {n : Nat} {V : Type} {kernel next : Spec n V} {order : List (Fin n)}

/-- While a task at least as urgent as `CURRENT` waits, a tick takes one from the slice of
`CURRENT` or asks for a switch. -/
theorem tick_turn {current peer : Fin n} {slice : U8} {flag : Bool}
    (chain : Linked.Chain kernel.allLink kernel.allTasks order)
    (isCurrent : kernel.current = some current)
    (runs : (kernel.tcb current).state = .running slice) (listed : peer ∈ order)
    (different : peer ≠ current) (ready : (kernel.tcb peer).state.isReady = true)
    (ordered : (kernel.tcb peer).priority ≤ (kernel.tcb current).priority)
    (returned : kernel.tick = .ok (next, flag)) :
    flag = true ∨ ∃ left : U8, (next.tcb current).state = .running left ∧ 0 < left.val ∧
      left.val + 1 = slice.val := by
  obtain ⟨result, ticks, ticked⟩ := Kernel.tick_running chain isCurrent runs
  obtain rfl : result = (next, flag) := Except.ok.inj (ticks.symm.trans returned)
  have samePeer : (Kernel.wakeAll (Kernel.countTick kernel) (kernel.tickCount + 1) current order).tcb
      peer = kernel.tcb peer := Kernel.wakeAll_awake (Tcb.not_overdue_of_ready ready)
  cases ticked with
  | preempts urgent => exact .inl rfl
  | counts quiet remains =>
      have positive : 0 < slice := Nat.lt_trans Nat.zero_lt_one remains
      have one_less : (slice - 1).val = slice.val - 1 := Fin.val_sub_one_of_ne_zero positive.ne'
      exact .inr ⟨slice - 1, by simp, by omega, by omega⟩
  | expires quiet used =>
      -- nobody is more urgent, so the peer has the priority of the current task
      refine .inl (Kernel.peer_iff.mpr ⟨peer, listed, different, by rwa [samePeer], ?_⟩)
      have sameCurrent : (Kernel.wakeAll (Kernel.countTick kernel) (kernel.tickCount + 1) current
          order).tcb current = kernel.tcb current := Kernel.wakeAll_current _ _ _ _
      rw [samePeer, sameCurrent]
      rw [sameCurrent] at quiet
      refine le_antisymm ordered (not_lt.mp fun less => ?_)
      have urgent := Kernel.rival_iff.mpr
        ⟨peer, listed, different, by rwa [samePeer], by rwa [samePeer]⟩
      exact absurd (urgent.symm.trans quiet) (by simp)

end Spec

namespace Machine

variable {n : Nat} {V Link Head : Type}

/-- Whether a step is a call of `tick` that finds `task` running as `CURRENT`, at the priority
of `peer`. -/
def turn (machine : Machine n V Link Head) (task peer : Fin n) : Action V → Nat
  | .tick =>
    if machine.kernel.current = some task ∧ (machine.kernel.tcb task).state.isRunning = true ∧
        (machine.kernel.tcb task).priority = (machine.kernel.tcb peer).priority then 1
    else 0
  | _ => 0

/-- `find_next` does not come upon a ready task more urgent than `peer`. -/
def Unrivalled (machine : Machine n V Link Head) (peer : Fin n) : Prop :=
  machine.handler.pass ≠ none → ∀ task, (machine.kernel.tcb task).state.isReady = true →
    (machine.kernel.tcb peer).priority ≤ (machine.kernel.tcb task).priority

/-- The stages in which a running task gives up the processor: it runs, it is about to trigger
PendSV, PendSV is pending or entered, and none is left when another one is pending besides. -/
def stage (machine : Machine n V Link Head) (task : Fin n) : Nat :=
  match machine.handler with
  | .inactive => if machine.pendsv then 1 else if (machine.thread task).trig then 2 else 3
  | .entered => if machine.pendsv then 0 else 1
  | _ => 0

theorem stage_lt_four (machine : Machine n V Link Head) (task : Fin n) : machine.stage task < 4 := by
  unfold stage
  cases machine.handler with
  | inactive =>
      simp only
      split_ifs <;> omega
  | entered =>
      simp only
      split <;> omega
  | _ => simp

theorem stage_le {machine next : Machine n V Link Head} {task : Fin n}
    (handler : next.handler = machine.handler)
    (pendsv : machine.pendsv = true → next.pendsv = true)
    (trig : next.pendsv = false → (machine.thread task).trig = true →
      (next.thread task).trig = true) : next.stage task ≤ machine.stage task := by
  unfold stage
  rw [handler]
  cases machine.handler with
  | inactive =>
      cases pends : machine.pendsv with
      | true => simp [pendsv pends]
      | false =>
          cases pends' : next.pendsv with
          | true => cases (machine.thread task).trig <;> simp
          | false =>
              cases triggers : (machine.thread task).trig with
              | true => simp [trig pends' triggers]
              | false => cases (next.thread task).trig <;> simp
  | entered =>
      cases pends : machine.pendsv with
      | true => simp [pendsv pends]
      | false => cases next.pendsv <;> simp
  | _ => simp

/-- Each stage lasts one slice of ticks at most, the present one what is left of the slice. -/
def allowance : Nat → U8 → Nat
  | 0, _ => 0
  | later + 1, slice => max slice.val 1 + 255 * later

theorem allowance_le {stage stage' : Nat} (earlier : stage' ≤ stage) (slice : U8) :
    allowance stage' slice ≤ allowance stage slice := by
  cases stage' with
  | zero => simp [allowance]
  | succ later =>
      cases stage with
      | zero => omega
      | succ later' =>
          simp only [allowance]
          omega

/-- The next stage has a slice of its own. -/
theorem allowance_lt {stage stage' : Nat} (earlier : stage' < stage) (slice slice' : U8) :
    allowance stage' slice' < allowance stage slice := by
  have bound := slice'.isLt
  cases stage with
  | zero => omega
  | succ later =>
      cases stage' with
      | zero =>
          simp only [allowance]
          omega
      | succ later' =>
          simp only [allowance]
          omega

/-- A tick counted against the slice. -/
theorem allowance_tick {stage : Nat} {left slice : U8} (remains : 0 < left.val)
    (counted : left.val + 1 = slice.val) (some_stage : 0 < stage) :
    allowance stage left + 1 ≤ allowance stage slice := by
  cases stage with
  | zero => omega
  | succ later =>
      simp only [allowance]
      omega

/-- Requesting PendSV ends the present stage. -/
theorem stage_pended {machine next : Machine n V Link Head} {task : Fin n}
    (handler : next.handler = machine.handler) (pended : next.pendsv = true)
    (unpended : machine.pendsv = false) (some_stage : 0 < machine.stage task) :
    next.stage task < machine.stage task := by
  unfold stage at *
  rw [handler]
  cases isHandler : machine.handler with
  | inactive => cases (machine.thread task).trig <;> simp [pended, unpended]
  | entered => simp [pended, unpended]
  | _ => simp [isHandler] at some_stage

end Machine

namespace SpecMachine

open Rotation

variable {n : Nat} {V : Type} {config : Config n} {machine next : SpecMachine n V}
  {task peer : Fin n} {count : Nat}

/-- The search behind `last` has `peer` before it and has found only tasks it met on the way,
or it has passed `peer` and found a task at least as urgent. -/
def Closing (config : Config n) (peer : Fin n) (machine : SpecMachine n V) (last : Fin n)
    (best : TcbPtr n) : Prop :=
  (∃ seen, sweep config.order last = seen ++ machine.toVisit ∧ peer ∈ machine.toVisit ∧
    ∀ chosen, best = some chosen → chosen ∈ seen) ∨
  ∃ chosen, best = some chosen ∧
    (machine.kernel.tcb chosen).priority ≤ (machine.kernel.tcb peer).priority ∧
    (chosen = peer ∨ (machine.kernel.tcb chosen).priority < (machine.kernel.tcb peer).priority ∨
      gap config.order peer chosen < gap config.order peer last)

/-- A search that has met a peer before `peer` picks it, unless a more urgent task turns up. -/
structure Sweeps (config : Config n) (peer : Fin n) (machine : SpecMachine n V) : Prop where
  loops : ∀ best, machine.handler.pass = some best → ∃ last,
    machine.kernel.current = some last ∧ Closing config peer machine last best.1
  picked : ∀ chosen, machine.handler = .selected chosen → chosen = peer ∨ ∃ last,
    machine.kernel.current = some last ∧
      gap config.order peer chosen < gap config.order peer last

theorem Sweeps.of_unsearched (loops : machine.handler.pass = none)
    (picked : ∀ chosen, machine.handler ≠ .selected chosen) : Sweeps config peer machine where
  loops best inPass := by
    rw [loops] at inPass
    cases inPass
  picked chosen selected := absurd selected (picked chosen)

/-- A visit keeps the search closing in on `peer`. -/
theorem Closing.visit {last visited : Fin n} {best : TcbPtr n × U8}
    (closing : Closing config peer machine last best.1) (scored : machine.kernel.Scored best)
    (ready : (machine.kernel.tcb peer).state.isReady = true)
    (parts : machine.toVisit = visited :: next.toVisit) (kernel : next.kernel = machine.kernel) :
    Closing config peer next last (machine.kernel.consider visited best).1 := by
  have runnable : (machine.kernel.tcb peer).state.runnable = true := by
    simp [TaskState.runnable, ready]
  unfold Closing Kernel.consider at *
  rw [kernel]
  rcases closing with ⟨seen, whole, ahead, met⟩ | ⟨chosen, isBest, ordered, close⟩
  · rw [parts] at whole ahead
    have wholeNext : sweep config.order last = (seen ++ [visited]) ++ next.toVisit := by
      rw [whole]
      simp
    rcases List.mem_cons.mp ahead with rfl | inRest
    · -- the search comes to `peer` itself
      split
      · exact .inr ⟨peer, rfl, le_rfl, .inl rfl⟩
      · rename_i passed
        obtain ⟨found, notUrgent⟩ := not_or.mp fun better => passed ⟨runnable, better⟩
        obtain ⟨chosen, isBest⟩ := Option.ne_none_iff_exists'.mp found
        rw [scored chosen isBest] at notUrgent
        refine .inr ⟨chosen, isBest, not_lt.mp notUrgent, .inr (.inr ?_)⟩
        exact gap_lt config.order_nodup whole (met chosen isBest) List.mem_cons_self
    · refine .inl ⟨seen ++ [visited], wholeNext, inRest, fun chosen isBest => ?_⟩
      split at isBest
      · obtain rfl : visited = chosen := Option.some.inj isBest
        exact List.mem_append_right _ (List.mem_singleton_self visited)
      · exact List.mem_append_left _ (met chosen isBest)
  · right
    split
    · rename_i taken
      have urgent : (machine.kernel.tcb visited).priority < (machine.kernel.tcb chosen).priority := by
        rw [← scored chosen isBest]
        exact taken.2.resolve_left (by simp [isBest])
      have below := urgent.trans_le ordered
      exact ⟨visited, rfl, below.le, .inr (.inl below)⟩
    · exact ⟨chosen, isBest, ordered, close⟩

/-- A step of PendSV keeps the search closing in on `peer`. -/
theorem Core.sweeps_switch (core : Core config machine) (scored : machine.Scored)
    (sweeps : Sweeps config peer machine)
    (ready : (machine.kernel.tcb peer).state.isReady = true)
    (unrivalled : machine.Unrivalled peer) {sp : Word}
    (switches : Machine.SwitchStep machine sp next)
    (readyNext : (next.kernel.tcb peer).state.isReady = true) : Sweeps config peer next := by
  have coreNext := core.switchStep switches
  cases inPass : machine.handler.pass with
  | some best =>
      obtain ⟨last, isLast, closing⟩ := sweeps.loops best inPass
      obtain ⟨kernel, _, ⟨visited, parts, considered⟩ | ⟨same, kept⟩ |
        ⟨chosen, done, found, selected⟩⟩ := core.search_moves switches inPass
      · have closingNext := closing.visit (Machine.scored_iff.mp scored best inPass) ready parts kernel
        constructor
        · intro best' inPassNext
          obtain rfl := Option.some.inj (considered.symm.trans inPassNext)
          exact ⟨last, by rwa [kernel], closingNext⟩
        · intro chosen selected
          rw [selected] at considered
          cases considered
      · constructor
        · intro best' inPassNext
          obtain rfl := Option.some.inj (kept.symm.trans inPassNext)
          refine ⟨last, by rwa [kernel], ?_⟩
          unfold Closing
          rw [kernel, same]
          exact closing
        · intro chosen selected
          rw [selected] at kept
          cases kept
      · constructor
        · intro best' inPassNext
          rw [selected] at inPassNext
          cases inPassNext
        · intro picked isPicked
          obtain rfl : chosen = picked := by
            rw [selected] at isPicked
            exact Handler.selected.inj isPicked
          rw [kernel]
          rcases closing with ⟨seen, _, ahead, _⟩ | ⟨chosen', isBest, _, close⟩
          · rw [done] at ahead
            cases ahead
          · obtain rfl : chosen = chosen' := Option.some.inj (found.symm.trans isBest)
            have readyChosen : (machine.kernel.tcb chosen).state.isReady = true := by
              rw [← kernel]
              exact coreNext.picked_ready (.inl selected)
            have leads := unrivalled (by simp [inPass]) chosen readyChosen
            rcases close with isPeer | urgent | near
            · exact .inl isPeer
            · exact absurd urgent (not_lt.mpr leads)
            · exact .inr ⟨last, isLast, near⟩
  | none =>
      cases switches with
      | save entered saved =>
          obtain ⟨last, isLast⟩ := Option.ne_none_iff_exists'.mp fun noCurrent => by
            cases (coreNext.fresh noCurrent).1
          have whole := coreNext.search_begins isLast rfl
          have listed : peer ∈ config.order := coreNext.listed readyNext
          constructor
          · intro best inPassNext
            obtain rfl : (none, 255) = best := Option.some.inj inPassNext
            refine ⟨last, isLast, .inl ⟨[], ?_, ?_, by simp⟩⟩
            · rw [whole, List.nil_append]
            · rw [whole, mem_sweep]
              exact listed
          · intro chosen selected
            cases selected
      | enter inactive pending => exact .of_unsearched rfl (by simp)
      | switch selected => exact .of_unsearched rfl (by simp)
      | finish switched marked => exact .of_unsearched rfl (by simp)
      | visit1 searching => simp [searching, Handler.pass] at inPass
      | wrap searching => simp [searching, Handler.pass] at inPass
      | visit2 searching notStart => simp [searching, Handler.pass] at inPass
      | select searching atEnd found => simp [searching, Handler.pass] at inPass

/-- So does every other step. -/
theorem Core.sweeps_step (core : Core config machine) (scored : machine.Scored)
    (sweeps : Sweeps config peer machine)
    (ready : (machine.kernel.tcb peer).state.isReady = true)
    (unrivalled : machine.Unrivalled peer) {action : Action V}
    (step : Machine.Step config.idle machine action next)
    (readyNext : (next.kernel.tcb peer).state.isReady = true) : Sweeps config peer next := by
  by_cases isSwitch : ∃ sp, action = .pendsv sp
  · obtain ⟨sp, rfl⟩ := isSwitch
    cases step with
    | pendsv switches => exact core.sweeps_switch scored sweeps ready unrivalled switches readyNext
  have other : ∀ sp, action ≠ .pendsv sp := fun sp same => isSwitch ⟨sp, same⟩
  by_cases inactive : machine.handler = .inactive
  · have stays := (step.handler_eq other).trans inactive
    exact .of_unsearched (by rw [stays]; rfl) (by simp [stays])
  obtain ⟨handler, current, visits, priority⟩ := core.search_waits step other inactive
  constructor
  · rw [handler, current]
    intro best inPass
    obtain ⟨last, isLast, closing⟩ := sweeps.loops best inPass
    refine ⟨last, isLast, ?_⟩
    unfold Closing at closing ⊢
    simp only [visits, priority]
    exact closing
  · rw [handler, current]
    exact sweeps.picked

/-- Where `task` stands after `count` turns: it runs and has the rest of its time, or the
sweep has passed it on the way to `peer`, or `peer` is dispatched. -/
inductive Served (config : Config n) (task peer : Fin n) (count : Nat)
    (machine : SpecMachine n V) : Prop
  | running {slice} (isCurrent : machine.kernel.current = some task)
      (runs : (machine.kernel.tcb task).state = .running slice)
      (ordered : (machine.kernel.tcb peer).priority ≤ (machine.kernel.tcb task).priority)
      (within : count + Machine.allowance (machine.stage task) slice ≤ 765)
  | passed {last} (isCurrent : machine.kernel.current = some last)
      (near : gap config.order peer last ≤ gap config.order peer task)
      (stopped : last = task → (machine.kernel.tcb task).state.isRunning = false ∧
        machine.handler ≠ .switched task)
      (within : count ≤ 765)
  | dispatched (switched : machine.handler = .switched peer) (within : count ≤ 765)

theorem Served.within (served : Served config task peer count machine) : count ≤ 765 := by
  cases served with
  | running isCurrent runs ordered within => omega
  | passed isCurrent near stopped within => exact within
  | dispatched switched within => exact within

/-- A task that runs has stages left in which PendSV does not search. -/
theorem Core.stage_pos (core : Core config machine)
    (runs : (machine.kernel.tcb task).state.isRunning = true) (unpended : machine.pendsv = false) :
    0 < machine.stage task := by
  unfold Machine.stage
  cases handler : machine.handler with
  | inactive => cases (machine.thread task).trig <;> simp [unpended]
  | entered => simp [unpended]
  | _ =>
      have stopped := core.stopped_of_phase (by simp [handler]) (by simp [handler]) task
      rw [stopped] at runs
      cases runs

/-- Steps that leave the running task, `CURRENT`, the handler and the priorities alone. -/
theorem Served.of_same (served : Served config task peer count machine)
    (current : next.kernel.current = machine.kernel.current)
    (handler : next.handler = machine.handler)
    (stage : next.stage task ≤ machine.stage task)
    (state : ∀ slice, (next.kernel.tcb task).state = .running slice ↔
      (machine.kernel.tcb task).state = .running slice)
    (priority : ∀ other, (next.kernel.tcb other).priority = (machine.kernel.tcb other).priority) :
    Served config task peer count next := by
  cases served with
  | running isCurrent runs ordered within =>
      rename_i slice
      refine .running (current.trans isCurrent) ((state slice).mpr runs) ?_ ?_
      · rwa [priority, priority]
      · have shrinks := Machine.allowance_le stage slice
        omega
  | passed isCurrent near stopped within =>
      refine .passed (current.trans isCurrent) near (fun same => ?_) within
      obtain ⟨halted, away⟩ := stopped same
      refine ⟨?_, by rwa [handler]⟩
      rw [Bool.eq_false_iff, Ne, TaskState.isRunning_iff] at halted ⊢
      rintro ⟨slice, runs⟩
      exact halted ⟨slice, (state slice).mp runs⟩
  | dispatched switched within => exact .dispatched (handler.trans switched) within

/-- A tick uses up the slice of the running task, and PendSV is requested at its end. -/
theorem Core.served_tick (core : Core config machine)
    (served : Served config task peer count machine)
    (ready : (machine.kernel.tcb peer).state.isReady = true)
    (unpended : machine.pendsv = false) {kernel : Spec n V} {preempt : Bool}
    (returned : machine.kernel.tick = .ok (kernel, preempt))
    (isNext : next = { machine with kernel, pendsv := machine.pendsv || preempt }) :
    Served config task peer (count + machine.turn task peer (.tick : Action V)) next := by
  have handler : next.handler = machine.handler := by rw [isNext]
  have sameKernel : next.kernel = kernel := by rw [isNext]
  have ticked := (Spec.tick_spec core.chain).of_ok returned
  have current : next.kernel.current = machine.kernel.current := by
    rw [sameKernel]
    exact ticked.current
  cases served with
  | running isCurrent runs ordered within =>
      rename_i slice
      have isRunning : (machine.kernel.tcb task).state.isRunning = true := by rw [runs]; rfl
      have different : peer ≠ task := by
        rintro rfl
        rw [runs] at ready
        cases ready
      have listed : peer ∈ config.order := core.listed ready
      have some_stage := core.stage_pos isRunning unpended
      have turns : machine.turn task peer (.tick : Action V) ≤ 1 := by
        simp only [Machine.turn]
        split <;> omega
      obtain ⟨slice', runs'⟩ := TaskState.isRunning_iff.mp (ticked.running task isCurrent isRunning)
      have orderedNext : (next.kernel.tcb peer).priority ≤ (next.kernel.tcb task).priority := by
        rw [sameKernel]
        exact ((ticked.moved.fixed peer).1.trans_le ordered).trans_eq (ticked.moved.fixed task).1.symm
      rcases Spec.tick_turn core.chain isCurrent runs listed different ready ordered returned with
        rfl | ⟨left, runsLeft, remains, counted⟩
      · have pended : next.pendsv = true := by simp [isNext]
        have later := Machine.stage_pended handler pended unpended some_stage
        have fresh := Machine.allowance_lt later slice slice'
        have runsNext : (next.kernel.tcb task).state = .running slice' := by
          rw [sameKernel]
          exact runs'
        exact .running (current.trans isCurrent) runsNext orderedNext (by omega)
      · have earlier : next.stage task ≤ machine.stage task :=
          Machine.stage_le handler (by simp [unpended]) (by simp [isNext])
        have kept := Machine.allowance_le earlier left
        have less := Machine.allowance_tick remains counted some_stage
        have runsNext : (next.kernel.tcb task).state = .running left := by
          rw [sameKernel]
          exact runsLeft
        exact .running (current.trans isCurrent) runsNext orderedNext (by omega)
  | passed isCurrent near stopped within =>
      rename_i last
      have halted : ∀ current, machine.kernel.current = some current → current = task →
          (machine.kernel.tcb current).state.isRunning = false := by
        rintro current isNow rfl
        exact (stopped (Option.some.inj (isCurrent.symm.trans isNow))).1
      have turns : machine.turn task peer (.tick : Action V) = 0 := by
        simp only [Machine.turn]
        rw [if_neg]
        rintro ⟨isNow, runs, _⟩
        rw [halted task isNow rfl] at runs
        cases runs
      rw [turns]
      refine .passed (current.trans isCurrent) near (fun same => ⟨?_, ?_⟩) within
      · obtain rfl := same
        have paused := ticked.paused fun now isNow =>
          halted now isNow (Option.some.inj (isNow.symm.trans isCurrent))
        rw [sameKernel, show kernel.tcb = _ from paused.1]
        exact (stopped rfl).1
      · rw [handler]
        exact (stopped same).2
  | dispatched switched within =>
      have phase := core.phase
      rw [switched] at phase
      have turns : machine.turn task peer (.tick : Action V) = 0 := by
        simp only [Machine.turn]
        rw [if_neg]
        rintro ⟨_, runs, _⟩
        rw [phase.1 task] at runs
        cases runs
      rw [turns]
      exact .dispatched (handler.trans switched) within

/-- A section of the running task blocks it, or leaves it its slice, or is followed by a
trigger. -/
theorem Core.served_call (core : Core config machine) (guarded : ∀ id, Guarded machine id)
    (owners : Spec.OwnersRaised machine.kernel) (served : Served config task peer count machine)
    {call : Call V} {caller : Fin n} {kernel : Spec n V} {outcome : Outcome}
    (isTask : machine.threadTask = some caller) (triggered : (machine.thread caller).trig = false)
    (may : (machine.thread caller).mayCall call = true)
    (returned : call.run (some caller) machine.kernel = .ok (kernel, outcome))
    (isNext : next = { machine.setThread caller ((machine.thread caller).after call outcome) with
      kernel, pendsv := outcome.inside })
    (ready : (machine.kernel.tcb peer).state.isReady = true) :
    Served config task peer count next := by
  obtain ⟨inactive, unpended, isCaller⟩ := Machine.threadTask_eq_some.mp isTask
  have callerRuns := core.task_running isTask triggered
  have contract := core.call_contract isTask triggered returned
  obtain ⟨flag, effect, _, reports⟩ := contract.effect
  have sameKernel : next.kernel = kernel := by rw [isNext]
  have current : next.kernel.current = machine.kernel.current := by
    rw [sameKernel]
    exact effect.current
  have handler : next.handler = .inactive := by
    rw [isNext]
    exact inactive
  cases served with
  | running isCurrent runs ordered within =>
      rename_i slice
      obtain rfl : caller = task := Option.some.inj (isCaller.symm.trans isCurrent)
      have first : machine.stage caller = 3 := by
        simp [Machine.stage, inactive, unpended, triggered]
      have later : next.stage caller ≤ 3 := Nat.le_of_lt_succ (next.stage_lt_four caller)
      have different : peer ≠ caller := by
        rintro rfl
        rw [runs] at ready
        cases ready
      obtain ⟨own, others⟩ :=
        core.call_priority owners guarded isCaller callerRuns may returned contract
      have orderedNext : (next.kernel.tcb peer).priority ≤ (next.kernel.tcb caller).priority := by
        rw [sameKernel]
        exact (others peer different).trans (ordered.trans own)
      have stops : (next.kernel.tcb caller).state.isRunning = false →
          Served config caller peer count next := fun halted =>
        .passed (current.trans isCaller) le_rfl (fun _ => ⟨halted, by simp [handler]⟩) (by omega)
      rw [first] at within
      rcases effect.own caller rfl with same | ⟨pended, parked⟩
      · have kept := Machine.allowance_le later slice
        refine .running (current.trans isCaller) ?_ orderedNext
          (Nat.le_trans (Nat.add_le_add_left kept count) within)
        rw [sameKernel, same]
        exact runs
      · rcases parked with runsOn | ⟨_, _, blocked⟩ | ⟨_, asleep⟩ | dead
        · -- a task that stays running triggers PendSV next
          obtain ⟨slice', runs'⟩ := TaskState.isRunning_iff.mp runsOn
          have notReturned : call.returnsFlag = false := by
            cases call <;> first | rfl | simp [Thread.mayCall] at may
          have pend : outcome.pend = true := (reports notReturned).trans pended
          have second : next.stage caller < 3 := by
            have triggers : (next.thread caller).trig = true := by
              simp [isNext, Machine.setThread, Thread.after, pend]
            simp only [Machine.stage, handler, triggers]
            split <;> simp
          have fresh := Machine.allowance_lt second slice slice'
          have runsNext : (next.kernel.tcb caller).state = .running slice' := by
            rw [sameKernel]
            exact runs'
          exact .running (current.trans isCaller) runsNext orderedNext (by omega)
        · exact stops (by rw [sameKernel, blocked]; rfl)
        · exact stops (by rw [sameKernel, asleep]; rfl)
        · exact stops (by rw [sameKernel, dead]; rfl)
  | passed isCurrent near stopped within =>
      rename_i last
      obtain rfl : caller = last := Option.some.inj (isCaller.symm.trans isCurrent)
      refine .passed (current.trans isCaller) near (fun same => ?_) within
      obtain rfl := same
      rw [(stopped rfl).1] at callerRuns
      cases callerRuns
  | dispatched switched within => cases inactive.symm.trans switched

/-- No task runs while `find_next` searches. -/
theorem Core.served_pass (core : Core config machine)
    (served : Served config task peer count machine) {sp : Word} {best : TcbPtr n × U8}
    (switches : Machine.SwitchStep machine sp next) (inPass : machine.handler.pass = some best) :
    Served config task peer count next := by
  obtain ⟨kernel, _, moved⟩ := core.search_moves switches inPass
  have searching : machine.handler ≠ .inactive ∧ machine.handler ≠ .entered ∧
      ∀ chosen, machine.handler ≠ .switched chosen := by
    refine ⟨?_, ?_, fun chosen => ?_⟩ <;> intro outside <;> rw [outside] at inPass <;> cases inPass
  have unswitched : next.handler ≠ .switched task := by
    intro switched
    rcases moved with ⟨_, _, considered⟩ | ⟨_, kept⟩ | ⟨chosen, _, _, selected⟩
    · rw [switched] at considered
      cases considered
    · rw [switched] at kept
      cases kept
    · cases switched.symm.trans selected
  cases served with
  | running isCurrent runs ordered within =>
      have stopped := core.stopped_of_phase searching.1 searching.2.1 task
      rw [runs] at stopped
      cases stopped
  | passed isCurrent near stopped within =>
      refine .passed (by rwa [kernel]) near (fun same => ⟨?_, unswitched⟩) within
      rw [kernel]
      exact (stopped same).1
  | dispatched switched within => exact absurd switched (searching.2.2 peer)

/-- PendSV takes the processor from the running task, and dispatches what the sweep has
picked. -/
theorem Core.served_switch (core : Core config machine)
    (served : Served config task peer count machine) (sweeps : Sweeps config peer machine)
    {sp : Word} (switches : Machine.SwitchStep machine sp next)
    (readyNext : (next.kernel.tcb peer).state.isReady = true) :
    Served config task peer count next := by
  have within := served.within
  cases inPass : machine.handler.pass with
  | some best => exact core.served_pass served switches inPass
  | none =>
      cases switches with
      | enter inactive pending =>
          cases served with
          | running isCurrent runs ordered within =>
              refine .running isCurrent runs ordered ?_
              simpa [Machine.stage, inactive, pending] using within
          | passed isCurrent near stopped within =>
              exact .passed isCurrent near (fun same => ⟨(stopped same).1, by simp⟩) within
          | dispatched switched within => cases inactive.symm.trans switched
      | save entered saved =>
          have save := (Spec.saveCurrent_spec machine.kernel sp).of_ok saved
          have current := congrArg Statics.current save.statics
          cases served with
          | running isCurrent runs ordered within =>
              exact .passed (current.trans isCurrent) le_rfl
                (fun _ => ⟨save.stopped task isCurrent, by simp⟩) (by omega)
          | passed isCurrent near stopped within =>
              refine .passed (current.trans isCurrent) near (fun same => ⟨?_, by simp⟩) within
              exact save.stopped task (by rw [isCurrent, same])
          | dispatched switched within => cases entered.symm.trans switched
      | visit1 searching => simp [searching, Handler.pass] at inPass
      | wrap searching => simp [searching, Handler.pass] at inPass
      | visit2 searching notStart => simp [searching, Handler.pass] at inPass
      | select searching atEnd found => simp [searching, Handler.pass] at inPass
      | switch selected =>
          rename_i chosen
          cases served with
          | running isCurrent runs ordered within =>
              have stopped := core.stopped_of_phase (by simp [selected]) (by simp [selected]) task
              rw [runs] at stopped
              cases stopped
          | passed isCurrent near stopped within =>
              rename_i last
              rcases sweeps.picked chosen selected with rfl | ⟨last', isLast, closer⟩
              · exact .dispatched rfl within
              · obtain rfl : last = last' := Option.some.inj (isCurrent.symm.trans isLast)
                refine .passed rfl (closer.le.trans near) (fun same => ?_) within
                -- the sweep has passed `task`, so it does not pick it
                obtain rfl := same
                omega
          | dispatched switched within => cases selected.symm.trans switched
      | finish switched marked =>
          rename_i chosen kernel
          have phase := core.phase
          rw [switched] at phase
          obtain ⟨halted, readyChosen, isChosen⟩ := phase
          obtain ⟨_, statics, runs, _⟩ := (Spec.markRunning_spec readyChosen).of_ok marked
          have current := congrArg Statics.current statics
          cases served with
          | running isCurrent runs ordered within =>
              have stopped := halted task
              rw [runs] at stopped
              cases stopped
          | passed isCurrent near stopped within =>
              rename_i last
              obtain rfl : chosen = last := Option.some.inj (isChosen.symm.trans isCurrent)
              refine .passed (current.trans isCurrent) near (fun same => ?_) within
              obtain rfl := same
              exact absurd switched (stopped rfl).2
          | dispatched isPeer within =>
              obtain rfl : chosen = peer := Handler.switched.inj (switched.symm.trans isPeer)
              obtain ⟨slice, running⟩ := TaskState.isRunning_iff.mp runs
              rw [show ({ machine with kernel, handler := .inactive } : SpecMachine n V).kernel = kernel
                from rfl, running] at readyNext
              cases readyNext

/-- Steps that only change the record of the running task. -/
theorem Served.of_thread (served : Served config task peer count machine)
    (tcb : next.kernel.tcb = machine.kernel.tcb)
    (current : next.kernel.current = machine.kernel.current)
    (handler : next.handler = machine.handler)
    (pendsv : machine.pendsv = true → next.pendsv = true)
    (trig : next.pendsv = false → ∀ other, (machine.thread other).trig = true →
      (next.thread other).trig = true) : Served config task peer count next :=
  served.of_same current handler (Machine.stage_le handler pendsv fun unpended => trig unpended task)
    (fun slice => by rw [tcb]) (fun other => by rw [tcb])

/-- A running task keeps its trigger flag when it changes something else of its record. -/
theorem trig_of_setThread {thread : Thread} {running : Fin n}
    (same : thread.trig = (machine.thread running).trig) (other : Fin n)
    (triggers : (machine.thread other).trig = true) :
    ((machine.setThread running thread).thread other).trig = true :=
  Machine.forall_setThread (P := fun other thread =>
    (machine.thread other).trig = true → thread.trig = true) same.trans (fun _ _ => id) other triggers

/-- Every step while `peer` waits counts its turn. -/
theorem Core.served_step (core : Core config machine) (guarded : ∀ id, Guarded machine id)
    (owners : Spec.OwnersRaised machine.kernel) (served : Served config task peer count machine)
    (sweeps : Sweeps config peer machine)
    (ready : (machine.kernel.tcb peer).state.isReady = true) {action : Action V}
    (timely : action = .tick → machine.pendsv = false)
    (step : Machine.Step config.idle machine action next)
    (readyNext : (next.kernel.tcb peer).state.isReady = true) :
    Served config task peer (count + machine.turn task peer action) next := by
  cases step with
  | launch fresh returned =>
      obtain ⟨inactive, _⟩ := core.fresh fresh
      cases served with
      | running isCurrent runs ordered within => cases fresh.symm.trans isCurrent
      | passed isCurrent near stopped within => cases fresh.symm.trans isCurrent
      | dispatched switched within => cases inactive.symm.trans switched
  | tick returned => exact core.served_tick served ready (timely rfl) returned rfl
  | pendsv switches => exact core.served_switch served sweeps switches readyNext
  | call isTask notIdle triggered may returned =>
      exact core.served_call guarded owners served isTask triggered may returned rfl ready
  | isr safe returned slots =>
      rename_i call kernel outcome isrSlots
      obtain ⟨flag, effect, _⟩ := (core.isr_contract safe returned).effect
      have outside : ∀ id, .mutex id ∉ call.uses := fun id => Call.not_uses_mutex_of_isrSafe safe
      refine served.of_same effect.current rfl ?_ (fun slice => ?_) (effect.priority outside)
      · exact Machine.stage_le rfl (by simp +contextual) (fun _ triggers => triggers)
      · rcases effect.state task (by simp) with same | ⟨⟨list, _, blocked⟩, slice', woken⟩
        · rw [same]
        · rw [blocked, woken]
          simp
  | isrRet assigned =>
      exact served.of_thread rfl rfl rfl (fun pends => pends) (fun _ _ triggers => triggers)
  | trigger isTask untriggered =>
      exact served.of_thread rfl rfl rfl (fun _ => rfl) (by simp)
  | ret isTask triggered returns =>
      cases returns <;>
        exact served.of_thread rfl rfl rfl (fun pends => pends) (fun _ => trig_of_setThread rfl)
  | dropBox isTask notIdle triggered user live returned =>
      obtain ⟨_, _, rfl⟩ := Pool.destroy_ok returned
      exact served.of_thread rfl rfl rfl (fun pends => pends) fun _ => trig_of_setThread rfl
  | writeBox isTask notIdle triggered user live returned =>
      obtain ⟨_, _, rfl⟩ := Pool.write_ok returned
      exact served.of_thread rfl rfl rfl (fun pends => pends) (fun _ _ triggers => triggers)
  | forgetGuard isTask notIdle triggered user held =>
      exact served.of_thread rfl rfl rfl (fun pends => pends) fun _ => trig_of_setThread rfl

/-- The first turn that counts finds `task` with all its stages before it. -/
theorem Core.served_first (core : Core config machine)
    (runs : (machine.kernel.tcb task).state.isRunning = true)
    (ordered : (machine.kernel.tcb peer).priority ≤ (machine.kernel.tcb task).priority) :
    Served config task peer 0 machine ∧ Sweeps config peer machine := by
  obtain ⟨slice, running⟩ := TaskState.isRunning_iff.mp runs
  constructor
  · refine .running (core.running task runs) running ordered ?_
    have short := slice.isLt
    have whole : Machine.allowance 3 slice ≤ 765 := by
      simp only [Machine.allowance]
      omega
    have bounded := Machine.allowance_le (Nat.le_of_lt_succ (machine.stage_lt_four task)) slice
    omega
  · have quiet : machine.handler = .inactive ∨ machine.handler = .entered := by
      by_contra busy
      obtain ⟨active, saved⟩ := not_or.mp busy
      rw [core.stopped_of_phase active saved task] at runs
      cases runs
    rcases quiet with inactive | entered
    · exact .of_unsearched (by rw [inactive]; rfl) (by simp [inactive])
    · exact .of_unsearched (by rw [entered]; rfl) (by simp [entered])

end SpecMachine

namespace RepMachine

variable {n : Nat} {V : Type} {config : Config n} {machine : RtosMachine n V}
  {spec : SpecMachine n V} {task peer : Fin n}

theorem turn_eq (rep : RepMachine machine spec) (action : Action V) :
    machine.turn task peer action = spec.turn task peer action := by
  cases action with
  | tick =>
      simp only [Machine.turn, rep.kernel.statics, rep.kernel.isRunning, rep.kernel.priority]
  | _ => rfl

theorem unrivalled_iff (rep : RepMachine machine spec) :
    machine.Unrivalled peer ↔ spec.Unrivalled peer := by
  simp only [Machine.Unrivalled, rep.handler, rep.kernel.isReady, rep.kernel.priority]

/-- The stretches of runs in which `peer` is ready all the time and is not dispatched, and
every requested PendSV is taken before the next tick. -/
def waiting (config : Config n) (V : Type) (peer : Fin n) :
    TransitionSystem (RtosMachine n V) (Action V) where
  initial machine := (system config V).Reachable machine ∧
    (machine.kernel.tcb peer).state.isReady = true
  step machine action next := (system config V).step machine action next ∧
    (action = .tick → machine.pendsv = false) ∧ (next.kernel.tcb peer).state.isReady = true

/-- Count the calls of `tick` that find `task` running at the priority of `peer`. -/
def countTurns (task peer : Fin n) (machine : RtosMachine n V) (action : Action V)
    (_ : RtosMachine n V) (count : Nat) : Nat :=
  count + machine.turn task peer action

/-- A step other than a tick after which `peer` is ready. -/
def leavesReady (idle peer : Fin n) (machine : RtosMachine n V) : Action V → Bool
  | .tick => false
  | action =>
    match machine.perform idle action with
    | some (.ok next) => (next.kernel.tcb peer).state.isReady
    | _ => false

/-- A stretch in which `peer` waits goes on while `peer` is ready, and only ticks count. -/
theorem waiting_of_performWithin {next : RtosMachine n V} {count : Nat} {actions : List (Action V)}
    (reachable : ((waiting config V peer).observed 0 (countTurns task peer)).Reachable
      (machine, count))
    (performed : Machine.performWithin (leavesReady config.idle peer) config.idle machine actions =
      some (.ok next)) :
    ((waiting config V peer).observed 0 (countTurns task peer)).Reachable (next, count) := by
  refine Machine.of_performWithin (fun machine =>
    ((waiting config V peer).observed 0 (countTurns task peer)).Reachable (machine, count))
    (fun state action after reached allowed step => ?_) reachable performed
  cases action with
  | tick => cases allowed
  | _ =>
      simp only [leavesReady, step] at allowed
      exact .step reached ⟨⟨step, by simp, allowed⟩, rfl⟩

end RepMachine

namespace Config

/-- Task 3 above tasks 1 and 2 of one priority, all with slices of one tick. In `ALL_TASKS`
task 2 follows task 3 and task 1 comes last. -/
def duel : Config 4 :=
  { small 20 20 10 with
    tokens :=
      [{ tcb := 1, stackPtr := 0, stackLen := 64, priority := 20, timeSlice := 1 },
       { tcb := 2, stackPtr := 0, stackLen := 64, priority := 20, timeSlice := 1 },
       { tcb := 3, stackPtr := 0, stackLen := 64, priority := 10, timeSlice := 1 }]
    distinct := by
      show ([0, 1, 2, 3] : List (Fin 4)).Nodup
      decide }

end Config

namespace Duel

/-- A TCB of `Config.duel`, whose stack pointer never moves. -/
def tcb (priority : U8) (state : TaskState (TcbPtr 4)) (next : TcbPtr 4) : Tcb 4 (TcbPtr 4) where
  sp := 188
  state := state
  priority := priority
  basePriority := priority
  timeSlice := 1
  stackBase := 0
  allNext := next
  waitPtr := .word 0

/-- The TCBs, with tasks 2 and 3 in the given states. -/
def tcbs (second third : TaskState (TcbPtr 4)) : Fin 4 → Tcb 4 (TcbPtr 4) :=
  Function.update (Function.update (Function.update (Function.update (fun _ => .zeroed)
    1 (tcb 20 (.ready 1) none)) 2 (tcb 20 second (some 1))) 3 (tcb 10 third (some 2)))
    0 (tcb 255 (.ready 1) (some 3))

theorem tcbs_second (second second' third : TaskState (TcbPtr 4)) :
    Function.update (tcbs second third) 2 (tcb 20 second' (some 1)) = tcbs second' third := by
  ext task : 1
  match task with
  | 0 => rfl
  | 1 => rfl
  | 2 => rfl
  | 3 => rfl

theorem tcbs_third (second third third' : TaskState (TcbPtr 4)) :
    Function.update (tcbs second third) 3 (tcb 10 third' (some 2)) = tcbs second third' := by
  ext task : 1
  match task with
  | 0 => rfl
  | 1 => rfl
  | 2 => rfl
  | 3 => rfl

/-- The list heads: only semaphore 0 is ever waited for. -/
def heads (head : TcbPtr 4) : WaitList → TcbPtr 4 :=
  Function.update (fun _ => none) (.semaphore 0) head

theorem heads_update (head head' : TcbPtr 4) :
    Function.update (heads head) (.semaphore 0) head' = heads head' :=
  Function.update_idem ..

/-- The program points: only task 3 ever makes a call. -/
def threads (thread : Thread) : Fin 4 → Thread := Function.update (fun _ => {}) 3 thread

theorem threads_update (thread thread' : Thread) :
    Function.update (threads thread) 3 thread' = threads thread' :=
  Function.update_idem ..

/-- A state between two switches. -/
def state (time : U64) (current : TcbPtr 4) (second third : TaskState (TcbPtr 4)) (head : TcbPtr 4)
    (pendsv : Bool) (thread : Thread) : RtosMachine 4 Unit where
  kernel := {
    current
    allTasks := some 0
    tickCount := time
    semaphore _ := ⟨0, 1⟩
    owner _ := none
    bits _ := 0
    once _ := .unstarted
    channel _ := Channel.new 4 Unit 1
    pool _ := Pool.new Unit 1
    frame _ := none
    tcb := tcbs second third
    waitHead := heads head }
  pendsv
  handler := .inactive
  thread := threads thread
  boxes _ := []
  isrSlots _ := []

/-- Task 2 runs, task 1 is ready and task 3 waits for the semaphore. -/
def turn (time : U64) : RtosMachine 4 Unit :=
  state time (some 2) (.running 1) (.blocked none) (some 3) false { pc := .takeRet 0 }

/-- Every action leaves task 1 ready. -/
abbrev performs (machine : RtosMachine 4 Unit) (actions : List (Action Unit)) :
    Option (Exec (RtosMachine 4 Unit)) :=
  Machine.performWithin (RepMachine.leavesReady 0 1) 0 machine actions

theorem boots : ∃ kernel, Config.duel.boot Unit (TcbPtr 4) (TcbPtr 4) = .ok kernel ∧
    Config.start Unit (TcbPtr 4) (TcbPtr 4) kernel =
      state 0 none (.ready 1) (.ready 1) none false {} := by
  refine ⟨_, rfl, ?_⟩
  simp only [state, Config.start, heads, threads, Function.update_eq_self]
  rfl

theorem launches : performs (state 0 none (.ready 1) (.ready 1) none false {}) [.launch] =
    some (.ok (state 0 (some 3) (.ready 1) (.running 1) none false {})) := by
  conv_rhs => rw [state, ← tcbs_third (.ready 1) (.ready 1)]
  rfl

/-- The only tick of the turn: the slice of task 2 is used up. -/
theorem expires (time : U64) : (turn time).perform 0 .tick =
    some (.ok { turn (time + 1) with pendsv := true }) := by
  conv_rhs => rw [turn, state, ← tcbs_second (.running 1)]
  rfl

/-- Before PendSV is taken, an interrupt handler wakes task 3, which is picked. -/
theorem overtakes (time : U64) : performs { turn time with pendsv := true }
    ([.isr (.give 0)] ++ List.replicate 10 (.pendsv 188) ++ [.ret]) =
      some (.ok (state time (some 3) (.ready 1) (.running 1) none false {})) := by
  conv_rhs => rw [state, ← tcbs_third (.ready 1) (.ready 1), ← tcbs_second (.running 1),
    ← tcbs_second (.running 1) (.running 1), ← tcbs_third (.running 1) (.blocked none),
    ← heads_update (some 3), ← threads_update { pc := .takeRet 0 }]
  rfl

/-- Task 3 waits for the semaphore again, and the sweep behind it comes to task 2 first. -/
theorem returns (time : U64) :
    performs (state time (some 3) (.ready 1) (.running 1) none false {})
      ([.call (.take 0), .trigger] ++ List.replicate 10 (.pendsv 188)) = some (.ok (turn time)) := by
  conv_rhs => rw [turn, state, ← tcbs_second (.ready 1), ← tcbs_third (.ready 1) (.blocked none),
    ← tcbs_third (.ready 1) (.running 1), ← heads_update none,
    ← threads_update { pc := .takeRet 0, trig := true }, ← threads_update {}]
  rfl

/-- The first turn, after task 3 has run and waits. -/
theorem opens : (RepMachine.system Config.duel Unit).Reachable (turn 0) := by
  obtain ⟨kernel, boot, start⟩ := boots
  have booted : (RepMachine.system Config.duel Unit).Reachable
      (state 0 none (.ready 1) (.ready 1) none false {}) :=
    .initial ⟨kernel, boot, start.symm⟩
  have follow : ∀ {machine next actions}, (RepMachine.system Config.duel Unit).Reachable machine →
      performs machine actions = some (.ok next) →
      (RepMachine.system Config.duel Unit).Reachable next := fun reached performed =>
    Machine.of_performWithin _ (fun _ _ _ prior _ step => .step prior step) reached performed
  exact follow (follow booted launches) (returns 0)

end Duel

namespace RepMachine

variable {n : Nat} {V : Type} {config : Config n} {task peer : Fin n}

/-- While a task waits and `find_next` comes upon no more urgent one, `tick` is called a
bounded number of times with any other task of its priority running. -/
theorem round_robin_bounded (config : Config n) (V : Type) :
    ∃ bound, ∀ (task peer : Fin n) (pair : RtosMachine n V × Nat),
      (((waiting config V peer).restrict fun machine _ => machine.Unrivalled peer).observed 0
        (countTurns task peer)).Reachable pair → pair.2 ≤ bound := by
  refine ⟨765, fun task peer pair reachable => ?_⟩
  -- the stretch is matched by an abstract one in which every turn is accounted for
  have matched : ∃ spec, (SpecMachine.system config V).Reachable spec ∧ RepMachine pair.1 spec ∧
      (spec.kernel.tcb peer).state.isReady = true ∧ (pair.2 = 0 ∨
        SpecMachine.Served config task peer pair.2 spec ∧ SpecMachine.Sweeps config peer spec) := by
    refine reachable.observed_invariant (fun machine count => ∃ spec,
      (SpecMachine.system config V).Reachable spec ∧ RepMachine machine spec ∧
      (spec.kernel.tcb peer).state.isReady = true ∧ (count = 0 ∨
        SpecMachine.Served config task peer count spec ∧ SpecMachine.Sweeps config peer spec)) ?_ ?_
    · rintro state ⟨reached, ready⟩
      obtain ⟨spec, reach, rep⟩ := exists_spec reached
      exact ⟨spec, reach, rep, by rwa [← rep.kernel.isReady], .inl rfl⟩
    · rintro state action after count _ ⟨spec, reach, rep, ready, counted⟩
        ⟨unrivalled, performed, timely, readyAfter⟩
      have core := SpecMachine.core_of_reachable reach
      obtain ⟨specNext, performedSpec, repNext⟩ := rep.perform_ok core performed
      have step := Machine.step_of_perform performedSpec
      rw [repNext.kernel.isReady] at readyAfter
      rw [rep.pendsv] at timely
      rw [rep.unrivalled_iff] at unrivalled
      refine ⟨specNext, .step reach performedSpec, repNext, readyAfter, ?_⟩
      rw [countTurns, rep.turn_eq]
      have advance : SpecMachine.Served config task peer count spec ∧
          SpecMachine.Sweeps config peer spec →
          SpecMachine.Served config task peer (count + spec.turn task peer action) specNext ∧
            SpecMachine.Sweeps config peer specNext := fun ⟨served, sweeps⟩ =>
        ⟨core.served_step (SpecMachine.guarded_of_reachable reach)
          (SpecMachine.ownersRaised_of_reachable reach) served sweeps ready timely step readyAfter,
        core.sweeps_step (SpecMachine.scored_of_reachable reach) sweeps ready unrivalled step
          readyAfter⟩
      rcases counted with rfl | counted
      · by_cases idle : spec.turn task peer action = 0
        · exact .inl (by rw [idle])
        · -- the first turn that counts
          cases action with
          | tick =>
              simp only [Machine.turn, ite_eq_right_iff, Classical.not_imp] at idle
              obtain ⟨⟨_, runs, same⟩, _⟩ := idle
              exact .inr (advance (core.served_first runs same.ge))
          | _ => exact absurd rfl idle
      · exact .inr (advance counted)
  obtain ⟨spec, _, _, _, none | ⟨served, _⟩⟩ := matched
  · rw [none]
    exact Nat.zero_le _
  · exact served.within

/-- A tick that ends the slice of a task whose peer is ready. -/
theorem round_robin_bounded_one_turn :
    ∃ (bound : Nat) (pair : RtosMachine 4 Unit × Nat),
      (((waiting Config.duel Unit 1).restrict fun machine _ => machine.Unrivalled 1).observed 0
        (countTurns 2 1)).Reachable pair ∧ pair.2 = 1 ∧ pair.2 ≤ bound := by
  obtain ⟨bound, bounded⟩ := round_robin_bounded Config.duel Unit
  have opened : (((waiting Config.duel Unit 1).restrict fun machine _ =>
      machine.Unrivalled 1).observed 0 (countTurns 2 1)).Reachable (Duel.turn 0, 0) :=
    .initial ⟨⟨Duel.opens, rfl⟩, rfl⟩
  have unrivalled : (Duel.turn 0).Unrivalled 1 := fun searching => absurd rfl searching
  have expired : (((waiting Config.duel Unit 1).restrict fun machine _ =>
      machine.Unrivalled 1).observed 0 (countTurns 2 1)).Reachable
        ({ Duel.turn 1 with pendsv := true }, 1) :=
    .step opened ⟨⟨unrivalled, Duel.expires 0, fun _ => rfl, rfl⟩, rfl⟩
  exact ⟨bound, _, expired, rfl, bounded 2 1 _ expired⟩

/-- From turn to turn only the time changes. -/
theorem duel_turns (count : Nat) : ∃ time,
    ((waiting Config.duel Unit 1).observed 0 (countTurns 2 1)).Reachable (Duel.turn time, count) := by
  induction count with
  | zero => exact ⟨0, .initial ⟨⟨Duel.opens, rfl⟩, rfl⟩⟩
  | succ count ih =>
      obtain ⟨time, reachable⟩ := ih
      have expired : ((waiting Config.duel Unit 1).observed 0 (countTurns 2 1)).Reachable
          ({ Duel.turn (time + 1) with pendsv := true }, count + 1) :=
        .step reachable ⟨⟨Duel.expires time, fun _ => rfl, rfl⟩, rfl⟩
      have overtaken := waiting_of_performWithin expired (Duel.overtakes (time + 1))
      exact ⟨time + 1, waiting_of_performWithin overtaken (Duel.returns (time + 1))⟩

/-- Whenever the slice of task 2 ends, task 3 is woken before PendSV is taken, and the next
sweep begins behind task 3 and comes to task 2 first. Task 1 is never dispatched. -/
theorem not_round_robin_bounded :
    ¬∃ bound, ∀ (task peer : Fin 4) (pair : RtosMachine 4 Unit × Nat),
      ((waiting Config.duel Unit peer).observed 0 (countTurns task peer)).Reachable pair →
      pair.2 ≤ bound := by
  rintro ⟨bound, bounded⟩
  obtain ⟨time, reachable⟩ := duel_turns (bound + 1)
  have contradiction := bounded 2 1 _ reachable
  exact absurd contradiction (by simp)

end RepMachine

end Kangaroos
