import Kangaroos.Proofs.TimerWaits

/-!
# Waiting for a past deadline

`sleep_until` puts the caller to sleep whatever the deadline, and no search of PendSV selects
a sleeper. A `wait` whose deadline has passed therefore lasts until a tick that finds another
task running.
-/

namespace Kangaroos

namespace RtosTimerMachine

variable {n : Nat} {V : Type} {config : Config n} {state next later : RtosTimerMachine n V}
  {owner : Fin n} {timer : Timer}

/-- The runs from a state on up to the next tick. -/
def untilTick (config : Config n) (called : RtosTimerMachine n V) :
    TransitionSystem (RtosTimerMachine n V) (TimerAction V) :=
  ((config.timerSystem V (TcbPtr n) (TcbPtr n)).startingAt called).restrict
    fun _ action => action ≠ .machine .tick

/-- The task is dispatched. -/
def Dispatched (state : RtosTimerMachine n V) (owner : Fin n) : Prop :=
  state.machine.kernel.current = some owner ∧
    (state.machine.kernel.tcb owner).state.isRunning = true

/-- What the documentation of `wait` promises for a past deadline: the caller stays runnable,
and unless another task as urgent is ready PendSV dispatches it again before the next tick. -/
structure ReturnsAtOnce (config : Config n) (called : RtosTimerMachine n V) (owner : Fin n) :
    Prop where
  runnable : (called.machine.kernel.tcb owner).state.runnable = true
  redispatched : (∀ task, task ≠ owner → (called.machine.kernel.tcb task).state.isReady = true →
      (called.machine.kernel.tcb owner).priority < (called.machine.kernel.tcb task).priority) →
    ∃ later, (untilTick config called).Reachable later ∧ later.Dispatched owner

/-- The state of a `wait` that has not been woken. -/
structure Asleep (state : RtosTimerMachine n V) (owner : Fin n) (deadline now : U64) : Prop where
  waits : state.waiter = some owner
  sleeps : (state.machine.kernel.tcb owner).state = .sleeping deadline
  clock : state.machine.kernel.tickCount = now

/-- `wait` puts its caller to sleep, whatever the deadline. -/
theorem asleep_of_wait (reachable : (config.timerSystem V (TcbPtr n) (TcbPtr n)).Reachable state)
    (created : state.timer = some timer)
    (performed : state.perform config.idle .wait = some (.ok next)) :
    ∃ owner, Asleep next owner timer.next state.machine.kernel.tickCount := by
  have reached := Config.reachable_machine reachable
  cases TimerMachine.step_of_perform performed with
  | wait created' free isTask user stepped =>
      obtain ⟨owner, isOwner, sleeps⟩ := RepMachine.sleepUntil_step stepped
      cases created.symm.trans created'
      exact ⟨owner, isTask.symm.trans isOwner, sleeps,
        (RepMachine.tickCount_step reached stepped).2 (by simp)⟩

/-- Between two ticks nothing wakes it. -/
theorem Asleep.step {deadline now : U64} {action : TimerAction V}
    (reachable : (config.timerSystem V (TcbPtr n) (TcbPtr n)).Reachable state)
    (asleep : Asleep state owner deadline now) (noTick : action ≠ .machine .tick)
    (performed : state.perform config.idle action = some (.ok next)) :
    Asleep next owner deadline now := by
  have reached := Config.reachable_machine reachable
  obtain ⟨waits, sleeps, clock⟩ := asleep
  cases TimerMachine.step_of_perform performed with
  | machine may stepped =>
      rename_i action machine
      have quiet : action ≠ .tick := fun isTick => noTick (congrArg _ isTick)
      refine ⟨waits, ?_, ((RepMachine.tickCount_step reached stepped).2 quiet).trans clock⟩
      exact (RepMachine.sleeping_step reached stepped sleeps).resolve_right fun woken => quiet woken.1
  | after free => simp [free] at waits
  | every free => simp [free] at waits
  | wait created free isTask user stepped => simp [free] at waits
  | waitRet waits' isTask triggered =>
      -- a task that returns from `wait` runs
      obtain rfl := Option.some.inj (waits'.symm.trans waits)
      have runs := RepMachine.task_running reached isTask triggered
      simp [sleeps] at runs

/-- It sleeps in every state before the next tick. -/
theorem Asleep.run {deadline now : U64}
    (reachable : (config.timerSystem V (TcbPtr n) (TcbPtr n)).Reachable state)
    (asleep : Asleep state owner deadline now) (onward : (untilTick config state).Reachable later) :
    Asleep later owner deadline now := by
  refine onward.invariant (fun later => Asleep later owner deadline now) ?_ ?_
  · rintro _ rfl
    exact asleep
  · rintro middle action next reached asleep ⟨noTick, performed⟩
    exact asleep.step (.of_startingAt reachable reached.of_restrict) noTick performed

/-- The next tick wakes it exactly when it finds a task running. -/
theorem Asleep.tick {deadline now : U64}
    (reachable : (config.timerSystem V (TcbPtr n) (TcbPtr n)).Reachable state)
    (asleep : Asleep state owner deadline now) (past : deadline ≤ now) (noWrap : now.val + 1 < 2 ^ 64)
    (ticked : state.perform config.idle (.machine .tick) = some (.ok next)) :
    (next.machine.kernel.tcb owner).state.isReady = true ↔ state.machine.kernel.CurrentRunning := by
  have reached := Config.reachable_machine reachable
  obtain ⟨_, sleeps, clock⟩ := asleep
  cases TimerMachine.step_of_perform ticked with
  | machine may stepped =>
      rename_i machine
      constructor
      · intro ready
        rcases RepMachine.sleeping_step reached stepped sleeps with still | ⟨_, runs, _⟩
        · rw [still] at ready
          cases ready
        · exact runs
      · intro runs
        refine RepMachine.tick_wakes reached stepped runs sleeps ?_
        have later : (now + 1).val = now.val + 1 := Nat.mod_eq_of_lt noWrap
        rw [(RepMachine.tickCount_step reached stepped).1 rfl, clock, Fin.le_def, later]
        exact (Fin.le_def.mp past).trans (Nat.le_succ _)

/-- A `wait` for a deadline that has passed never returns at once: the caller is asleep, it is not
dispatched before the next tick, and that tick has to find another task running to wake it. -/
theorem past_deadline_waits_for_tick
    (reachable : (config.timerSystem V (TcbPtr n) (TcbPtr n)).Reachable state)
    (created : state.timer = some timer) (past : timer.next ≤ state.machine.kernel.tickCount)
    (performed : state.perform config.idle .wait = some (.ok next)) :
    ∃ owner, next.waiter = some owner ∧ ¬ReturnsAtOnce config next owner ∧
      ∀ later, (untilTick config next).Reachable later →
        later.waiter = some owner ∧ ¬later.Dispatched owner ∧
        ∀ ticked, later.perform config.idle (.machine .tick) = some (.ok ticked) →
          later.machine.kernel.tickCount.val + 1 < 2 ^ 64 →
          ((ticked.machine.kernel.tcb owner).state.isReady = true ↔
            later.machine.kernel.CurrentRunning) := by
  obtain ⟨owner, asleep⟩ := asleep_of_wait reachable created performed
  have called : (config.timerSystem V (TcbPtr n) (TcbPtr n)).Reachable next :=
    .step reachable performed
  refine ⟨owner, asleep.waits, fun atOnce => ?_, fun later onward => ?_⟩
  · have runnable := atOnce.runnable
    rw [asleep.sleeps] at runnable
    cases runnable
  · have still := asleep.run called onward
    refine ⟨still.waits, ?_, fun ticked tick noWrap => ?_⟩
    · rintro ⟨_, runs⟩
      rw [still.sleeps] at runs
      cases runs
    · exact still.tick (.of_startingAt called onward.of_restrict) past (still.clock ▸ noWrap) tick

/-- Task 1 waits on a one-shot timer of one tick and returns in that tick. -/
def reuseTimer : List (TimerAction Unit) :=
  [.machine .launch, .after ⟨1⟩, .wait, .machine .trigger] ++
    List.replicate 10 (.machine (.pendsv 0)) ++ [.machine .tick] ++
    List.replicate 10 (.machine (.pendsv 0)) ++ [.waitRet]

/-- It can call `wait` again. -/
theorem exists_reused : ∃ state next : RtosTimerMachine 4 Unit,
    ((Config.small 10 20 30).timerSystem Unit (TcbPtr 4) (TcbPtr 4)).Reachable state ∧
    state.timer = some { next := 1, period := none } ∧ state.machine.kernel.tickCount = 1 ∧
    state.perform 0 .wait = some (.ok next) ∧ next.waiter = some 1 := by
  let check (pair : RtosTimerMachine 4 Unit × Unit) : Bool :=
    pair.1.timer = some { next := 1, period := none } ∧ pair.1.machine.kernel.tickCount = 1 ∧
    ((Config.small 10 20 30).nextTimer pair.1 .wait).any (fun next => next.waiter = some 1) = true
  obtain ⟨⟨state, _⟩, reachable, checked⟩ := Config.exists_of_timerPasses reuseTimer check
    (by decide +kernel : (Config.small 10 20 30).timerPasses () (fun _ _ _ => id) reuseTimer
      check = true)
  obtain ⟨created, clock, happens⟩ := of_decide_eq_true checked
  obtain ⟨next, happened, waits⟩ := (Option.any_eq_true _ _).mp happens
  exact ⟨state, next, reachable.of_observed, created, clock,
    Config.nextTimer_step state _ next happened, of_decide_eq_true waits⟩

/-- The second `wait` does not return at once. -/
theorem past_deadline_waits_for_tick_reused : ∃ state next : RtosTimerMachine 4 Unit,
    state.timer = some { next := 1, period := none } ∧ state.machine.kernel.tickCount = 1 ∧
    state.perform 0 .wait = some (.ok next) ∧
    ¬ReturnsAtOnce (Config.small 10 20 30) next 1 := by
  obtain ⟨state, next, reachable, created, clock, performed, waits⟩ := exists_reused
  obtain ⟨owner, isOwner, notAtOnce, _⟩ :=
    past_deadline_waits_for_tick reachable created (by rw [clock]) performed
  obtain rfl := Option.some.inj (isOwner.symm.trans waits)
  exact ⟨state, next, created, clock, performed, notAtOnce⟩

/-- So the documentation is wrong about it. -/
theorem not_past_deadline_returns_at_once :
    ¬∀ (state next : RtosTimerMachine 4 Unit) (timer : Timer) (owner : Fin 4),
      ((Config.small 10 20 30).timerSystem Unit (TcbPtr 4) (TcbPtr 4)).Reachable state →
      state.timer = some timer → timer.next ≤ state.machine.kernel.tickCount →
      state.perform 0 .wait = some (.ok next) → next.waiter = some owner →
      ReturnsAtOnce (Config.small 10 20 30) next owner := by
  intro always
  obtain ⟨state, next, reachable, created, clock, performed, waits⟩ := exists_reused
  have atOnce := always state next _ 1 reachable created (by rw [clock]) performed waits
  obtain ⟨owner, asleep⟩ := asleep_of_wait reachable created performed
  obtain rfl := Option.some.inj (asleep.waits.symm.trans waits)
  have runnable := atOnce.runnable
  rw [asleep.sleeps] at runnable
  cases runnable

end RtosTimerMachine

end Kangaroos
