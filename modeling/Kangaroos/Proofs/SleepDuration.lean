import Kangaroos.Abstract.Moves
import Kangaroos.Observed
import Kangaroos.Proofs.Sleepers

/-!
# How long `sleep` sleeps

The deadline is `TICK.wrapping_add(duration)` and `tick` compares it with `>=`. A sum that
wraps lies behind `TICK`, so the next tick that looks wakes the task. The one exception is a
call in the last tick before the counter itself wraps.
-/

namespace Kangaroos

/-- A call of `sleep`: the value of `TICK` at the call, the duration, and the number of ticks
counted since. -/
structure SleepCall where
  tick : U64
  duration : U64
  counted : Nat
  deriving DecidableEq

namespace SleepCall

/-- The sum of `TICK` and the duration does not wrap, or the counter wraps with it. -/
def Fits (call : SleepCall) : Prop :=
  call.tick.val + call.duration.val < 2 ^ 64 ∨ call.tick.val = 2 ^ 64 - 1

/-- The deadline of a call. -/
def deadline (call : SleepCall) : U64 := call.tick + call.duration

/-- The value of `TICK` after some ticks. -/
def now (call : SleepCall) (counted : Nat) : Nat := (call.tick.val + counted) % 2 ^ 64

/-- `tick` wakes the task in no tick before the duration is over exactly when the call fits. -/
theorem not_early_iff (call : SleepCall) :
    (∀ counted, 0 < counted → counted < call.duration.val →
      call.now counted < call.deadline.val) ↔ call.Fits := by
  have tickBound := call.tick.isLt
  have durationBound := call.duration.isLt
  have sum : call.deadline.val = (call.tick.val + call.duration.val) % 2 ^ 64 := rfl
  unfold now Fits
  rw [sum]
  constructor
  · intro awaits
    by_contra wraps
    have first := awaits 1 (by omega) (by omega)
    omega
  · rintro (fits | last) counted positive early
    · omega
    · omega

end SleepCall

/-- The `sleep` each task is in, or was in since it made no other call. -/
abbrev SleepBook (n : Nat) := Fin n → Option SleepCall

namespace SleepBook

variable {n : Nat} {V Link Head : Type}

/-- The books before the first call. -/
def blank : SleepBook n := fun _ => none

/-- What a call of a task makes of its entry: the second critical section of `sleep` belongs to
the same sleep. -/
def entry (machine : Machine n V Link Head) (task : Fin n) (book : SleepBook n) :
    Call V → Option SleepCall
  | .sleep duration => some { tick := machine.kernel.tickCount, duration, counted := 0 }
  | .sleepUntil deadline =>
    if (machine.thread task).pc = .sleepUntil deadline then book task else none
  | _ => none

/-- What the books note of a step. -/
def record (machine : Machine n V Link Head) (action : Action V) (book : SleepBook n) :
    SleepBook n :=
  match action with
  | .tick => fun task => (book task).map fun call => { call with counted := call.counted + 1 }
  | .call call =>
    match machine.kernel.current with
    | some task => Function.update book task (entry machine task book call)
    | none => book
  | _ => book

end SleepBook

/-- The end of a dispatch writes no global. -/
theorem Kernel.markRunning_statics {n : Nat} {V Link Head : Type}
    {kernel after : Kernel n V Link Head} {task : Fin n}
    (marked : kernel.markRunning task = .ok after) : after.toStatics = kernel.toStatics := by
  unfold Kernel.markRunning at marked
  split at marked
  · cases marked
    rfl
  · simp at marked

/-- The launch sets `CURRENT` and ends like a dispatch. -/
theorem Kernel.markRunning_of_launch {n : Nat} {V Link Head : Type}
    {kernel after : Kernel n V Link Head} {sp : Word}
    (returned : kernel.svcFirstTaskSp = .ok (after, sp)) :
    ∃ best first, (kernel.setCurrent best).markRunning first = .ok after := by
  unfold Kernel.svcFirstTaskSp at returned
  obtain ⟨⟨best, _⟩, _, rest⟩ := Except.ok_of_bind returned
  obtain ⟨first, _, rest⟩ := Except.ok_of_bind rest
  obtain ⟨dispatched, marked, rest⟩ := Except.ok_of_bind rest
  cases rest
  exact ⟨best, first, marked⟩

namespace SpecMachine

variable {n : Nat} {V : Type} {config : Config n} {machine next : SpecMachine n V}
  {book : SleepBook n}

/-- `TICK` as a step leaves it. -/
def tickAfter (machine : SpecMachine n V) : Action V → U64
  | .tick => machine.kernel.tickCount + 1
  | _ => machine.kernel.tickCount

/-- Only SysTick writes `TICK`. -/
theorem Core.tickCount (core : Core config machine) {action : Action V}
    (step : Machine.Step config.idle machine action next) :
    next.kernel.tickCount = machine.tickAfter action := by
  cases step with
  | launch fresh returned =>
      rename_i kernel sp
      obtain ⟨best, first, marked⟩ := Kernel.markRunning_of_launch returned
      have clock : kernel.tickCount = (machine.kernel.setCurrent best).tickCount :=
        congrArg Statics.tickCount (Kernel.markRunning_statics marked)
      exact clock
  | tick returned => exact (Kernel.tick_sleepers core.chain returned).2.1
  | pendsv switches =>
      cases switches with
      | save entered saved =>
          exact congrArg Statics.tickCount ((Spec.saveCurrent_spec _ _).of_ok saved).statics
      | finish switched marked =>
          exact congrArg Statics.tickCount (Kernel.markRunning_statics marked)
      | _ => rfl
  | isr safe returned slots =>
      obtain ⟨_, effect, _⟩ := (core.isr_contract safe returned).effect
      exact effect.tickCount
  | call isTask notIdle triggered may returned =>
      obtain ⟨_, effect, _⟩ := (core.call_contract isTask triggered returned).effect
      exact effect.tickCount
  | ret isTask triggered returns => cases returns <;> rfl
  | dropBox isTask notIdle triggered user live returned =>
      obtain ⟨_, _, rfl⟩ := Pool.destroy_ok returned
      rfl
  | writeBox isTask notIdle triggered user live returned =>
      obtain ⟨_, _, rfl⟩ := Pool.write_ok returned
      rfl
  | _ => rfl

/-- The books tell the time, and the deadline of every sleeper in them. -/
structure Timed (machine : SpecMachine n V) (book : SleepBook n) : Prop where
  clock : ∀ task call, book task = some call →
    machine.kernel.tickCount.val = call.now call.counted
  enters : ∀ task call deadline, book task = some call →
    (machine.thread task).pc = .sleepUntil deadline → deadline = call.deadline
  sleeps : ∀ task call deadline, book task = some call →
    (machine.kernel.tcb task).state = .sleeping deadline → deadline = call.deadline

namespace Timed

variable {action : Action V} {task : Fin n}

/-- A step that is no call keeps program points, or returns to user code, and puts no task
to sleep. -/
theorem keep (timed : Timed machine book) {book' : SleepBook n}
    (clock : ∀ task call, book' task = some call →
      next.kernel.tickCount.val = call.now call.counted)
    (known : ∀ task call, book' task = some call →
      ∃ before, book task = some before ∧ before.deadline = call.deadline)
    (pc : ∀ task, (next.thread task).pc = (machine.thread task).pc ∨ (next.thread task).pc = .user)
    (state : ∀ task deadline, (next.kernel.tcb task).state = .sleeping deadline →
      (machine.kernel.tcb task).state = .sleeping deadline) : Timed next book' where
  clock := clock
  enters task call deadline isCall at_ := by
    obtain ⟨before, wasCall, same⟩ := known task call isCall
    rcases pc task with samePc | user
    · rw [← same]
      exact timed.enters task before deadline wasCall (samePc ▸ at_)
    · rw [user] at at_
      cases at_
  sleeps task call deadline isCall asleep := by
    obtain ⟨before, wasCall, same⟩ := known task call isCall
    rw [← same]
    exact timed.sleeps task before deadline wasCall (state task deadline asleep)

/-- The same for a step the books note nothing of. -/
theorem keepBook (timed : Timed machine book)
    (sameClock : next.kernel.tickCount = machine.kernel.tickCount)
    (pc : ∀ task, (next.thread task).pc = (machine.thread task).pc ∨ (next.thread task).pc = .user)
    (state : ∀ task deadline, (next.kernel.tcb task).state = .sleeping deadline →
      (machine.kernel.tcb task).state = .sleeping deadline) : Timed next book :=
  timed.keep (fun task call isCall => by rw [sameClock]; exact timed.clock task call isCall)
    (fun _ call isCall => ⟨call, isCall, rfl⟩) pc state

/-- Rescheduling puts no task to sleep. -/
theorem sleeping_of_scheduled (scheduled : Scheduled machine next) (task : Fin n)
    (deadline : U64) (asleep : (next.kernel.tcb task).state = .sleeping deadline) :
    (machine.kernel.tcb task).state = .sleeping deadline := by
  rcases scheduled.moved.state task with same | ⟨_, runs⟩
  · exact same ▸ asleep
  · simp [asleep, TaskState.runnable, TaskState.isReady, TaskState.isRunning] at runs

/-- A tick counts for every call. -/
theorem tick (timed : Timed machine book) (scheduled : Scheduled machine next)
    (clock : next.kernel.tickCount = machine.kernel.tickCount + 1) :
    Timed next (SleepBook.record machine (.tick : Action V) book) := by
  have noted : ∀ task call, SleepBook.record machine (.tick : Action V) book task = some call →
      ∃ before, book task = some before ∧ { before with counted := before.counted + 1 } = call := by
    intro task call isCall
    simpa [SleepBook.record] using isCall
  refine timed.keep ?_ ?_ (fun task => .inl (scheduled.thread task).1)
    (sleeping_of_scheduled scheduled)
  · intro task call isCall
    obtain ⟨before, wasCall, rfl⟩ := noted task call isCall
    have now := timed.clock task before wasCall
    have later : next.kernel.tickCount.val = (machine.kernel.tickCount.val + 1) % 2 ^ 64 := by
      rw [clock]
      rfl
    unfold SleepCall.now at now ⊢
    rw [later, now]
    simp only
    omega
  · intro task call isCall
    obtain ⟨before, wasCall, rfl⟩ := noted task call isCall
    exact ⟨before, wasCall, rfl⟩

/-- What a call may leave in the books of its caller. -/
theorem of_entry {call : Call V} {kernel : Spec n V} {outcome : Outcome} {noted : SleepCall}
    (timed : Timed machine book) (isCurrent : machine.kernel.current = some task)
    (runs : (machine.kernel.tcb task).state.isRunning = true)
    (returned : call.run (some task) machine.kernel = .ok (kernel, outcome))
    (entry : SleepBook.entry machine task book call = some noted) :
    machine.kernel.tickCount.val = noted.now noted.counted ∧
      (∀ deadline, outcome.pc = .sleepUntil deadline → deadline = noted.deadline) ∧
      ∀ deadline, (kernel.tcb task).state = .sleeping deadline → deadline = noted.deadline := by
  cases call with
  | sleep duration =>
      cases returned
      cases entry
      refine ⟨?_, fun deadline at_ => ?_, fun deadline asleep => ?_⟩
      · simp only [SleepCall.now]
        omega
      · cases at_
        rfl
      · rw [asleep] at runs
        simp at runs
  | sleepUntil deadline =>
      simp only [SleepBook.entry] at entry
      split at entry
      · rename_i entering
        obtain ⟨after, slept, rest⟩ := Except.ok_of_bind returned
        cases rest
        simp only [Kernel.sleepUntil, isCurrent, deref_some, Except.ok_bind] at slept
        cases slept
        refine ⟨timed.clock task noted entry, by simp, fun other asleep => ?_⟩
        obtain rfl : deadline = other := by simpa using asleep
        exact timed.enters task noted deadline entry entering
      · simp at entry
  | _ => simp [SleepBook.entry] at entry

/-- A critical section of a task. -/
theorem call (timed : Timed machine book) {call : Call V} {kernel : Spec n V} {outcome : Outcome}
    {pendsv : Bool} (isCurrent : machine.kernel.current = some task)
    (runs : (machine.kernel.tcb task).state.isRunning = true)
    (returned : call.run (some task) machine.kernel = .ok (kernel, outcome))
    (contract : call.Contract (some task) machine.kernel (kernel, outcome)) :
    Timed { machine.setThread task ((machine.thread task).after call outcome) with kernel, pendsv }
      (SleepBook.record machine (.call call) book) := by
  obtain ⟨_, effect, _⟩ := contract.effect
  have noted : SleepBook.record machine (.call call) book =
      Function.update book task (SleepBook.entry machine task book call) := by
    simp only [SleepBook.record, isCurrent]
  have sameClock : kernel.tickCount = machine.kernel.tickCount := effect.tickCount
  rw [noted]
  refine ⟨?_, ?_, ?_⟩
  · intro other entry isEntry
    rw [show (_ : U64) = machine.kernel.tickCount from sameClock]
    by_cases same : other = task
    · subst same
      rw [Function.update_self] at isEntry
      exact (timed.of_entry isCurrent runs returned isEntry).1
    · rw [Function.update_of_ne same] at isEntry
      exact timed.clock other entry isEntry
  · intro other entry deadline isEntry at_
    by_cases same : other = task
    · subst same
      rw [Function.update_self] at isEntry
      exact (timed.of_entry isCurrent runs returned isEntry).2.1 deadline
        (by simpa [Machine.setThread, Thread.after] using at_)
    · rw [Function.update_of_ne same] at isEntry
      exact timed.enters other entry deadline isEntry (by simpa [Machine.setThread, same] using at_)
  · intro other entry deadline isEntry asleep
    by_cases same : other = task
    · subst same
      rw [Function.update_self] at isEntry
      exact (timed.of_entry isCurrent runs returned isEntry).2.2 deadline asleep
    · rw [Function.update_of_ne same] at isEntry
      have notReady : (kernel.tcb other).state.isReady = false := by
        rw [show (kernel.tcb other).state = _ from asleep]
        rfl
      have sameState : (kernel.tcb other).state = (machine.kernel.tcb other).state :=
        effect.state_of_not_ready (by simpa using Ne.symm same) notReady
      exact timed.sleeps other entry deadline isEntry (sameState ▸ asleep)

/-- A task that changes its own record keeps its program point or goes back to user code. -/
theorem pc_of_setThread (thread : Thread)
    (pc : thread.pc = (machine.thread task).pc ∨ thread.pc = .user) (other : Fin n) :
    ((machine.setThread task thread).thread other).pc = (machine.thread other).pc ∨
      ((machine.setThread task thread).thread other).pc = .user :=
  Machine.forall_setThread (P := fun other thread =>
    thread.pc = (machine.thread other).pc ∨ thread.pc = .user) pc (fun _ _ => .inl rfl) other

/-- Books and deadlines agree after every move. -/
theorem moves (timed : Timed machine book) (moves : Moves machine action next)
    (clock : next.kernel.tickCount = machine.tickAfter action) :
    Timed next (SleepBook.record machine action book) := by
  cases moves with
  | scheduled scheduled schedules =>
      have pc : ∀ task, (next.thread task).pc = (machine.thread task).pc ∨
          (next.thread task).pc = .user := fun task => .inl (scheduled.thread task).1
      cases action with
      | tick => exact timed.tick scheduled clock
      | launch => exact timed.keepBook clock pc (sleeping_of_scheduled scheduled)
      | pendsv sp => exact timed.keepBook clock pc (sleeping_of_scheduled scheduled)
      | trigger => exact timed.keepBook clock pc (sleeping_of_scheduled scheduled)
      | _ => simp [Action.schedules] at schedules
  | isr safe returned contract slots =>
      obtain ⟨_, effect, _⟩ := contract.effect
      refine timed.keepBook clock (fun _ => .inl rfl) fun task deadline asleep => ?_
      rw [← asleep]
      exact (effect.state_of_not_ready (by simp) (by rw [asleep]; rfl)).symm
  | call isCurrent runs may returned contract => exact timed.call isCurrent runs returned contract
  | ret runs returns =>
      cases returns with
      | plain pc =>
          exact timed.keepBook clock (pc_of_setThread _ (.inr rfl)) fun _ _ asleep => asleep
      | guard pc =>
          exact timed.keepBook clock (pc_of_setThread _ (.inr rfl)) fun _ _ asleep => asleep
      | value pc received =>
          exact timed.keepBook clock (pc_of_setThread _ (.inr rfl)) fun _ _ asleep => asleep
      | box pc =>
          exact timed.keepBook clock (pc_of_setThread _ (.inr rfl)) fun _ _ asleep => asleep
  | isrRet assigned => exact timed.keepBook clock (fun _ => .inl rfl) fun _ _ asleep => asleep
  | dropBox runs user live inBounds =>
      exact timed.keepBook clock (pc_of_setThread _ (.inl rfl)) fun _ _ asleep => asleep
  | writeBox live stored =>
      exact timed.keepBook clock (fun _ => .inl rfl) fun _ _ asleep => asleep
  | forgetGuard runs user held =>
      exact timed.keepBook clock (pc_of_setThread _ (.inl rfl)) fun _ _ asleep => asleep

end Timed

/-- Books and deadlines agree along every run. -/
theorem timed_of_reachable {pair : SpecMachine n V × SleepBook n}
    (reachable : (config.withBooks V WaitList (List (Fin n)) SleepBook.blank
      SleepBook.record).Reachable pair) : Timed pair.1 pair.2 := by
  refine reachable.observed_invariant (fun machine book => Timed machine book) ?_ ?_
  · intro machine _
    exact ⟨by simp [SleepBook.blank], by simp [SleepBook.blank], by simp [SleepBook.blank]⟩
  · intro machine action next book reached timed performed
    have core := core_of_reachable reached
    have step := Machine.step_of_perform performed
    exact timed.moves (core.moves step) (core.tickCount step)

end SpecMachine

namespace RepMachine

variable {n : Nat} {V : Type} {config : Config n} {machine next : RtosMachine n V}
  {spec : SpecMachine n V} {book : SleepBook n}

/-- The books of the machine as coded are those of the abstract machine. -/
theorem sleepBook_eq (rep : RepMachine machine spec) (action : Action V) :
    SleepBook.record machine action = SleepBook.record spec action := by
  funext book
  cases action with
  | call call =>
      simp only [SleepBook.record, rep.kernel.statics]
      cases spec.kernel.current with
      | none => rfl
      | some task =>
          cases call <;> simp only [SleepBook.entry, rep.thread, rep.kernel.statics]
  | _ => rfl

/-- A sleeper in the books sleeps for the deadline of its call, and `TICK` tells how many
ticks it has slept. -/
theorem sleep_deadline (reachable : (config.withBooks V (TcbPtr n) (TcbPtr n) SleepBook.blank
      SleepBook.record).Reachable (machine, book))
    {task : Fin n} {call : SleepCall} {deadline : U64} (asked : book task = some call)
    (sleeps : (machine.kernel.tcb task).state = .sleeping deadline) :
    deadline = call.deadline ∧ machine.kernel.tickCount.val = call.now call.counted := by
  obtain ⟨⟨spec, shared⟩, reach, rep, sameBook⟩ := ((simulation config V).observed SleepBook.blank
    fun state action _ spec _ rep _ => sleepBook_eq rep action).reachable reachable
  obtain rfl : book = shared := sameBook
  replace rep : RepMachine machine spec := rep
  have timed : SpecMachine.Timed spec book := SpecMachine.timed_of_reachable reach
  have asleep : (spec.kernel.tcb task).state = .sleeping deadline := by
    have same := rep.kernel.state task
    rw [sleeps] at same
    cases state : (spec.kernel.tcb task).state <;> simp_all [TaskState.forget]
  refine ⟨timed.sleeps task call deadline asked asleep, ?_⟩
  rw [rep.kernel.statics]
  exact timed.clock task call asked

section Tick

variable {task : Fin n} {call : SleepCall} {deadline : U64}
  (reachable : (config.withBooks V (TcbPtr n) (TcbPtr n) SleepBook.blank
    SleepBook.record).Reachable (machine, book))
  (ticked : machine.perform config.idle .tick = some (.ok next))
  (asked : book task = some call)
  (sleeps : (machine.kernel.tcb task).state = .sleeping deadline)

include reachable ticked asked sleeps

/-- A tick wakes a sleeper in the books only at its deadline, and while another task runs it
does so. -/
theorem woken_of_deadline :
    ((next.kernel.tcb task).state.isReady = true →
      call.deadline.val ≤ call.now (call.counted + 1)) ∧
    (machine.kernel.CurrentRunning → call.deadline.val ≤ call.now (call.counted + 1) →
      (next.kernel.tcb task).state.isReady = true) := by
  obtain ⟨rfl, clock⟩ := sleep_deadline reachable asked sleeps
  obtain ⟨later, outcome⟩ := tick_sleeper reachable.of_observed ticked sleeps
  have time : next.kernel.tickCount.val = call.now (call.counted + 1) := by
    have now : next.kernel.tickCount.val = (machine.kernel.tickCount.val + 1) % 2 ^ 64 := by
      rw [later]
      rfl
    rw [now, clock]
    unfold SleepCall.now
    omega
  rcases outcome with ⟨ready, _, passed⟩ | ⟨still, awaits⟩
  · rw [Fin.le_def, time] at passed
    exact ⟨fun _ => passed, fun _ _ => ready⟩
  · rw [Fin.le_def, time] at awaits
    refine ⟨fun ready => ?_, fun runs passed => absurd passed (awaits runs)⟩
    rw [still] at ready
    cases ready

/-- A call that does not fit is cut short by the first tick after it, if that one finds a task
running. -/
theorem sleep_early_of_wrap (wraps : ¬ call.Fits) (first : call.counted = 0)
    (runs : machine.kernel.CurrentRunning) :
    (next.kernel.tcb task).state.isReady = true ∧ call.counted + 1 < call.duration.val := by
  have tickBound := call.tick.isLt
  have durationBound := call.duration.isLt
  have sum : call.deadline.val = (call.tick.val + call.duration.val) % 2 ^ 64 := rfl
  unfold SleepCall.Fits at wraps
  refine ⟨(woken_of_deadline reachable ticked asked sleeps).2 runs ?_, by omega⟩
  rw [sum, first]
  unfold SleepCall.now
  omega

end Tick

/-- A task whose `sleep` fits is not woken before its duration is over: in a run whose calls
all fit, no `sleep` is cut short. -/
theorem sleep_not_early {task : Fin n} {call : SleepCall} {deadline : U64}
    (reachable : (config.withBooks V (TcbPtr n) (TcbPtr n) SleepBook.blank
      SleepBook.record).Reachable (machine, book))
    (ticked : machine.perform config.idle .tick = some (.ok next))
    (asked : book task = some call) (fits : call.Fits)
    (sleeps : (machine.kernel.tcb task).state = .sleeping deadline)
    (woken : (next.kernel.tcb task).state.isReady = true) :
    call.duration.val ≤ call.counted + 1 := by
  have passed := (woken_of_deadline reachable ticked asked sleeps).1 woken
  by_contra early
  have awaits := call.not_early_iff.mpr fits (call.counted + 1) (by omega) (by omega)
  omega

/-- Task 1 sleeps for one tick and is woken by the next. -/
theorem sleep_not_early_one_tick : ∃ (next : RtosMachine 4 Unit) (call : SleepCall),
    (next.kernel.tcb 1).state.isReady = true ∧ call.duration = 1 ∧
      call.duration.val ≤ call.counted + 1 := by
  let fitting (call : SleepCall) : Bool := call.tick = 0 ∧ call.duration = 1
  let check (pair : RtosMachine 4 Unit × SleepBook 4) : Bool :=
    (pair.1.kernel.tcb 1).state = .sleeping 1 ∧
    (pair.2 1).any fitting = true ∧
    pair.1.performPasses 0 .tick (fun next => (next.kernel.tcb 1).state.isReady) = true
  obtain ⟨⟨machine, book⟩, reachable, checked⟩ := Machine.exists_of_checkNoting sleepOneTick check
    (by decide +kernel : Machine.passesNoting (Config.small 10 20 30) SleepBook.blank
      SleepBook.record sleepOneTick check = true)
  obtain ⟨sleeps, asks, performs⟩ := of_decide_eq_true checked
  obtain ⟨call, asked, isFitting⟩ := (Option.any_eq_true _ _).mp asks
  obtain ⟨next, ticked, ready⟩ := Machine.exists_of_performPasses performs
  obtain ⟨tick, duration⟩ := of_decide_eq_true isFitting
  have fits : call.Fits := .inl (by rw [tick, duration]; decide)
  exact ⟨next, call, ready, duration, sleep_not_early reachable ticked asked fits sleeps ready⟩

/-- Task 1 calls `sleep` with the longest duration in tick 1. The sum wraps to 0, and the next
tick wakes the task. -/
theorem sleep_cut_short :
    ¬∀ (machine next : RtosMachine 4 Unit) (book : SleepBook 4) (task : Fin 4) (call : SleepCall)
      (deadline : U64), ((Config.small 10 20 30).withBooks Unit (TcbPtr 4) (TcbPtr 4)
        SleepBook.blank SleepBook.record).Reachable (machine, book) →
      machine.perform 0 .tick = some (.ok next) → book task = some call →
      (machine.kernel.tcb task).state = .sleeping deadline →
      (next.kernel.tcb task).state.isReady = true → call.duration.val ≤ call.counted + 1 := by
  intro always
  let longest : U64 := Fin.last (2 ^ 64 - 1)
  let actions : List (Action Unit) :=
    [.launch, .tick, .call (.sleep longest)] ++ Config.thenSwitch (.sleepUntil 0)
  let short (call : SleepCall) : Bool := call.duration = longest ∧ call.counted = 0
  let check (pair : RtosMachine 4 Unit × SleepBook 4) : Bool :=
    (pair.1.kernel.tcb 1).state = .sleeping 0 ∧
    (pair.2 1).any short = true ∧
    pair.1.performPasses 0 .tick (fun next => (next.kernel.tcb 1).state.isReady) = true
  obtain ⟨⟨machine, book⟩, reachable, checked⟩ := Machine.exists_of_checkNoting actions check
    (by decide +kernel : Machine.passesNoting (Config.small 10 20 30) SleepBook.blank
      SleepBook.record actions check = true)
  obtain ⟨sleeps, asks, performs⟩ := of_decide_eq_true checked
  obtain ⟨call, asked, isShort⟩ := (Option.any_eq_true _ _).mp asks
  obtain ⟨next, ticked, ready⟩ := Machine.exists_of_performPasses performs
  obtain ⟨duration, counted⟩ := of_decide_eq_true isShort
  have bound := always machine next book 1 call 0 reachable ticked asked sleeps ready
  rw [duration, counted] at bound
  exact absurd bound (by decide)

end RepMachine

end Kangaroos
