import Kangaroos.Proofs.TimerWaits

/-!
# Periodic timers do not drift

The deadline of the `k`-th `wait` is the creation tick plus `k` periods, however late the
owner calls. Only a tick at or after it ends the wait, and the tick that reaches it does if it
finds another task running.
-/

namespace Kangaroos

/-- A periodic timer: the value of `TICK` at its creation, its period, and the number of calls
of `wait`; the value of `TICK` at the last of them, and the number of ticks counted since. -/
structure TimerBook where
  created : U64
  period : U64
  waits : Nat := 0
  asked : U64 := 0
  counted : Nat := 0

namespace TimerBook

/-- The deadline of the `k`-th `wait`. -/
def deadline (book : TimerBook) (k : Nat) : Nat := book.created.val + k * book.period.val

theorem deadline_succ (book : TimerBook) (k : Nat) :
    book.deadline (k + 1) = book.deadline k + book.period.val := by
  unfold deadline
  rw [Nat.succ_mul, Nat.add_assoc]

variable {n : Nat} {V Link Head : Type}

/-- Ticks are counted. -/
def count (book : TimerBook) {V : Type} : Action V → TimerBook
  | .tick => { book with counted := book.counted + 1 }
  | _ => book

@[simp] theorem count_deadline (book : TimerBook) {V : Type} (action : Action V) (k : Nat) :
    (book.count action).deadline k = book.deadline k := by
  cases action <;> rfl

@[simp] theorem count_period (book : TimerBook) {V : Type} (action : Action V) :
    (book.count action).period = book.period := by
  cases action <;> rfl

@[simp] theorem count_waits (book : TimerBook) {V : Type} (action : Action V) :
    (book.count action).waits = book.waits := by
  cases action <;> rfl

@[simp] theorem count_asked (book : TimerBook) {V : Type} (action : Action V) :
    (book.count action).asked = book.asked := by
  cases action <;> rfl

/-- What the book notes of a step. -/
def record (state : TimerMachine n V Link Head) (action : TimerAction V)
    (_ : TimerMachine n V Link Head) (book : Option TimerBook) : Option TimerBook :=
  match action with
  | .every period => some { created := state.machine.kernel.tickCount, period := period.asTicks }
  | .after _ => none
  | .wait => book.map fun book =>
    { book with waits := book.waits + 1, asked := state.machine.kernel.tickCount, counted := 0 }
  | .machine action => book.map fun book => book.count action
  | .waitRet => book

end TimerBook

namespace RtosTimerMachine

variable {n : Nat} {V : Type} {config : Config n} {state next : RtosTimerMachine n V}
  {book : TimerBook} {action : TimerAction V}

/-- The machine with a timer and its book. -/
abbrev withBook (config : Config n) (V : Type) :
    TransitionSystem (RtosTimerMachine n V × Option TimerBook) (TimerAction V) :=
  (config.timerSystem V (TcbPtr n) (TcbPtr n)).observed none TimerBook.record

/-- The book tells the deadline of the timer, and what the task inside `wait` does. -/
structure Kept (state : RtosTimerMachine n V) (book : TimerBook) : Prop where
  timer : ∃ next, state.timer = some { next, period := some book.period } ∧
    next.val = book.deadline (if state.waiter = none then book.waits + 1 else book.waits) % 2 ^ 64
  clock : state.waiter ≠ none →
    state.machine.kernel.tickCount.val = (book.asked.val + book.counted) % 2 ^ 64
  inside : ∀ owner timer, state.waiter = some owner → state.timer = some timer →
    (state.machine.kernel.tcb owner).state = .sleeping timer.next ∨
      (state.machine.kernel.tcb owner).state.runnable = true ∧
        timer.next.val ≤ book.asked.val + book.counted

namespace Kept

/-- Time passes as the book counts it. -/
theorem count_clock {action : Action V} {machine : RtosMachine n V}
    (reachable : (RepMachine.system config V).Reachable state.machine)
    (performed : state.machine.perform config.idle action = some (.ok machine))
    (clock : state.machine.kernel.tickCount.val = (book.asked.val + book.counted) % 2 ^ 64) :
    machine.kernel.tickCount.val = (book.asked.val + (book.count action).counted) % 2 ^ 64 := by
  obtain ⟨ticks, stays⟩ := RepMachine.tickCount_step reachable performed
  by_cases isTick : action = .tick
  · subst isTick
    have later : machine.kernel.tickCount.val =
        (state.machine.kernel.tickCount.val + 1) % 2 ^ 64 := by
      rw [ticks rfl]
      rfl
    rw [later, clock]
    simp only [TimerBook.count]
    omega
  · have same : book.count action = book := by
      cases action <;> first | rfl | exact absurd rfl isTick
    rw [stays isTick, same]
    exact clock

/-- The task inside `wait` sleeps until a tick at its deadline, and then stays runnable. -/
theorem count_inside {owner : Fin n} {timer : Timer} {action : Action V}
    {machine : RtosMachine n V} (reachable : (RepMachine.system config V).Reachable state.machine)
    (waits : state.waiter = some owner) (may : state.may action)
    (performed : state.machine.perform config.idle action = some (.ok machine))
    (clock : machine.kernel.tickCount.val =
      (book.asked.val + (book.count action).counted) % 2 ^ 64)
    (inside : (state.machine.kernel.tcb owner).state = .sleeping timer.next ∨
      (state.machine.kernel.tcb owner).state.runnable = true ∧
        timer.next.val ≤ book.asked.val + book.counted) :
    (machine.kernel.tcb owner).state = .sleeping timer.next ∨
      (machine.kernel.tcb owner).state.runnable = true ∧
        timer.next.val ≤ book.asked.val + (book.count action).counted := by
  have later : book.counted ≤ (book.count action).counted := by
    cases action <;> simp [TimerBook.count]
  rcases inside with sleeps | ⟨runnable, passed⟩
  · rcases RepMachine.sleeping_step reachable performed sleeps with
      sleeps | ⟨_, _, passed, ready⟩
    · exact .inl sleeps
    · refine .inr ⟨by simp [TaskState.runnable, ready], ?_⟩
      rw [Fin.le_def, clock] at passed
      exact passed.trans (Nat.mod_le _ _)
  · refine .inr ⟨RepMachine.runnable_step reachable performed ?_ runnable, passed.trans (by omega)⟩
    rw [← waits]
    exact may

end Kept

/-- The book is right along every run. -/
theorem kept_of_reachable {pair : RtosTimerMachine n V × Option TimerBook}
    (reachable : (withBook config V).Reachable pair) :
    ∀ book, pair.2 = some book → Kept pair.1 book := by
  refine reachable.observed_invariant
    (fun state noted => ∀ book, noted = some book → Kept state book) (fun _ _ _ none_ => by cases none_) ?_
  intro state action next noted reached kept performed book' isBook
  have reachedMachine := Config.reachable_machine reached
  cases TimerMachine.step_of_perform performed with
  | machine may stepped =>
      rename_i action machine
      obtain ⟨book, rfl, rfl⟩ := Option.map_eq_some_iff.mp isBook
      obtain ⟨⟨next, isTimer, deadline⟩, clock, inside⟩ := kept book rfl
      have clock' : state.waiter ≠ none → machine.kernel.tickCount.val =
          (book.asked.val + (book.count action).counted) % 2 ^ 64 :=
        fun waits => Kept.count_clock reachedMachine stepped (clock waits)
      refine ⟨⟨next, by simpa using isTimer, by simpa using deadline⟩, by simpa using clock', ?_⟩
      intro owner timer waits created
      have waits' : state.waiter ≠ none := Option.ne_none_iff_exists'.mpr ⟨owner, waits⟩
      simpa using Kept.count_inside reachedMachine waits may stepped (clock' waits')
        (inside owner timer waits created)
  | after free => cases isBook
  | every free =>
      rename_i period
      obtain rfl := Option.some.inj isBook
      refine ⟨⟨_, rfl, ?_⟩, fun waits => absurd free waits, fun owner _ waits _ => ?_⟩
      · simp only [free, if_pos, TimerBook.deadline]
        rw [Fin.val_add]
        simp
      · simp [free] at waits
  | wait created free isTask user stepped =>
      rename_i timer task machine
      obtain ⟨book, rfl, rfl⟩ := Option.map_eq_some_iff.mp isBook
      obtain ⟨⟨next, isTimer, deadline⟩, _, _⟩ := kept book rfl
      obtain ⟨owner, isOwner, sleeps⟩ := RepMachine.sleepUntil_step stepped
      obtain rfl : task = owner := Option.some.inj (isTask.symm.trans isOwner)
      have sameClock : machine.kernel.tickCount = state.machine.kernel.tickCount :=
        (RepMachine.tickCount_step reachedMachine stepped).2 (by simp)
      refine ⟨⟨next, isTimer, ?_⟩, fun _ => ?_, fun owner timer' waits created' => .inl ?_⟩
      · simpa [free, TimerBook.deadline] using deadline
      · rw [show _ = machine.kernel.tickCount from rfl, sameClock]
        exact (Nat.mod_eq_of_lt state.machine.kernel.tickCount.isLt).symm
      · obtain rfl : task = owner := Option.some.inj waits
        obtain rfl : timer = timer' := Option.some.inj (created.symm.trans created')
        exact sleeps
  | waitRet waits isTask triggered =>
      rename_i task
      obtain ⟨⟨next, isTimer, deadline⟩, _, _⟩ := kept book' isBook
      refine ⟨⟨next + book'.period, by simp [isTimer, Timer.advance], ?_⟩,
        fun waits => absurd rfl waits, fun owner timer waits => by cases waits⟩
      simp only [waits, reduceCtorEq, if_false, if_true] at deadline ⊢
      rw [Fin.val_add, deadline, Nat.mod_add_mod, TimerBook.deadline_succ]

/-- What a periodic timer promises in a state of its run. -/
structure Punctual (config : Config n) (state : RtosTimerMachine n V) (book : TimerBook) : Prop where
  /-- The next `wait` sleeps until the creation tick and as many periods as there are calls. -/
  sleepsUntil : ∀ next, state.perform config.idle .wait = some (.ok next) →
    book.deadline (book.waits + 1) < 2 ^ 64 → ∃ owner deadline, next.waiter = some owner ∧
      (next.machine.kernel.tcb owner).state = .sleeping deadline ∧
      deadline.val = book.deadline (book.waits + 1)
  /-- A step that ends the sleep of a `wait` is a tick, and `TICK` has reached the deadline. -/
  notBefore : ∀ owner action next, state.waiter = some owner → book.deadline book.waits < 2 ^ 64 →
    state.perform config.idle action = some (.ok next) →
    (state.machine.kernel.tcb owner).state.runnable = false →
    (next.machine.kernel.tcb owner).state.runnable = true →
    action = .machine .tick ∧ book.deadline book.waits ≤ next.machine.kernel.tickCount.val
  /-- A `wait` called in time sleeps up to the tick that reaches the deadline, and that tick
  makes it ready if it finds a task running. -/
  onTime : ∀ owner next, state.waiter = some owner → book.deadline book.waits < 2 ^ 64 →
    book.asked.val + (book.counted + 1) = book.deadline book.waits →
    state.perform config.idle (.machine .tick) = some (.ok next) →
    state.machine.kernel.CurrentRunning →
    next.machine.kernel.tickCount.val = book.deadline book.waits ∧
      (state.machine.kernel.tcb owner).state.isReady = false ∧
      (next.machine.kernel.tcb owner).state.isReady = true

/-- Inside `wait` the deadline is the one the calls so far add up to. -/
theorem Kept.deadline_eq (kept : Kept state book) {owner : Fin n} (waits : state.waiter = some owner)
    (fits : book.deadline book.waits < 2 ^ 64) :
    ∃ timer, state.timer = some timer ∧ timer.next.val = book.deadline book.waits := by
  obtain ⟨⟨next, isTimer, isDeadline⟩, _, _⟩ := kept
  refine ⟨_, isTimer, ?_⟩
  rw [isDeadline, waits, if_neg (by simp), Nat.mod_eq_of_lt fits]

/-- A periodic timer keeps its promises in every reachable state. -/
theorem periodic_timer_punctual (reachable : (withBook config V).Reachable (state, some book)) :
    Punctual config state book := by
  have kept : Kept state book := kept_of_reachable reachable book rfl
  have reached : (RepMachine.system config V).Reachable state.machine :=
    Config.reachable_machine reachable.of_observed
  constructor
  · intro next performed fits
    obtain ⟨deadline, isTimer, isDeadline⟩ := kept.timer
    cases TimerMachine.step_of_perform performed with
    | wait created free isTask user stepped =>
        obtain ⟨owner, isOwner, sleeps⟩ := RepMachine.sleepUntil_step stepped
        cases isTimer.symm.trans created
        refine ⟨owner, deadline, isTask.symm.trans isOwner, sleeps, ?_⟩
        rw [isDeadline, free, if_pos rfl, Nat.mod_eq_of_lt fits]
  · intro owner action next waits fits performed asleep runnable
    obtain ⟨timer, isTimer, isDeadline⟩ := kept.deadline_eq waits fits
    have sleeps : (state.machine.kernel.tcb owner).state = .sleeping timer.next :=
      (kept.inside owner timer waits isTimer).resolve_right (by simp [asleep])
    cases TimerMachine.step_of_perform performed with
    | machine may stepped =>
        rcases RepMachine.sleeping_step reached stepped sleeps with still | ⟨rfl, _, passed, _⟩
        · rw [still] at runnable
          cases runnable
        · exact ⟨rfl, isDeadline ▸ passed⟩
    | after free => simp [free] at waits
    | every free => simp [free] at waits
    | wait created free isTask user stepped => simp [free] at waits
    | waitRet _ isTask triggered => simp [asleep] at runnable
  · intro owner next waits fits reaches performed running
    obtain ⟨timer, isTimer, isDeadline⟩ := kept.deadline_eq waits fits
    cases TimerMachine.step_of_perform performed with
    | machine may stepped =>
        rename_i machine
        have sleeps : (state.machine.kernel.tcb owner).state = .sleeping timer.next :=
          (kept.inside owner timer waits isTimer).resolve_right (by omega)
        have clock := kept.clock (Option.ne_none_iff_exists'.mpr ⟨owner, waits⟩)
        have time : machine.kernel.tickCount.val = book.deadline book.waits := by
          rw [Kept.count_clock reached stepped clock]
          simp only [TimerBook.count]
          omega
        have passed : timer.next ≤ machine.kernel.tickCount := by
          rw [Fin.le_def, time, isDeadline]
        exact ⟨time, by rw [sleeps]; rfl, RepMachine.tick_wakes reached stepped running sleeps passed⟩

/-- Task 1 waits on a timer of two ticks, and the first of them has come. -/
def waitTwoTicks : List (TimerAction Unit) :=
  [.machine .launch, .every ⟨2⟩, .wait, .machine .trigger] ++
    List.replicate 10 (.machine (.pendsv 0)) ++ [.machine .tick]

/-- The second tick ends the wait. -/
theorem periodic_timer_punctual_two_ticks :
    ∃ (state next : RtosTimerMachine 4 Unit) (book : TimerBook), state.waiter = some 1 ∧
      state.perform 0 (.machine .tick) = some (.ok next) ∧ book.created = 0 ∧ book.period = 2 ∧
      Punctual (Config.small 10 20 30) state book ∧ next.machine.kernel.tickCount.val = 2 ∧
      (state.machine.kernel.tcb 1).state.isReady = false ∧
      (next.machine.kernel.tcb 1).state.isReady = true := by
  let noted (book : TimerBook) : Bool :=
    book.created = 0 ∧ book.period = 2 ∧ book.waits = 1 ∧ book.asked = 0 ∧ book.counted = 1
  let check (pair : RtosTimerMachine 4 Unit × Option TimerBook) : Bool :=
    pair.1.waiter = some 1 ∧ pair.2.any noted = true ∧
    pair.1.machine.kernel.current = some 2 ∧
    (pair.1.machine.kernel.tcb 2).state.isRunning = true ∧
    ((Config.small 10 20 30).nextTimer pair.1 (.machine .tick)).isSome = true
  obtain ⟨⟨state, noted?⟩, reachable, checked⟩ := Config.exists_of_timerPasses waitTwoTicks check
    (by decide +kernel : (Config.small 10 20 30).timerPasses none TimerBook.record waitTwoTicks
      check = true)
  obtain ⟨waits, isNoted, isCurrent, runs, happens⟩ := of_decide_eq_true checked
  obtain ⟨book, rfl, fits⟩ := (Option.any_eq_true _ _).mp isNoted
  obtain ⟨created, period, count, asked, counted⟩ := of_decide_eq_true fits
  obtain ⟨next, happened⟩ := Option.isSome_iff_exists.mp happens
  have performed := Config.nextTimer_step state _ next happened
  have punctual := periodic_timer_punctual reachable
  have deadline : book.deadline book.waits = 2 := by
    simp [TimerBook.deadline, created, period, count]
  obtain ⟨time, asleep, ready⟩ := punctual.onTime 1 next waits (by omega)
    (by rw [deadline, asked, counted]; rfl) performed ⟨2, isCurrent, runs⟩
  exact ⟨state, next, book, waits, performed, created, period, punctual, time.trans deadline,
    asleep, ready⟩

end RtosTimerMachine

end Kangaroos
