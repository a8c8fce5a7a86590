import Kangaroos.Abstract.Semaphores
import Kangaroos.Blinky
import Kangaroos.Proofs.TimerWaits
import Mathlib.Tactic.FinCases

/-!
# Tick and tock

There is one token in the blinky example: in one of the two semaphores, or with one of the two
tasks. Who has it prints, and the sleep between printing and passing it on sets the lines apart.
-/

namespace Kangaroos

namespace Blinky

namespace Beat

/-- What line number `index` says. -/
def nth (index : Nat) : Beat := if index % 2 = 0 then tick else tock

theorem nth_succ (index : Nat) : nth (index + 1) = (nth index).other := by
  unfold nth
  rcases Nat.mod_two_eq_zero_or_one index with even | odd
  · have next : (index + 1) % 2 = 1 := by omega
    simp [even, next, other]
  · have next : (index + 1) % 2 = 0 := by omega
    simp [odd, next, other]

@[simp] theorem other_other (beat : Beat) : beat.other.other = beat := by
  cases beat <;> rfl

theorem eq_or_other (beat turn : Beat) : beat = turn ∨ beat = turn.other := by
  cases beat <;> cases turn <;> simp [other]

@[simp] theorem other_ne (beat : Beat) : beat.other ≠ beat := by
  cases beat <;> simp [other]

@[simp] theorem task_inj {beat turn : Beat} : beat.task = turn.task ↔ beat = turn := by
  cases beat <;> cases turn <;> simp [task]

@[simp] theorem own_inj {beat turn : Beat} : beat.own = turn.own ↔ beat = turn := by
  cases beat <;> cases turn <;> simp [own, semA, semB]

theorem ofTask_eq_some {id : Fin 3} {beat : Beat} : ofTask id = some beat ↔ id = beat.task := by
  fin_cases id <;> cases beat <;> simp [ofTask, task]

/-- Every task but the idle task prints. -/
theorem exists_of_ne_idle {id : Fin 3} (notIdle : id ≠ 0) : ∃ beat : Beat, id = beat.task := by
  fin_cases id
  · simp at notIdle
  · exact ⟨tick, rfl⟩
  · exact ⟨tock, rfl⟩

end Beat

/-- The example on the kernel as coded. -/
abbrev RtosState := State (TcbPtr 3) (TcbPtr 3)

/-- The example on the kernel with lists. -/
abbrev SpecState := State WaitList (List (Fin 3))

section Steps

variable {Link Head : Type} [ops : WaitOps 3 Unit Link Head] {state next : State Link Head}

/-- The actions a task has no program point for. -/
def quiet : Action Unit → Bool
  | .launch | .tick | .pendsv _ | .trigger | .ret => true
  | _ => false

/-- The steps of the example, by what the programs do. -/
inductive Moved (state : State Link Head) : Move → State Link Head → Prop where
  | quiet {action machine} (isQuiet : quiet action = true)
      (performed : state.machine.perform 0 action = some (.ok machine)) :
      Moved state (.machine action) { state with machine }
  | sleepsUntil {task deadline machine} (isTask : state.machine.threadTask = some task)
      (pc : (state.machine.thread task).pc = .sleepUntil deadline)
      (performed : state.machine.perform 0 (.call (.sleepUntil deadline)) = some (.ok machine)) :
      Moved state (.machine (.call (.sleepUntil deadline))) { state with machine }
  | takes {beat machine} (isTask : state.machine.threadTask = some beat.task)
      (point : state.points beat = .take)
      (performed : state.machine.perform 0 (.call (.take beat.own)) = some (.ok machine)) :
      Moved state (.machine (.call (.take beat.own)))
        { state with machine, points := Function.update state.points beat .hprintln }
  | prints {beat} (isTask : state.machine.threadTask = some beat.task)
      (untriggered : (state.machine.thread beat.task).trig = false)
      (user : (state.machine.thread beat.task).pc = .user) (point : state.points beat = .hprintln) :
      Moved state .hprintln { state with
        points := Function.update state.points beat .sleep
        lines := { beat, stamp := state.machine.kernel.tickCount } :: state.lines }
  | sleeps {beat machine} (isTask : state.machine.threadTask = some beat.task)
      (point : state.points beat = .sleep)
      (performed : state.machine.perform 0 (.call (.sleep pause.asTicks)) = some (.ok machine)) :
      Moved state (.machine (.call (.sleep pause.asTicks)))
        { state with machine, points := Function.update state.points beat .give }
  | gives {beat machine} (isTask : state.machine.threadTask = some beat.task)
      (point : state.points beat = .give)
      (performed : state.machine.perform 0 (.call (.give beat.other.own)) = some (.ok machine)) :
      Moved state (.machine (.call (.give beat.other.own)))
        { state with machine, points := Function.update state.points beat .take }

/-- What a program asks for in a call. -/
theorem Point.advance_eq_some {beat : Beat} {point point' : Point} {call : Call Unit}
    (advances : point.advance beat call = some point') :
    point = .take ∧ call = .take beat.own ∧ point' = .hprintln ∨
      point = .sleep ∧ call = .sleep pause.asTicks ∧ point' = .give ∨
      point = .give ∧ call = .give beat.other.own ∧ point' = .take := by
  unfold Point.advance at advances
  split at advances <;> simp_all

/-- The machine performs its part of a step. -/
theorem State.of_perform_machine {action : Action Unit}
    (performed : state.perform (.machine action) = some (.ok next)) :
    ∃ points machine, state.pointsAfter action = some points ∧
      state.machine.perform 0 action = some (.ok machine) ∧
      next = { state with machine, points } := by
  obtain ⟨points, isPoints, rest⟩ := Option.bind_eq_some_iff.mp performed
  obtain ⟨run, isRun, rest⟩ := Option.bind_eq_some_iff.mp rest
  cases run with
  | error fault => cases rest
  | ok machine =>
      cases rest
      exact ⟨points, machine, isPoints, isRun, rfl⟩

/-- Every step is one of the cases. -/
theorem moved_of_perform {move : Move} (performed : state.perform move = some (.ok next)) :
    Moved state move next := by
  cases move with
  | hprintln =>
      obtain ⟨beat, isPrinting, rest⟩ := Option.bind_eq_some_iff.mp performed
      obtain ⟨point, rest⟩ := Option.ite_none_right_eq_some.mp rest
      obtain ⟨task, isTask, isBeat⟩ := Option.bind_eq_some_iff.mp isPrinting
      obtain ⟨⟨untriggered, user⟩, isBeat⟩ := Option.ite_none_right_eq_some.mp isBeat
      obtain rfl := Beat.ofTask_eq_some.mp isBeat
      cases rest
      exact .prints isTask untriggered user point
  | machine action =>
      obtain ⟨points, machine, isPoints, stepped, rfl⟩ := State.of_perform_machine performed
      unfold State.pointsAfter at isPoints
      split at isPoints
      any_goals
        cases isPoints
        exact .quiet rfl stepped
      · rename_i deadline
        obtain ⟨task, isTask, isPoints⟩ := Option.bind_eq_some_iff.mp isPoints
        obtain ⟨pc, isPoints⟩ := Option.ite_none_right_eq_some.mp isPoints
        cases isPoints
        exact .sleepsUntil isTask pc stepped
      · rename_i call notUntil
        obtain ⟨task, isTask, isPoints⟩ := Option.bind_eq_some_iff.mp isPoints
        obtain ⟨beat, isBeat, isPoints⟩ := Option.bind_eq_some_iff.mp isPoints
        obtain ⟨point', advances, isPoints⟩ := Option.bind_eq_some_iff.mp isPoints
        cases isPoints
        obtain rfl := Beat.ofTask_eq_some.mp isBeat
        obtain ⟨point, rfl, rfl⟩ | ⟨point, rfl, rfl⟩ | ⟨point, rfl, rfl⟩ :=
          Point.advance_eq_some advances
        · exact .takes isTask point stepped
        · exact .sleeps isTask point stepped
        · exact .gives isTask point stepped
      · cases isPoints

end Steps

/-- A task has the token from the `take` that gets it to the `give` that passes it on. -/
def State.holds {Link Head : Type} (state : State Link Head) (beat : Beat) : Bool :=
  decide (state.points beat ≠ .take) && !(state.machine.kernel.tcb beat.task).state.isBlocked

/-- The tokens of a semaphore and of the task that takes them. -/
def State.tokensOf {Link Head : Type} (state : State Link Head) (beat : Beat) : Nat :=
  (state.machine.kernel.semaphore beat.own).count.val + (state.holds beat).toNat

section Relay

variable {stackA stackB : Word} {state next : SpecState} {turn beat : Beat}

theorem holds_iff : state.holds beat = true ↔
    state.points beat ≠ .take ∧
      ∀ list, (state.machine.kernel.tcb beat.task).state ≠ .blocked list := by
  cases parked : (state.machine.kernel.tcb beat.task).state <;>
    simp [State.holds, parked, TaskState.isBlocked]

/-- A running task behind its `take` has the token. -/
theorem holds_of_running (runs : (state.machine.kernel.tcb beat.task).state.isRunning = true)
    (point : state.points beat ≠ .take) : state.holds beat = true := by
  rw [holds_iff]
  refine ⟨point, fun list blocked => ?_⟩
  simp [blocked] at runs

/-- What an invariant of the token needs of a step that does not touch it. -/
structure Calm (before after : Spec 3 Unit) : Prop where
  semaphore : after.semaphore = before.semaphore
  blocked : ∀ (beat : Beat) list, (after.tcb beat.task).state = .blocked list ↔
    (before.tcb beat.task).state = .blocked list

/-- The token is with `turn`: in the semaphore it takes, or in its hands. -/
structure Relay (state : SpecState) (turn : Beat) : Prop where
  limit : ∀ beat : Beat, (state.machine.kernel.semaphore beat.own).max = 1
  waits : ∀ (beat : Beat) list, (state.machine.kernel.tcb beat.task).state = .blocked list →
    list = .semaphore beat.own ∧ state.points beat = .hprintln
  away : (state.machine.kernel.semaphore turn.other.own).count = 0 ∧
    state.holds turn.other = false
  here : (state.machine.kernel.semaphore turn.own).count = 1 ∧ state.points turn = .take ∨
    (state.machine.kernel.semaphore turn.own).count = 0 ∧ state.holds turn = true
  due : Beat.nth state.lines.length =
    if state.points turn = .sleep ∨ state.points turn = .give then turn.other else turn
  printed : state.lines.reverse.map Line.beat = (List.range state.lines.length).map Beat.nth

namespace Relay

/-- Only who has the token gets to a point behind `take` without blocking. -/
theorem eq_turn (relay : Relay state turn) (holds : state.holds beat = true) : beat = turn := by
  rcases beat.eq_or_other turn with rfl | rfl
  · rfl
  · simp [relay.away.2] at holds

/-- The task without the token comes next to its `take`, or waits in it. -/
theorem idles (relay : Relay state turn) : state.points turn.other = .take ∨
    state.points turn.other = .hprintln ∧
      (state.machine.kernel.tcb turn.other.task).state = .blocked (.semaphore turn.other.own) := by
  by_cases waits : ∃ list, (state.machine.kernel.tcb turn.other.task).state = .blocked list
  · obtain ⟨list, blocked⟩ := waits
    obtain ⟨rfl, point⟩ := relay.waits turn.other list blocked
    exact .inr ⟨point, blocked⟩
  · by_contra elsewhere
    have holds : state.holds turn.other = true := by
      rw [holds_iff]
      exact ⟨fun take => elsewhere (.inl take), fun list blocked => waits ⟨list, blocked⟩⟩
    simp [relay.away.2] at holds

/-- The token waits for a task that does not wait for it. -/
theorem not_blocked (relay : Relay state turn) :
    (state.machine.kernel.tcb turn.task).state.isBlocked = false := by
  rw [Bool.eq_false_iff]
  intro isBlocked
  obtain ⟨list, blocked⟩ := TaskState.isBlocked_iff.mp isBlocked
  rcases relay.here with ⟨_, point⟩ | ⟨_, holds⟩
  · simpa [point] using (relay.waits turn list blocked).2
  · exact (holds_iff.mp holds).2 list blocked

/-- Whether a task has the token does not depend on which statement behind `take` it comes to. -/
theorem holds_congr (calm : Calm state.machine.kernel next.machine.kernel)
    (point : next.points beat = .take ↔ state.points beat = .take) :
    next.holds beat = state.holds beat := by
  rw [Bool.eq_iff_iff, holds_iff, holds_iff, ne_eq, point]
  simp only [ne_eq, calm.blocked]

/-- A calm step leaves the token where it is. -/
theorem keep (relay : Relay state turn) (calm : Calm state.machine.kernel next.machine.kernel)
    (points : ∀ beat, next.points beat = state.points beat ∨
      state.points beat = .sleep ∧ next.points beat = .give)
    (lines : next.lines = state.lines) : Relay next turn := by
  have taken : ∀ beat, next.points beat = .take ↔ state.points beat = .take := by
    intro beat
    rcases points beat with same | ⟨before, after⟩
    · rw [same]
    · simp [before, after]
  refine ⟨?_, ?_, ?_, ?_, ?_, ?_⟩
  · rw [calm.semaphore]
    exact relay.limit
  · intro beat list blocked
    obtain ⟨own, point⟩ := relay.waits beat list ((calm.blocked beat list).mp blocked)
    rcases points beat with same | ⟨before, _⟩
    · exact ⟨own, same.trans point⟩
    · simp [point] at before
  · rw [calm.semaphore, holds_congr calm (taken _)]
    exact relay.away
  · simpa only [calm.semaphore, holds_congr calm (taken turn), taken turn] using relay.here
  · have sleeping : (next.points turn = .sleep ∨ next.points turn = .give) ↔
        (state.points turn = .sleep ∨ state.points turn = .give) := by
      rcases points turn with same | ⟨before, after⟩
      · rw [same]
      · simp [before, after]
    simp only [lines, sleeping]
    exact relay.due
  · rw [lines]
    exact relay.printed

/-- Who prints has the token, and the line is the one that is due. -/
theorem print (relay : Relay state turn) (point : state.points turn = .hprintln)
    (holds : state.holds turn = true) (stamp : U64) :
    Relay { state with
      points := Function.update state.points turn .sleep
      lines := { beat := turn, stamp } :: state.lines } turn := by
  have due : Beat.nth state.lines.length = turn := by
    rw [relay.due]
    simp [point]
  refine ⟨relay.limit, ?_, ?_, ?_, ?_, ?_⟩
  · intro beat list blocked
    obtain ⟨own, at_⟩ := relay.waits beat list blocked
    have other : beat ≠ turn := by
      rintro rfl
      exact (holds_iff.mp holds).2 list blocked
    exact ⟨own, by simpa [other] using at_⟩
  · exact ⟨relay.away.1, by simpa [State.holds] using relay.away.2⟩
  · have count : (state.machine.kernel.semaphore turn.own).count = 0 := by
      simpa [holds, point] using relay.here
    refine .inr ⟨count, ?_⟩
    rw [holds_iff]
    exact ⟨by simp, (holds_iff.mp holds).2⟩
  · simp [Beat.nth_succ, due]
  · simp [relay.printed, List.range_succ, due]

/-- A `take` that finds the token gets it. -/
theorem take_available (relay : Relay state turn)
    (runs : (state.machine.kernel.tcb beat.task).state.isRunning = true)
    (point : state.points beat = .take)
    (available : 0 < (state.machine.kernel.semaphore beat.own).count)
    {machine : SpecMachine 3 Unit}
    (kernel : machine.kernel = state.machine.kernel.setSemaphore beat.own
      { state.machine.kernel.semaphore beat.own with
        count := (state.machine.kernel.semaphore beat.own).count - 1 }) :
    Relay { state with machine, points := Function.update state.points beat .hprintln } turn := by
  obtain rfl : beat = turn := by
    rcases beat.eq_or_other turn with same | rfl
    · exact same
    · rw [relay.away.1] at available
      exact absurd available (lt_irrefl _)
  have count : (state.machine.kernel.semaphore beat.own).count = 1 := by
    rcases relay.here with ⟨one, _⟩ | ⟨_, holds⟩
    · exact one
    · exact absurd point (holds_iff.mp holds).1
  refine ⟨?_, ?_, ⟨?_, ?_⟩, .inr ⟨?_, ?_⟩, ?_, relay.printed⟩
  · intro other
    by_cases same : other = beat
    · subst same
      simpa [kernel] using relay.limit other
    · simpa [kernel, same] using relay.limit other
  · intro other list blocked
    rw [kernel] at blocked
    obtain ⟨own, at_⟩ := relay.waits other list blocked
    have different : other ≠ beat := by
      rintro rfl
      simp [point] at at_
    exact ⟨own, by simpa [different] using at_⟩
  · simpa [kernel] using relay.away.1
  · simpa [State.holds, kernel] using relay.away.2
  · simp [kernel, count]
  · have notBlocked : ∀ list, (state.machine.kernel.tcb beat.task).state ≠ .blocked list := by
      intro list blocked
      simp [blocked] at runs
    rw [holds_iff]
    exact ⟨by simp, by simpa [kernel] using notBlocked⟩
  · simpa [point] using relay.due

/-- A `take` that finds no token blocks its caller. -/
theorem take_empty (relay : Relay state turn) (point : state.points beat = .take)
    (empty : (state.machine.kernel.semaphore beat.own).count = 0) {machine : SpecMachine 3 Unit}
    (kernel : machine.kernel =
      Spec.blockAndPush state.machine.kernel (.semaphore beat.own) beat.task) :
    Relay { state with machine, points := Function.update state.points beat .hprintln } turn := by
  obtain rfl : beat = turn.other := by
    rcases beat.eq_or_other turn with rfl | other
    · rcases relay.here with ⟨one, _⟩ | ⟨_, holds⟩
      · simp [empty] at one
      · exact absurd point (holds_iff.mp holds).1
    · exact other
  have semaphore : machine.kernel.semaphore = state.machine.kernel.semaphore := by
    rw [kernel]
    rfl
  have parked : (machine.kernel.tcb turn.other.task).state = .blocked (.semaphore turn.other.own) := by
    simp [kernel, Spec.blockAndPush]
  have others : ∀ other : Beat, other ≠ turn.other →
      machine.kernel.tcb other.task = state.machine.kernel.tcb other.task := by
    intro other different
    simp [kernel, Spec.blockAndPush, different]
  have same : turn ≠ turn.other := turn.other_ne.symm
  refine ⟨?_, ?_, ⟨?_, ?_⟩, ?_, ?_, relay.printed⟩
  · simpa only [semaphore] using relay.limit
  · intro other list blocked
    by_cases isOther : other = turn.other
    · subst isOther
      rw [parked] at blocked
      exact ⟨by simpa using blocked.symm, by simp⟩
    · rw [others other isOther] at blocked
      simpa [isOther] using relay.waits other list blocked
  · simpa only [semaphore] using relay.away.1
  · simp [State.holds, parked]
  · simpa [State.holds, semaphore, others turn same, same] using relay.here
  · simpa [same] using relay.due

/-- The task that gives does not wait, its semaphore is empty, and the next line is due from the
other. -/
theorem at_give (relay : Relay state turn) (point : state.points turn = .give)
    (holds : state.holds turn = true) :
    (∀ list, (state.machine.kernel.tcb turn.task).state ≠ .blocked list) ∧
      (state.machine.kernel.semaphore turn.own).count = 0 ∧
      Beat.nth state.lines.length = turn.other ∧
      state.points turn.other ≠ .sleep ∧ state.points turn.other ≠ .give := by
  refine ⟨(holds_iff.mp holds).2, by simpa [holds, point] using relay.here,
    by simpa [point] using relay.due, ?_⟩
  rcases relay.idles with take | ⟨hprintln, _⟩
  · simp [take]
  · simp [hprintln]

/-- A `give` hands the token to the task that waits. -/
theorem give_woken (relay : Relay state turn) (point : state.points turn = .give)
    (holds : state.holds turn = true)
    (waits : (state.machine.kernel.tcb turn.other.task).state =
      .blocked (.semaphore turn.other.own))
    {machine : SpecMachine 3 Unit}
    (kernel : machine.kernel =
      Spec.wake state.machine.kernel (.semaphore turn.other.own) turn.other.task) :
    Relay { state with machine, points := Function.update state.points turn .take } turn.other := by
  obtain ⟨notWaits, gone, due, idles⟩ := relay.at_give point holds
  have different : turn.other ≠ turn := turn.other_ne
  have at_ := (relay.waits turn.other _ waits).2
  have semaphore : machine.kernel.semaphore = state.machine.kernel.semaphore := by
    rw [kernel]
    rfl
  have woken : (machine.kernel.tcb turn.other.task).state.isBlocked = false := by
    simp [kernel, Spec.wake]
  have others : machine.kernel.tcb turn.task = state.machine.kernel.tcb turn.task := by
    simp [kernel, Spec.wake, different.symm]
  refine ⟨?_, ?_, ⟨?_, ?_⟩, .inr ⟨?_, ?_⟩, ?_, relay.printed⟩
  · simpa only [semaphore] using relay.limit
  · intro other list blocked
    rcases other.eq_or_other turn with rfl | rfl
    · rw [others] at blocked
      exact absurd blocked (notWaits list)
    · rw [show (machine.kernel.tcb turn.other.task).state = .blocked list from blocked] at woken
      cases woken
  · simpa [semaphore] using gone
  · simp [State.holds]
  · simpa only [semaphore] using relay.away.1
  · simp [State.holds, different, at_, woken]
  · simpa [different, idles] using due

/-- A `give` for which nobody waits puts the token into the semaphore. -/
theorem give_added (relay : Relay state turn) (point : state.points turn = .give)
    (holds : state.holds turn = true) (nobody : state.points turn.other = .take)
    {machine : SpecMachine 3 Unit}
    (kernel : machine.kernel = state.machine.kernel.setSemaphore turn.other.own
      { state.machine.kernel.semaphore turn.other.own with
        count := (state.machine.kernel.semaphore turn.other.own).count + 1 }) :
    Relay { state with machine, points := Function.update state.points turn .take } turn.other := by
  obtain ⟨notWaits, gone, due, idles⟩ := relay.at_give point holds
  have different : turn.other ≠ turn := turn.other_ne
  have others : machine.kernel.tcb = state.machine.kernel.tcb := by
    rw [kernel]
    rfl
  refine ⟨?_, ?_, ⟨?_, ?_⟩, .inl ⟨?_, ?_⟩, ?_, relay.printed⟩
  · intro other
    by_cases same : other = turn.other
    · subst same
      simpa [kernel] using relay.limit turn.other
    · simpa [kernel, same] using relay.limit other
  · intro other list blocked
    rw [others] at blocked
    obtain ⟨own, at_⟩ := relay.waits other list blocked
    have same : other ≠ turn := by
      rintro rfl
      exact notWaits list blocked
    exact ⟨own, by simpa [same] using at_⟩
  · simpa [kernel, different.symm] using gone
  · simp [State.holds]
  · simp [kernel, relay.away.1]
  · simpa [different] using nobody
  · simpa [different, idles] using due

/-- The task with the token passes it on: to the task that waits, or into the semaphore. -/
theorem give (relay : Relay state turn) (core : SpecMachine.Core (config stackA stackB) state.machine)
    (point : state.points turn = .give) (holds : state.holds turn = true)
    {machine : SpecMachine 3 Unit} {flag : Bool}
    (returned : Semaphore.give state.machine.kernel turn.other.own = .ok (machine.kernel, flag)) :
    Relay { state with machine, points := Function.update state.points turn .take } turn.other := by
  rcases Spec.give_cases returned with ⟨task, current, chosen, _, kernel, _⟩ | ⟨nobody, below | full⟩
  · have waits := core.wf.mem.mp (Spec.mem_of_mostUrgent chosen)
    have notIdle : task ≠ 0 := by
      rintro rfl
      have runnable := core.idle
      rw [show (config stackA stackB).idle = 0 from rfl, waits] at runnable
      cases runnable
    obtain ⟨beat, rfl⟩ := Beat.exists_of_ne_idle notIdle
    obtain rfl : turn.other = beat := by simpa using (relay.waits beat _ waits).1
    exact relay.give_woken point holds waits kernel
  · refine relay.give_added point holds ?_ below.2
    rcases relay.idles with take | ⟨_, blocked⟩
    · exact take
    · simpa [nobody] using core.wf.mem.mpr blocked
  · rw [relay.limit, relay.away.1] at full
    exact absurd full.1 (by decide)

/-- The scheduler's own steps and returns are calm. -/
theorem calm_of_quiet {machine : SpecMachine 3 Unit} {action : Action Unit}
    (isQuiet : quiet action = true) (moves : SpecMachine.Moves state.machine action machine) :
    Calm state.machine.kernel machine.kernel := by
  cases moves with
  | scheduled scheduled schedules =>
      obtain ⟨_, _, statics⟩ := scheduled.moved.statics
      refine ⟨by rw [statics], fun beat list => ?_⟩
      rcases scheduled.moved.state beat.task with same | ⟨before, after⟩
      · rw [same]
      · refine ⟨fun blocked => ?_, fun blocked => ?_⟩
        · simp [blocked, TaskState.runnable] at after
        · simp [blocked, TaskState.runnable] at before
  | ret runs returns => cases returns <;> exact ⟨rfl, fun _ _ => Iff.rfl⟩
  | _ => cases isQuiet

/-- A running task that goes to sleep is calm. -/
theorem calm_of_sleepUntil {machine : SpecMachine 3 Unit} {task : Fin 3} {deadline : U64}
    (runs : (state.machine.kernel.tcb task).state.isRunning = true)
    (kernel : machine.kernel = state.machine.kernel.setState task (.sleeping deadline)) :
    Calm state.machine.kernel machine.kernel := by
  refine ⟨by rw [kernel]; rfl, fun beat list => ?_⟩
  by_cases same : beat.task = task
  · subst same
    refine ⟨fun blocked => ?_, fun blocked => ?_⟩
    · simp [kernel] at blocked
    · simp [blocked] at runs
  · simp [kernel, same]

/-- A task that executes a section runs and executes it on the kernel. -/
theorem section_of_call {machine : SpecMachine 3 Unit} {task : Fin 3} {call : Call Unit}
    (core : SpecMachine.Core (config stackA stackB) state.machine)
    (isTask : state.machine.threadTask = some task)
    (performed : state.machine.perform 0 (.call call) = some (.ok machine)) :
    state.machine.kernel.current = some task ∧
      (state.machine.kernel.tcb task).state.isRunning = true ∧
      ∃ outcome, call.run (some task) state.machine.kernel = .ok (machine.kernel, outcome) := by
  cases Machine.step_of_perform performed with
  | call isCaller notIdle triggered may returned =>
      obtain rfl := Option.some.inj (isTask.symm.trans isCaller)
      exact ⟨(Machine.threadTask_eq_some.mp isTask).2.2, core.task_running isTask triggered, _,
        returned⟩

/-- The token is never lost and never doubled. -/
theorem step (relay : Relay state turn)
    (core : SpecMachine.Core (config stackA stackB) state.machine) {move : Move}
    (moved : Moved state move next) : ∃ turn, Relay next turn := by
  cases moved with
  | quiet isQuiet performed =>
      have calm := calm_of_quiet isQuiet (core.moves (Machine.step_of_perform performed))
      exact ⟨turn, relay.keep calm (fun _ => .inl rfl) rfl⟩
  | sleepsUntil isTask pc performed =>
      obtain ⟨isCurrent, runs, outcome, returned⟩ := section_of_call core isTask performed
      obtain ⟨slept, sleepsUntil, rest⟩ := Except.ok_of_bind returned
      simp only [Kernel.sleepUntil, isCurrent, deref_some, Except.ok_bind] at sleepsUntil
      cases sleepsUntil
      have kernel := congrArg Prod.fst (Except.ok.inj rest)
      exact ⟨turn, relay.keep (calm_of_sleepUntil runs kernel.symm) (fun _ => .inl rfl) rfl⟩
  | takes isTask point performed =>
      obtain ⟨isCurrent, runs, outcome, returned⟩ := section_of_call core isTask performed
      obtain ⟨⟨after, flag⟩, taken, rest⟩ := Except.ok_of_bind returned
      have kernel := congrArg Prod.fst (Except.ok.inj rest)
      refine ⟨turn, ?_⟩
      rcases Spec.take_cases isCurrent taken with ⟨available, taken⟩ | ⟨empty, blocked⟩
      · exact relay.take_available runs point available (kernel.symm.trans taken)
      · exact relay.take_empty point empty (kernel.symm.trans blocked)
  | @prints beat isTask untriggered user point =>
      have holds : state.holds beat = true :=
        holds_of_running (core.task_running isTask untriggered) (by simp [point])
      obtain rfl := relay.eq_turn holds
      exact ⟨beat, relay.print point holds _⟩
  | @sleeps beat machine isTask point performed =>
      obtain ⟨_, _, outcome, returned⟩ := section_of_call core isTask performed
      have kernel : state.machine.kernel = machine.kernel := congrArg Prod.fst (Except.ok.inj returned)
      refine ⟨turn, relay.keep ⟨by rw [kernel], fun _ _ => by rw [kernel]⟩ (fun other => ?_) rfl⟩
      by_cases same : other = beat
      · subst same
        exact .inr ⟨point, by simp⟩
      · exact .inl (by simp [same])
  | @gives beat machine isTask point performed =>
      obtain ⟨isCurrent, runs, outcome, returned⟩ := section_of_call core isTask performed
      obtain ⟨⟨after, flag⟩, given, rest⟩ := Except.ok_of_bind returned
      obtain rfl : after = machine.kernel := congrArg Prod.fst (Except.ok.inj rest)
      have holds : state.holds beat = true := holds_of_running runs (by simp [point])
      obtain rfl := relay.eq_turn holds
      exact ⟨beat.other, relay.give core point holds given⟩

/-- The token starts in `SEM_A`. -/
theorem start {kernel : Spec 3 Unit}
    (boot : (config stackA stackB).boot Unit WaitList (List (Fin 3)) = .ok kernel) :
    Relay (Blinky.start kernel) .tick := by
  have booted := Config.booted_of_boot boot
  have core := SpecMachine.core_of_booted booted
  obtain ⟨allTasks, statics⟩ := booted.statics
  have semaphore : kernel.semaphore =
      ((config stackA stackB).reset Unit WaitList (List (Fin 3))).semaphore := by rw [statics]
  have unset : kernel.current = none := by
    rw [statics]
    rfl
  have notBlocked : ∀ (beat : Beat) list, (kernel.tcb beat.task).state ≠ .blocked list :=
    fun beat list => (core.fresh unset).2.2 beat.task list
  refine ⟨?_, ?_, ⟨?_, ?_⟩, .inl ⟨?_, ?_⟩, ?_, rfl⟩
  · intro beat
    rw [show (Blinky.start kernel).machine.kernel.semaphore = _ from semaphore]
    cases beat <;> rfl
  · exact fun beat list blocked => absurd blocked (notBlocked beat list)
  · rw [show (Blinky.start kernel).machine.kernel.semaphore = _ from semaphore]
    rfl
  · rfl
  · rw [show (Blinky.start kernel).machine.kernel.semaphore = _ from semaphore]
    rfl
  · rfl
  · simp [Beat.nth, Blinky.start]

end Relay

end Relay

/-- The machine of the example runs like any other. -/
theorem machine_reachable {Link Head : Type} [ops : WaitOps 3 Unit Link Head] {stackA stackB : Word}
    {state : State Link Head} (reachable : (system Link Head stackA stackB).Reachable state) :
    ((config stackA stackB).system Unit Link Head).Reachable state.machine := by
  induction reachable with
  | initial start =>
      obtain ⟨kernel, boot, rfl⟩ := start
      exact .initial ⟨kernel, boot, rfl⟩
  | @step state move next _ performed ih =>
      cases move with
      | hprintln =>
          cases moved_of_perform performed
          exact ih
      | machine action =>
          obtain ⟨_, machine, _, stepped, rfl⟩ := State.of_perform_machine performed
          exact .step ih stepped

/-- In every reachable state of the example with lists someone has the token. -/
theorem exists_relay {stackA stackB : Word} {state : SpecState}
    (reachable : (system WaitList (List (Fin 3)) stackA stackB).Reachable state) :
    ∃ turn, Relay state turn := by
  refine reachable.invariant (fun state => ∃ turn, Relay state turn) ?_ ?_
  · rintro _ ⟨kernel, boot, rfl⟩
    exact ⟨.tick, .start boot⟩
  · rintro state move next reached ⟨turn, relay⟩ performed
    exact relay.step (SpecMachine.core_of_reachable (machine_reachable reached))
      (moved_of_perform performed)

/-- The examples on the two kernels differ in the machine only. -/
structure RepState (state : RtosState) (spec : SpecState) : Prop where
  machine : RepMachine state.machine spec.machine
  points : state.points = spec.points
  lines : state.lines = spec.lines

namespace RepState

variable {stackA stackB : Word} {state : RtosState} {spec : SpecState}

theorem pointsAfter_eq (rep : RepState state spec) (action : Action Unit) :
    state.pointsAfter action = spec.pointsAfter action := by
  unfold State.pointsAfter
  simp only [rep.points, rep.machine.threadTask_eq, rep.machine.thread]

theorem printing_eq (rep : RepState state spec) : state.printing = spec.printing := by
  simp only [State.printing, rep.machine.threadTask_eq, rep.machine.thread]

theorem isBlocked_eq (rep : RepState state spec) (task : Fin 3) :
    (state.machine.kernel.tcb task).state.isBlocked =
      (spec.machine.kernel.tcb task).state.isBlocked := by
  have same := rep.machine.kernel.state task
  cases left : (state.machine.kernel.tcb task).state <;>
    cases right : (spec.machine.kernel.tcb task).state <;>
    simp_all [TaskState.forget, TaskState.isBlocked]

theorem tokensOf_eq (rep : RepState state spec) (beat : Beat) :
    state.tokensOf beat = spec.tokensOf beat := by
  simp only [State.tokensOf, State.holds, rep.machine.kernel.statics, rep.points, rep.isBlocked_eq]

/-- The example on the kernel as coded refines the example on the kernel with lists. -/
theorem simulation (stackA stackB : Word) :
    TransitionSystem.Simulation (system (TcbPtr 3) (TcbPtr 3) stackA stackB)
      (system WaitList (List (Fin 3)) stackA stackB) RepState where
  initial := by
    rintro _ ⟨kernel, boot, rfl⟩
    obtain ⟨_, ⟨spec, booted, rfl⟩, related⟩ :=
      (RepMachine.simulation (config stackA stackB) Unit).initial _ ⟨kernel, boot, rfl⟩
    exact ⟨_, ⟨spec, booted, rfl⟩, related, rfl, rfl⟩
  step state move next spec rep reachable performed := by
    have core := SpecMachine.core_of_reachable (machine_reachable reachable)
    cases move with
    | machine action =>
        obtain ⟨points, machine, isPoints, stepped, rfl⟩ := State.of_perform_machine performed
        obtain ⟨after, stepped', related⟩ := rep.machine.perform_ok core stepped
        rw [rep.pointsAfter_eq] at isPoints
        refine ⟨{ spec with machine := after, points }, ?_, related, rfl, rep.lines⟩
        exact Option.bind_eq_some_iff.mpr ⟨points, isPoints,
          Option.bind_eq_some_iff.mpr ⟨.ok after, stepped', rfl⟩⟩
    | hprintln =>
        obtain ⟨beat, isPrinting, rest⟩ := Option.bind_eq_some_iff.mp performed
        obtain ⟨point, rest⟩ := Option.ite_none_right_eq_some.mp rest
        cases rest
        rw [rep.printing_eq] at isPrinting
        rw [rep.points] at point
        refine ⟨_, Option.bind_eq_some_iff.mpr ⟨beat, isPrinting, if_pos point⟩, rep.machine, ?_, ?_⟩
        · simp only [rep.points]
        · simp only [rep.lines, rep.machine.kernel.statics]

end RepState

variable {stackA stackB : Word} {state : RtosState}

/-- There is always one token: in one of the semaphores, or with a task that has taken it and has
yet to pass it on. The task the token is with or waits for is not blocked. The lines alternate,
`tick` first. -/
theorem alternates (reachable : (system (TcbPtr 3) (TcbPtr 3) stackA stackB).Reachable state) :
    (∃ turn : Beat, state.tokensOf turn = 1 ∧ state.tokensOf turn.other = 0 ∧
      (state.machine.kernel.tcb turn.task).state.isBlocked = false) ∧
    state.lines.reverse.map Line.beat = (List.range state.lines.length).map Beat.nth := by
  obtain ⟨spec, reach, rep⟩ := (RepState.simulation stackA stackB).reachable reachable
  obtain ⟨turn, relay⟩ := exists_relay reach
  refine ⟨⟨turn, ?_, ?_, ?_⟩, by simpa only [rep.lines] using relay.printed⟩
  · rw [rep.tokensOf_eq]
    rcases relay.here with ⟨count, point⟩ | ⟨count, holds⟩
    · simp [State.tokensOf, State.holds, count, point]
    · simp [State.tokensOf, count, holds]
  · rw [rep.tokensOf_eq]
    simp [State.tokensOf, relay.away.1, relay.away.2]
  · rw [rep.isBlocked_eq]
    exact relay.not_blocked

/-- Task 2 waits, task 1 prints and sleeps for 1000 ticks, and task 2 prints. -/
def twoLines : List Move :=
  let switch (actions : List (Action Unit)) : List Move :=
    actions.map .machine ++ List.replicate 9 (.machine (.pendsv 0))
  let line (calls : List (Call Unit)) : List Move :=
    calls.map (fun call => .machine (.call call)) ++ [.machine .ret, .hprintln]
  switch [.launch, .call (.take semB), .trigger] ++ line [.take semA] ++
    switch [.call (.sleep 1000), .call (.sleepUntil 1000), .trigger] ++
    List.replicate 1000 (.machine .tick) ++ switch [] ++
    switch [.call (.give semB), .call (.take semA), .trigger] ++ [.machine .ret, .hprintln]

theorem exists_two_lines : ∃ state : RtosState,
    ((system (TcbPtr 3) (TcbPtr 3) 0 0).restrict BeforeWrap).Reachable state ∧
      state.lines = [⟨.tock, 1000⟩, ⟨.tick, 0⟩] := by
  have executes : ((execute (TcbPtr 3) (TcbPtr 3) 0 0 twoLines).any fun state =>
      state.lines = [⟨.tock, 1000⟩, ⟨.tick, 0⟩]) = true := by decide +kernel
  obtain ⟨state, executed, lines⟩ := (Option.any_eq_true _ _).mp executes
  exact ⟨state, reachable_of_execute executed, of_decide_eq_true lines⟩

/-- The first two lines. -/
theorem alternates_two_lines : ∃ state : RtosState, state.lines.length = 2 ∧
    (∃ turn : Beat, state.tokensOf turn = 1 ∧ state.tokensOf turn.other = 0 ∧
      (state.machine.kernel.tcb turn.task).state.isBlocked = false) ∧
    state.lines.reverse.map Line.beat = (List.range state.lines.length).map Beat.nth := by
  obtain ⟨state, reachable, lines⟩ := exists_two_lines
  exact ⟨state, by simp [lines], alternates reachable.of_restrict⟩

end Blinky

end Kangaroos
