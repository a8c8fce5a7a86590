import Kangaroos.Step
import Kangaroos.Timer

/-!
# The blinky example

Two tasks of priority 0 hand a token to and fro through two semaphores. Each prints a line when
it has got the token, sleeps for a second and passes it on. The program of a task restricts the
calls its machine may make; printing is a step between two calls.
-/

namespace Kangaroos

namespace Blinky

/-- What the tasks print; each task prints always the same. -/
inductive Beat where
  | tick
  | tock
  deriving DecidableEq

/-- `SEM_A` and `SEM_B`. -/
def semA : Nat := 0

def semB : Nat := 1

namespace Beat

/-- What the other task prints. -/
def other : Beat → Beat
  | tick => tock
  | tock => tick

/-- `task_a` prints `tick` and `task_b` prints `tock`. -/
def task : Beat → Fin 3
  | tick => 1
  | tock => 2

/-- What a task prints. -/
def ofTask : Fin 3 → Option Beat
  | 1 => some tick
  | 2 => some tock
  | _ => none

/-- The semaphore a task takes; it gives that of the other. -/
def own : Beat → Nat
  | tick => semA
  | tock => semB

end Beat

/-- The statements of the loop of a task, by the one it comes to next. -/
inductive Point where
  | take
  | hprintln
  | sleep
  | give
  deriving DecidableEq

/-- `Duration::from_secs(secs)` with the argument `main` passes to both tasks. -/
def pause : Duration := ⟨1 * ticksPerSec⟩

example (profile : Profile) : Duration.fromSecs profile 1 = .ok pause := by
  cases profile <;> rfl

/-- The calls of the loop, with the statement that follows. -/
def Point.advance (beat : Beat) : Point → Call Unit → Option Point
  | .take, .take id => if id = beat.own then some .hprintln else none
  | .sleep, .sleep duration => if duration = pause.asTicks then some .give else none
  | .give, .give id => if id = beat.other.own then some .take else none
  | _, _ => none

/-- A line on the console, and the tick it is printed in. -/
structure Line where
  beat : Beat
  stamp : U64
  deriving DecidableEq

/-- The tasks `main` spawns: 2048 bytes of stack, priority 0 and slices of 10 ticks each. -/
def tokens (stackA stackB : Word) : List (SpawnToken 3) :=
  [{ tcb := 1, stackPtr := stackA, stackLen := 2048 / 4, priority := 0, timeSlice := 10 },
   { tcb := 2, stackPtr := stackB, stackLen := 2048 / 4, priority := 0, timeSlice := 10 }]

theorem distinct (stackA stackB : Word) :
    ((0 : Fin 3) :: (tokens stackA stackB).map SpawnToken.tcb).Nodup := by
  show ([0, 1, 2] : List (Fin 3)).Nodup
  decide

/-- The system: `semaphore!(SEM_A, 1, 1)` and `semaphore!(SEM_B, 0, 1)`. -/
def config (stackA stackB : Word) : Config 3 where
  tokens := tokens stackA stackB
  idle := 0
  semaphore id := if id = semA then (1, 1) else (0, 1)
  channel _ := 1
  pool _ := 1
  distinct := distinct stackA stackB
  poolBound := Config.one_pool_slot

/-- The machine with the two programs, and the console, last line first. -/
structure State (Link Head : Type) where
  machine : Machine 3 Unit Link Head
  points : Beat → Point
  lines : List Line

/-- The steps: those of the machine, and a task that prints. -/
inductive Move where
  | machine (action : Action Unit)
  | hprintln

namespace State

variable {Link Head : Type}

/-- The task that executes its next statement: none while it has yet to trigger PendSV or to
return from a call. -/
def printing (state : State Link Head) : Option Beat := do
  let task ← state.machine.threadTask
  if (state.machine.thread task).trig = false ∧ (state.machine.thread task).pc = .user then
    Beat.ofTask task
  else none

/-- The statements the tasks come to next, after an action. There are no interrupt handlers but
SysTick, no boxes and no guards. -/
def pointsAfter (state : State Link Head) : Action Unit → Option (Beat → Point)
  | .launch | .tick | .pendsv _ | .trigger | .ret => some state.points
  | .call (.sleepUntil deadline) => do
    -- the second critical section of `sleep`
    let task ← state.machine.threadTask
    if (state.machine.thread task).pc = .sleepUntil deadline then some state.points else none
  | .call call => do
    let task ← state.machine.threadTask
    let beat ← Beat.ofTask task
    let point ← (state.points beat).advance beat call
    some (Function.update state.points beat point)
  | _ => none

variable [ops : WaitOps 3 Unit Link Head]

/-- Perform a step: `none` if it cannot happen in this state. -/
def perform (state : State Link Head) : Move → Option (Exec (State Link Head))
  | .machine action => do
    let points ← state.pointsAfter action
    let run ← state.machine.perform 0 action
    some (run.map fun machine => { state with machine, points })
  | .hprintln => do
    let beat ← state.printing
    if state.points beat = .hprintln then
      some (.ok { state with
        points := Function.update state.points beat .sleep
        lines := { beat, stamp := state.machine.kernel.tickCount } :: state.lines })
    else none

end State

/-- Both tasks at the head of their loops, and an empty console. -/
def start {Link Head : Type} (kernel : Kernel 3 Unit Link Head) : State Link Head where
  machine := Config.start Unit Link Head kernel
  points _ := .take
  lines := []

/-- The ticks in which a task that goes to sleep is due again before `TICK` wraps. -/
def BeforeWrap {Link Head : Type} (state : State Link Head) (_ : Move) : Prop :=
  state.machine.kernel.tickCount.val + pause.asTicks.val + 1 < 2 ^ 64

instance {Link Head : Type} (state : State Link Head) (move : Move) :
    Decidable (BeforeWrap state move) :=
  inferInstanceAs (Decidable (_ < _))

variable (Link Head : Type) [ops : WaitOps 3 Unit Link Head]

/-- The program as a transition system. -/
def system (stackA stackB : Word) : TransitionSystem (State Link Head) Move where
  initial state := ∃ kernel, (config stackA stackB).boot Unit Link Head = .ok kernel ∧
    state = start kernel
  step state move next := state.perform move = some (.ok next)

/-- Boot and perform a sequence of moves before the counter wraps. -/
def execute (stackA stackB : Word) (moves : List Move) : Option (State Link Head) := do
  let kernel ← ((config stackA stackB).boot Unit Link Head).toOption
  moves.foldlM (fun state move =>
    if BeforeWrap state move then TransitionSystem.succeeded (state.perform move) else none)
    (start kernel)

variable {Link Head}

/-- What an execution ends in is reachable. -/
theorem reachable_of_execute {stackA stackB : Word} {moves : List Move} {state : State Link Head}
    (executed : execute Link Head stackA stackB moves = some state) :
    ((system Link Head stackA stackB).restrict BeforeWrap).Reachable state := by
  unfold execute at executed
  obtain ⟨kernel, boot, executed⟩ := Option.bind_eq_some_iff.mp executed
  refine .of_foldlM ?_ (.initial ⟨kernel, ?_, rfl⟩) executed
  · intro state move next performed
    obtain ⟨before, performed⟩ := Option.ite_none_right_eq_some.mp performed
    exact ⟨before, TransitionSystem.succeeded_eq_some.mp performed⟩
  · cases booted : (config stackA stackB).boot Unit Link Head with
    | error fault => simp [booted, Except.toOption] at boot
    | ok started =>
        rw [booted] at boot
        cases boot
        rfl

end Blinky

end Kangaroos
