import Kangaroos.Logic.Observer
import Kangaroos.Step
import Kangaroos.Timer

/-!
# The machine with a timer

A `Timer` beside the machine, and the steps that use it. The timer is a variable of the
application; `wait` borrows it until it returns. Every other timer is part of the machine,
where it is a caller of `sleep_until`.
-/

namespace Kangaroos

/-- The machine, a timer once it is created, and the task inside its `wait`. -/
structure TimerMachine (n : Nat) (V Link Head : Type) where
  machine : Machine n V Link Head
  timer : Option Timer
  waiter : TcbPtr n

/-- The steps of the machine and of the timer. -/
inductive TimerAction (V : Type) where
  /-- A step that does not use the timer. -/
  | machine (action : Action V)
  /-- `Timer::after`, in any context. -/
  | after (delay : Duration)
  /-- `Timer::every`, in any context. -/
  | every (period : Duration)
  /-- The running task calls `Timer::wait`: its critical section. -/
  | wait
  /-- The running task returns from `Timer::wait`. -/
  | waitRet

/-- The instructions of application code and the returns to it. -/
def Action.application {V : Type} : Action V → Bool
  | .call _ | .ret | .dropBox _ _ | .writeBox _ _ _ | .forgetGuard _ => true
  | _ => false

namespace TimerMachine

variable {n : Nat} {V Link Head : Type}

/-- Inside `wait` a task runs no application code. -/
def may (state : TimerMachine n V Link Head) (action : Action V) : Prop :=
  action.application = true → state.machine.threadTask ≠ state.waiter

instance (state : TimerMachine n V Link Head) (action : Action V) : Decidable (state.may action) :=
  inferInstanceAs (Decidable (_ → _))

variable [ops : WaitOps n V Link Head]

/-- The state after a step of the machine. -/
def advanceMachine (state : TimerMachine n V Link Head) (waiter : TcbPtr n) (idle : Fin n)
    (action : Action V) : Option (Exec (TimerMachine n V Link Head)) :=
  match state.machine.perform idle action with
  | some (.ok machine) => some (.ok { state with machine, waiter })
  | some (.error fault) => some (.error fault)
  | none => none

/-- Perform an action: `none` if it cannot happen in this state. -/
def perform (idle : Fin n) (state : TimerMachine n V Link Head) (action : TimerAction V) :
    Option (Exec (TimerMachine n V Link Head)) :=
  match action with
  | .machine action =>
    if state.may action then state.advanceMachine state.waiter idle action else none
  | .after delay =>
    if state.waiter = none then
      some (.ok { state with timer := some (.after state.machine.kernel delay) })
    else none
  | .every period =>
    if state.waiter = none then
      some (.ok { state with timer := some (.every state.machine.kernel period) })
    else none
  | .wait =>
    match state.timer, state.machine.threadTask with
    | some timer, some task =>
      if state.waiter = none ∧ (state.machine.thread task).pc = .user then
        state.advanceMachine (some task) idle (.call timer.wait)
      else none
    | _, _ => none
  | .waitRet =>
    match state.waiter with
    | some task =>
      if state.machine.threadTask = some task ∧ (state.machine.thread task).trig = false then
        some (.ok { state with timer := state.timer.map Timer.advance, waiter := none })
      else none
    | none => none

/-- The steps, with their guards. -/
inductive Step (idle : Fin n) (state : TimerMachine n V Link Head) :
    TimerAction V → TimerMachine n V Link Head → Prop where
  | machine {action machine} (may : state.may action)
      (performed : state.machine.perform idle action = some (.ok machine)) :
      Step idle state (.machine action) { state with machine }
  | after {delay} (free : state.waiter = none) :
      Step idle state (.after delay)
        { state with timer := some (.after state.machine.kernel delay) }
  | every {period} (free : state.waiter = none) :
      Step idle state (.every period)
        { state with timer := some (.every state.machine.kernel period) }
  | wait {timer task machine} (created : state.timer = some timer) (free : state.waiter = none)
      (isTask : state.machine.threadTask = some task)
      (user : (state.machine.thread task).pc = .user)
      (performed : state.machine.perform idle (.call timer.wait) = some (.ok machine)) :
      Step idle state .wait { state with machine, waiter := some task }
  | waitRet {task} (waits : state.waiter = some task)
      (isTask : state.machine.threadTask = some task)
      (triggered : (state.machine.thread task).trig = false) :
      Step idle state .waitRet { state with timer := state.timer.map Timer.advance, waiter := none }

variable {idle : Fin n} {state next : TimerMachine n V Link Head}

theorem advanceMachine_ok {waiter : TcbPtr n} {action : Action V}
    (advanced : state.advanceMachine waiter idle action = some (.ok next)) :
    ∃ machine, state.machine.perform idle action = some (.ok machine) ∧
      next = { state with machine, waiter } := by
  unfold advanceMachine at advanced
  split at advanced
  · rename_i machine stepped
    cases advanced
    exact ⟨machine, stepped, rfl⟩
  · simp at advanced
  · cases advanced

/-- Every step the machine performs is one of the cases. -/
theorem step_of_perform {action : TimerAction V}
    (performed : state.perform idle action = some (.ok next)) : Step idle state action next := by
  cases action with
  | machine action =>
      obtain ⟨may, advanced⟩ := Option.ite_none_right_eq_some.mp performed
      obtain ⟨machine, stepped, rfl⟩ := advanceMachine_ok advanced
      exact .machine may stepped
  | after delay =>
      obtain ⟨free, created⟩ := Option.ite_none_right_eq_some.mp performed
      cases created
      exact .after free
  | every period =>
      obtain ⟨free, created⟩ := Option.ite_none_right_eq_some.mp performed
      cases created
      exact .every free
  | wait =>
      simp only [perform] at performed
      split at performed
      · rename_i timer task created isTask
        obtain ⟨⟨free, user⟩, advanced⟩ := Option.ite_none_right_eq_some.mp performed
        obtain ⟨machine, stepped, rfl⟩ := advanceMachine_ok advanced
        exact .wait created free isTask user stepped
      · cases performed
  | waitRet =>
      simp only [perform] at performed
      split at performed
      · rename_i task waits
        obtain ⟨⟨isTask, triggered⟩, returned⟩ := Option.ite_none_right_eq_some.mp performed
        cases returned
        exact .waitRet waits isTask triggered
      · cases performed

end TimerMachine

namespace Config

variable {n : Nat} (V Link Head : Type) [ops : WaitOps n V Link Head]

/-- The machine with a timer as a transition system: it starts booted, without a timer. -/
def timerSystem (config : Config n) :
    TransitionSystem (TimerMachine n V Link Head) (TimerAction V) where
  initial state :=
    (config.system V Link Head).initial state.machine ∧ state.timer = none ∧ state.waiter = none
  step state action next := state.perform config.idle action = some (.ok next)

variable {V Link Head}

/-- The timer only watches the machine. -/
theorem reachable_machine {config : Config n} {state : TimerMachine n V Link Head}
    (reachable : (config.timerSystem V Link Head).Reachable state) :
    (config.system V Link Head).Reachable state.machine := by
  refine reachable.invariant (fun state => (config.system V Link Head).Reachable state.machine) ?_ ?_
  · intro state start
    exact .initial start.1
  · intro state action next _ reached performed
    cases TimerMachine.step_of_perform performed with
    | machine may stepped => exact .step reached stepped
    | wait created free isTask user stepped => exact .step reached stepped
    | _ => exact reached

/-- The state after an action, if it happens. -/
def nextTimer (config : Config n) (state : TimerMachine n V Link Head) (action : TimerAction V) :
    Option (TimerMachine n V Link Head) :=
  match state.perform config.idle action with
  | some (.ok next) => some next
  | _ => none

theorem nextTimer_step {config : Config n} (state : TimerMachine n V Link Head)
    (action : TimerAction V) (next : TimerMachine n V Link Head)
    (happens : config.nextTimer state action = some next) :
    (config.timerSystem V Link Head).step state action next := by
  unfold nextTimer at happens
  split at happens
  · rename_i performed
    cases happens
    exact performed
  · cases happens

variable {History : Type} {blank : History}
  {record : TimerMachine n V Link Head → TimerAction V → TimerMachine n V Link Head → History → History}

/-- Boot and perform a sequence of actions, noting them, and check the state and the history at
the end. -/
def timerPasses (config : Config n) (blank : History)
    (record : TimerMachine n V Link Head → TimerAction V → TimerMachine n V Link Head → History →
      History) (actions : List (TimerAction V))
    (check : TimerMachine n V Link Head × History → Bool) : Bool :=
  match config.boot V Link Head with
  | .ok kernel =>
    (TransitionSystem.executeNoting config.nextTimer record
      ({ machine := start V Link Head kernel, timer := none, waiter := none }, blank) actions).any
      check
  | .error _ => false

/-- An execution that passes a check ends in a state and a history some run reaches. -/
theorem exists_of_timerPasses {config : Config n} (actions : List (TimerAction V))
    (check : TimerMachine n V Link Head × History → Bool)
    (passes : config.timerPasses blank record actions check = true) :
    ∃ pair, ((config.timerSystem V Link Head).observed blank record).Reachable pair ∧
      check pair = true := by
  unfold timerPasses at passes
  split at passes
  · rename_i kernel boot
    obtain ⟨pair, executed, checked⟩ := Option.any_eq_true _ _ |>.mp passes
    have initial : ((config.timerSystem V Link Head).observed blank record).Reachable
        ({ machine := start V Link Head kernel, timer := none, waiter := none }, blank) :=
      .initial ⟨⟨⟨kernel, boot, rfl⟩, rfl, rfl⟩, rfl⟩
    exact ⟨pair, .of_executeNoting nextTimer_step initial executed, checked⟩
  · cases passes

end Config

end Kangaroos
