import Kangaroos.Abstract.Slices
import Kangaroos.Observed
import Kangaroos.Proofs.ChannelFifo
import Kangaroos.Proofs.Dispatch
import Kangaroos.Proofs.PoolOwnership

/-!
# The turn after a used-up quantum

A turn ends with the quantum used up when `tick` asks for a rotation or the task calls
`yield_now`. PendSV then saves whatever slice is left, and nothing refreshes it until the task
runs again: `tick` has reloaded the slice, `yield_now` has set it to zero. So the next turn is
a full quantum after an expiry and ends with its first tick after a `yield_now`.
-/

namespace Kangaroos

/-- The turn of a task after a used-up quantum, as far as it has come. -/
structure Turn where
  /-- PendSV saved the task with all the ticks of a quantum. -/
  full : Bool
  /-- A tick of the turn found the slice used up and nobody to rotate to. -/
  reloaded : Bool := false
  /-- No tick of the turn found a more urgent task ready. -/
  quiet : Bool := true
  /-- The ticks that found the task running. -/
  ticks : Nat := 0

/-- Where a task stands with its quantum. -/
inductive Quantum where
  | plain
  | usedUp
  | due (full : Bool)
  | fresh (turn : Turn)

namespace Quantum

/-- A tick finds the task running. -/
def ticked (outranked preempt last : Bool) (quantum : Quantum) : Quantum :=
  if preempt && !outranked then .usedUp
  else
    match quantum with
    | fresh turn => .fresh { turn with
        reloaded := turn.reloaded || (last && !outranked)
        quiet := turn.quiet && !outranked
        ticks := turn.ticks + 1 }
    | other => other

/-- PendSV saves the task: a turn ends when its task has used its quantum up or stopped. -/
def saved (running full : Bool) : Quantum → Quantum
  | usedUp => .due full
  | fresh turn => if running then .fresh turn else .plain
  | other => other

/-- PendSV has chosen a task. A task that is chosen again goes on with its turn. -/
def dispatched (chosen : Bool) : Quantum → Quantum
  | due full => if chosen then .fresh { full } else .due full
  | fresh turn => if chosen then .fresh turn else .plain
  | other => other

variable {n : Nat} {V Link Head : Type}

/-- What a step means for the quantum of `task`. -/
def note (order : List (Fin n)) (task : Fin n) (machine : Machine n V Link Head)
    (action : Action V) (quantum : Quantum) : Quantum :=
  let tcb := machine.kernel.tcb task
  match action with
  | .tick =>
    match machine.kernel.tick with
    | .ok (next, preempt) =>
      if tcb.state.isRunning then
        quantum.ticked (next.rival task (next.tcb task).priority order) preempt
          (tcb.state.sliceRemaining.any fun slice => slice.val ≤ 1)
      else quantum
    | .error _ => quantum
  | .call .yieldNow => if machine.kernel.current = some task then .usedUp else quantum
  | .pendsv _ =>
    match machine.handler with
    | .entered =>
      if machine.kernel.current = some task then
        quantum.saved tcb.state.isRunning
          (tcb.state.sliceRemaining.any fun slice => tcb.timeSlice.val ≤ max slice.val 1)
      else quantum
    | .selected chosen => quantum.dispatched (chosen = task)
    | _ => quantum
  | _ => quantum

end Quantum

/-- With `slice` left in a turn no more urgent task has disturbed, its ticks come to a whole
quantum just when it began with one or was reloaded. -/
def Turn.Fits (turn : Turn) (timeSlice slice : U8) : Prop :=
  turn.quiet = true → ((turn.full = true ∨ turn.reloaded = true) ↔
    timeSlice.val ≤ max slice.val 1 + turn.ticks)

namespace SpecMachine

variable {n : Nat} {V : Type} {config : Config n} {machine next : SpecMachine n V} {task : Fin n}
  {quantum : Quantum}

/-- What the books say of the state. -/
def Accounted (machine : SpecMachine n V) (task : Fin n) : Quantum → Prop
  | .plain => True
  | .usedUp => (machine.kernel.tcb task).state.isRunning = true ∧
      (machine.handler = .entered ∨ machine.handler = .inactive ∧
        ((machine.thread task).trig = true ∨ machine.pendsv = true))
  | .due full => machine.kernel.current ≠ none ∧ machine.handler ≠ .switched task ∧
      ∃ slice, (machine.kernel.tcb task).state = .ready slice ∧
        (full = true ↔ (machine.kernel.tcb task).timeSlice.val ≤ max slice.val 1)
  | .fresh turn => machine.kernel.current = some task ∧
      (∀ slice, (machine.kernel.tcb task).state = .running slice →
        turn.Fits (machine.kernel.tcb task).timeSlice slice) ∧
      (machine.handler ≠ .inactive → machine.handler ≠ .entered →
        ∃ slice, (machine.kernel.tcb task).state = .ready slice ∧
          turn.Fits (machine.kernel.tcb task).timeSlice slice)

/-- Steps that leave `CURRENT`, the handler and the slice of the task alone. -/
theorem Accounted.of_same (accounted : Accounted machine task quantum)
    (current : next.kernel.current = machine.kernel.current)
    (handler : next.handler = machine.handler)
    (pendsv : machine.pendsv = true → next.pendsv = true)
    (trig : (machine.thread task).trig = true →
      (next.thread task).trig = true ∨ next.pendsv = true)
    (timeSlice : (next.kernel.tcb task).timeSlice = (machine.kernel.tcb task).timeSlice)
    (state : (next.kernel.tcb task).state = (machine.kernel.tcb task).state ∨
      (machine.kernel.tcb task).state.runnable = false ∧
        (next.kernel.tcb task).state.isRunning = false) : Accounted next task quantum := by
  have ready : ∀ slice, (machine.kernel.tcb task).state = .ready slice →
      (next.kernel.tcb task).state = .ready slice := by
    intro slice isReady
    rcases state with same | ⟨asleep, _⟩
    · exact same.trans isReady
    · rw [isReady] at asleep
      cases asleep
  cases quantum with
  | plain => trivial
  | usedUp =>
      obtain ⟨runs, soon⟩ := accounted
      refine ⟨?_, ?_⟩
      · rcases state with same | ⟨asleep, _⟩
        · rwa [same]
        · rw [TaskState.runnable, runs, Bool.or_true] at asleep
          cases asleep
      · rw [handler]
        refine soon.imp_right fun waits => ⟨waits.1, ?_⟩
        rcases waits.2 with triggers | pends
        · exact trig triggers
        · exact .inr (pendsv pends)
  | due full =>
      obtain ⟨launched, unswitched, slice, isReady, whole⟩ := accounted
      rw [Accounted, current, handler, timeSlice]
      exact ⟨launched, unswitched, slice, ready slice isReady, whole⟩
  | fresh turn =>
      obtain ⟨isCurrent, running, searched⟩ := accounted
      rw [Accounted, current, handler, timeSlice]
      refine ⟨isCurrent, fun slice runs => ?_, fun active saved => ?_⟩
      · rcases state with same | ⟨_, stopped⟩
        · exact running slice (same.symm.trans runs)
        · rw [runs] at stopped
          cases stopped
      · obtain ⟨slice, isReady, fits⟩ := searched active saved
        exact ⟨slice, ready slice isReady, fits⟩

/-- A running task is past no save. -/
theorem Core.handler_of_running (core : Core config machine)
    (runs : (machine.kernel.tcb task).state.isRunning = true) :
    machine.handler = .inactive ∨ machine.handler = .entered := by
  by_contra other
  rw [not_or] at other
  rw [core.stopped_of_phase other.1 other.2 task] at runs
  cases runs

/-- The three outcomes of a tick that finds the task running. -/
theorem Core.tick_cases (core : Core config machine) {slice : U8} {kernel : Spec n V}
    {preempt : Bool} (runs : (machine.kernel.tcb task).state = .running slice)
    (returned : machine.kernel.tick = .ok (kernel, preempt)) :
    kernel.current = some task ∧
    (kernel.tcb task).timeSlice = (machine.kernel.tcb task).timeSlice ∧
    (kernel.rival task (kernel.tcb task).priority config.order = true ∧ preempt = true ∧
        (kernel.tcb task).state = .running slice ∨
      kernel.rival task (kernel.tcb task).priority config.order = false ∧ 1 < slice.val ∧
        preempt = false ∧ (kernel.tcb task).state = .running (slice - 1) ∨
      kernel.rival task (kernel.tcb task).priority config.order = false ∧ slice.val ≤ 1 ∧
        (kernel.tcb task).state = .running (machine.kernel.tcb task).timeSlice) := by
  have isCurrent := core.running task (by rw [runs]; rfl)
  obtain ⟨result, ticks, ticked⟩ := Kernel.tick_running core.chain isCurrent runs
  obtain rfl : result = (kernel, preempt) := Except.ok.inj (ticks.symm.trans returned)
  have work := ticked.work
  refine ⟨(congrArg Statics.current ticked.others.1).trans isCurrent, ?_⟩
  by_cases outranked : kernel.Outranked config.order task
  · obtain ⟨set, same⟩ := work.preempted outranked
    exact ⟨by rw [same], .inl ⟨Kernel.rival_iff.mpr outranked, set, by rw [same, runs]⟩⟩
  · have leading : kernel.rival task (kernel.tcb task).priority config.order = false := by
      rw [Bool.eq_false_iff]
      exact fun urgent => outranked (Kernel.rival_iff.mp urgent)
    by_cases used : slice.val ≤ 1
    · obtain ⟨_, same⟩ := work.reloaded outranked used
      exact ⟨by rw [same], .inr (.inr ⟨leading, used, by rw [same]⟩)⟩
    · obtain ⟨unset, same⟩ := work.counted outranked (not_le.mp used)
      exact ⟨by rw [same], .inr (.inl ⟨leading, not_le.mp used, unset, by rw [same]⟩)⟩

/-- Each of them keeps the account of the turn. -/
theorem Core.accounted_ticked (core : Core config machine) (accounted : Accounted machine task quantum)
    {slice : U8} {kernel : Spec n V} {preempt : Bool}
    (runs : (machine.kernel.tcb task).state = .running slice)
    (returned : machine.kernel.tick = .ok (kernel, preempt)) :
    Accounted { machine with kernel, pendsv := machine.pendsv || preempt } task
      (quantum.ticked (kernel.rival task (kernel.tcb task).priority config.order) preempt
        (slice.val ≤ 1)) := by
  have handler := core.handler_of_running (show (machine.kernel.tcb task).state.isRunning = true by
    rw [runs]; rfl)
  obtain ⟨current, timeSlice, cases⟩ := core.tick_cases runs returned
  have stillRuns : (kernel.tcb task).state.isRunning = true := by
    rcases cases with ⟨_, _, left⟩ | ⟨_, _, _, left⟩ | ⟨_, _, left⟩ <;> rw [left] <;> rfl
  unfold Quantum.ticked
  split
  · rename_i rotates
    obtain ⟨rfl, _⟩ := Bool.and_eq_true_iff.mp rotates
    refine ⟨stillRuns, ?_⟩
    rcases handler with inactive | entered
    · exact .inr ⟨inactive, .inr (Bool.or_true _)⟩
    · exact .inl entered
  · rename_i stays
    cases quantum with
    | plain => trivial
    | usedUp =>
        refine ⟨stillRuns, accounted.2.imp_right fun waits => ⟨waits.1, ?_⟩⟩
        exact waits.2.imp_right fun pends => by rw [pends]; rfl
    | due full =>
        obtain ⟨_, _, left, ready, _⟩ := accounted
        cases ready.symm.trans runs
    | fresh turn =>
        obtain ⟨_, running, _⟩ := accounted
        have fits := running slice runs
        refine ⟨current, fun left runsOn => ?_, fun active saved => ?_⟩
        · intro quiet
          simp only [Bool.and_eq_true] at quiet
          have whole := fits quiet.1
          show _ ↔ (kernel.tcb task).timeSlice.val ≤ max left.val 1 + (turn.ticks + 1)
          rw [timeSlice]
          rcases cases with ⟨urgent, _, _⟩ | ⟨_, remains, _, counted⟩ | ⟨leads, used, reloaded⟩
          · rw [urgent] at quiet
            cases quiet.2
          · obtain rfl := TaskState.running.inj (counted.symm.trans runsOn)
            have positive : 0 < slice := Nat.lt_trans Nat.zero_lt_one remains
            have one_less : (slice - 1).val = slice.val - 1 :=
              Fin.val_sub_one_of_ne_zero positive.ne'
            rw [decide_eq_false (not_le.mpr remains), Bool.false_and, Bool.or_false, whole, one_less]
            omega
          · obtain rfl := TaskState.running.inj (reloaded.symm.trans runsOn)
            rw [decide_eq_true used, leads]
            simp only [Bool.not_false, Bool.and_self, Bool.or_true, or_true, true_iff]
            omega
        · rcases handler with inactive | entered
          · exact absurd inactive active
          · exact absurd entered saved

/-- The steps of the search look at tasks and change none. -/
theorem Accounted.of_search (accounted : Accounted machine task quantum) (kernel : next.kernel = machine.kernel)
    (active : machine.handler ≠ .inactive) (saved : machine.handler ≠ .entered)
    (unswitched : next.handler ≠ .switched task) : Accounted next task quantum := by
  cases quantum with
  | plain => trivial
  | usedUp =>
      rcases accounted.2 with entered | ⟨inactive, _⟩
      · exact absurd entered saved
      · exact absurd inactive active
  | due full =>
      obtain ⟨launched, _, ready⟩ := accounted
      rw [Accounted, kernel]
      exact ⟨launched, unswitched, ready⟩
  | fresh turn =>
      obtain ⟨isCurrent, running, searched⟩ := accounted
      rw [Accounted, kernel]
      exact ⟨isCurrent, running, fun _ _ => searched active saved⟩

/-- Saving the task: a used-up quantum is exchanged for what the slice says. -/
theorem Accounted.saved (accounted : Accounted machine task quantum)
    {sp : Word} (isCurrent : machine.kernel.current = some task) {start best : TcbPtr n}
    {found : TcbPtr n × U8} :
    Accounted { machine with kernel := machine.kernel.saved task sp, handler := .pass1 start best found }
      task (quantum.saved (machine.kernel.tcb task).state.isRunning
        ((machine.kernel.tcb task).state.sliceRemaining.any fun slice =>
          (machine.kernel.tcb task).timeSlice.val ≤ max slice.val 1)) := by
  have launched : (machine.kernel.saved task sp).current ≠ none := by
    rw [show (machine.kernel.saved task sp).current = some task from isCurrent]
    simp
  have timeSlice := (machine.kernel.saved_keeps task sp task).2.1
  have state : ((machine.kernel.saved task sp).tcb task).state =
      (machine.kernel.tcb task).state.saved := by
    simp [Kernel.saved]
  cases quantum with
  | plain => trivial
  | usedUp =>
      obtain ⟨slice, runs⟩ := TaskState.isRunning_iff.mp accounted.1
      refine ⟨launched, by simp, slice, ?_, ?_⟩
      · rw [show _ = TaskState.saved _ from state, runs]
        rfl
      · rw [show _ = (machine.kernel.tcb task).timeSlice from timeSlice, runs]
        simp [TaskState.sliceRemaining]
  | due full =>
      obtain ⟨_, _, slice, ready, whole⟩ := accounted
      refine ⟨launched, by simp, slice, ?_, ?_⟩
      · rw [show _ = TaskState.saved _ from state, ready]
        rfl
      · rwa [show _ = (machine.kernel.tcb task).timeSlice from timeSlice]
  | fresh turn =>
      obtain ⟨_, running, _⟩ := accounted
      cases runs : (machine.kernel.tcb task).state with
      | running slice =>
          refine ⟨isCurrent, fun left runsOn => ?_, fun _ _ => ⟨slice, ?_, ?_⟩⟩
          · rw [show _ = TaskState.saved _ from state, runs] at runsOn
            cases runsOn
          · rw [show _ = TaskState.saved _ from state, runs]
            rfl
          · rw [show _ = (machine.kernel.tcb task).timeSlice from timeSlice]
            exact running slice runs
      | _ => trivial

/-- PendSV moves the account along. -/
theorem Core.accounted_switch (core : Core config machine) (accounted : Accounted machine task quantum)
    {sp : Word} (switches : Machine.SwitchStep machine sp next) :
    Accounted next task (quantum.note config.order task machine (.pendsv sp : Action V)) := by
  cases switches with
  | enter inactive pending =>
      simp only [Quantum.note, inactive]
      cases quantum with
      | plain => trivial
      | usedUp => exact ⟨accounted.1, .inl rfl⟩
      | due full => exact ⟨accounted.1, by simp, accounted.2.2⟩
      | fresh turn => exact ⟨accounted.1, accounted.2.1, fun _ saved => absurd rfl saved⟩
  | save entered saved =>
      rename_i kernel
      obtain ⟨current, isCurrent⟩ := Option.ne_none_iff_exists'.mp fun noCurrent => by
        rw [(core.fresh noCurrent).1] at entered
        cases entered
      obtain rfl : machine.kernel.saved current sp = kernel :=
        Except.ok.inj ((Kernel.saveCurrent_eq isCurrent).symm.trans saved)
      simp only [Quantum.note, entered]
      by_cases same : current = task
      · subst same
        rw [if_pos isCurrent]
        exact accounted.saved isCurrent
      · have other : machine.kernel.current ≠ some task := by
          rw [isCurrent]
          exact fun isTask => same (Option.some.inj isTask)
        rw [if_neg other]
        have untouched : (machine.kernel.saved current sp).tcb task = machine.kernel.tcb task := by
          simp [Kernel.saved, Ne.symm same]
        cases quantum with
        | plain => trivial
        | usedUp => exact absurd (core.running task accounted.1) other
        | due full =>
            obtain ⟨launched, _, ready⟩ := accounted
            refine ⟨launched, by simp, ?_⟩
            rwa [show (machine.kernel.saved current sp).tcb task = _ from untouched]
        | fresh turn => exact absurd accounted.1 other
  | visit1 searching =>
      simp only [Quantum.note, searching]
      exact accounted.of_search rfl (by simp [searching]) (by simp [searching]) (by simp)
  | wrap searching =>
      simp only [Quantum.note, searching]
      exact accounted.of_search rfl (by simp [searching]) (by simp [searching]) (by simp)
  | visit2 searching notStart =>
      simp only [Quantum.note, searching]
      exact accounted.of_search rfl (by simp [searching]) (by simp [searching]) (by simp)
  | select searching atEnd found =>
      simp only [Quantum.note, searching]
      exact accounted.of_search rfl (by simp [searching]) (by simp [searching]) (by simp)
  | switch selected =>
      rename_i chosen
      simp only [Quantum.note, selected]
      cases quantum with
      | plain => trivial
      | usedUp =>
          rcases accounted.2 with entered | ⟨inactive, _⟩
          · cases selected.symm.trans entered
          · cases selected.symm.trans inactive
      | due full =>
          obtain ⟨_, _, slice, ready, whole⟩ := accounted
          by_cases isTask : chosen = task
          · subst isTask
            simp only [decide_true, Quantum.dispatched, if_true]
            refine ⟨rfl, fun left runs => ?_, fun _ _ => ⟨slice, ready, fun _ => ?_⟩⟩
            · cases ready.symm.trans runs
            · simpa using whole
          · simp only [isTask, decide_false, Quantum.dispatched, Bool.false_eq_true, if_false]
            exact ⟨by simp, by simpa using isTask, slice, ready, whole⟩
      | fresh turn =>
          obtain ⟨_, running, searched⟩ := accounted
          by_cases isTask : chosen = task
          · subst isTask
            simp only [decide_true, Quantum.dispatched, if_true]
            exact ⟨rfl, running, fun _ _ => searched (by simp [selected]) (by simp [selected])⟩
          · simp only [isTask, decide_false, Quantum.dispatched, Bool.false_eq_true, if_false]
            trivial
  | finish switched marked =>
      rename_i chosen kernel
      have phase := core.phase
      rw [switched] at phase
      obtain ⟨_, ready, isCurrent⟩ := phase
      obtain ⟨moved, statics, runs, others⟩ := (Spec.markRunning_spec ready).of_ok marked
      simp only [Quantum.note, switched]
      cases quantum with
      | plain => trivial
      | usedUp =>
          rcases accounted.2 with entered | ⟨inactive, _⟩
          · cases switched.symm.trans entered
          · cases switched.symm.trans inactive
      | due full =>
          obtain ⟨launched, unswitched, ready⟩ := accounted
          have different : task ≠ chosen := by
            rintro rfl
            exact unswitched switched
          refine ⟨?_, by simp, ?_⟩
          · rwa [show kernel.current = _ from congrArg Statics.current statics]
          · rwa [show kernel.tcb task = _ from others task different]
      | fresh turn =>
          obtain ⟨isTask, running, searched⟩ := accounted
          obtain rfl : chosen = task := Option.some.inj (isCurrent.symm.trans isTask)
          obtain ⟨slice, readyTask, fits⟩ := searched (by simp [switched]) (by simp [switched])
          simp only [Kernel.markRunning, readyTask, Except.ok.injEq] at marked
          refine ⟨(congrArg Statics.current statics).trans isTask, fun left runsOn => ?_,
            fun active => absurd rfl active⟩
          subst marked
          simp only [Kernel.modifyTcb_tcb, Function.update_self, TaskState.running.injEq] at runsOn ⊢
          rwa [← runsOn]

/-- A call of the task itself: it is in the middle of a turn, and keeps its slice unless the call
is `yield_now`. -/
theorem Core.accounted_own (core : Core config machine) (accounted : Accounted machine task quantum)
    {call : Call V} {kernel : Spec n V} {outcome : Outcome} {pendsv : Bool}
    (isTask : machine.threadTask = some task) (triggered : (machine.thread task).trig = false)
    (keeps : call ≠ .yieldNow → Spec.KeepsSlice machine.kernel kernel task)
    (returned : call.run (some task) machine.kernel = .ok (kernel, outcome)) :
    Accounted { machine.setThread task ((machine.thread task).after call outcome) with kernel, pendsv }
      task (quantum.note config.order task machine (.call call)) := by
  obtain ⟨inactive, unpended, isCurrent⟩ := Machine.threadTask_eq_some.mp isTask
  have runs := core.task_running isTask triggered
  obtain ⟨_, effect, _⟩ := (core.call_contract isTask triggered returned).effect
  have unyielded : call ≠ .yieldNow → Accounted
      { machine.setThread task ((machine.thread task).after call outcome) with kernel, pendsv }
      task quantum := by
    intro notYield
    cases quantum with
    | plain => trivial
    | usedUp =>
        rcases accounted.2 with entered | ⟨_, triggers | pends⟩
        · cases inactive.symm.trans entered
        · cases triggered.symm.trans triggers
        · cases unpended.symm.trans pends
    | due full =>
        obtain ⟨_, _, slice, ready, _⟩ := accounted
        rw [ready] at runs
        cases runs
    | fresh turn =>
        obtain ⟨_, running, _⟩ := accounted
        refine ⟨effect.current.trans isCurrent, fun left runsOn => ?_,
          fun active => absurd inactive active⟩
        rw [show (kernel.tcb task).timeSlice = _ from (effect.fixed task).2.1]
        rcases keeps notYield with same | stopped
        · exact running left (same.symm.trans runsOn)
        · rw [show (kernel.tcb task).state = _ from runsOn] at stopped
          cases stopped
  cases call with
  | yieldNow =>
      obtain ⟨slice, runs⟩ := TaskState.isRunning_iff.mp runs
      simp only [Call.run, Kernel.yieldNow, isCurrent, deref_some, Except.ok_bind, runs,
        Except.ok.injEq, Prod.mk.injEq] at returned
      obtain ⟨rfl, rfl⟩ := returned
      simp only [Quantum.note, isCurrent, if_true]
      refine ⟨by simp, .inr ⟨inactive, .inl ?_⟩⟩
      simp [Machine.setThread, Thread.after]
  | _ => exact unyielded (by simp)

/-- Steps of a task between its calls. -/
theorem Accounted.of_thread (accounted : Accounted machine task quantum) {caller : Fin n}
    {thread : Thread} (triggered : (machine.thread caller).trig = false)
    (current : next.kernel.current = machine.kernel.current)
    (tcb : next.kernel.tcb = machine.kernel.tcb) (handler : next.handler = machine.handler)
    (pendsv : next.pendsv = machine.pendsv)
    (threads : next.thread = Function.update machine.thread caller thread) :
    Accounted next task quantum := by
  refine accounted.of_same current handler (fun pends => pendsv.trans pends) (fun triggers => ?_)
    (by rw [tcb]) (.inl (by rw [tcb]))
  have different : task ≠ caller := by
    rintro rfl
    cases triggered.symm.trans triggers
  exact .inl (by simpa [threads, different] using triggers)

/-- Every step keeps the account. -/
theorem Core.accounted_step (core : Core config machine) (accounted : Accounted machine task quantum)
    {action : Action V}
    (keeps : ∀ call kernel outcome, action = .call call → call ≠ .yieldNow →
      machine.threadTask = some task → (machine.thread task).trig = false →
      call.run (some task) machine.kernel = .ok (kernel, outcome) →
      Spec.KeepsSlice machine.kernel kernel task)
    (step : Machine.Step config.idle machine action next) :
    Accounted next task (quantum.note config.order task machine action) := by
  cases step with
  | launch fresh returned =>
      simp only [Quantum.note]
      cases quantum with
      | plain => trivial
      | usedUp =>
          cases fresh.symm.trans (core.running task accounted.1)
      | due full => exact absurd fresh accounted.1
      | fresh turn => cases fresh.symm.trans accounted.1
  | tick returned =>
      simp only [Quantum.note, returned]
      cases state : (machine.kernel.tcb task).state with
      | running slice =>
          simpa [state, TaskState.sliceRemaining] using core.accounted_ticked accounted state returned
      | _ =>
          have ticked := (Spec.tick_spec core.chain).of_ok returned
          have stopped : (machine.kernel.tcb task).state.isRunning = false := by rw [state]; rfl
          simp only [TaskState.isRunning, Bool.false_eq_true, if_false]
          refine accounted.of_same ticked.current rfl (fun pends => by simp [pends]) .inl
            (ticked.moved.fixed task).2.2.1 ?_
          by_cases isCurrent : machine.kernel.current = some task
          · left
            have paused := ticked.paused fun current isOther => by
              obtain rfl : task = current := Option.some.inj (isCurrent.symm.trans isOther)
              exact stopped
            exact congrArg (fun tcb => (tcb task).state) paused.1
          · rcases ticked.others task isCurrent with same | ⟨⟨deadline, sleeps⟩, slice, ready⟩
            · exact .inl same
            · exact .inr ⟨by rw [sleeps]; rfl, by rw [ready]; rfl⟩
  | pendsv switches => exact core.accounted_switch accounted switches
  | isr safe returned slots =>
      rename_i call kernel outcome isrSlots
      obtain ⟨_, effect, _⟩ := (core.isr_contract safe returned).effect
      refine accounted.of_same effect.current rfl (fun pends => by simp [pends]) .inl
        (effect.fixed task).2.1 ?_
      rcases effect.state task (by simp) with same | ⟨⟨list, _, blocked⟩, slice, ready⟩
      · exact .inl same
      · exact .inr ⟨by rw [blocked]; rfl, by rw [ready]; rfl⟩
  | isrRet assigned => exact accounted.of_same rfl rfl id .inl rfl (.inl rfl)
  | call isTask notIdle triggered may returned =>
      rename_i call caller kernel outcome
      by_cases own : caller = task
      · subst own
        exact core.accounted_own accounted isTask triggered
          (fun notYield => keeps call kernel outcome rfl notYield isTask triggered returned) returned
      · obtain ⟨_, effect, _⟩ := (core.call_contract isTask triggered returned).effect
        obtain ⟨_, unpended, isCurrent⟩ := Machine.threadTask_eq_some.mp isTask
        have unnoted : quantum.note config.order task machine (.call call) = quantum := by
          cases call with
          | yieldNow => simp [Quantum.note, isCurrent, own]
          | _ => rfl
        rw [unnoted]
        refine accounted.of_same effect.current rfl ?_ ?_ (effect.fixed task).2.1 ?_
        · exact fun pends => absurd (pends.symm.trans unpended) (by simp)
        · exact fun triggers => .inl (by simpa [Machine.setThread, Ne.symm own] using triggers)
        · rcases effect.state task (by simpa using own) with same | ⟨⟨list, _, blocked⟩, slice, ready⟩
          · exact .inl same
          · exact .inr ⟨by rw [blocked]; rfl, by rw [ready]; rfl⟩
  | trigger isTask untriggered => exact accounted.of_same rfl rfl (fun _ => rfl) (fun _ => .inr rfl) rfl (.inl rfl)
  | ret isTask triggered returns =>
      cases returns <;> exact accounted.of_thread triggered rfl rfl rfl rfl rfl
  | dropBox isTask notIdle triggered user live returned =>
      obtain ⟨_, _, rfl⟩ := Pool.destroy_ok returned
      exact accounted.of_thread triggered rfl rfl rfl rfl rfl
  | writeBox isTask notIdle triggered user live returned =>
      obtain ⟨_, _, rfl⟩ := Pool.write_ok returned
      exact accounted.of_same rfl rfl id .inl rfl (.inl rfl)
  | forgetGuard isTask notIdle triggered user held =>
      exact accounted.of_thread triggered rfl rfl rfl rfl rfl

/-- The books are right in every run. -/
theorem accounted_of_reachable (reachable : (config.withBooks V WaitList (List (Fin n)) .plain
    (Quantum.note config.order task)).Reachable (machine, quantum)) :
    Accounted machine task quantum := by
  refine reachable.observed_invariant (fun machine quantum => Accounted machine task quantum) ?_ ?_
  · rintro state ⟨kernel, boot, rfl⟩
    trivial
  · intro state action after quantum reached accounted performed
    have core := core_of_reachable reached
    refine core.accounted_step accounted ?_ (Machine.step_of_perform performed)
    intro call kernel outcome _ notYield isTask triggered returned
    refine Call.keepsSlice notYield core.wf (Machine.threadTask_eq_some.mp isTask).2.2
      (core.task_running isTask triggered) (fun id => ?_) (fun id => ?_) returned
    · obtain ⟨flight, contents, flowing⟩ := flowing_of_reachable reached id
      exact ⟨flight, contents, flowing.flows⟩
    · obtain ⟨free, pooled⟩ := pooled_of_reachable reached id
      exact ⟨free, pooled.stocked, fun slot => pooled.free_inBounds⟩

/-- A tick that rotates the task out ends a whole quantum just when the turn began with one or
was reloaded. -/
theorem Core.rotated (core : Core config machine) {turn : Turn} {kernel : Spec n V}
    (accounted : Accounted machine task (.fresh turn)) (quiet : turn.quiet = true)
    (runs : (machine.kernel.tcb task).state.isRunning = true)
    (returned : machine.kernel.tick = .ok (kernel, true))
    (leading : ¬ kernel.Outranked config.order task) :
    (machine.kernel.tcb task).timeSlice.val ≤ turn.ticks + 1 ↔
      turn.full = true ∨ turn.reloaded = true := by
  obtain ⟨slice, runs⟩ := TaskState.isRunning_iff.mp runs
  have whole := accounted.2.1 slice runs quiet
  obtain ⟨_, _, ⟨urgent, _⟩ | ⟨_, _, unset, _⟩ | ⟨_, used, _⟩⟩ := core.tick_cases runs returned
  · exact absurd (Kernel.rival_iff.mp urgent) leading
  · cases unset
  · rw [whole, max_eq_right used, Nat.add_comm]

end SpecMachine

namespace RepMachine

variable {n : Nat} {V : Type} {config : Config n} {machine : RtosMachine n V}
  {spec : SpecMachine n V} {task : Fin n} {turn : Turn}

theorem rival_eq {kernel : Rtos n V} {spec : Spec n V} (rep : Rep none kernel spec)
    (current : Fin n) (curPrio : U8) (tasks : List (Fin n)) :
    kernel.rival current curPrio tasks = spec.rival current curPrio tasks := by
  rw [Bool.eq_iff_iff, Kernel.rival_iff, Kernel.rival_iff]
  simp only [rep.isReady, rep.priority]

/-- The books note the same of the code and of the abstract machine. -/
theorem note_eq (rep : RepMachine machine spec) (order : List (Fin n)) (action : Action V) :
    Quantum.note order task machine action = Quantum.note order task spec action := by
  funext quantum
  have running := rep.kernel.isRunning task
  have timeSlice := rep.kernel.timeSlice task
  have remaining : (machine.kernel.tcb task).state.sliceRemaining =
      (spec.kernel.tcb task).state.sliceRemaining := by
    have same := rep.kernel.state task
    cases left : (machine.kernel.tcb task).state <;> cases right : (spec.kernel.tcb task).state <;>
      simp_all [TaskState.forget, TaskState.sliceRemaining]
  have current : machine.kernel.current = spec.kernel.current :=
    congrArg Statics.current rep.kernel.statics
  cases action with
  | tick =>
      have ticks := rep.kernel.tick
      unfold Quantum.note
      cases returned : spec.kernel.tick with
      | error fault =>
          rw [returned] at ticks
          cases returned' : machine.kernel.tick with
          | error fault' => rfl
          | ok result =>
              rw [returned'] at ticks
              exact ticks.elim
      | ok result =>
          obtain ⟨⟨next, preempt⟩, returned', related, rfl⟩ := ticks.of_ok_right returned
          have priority : (next.tcb task).priority = (result.1.tcb task).priority :=
            related.priority task
          simp only [returned', running, remaining, rival_eq related, priority]
  | pendsv sp => simp only [Quantum.note, rep.handler, current, running, remaining, timeSlice]
  | call call =>
      cases call with
      | yieldNow => simp only [Quantum.note, current]
      | _ => rfl
  | _ => rfl

/-- After a used-up quantum, a task that no more urgent one disturbs is not rotated out before
the last tick of a whole quantum, provided that PendSV has saved it with all its ticks or a tick of
the turn has reloaded its slice; otherwise it is. -/
theorem full_quantum {next : Rtos n V} (reachable : (config.withBooks V (TcbPtr n) (TcbPtr n) .plain
      (Quantum.note config.order task)).Reachable (machine, .fresh turn))
    (quiet : turn.quiet = true) (runs : (machine.kernel.tcb task).state.isRunning = true)
    (returned : machine.kernel.tick = .ok (next, true))
    (leading : ¬ next.Outranked config.order task) :
    (machine.kernel.tcb task).timeSlice.val ≤ turn.ticks + 1 ↔
      turn.full = true ∨ turn.reloaded = true := by
  obtain ⟨⟨spec, shared⟩, reach, rep, sameBook⟩ := ((simulation config V).observed .plain
    fun state action _ spec _ rep _ => note_eq rep config.order action).reachable reachable
  obtain rfl : .fresh turn = shared := sameBook
  obtain ⟨⟨nextSpec, preempt⟩, returnedSpec, related, rfl⟩ := rep.kernel.tick.of_ok returned
  rw [rep.kernel.timeSlice]
  refine (SpecMachine.core_of_reachable reach.of_observed).rotated
    (SpecMachine.accounted_of_reachable reach) quiet ?_ returnedSpec ?_
  · rwa [← rep.kernel.isRunning]
  · rintro ⟨other, listed, different, ready, urgent⟩
    rw [← related.isReady] at ready
    rw [← related.priority, ← related.priority] at urgent
    exact leading ⟨other, listed, different, ready, urgent⟩

/-- The turn of task 3 in the books, when the next tick rotates it out. -/
def lastTick (pair : RtosMachine 4 Nat × Quantum) : Option Turn :=
  match pair.2, pair.1.kernel.tick with
  | .fresh turn, .ok (next, true) =>
    if turn.quiet && (pair.1.kernel.tcb 3).state.isRunning &&
        !next.rival 3 (next.tcb 3).priority [0, 3, 2, 1] then some turn
    else none
  | _, _ => none

theorem lastTick_eq {pair : RtosMachine 4 Nat × Quantum} (rotates : lastTick pair = some turn) :
    pair.2 = .fresh turn ∧ turn.quiet = true ∧ (pair.1.kernel.tcb 3).state.isRunning = true ∧
      ∃ next, pair.1.kernel.tick = .ok (next, true) ∧ ¬ next.Outranked [0, 3, 2, 1] 3 := by
  unfold lastTick at rotates
  split at rotates
  · rename_i turn' next isFresh returned
    split at rotates
    · rename_i passes
      cases rotates
      simp only [Bool.and_eq_true, Bool.not_eq_true'] at passes
      obtain ⟨⟨quiet, runs⟩, leads⟩ := passes
      refine ⟨isFresh, quiet, runs, next, returned, fun outranked => ?_⟩
      exact absurd ((Kernel.rival_iff.mpr outranked).symm.trans leads) (by simp)
    · cases rotates
  · cases rotates

/-- Tasks 2 and 3 take turns. Task 3 has used up its five ticks, and is rotated out again by the
fifth tick of its next turn. -/
theorem full_quantum_expired : ∃ (machine : RtosMachine 4 Nat) (turn : Turn) (next : Rtos 4 Nat),
    ((Config.small 20 10 10).withBooks Nat (TcbPtr 4) (TcbPtr 4) .plain
      (Quantum.note [0, 3, 2, 1] 3)).Reachable (machine, .fresh turn) ∧
    machine.kernel.tick = .ok (next, true) ∧
    (machine.kernel.tcb 3).timeSlice.val ≤ turn.ticks + 1 := by
  let check (pair : RtosMachine 4 Nat × Quantum) : Bool :=
    (lastTick pair).any fun turn => turn.full
  obtain ⟨⟨machine, quantum⟩, reachable, checked⟩ := Machine.exists_of_checkNoting
    ([.launch] ++ List.replicate 5 .tick ++ List.replicate 10 (.pendsv 0) ++
      Config.thenSwitch .yieldNow ++ List.replicate 4 .tick) check
    (by decide +kernel : Machine.passesNoting (Config.small 20 10 10) .plain
      (Quantum.note [0, 3, 2, 1] 3) _ check = true)
  obtain ⟨turn, rotates, full⟩ := (Option.any_eq_true _ _).mp checked
  obtain ⟨rfl, quiet, runs, next, returned, leading⟩ := lastTick_eq rotates
  exact ⟨machine, turn, next, reachable, returned,
    (full_quantum reachable quiet runs returned leading).mpr (.inl full)⟩

/-- Task 3 has called `yield_now`, which sets its slice to zero. Its next turn, of a task with
`time_slice` 5, ends with the first tick. -/
theorem full_quantum_yielded : ∃ (machine : RtosMachine 4 Nat) (turn : Turn) (next : Rtos 4 Nat),
    ((Config.small 20 10 10).withBooks Nat (TcbPtr 4) (TcbPtr 4) .plain
      (Quantum.note [0, 3, 2, 1] 3)).Reachable (machine, .fresh turn) ∧
    turn.quiet = true ∧ (machine.kernel.tcb 3).state.isRunning = true ∧
    machine.kernel.tick = .ok (next, true) ∧ ¬ next.Outranked [0, 3, 2, 1] 3 ∧
    turn.ticks = 0 ∧ (machine.kernel.tcb 3).timeSlice = 5 := by
  let check (pair : RtosMachine 4 Nat × Quantum) : Bool :=
    (pair.1.kernel.tcb 3).timeSlice = 5 ∧ ((lastTick pair).any fun turn => turn.ticks = 0)
  obtain ⟨⟨machine, quantum⟩, reachable, checked⟩ := Machine.exists_of_checkNoting
    ([.launch] ++ Config.thenSwitch .yieldNow ++ Config.thenSwitch .yieldNow) check
    (by decide +kernel : Machine.passesNoting (Config.small 20 10 10) .plain
      (Quantum.note [0, 3, 2, 1] 3) _ check = true)
  obtain ⟨timeSlice, rotates⟩ := of_decide_eq_true checked
  obtain ⟨turn, rotates, first⟩ := (Option.any_eq_true _ _).mp rotates
  obtain ⟨rfl, quiet, runs, next, returned, leading⟩ := lastTick_eq rotates
  exact ⟨machine, turn, next, reachable, quiet, runs, returned, leading,
    of_decide_eq_true first, timeSlice⟩

end RepMachine

end Kangaroos
