import Kangaroos.Proofs.Blinky
import Mathlib.Data.List.Chain

/-!
# The pace of tick and tock

A task sleeps for a second between its line and its `give`, so the next line comes a second
later at the earliest, whatever interrupts arrive and however the tasks are scheduled.
-/

namespace Kangaroos

namespace Blinky

variable {stackA stackB : Word} {state next : RtosState} {beat : Beat} {wake : Nat}

/-- The task that prints is alone behind its `take`, and the line before was the other's. -/
theorem other_idles (reachable : (system (TcbPtr 3) (TcbPtr 3) stackA stackB).Reachable state)
    (isTask : state.machine.threadTask = some beat.task)
    (untriggered : (state.machine.thread beat.task).trig = false)
    (point : state.points beat = .hprintln) :
    (state.points beat.other = .take ∨ state.points beat.other = .hprintln) ∧
      ∀ line ∈ state.lines.head?, line.beat = beat.other := by
  obtain ⟨spec, reach, rep⟩ := (RepState.simulation stackA stackB).reachable reachable
  obtain ⟨turn, relay⟩ := exists_relay reach
  have core := SpecMachine.core_of_reachable (machine_reachable reach)
  rw [rep.machine.threadTask_eq] at isTask
  rw [rep.machine.thread] at untriggered
  rw [rep.points] at point ⊢
  have holds : spec.holds beat = true :=
    holds_of_running (core.task_running isTask untriggered) (by simp [point])
  obtain rfl := relay.eq_turn holds
  refine ⟨relay.idles.imp_right And.left, fun line isHead => ?_⟩
  rw [rep.lines] at isHead
  obtain ⟨rest, lines⟩ := List.head?_eq_some_iff.mp isHead
  have due : (Beat.nth rest.length).other = beat := by
    simpa [lines, point, Beat.nth_succ] using relay.due
  have printed := relay.printed
  simp only [lines, List.length_cons, List.reverse_cons, List.map_append, List.map_cons,
    List.map_nil, List.range_succ] at printed
  have last : line.beat = Beat.nth rest.length := by
    simpa using (List.append_inj' printed rfl).2
  rw [last, ← due, Beat.other_other]

/-- A task that is to sleep until `wake` at least before it goes on. -/
def State.Rests (state : RtosState) (beat : Beat) (wake : Nat) : Prop :=
  state.points beat = .sleep ∨ state.points beat = .give ∧ ∃ deadline : U64, wake ≤ deadline.val ∧
    ((state.machine.thread beat.task).pc = .sleepUntil deadline ∨
      (state.machine.kernel.tcb beat.task).state = .sleeping deadline)

/-- `TICK` as a number. -/
def State.now (state : RtosState) : Nat := state.machine.kernel.tickCount.val

/-- The quiet steps leave a task between the two sections of `sleep`. -/
theorem sleepUntil_of_quiet {machine after : RtosMachine 3 Unit} {action : Action Unit} {task : Fin 3}
    {deadline : U64} (isQuiet : quiet action = true)
    (performed : machine.perform 0 action = some (.ok after))
    (pc : (machine.thread task).pc = .sleepUntil deadline) :
    (after.thread task).pc = .sleepUntil deadline := by
  cases Machine.step_of_perform performed with
  | launch fresh returned => exact pc
  | tick returned => exact pc
  | pendsv switches => cases switches <;> exact pc
  | @trigger caller isTask untriggered =>
      by_cases same : task = caller
      · subst same
        simpa [Machine.setThread] using pc
      · simpa [Machine.setThread, same] using pc
  | @ret caller _ isTask triggered returns =>
      have other : task ≠ caller := by
        rintro rfl
        cases returns <;> simp_all
      cases returns <;> simpa [Machine.setThread, Machine.addBox, other] using pc
  | _ => cases isQuiet

/-- A section leaves the other tasks where they are. -/
theorem thread_of_call {machine after : RtosMachine 3 Unit} {call : Call Unit} {caller task : Fin 3}
    (isTask : machine.threadTask = some caller)
    (performed : machine.perform 0 (.call call) = some (.ok after)) (other : task ≠ caller) :
    after.thread task = machine.thread task := by
  cases Machine.step_of_perform performed with
  | call isCaller notIdle triggered may returned =>
      obtain rfl := Option.some.inj (isTask.symm.trans isCaller)
      simp [Machine.setThread, other]

/-- `sleep` computes its deadline. -/
theorem deadline_of_sleep {machine after : RtosMachine 3 Unit} {caller : Fin 3} {duration : U64}
    (isTask : machine.threadTask = some caller)
    (performed : machine.perform 0 (.call (.sleep duration)) = some (.ok after)) :
    ∃ deadline, deadline = machine.kernel.tickCount + duration ∧
      (after.thread caller).pc = .sleepUntil deadline := by
  cases Machine.step_of_perform performed with
  | call isCaller notIdle triggered may returned =>
      obtain rfl := Option.some.inj (isTask.symm.trans isCaller)
      cases returned
      exact ⟨_, rfl, by simp [Machine.setThread, Thread.after, Kernel.sleepDeadline]⟩

/-- A task gives while it runs, and not within another call. -/
theorem user_of_give {caller : Fin 3} {id : Nat} {machine : RtosMachine 3 Unit}
    (reachable : (system (TcbPtr 3) (TcbPtr 3) stackA stackB).Reachable state)
    (isTask : state.machine.threadTask = some caller)
    (performed : state.machine.perform 0 (.call (.give id)) = some (.ok machine)) :
    (state.machine.thread caller).pc = .user ∧
      (state.machine.kernel.tcb caller).state.isRunning = true := by
  cases Machine.step_of_perform performed with
  | call isCaller notIdle triggered may returned =>
      obtain rfl := Option.some.inj (isTask.symm.trans isCaller)
      exact ⟨by simpa [Thread.mayCall] using may,
        RepMachine.task_running (machine_reachable reachable) isTask triggered⟩

/-- The second between two lines: the task of the last line has it still before it, or has
waited for it. -/
structure Paced (state : RtosState) : Prop where
  past : ∀ line ∈ state.lines.head?, line.stamp.val ≤ state.now
  rests : ∀ line ∈ state.lines.head?, line.stamp.val + pause.asTicks.val ≤ state.now ∨
    state.Rests line.beat (line.stamp.val + pause.asTicks.val)
  spaced : state.lines.IsChain fun later earlier =>
    earlier.stamp.val + pause.asTicks.val ≤ later.stamp.val

namespace Paced

/-- A step that prints nothing. -/
theorem keep (paced : Paced state) (lines : next.lines = state.lines) (now : state.now ≤ next.now)
    (rests : ∀ beat wake, wake ≤ state.now + pause.asTicks.val → state.Rests beat wake →
      wake ≤ next.now ∨ next.Rests beat wake) : Paced next where
  past line isHead := (paced.past line (lines ▸ isHead)).trans now
  rests line isHead := by
    rw [lines] at isHead
    have past := paced.past line isHead
    rcases paced.rests line isHead with waited | still
    · exact .inl (waited.trans now)
    · exact rests line.beat _ (by omega) still
  spaced := lines ▸ paced.spaced

/-- What is left of a task's rest after a step that moves neither its program nor its thread. -/
theorem rests_of_same (reachable : (system (TcbPtr 3) (TcbPtr 3) stackA stackB).Reachable state)
    {action : Action Unit} (performed : state.machine.perform 0 action = some (.ok next.machine))
    (points : next.points beat = state.points beat)
    (pc : ∀ deadline, (state.machine.thread beat.task).pc = .sleepUntil deadline →
      (next.machine.thread beat.task).pc = .sleepUntil deadline ∨
        (next.machine.kernel.tcb beat.task).state = .sleeping deadline)
    (rests : state.Rests beat wake) : wake ≤ next.now ∨ next.Rests beat wake := by
  rcases rests with sleep | ⟨give, deadline, late, inside | asleep⟩
  · exact .inr (.inl (points.trans sleep))
  · exact .inr (.inr ⟨points.trans give, deadline, late, pc deadline inside⟩)
  · rcases RepMachine.sleeping_step (machine_reachable reachable) performed asleep with
      still | ⟨_, _, passed, _⟩
    · exact .inr (.inr ⟨points.trans give, deadline, late, .inr still⟩)
    · exact .inl (late.trans passed)

/-- What is left of a task's rest after a section of the other task. -/
theorem rests_of_other (reachable : (system (TcbPtr 3) (TcbPtr 3) stackA stackB).Reachable state)
    {caller : Beat} {call : Call Unit} (isTask : state.machine.threadTask = some caller.task)
    (performed : state.machine.perform 0 (.call call) = some (.ok next.machine))
    (points : next.points beat = state.points beat) (other : beat ≠ caller)
    (rests : state.Rests beat wake) : wake ≤ next.now ∨ next.Rests beat wake := by
  have kept := thread_of_call isTask performed (by simpa using other : beat.task ≠ caller.task)
  exact rests_of_same reachable performed points
    (fun deadline inside => .inl ((congrArg Thread.pc kept).trans inside)) rests

/-- The clock only advances, as long as it does not wrap. -/
theorem now_mono (reachable : (system (TcbPtr 3) (TcbPtr 3) stackA stackB).Reachable state)
    {action : Action Unit} (performed : state.machine.perform 0 action = some (.ok next.machine))
    (before : state.now + pause.asTicks.val + 1 < 2 ^ 64) : state.now ≤ next.now := by
  obtain ⟨ticks, others⟩ := RepMachine.tickCount_step (machine_reachable reachable) performed
  unfold State.now at before ⊢
  by_cases isTick : action = .tick
  · rw [ticks isTick, Fin.val_add_one_of_lt' (by omega)]
    omega
  · rw [others isTick]

/-- Every step before the wrap keeps the pace. -/
theorem step (paced : Paced state)
    (reachable : (system (TcbPtr 3) (TcbPtr 3) stackA stackB).Reachable state)
    (before : state.now + pause.asTicks.val + 1 < 2 ^ 64) {move : Move}
    (moved : Moved state move next) : Paced next := by
  cases moved with
  | quiet isQuiet performed =>
      refine paced.keep rfl (now_mono reachable performed before) fun beat wake _ rests => ?_
      exact rests_of_same reachable performed rfl
        (fun deadline pc => .inl (sleepUntil_of_quiet isQuiet performed pc)) rests
  | @sleepsUntil task deadline machine isTask pc performed =>
      refine paced.keep rfl (now_mono reachable performed before) fun beat wake _ rests => ?_
      refine rests_of_same reachable performed rfl (fun other inside => ?_) rests
      by_cases same : beat.task = task
      · subst same
        have slept : state.machine.perform (config stackA stackB).idle
            (.call (.sleepUntil deadline)) = some (.ok machine) := performed
        obtain ⟨owner, isOwner, asleep⟩ := RepMachine.sleepUntil_step slept
        obtain rfl := Option.some.inj (isTask.symm.trans isOwner)
        obtain rfl : deadline = other := by simpa [pc] using inside
        exact .inr asleep
      · exact .inl ((congrArg Thread.pc (thread_of_call isTask performed same)).trans inside)
  | @takes caller machine isTask point performed =>
      refine paced.keep rfl (now_mono reachable performed before) fun beat wake _ rests => ?_
      have other : beat ≠ caller := by
        rintro rfl
        simp [State.Rests, point] at rests
      exact rests_of_other reachable isTask performed (by simp [other]) other rests
  | @prints caller isTask untriggered user point =>
      obtain ⟨idles, isOther⟩ := other_idles reachable isTask untriggered point
      have waited : ∀ line ∈ state.lines.head?, line.stamp.val + pause.asTicks.val ≤ state.now := by
        intro line isHead
        rcases paced.rests line isHead with waited | still
        · exact waited
        · rw [isOther line isHead] at still
          rcases idles with take | hprintln <;> simp_all [State.Rests]
      refine ⟨?_, ?_, List.isChain_cons.mpr ⟨waited, paced.spaced⟩⟩
      · simp [State.now]
      · simp [State.Rests]
  | @sleeps caller machine isTask point performed =>
      refine paced.keep rfl (now_mono reachable performed before) fun beat wake soon rests => ?_
      by_cases same : beat = caller
      · subst same
        obtain ⟨deadline, isDeadline, pc⟩ := deadline_of_sleep isTask performed
        refine .inr (.inr ⟨by simp, deadline, ?_, .inl pc⟩)
        rwa [isDeadline, Fin.val_add_eq_of_add_lt (by unfold State.now at before; omega)]
      · exact rests_of_other reachable isTask performed (by simp [same]) same rests
  | @gives caller machine isTask point performed =>
      refine paced.keep rfl (now_mono reachable performed before) fun beat wake _ rests => ?_
      have other : beat ≠ caller := by
        rintro rfl
        obtain ⟨user, runs⟩ := user_of_give reachable isTask performed
        rcases rests with sleep | ⟨_, deadline, _, inside | asleep⟩
        · simp [point] at sleep
        · simp [user] at inside
        · simp [asleep] at runs
      exact rests_of_other reachable isTask performed (by simp [other]) other rests

end Paced

/-- As long as `TICK` is not about to wrap, two lines are at least a second apart. -/
theorem spaced
    (reachable : ((system (TcbPtr 3) (TcbPtr 3) stackA stackB).restrict BeforeWrap).Reachable state) :
    state.lines.IsChain fun later earlier =>
      earlier.stamp.val + pause.asTicks.val ≤ later.stamp.val := by
  suffices paced : Paced state from paced.spaced
  induction reachable with
  | initial start =>
      obtain ⟨kernel, _, rfl⟩ := start
      exact ⟨by simp [start], by simp [start], .nil⟩
  | step prior transition ih =>
      exact ih.step prior.of_restrict transition.1 (moved_of_perform transition.2)

/-- The first two lines. -/
theorem spaced_two_lines : ∃ state : RtosState,
    state.lines = [⟨.tock, 1000⟩, ⟨.tick, 0⟩] ∧ state.lines.IsChain fun later earlier =>
      earlier.stamp.val + pause.asTicks.val ≤ later.stamp.val := by
  obtain ⟨state, reachable, lines⟩ := exists_two_lines
  exact ⟨state, lines, spaced reachable⟩

end Blinky

end Kangaroos
