import Kangaroos.Abstract.Calls
import Kangaroos.Abstract.Scheduling
import Kangaroos.Step

/-!
# The core invariant

What holds of lists, states, `CURRENT` and the PendSV handler in every reachable
state of the abstract machine. `Core` is proved once, by cases on the step; the
results about single primitives build on it.
-/

namespace Kangaroos

/-- The abstract machine. -/
abbrev SpecMachine (n : Nat) (V : Type) := Machine n V WaitList (List (Fin n))

namespace Config

variable {n : Nat} {V : Type}

/-- `ALL_TASKS` after the boot: each spawn prepends, and the idle task comes last. -/
def order (config : Config n) : List (Fin n) :=
  config.idle :: (config.tokens.map SpawnToken.tcb).reverse

theorem order_nodup (config : Config n) : config.order.Nodup := by
  have distinct := config.distinct
  rw [List.nodup_cons] at distinct
  rw [order, List.nodup_cons]
  exact ⟨by simpa using distinct.1, by simpa using distinct.2⟩

/-- What `spawn_into` has done so far. -/
structure Booted (spawned : List (Fin n)) (fresh kernel : Spec n V) : Prop where
  chain : Linked.Chain kernel.allLink kernel.allTasks spawned
  ready : ∀ task ∈ spawned, (kernel.tcb task).state.isReady = true
  others : ∀ task, task ∉ spawned → kernel.tcb task = fresh.tcb task
  statics : ∃ allTasks, kernel.toStatics = { fresh.toStatics with allTasks }
  waitHead : kernel.waitHead = fresh.waitHead
  waitPtr : ∀ task ∈ spawned, (kernel.tcb task).waitPtr = .word 0
  priority : ∀ task ∈ spawned, (kernel.tcb task).priority = (kernel.tcb task).basePriority

theorem Booted.spawnInto {spawned : List (Fin n)} {fresh kernel after : Spec n V}
    {token : SpawnToken n} (booted : Booted spawned fresh kernel) (new : token.tcb ∉ spawned)
    (returned : kernel.spawnInto token = .ok after) : Booted (token.tcb :: spawned) fresh after := by
  unfold Kernel.spawnInto at returned
  split at returned
  · simp at returned
  · simp only [Except.ok.injEq] at returned
    subst returned
    have different : ∀ task ∈ spawned, task ≠ token.tcb := by
      rintro task member rfl
      exact new member
    refine ⟨⟨rfl, ?_⟩, ?_, ?_, ?_, booted.waitHead, ?_, ?_⟩
    · have link : ∀ task ∈ spawned, task ≠ token.tcb := different
      simp only [Kernel.allLink, Kernel.modifyStatics_tcb, Kernel.modifyTcb_tcb,
        Function.update_self]
      apply booted.chain.congr
      intro task member
      simp [Kernel.allLink, different task member]
    · intro task member
      rcases List.mem_cons.mp member with rfl | old
      · simp
      · simpa [different task old] using booted.ready task old
    · intro task notMember
      rw [List.mem_cons, not_or] at notMember
      obtain ⟨notToken, notOld⟩ := notMember
      simpa [notToken] using booted.others task notOld
    · obtain ⟨allTasks, statics⟩ := booted.statics
      exact ⟨some token.tcb, by simp [statics]⟩
    · intro task member
      rcases List.mem_cons.mp member with rfl | old
      · simp
      · simpa [different task old] using booted.waitPtr task old
    · intro task member
      rcases List.mem_cons.mp member with rfl | old
      · simp
      · simpa [different task old] using booted.priority task old

theorem Booted.foldlM {tokens : List (SpawnToken n)} {spawned : List (Fin n)}
    {fresh kernel after : Spec n V} (booted : Booted spawned fresh kernel)
    (new : ∀ token ∈ tokens, token.tcb ∉ spawned) (distinct : (tokens.map SpawnToken.tcb).Nodup)
    (returned : tokens.foldlM Kernel.spawnInto kernel = .ok after) :
    Booted ((tokens.map SpawnToken.tcb).reverse ++ spawned) fresh after := by
  induction tokens generalizing spawned kernel with
  | nil =>
      have same : kernel = after := by simpa [pure, Except.pure] using returned
      simpa [same] using booted
  | cons token rest ih =>
      rw [List.foldlM_cons] at returned
      obtain ⟨middle, first, onward⟩ := Except.ok_of_bind returned
      obtain ⟨unspawned, distinctRest⟩ := List.nodup_cons.mp distinct
      have bootedNext := booted.spawnInto (new token List.mem_cons_self) first
      have result := ih bootedNext ?_ distinctRest onward
      · simpa using result
      · intro other member
        rw [List.mem_cons, not_or]
        refine ⟨?_, new other (List.mem_cons_of_mem _ member)⟩
        intro same
        exact unspawned (same ▸ List.mem_map_of_mem member)

/-- A booted kernel has spawned exactly the tasks of the configuration. -/
theorem booted_of_boot {config : Config n} {kernel : Spec n V}
    (boot : config.boot V WaitList (List (Fin n)) = .ok kernel) :
    Booted config.order (config.reset V WaitList (List (Fin n))) kernel := by
  have start : Booted [] (config.reset V WaitList (List (Fin n)))
      (config.reset V WaitList (List (Fin n))) :=
    ⟨rfl, by simp, fun _ _ => rfl, ⟨none, rfl⟩, rfl, by simp, by simp⟩
  have distinct := config.distinct
  rw [List.nodup_cons] at distinct
  have result := start.foldlM (by simp) ?_ boot
  · simpa [order, idleToken] using result
  · simp only [List.map_append, List.map_cons, List.map_nil]
    rw [List.nodup_append]
    refine ⟨distinct.2, by simp, ?_⟩
    rintro task member _ isIdle rfl
    obtain rfl : task = config.idle := by simpa [idleToken] using isIdle
    exact distinct.1 member

end Config

namespace SpecMachine

variable {n : Nat} {V : Type} {config : Config n} {machine next : SpecMachine n V}

/-- The best task of a search is ready. -/
def BestReady (kernel : Spec n V) (best : TcbPtr n × U8) : Prop :=
  ∀ task, best.1 = some task → (kernel.tcb task).state.isReady = true

/-- The next node of a search starts a part of `ALL_TASKS`. -/
def OnList (config : Config n) (kernel : Spec n V) (next : TcbPtr n) : Prop :=
  ∃ rest, rest <:+ config.order ∧ Linked.Chain kernel.allLink next rest

/-- What holds while PendSV is at work: no task runs, and a search that has passed the
idle task has found something. -/
def SwitchPhase (config : Config n) (kernel : Spec n V) : Handler n → Prop
  | .inactive => True
  | .entered => True
  | .pass1 start next best => (∀ task, (kernel.tcb task).state.isRunning = false) ∧
      BestReady kernel best ∧ OnList config kernel next ∧
      (start ≠ some config.idle ∨ next = some config.idle ∨ best.1 ≠ none)
  | .pass2 start next best => (∀ task, (kernel.tcb task).state.isRunning = false) ∧
      BestReady kernel best ∧ OnList config kernel next ∧
      (next = some config.idle ∧ start ≠ some config.idle ∨ best.1 ≠ none)
  | .selected task => (∀ task, (kernel.tcb task).state.isRunning = false) ∧
      (kernel.tcb task).state.isReady = true
  | .switched task => (∀ task, (kernel.tcb task).state.isRunning = false) ∧
      (kernel.tcb task).state.isReady = true ∧ kernel.current = some task

/-- The invariant of the abstract machine. -/
structure Core (config : Config n) (machine : SpecMachine n V) : Prop where
  wf : Spec.WellFormed machine.kernel none
  chain : Linked.Chain machine.kernel.allLink machine.kernel.allTasks config.order
  running : ∀ task, (machine.kernel.tcb task).state.isRunning = true →
    machine.kernel.current = some task
  spawned : ∀ task, (machine.kernel.tcb task).state ≠ .uninit → task ∈ config.order
  idle : (machine.kernel.tcb config.idle).state.runnable = true
  fresh : machine.kernel.current = none → machine.handler = .inactive ∧ machine.pendsv = false ∧
    ∀ task list, (machine.kernel.tcb task).state ≠ .blocked list
  member : ∀ task, machine.kernel.current = some task → task ∈ config.order
  pending : machine.handler = .inactive → ∀ task, machine.kernel.current = some task →
    (machine.kernel.tcb task).state.isRunning = true ∨ (machine.thread task).trig = true ∨
      machine.pendsv = true
  phase : SwitchPhase config machine.kernel machine.handler
  awaits : ∀ task list, (machine.kernel.tcb task).state = .blocked list →
    (machine.thread task).pc.awaits list

/-- A kernel that has spawned the tasks of a configuration. -/
theorem core_of_booted {kernel : Spec n V}
    (booted : Config.Booted config.order (config.reset V WaitList (List (Fin n))) kernel) :
    Core config (Config.start V WaitList (List (Fin n)) kernel) := by
  obtain ⟨allTasks, statics⟩ := booted.statics
  have notBlocked : ∀ task list, (kernel.tcb task).state ≠ .blocked list := by
    intro task list blocked
    by_cases member : task ∈ config.order
    · have ready := booted.ready task member
      simp [blocked] at ready
    · simp [booted.others task member, Config.reset, Tcb.zeroed] at blocked
  have notRunning : ∀ task, (kernel.tcb task).state.isRunning = false := by
    intro task
    by_cases member : task ∈ config.order
    · obtain ⟨slice, ready⟩ := TaskState.isReady_iff.mp (booted.ready task member)
      simp [ready]
    · simp [booted.others task member, Config.reset, Tcb.zeroed, TaskState.isRunning]
  have noCurrent : kernel.current = none := by
    rw [statics]
    rfl
  constructor
  case wf =>
    refine ⟨?_, ?_, by simp, ?_⟩
    · intro list task _
      simp only [Config.start, booted.waitHead]
      exact iff_of_false (by simp [Config.reset, WaitOps.null]) (notBlocked task list)
    · intro list
      simp [Config.start, booted.waitHead, Config.reset, WaitOps.null]
    · intro task owner points
      by_cases member : task ∈ config.order
      · simp [Config.start, booted.waitPtr task member] at points
      · simp [Config.start, booted.others task member, Config.reset, Tcb.zeroed] at points
  case chain => exact booted.chain
  case running =>
    intro task runs
    simp [Config.start, notRunning task] at runs
  case spawned =>
    intro task alive
    by_contra notMember
    simp [Config.start, booted.others task notMember, Config.reset, Tcb.zeroed] at alive
  case idle =>
    have ready := booted.ready config.idle List.mem_cons_self
    simp [Config.start, TaskState.runnable, ready]
  case fresh => exact fun _ => ⟨rfl, rfl, notBlocked⟩
  case member =>
    intro task isCurrent
    simp [Config.start, noCurrent] at isCurrent
  case pending =>
    intro _ task isCurrent
    simp [Config.start, noCurrent] at isCurrent
  case phase => trivial
  case awaits => exact fun task list blocked => absurd blocked (notBlocked task list)

theorem core_of_boot {kernel : Spec n V} (boot : config.boot V WaitList (List (Fin n)) = .ok kernel) :
    Core config (Config.start V WaitList (List (Fin n)) kernel) :=
  core_of_booted (Config.booted_of_boot boot)

/-- The phase of PendSV survives whatever keeps ready tasks ready and lets none run. -/
theorem SwitchPhase.stable {before after : Spec n V} {handler : Handler n}
    (phase : SwitchPhase config before handler)
    (running : ∀ task, (after.tcb task).state.isRunning = true →
      (before.tcb task).state.isRunning = true)
    (ready : ∀ task, (before.tcb task).state.isReady = true →
      (after.tcb task).state.isReady = true)
    (current : after.current = before.current) (links : after.allLink = before.allLink) :
    SwitchPhase config after handler := by
  have stillStopped : (∀ task, (before.tcb task).state.isRunning = false) →
      ∀ task, (after.tcb task).state.isRunning = false := by
    intro stopped task
    by_contra runs
    have ran := running task (by simpa using runs)
    simp [stopped task] at ran
  cases handler with
  | inactive => trivial
  | entered => trivial
  | pass1 start next best =>
      obtain ⟨stopped, bestReady, onList, seen⟩ := phase
      refine ⟨stillStopped stopped, fun task chosen => ready task (bestReady task chosen), ?_, seen⟩
      rw [OnList, links]
      exact onList
  | pass2 start next best =>
      obtain ⟨stopped, bestReady, onList, seen⟩ := phase
      refine ⟨stillStopped stopped, fun task chosen => ready task (bestReady task chosen), ?_, seen⟩
      rw [OnList, links]
      exact onList
  | selected task => exact ⟨stillStopped phase.1, ready task phase.2⟩
  | switched task => exact ⟨stillStopped phase.1, ready task phase.2.1, current.trans phase.2.2⟩

/-- In Thread mode, outside a pending trigger, the current task runs. -/
theorem Core.task_running (core : Core config machine) {task : Fin n}
    (isTask : machine.threadTask = some task) (triggered : (machine.thread task).trig = false) :
    (machine.kernel.tcb task).state.isRunning = true := by
  obtain ⟨inactive, notPending, isCurrent⟩ := Machine.threadTask_eq_some.mp isTask
  simpa [triggered, notPending] using core.pending inactive task isCurrent

/-- A ready task is on `ALL_TASKS`. -/
theorem Core.listed (core : Core config machine) {task : Fin n}
    (ready : (machine.kernel.tcb task).state.isReady = true) : task ∈ config.order := by
  apply core.spawned task
  intro uninit
  rw [uninit] at ready
  cases ready

/-- Steps that leave tasks and lists alone. -/
theorem Core.of_same (core : Core config machine) (tcb : next.kernel.tcb = machine.kernel.tcb)
    (waitHead : next.kernel.waitHead = machine.kernel.waitHead)
    (allTasks : next.kernel.allTasks = machine.kernel.allTasks)
    (current : next.kernel.current = machine.kernel.current)
    (handler : next.handler = machine.handler)
    (pendsv : next.pendsv = machine.pendsv ∨ machine.kernel.current ≠ none ∧ next.pendsv = true)
    (trig : ∀ task, (machine.thread task).trig = true →
      (next.thread task).trig = true ∨ next.pendsv = true)
    (pc : ∀ task, (machine.kernel.tcb task).state.isRunning = true ∨
      (next.thread task).pc = (machine.thread task).pc) : Core config next where
  wf := by
    refine ⟨fun list task _ => ?_, ?_, by simp, ?_⟩
    · rw [waitHead, tcb]
      exact core.wf.mem
    · rw [waitHead]
      exact core.wf.nodup
    · rw [tcb]
      exact core.wf.ownFrame
  chain := by
    rw [allTasks]
    exact core.chain.congr fun task _ => by rw [Kernel.allLink, Kernel.allLink, tcb]
  running := by
    rw [tcb, current]
    exact core.running
  spawned := by
    rw [tcb]
    exact core.spawned
  idle := by
    rw [tcb]
    exact core.idle
  fresh noCurrent := by
    rw [current] at noCurrent
    obtain ⟨inactive, notPending, notBlocked⟩ := core.fresh noCurrent
    rw [handler, tcb]
    refine ⟨inactive, ?_, notBlocked⟩
    rcases pendsv with same | ⟨launched, _⟩
    · exact same.trans notPending
    · exact absurd noCurrent launched
  member := by
    rw [current]
    exact core.member
  pending inactive task isCurrent := by
    rw [handler] at inactive
    rw [current] at isCurrent
    rw [tcb]
    rcases core.pending inactive task isCurrent with runs | triggers | pends
    · exact .inl runs
    · exact .inr (trig task triggers)
    · rcases pendsv with same | ⟨_, pended⟩
      · exact .inr (.inr (same.trans pends))
      · exact .inr (.inr pended)
  phase := by
    rw [handler]
    refine core.phase.stable ?_ ?_ current ?_
    · rw [tcb]
      exact fun _ => id
    · rw [tcb]
      exact fun _ => id
    · funext task
      rw [Kernel.allLink, Kernel.allLink, tcb]
  awaits task list blocked := by
    rw [tcb] at blocked
    rcases pc task with runs | same
    · simp [blocked] at runs
    · rw [same]
      exact core.awaits task list blocked

/-- A section, whoever runs it: what its effect means for the invariant. -/
theorem Core.of_effect (core : Core config machine) {scope : Prim → Prop} {on : WaitList → Prop}
    {who : TcbPtr n} {flag : Bool} (wf : Spec.WellFormed next.kernel none)
    (effect : Spec.Effect scope on who flag machine.kernel next.kernel)
    (caller : ∀ task, who = some task → task ≠ config.idle ∧ machine.handler = .inactive ∧
      machine.kernel.current = some task ∧ (machine.kernel.tcb task).state.isRunning = true)
    (handler : next.handler = machine.handler)
    (pendsv : next.pendsv = true → machine.pendsv = true ∨ machine.kernel.current ≠ none)
    (stays : machine.handler = .inactive → ∀ task, machine.kernel.current = some task →
      (next.kernel.tcb task).state.isRunning = true ∨ (next.thread task).trig = true ∨
        next.pendsv = true)
    (awaits : ∀ task list, who = some task → (next.kernel.tcb task).state = .blocked list →
      (next.thread task).pc.awaits list)
    (threads : ∀ task, who ≠ some task → next.thread task = machine.thread task) :
    Core config next where
  wf := wf
  chain := by
    rw [effect.allTasks]
    exact core.chain.congr fun task _ => (effect.fixed task).2.2
  running task runs := by
    rw [effect.current]
    by_cases isWho : who = some task
    · exact (caller task isWho).2.2.1
    · rw [effect.state_of_not_ready isWho] at runs
      · exact core.running task runs
      · obtain ⟨slice, running⟩ := TaskState.isRunning_iff.mp runs
        simp [running]
  spawned task alive := by
    by_cases isWho : who = some task
    · exact core.member task (caller task isWho).2.2.1
    · apply core.spawned task
      intro uninit
      rw [effect.state_of_not_blocked isWho (by simp [uninit])] at alive
      exact alive uninit
  idle := by
    have notIdle : who ≠ some config.idle := fun isWho => (caller _ isWho).1 rfl
    rw [effect.state_of_not_blocked notIdle]
    · exact core.idle
    · intro list blocked
      have runnable := core.idle
      simp [blocked, TaskState.runnable, TaskState.isReady] at runnable
  fresh noCurrent := by
    rw [effect.current] at noCurrent
    obtain ⟨inactive, notPending, notBlocked⟩ := core.fresh noCurrent
    refine ⟨handler.trans inactive, ?_, ?_⟩
    · rw [Bool.eq_false_iff]
      intro pended
      rcases pendsv pended with before | launched
      · simp [notPending] at before
      · exact launched noCurrent
    · intro task list
      have other : who ≠ some task := by
        intro isWho
        simp [noCurrent] at caller
        exact caller task isWho
      rw [effect.state_of_not_blocked other (notBlocked task)]
      exact notBlocked task list
  member := by
    rw [effect.current]
    exact core.member
  pending inactive := by
    rw [effect.current]
    exact stays (handler ▸ inactive)
  phase := by
    rw [handler]
    by_cases inactive : machine.handler = .inactive
    · rw [inactive]
      trivial
    · have other : ∀ task, who ≠ some task := fun task isWho => inactive (caller task isWho).2.1
      refine core.phase.stable ?_ ?_ effect.current ?_
      · intro task runs
        rwa [effect.state_of_not_ready (other task)] at runs
        obtain ⟨slice, running⟩ := TaskState.isRunning_iff.mp runs
        simp [running]
      · intro task ready
        rwa [effect.state_of_not_blocked (other task)]
        intro list blocked
        simp [blocked] at ready
      · funext task
        exact (effect.fixed task).2.2
  awaits task list blocked := by
    by_cases isWho : who = some task
    · exact awaits task list isWho blocked
    · rw [threads task isWho]
      rw [effect.state_of_not_ready isWho (by simp [blocked])] at blocked
      exact core.awaits task list blocked

/-- A step of the scheduler: lists and waiters stay, so only the facts about running
tasks and PendSV are left to show. -/
theorem Core.of_rescheduled (core : Core config machine)
    (moved : Spec.Rescheduled machine.kernel next.kernel) (threads : next.thread = machine.thread)
    (running : ∀ task, (next.kernel.tcb task).state.isRunning = true →
      next.kernel.current = some task)
    (fresh : next.kernel.current = none → machine.kernel.current = none ∧
      next.handler = machine.handler ∧ next.pendsv = machine.pendsv)
    (member : ∀ task, next.kernel.current = some task → machine.kernel.current = some task ∨
      (next.kernel.tcb task).state ≠ .uninit)
    (pending : next.handler = .inactive → ∀ task, next.kernel.current = some task →
      (next.kernel.tcb task).state.isRunning = true ∨ (next.thread task).trig = true ∨
        next.pendsv = true)
    (phase : SwitchPhase config next.kernel next.handler) : Core config next where
  wf := moved.wellFormed core.wf
  chain := by
    obtain ⟨current, tickCount, statics⟩ := moved.statics
    rw [statics]
    exact core.chain.congr fun task _ => (moved.fixed task).2.2.2.1
  running := running
  spawned task alive := by
    apply core.spawned task
    intro uninit
    rcases moved.state task with same | ⟨ready, _⟩
    · exact alive (same.trans uninit)
    · simp [uninit, TaskState.runnable, TaskState.isReady, TaskState.isRunning] at ready
  idle := by
    rcases moved.state config.idle with same | ⟨_, runnable⟩
    · rw [same]
      exact core.idle
    · exact runnable
  fresh noCurrent := by
    obtain ⟨wasNone, sameHandler, samePendsv⟩ := fresh noCurrent
    obtain ⟨inactive, notPending, notBlocked⟩ := core.fresh wasNone
    refine ⟨sameHandler.trans inactive, samePendsv.trans notPending, fun task list blocked => ?_⟩
    exact notBlocked task list ((moved.blocked_iff task list).mp blocked)
  member task isCurrent := by
    rcases member task isCurrent with was | alive
    · exact core.member task was
    · apply core.spawned task
      intro uninit
      rcases moved.state task with same | ⟨ready, _⟩
      · exact alive (same.trans uninit)
      · simp [uninit, TaskState.runnable, TaskState.isReady, TaskState.isRunning] at ready
  pending := pending
  phase := phase
  awaits task list blocked := by
    rw [threads]
    exact core.awaits task list ((moved.blocked_iff task list).mp blocked)

/-- While PendSV searches or has selected, no task runs. -/
theorem Core.stopped_of_phase (core : Core config machine) (active : machine.handler ≠ .inactive)
    (saved : machine.handler ≠ .entered) (task : Fin n) :
    (machine.kernel.tcb task).state.isRunning = false := by
  have phase := core.phase
  cases handler : machine.handler with
  | inactive => exact absurd handler active
  | entered => exact absurd handler saved
  | pass1 start next best => exact (handler ▸ phase).1 task
  | pass2 start next best => exact (handler ▸ phase).1 task
  | selected chosen => exact (handler ▸ phase).1 task
  | switched chosen => exact (handler ▸ phase).1 task

theorem Core.tick (core : Core config machine) {kernel : Spec n V} {preempt : Bool}
    (returned : machine.kernel.tick = .ok (kernel, preempt)) :
    Core config { machine with kernel, pendsv := machine.pendsv || preempt } := by
  have ticked := (Spec.tick_spec core.chain).of_ok returned
  refine core.of_rescheduled ticked.moved rfl ?_ ?_ ?_ ?_ ?_
  · intro task runs
    rw [ticked.current]
    by_cases isCurrent : machine.kernel.current = some task
    · exact isCurrent
    · rcases ticked.others task isCurrent with same | ⟨_, slice, ready⟩
      · rw [same] at runs
        exact core.running task runs
      · simp [show (kernel.tcb task).state = _ from ready] at runs
  · intro noCurrent
    have wasNone := ticked.current.symm.trans noCurrent
    have paused := ticked.paused (by simp [wasNone])
    exact ⟨wasNone, rfl, by simp [show preempt = false from paused.2]⟩
  · intro task isCurrent
    exact .inl (ticked.current.symm.trans isCurrent)
  · intro inactive task isCurrent
    have wasCurrent := ticked.current.symm.trans isCurrent
    rcases core.pending inactive task wasCurrent with runs | triggers | pends
    · exact .inl (ticked.running task wasCurrent runs)
    · exact .inr (.inl triggers)
    · exact .inr (.inr (by simp [pends]))
  · by_cases stopped : ∀ current, machine.kernel.current = some current →
      (machine.kernel.tcb current).state.isRunning = false
    · have same : kernel.tcb = machine.kernel.tcb := (ticked.paused stopped).1
      refine core.phase.stable ?_ ?_ ticked.current ?_
      · rw [same]
        exact fun _ => id
      · rw [same]
        exact fun _ => id
      · funext task
        rw [Kernel.allLink, Kernel.allLink, same]
    · push Not at stopped
      obtain ⟨current, _, runs⟩ := stopped
      cases handler : machine.handler with
      | inactive => trivial
      | entered => trivial
      | _ =>
          have stopped := core.stopped_of_phase (by simp [handler]) (by simp [handler]) current
          exact absurd stopped runs

theorem Core.launch (core : Core config machine) {kernel : Spec n V} {sp : Word}
    (noCurrent : machine.kernel.current = none)
    (returned : machine.kernel.svcFirstTaskSp = .ok (kernel, sp)) :
    Core config { machine with kernel } := by
  obtain ⟨moved, first, inOrder, isCurrent, runs, others⟩ :=
    (Spec.svcFirstTaskSp_spec core.chain config.order_nodup).of_ok returned
  obtain ⟨inactive, _, _⟩ := core.fresh noCurrent
  refine core.of_rescheduled moved rfl ?_ ?_ ?_ ?_ ?_
  · intro task running
    by_cases same : task = first
    · exact same ▸ isCurrent
    · rw [others task same] at running
      simpa [noCurrent] using core.running task running
  · intro stillNone
    simp [show kernel.current = some first from isCurrent] at stillNone
  · intro task isTask
    obtain rfl : first = task := by simpa [show kernel.current = _ from isCurrent] using isTask
    refine .inr fun uninit => ?_
    rw [show (kernel.tcb first).state = .uninit from uninit] at runs
    simp [TaskState.isRunning] at runs
  · intro _ task isTask
    obtain rfl : first = task := by simpa [show kernel.current = _ from isCurrent] using isTask
    exact .inl runs
  · simp only [inactive]
    trivial

/-- `consider` never forgets a task it has found. -/
theorem consider_ne_none {kernel : Spec n V} {task : Fin n} {best : TcbPtr n × U8}
    (found : best.1 ≠ none ∨ (kernel.tcb task).state.runnable = true) :
    (kernel.consider task best).1 ≠ none := by
  unfold Kernel.consider
  split
  · simp
  · rename_i notTaken
    rcases found with already | runnable
    · exact already
    · intro isNone
      exact notTaken ⟨runnable, .inl isNone⟩

/-- With no task running, what `consider` accepts is ready. -/
theorem consider_bestReady {kernel : Spec n V} {task : Fin n} {best : TcbPtr n × U8}
    (stopped : ∀ task, (kernel.tcb task).state.isRunning = false)
    (bestReady : BestReady kernel best) : BestReady kernel (kernel.consider task best) := by
  unfold Kernel.consider
  split
  · rename_i taken
    intro other isOther
    obtain rfl : task = other := by simpa using isOther
    simpa [TaskState.runnable, stopped task] using taken.1
  · exact bestReady

/-- The rest of a search after one node. -/
theorem OnList.tail {kernel : Spec n V} {task : Fin n} (onList : OnList config kernel (some task)) :
    OnList config kernel (kernel.tcb task).allNext := by
  obtain ⟨_, suffix, chain⟩ := onList
  obtain ⟨tail, rfl, chainTail⟩ := chain.exists_cons
  exact ⟨tail, (List.suffix_cons task tail).trans suffix, chainTail⟩

/-- `find_next` starts on the list. -/
theorem onList_searchStart {kernel : Spec n V}
    (chain : Linked.Chain kernel.allLink kernel.allTasks config.order)
    (member : ∀ task, kernel.current = some task → task ∈ config.order) :
    OnList config kernel kernel.searchStart := by
  have whole : OnList config kernel kernel.allTasks := ⟨_, List.suffix_rfl, chain⟩
  unfold Kernel.searchStart
  split
  · exact whole
  · rename_i current isCurrent
    split
    · exact whole
    · rename_i next link
      obtain ⟨before, rest, parts⟩ := List.append_of_mem (member current isCurrent)
      rw [parts] at chain
      have tail := chain.split
      rw [Kernel.allLink, link] at tail
      refine ⟨rest, ?_, tail⟩
      rw [parts]
      exact (List.suffix_cons current rest).trans (List.suffix_append _ _)

/-- `ALL_TASKS` starts with the idle task. -/
theorem Core.allTasks_eq (core : Core config machine) :
    machine.kernel.allTasks = some config.idle := core.chain.head_eq

/-- A step within a search changes only the handler. -/
theorem Core.of_search (core : Core config machine) {handler : Handler n}
    (active : machine.handler ≠ .inactive) (stays : handler ≠ .inactive)
    (phase : SwitchPhase config machine.kernel handler) : Core config { machine with handler } := by
  refine core.of_rescheduled (.refl _) rfl core.running ?_ (fun _ => .inl) ?_ phase
  · intro noCurrent
    exact absurd (core.fresh noCurrent).1 active
  · intro inactive
    exact absurd inactive stays

theorem Core.switchStep (core : Core config machine) {sp : Word}
    (switches : Machine.SwitchStep machine sp next) : Core config next := by
  cases switches with
  | enter inactive pending =>
      refine core.of_rescheduled (.refl _) rfl core.running ?_ (fun _ => .inl) ?_ trivial
      · intro noCurrent
        obtain ⟨_, notPending, _⟩ := core.fresh noCurrent
        simp [pending] at notPending
      · intro isInactive
        simp at isInactive
  | save entered saved =>
      rename_i kernel
      have save := (Spec.saveCurrent_spec machine.kernel sp).of_ok saved
      have sameCurrent : kernel.current = machine.kernel.current := by rw [save.statics]
      have stopped : ∀ task, (kernel.tcb task).state.isRunning = false := by
        intro task
        by_cases isCurrent : machine.kernel.current = some task
        · exact save.stopped task isCurrent
        · rw [save.others task (.inl isCurrent)]
          rw [Bool.eq_false_iff]
          exact fun runs => isCurrent (core.running task runs)
      refine core.of_rescheduled save.moved rfl ?_ ?_ ?_ ?_ ?_
      · intro task runs
        simp [stopped task] at runs
      · intro noCurrent
        obtain ⟨inactive, _, _⟩ := core.fresh (sameCurrent.symm.trans noCurrent)
        simp [entered] at inactive
      · exact fun task isCurrent => .inl (sameCurrent.symm.trans isCurrent)
      · intro inactive
        simp at inactive
      · have chain : Linked.Chain kernel.allLink kernel.allTasks config.order := by
          rw [save.statics]
          exact core.chain.congr fun task _ => (save.moved.fixed task).2.2.2.1
        refine ⟨stopped, by simp [BestReady], onList_searchStart chain ?_, ?_⟩
        · intro task isCurrent
          exact core.member task (sameCurrent.symm.trans isCurrent)
        · by_cases atIdle : kernel.searchStart = some config.idle
          · exact .inr (.inl atIdle)
          · exact .inl atIdle
  | visit1 searching =>
      rename_i start task best
      have phase := core.phase
      rw [searching] at phase
      obtain ⟨stopped, bestReady, onList, seen⟩ := phase
      refine core.of_search (by simp [searching]) (by simp)
        ⟨stopped, consider_bestReady stopped bestReady, onList.tail, ?_⟩
      rcases seen with away | atIdle | found
      · exact .inl away
      · obtain rfl : task = config.idle := by simpa using atIdle
        exact .inr (.inr (consider_ne_none (.inr core.idle)))
      · exact .inr (.inr (consider_ne_none (.inl found)))
  | wrap searching =>
      have phase := core.phase
      rw [searching] at phase
      obtain ⟨stopped, bestReady, _, seen⟩ := phase
      refine core.of_search (by simp [searching]) (by simp)
        ⟨stopped, bestReady, ⟨_, List.suffix_rfl, core.chain⟩, ?_⟩
      rcases seen with away | atIdle | found
      · exact .inl ⟨core.allTasks_eq, away⟩
      · simp at atIdle
      · exact .inr found
  | visit2 searching notStart =>
      rename_i start task best
      have phase := core.phase
      rw [searching] at phase
      obtain ⟨stopped, bestReady, onList, seen⟩ := phase
      refine core.of_search (by simp [searching]) (by simp)
        ⟨stopped, consider_bestReady stopped bestReady, onList.tail, .inr ?_⟩
      rcases seen with ⟨atIdle, _⟩ | found
      · obtain rfl : task = config.idle := by simpa using atIdle
        exact consider_ne_none (.inr core.idle)
      · exact consider_ne_none (.inl found)
  | select searching atEnd found =>
      rename_i start next best task
      have phase := core.phase
      rw [searching] at phase
      exact core.of_search (by simp [searching]) (by simp) ⟨phase.1, phase.2.1 task found⟩
  | switch selected =>
      rename_i task
      have phase := core.phase
      rw [selected] at phase
      refine core.of_rescheduled (.setCurrent _ _) rfl ?_ ?_ ?_ ?_ ?_
      · intro other runs
        have stopped := phase.1 other
        rw [Kernel.modifyStatics_tcb] at runs
        simp [stopped] at runs
      · intro noCurrent
        simp at noCurrent
      · intro other isOther
        obtain rfl : task = other := by simpa using isOther
        refine .inr fun uninit => ?_
        have ready := phase.2
        rw [Kernel.modifyStatics_tcb] at uninit
        simp [uninit] at ready
      · intro inactive
        simp at inactive
      · exact ⟨phase.1, phase.2, rfl⟩
  | finish switched marked =>
      rename_i task kernel
      have phase := core.phase
      rw [switched] at phase
      obtain ⟨stopped, ready, isCurrent⟩ := phase
      obtain ⟨moved, statics, runs, others⟩ := (Spec.markRunning_spec ready).of_ok marked
      have sameCurrent : kernel.current = some task := by rw [statics, isCurrent]
      refine core.of_rescheduled moved rfl ?_ ?_ ?_ ?_ trivial
      · intro other running
        by_cases same : other = task
        · exact same ▸ sameCurrent
        · have stoppedOther := stopped other
          rw [others other same] at running
          simp [stoppedOther] at running
      · intro noCurrent
        simp [sameCurrent] at noCurrent
      · exact fun other isOther => .inl (by rwa [isCurrent, ← sameCurrent])
      · intro _ other isOther
        obtain rfl : task = other := by simpa [sameCurrent] using isOther
        exact .inl runs

/-- In Thread mode, the contract of the section a task executes. -/
theorem Core.call_contract (core : Core config machine) {call : Call V} {task : Fin n}
    {kernel : Spec n V} {outcome : Outcome} (isTask : machine.threadTask = some task)
    (triggered : (machine.thread task).trig = false)
    (returned : call.run (some task) machine.kernel = .ok (kernel, outcome)) :
    call.Contract (some task) machine.kernel (kernel, outcome) := by
  have runs := core.task_running isTask triggered
  obtain ⟨_, _, isCurrent⟩ := Machine.threadTask_eq_some.mp isTask
  refine (call.run_contract core.wf ?_ (.inr isCurrent.symm)).of_ok returned
  intro caller isCaller
  obtain rfl : task = caller := by simpa using isCaller
  exact runs

/-- The contract of the section an interrupt handler executes. -/
theorem Core.isr_contract (core : Core config machine) {call : Call V} {kernel : Spec n V}
    {outcome : Outcome} (safe : call.isrSafe = true)
    (returned : call.run none machine.kernel = .ok (kernel, outcome)) :
    call.Contract none machine.kernel (kernel, outcome) :=
  (call.run_contract core.wf (fun _ isCaller => by simp at isCaller) (.inl safe)).of_ok returned

theorem Core.call (core : Core config machine) {call : Call V} {task : Fin n} {kernel : Spec n V}
    {outcome : Outcome} (isTask : machine.threadTask = some task) (notIdle : task ≠ config.idle)
    (triggered : (machine.thread task).trig = false)
    (may : (machine.thread task).mayCall call = true)
    (returned : call.run (some task) machine.kernel = .ok (kernel, outcome)) :
    Core config { machine.setThread task ((machine.thread task).after call outcome) with
      kernel, pendsv := outcome.inside } := by
  have runs := core.task_running isTask triggered
  have contract := core.call_contract isTask triggered returned
  obtain ⟨inactive, _, isCurrent⟩ := Machine.threadTask_eq_some.mp isTask
  obtain ⟨flag, effect, _, reports⟩ := contract.effect
  have notReturned : call.returnsFlag = false := by
    cases call <;> first | rfl | simp [Thread.mayCall] at may
  refine core.of_effect contract.wf effect ?_ rfl ?_ ?_ ?_ ?_
  · intro caller isCaller
    obtain rfl : task = caller := by simpa using isCaller
    exact ⟨notIdle, inactive, isCurrent, runs⟩
  · exact fun _ => .inr (by simp [isCurrent])
  · intro _ caller isCaller
    obtain rfl : task = caller := by simpa [isCurrent] using isCaller
    rcases effect.own task rfl with same | ⟨pended, _⟩
    · exact .inl (by rw [same]; exact runs)
    · have pend : outcome.pend = true := (reports notReturned).trans pended
      exact .inr (.inl (by simpa [Machine.setThread, Thread.after] using pend))
  · intro caller list isCaller blocked
    obtain rfl : task = caller := by simpa using isCaller
    simpa [Machine.setThread, Thread.after] using contract.awaits task list rfl blocked
  · intro other isOther
    have different : other ≠ task := by
      rintro rfl
      exact isOther rfl
    simp [Machine.setThread, different]

theorem Core.isr (core : Core config machine) {call : Call V} {kernel : Spec n V}
    {outcome : Outcome} {isrSlots : Nat → List U8} (safe : call.isrSafe = true)
    (returned : call.run none machine.kernel = .ok (kernel, outcome)) :
    Core config { machine with kernel, pendsv := machine.pendsv || outcome.pend, isrSlots } := by
  have contract := core.isr_contract safe returned
  obtain ⟨flag, effect, pends, _⟩ := contract.effect
  refine core.of_effect contract.wf effect (by simp) rfl ?_ ?_ (by simp) (fun _ _ => rfl)
  · intro pended
    rcases Bool.or_eq_true_iff.mp pended with before | now
    · exact .inl before
    · exact .inr (effect.launched (pends now))
  · intro inactive task isCurrent
    rcases core.pending inactive task isCurrent with runs | triggers | pending
    · refine .inl ?_
      rw [effect.state_of_not_blocked (by simp)]
      · exact runs
      · intro list blocked
        simp [blocked] at runs
    · exact .inr (.inl triggers)
    · exact .inr (.inr (by simp [pending]))

/-- A running task changes its own record. -/
theorem Core.of_thread (core : Core config machine) {task : Fin n} {thread : Thread}
    (isTask : machine.threadTask = some task) (triggered : (machine.thread task).trig = false)
    (tcb : next.kernel.tcb = machine.kernel.tcb)
    (waitHead : next.kernel.waitHead = machine.kernel.waitHead)
    (allTasks : next.kernel.allTasks = machine.kernel.allTasks)
    (current : next.kernel.current = machine.kernel.current)
    (handler : next.handler = machine.handler) (pendsv : next.pendsv = machine.pendsv)
    (threads : next.thread = Function.update machine.thread task thread) : Core config next := by
  have runs := core.task_running isTask triggered
  refine core.of_same tcb waitHead allTasks current handler (.inl pendsv) ?_ ?_
  · intro other triggers
    have different : other ≠ task := by
      rintro rfl
      simp [triggered] at triggers
    exact .inl (by simpa [threads, different] using triggers)
  · intro other
    by_cases same : other = task
    · exact .inl (same ▸ runs)
    · exact .inr (by simp [threads, same])

theorem Core.returnStep (core : Core config machine) {task : Fin n}
    (isTask : machine.threadTask = some task) (triggered : (machine.thread task).trig = false)
    (returns : Machine.ReturnStep machine task next) : Core config next := by
  cases returns with
  | plain pc => exact core.of_thread isTask triggered rfl rfl rfl rfl rfl rfl rfl
  | guard pc => exact core.of_thread isTask triggered rfl rfl rfl rfl rfl rfl rfl
  | value pc received => exact core.of_thread isTask triggered rfl rfl rfl rfl rfl rfl rfl
  | box pc => exact core.of_thread isTask triggered rfl rfl rfl rfl rfl rfl rfl

/-- The invariant survives every step. -/
theorem Core.step (core : Core config machine) {action : Action V}
    (step : Machine.Step config.idle machine action next) : Core config next := by
  cases step with
  | launch fresh returned => exact core.launch fresh returned
  | tick returned => exact core.tick returned
  | pendsv switches => exact core.switchStep switches
  | isr safe returned slots => exact core.isr safe returned
  | isrRet assigned =>
      exact core.of_same rfl rfl rfl rfl rfl (.inl rfl) (fun _ => .inl) (fun _ => .inr rfl)
  | call isTask notIdle triggered may returned =>
      exact core.call isTask notIdle triggered may returned
  | trigger isTask untriggered =>
      rename_i task
      obtain ⟨_, _, isCurrent⟩ := Machine.threadTask_eq_some.mp isTask
      refine core.of_same rfl rfl rfl rfl rfl (.inr ⟨by simp [isCurrent], rfl⟩)
        (fun _ _ => .inr rfl) (fun other => .inr ?_)
      by_cases same : other = task
      · subst same
        simp [Machine.setThread]
      · simp [Machine.setThread, same]
  | ret isTask triggered returns => exact core.returnStep isTask triggered returns
  | dropBox isTask notIdle triggered user live returned =>
      obtain ⟨_, _, rfl⟩ := Pool.destroy_ok returned
      exact core.of_thread isTask triggered rfl rfl rfl rfl rfl rfl rfl
  | writeBox isTask notIdle triggered user live returned =>
      obtain ⟨_, _, rfl⟩ := Pool.write_ok returned
      exact core.of_same rfl rfl rfl rfl rfl (.inl rfl) (fun _ => .inl) (fun _ => .inr rfl)
  | forgetGuard isTask notIdle triggered user held =>
      exact core.of_thread isTask triggered rfl rfl rfl rfl rfl rfl rfl

/-- The abstract machine of a configuration. -/
abbrev system (config : Config n) (V : Type) : TransitionSystem (SpecMachine n V) (Action V) :=
  config.system V WaitList (List (Fin n))

/-- The invariant holds in every reachable state. -/
theorem core_of_reachable (reachable : (system config V).Reachable machine) :
    Core config machine := by
  refine reachable.invariant (Core config) ?_ ?_
  · rintro state ⟨kernel, boot, rfl⟩
    exact core_of_boot boot
  · intro state action after _ core performed
    exact core.step (Machine.step_of_perform performed)

/-- A search that ends has found a ready task. -/
theorem Core.found (core : Core config machine) {start next : TcbPtr n} {best : TcbPtr n × U8}
    (searching : machine.handler = .pass2 start next best) (atEnd : next = none ∨ next = start) :
    ∃ task, best.1 = some task ∧ (machine.kernel.tcb task).state.isReady = true := by
  have phase := core.phase
  rw [searching] at phase
  obtain ⟨_, bestReady, _, seen⟩ := phase
  have found : best.1 ≠ none := by
    rcases seen with ⟨atIdle, notIdle⟩ | found
    · rcases atEnd with isNone | isStart
      · simp [isNone] at atIdle
      · exact absurd (isStart.symm.trans atIdle) notIdle
    · exact found
  obtain ⟨task, isTask⟩ := Option.ne_none_iff_exists'.mp found
  exact ⟨task, isTask, bestReady task isTask⟩

/-- No step of PendSV faults. -/
theorem Core.pendsvStep_ok (core : Core config machine) {sp : Word}
    {run : Exec (SpecMachine n V)} (performed : machine.pendsvStep sp = some run) :
    ∃ next, run = .ok next := by
  unfold Machine.pendsvStep at performed
  split at performed
  · split at performed
    · exact ⟨_, (Option.some.inj performed).symm⟩
    · simp at performed
  · rename_i entered
    have launched : ∃ current, machine.kernel.current = some current := by
      cases isCurrent : machine.kernel.current with
      | none => simp [core.fresh isCurrent] at entered
      | some current => exact ⟨current, rfl⟩
    obtain ⟨current, isCurrent⟩ := launched
    have saves : ∃ kernel, machine.kernel.saveCurrent sp = .ok kernel := by
      simp only [Kernel.saveCurrent, isCurrent, deref_some]
      simp only [bind, Except.bind]
      split <;> exact ⟨_, rfl⟩
    obtain ⟨kernel, saved⟩ := saves
    simp only [saved] at performed
    exact ⟨_, (Option.some.inj performed).symm⟩
  · exact ⟨_, (Option.some.inj performed).symm⟩
  · exact ⟨_, (Option.some.inj performed).symm⟩
  · rename_i start task best searching
    split at performed
    · rename_i atStart
      obtain ⟨found, isFound, _⟩ := core.found searching (.inr atStart)
      rw [isFound] at performed
      exact ⟨_, (Option.some.inj performed).symm⟩
    · exact ⟨_, (Option.some.inj performed).symm⟩
  · rename_i start best searching
    obtain ⟨found, isFound, _⟩ := core.found searching (.inl rfl)
    rw [isFound] at performed
    exact ⟨_, (Option.some.inj performed).symm⟩
  · exact ⟨_, (Option.some.inj performed).symm⟩
  · rename_i task switched
    have phase := core.phase
    rw [switched] at phase
    obtain ⟨slice, ready⟩ := TaskState.isReady_iff.mp phase.2.1
    simp only [Kernel.markRunning, ready] at performed
    exact ⟨_, (Option.some.inj performed).symm⟩

theorem returnFrom_triple {task : Fin n} {run : Exec (SpecMachine n V)}
    (performed : machine.returnFrom task = some run) : Triple run (fun _ => True) Benign := by
  unfold Machine.returnFrom at performed
  simp only at performed
  split at performed
  all_goals try (obtain rfl := Option.some.inj performed; trivial)
  · obtain rfl := Option.some.inj performed
    exact Triple.bind (Spec.waitWord_triple _ _) fun _ _ => trivial
  · split at performed
    · obtain rfl := Option.some.inj performed
      exact ⟨by decide, by decide⟩
    · obtain rfl := Option.some.inj performed
      trivial
  · obtain rfl := Option.some.inj performed
    have assigned : Triple (Pool.assignedSlot machine.kernel task) (fun _ => True) Benign :=
      Triple.bind (Spec.waitWord_triple _ _) fun _ _ => trivial
    exact Triple.bind assigned fun _ _ => trivial
  · simp at performed

theorem destroy_triple {kernel : Spec n V} {id : Nat} {slot : U8} :
    Triple (Pool.destroy kernel id slot) (fun _ => True) Benign := by
  simp only [Pool.destroy]
  split
  · split
    · exact ⟨by decide, by decide⟩
    · trivial
  · exact ⟨by decide, by decide⟩

theorem write_triple {kernel : Spec n V} {id : Nat} {slot : U8} {value : V} :
    Triple (Pool.write kernel id slot value) (fun _ => True) Benign := by
  simp only [Pool.write]
  split
  · split
    · exact ⟨by decide, by decide⟩
    · trivial
  · exact ⟨by decide, by decide⟩

/-- No step reaches an `unreachable!()` arm or a loop that never ends. -/
theorem Core.perform_triple (core : Core config machine) {action : Action V}
    {run : Exec (SpecMachine n V)} (performed : machine.perform config.idle action = some run) :
    Triple run (fun _ => True) Benign := by
  cases run with
  | ok next => trivial
  | error fault =>
      show Benign fault
      cases Machine.faults_of_perform performed with
      | launch fresh returned =>
          exact (Spec.svcFirstTaskSp_spec core.chain config.order_nodup).of_error returned
      | tick returned => exact (Spec.tick_spec core.chain).of_error returned
      | pendsv switches =>
          obtain ⟨next, succeeds⟩ := core.pendsvStep_ok switches
          cases succeeds
      | isr safe returned =>
          rename_i call
          exact (call.run_contract core.wf (fun _ isCaller => by simp at isCaller)
            (.inl safe)).of_error returned
      | call isTask triggered may returned =>
          rename_i call task
          have runs := core.task_running isTask triggered
          obtain ⟨_, _, isCurrent⟩ := Machine.threadTask_eq_some.mp isTask
          refine (call.run_contract core.wf ?_ (.inr isCurrent.symm)).of_error returned
          intro caller isCaller
          obtain rfl : task = caller := by simpa using isCaller
          exact runs
      | ret isTask triggered returned => exact (returnFrom_triple returned).of_error rfl
      | dropBox live returned => exact destroy_triple.of_error returned
      | writeBox live returned => exact write_triple.of_error returned

end SpecMachine

end Kangaroos
