import Kangaroos.Abstract.Core
import Kangaroos.Refine.Calls

/-!
# The machine as coded refines the abstract machine

The scheduler reads no links, so it acts alike on related states; with the
simulation of the critical sections, every step of the machine is matched by the
same step of the abstract machine. Each reachable state of the code therefore
represents a reachable abstract state, and the invariants proved there apply.
-/

namespace Kangaroos

namespace Rep

variable {n : Nat} {V : Type} {kernel : Rtos n V} {spec : Spec n V}

/-- A task that waits on no list changes between states without link. -/
theorem setUnlinked (rep : Rep none kernel spec) {task : Fin n} {state : TaskState (TcbPtr n)}
    {state' : TaskState WaitList} (alike : state.forget = state'.forget)
    (notBlocked : ∀ list, (spec.tcb task).state ≠ .blocked list)
    (notBlocked' : ∀ list, state' ≠ .blocked list) :
    Rep none (kernel.setState task state) (spec.setState task state') := by
  refine rep.setState alike (fun list => ?_) ((rep.wf.open_of_not_blocked notBlocked).fill notBlocked')
  rw [rep.wf.mem]
  exact notBlocked list

/-- The search starts where `CURRENT` and the task list say, which the two share. -/
theorem searchStart_eq (rep : Rep none kernel spec) : kernel.searchStart = spec.searchStart := by
  rw [Kernel.searchStart, Kernel.searchStart, rep.statics]
  cases spec.current with
  | none => rfl
  | some current => simp only [rep.allNext]

/-- A visit compares states and priorities, which are alike but for the links of blocked tasks. -/
theorem consider_eq (rep : Rep none kernel spec) (task : Fin n) (best : TcbPtr n × U8) :
    kernel.consider task best = spec.consider task best := by
  rw [Kernel.consider, Kernel.consider, rep.runnable, rep.priority]

/-- So the launch finds the same task. -/
theorem svcSearch_eq (rep : Rep none kernel spec) (fuel : Nat) (next : TcbPtr n)
    (best : TcbPtr n × U8) : kernel.svcSearch fuel next best = spec.svcSearch fuel next best := by
  induction fuel generalizing next best with
  | zero => cases next <;> simp [Kernel.svcSearch]
  | succ fuel ih =>
      cases next with
      | none => simp [Kernel.svcSearch]
      | some task =>
          rw [Kernel.svcSearch, Kernel.svcSearch, rep.isReady, rep.priority, rep.allNext]
          exact ih _ _

/-- The task found is ready in both, and running afterwards. -/
theorem markRunning (rep : Rep none kernel spec) (task : Fin n) :
    Simulates (Rep none) (kernel.markRunning task) (spec.markRunning task) := by
  have same := rep.state task
  unfold Kernel.markRunning
  cases state : (spec.tcb task).state with
  | ready slice =>
      have state' : (kernel.tcb task).state = .ready slice := by
        rw [state] at same
        cases left : (kernel.tcb task).state <;> simp_all [TaskState.forget]
      rw [state']
      exact rep.setUnlinked rfl (by simp [state]) (by simp)
  | _ =>
      rw [state] at same
      cases left : (kernel.tcb task).state <;> simp_all [TaskState.forget]

/-- The launch dispatches the same task, with the same stack pointer. -/
theorem svcFirstTaskSp (rep : Rep none kernel spec) :
    Simulates Alike kernel.svcFirstTaskSp spec.svcFirstTaskSp := by
  simp only [Kernel.svcFirstTaskSp, rep.svcSearch_eq, rep.statics]
  apply Simulates.bind (Simulates.refl _)
  rintro ⟨best, _⟩ _ rfl
  apply Simulates.bind (Simulates.refl _)
  rintro first _ rfl
  have dispatched : Rep none (kernel.setCurrent best) (spec.setCurrent best) := rep.modifyStatics _
  apply Simulates.bind (dispatched.markRunning first)
  exact fun _ _ related => ⟨related, related.sp first⟩

/-- PendSV stores the stack pointer in the same TCB, and makes a running task ready with its slice. -/
theorem saveCurrent (rep : Rep none kernel spec) (sp : Word) :
    Simulates (Rep none) (kernel.saveCurrent sp) (spec.saveCurrent sp) := by
  simp only [Kernel.saveCurrent, rep.statics]
  apply Simulates.bind (Simulates.refl _)
  rintro old _ rfl
  have saved : Rep none (kernel.modifyTcb old fun tcb => { tcb with sp })
      (spec.modifyTcb old fun tcb => { tcb with sp }) :=
    rep.modifyTcb (congrArg (fun tcb : Tcb n Unit => { tcb with sp }) (rep.tcb old)) rfl rfl
      (rep.wf.ownFrame old)
  have same := saved.state old
  cases state : ((spec.modifyTcb old fun tcb => { tcb with sp }).tcb old).state with
  | running slice =>
      have state' : ((kernel.modifyTcb old fun tcb => { tcb with sp }).tcb old).state =
          .running slice := by
        rw [state] at same
        cases left : ((kernel.modifyTcb old fun tcb => { tcb with sp }).tcb old).state <;>
          simp_all [TaskState.forget]
      rw [state']
      exact saved.setUnlinked rfl (fun list blocked => by cases state.symm.trans blocked) (by simp)
  | _ =>
      rw [state] at same
      cases left : ((kernel.modifyTcb old fun tcb => { tcb with sp }).tcb old).state <;>
        first | exact saved | simp_all [TaskState.forget]

/-- `tick` wakes a task if it sleeps until now, in both. -/
theorem wakeDue (rep : Rep none kernel spec) (now : U64) (task : Fin n) :
    Rep none (kernel.wakeDue now task) (spec.wakeDue now task) := by
  have same := rep.state task
  unfold Kernel.wakeDue
  cases state : (spec.tcb task).state with
  | sleeping deadline =>
      have state' : (kernel.tcb task).state = .sleeping deadline := by
        rw [state] at same
        cases left : (kernel.tcb task).state <;> simp_all [TaskState.forget]
      rw [state', rep.timeSlice]
      simp only
      split
      · exact rep.setUnlinked rfl (by simp [state]) (by simp)
      · exact rep
  | _ =>
      rw [state] at same
      cases left : (kernel.tcb task).state <;> first | exact rep | simp_all [TaskState.forget]

/-- The wake-up loop visits the same tasks with the same flag. -/
theorem tickWake (rep : Rep none kernel spec) (now : U64) (current : Fin n) (curPrio : U8)
    (fuel : Nat) (next : TcbPtr n) (preempt : Bool) :
    Simulates Alike (Kernel.tickWake now current curPrio fuel next (kernel, preempt))
      (Kernel.tickWake now current curPrio fuel next (spec, preempt)) := by
  induction fuel generalizing kernel spec next preempt with
  | zero =>
      cases next with
      | none => exact ⟨rep, rfl⟩
      | some task => exact rfl
  | succ fuel ih =>
      cases next with
      | none => exact ⟨rep, rfl⟩
      | some task =>
          have woken := rep.wakeDue now task
          simp only [Kernel.tickWake, rep.allNext, woken.isReady, woken.priority, woken.allNext]
          split
          · exact ih rep _ _
          · exact ih woken _ _

/-- The loop for a peer of `CURRENT` only reads. -/
theorem tickPeer_eq (rep : Rep none kernel spec) (current : Fin n) (curPrio : U8) (fuel : Nat)
    (next : TcbPtr n) :
    kernel.tickPeer current curPrio fuel next = spec.tickPeer current curPrio fuel next := by
  induction fuel generalizing next with
  | zero => cases next <;> simp [Kernel.tickPeer]
  | succ fuel ih =>
      cases next with
      | none => simp [Kernel.tickPeer]
      | some task =>
          rw [Kernel.tickPeer, Kernel.tickPeer, rep.isReady, rep.priority, rep.allNext, ih]

/-- The slice of `CURRENT` is counted down, or given up to a peer, in both. -/
theorem tickSlice (rep : Rep none kernel spec) (current : Fin n) (curPrio : U8) :
    Simulates Alike (kernel.tickSlice current curPrio) (spec.tickSlice current curPrio) := by
  have same := rep.state current
  unfold Kernel.tickSlice
  cases state : (spec.tcb current).state with
  | running slice =>
      have state' : (kernel.tcb current).state = .running slice := by
        rw [state] at same
        cases left : (kernel.tcb current).state <;> simp_all [TaskState.forget]
      have notBlocked : ∀ list, (spec.tcb current).state ≠ .blocked list := by simp [state]
      rw [state', rep.timeSlice]
      simp only
      by_cases expired : (if 0 < slice then slice - 1 else slice) = 0
      · rw [if_pos expired, if_pos expired]
        have reloaded : Rep none
            (kernel.setState current (.running (spec.tcb current).timeSlice))
            (spec.setState current (.running (spec.tcb current).timeSlice)) :=
          rep.setUnlinked rfl notBlocked (by simp)
        rw [reloaded.tickPeer_eq, reloaded.statics]
        apply Simulates.bind (Simulates.refl _)
        rintro peer _ rfl
        exact ⟨reloaded, rfl⟩
      · rw [if_neg expired, if_neg expired]
        exact ⟨rep.setUnlinked rfl notBlocked (by simp), rfl⟩
  | _ =>
      rw [state] at same
      cases left : (kernel.tcb current).state <;>
        first | exact ⟨rep, rfl⟩ | simp_all [TaskState.forget]

/-- `tick` counts, wakes and preempts alike. -/
theorem tick (rep : Rep none kernel spec) : Simulates Alike kernel.tick spec.tick := by
  have ticked := rep.modifyStatics fun statics => { statics with tickCount := statics.tickCount + 1 }
  simp only [Kernel.tick, ticked.statics, ticked.isRunning, ticked.priority]
  cases isCurrent : (spec.modifyStatics fun statics =>
      { statics with tickCount := statics.tickCount + 1 }).current with
  | none => exact ⟨ticked, rfl⟩
  | some current =>
      simp only
      split
      · apply Rep.bind (ticked.tickWake _ _ _ _ _ _)
        intro woken woken' preempt related
        cases preempt with
        | true => exact ⟨related, rfl⟩
        | false => exact related.tickSlice _ _
      · exact ⟨ticked, rfl⟩

/-- The slots are shared, so both destroy the same value. -/
theorem destroy {id : Nat} {slot : U8} (rep : Rep none kernel spec) :
    Simulates (Rep none) (Pool.destroy kernel id slot) (Pool.destroy spec id slot) := by
  simp only [Pool.destroy, rep.statics]
  split
  · cases (spec.pool id).nodes slot.val with
    | none => exact rfl
    | some value => exact rep.modifyStatics _
  · exact rfl

/-- Both write to the same slot. -/
theorem write {id : Nat} {slot : U8} {value : V} (rep : Rep none kernel spec) :
    Simulates (Rep none) (Pool.write kernel id slot value) (Pool.write spec id slot value) := by
  simp only [Pool.write, rep.statics]
  split
  · cases (spec.pool id).nodes slot.val with
    | none => exact rfl
    | some stored => exact rep.modifyStatics _
  · exact rfl

/-- `spawn_into`, while nothing is blocked yet. -/
theorem spawnInto (rep : Rep none kernel spec) (token : SpawnToken n)
    (notBlocked : ∀ task list, (spec.tcb task).state ≠ .blocked list) :
    Simulates (fun after after' => Rep none after after' ∧
        ∀ task list, (after'.tcb task).state ≠ .blocked list)
      (kernel.spawnInto token) (spec.spawnInto token) := by
  simp only [Kernel.spawnInto, rep.statics]
  split
  · exact rfl
  · rw [Simulates.ok_iff]
    constructor
    · apply Rep.modifyStatics
      refine rep.overwrite rfl (fun list => ?_) ?_
      · rw [rep.wf.mem]
        exact notBlocked token.tcb list
      · exact (rep.wf.open_of_not_blocked (notBlocked token.tcb)).overwrite (by simp) (by simp)
    · intro task list
      by_cases same : task = token.tcb
      · subst same
        simp
      · simpa [same] using notBlocked task list

/-- Spawning tasks one after another, none of which is blocked yet. -/
theorem foldlM_spawnInto (rep : Rep none kernel spec)
    (notBlocked : ∀ task list, (spec.tcb task).state ≠ .blocked list)
    (tokens : List (SpawnToken n)) :
    Simulates (Rep none) (tokens.foldlM Kernel.spawnInto kernel)
      (tokens.foldlM Kernel.spawnInto spec) := by
  induction tokens generalizing kernel spec with
  | nil => exact rep
  | cons token rest ih =>
      rw [List.foldlM_cons, List.foldlM_cons]
      apply Simulates.bind (rep.spawnInto token notBlocked)
      exact fun _ _ spawned => ih spawned.1 spawned.2

/-- The statics as their constructors leave them. -/
theorem reset (config : Config n) :
    Rep none (config.reset V (TcbPtr n) (TcbPtr n)) (config.reset V WaitList (List (Fin n))) where
  wf := by
    refine ⟨fun list task _ => ?_, fun list => ?_, by simp, fun task owner points => ?_⟩
    · simp [Config.reset, WaitOps.null, Tcb.zeroed]
    · simp [Config.reset, WaitOps.null]
    · simp [Config.reset, Tcb.zeroed] at points
  statics := rfl
  tcb _ := rfl
  chain _ := rfl

/-- Both boot, from the same tokens. -/
theorem boot (config : Config n) :
    Simulates (Rep none) (config.boot V (TcbPtr n) (TcbPtr n))
      (config.boot V WaitList (List (Fin n))) :=
  (reset config).foldlM_spawnInto (by simp [Config.reset, Tcb.zeroed]) _

end Rep

/-- The machine as coded. -/
abbrev RtosMachine (n : Nat) (V : Type) := Machine n V (TcbPtr n) (TcbPtr n)

/-- The machine as coded represents an abstract machine: related kernels, and the same
program points, handler and boxes. -/
structure RepMachine {n : Nat} {V : Type} (machine : RtosMachine n V) (spec : SpecMachine n V) :
    Prop where
  kernel : Rep none machine.kernel spec.kernel
  pendsv : machine.pendsv = spec.pendsv
  handler : machine.handler = spec.handler
  thread : machine.thread = spec.thread
  boxes : machine.boxes = spec.boxes
  isrSlots : machine.isrSlots = spec.isrSlots

/-- Both machines refuse an action, or both perform it alike. -/
def Matches {n : Nat} {V : Type} : Option (Exec (RtosMachine n V)) →
    Option (Exec (SpecMachine n V)) → Prop
  | none, none => True
  | some run, some run' => Simulates RepMachine run run'
  | _, _ => False

/-- A run of the code is matched by one of the abstract machine. -/
theorem Matches.of_some {n : Nat} {V : Type} {run : Exec (RtosMachine n V)}
    {performed' : Option (Exec (SpecMachine n V))} (matched : Matches (some run) performed') :
    ∃ run', performed' = some run' ∧ Simulates RepMachine run run' := by
  cases performed' with
  | none => exact matched.elim
  | some run' => exact ⟨run', rfl, matched⟩

namespace RepMachine

variable {n : Nat} {V : Type} {config : Config n} {machine : RtosMachine n V}
  {spec : SpecMachine n V}

/-- The same task's instructions may execute. -/
theorem threadTask_eq (rep : RepMachine machine spec) : machine.threadTask = spec.threadTask := by
  rw [Machine.threadTask, Machine.threadTask, rep.handler, rep.pendsv, rep.kernel.statics]

/-- The records of the tasks are shared. -/
theorem setThread (rep : RepMachine machine spec) (task : Fin n) (thread : Thread) :
    RepMachine (machine.setThread task thread) (spec.setThread task thread) :=
  { rep with thread := by simp [Machine.setThread, rep.thread] }

/-- A search ends with the same task, or with the same panic. -/
theorem endSearch (rep : RepMachine machine spec) (best : TcbPtr n) :
    Simulates RepMachine (machine.endSearch best) (spec.endSearch best) := by
  cases best with
  | none => exact rfl
  | some task => exact { rep with handler := rfl }

/-- PendSV takes the same step, by cases on how far it has come. -/
theorem pendsvStep (rep : RepMachine machine spec) (sp : Word) :
    Matches (machine.pendsvStep sp) (spec.pendsvStep sp) := by
  have kernel := rep.kernel
  unfold Machine.pendsvStep
  rw [rep.handler]
  cases handler : spec.handler with
  | inactive =>
      simp only [rep.pendsv]
      split
      · exact { rep with pendsv := rfl, handler := rfl }
      · trivial
  | entered =>
      apply Simulates.bind (kernel.saveCurrent sp)
      intro after after' related
      exact { rep with kernel := related, handler := by simp only [related.searchStart_eq] }
  | pass1 start next best =>
      cases next with
      | none => exact { rep with handler := by simp only [kernel.statics] }
      | some task =>
          exact { rep with handler := by simp only [kernel.allNext, kernel.consider_eq] }
  | pass2 start next best =>
      cases next with
      | none => exact rep.endSearch best.1
      | some task =>
          simp only
          split
          · exact rep.endSearch best.1
          · exact { rep with handler := by simp only [kernel.allNext, kernel.consider_eq] }
  | selected task =>
      have chosen : Rep none (machine.kernel.setCurrent (some task))
          (spec.kernel.setCurrent (some task)) := kernel.modifyStatics _
      exact { rep with kernel := chosen, handler := rfl }
  | switched task =>
      apply Simulates.bind (kernel.markRunning task)
      exact fun _ _ related => { rep with kernel := related, handler := rfl }

/-- A task returns from the same program point with the same result. -/
theorem returnFrom (rep : RepMachine machine spec) (task : Fin n) :
    Matches (machine.returnFrom task) (spec.returnFrom task) := by
  have kernel := rep.kernel
  have back := rep.setThread task { spec.thread task with pc := .user }
  unfold Machine.returnFrom
  simp only [rep.thread]
  cases pc : (spec.thread task).pc with
  | takeRet id => exact back
  | waitAllRet id => exact back
  | onceRet id => exact back
  | sendRet id => exact back
  | lockRet id => exact rep.setThread task _
  | waitAnyRet id =>
      simp only [kernel.waitWord_eq]
      apply Simulates.bind (Simulates.refl _)
      exact fun _ _ _ => back
  | recvRet id =>
      simp only [kernel.statics]
      cases spec.kernel.frame (some task) with
      | none => exact rfl
      | some value => exact { back with kernel := kernel.logReturned }
  | allocRet id slot => exact { back with boxes := by simp [Machine.addBox, Machine.setThread, rep.boxes] }
  | allocBlockingRet id =>
      simp only [Pool.assignedSlot, kernel.waitWord_eq]
      apply Simulates.bind (Simulates.refl _)
      rintro slot _ rfl
      exact { back with boxes := by simp [Machine.addBox, Machine.setThread, rep.boxes] }
  | user => trivial
  | relock id => trivial
  | sleepUntil deadline => trivial
  | halted => trivial

/-- Every step is matched. -/
theorem perform (rep : RepMachine machine spec) (core : SpecMachine.Core config spec)
    (action : Action V) :
    Matches (machine.perform config.idle action) (spec.perform config.idle action) := by
  have kernel := rep.kernel
  have sameTask := rep.threadTask_eq
  unfold Machine.perform
  cases action with
  | launch =>
      simp only [kernel.statics]
      split
      · apply Simulates.bind kernel.svcFirstTaskSp
        exact fun _ _ related => { rep with kernel := related.1 }
      · trivial
  | tick =>
      apply Simulates.bind kernel.tick
      rintro ⟨after, preempt⟩ ⟨after', preempt'⟩ ⟨related, rfl⟩
      exact { rep with kernel := related, pendsv := by rw [rep.pendsv] }
  | pendsv sp => exact rep.pendsvStep sp
  | isr call =>
      simp only
      split
      · rename_i safe
        apply Simulates.bind (kernel.run call (.inl safe))
        rintro ⟨after, outcome⟩ ⟨after', outcome'⟩ ⟨related, rfl⟩
        exact { rep with
          kernel := related
          pendsv := by rw [rep.pendsv]
          isrSlots := by rw [rep.isrSlots] }
      · trivial
  | isrRet id slot =>
      simp only [rep.isrSlots]
      split
      · exact { rep with boxes := by simp [Machine.addBox, rep.boxes], isrSlots := rfl }
      · trivial
  | call call =>
      simp only [sameTask, rep.thread]
      cases isTask : spec.threadTask with
      | none => trivial
      | some task =>
          simp only
          split
          · rename_i guard
            have running : CurrentRuns spec.kernel := by
              intro current isCurrent
              obtain ⟨_, _, isTaskCurrent⟩ := Machine.threadTask_eq_some.mp isTask
              obtain rfl : task = current := by simpa [isTaskCurrent] using isCurrent
              exact core.task_running isTask guard.2.1
            apply Simulates.bind (kernel.run call (.inr running))
            rintro ⟨after, outcome⟩ ⟨after', outcome'⟩ ⟨related, rfl⟩
            exact { rep.setThread task _ with kernel := related, pendsv := rfl }
          · trivial
  | trigger =>
      simp only [sameTask, rep.thread]
      cases spec.threadTask with
      | none => trivial
      | some task =>
          simp only
          split
          · exact { rep.setThread task _ with pendsv := rfl }
          · trivial
  | ret =>
      simp only [sameTask, rep.thread]
      cases spec.threadTask with
      | none => trivial
      | some task =>
          simp only
          split
          · trivial
          · exact rep.returnFrom task
  | dropBox id slot =>
      simp only [sameTask, rep.thread, rep.boxes]
      cases spec.threadTask with
      | none => trivial
      | some task =>
          simp only
          split
          · apply Simulates.bind kernel.destroy
            intro after after' related
            exact { rep.setThread task _ with
              kernel := related, boxes := by simp [Machine.setThread, Machine.removeBox, rep.boxes] }
          · trivial
  | writeBox id slot value =>
      simp only [sameTask, rep.thread, rep.boxes]
      cases spec.threadTask with
      | none => trivial
      | some task =>
          simp only
          split
          · apply Simulates.bind kernel.write
            exact fun _ _ related => { rep with kernel := related, thread := rfl, boxes := rfl }
          · trivial
  | forgetGuard id =>
      simp only [sameTask, rep.thread]
      cases spec.threadTask with
      | none => trivial
      | some task =>
          simp only
          split
          · exact rep.setThread task _
          · trivial

/-- A step of the code is the same step of the abstract machine. -/
theorem perform_ok (rep : RepMachine machine spec) (core : SpecMachine.Core config spec)
    {action : Action V} {next : RtosMachine n V}
    (performed : machine.perform config.idle action = some (.ok next)) :
    ∃ spec', spec.perform config.idle action = some (.ok spec') ∧ RepMachine next spec' := by
  have matched := rep.perform core action
  rw [performed] at matched
  obtain ⟨run', performed', same⟩ := matched.of_some
  obtain ⟨spec', rfl, related⟩ := Simulates.of_ok same rfl
  exact ⟨spec', performed', related⟩

/-- A fault of the code is the same fault of the abstract machine. -/
theorem perform_error (rep : RepMachine machine spec) (core : SpecMachine.Core config spec)
    {action : Action V} {fault : Fault}
    (performed : machine.perform config.idle action = some (.error fault)) :
    spec.perform config.idle action = some (.error fault) := by
  have matched := rep.perform core action
  rw [performed] at matched
  obtain ⟨run', performed', same⟩ := matched.of_some
  rw [performed', Simulates.of_error same rfl]

/-- The machine as coded. -/
abbrev system (config : Config n) (V : Type) : TransitionSystem (RtosMachine n V) (Action V) :=
  config.system V (TcbPtr n) (TcbPtr n)

/-- The code refines the abstract machine. -/
theorem simulation (config : Config n) (V : Type) :
    TransitionSystem.Simulation (system config V) (SpecMachine.system config V) RepMachine where
  initial := by
    rintro machine ⟨kernel, boot, rfl⟩
    obtain ⟨spec, booted, related⟩ := (Rep.boot config).of_ok boot
    exact ⟨_, ⟨spec, booted, rfl⟩, related, rfl, rfl, rfl, rfl, rfl⟩
  step machine action next spec rep reachable performed :=
    rep.perform_ok (SpecMachine.core_of_reachable reachable) performed

/-- Every reachable state of the code represents a reachable abstract state. -/
theorem exists_spec (reachable : (system config V).Reachable machine) :
    ∃ spec, (SpecMachine.system config V).Reachable spec ∧ RepMachine machine spec :=
  (simulation config V).reachable reachable

/-- From matching states a sequence of actions is performed alike. -/
theorem performAll (rep : RepMachine machine spec)
    (reachable : (SpecMachine.system config V).Reachable spec) (actions : List (Action V)) :
    Matches (machine.performAll config.idle actions) (spec.performAll config.idle actions) := by
  unfold Machine.performAll
  induction actions generalizing machine spec with
  | nil => exact rep
  | cons action rest ih =>
      have matched := rep.perform (SpecMachine.core_of_reachable reachable) action
      rw [Machine.performWithin, Machine.performWithin, if_pos rfl, if_pos rfl]
      cases performed : machine.perform config.idle action with
      | none =>
          rw [performed] at matched
          cases performed' : spec.perform config.idle action with
          | none => trivial
          | some run' => rw [performed'] at matched; exact matched.elim
      | some run =>
          rw [performed] at matched
          obtain ⟨run', performed', same⟩ := matched.of_some
          rw [performed']
          cases run with
          | error fault => rw [Simulates.of_error same rfl]; rfl
          | ok next =>
              obtain ⟨spec', rfl, related⟩ := Simulates.of_ok same rfl
              exact ih related (.step reachable performed')

/-- The kernel with intrusive lists is the kernel with lists: from the boot on, every sequence of
actions is refused by both, or runs into the same fault in both, or leads to states that agree in
all but the wait lists, where the links of the one make up the lists of the other. -/
theorem execute_matches (config : Config n) (V : Type) (actions : List (Action V)) :
    Matches (config.execute V (TcbPtr n) (TcbPtr n) (fun _ _ => true) actions)
      (config.execute V WaitList (List (Fin n)) (fun _ _ => true) actions) := by
  have booted := Rep.boot (V := V) config
  unfold Config.execute
  match boot : config.boot V (TcbPtr n) (TcbPtr n), boot' : config.boot V WaitList (List (Fin n)),
    booted with
  | .ok kernel, .ok spec, related =>
      have started : RepMachine (Config.start V _ _ kernel) (Config.start V _ _ spec) :=
        ⟨related, rfl, rfl, rfl, rfl, rfl⟩
      exact started.performAll (.initial ⟨spec, boot', rfl⟩) actions
  | .error _, .error _, same => exact same

end RepMachine

end Kangaroos
