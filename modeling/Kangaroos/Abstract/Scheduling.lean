import Kangaroos.Abstract.Effect
import Kangaroos.Kernel.Traversal

/-!
# What the scheduler may touch

`tick`, the launch and the steps of PendSV move tasks among the states `Ready`,
`Running` and `Sleeping`; wait lists, primitives and priorities stay. The loops
over `ALL_TASKS` visit the tasks of the list once each, so they end.
-/

namespace Kangaroos

namespace Spec

variable {n : Nat} {V : Type} {kernel : Spec n V}

/-- Only `CURRENT`, `TICK`, saved stack pointers, and states among `Ready`, `Running` and
`Sleeping` change. -/
structure Rescheduled (before after : Spec n V) : Prop where
  waitHead : after.waitHead = before.waitHead
  statics : ∃ current tickCount,
    after.toStatics = { before.toStatics with current, tickCount }
  fixed : ∀ task, (after.tcb task).priority = (before.tcb task).priority ∧
    (after.tcb task).basePriority = (before.tcb task).basePriority ∧
    (after.tcb task).timeSlice = (before.tcb task).timeSlice ∧
    (after.tcb task).allNext = (before.tcb task).allNext ∧
    (after.tcb task).waitPtr = (before.tcb task).waitPtr
  state : ∀ task, (after.tcb task).state = (before.tcb task).state ∨
    ((before.tcb task).state.runnable = true ∨ ∃ deadline, (before.tcb task).state = .sleeping deadline) ∧
      (after.tcb task).state.runnable = true

namespace Rescheduled

theorem refl (kernel : Spec n V) : Rescheduled kernel kernel where
  waitHead := rfl
  statics := ⟨kernel.current, kernel.tickCount, rfl⟩
  fixed _ := ⟨rfl, rfl, rfl, rfl, rfl⟩
  state _ := .inl rfl

theorem trans {first second third : Spec n V} (left : Rescheduled first second)
    (right : Rescheduled second third) : Rescheduled first third where
  waitHead := right.waitHead.trans left.waitHead
  statics := by
    obtain ⟨_, _, near⟩ := left.statics
    obtain ⟨current, tickCount, far⟩ := right.statics
    exact ⟨current, tickCount, by rw [far, near]⟩
  fixed task := by
    obtain ⟨near1, near2, near3, near4, near5⟩ := left.fixed task
    obtain ⟨far1, far2, far3, far4, far5⟩ := right.fixed task
    exact ⟨far1.trans near1, far2.trans near2, far3.trans near3, far4.trans near4,
      far5.trans near5⟩
  state task := by
    rcases right.state task with same | ⟨ready, runs⟩
    · rw [same]
      exact left.state task
    · rcases left.state task with same | ⟨readyBefore, _⟩
      · exact .inr ⟨same ▸ ready, runs⟩
      · exact .inr ⟨readyBefore, runs⟩

/-- A task waits on the same list before and after. -/
theorem blocked_iff {before after : Spec n V} (moved : Rescheduled before after) (task : Fin n)
    (list : WaitList) :
    (after.tcb task).state = .blocked list ↔ (before.tcb task).state = .blocked list := by
  rcases moved.state task with same | ⟨ready, runs⟩
  · rw [same]
  · constructor
    · intro blocked
      simp [blocked, TaskState.runnable, TaskState.isReady] at runs
    · intro blocked
      simp [blocked, TaskState.runnable, TaskState.isReady] at ready

/-- Wait lists stay well formed. -/
theorem wellFormed {before after : Spec n V} (moved : Rescheduled before after)
    (wf : WellFormed before none) : WellFormed after none where
  mem_iff list task _ := by
    rw [moved.waitHead, moved.blocked_iff]
    exact wf.mem
  nodup := by
    rw [moved.waitHead]
    exact wf.nodup
  notListed _ isHole := by simp at isHole
  ownFrame task owner points := by
    rw [(moved.fixed task).2.2.2.2] at points
    exact wf.ownFrame task owner points

/-- Moving one task among the states the scheduler uses. -/
theorem setState {task : Fin n} {state : TaskState WaitList}
    (source : (kernel.tcb task).state.runnable = true ∨
      ∃ deadline, (kernel.tcb task).state = .sleeping deadline) (target : state.runnable = true) :
    Rescheduled kernel (kernel.setState task state) where
  waitHead := rfl
  statics := ⟨kernel.current, kernel.tickCount, rfl⟩
  fixed other := by
    by_cases same : other = task
    · subst same
      simp
    · simp [same]
  state other := by
    by_cases same : other = task
    · subst same
      exact .inr ⟨source, by simpa using target⟩
    · simp [same]

/-- Writing `CURRENT`. -/
theorem setCurrent (kernel : Spec n V) (current : TcbPtr n) :
    Rescheduled kernel (kernel.setCurrent current) :=
  { refl kernel with statics := ⟨current, kernel.tickCount, rfl⟩ }

end Rescheduled

/-- A sleeper that `tick` may wake. -/
def SleeperWoken (before after : TaskState WaitList) : Prop :=
  (∃ deadline, before = .sleeping deadline) ∧ ∃ slice, after = .ready slice

/-- What the fused loop of `tick` does on the tasks it has yet to visit. -/
structure WakePass (current : Fin n) (curPrio : U8) (tasks : List (Fin n)) (preempt : Bool)
    (before : Spec n V) (result : Spec n V × Bool) : Prop where
  moved : Rescheduled before result.1
  statics : result.1.toStatics = before.toStatics
  unvisited : ∀ task, task ∉ tasks ∨ task = current → result.1.tcb task = before.tcb task
  state : ∀ task, (result.1.tcb task).state = (before.tcb task).state ∨
    SleeperWoken (before.tcb task).state (result.1.tcb task).state
  quiet : result.2 = false → preempt = false ∧ ∀ task ∈ tasks, task ≠ current →
    (result.1.tcb task).state.isReady = true → curPrio ≤ (result.1.tcb task).priority

theorem wakeAll_spec (kernel : Spec n V) (now : U64) (current : Fin n) (curPrio : U8)
    (tasks : List (Fin n)) :
    WakePass current curPrio tasks false kernel (kernel.wakeAll now current tasks,
      (kernel.wakeAll now current tasks).rival current curPrio tasks) := by
  have visited : ∀ task, (kernel.wakeAll now current tasks).tcb task = kernel.tcb task ∨
      (kernel.tcb task).Overdue now ∧ (kernel.wakeAll now current tasks).tcb task =
        { kernel.tcb task with state := .ready (kernel.tcb task).timeSlice } := by
    intro task
    rw [Kernel.wakeAll_tcb]
    split
    · obtain overdue | ⟨_, same⟩ := Tcb.wake_cases now (kernel.tcb task)
      · exact .inr overdue
      · exact .inl same
    · exact .inl rfl
  refine ⟨⟨rfl, ⟨_, _, rfl⟩, fun task => ?_, fun task => ?_⟩, rfl, fun task outside => ?_,
    fun task => ?_, fun unset => ⟨rfl, fun task member different ready => ?_⟩⟩
  · obtain same | ⟨_, woken⟩ := visited task
    · rw [same]
      exact ⟨rfl, rfl, rfl, rfl, rfl⟩
    · rw [woken]
      exact ⟨rfl, rfl, rfl, rfl, rfl⟩
  · obtain same | ⟨⟨deadline, sleeps, _⟩, woken⟩ := visited task
    · exact .inl (by rw [same])
    · exact .inr ⟨.inr ⟨deadline, sleeps⟩, by rw [woken]; rfl⟩
  · rw [Kernel.wakeAll_tcb, if_neg]
    rintro ⟨inside, different⟩
    exact outside.elim (· inside) different
  · obtain same | ⟨⟨deadline, sleeps, _⟩, woken⟩ := visited task
    · exact .inl (by rw [same])
    · exact .inr ⟨⟨deadline, sleeps⟩, _, by rw [woken]⟩
  · by_contra urgent
    have seen := Kernel.rival_iff.mpr ⟨task, member, different, ready, not_le.mp urgent⟩
    exact absurd (seen.symm.trans unset) (by simp)

/-- What `tick` does to a state whose tasks are `order`. -/
structure Ticked (order : List (Fin n)) (before : Spec n V) (result : Spec n V × Bool) : Prop where
  moved : Rescheduled before result.1
  current : result.1.current = before.current
  /-- Outside Thread mode of a running task, only the time advances. -/
  paused : (∀ current, before.current = some current →
      (before.tcb current).state.isRunning = false) →
    result.1.tcb = before.tcb ∧ result.2 = false
  running : ∀ current, before.current = some current →
    (before.tcb current).state.isRunning = true → (result.1.tcb current).state.isRunning = true
  others : ∀ task, before.current ≠ some task →
    (result.1.tcb task).state = (before.tcb task).state ∨
      SleeperWoken (before.tcb task).state (result.1.tcb task).state
  quiet : result.2 = false → ∀ current, before.current = some current →
    (before.tcb current).state.isRunning = true → ∀ task ∈ order, task ≠ current →
    (result.1.tcb task).state.isReady = true →
    (before.tcb current).priority ≤ (result.1.tcb task).priority

/-- After the fused loop only the slice of the running task changes. -/
theorem Ticked.of_pass {order : List (Fin n)} {current : Fin n} {woken after : Spec n V}
    {preempt flag : Bool} (isCurrent : kernel.current = some current)
    (pass : WakePass current (kernel.tcb current).priority order false kernel (woken, preempt))
    (movedAfter : Rescheduled woken after) (sameCurrent : after.current = woken.current)
    (others : ∀ task, task ≠ current → after.tcb task = woken.tcb task)
    (runs : (after.tcb current).state.isRunning = true) (flagged : flag = false → preempt = false)
    (wasRunning : (kernel.tcb current).state.isRunning = true) :
    Ticked order kernel (after, flag) where
  moved := pass.moved.trans movedAfter
  current := sameCurrent.trans (congrArg Statics.current pass.statics)
  paused stopped := by
    have contradiction := stopped current isCurrent
    simp [wasRunning] at contradiction
  running other isOther _ := by
    obtain rfl : current = other := by simpa [isCurrent] using isOther
    exact runs
  others task notCurrent := by
    have different : task ≠ current := by
      rintro rfl
      exact notCurrent isCurrent
    rw [others task different]
    exact pass.state task
  quiet unset other isOther _ task member different ready := by
    obtain rfl : current = other := by simpa [isCurrent] using isOther
    rw [others task different] at ready ⊢
    exact (pass.quiet (flagged unset)).2 task member different ready

/-- Nothing but the time changes while no task is running. -/
theorem Ticked.of_stopped {order : List (Fin n)}
    (stopped : ∀ current, kernel.current = some current →
      (kernel.tcb current).state.isRunning = false) : Ticked order kernel (kernel, false) where
  moved := .refl kernel
  current := rfl
  paused _ := ⟨rfl, rfl⟩
  running current isCurrent runs := by simp [stopped current isCurrent] at runs
  others _ _ := .inl rfl
  quiet _ current isCurrent runs := by simp [stopped current isCurrent] at runs

/-- The increment of `TICK` comes first and matters to nothing else. -/
theorem Ticked.of_increment {order : List (Fin n)} {ticked : Spec n V}
    {result : Spec n V × Bool} (moved : Rescheduled kernel ticked)
    (sameCurrent : ticked.current = kernel.current) (sameTcb : ticked.tcb = kernel.tcb)
    (rest : Ticked order ticked result) : Ticked order kernel result where
  moved := moved.trans rest.moved
  current := rest.current.trans sameCurrent
  paused := by
    rw [← sameCurrent, ← sameTcb]
    exact rest.paused
  running := by
    rw [← sameCurrent, ← sameTcb]
    exact rest.running
  others := by
    rw [← sameCurrent, ← sameTcb]
    exact rest.others
  quiet := by
    rw [← sameCurrent, ← sameTcb]
    exact rest.quiet

theorem tick_spec {order : List (Fin n)}
    (chain : Linked.Chain kernel.allLink kernel.allTasks order) :
    Triple kernel.tick (Ticked order kernel) Benign := by
  have moved : Rescheduled kernel kernel.countTick :=
    { Rescheduled.refl kernel with statics := ⟨kernel.current, kernel.tickCount + 1, rfl⟩ }
  obtain ⟨current, slice, isCurrent, runs⟩ | stopped := Kernel.running_or_stopped kernel
  · obtain ⟨result, returned, ticks⟩ := Kernel.tick_running chain isCurrent runs
    rw [returned]
    refine Ticked.of_increment moved rfl rfl ?_
    have pass := wakeAll_spec kernel.countTick (kernel.tickCount + 1) current
      (kernel.tcb current).priority order
    have sameCurrent := pass.unvisited current (.inr rfl)
    have wasRunning : (kernel.countTick.tcb current).state.isRunning = true := by
      rw [show kernel.countTick.tcb = kernel.tcb from rfl, runs]
      rfl
    have stillRuns := wasRunning
    rw [← sameCurrent] at stillRuns
    have reslices : ∀ left, Rescheduled (kernel.countTick.wakeAll (kernel.tickCount + 1) current order)
        ((kernel.countTick.wakeAll (kernel.tickCount + 1) current order).setState current
          (.running left)) := by
      intro left
      refine .setState (.inl ?_) rfl
      rw [TaskState.runnable, stillRuns, Bool.or_true]
    cases ticks with
    | preempts urgent =>
        exact Ticked.of_pass isCurrent pass (.refl _) rfl (fun _ _ => rfl) stillRuns (by simp)
          wasRunning
    | counts quiet remains =>
        refine Ticked.of_pass isCurrent pass (reslices _) rfl ?_ ?_ ?_ wasRunning
        · intro task different
          simp [different]
        · simp
        · intro _
          rwa [show _ = kernel.tcb current from sameCurrent] at quiet
    | expires quiet used =>
        refine Ticked.of_pass isCurrent pass (reslices _) rfl ?_ ?_ ?_ wasRunning
        · intro task different
          simp [different]
        · simp
        · intro _
          rwa [show _ = kernel.tcb current from sameCurrent] at quiet
  · rw [Kernel.tick_stopped stopped]
    exact Ticked.of_increment moved rfl rfl (Ticked.of_stopped stopped)

/-- The launch search returns what it was given or a ready task of the list. -/
theorem svcSearch_spec {tasks : List (Fin n)} {fuel : Nat} {next : TcbPtr n}
    {best : TcbPtr n × U8} (chain : Linked.Chain kernel.allLink next tasks)
    (enough : tasks.length ≤ fuel) :
    Triple (kernel.svcSearch fuel next best) (fun result => ∀ task, result.1 = some task →
      best.1 = some task ∨ task ∈ tasks ∧ (kernel.tcb task).state.isReady = true) Benign := by
  rw [Kernel.svcSearch_eq chain enough]
  clear chain enough
  induction tasks generalizing best with
  | nil => exact fun task found => .inl found
  | cons task rest ih =>
      intro other isOther
      rcases ih other isOther with fromBest | ⟨inRest, ready⟩
      · unfold Kernel.launchConsider at fromBest
        split at fromBest
        · rename_i taken
          obtain rfl : task = other := by simpa using fromBest
          exact .inr ⟨List.mem_cons_self, taken.1⟩
        · exact .inl fromBest
      · exact .inr ⟨List.mem_cons_of_mem _ inRest, ready⟩

/-- A ready task becomes the running one. -/
theorem markRunning_spec {task : Fin n} (ready : (kernel.tcb task).state.isReady = true) :
    Triple (kernel.markRunning task) (fun after => Rescheduled kernel after ∧
      after.toStatics = kernel.toStatics ∧ (after.tcb task).state.isRunning = true ∧
      ∀ other, other ≠ task → after.tcb other = kernel.tcb other) Benign := by
  obtain ⟨slice, isReady⟩ := TaskState.isReady_iff.mp ready
  simp only [Kernel.markRunning, isReady]
  refine ⟨.setState (.inl (by simp [TaskState.runnable, ready])) rfl, rfl, by simp, ?_⟩
  intro other different
  simp [different]

/-- What the launch does: one ready task of the list becomes `CURRENT` and runs. -/
theorem svcFirstTaskSp_spec {order : List (Fin n)}
    (chain : Linked.Chain kernel.allLink kernel.allTasks order) (distinct : order.Nodup) :
    Triple kernel.svcFirstTaskSp (fun result => Rescheduled kernel result.1 ∧
      ∃ first ∈ order, result.1.current = some first ∧
        (result.1.tcb first).state.isRunning = true ∧
        ∀ other, other ≠ first → result.1.tcb other = kernel.tcb other) Benign := by
  have enough : order.length ≤ n := by simpa using distinct.length_le_card
  unfold Kernel.svcFirstTaskSp
  apply Triple.bind (svcSearch_spec chain enough)
  rintro ⟨best, _⟩ found
  apply Triple.bind (deref_triple _)
  intro first isBest
  obtain ⟨inOrder, ready⟩ := (found first isBest).resolve_left (by simp)
  have readyCurrent : ((kernel.setCurrent best).tcb first).state.isReady = true := ready
  apply Triple.bind (markRunning_spec readyCurrent)
  rintro after ⟨moved, statics, runs, others⟩
  refine ⟨(Rescheduled.setCurrent kernel best).trans moved, first, inOrder, ?_, runs, others⟩
  rw [statics]
  exact isBest

/-- The first half of the switch: `CURRENT` gives up the processor. -/
structure Saved (before after : Spec n V) : Prop where
  moved : Rescheduled before after
  statics : after.toStatics = before.toStatics
  stopped : ∀ task, before.current = some task → (after.tcb task).state.isRunning = false
  current : ∀ task, before.current = some task →
    (before.tcb task).state.isRunning = true → (after.tcb task).state.isReady = true
  others : ∀ task, before.current ≠ some task ∨ (before.tcb task).state.isRunning = false →
    (after.tcb task).state = (before.tcb task).state

theorem saveCurrent_spec (kernel : Spec n V) (sp : Word) :
    Triple (kernel.saveCurrent sp) (Saved kernel) Benign := by
  unfold Kernel.saveCurrent
  apply Triple.bind (deref_triple _)
  intro old isOld
  obtain ⟨saved, savedEq⟩ : ∃ saved : Spec n V,
      saved = kernel.modifyTcb old fun tcb => { tcb with sp } := ⟨_, rfl⟩
  have sameState : ∀ task, (saved.tcb task).state = (kernel.tcb task).state := by
    intro task
    by_cases same : task = old
    · subst same
      simp [savedEq]
    · simp [savedEq, same]
  have moved : Rescheduled kernel saved := by
    refine ⟨by rw [savedEq]; rfl, ⟨kernel.current, kernel.tickCount, by rw [savedEq]; rfl⟩, ?_,
      fun task => .inl (sameState task)⟩
    intro task
    by_cases same : task = old
    · subst same
      simp [savedEq]
    · simp [savedEq, same]
  simp only [← savedEq]
  split
  · rename_i slice runs
    have wasRunning : (saved.tcb old).state.runnable = true := by simp [runs, TaskState.runnable]
    refine ⟨moved.trans (.setState (.inl wasRunning) rfl), by rw [savedEq]; rfl, ?_, ?_, ?_⟩
    · intro task isCurrent
      obtain rfl : old = task := by simpa [isOld] using isCurrent
      simp
    · intro task isCurrent _
      obtain rfl : old = task := by simpa [isOld] using isCurrent
      simp
    · intro task away
      have different : task ≠ old := by
        rintro rfl
        rw [sameState] at runs
        simp [isOld, runs] at away
      simp [different, sameState]
  · rename_i stopped
    refine ⟨moved, by rw [savedEq]; rfl, ?_, ?_, fun task _ => sameState task⟩
    · intro task isCurrent
      obtain rfl : old = task := by simpa [isOld] using isCurrent
      rw [Bool.eq_false_iff]
      intro runs
      obtain ⟨slice, isRunning⟩ := TaskState.isRunning_iff.mp runs
      exact stopped slice isRunning
    · intro task isCurrent runs
      obtain rfl : old = task := by simpa [isOld] using isCurrent
      rw [← sameState] at runs
      obtain ⟨slice, isRunning⟩ := TaskState.isRunning_iff.mp runs
      exact absurd isRunning (stopped slice)

end Spec

end Kangaroos
