import Kangaroos.Abstract.Effect

/-!
# The contract of every critical section

Each section keeps the wait lists well formed and stays within the effect of the
primitives it names. The proofs follow the text of the sections; the last result
collects them for `Call.run`.
-/

namespace Kangaroos

namespace Spec

variable {n : Nat} {V : Type} {scope : Prim → Prop} {on : WaitList → Prop} {who : TcbPtr n}
  {kernel : Spec n V} {list : WaitList}

/-- A task that calls the kernel is running. -/
def CallerRuns (who : TcbPtr n) (kernel : Spec n V) : Prop :=
  ∀ caller, who = some caller → (kernel.tcb caller).state.isRunning = true

/-- The contract of a section with a preemption flag. -/
def Sound (scope : Prim → Prop) (on : WaitList → Prop) (who : TcbPtr n) (kernel : Spec n V)
    (result : Spec n V × Bool) : Prop :=
  WellFormed result.1 none ∧ Effect scope on who result.2 kernel result.1

/-- A section may do more before a part that meets the contract. -/
theorem Sound.after {start : Spec n V} {result : Spec n V × Bool}
    (sound : Sound scope on who kernel result) (before : Effect scope on who false start kernel)
    (steady : result.2 = true ∨
      ∀ task, (result.1.tcb task).priority = (kernel.tcb task).priority) :
    Sound scope on who start result := by
  refine ⟨sound.1, ?_⟩
  rcases steady with pended | same
  · have launched : start.current ≠ none := before.current ▸ sound.2.launched pended
    have both := (before.pended launched).trans sound.2 (.inl rfl)
    rwa [Bool.true_or, ← pended] at both
  · have both := before.trans sound.2 (.inr same)
    rwa [Bool.false_or] at both

/-- Popping finds nothing, or takes off the first of the most urgent waiters. -/
theorem popHighest_cases (kernel : Spec n V) (list : WaitList) :
    kernel.waitHead list = [] ∧ kernel.popHighest list = (kernel, none) ∨
    ∃ task ∈ kernel.waitHead list, kernel.popHighest list = (kernel.remove list task, some task) ∧
      ∀ other ∈ kernel.waitHead list, (kernel.tcb task).priority ≤ (kernel.tcb other).priority := by
  unfold popHighest
  cases chosen : kernel.mostUrgent (kernel.waitHead list) with
  | none => exact .inl ⟨mostUrgent_eq_none.mp chosen, rfl⟩
  | some task => exact .inr ⟨task, mem_of_mostUrgent chosen, rfl, fun _ => mostUrgent_le chosen⟩

/-- The same of the program text. -/
theorem pop_triple (kernel : Spec n V) (list : WaitList) :
    Triple (WaitOps.waitListPopHighest kernel list)
      (fun result => kernel.waitHead list = [] ∧ result = (kernel, none) ∨
        ∃ task ∈ kernel.waitHead list, result = (kernel.remove list task, some task) ∧
          ∀ other ∈ kernel.waitHead list,
            (kernel.tcb task).priority ≤ (kernel.tcb other).priority) Benign :=
  popHighest_cases kernel list

/-- Take `task` off `list` and make it ready. -/
def wake (kernel : Spec n V) (list : WaitList) (task : Fin n) : Spec n V :=
  (kernel.remove list task).setState task (.ready (kernel.tcb task).timeSlice)

/-- Taking a task off a list writes no TCB. -/
@[simp] theorem remove_tcb (kernel : Spec n V) (list : WaitList) (task : Fin n) :
    (kernel.remove list task).tcb = kernel.tcb := rfl

/-- Nor does it write a static. -/
@[simp] theorem remove_toStatics (kernel : Spec n V) (list : WaitList) (task : Fin n) :
    (kernel.remove list task).toStatics = kernel.toStatics := rfl

/-- It leaves the other lists alone. -/
@[simp] theorem remove_waitHead (kernel : Spec n V) (list : WaitList) (task : Fin n) :
    (kernel.remove list task).waitHead =
      Function.update kernel.waitHead list ((kernel.waitHead list).erase task) := rfl

/-- The head of a list is null just when nobody waits. -/
@[simp] theorem noWaiter_iff : kernel.noWaiter list = true ↔ kernel.waitHead list = [] :=
  List.isEmpty_iff

/-- It is not null just when somebody waits. -/
@[simp] theorem noWaiter_eq_false : kernel.noWaiter list = false ↔ kernel.waitHead list ≠ [] := by
  rw [Bool.eq_false_iff, ne_eq, noWaiter_iff]

/-- Popping a list that is not empty finds a waiter. -/
theorem pop_eq (waiting : kernel.waitHead list ≠ []) : ∃ task ∈ kernel.waitHead list,
    WaitOps.waitListPopHighest kernel list = .ok (kernel.remove list task, some task) := by
  rcases popHighest_cases kernel list with ⟨empty, _⟩ | ⟨task, member, pops, _⟩
  · exact absurd empty waiting
  · exact ⟨task, member, congrArg Except.ok pops⟩

/-- After the launch `unblock` makes a task ready with a full slice. -/
theorem unblock_eq (kernel : Spec n V) (launched : kernel.current ≠ none) (task : Fin n) : ∃ pend,
    kernel.unblock task =
      .ok (kernel.setState task (.ready (kernel.tcb task).timeSlice), pend) := by
  obtain ⟨current, isCurrent⟩ := Option.ne_none_iff_exists'.mp launched
  simp only [Kernel.unblock, Kernel.modifyTcb_toStatics, isCurrent, deref_some, Except.ok_bind]
  exact ⟨_, rfl⟩

/-- The running task is put at the front of the list. -/
theorem blockCurrent_eq {task : Fin n} (isCurrent : kernel.current = some task) :
    kernel.blockCurrent list = .ok (kernel.blockAndPush list task) := by
  simp only [Kernel.blockCurrent, isCurrent, deref_some, Except.ok_bind]
  rfl

/-- A `wait_ptr` that points into a frame is followed. -/
theorem waitFrame_eq {task : Fin n} (points : (kernel.tcb task).waitPtr = .stack task) :
    kernel.waitFrame task = .ok task := by
  simp only [Kernel.waitFrame, points]

/-- Waking a list makes the first of its most urgent waiters ready, and compares it with
`CURRENT`. -/
theorem wakeHighest_cases {after : Spec n V} {flag : Bool}
    (returned : kernel.wakeHighest list = .ok (after, flag)) :
    ∃ task current, kernel.mostUrgent (kernel.waitHead list) = some task ∧
      kernel.current = some current ∧ after = kernel.wake list task ∧
      flag = decide ((kernel.tcb task).priority < (kernel.tcb current).priority) := by
  obtain ⟨⟨popped, found⟩, pops, rest⟩ := Except.ok_of_bind returned
  obtain ⟨task, isTask, unblocks⟩ := Except.ok_of_bind rest
  obtain ⟨current, isCurrent, done⟩ := Except.ok_of_bind unblocks
  have isPopped : kernel.popHighest list = (popped, found) := Except.ok.inj pops
  unfold popHighest at isPopped
  split at isPopped
  · cases isPopped
    cases isTask
  · rename_i waiter chosen
    cases isPopped
    cases isTask
    cases done
    refine ⟨task, current, chosen, (deref_triple _).of_ok isCurrent, rfl, ?_⟩
    rw [setState_priority, setState_priority]
    rfl

/-- Waking a waiter writes no static. -/
@[simp] theorem wake_toStatics (kernel : Spec n V) (list : WaitList) (task : Fin n) :
    (kernel.wake list task).toStatics = kernel.toStatics := rfl

/-- It takes the waiter off its list and leaves the others alone. -/
@[simp] theorem wake_waitHead (kernel : Spec n V) (list : WaitList) (task : Fin n) :
    (kernel.wake list task).waitHead =
      Function.update kernel.waitHead list ((kernel.waitHead list).erase task) := rfl

/-- The caller leaves the address of a local behind and blocks. -/
def parkLocal (kernel : Spec n V) (list : WaitList) (task : Fin n) (value : Option V) : Spec n V :=
  blockAndPush ((kernel.setFrame (some task) value).setWaitPtr task (.stack task)) list task

/-- Waking the task in the hole closes it and ends what the section did before. -/
theorem unblock_sound (on : WaitList → Prop) (start : Spec n V) {task : Fin n}
    (wf : WellFormed kernel (some task)) (before : Effect scope on who false start kernel)
    (blocked : (kernel.tcb task).state = .blocked list) (inScope : scope list.home)
    (other : who ≠ some task) :
    Triple (kernel.unblock task) (fun result => Sound scope on who start result ∧
      result.1 = kernel.setState task (.ready (kernel.tcb task).timeSlice)) Benign := by
  unfold Kernel.unblock
  apply Triple.bind (deref_triple _)
  intro current isCurrent
  refine ⟨⟨wf.fill (by simp), ?_⟩, rfl⟩
  have wakes : Effect scope on who
      (decide ((kernel.tcb task).priority < (kernel.tcb current).priority)) kernel
      (kernel.setState task (.ready (kernel.tcb task).timeSlice)) :=
    .unblock inScope blocked other isCurrent
  have both := before.trans wakes (.inr fun waiter => setState_priority ..)
  rw [Bool.false_or] at both
  rw [setState_priority, setState_priority]
  exact both

/-- A waiter on a list is not the running caller. -/
theorem ne_of_mem (wf : WellFormed kernel none) (running : CallerRuns who kernel) {task : Fin n}
    (member : task ∈ kernel.waitHead list) : who ≠ some task := by
  intro isWho
  exact wf.not_mem_of_running (running task isWho) member

/-- Waking the most urgent waiter changes the list of a primitive in scope, and asks for PendSV if
the waiter is more urgent than `CURRENT`. -/
theorem wakeHighest_sound (wf : WellFormed kernel none) (running : CallerRuns who kernel)
    (inScope : scope list.home) :
    Triple (kernel.wakeHighest list) (fun result => Sound scope on who kernel result ∧
      ∃ task ∈ kernel.waitHead list, result.1 = kernel.wake list task ∧
        ∀ other ∈ kernel.waitHead list,
          (kernel.tcb task).priority ≤ (kernel.tcb other).priority) Benign := by
  unfold Kernel.wakeHighest
  apply Triple.bind (pop_triple kernel list)
  rintro _ (⟨_, rfl⟩ | ⟨task, member, rfl, least⟩)
  · exact ⟨by decide, by decide⟩
  have blocked := wf.mem.mp member
  apply (unblock_sound on kernel (wf.remove member) (.remove inScope) blocked inScope
    (ne_of_mem wf running member)).mono
  exact fun result sound => ⟨sound.1, task, member, sound.2, least⟩

/-- Blocking the running task puts it on a list in scope and asks for PendSV. -/
theorem blockCurrent_sound (wf : WellFormed kernel none) (running : CallerRuns who kernel)
    (isCurrent : who = kernel.current) (inScope : scope list.home) (onList : on list) :
    Triple (kernel.blockCurrent list) (fun after => Sound scope on who kernel (after, true) ∧
      ∃ current, who = some current ∧ after = kernel.blockAndPush list current) Benign := by
  unfold Kernel.blockCurrent
  apply Triple.bind (deref_triple _)
  intro current some_current
  have isWho := isCurrent.trans some_current
  exact ⟨⟨wf.blockAndPush (running current isWho), .blockAndPush inScope onList isWho (by simp [some_current])⟩,
    current, isWho, rfl⟩

/-- A list holds no more tasks than there are TCBs. -/
theorem WellFormed.length_le {hole : TcbPtr n} (wf : WellFormed kernel hole) (list : WaitList) :
    (kernel.waitHead list).length ≤ n := by
  simpa using (wf.nodup list).length_le_card

/-- Waking a whole list is sound one waiter after another; the fuel is its length. -/
theorem drain_sound (wf : WellFormed kernel none) (running : CallerRuns who kernel)
    (inScope : scope list.home) {fuel : Nat} (enough : (kernel.waitHead list).length ≤ fuel)
    (pend : Bool) :
    Triple (Kernel.drain list fuel (kernel, pend)) (fun result => WellFormed result.1 none ∧
      (∃ more, result.2 = (pend || more) ∧ Effect scope on who more kernel result.1) ∧
      ∀ task, (result.1.tcb task).priority = (kernel.tcb task).priority) Benign := by
  induction fuel generalizing kernel pend with
  | zero =>
      have empty : kernel.noWaiter list = true :=
        noWaiter_iff.mpr (List.length_eq_zero_iff.mp (Nat.le_zero.mp enough))
      simp only [Kernel.drain, empty, if_true]
      exact ⟨wf, ⟨false, by simp, .refl kernel⟩, fun _ => rfl⟩
  | succ fuel ih =>
      unfold Kernel.drain
      split
      · exact ⟨wf, ⟨false, by simp, .refl kernel⟩, fun _ => rfl⟩
      · apply Triple.bind (wakeHighest_sound wf running inScope)
        rintro ⟨after, urgent⟩ ⟨⟨wfAfter, effect⟩, task, member, result, _⟩
        subst result
        have runningAfter : CallerRuns who (kernel.wake list task) := by
          intro caller isWho
          have notTask : caller ≠ task := by
            rintro rfl
            exact ne_of_mem wf running member isWho
          simpa [wake, notTask] using running caller isWho
        have shorter : ((kernel.wake list task).waitHead list).length ≤ fuel := by
          simp only [wake, Kernel.modifyTcb_waitHead, remove_waitHead, Function.update_self,
            List.length_erase_of_mem member]
          omega
        refine (ih wfAfter runningAfter shorter (pend || urgent)).mono ?_
        rintro ⟨final, flag⟩ ⟨wfFinal, ⟨more, flagEq, rest⟩, steady⟩
        refine ⟨wfFinal, ⟨urgent || more, ?_, effect.trans rest (.inr steady)⟩, ?_⟩
        · simpa [Bool.or_assoc] using flagEq
        · intro other
          exact (steady other).trans (setState_priority ..)

/-- A `wait_ptr` that is read as a word is one. -/
theorem waitWord_triple (kernel : Spec n V) (task : Fin n) :
    Triple (kernel.waitWord task) (fun word => (kernel.tcb task).waitPtr = .word word) Benign := by
  unfold Kernel.waitWord
  split
  · assumption
  · exact ⟨by decide, by decide⟩

/-- What a scan does with a waiter it satisfies, once it is off the list. -/
theorem satisfy_sound {start : Spec n V} {task : Fin n} {rule : ScanRule} {event : Nat}
    {taken : Word} (wf : WellFormed kernel (some task)) (before : Effect scope on who false start kernel)
    (blocked : (kernel.tcb task).state = .blocked list) (inScope : scope list.home)
    (eventInScope : scope (.event event)) (other : who ≠ some task) :
    Triple (kernel.satisfy rule event task taken) (fun result => Sound scope on who start result ∧
      result.1.waitHead = kernel.waitHead ∧
      (∀ waiter, waiter ≠ task → result.1.tcb waiter = kernel.tcb waiter) ∧
      ∀ waiter, (result.1.tcb waiter).priority = (kernel.tcb waiter).priority) Benign := by
  have wfBits := wf.modifyStatics fun statics =>
    { statics with bits := Function.update statics.bits event (kernel.bits event &&& ~~~taken) }
  have write : Effect scope on who false kernel
      (kernel.setBits event (kernel.bits event &&& ~~~taken)) := .setBits eventInScope
  have bits := before.trans write (.inr fun _ => rfl)
  cases rule with
  | all =>
      apply (unblock_sound on start wfBits bits (by simpa using blocked) inScope other).mono
      rintro ⟨after, pend⟩ ⟨sound, rfl⟩
      exact ⟨sound, rfl, fun waiter different => by simp [different],
        fun waiter => setState_priority ..⟩
  | any =>
      have wfPtr : WellFormed ((kernel.setBits event (kernel.bits event &&& ~~~taken)).setWaitPtr
          task (.word taken)) (some task) := wfBits.modifyTcb rfl (by simp)
      have ptr : Effect scope on who false (kernel.setBits event (kernel.bits event &&& ~~~taken))
          ((kernel.setBits event (kernel.bits event &&& ~~~taken)).setWaitPtr task (.word taken)) :=
        .setWaitPtr (.inr ⟨list, inScope, blocked⟩)
      have steady : ∀ waiter, (((kernel.setBits event (kernel.bits event &&& ~~~taken)).setWaitPtr
          task (.word taken)).tcb waiter).priority = (kernel.tcb waiter).priority := by
        intro waiter
        by_cases same : waiter = task
        · subst same
          simp
        · simp [same]
      apply (unblock_sound on start wfPtr (bits.trans ptr (.inr steady)) (by simpa using blocked)
        inScope other).mono
      rintro ⟨after, pend⟩ ⟨sound, rfl⟩
      exact ⟨sound, rfl, fun waiter different => by simp [different],
        fun waiter => (setState_priority ..).trans (steady waiter)⟩

/-- The scan keeps the lists well formed, whatever it has visited. -/
theorem scanList_sound {rule : ScanRule} {event : Nat} {rest : List (Fin n)} (pend : Bool)
    (wf : WellFormed kernel none) (running : CallerRuns who kernel) (inScope : scope list.home)
    (eventInScope : scope (.event event)) (distinct : rest.Nodup)
    (listed : ∀ task ∈ rest, task ∈ kernel.waitHead list) :
    Triple (scanList rule event list rest (kernel, pend)) (fun result => WellFormed result.1 none ∧
      (∃ more, result.2 = (pend || more) ∧ Effect scope on who more kernel result.1) ∧
      (∀ task, (result.1.tcb task).priority = (kernel.tcb task).priority) ∧
      CallerRuns who result.1) Benign := by
  induction rest generalizing kernel pend with
  | nil => exact ⟨wf, ⟨false, by simp, .refl kernel⟩, fun _ => rfl, running⟩
  | cons task rest ih =>
      unfold scanList
      apply Triple.bind (waitWord_triple _ _)
      intro mask _
      have member := listed task List.mem_cons_self
      have listedRest : ∀ other ∈ rest, other ∈ kernel.waitHead list :=
        fun other inRest => listed other (List.mem_cons_of_mem _ inRest)
      split
      · rename_i taken _
        apply Triple.bind (satisfy_sound (wf.remove member) (.remove inScope) (wf.mem.mp member)
          inScope eventInScope (ne_of_mem wf running member))
        rintro ⟨after, urgent⟩ ⟨⟨wfAfter, effect⟩, heads, others, steadyAfter⟩
        have runningAfter : CallerRuns who after := by
          intro caller isWho
          have notTask : caller ≠ task := by
            rintro rfl
            exact ne_of_mem wf running member isWho
          rw [others caller notTask]
          exact running caller isWho
        have listedAfter : ∀ other ∈ rest, other ∈ after.waitHead list := by
          intro other inRest
          have notTask : other ≠ task := by
            rintro rfl
            exact (List.nodup_cons.mp distinct).1 inRest
          simpa [show after.waitHead = _ from heads, List.mem_erase_of_ne notTask]
            using listedRest other inRest
        apply (ih (pend || urgent) wfAfter runningAfter distinct.tail listedAfter).mono
        rintro ⟨final, flag⟩ ⟨wfFinal, ⟨more, flagEq, onward⟩, steady, runningFinal⟩
        refine ⟨wfFinal, ⟨urgent || more, ?_, effect.trans onward (.inr steady)⟩, ?_, runningFinal⟩
        · simpa [Bool.or_assoc] using flagEq
        · exact fun waiter => (steady waiter).trans (steadyAfter waiter)
      · exact ih pend wf running distinct.tail listedRest

section Primitives

variable {id : Nat}

/-- A section that only writes data of a primitive in `scope`. -/
theorem Sound.of_statics {write : Statics n V → Statics n V} {pend : Bool}
    (wf : WellFormed kernel none)
    (effect : Effect scope on who pend kernel (kernel.modifyStatics write)) :
    Sound scope on who kernel (kernel.modifyStatics write, pend) :=
  ⟨wf.modifyStatics write, effect⟩

/-- `take` counts down, or blocks its caller on the semaphore. -/
theorem take_sound (wf : WellFormed kernel none) (running : CallerRuns who kernel)
    (isCurrent : who = kernel.current) (inScope : scope (.semaphore id))
    (onList : on (.semaphore id)) :
    Triple (Semaphore.take kernel id) (Sound scope on who kernel) Benign := by
  simp only [Semaphore.take]
  split
  · exact .of_statics wf (.setSemaphore inScope)
  · apply Triple.bind (blockCurrent_sound wf running isCurrent inScope onList)
    exact fun blocked sound => sound.1

/-- `try_take` counts down or does nothing. -/
theorem tryTake_sound (wf : WellFormed kernel none) (inScope : scope (.semaphore id)) :
    Sound scope on who kernel ((Semaphore.tryTake kernel id).1, false) := by
  simp only [Semaphore.tryTake]
  split
  · exact .of_statics wf (.setSemaphore inScope)
  · exact ⟨wf, .refl kernel⟩

/-- `give` wakes the most urgent waiter, or counts up. -/
theorem give_sound (wf : WellFormed kernel none) (running : CallerRuns who kernel)
    (inScope : scope (.semaphore id)) :
    Triple (Semaphore.give kernel id) (Sound scope on who kernel) Benign := by
  simp only [Semaphore.give]
  split
  · exact (wakeHighest_sound wf running inScope).mono fun _ sound => sound.1
  · split
    · exact .of_statics wf (.setSemaphore inScope)
    · exact ⟨wf, .refl kernel⟩

/-- `lock` makes its caller the owner, or boosts the owner and blocks its caller. -/
theorem lock_sound (wf : WellFormed kernel none) (running : CallerRuns who kernel)
    (isCurrent : who = kernel.current) (inScope : scope (.mutex id)) (onList : on (.mutex id)) :
    Triple (Mutex.lock kernel id) (Sound scope on who kernel) Benign := by
  simp only [Mutex.lock]
  split
  · exact .of_statics wf (.setOwner inScope)
  · rename_i owner _
    apply Triple.bind (deref_triple _)
    intro current some_current
    split
    · have boost : Effect scope on who false kernel
          (kernel.setPriority owner (kernel.tcb current).priority) := .setPriority inScope
      have wfBoost : WellFormed (kernel.setPriority owner (kernel.tcb current).priority) none :=
        wf.modifyTcb rfl (wf.ownFrame owner)
      have runningBoost : CallerRuns who
          (kernel.setPriority owner (kernel.tcb current).priority) := by
        intro caller isWho
        have runs := running caller isWho
        by_cases same : caller = owner
        · subst same
          simpa using runs
        · simpa [same] using runs
      apply Triple.bind (blockCurrent_sound wfBoost runningBoost isCurrent inScope onList)
      exact fun blocked sound => sound.1.after boost (.inl rfl)
    · apply Triple.bind (blockCurrent_sound wf running isCurrent inScope onList)
      exact fun blocked sound => sound.1

/-- `try_lock` makes its caller the owner or does nothing. -/
theorem tryLock_sound (wf : WellFormed kernel none) (inScope : scope (.mutex id)) :
    Sound scope on who kernel ((Mutex.tryLock kernel id).1, false) := by
  simp only [Mutex.tryLock]
  split
  · exact .of_statics wf (.setOwner inScope)
  · exact ⟨wf, .refl kernel⟩

/-- The caller of `unlock_internal` runs, or has just blocked on another list. -/
theorem unlockInternal_sound (wf : WellFormed kernel none)
    (away : ∀ task ∈ kernel.waitHead (.mutex id), who ≠ some task) (inScope : scope (.mutex id)) :
    Triple (Mutex.unlockInternal kernel id) (Sound scope on who kernel) Benign := by
  simp only [Mutex.unlockInternal]
  apply Triple.bind (deref_triple _)
  intro owner isOwner
  obtain ⟨reset, resets⟩ : ∃ reset : Spec n V,
      reset = kernel.setPriority owner (kernel.tcb owner).basePriority := ⟨_, rfl⟩
  rw [← resets]
  have wfReset : WellFormed reset none := by
    rw [resets]
    exact wf.modifyTcb rfl (wf.ownFrame owner)
  have effect : Effect scope on who false kernel reset := by
    rw [resets]
    exact .setPriority inScope
  have sameHeads : reset.waitHead = kernel.waitHead := by rw [resets]; rfl
  split
  · apply Triple.bind (pop_triple _ _)
    rintro _ (⟨_, rfl⟩ | ⟨task, member, rfl, _⟩)
    · exact ⟨by decide, by decide⟩
    · have removed : Effect scope on who false reset (reset.remove (.mutex id) task) :=
        .remove inScope
      have handed : Effect scope on who false (reset.remove (.mutex id) task)
          ((reset.remove (.mutex id) task).setOwner id (some task)) := .setOwner inScope
      have before := (effect.trans removed (.inr fun _ => rfl)).trans handed (.inr fun _ => rfl)
      apply (unblock_sound on kernel ((wfReset.remove member).modifyStatics _) before
        (wfReset.mem.mp member) inScope (away task (sameHeads ▸ member))).mono
      exact fun result woken => woken.1
  · have released : Sound scope on who reset (reset.setOwner id none, false) :=
      .of_statics wfReset (.setOwner inScope)
    exact ⟨released.1, effect.trans released.2 (.inr fun _ => rfl)⟩

/-- `Condvar::wait` blocks its caller and then unlocks: the unlock starts with a caller that runs no
more. -/
theorem wait_sound {mutex : Nat} (wf : WellFormed kernel none) (running : CallerRuns who kernel)
    (isCurrent : who = kernel.current) (inScope : scope (.condvar id)) (onList : on (.condvar id))
    (mutexInScope : scope (.mutex mutex)) :
    Triple (Condvar.wait kernel id mutex)
      (fun result => Sound scope on who kernel (result.1, true)) Benign := by
  simp only [Condvar.wait]
  apply Triple.bind (blockCurrent_sound wf running isCurrent inScope onList)
  rintro _ ⟨blocked, current, isWho, rfl⟩
  have away : ∀ task ∈ (kernel.blockAndPush (.condvar id) current).waitHead (.mutex mutex),
      who ≠ some task := by
    intro task member
    exact ne_of_mem wf running (by simpa [blockAndPush] using member)
  apply (unlockInternal_sound blocked.1 away mutexInScope).mono
  exact fun result sound => ⟨sound.1, blocked.2.trans sound.2 (.inl rfl)⟩

/-- `notify_one` wakes the most urgent waiter, if there is one. -/
theorem notifyOne_sound (wf : WellFormed kernel none) (running : CallerRuns who kernel)
    (inScope : scope (.condvar id)) :
    Triple (Condvar.notifyOne kernel id) (Sound scope on who kernel) Benign := by
  simp only [Condvar.notifyOne]
  split
  · exact ⟨wf, .refl kernel⟩
  · exact (wakeHighest_sound wf running inScope).mono fun _ sound => sound.1

/-- `notify_all` wakes all waiters. -/
theorem notifyAll_sound (wf : WellFormed kernel none) (running : CallerRuns who kernel)
    (inScope : scope (.condvar id)) :
    Triple (Condvar.notifyAll kernel id) (Sound scope on who kernel) Benign := by
  apply (drain_sound wf running inScope (wf.length_le _) false).mono
  rintro ⟨after, flag⟩ ⟨wfAfter, ⟨more, flagEq, effect⟩, _⟩
  obtain rfl : flag = more := by simpa using flagEq
  exact ⟨wfAfter, effect⟩

/-- `set_from_isr` writes the bits and scans both lists of the group. -/
theorem setFromIsr_sound {mask : Word} (wf : WellFormed kernel none)
    (running : CallerRuns who kernel) (inScope : scope (.event id)) :
    Triple (EventGroup.setFromIsr kernel id mask) (Sound scope on who kernel) Benign := by
  simp only [EventGroup.setFromIsr]
  have bits : Sound scope on who kernel (kernel.setBits id (kernel.bits id ||| mask), false) :=
    .of_statics wf (.setBits inScope)
  apply Triple.bind (scanList_sound false bits.1 running inScope inScope (bits.1.nodup _)
    (fun _ member => member))
  rintro ⟨first, preemptAny⟩ ⟨wfFirst, ⟨more, flagEq, effect⟩, steady, runningFirst⟩
  obtain rfl : preemptAny = more := by simpa using flagEq
  apply Triple.bind (scanList_sound false wfFirst runningFirst inScope inScope (wfFirst.nodup _)
    (fun _ member => member))
  rintro ⟨second, preemptAll⟩ ⟨wfSecond, ⟨more, flagEq, onward⟩, steady', _⟩
  obtain rfl : preemptAll = more := by simpa using flagEq
  have both := (bits.2.trans effect (.inr steady)).trans onward (.inr steady')
  exact ⟨wfSecond, by simpa using both⟩

/-- `set` does the same. -/
theorem set_sound {mask : Word} (wf : WellFormed kernel none) (running : CallerRuns who kernel)
    (inScope : scope (.event id)) :
    Triple (EventGroup.set kernel id mask)
      (fun result => Sound scope on who kernel (result.1, result.2.2)) Benign := by
  rw [EventGroup.set_eq_setFromIsr]
  apply Triple.bind (setFromIsr_sound wf running inScope)
  exact fun result sound => sound

/-- `clear` writes the bits of the group. -/
theorem clear_sound {mask : Word} (wf : WellFormed kernel none) (inScope : scope (.event id)) :
    Sound scope on who kernel (EventGroup.clear kernel id mask, false) :=
  .of_statics wf (.setBits inScope)

/-- Writing the `wait_ptr` of the caller before it goes on or blocks. -/
theorem setWaitPtr_sound {current : Fin n} (wf : WellFormed kernel none)
    (running : CallerRuns who kernel) (isWho : who = some current) (waitPtr : WaitPtr n)
    (ownFrame : ∀ owner, waitPtr = .stack owner → owner = current) :
    WellFormed (kernel.setWaitPtr current waitPtr) none ∧
      CallerRuns who (kernel.setWaitPtr current waitPtr) := by
  refine ⟨wf.modifyTcb rfl ownFrame, ?_⟩
  intro caller isCaller
  obtain rfl : current = caller := by simpa [isWho] using isCaller
  simpa using running current isWho

/-- `wait_any` takes its bits, or blocks its caller with the mask in `wait_ptr`. -/
theorem waitAny_sound {mask : Word} (wf : WellFormed kernel none) (running : CallerRuns who kernel)
    (isCurrent : who = kernel.current) (inScope : scope (.event id)) (onList : on (.eventAny id)) :
    Triple (EventGroup.waitAny kernel id mask) (Sound scope on who kernel) Benign := by
  simp only [EventGroup.waitAny]
  apply Triple.bind (deref_triple _)
  intro current some_current
  have isWho := isCurrent.trans some_current
  split
  · have bits : Sound scope on who kernel (kernel.setBits id (kernel.bits id &&&
        ~~~(kernel.bits id &&& mask)), false) := .of_statics wf (.setBits inScope)
    have matched := setWaitPtr_sound bits.1 running isWho
      (.word (kernel.bits id &&& mask)) (by simp)
    exact ⟨matched.1, bits.2.trans (.setWaitPtr (.inl isWho)) (.inr (setWaitPtr_priority _ _ _))⟩
  · have parked := setWaitPtr_sound wf running isWho (.word mask) (by simp)
    apply Triple.bind (blockCurrent_sound parked.1 parked.2 isCurrent inScope onList)
    exact fun blocked sound => sound.1.after (.setWaitPtr (.inl isWho)) (.inl rfl)

/-- `wait_all` takes its bits, or blocks its caller with the mask in `wait_ptr`. -/
theorem waitAll_sound {mask : Word} (wf : WellFormed kernel none) (running : CallerRuns who kernel)
    (isCurrent : who = kernel.current) (inScope : scope (.event id)) (onList : on (.eventAll id)) :
    Triple (EventGroup.waitAll kernel id mask) (Sound scope on who kernel) Benign := by
  simp only [EventGroup.waitAll]
  split
  · exact .of_statics wf (.setBits inScope)
  · apply Triple.bind (deref_triple _)
    intro current some_current
    have isWho := isCurrent.trans some_current
    have parked := setWaitPtr_sound wf running isWho (.word mask) (by simp)
    apply Triple.bind (blockCurrent_sound parked.1 parked.2 isCurrent inScope onList)
    exact fun blocked sound => sound.1.after (.setWaitPtr (.inl isWho)) (.inl rfl)

/-- `call_once` starts the cell, blocks its caller, or does nothing. -/
theorem enter_sound (wf : WellFormed kernel none) (running : CallerRuns who kernel)
    (isCurrent : who = kernel.current) (inScope : scope (.once id)) (onList : on (.once id)) :
    Triple (Once.enter kernel id)
      (fun result => Sound scope on who kernel (result.1, decide (result.2 = .waiter))) Benign := by
  simp only [Once.enter]
  split
  · exact ⟨wf, .refl kernel⟩
  · exact .of_statics wf (.setOnce inScope)
  · apply Triple.bind (blockCurrent_sound wf running isCurrent inScope onList)
    exact fun blocked sound => sound.1

/-- The end of `call_once` completes the cell and wakes all who wait for it. -/
theorem finish_sound (wf : WellFormed kernel none) (running : CallerRuns who kernel)
    (inScope : scope (.once id)) :
    Triple (Once.finish kernel id) (Sound scope on who kernel) Benign := by
  have done : Sound scope on who kernel (kernel.setOnce id .done, false) :=
    .of_statics wf (.setOnce inScope)
  apply (drain_sound done.1 running inScope (done.1.length_le _) false).mono
  rintro ⟨after, flag⟩ ⟨wfAfter, ⟨more, flagEq, effect⟩, steady⟩
  obtain rfl : flag = more := by simpa using flagEq
  have sound : Sound scope on who (kernel.setOnce id .done) (after, flag) := ⟨wfAfter, effect⟩
  exact sound.after done.2 (.inr steady)

/-- The caller gives up the processor without joining a list. -/
theorem park_sound {current : Fin n} {state : TaskState WaitList} (wf : WellFormed kernel none)
    (running : CallerRuns who kernel) (isWho : who = some current) (parked : Parked on state)
    (launched : kernel.current ≠ none) (notBlocked : ∀ list, state ≠ .blocked list) :
    Sound scope on who kernel (kernel.setState current state, true) :=
  ⟨(wf.open_of_running (running current isWho)).fill notBlocked, .park isWho parked launched⟩

/-- `yield_now` makes its caller ready. -/
theorem yieldNow_sound (wf : WellFormed kernel none) (running : CallerRuns who kernel)
    (isCurrent : who = kernel.current) :
    Triple (Kernel.yieldNow kernel) (fun after => Sound scope on who kernel (after, true))
      Benign := by
  simp only [Kernel.yieldNow]
  apply Triple.bind (deref_triple _)
  intro current some_current
  split
  · exact park_sound wf running (isCurrent.trans some_current) (.inl rfl) (by simp [some_current])
      (by simp)
  · exact ⟨wf, (Effect.refl kernel).pended (by simp [some_current])⟩

/-- `sleep_until` puts its caller to sleep. -/
theorem sleepUntil_sound {deadline : U64} (wf : WellFormed kernel none)
    (running : CallerRuns who kernel) (isCurrent : who = kernel.current) :
    Triple (Kernel.sleepUntil kernel deadline) (fun after => Sound scope on who kernel (after, true))
      Benign := by
  simp only [Kernel.sleepUntil]
  apply Triple.bind (deref_triple _)
  intro current some_current
  exact park_sound wf running (isCurrent.trans some_current)
    (.inr (.inr (.inl ⟨deadline, rfl⟩))) (by simp [some_current]) (by simp)

/-- `exit` leaves its caller dead. -/
theorem exit_sound (wf : WellFormed kernel none) (running : CallerRuns who kernel)
    (isCurrent : who = kernel.current) :
    Triple (Kernel.exit kernel) (fun after => Sound scope on who kernel (after, true)) Benign := by
  simp only [Kernel.exit]
  apply Triple.bind (deref_triple _)
  intro current some_current
  exact park_sound wf running (isCurrent.trans some_current) (.inr (.inr (.inr rfl)))
    (by simp [some_current]) (by simp)

/-- A `wait_ptr` that is followed points into a frame. -/
theorem waitFrame_triple (kernel : Spec n V) (task : Fin n) :
    Triple (kernel.waitFrame task) (fun owner => (kernel.tcb task).waitPtr = .stack owner)
      Benign := by
  unfold Kernel.waitFrame
  split
  · exact ⟨by decide, by decide⟩
  · assumption

/-- A write to the buffer stays inside it or stops. -/
theorem bufWrite_triple (inner : ChannelInner n V) (sender : TcbPtr n) (value : V) :
    Triple (Channel.bufWrite inner sender value) (fun _ => True) Benign := by
  unfold Channel.bufWrite
  split
  · trivial
  · exact ⟨by decide, by decide⟩

/-- A read of the buffer stays inside it and finds a value, or stops. -/
theorem bufRead_triple (inner : ChannelInner n V) (receiver : TcbPtr n) :
    Triple (Channel.bufRead inner receiver) (fun _ => True) Benign := by
  unfold Channel.bufRead
  split
  · split
    · exact ⟨by decide, by decide⟩
    · trivial
  · exact ⟨by decide, by decide⟩

/-- A hand-off writes the receiver's frame and the channel, and wakes the receiver. It keeps the
priorities, so that more can be done before it. -/
theorem handOff_sound {value : V} {sender : TcbPtr n} (wf : WellFormed kernel none)
    (running : CallerRuns who kernel) (inScope : scope (.channel id)) :
    Triple (Channel.handOff kernel id sender value) (fun result => Sound scope on who kernel result ∧
      ∀ task, (result.1.tcb task).priority = (kernel.tcb task).priority) Benign := by
  simp only [Channel.handOff]
  apply Triple.bind (pop_triple _ _)
  rintro _ (⟨_, rfl⟩ | ⟨task, member, rfl, _⟩)
  · exact ⟨by decide, by decide⟩
  apply Triple.bind (waitFrame_triple _ _)
  intro slot points
  obtain rfl : slot = task := wf.ownFrame task slot points
  have blocked := wf.mem.mp member
  refine Triple.mono (unblock_sound on kernel ?_ ?_ blocked inScope (ne_of_mem wf running member)) ?_
  · exact ((wf.remove member).modifyStatics _).modifyStatics _
  · refine Effect.andStatics (Effect.andStatics ?_ (.setFrame ?_)) (.setChannel inScope)
    · exact .remove inScope
    · intro owner isOwner
      obtain rfl : slot = owner := by simpa using isOwner
      exact .inr ⟨.channelRecv id, inScope, blocked⟩
  · rintro ⟨after, pend⟩ ⟨sound, rfl⟩
    exact ⟨sound, fun other => setState_priority ..⟩

/-- Storing a value writes the channel only. -/
theorem enqueue_sound {value : V} {sender : TcbPtr n} {hole : TcbPtr n}
    (wf : WellFormed kernel hole) (inScope : scope (.channel id)) :
    Triple (Channel.enqueue kernel id sender value) (fun after => WellFormed after hole ∧
      Effect scope on who false kernel after ∧ after.tcb = kernel.tcb) Benign := by
  simp only [Channel.enqueue]
  apply Triple.bind (bufWrite_triple _ _ _)
  intro inner _
  exact ⟨wf.modifyStatics _, .setChannel inScope, rfl⟩

/-- The caller leaves the address of a local behind and blocks. -/
theorem parkLocal_sound {current : Fin n} {value : Option V} (wf : WellFormed kernel none)
    (running : CallerRuns who kernel) (isCurrent : who = kernel.current)
    (isWho : who = some current) (inScope : scope list.home) (onList : on list) :
    Triple (((kernel.setFrame (some current) value).setWaitPtr current
        (.stack current)).blockCurrent list)
      (fun after => Sound scope on who kernel (after, true)) Benign := by
  have wfFrame : WellFormed (kernel.setFrame (some current) value) none := wf.modifyStatics _
  have store : Effect scope on who false kernel (kernel.setFrame (some current) value) :=
    .setFrame fun _ isOwner => .inl (isWho.trans isOwner)
  have parked := setWaitPtr_sound wfFrame running isWho (.stack current) (by simp)
  apply (blockCurrent_sound parked.1 parked.2 isCurrent inScope onList).mono
  intro blocked sound
  have pointed := sound.1.after (.setWaitPtr (.inl isWho)) (.inl rfl)
  exact pointed.after store (.inl rfl)

/-- `send_impl` hands off, stores, or blocks its caller with the value in its frame. -/
theorem sendImpl_sound {value : V} {sender : TcbPtr n} (wf : WellFormed kernel none)
    (running : CallerRuns who kernel) (isCurrent : who = kernel.current)
    (inScope : scope (.channel id)) (onList : on (.channelSend id)) :
    Triple (Channel.sendImpl kernel id sender value)
      (fun result => Sound scope on who kernel (result.1, result.2.1 || result.2.2)) Benign := by
  simp only [Channel.sendImpl]
  have logged : Sound scope on who kernel (Channel.logSent kernel id sender value, false) :=
    .of_statics wf (.setChannel inScope)
  split
  · apply Triple.bind (handOff_sound logged.1 running inScope)
    rintro ⟨after, pend⟩ ⟨sound, steady⟩
    simpa using sound.after logged.2 (.inr steady)
  · split
    · apply Triple.bind (enqueue_sound logged.1 inScope)
      rintro after ⟨wfAfter, effect, sameTcb⟩
      have sound : Sound scope on who (Channel.logSent kernel id sender value) (after, false) :=
        ⟨wfAfter, effect⟩
      exact sound.after logged.2 (.inr fun task => by rw [sameTcb])
    · apply Triple.bind (deref_triple _)
      intro current some_current
      apply Triple.bind (parkLocal_sound logged.1 running isCurrent
        (isCurrent.trans some_current) inScope onList)
      exact fun blocked sound => sound.after logged.2 (.inl rfl)

/-- `try_send_impl` hands off, stores, or leaves all but the histories as they are. -/
theorem trySendImpl_sound {value : V} {sender : TcbPtr n} (wf : WellFormed kernel none)
    (running : CallerRuns who kernel) (inScope : scope (.channel id)) :
    Triple (Channel.trySendImpl kernel id sender value)
      (fun result => Sound scope on who kernel (result.1, result.2.1)) Benign := by
  simp only [Channel.trySendImpl]
  have logged : Sound scope on who kernel (Channel.logSent kernel id sender value, false) :=
    .of_statics wf (.setChannel inScope)
  split
  · apply Triple.bind (handOff_sound logged.1 running inScope)
    rintro ⟨after, pend⟩ ⟨sound, steady⟩
    exact sound.after logged.2 (.inr steady)
  · split
    · apply Triple.bind (enqueue_sound logged.1 inScope)
      rintro after ⟨wfAfter, effect, sameTcb⟩
      have sound : Sound scope on who (Channel.logSent kernel id sender value) (after, false) :=
        ⟨wfAfter, effect⟩
      exact sound.after logged.2 (.inr fun task => by rw [sameTcb])
    · have rejected : Sound scope on who (Channel.logSent kernel id sender value)
          (Channel.logRejected (Channel.logSent kernel id sender value) id sender value, false) :=
        .of_statics logged.1 (.setChannel inScope)
      exact rejected.after logged.2 (.inr fun _ => rfl)

/-- Admitting a sender stores the value of its frame and wakes it, and keeps the priorities. -/
theorem admitSender_sound (wf : WellFormed kernel none) (running : CallerRuns who kernel)
    (inScope : scope (.channel id)) :
    Triple (Channel.admitSender kernel id) (fun result => Sound scope on who kernel result ∧
      ∀ task, (result.1.tcb task).priority = (kernel.tcb task).priority) Benign := by
  simp only [Channel.admitSender]
  split
  · apply Triple.bind (pop_triple _ _)
    rintro _ (⟨_, rfl⟩ | ⟨task, member, rfl, _⟩)
    · exact ⟨by decide, by decide⟩
    apply Triple.bind (waitFrame_triple _ _)
    intro owner _
    have removed : Effect scope on who false kernel (kernel.remove (.channelSend id) task) :=
      .remove inScope
    split
    · exact ⟨by decide, by decide⟩
    · apply Triple.bind (enqueue_sound (wf.remove member) inScope)
      rintro after ⟨wfAfter, effect, sameTcb⟩
      have before := removed.trans effect (.inr fun waiter => by rw [sameTcb])
      have blocked : (after.tcb task).state = .blocked (.channelSend id) := by
        rw [sameTcb]
        exact wf.mem.mp member
      refine Triple.mono (unblock_sound on kernel wfAfter before blocked inScope
        (ne_of_mem wf running member)) ?_
      rintro ⟨final, pend⟩ ⟨sound, rfl⟩
      refine ⟨sound, fun other => ?_⟩
      exact (setState_priority ..).trans (by rw [sameTcb]; rfl)
  · exact ⟨⟨wf, .refl kernel⟩, fun _ => rfl⟩

/-- Fetching a value writes the channel only. -/
theorem dequeue_sound (on : WaitList → Prop) (who : TcbPtr n) {receiver : TcbPtr n}
    (wf : WellFormed kernel none) (inScope : scope (.channel id)) :
    Triple (Channel.dequeue kernel id receiver) (fun result => WellFormed result.1 none ∧
      Effect scope on who false kernel result.1 ∧ result.1.tcb = kernel.tcb) Benign := by
  simp only [Channel.dequeue]
  apply Triple.bind (bufRead_triple _ _)
  rintro ⟨inner, value⟩ _
  have sound : Sound scope on who kernel (kernel.setChannel id inner, false) :=
    .of_statics wf (.setChannel inScope)
  exact ⟨sound.1, sound.2, rfl⟩

/-- `recv_impl` fetches a value and admits a sender, or blocks its caller. -/
theorem recvImpl_sound (wf : WellFormed kernel none) (running : CallerRuns who kernel)
    (isCurrent : who = kernel.current) (inScope : scope (.channel id))
    (onList : on (.channelRecv id)) :
    Triple (Channel.recvImpl kernel id)
      (fun result => Sound scope on who kernel (result.1, result.2.1 || result.2.2)) Benign := by
  simp only [Channel.recvImpl]
  split
  · apply Triple.bind (dequeue_sound on who wf inScope)
    rintro ⟨after, value⟩ ⟨wfAfter, effect, sameTcb⟩
    have stored : Effect scope on who false kernel (after.setFrame after.current (some value)) := by
      refine Effect.andStatics effect (.setFrame ?_)
      intro owner isOwner
      exact .inl (isCurrent.trans (effect.current.symm.trans isOwner))
    have runningAfter : CallerRuns who (after.setFrame after.current (some value)) := by
      intro caller isWho
      rw [Kernel.modifyStatics_tcb, show after.tcb = kernel.tcb from sameTcb]
      exact running caller isWho
    apply Triple.bind (admitSender_sound (wfAfter.modifyStatics _) runningAfter inScope)
    rintro ⟨final, pend⟩ ⟨sound, steady⟩
    simpa using sound.after stored (.inr steady)
  · apply Triple.bind (deref_triple _)
    intro current some_current
    apply Triple.bind (parkLocal_sound wf running isCurrent (isCurrent.trans some_current)
      inScope onList)
    exact fun blocked sound => sound

/-- `try_recv_impl` fetches a value and admits a sender, or does nothing. -/
theorem tryRecvImpl_sound {receiver : TcbPtr n} (wf : WellFormed kernel none)
    (running : CallerRuns who kernel) (inScope : scope (.channel id)) :
    Triple (Channel.tryRecvImpl kernel id receiver)
      (fun result => Sound scope on who kernel (result.1, result.2.1)) Benign := by
  simp only [Channel.tryRecvImpl]
  split
  · apply Triple.bind (dequeue_sound on who wf inScope)
    rintro ⟨after, value⟩ ⟨wfAfter, effect, sameTcb⟩
    have runningAfter : CallerRuns who after := by
      intro caller isWho
      rw [show after.tcb = kernel.tcb from sameTcb]
      exact running caller isWho
    apply Triple.bind (admitSender_sound wfAfter runningAfter inScope)
    rintro ⟨final, pend⟩ ⟨sound, steady⟩
    have logged : Sound scope on who final (Channel.logReturned final id receiver value, false) :=
      .of_statics sound.1 (.setChannel inScope)
    have both := (sound.after effect (.inr steady)).2.trans logged.2 (.inr fun _ => rfl)
    rw [Bool.or_false] at both
    exact ⟨logged.1, both⟩
  · exact ⟨wf, .refl kernel⟩

/-- The first free slot is inside the pool, or the section stops. -/
theorem takeSlot_triple (inner : PoolInner V) (value : V) :
    Triple (Pool.takeSlot inner value) (fun _ => True) Benign := by
  simp only [Pool.takeSlot]
  split
  · trivial
  · exact ⟨by decide, by decide⟩

/-- `alloc` writes the pool only. -/
theorem alloc_sound {value : V} (wf : WellFormed kernel none) (inScope : scope (.pool id)) :
    Triple (Pool.alloc kernel id value)
      (fun result => Sound scope on who kernel (result.1, false)) Benign := by
  simp only [Pool.alloc]
  split
  · apply Triple.bind (takeSlot_triple _ _)
    rintro ⟨inner, slot⟩ _
    exact .of_statics wf (.setPool inScope)
  · exact ⟨wf, .refl kernel⟩

/-- `alloc_blocking` takes a slot, or blocks its caller with the value in its frame. -/
theorem allocBlocking_sound {value : V} (wf : WellFormed kernel none)
    (running : CallerRuns who kernel) (isCurrent : who = kernel.current)
    (inScope : scope (.pool id)) (onList : on (.pool id)) :
    Triple (Pool.allocBlocking kernel id value) (Sound scope on who kernel) Benign := by
  simp only [Pool.allocBlocking]
  apply Triple.bind (deref_triple _)
  intro current some_current
  have isWho := isCurrent.trans some_current
  split
  · apply Triple.bind (takeSlot_triple _ _)
    rintro ⟨inner, slot⟩ _
    have taken : Sound scope on who kernel (kernel.setPool id inner, false) :=
      .of_statics wf (.setPool inScope)
    have assigned := setWaitPtr_sound taken.1 running isWho (.word (BitVec.ofNat 32 slot.val))
      (by simp)
    exact ⟨assigned.1, taken.2.trans (.setWaitPtr (.inl isWho)) (.inr (setWaitPtr_priority _ _ _))⟩
  · apply Triple.bind (parkLocal_sound wf running isCurrent isWho inScope onList)
    exact fun blocked sound => sound

/-- `PoolBox::drop` hands the slot to the most urgent waiter, or frees it. -/
theorem release_sound {slot : U8} (wf : WellFormed kernel none) (running : CallerRuns who kernel)
    (inScope : scope (.pool id)) :
    Triple (Pool.release kernel id slot) (Sound scope on who kernel) Benign := by
  simp only [Pool.release]
  split
  · apply Triple.bind (pop_triple _ _)
    rintro _ (⟨_, rfl⟩ | ⟨task, member, rfl, _⟩)
    · exact ⟨by decide, by decide⟩
    apply Triple.bind (waitFrame_triple _ _)
    intro owner _
    have blocked := wf.mem.mp member
    split
    · exact ⟨by decide, by decide⟩
    · split
      · have poolInScope : scope (WaitList.pool id).home := inScope
        refine Triple.mono (unblock_sound on kernel ?_ ?_ ?_ poolInScope
          (ne_of_mem wf running member)) fun result sound => sound.1
        · exact ((wf.remove member).modifyStatics _).modifyTcb rfl (by simp)
        · refine Effect.andWaitPtr (Effect.andStatics (.remove inScope) (.setPool inScope)) ?_
          exact .inr ⟨.pool id, inScope, blocked⟩
        · simpa using blocked
      · exact ⟨by decide, by decide⟩
  · split
    · exact .of_statics wf (.setPool inScope)
    · exact ⟨by decide, by decide⟩

end Primitives

end Spec

namespace Call

variable {n : Nat} {V : Type}

/-- The primitives a section works on. -/
def uses : Call V → List Prim
  | take id | tryTake id | give id => [.semaphore id]
  | lock id | tryLock id | dropGuard id => [.mutex id]
  | wait condvar mutex => [.condvar condvar, .mutex mutex]
  | notifyOne id | notifyAll id => [.condvar id]
  | set id _ | setFromIsr id _ _ | clear id _ | waitAny id _ | waitAll id _ => [.event id]
  | callOnce id | finishOnce id => [.once id]
  | send id _ | trySend id _ | recv id | tryRecv id => [.channel id]
  | alloc id _ | allocBlocking id _ | releaseBox id _ => [.pool id]
  | yieldNow | sleep _ | sleepUntil _ | exit => []

/-- The list a section may block its caller on. -/
def parksOn : Call V → Option WaitList
  | take id => some (.semaphore id)
  | lock id => some (.mutex id)
  | wait condvar _ => some (.condvar condvar)
  | waitAny id _ => some (.eventAny id)
  | waitAll id _ => some (.eventAll id)
  | callOnce id => some (.once id)
  | send id _ => some (.channelSend id)
  | recv id => some (.channelRecv id)
  | allocBlocking id _ => some (.pool id)
  | _ => none

/-- `set_from_isr` returns its flag instead of acting on it. -/
def returnsFlag : Call V → Bool
  | setFromIsr _ _ _ => true
  | _ => false

end Call

/-- The lists a task may wait on at a program point. -/
def Pc.awaits : Pc → WaitList → Prop
  | .takeRet id, list => list = .semaphore id
  | .lockRet id, list => list = .mutex id
  | .relock _, list => ∃ condvar, list = .condvar condvar
  | .waitAnyRet id, list => list = .eventAny id
  | .waitAllRet id, list => list = .eventAll id
  | .onceRet id, list => list = .once id
  | .sendRet id, list => list = .channelSend id
  | .recvRet id, list => list = .channelRecv id
  | .allocBlockingRet id, list => list = .pool id
  | _, _ => False

namespace Call

variable {n : Nat} {V : Type}

/-- What every section guarantees. -/
structure Contract (call : Call V) (who : TcbPtr n) (before : Spec n V)
    (result : Spec n V × Outcome) : Prop where
  wf : Spec.WellFormed result.1 none
  effect : ∃ flag, Spec.Effect (· ∈ call.uses) (call.parksOn = some ·) who flag before result.1 ∧
    (result.2.pend = true → flag = true) ∧ (call.returnsFlag = false → result.2.pend = flag)
  awaits : ∀ caller list, who = some caller → (result.1.tcb caller).state = .blocked list →
    result.2.pc.awaits list

/-- A section with a sound effect meets its contract when its program point awaits
the list it may block on. -/
theorem Contract.of_sound {call : Call V} {who : TcbPtr n} {before after : Spec n V} {flag : Bool}
    {outcome : Outcome} (running : Spec.CallerRuns who before)
    (sound : Spec.Sound (· ∈ call.uses) (call.parksOn = some ·) who before (after, flag))
    (pend : outcome.pend = true → flag = true)
    (reports : call.returnsFlag = false → outcome.pend = flag)
    (awaits : ∀ list, flag = true → call.parksOn = some list → outcome.pc.awaits list) :
    call.Contract who before (after, outcome) := by
  refine ⟨sound.1, ⟨flag, sound.2, pend, reports⟩, ?_⟩
  intro caller list isWho blocked
  rcases sound.2.own caller isWho with same | ⟨pended, parked⟩
  · have runs := running caller isWho
    rw [← same, show (after.tcb caller).state = _ from blocked] at runs
    simp at runs
  · obtain runs | ⟨other, onList, blockedOn⟩ | ⟨deadline, sleeps⟩ | died := parked
    · rw [show (after.tcb caller).state = _ from blocked] at runs
      simp at runs
    · obtain rfl : other = list := by simpa using blockedOn.symm.trans blocked
      exact awaits other pended onList
    · cases sleeps.symm.trans blocked
    · cases died.symm.trans blocked

/-- The contract of a section from that of its closure; `shape` reads the new state
and the flag off what the closure leaves behind. -/
theorem Contract.bind {call : Call V} {who : TcbPtr n} {kernel : Spec n V} {γ : Type}
    {closure : Exec γ} {next : γ → Exec (Spec n V × Outcome)} (shape : γ → Spec n V × Bool)
    (running : Spec.CallerRuns who kernel)
    (sound : Triple closure (fun result =>
      Spec.Sound (· ∈ call.uses) (call.parksOn = some ·) who kernel (shape result)) Benign)
    (finish : ∀ result, ∃ outcome, next result = .ok ((shape result).1, outcome) ∧
      (outcome.pend = true → (shape result).2 = true) ∧
      (call.returnsFlag = false → outcome.pend = (shape result).2) ∧
      ∀ list, (shape result).2 = true → call.parksOn = some list → outcome.pc.awaits list) :
    Triple (closure >>= next) (call.Contract who kernel) Benign := by
  apply Triple.bind sound
  intro result holds
  obtain ⟨outcome, returns, pend, reports, awaits⟩ := finish result
  rw [returns]
  exact .of_sound running holds pend reports awaits

/-- Every section meets its contract when its caller runs, or when it is safe in an
interrupt handler and called there. -/
theorem run_contract (call : Call V) {who : TcbPtr n} {kernel : Spec n V}
    (wf : Spec.WellFormed kernel none) (running : Spec.CallerRuns who kernel)
    (caller : call.isrSafe = true ∨ who = kernel.current) :
    Triple (call.run who kernel) (call.Contract who kernel) Benign := by
  have asTask : call.isrSafe = false → who = kernel.current := by
    intro notSafe
    simpa [notSafe] using caller
  cases call with
  | take id =>
      apply Contract.bind (fun result => result) running
      · exact Spec.take_sound wf running (asTask rfl) (by simp [uses]) rfl
      · exact fun result => ⟨_, rfl, fun pended => pended, fun _ => rfl, by simp [parksOn, Pc.awaits]⟩
  | give id =>
      apply Contract.bind (fun result => result) running
      · exact Spec.give_sound wf running (by simp [uses])
      · exact fun result => ⟨_, rfl, fun pended => pended, fun _ => rfl, by simp [parksOn, Pc.awaits]⟩
  | lock id =>
      apply Contract.bind (fun result => result) running
      · exact Spec.lock_sound wf running (asTask rfl) (by simp [uses]) rfl
      · exact fun result => ⟨_, rfl, fun pended => pended, fun _ => rfl, by simp [parksOn, Pc.awaits]⟩
  | dropGuard id =>
      apply Contract.bind (fun result => result) running
      · exact Spec.unlockInternal_sound wf (fun _ => Spec.ne_of_mem wf running) (by simp [uses])
      · exact fun result => ⟨_, rfl, fun pended => pended, fun _ => rfl, by simp [parksOn, Pc.awaits]⟩
  | wait condvar mutex =>
      apply Contract.bind (fun result => (result.1, true)) running
      · exact Spec.wait_sound wf running (asTask rfl) (by simp [uses]) rfl (by simp [uses])
      · exact fun result => ⟨_, rfl, fun pended => pended, fun _ => rfl, by simp [parksOn, Pc.awaits]⟩
  | notifyOne id =>
      apply Contract.bind (fun result => result) running
      · exact Spec.notifyOne_sound wf running (by simp [uses])
      · exact fun result => ⟨_, rfl, fun pended => pended, fun _ => rfl, by simp [parksOn, Pc.awaits]⟩
  | notifyAll id =>
      apply Contract.bind (fun result => result) running
      · exact Spec.notifyAll_sound wf running (by simp [uses])
      · exact fun result => ⟨_, rfl, fun pended => pended, fun _ => rfl, by simp [parksOn, Pc.awaits]⟩
  | set id mask =>
      apply Contract.bind (fun result => (result.1, result.2.2)) running
      · exact Spec.set_sound wf running (by simp [uses])
      · exact fun result => ⟨_, rfl, fun pended => pended, fun _ => rfl, by simp [parksOn, Pc.awaits]⟩
  | waitAny id mask =>
      apply Contract.bind (fun result => result) running
      · exact Spec.waitAny_sound wf running (asTask rfl) (by simp [uses]) rfl
      · exact fun result => ⟨_, rfl, fun pended => pended, fun _ => rfl, by simp [parksOn, Pc.awaits]⟩
  | waitAll id mask =>
      apply Contract.bind (fun result => result) running
      · exact Spec.waitAll_sound wf running (asTask rfl) (by simp [uses]) rfl
      · exact fun result => ⟨_, rfl, fun pended => pended, fun _ => rfl, by simp [parksOn, Pc.awaits]⟩
  | finishOnce id =>
      apply Contract.bind (fun result => result) running
      · exact Spec.finish_sound wf running (by simp [uses])
      · exact fun result => ⟨_, rfl, fun pended => pended, fun _ => rfl, by simp [parksOn, Pc.awaits]⟩
  | send id value =>
      apply Contract.bind (fun result => (result.1, result.2.1 || result.2.2)) running
      · exact Spec.sendImpl_sound wf running (asTask rfl) (by simp [uses]) rfl
      · exact fun result => ⟨_, rfl, fun pended => pended, fun _ => rfl, by simp [parksOn, Pc.awaits]⟩
  | trySend id value =>
      apply Contract.bind (fun result => (result.1, result.2.1)) running
      · exact Spec.trySendImpl_sound wf running (by simp [uses])
      · exact fun result => ⟨_, rfl, fun pended => pended, fun _ => rfl, by simp [parksOn, Pc.awaits]⟩
  | recv id =>
      apply Contract.bind (fun result => (result.1, result.2.1 || result.2.2)) running
      · exact Spec.recvImpl_sound wf running (asTask rfl) (by simp [uses]) rfl
      · exact fun result => ⟨_, rfl, fun pended => pended, fun _ => rfl, by simp [parksOn, Pc.awaits]⟩
  | tryRecv id =>
      apply Contract.bind (fun result => (result.1, result.2.1)) running
      · exact Spec.tryRecvImpl_sound wf running (by simp [uses])
      · exact fun result => ⟨_, rfl, fun pended => pended, fun _ => rfl, by simp [parksOn, Pc.awaits]⟩
  | alloc id value =>
      apply Contract.bind (fun result => (result.1, false)) running
      · exact Spec.alloc_sound wf (by simp [uses])
      · exact fun result => ⟨_, rfl, fun pended => pended, fun _ => rfl, by simp [parksOn, Pc.awaits]⟩
  | allocBlocking id value =>
      apply Contract.bind (fun result => result) running
      · exact Spec.allocBlocking_sound wf running (asTask rfl) (by simp [uses]) rfl
      · exact fun result => ⟨_, rfl, fun pended => pended, fun _ => rfl, by simp [parksOn, Pc.awaits]⟩
  | releaseBox id slot =>
      apply Contract.bind (fun result => result) running
      · exact Spec.release_sound wf running (by simp [uses])
      · exact fun result => ⟨_, rfl, fun pended => pended, fun _ => rfl, by simp [parksOn, Pc.awaits]⟩
  | yieldNow =>
      apply Contract.bind (fun result => (result, true)) running
      · exact Spec.yieldNow_sound wf running (asTask rfl)
      · exact fun result => ⟨_, rfl, fun pended => pended, fun _ => rfl, by simp [parksOn, Pc.awaits]⟩
  | sleepUntil deadline =>
      apply Contract.bind (fun result => (result, true)) running
      · exact Spec.sleepUntil_sound wf running (asTask rfl)
      · exact fun result => ⟨_, rfl, fun pended => pended, fun _ => rfl, by simp [parksOn, Pc.awaits]⟩
  | exit =>
      apply Contract.bind (fun result => (result, true)) running
      · exact Spec.exit_sound wf running (asTask rfl)
      · exact fun result => ⟨_, rfl, fun pended => pended, fun _ => rfl, by simp [parksOn, Pc.awaits]⟩
  | tryTake id => exact .of_sound running (Spec.tryTake_sound wf (by simp [uses])) (by simp) (fun _ => rfl) (by simp)
  | tryLock id => exact .of_sound running (Spec.tryLock_sound wf (by simp [uses])) (by simp) (fun _ => rfl) (by simp)
  | clear id mask => exact .of_sound running (Spec.clear_sound wf (by simp [uses])) (by simp) (fun _ => rfl) (by simp)
  | sleep duration => exact .of_sound running ⟨wf, .refl kernel⟩ (by simp) (fun _ => rfl) (by simp)
  | setFromIsr id mask trigger =>
      apply Contract.bind (fun result => result) running
      · exact Spec.setFromIsr_sound wf running (by simp [uses])
      · exact fun result => ⟨_, rfl, fun pended => (Bool.and_eq_true_iff.mp pended).1, by simp [returnsFlag],
        by simp [parksOn]⟩
  | callOnce id =>
      apply Contract.bind (fun result => (result.1, decide (result.2 = .waiter))) running
      · exact Spec.enter_sound wf running (asTask rfl) (by simp [uses]) rfl
      · rintro ⟨after, role⟩
        cases role with
        | waiter => exact ⟨_, rfl, fun pended => pended, fun _ => rfl, by simp [parksOn, Pc.awaits]⟩
        | _ => exact ⟨_, rfl, fun pended => pended, fun _ => rfl, by simp⟩

end Call

end Kangaroos
