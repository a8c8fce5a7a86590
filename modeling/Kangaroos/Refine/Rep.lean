import Kangaroos.Abstract.Spec
import Kangaroos.Logic.Chain
import Kangaroos.Logic.Triple

/-!
# Links represent lists

`Rep hole kernel spec` says that the kernel as coded represents an abstract one:
the TCBs agree up to the links of blocked tasks, and following the links from
each head visits the tasks of the abstract list in order. The three writes the
code makes to a list (push, unlink the head, unlink behind a predecessor) keep
the relation.
-/

namespace Kangaroos

/-- A task state without its link. -/
def TaskState.forget {Link : Type} : TaskState Link → TaskState Unit
  | .uninit => .uninit
  | .ready slice => .ready slice
  | .running slice => .running slice
  | .blocked _ => .blocked ()
  | .sleeping deadline => .sleeping deadline
  | .dead => .dead

/-- A TCB without its link. -/
def Tcb.forget {n : Nat} {Link : Type} (tcb : Tcb n Link) : Tcb n Unit where
  sp := tcb.sp
  state := tcb.state.forget
  priority := tcb.priority
  basePriority := tcb.basePriority
  timeSlice := tcb.timeSlice
  stackBase := tcb.stackBase
  allNext := tcb.allNext
  waitPtr := tcb.waitPtr

/-- The other fields of a TCB are those of what is left. -/
theorem Tcb.eq_of_forget {n : Nat} {Link : Type} {tcb tcb' : Tcb n Link}
    (same : tcb.forget = tcb'.forget) (state : tcb.state = tcb'.state) : tcb = tcb' := by
  cases tcb
  cases tcb'
  simp_all [Tcb.forget]

/-- The `wait_next` of a task, null when it is not blocked. -/
def Kernel.waitLink {n : Nat} {V : Type} (kernel : Rtos n V) (task : Fin n) : TcbPtr n :=
  match (kernel.tcb task).state with
  | .blocked next => next
  | _ => none

/-- The kernel as coded represents the abstract kernel. -/
structure Rep {n : Nat} {V : Type} (hole : TcbPtr n) (kernel : Rtos n V) (spec : Spec n V) :
    Prop where
  wf : Spec.WellFormed spec hole
  statics : kernel.toStatics = spec.toStatics
  tcb : ∀ task, (kernel.tcb task).forget = (spec.tcb task).forget
  chain : ∀ list, Linked.Chain kernel.waitLink (kernel.waitHead list) (spec.waitHead list)

namespace Rep

variable {n : Nat} {V : Type} {hole : TcbPtr n} {kernel : Rtos n V} {spec : Spec n V}
  {list : WaitList} {task : Fin n}

theorem state (rep : Rep hole kernel spec) (task : Fin n) :
    (kernel.tcb task).state.forget = (spec.tcb task).state.forget :=
  congrArg Tcb.state (rep.tcb task)

theorem priority (rep : Rep hole kernel spec) (task : Fin n) :
    (kernel.tcb task).priority = (spec.tcb task).priority :=
  congrArg Tcb.priority (rep.tcb task)

theorem basePriority (rep : Rep hole kernel spec) (task : Fin n) :
    (kernel.tcb task).basePriority = (spec.tcb task).basePriority :=
  congrArg Tcb.basePriority (rep.tcb task)

theorem timeSlice (rep : Rep hole kernel spec) (task : Fin n) :
    (kernel.tcb task).timeSlice = (spec.tcb task).timeSlice :=
  congrArg Tcb.timeSlice (rep.tcb task)

theorem allNext (rep : Rep hole kernel spec) (task : Fin n) :
    (kernel.tcb task).allNext = (spec.tcb task).allNext :=
  congrArg Tcb.allNext (rep.tcb task)

theorem waitPtr (rep : Rep hole kernel spec) (task : Fin n) :
    (kernel.tcb task).waitPtr = (spec.tcb task).waitPtr :=
  congrArg Tcb.waitPtr (rep.tcb task)

theorem sp (rep : Rep hole kernel spec) (task : Fin n) :
    (kernel.tcb task).sp = (spec.tcb task).sp :=
  congrArg Tcb.sp (rep.tcb task)

theorem isReady (rep : Rep hole kernel spec) (task : Fin n) :
    (kernel.tcb task).state.isReady = (spec.tcb task).state.isReady := by
  have same := rep.state task
  cases left : (kernel.tcb task).state <;> cases right : (spec.tcb task).state <;>
    simp_all [TaskState.forget, TaskState.isReady]

theorem isRunning (rep : Rep hole kernel spec) (task : Fin n) :
    (kernel.tcb task).state.isRunning = (spec.tcb task).state.isRunning := by
  have same := rep.state task
  cases left : (kernel.tcb task).state <;> cases right : (spec.tcb task).state <;>
    simp_all [TaskState.forget, TaskState.isRunning]

theorem isBlocked (rep : Rep hole kernel spec) (task : Fin n) :
    (kernel.tcb task).state.isBlocked = (spec.tcb task).state.isBlocked := by
  have same := rep.state task
  cases left : (kernel.tcb task).state <;> cases right : (spec.tcb task).state <;>
    simp_all [TaskState.forget, TaskState.isBlocked]

theorem runnable (rep : Rep hole kernel spec) (task : Fin n) :
    (kernel.tcb task).state.runnable = (spec.tcb task).state.runnable := by
  rw [TaskState.runnable, TaskState.runnable, rep.isReady, rep.isRunning]

/-- A blocked task is blocked at both levels. -/
theorem blocked (rep : Rep hole kernel spec) (isBlocked : (spec.tcb task).state = .blocked list) :
    (kernel.tcb task).state = .blocked (kernel.waitLink task) := by
  have same := rep.state task
  rw [isBlocked] at same
  cases state : (kernel.tcb task).state with
  | blocked next => simp [Kernel.waitLink, state]
  | _ => simp [state, TaskState.forget] at same

/-- So is a dead one. -/
theorem dead_iff (rep : Rep hole kernel spec) (task : Fin n) :
    (kernel.tcb task).state = .dead ↔ (spec.tcb task).state = .dead := by
  have same := rep.state task
  cases left : (kernel.tcb task).state <;> cases right : (spec.tcb task).state <;>
    simp_all [TaskState.forget]

/-- Tasks that wait nowhere have no link. -/
theorem state_eq {other : Rtos n V} (rep : Rep hole kernel spec) (rep' : Rep hole other spec)
    (links : ∀ list, (spec.tcb task).state = .blocked list →
      kernel.waitLink task = other.waitLink task) :
    (kernel.tcb task).state = (other.tcb task).state := by
  have same := (rep.state task).trans (rep'.state task).symm
  cases waits : (spec.tcb task).state with
  | blocked list => rw [rep.blocked waits, rep'.blocked waits, links list waits]
  | _ =>
      have plain := rep.state task
      rw [waits] at plain
      cases left : (kernel.tcb task).state <;> cases right : (other.tcb task).state <;>
        simp_all [TaskState.forget]

/-- The abstract state determines the state of the code: its links are those of the lists. -/
theorem unique {other : Rtos n V} (rep : Rep none kernel spec) (rep' : Rep none other spec) :
    kernel = other := by
  have heads : kernel.waitHead = other.waitHead := by
    funext list
    exact ((rep.chain list).links_eq (rep'.chain list)).1
  have tcbs : kernel.tcb = other.tcb := by
    funext task
    refine Tcb.eq_of_forget ((rep.tcb task).trans (rep'.tcb task).symm) (rep.state_eq rep' ?_)
    intro list waits
    exact ((rep.chain list).links_eq (rep'.chain list)).2 task (rep.wf.mem.mpr waits)
  have statics := rep.statics.trans rep'.statics.symm
  cases kernel
  cases other
  simp_all

/-- Globals other than TCBs and heads are written alike. -/
theorem modifyStatics (rep : Rep hole kernel spec) (write : Statics n V → Statics n V) :
    Rep hole (kernel.modifyStatics write) (spec.modifyStatics write) where
  wf := rep.wf.modifyStatics write
  statics := congrArg write rep.statics
  tcb := rep.tcb
  chain := rep.chain

/-- TCB fields other than the state are written alike. -/
theorem modifyTcb (rep : Rep hole kernel spec)
    {change : Tcb n (TcbPtr n) → Tcb n (TcbPtr n)} {change' : Tcb n WaitList → Tcb n WaitList}
    (alike : (change (kernel.tcb task)).forget = (change' (spec.tcb task)).forget)
    (sameState : (change (kernel.tcb task)).state = (kernel.tcb task).state)
    (sameState' : (change' (spec.tcb task)).state = (spec.tcb task).state)
    (ownFrame : ∀ owner, (change' (spec.tcb task)).waitPtr = .stack owner → owner = task) :
    Rep hole (kernel.modifyTcb task change) (spec.modifyTcb task change') where
  wf := rep.wf.modifyTcb sameState' ownFrame
  statics := rep.statics
  tcb other := by
    by_cases same : other = task
    · subst same
      simpa using alike
    · simpa [same] using rep.tcb other
  chain list := by
    refine (rep.chain list).congr fun other _ => ?_
    by_cases same : other = task
    · subst same
      simp [Kernel.waitLink, sameState]
    · simp [Kernel.waitLink, same]

/-- `(*task).wait_ptr = waitPtr`. -/
theorem setWaitPtr (rep : Rep hole kernel spec) {waitPtr : WaitPtr n}
    (ownFrame : ∀ owner, waitPtr = .stack owner → owner = task) :
    Rep hole (kernel.setWaitPtr task waitPtr) (spec.setWaitPtr task waitPtr) :=
  rep.modifyTcb (congrArg (fun tcb : Tcb n Unit => { tcb with waitPtr }) (rep.tcb task)) rfl rfl
    ownFrame

/-- `(*task).priority = priority`. -/
theorem setPriority (rep : Rep hole kernel spec) (task : Fin n) (priority : U8) :
    Rep hole (kernel.setPriority task priority) (spec.setPriority task priority) :=
  rep.modifyTcb (congrArg (fun tcb : Tcb n Unit => { tcb with priority }) (rep.tcb task)) rfl rfl
    (rep.wf.ownFrame task)

/-- The TCB of a task on no list is written alike. -/
theorem overwrite (rep : Rep hole kernel spec) {hole' : TcbPtr n}
    {change : Tcb n (TcbPtr n) → Tcb n (TcbPtr n)} {change' : Tcb n WaitList → Tcb n WaitList}
    (alike : (change (kernel.tcb task)).forget = (change' (spec.tcb task)).forget)
    (away : ∀ list, task ∉ spec.waitHead list)
    (wf : Spec.WellFormed (spec.modifyTcb task change') hole') :
    Rep hole' (kernel.modifyTcb task change) (spec.modifyTcb task change') where
  wf := wf
  statics := rep.statics
  tcb other := by
    by_cases same : other = task
    · subst same
      simpa using alike
    · simpa [same] using rep.tcb other
  chain list := by
    refine (rep.chain list).congr fun other member => ?_
    have different : other ≠ task := by
      rintro rfl
      exact away list member
    simp [Kernel.waitLink, different]

/-- A task on no list changes to a state without link. -/
theorem setState (rep : Rep hole kernel spec) {hole' : TcbPtr n} {state : TaskState (TcbPtr n)}
    {state' : TaskState WaitList} (alike : state.forget = state'.forget)
    (away : ∀ list, task ∉ spec.waitHead list)
    (wf : Spec.WellFormed (spec.setState task state') hole') :
    Rep hole' (kernel.setState task state) (spec.setState task state') := by
  refine rep.overwrite ?_ away wf
  have rest := congrArg (fun tcb : Tcb n Unit => { tcb with state := state.forget }) (rep.tcb task)
  rw [alike] at rest
  simpa [Tcb.forget, alike] using rest

/-- `block_and_push`. -/
theorem blockAndPush (rep : Rep none kernel spec)
    (running : (spec.tcb task).state.isRunning = true) :
    Rep none (Rtos.blockAndPush kernel list task) (Spec.blockAndPush spec list task) where
  wf := rep.wf.blockAndPush running
  statics := rep.statics
  tcb other := by
    by_cases same : other = task
    · subst same
      have rest := rep.tcb other
      simp only [Tcb.forget, Tcb.mk.injEq] at rest
      simp [Rtos.blockAndPush, Spec.blockAndPush, Tcb.forget, TaskState.forget, rest]
    · simpa [Rtos.blockAndPush, Spec.blockAndPush, same] using rep.tcb other
  chain other := by
    have frame : ∀ waiter ∈ spec.waitHead other,
        (Rtos.blockAndPush kernel list task).waitLink waiter = kernel.waitLink waiter := by
      intro waiter member
      have different : waiter ≠ task := by
        rintro rfl
        exact rep.wf.not_mem_of_running running member
      simp [Kernel.waitLink, Rtos.blockAndPush, different]
    have onward := (rep.chain other).congr frame
    by_cases same : other = list
    · subst same
      simpa [Rtos.blockAndPush, Spec.blockAndPush, Kernel.waitLink] using onward
    · simpa [Rtos.blockAndPush, Spec.blockAndPush, same] using onward

/-- Unlinking the first task of a list. -/
theorem unlinkHead (rep : Rep none kernel spec) {after : List (Fin n)}
    (starts : spec.waitHead list = task :: after) :
    Rep (some task) (kernel.setHead list (kernel.waitLink task)) (spec.remove list task) where
  wf := rep.wf.remove (by simp [starts])
  statics := rep.statics
  tcb := rep.tcb
  chain other := by
    change Linked.Chain kernel.waitLink _ _
    by_cases same : other = list
    · subst same
      have whole := rep.chain other
      rw [starts] at whole
      simpa [Spec.remove, starts] using whole.2
    · simpa [Spec.remove, same] using rep.chain other

/-- Unlinking a task behind its predecessor. -/
theorem unlink (rep : Rep none kernel spec) {before after : List (Fin n)} {previous : Fin n}
    (splits : spec.waitHead list = before ++ previous :: task :: after) :
    Rep (some task) (Rtos.setWaitNext kernel previous (kernel.waitLink task))
      (spec.remove list task) := by
  have distinct := rep.wf.nodup list
  have member : previous ∈ spec.waitHead list := by simp [splits]
  obtain ⟨link, isBlocked⟩ : ∃ link, (kernel.tcb previous).state = .blocked link :=
    ⟨_, rep.blocked (rep.wf.mem.mp member)⟩
  have links : (Rtos.setWaitNext kernel previous (kernel.waitLink task)).waitLink =
      Function.update kernel.waitLink previous (kernel.waitLink task) := by
    funext other
    by_cases same : other = previous
    · subst same
      simp [Rtos.setWaitNext, isBlocked, Kernel.waitLink]
    · simp [Rtos.setWaitNext, isBlocked, Kernel.waitLink, same]
  refine ⟨rep.wf.remove (by simp [splits]), ?_, fun other => ?_, fun other => ?_⟩
  · simp only [Rtos.setWaitNext, isBlocked]
    exact rep.statics
  · by_cases same : other = previous
    · subst same
      have relinked : ({ kernel.tcb other with
          state := .blocked (kernel.waitLink task) } : Tcb n (TcbPtr n)).forget =
            (kernel.tcb other).forget := by
        simp [Tcb.forget, isBlocked, TaskState.forget]
      simpa [Rtos.setWaitNext, isBlocked, Spec.remove] using relinked.trans (rep.tcb other)
    · simpa [Rtos.setWaitNext, isBlocked, Spec.remove, same] using rep.tcb other
  · have heads : (Rtos.setWaitNext kernel previous (kernel.waitLink task)).waitHead =
        kernel.waitHead := by simp [Rtos.setWaitNext, isBlocked]
    rw [links, heads]
    by_cases same : other = list
    · subst same
      have whole := rep.chain other
      rw [splits] at whole distinct
      have notBefore : task ∉ before ++ [previous] := by
        have parts : (before ++ [previous] ++ task :: after).Nodup := by simpa using distinct
        exact fun inBefore => (List.nodup_append.mp parts).2.2 task inBefore task (by simp) rfl
      have erased : (before ++ previous :: task :: after).erase task =
          before ++ previous :: after := by
        have step := List.erase_append_right (task :: after) notBefore
        simpa using step
      simpa [Spec.remove, splits, erased] using Linked.Chain.unlink distinct whole
    · have frame : ∀ waiter ∈ spec.waitHead other,
          Function.update kernel.waitLink previous (kernel.waitLink task) waiter =
            kernel.waitLink waiter := by
        intro waiter listed
        apply Function.update_of_ne
        rintro rfl
        exact same (rep.wf.list_unique listed member)
      simpa [Spec.remove, same] using (rep.chain other).congr frame

end Rep

end Kangaroos
