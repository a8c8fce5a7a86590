import Kangaroos.Abstract.Spec
import Kangaroos.Logic.Triple

/-!
# What a critical section may touch

Every critical section works on one or two primitives. `Effect scope on who pend`
is what it may do to everything else: lists and data of primitives outside
`scope` stay, a task other than the caller either keeps its state or is woken
from a list in `scope`, and a woken task that is more urgent than `CURRENT` sets
the preemption flag. Effects compose, so each section is bounded once, by
walking through its text.
-/

namespace Kangaroos

/-- A static primitive. -/
inductive Prim where
  | semaphore (id : Nat)
  | mutex (id : Nat)
  | condvar (id : Nat)
  | event (id : Nat)
  | once (id : Nat)
  | channel (id : Nat)
  | pool (id : Nat)
  deriving DecidableEq

/-- The primitive a wait list belongs to. -/
def WaitList.home : WaitList → Prim
  | .semaphore id => .semaphore id
  | .mutex id => .mutex id
  | .condvar id => .condvar id
  | .eventAny id => .event id
  | .eventAll id => .event id
  | .once id => .once id
  | .channelSend id => .channel id
  | .channelRecv id => .channel id
  | .pool id => .pool id

/-- Two states agree on the data of a primitive, its wait lists apart. -/
def Prim.Agree {n : Nat} {V : Type} (before after : Statics n V) : Prim → Prop
  | .semaphore id => after.semaphore id = before.semaphore id
  | .mutex id => after.owner id = before.owner id
  | .condvar _ => True
  | .event id => after.bits id = before.bits id
  | .once id => after.once id = before.once id
  | .channel id => after.channel id = before.channel id
  | .pool id => after.pool id = before.pool id

theorem Prim.Agree.refl {n : Nat} {V : Type} (statics : Statics n V) (prim : Prim) :
    prim.Agree statics statics := by
  cases prim <;> simp [Prim.Agree]

theorem Prim.Agree.trans {n : Nat} {V : Type} {first second third : Statics n V} {prim : Prim}
    (left : prim.Agree first second) (right : prim.Agree second third) :
    prim.Agree first third := by
  cases prim with
  | condvar id => trivial
  | _ => exact Eq.trans right left

/-- The faults of a section that do not concern wait lists. -/
def Benign (fault : Fault) : Prop := fault ≠ .unreachable ∧ fault ≠ .diverges

theorem deref_triple {n : Nat} (pointer : TcbPtr n) :
    Triple (deref pointer) (fun task => pointer = some task) Benign := by
  cases pointer with
  | none => exact ⟨by decide, by decide⟩
  | some task => rfl

namespace Spec

variable {n : Nat} {V : Type}

/-- A state change leaves every priority alone. -/
@[simp] theorem setState_priority (kernel : Spec n V) (task other : Fin n)
    (state : TaskState WaitList) :
    ((kernel.setState task state).tcb other).priority = (kernel.tcb other).priority := by
  by_cases same : other = task
  · subst same
    simp
  · simp [same]

/-- Neither does a write of `wait_ptr`. -/
@[simp] theorem setWaitPtr_priority (kernel : Spec n V) (task : Fin n) (waitPtr : WaitPtr n)
    (other : Fin n) :
    ((kernel.setWaitPtr task waitPtr).tcb other).priority = (kernel.tcb other).priority := by
  by_cases same : other = task
  · subst same
    simp
  · simp [same]

/-- A task leaves a list in `scope` and becomes ready. -/
def Woken (scope : Prim → Prop) (before after : TaskState WaitList) : Prop :=
  (∃ list, scope list.home ∧ before = .blocked list) ∧ ∃ slice, after = .ready slice

/-- What the caller of a section may become: it runs on, or it waits. -/
def Parked (on : WaitList → Prop) (state : TaskState WaitList) : Prop :=
  state.isRunning = true ∨ (∃ list, on list ∧ state = .blocked list) ∨
    (∃ deadline, state = .sleeping deadline) ∨ state = .dead

/-- What a critical section run by `who` on the primitives in `scope` may do; `on` are
the lists the caller may block on and `pend` is the preemption flag. -/
structure Effect (scope : Prim → Prop) (on : WaitList → Prop) (who : TcbPtr n) (pend : Bool)
    (before after : Spec n V) : Prop where
  launched : pend = true → before.current ≠ none
  current : after.current = before.current
  allTasks : after.allTasks = before.allTasks
  tickCount : after.tickCount = before.tickCount
  heads : ∀ list, ¬scope list.home → after.waitHead list = before.waitHead list
  agree : ∀ prim, ¬scope prim → prim.Agree before.toStatics after.toStatics
  fixed : ∀ task, (after.tcb task).basePriority = (before.tcb task).basePriority ∧
    (after.tcb task).timeSlice = (before.tcb task).timeSlice ∧
    (after.tcb task).allNext = (before.tcb task).allNext
  priority : (∀ id, ¬scope (.mutex id)) → ∀ task,
    (after.tcb task).priority = (before.tcb task).priority
  state : ∀ task, who ≠ some task → (after.tcb task).state = (before.tcb task).state ∨
    Woken scope (before.tcb task).state (after.tcb task).state
  own : ∀ task, who = some task → (after.tcb task).state = (before.tcb task).state ∨
    pend = true ∧ Parked on (after.tcb task).state
  kept : ∀ task, who ≠ some task →
    ((after.tcb task).waitPtr = (before.tcb task).waitPtr ∧
      after.frame (some task) = before.frame (some task)) ∨
    ∃ list, scope list.home ∧ (before.tcb task).state = .blocked list
  quiet : pend = false → ∀ current task, before.current = some current →
    (after.tcb task).state.isReady = true → (before.tcb task).state.isReady = true ∨
      (after.tcb current).priority ≤ (after.tcb task).priority

namespace Effect

variable {scope : Prim → Prop} {on : WaitList → Prop} {who : TcbPtr n} {pend : Bool}
  {kernel : Spec n V}

/-- Doing nothing. -/
theorem refl (kernel : Spec n V) : Effect scope on who false kernel kernel where
  launched := by simp
  current := rfl
  allTasks := rfl
  tickCount := rfl
  heads _ _ := rfl
  agree prim _ := .refl _ prim
  fixed _ := ⟨rfl, rfl, rfl⟩
  priority _ _ := rfl
  state _ _ := .inl rfl
  own _ _ := .inl rfl
  kept _ _ := .inl ⟨rfl, rfl⟩
  quiet _ _ _ _ ready := .inl ready

/-- One effect after another. The comparison the first flag stands for is made again
after the second, so priorities must stay unless the flag is set. -/
theorem trans {first second third : Spec n V} {pend' : Bool}
    (left : Effect scope on who pend first second) (right : Effect scope on who pend' second third)
    (steady : pend = true ∨ ∀ task, (third.tcb task).priority = (second.tcb task).priority) :
    Effect scope on who (pend || pend') first third where
  launched pended := by
    rcases Bool.or_eq_true_iff.mp pended with early | late
    · exact left.launched early
    · exact left.current ▸ right.launched late
  current := right.current.trans left.current
  allTasks := right.allTasks.trans left.allTasks
  tickCount := right.tickCount.trans left.tickCount
  heads list outside := (right.heads list outside).trans (left.heads list outside)
  agree prim outside := (left.agree prim outside).trans (right.agree prim outside)
  fixed task := by
    have near := left.fixed task
    have far := right.fixed task
    exact ⟨far.1.trans near.1, far.2.1.trans near.2.1, far.2.2.trans near.2.2⟩
  priority unboosted task := (right.priority unboosted task).trans (left.priority unboosted task)
  state task other := by
    rcases right.state task other with same | ⟨⟨list, inScope, blocked⟩, ready⟩
    · rw [same]
      exact left.state task other
    · rcases left.state task other with same | ⟨_, slice, readyBefore⟩
      · exact .inr ⟨⟨list, inScope, same ▸ blocked⟩, ready⟩
      · simp [readyBefore] at blocked
  own task mine := by
    rcases right.own task mine with same | ⟨pended, parked⟩
    · rw [same]
      rcases left.own task mine with unchanged | ⟨pended, parked⟩
      · exact .inl unchanged
      · exact .inr ⟨by simp [pended], parked⟩
    · exact .inr ⟨by simp [pended], parked⟩
  kept task other := by
    rcases left.kept task other with ⟨samePtr, sameFrame⟩ | waiting
    · rcases right.kept task other with ⟨samePtr', sameFrame'⟩ | ⟨list, inScope, blocked⟩
      · exact .inl ⟨samePtr'.trans samePtr, sameFrame'.trans sameFrame⟩
      · rcases left.state task other with same | ⟨_, slice, ready⟩
        · exact .inr ⟨list, inScope, same ▸ blocked⟩
        · simp [ready] at blocked
    · exact .inr waiting
  quiet unpended current task isCurrent ready := by
    obtain ⟨leftQuiet, rightQuiet⟩ : pend = false ∧ pend' = false := by
      simpa using unpended
    rcases right.quiet rightQuiet current task (left.current.trans isCurrent) ready with
      readyBefore | urgent
    · rcases left.quiet leftQuiet current task isCurrent readyBefore with readyFirst | urgent
      · exact .inl readyFirst
      · rcases steady with pended | same
        · simp [pended] at leftQuiet
        · exact .inr (by rw [same, same]; exact urgent)
    · exact .inr urgent

/-- Globals written after the rest change no priority. -/
theorem andStatics {second : Spec n V} {write : Statics n V → Statics n V}
    (left : Effect scope on who false kernel second)
    (right : Effect scope on who false second (second.modifyStatics write)) :
    Effect scope on who false kernel (second.modifyStatics write) := by
  have both := left.trans right (.inr fun _ => rfl)
  rwa [Bool.false_or] at both

/-- Only waiters change state behind the caller's back. -/
theorem state_of_not_blocked {after : Spec n V} (effect : Effect scope on who pend kernel after)
    {task : Fin n} (other : who ≠ some task)
    (notBlocked : ∀ list, (kernel.tcb task).state ≠ .blocked list) :
    (after.tcb task).state = (kernel.tcb task).state := by
  rcases effect.state task other with same | ⟨⟨list, _, blocked⟩, _⟩
  · exact same
  · exact absurd blocked (notBlocked list)

/-- And they become ready. -/
theorem state_of_not_ready {after : Spec n V} (effect : Effect scope on who pend kernel after)
    {task : Fin n} (other : who ≠ some task)
    (notReady : (after.tcb task).state.isReady = false) :
    (after.tcb task).state = (kernel.tcb task).state := by
  rcases effect.state task other with same | ⟨_, slice, ready⟩
  · exact same
  · simp [ready] at notReady

/-- A flag that is set claims less. -/
theorem pended {after : Spec n V} (effect : Effect scope on who pend kernel after)
    (launched : kernel.current ≠ none) : Effect scope on who true kernel after :=
  { effect with
    launched := fun _ => launched
    own := fun task mine => (effect.own task mine).imp_right (⟨rfl, ·.2⟩)
    quiet := fun unset => by simp at unset }

/-- Writing the data of a primitive in `scope`. -/
theorem modifyStatics {write : Statics n V → Statics n V}
    (sameCurrent : (write kernel.toStatics).current = kernel.current)
    (sameTasks : (write kernel.toStatics).allTasks = kernel.allTasks)
    (sameTick : (write kernel.toStatics).tickCount = kernel.tickCount)
    (sameFrame : (write kernel.toStatics).frame = kernel.frame)
    (agree : ∀ prim, ¬scope prim → prim.Agree kernel.toStatics (write kernel.toStatics)) :
    Effect scope on who false kernel (kernel.modifyStatics write) :=
  { refl kernel with
    current := sameCurrent
    allTasks := sameTasks
    tickCount := sameTick
    agree := agree
    kept := fun _ _ => .inl ⟨rfl, congrFun sameFrame _⟩ }

theorem setSemaphore {id : Nat} {inner : SemaphoreInner} (inScope : scope (.semaphore id)) :
    Effect scope on who false kernel (kernel.setSemaphore id inner) := by
  apply modifyStatics rfl rfl rfl rfl
  intro prim outside
  cases prim with
  | semaphore other =>
      apply Function.update_of_ne
      rintro rfl
      exact outside inScope
  | condvar other => trivial
  | _ => exact rfl

theorem setOwner {id : Nat} {owner : TcbPtr n} (inScope : scope (.mutex id)) :
    Effect scope on who false kernel (kernel.setOwner id owner) := by
  apply modifyStatics rfl rfl rfl rfl
  intro prim outside
  cases prim with
  | mutex other =>
      apply Function.update_of_ne
      rintro rfl
      exact outside inScope
  | condvar other => trivial
  | _ => exact rfl

theorem setBits {id : Nat} {bits : Word} (inScope : scope (.event id)) :
    Effect scope on who false kernel (kernel.setBits id bits) := by
  apply modifyStatics rfl rfl rfl rfl
  intro prim outside
  cases prim with
  | event other =>
      apply Function.update_of_ne
      rintro rfl
      exact outside inScope
  | condvar other => trivial
  | _ => exact rfl

theorem setOnce {id : Nat} {state : OnceState} (inScope : scope (.once id)) :
    Effect scope on who false kernel (kernel.setOnce id state) := by
  apply modifyStatics rfl rfl rfl rfl
  intro prim outside
  cases prim with
  | once other =>
      apply Function.update_of_ne
      rintro rfl
      exact outside inScope
  | condvar other => trivial
  | _ => exact rfl

theorem setChannel {id : Nat} {inner : ChannelInner n V} (inScope : scope (.channel id)) :
    Effect scope on who false kernel (kernel.setChannel id inner) := by
  apply modifyStatics rfl rfl rfl rfl
  intro prim outside
  cases prim with
  | channel other =>
      apply Function.update_of_ne
      rintro rfl
      exact outside inScope
  | condvar other => trivial
  | _ => exact rfl

theorem setPool {id : Nat} {inner : PoolInner V} (inScope : scope (.pool id)) :
    Effect scope on who false kernel (kernel.setPool id inner) := by
  apply modifyStatics rfl rfl rfl rfl
  intro prim outside
  cases prim with
  | pool other =>
      apply Function.update_of_ne
      rintro rfl
      exact outside inScope
  | condvar other => trivial
  | _ => exact rfl

/-- Writing a local of the caller, or of a task that waits on a list in `scope`. -/
theorem setFrame {context : TcbPtr n} {value : Option V}
    (mine : ∀ owner, context = some owner → who = some owner ∨
      ∃ list, scope list.home ∧ (kernel.tcb owner).state = .blocked list) :
    Effect scope on who false kernel (kernel.setFrame context value) :=
  { refl kernel with
    agree := fun prim _ => by cases prim <;> simp [Prim.Agree]
    kept := by
      intro task other
      by_cases same : some task = context
      · exact .inr ((mine task same.symm).resolve_left other)
      · exact .inl ⟨rfl, Function.update_of_ne same _ _⟩ }

/-- Writing one TCB, field by field. -/
theorem modifyTcb {task : Fin n} {change : Tcb n WaitList → Tcb n WaitList}
    (fixed : (change (kernel.tcb task)).basePriority = (kernel.tcb task).basePriority ∧
      (change (kernel.tcb task)).timeSlice = (kernel.tcb task).timeSlice ∧
      (change (kernel.tcb task)).allNext = (kernel.tcb task).allNext)
    (priority : (∀ id, ¬scope (.mutex id)) →
      (change (kernel.tcb task)).priority = (kernel.tcb task).priority)
    (state : who ≠ some task → (change (kernel.tcb task)).state = (kernel.tcb task).state ∨
      Woken scope (kernel.tcb task).state (change (kernel.tcb task)).state)
    (own : who = some task → (change (kernel.tcb task)).state = (kernel.tcb task).state ∨
      pend = true ∧ Parked on (change (kernel.tcb task)).state)
    (kept : who ≠ some task → (change (kernel.tcb task)).waitPtr = (kernel.tcb task).waitPtr ∨
      ∃ list, scope list.home ∧ (kernel.tcb task).state = .blocked list)
    (quiet : pend = false → (change (kernel.tcb task)).state.isReady = true →
      (kernel.tcb task).state.isReady = true ∨ ∀ current, kernel.current = some current →
        ((kernel.modifyTcb task change).tcb current).priority ≤
          (change (kernel.tcb task)).priority)
    (launched : pend = true → kernel.current ≠ none) :
    Effect scope on who pend kernel (kernel.modifyTcb task change) where
  launched := launched
  current := rfl
  allTasks := rfl
  tickCount := rfl
  heads _ _ := rfl
  agree prim _ := .refl _ prim
  fixed other := by
    by_cases same : other = task
    · subst same
      simpa using fixed
    · simp [same]
  priority unboosted other := by
    by_cases same : other = task
    · subst same
      simpa using priority unboosted
    · simp [same]
  state other notWho := by
    by_cases same : other = task
    · subst same
      simpa using state notWho
    · simp [same]
  own other isWho := by
    by_cases same : other = task
    · subst same
      simpa using own isWho
    · simp [same]
  kept other notWho := by
    by_cases same : other = task
    · subst same
      simpa using kept notWho
    · simp [same]
  quiet unpended current other isCurrent ready := by
    by_cases same : other = task
    · subst same
      rw [Kernel.modifyTcb_tcb, Function.update_self] at ready
      rcases quiet unpended ready with readyBefore | urgent
      · exact .inl readyBefore
      · exact .inr (by simpa using urgent current isCurrent)
    · exact .inl (by simpa [same] using ready)

/-- Writing the `wait_ptr` of the caller, or of a task that waits on a list in `scope`. -/
theorem setWaitPtr {owner : Fin n} {waitPtr : WaitPtr n}
    (mine : who = some owner ∨ ∃ list, scope list.home ∧ (kernel.tcb owner).state = .blocked list) :
    Effect scope on who false kernel (kernel.setWaitPtr owner waitPtr) := by
  apply modifyTcb
  · exact ⟨rfl, rfl, rfl⟩
  · exact fun _ => rfl
  · exact fun _ => .inl rfl
  · exact fun _ => .inl rfl
  · exact fun notWho => .inr (mine.resolve_left notWho)
  · exact fun _ ready => .inl ready
  · simp

/-- A `wait_ptr` written after the rest. -/
theorem andWaitPtr {second : Spec n V} {owner : Fin n} {waitPtr : WaitPtr n}
    (left : Effect scope on who false kernel second)
    (mine : who = some owner ∨ ∃ list, scope list.home ∧ (second.tcb owner).state = .blocked list) :
    Effect scope on who false kernel (second.setWaitPtr owner waitPtr) := by
  have write : Effect scope on who false second (second.setWaitPtr owner waitPtr) :=
    .setWaitPtr mine
  have both := left.trans write (.inr (setWaitPtr_priority _ _ _))
  rwa [Bool.false_or] at both

/-- Changing an effective priority, in a section on a mutex. -/
theorem setPriority {task : Fin n} {priority : U8} {id : Nat} (mutex : scope (.mutex id)) :
    Effect scope on who false kernel (kernel.setPriority task priority) := by
  apply modifyTcb
  · exact ⟨rfl, rfl, rfl⟩
  · exact fun unboosted => absurd mutex (unboosted id)
  · exact fun _ => .inl rfl
  · exact fun _ => .inl rfl
  · exact fun _ => .inl rfl
  · exact fun _ ready => .inl ready
  · simp

/-- The caller gives up the processor in another state. -/
theorem park {task : Fin n} {state : TaskState WaitList} (isWho : who = some task)
    (parked : Parked on state) (launched : kernel.current ≠ none) :
    Effect scope on who true kernel (kernel.setState task state) := by
  apply modifyTcb
  · exact ⟨rfl, rfl, rfl⟩
  · exact fun _ => rfl
  · exact fun notWho => absurd isWho notWho
  · exact fun _ => .inr ⟨rfl, parked⟩
  · exact fun notWho => absurd isWho notWho
  · exact fun unset => by simp at unset
  · exact fun _ => launched

/-- Taking a task off a list in `scope`. -/
theorem remove {list : WaitList} {task : Fin n} (inScope : scope list.home) :
    Effect scope on who false kernel (kernel.remove list task) :=
  { refl kernel with
    heads := by
      intro other outside
      have different : other ≠ list := by
        rintro rfl
        exact outside inScope
      exact Function.update_of_ne different _ _ }

/-- `unblock` of a task that waits on a list in `scope`. -/
theorem unblock {list : WaitList} {task current : Fin n} {slice : U8} (inScope : scope list.home)
    (blocked : (kernel.tcb task).state = .blocked list) (other : who ≠ some task)
    (isCurrent : kernel.current = some current) :
    Effect scope on who (decide ((kernel.tcb task).priority < (kernel.tcb current).priority)) kernel
      (kernel.setState task (.ready slice)) := by
  apply modifyTcb
  · exact ⟨rfl, rfl, rfl⟩
  · exact fun _ => rfl
  · exact fun _ => .inr ⟨⟨list, inScope, blocked⟩, slice, rfl⟩
  · exact fun isWho => absurd isWho other
  · exact fun _ => .inl rfl
  · intro unpended _
    refine .inr fun someCurrent sameCurrent => ?_
    obtain rfl : current = someCurrent := by simpa [isCurrent] using sameCurrent
    have notUrgent := not_lt.mp (of_decide_eq_false unpended)
    by_cases same : current = task
    · subst same
      simp
    · simpa [same] using notUrgent
  · simp [isCurrent]

/-- `block_and_push` of the caller on a list in `scope`. -/
theorem blockAndPush {list : WaitList} {task : Fin n} (inScope : scope list.home)
    (onList : on list) (isWho : who = some task) (launched : kernel.current ≠ none) :
    Effect scope on who true kernel (kernel.blockAndPush list task) :=
  have parks : Effect scope on who true kernel (kernel.setState task (.blocked list)) :=
    park isWho (.inr (.inl ⟨list, onList, rfl⟩)) launched
  { parks with
    heads := by
      intro other outside
      have different : other ≠ list := by
        rintro rfl
        exact outside inScope
      exact Function.update_of_ne different _ _ }

end Effect

end Spec

end Kangaroos
