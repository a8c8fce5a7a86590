import Kangaroos.Machine
import Mathlib.Data.List.MinMax

/-!
# The abstract kernel

What the wait lists are for, without links: a list head is the list of the
tasks that wait, newest first, and a blocked task carries the name of the list
it waits on. Popping picks the first of the most urgent waiters. The rest of
the kernel is the same text over this instance of `WaitOps`.
-/

namespace Kangaroos

/-- The kernel with lists of waiting tasks in place of intrusive links. -/
abbrev Spec (n : Nat) (V : Type) := Kernel n V WaitList (List (Fin n))

namespace Spec

variable {n : Nat} {V : Type}

/-- The first of the most urgent tasks of a list. -/
def mostUrgent (kernel : Spec n V) (tasks : List (Fin n)) : TcbPtr n :=
  tasks.argmin fun task => (kernel.tcb task).priority

/-- Block `task` on `list`. -/
def blockAndPush (kernel : Spec n V) (list : WaitList) (task : Fin n) : Spec n V :=
  (kernel.setState task (.blocked list)).setHead list (task :: kernel.waitHead list)

/-- Take `task` off `list`. -/
def remove (kernel : Spec n V) (list : WaitList) (task : Fin n) : Spec n V :=
  kernel.setHead list ((kernel.waitHead list).erase task)

/-- Take the first of the most urgent waiters off `list`. -/
def popHighest (kernel : Spec n V) (list : WaitList) : Spec n V × TcbPtr n :=
  match kernel.mostUrgent (kernel.waitHead list) with
  | none => (kernel, none)
  | some task => (kernel.remove list task, some task)

/-- Offer the bits of an event group to the given waiters in order. -/
def scanList (rule : ScanRule) (event : Nat) (list : WaitList) :
    List (Fin n) → Spec n V × Bool → Exec (Spec n V × Bool)
  | [], acc => .ok acc
  | task :: rest, (kernel, preempt) => do
    let mask ← kernel.waitWord task
    match rule.taken (kernel.bits event) mask with
    | some taken => do
      let (kernel, urgent) ← (kernel.remove list task).satisfy rule event task taken
      scanList rule event list rest (kernel, preempt || urgent)
    | none => scanList rule event list rest (kernel, preempt)

end Spec

instance (n : Nat) (V : Type) : WaitOps n V WaitList (List (Fin n)) where
  null := []
  isNull tasks := tasks.isEmpty
  blockAndPush := Spec.blockAndPush
  waitListPopHighest kernel list := .ok (Spec.popHighest kernel list)
  scan kernel rule event list :=
    Spec.scanList rule event list (kernel.waitHead list) (kernel, false)

namespace Spec

variable {n : Nat} {V : Type}

/-- What the links maintain: a task is on `list` exactly when its state says so, no
list holds a task twice, and an address in `wait_ptr` is one in the task's own
frame. While a task is between its removal and its `unblock`, it is the `hole`:
on no list, in any state. -/
structure WellFormed (kernel : Spec n V) (hole : TcbPtr n) : Prop where
  mem_iff : ∀ list task, hole ≠ some task →
    (task ∈ kernel.waitHead list ↔ (kernel.tcb task).state = .blocked list)
  nodup : ∀ list, (kernel.waitHead list).Nodup
  notListed : ∀ task, hole = some task → ∀ list, task ∉ kernel.waitHead list
  ownFrame : ∀ task owner, (kernel.tcb task).waitPtr = .stack owner → owner = task

namespace WellFormed

variable {kernel : Spec n V} {hole : TcbPtr n} {task : Fin n} {list : WaitList}

/-- Without a hole, list membership is the task's own record of where it waits. -/
theorem mem (wf : WellFormed kernel none) :
    task ∈ kernel.waitHead list ↔ (kernel.tcb task).state = .blocked list :=
  wf.mem_iff list task (by simp)

/-- A task that runs is on no list. -/
theorem not_mem_of_running (wf : WellFormed kernel none)
    (running : (kernel.tcb task).state.isRunning = true) : task ∉ kernel.waitHead list := by
  rw [wf.mem]
  intro blocked
  simp [blocked] at running

/-- Two lists with a common task are the same list. -/
theorem list_unique (wf : WellFormed kernel none) {other : WaitList}
    (first : task ∈ kernel.waitHead list) (second : task ∈ kernel.waitHead other) :
    list = other := by
  rw [wf.mem] at first second
  simpa using first.symm.trans second

/-- Globals other than TCBs and list heads do not matter. -/
theorem modifyStatics (wf : WellFormed kernel hole) (write : Statics n V → Statics n V) :
    WellFormed (kernel.modifyStatics write) hole :=
  ⟨wf.mem_iff, wf.nodup, wf.notListed, wf.ownFrame⟩

/-- Neither do the fields of a TCB other than its state and `wait_ptr`. -/
theorem modifyTcb (wf : WellFormed kernel hole) {change : Tcb n WaitList → Tcb n WaitList}
    (sameState : (change (kernel.tcb task)).state = (kernel.tcb task).state)
    (ownFrame : ∀ owner, (change (kernel.tcb task)).waitPtr = .stack owner → owner = task) :
    WellFormed (kernel.modifyTcb task change) hole where
  mem_iff list other notHole := by
    rw [Kernel.modifyTcb_waitHead, wf.mem_iff list other notHole, Kernel.modifyTcb_tcb]
    by_cases same : other = task
    · subst same
      rw [Function.update_self, sameState]
    · rw [Function.update_of_ne same]
  nodup := wf.nodup
  notListed := wf.notListed
  ownFrame other owner points := by
    rw [Kernel.modifyTcb_tcb] at points
    by_cases same : other = task
    · subst same
      rw [Function.update_self] at points
      exact ownFrame owner points
    · rw [Function.update_of_ne same] at points
      exact wf.ownFrame other owner points

/-- Taking a waiter off its list leaves it in the hole. -/
theorem remove (wf : WellFormed kernel none) (member : task ∈ kernel.waitHead list) :
    WellFormed (kernel.remove list task) (some task) where
  mem_iff other waiter notHole := by
    have different : waiter ≠ task := fun same => notHole (same ▸ rfl)
    rw [Spec.remove, Kernel.setHead_waitHead, Kernel.setHead_tcb, ← wf.mem]
    by_cases same : other = list
    · subst same
      rw [Function.update_self, List.mem_erase_of_ne different]
    · rw [Function.update_of_ne same]
  nodup other := by
    rw [Spec.remove, Kernel.setHead_waitHead]
    by_cases same : other = list
    · subst same
      rw [Function.update_self]
      exact (wf.nodup other).erase task
    · rw [Function.update_of_ne same]
      exact wf.nodup other
  notListed waiter isHole other := by
    obtain rfl : task = waiter := by simpa using isHole
    rw [Spec.remove, Kernel.setHead_waitHead]
    by_cases same : other = list
    · subst same
      rw [Function.update_self]
      exact (wf.nodup other).not_mem_erase
    · rw [Function.update_of_ne same]
      exact fun listed => same (wf.list_unique listed member)
  ownFrame := wf.ownFrame

/-- A TCB in a state other than `Blocked` fills the hole. -/
theorem overwrite (wf : WellFormed kernel (some task)) {change : Tcb n WaitList → Tcb n WaitList}
    (notBlocked : ∀ list, (change (kernel.tcb task)).state ≠ .blocked list)
    (ownFrame : ∀ owner, (change (kernel.tcb task)).waitPtr = .stack owner → owner = task) :
    WellFormed (kernel.modifyTcb task change) none where
  mem_iff other waiter _ := by
    rw [Kernel.modifyTcb_waitHead, Kernel.modifyTcb_tcb]
    by_cases same : waiter = task
    · subst same
      rw [Function.update_self]
      exact iff_of_false (wf.notListed waiter rfl other) (notBlocked other)
    · rw [Function.update_of_ne same]
      exact wf.mem_iff other waiter (fun isHole => same (Option.some.inj isHole).symm)
  nodup := wf.nodup
  notListed _ isHole := by simp at isHole
  ownFrame other owner points := by
    rw [Kernel.modifyTcb_tcb] at points
    by_cases same : other = task
    · subst same
      rw [Function.update_self] at points
      exact ownFrame owner points
    · rw [Function.update_of_ne same] at points
      exact wf.ownFrame other owner points

/-- A state other than `Blocked` fills the hole. -/
theorem fill (wf : WellFormed kernel (some task)) {state : TaskState WaitList}
    (notBlocked : ∀ list, state ≠ .blocked list) :
    WellFormed (kernel.setState task state) none :=
  wf.overwrite notBlocked (wf.ownFrame task)

/-- A task that is not blocked may be the hole. -/
theorem open_of_not_blocked (wf : WellFormed kernel none)
    (notBlocked : ∀ list, (kernel.tcb task).state ≠ .blocked list) :
    WellFormed kernel (some task) where
  mem_iff other waiter _ := wf.mem
  nodup := wf.nodup
  notListed waiter isHole other := by
    obtain rfl : task = waiter := by simpa using isHole
    rw [wf.mem]
    exact notBlocked other
  ownFrame := wf.ownFrame

/-- In particular one that runs. -/
theorem open_of_running (wf : WellFormed kernel none)
    (running : (kernel.tcb task).state.isRunning = true) : WellFormed kernel (some task) := by
  apply wf.open_of_not_blocked
  intro list blocked
  simp [blocked] at running

/-- Blocking a running task puts it on the list its state names. -/
theorem blockAndPush (wf : WellFormed kernel none)
    (running : (kernel.tcb task).state.isRunning = true) :
    WellFormed (kernel.blockAndPush list task) none where
  mem_iff other waiter _ := by
    rw [Spec.blockAndPush, Kernel.setHead_waitHead, Kernel.setHead_tcb, Kernel.modifyTcb_waitHead,
      Kernel.modifyTcb_tcb]
    by_cases same : waiter = task
    · subst same
      rw [Function.update_self]
      by_cases sameList : other = list
      · subst sameList
        simp
      · rw [Function.update_of_ne sameList]
        exact iff_of_false (wf.not_mem_of_running running)
          (fun equal => sameList (by simpa using equal.symm))
    · rw [Function.update_of_ne same, ← wf.mem]
      by_cases sameList : other = list
      · subst sameList
        simp [same]
      · rw [Function.update_of_ne sameList]
  nodup other := by
    rw [Spec.blockAndPush, Kernel.setHead_waitHead, Kernel.modifyTcb_waitHead]
    by_cases sameList : other = list
    · subst sameList
      rw [Function.update_self]
      exact List.nodup_cons.mpr ⟨wf.not_mem_of_running running, wf.nodup other⟩
    · rw [Function.update_of_ne sameList]
      exact wf.nodup other
  notListed _ isHole := by simp at isHole
  ownFrame other owner points := by
    rw [Spec.blockAndPush, Kernel.setHead_tcb, Kernel.modifyTcb_tcb] at points
    by_cases same : other = task
    · subst same
      rw [Function.update_self] at points
      exact wf.ownFrame other owner points
    · rw [Function.update_of_ne same] at points
      exact wf.ownFrame other owner points

end WellFormed

/-- The chosen waiter is on the list. -/
theorem mem_of_mostUrgent {kernel : Spec n V} {tasks : List (Fin n)} {task : Fin n}
    (chosen : kernel.mostUrgent tasks = some task) : task ∈ tasks :=
  List.argmin_mem chosen

/-- No waiter is more urgent than the chosen one. -/
theorem mostUrgent_le {kernel : Spec n V} {tasks : List (Fin n)} {task other : Fin n}
    (chosen : kernel.mostUrgent tasks = some task) (member : other ∈ tasks) :
    (kernel.tcb task).priority ≤ (kernel.tcb other).priority := by
  have least := List.not_lt_of_mem_argmin member chosen
  exact not_lt.mp least

/-- Only an empty list has no most urgent waiter. -/
theorem mostUrgent_eq_none {kernel : Spec n V} {tasks : List (Fin n)} :
    kernel.mostUrgent tasks = none ↔ tasks = [] :=
  List.argmin_eq_none

end Spec

end Kangaroos
