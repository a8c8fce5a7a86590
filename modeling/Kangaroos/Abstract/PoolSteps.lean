import Kangaroos.Abstract.Pools

/-!
# How slots change hands

`Handed source target slot` says that a step moves one slot of a pool from place to place
and writes no other. Every operation on a pool does that or leaves all slots where they
are; the lemmas say which, one for each way an operation can go.
-/

namespace Kangaroos

/-- The places whose slots hold a value. -/
def PoolPlace.Live {n : Nat} : PoolPlace n → Prop
  | .boxes | .handlers | .call _ => True
  | .free | .drop _ => False

namespace Machine

variable {n : Nat} {V Link Head : Type} {machine : Machine n V Link Head} {id : Nat} {task : Fin n}

/-- The machine after a section of a task. -/
abbrev called (machine : Machine n V Link Head) (task : Fin n) (call : Call V)
    (kernel : Kernel n V Link Head) (outcome : Outcome) (pendsv : Bool) : Machine n V Link Head :=
  { machine.setThread task ((machine.thread task).after call outcome) with kernel, pendsv }

/-- A task inside no pool call has no slot assigned. -/
theorem assigned_eq_nil (outside : (machine.thread task).pc.home ≠ some (.pool id)) :
    machine.assigned id task = [] := by
  unfold assigned
  split
  · rename_i pool slot pc
    have other : pool ≠ id := by
      rintro rfl
      simp [pc, Pc.home] at outside
    simp [other]
  · rename_i pool pc
    have other : pool ≠ id := by
      rintro rfl
      simp [pc, Pc.home] at outside
    simp [other]
  · rfl

end Machine

/-- The sections on a pool. -/
theorem Call.uses_pool {V : Type} {call : Call V} {id : Nat} (uses : .pool id ∈ call.uses) :
    (∃ value, call = .alloc id value) ∨ (∃ value, call = .allocBlocking id value) ∨
      ∃ slot, call = .releaseBox id slot := by
  cases call <;> simp_all [Call.uses]

/-- A task that may release a slot is about to. -/
theorem Thread.drops_of_mayCall {V : Type} {thread : Thread} {id : Nat} {slot : U8}
    (may : thread.mayCall (.releaseBox id slot : Call V) = true) :
    ∃ rest, thread.frames = .boxDrop id slot :: rest ∧
      thread.drops id = slot :: rest.filterMap (Frame.dropped id) := by
  simp only [mayCall, Bool.and_eq_true, decide_eq_true_eq] at may
  obtain ⟨rest, frames⟩ := List.head?_eq_some_iff.mp may.2
  exact ⟨rest, frames, by simp [drops, frames, Frame.dropped]⟩

namespace SpecMachine

variable {n : Nat} {V : Type} {config : Config n} {machine next : SpecMachine n V} {id : Nat}
  {free : List U8} {task : Fin n} {slot : U8} {value : V}

/-- A task inside `alloc_blocking` is blocked exactly while it is on the list of the pool. -/
theorem Core.isBlocked_iff (core : Core config machine)
    (pc : (machine.thread task).pc = .allocBlockingRet id) :
    (machine.kernel.tcb task).state.isBlocked = true ↔ task ∈ machine.kernel.waitHead (.pool id) := by
  rw [core.wf.mem, TaskState.isBlocked_iff]
  constructor
  · rintro ⟨list, blocked⟩
    have awaits := core.awaits task list blocked
    rw [pc] at awaits
    obtain rfl : list = .pool id := awaits
    exact blocked
  · exact fun blocked => ⟨_, blocked⟩

/-- A task that waits for a slot is inside `alloc_blocking`. -/
theorem Core.waits_inside (core : Core config machine)
    (member : task ∈ machine.kernel.waitHead (.pool id)) :
    (machine.thread task).pc = .allocBlockingRet id := by
  have awaits := core.awaits task _ (core.wf.mem.mp member)
  cases pc : (machine.thread task).pc <;> rw [pc] at awaits <;> simp_all [Pc.awaits]

/-- What is assigned depends on the task's own record and its word. -/
theorem assigned_congr (pc : (next.thread task).pc = (machine.thread task).pc)
    (waitPtr : (next.kernel.tcb task).waitPtr = (machine.kernel.tcb task).waitPtr)
    (isBlocked : (machine.thread task).pc = .allocBlockingRet id →
      (next.kernel.tcb task).state.isBlocked = (machine.kernel.tcb task).state.isBlocked) :
    next.assigned id task = machine.assigned id task := by
  unfold Machine.assigned
  rw [pc]
  split
  · rfl
  · rename_i pool pc
    by_cases same : pool = id
    · subst same
      rw [isBlocked pc]
      simp only [Pool.assignedSlot, Kernel.waitWord, waitPtr]
    · simp [same]
  · rfl

theorem call_congr {free' : List U8} (pc : (next.thread task).pc = (machine.thread task).pc)
    (waitPtr : (next.kernel.tcb task).waitPtr = (machine.kernel.tcb task).waitPtr)
    (isBlocked : (machine.thread task).pc = .allocBlockingRet id →
      (next.kernel.tcb task).state.isBlocked = (machine.kernel.tcb task).state.isBlocked) :
    next.slotsAt id free' (.call task) = machine.slotsAt id free (.call task) :=
  congrArg _ (assigned_congr pc waitPtr isBlocked)

/-- A step that leaves a pool alone leaves its slots where they are. -/
theorem Untouched.slotsAt (untouched : Untouched (.pool id) machine next)
    (core : Core config machine) (core' : Core config next) (free : List U8) (place : PoolPlace n) :
    next.slotsAt id free place = machine.slotsAt id free place := by
  obtain ⟨boxes, isrSlots, drops⟩ := untouched.slots id rfl
  have assigned : ∀ task, next.assigned id task = machine.assigned id task := by
    intro task
    by_cases inside : (machine.thread task).pc.home = some (.pool id) ∨
        (next.thread task).pc.home = some (.pool id)
    · have pc := untouched.pc task inside
      have before : (machine.thread task).pc.home = some (.pool id) := by
        rcases inside with before | after
        · exact before
        · rwa [pc] at after
      refine assigned_congr pc (untouched.kept task before).1 fun blocking => ?_
      rw [Bool.eq_iff_iff, core.isBlocked_iff blocking, core'.isBlocked_iff (pc.trans blocking),
        untouched.heads (.pool id) rfl]
    · obtain ⟨before, after⟩ := not_or.mp inside
      rw [Machine.assigned_eq_nil before, Machine.assigned_eq_nil after]
  cases place <;> simp only [Machine.slotsAt, boxes, isrSlots, drops, assigned]

section Called

variable {free' : List U8} {call : Call V} {outcome : Outcome} {kernel : Spec n V} {pendsv : Bool}
  {other : Fin n}

/-- A section of one task assigns nothing to another whose TCB it leaves alone. -/
theorem called_call (different : other ≠ task)
    (tcb : kernel.tcb other = machine.kernel.tcb other) :
    (machine.called task call kernel outcome pendsv).slotsAt id free' (.call other) =
      machine.slotsAt id free (.call other) :=
  call_congr (by simp [Machine.setThread, different]) (by rw [tcb]) fun _ => by rw [tcb]

/-- It leaves the drops of the others alone, and its own unless it releases a box. -/
theorem called_drop
    (own : ((machine.thread task).framesAfter outcome.push call).filterMap (Frame.dropped id) =
      (machine.thread task).drops id) :
    (machine.called task call kernel outcome pendsv).slotsAt id free' (.drop other) =
      machine.slotsAt id free (.drop other) := by
  by_cases same : other = task
  · subst same
    have drops : ((machine.setThread other ((machine.thread other).after call outcome)).thread
        other).drops id = (machine.thread other).drops id := by
      simpa [Machine.setThread, Thread.after, Thread.drops] using own
    exact congrArg _ drops
  · simp [Machine.slotsAt, Machine.setThread, same]

/-- The end of a drop that releases its slot. -/
theorem called_released {rest : List Frame}
    (frames : (machine.thread task).frames = .boxDrop id slot :: rest) :
    machine.slotsAt id free (.drop task) = slot ::ₘ
      (machine.called task (.releaseBox id slot) kernel outcome pendsv).slotsAt id free'
        (.drop task) := by
  have before : (machine.thread task).drops id = slot :: rest.filterMap (Frame.dropped id) := by
    simp [Thread.drops, frames, Frame.dropped]
  have after : ((machine.called task (.releaseBox id slot) kernel outcome pendsv).thread task).drops
      id = rest.filterMap (Frame.dropped id) := by
    simp [Machine.setThread, Thread.after, Thread.drops, Thread.framesAfter, frames]
  simp only [Machine.slotsAt, before, after]
  rfl

/-- The calls of tasks other than a woken waiter, when the caller is inside no call. -/
theorem called_calls (user : (machine.thread task).pc = .user) (back : outcome.pc = .user)
    (tcb : other ≠ task → kernel.tcb other = machine.kernel.tcb other) :
    (machine.called task call kernel outcome pendsv).slotsAt id free' (.call other) =
      machine.slotsAt id free (.call other) := by
  by_cases same : other = task
  · subst same
    have before : machine.assigned id other = [] :=
      Machine.assigned_eq_nil (by simp [user, Pc.home])
    have after : (machine.called other call kernel outcome pendsv).assigned id other = [] :=
      Machine.assigned_eq_nil (by simp [Machine.setThread, Thread.after, back, Pc.home])
    simp only [Machine.slotsAt, before, after]
  · exact called_call same (tcb same)

end Called

/-- One slot passes from place to place, and no other slot is written. -/
structure Handed (machine next : SpecMachine n V) (id : Nat) (free free' : List U8)
    (source target : PoolPlace n) (slot : U8) : Prop where
  different : source ≠ target
  nodes : ∀ other : U8, other ≠ slot →
    (next.kernel.pool id).nodes other.val = (machine.kernel.pool id).nodes other.val
  out : machine.slotsAt id free source = slot ::ₘ next.slotsAt id free' source
  into : next.slotsAt id free' target = slot ::ₘ machine.slotsAt id free target
  others : ∀ place, place ≠ source → place ≠ target →
    next.slotsAt id free' place = machine.slotsAt id free place

namespace Handed

variable {pendsv : Bool}

/-- A slot found at a place afterwards was there before, or it is the one handed over. -/
theorem before {free' : List U8} {source target place : PoolPlace n} {other : U8}
    (handed : Handed machine next id free free' source target slot)
    (held : other ∈ next.slotsAt id free' place) (different : other ≠ slot) :
    other ∈ machine.slotsAt id free place := by
  by_cases isTarget : place = target
  · subst isTarget
    exact (Multiset.mem_cons.mp (handed.into ▸ held)).resolve_left different
  · by_cases isSource : place = source
    · subst isSource
      exact handed.out ▸ Multiset.mem_cons_of_mem held
    · exact handed.others place isSource isTarget ▸ held

/-- Another slot is afterwards where it was. -/
theorem after {free' : List U8} {source target place : PoolPlace n} {other : U8}
    (handed : Handed machine next id free free' source target slot)
    (held : other ∈ machine.slotsAt id free place) (different : other ≠ slot) :
    other ∈ next.slotsAt id free' place := by
  by_cases isTarget : place = target
  · subst isTarget
    exact handed.into ▸ Multiset.mem_cons_of_mem held
  · by_cases isSource : place = source
    · subst isSource
      exact (Multiset.mem_cons.mp (handed.out ▸ held)).resolve_left different
    · exact (handed.others place isSource isTarget).symm ▸ held

/-- `alloc` in a task takes the first free slot. -/
theorem alloc (user : (machine.thread task).pc = .user) (slot : U8) (value : V) :
    Handed machine (machine.called task (.alloc id value) (Spec.grant machine.kernel id slot value)
      { pc := .allocRet id slot } pendsv) id (slot :: free) free .free (.call task) slot where
  different := by simp
  nodes other different := by simp [Spec.grant, Fin.val_ne_of_ne different]
  out := rfl
  into := by
    simp [Machine.slotsAt, Machine.assigned, Machine.setThread, Thread.after, user]
  others place notFree notTarget := by
    cases place with
    | free => exact absurd rfl notFree
    | boxes => rfl
    | handlers => rfl
    | call other => exact called_call (fun same => notTarget (same ▸ rfl)) rfl
    | drop other => exact called_drop rfl

/-- `alloc` in an interrupt handler does, too. -/
theorem allocIsr (slot : U8) (value : V) :
    Handed machine { machine with
      kernel := Spec.grant machine.kernel id slot value, pendsv
      isrSlots := Function.update machine.isrSlots id (slot :: machine.isrSlots id) } id
      (slot :: free) free .free .handlers slot where
  different := by simp
  nodes other different := by simp [Spec.grant, Fin.val_ne_of_ne different]
  out := rfl
  into := by simp [Machine.slotsAt]
  others place notFree notTarget := by
    cases place with
    | free => exact absurd rfl notFree
    | handlers => exact absurd rfl notTarget
    | _ => rfl

/-- So does `alloc_blocking`, if there is one. -/
theorem allocBlocking (user : (machine.thread task).pc = .user)
    (runs : (machine.kernel.tcb task).state.isRunning = true) (slot : U8) (value : V) :
    Handed machine (machine.called task (.allocBlocking id value)
      (Spec.grantTo machine.kernel id slot value task) { pc := .allocBlockingRet id } pendsv) id
      (slot :: free) free .free (.call task) slot where
  different := by simp
  nodes other different := by simp [Spec.grantTo, Spec.grant, Fin.val_ne_of_ne different]
  out := rfl
  into := by
    have assigns : Pool.assignedSlot (Spec.grantTo machine.kernel id slot value task) task = .ok slot :=
      Spec.assignedSlot_eq (by simp [Spec.grantTo])
    have gets : (machine.called task (.allocBlocking id value)
        (Spec.grantTo machine.kernel id slot value task) { pc := .allocBlockingRet id }
        pendsv).assigned id task = [slot] := by
      simp only [Machine.assigned, Machine.setThread, Thread.after, Function.update_self, true_and]
      rw [if_pos (by simp [Spec.grantTo, Spec.grant, not_blocked_of_running runs]), assigns]
      rfl
    have nothing : machine.assigned id task = [] :=
      Machine.assigned_eq_nil (by simp [user, Pc.home])
    simp [Machine.slotsAt, gets, nothing]
  others place notFree notTarget := by
    cases place with
    | free => exact absurd rfl notFree
    | boxes => rfl
    | handlers => rfl
    | call other =>
        have different : other ≠ task := fun same => notTarget (same ▸ rfl)
        exact called_call different (by simp [Spec.grantTo, Spec.grant, different])
    | drop other => exact called_drop rfl

/-- A released slot goes back to the free list. -/
theorem restock (may : (machine.thread task).mayCall (.releaseBox id slot : Call V) = true) :
    Handed machine (machine.called task (.releaseBox id slot) (Spec.restock machine.kernel id slot)
      {} pendsv) id free (slot :: free) (.drop task) .free slot where
  different := by simp
  nodes other different := by simp [Spec.restock]
  out := by
    obtain ⟨rest, frames, _⟩ := Thread.drops_of_mayCall may
    exact called_released frames
  into := rfl
  others place notDrop notFree := by
    have user : (machine.thread task).pc = .user := by
      simp only [Thread.mayCall, Bool.and_eq_true, decide_eq_true_eq] at may
      exact may.1
    cases place with
    | free => exact absurd rfl notFree
    | boxes => rfl
    | handlers => rfl
    | call other => exact called_calls user rfl fun _ => rfl
    | drop other =>
        have different : other ≠ task := fun same => notDrop (same ▸ rfl)
        simp [Machine.slotsAt, Machine.setThread, different]

/-- Or it goes to a waiter. -/
theorem deliver {waiter : Fin n} {pend : Bool}
    (may : (machine.thread task).mayCall (.releaseBox id slot : Call V) = true)
    (awake : waiter ≠ task) (pc : (machine.thread waiter).pc = .allocBlockingRet id)
    (blocked : (machine.kernel.tcb waiter).state.isBlocked = true) (value : V) :
    Handed machine (machine.called task (.releaseBox id slot)
      (Spec.deliver machine.kernel id slot value waiter) { pend } pendsv) id free free (.drop task)
      (.call waiter) slot where
  different := by simp
  nodes other different := by simp [Spec.deliver, Fin.val_ne_of_ne different]
  out := by
    obtain ⟨rest, frames, _⟩ := Thread.drops_of_mayCall may
    exact called_released frames
  into := by
    have assigns : Pool.assignedSlot (Spec.deliver machine.kernel id slot value waiter) waiter =
        .ok slot := Spec.assignedSlot_eq (by simp [Spec.deliver])
    have nothing : machine.assigned id waiter = [] := by
      simp [Machine.assigned, pc, blocked]
    have gets : (machine.called task (.releaseBox id slot)
        (Spec.deliver machine.kernel id slot value waiter) { pend } pendsv).assigned id waiter =
          [slot] := by
      simp only [Machine.assigned, Machine.setThread, Function.update_of_ne awake, pc, true_and]
      rw [if_pos (by simp [Spec.deliver]), assigns]
      rfl
    simp [Machine.slotsAt, gets, nothing]
  others place notDrop notCall := by
    have user : (machine.thread task).pc = .user := by
      simp only [Thread.mayCall, Bool.and_eq_true, decide_eq_true_eq] at may
      exact may.1
    cases place with
    | free => rfl
    | boxes => rfl
    | handlers => rfl
    | call other =>
        have different : other ≠ waiter := fun isWaiter => notCall (isWaiter ▸ rfl)
        exact called_calls user rfl fun _ => by simp [Spec.deliver, different]
    | drop other =>
        have different : other ≠ task := fun same => notDrop (same ▸ rfl)
        simp [Machine.slotsAt, Machine.setThread, different]

/-- A slot is assigned to a task that returns with it. -/
theorem assigned_of_returns (runs : (machine.kernel.tcb task).state.isRunning = true)
    (pc : (machine.thread task).pc = .allocRet id slot ∨
      (machine.thread task).pc = .allocBlockingRet id ∧
        Pool.assignedSlot machine.kernel task = .ok slot) :
    machine.assigned id task = [slot] := by
  rcases pc with pc | ⟨pc, assigned⟩
  · simp [Machine.assigned, pc]
  · simp only [Machine.assigned, pc, not_blocked_of_running runs, true_and, if_true, assigned]
    rfl

/-- A call of `alloc` or `alloc_blocking` returns its box. -/
theorem box (had : machine.assigned id task = [slot]) :
    Handed machine
      ((machine.setThread task { machine.thread task with pc := .user }).addBox id slot) id free free
      (.call task) .boxes slot where
  different := by simp
  nodes _ _ := rfl
  out := by
    have left : ((machine.setThread task { machine.thread task with pc := .user }).addBox id
        slot).assigned id task = [] :=
      Machine.assigned_eq_nil (by simp [Machine.addBox, Machine.setThread, Pc.home])
    simp only [Machine.slotsAt, had, left]
    rfl
  into := by simp [Machine.slotsAt, Machine.addBox, Machine.setThread]
  others place notCall notBoxes := by
    cases place with
    | free => rfl
    | boxes => exact absurd rfl notBoxes
    | handlers => rfl
    | call other =>
        have different : other ≠ task := fun same => notCall (same ▸ rfl)
        refine call_congr ?_ rfl fun _ => rfl
        simp [Machine.addBox, Machine.setThread, different]
    | drop other =>
        by_cases same : other = task
        · subst same
          simp [Machine.slotsAt, Machine.addBox, Machine.setThread, Thread.drops]
        · simp [Machine.slotsAt, Machine.addBox, Machine.setThread, same]

/-- The `alloc` of an interrupt handler returns its box. -/
theorem isrRet (assigned : slot ∈ machine.isrSlots id) :
    Handed machine { machine.addBox id slot with
      isrSlots := Function.update machine.isrSlots id ((machine.isrSlots id).erase slot) } id free free
      .handlers .boxes slot where
  different := by simp
  nodes _ _ := rfl
  out := by
    simp only [Machine.slotsAt, Function.update_self]
    rw [Multiset.cons_coe, Multiset.coe_eq_coe]
    exact List.perm_cons_erase assigned
  into := by simp [Machine.slotsAt, Machine.addBox]
  others place notHandlers notBoxes := by
    cases place with
    | boxes => exact absurd rfl notBoxes
    | handlers => exact absurd rfl notHandlers
    | _ => rfl

/-- The machine after a box is dropped, before its slot is released. -/
abbrev droppedBox (machine : SpecMachine n V) (id : Nat) (slot : U8) (task : Fin n) :
    SpecMachine n V :=
  { (machine.removeBox id slot).setThread task { machine.thread task with
      frames := .boxDrop id slot :: (machine.thread task).frames } with
    kernel := machine.kernel.setPool id { machine.kernel.pool id with
      nodes := Function.update (machine.kernel.pool id).nodes slot.val none } }

/-- The value of a box is destroyed. -/
theorem dropBox (live : slot ∈ machine.boxes id) :
    Handed machine (droppedBox machine id slot task) id free free .boxes (.drop task) slot where
  different := by simp
  nodes other different := by simp [Fin.val_ne_of_ne different]
  out := by
    simp only [Machine.slotsAt, Machine.removeBox, Machine.setThread, Function.update_self]
    rw [Multiset.cons_coe, Multiset.coe_eq_coe]
    exact List.perm_cons_erase live
  into := by simp [Machine.slotsAt, Machine.setThread, Thread.drops, Frame.dropped]
  others place notBoxes notDrop := by
    cases place with
    | free => rfl
    | boxes => exact absurd rfl notBoxes
    | handlers => rfl
    | call other =>
        refine call_congr ?_ rfl fun _ => rfl
        by_cases same : other = task
        · subst same
          simp [Machine.setThread]
        · simp [Machine.setThread, Machine.removeBox, same]
    | drop other =>
        have different : other ≠ task := fun same => notDrop (same ▸ rfl)
        simp [Machine.slotsAt, Machine.setThread, Machine.removeBox, different]

end Handed

/-- A caller that blocks moves no slot. -/
theorem slotsAt_park {pendsv : Bool} (user : (machine.thread task).pc = .user) (value : V)
    (place : PoolPlace n) : (machine.called task (.allocBlocking id value)
      (Spec.parkLocal machine.kernel (.pool id) task (some value))
      { pend := true, pc := .allocBlockingRet id } pendsv).slotsAt id free place =
        machine.slotsAt id free place := by
  cases place with
  | call other =>
      by_cases same : other = task
      · subst same
        have before : machine.assigned id other = [] :=
          Machine.assigned_eq_nil (by simp [user, Pc.home])
        have after : (machine.called other (.allocBlocking id value)
            (Spec.parkLocal machine.kernel (.pool id) other (some value))
            { pend := true, pc := .allocBlockingRet id } pendsv).assigned id other = [] := by
          simp [Machine.assigned, Machine.setThread, Thread.after, Spec.parkLocal, Spec.blockAndPush]
        simp only [Machine.slotsAt, before, after]
      · exact called_call same (by simp [Spec.parkLocal, Spec.blockAndPush, same])
  | drop other => exact called_drop rfl
  | _ => rfl

end SpecMachine

end Kangaroos
