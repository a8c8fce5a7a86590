import Kangaroos.Abstract.Moves

/-!
# Mutexes

What the mutex operations compute, in one equation each, and the invariant that
ties owners, guards and waiters together: whoever holds a guard, or is about to
get one without waiting any more, is the owner; and a mutex with waiters has an
owner.
-/

namespace Kangaroos

namespace Call

variable {n : Nat} {V Link Head : Type} [ops : WaitOps n V Link Head]

/-- The program points a section may leave its caller at. -/
def endsAt : Call V → Pc → Prop
  | take id, pc => pc = .takeRet id
  | lock id, pc => pc = .lockRet id
  | tryLock id, pc => pc = .lockRet id ∨ pc = .user
  | wait _ mutex, pc => pc = .relock mutex
  | waitAny id _, pc => pc = .waitAnyRet id
  | waitAll id _, pc => pc = .waitAllRet id
  | callOnce id, pc => pc = .onceRet id ∨ pc = .user
  | send id _, pc => pc = .sendRet id
  | recv id, pc => pc = .recvRet id
  | alloc id _, pc => (∃ slot, pc = .allocRet id slot) ∨ pc = .user
  | allocBlocking id _, pc => pc = .allocBlockingRet id
  | sleep _, pc => ∃ deadline, pc = .sleepUntil deadline
  | exit, pc => pc = .halted
  | _, pc => pc = .user

theorem run_endsAt {call : Call V} {who : TcbPtr n} {kernel after : Kernel n V Link Head}
    {outcome : Outcome} (returned : call.run who kernel = .ok (after, outcome)) :
    call.endsAt outcome.pc := by
  cases call with
  | tryTake id => cases returned; rfl
  | tryLock id =>
      cases returned
      cases owned : kernel.owner id with
      | none => exact .inl rfl
      | some owner => exact .inr rfl
  | clear id mask => cases returned; rfl
  | sleep duration => cases returned; exact ⟨_, rfl⟩
  | callOnce id =>
      obtain ⟨⟨_, role⟩, _, rest⟩ := Except.ok_of_bind returned
      cases rest
      cases role with
      | waiter => exact .inl rfl
      | _ => exact .inr rfl
  | alloc id value =>
      obtain ⟨⟨_, slot⟩, _, rest⟩ := Except.ok_of_bind returned
      cases rest
      cases slot with
      | none => exact .inr rfl
      | some slot => exact .inl ⟨slot, rfl⟩
  | _ =>
      obtain ⟨_, _, rest⟩ := Except.ok_of_bind returned
      cases rest
      rfl

end Call

namespace Spec

variable {n : Nat} {V : Type} {kernel after : Spec n V} {id : Nat} {flag : Bool}

/-- The owner of a mutex takes over the priority of a more urgent task that will wait for it. -/
def boost (kernel : Spec n V) (owner current : Fin n) : Spec n V :=
  if (kernel.tcb current).priority < (kernel.tcb owner).priority then
    kernel.setPriority owner (kernel.tcb current).priority
  else kernel

/-- The owner of a mutex falls back to its base priority. -/
abbrev reset (kernel : Spec n V) (owner : Fin n) : Spec n V :=
  kernel.setPriority owner (kernel.tcb owner).basePriority

@[simp] theorem boost_toStatics (kernel : Spec n V) (owner current : Fin n) :
    (kernel.boost owner current).toStatics = kernel.toStatics := by
  unfold boost
  split <;> rfl

@[simp] theorem boost_waitHead (kernel : Spec n V) (owner current : Fin n) :
    (kernel.boost owner current).waitHead = kernel.waitHead := by
  unfold boost
  split <;> rfl

theorem boost_priority (kernel : Spec n V) (owner current task : Fin n) :
    ((kernel.boost owner current).tcb task).priority =
      if task = owner then min (kernel.tcb owner).priority (kernel.tcb current).priority
      else (kernel.tcb task).priority := by
  unfold boost
  split
  · rename_i urgent
    by_cases same : task = owner
    · subst same
      simpa using urgent.le
    · simp [same]
  · rename_i relaxed
    by_cases same : task = owner
    · subst same
      simpa using relaxed
    · simp [same]

theorem reset_priority (kernel : Spec n V) (owner task : Fin n) :
    ((kernel.reset owner).tcb task).priority =
      if task = owner then (kernel.tcb owner).basePriority else (kernel.tcb task).priority := by
  by_cases same : task = owner
  · subst same
    simp
  · simp [same]

/-- `Mutex::lock` takes a free mutex, or boosts its owner and blocks. -/
theorem lock_cases (returned : Mutex.lock kernel id = .ok (after, flag)) :
    kernel.owner id = none ∧ after = kernel.setOwner id kernel.current ∧ flag = false ∨
    ∃ owner current, kernel.owner id = some owner ∧ kernel.current = some current ∧
      after = (kernel.boost owner current).blockAndPush (.mutex id) current ∧ flag = true := by
  unfold Mutex.lock at returned
  split at returned
  · rename_i free
    cases returned
    exact .inl ⟨free, rfl, rfl⟩
  · rename_i owner owned
    obtain ⟨current, derefs, rest⟩ := Except.ok_of_bind returned
    have isCurrent := (deref_triple kernel.current).of_ok derefs
    obtain ⟨blocked, blocks, done⟩ := Except.ok_of_bind rest
    obtain ⟨caller, derefs', pushes⟩ := Except.ok_of_bind blocks
    have isCaller := (deref_triple _).of_ok derefs'
    obtain rfl : current = caller := by
      have sameCurrent : (kernel.boost owner current).current = kernel.current := by
        rw [boost_toStatics]
      have : kernel.current = some caller := sameCurrent.symm.trans isCaller
      exact Option.some.inj (isCurrent.symm.trans this)
    cases pushes
    cases done
    exact .inr ⟨owner, current, owned, isCurrent, rfl, rfl⟩

/-- `Mutex::try_lock` takes a free mutex. -/
theorem tryLock_cases (kernel : Spec n V) (id : Nat) :
    kernel.owner id = none ∧
      Mutex.tryLock kernel id = (kernel.setOwner id kernel.current, true) ∨
    kernel.owner id ≠ none ∧ Mutex.tryLock kernel id = (kernel, false) := by
  unfold Mutex.tryLock
  cases kernel.owner id with
  | none => exact .inl ⟨rfl, rfl⟩
  | some owner => exact .inr ⟨by simp, rfl⟩

/-- The mutex and the ready state pass to a waiter. -/
def handOver (kernel : Spec n V) (id : Nat) (waiter : Fin n) : Spec n V :=
  ((kernel.remove (.mutex id) waiter).setOwner id (some waiter)).setState waiter
    (.ready (kernel.tcb waiter).timeSlice)

/-- `unlock_internal` resets the priority of the owner, then frees the mutex or hands it
to the first of its most urgent waiters. -/
theorem unlockInternal_cases (returned : Mutex.unlockInternal kernel id = .ok (after, flag)) :
    ∃ owner, kernel.owner id = some owner ∧
      (kernel.waitHead (.mutex id) = [] ∧ after = (kernel.reset owner).setOwner id none ∧
        flag = false ∨
      ∃ waiter ∈ kernel.waitHead (.mutex id), ∃ current, kernel.current = some current ∧
        (∀ other ∈ kernel.waitHead (.mutex id),
          ((kernel.reset owner).tcb waiter).priority ≤ ((kernel.reset owner).tcb other).priority) ∧
        after = (kernel.reset owner).handOver id waiter ∧
        flag = decide (((kernel.reset owner).tcb waiter).priority <
          ((kernel.reset owner).tcb current).priority)) := by
  unfold Mutex.unlockInternal at returned
  obtain ⟨owner, derefs, rest⟩ := Except.ok_of_bind returned
  refine ⟨owner, (deref_triple _).of_ok derefs, ?_⟩
  simp only at rest
  split at rest
  · obtain ⟨⟨popped, found⟩, pops, rest⟩ := Except.ok_of_bind rest
    have isPopped := (pop_triple (kernel.reset owner) (.mutex id)).of_ok pops
    obtain ⟨woken, derefs', unblocks⟩ := Except.ok_of_bind rest
    obtain ⟨current, derefs'', done⟩ := Except.ok_of_bind unblocks
    rcases isPopped with ⟨_, isNone⟩ | ⟨waiter, member, isSome, least⟩
    · cases isNone
      cases derefs'
    · cases isSome
      cases derefs'
      have isCurrent := (deref_triple _).of_ok derefs''
      cases done
      refine .inr ⟨woken, member, current, isCurrent, least, rfl, ?_⟩
      rw [setState_priority, setState_priority]
      rfl
  · rename_i empty
    cases rest
    have noWaiter : (kernel.reset owner).noWaiter (.mutex id) = true := by simpa using empty
    exact .inl ⟨noWaiter_iff.mp noWaiter, rfl, rfl⟩

/-- `Condvar::wait` blocks its caller and releases the mutex. -/
theorem wait_cases {condvar : Nat} (returned : Condvar.wait kernel condvar id = .ok (after, flag)) :
    ∃ current, kernel.current = some current ∧
      Mutex.unlockInternal (kernel.blockAndPush (.condvar condvar) current) id =
        .ok (after, flag) := by
  obtain ⟨blocked, blocks, rest⟩ := Except.ok_of_bind returned
  obtain ⟨current, derefs, pushes⟩ := Except.ok_of_bind blocks
  cases pushes
  exact ⟨current, (deref_triple _).of_ok derefs, rest⟩

end Spec

namespace Call

variable {n : Nat} {V : Type} {call : Call V} {id : Nat}

/-- The sections that work on a mutex. -/
theorem uses_mutex (uses : .mutex id ∈ call.uses) :
    call = .lock id ∨ call = .tryLock id ∨ call = .dropGuard id ∨
      ∃ condvar, call = .wait condvar id := by
  cases call <;> simp_all [Call.uses]

/-- No interrupt handler works on a mutex. -/
theorem not_uses_mutex_of_isrSafe (safe : call.isrSafe = true) : .mutex id ∉ call.uses := by
  intro uses
  obtain rfl | rfl | rfl | ⟨condvar, rfl⟩ := uses_mutex uses <;> simp [isrSafe] at safe

/-- Only a section on a mutex leaves its caller about to get a guard of it. -/
theorem uses_of_endsAt_lockRet (ends : call.endsAt (.lockRet id)) : .mutex id ∈ call.uses := by
  cases call <;> simp_all [endsAt, Call.uses]

/-- The sections that release a mutex. -/
def releases : Call V → Nat → Prop
  | .dropGuard id, mutex => id = mutex
  | .wait _ id, mutex => id = mutex
  | _, _ => False

end Call

namespace Thread

variable {V : Type} {thread : Thread} {call : Call V} {id : Nat}

/-- No section adds a guard. -/
theorem count_guardsAfter_le : (thread.guardsAfter call).count id ≤ thread.guards.count id := by
  cases call <;> first | exact le_rfl | exact List.erase_sublist.count_le _

/-- A section that releases a mutex consumes a guard of it. -/
theorem guardsAfter_releases (releases : call.releases id) :
    thread.guardsAfter call = thread.guards.erase id := by
  cases call <;> simp_all [Call.releases, guardsAfter]

/-- And needs one. -/
theorem held_of_releases (releases : call.releases id) (may : thread.mayCall call = true) :
    id ∈ thread.guards := by
  cases call <;> simp_all [Call.releases, mayCall]

end Thread

namespace Spec

variable {n : Nat} {V : Type} {kernel after : Spec n V} {id : Nat}

/-- How a mutex is released: it is free, or a most urgent waiter has it. -/
def Passed (kernel after : Spec n V) (id : Nat) : Prop :=
  kernel.waitHead (.mutex id) = [] ∧ after.owner id = none ∧ after.waitHead (.mutex id) = [] ∨
  ∃ waiter ∈ kernel.waitHead (.mutex id), after.owner id = some waiter ∧
    after.waitHead (.mutex id) = (kernel.waitHead (.mutex id)).erase waiter ∧
    ∀ other ∈ kernel.waitHead (.mutex id),
      (kernel.tcb waiter).priority ≤ (kernel.tcb other).priority

/-- Releasing passes the mutex on. The reset of the owner's priority does not change the
order of the waiters, because the owner is none of them. -/
theorem passed_of_unlockInternal {flag : Bool}
    (returned : Mutex.unlockInternal kernel id = .ok (after, flag))
    (away : ∀ owner, kernel.owner id = some owner → owner ∉ kernel.waitHead (.mutex id)) :
    Passed kernel after id := by
  obtain ⟨owner, owned, outcome⟩ := unlockInternal_cases returned
  rcases outcome with ⟨empty, rfl, _⟩ | ⟨waiter, member, current, _, least, rfl, _⟩
  · exact .inl ⟨empty, by simp, by simpa using empty⟩
  · refine .inr ⟨waiter, member, by simp [handOver], by simp [handOver], ?_⟩
    have steady : ∀ other ∈ kernel.waitHead (.mutex id),
        ((kernel.reset owner).tcb other).priority = (kernel.tcb other).priority := by
      intro other isWaiter
      have different : other ≠ owner := by
        rintro rfl
        exact away other owned isWaiter
      simp [different]
    intro other isWaiter
    have ordered := least other isWaiter
    rwa [steady waiter member, steady other isWaiter] at ordered

/-- `unlock_internal` changes one priority: the owner's falls back to its base. -/
theorem unlockInternal_priority {flag : Bool} {owner : Fin n}
    (returned : Mutex.unlockInternal kernel id = .ok (after, flag))
    (owned : kernel.owner id = some owner) (task : Fin n) :
    (after.tcb task).priority =
      if task = owner then (kernel.tcb owner).basePriority else (kernel.tcb task).priority := by
  obtain ⟨holder, isHolder, outcome⟩ := unlockInternal_cases returned
  obtain rfl : owner = holder := Option.some.inj (owned.symm.trans isHolder)
  rw [← reset_priority]
  rcases outcome with ⟨_, rfl, _⟩ | ⟨waiter, _, _, _, _, rfl, _⟩
  · rfl
  · exact setState_priority ..

/-- Every section that releases a mutex passes it on. -/
theorem passed_of_releases {call : Call V} {task : Fin n} {outcome : Outcome}
    (releases : call.releases id) (returned : call.run (some task) kernel = .ok (after, outcome))
    (owned : kernel.owner id = some task) (away : task ∉ kernel.waitHead (.mutex id)) :
    Passed kernel after id := by
  have ownerAway : ∀ owner, kernel.owner id = some owner →
      owner ∉ kernel.waitHead (.mutex id) := by
    intro owner isOwner
    obtain rfl : task = owner := Option.some.inj (owned.symm.trans isOwner)
    exact away
  cases call with
  | dropGuard mutex =>
      obtain rfl : mutex = id := releases
      obtain ⟨⟨unlocked, flag⟩, unlocks, rest⟩ := Except.ok_of_bind returned
      cases rest
      exact passed_of_unlockInternal unlocks ownerAway
  | wait condvar mutex =>
      obtain rfl : mutex = id := releases
      obtain ⟨⟨unlocked, flag⟩, waits, rest⟩ := Except.ok_of_bind returned
      cases rest
      obtain ⟨current, isCaller, unlocks⟩ := wait_cases waits
      have sameHead : (kernel.blockAndPush (.condvar condvar) current).waitHead (.mutex mutex) =
          kernel.waitHead (.mutex mutex) := by
        simp [blockAndPush]
      have samePriority : ∀ other, ((kernel.blockAndPush (.condvar condvar) current).tcb
          other).priority = (kernel.tcb other).priority := fun other => setState_priority ..
      have passed := passed_of_unlockInternal unlocks (by rw [sameHead]; exact ownerAway)
      simpa only [Passed, sameHead, samePriority] using passed
  | _ => exact releases.elim

/-- And changes one priority. -/
theorem priority_of_releases {call : Call V} {task : Fin n} {outcome : Outcome}
    (releases : call.releases id) (returned : call.run (some task) kernel = .ok (after, outcome))
    (owned : kernel.owner id = some task) (other : Fin n) :
    (after.tcb other).priority =
      if other = task then (kernel.tcb task).basePriority else (kernel.tcb other).priority := by
  cases call with
  | dropGuard mutex =>
      obtain rfl : mutex = id := releases
      obtain ⟨⟨unlocked, flag⟩, unlocks, rest⟩ := Except.ok_of_bind returned
      cases rest
      exact unlockInternal_priority unlocks owned other
  | wait condvar mutex =>
      obtain rfl : mutex = id := releases
      obtain ⟨⟨unlocked, flag⟩, waits, rest⟩ := Except.ok_of_bind returned
      cases rest
      obtain ⟨current, isCaller, unlocks⟩ := wait_cases waits
      have sameBase : ((kernel.blockAndPush (.condvar condvar) current).tcb task).basePriority =
          (kernel.tcb task).basePriority := by
        by_cases same : task = current
        · subst same
          simp [blockAndPush]
        · simp [blockAndPush, same]
      rw [unlockInternal_priority unlocks owned, sameBase]
      exact congrArg _ (setState_priority ..)
  | _ => exact releases.elim

end Spec

end Kangaroos
