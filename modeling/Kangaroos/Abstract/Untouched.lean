import Kangaroos.Abstract.Mutexes

/-!
# Steps that pass a primitive by

`Untouched prim` says that a step leaves a primitive alone: its data, its wait lists, the
tasks that are inside a call of it, and, for a pool, the slots outside the free list. Every
move is one that leaves the primitive alone or one that works on it, so an invariant of the
primitive is proved for the few moves of the second kind.
-/

namespace Kangaroos

/-- The primitive a task is inside a call of. `relock` belongs to a mutex and a condvar and
is left out. -/
def Pc.home : Pc → Option Prim
  | .takeRet id => some (.semaphore id)
  | .lockRet id => some (.mutex id)
  | .waitAnyRet id | .waitAllRet id => some (.event id)
  | .onceRet id => some (.once id)
  | .sendRet id | .recvRet id => some (.channel id)
  | .allocRet id _ | .allocBlockingRet id => some (.pool id)
  | .user | .relock _ | .sleepUntil _ | .halted => none

/-- A task waits on a list of the primitive it is inside. -/
theorem Pc.home_of_awaits {pc : Pc} {list : WaitList} {prim : Prim} (awaits : pc.awaits list)
    (inside : pc.home = some prim) : list.home = prim := by
  cases pc <;> simp_all [Pc.awaits, Pc.home, WaitList.home]

/-- The slot a frame is about to release to a pool. -/
def Frame.dropped (id : Nat) : Frame → Option U8
  | .boxDrop pool slot => if pool = id then some slot else none
  | .once _ => none

namespace Call

variable {V : Type} {call : Call V} {prim : Prim}

/-- A section leaves its caller inside a primitive it works on. -/
theorem uses_of_endsAt {pc : Pc} (ends : call.endsAt pc) (inside : pc.home = some prim) :
    prim ∈ call.uses := by
  cases call with
  | tryLock id =>
      obtain rfl | rfl := ends <;> simp_all [Pc.home, Call.uses]
  | callOnce id =>
      obtain rfl | rfl := ends <;> simp_all [Pc.home, Call.uses]
  | alloc id value =>
      obtain ⟨slot, rfl⟩ | rfl := ends <;> simp_all [Pc.home, Call.uses]
  | sleep duration =>
      obtain ⟨deadline, rfl⟩ := ends
      simp [Pc.home] at inside
  | _ =>
      obtain rfl := ends
      simp_all [Pc.home, Call.uses]

/-- The only user code a section starts is the closure of `call_once`. -/
theorem run_pushes {n : Nat} {Link Head : Type} [ops : WaitOps n V Link Head] {who : TcbPtr n}
    {kernel after : Kernel n V Link Head} {outcome : Outcome}
    (returned : call.run who kernel = .ok (after, outcome)) :
    outcome.push = none ∨ ∃ id, call = .callOnce id ∧ outcome.push = some (.once id) := by
  cases call with
  | tryTake id => cases returned; exact .inl rfl
  | tryLock id => cases returned; exact .inl rfl
  | clear id mask => cases returned; exact .inl rfl
  | sleep duration => cases returned; exact .inl rfl
  | callOnce id =>
      obtain ⟨⟨_, role⟩, _, rest⟩ := Except.ok_of_bind returned
      cases rest
      cases role with
      | initializer => exact .inr ⟨id, rfl, rfl⟩
      | bystander => exact .inl rfl
      | waiter => exact .inl rfl
  | _ =>
      obtain ⟨_, _, rest⟩ := Except.ok_of_bind returned
      cases rest
      exact .inl rfl

/-- No section starts the destructor of a box. -/
theorem run_push {n : Nat} {Link Head : Type} [ops : WaitOps n V Link Head] {who : TcbPtr n}
    {kernel after : Kernel n V Link Head} {outcome : Outcome}
    (returned : call.run who kernel = .ok (after, outcome)) (id : Nat) :
    outcome.push.toList.filterMap (Frame.dropped id) = [] := by
  obtain none | ⟨once, _, pushes⟩ := run_pushes returned
  · rw [none]
    rfl
  · rw [pushes]
    rfl

end Call

namespace Thread

variable {V : Type} {thread : Thread} {call : Call V}

/-- A task that may enter a section is inside no primitive. -/
theorem home_of_mayCall (may : thread.mayCall call = true) : thread.pc.home = none := by
  cases call <;> simp only [mayCall, Bool.or_eq_true, Bool.and_eq_true, decide_eq_true_eq] at may
  case lock id => obtain pc | pc := may <;> rw [pc] <;> rfl
  case sleepUntil deadline => obtain pc | pc := may <;> rw [pc] <;> rfl
  case dropGuard | wait | finishOnce | releaseBox => rw [may.1]; rfl
  case setFromIsr => simp at may
  all_goals rw [may]; rfl

/-- The slots a task is about to release to a pool, and has not. -/
def drops (thread : Thread) (id : Nat) : List U8 := thread.frames.filterMap (Frame.dropped id)

/-- A section on anything but a pool releases none of its slots. -/
theorem drops_framesAfter {push : Option Frame} {id : Nat} (may : thread.mayCall call = true)
    (quiet : push.toList.filterMap (Frame.dropped id) = []) (uses : .pool id ∉ call.uses) :
    (thread.framesAfter push call).filterMap (Frame.dropped id) = thread.drops id := by
  have pushed : (push.toList ++ thread.frames).filterMap (Frame.dropped id) = thread.drops id := by
    rw [List.filterMap_append, quiet, List.nil_append]
    rfl
  cases call with
  | finishOnce once =>
      simp only [mayCall, Bool.and_eq_true, decide_eq_true_eq] at may
      obtain ⟨rest, frames⟩ := List.head?_eq_some_iff.mp may.2
      simp [framesAfter, drops, frames, List.filterMap_cons, Frame.dropped]
  | releaseBox pool slot =>
      simp only [mayCall, Bool.and_eq_true, decide_eq_true_eq] at may
      obtain ⟨rest, frames⟩ := List.head?_eq_some_iff.mp may.2
      have other : pool ≠ id := by
        rintro rfl
        simp [Call.uses] at uses
      simp [framesAfter, drops, frames, Frame.dropped, other]
  | _ => exact pushed

end Thread

namespace SpecMachine

variable {n : Nat} {V : Type} {config : Config n} {machine next : SpecMachine n V} {prim : Prim}

/-- A task that runs is not blocked. -/
theorem not_blocked_of_running {state : TaskState WaitList} (runs : state.isRunning = true) :
    state.isBlocked = false := by
  obtain ⟨slice, rfl⟩ := TaskState.isRunning_iff.mp runs
  rfl

/-- A step leaves a primitive alone. -/
structure Untouched (prim : Prim) (machine next : SpecMachine n V) : Prop where
  agree : prim.Agree machine.kernel.toStatics next.kernel.toStatics
  heads : ∀ list, list.home = prim → next.kernel.waitHead list = machine.kernel.waitHead list
  pc : ∀ task, (machine.thread task).pc.home = some prim ∨ (next.thread task).pc.home = some prim →
    (next.thread task).pc = (machine.thread task).pc
  kept : ∀ task, (machine.thread task).pc.home = some prim →
    (next.kernel.tcb task).waitPtr = (machine.kernel.tcb task).waitPtr ∧
      next.kernel.frame (some task) = machine.kernel.frame (some task)
  slots : ∀ id, prim = .pool id → next.boxes id = machine.boxes id ∧
    next.isrSlots id = machine.isrSlots id ∧
      ∀ task, (next.thread task).drops id = (machine.thread task).drops id

namespace Untouched

/-- The scheduler works on no primitive. -/
theorem of_scheduled (scheduled : Scheduled machine next) : Untouched prim machine next where
  agree := by
    obtain ⟨_, _, statics⟩ := scheduled.moved.statics
    rw [statics]
    cases prim <;> simp [Prim.Agree]
  heads list _ := congrFun scheduled.moved.waitHead list
  pc task _ := (scheduled.thread task).1
  kept task _ := by
    obtain ⟨_, _, statics⟩ := scheduled.moved.statics
    exact ⟨(scheduled.moved.fixed task).2.2.2.2, by rw [statics]⟩
  slots id _ := by
    refine ⟨congrFun scheduled.boxes id, congrFun scheduled.isrSlots id, fun task => ?_⟩
    rw [Thread.drops, (scheduled.thread task).2.1]
    rfl

/-- The data, the lists and the tasks inside a primitive no section of which was entered. -/
theorem of_effect (core : Core config machine) {call : Call V} {who : TcbPtr n} {flag : Bool}
    {after : Spec n V}
    (effect : Spec.Effect (· ∈ call.uses) (call.parksOn = some ·) who flag machine.kernel after)
    (apart : prim ∉ call.uses)
    (caller : ∀ task, who = some task → (machine.thread task).pc.home = none) :
    prim.Agree machine.kernel.toStatics after.toStatics ∧
      (∀ list, list.home = prim → after.waitHead list = machine.kernel.waitHead list) ∧
      ∀ task, (machine.thread task).pc.home = some prim →
        (after.tcb task).waitPtr = (machine.kernel.tcb task).waitPtr ∧
          after.frame (some task) = machine.kernel.frame (some task) := by
  refine ⟨effect.agree prim apart, fun list home => effect.heads list (home ▸ apart), ?_⟩
  intro task inside
  have other : who ≠ some task := by
    intro isWho
    simp [caller task isWho] at inside
  rcases effect.kept task other with same | ⟨list, inScope, blocked⟩
  · exact same
  · -- a task inside the primitive waits on one of its lists, if at all
    have home := Pc.home_of_awaits (core.awaits task list blocked) inside
    exact absurd (home ▸ inScope) apart

/-- A section of an interrupt handler on another primitive. -/
theorem of_isr (core : Core config machine) {call : Call V} {kernel : Spec n V} {outcome : Outcome}
    {pendsv : Bool} {isrSlots : Nat → List U8} (apart : prim ∉ call.uses)
    (returned : call.run none machine.kernel = .ok (kernel, outcome))
    (contract : call.Contract none machine.kernel (kernel, outcome))
    (slots : isrSlots = match outcome.pc with
      | .allocRet id slot => Function.update machine.isrSlots id (slot :: machine.isrSlots id)
      | _ => machine.isrSlots) :
    Untouched prim machine { machine with kernel, pendsv, isrSlots } := by
  obtain ⟨flag, effect, _⟩ := contract.effect
  obtain ⟨agree, heads, kept⟩ := of_effect core effect apart (by simp)
  refine ⟨agree, heads, fun _ _ => rfl, kept, ?_⟩
  rintro id rfl
  refine ⟨rfl, ?_, fun _ => rfl⟩
  have ends := Call.run_endsAt returned
  split at slots
  · rename_i pool slot pc
    subst slots
    have other : pool ≠ id := by
      rintro rfl
      exact apart (Call.uses_of_endsAt ends (by rw [pc]; rfl))
    simp [Ne.symm other]
  · rw [slots]

/-- A section of a task on another primitive. -/
theorem of_call (core : Core config machine) {call : Call V} {task : Fin n} {kernel : Spec n V}
    {outcome : Outcome} {pendsv : Bool} (apart : prim ∉ call.uses)
    (may : (machine.thread task).mayCall call = true)
    (returned : call.run (some task) machine.kernel = .ok (kernel, outcome))
    (contract : call.Contract (some task) machine.kernel (kernel, outcome)) :
    Untouched prim machine
      { machine.setThread task ((machine.thread task).after call outcome) with kernel, pendsv } := by
  have free := Thread.home_of_mayCall may
  obtain ⟨flag, effect, _⟩ := contract.effect
  obtain ⟨agree, heads, kept⟩ := of_effect core effect apart
    (by rintro caller isCaller; exact Option.some.inj isCaller ▸ free)
  refine ⟨agree, heads, ?_, kept, ?_⟩
  · intro other inside
    by_cases same : other = task
    · subst same
      exfalso
      rcases inside with before | after
      · simp [free] at before
      · have pc : outcome.pc.home = some prim := by
          simpa [Machine.setThread, Thread.after] using after
        exact apart (Call.uses_of_endsAt (Call.run_endsAt returned) pc)
    · simp [Machine.setThread, same]
  · rintro id rfl
    refine ⟨rfl, rfl, fun other => ?_⟩
    by_cases same : other = task
    · subst same
      simpa [Machine.setThread, Thread.after, Thread.drops] using
        Thread.drops_framesAfter may (Call.run_push returned id) apart
    · simp [Machine.setThread, same]

/-- A task changes its own record, and is inside the primitive neither before nor after. -/
theorem of_thread {task : Fin n} {thread : Thread} (before : (machine.thread task).pc.home ≠ some prim)
    (after : thread.pc.home ≠ some prim)
    (drops : ∀ id, prim = .pool id → thread.drops id = (machine.thread task).drops id) :
    Untouched prim machine (machine.setThread task thread) := by
  refine ⟨.refl _ prim, fun _ _ => rfl, ?_, fun _ _ => ⟨rfl, rfl⟩, ?_⟩
  · intro other inside
    by_cases same : other = task
    · subst same
      rcases inside with inside | inside
      · exact absurd inside before
      · exact absurd inside (by simpa [Machine.setThread] using after)
    · simp [Machine.setThread, same]
  · intro id isPool
    refine ⟨rfl, rfl, fun other => ?_⟩
    by_cases same : other = task
    · subst same
      simpa [Machine.setThread] using drops id isPool
    · simp [Machine.setThread, same]

/-- A section that returns to its caller at once and does nothing. -/
theorem of_refused {call : Call V} {task : Fin n} {pendsv : Bool} {outcome : Outcome}
    (user : (machine.thread task).pc = .user) (back : outcome.pc = .user)
    (drops : ∀ id, ((machine.thread task).framesAfter outcome.push call).filterMap
      (Frame.dropped id) = (machine.thread task).drops id) :
    Untouched prim machine { machine.setThread task ((machine.thread task).after call outcome) with
      pendsv } := by
  have own : Untouched prim machine
      (machine.setThread task ((machine.thread task).after call outcome)) :=
    .of_thread (by simp [user, Pc.home]) (by simp [Thread.after, back, Pc.home])
      fun id _ => drops id
  exact ⟨own.agree, own.heads, own.pc, own.kept, own.slots⟩

/-- A request for PendSV. -/
theorem of_pendsv {pendsv : Bool} : Untouched prim machine { machine with pendsv } :=
  ⟨.refl _ prim, fun _ _ => rfl, fun _ _ => rfl, fun _ _ => ⟨rfl, rfl⟩,
    fun _ _ => ⟨rfl, rfl, fun _ => rfl⟩⟩

/-- Steps that change the slots of one pool and the record of one task. -/
theorem of_slots {task : Fin n} {thread : Thread} {pool : Nat} (apart : prim ≠ .pool pool)
    (agree : prim.Agree machine.kernel.toStatics next.kernel.toStatics)
    (waitHead : next.kernel.waitHead = machine.kernel.waitHead)
    (tcb : next.kernel.tcb = machine.kernel.tcb) (frame : next.kernel.frame = machine.kernel.frame)
    (threads : next.thread = Function.update machine.thread task thread)
    (before : (machine.thread task).pc.home ≠ some prim) (after : thread.pc.home ≠ some prim)
    (drops : ∀ id, id ≠ pool → thread.drops id = (machine.thread task).drops id)
    (boxes : ∀ id, id ≠ pool → next.boxes id = machine.boxes id)
    (isrSlots : ∀ id, id ≠ pool → next.isrSlots id = machine.isrSlots id) :
    Untouched prim machine next := by
  have other : ∀ id, prim = .pool id → id ≠ pool := by
    rintro id rfl rfl
    exact apart rfl
  have moved : Untouched prim machine (machine.setThread task thread) :=
    of_thread before after fun id isPool => drops id (other id isPool)
  refine ⟨agree, fun list _ => congrFun waitHead list, ?_, fun _ _ => by rw [tcb, frame]; simp, ?_⟩
  · rw [threads]
    exact moved.pc
  · intro id isPool
    rw [threads]
    exact ⟨boxes id (other id isPool), isrSlots id (other id isPool), (moved.slots id isPool).2.2⟩

/-- A task returns from a call of another primitive. -/
theorem of_ret {task : Fin n} (outside : (machine.thread task).pc.home ≠ some prim)
    (returns : Machine.ReturnStep machine task next) : Untouched prim machine next := by
  have back : Untouched prim machine
      (machine.setThread task { machine.thread task with pc := .user }) :=
    of_thread outside (by simp [Pc.home]) fun _ _ => rfl
  cases returns with
  | plain pc => exact back
  | guard pc => exact of_thread outside (by simp [Pc.home]) fun _ _ => rfl
  | value pc received =>
      rename_i channel value
      refine ⟨?_, back.heads, back.pc, back.kept, back.slots⟩
      have other : prim ≠ .channel channel := by
        rintro rfl
        simp [pc, Pc.home] at outside
      cases prim with
      | channel id =>
          have different : id ≠ channel := fun same => other (same ▸ rfl)
          simp [Prim.Agree, Channel.logReturned, different]
      | _ => simp [Prim.Agree, Channel.logReturned]
  | box pc =>
      rename_i pool slot
      have other : prim ≠ .pool pool := by
        rintro rfl
        obtain at_ | ⟨at_, _⟩ := pc <;> simp [at_, Pc.home] at outside
      refine of_slots other (.refl _ prim) rfl rfl rfl rfl outside (by simp [Pc.home])
        (fun _ _ => rfl) ?_ (fun _ _ => rfl)
      intro id different
      simp [Machine.addBox, Machine.setThread, different]

/-- A box of another pool reaches its owner. -/
theorem of_isrRet {pool : Nat} {slot : U8} (apart : prim ≠ .pool pool) :
    Untouched prim machine { machine.addBox pool slot with
      isrSlots := Function.update machine.isrSlots pool ((machine.isrSlots pool).erase slot) } where
  agree := .refl _ prim
  heads _ _ := rfl
  pc _ _ := rfl
  kept _ _ := ⟨rfl, rfl⟩
  slots id isPool := by
    have other : id ≠ pool := by
      rintro rfl
      exact apart isPool
    simp [Machine.addBox, other]

/-- A write to the slots of another pool. -/
theorem agree_setPool {pool : Nat} {inner : PoolInner V} (apart : prim ≠ .pool pool) :
    prim.Agree machine.kernel.toStatics (machine.kernel.setPool pool inner).toStatics := by
  cases prim with
  | pool id =>
      have other : id ≠ pool := fun same => apart (same ▸ rfl)
      simp [Prim.Agree, other]
  | _ => simp [Prim.Agree]

/-- A box of another pool is dropped. -/
theorem of_dropBox {pool : Nat} {slot : U8} {task : Fin n} {inner : PoolInner V}
    (apart : prim ≠ .pool pool) (user : (machine.thread task).pc = .user) :
    Untouched prim machine
      { (machine.removeBox pool slot).setThread task { machine.thread task with
          frames := .boxDrop pool slot :: (machine.thread task).frames } with
        kernel := machine.kernel.setPool pool inner } := by
  refine of_slots apart (agree_setPool apart) rfl rfl rfl rfl (by simp [user, Pc.home])
    (by simp [user, Pc.home]) ?_ ?_ (fun _ _ => rfl)
  · intro id different
    simp [Thread.drops, Frame.dropped, Ne.symm different]
  · intro id different
    simp [Machine.removeBox, Machine.setThread, different]

/-- A write through a box of another pool. -/
theorem of_writeBox {pool : Nat} {inner : PoolInner V} (apart : prim ≠ .pool pool) :
    Untouched prim machine { machine with kernel := machine.kernel.setPool pool inner } where
  agree := agree_setPool apart
  heads _ _ := rfl
  pc _ _ := rfl
  kept _ _ := ⟨rfl, rfl⟩
  slots _ _ := ⟨rfl, rfl, fun _ => rfl⟩

/-- A guard is forgotten. -/
theorem of_forgetGuard {mutex : Nat} {task : Fin n} (user : (machine.thread task).pc = .user) :
    Untouched prim machine (machine.setThread task
      { machine.thread task with guards := (machine.thread task).guards.erase mutex }) :=
  of_thread (by simp [user, Pc.home]) (by simp [user, Pc.home]) fun _ _ => rfl

end Untouched

end SpecMachine

end Kangaroos
