import Kangaroos.Abstract.Pools
import Kangaroos.Logic.RingBuffer
import Kangaroos.Setup

/-!
# The kernel before it starts

In the body of `main` `CURRENT` is null, nobody waits and every owner is null. A call that need
not wait returns, except where it reads its result through `CURRENT` or drops a guard, whose owner
is null. For the same reason no mutex is ever locked.
-/

namespace Kangaroos

/-- The free list and the live boxes of a pool: every slot is free, of a box, or about to be
released. -/
structure PoolInner.Holds {V : Type} (inner : PoolInner V) (boxes drops free : List U8) : Prop where
  bound : inner.capacity ≤ 255
  chain : Linked.Chain inner.freeLink (Pool.link inner.freeHead) free
  slots : ((free ++ (boxes ++ drops) : List U8) : Multiset U8) = Pool.slots inner.capacity
  stored : ∀ slot ∈ boxes, inner.nodes slot.val ≠ none

namespace PoolInner.Holds

variable {V : Type} {inner : PoolInner V} {boxes drops free : List U8} {slot : U8}

/-- A slot that is somewhere is inside the pool. -/
theorem inBounds (holds : inner.Holds boxes drops free) (member : slot ∈ free ++ (boxes ++ drops)) :
    slot.val < inner.capacity := by
  rw [← Pool.mem_slots, ← holds.slots]
  exact member

/-- No slot is in two places. -/
theorem nodup (holds : inner.Holds boxes drops free) : (free ++ (boxes ++ drops)).Nodup := by
  rw [← Multiset.coe_nodup, holds.slots]
  exact Pool.slots_nodup _

/-- Taking the first free slot. -/
theorem takeSlot (holds : inner.Holds boxes drops free) (available : inner.freeHead ≠ Pool.endMark)
    (value : V) : ∃ after slot rest, Pool.takeSlot inner value = .ok (after, slot) ∧
      after.Holds (slot :: boxes) drops rest := by
  cases free with
  | nil => exact absurd (by simpa using holds.chain) available
  | cons slot rest =>
      obtain ⟨rfl, notEnd⟩ : inner.freeHead = slot ∧ slot ≠ Pool.endMark := by
        simpa using holds.chain.1
      have fits : inner.freeHead.val < inner.capacity := holds.inBounds (by simp)
      refine ⟨{ inner with
          freeHead := inner.next inner.freeHead.val
          nodes := Function.update inner.nodes inner.freeHead.val (some value) },
        inner.freeHead, rest, by simp [Pool.takeSlot, fits], ?_⟩
      constructor
      case bound => exact holds.bound
      case chain => exact holds.chain.2
      case slots =>
        rw [← holds.slots, List.cons_append, List.cons_append]
        exact Multiset.coe_eq_coe.mpr List.perm_middle
      case stored =>
        intro other member
        by_cases same : other = inner.freeHead
        · simp [same]
        · have different : other.val ≠ inner.freeHead.val := fun equal => same (Fin.ext equal)
          simpa [different] using
            holds.stored other ((List.mem_cons.mp member).resolve_left same)

/-- Destroying the value of a box. -/
theorem destroy (holds : inner.Holds boxes drops free) (live : slot ∈ boxes) :
    ({ inner with nodes := Function.update inner.nodes slot.val none } : PoolInner V).Holds
      (boxes.erase slot) (slot :: drops) free where
  bound := holds.bound
  chain := holds.chain
  slots := by
    rw [← holds.slots]
    refine Multiset.coe_eq_coe.mpr (List.Perm.append_left free ?_)
    refine List.perm_middle.trans ?_
    rw [← List.cons_append]
    exact (List.perm_cons_erase live).symm.append_right drops
  stored other member := by
    have distinct : boxes.Nodup := (List.nodup_append.mp (List.nodup_append.mp holds.nodup).2.1).1
    obtain ⟨isOther, wasLive⟩ := (List.Nodup.mem_erase_iff distinct).mp member
    have different : other.val ≠ slot.val := fun equal => isOther (Fin.ext equal)
    simpa [different] using holds.stored other wasLive

/-- Releasing a slot. -/
theorem release (holds : inner.Holds boxes (slot :: drops) free) :
    ({ inner with
      next := Function.update inner.next slot.val inner.freeHead
      freeHead := slot } : PoolInner V).Holds boxes drops (slot :: free) where
  bound := holds.bound
  chain := by
    have fits : slot.val < inner.capacity := holds.inBounds (by simp)
    have fresh : slot ∉ free := fun isFree =>
      (List.nodup_append.mp holds.nodup).2.2 slot isFree slot (by simp) rfl
    refine ⟨by simp [Pool.ne_endMark holds.bound fits], ?_⟩
    have onward : ({ inner with
        next := Function.update inner.next slot.val inner.freeHead
        freeHead := slot } : PoolInner V).freeLink slot = Pool.link inner.freeHead := by
      simp [PoolInner.freeLink]
    rw [onward]
    refine holds.chain.congr fun other member => ?_
    have different : other.val ≠ slot.val := fun same => fresh (Fin.ext same ▸ member)
    simp [PoolInner.freeLink, different]
  slots := by
    rw [← holds.slots, List.cons_append]
    refine Multiset.coe_eq_coe.mpr ?_
    rw [← List.append_assoc, ← List.append_assoc]
    exact List.perm_middle.symm
  stored := holds.stored

/-- Writing through a box. -/
theorem write (holds : inner.Holds boxes drops free) (value : V) :
    ({ inner with nodes := Function.update inner.nodes slot.val (some value) } : PoolInner V).Holds
      boxes drops free where
  bound := holds.bound
  chain := holds.chain
  slots := holds.slots
  stored other member := by
    by_cases same : other.val = slot.val
    · simp [same]
    · simpa [same] using holds.stored other member

end PoolInner.Holds

/-- A channel whose indices and cells agree. -/
def ChannelInner.Holds {n : Nat} {V : Type} (inner : ChannelInner n V) : Prop :=
  ∃ contents, RingBuffer inner.buf inner.capacity inner.head inner.tail inner.count contents

namespace ChannelInner.Holds

variable {n : Nat} {V : Type} {inner : ChannelInner n V}

/-- The histories do not matter. -/
@[simp] theorem log_iff (sent rejected entered left returned : List (TcbPtr n × V)) :
    ({ inner with sent, rejected, entered, left, returned } : ChannelInner n V).Holds ↔
      inner.Holds := Iff.rfl

/-- Writing to a channel with room. -/
theorem bufWrite (holds : inner.Holds) (room : inner.count < inner.capacity) (who : TcbPtr n)
    (value : V) : ∃ after, Channel.bufWrite inner who value = .ok after ∧ after.Holds := by
  obtain ⟨contents, ring⟩ := holds
  have inside : inner.tail < inner.capacity := ring.tail_lt (Nat.zero_lt_of_lt room)
  exact ⟨_, if_pos inside, contents ++ [value], ring.push room value⟩

/-- Reading from a channel that is not empty. -/
theorem bufRead (holds : inner.Holds) (occupied : 0 < inner.count) (who : TcbPtr n) :
    ∃ after value, Channel.bufRead inner who = .ok (after, value) ∧ after.Holds := by
  obtain ⟨contents, ring⟩ := holds
  cases contents with
  | nil =>
      have length := ring.length
      simp only [List.length_nil] at length
      omega
  | cons value rest =>
      obtain ⟨inside, first⟩ := ring.front
      exact ⟨_, value, by simp only [Channel.bufRead, inside, if_true, first]; rfl, rest, ring.pop⟩

end ChannelInner.Holds

/-- Nobody runs, nobody waits and nobody owns a mutex. -/
structure Kernel.Unstarted {n : Nat} {V : Type} (kernel : Rtos n V) : Prop where
  current : kernel.current = none
  heads : ∀ list, kernel.waitHead list = none
  owner : ∀ id, kernel.owner id = none

namespace Kernel.Unstarted

variable {n : Nat} {V : Type} {kernel after : Rtos n V}

/-- Other globals do not matter. -/
theorem same (unstarted : kernel.Unstarted) (current : after.current = kernel.current)
    (heads : after.waitHead = kernel.waitHead) (owner : after.owner = kernel.owner) :
    after.Unstarted where
  current := current.trans unstarted.current
  heads list := (congrFun heads list).trans (unstarted.heads list)
  owner id := (congrFun owner id).trans (unstarted.owner id)

/-- Before the start nobody waits. -/
theorem noWaiter (unstarted : kernel.Unstarted) (list : WaitList) : kernel.noWaiter list = true := by
  simp [Kernel.noWaiter, WaitOps.isNull, unstarted.heads]

/-- There is nobody to wake. -/
theorem drain (unstarted : kernel.Unstarted) (list : WaitList) (fuel : Nat) (preempt : Bool) :
    Kernel.drain list fuel (kernel, preempt) = .ok (kernel, preempt) := by
  cases fuel <;> simp [Kernel.drain, unstarted.noWaiter]

/-- There is nobody to serve. -/
theorem scan (unstarted : kernel.Unstarted) (rule : ScanRule) (event : Nat) (list : WaitList) :
    WaitOps.scan kernel rule event list = .ok (kernel, false) := by
  have done : Rtos.scanFrom rule event list n none (kernel.waitHead list) (kernel, false) =
      .ok (kernel, false) := by
    rw [unstarted.heads]
    cases n <;> rfl
  exact done

/-- Taking a mutex stores a null owner. -/
theorem setOwner (unstarted : kernel.Unstarted) (id : Nat) :
    (kernel.setOwner id kernel.current).Unstarted where
  current := unstarted.current
  heads := unstarted.heads
  owner other := by
    by_cases same : other = id
    · simp [same, unstarted.current]
    · simpa [same] using unstarted.owner other

end Kernel.Unstarted

namespace Setup

variable {n : Nat} {V : Type} {setup next : Setup n V (TcbPtr n) (TcbPtr n)} {call : Call V}

/-- `main` between two actions. -/
structure Sound (setup : Setup n V (TcbPtr n) (TcbPtr n)) : Prop where
  unstarted : setup.kernel.Unstarted
  user : setup.thread.pc = .user
  trig : setup.thread.trig = false
  channel : ∀ id, (setup.kernel.channel id).Holds
  pool : ∀ id, ∃ free,
    (setup.kernel.pool id).Holds (setup.boxes id) (setup.thread.drops id) free

/-- An action that returns: a call for a mutex returns with a guard. -/
structure Advances (setup : Setup n V (TcbPtr n) (TcbPtr n)) (action : SetupAction n V)
    (next : Setup n V (TcbPtr n) (TcbPtr n)) : Prop where
  performed : setup.perform action = .ok next
  sound : next.Sound
  guards : next.thread.guards = action.asksFor.toList ++ setup.thread.guards

/-- After these calls there is nothing left to do but return. -/
def plain : Pc → Bool
  | .user | .takeRet _ | .waitAllRet _ | .sendRet _ => true
  | _ => false

/-- The section of such a call, on a primitive other than a pool. -/
structure Returns (setup : Setup n V (TcbPtr n) (TcbPtr n)) (call : Call V) (kernel : Rtos n V)
    (outcome : Outcome) : Prop where
  ran : call.run none setup.kernel = .ok (kernel, outcome)
  unstarted : kernel.Unstarted
  pend : outcome.pend = false
  plain : Setup.plain outcome.pc = true
  channel : ∀ id, (kernel.channel id).Holds
  pool : kernel.pool = setup.kernel.pool

/-- A call that is on no pool and asks for no mutex. -/
theorem Sound.plain (sound : setup.Sound) {kernel : Rtos n V} {outcome : Outcome}
    (returns : Returns setup call kernel outcome) (may : setup.thread.mayCall call = true)
    (apart : ∀ id, .pool id ∉ call.uses) (keeps : setup.thread.guardsAfter call = setup.thread.guards)
    (asks : (SetupAction.call call : SetupAction n V).asksFor = none) :
    ∃ next, Advances setup (.call call) next := by
  have returned : (Setup.returnFrom { setup with kernel, thread := setup.thread.after call outcome }) =
      .ok { setup with kernel, thread := { setup.thread.after call outcome with pc := .user } } := by
    have pc := returns.plain
    unfold Setup.returnFrom
    simp only [Thread.after]
    cases outcome with
    | mk pend inside at_ push => cases at_ <;> first | rfl | simp [Setup.plain] at pc
  refine ⟨{ setup with kernel, thread := { setup.thread.after call outcome with pc := .user } },
    ?_, ?_, ?_⟩
  · simp only [Setup.perform, sound.unstarted.current, returns.ran, Except.ok_bind]
    exact returned
  · refine ⟨returns.unstarted, rfl, returns.pend, returns.channel, fun id => ?_⟩
    obtain ⟨free, holds⟩ := sound.pool id
    refine ⟨free, ?_⟩
    rw [returns.pool]
    have drops : ({ setup.thread.after call outcome with pc := .user } : Thread).drops id =
        setup.thread.drops id :=
      Thread.drops_framesAfter may (Call.run_push returns.ran id) (apart id)
    rw [drops]
    exact holds
  · rw [asks]
    exact keeps

/-- A section that writes no list, owner, channel or pool. -/
structure Apart (before after : Rtos n V) : Prop where
  current : after.current = before.current
  heads : after.waitHead = before.waitHead
  owner : after.owner = before.owner
  channel : after.channel = before.channel
  pool : after.pool = before.pool

/-- A section that writes its primitive only leaves the kernel unstarted. -/
theorem Apart.unstarted {before after : Rtos n V} (apart : Apart before after)
    (unstarted : before.Unstarted) : after.Unstarted :=
  unstarted.same apart.current apart.heads apart.owner

/-- Such a section, without a task to wake or to wait for. -/
theorem Sound.returns (sound : setup.Sound) {kernel : Rtos n V} {outcome : Outcome}
    (ran : call.run none setup.kernel = .ok (kernel, outcome)) (apart : Apart setup.kernel kernel)
    (pend : outcome.pend = false) (plain : Setup.plain outcome.pc = true) :
    ∃ kernel outcome, Returns setup call kernel outcome := by
  refine ⟨kernel, outcome, ran, apart.unstarted sound.unstarted, pend, plain, ?_, apart.pool⟩
  rw [apart.channel]
  exact sound.channel

/-- `take` counts down. -/
theorem Sound.take (sound : setup.Sound) {id : Nat}
    (positive : 0 < (setup.kernel.semaphore id).count) :
    ∃ kernel outcome, Returns setup (.take id) kernel outcome := by
  have ran : (Call.take id : Call V).run none setup.kernel = .ok (setup.kernel.setSemaphore id
      { setup.kernel.semaphore id with count := (setup.kernel.semaphore id).count - 1 },
      { pc := .takeRet id }) := by
    simp only [Call.run, Semaphore.take, positive, if_true, Except.ok_bind]
  exact sound.returns ran ⟨rfl, rfl, rfl, rfl, rfl⟩ rfl rfl

/-- `try_take` counts down, or fails. -/
theorem Sound.tryTake (sound : setup.Sound) (id : Nat) :
    ∃ kernel outcome, Returns setup (.tryTake id) kernel outcome := by
  have tried : (Semaphore.tryTake setup.kernel id).1 = setup.kernel ∨
      (Semaphore.tryTake setup.kernel id).1 = setup.kernel.setSemaphore id
        { setup.kernel.semaphore id with count := (setup.kernel.semaphore id).count - 1 } := by
    unfold Semaphore.tryTake
    dsimp only
    split
    · exact .inr rfl
    · exact .inl rfl
  have ran : (Call.tryTake id : Call V).run none setup.kernel =
      .ok ((Semaphore.tryTake setup.kernel id).1, {}) := rfl
  rcases tried with same | taken
  · rw [same] at ran
    exact sound.returns ran ⟨rfl, rfl, rfl, rfl, rfl⟩ rfl rfl
  · rw [taken] at ran
    exact sound.returns ran ⟨rfl, rfl, rfl, rfl, rfl⟩ rfl rfl

/-- `give` counts up or drops the token. -/
theorem Sound.give (sound : setup.Sound) (id : Nat) :
    ∃ kernel outcome, Returns setup (.give id) kernel outcome := by
  have idle := sound.unstarted.noWaiter (.semaphore id)
  by_cases room : (setup.kernel.semaphore id).count < (setup.kernel.semaphore id).max
  · have ran : (Call.give id : Call V).run none setup.kernel = .ok (setup.kernel.setSemaphore id
        { setup.kernel.semaphore id with count := (setup.kernel.semaphore id).count + 1 }, {}) := by
      simp [Call.run, Semaphore.give, idle, room, Except.ok_bind]
    exact sound.returns ran ⟨rfl, rfl, rfl, rfl, rfl⟩ rfl rfl
  · have ran : (Call.give id : Call V).run none setup.kernel = .ok (setup.kernel, {}) := by
      simp [Call.run, Semaphore.give, idle, room, Except.ok_bind]
    exact sound.returns ran ⟨rfl, rfl, rfl, rfl, rfl⟩ rfl rfl

/-- `notify_one` finds nobody. -/
theorem Sound.notifyOne (sound : setup.Sound) (id : Nat) :
    ∃ kernel outcome, Returns setup (.notifyOne id) kernel outcome := by
  have ran : (Call.notifyOne id : Call V).run none setup.kernel = .ok (setup.kernel, {}) := by
    simp [Call.run, Condvar.notifyOne, sound.unstarted.noWaiter, Except.ok_bind]
  exact sound.returns ran ⟨rfl, rfl, rfl, rfl, rfl⟩ rfl rfl

/-- `notify_all` finds nobody. -/
theorem Sound.notifyAll (sound : setup.Sound) (id : Nat) :
    ∃ kernel outcome, Returns setup (.notifyAll id) kernel outcome := by
  have ran : (Call.notifyAll id : Call V).run none setup.kernel = .ok (setup.kernel, {}) := by
    simp only [Call.run, Condvar.notifyAll, sound.unstarted.drain, Except.ok_bind]
  exact sound.returns ran ⟨rfl, rfl, rfl, rfl, rfl⟩ rfl rfl

/-- `set` sets the bits and serves nobody. -/
theorem Sound.set (sound : setup.Sound) (id : Nat) (mask : Word) :
    ∃ kernel outcome, Returns setup (.set id mask) kernel outcome := by
  have raised : (setup.kernel.setBits id (setup.kernel.bits id ||| mask)).Unstarted :=
    sound.unstarted.same rfl rfl rfl
  have ran : (Call.set id mask : Call V).run none setup.kernel =
      .ok (setup.kernel.setBits id (setup.kernel.bits id ||| mask), {}) := by
    simp only [Call.run, EventGroup.set, raised.scan, Except.ok_bind, Bool.or_false]
  exact sound.returns ran ⟨rfl, rfl, rfl, rfl, rfl⟩ rfl rfl

/-- `clear` clears them. -/
theorem Sound.clear (sound : setup.Sound) (id : Nat) (mask : Word) :
    ∃ kernel outcome, Returns setup (.clear id mask) kernel outcome := by
  have ran : (Call.clear id mask : Call V).run none setup.kernel =
      .ok (setup.kernel.setBits id (setup.kernel.bits id &&& ~~~mask), {}) := rfl
  exact sound.returns ran ⟨rfl, rfl, rfl, rfl, rfl⟩ rfl rfl

/-- `wait_all` finds its bits and takes them. -/
theorem Sound.waitAll (sound : setup.Sound) {id : Nat} {mask : Word}
    (matched : setup.kernel.bits id &&& mask = mask) :
    ∃ kernel outcome, Returns setup (.waitAll id mask) kernel outcome := by
  have ran : (Call.waitAll id mask : Call V).run none setup.kernel =
      .ok (setup.kernel.setBits id (setup.kernel.bits id &&& ~~~mask), { pc := .waitAllRet id }) := by
    simp only [Call.run, EventGroup.waitAll, matched, if_true, Except.ok_bind]
  exact sound.returns ran ⟨rfl, rfl, rfl, rfl, rfl⟩ rfl rfl

/-- `call_once` runs its closure, or finds that it has run. -/
theorem Sound.callOnce (sound : setup.Sound) {id : Nat}
    (free : setup.kernel.once id ≠ .running) :
    ∃ kernel outcome, Returns setup (.callOnce id) kernel outcome := by
  cases state : setup.kernel.once id with
  | running => exact absurd state free
  | done =>
      have ran : (Call.callOnce id : Call V).run none setup.kernel = .ok (setup.kernel, {}) := by
        simp only [Call.run, Once.enter, state, Except.ok_bind]
      exact sound.returns ran ⟨rfl, rfl, rfl, rfl, rfl⟩ rfl rfl
  | unstarted =>
      have ran : (Call.callOnce id : Call V).run none setup.kernel =
          .ok (setup.kernel.setOnce id .running, { push := some (.once id) }) := by
        simp only [Call.run, Once.enter, state, Except.ok_bind]
      exact sound.returns ran ⟨rfl, rfl, rfl, rfl, rfl⟩ rfl rfl

/-- The end of `call_once` wakes nobody. -/
theorem Sound.finishOnce (sound : setup.Sound) (id : Nat) :
    ∃ kernel outcome, Returns setup (.finishOnce id) kernel outcome := by
  have done : (setup.kernel.setOnce id .done).Unstarted :=
    sound.unstarted.same rfl rfl rfl
  have ran : (Call.finishOnce id : Call V).run none setup.kernel =
      .ok (setup.kernel.setOnce id .done, {}) := by
    simp only [Call.run, Once.finish, done.drain, Except.ok_bind]
  exact sound.returns ran ⟨rfl, rfl, rfl, rfl, rfl⟩ rfl rfl

/-- A section on a channel. -/
theorem Sound.returnsChannel (sound : setup.Sound) (id : Nat) {kernel : Rtos n V} {outcome : Outcome}
    (ran : call.run none setup.kernel = .ok (kernel, outcome))
    (unstarted : kernel.Unstarted) (pool : kernel.pool = setup.kernel.pool)
    (others : ∀ other, other ≠ id → kernel.channel other = setup.kernel.channel other)
    (own : (kernel.channel id).Holds) (pend : outcome.pend = false)
    (plain : Setup.plain outcome.pc = true) : Returns setup call kernel outcome where
  ran := ran
  unstarted := unstarted
  pend := pend
  plain := plain
  channel other := by
    by_cases same : other = id
    · rw [same]
      exact own
    · rw [others other same]
      exact sound.channel other
  pool := pool

/-- What `send` and `try_send` do first. -/
theorem Sound.logSent (sound : setup.Sound) (id : Nat) (value : V) :
    (Channel.logSent setup.kernel id none value).Unstarted ∧
      ((Channel.logSent setup.kernel id none value).channel id).Holds ∧
      ((Channel.logSent setup.kernel id none value).channel id).count =
        (setup.kernel.channel id).count ∧
      ((Channel.logSent setup.kernel id none value).channel id).capacity =
        (setup.kernel.channel id).capacity := by
  have own : (Channel.logSent setup.kernel id none value).channel id = { setup.kernel.channel id with
      sent := (setup.kernel.channel id).sent ++ [(none, value)] } := by
    simp [Channel.logSent]
  rw [own]
  exact ⟨sound.unstarted.same rfl rfl rfl, sound.channel id, rfl, rfl⟩

/-- `send` finds room. -/
theorem Sound.send (sound : setup.Sound) {id : Nat} (value : V)
    (room : (setup.kernel.channel id).count < (setup.kernel.channel id).capacity) :
    ∃ kernel outcome, Returns setup (.send id value) kernel outcome := by
  obtain ⟨logged, own, count, capacity⟩ := sound.logSent id value
  rw [← count, ← capacity] at room
  obtain ⟨inner, writes, holds⟩ := own.bufWrite room none value
  have ran : (Call.send id value).run none setup.kernel =
      .ok ((Channel.logSent setup.kernel id none value).setChannel id inner, { pc := .sendRet id }) := by
    simp only [Call.run, Channel.sendImpl, logged.noWaiter, Bool.not_true, Bool.false_eq_true,
      if_false, room, if_true, Channel.enqueue, writes, Except.ok_bind, Bool.or_false]
  refine ⟨_, _, sound.returnsChannel id ran (logged.same rfl rfl rfl) rfl
    (fun other isOther => ?_) ?_ rfl rfl⟩
  · simp [Channel.logSent, isOther]
  · simpa using holds

/-- `try_send` finds room, or rejects the value. -/
theorem Sound.trySend (sound : setup.Sound) (id : Nat) (value : V) :
    ∃ kernel outcome, Returns setup (.trySend id value) kernel outcome := by
  obtain ⟨logged, own, count, capacity⟩ := sound.logSent id value
  by_cases room : ((Channel.logSent setup.kernel id none value).channel id).count <
      ((Channel.logSent setup.kernel id none value).channel id).capacity
  · obtain ⟨inner, writes, holds⟩ := own.bufWrite room none value
    have ran : (Call.trySend id value).run none setup.kernel =
        .ok ((Channel.logSent setup.kernel id none value).setChannel id inner, {}) := by
      simp only [Call.run, Channel.trySendImpl, logged.noWaiter, Bool.not_true, Bool.false_eq_true,
        if_false, room, if_true, Channel.enqueue, writes, Except.ok_bind]
    refine ⟨_, _, sound.returnsChannel id ran (logged.same rfl rfl rfl) rfl
      (fun other isOther => ?_) ?_ rfl rfl⟩
    · simp [Channel.logSent, isOther]
    · simpa using holds
  · have ran : (Call.trySend id value).run none setup.kernel = .ok (Channel.logRejected
        (Channel.logSent setup.kernel id none value) id none value, {}) := by
      simp only [Call.run, Channel.trySendImpl, logged.noWaiter, Bool.not_true, Bool.false_eq_true,
        if_false, room, Except.ok_bind]
    refine ⟨_, _, sound.returnsChannel id ran (logged.same rfl rfl rfl) rfl
      (fun other isOther => ?_) ?_ rfl rfl⟩
    · simp [Channel.logSent, Channel.logRejected, isOther]
    · simpa [Channel.logRejected] using own

/-- `try_recv` finds a value, or returns nothing. -/
theorem Sound.tryRecv (sound : setup.Sound) (id : Nat) :
    ∃ kernel outcome, Returns setup (.tryRecv id) kernel outcome := by
  by_cases occupied : 0 < (setup.kernel.channel id).count
  · obtain ⟨inner, value, reads, holds⟩ := (sound.channel id).bufRead occupied none
    have taken : (setup.kernel.setChannel id inner).Unstarted :=
      sound.unstarted.same rfl rfl rfl
    have ran : (Call.tryRecv id : Call V).run none setup.kernel = .ok
        (Channel.logReturned (setup.kernel.setChannel id inner) id none value, {}) := by
      simp only [Call.run, Channel.tryRecvImpl, occupied, if_true, Channel.dequeue, reads,
        Channel.admitSender, taken.noWaiter, Bool.not_true, Bool.false_eq_true, if_false,
        Except.ok_bind]
    refine ⟨_, _, sound.returnsChannel id ran (taken.same rfl rfl rfl) rfl
      (fun other isOther => ?_) ?_ rfl rfl⟩
    · simp [Channel.logReturned, isOther]
    · simpa [Channel.logReturned] using holds
  · have ran : (Call.tryRecv id : Call V).run none setup.kernel = .ok (setup.kernel, {}) := by
      simp only [Call.run, Channel.tryRecvImpl, occupied, if_false, Except.ok_bind]
    exact sound.returns ran ⟨rfl, rfl, rfl, rfl, rfl⟩ rfl rfl

/-- `lock` and `try_lock` find every mutex free. -/
theorem Sound.acquires (sound : setup.Sound) (id : Nat)
    (asks : call = .lock id ∨ call = .tryLock id) : ∃ next, Advances setup (.call call) next := by
  have owned : (setup.kernel.setOwner id none).Unstarted :=
    sound.unstarted.current ▸ sound.unstarted.setOwner id
  have ran : call.run none setup.kernel =
      .ok (setup.kernel.setOwner id none, { pc := .lockRet id }) := by
    obtain rfl | rfl := asks
    · simp only [Call.run, Mutex.lock, sound.unstarted.owner, sound.unstarted.current, Except.ok_bind]
    · simp only [Call.run, Mutex.tryLock, sound.unstarted.owner, sound.unstarted.current, if_true]
  have after : setup.thread.after call { pc := .lockRet id } =
      { setup.thread with pc := .lockRet id } := by
    obtain rfl | rfl := asks <;>
      simp [Thread.after, Thread.framesAfter, Thread.guardsAfter, sound.trig]
  refine ⟨{ setup with
      kernel := setup.kernel.setOwner id none
      thread := { setup.thread with pc := .user, guards := id :: setup.thread.guards } }, ?_, ?_, ?_⟩
  · simp only [Setup.perform, sound.unstarted.current, ran, Except.ok_bind, after]
    rfl
  · exact ⟨owned, rfl, sound.trig, sound.channel, sound.pool⟩
  · obtain rfl | rfl := asks <;> rfl

/-- The three calls that go through a null pointer. -/
theorem Sound.faults (sound : setup.Sound) {action : SetupAction n V} (derefs : action.derefs = true) :
    setup.perform action = .error .nullPointer := by
  cases action with
  | call call =>
      cases call with
      | dropGuard id =>
          simp only [Setup.perform, Call.run, Mutex.unlockInternal, sound.unstarted.owner, deref_none]
          rfl
      | waitAny id mask =>
          simp only [Setup.perform, Call.run, EventGroup.waitAny, sound.unstarted.current, deref_none]
          rfl
      | allocBlocking id value =>
          simp only [Setup.perform, Call.run, Pool.allocBlocking, sound.unstarted.current, deref_none]
          rfl
      | _ => cases derefs
  | _ => cases derefs

/-- `recv` copies the value to a local of `main`. -/
theorem Sound.recv (sound : setup.Sound) {id : Nat} (occupied : 0 < (setup.kernel.channel id).count) :
    ∃ next, Advances setup (.call (.recv id)) next := by
  obtain ⟨inner, value, reads, holds⟩ := (sound.channel id).bufRead occupied none
  obtain ⟨copied, isCopied⟩ : ∃ copied : Rtos n V, copied =
    (setup.kernel.setChannel id inner).setFrame none (some value) := ⟨_, rfl⟩
  have unstarted : copied.Unstarted := by
    rw [isCopied]
    exact sound.unstarted.same rfl rfl rfl
  have current : (setup.kernel.setChannel id inner).current = none := sound.unstarted.current
  have admits : Channel.admitSender copied id = .ok (copied, false) := by
    simp [Channel.admitSender, unstarted.noWaiter]
  have ran : (Call.recv id : Call V).run none setup.kernel = .ok (copied, { pc := .recvRet id }) := by
    simp only [Call.run, Channel.recvImpl, occupied, if_true, Channel.dequeue,
      sound.unstarted.current, reads, current, Except.ok_bind, ← isCopied, admits, Bool.or_false]
  have after : setup.thread.after (.recv id : Call V) { pc := .recvRet id } =
      { setup.thread with pc := .recvRet id } := by
    simp [Thread.after, Thread.framesAfter, Thread.guardsAfter, sound.trig]
  refine ⟨{ setup with
      kernel := Channel.logReturned copied id none value
      thread := { setup.thread with pc := .user } }, ?_, ?_, rfl⟩
  · have stored : copied.frame none = some value := by simp [isCopied]
    simp only [Setup.perform, sound.unstarted.current, ran, Except.ok_bind, after, Setup.returnFrom,
      unstarted.current, stored]
  · refine ⟨unstarted.same rfl rfl rfl, rfl, sound.trig, fun other => ?_, ?_⟩
    · by_cases same : other = id
      · subst same
        simpa [Channel.logReturned, isCopied] using holds
      · simpa [Channel.logReturned, isCopied, same] using sound.channel other
    · rw [isCopied]
      exact sound.pool

/-- `alloc` finds a slot, or destroys the value. -/
theorem Sound.alloc (sound : setup.Sound) (id : Nat) (value : V) :
    ∃ next, Advances setup (.call (.alloc id value)) next := by
  have after : ∀ pc, setup.thread.after (.alloc id value) { pc } = { setup.thread with pc } := by
    intro pc
    simp [Thread.after, Thread.framesAfter, Thread.guardsAfter, sound.trig]
  by_cases available : (setup.kernel.pool id).freeHead ≠ Pool.endMark
  · obtain ⟨free, holds⟩ := sound.pool id
    obtain ⟨inner, slot, rest, takes, holds'⟩ := holds.takeSlot available value
    refine ⟨{ setup with
        kernel := setup.kernel.setPool id inner
        thread := { setup.thread with pc := .user }
        boxes := Function.update setup.boxes id (slot :: setup.boxes id) }, ?_, ?_, rfl⟩
    · simp only [Setup.perform, Call.run, Pool.alloc, if_pos available, takes,
        Except.ok_bind, Option.elim_some, after]
      rfl
    · refine ⟨sound.unstarted.same rfl rfl rfl, rfl, sound.trig, sound.channel, fun other => ?_⟩
      by_cases same : other = id
      · subst same
        exact ⟨rest, by simpa [Thread.drops] using holds'⟩
      · simpa [Thread.drops, same] using sound.pool other
  · refine ⟨{ setup with thread := { setup.thread with pc := .user } }, ?_, ?_, rfl⟩
    · simp only [Setup.perform, Call.run, Pool.alloc, if_neg available,
        Except.ok_bind, Option.elim_none, after]
      rfl
    · exact ⟨sound.unstarted, rfl, sound.trig, sound.channel, sound.pool⟩

/-- The second step of `PoolBox::drop`. -/
theorem Sound.releaseBox (sound : setup.Sound) {id : Nat} {slot : U8}
    (inside : setup.thread.frames.head? = some (.boxDrop id slot)) :
    ∃ next, Advances setup (.call (.releaseBox id slot)) next := by
  obtain ⟨rest, frames⟩ := List.head?_eq_some_iff.mp inside
  obtain ⟨free, holds⟩ := sound.pool id
  have drops : setup.thread.drops id = slot :: rest.filterMap (Frame.dropped id) := by
    simp [Thread.drops, frames, Frame.dropped]
  rw [drops] at holds
  have fits : slot.val < (setup.kernel.pool id).capacity := holds.inBounds (by simp)
  have ran : (Call.releaseBox id slot : Call V).run none setup.kernel = .ok (setup.kernel.setPool id
      { setup.kernel.pool id with
        next := Function.update (setup.kernel.pool id).next slot.val (setup.kernel.pool id).freeHead
        freeHead := slot }, {}) := by
    simp only [Call.run, Pool.release, sound.unstarted.noWaiter, Bool.not_true, Bool.false_eq_true,
      if_false, fits, if_true, Except.ok_bind]
  refine ⟨{ setup with
      kernel := setup.kernel.setPool id { setup.kernel.pool id with
        next := Function.update (setup.kernel.pool id).next slot.val (setup.kernel.pool id).freeHead
        freeHead := slot }
      thread := { setup.thread with pc := .user, trig := false, frames := rest } }, ?_, ?_, rfl⟩
  · simp only [Setup.perform, sound.unstarted.current, ran, Except.ok_bind]
    simp [Setup.returnFrom, Thread.after, Thread.framesAfter, Thread.guardsAfter, frames]
  · refine ⟨sound.unstarted.same rfl rfl rfl, rfl, rfl, sound.channel, fun other => ?_⟩
    by_cases same : other = id
    · subst same
      exact ⟨slot :: free, by simpa [Thread.drops] using holds.release⟩
    · obtain ⟨freeOther, holdsOther⟩ := sound.pool other
      have unchanged : setup.thread.drops other = rest.filterMap (Frame.dropped other) := by
        simp [Thread.drops, frames, Frame.dropped, Ne.symm same]
      rw [unchanged] at holdsOther
      exact ⟨freeOther, by simpa [Thread.drops, same] using holdsOther⟩

/-- The first step of `PoolBox::drop`. -/
theorem Sound.dropBox (sound : setup.Sound) {id : Nat} {slot : U8} (live : slot ∈ setup.boxes id) :
    ∃ next, Advances setup (.dropBox id slot) next := by
  obtain ⟨free, holds⟩ := sound.pool id
  have fits : slot.val < (setup.kernel.pool id).capacity := holds.inBounds (by simp [live])
  obtain ⟨value, stored⟩ := Option.ne_none_iff_exists'.mp (holds.stored slot live)
  refine ⟨{ setup.removeBox id slot with
      kernel := setup.kernel.setPool id { setup.kernel.pool id with
        nodes := Function.update (setup.kernel.pool id).nodes slot.val none }
      thread := { setup.thread with frames := .boxDrop id slot :: setup.thread.frames } }, ?_, ?_, rfl⟩
  · simp only [Setup.perform, Pool.destroy, fits, if_true, stored, Except.ok_bind]
  · refine ⟨sound.unstarted.same rfl rfl rfl, sound.user, sound.trig, sound.channel,
      fun other => ?_⟩
    by_cases same : other = id
    · subst same
      exact ⟨free, by simpa [Setup.removeBox, Thread.drops, Frame.dropped] using holds.destroy live⟩
    · simpa [Setup.removeBox, Thread.drops, Frame.dropped, same, Ne.symm same] using sound.pool other

/-- A live box has a value to overwrite. -/
theorem Sound.writeBox (sound : setup.Sound) {id : Nat} {slot : U8} (value : V)
    (live : slot ∈ setup.boxes id) : ∃ next, Advances setup (.writeBox id slot value) next := by
  obtain ⟨free, holds⟩ := sound.pool id
  have fits : slot.val < (setup.kernel.pool id).capacity := holds.inBounds (by simp [live])
  obtain ⟨old, stored⟩ := Option.ne_none_iff_exists'.mp (holds.stored slot live)
  refine ⟨{ setup with kernel := setup.kernel.setPool id { setup.kernel.pool id with
      nodes := Function.update (setup.kernel.pool id).nodes slot.val (some value) } }, ?_, ?_, rfl⟩
  · simp only [Setup.perform, Pool.write, fits, if_true, stored, Except.ok_bind]
  · refine ⟨sound.unstarted.same rfl rfl rfl, sound.user, sound.trig, sound.channel,
      fun other => ?_⟩
    by_cases same : other = id
    · subst same
      exact ⟨free, by simpa using holds.write value⟩
    · simpa [same] using sound.pool other

/-- A stack of 21 words has room for the first frame. -/
theorem Sound.spawn (sound : setup.Sound) {token : SpawnToken n} (room : 21 ≤ token.stackLen) :
    ∃ next, Advances setup (.spawn token) next := by
  obtain ⟨kernel, spawned, apart⟩ : ∃ kernel : Rtos n V, setup.kernel.spawnInto token = .ok kernel ∧
      Apart setup.kernel kernel := by
    unfold Kernel.spawnInto
    rw [if_neg (by omega)]
    exact ⟨_, rfl, ⟨rfl, rfl, rfl, rfl, rfl⟩⟩
  refine ⟨{ setup with kernel }, ?_,
    ⟨apart.unstarted sound.unstarted, sound.user, sound.trig, ?_, ?_⟩, rfl⟩
  · simp only [Setup.perform, spawned, Except.ok_bind]
  · rw [apart.channel]
    exact sound.channel
  · rw [apart.pool]
    exact sound.pool

/-- An action that need not wait returns, unless it goes through a null pointer. -/
theorem Sound.step (sound : setup.Sound) {action : SetupAction n V} (may : setup.may action = true)
    (safe : action.derefs = false) : ∃ next, Advances setup action next := by
  cases action with
  | spawn token => exact sound.spawn (of_decide_eq_true may)
  | dropBox id slot => exact sound.dropBox (List.contains_iff_mem.mp may)
  | writeBox id slot value => exact sound.writeBox value (List.contains_iff_mem.mp may)
  | call call =>
      simp only [Setup.may, Bool.and_eq_true] at may
      obtain ⟨enters, immediate⟩ := may
      have plain : (∃ kernel outcome, Returns setup call kernel outcome) →
          (∀ id, .pool id ∉ call.uses) → setup.thread.guardsAfter call = setup.thread.guards →
          (SetupAction.call call : SetupAction n V).asksFor = none →
          ∃ next, Advances setup (.call call) next := by
        rintro ⟨kernel, outcome, returns⟩ apart keeps asks
        exact sound.plain returns enters apart keeps asks
      cases call with
      | take id =>
          exact plain (sound.take (of_decide_eq_true immediate)) (by simp [Call.uses]) rfl rfl
      | tryTake id => exact plain (sound.tryTake id) (by simp [Call.uses]) rfl rfl
      | give id => exact plain (sound.give id) (by simp [Call.uses]) rfl rfl
      | notifyOne id => exact plain (sound.notifyOne id) (by simp [Call.uses]) rfl rfl
      | notifyAll id => exact plain (sound.notifyAll id) (by simp [Call.uses]) rfl rfl
      | set id mask => exact plain (sound.set id mask) (by simp [Call.uses]) rfl rfl
      | clear id mask => exact plain (sound.clear id mask) (by simp [Call.uses]) rfl rfl
      | waitAll id mask =>
          exact plain (sound.waitAll (of_decide_eq_true immediate)) (by simp [Call.uses]) rfl rfl
      | callOnce id =>
          exact plain (sound.callOnce (of_decide_eq_true immediate)) (by simp [Call.uses]) rfl rfl
      | finishOnce id => exact plain (sound.finishOnce id) (by simp [Call.uses]) rfl rfl
      | send id value =>
          exact plain (sound.send value (of_decide_eq_true immediate)) (by simp [Call.uses]) rfl rfl
      | trySend id value => exact plain (sound.trySend id value) (by simp [Call.uses]) rfl rfl
      | tryRecv id => exact plain (sound.tryRecv id) (by simp [Call.uses]) rfl rfl
      | recv id => exact sound.recv (of_decide_eq_true immediate)
      | lock id => exact sound.acquires id (.inl rfl)
      | tryLock id => exact sound.acquires id (.inr rfl)
      | alloc id value => exact sound.alloc id value
      | releaseBox id slot =>
          simp only [Thread.mayCall, Bool.and_eq_true, decide_eq_true_eq] at enters
          exact sound.releaseBox enters.2
      | dropGuard | waitAny | allocBlocking => cases safe
      | setFromIsr => cases enters
      | wait | yieldNow | sleep | sleepUntil | exit => cases immediate

/-- The statics begin sound. -/
theorem sound_start (config : Config n) : (Setup.start V (TcbPtr n) (TcbPtr n) config).Sound where
  unstarted := ⟨rfl, fun _ => rfl, fun _ => rfl⟩
  user := rfl
  trig := rfl
  channel _ := ⟨[], .empty _ _⟩
  pool id := by
    refine ⟨Pool.fresh (config.pool id), config.poolBound id, Pool.chain_new V (config.poolBound id),
      ?_, by simp [Setup.start]⟩
    simpa [Setup.start, Thread.drops, Config.reset, Pool.new] using
      Pool.coe_fresh (config.poolBound id)

/-- A sequence without the calls that go through a null pointer returns, with a guard for each
call for a mutex; with one of them it ends in the fault. -/
theorem Sound.run (sound : setup.Sound) {actions : List (SetupAction n V)}
    (noWait : Setup.performAll actions setup ≠ none) :
    ((∀ action ∈ actions, action.derefs = false) ∧ ∃ last : Setup n V (TcbPtr n) (TcbPtr n),
        Setup.performAll actions setup = some (.ok last) ∧ last.Sound ∧
        last.thread.guards = (actions.filterMap SetupAction.asksFor).reverse ++ setup.thread.guards) ∨
      (∃ action ∈ actions, action.derefs = true) ∧
        Setup.performAll actions setup = some (.error .nullPointer) := by
  induction actions generalizing setup with
  | nil => exact .inl ⟨by simp, setup, rfl, sound, rfl⟩
  | cons action rest ih =>
      have may : setup.may action = true := by
        by_contra refused
        simp [Setup.performAll, refused] at noWait
      cases derefs : action.derefs with
      | true =>
          refine .inr ⟨⟨action, List.mem_cons_self, derefs⟩, ?_⟩
          simp only [Setup.performAll, may, if_true, sound.faults derefs]
      | false =>
          obtain ⟨next, advances⟩ := sound.step may derefs
          have onward : Setup.performAll (action :: rest) setup = Setup.performAll rest next := by
            simp only [Setup.performAll, may, if_true, advances.performed]
          rw [onward] at noWait ⊢
          rcases ih advances.sound noWait with ⟨safe, last, ended, soundLast, guards⟩ | ⟨found, fault⟩
          · refine .inl ⟨by simpa [derefs] using safe, last, ended, soundLast, ?_⟩
            rw [guards, advances.guards]
            cases asks : action.asksFor <;> simp [asks]
          · obtain ⟨culprit, member, isDeref⟩ := found
            exact .inr ⟨⟨culprit, List.mem_cons_of_mem _ member, isDeref⟩, fault⟩

/-- A sequence that reaches a state has made no call through a null pointer. -/
theorem reached (config : Config n) {actions : List (SetupAction n V)}
    (ended : Setup.performAll actions (Setup.start V (TcbPtr n) (TcbPtr n) config) =
      some (.ok setup)) :
    setup.Sound ∧ setup.thread.guards = (actions.filterMap SetupAction.asksFor).reverse := by
  rcases (sound_start config).run (by simp [ended] : Setup.performAll actions _ ≠ none) with
    ⟨_, last, endedLast, sound, guards⟩ | ⟨_, fault⟩
  · obtain rfl : setup = last := Except.ok.inj (Option.some.inj (ended.symm.trans endedLast))
    exact ⟨sound, by simpa [Setup.start] using guards⟩
  · cases ended.symm.trans fault

/-- In `main`, before the kernel starts, no call goes through a null pointer and no mutex with a
live guard is taken again exactly when the sequence has no `wait_any`, no `alloc_blocking` and no
drop of a guard, and asks for no mutex twice. No mutex with a live guard would refuse, so a
sequence that is to leave none that does not must not take any. -/
theorem usable_before_start_iff (config : Config n) (actions : List (SetupAction n V))
    (noWait : Setup.performAll actions (Setup.start V (TcbPtr n) (TcbPtr n) config) ≠ none) :
    ((Setup.performAll actions (Setup.start V (TcbPtr n) (TcbPtr n) config) ≠
          some (.error .nullPointer) ∧
        ∀ before after (setup : Setup n V (TcbPtr n) (TcbPtr n)), before ++ after = actions →
          Setup.performAll before (Setup.start V (TcbPtr n) (TcbPtr n) config) = some (.ok setup) →
          setup.thread.guards.Nodup) ↔
      (∀ action ∈ actions, action.derefs = false) ∧
        (actions.filterMap SetupAction.asksFor).Nodup) ∧
    ((Setup.performAll actions (Setup.start V (TcbPtr n) (TcbPtr n) config) ≠
          some (.error .nullPointer) ∧
        ∀ before after (setup : Setup n V (TcbPtr n) (TcbPtr n)), before ++ after = actions →
          Setup.performAll before (Setup.start V (TcbPtr n) (TcbPtr n) config) = some (.ok setup) →
          ∀ id ∈ setup.thread.guards, (Mutex.tryLock setup.kernel id).2 = false) ↔
      ∀ action ∈ actions, action.derefs = false ∧ action.asksFor = none) := by
  have run := (sound_start config).run noWait
  constructor
  · constructor
    · rintro ⟨clean, apart⟩
      rcases run with ⟨safe, last, ended, _, _⟩ | ⟨_, fault⟩
      · have distinct := apart actions [] last (List.append_nil _) ended
        rw [(reached config ended).2, List.nodup_reverse] at distinct
        exact ⟨safe, distinct⟩
      · exact absurd fault clean
    · rintro ⟨safe, distinct⟩
      rcases run with ⟨_, last, ended, _, _⟩ | ⟨⟨action, member, derefs⟩, _⟩
      · refine ⟨by simp [ended], fun before after setup split ended' => ?_⟩
        rw [(reached config ended').2, List.nodup_reverse]
        rw [← split, List.filterMap_append] at distinct
        exact (List.nodup_append.mp distinct).1
      · cases (safe action member).symm.trans derefs
  · constructor
    · rintro ⟨clean, refuses⟩
      rcases run with ⟨safe, last, ended, sound, _⟩ | ⟨_, fault⟩
      · refine fun action member => ⟨safe action member, ?_⟩
        by_contra asks
        obtain ⟨id, isAsked⟩ := Option.ne_none_iff_exists'.mp asks
        have live : id ∈ last.thread.guards := by
          rw [(reached config ended).2, List.mem_reverse]
          exact List.mem_filterMap.mpr ⟨action, member, isAsked⟩
        have refused := refuses actions [] last (List.append_nil _) ended id live
        simp [Mutex.tryLock, sound.unstarted.owner] at refused
      · exact absurd fault clean
    · intro safe
      rcases run with ⟨_, last, ended, _, _⟩ | ⟨⟨action, member, derefs⟩, _⟩
      · refine ⟨by simp [ended], fun before after setup split ended' id live => ?_⟩
        rw [(reached config ended').2, List.mem_reverse] at live
        obtain ⟨action, member, asks⟩ := List.mem_filterMap.mp live
        rw [(safe action (split ▸ List.mem_append_left _ member)).2] at asks
        cases asks
      · cases (safe action member).1.symm.trans derefs

/-- `main` takes a mutex, gives and takes a semaphore, and sends a value to itself. -/
theorem usable_before_start_iff_lock : Setup.performAll
      [.call (.lock 0), .call (.give 0), .call (.take 0), .call (.send 0 ()), .call (.recv 0)]
      (Setup.start Unit (TcbPtr 4) (TcbPtr 4) (Config.small 10 20 30)) ≠ some (.error .nullPointer) := by
  have noWait : (Setup.performAll
      [.call (.lock 0), .call (.give 0), .call (.take 0), .call (.send 0 ()), .call (.recv 0)]
      (Setup.start Unit (TcbPtr 4) (TcbPtr 4) (Config.small 10 20 30))).isSome = true := by
    decide +kernel
  exact ((usable_before_start_iff (Config.small 10 20 30) _
    (Option.isSome_iff_ne_none.mp noWait)).1.mpr ⟨by decide, by decide⟩).1

/-- A guard that is dropped, a second acquisition, and two results read through `CURRENT`. -/
theorem not_usable_before_start :
    Setup.performAll [.call (.lock 0), .call (.dropGuard 0)]
      (Setup.start Unit (TcbPtr 4) (TcbPtr 4) (Config.small 10 20 30)) =
        some (.error .nullPointer) ∧
    (∃ setup, Setup.performAll [.call (.lock 0), .call (.tryLock 0)]
      (Setup.start Unit (TcbPtr 4) (TcbPtr 4) (Config.small 10 20 30)) = some (.ok setup) ∧
        setup.thread.guards = [0, 0]) ∧
    Setup.performAll [.call (.set 0 1), .call (.waitAny 0 1)]
      (Setup.start Unit (TcbPtr 4) (TcbPtr 4) (Config.small 10 20 30)) =
        some (.error .nullPointer) ∧
    Setup.performAll [.call (.allocBlocking 0 ())]
      (Setup.start Unit (TcbPtr 4) (TcbPtr 4) (Config.small 10 20 30)) =
        some (.error .nullPointer) :=
  ⟨rfl, ⟨_, rfl, rfl⟩, rfl, rfl⟩

end Setup

end Kangaroos
