import Kangaroos.Abstract.ChannelCalls
import Kangaroos.Abstract.Pools

/-!
# Operations and their non-blocking variants

`take`, `lock`, `send`, `recv` and `alloc_blocking` have variants that give up where they would
wait. Each variant is a copy of the same branches. In a running task the two do the same, or the
operation blocks its caller and the variant leaves the kernel as it was.
-/

namespace Kangaroos

namespace Spec

variable {n : Nat} {V : Type} {kernel after : Spec n V} {id : Nat} {task : Fin n} {value : V}

theorem blockAndPush_isBlocked (kernel : Spec n V) (list : WaitList) (task : Fin n) :
    ((kernel.blockAndPush list task).tcb task).state.isBlocked = true := by
  simp [blockAndPush]

/-- Both take a token that is there. -/
theorem take_variant (id : Nat) (isCurrent : kernel.current = some task) :
    (∃ statics, Semaphore.take kernel id = .ok (kernel.modifyStatics statics, false) ∧
      Semaphore.tryTake kernel id = (kernel.modifyStatics statics, true)) ∨
    Semaphore.take kernel id = .ok (kernel.blockAndPush (.semaphore id) task, true) ∧
      Semaphore.tryTake kernel id = (kernel, false) := by
  unfold Semaphore.take Semaphore.tryTake
  by_cases token : 0 < (kernel.semaphore id).count
  · simp only [if_pos token]
    exact .inl ⟨_, rfl, rfl⟩
  · rw [if_neg token, if_neg token, blockCurrent_eq isCurrent, Except.ok_bind]
    exact .inr ⟨rfl, rfl⟩

/-- Both become the owner of a mutex that has none. -/
theorem lock_variant (id : Nat) (isCurrent : kernel.current = some task) :
    (∃ statics, Mutex.lock kernel id = .ok (kernel.modifyStatics statics, false) ∧
      Mutex.tryLock kernel id = (kernel.modifyStatics statics, true)) ∨
    ∃ boosted : Spec n V, Mutex.lock kernel id = .ok (boosted.blockAndPush (.mutex id) task, true) ∧
      Mutex.tryLock kernel id = (kernel, false) := by
  unfold Mutex.lock Mutex.tryLock
  cases kernel.owner id with
  | none => exact .inl ⟨_, rfl, rfl⟩
  | some owner =>
      right
      simp only [isCurrent, deref_some, Except.ok_bind]
      split
      · exact ⟨_, by rw [blockCurrent_eq (by exact isCurrent)]; rfl, trivial⟩
      · exact ⟨_, by rw [blockCurrent_eq isCurrent]; rfl, trivial⟩

/-- What `try_send` returns tells what `send` does: they take the same branch. -/
theorem send_variant {pend sent : Bool} (isCurrent : kernel.current = some task)
    (tried : Channel.trySendImpl kernel id (some task) value = .ok (after, pend, sent)) :
    sent = true ∧ Channel.sendImpl kernel id (some task) value = .ok (after, pend, false) ∨
    sent = false ∧ pend = false ∧
      after = Channel.logRejected (Channel.logSent kernel id (some task) value) id (some task) value ∧
      Channel.sendImpl kernel id (some task) value =
        .ok (parkLocal (Channel.logSent kernel id (some task) value) (.channelSend id) task
          (some value), false, true) := by
  simp only [Channel.trySendImpl] at tried
  simp only [Channel.sendImpl]
  have current : (Channel.logSent kernel id (some task) value).current = some task := isCurrent
  split at tried
  · rename_i waits
    obtain ⟨⟨handed, flag⟩, hands, rest⟩ := Except.ok_of_bind tried
    cases rest
    refine .inl ⟨rfl, ?_⟩
    simp only [if_pos waits, hands, Except.ok_bind]
  · rename_i nobody
    split at tried
    · rename_i room
      obtain ⟨entered, enters, rest⟩ := Except.ok_of_bind tried
      cases rest
      refine .inl ⟨rfl, ?_⟩
      simp only [if_neg nobody, if_pos room, enters, Except.ok_bind]
    · rename_i full
      cases tried
      refine .inr ⟨rfl, rfl, rfl, ?_⟩
      simp only [if_neg nobody, if_neg full, current, deref_some, Except.ok_bind]
      rw [blockCurrent_eq (by exact current)]
      rfl

theorem popHighest_modifyStatics (kernel : Spec n V) (write : Statics n V → Statics n V)
    (list : WaitList) : popHighest (kernel.modifyStatics write) list =
      ((kernel.popHighest list).1.modifyStatics write, (kernel.popHighest list).2) := by
  have same : mostUrgent (kernel.modifyStatics write) (kernel.waitHead list) =
      kernel.mostUrgent (kernel.waitHead list) := rfl
  unfold popHighest
  rw [Kernel.modifyStatics_waitHead, same]
  cases kernel.mostUrgent (kernel.waitHead list) with
  | none => rfl
  | some task => rfl

/-- What a task that waits for nothing has in its local does not matter to a blocked sender. -/
theorem admitSender_setFrame (away : task ∉ kernel.waitHead (.channelSend id))
    (points : ∀ sender ∈ kernel.waitHead (.channelSend id),
      (kernel.tcb sender).waitPtr = .stack sender) (stored : Option V) :
    Simulates (fun result result' =>
        result.1 = result'.1.setFrame (some task) stored ∧ result.2 = result'.2)
      (Channel.admitSender (kernel.setFrame (some task) stored) id)
      (Channel.admitSender kernel id) := by
  have waiters : Kernel.noWaiter (kernel.setFrame (some task) stored) (.channelSend id) =
      kernel.noWaiter (.channelSend id) := rfl
  have pops : WaitOps.waitListPopHighest (kernel.setFrame (some task) stored) (.channelSend id) =
      .ok ((kernel.popHighest (.channelSend id)).1.setFrame (some task) stored,
        (kernel.popHighest (.channelSend id)).2) :=
    congrArg Except.ok (popHighest_modifyStatics kernel _ _)
  have pops' : WaitOps.waitListPopHighest kernel (.channelSend id) =
      .ok (kernel.popHighest (.channelSend id)) := rfl
  unfold Channel.admitSender
  rw [waiters]
  split
  · rw [pops, pops']
    rcases popHighest_cases kernel (.channelSend id) with ⟨_, nobody⟩ | ⟨sender, member, found, _⟩
    · rw [nobody]
      exact rfl
    · obtain ⟨popped, isPopped⟩ : ∃ popped, popped = kernel.remove (.channelSend id) sender :=
        ⟨_, rfl⟩
      rw [found, ← isPopped]
      have different : sender ≠ task := by
        rintro rfl
        exact away member
      have src : popped.waitFrame sender = .ok sender := by
        rw [isPopped]
        exact waitFrame_eq (points sender member)
      have src' : (popped.setFrame (some task) stored).waitFrame sender = .ok sender := src
      have same : (popped.setFrame (some task) stored).frame (some sender) =
          popped.frame (some sender) := by
        simp [different]
      simp only [Except.ok_bind, deref_some, src, src', same]
      cases popped.frame (some sender) with
      | none => exact rfl
      | some value =>
          simp only [Channel.enqueue, Kernel.modifyStatics_toStatics]
          cases Channel.bufWrite (popped.channel id) (some sender) value with
          | error fault => exact rfl
          | ok inner =>
              simp only [Except.ok_bind, Kernel.unblock, Kernel.modifyTcb_toStatics,
                Kernel.modifyStatics_toStatics]
              cases popped.current with
              | none => exact rfl
              | some current => exact ⟨rfl, rfl⟩
  · exact ⟨rfl, rfl⟩

/-- A freed cell is filled again or not, without a fault. -/
theorem Flows.admits {flight : TcbPtr n → Option V} {contents : List V}
    (flows : Flows kernel id flight contents) (launched : kernel.current ≠ none)
    (occupied : 0 < (kernel.channel id).count) (who : TcbPtr n) (value : V) :
    ∃ same pend, Channel.admitSender (kernel.fetch id who value) id = .ok (same, pend) := by
  by_cases waiting : kernel.waitHead (.channelSend id) = []
  · have nobody : Kernel.noWaiter (kernel.fetch id who value) (.channelSend id) = true :=
      noWaiter_iff.mpr waiting
    exact ⟨kernel.fetch id who value, false, by simp [Channel.admitSender, nobody]⟩
  · have room : 0 < (kernel.channel id).capacity := occupied.trans_le flows.carries.ring.bounded
    have inside : ((kernel.fetch id who value).channel id).tail <
        ((kernel.fetch id who value).channel id).capacity := by
      simpa [fetch] using flows.carries.ring.tail_lt room
    have senders : (kernel.fetch id who value).waitHead (.channelSend id) ≠ [] := waiting
    obtain ⟨sender, _, stored, _, pend, admits⟩ :=
      admitSender_eq senders launched inside flows.carries.sender
    exact ⟨_, _, admits⟩

/-- `recv` leaves the value in a local where `try_recv` returns it. -/
theorem Flows.recv_variant {flight : TcbPtr n → Option V} {contents : List V}
    (wf : WellFormed kernel none) (flows : Flows kernel id flight contents)
    (isCurrent : kernel.current = some task)
    (running : (kernel.tcb task).state.isRunning = true) :
    (∃ (same : Spec n V) (received : V) (pend : Bool),
      Channel.recvImpl kernel id = .ok (same.setFrame (some task) (some received), pend, false) ∧
      Channel.tryRecvImpl kernel id (some task) =
        .ok (Channel.logReturned same id (some task) received, pend, some received)) ∨
    Channel.recvImpl kernel id = .ok (kernel.parkLocal (.channelRecv id) task none, false, true) ∧
      Channel.tryRecvImpl kernel id (some task) = .ok (kernel, false, none) := by
  unfold Channel.recvImpl Channel.tryRecvImpl
  by_cases occupied : 0 < (kernel.channel id).count
  · left
    obtain ⟨received, first, inside⟩ : ∃ received,
        (kernel.channel id).buf (kernel.channel id).head = some received ∧
        (kernel.channel id).head < (kernel.channel id).capacity := by
      match contents, flows with
      | [], flows => exact absurd flows.carries.ring.length occupied.ne
      | received :: rest, flows =>
          exact ⟨received, flows.carries.ring.front.2, flows.carries.ring.front.1⟩
    obtain ⟨same, pend, admits⟩ := flows.admits (by simp [isCurrent]) occupied (some task) received
    have notSender : task ∉ (kernel.fetch id (some task) received).waitHead (.channelSend id) :=
      wf.not_mem_of_running running
    have points : ∀ sender ∈ (kernel.fetch id (some task) received).waitHead (.channelSend id),
        ((kernel.fetch id (some task) received).tcb sender).waitPtr = .stack sender :=
      fun sender member => (flows.carries.sender sender member).1
    obtain ⟨⟨stored, pend'⟩, admitsToo, isStored, samePend⟩ :=
      (admitSender_setFrame notSender points (some received)).of_ok_right admits
    obtain rfl : stored = same.setFrame (some task) (some received) := isStored
    obtain rfl : pend' = pend := samePend
    have current : (kernel.fetch id (some task) received).current = some task := isCurrent
    refine ⟨same, received, pend', ?_, ?_⟩
    · rw [if_pos occupied, isCurrent, dequeue_eq inside first]
      simp only [Except.ok_bind, current, admitsToo]
    · rw [if_pos occupied, dequeue_eq inside first]
      simp only [Except.ok_bind, admits]
  · right
    rw [if_neg occupied, if_neg occupied, isCurrent]
    simp only [deref_some, Except.ok_bind]
    rw [blockCurrent_eq (by exact isCurrent)]
    exact ⟨rfl, trivial⟩

/-- Both take the first free slot. -/
theorem Stocked.alloc_variant {free : List U8} (stocked : Stocked kernel id free)
    (inBounds : ∀ slot ∈ free, slot.val < (kernel.pool id).capacity)
    (isCurrent : kernel.current = some task) (value : V) :
    (∃ slot, Pool.allocBlocking kernel id value = .ok (kernel.grantTo id slot value task, false) ∧
      Pool.alloc kernel id value = .ok (kernel.grant id slot value, some slot)) ∨
    Pool.allocBlocking kernel id value =
        .ok (kernel.parkLocal (.pool id) task (some value), true) ∧
      Pool.alloc kernel id value = .ok (kernel, none) := by
  cases free with
  | nil => exact .inr ⟨stocked.allocBlocking_nil isCurrent value, stocked.alloc_nil value⟩
  | cons slot rest =>
      have fits := inBounds slot List.mem_cons_self
      exact .inl ⟨slot, stocked.allocBlocking_cons fits isCurrent value,
        stocked.alloc_cons fits value⟩

/-- A section that may run in an interrupt handler leaves the running task as it is. -/
theorem Sound.state_eq {scope : Prim → Prop} {on : WaitList → Prop} {result : Spec n V × Bool}
    (sound : Sound scope on none kernel result)
    (running : (kernel.tcb task).state.isRunning = true) :
    (result.1.tcb task).state = (kernel.tcb task).state := by
  refine sound.2.state_of_not_blocked (by simp) fun list blocked => ?_
  rw [blocked] at running
  cases running

/-- Nobody calls from an interrupt handler. -/
theorem callerRuns_none (kernel : Spec n V) : CallerRuns none kernel := by
  rintro caller ⟨⟩

end Spec

namespace Call

variable {n : Nat} {V : Type} {kernel : Spec n V} {task : Fin n}

/-- The variant of an operation that gives up where the operation waits. -/
def variant : Call V → Option (Call V)
  | take id => some (tryTake id)
  | lock id => some (tryLock id)
  | send id value => some (trySend id value)
  | recv id => some (tryRecv id)
  | allocBlocking id value => some (alloc id value)
  | _ => none

/-- An operation blocks its caller and its variant asks for no switch, or the caller runs on
and the two ask for the same. -/
def AgreesWith (call variant : Call V) (kernel : Spec n V) (task : Fin n) : Prop :=
  ∃ after outcome after' outcome', call.run (some task) kernel = .ok (after, outcome) ∧
    variant.run (some task) kernel = .ok (after', outcome') ∧
    outcome.inside = false ∧ outcome'.inside = false ∧
    ((after.tcb task).state.isBlocked = true ∧ outcome.pend = true ∧ outcome'.pend = false ∨
      (after.tcb task).state = (kernel.tcb task).state ∧ outcome'.pend = outcome.pend)

/-- The caller waits. -/
theorem AgreesWith.of_blocks {call variant : Call V} {parked after : Spec n V} {list : WaitList}
    {pc : Pc} (runs : call.run (some task) kernel =
      .ok (parked.blockAndPush list task, { pend := true, pc }))
    (gives : variant.run (some task) kernel = .ok (after, {})) :
    call.AgreesWith variant kernel task :=
  ⟨_, _, _, _, runs, gives, rfl, rfl, .inl ⟨Spec.blockAndPush_isBlocked _ _ _, rfl, rfl⟩⟩

/-- Where every channel flows and every pool is stocked, all five do. -/
theorem agreesWith_variant {call variant : Call V} (isVariant : call.variant = some variant)
    (wf : Spec.WellFormed kernel none) (isCurrent : kernel.current = some task)
    (running : (kernel.tcb task).state.isRunning = true)
    (flows : ∀ id, ∃ flight contents, Spec.Flows kernel id flight contents)
    (stocked : ∀ id, ∃ free, Spec.Stocked kernel id free ∧
      ∀ slot ∈ free, slot.val < (kernel.pool id).capacity) :
    call.AgreesWith variant kernel task := by
  cases call with
  | take id =>
      cases isVariant
      rcases Spec.take_variant id isCurrent with ⟨write, takes, tries⟩ | ⟨takes, tries⟩
      · have runs : (take id).run (some task) kernel =
            .ok (kernel.modifyStatics write, { pc := .takeRet id }) := by rw [run, takes]; rfl
        have gives : (tryTake id).run (some task) kernel = .ok (kernel.modifyStatics write, {}) := by
          rw [run, tries]
        exact ⟨_, _, _, _, runs, gives, rfl, rfl, .inr ⟨rfl, rfl⟩⟩
      · have runs : (take id).run (some task) kernel =
            .ok (kernel.blockAndPush (.semaphore id) task, { pend := true, pc := .takeRet id }) := by
          rw [run, takes]
          rfl
        have gives : (tryTake id).run (some task) kernel = .ok (kernel, {}) := by rw [run, tries]
        exact .of_blocks runs gives
  | lock id =>
      cases isVariant
      rcases Spec.lock_variant id isCurrent with
        ⟨write, locks, tries⟩ | ⟨boosted, locks, tries⟩
      · have runs : (lock id).run (some task) kernel =
            .ok (kernel.modifyStatics write, { pc := .lockRet id }) := by rw [run, locks]; rfl
        have gives : (tryLock id).run (some task) kernel =
            .ok (kernel.modifyStatics write, { pc := .lockRet id }) := by rw [run, tries]; rfl
        exact ⟨_, _, _, _, runs, gives, rfl, rfl, .inr ⟨rfl, rfl⟩⟩
      · have runs : (lock id).run (some task) kernel =
            .ok (boosted.blockAndPush (.mutex id) task, { pend := true, pc := .lockRet id }) := by
          rw [run, locks]
          rfl
        have gives : (tryLock id).run (some task) kernel = .ok (kernel, {}) := by
          rw [run, tries]
          rfl
        exact .of_blocks runs gives
  | send id value =>
      cases isVariant
      obtain ⟨flight, contents, flows⟩ := flows id
      obtain ⟨after, pend, sent, tries, _⟩ := flows.trySendImpl wf
        (fun list other member same =>
          wf.not_mem_of_running running (Option.some.inj same ▸ member))
        (fun _ _ => by simp [isCurrent]) value
      have gives : (trySend id value).run (some task) kernel = .ok (after, { pend }) := by
        rw [run, tries]
        rfl
      rcases Spec.send_variant isCurrent tries with ⟨_, sends⟩ | ⟨_, rfl, _, sends⟩
      · have runs : (send id value).run (some task) kernel =
            .ok (after, { pend := pend || false, pc := .sendRet id }) := by rw [run, sends]; rfl
        have sound : Spec.Sound (fun _ => True) (fun _ => True) none kernel (after, pend) :=
          (Spec.trySendImpl_sound wf (Spec.callerRuns_none kernel) trivial).of_ok tries
        exact ⟨_, _, _, _, runs, gives, rfl, rfl, .inr ⟨sound.state_eq running, by simp⟩⟩
      · have runs : (send id value).run (some task) kernel =
            .ok (Spec.parkLocal (Channel.logSent kernel id (some task) value) (.channelSend id) task
              (some value), { pend := true, pc := .sendRet id }) := by rw [run, sends]; rfl
        exact .of_blocks runs gives
  | recv id =>
      cases isVariant
      obtain ⟨flight, contents, flows⟩ := flows id
      rcases flows.recv_variant wf isCurrent running with
        ⟨same, received, pend, receives, tries⟩ | ⟨receives, tries⟩
      · have runs : (recv id).run (some task) kernel =
            .ok (same.setFrame (some task) (some received),
              { pend := pend || false, pc := .recvRet id }) := by
          rw [run, receives]
          rfl
        have gives : (tryRecv id).run (some task) kernel =
            .ok (Channel.logReturned same id (some task) received, { pend }) := by
          rw [run, tries]
          rfl
        have sound : Spec.Sound (fun _ => True) (fun _ => True) none kernel
            (Channel.logReturned same id (some task) received, pend) :=
          (Spec.tryRecvImpl_sound wf (Spec.callerRuns_none kernel) trivial).of_ok tries
        have kept : (same.tcb task).state = (kernel.tcb task).state := sound.state_eq running
        exact ⟨_, _, _, _, runs, gives, rfl, rfl, .inr ⟨kept, by simp⟩⟩
      · have runs : (recv id).run (some task) kernel =
            .ok (kernel.parkLocal (.channelRecv id) task none,
              { pend := true, pc := .recvRet id }) := by
          rw [run, receives]
          rfl
        have gives : (tryRecv id).run (some task) kernel = .ok (kernel, {}) := by
          rw [run, tries]
          rfl
        exact .of_blocks runs gives
  | allocBlocking id value =>
      cases isVariant
      obtain ⟨free, stocked, inBounds⟩ := stocked id
      rcases stocked.alloc_variant inBounds isCurrent value with
        ⟨slot, allocates, tries⟩ | ⟨allocates, tries⟩
      · have runs : (allocBlocking id value).run (some task) kernel =
            .ok (kernel.grantTo id slot value task, { pc := .allocBlockingRet id }) := by
          rw [run, allocates]
          rfl
        have gives : (alloc id value).run (some task) kernel =
            .ok (kernel.grant id slot value, { pc := .allocRet id slot }) := by rw [run, tries]; rfl
        exact ⟨_, _, _, _, runs, gives, rfl, rfl, .inr ⟨by simp [Spec.grantTo, Spec.grant], rfl⟩⟩
      · have runs : (allocBlocking id value).run (some task) kernel =
            .ok (kernel.parkLocal (.pool id) task (some value),
              { pend := true, pc := .allocBlockingRet id }) := by
          rw [run, allocates]
          rfl
        have gives : (alloc id value).run (some task) kernel = .ok (kernel, {}) := by
          rw [run, tries]
          rfl
        exact .of_blocks runs gives
  | _ => cases isVariant

end Call

end Kangaroos
