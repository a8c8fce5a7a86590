import Kangaroos.Abstract.Variants
import Kangaroos.Proofs.ChannelFifo
import Kangaroos.Proofs.PoolOwnership

/-!
# Non-blocking variants

An operation that need not wait and its variant leave the same kernel behind: an abstract state
stands for one state of the code, so it is enough that the two agree there.
-/

namespace Kangaroos

namespace Channel

variable {n : Nat} {V Link Head : Type}

/-- A rejected value is in two books, and nowhere else. -/
theorem logRejected_logSent (kernel : Kernel n V Link Head) (id : Nat) (who : TcbPtr n)
    (value : V) : logRejected (logSent kernel id who value) id who value =
      kernel.setChannel id { kernel.channel id with
        sent := (kernel.channel id).sent ++ [(who, value)]
        rejected := (kernel.channel id).rejected ++ [(who, value)] } := by
  simp [logRejected, logSent, Kernel.modifyStatics]

end Channel

namespace Rep

variable {n : Nat} {V : Type} {kernel after : Rtos n V} {spec : Spec n V} {task : Fin n} {id : Nat}
  {value : V}

/-- `CURRENT` runs if it is a task that does. -/
theorem currentRuns (isCurrent : spec.current = some task)
    (runs : (spec.tcb task).state.isRunning = true) : CurrentRuns spec := by
  intro current isCurrent'
  obtain rfl : task = current := Option.some.inj (isCurrent.symm.trans isCurrent')
  exact runs

/-- A task that has been parked is blocked. -/
theorem isBlocked_of_parked {parked : Spec n V} {list : WaitList}
    (rep : Rep none after (parked.blockAndPush list task)) :
    true = (after.tcb task).state.isBlocked := by
  rw [rep.isBlocked, Spec.blockAndPush_isBlocked]

/-- A task that runs on is not. -/
theorem not_isBlocked_of_same {same : Spec n V} (rep : Rep none after same)
    (kept : (same.tcb task).state = (spec.tcb task).state)
    (runs : (spec.tcb task).state.isRunning = true) : false = (after.tcb task).state.isBlocked := by
  rw [rep.isBlocked, kept, SpecMachine.not_blocked_of_running runs]

section Agreement

variable (rep : Rep none kernel spec) (isCurrent : spec.current = some task)
  (runs : (spec.tcb task).state.isRunning = true)

include rep isCurrent runs

/-- `take` returns with what `try_take` leaves behind, or blocks where `try_take` fails. -/
theorem take_agrees : ∃ after block, Semaphore.take kernel id = .ok (after, block) ∧
    block = (after.tcb task).state.isBlocked ∧
    Semaphore.tryTake kernel id = if block then (kernel, false) else (after, true) := by
  have running := currentRuns isCurrent runs
  have alike : Alike (Semaphore.tryTake kernel id) (Semaphore.tryTake spec id) := rep.tryTake
  rcases Spec.take_variant id isCurrent with ⟨write, takes, tries⟩ | ⟨takes, tries⟩
  · obtain ⟨⟨after, block⟩, returned, related, rfl⟩ := (rep.take running).of_ok_right takes
    rw [tries] at alike
    exact ⟨after, _, returned, related.not_isBlocked_of_same rfl runs,
      alike.unique ⟨related, rfl⟩⟩
  · obtain ⟨⟨after, block⟩, returned, related, rfl⟩ := (rep.take running).of_ok_right takes
    rw [tries] at alike
    exact ⟨after, _, returned, related.isBlocked_of_parked, alike.unique ⟨rep, rfl⟩⟩

/-- `lock` returns with what `try_lock` leaves behind, or blocks where `try_lock` fails. -/
theorem lock_agrees : ∃ after block, Mutex.lock kernel id = .ok (after, block) ∧
    block = (after.tcb task).state.isBlocked ∧
    Mutex.tryLock kernel id = if block then (kernel, false) else (after, true) := by
  have running := currentRuns isCurrent runs
  have alike : Alike (Mutex.tryLock kernel id) (Mutex.tryLock spec id) := rep.tryLock
  rcases Spec.lock_variant id isCurrent with ⟨write, locks, tries⟩ | ⟨boosted, locks, tries⟩
  · obtain ⟨⟨after, block⟩, returned, related, rfl⟩ := (rep.lock running).of_ok_right locks
    rw [tries] at alike
    exact ⟨after, _, returned, related.not_isBlocked_of_same rfl runs,
      alike.unique ⟨related, rfl⟩⟩
  · obtain ⟨⟨after, block⟩, returned, related, rfl⟩ := (rep.lock running).of_ok_right locks
    rw [tries] at alike
    exact ⟨after, _, returned, related.isBlocked_of_parked, alike.unique ⟨rep, rfl⟩⟩

/-- `send` returns with what `try_send` leaves behind, or blocks where `try_send` rejects the value.
-/
theorem send_agrees {flight : TcbPtr n → Option V} {contents : List V}
    (flows : Spec.Flows spec id flight contents) :
    ∃ after pend block, Channel.sendImpl kernel id (some task) value = .ok (after, pend, block) ∧
      block = (after.tcb task).state.isBlocked ∧
      (block = false → Channel.trySendImpl kernel id (some task) value = .ok (after, pend, true)) ∧
      (block = true → Channel.trySendImpl kernel id (some task) value =
        .ok (kernel.setChannel id { kernel.channel id with
          sent := (kernel.channel id).sent ++ [(some task, value)]
          rejected := (kernel.channel id).rejected ++ [(some task, value)] }, false, false)) := by
  have running := currentRuns isCurrent runs
  obtain ⟨tried, pend, sent, tries, _⟩ := flows.trySendImpl rep.wf
    (fun list other member same =>
      rep.wf.not_mem_of_running runs (Option.some.inj same ▸ member))
    (fun _ _ => by simp [isCurrent]) value
  obtain ⟨⟨tried', flags⟩, triesToo, tried_alike, rfl⟩ := rep.trySendImpl.of_ok_right tries
  rcases Spec.send_variant isCurrent tries with ⟨rfl, sends⟩ | ⟨rfl, rfl, rfl, sends⟩
  · obtain ⟨⟨after, flags⟩, returned, related, rfl⟩ := (rep.sendImpl running).of_ok_right sends
    obtain rfl := related.unique tried_alike
    have sound : Spec.Sound (fun _ => True) (fun _ => True) none spec (tried, pend) :=
      (Spec.trySendImpl_sound rep.wf (Spec.callerRuns_none spec) trivial).of_ok tries
    exact ⟨after, pend, false, returned, related.not_isBlocked_of_same (sound.state_eq runs) runs,
      fun _ => triesToo, by simp⟩
  · obtain ⟨⟨after, flags⟩, returned, related, rfl⟩ := (rep.sendImpl running).of_ok_right sends
    have rejected : Rep none
        (Channel.logRejected (Channel.logSent kernel id (some task) value) id (some task) value)
        (Channel.logRejected (Channel.logSent spec id (some task) value) id (some task) value) :=
      rep.logSent.logRejected
    obtain rfl := tried_alike.unique rejected
    refine ⟨after, false, true, returned, related.isBlocked_of_parked, by simp, fun _ => ?_⟩
    rw [triesToo, Channel.logRejected_logSent]

/-- `recv` returns with what `try_recv` leaves behind, but for its own frame, or blocks where
`try_recv` returns nothing. -/
theorem recv_agrees {flight : TcbPtr n → Option V} {contents : List V}
    (flows : Spec.Flows spec id flight contents) :
    ∃ after pend block, Channel.recvImpl kernel id = .ok (after, pend, block) ∧
      block = (after.tcb task).state.isBlocked ∧
      (block = false → ∃ same received, after = same.setFrame (some task) (some received) ∧
        Channel.tryRecvImpl kernel id (some task) =
          .ok (Channel.logReturned same id (some task) received, pend, some received)) ∧
      (block = true → Channel.tryRecvImpl kernel id (some task) = .ok (kernel, false, none)) := by
  have running := currentRuns isCurrent runs
  rcases flows.recv_variant rep.wf isCurrent runs with
    ⟨same, received, pend, receives, tries⟩ | ⟨receives, tries⟩
  · obtain ⟨⟨after, flags⟩, returned, related, rfl⟩ := (rep.recvImpl running).of_ok_right receives
    obtain ⟨⟨tried, flags⟩, triesToo, tried_alike, rfl⟩ := rep.tryRecvImpl.of_ok_right tries
    have sound : Spec.Sound (fun _ => True) (fun _ => True) none spec
        (Channel.logReturned same id (some task) received, pend) :=
      (Spec.tryRecvImpl_sound rep.wf (Spec.callerRuns_none spec) trivial).of_ok tries
    have kept : (same.tcb task).state = (spec.tcb task).state := sound.state_eq runs
    -- the state they share: the local is as it was
    obtain ⟨shared, isShared⟩ : ∃ shared, shared =
      after.setFrame (some task) (same.frame (some task)) := ⟨_, rfl⟩
    have restored : Rep none shared
        (Kernel.setFrame (same.setFrame (some task) (some received)) (some task)
          (same.frame (some task))) := by
      rw [isShared]
      exact related.modifyStatics _
    have undone : Kernel.setFrame (same.setFrame (some task) (some received)) (some task)
        (same.frame (some task)) = same := by
      simp [Kernel.modifyStatics]
    rw [undone] at restored
    have stored : Rep none (shared.setFrame (some task) (some received))
        (same.setFrame (some task) (some received)) := restored.modifyStatics _
    obtain rfl := tried_alike.unique restored.logReturned
    exact ⟨after, pend, false, returned, related.not_isBlocked_of_same kept runs,
      fun _ => ⟨shared, received, related.unique stored, triesToo⟩, by simp⟩
  · obtain ⟨⟨after, flags⟩, returned, related, rfl⟩ := (rep.recvImpl running).of_ok_right receives
    obtain ⟨⟨tried, flags⟩, triesToo, tried_alike, rfl⟩ := rep.tryRecvImpl.of_ok_right tries
    obtain rfl := tried_alike.unique rep
    exact ⟨after, false, true, returned, related.isBlocked_of_parked, by simp, fun _ => triesToo⟩

/-- `alloc_blocking` returns with the slot of `alloc`, but for its `wait_ptr`, or blocks where
`alloc` returns nothing. -/
theorem alloc_agrees {free : List U8} (stocked : Spec.Stocked spec id free)
    (inBounds : ∀ slot ∈ free, slot.val < (spec.pool id).capacity) :
    ∃ after block, Pool.allocBlocking kernel id value = .ok (after, block) ∧
      block = (after.tcb task).state.isBlocked ∧
      (block = false → ∃ same slot, after =
          same.setWaitPtr task (.word (BitVec.ofNat 32 slot.val)) ∧
        Pool.assignedSlot after task = .ok slot ∧
        Pool.alloc kernel id value = .ok (same, some slot) ∧
        Pool.allocDrops value (some slot) = none) ∧
      (block = true → Pool.alloc kernel id value = .ok (kernel, none) ∧
        Pool.allocDrops value none = some value) := by
  have running := currentRuns isCurrent runs
  rcases stocked.alloc_variant inBounds isCurrent value with
    ⟨slot, allocates, tries⟩ | ⟨allocates, tries⟩
  · obtain ⟨⟨after, flag⟩, returned, related, rfl⟩ :=
      (rep.allocBlocking running).of_ok_right allocates
    obtain ⟨⟨same, found⟩, triesToo, tried_alike, rfl⟩ := rep.alloc.of_ok_right tries
    have pointed : Rep none (same.setWaitPtr task (.word (BitVec.ofNat 32 slot.val)))
        (spec.grantTo id slot value task) := tried_alike.setWaitPtr (by simp)
    obtain rfl := related.unique pointed
    refine ⟨_, false, returned, related.not_isBlocked_of_same ?_ runs, fun _ => ?_, by simp⟩
    · simp [Spec.grantTo, Spec.grant]
    · refine ⟨same, slot, rfl, ?_, triesToo, rfl⟩
      rw [Pool.assignedSlot, related.waitWord_eq]
      exact Spec.assignedSlot_eq (by simp [Spec.grantTo])
  · obtain ⟨⟨after, flag⟩, returned, related, rfl⟩ :=
      (rep.allocBlocking running).of_ok_right allocates
    obtain ⟨⟨same, found⟩, triesToo, tried_alike, rfl⟩ := rep.alloc.of_ok_right tries
    obtain rfl := tried_alike.unique rep
    exact ⟨after, true, returned, related.isBlocked_of_parked, by simp, fun _ => ⟨triesToo, rfl⟩⟩

end Agreement

end Rep

namespace RepMachine

variable {n : Nat} {V : Type} {config : Config n} {machine : RtosMachine n V} {task : Fin n}

/-- In every reachable state with a running task, `take`, `lock`, `send`, `recv` and
`alloc_blocking` return; each either blocks the task, and then its variant fails, leaves the
kernel as it was and drops the value it was given once, or does not, and then its variant
succeeds with the same result in the same kernel. `recv` has its value in a local and
`alloc_blocking` its slot in the `wait_ptr` of the task; `sent` and `rejected` are books. In both
cases the variant asks for a switch just when the operation does so without blocking. -/
theorem variants_agree (reachable : (system config V).Reachable machine)
    (isCurrent : machine.kernel.current = some task)
    (runs : (machine.kernel.tcb task).state.isRunning = true) (id : Nat) (value : V) :
    let kernel := machine.kernel
    (∃ after block, Semaphore.take kernel id = .ok (after, block) ∧
      block = (after.tcb task).state.isBlocked ∧
      Semaphore.tryTake kernel id = if block then (kernel, false) else (after, true)) ∧
    (∃ after block, Mutex.lock kernel id = .ok (after, block) ∧
      block = (after.tcb task).state.isBlocked ∧
      Mutex.tryLock kernel id = if block then (kernel, false) else (after, true)) ∧
    (∃ after pend block, Channel.sendImpl kernel id (some task) value = .ok (after, pend, block) ∧
      block = (after.tcb task).state.isBlocked ∧
      (block = false → Channel.trySendImpl kernel id (some task) value = .ok (after, pend, true)) ∧
      (block = true → Channel.trySendImpl kernel id (some task) value =
        .ok (kernel.setChannel id { kernel.channel id with
          sent := (kernel.channel id).sent ++ [(some task, value)]
          rejected := (kernel.channel id).rejected ++ [(some task, value)] }, false, false))) ∧
    (∃ after pend block, Channel.recvImpl kernel id = .ok (after, pend, block) ∧
      block = (after.tcb task).state.isBlocked ∧
      (block = false → ∃ same received, after = same.setFrame (some task) (some received) ∧
        Channel.tryRecvImpl kernel id (some task) =
          .ok (Channel.logReturned same id (some task) received, pend, some received)) ∧
      (block = true → Channel.tryRecvImpl kernel id (some task) = .ok (kernel, false, none))) ∧
    (∃ after block, Pool.allocBlocking kernel id value = .ok (after, block) ∧
      block = (after.tcb task).state.isBlocked ∧
      (block = false → ∃ same slot, after =
          same.setWaitPtr task (.word (BitVec.ofNat 32 slot.val)) ∧
        Pool.assignedSlot after task = .ok slot ∧
        Pool.alloc kernel id value = .ok (same, some slot) ∧
        Pool.allocDrops value (some slot) = none) ∧
      (block = true → Pool.alloc kernel id value = .ok (kernel, none) ∧
        Pool.allocDrops value none = some value)) ∧
    ∀ call variant : Call V, call.variant = some variant → ∃ after outcome after' outcome',
      call.run (some task) kernel = .ok (after, outcome) ∧
      variant.run (some task) kernel = .ok (after', outcome') ∧
      outcome.inside = false ∧ outcome'.inside = false ∧
      outcome'.pend = (outcome.pend && !(after.tcb task).state.isBlocked) := by
  intro kernel
  obtain ⟨spec, reach, rep⟩ := exists_spec reachable
  have wf := (SpecMachine.core_of_reachable reach).wf
  have isCurrentSpec : spec.kernel.current = some task := by rw [← isCurrent, rep.kernel.statics]
  have runsSpec : (spec.kernel.tcb task).state.isRunning = true := by
    rw [← rep.kernel.isRunning, runs]
  have flows : ∀ id, ∃ flight contents, Spec.Flows spec.kernel id flight contents := by
    intro id
    obtain ⟨flight, contents, flowing⟩ := SpecMachine.flowing_of_reachable reach id
    exact ⟨flight, contents, flowing.flows⟩
  have stocked : ∀ id, ∃ free, Spec.Stocked spec.kernel id free ∧
      ∀ slot ∈ free, slot.val < (spec.kernel.pool id).capacity := by
    intro id
    obtain ⟨free, pooled⟩ := SpecMachine.pooled_of_reachable reach id
    exact ⟨free, pooled.stocked, fun slot => pooled.free_inBounds⟩
  refine ⟨rep.kernel.take_agrees isCurrentSpec runsSpec,
    rep.kernel.lock_agrees isCurrentSpec runsSpec, ?_, ?_, ?_, ?_⟩
  · obtain ⟨_, _, flows⟩ := flows id
    exact rep.kernel.send_agrees isCurrentSpec runsSpec flows
  · obtain ⟨_, _, flows⟩ := flows id
    exact rep.kernel.recv_agrees isCurrentSpec runsSpec flows
  · obtain ⟨_, stocked, inBounds⟩ := stocked id
    exact rep.kernel.alloc_agrees isCurrentSpec runsSpec stocked inBounds
  · intro call variant isVariant
    have running := Rep.currentRuns isCurrentSpec runsSpec
    obtain ⟨_, outcome, _, outcome', ran, tried, inside, inside', pends⟩ :=
      Call.agreesWith_variant isVariant wf isCurrentSpec runsSpec flows stocked
    obtain ⟨⟨after, _⟩, returned, related, rfl⟩ :=
      (rep.kernel.run call (.inr running)).of_ok_right ran
    obtain ⟨⟨after', _⟩, returned', _, rfl⟩ :=
      (rep.kernel.run variant (.inr running)).of_ok_right tried
    refine ⟨after, _, after', _, returned, returned', inside, inside', ?_⟩
    rw [related.isBlocked]
    rcases pends with ⟨blocked, pend, pend'⟩ | ⟨kept, same⟩
    · rw [blocked, pend, pend']
      rfl
    · rw [kept, same, SpecMachine.not_blocked_of_running runsSpec]
      simp

/-- Task 3 runs after the launch, and a buffer of one cell has room for its value. -/
theorem variants_agree_launched : ∃ machine : RtosMachine 4 Nat,
    (system (.small 10 10 10) Nat).Reachable machine ∧ machine.kernel.current = some 3 ∧
    ∃ after pend block, Channel.sendImpl machine.kernel 0 (some 3) 7 = .ok (after, pend, block) ∧
      (block = false → Channel.trySendImpl machine.kernel 0 (some 3) 7 = .ok (after, pend, true)) := by
  let check (machine : RtosMachine 4 Nat) : Bool :=
    machine.kernel.current = some 3 ∧ (machine.kernel.tcb 3).state.isRunning = true
  obtain ⟨machine, reachable, checked⟩ := Machine.exists_of_check [.launch] check
    (by decide +kernel : (Config.small 10 10 10).passes Nat _ _ [.launch] check = true)
  obtain ⟨isCurrent, runs⟩ := of_decide_eq_true checked
  obtain ⟨_, _, ⟨after, pend, block, sends, _, room, _⟩, _⟩ :=
    variants_agree reachable isCurrent runs 0 7
  exact ⟨machine, reachable, isCurrent, after, pend, block, sends, room⟩

end RepMachine

end Kangaroos
