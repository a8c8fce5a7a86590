import Kangaroos.Abstract.Channels

/-!
# The channel operations

`Flows` is what holds of a channel between two critical sections. Each of the four
operations in `channel/mod.rs` runs without a fault and leaves a channel that flows,
whatever its capacity; `Served` says which receivers it gave a value.
-/

namespace Kangaroos

namespace Spec

variable {n : Nat} {V : Type} {kernel after : Spec n V} {id : Nat} {list : WaitList}

/-- A channel between two critical sections. -/
structure Flows (kernel : Spec n V) (id : Nat) (flight : TcbPtr n → Option V) (contents : List V) :
    Prop where
  carries : Carries kernel id [] flight contents
  settled : Settled kernel id
  landed : Landed kernel flight
  outside : flight none = none

/-- What a section leaves behind. A receiver has a value in flight afterwards if it had one,
or if it was waiting, or is `receiving`, and does not wait now. -/
def Served (receiving : TcbPtr n) (before after : Spec n V) (id : Nat)
    (flight : TcbPtr n → Option V) : Prop :=
  ∃ flight' contents, Flows after id flight' contents ∧
    (after.channel id).capacity = (before.channel id).capacity ∧
    ∀ task, flight' (some task) ≠ none ↔ flight (some task) ≠ none ∨
      (task ∈ before.waitHead (.channelRecv id) ∨ receiving = some task) ∧
        task ∉ after.waitHead (.channelRecv id)

namespace Flows

variable {flight : TcbPtr n → Option V} {contents : List V} {who : TcbPtr n} {task : Fin n}
  {value : V}

/-- A section that leaves the receivers as they are. -/
theorem served {contents' : List V} (flows : Flows after id flight contents')
    (capacity : (after.channel id).capacity = (kernel.channel id).capacity)
    (receivers : after.waitHead (.channelRecv id) = kernel.waitHead (.channelRecv id)) :
    Served none kernel after id flight :=
  ⟨flight, contents', flows, capacity, by simp [receivers]⟩

/-- Waiting receivers find an empty queue. -/
theorem contents_nil (flows : Flows kernel id flight contents)
    (waiting : kernel.waitHead (.channelRecv id) ≠ []) : contents = [] := by
  rw [← List.length_eq_zero_iff, flows.carries.ring.length]
  exact flows.settled.empty waiting

/-- A value is handed to a waiting receiver. -/
theorem handTo (wf : WellFormed kernel none) (flows : Flows kernel id flight contents)
    (away : ∀ task ∈ kernel.waitHead (.channelSend id), who ≠ some task)
    (member : task ∈ kernel.waitHead (.channelRecv id)) :
    Served none kernel (Spec.handTo (Channel.logSent kernel id who value) id who value task) id
      flight := by
  have waiting : kernel.waitHead (.channelRecv id) ≠ [] := List.ne_nil_of_mem member
  obtain rfl := flows.contents_nil waiting
  have logged : WellFormed (Channel.logSent kernel id who value) none := by
    unfold Channel.logSent
    exact wf.modifyStatics _
  have carries := Carries.handTo logged (flows.carries.logSent away value) member
  refine ⟨_, _, ⟨carries, ⟨?_, ?_⟩, ?_, ?_⟩, ?_, ?_⟩
  · intro senders
    have full := flows.settled.full (by simpa [Spec.handTo, pass, Channel.logSent] using senders)
    simpa [Spec.handTo, pass, Channel.logSent] using full
  · intro _
    simpa [Spec.handTo, pass, Channel.logSent] using flows.settled.empty waiting
  · intro other given flies
    by_cases same : other = task
    · subst same
      simpa [Spec.handTo, pass, Channel.logSent] using flies
    · have before := flows.landed other given (by simpa [same] using flies)
      simpa [Spec.handTo, pass, Channel.logSent, same] using before
  · simpa using flows.outside
  · simp [Spec.handTo, pass, Channel.logSent]
  · intro other
    have heads : (Spec.handTo (Channel.logSent kernel id who value) id who value task).waitHead
        (.channelRecv id) = (kernel.waitHead (.channelRecv id)).erase task := by
      simp [Spec.handTo, pass, Channel.logSent]
    rw [heads]
    by_cases same : other = task
    · subst same
      simp [member, (wf.nodup _).not_mem_erase]
    · simp [same, List.mem_erase_of_ne]

/-- A value enters the buffer. -/
theorem enqueue (flows : Flows kernel id flight contents)
    (away : ∀ task ∈ kernel.waitHead (.channelSend id), who ≠ some task)
    (noReceiver : kernel.waitHead (.channelRecv id) = [])
    (room : (kernel.channel id).count < (kernel.channel id).capacity) :
    Served none kernel (Spec.store (Channel.logSent kernel id who value) id who value) id flight := by
  have logged := flows.carries.logSent away value
  have noSender : kernel.waitHead (.channelSend id) = [] := by
    by_contra senders
    exact room.ne (flows.settled.full senders)
  have carries := logged.store (by simpa [Channel.logSent] using room)
  refine Flows.served ⟨carries, ⟨?_, ?_⟩, flows.landed, flows.outside⟩ ?_ rfl
  · exact fun senders => absurd noSender senders
  · exact fun receivers => absurd noReceiver receivers
  · simp [Spec.store, Channel.logSent]

/-- `send_impl` does not fault. -/
theorem sendImpl (wf : WellFormed kernel none) (flows : Flows kernel id flight contents)
    (isCurrent : kernel.current = some task)
    (running : (kernel.tcb task).state.isRunning = true) (idle : flight (some task) = none)
    (value : V) : ∃ after pend block, Channel.sendImpl kernel id (some task) value = .ok (after, pend, block) ∧
      Served none kernel after id flight := by
  have notSender : task ∉ kernel.waitHead (.channelSend id) := wf.not_mem_of_running running
  have notReceiver : task ∉ kernel.waitHead (.channelRecv id) := wf.not_mem_of_running running
  have away : ∀ other ∈ kernel.waitHead (.channelSend id), some task ≠ some other := by
    rintro other listed same
    exact notSender (Option.some.inj same ▸ listed)
  have logged := flows.carries.logSent away value
  have launched : kernel.current ≠ none := by simp [isCurrent]
  simp only [Channel.sendImpl]
  split
  · rename_i waits
    have waiting : kernel.waitHead (.channelRecv id) ≠ [] := by simpa using waits
    obtain ⟨receiver, member, pend, hands⟩ := handOff_eq
      (Channel.logSent kernel id (some task) value) (some task) value waiting launched
      fun other listed => (logged.receiver other listed).1
    simp only [hands, Except.ok_bind]
    exact ⟨_, _, _, rfl, flows.handTo wf away member⟩
  · rename_i waits
    have noReceiver : kernel.waitHead (.channelRecv id) = [] := by simpa using waits
    split
    · rename_i room
      have space : (kernel.channel id).count < (kernel.channel id).capacity := by
        simpa [Channel.logSent] using room
      have inside := logged.ring.tail_lt (Nat.zero_lt_of_lt room)
      simp only [enqueue_eq inside, Except.ok_bind]
      exact ⟨_, _, _, rfl, flows.enqueue away noReceiver space⟩
    · rename_i full
      have parks : ((Kernel.setFrame (Channel.logSent kernel id (some task) value) (some task)
          (some value)).setWaitPtr task (.stack task)).current = some task := isCurrent
      have current : (Channel.logSent kernel id (some task) value).current = some task := isCurrent
      simp only [current, deref_some, Except.ok_bind, blockCurrent_eq parks]
      refine ⟨_, _, _, rfl, Flows.served ⟨logged.parkSender notSender notReceiver, ⟨?_, ?_⟩, ?_,
        flows.outside⟩ ?_ ?_⟩
      · intro _
        have bounded := flows.carries.ring.bounded
        simp [Channel.logSent] at full
        simpa [blockAndPush, Channel.logSent] using le_antisymm bounded full
      · intro receivers
        simp [blockAndPush, Channel.logSent, noReceiver] at receivers
      · intro other given flies
        have different : other ≠ task := by
          rintro rfl
          simp [idle] at flies
        simpa [blockAndPush, Channel.logSent, different] using flows.landed other given flies
      · simp [blockAndPush, Channel.logSent]
      · simp [blockAndPush, Channel.logSent]

/-- `try_send_impl` does not fault. -/
theorem trySendImpl (wf : WellFormed kernel none) (flows : Flows kernel id flight contents)
    (away : ∀ list, ∀ task ∈ kernel.waitHead list, who ≠ some task)
    (launched : ∀ list, kernel.waitHead list ≠ [] → kernel.current ≠ none) (value : V) :
    ∃ after pend sent, Channel.trySendImpl kernel id who value = .ok (after, pend, sent) ∧
      Served none kernel after id flight := by
  have logged := flows.carries.logSent (away _) value
  simp only [Channel.trySendImpl]
  split
  · rename_i waits
    have waiting : kernel.waitHead (.channelRecv id) ≠ [] := by simpa using waits
    obtain ⟨receiver, member, pend, hands⟩ := handOff_eq
      (Channel.logSent kernel id who value) who value waiting (launched _ waiting)
      fun other listed => (logged.receiver other listed).1
    simp only [hands, Except.ok_bind]
    exact ⟨_, _, _, rfl, flows.handTo wf (away _) member⟩
  · rename_i waits
    have noReceiver : kernel.waitHead (.channelRecv id) = [] := by simpa using waits
    split
    · rename_i room
      have space : (kernel.channel id).count < (kernel.channel id).capacity := by
        simpa [Channel.logSent] using room
      have inside := logged.ring.tail_lt (Nat.zero_lt_of_lt room)
      simp only [enqueue_eq inside, Except.ok_bind]
      exact ⟨_, _, _, rfl, flows.enqueue (away _) noReceiver space⟩
    · refine ⟨_, _, _, rfl, Flows.served ⟨logged.logRejected, ⟨?_, ?_⟩, flows.landed,
        flows.outside⟩ ?_ rfl⟩
      · intro senders
        simpa [Channel.logSent, Channel.logRejected] using flows.settled.full senders
      · exact fun receivers => absurd noReceiver receivers
      · simp [Channel.logSent, Channel.logRejected]

/-- A cell has been freed while nobody waits to receive. -/
theorem admitSender {flight : TcbPtr n → Option V} {contents : List V}
    (carries : Carries kernel id [] flight contents)
    (launched : ∀ list, kernel.waitHead list ≠ [] → kernel.current ≠ none)
    (noReceiver : kernel.waitHead (.channelRecv id) = [])
    (room : (kernel.channel id).count < (kernel.channel id).capacity)
    (freed : kernel.waitHead (.channelSend id) ≠ [] →
      (kernel.channel id).count + 1 = (kernel.channel id).capacity) :
    ∃ after pend contents', Channel.admitSender kernel id = .ok (after, pend) ∧
      Carries after id [] flight contents' ∧ Settled after id ∧ after.frame = kernel.frame ∧
      after.waitHead (.channelRecv id) = [] ∧
      (after.channel id).capacity = (kernel.channel id).capacity := by
  by_cases waiting : kernel.waitHead (.channelSend id) = []
  · have skips : Channel.admitSender kernel id = .ok (kernel, false) := by
      have none : kernel.noWaiter (.channelSend id) = true := noWaiter_iff.mpr waiting
      simp [Channel.admitSender, none]
    refine ⟨kernel, false, contents, skips, carries, ⟨?_, ?_⟩, rfl, noReceiver, rfl⟩
    · exact fun senders => absurd waiting senders
    · exact fun receivers => absurd noReceiver receivers
  · obtain ⟨sender, member, value, stored, pend, admits⟩ := admitSender_eq waiting
      (launched _ waiting) (carries.ring.tail_lt (Nat.zero_lt_of_lt room)) carries.sender
    refine ⟨_, pend, _, admits, carries.accept member stored room, ⟨?_, ?_⟩, rfl, ?_, ?_⟩
    · intro _
      simpa [Spec.accept, Spec.store] using freed waiting
    · intro receivers
      simp [Spec.accept, Spec.store, noReceiver] at receivers
    · simp [Spec.accept, Spec.store, noReceiver]
    · simp [Spec.accept, Spec.store]

/-- The first value of a queue that is not empty is fetched. -/
theorem dequeue (flows : Flows kernel id flight contents)
    (occupied : 0 < (kernel.channel id).count) (idle : flight who = none) :
    kernel.waitHead (.channelRecv id) = [] ∧ ∃ value rest, contents = value :: rest ∧
      Channel.dequeue kernel id who = .ok (kernel.fetch id who value, value) ∧
      Carries (kernel.fetch id who value) id [] (Function.update flight who (some value)) rest ∧
      ((kernel.fetch id who value).channel id).count <
        ((kernel.fetch id who value).channel id).capacity ∧
      ((kernel.fetch id who value).waitHead (.channelSend id) ≠ [] →
        ((kernel.fetch id who value).channel id).count + 1 =
          ((kernel.fetch id who value).channel id).capacity) := by
  have noReceiver : kernel.waitHead (.channelRecv id) = [] := by
    by_contra receivers
    exact occupied.ne' (flows.settled.empty receivers)
  have bounded := flows.carries.ring.bounded
  match contents, flows with
  | [], flows => exact absurd flows.carries.ring.length occupied.ne
  | value :: rest, flows =>
      obtain ⟨inside, first⟩ := flows.carries.ring.front
      refine ⟨noReceiver, value, rest, rfl, dequeue_eq inside first,
        flows.carries.fetch idle (by simp [noReceiver]), ?_, ?_⟩
      · simp only [Spec.fetch, Kernel.modifyStatics_toStatics, Function.update_self]
        omega
      · intro senders
        have full := flows.settled.full senders
        simp only [Spec.fetch, Kernel.modifyStatics_toStatics, Function.update_self]
        omega

/-- `recv_impl` does not fault, and blocks only on an empty buffer. -/
theorem recvImpl (wf : WellFormed kernel none) (flows : Flows kernel id flight contents)
    (isCurrent : kernel.current = some task)
    (running : (kernel.tcb task).state.isRunning = true) (idle : flight (some task) = none) :
    ∃ after pend block, Channel.recvImpl kernel id = .ok (after, pend, block) ∧
      (block = true ↔ (kernel.channel id).count = 0) ∧
      (block = false → ∃ value, after.frame (some task) = some value) ∧
      Served (some task) kernel after id flight := by
  have notSender : task ∉ kernel.waitHead (.channelSend id) := wf.not_mem_of_running running
  have notReceiver : task ∉ kernel.waitHead (.channelRecv id) := wf.not_mem_of_running running
  simp only [Channel.recvImpl, isCurrent]
  split
  · rename_i occupied
    obtain ⟨noReceiver, value, rest, _, fetches, fetched, room, freed⟩ :=
      flows.dequeue occupied idle
    have away : ∀ other ∈ (kernel.fetch id (some task) value).waitHead (.channelSend id),
        some other ≠ some task := by
      rintro other listed same
      exact notSender (Option.some.inj same ▸ listed)
    have current : (kernel.fetch id (some task) value).current = some task := isCurrent
    obtain ⟨after, pend, contents', admits, carries, settled, frame, receivers, capacity⟩ :=
      admitSender (fetched.setFrame away (some value)) (fun _ _ => by simp [current]) noReceiver room
        freed
    simp only [fetches, Except.ok_bind, current, admits]
    have landed : after.frame = Function.update kernel.frame (some task) (some value) := frame
    refine ⟨after, pend, false, rfl, ?_, ?_, ?_⟩
    · simpa using occupied.ne'
    · exact fun _ => ⟨value, by simp [landed]⟩
    · refine ⟨_, contents', ⟨carries, settled, ?_, ?_⟩, ?_, ?_⟩
      · intro other given flies
        rw [landed]
        by_cases same : other = task
        · subst same
          simpa using flies
        · simpa [same] using flows.landed other given (by simpa [same] using flies)
      · simpa using flows.outside
      · simpa [Spec.fetch] using capacity
      · intro other
        rw [receivers, noReceiver]
        by_cases same : other = task
        · subst same
          simp
        · simp [same, Ne.symm same]
  · rename_i empty
    have parks : ((Kernel.setFrame kernel (some task) none).setWaitPtr task
        (.stack task)).current = some task := isCurrent
    simp only [deref_some, Except.ok_bind, blockCurrent_eq parks]
    refine ⟨_, _, _, rfl, ?_, by simp, flight, contents,
      ⟨flows.carries.parkReceiver notSender notReceiver idle, ⟨?_, ?_⟩, ?_, flows.outside⟩, ?_, ?_⟩
    · simpa using Nat.le_zero.mp (Nat.not_lt.mp empty)
    · intro senders
      simpa [blockAndPush] using flows.settled.full (by simpa [blockAndPush] using senders)
    · intro _
      simpa [blockAndPush] using Nat.le_zero.mp (Nat.not_lt.mp empty)
    · intro other given flies
      have different : other ≠ task := by
        rintro rfl
        simp [idle] at flies
      simpa [blockAndPush, different] using flows.landed other given flies
    · simp [blockAndPush]
    · intro other
      by_cases same : other = task
      · subst same
        simp [blockAndPush, idle]
      · simp [blockAndPush, same, Ne.symm same]

/-- `try_recv_impl` does not fault, and fails only on an empty buffer. -/
theorem tryRecvImpl (flows : Flows kernel id flight contents) (idle : flight who = none)
    (launched : ∀ list, kernel.waitHead list ≠ [] → kernel.current ≠ none) :
    ∃ after pend result, Channel.tryRecvImpl kernel id who = .ok (after, pend, result) ∧
      (result = none ↔ (kernel.channel id).count = 0) ∧ Served none kernel after id flight := by
  simp only [Channel.tryRecvImpl]
  split
  · rename_i occupied
    obtain ⟨noReceiver, value, rest, _, fetches, fetched, room, freed⟩ :=
      flows.dequeue occupied idle
    obtain ⟨after, pend, contents', admits, carries, settled, frame, receivers, capacity⟩ :=
      admitSender fetched launched noReceiver room freed
    simp only [fetches, Except.ok_bind, admits]
    have flies : Function.update flight who (some value) who = some value := Function.update_self ..
    have returned := carries.logReturned flies
    have same : Function.update (Function.update flight who (some value)) who none = flight := by
      rw [Function.update_idem, ← idle, Function.update_eq_self]
    rw [same] at returned
    refine ⟨_, pend, some value, rfl, ?_, Flows.served ⟨returned, ⟨?_, ?_⟩, ?_, flows.outside⟩ ?_ ?_⟩
    · simpa using occupied.ne'
    · intro senders
      simpa [Channel.logReturned] using settled.full senders
    · exact fun waits => absurd receivers waits
    · intro other given flies
      have landed := flows.landed other given flies
      simpa [Channel.logReturned, frame, Spec.fetch] using landed
    · simpa [Channel.logReturned, Spec.fetch] using capacity
    · simpa [Channel.logReturned] using receivers.trans noReceiver.symm
  · rename_i empty
    refine ⟨kernel, false, none, rfl, ?_, flows.served rfl rfl⟩
    simpa using Nat.le_zero.mp (Nat.not_lt.mp empty)

end Flows

end Spec

end Kangaroos
