import Kangaroos.Abstract.Moves
import Kangaroos.Logic.Ledger
import Kangaroos.Logic.RingBuffer

/-!
# Channels

`Carries kernel id hand flight contents` is what a channel is for: its ring buffer
holds the queue `contents`, its books balance, and the wait lists hold senders with
their values and receivers with room for one. `hand` is the value a critical section
is in the middle of sending, and `flight` the values that receivers have been given
and have not returned with. Each part of the sections in `channel/mod.rs` has an
equation for its result and a rule for `Carries`.
-/

namespace Kangaroos

namespace Spec

variable {n : Nat} {V : Type} {kernel after : Spec n V} {id : Nat} {list : WaitList}

/-- The values of the blocked senders, with their senders. -/
def parked (kernel : Spec n V) (id : Nat) : List (TcbPtr n × V) :=
  (kernel.waitHead (.channelSend id)).filterMap fun task =>
    (kernel.frame (some task)).map fun value => (some task, value)

/-- A channel holds a queue and accounts for every value. -/
structure Carries (kernel : Spec n V) (id : Nat) (hand : List (TcbPtr n × V))
    (flight : TcbPtr n → Option V) (contents : List V) : Prop where
  ring : RingBuffer (kernel.channel id).buf (kernel.channel id).capacity (kernel.channel id).head
    (kernel.channel id).tail (kernel.channel id).count contents
  fifo : (kernel.channel id).entered.map Prod.snd =
    (kernel.channel id).left.map Prod.snd ++ contents
  ledger : Ledger (kernel.channel id).sent (kernel.channel id).rejected (kernel.channel id).entered
    (hand ++ kernel.parked id)
  delivery : Delivery (kernel.channel id).left (kernel.channel id).returned flight
  sender : ∀ task ∈ kernel.waitHead (.channelSend id),
    (kernel.tcb task).waitPtr = .stack task ∧ kernel.frame (some task) ≠ none
  receiver : ∀ task ∈ kernel.waitHead (.channelRecv id),
    (kernel.tcb task).waitPtr = .stack task ∧ flight (some task) = none

/-- Senders wait only for a full buffer and receivers only for an empty one. -/
structure Settled (kernel : Spec n V) (id : Nat) : Prop where
  full : kernel.waitHead (.channelSend id) ≠ [] →
    (kernel.channel id).count = (kernel.channel id).capacity
  empty : kernel.waitHead (.channelRecv id) ≠ [] → (kernel.channel id).count = 0

/-- A value in flight is in the frame of its receiver. -/
def Landed (kernel : Spec n V) (flight : TcbPtr n → Option V) : Prop :=
  ∀ task value, flight (some task) = some value → kernel.frame (some task) = some value

namespace Carries

variable {hand : List (TcbPtr n × V)} {flight : TcbPtr n → Option V} {contents : List V}
  {task : Fin n} {value : V}

/-- The blocked senders, in the order of their list. -/
theorem parked_senders (carries : Carries kernel id hand flight contents) :
    (kernel.parked id).map Prod.fst = (kernel.waitHead (.channelSend id)).map some := by
  have stored := fun task member => (carries.sender task member).2
  unfold parked
  generalize kernel.waitHead (.channelSend id) = senders at stored
  induction senders with
  | nil => rfl
  | cons task rest ih =>
      obtain ⟨value, isValue⟩ := Option.ne_none_iff_exists'.mp (stored task List.mem_cons_self)
      have onward := ih fun other member => stored other (List.mem_cons_of_mem _ member)
      simp [isValue, onward]

/-- Whoever waits on neither list has parked nothing. -/
theorem not_parked {who : TcbPtr n} (carries : Carries kernel id hand flight contents)
    (away : ∀ task ∈ kernel.waitHead (.channelSend id), who ≠ some task) :
    who ∉ (kernel.parked id).map Prod.fst := by
  rw [carries.parked_senders]
  intro member
  obtain ⟨task, listed, isWho⟩ := List.mem_map.mp member
  exact away task listed isWho.symm

/-- What leaves the channel, its senders and the `wait_ptr`s of its receivers alone. -/
theorem congr (carries : Carries kernel id hand flight contents)
    (channel : after.channel id = kernel.channel id)
    (senders : after.waitHead (.channelSend id) = kernel.waitHead (.channelSend id))
    (receivers : ∀ task ∈ after.waitHead (.channelRecv id),
      task ∈ kernel.waitHead (.channelRecv id))
    (frame : ∀ task ∈ kernel.waitHead (.channelSend id),
      after.frame (some task) = kernel.frame (some task))
    (waitPtr : ∀ task, task ∈ kernel.waitHead (.channelSend id) ∨
      task ∈ kernel.waitHead (.channelRecv id) →
        (after.tcb task).waitPtr = (kernel.tcb task).waitPtr) :
    Carries after id hand flight contents where
  ring := by
    rw [channel]
    exact carries.ring
  fifo := by
    rw [channel]
    exact carries.fifo
  ledger := by
    have same : after.parked id = kernel.parked id := by
      unfold parked
      rw [senders]
      exact List.filterMap_congr fun task member => by rw [frame task member]
    rw [channel, same]
    exact carries.ledger
  delivery := by
    rw [channel]
    exact carries.delivery
  sender task member := by
    rw [senders] at member
    rw [waitPtr task (.inl member), frame task member]
    exact carries.sender task member
  receiver task member := by
    have listed := receivers task member
    rw [waitPtr task (.inr listed)]
    exact carries.receiver task listed

/-- A receiver leaves its list. -/
theorem removeReceiver (carries : Carries kernel id hand flight contents) (task : Fin n) :
    Carries (kernel.remove (.channelRecv id) task) id hand flight contents := by
  refine carries.congr rfl (by simp) ?_ (fun _ _ => rfl) (fun _ _ => rfl)
  intro other member
  rw [remove_waitHead, Function.update_self] at member
  exact List.mem_of_mem_erase member

/-- A sender leaves its list with its value in hand. -/
theorem removeSender (carries : Carries kernel id [] flight contents)
    (member : task ∈ kernel.waitHead (.channelSend id))
    (stored : kernel.frame (some task) = some value) :
    Carries (kernel.remove (.channelSend id) task) id [(some task, value)] flight contents where
  ring := carries.ring
  fifo := carries.fifo
  ledger := by
    refine carries.ledger.reorder ?_
    have perm := (List.perm_cons_erase member).filterMap fun task =>
      (kernel.frame (some task)).map fun value => ((some task : TcbPtr n), value)
    simpa [parked, stored] using perm
  delivery := carries.delivery
  sender other listed := by
    rw [remove_waitHead, Function.update_self] at listed
    exact carries.sender other (List.mem_of_mem_erase listed)
  receiver other listed := carries.receiver other (by simpa using listed)

/-- A local that belongs to no sender is written. -/
theorem setFrame (carries : Carries kernel id hand flight contents) {context : TcbPtr n}
    (away : ∀ task ∈ kernel.waitHead (.channelSend id), some task ≠ context) (value : Option V) :
    Carries (kernel.setFrame context value) id hand flight contents :=
  carries.congr rfl rfl (fun _ listed => listed)
    (fun task member => Function.update_of_ne (away task member) _ _) (fun _ _ => rfl)

/-- A task changes its state. -/
theorem setState (carries : Carries kernel id hand flight contents) (task : Fin n)
    (state : TaskState WaitList) : Carries (kernel.setState task state) id hand flight contents := by
  refine carries.congr rfl rfl (fun _ listed => listed) (fun _ _ => rfl) ?_
  intro other _
  by_cases same : other = task
  · subst same
    simp
  · simp [same]

/-- A task that waits on neither list writes its `wait_ptr`. -/
theorem setWaitPtr (carries : Carries kernel id hand flight contents)
    (notSender : task ∉ kernel.waitHead (.channelSend id))
    (notReceiver : task ∉ kernel.waitHead (.channelRecv id)) (waitPtr : WaitPtr n) :
    Carries (kernel.setWaitPtr task waitPtr) id hand flight contents := by
  refine carries.congr rfl rfl (fun _ listed => listed) (fun _ _ => rfl) ?_
  rintro other listed
  have different : other ≠ task := by
    rintro rfl
    exact listed.elim notSender notReceiver
  simp [different]

/-- The fields of the channel are written. -/
theorem setChannel (carries : Carries kernel id hand flight contents) {inner : ChannelInner n V}
    {hand' : List (TcbPtr n × V)} {flight' : TcbPtr n → Option V} {contents' : List V}
    (ring : RingBuffer inner.buf inner.capacity inner.head inner.tail inner.count contents')
    (fifo : inner.entered.map Prod.snd = inner.left.map Prod.snd ++ contents')
    (ledger : Ledger inner.sent inner.rejected inner.entered (hand' ++ kernel.parked id))
    (delivery : Delivery inner.left inner.returned flight')
    (receiver : ∀ task ∈ kernel.waitHead (.channelRecv id), flight' (some task) = none) :
    Carries (kernel.setChannel id inner) id hand' flight' contents' where
  ring := by simpa using ring
  fifo := by simpa using fifo
  ledger := by simpa [parked] using ledger
  delivery := by simpa using delivery
  sender := carries.sender
  receiver task member := ⟨(carries.receiver task member).1, receiver task member⟩

/-- Nothing flies to a receiver that waits. -/
theorem idle (carries : Carries kernel id hand flight contents) :
    ∀ task ∈ kernel.waitHead (.channelRecv id), flight (some task) = none :=
  fun task member => (carries.receiver task member).2

/-- Receivers stay idle when another one is given a value. -/
theorem idle_update (carries : Carries kernel id hand flight contents) {receiver : TcbPtr n}
    (away : ∀ task ∈ kernel.waitHead (.channelRecv id), receiver ≠ some task) (value : Option V) :
    ∀ task ∈ kernel.waitHead (.channelRecv id),
      Function.update flight receiver value (some task) = none := by
  intro task member
  rw [Function.update_of_ne (away task member).symm]
  exact carries.idle task member

/-- A send begins: its value is in hand. -/
theorem logSent (carries : Carries kernel id [] flight contents) {who : TcbPtr n}
    (away : ∀ task ∈ kernel.waitHead (.channelSend id), who ≠ some task) (value : V) :
    Carries (Channel.logSent kernel id who value) id [(who, value)] flight contents :=
  carries.setChannel carries.ring carries.fifo
    (carries.ledger.send (carries.not_parked away) value) carries.delivery carries.idle

/-- `try_send` drops the value in hand. -/
theorem logRejected {who : TcbPtr n} (carries : Carries kernel id [(who, value)] flight contents) :
    Carries (Channel.logRejected kernel id who value) id [] flight contents :=
  carries.setChannel carries.ring carries.fifo carries.ledger.reject carries.delivery carries.idle

/-- A receiver returns with the value it was given. -/
theorem logReturned (carries : Carries kernel id hand flight contents) {who : TcbPtr n}
    (flies : flight who = some value) : Carries (Channel.logReturned kernel id who value) id hand
      (Function.update flight who none) contents := by
  refine carries.setChannel carries.ring carries.fifo carries.ledger
    (carries.delivery.arrive flies) ?_
  intro task member
  by_cases same : some task = who
  · subst same
    simp
  · rw [Function.update_of_ne same]
    exact carries.idle task member

end Carries

/-- The value in hand enters the buffer. -/
def store (kernel : Spec n V) (id : Nat) (sender : TcbPtr n) (value : V) : Spec n V :=
  let inner := kernel.channel id
  kernel.setChannel id { inner with
    buf := Function.update inner.buf inner.tail (some value)
    tail := (inner.tail + 1) % inner.capacity
    count := inner.count + 1
    entered := inner.entered ++ [(sender, value)] }

/-- The first value leaves the buffer. -/
def fetch (kernel : Spec n V) (id : Nat) (receiver : TcbPtr n) (value : V) : Spec n V :=
  let inner := kernel.channel id
  kernel.setChannel id { inner with
    head := (inner.head + 1) % inner.capacity
    count := inner.count - 1
    left := inner.left ++ [(receiver, value)] }

/-- The value in hand passes a channel without touching its buffer. -/
def pass (kernel : Spec n V) (id : Nat) (sender receiver : TcbPtr n) (value : V) : Spec n V :=
  let inner := kernel.channel id
  kernel.setChannel id { inner with
    entered := inner.entered ++ [(sender, value)]
    left := inner.left ++ [(receiver, value)] }

/-- Direct hand-off to `receiver`. -/
def handTo (kernel : Spec n V) (id : Nat) (sender : TcbPtr n) (value : V) (receiver : Fin n) :
    Spec n V :=
  let removed := kernel.remove (.channelRecv id) receiver
  Kernel.setState (pass (removed.setFrame (some receiver) (some value)) id sender (some receiver)
    value) receiver (.ready (kernel.tcb receiver).timeSlice)

/-- A freed cell admits the value of `sender`. -/
def accept (kernel : Spec n V) (id : Nat) (sender : Fin n) (value : V) : Spec n V :=
  Kernel.setState ((kernel.remove (.channelSend id) sender).store id (some sender) value) sender
    (.ready (kernel.tcb sender).timeSlice)

namespace Carries

variable {hand : List (TcbPtr n × V)} {flight : TcbPtr n → Option V} {contents rest : List V}
  {task : Fin n} {value : V} {sender receiver : TcbPtr n}

/-- The value in hand goes behind the others. -/
theorem store (carries : Carries kernel id [(sender, value)] flight contents)
    (room : (kernel.channel id).count < (kernel.channel id).capacity) :
    Carries (kernel.store id sender value) id [] flight (contents ++ [value]) := by
  refine carries.setChannel (carries.ring.push room value) ?_ carries.ledger.enter
    carries.delivery carries.idle
  simp [carries.fifo]

/-- The first value flies to its receiver. -/
theorem fetch (carries : Carries kernel id hand flight (value :: rest))
    (idle : flight receiver = none)
    (away : ∀ task ∈ kernel.waitHead (.channelRecv id), receiver ≠ some task) :
    Carries (kernel.fetch id receiver value) id hand
      (Function.update flight receiver (some value)) rest := by
  refine carries.setChannel carries.ring.pop ?_ carries.ledger
    (carries.delivery.leave idle value) (carries.idle_update away _)
  simp [carries.fifo]

/-- The value in hand flies at once if there is none in front of it. -/
theorem pass (carries : Carries kernel id [(sender, value)] flight [])
    (idle : flight receiver = none)
    (away : ∀ task ∈ kernel.waitHead (.channelRecv id), receiver ≠ some task) :
    Carries (kernel.pass id sender receiver value) id []
      (Function.update flight receiver (some value)) [] := by
  refine carries.setChannel carries.ring ?_ carries.ledger.enter
    (carries.delivery.leave idle value) (carries.idle_update away _)
  simpa using carries.fifo

/-- A hand-off also takes the receiver off the list. -/
theorem handTo (wf : WellFormed kernel none)
    (carries : Carries kernel id [(sender, value)] flight [])
    (member : task ∈ kernel.waitHead (.channelRecv id)) :
    Carries (kernel.handTo id sender value task) id []
      (Function.update flight (some task) (some value)) [] := by
  have removed := carries.removeReceiver task
  have away : ∀ other ∈ (kernel.remove (.channelRecv id) task).waitHead (.channelSend id),
      some other ≠ some task := by
    intro other listed same
    exact (wf.remove member).notListed task rfl _ (Option.some.inj same ▸ listed)
  have stored := removed.setFrame away (some value)
  refine Carries.setState (stored.pass (carries.idle task member) ?_) task _
  intro other listed same
  obtain rfl := Option.some.inj same
  exact (wf.remove member).notListed task rfl _ listed

/-- An admission takes the sender off the list, and its value goes behind the others. -/
theorem accept (carries : Carries kernel id [] flight contents)
    (member : task ∈ kernel.waitHead (.channelSend id))
    (stored : kernel.frame (some task) = some value)
    (room : (kernel.channel id).count < (kernel.channel id).capacity) :
    Carries (kernel.accept id task value) id [] flight (contents ++ [value]) :=
  ((carries.removeSender member stored).store room).setState task _

/-- A sender parks the value in hand. -/
theorem parkSender (carries : Carries kernel id [(some task, value)] flight contents)
    (notSender : task ∉ kernel.waitHead (.channelSend id))
    (notReceiver : task ∉ kernel.waitHead (.channelRecv id)) :
    Carries (kernel.parkLocal (.channelSend id) task (some value)) id [] flight contents := by
  have away : ∀ other ∈ kernel.waitHead (.channelSend id), some other ≠ some task := by
    rintro other listed same
    exact notSender (Option.some.inj same ▸ listed)
  have pointed := (carries.setFrame away (some value)).setWaitPtr notSender notReceiver
    (.stack task)
  have blocked := pointed.setState task (.blocked (.channelSend id))
  refine ⟨blocked.ring, blocked.fifo, ?_, blocked.delivery, ?_, ?_⟩
  · have grown : (kernel.parkLocal (.channelSend id) task (some value)).parked id =
        (some task, value) :: Spec.parked (kernel.setFrame (some task) (some value)) id := by
      simp [parked, parkLocal, blockAndPush]
    rw [grown]
    exact blocked.ledger
  · intro other listed
    by_cases same : other = task
    · subst same
      simp [parkLocal, blockAndPush]
    · have old : other ∈ kernel.waitHead (.channelSend id) := by
        simpa [parkLocal, blockAndPush, same] using listed
      simpa [parkLocal, blockAndPush, same] using carries.sender other old
  · intro other listed
    have old : other ∈ kernel.waitHead (.channelRecv id) := by
      simpa [parkLocal, blockAndPush] using listed
    have different : other ≠ task := by
      rintro rfl
      exact notReceiver old
    simpa [parkLocal, blockAndPush, different] using carries.receiver other old

/-- A receiver parks the address of an empty local. -/
theorem parkReceiver (carries : Carries kernel id [] flight contents)
    (notSender : task ∉ kernel.waitHead (.channelSend id))
    (notReceiver : task ∉ kernel.waitHead (.channelRecv id)) (idle : flight (some task) = none) :
    Carries (kernel.parkLocal (.channelRecv id) task none) id [] flight contents := by
  have away : ∀ other ∈ kernel.waitHead (.channelSend id), some other ≠ some task := by
    rintro other listed same
    exact notSender (Option.some.inj same ▸ listed)
  have pointed := (carries.setFrame away none).setWaitPtr notSender notReceiver (.stack task)
  have blocked := pointed.setState task (.blocked (.channelRecv id))
  refine ⟨blocked.ring, blocked.fifo, ?_, blocked.delivery, ?_, ?_⟩
  · have same : (kernel.parkLocal (.channelRecv id) task none).parked id =
        Spec.parked (kernel.setFrame (some task) none) id := by
      simp [parked, parkLocal, blockAndPush]
    rw [same]
    exact blocked.ledger
  · intro other listed
    have old : other ∈ kernel.waitHead (.channelSend id) := by
      simpa [parkLocal, blockAndPush] using listed
    have different : other ≠ task := by
      rintro rfl
      exact notSender old
    simpa [parkLocal, blockAndPush, different] using carries.sender other old
  · intro other listed
    by_cases same : other = task
    · subst same
      simpa [parkLocal, blockAndPush] using idle
    · have old : other ∈ kernel.waitHead (.channelRecv id) := by
        simpa [parkLocal, blockAndPush, same] using listed
      simpa [parkLocal, blockAndPush, same] using carries.receiver other old

end Carries

@[simp] theorem logSent_waitHead (kernel : Spec n V) (id : Nat) (who : TcbPtr n) (value : V) :
    (Channel.logSent kernel id who value).waitHead = kernel.waitHead := rfl

@[simp] theorem logSent_tcb (kernel : Spec n V) (id : Nat) (who : TcbPtr n) (value : V) :
    (Channel.logSent kernel id who value).tcb = kernel.tcb := rfl

@[simp] theorem logSent_frame (kernel : Spec n V) (id : Nat) (who : TcbPtr n) (value : V) :
    (Channel.logSent kernel id who value).frame = kernel.frame := rfl

/-- Storing in the program text, with `tail` inside the buffer. -/
theorem enqueue_eq {sender : TcbPtr n} {value : V}
    (inside : (kernel.channel id).tail < (kernel.channel id).capacity) :
    Channel.enqueue kernel id sender value = .ok (kernel.store id sender value) := by
  simp only [Channel.enqueue, Channel.bufWrite, inside, if_true, Except.ok_bind]
  rfl

/-- Fetching in the program text, with a value at `head`. -/
theorem dequeue_eq {receiver : TcbPtr n} {value : V}
    (inside : (kernel.channel id).head < (kernel.channel id).capacity)
    (first : (kernel.channel id).buf (kernel.channel id).head = some value) :
    Channel.dequeue kernel id receiver = .ok (kernel.fetch id receiver value, value) := by
  simp only [Channel.dequeue, Channel.bufRead, inside, if_true, first, Except.ok_bind]
  rfl

/-- A hand-off in the program text: receivers wait with a frame of their own. -/
theorem handOff_eq (kernel : Spec n V) (sender : TcbPtr n) (value : V)
    (waiting : kernel.waitHead (.channelRecv id) ≠ []) (launched : kernel.current ≠ none)
    (points : ∀ task ∈ kernel.waitHead (.channelRecv id), (kernel.tcb task).waitPtr = .stack task) :
    ∃ receiver ∈ kernel.waitHead (.channelRecv id), ∃ pend,
      Channel.handOff kernel id sender value =
        .ok (kernel.handTo id sender value receiver, pend) := by
  obtain ⟨receiver, member, pops⟩ := pop_eq waiting
  have slot : (kernel.remove (.channelRecv id) receiver).waitFrame receiver = .ok receiver :=
    waitFrame_eq (points receiver member)
  have handed : ((pass ((kernel.remove (.channelRecv id) receiver).setFrame (some receiver)
      (some value)) id sender (some receiver) value)).current ≠ none := launched
  obtain ⟨pend, unblocks⟩ := unblock_eq _ handed receiver
  refine ⟨receiver, member, pend, ?_⟩
  simp only [Channel.handOff, pops, Except.ok_bind, deref_some, slot]
  exact unblocks

/-- An admission in the program text: senders wait with a value in their frame. -/
theorem admitSender_eq (waiting : kernel.waitHead (.channelSend id) ≠ [])
    (launched : kernel.current ≠ none)
    (inside : (kernel.channel id).tail < (kernel.channel id).capacity)
    (parked : ∀ task ∈ kernel.waitHead (.channelSend id),
      (kernel.tcb task).waitPtr = .stack task ∧ kernel.frame (some task) ≠ none) :
    ∃ sender ∈ kernel.waitHead (.channelSend id), ∃ value, kernel.frame (some sender) = some value ∧
      ∃ pend, Channel.admitSender kernel id = .ok (kernel.accept id sender value, pend) := by
  obtain ⟨sender, member, pops⟩ := pop_eq waiting
  obtain ⟨points, stored⟩ := parked sender member
  obtain ⟨value, isValue⟩ := Option.ne_none_iff_exists'.mp stored
  have src : (kernel.remove (.channelSend id) sender).waitFrame sender = .ok sender :=
    waitFrame_eq points
  have holds : (kernel.remove (.channelSend id) sender).frame (some sender) = some value := isValue
  have enters : Channel.enqueue (kernel.remove (.channelSend id) sender) id (some sender) value =
      .ok ((kernel.remove (.channelSend id) sender).store id (some sender) value) :=
    enqueue_eq inside
  obtain ⟨pend, unblocks⟩ := unblock_eq
    ((kernel.remove (.channelSend id) sender).store id (some sender) value) launched sender
  refine ⟨sender, member, value, isValue, pend, ?_⟩
  have waits : kernel.noWaiter (.channelSend id) = false := noWaiter_eq_false.mpr waiting
  simp only [Channel.admitSender, waits, Bool.not_false, if_true, pops, Except.ok_bind, deref_some,
    src, holds, enters]
  exact unblocks

end Spec

end Kangaroos
