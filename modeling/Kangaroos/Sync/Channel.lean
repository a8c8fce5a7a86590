import Kangaroos.Sync.Primitives

/-!
# Channels

The critical sections of `channel/mod.rs`. `who` is the task on whose behalf
the section runs, or `none` in an interrupt handler; only the history variables
depend on it. `copy_nonoverlapping` from an uninitialised source and an index
outside the buffer are faults.
-/

namespace Kangaroos

namespace Channel

variable {n : Nat} {V Link Head : Type}

/-- `Channel::new`. -/
def new (n : Nat) (V : Type) (capacity : Nat) : ChannelInner n V where
  capacity := capacity
  buf _ := none
  head := 0
  tail := 0
  count := 0
  sent := []
  rejected := []
  entered := []
  left := []
  returned := []

/-- Copy a value into `buf[tail]` and advance `tail` and `count`. -/
def bufWrite (inner : ChannelInner n V) (sender : TcbPtr n) (value : V) :
    Exec (ChannelInner n V) :=
  if inner.tail < inner.capacity then
    .ok { inner with
      buf := Function.update inner.buf inner.tail (some value)
      tail := (inner.tail + 1) % inner.capacity
      count := inner.count + 1
      entered := inner.entered ++ [(sender, value)] }
  else .error .indexOutOfBounds

/-- Copy the value out of `buf[head]` and advance `head` and `count`. -/
def bufRead (inner : ChannelInner n V) (receiver : TcbPtr n) :
    Exec (ChannelInner n V × V) :=
  if inner.head < inner.capacity then
    match inner.buf inner.head with
    | none => .error .uninitialised
    | some value =>
      .ok ({ inner with
        head := (inner.head + 1) % inner.capacity
        count := inner.count - 1
        left := inner.left ++ [(receiver, value)] }, value)
  else .error .indexOutOfBounds

/-- Record a value passed to `send` or `try_send`. -/
def logSent (kernel : Kernel n V Link Head) (id : Nat) (who : TcbPtr n) (value : V) :
    Kernel n V Link Head :=
  let inner := kernel.channel id
  kernel.setChannel id { inner with sent := inner.sent ++ [(who, value)] }

/-- Record a value that `try_send` drops. -/
def logRejected (kernel : Kernel n V Link Head) (id : Nat) (who : TcbPtr n) (value : V) :
    Kernel n V Link Head :=
  let inner := kernel.channel id
  kernel.setChannel id { inner with rejected := inner.rejected ++ [(who, value)] }

/-- Record a value returned by `recv` or `try_recv`. -/
def logReturned (kernel : Kernel n V Link Head) (id : Nat) (who : TcbPtr n) (value : V) :
    Kernel n V Link Head :=
  let inner := kernel.channel id
  kernel.setChannel id { inner with returned := inner.returned ++ [(who, value)] }

variable [ops : WaitOps n V Link Head]

/-- Direct hand-off: copy the value into the slot the most urgent blocked receiver
parked in its `wait_ptr`. -/
def handOff (kernel : Kernel n V Link Head) (id : Nat) (who : TcbPtr n) (value : V) :
    Exec (Kernel n V Link Head × Bool) := do
  let (kernel, popped) ← WaitOps.waitListPopHighest kernel (.channelRecv id)
  let receiver ← deref popped
  let slot ← kernel.waitFrame receiver
  let kernel := kernel.setFrame (some slot) (some value)
  let inner := kernel.channel id
  let kernel := kernel.setChannel id { inner with
    entered := inner.entered ++ [(who, value)]
    left := inner.left ++ [(some receiver, value)] }
  kernel.unblock receiver

/-- Write to the ring buffer. -/
def enqueue (kernel : Kernel n V Link Head) (id : Nat) (who : TcbPtr n) (value : V) :
    Exec (Kernel n V Link Head) := do
  let inner ← bufWrite (kernel.channel id) who value
  .ok (kernel.setChannel id inner)

/-- `send_impl`; the flags are `need_preempt` and `must_block`. -/
def sendImpl (kernel : Kernel n V Link Head) (id : Nat) (who : TcbPtr n) (value : V) :
    Exec (Kernel n V Link Head × Bool × Bool) := do
  let kernel := logSent kernel id who value
  if !kernel.noWaiter (.channelRecv id) then
    let (kernel, needPreempt) ← handOff kernel id who value
    .ok (kernel, needPreempt, false)
  else if (kernel.channel id).count < (kernel.channel id).capacity then
    let kernel ← enqueue kernel id who value
    .ok (kernel, false, false)
  else
    let current ← deref kernel.current
    let kernel := kernel.setFrame (some current) (some value)
    let kernel := kernel.setWaitPtr current (.stack current)
    let kernel ← kernel.blockCurrent (.channelSend id)
    .ok (kernel, false, true)

/-- `try_send_impl`; the flags are `need_preempt` and `sent`. -/
def trySendImpl (kernel : Kernel n V Link Head) (id : Nat) (who : TcbPtr n) (value : V) :
    Exec (Kernel n V Link Head × Bool × Bool) := do
  let kernel := logSent kernel id who value
  if !kernel.noWaiter (.channelRecv id) then
    let (kernel, needPreempt) ← handOff kernel id who value
    .ok (kernel, needPreempt, true)
  else if (kernel.channel id).count < (kernel.channel id).capacity then
    let kernel ← enqueue kernel id who value
    .ok (kernel, false, true)
  else .ok (logRejected kernel id who value, false, false)

/-- The freed slot may admit one blocked sender: copy the value it parked. -/
def admitSender (kernel : Kernel n V Link Head) (id : Nat) :
    Exec (Kernel n V Link Head × Bool) :=
  if !kernel.noWaiter (.channelSend id) then do
    let (kernel, popped) ← WaitOps.waitListPopHighest kernel (.channelSend id)
    let sender ← deref popped
    let src ← kernel.waitFrame sender
    match kernel.frame (some src) with
    | none => .error .uninitialised
    | some value => do
      let kernel ← enqueue kernel id (some sender) value
      kernel.unblock sender
  else .ok (kernel, false)

/-- Pop one item from the ring buffer. -/
def dequeue (kernel : Kernel n V Link Head) (id : Nat) (who : TcbPtr n) :
    Exec (Kernel n V Link Head × V) := do
  let (inner, value) ← bufRead (kernel.channel id) who
  .ok (kernel.setChannel id inner, value)

/-- `recv_impl`; the flags are `need_preempt` and `must_block`. The received value
ends up in the local `slot` of the caller. -/
def recvImpl (kernel : Kernel n V Link Head) (id : Nat) :
    Exec (Kernel n V Link Head × Bool × Bool) := do
  if 0 < (kernel.channel id).count then
    let (kernel, value) ← dequeue kernel id kernel.current
    let kernel := kernel.setFrame kernel.current (some value)
    let (kernel, needPreempt) ← admitSender kernel id
    .ok (kernel, needPreempt, false)
  else
    let current ← deref kernel.current
    let kernel := kernel.setFrame (some current) none
    let kernel := kernel.setWaitPtr current (.stack current)
    let kernel ← kernel.blockCurrent (.channelRecv id)
    .ok (kernel, false, true)

/-- `try_recv_impl`; `need_preempt` and the result. -/
def tryRecvImpl (kernel : Kernel n V Link Head) (id : Nat) (who : TcbPtr n) :
    Exec (Kernel n V Link Head × Bool × Option V) := do
  if 0 < (kernel.channel id).count then
    let (kernel, value) ← dequeue kernel id who
    let (kernel, needPreempt) ← admitSender kernel id
    .ok (logReturned kernel id who value, needPreempt, some value)
  else .ok (kernel, false, none)

end Channel

end Kangaroos
