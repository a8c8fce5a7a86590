import Kangaroos.Sync.Primitives

/-!
# Pools

`Pool` and `PoolBox` of `mem/mod.rs`. The free list is threaded through `next`
by `u8` indices with `0xFF` as its end; `nodes[i] = none` is an uninitialised
slot, so a double destruction or a read of a freed slot is a fault.
-/

namespace Kangaroos

namespace Pool

variable {n : Nat} {V Link Head : Type}

/-- The end of the free list, `0xFF`. -/
def endMark : U8 := 0xFF

/-- `Pool::new`: the free list is slot 0 → 1 → … → capacity - 1. -/
def new (V : Type) (capacity : Nat) : PoolInner V where
  capacity := capacity
  nodes _ := none
  next slot := if slot + 1 < capacity then Fin.ofNat _ (slot + 1) else endMark
  freeHead := if capacity = 0 then endMark else 0

/-- The fast path of `alloc` and `alloc_blocking`: unlink the first free slot and
copy the value into it. -/
def takeSlot (inner : PoolInner V) (value : V) : Exec (PoolInner V × U8) :=
  let slot := inner.freeHead
  if slot.val < inner.capacity then
    .ok ({ inner with
      freeHead := inner.next slot.val
      nodes := Function.update inner.nodes slot.val (some value) }, slot)
  else .error .indexOutOfBounds

/-- `Pool::alloc`: the slot, or `none` when the pool is exhausted. -/
def alloc (kernel : Kernel n V Link Head) (id : Nat) (value : V) :
    Exec (Kernel n V Link Head × Option U8) := do
  if (kernel.pool id).freeHead ≠ endMark then
    let (inner, slot) ← takeSlot (kernel.pool id) value
    .ok (kernel.setPool id inner, some slot)
  else .ok (kernel, none)

/-- What `alloc` does with its argument after its critical section: without a slot it drops
the value. -/
def allocDrops (value : V) (slot : Option U8) : Option V :=
  match slot with
  | some _ => none
  | none => some value

/-- What ends with the scope of `src` in `alloc` and `alloc_blocking`: nothing is destroyed, the
drop glue of `MaybeUninit` is a no-op. -/
def srcDrops (_ : V) : Option V := none

/-- The loop of `Pool::available`. -/
def availableFrom (inner : PoolInner V) : Nat → U8 → Nat → Exec Nat
  | fuel, cur, count =>
    if cur = endMark then .ok count
    else
      match fuel with
      | 0 => .error .diverges
      | fuel + 1 =>
        if cur.val < inner.capacity then
          availableFrom inner fuel (inner.next cur.val) (count + 1)
        else .error .indexOutOfBounds

/-- `Pool::available`: a walk of more than `capacity` slots has met one twice. -/
def available (kernel : Kernel n V Link Head) (id : Nat) : Exec Nat :=
  availableFrom (kernel.pool id) (kernel.pool id).capacity (kernel.pool id).freeHead 0

/-- What `alloc_blocking` reads after its critical section: `wait_ptr as u8`. -/
def assignedSlot (kernel : Kernel n V Link Head) (task : Fin n) : Exec U8 := do
  let word ← kernel.waitWord task
  .ok (Fin.ofNat _ word.toNat)

/-- `assume_init_drop` on a slot: its value is destroyed. -/
def destroy (kernel : Kernel n V Link Head) (id : Nat) (slot : U8) :
    Exec (Kernel n V Link Head) :=
  let inner := kernel.pool id
  if slot.val < inner.capacity then
    match inner.nodes slot.val with
    | none => .error .uninitialised
    | some _ =>
      .ok (kernel.setPool id { inner with nodes := Function.update inner.nodes slot.val none })
  else .error .indexOutOfBounds

/-- What has been destroyed in a slot: the value that is gone from it. -/
def destroyed (before after : Kernel n V Link Head) (id : Nat) (slot : U8) : Option V :=
  match (after.pool id).nodes slot.val with
  | none => (before.pool id).nodes slot.val
  | some _ => none

/-- `*box` through `Deref`. -/
def read (kernel : Kernel n V Link Head) (id : Nat) (slot : U8) : Exec V :=
  let inner := kernel.pool id
  if slot.val < inner.capacity then
    match inner.nodes slot.val with
    | none => .error .uninitialised
    | some value => .ok value
  else .error .indexOutOfBounds

/-- `*box = value` through `DerefMut`. -/
def write (kernel : Kernel n V Link Head) (id : Nat) (slot : U8) (value : V) :
    Exec (Kernel n V Link Head) :=
  let inner := kernel.pool id
  if slot.val < inner.capacity then
    match inner.nodes slot.val with
    | none => .error .uninitialised
    | some _ =>
      .ok (kernel.setPool id
        { inner with nodes := Function.update inner.nodes slot.val (some value) })
  else .error .indexOutOfBounds

/-- A destroyed slot held a value. -/
theorem destroy_ok {kernel after : Kernel n V Link Head} {id : Nat} {slot : U8}
    (returned : destroy kernel id slot = .ok after) :
    slot.val < (kernel.pool id).capacity ∧ (kernel.pool id).nodes slot.val ≠ none ∧
      after = kernel.setPool id { kernel.pool id with
        nodes := Function.update (kernel.pool id).nodes slot.val none } := by
  simp only [destroy] at returned
  split at returned
  · rename_i inBounds
    split at returned
    · simp at returned
    · rename_i value stored
      exact ⟨inBounds, by simp [stored], by simpa using returned.symm⟩
  · simp at returned

/-- A written slot held a value. -/
theorem write_ok {kernel after : Kernel n V Link Head} {id : Nat} {slot : U8} {value : V}
    (returned : write kernel id slot value = .ok after) :
    slot.val < (kernel.pool id).capacity ∧ (kernel.pool id).nodes slot.val ≠ none ∧
      after = kernel.setPool id { kernel.pool id with
        nodes := Function.update (kernel.pool id).nodes slot.val (some value) } := by
  simp only [write] at returned
  split at returned
  · rename_i inBounds
    split at returned
    · simp at returned
    · rename_i value stored
      exact ⟨inBounds, by simp [stored], by simpa using returned.symm⟩
  · simp at returned

variable [ops : WaitOps n V Link Head]

/-- `Pool::alloc_blocking`; the flag is `must_block`. -/
def allocBlocking (kernel : Kernel n V Link Head) (id : Nat) (value : V) :
    Exec (Kernel n V Link Head × Bool) := do
  let current ← deref kernel.current
  if (kernel.pool id).freeHead ≠ endMark then
    let (inner, slot) ← takeSlot (kernel.pool id) value
    let kernel := kernel.setPool id inner
    .ok (kernel.setWaitPtr current (.word (BitVec.ofNat 32 slot.val)), false)
  else
    let kernel := kernel.setFrame (some current) (some value)
    let kernel := kernel.setWaitPtr current (.stack current)
    let kernel ← kernel.blockCurrent (.pool id)
    .ok (kernel, true)

/-- The critical section of `PoolBox::drop`: hand the slot to the most urgent waiter,
or put it back on the free list. The flag is `need_preempt`. -/
def release (kernel : Kernel n V Link Head) (id : Nat) (slot : U8) :
    Exec (Kernel n V Link Head × Bool) := do
  if !kernel.noWaiter (.pool id) then
    let (kernel, popped) ← WaitOps.waitListPopHighest kernel (.pool id)
    let waiter ← deref popped
    let src ← kernel.waitFrame waiter
    match kernel.frame (some src) with
    | none => .error .uninitialised
    | some value =>
      let inner := kernel.pool id
      if slot.val < inner.capacity then
        let kernel := kernel.setPool id
          { inner with nodes := Function.update inner.nodes slot.val (some value) }
        let kernel := kernel.setWaitPtr waiter (.word (BitVec.ofNat 32 slot.val))
        kernel.unblock waiter
      else .error .indexOutOfBounds
  else
    let inner := kernel.pool id
    if slot.val < inner.capacity then
      .ok (kernel.setPool id { inner with
        next := Function.update inner.next slot.val inner.freeHead
        freeHead := slot }, false)
    else .error .indexOutOfBounds

end Pool

end Kangaroos
