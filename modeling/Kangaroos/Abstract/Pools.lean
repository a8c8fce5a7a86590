import Kangaroos.Abstract.Untouched
import Kangaroos.Logic.Custody
import Mathlib.Data.Fintype.Sum
import Mathlib.Order.Interval.Finset.Fin
import Mathlib.Tactic.DeriveFintype

/-!
# Pools

A pool is a free list and the slots that are not on it. The free list is a chain through
`next`; `PoolPlace` names where else a slot can be: with a live box, with a call that has
not returned, or with a drop that has destroyed the value and not yet released the slot.
The three operations are computed here, for a free list given as a list.
-/

namespace Kangaroos

namespace Pool

/-- A free-list index as a link. -/
def link (slot : U8) : Option U8 := if slot = endMark then none else some slot

/-- The slots of a pool. -/
def slots (capacity : Nat) : Multiset U8 :=
  (Finset.univ.filter fun slot : U8 => slot.val < capacity).val

@[simp] theorem link_eq_none {slot : U8} : link slot = none ↔ slot = endMark := by
  simp [link]

@[simp] theorem link_eq_some {slot target : U8} :
    link slot = some target ↔ slot = target ∧ target ≠ endMark := by
  unfold link
  split
  · rename_i isEnd
    simp only [reduceCtorEq, false_iff, not_and, not_not]
    rintro rfl
    exact isEnd
  · rename_i notEnd
    constructor
    · intro same
      obtain rfl := Option.some.inj same
      exact ⟨rfl, notEnd⟩
    · rintro ⟨rfl, _⟩
      rfl

theorem slots_nodup (capacity : Nat) : (slots capacity).Nodup := Finset.nodup _

@[simp] theorem mem_slots {capacity : Nat} {slot : U8} :
    slot ∈ slots capacity ↔ slot.val < capacity := by
  simp [slots]

/-- No slot index is the end mark. -/
theorem ne_endMark {capacity : Nat} {slot : U8} (bound : capacity ≤ 255)
    (fits : slot.val < capacity) : slot ≠ endMark := by
  rintro rfl
  have : endMark.val = 255 := rfl
  omega

/-- Distinct slots of a pool are no more than its capacity. -/
theorem length_le {capacity : Nat} {free : List U8} (distinct : free.Nodup)
    (fits : ∀ slot ∈ free, slot.val < capacity) : free.length ≤ capacity := by
  have distinctVals : (free.map Fin.val).Nodup := distinct.map Fin.val_injective
  have below : free.map Fin.val ⊆ List.range capacity := by
    intro value member
    obtain ⟨slot, listed, rfl⟩ := List.mem_map.mp member
    exact List.mem_range.mpr (fits slot listed)
  simpa using (List.subperm_of_subset distinctVals below).length_le

end Pool

/-- The link of a slot on the free list. -/
def PoolInner.freeLink {V : Type} (inner : PoolInner V) (slot : U8) : Option U8 :=
  Pool.link (inner.next slot.val)

/-- Where a slot of a pool can be. -/
inductive PoolPlace (n : Nat) where
  | free
  | boxes
  | handlers
  | call (task : Fin n)
  | drop (task : Fin n)
  deriving DecidableEq, Fintype

namespace Machine

variable {n : Nat} {V Link Head : Type}

/-- The slot assigned to the `alloc` or `alloc_blocking` a task has not returned from. -/
def assigned (machine : Machine n V Link Head) (id : Nat) (task : Fin n) : List U8 :=
  match (machine.thread task).pc with
  | .allocRet pool slot => if pool = id then [slot] else []
  | .allocBlockingRet pool =>
    if pool = id ∧ (machine.kernel.tcb task).state.isBlocked = false then
      (Pool.assignedSlot machine.kernel task).toOption.toList
    else []
  | _ => []

/-- The slots at a place; `free` is the free list. -/
def slotsAt (machine : Machine n V Link Head) (id : Nat) (free : List U8) :
    PoolPlace n → Multiset U8
  | .free => free
  | .boxes => machine.boxes id
  | .handlers => machine.isrSlots id
  | .call task => machine.assigned id task
  | .drop task => (machine.thread task).drops id

end Machine

namespace Pool

variable {V : Type} {inner : PoolInner V} {free : List U8}

/-- The walk of `available` counts the free list. -/
theorem availableFrom_eq {fuel : Nat} {cur : U8} (count : Nat)
    (chain : Linked.Chain inner.freeLink (link cur) free)
    (fits : ∀ slot ∈ free, slot.val < inner.capacity) (enough : free.length ≤ fuel) :
    availableFrom inner fuel cur count = .ok (count + free.length) := by
  induction free generalizing fuel cur count with
  | nil =>
      have atEnd : cur = endMark := by simpa using chain
      unfold availableFrom
      simp [atEnd]
  | cons slot rest ih =>
      obtain ⟨rfl, notEnd⟩ : cur = slot ∧ slot ≠ endMark := by simpa using chain.1
      have inBounds := fits cur List.mem_cons_self
      cases fuel with
      | zero => simp at enough
      | succ fuel =>
          have tail : availableFrom inner fuel (inner.next cur.val) (count + 1) =
              .ok (count + 1 + rest.length) := ih (count + 1) chain.2
            (fun other member => fits other (List.mem_cons_of_mem _ member))
            (by simpa using enough)
          unfold availableFrom
          rw [if_neg notEnd]
          simp only [inBounds, if_true, tail, List.length_cons]
          congr 1
          omega

/-- The free list `Pool::new` builds. -/
def fresh (capacity : Nat) : List U8 := (List.range' 0 capacity).map (Fin.ofNat (2 ^ 8))

/-- It has every slot once. -/
theorem coe_fresh {capacity : Nat} (bound : capacity ≤ 255) :
    (fresh capacity : Multiset U8) = slots capacity := by
  refine (Multiset.Nodup.ext ?_ (slots_nodup _)).mpr fun slot => ?_
  · refine List.Nodup.map_on ?_ List.nodup_range'
    intro first left second right same
    have values := congrArg Fin.val same
    simp only [List.mem_range'_1] at left right
    rwa [Fin.val_ofNat, Fin.val_ofNat, Nat.mod_eq_of_lt (by omega), Nat.mod_eq_of_lt (by omega)]
      at values
  · simp only [fresh, Multiset.mem_coe, List.mem_map, List.mem_range'_1, mem_slots]
    constructor
    · rintro ⟨value, ⟨_, below⟩, rfl⟩
      rw [Fin.val_ofNat, Nat.mod_eq_of_lt (by omega)]
      omega
    · intro fits
      exact ⟨slot.val, ⟨Nat.zero_le _, by omega⟩, Fin.ext (Nat.mod_eq_of_lt slot.isLt)⟩

/-- Its links from a slot on. -/
theorem chain_from (V : Type) {capacity start : Nat} (bound : capacity ≤ 255)
    (below : start ≤ capacity) :
    Linked.Chain (new V capacity).freeLink
      (if start < capacity then some (Fin.ofNat _ start) else none)
      ((List.range' start (capacity - start)).map (Fin.ofNat (2 ^ 8))) := by
  induction left : capacity - start generalizing start with
  | zero =>
      have atEnd : ¬start < capacity := by omega
      simp [atEnd]
  | succ left ih =>
      have inside : start < capacity := by omega
      have value : (Fin.ofNat (2 ^ 8) start).val = start := Nat.mod_eq_of_lt (by omega)
      have onward := @ih (start + 1) (by omega) (by omega)
      rw [List.range'_succ, List.map_cons]
      refine ⟨by simp [inside], ?_⟩
      have next : (new V capacity).freeLink (Fin.ofNat (2 ^ 8) start) =
          if start + 1 < capacity then some (Fin.ofNat _ (start + 1)) else none := by
        rw [PoolInner.freeLink, value]
        simp only [new]
        split
        · have fits : (Fin.ofNat (2 ^ 8) (start + 1)).val < capacity := by
            rw [Fin.val_ofNat, Nat.mod_eq_of_lt (by omega)]
            omega
          exact link_eq_some.mpr ⟨rfl, ne_endMark bound fits⟩
        · exact link_eq_none.mpr rfl
      rw [next]
      exact onward

/-- And from its head. -/
theorem chain_new (V : Type) {capacity : Nat} (bound : capacity ≤ 255) :
    Linked.Chain (new V capacity).freeLink (link (new V capacity).freeHead) (fresh capacity) := by
  have head : link (new V capacity).freeHead =
      if 0 < capacity then some (Fin.ofNat _ 0) else none := by
    by_cases empty : capacity = 0
    · rw [if_neg (by omega)]
      simp only [new, if_pos empty]
      exact link_eq_none.mpr rfl
    · have positive : 0 < capacity := by omega
      have valid : Fin.ofNat (2 ^ 8) 0 ≠ endMark := by decide
      simp only [new, if_neg empty, if_pos positive]
      exact link_eq_some.mpr ⟨rfl, valid⟩
  rw [head]
  exact chain_from V bound (Nat.zero_le _)

end Pool

namespace Spec

variable {n : Nat} {V : Type} {kernel : Spec n V} {id : Nat} {free : List U8} {slot : U8}
  {value : V} {task : Fin n}

/-- The free list of a pool and what waits for it. -/
structure Stocked (kernel : Spec n V) (id : Nat) (free : List U8) : Prop where
  chain : Linked.Chain (kernel.pool id).freeLink (Pool.link (kernel.pool id).freeHead) free
  exhausted : kernel.waitHead (.pool id) ≠ [] → free = []
  parked : ∀ task ∈ kernel.waitHead (.pool id),
    (kernel.tcb task).waitPtr = .stack task ∧ kernel.frame (some task) ≠ none

/-- The first free slot is taken for a value. -/
def grant (kernel : Spec n V) (id : Nat) (slot : U8) (value : V) : Spec n V :=
  kernel.setPool id { kernel.pool id with
    freeHead := (kernel.pool id).next slot.val
    nodes := Function.update (kernel.pool id).nodes slot.val (some value) }

/-- The slot goes to a caller of `alloc_blocking` that did not have to wait. -/
def grantTo (kernel : Spec n V) (id : Nat) (slot : U8) (value : V) (task : Fin n) : Spec n V :=
  Kernel.setWaitPtr (kernel.grant id slot value) task (.word (BitVec.ofNat 32 slot.val))

/-- A slot goes back to the front of the free list. -/
def restock (kernel : Spec n V) (id : Nat) (slot : U8) : Spec n V :=
  kernel.setPool id { kernel.pool id with
    next := Function.update (kernel.pool id).next slot.val (kernel.pool id).freeHead
    freeHead := slot }

/-- A slot and the ready state pass to a waiter, whose value moves into the slot. -/
def deliver (kernel : Spec n V) (id : Nat) (slot : U8) (value : V) (waiter : Fin n) : Spec n V :=
  let copied := (kernel.remove (.pool id) waiter).setPool id { kernel.pool id with
    nodes := Function.update (kernel.pool id).nodes slot.val (some value) }
  let told := Kernel.setWaitPtr copied waiter (.word (BitVec.ofNat 32 slot.val))
  told.setState waiter (.ready (told.tcb waiter).timeSlice)

/-- The word written for a slot is read back as that slot. -/
theorem assignedSlot_eq {word : U8} (told : (kernel.tcb task).waitPtr =
    .word (BitVec.ofNat 32 word.val)) : Pool.assignedSlot kernel task = .ok word := by
  have small : word.val % 2 ^ 32 = word.val := Nat.mod_eq_of_lt (by omega)
  have same : Fin.ofNat (2 ^ 8) (BitVec.ofNat 32 word.val).toNat = word := by
    apply Fin.ext
    rw [BitVec.toNat_ofNat, small, Fin.val_ofNat]
    exact Nat.mod_eq_of_lt word.isLt
  simp only [Pool.assignedSlot, Kernel.waitWord, told, Except.ok_bind, same]

namespace Stocked

theorem freeHead_eq_endMark (stocked : Stocked kernel id []) :
    (kernel.pool id).freeHead = Pool.endMark := by
  simpa using stocked.chain

theorem freeHead_eq (stocked : Stocked kernel id (slot :: free)) :
    (kernel.pool id).freeHead = slot ∧ slot ≠ Pool.endMark := by
  simpa using stocked.chain.1

/-- Nobody waits while a slot is free. -/
theorem noWaiter (stocked : Stocked kernel id (slot :: free)) :
    kernel.waitHead (.pool id) = [] := by
  by_contra waits
  simpa using stocked.exhausted waits

/-- `alloc` on an exhausted pool. -/
theorem alloc_nil (stocked : Stocked kernel id []) (value : V) :
    Pool.alloc kernel id value = .ok (kernel, none) := by
  simp [Pool.alloc, stocked.freeHead_eq_endMark]

theorem takeSlot_eq (stocked : Stocked kernel id (slot :: free))
    (inBounds : slot.val < (kernel.pool id).capacity) (value : V) :
    Pool.takeSlot (kernel.pool id) value = .ok ({ kernel.pool id with
      freeHead := (kernel.pool id).next slot.val
      nodes := Function.update (kernel.pool id).nodes slot.val (some value) }, slot) := by
  simp [Pool.takeSlot, stocked.freeHead_eq.1, inBounds]

/-- `alloc` takes the first free slot. -/
theorem alloc_cons (stocked : Stocked kernel id (slot :: free))
    (inBounds : slot.val < (kernel.pool id).capacity) (value : V) :
    Pool.alloc kernel id value = .ok (kernel.grant id slot value, some slot) := by
  have notEnd : (kernel.pool id).freeHead ≠ Pool.endMark := by
    rw [stocked.freeHead_eq.1]
    exact stocked.freeHead_eq.2
  simp only [Pool.alloc, if_pos notEnd, stocked.takeSlot_eq inBounds, Except.ok_bind]
  rfl

/-- `alloc_blocking` on an exhausted pool parks the value and blocks. -/
theorem allocBlocking_nil (stocked : Stocked kernel id []) (isCurrent : kernel.current = some task)
    (value : V) : Pool.allocBlocking kernel id value =
      .ok (kernel.parkLocal (.pool id) task (some value), true) := by
  have atEnd : ¬(kernel.pool id).freeHead ≠ Pool.endMark := by simp [stocked.freeHead_eq_endMark]
  have parks : Kernel.blockCurrent (Kernel.setWaitPtr (kernel.setFrame (some task) (some value))
      task (.stack task)) (.pool id) = .ok (kernel.parkLocal (.pool id) task (some value)) :=
    blockCurrent_eq isCurrent
  simp only [Pool.allocBlocking, isCurrent, deref_some, Except.ok_bind, if_neg atEnd, parks]

/-- `alloc_blocking` takes the first free slot. -/
theorem allocBlocking_cons (stocked : Stocked kernel id (slot :: free))
    (inBounds : slot.val < (kernel.pool id).capacity) (isCurrent : kernel.current = some task)
    (value : V) : Pool.allocBlocking kernel id value =
      .ok (kernel.grantTo id slot value task, false) := by
  have notEnd : (kernel.pool id).freeHead ≠ Pool.endMark := by
    rw [stocked.freeHead_eq.1]
    exact stocked.freeHead_eq.2
  simp only [Pool.allocBlocking, isCurrent, deref_some, Except.ok_bind, if_pos notEnd,
    stocked.takeSlot_eq inBounds]
  rfl

/-- A slot nobody waits for is put back. -/
theorem release_idle (noWaiter : kernel.waitHead (.pool id) = [])
    (inBounds : slot.val < (kernel.pool id).capacity) :
    Pool.release kernel id slot = .ok (kernel.restock id slot, false) := by
  have idle : kernel.noWaiter (.pool id) = true := noWaiter_iff.mpr noWaiter
  simp only [Pool.release, idle, Bool.not_true, Bool.false_eq_true, if_false, inBounds, if_true]
  rfl

/-- A slot somebody waits for is handed over. -/
theorem release_waiter (stocked : Stocked kernel id free)
    (waiting : kernel.waitHead (.pool id) ≠ []) (launched : kernel.current ≠ none)
    (inBounds : slot.val < (kernel.pool id).capacity) :
    ∃ waiter ∈ kernel.waitHead (.pool id), ∃ value pend, kernel.frame (some waiter) = some value ∧
      Pool.release kernel id slot = .ok (kernel.deliver id slot value waiter, pend) := by
  obtain ⟨waiter, member, pops⟩ := pop_eq waiting
  obtain ⟨points, stores⟩ := stocked.parked waiter member
  obtain ⟨value, stored⟩ := Option.ne_none_iff_exists'.mp stores
  have busy : kernel.noWaiter (.pool id) = false := noWaiter_eq_false.mpr waiting
  have src : Kernel.waitFrame (kernel.remove (.pool id) waiter) waiter = .ok waiter :=
    waitFrame_eq (by simpa using points)
  obtain ⟨pend, unblocks⟩ := unblock_eq (Kernel.setWaitPtr (Kernel.setPool
    (kernel.remove (.pool id) waiter) id { kernel.pool id with
      nodes := Function.update (kernel.pool id).nodes slot.val (some value) })
    waiter (.word (BitVec.ofNat 32 slot.val))) (by simpa using launched) waiter
  refine ⟨waiter, member, value, pend, stored, ?_⟩
  simp only [Pool.release, busy, Bool.not_false, if_true, pops, Except.ok_bind, deref_some, src,
    remove_toStatics, stored, inBounds]
  exact unblocks

/-- What a pool needs to stay stocked with the same free list. -/
theorem congr (stocked : Stocked kernel id free) {after : Spec n V}
    (next : (after.pool id).next = (kernel.pool id).next)
    (freeHead : (after.pool id).freeHead = (kernel.pool id).freeHead)
    (waiters : ∀ task ∈ after.waitHead (.pool id), task ∈ kernel.waitHead (.pool id) ∧
      (after.tcb task).waitPtr = (kernel.tcb task).waitPtr ∧
        after.frame (some task) = kernel.frame (some task)) : Stocked after id free where
  chain := by
    have same : (after.pool id).freeLink = (kernel.pool id).freeLink := by
      funext slot
      rw [PoolInner.freeLink, PoolInner.freeLink, next]
    rw [same, freeHead]
    exact stocked.chain
  exhausted waits := by
    obtain ⟨task, member⟩ := List.exists_mem_of_ne_nil _ waits
    exact stocked.exhausted (List.ne_nil_of_mem (waiters task member).1)
  parked task member := by
    obtain ⟨before, waitPtr, frame⟩ := waiters task member
    rw [waitPtr, frame]
    exact stocked.parked task before

/-- Taking the first slot leaves the others on the list. -/
theorem grant (stocked : Stocked kernel id (slot :: free)) (value : V) :
    Stocked (kernel.grant id slot value) id free where
  chain := by
    have freeHead : ((kernel.grant id slot value).pool id).freeHead =
        (kernel.pool id).next slot.val := by simp [Spec.grant]
    have onward : Linked.Chain (kernel.pool id).freeLink
        (Pool.link ((kernel.pool id).next slot.val)) free := stocked.chain.2
    rw [freeHead]
    exact onward.congr fun other _ => by simp [Spec.grant, PoolInner.freeLink]
  exhausted waits := absurd stocked.noWaiter waits
  parked task member := by
    have listed : task ∈ kernel.waitHead (.pool id) := member
    simp [stocked.noWaiter] at listed

theorem grantTo (stocked : Stocked kernel id (slot :: free)) (value : V) (task : Fin n) :
    Stocked (kernel.grantTo id slot value task) id free where
  chain := (stocked.grant value).chain
  exhausted := (stocked.grant value).exhausted
  parked task member := by
    have listed : task ∈ kernel.waitHead (.pool id) := member
    simp [stocked.noWaiter] at listed

/-- A caller joins the waiters of an exhausted pool. -/
theorem parkLocal (stocked : Stocked kernel id []) (task : Fin n) (value : V) :
    Stocked (kernel.parkLocal (.pool id) task (some value)) id [] where
  chain := stocked.chain
  exhausted _ := rfl
  parked other member := by
    by_cases same : other = task
    · subst same
      simp [Spec.parkLocal, Spec.blockAndPush]
    · have before : other ∈ kernel.waitHead (.pool id) := by
        simpa [Spec.parkLocal, Spec.blockAndPush, same] using member
      simpa [Spec.parkLocal, Spec.blockAndPush, same] using stocked.parked other before

/-- A slot that was not on the free list is put in front of it. -/
theorem restock (stocked : Stocked kernel id free) (noWaiter : kernel.waitHead (.pool id) = [])
    (fresh : slot ∉ free) (valid : slot ≠ Pool.endMark) :
    Stocked (kernel.restock id slot) id (slot :: free) where
  chain := by
    have onward : ((kernel.restock id slot).pool id).freeLink slot =
        Pool.link (kernel.pool id).freeHead := by
      simp [Spec.restock, PoolInner.freeLink]
    refine ⟨by simp [Spec.restock, valid], ?_⟩
    rw [onward]
    refine stocked.chain.congr fun other member => ?_
    have different : other.val ≠ slot.val := fun same => fresh (Fin.ext same ▸ member)
    simp [Spec.restock, PoolInner.freeLink, different]
  exhausted waits := absurd noWaiter waits
  parked task member := by
    have listed : task ∈ kernel.waitHead (.pool id) := member
    simp [noWaiter] at listed

/-- A slot is handed over past the free list. -/
theorem deliver (wf : WellFormed kernel none) (stocked : Stocked kernel id free) (slot : U8)
    (value : V) (waiter : Fin n) : Stocked (kernel.deliver id slot value waiter) id free := by
  refine stocked.congr (by simp [Spec.deliver]) (by simp [Spec.deliver]) ?_
  intro task member
  have left : task ∈ (kernel.waitHead (.pool id)).erase waiter := by
    simpa [Spec.deliver] using member
  obtain ⟨other, listed⟩ := (List.Nodup.mem_erase_iff (wf.nodup _)).mp left
  exact ⟨listed, by simp [Spec.deliver, other], by simp [Spec.deliver]⟩

end Stocked

end Spec

end Kangaroos
