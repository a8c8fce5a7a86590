import Kangaroos.Logic.Observer
import Kangaroos.Proofs.PoolOwnership

/-!
# Pool values are linear

A `PoolBook` follows every value passed to a pool from the call that brings it to its
destruction. Calls are numbered; the book notes which call a task or a handler is in, which
call produced a live box, and what was destroyed, by the call itself or by the drop of a box.
What is destroyed is read off the code: off what `alloc` does with its argument for the slot it
found, off the end of the scope of `src`, and off the slot before and after the destructor.
`Linear` says that the book and the memory agree: whatever a box dereferences to is the value
of its own call, every value is in one place, and a slot without a box or a call is empty.
-/

namespace Kangaroos

/-- The books of a pool. `value` is what a call was given, as last written through the box
that call returned. -/
structure PoolBook (n : Nat) (V : Type) where
  calls : Nat
  value : Nat → Option V
  task : Fin n → Option Nat
  handler : U8 → Option Nat
  box : U8 → Option Nat
  rejected : List (Nat × V)
  dropped : List (Nat × V)

/-- Where a value passed to a pool can be. -/
inductive ValuePlace (n : Nat) where
  | rejected
  | dropped
  | boxes
  | handlers
  | call (task : Fin n)
  deriving DecidableEq, Fintype

namespace PoolBook

variable {n : Nat} {V Link Head : Type}

/-- Books without entries. -/
def blank : PoolBook n V where
  calls := 0
  value _ := none
  task _ := none
  handler _ := none
  box _ := none
  rejected := []
  dropped := []

/-- A value is passed to the next call; `gone` is what the call destroys of it at once. -/
def pass (book : PoolBook n V) (value : V) (gone : Option V) : PoolBook n V :=
  { book with
    calls := book.calls + 1
    value := Function.update book.value book.calls (some value)
    rejected := gone.toList.map (book.calls, ·) ++ book.rejected }

/-- A task enters a call with a value. -/
def enter (book : PoolBook n V) (task : Fin n) (value : V) (gone : Option V) : PoolBook n V :=
  { book.pass value gone with task := Function.update book.task task (some book.calls) }

/-- The `alloc` of an interrupt handler has a slot for a value. -/
def handle (book : PoolBook n V) (slot : U8) (value : V) (gone : Option V) : PoolBook n V :=
  { book.pass value gone with handler := Function.update book.handler slot (some book.calls) }

/-- What a call destroys when it returns: what ends with the scope of its `src`. -/
def leaves (book : PoolBook n V) (call : Option Nat) : List (Nat × V) :=
  call.toList.flatMap fun number =>
    ((book.value number).bind Pool.srcDrops).toList.map (number, ·)

/-- A task returns from its call with a box. -/
def returns (book : PoolBook n V) (task : Fin n) (slot : U8) : PoolBook n V :=
  { book with
    box := Function.update book.box slot (book.task task)
    task := Function.update book.task task none
    rejected := book.leaves (book.task task) ++ book.rejected }

/-- An interrupt handler gets its box. -/
def handlerReturns (book : PoolBook n V) (slot : U8) : PoolBook n V :=
  { book with
    box := Function.update book.box slot (book.handler slot)
    rejected := book.leaves (book.handler slot) ++ book.rejected }

/-- The box of a slot is dropped: `gone` is what has been destroyed in the slot. -/
def drop (book : PoolBook n V) (slot : U8) (gone : Option V) : PoolBook n V :=
  match book.box slot, gone with
  | some call, some value => { book with dropped := (call, value) :: book.dropped }
  | _, _ => book

/-- A write through the box of a slot. -/
def write (book : PoolBook n V) (slot : U8) (value : V) : PoolBook n V :=
  match book.box slot with
  | some call => { book with value := Function.update book.value call (some value) }
  | none => book

/-- What `alloc` returns: the slot of a box or `None`. -/
def allocResult (kernel : Kernel n V Link Head) (id : Nat) (value : V) : Option (Option U8) :=
  (Pool.alloc kernel id value).toOption.map Prod.snd

/-- What the books of a pool note of a step from `machine` to `next`. -/
def record (id : Nat) (machine : Machine n V Link Head) (action : Action V)
    (next : Machine n V Link Head) (book : PoolBook n V) : PoolBook n V :=
  match action with
  | .call (.alloc pool value) =>
    if pool = id then
      match machine.kernel.current, allocResult machine.kernel id value with
      | some task, some (some slot) => book.enter task value (Pool.allocDrops value (some slot))
      | some _, some none => book.pass value (Pool.allocDrops value none)
      | _, _ => book
    else book
  | .call (.allocBlocking pool value) =>
    if pool = id then
      match machine.kernel.current with
      | some task => book.enter task value none
      | none => book
    else book
  | .isr (.alloc pool value) =>
    if pool = id then
      match allocResult machine.kernel id value with
      | some (some slot) => book.handle slot value (Pool.allocDrops value (some slot))
      | some none => book.pass value (Pool.allocDrops value none)
      | none => book
    else book
  | .ret =>
    match machine.kernel.current with
    | some task =>
      match machine.assigned id task with
      | slot :: _ => book.returns task slot
      | [] => book
    | none => book
  | .isrRet pool slot => if pool = id then book.handlerReturns slot else book
  | .dropBox pool slot =>
    if pool = id then book.drop slot (Pool.destroyed machine.kernel next.kernel id slot) else book
  | .writeBox pool slot value => if pool = id then book.write slot value else book
  | _ => book

/-- The calls whose values are at a place. -/
def callsAt (book : PoolBook n V) (machine : Machine n V Link Head) (id : Nat) :
    ValuePlace n → Multiset Nat
  | .rejected => (book.rejected.map Prod.fst : List Nat)
  | .dropped => (book.dropped.map Prod.fst : List Nat)
  | .boxes => ((machine.boxes id).filterMap book.box : List Nat)
  | .handlers => ((machine.isrSlots id).filterMap book.handler : List Nat)
  | .call task => ((book.task task).toList : List Nat)

/-- The call a slot was granted to. -/
def callOf (book : PoolBook n V) : PoolPlace n → U8 → Option Nat
  | .boxes, slot => book.box slot
  | .handlers, slot => book.handler slot
  | .call task, _ => book.task task
  | .free, _ | .drop _, _ => none

/-- A memory cell holds the value of a call. -/
def Tells (book : PoolBook n V) (call : Option Nat) (cell : Option V) : Prop :=
  ∃ number value, call = some number ∧ book.value number = some value ∧ cell = some value

/-- A later book tells the same of a call whose value has not changed. -/
theorem Tells.congr {book after : PoolBook n V} {call : Option Nat} {cell : Option V}
    (tells : book.Tells call cell)
    (same : ∀ number, call = some number → after.value number = book.value number) :
    after.Tells call cell := by
  obtain ⟨number, value, isCall, given, stored⟩ := tells
  exact ⟨number, value, isCall, (same number isCall).trans given, stored⟩

/-- Nothing is destroyed with the scope of `src`. -/
@[simp] theorem leaves_eq (book : PoolBook n V) (call : Option Nat) : book.leaves call = [] := by
  simp [leaves, Pool.srcDrops]

/-- `alloc` destroys its value when it returns `None`, and only then. -/
theorem rejected_of_alloc [ops : WaitOps n V Link Head] {idle : Fin n} {id : Nat} {value : V}
    {machine next : Machine n V Link Head} {action : Action V} {book : PoolBook n V}
    (isAlloc : action = .call (.alloc id value) ∨ action = .isr (.alloc id value))
    (performed : machine.perform idle action = some (.ok next)) :
    (record id machine action next book).rejected =
      if allocResult machine.kernel id value = some none then (book.calls, value) :: book.rejected
      else book.rejected := by
  rcases isAlloc with rfl | rfl
  · cases Machine.step_of_perform performed with
    | call isTask notIdle triggered may returned =>
        have isCurrent := (Machine.threadTask_eq_some.mp isTask).2.2
        rcases result : allocResult machine.kernel id value with _ | _ | slot <;>
          simp [record, isCurrent, result, pass, enter, Pool.allocDrops]
  · rcases result : allocResult machine.kernel id value with _ | _ | slot <;>
      simp [record, result, pass, handle, Pool.allocDrops]

/-- The drop of a box destroys what the box dereferences to. -/
theorem destroyed_of_dropBox [ops : WaitOps n V Link Head] {idle : Fin n} {id : Nat} {slot : U8}
    {machine next : Machine n V Link Head}
    (performed : machine.perform idle (.dropBox id slot) = some (.ok next)) :
    slot ∈ machine.boxes id ∧ ∃ value, Pool.read machine.kernel id slot = .ok value ∧
      Pool.destroyed machine.kernel next.kernel id slot = some value := by
  cases Machine.step_of_perform performed with
  | dropBox isTask notIdle triggered user live returned =>
      obtain ⟨inBounds, stored, rfl⟩ := Pool.destroy_ok returned
      obtain ⟨value, isValue⟩ := Option.ne_none_iff_exists'.mp stored
      exact ⟨live, value, by simp [Pool.read, inBounds, isValue],
        by simp [Pool.destroyed, isValue]⟩

@[simp] theorem returns_rejected (book : PoolBook n V) (task : Fin n) (slot : U8) :
    (book.returns task slot).rejected = book.rejected := by
  simp [returns]

@[simp] theorem handlerReturns_rejected (book : PoolBook n V) (slot : U8) :
    (book.handlerReturns slot).rejected = book.rejected := by
  simp [handlerReturns]

end PoolBook

/-- Different members with the same image make a list of images repeat itself. -/
theorem eq_of_nodup_filterMap {α β : Type} {f : α → Option β} {list : List α} {first second : α}
    {image : β} (distinct : (list.filterMap f).Nodup) (left : first ∈ list)
    (right : second ∈ list) (isLeft : f first = some image) (isRight : f second = some image) :
    first = second := by
  induction list with
  | nil => simp at left
  | cons head rest ih =>
      have image_mem : ∀ other, other ∈ rest → f other = some image → image ∈ rest.filterMap f :=
        fun other member isImage => List.mem_filterMap.mpr ⟨other, member, isImage⟩
      rw [List.filterMap_cons] at distinct
      rcases List.mem_cons.mp left with rfl | leftRest <;>
        rcases List.mem_cons.mp right with rfl | rightRest
      · rfl
      · rw [isLeft] at distinct
        exact absurd (image_mem second rightRest isRight) (List.nodup_cons.mp distinct).1
      · rw [isRight] at distinct
        exact absurd (image_mem first leftRest isLeft) (List.nodup_cons.mp distinct).1
      · refine ih ?_ leftRest rightRest
        cases headImage : f head with
        | none => simpa [headImage] using distinct
        | some other =>
            rw [headImage] at distinct
            exact (List.nodup_cons.mp distinct).2

namespace SpecMachine

variable {n : Nat} {V : Type} {config : Config n} {machine next : SpecMachine n V} {id : Nat}
  {free : List U8} {task : Fin n} {slot : U8} {value : V} {gone : Option V} {book : PoolBook n V}

/-- Books and memory agree. -/
structure Linear (machine : SpecMachine n V) (id : Nat) (free : List U8) (book : PoolBook n V) :
    Prop where
  custody : Custody (book.callsAt machine id) (Multiset.range book.calls)
  kept : ∀ place : PoolPlace n, place.Live → ∀ slot ∈ machine.slotsAt id free place,
    book.Tells (book.callOf place slot) ((machine.kernel.pool id).nodes slot.val)
  parked : ∀ task ∈ machine.kernel.waitHead (.pool id),
    book.Tells (book.task task) (machine.kernel.frame (some task))
  idle : ∀ task, (machine.thread task).pc.home ≠ some (.pool id) → book.task task = none
  destroyed : ∀ number value, (number, value) ∈ book.rejected ∨ (number, value) ∈ book.dropped →
    book.value number = some value
  filled : ∀ slot : U8, (machine.kernel.pool id).nodes slot.val ≠ none →
    ∃ place : PoolPlace n, place.Live ∧ slot ∈ machine.slotsAt id free place

namespace Linear

/-- The value place of a live slot. -/
theorem mem_callsAt {place : PoolPlace n} {number : Nat} (live : place.Live)
    (held : slot ∈ machine.slotsAt id free place) (isCall : book.callOf place slot = some number) :
    (place = .boxes ∧ number ∈ book.callsAt machine id .boxes) ∨
    (place = .handlers ∧ number ∈ book.callsAt machine id .handlers) ∨
    ∃ task, place = .call task ∧ number ∈ book.callsAt machine id (.call task) := by
  cases place with
  | free => exact live.elim
  | drop task => exact live.elim
  | boxes => exact .inl ⟨rfl, List.mem_filterMap.mpr ⟨slot, held, isCall⟩⟩
  | handlers => exact .inr (.inl ⟨rfl, List.mem_filterMap.mpr ⟨slot, held, isCall⟩⟩)
  | call task =>
      refine .inr (.inr ⟨task, rfl, ?_⟩)
      have isTask : book.task task = some number := isCall
      simp [PoolBook.callsAt, isTask]

/-- The calls of live slots have been made. -/
theorem lt_of_callOf (linear : Linear machine id free book) {place : PoolPlace n} {number : Nat}
    (live : place.Live) (held : slot ∈ machine.slotsAt id free place)
    (isCall : book.callOf place slot = some number) : number < book.calls := by
  obtain ⟨_, member⟩ | ⟨_, member⟩ | ⟨_, _, member⟩ := mem_callsAt live held isCall <;>
    exact Multiset.mem_range.mp (linear.custody.mem member)

/-- So have those a task is in. -/
theorem lt_of_task (linear : Linear machine id free book) {number : Nat}
    (isCall : book.task task = some number) : number < book.calls := by
  have member : number ∈ book.callsAt machine id (.call task) := by
    simp [PoolBook.callsAt, isCall]
  exact Multiset.mem_range.mp (linear.custody.mem member)

/-- And those whose value was destroyed. -/
theorem lt_of_destroyed (linear : Linear machine id free book) {number : Nat}
    (gone : (number, value) ∈ book.rejected ∨ (number, value) ∈ book.dropped) :
    number < book.calls := by
  rcases gone with gone | gone
  · have member : number ∈ book.callsAt machine id .rejected := List.mem_map_of_mem (f := Prod.fst) gone
    exact Multiset.mem_range.mp (linear.custody.mem member)
  · have member : number ∈ book.callsAt machine id .dropped := List.mem_map_of_mem (f := Prod.fst) gone
    exact Multiset.mem_range.mp (linear.custody.mem member)

/-- The free list is immaterial. -/
theorem any (linear : Linear machine id free book) (free' : List U8) :
    Linear machine id free' book where
  custody := linear.custody
  kept place live slot held := by
    refine linear.kept place live slot ?_
    cases place with
    | free => exact live.elim
    | drop task => exact live.elim
    | _ => exact held
  parked := linear.parked
  idle := linear.idle
  destroyed := linear.destroyed
  filled slot stored := by
    obtain ⟨place, live, held⟩ := linear.filled slot stored
    refine ⟨place, live, ?_⟩
    cases place with
    | free => exact live.elim
    | drop task => exact live.elim
    | _ => exact held

/-- A slot on the free list and a slot whose drop has not released it are empty. -/
theorem empty (linear : Linear machine id free book) (pooled : Pooled config machine id free)
    (place : PoolPlace n) (dead : ¬place.Live) (held : slot ∈ machine.slotsAt id free place) :
    (machine.kernel.pool id).nodes slot.val = none := by
  by_contra stored
  obtain ⟨other, live, there⟩ := linear.filled slot stored
  exact dead (pooled.unique place other held there ▸ live)

/-- Reading a live slot gives the value of its call. -/
theorem reads {kernel : Rtos n V} (linear : Linear machine id free book)
    (pooled : Pooled config machine id free) (pool : kernel.pool id = machine.kernel.pool id)
    (place : PoolPlace n) (live : place.Live) (slot : U8)
    (held : slot ∈ machine.slotsAt id free place) :
    ∃ call value, book.callOf place slot = some call ∧ book.value call = some value ∧
      Pool.read kernel id slot = .ok value := by
  obtain ⟨call, value, isCall, given, stored⟩ := linear.kept place live slot held
  refine ⟨call, value, isCall, given, ?_⟩
  rw [Pool.read, pool, if_pos (pooled.inBounds place held), stored]

/-- Dropping a live box and writing through it meet a value. -/
theorem box_ok (linear : Linear machine id free book) (pooled : Pooled config machine id free)
    (slot : U8) (value : V) (fault : Fault) :
    machine.perform config.idle (.dropBox id slot) ≠ some (.error fault) ∧
      machine.perform config.idle (.writeBox id slot value) ≠ some (.error fault) := by
  have stored : slot ∈ machine.boxes id → ∃ old,
      slot.val < (machine.kernel.pool id).capacity ∧
        (machine.kernel.pool id).nodes slot.val = some old := by
    intro live
    obtain ⟨_, old, _, _, stored⟩ := linear.kept .boxes trivial slot live
    exact ⟨old, pooled.inBounds .boxes live, stored⟩
  constructor
  · intro performed
    cases Machine.faults_of_perform performed with
    | dropBox live faults =>
        obtain ⟨old, fits, stored⟩ := stored live
        simp [Pool.destroy, fits, stored] at faults
  · intro performed
    cases Machine.faults_of_perform performed with
    | writeBox live faults =>
        obtain ⟨old, fits, stored⟩ := stored live
        simp [Pool.write, fits, stored] at faults

/-- A step that leaves the pool alone. -/
theorem untouched (linear : Linear machine id free book) (core : Core config machine)
    (core' : Core config next) (untouched : Untouched (.pool id) machine next) :
    Linear next id free book := by
  have agree : next.kernel.pool id = machine.kernel.pool id := untouched.agree
  obtain ⟨boxes, isrSlots, _⟩ := untouched.slots id rfl
  refine ⟨linear.custody.congr ?_, ?_, ?_, ?_, linear.destroyed, ?_⟩
  · intro place
    cases place <;> simp only [PoolBook.callsAt, boxes, isrSlots]
  · intro place live slot held
    rw [agree]
    exact linear.kept place live slot (untouched.slotsAt core core' free place ▸ held)
  · intro task member
    rw [untouched.heads (.pool id) rfl] at member
    rw [(untouched.kept task (by rw [core.waits_inside member]; rfl)).2]
    exact linear.parked task member
  · intro task outside
    refine linear.idle task fun inside => outside ?_
    rw [untouched.pc task (.inl inside)]
    exact inside
  · intro slot stored
    rw [agree] at stored
    obtain ⟨place, live, held⟩ := linear.filled slot stored
    exact ⟨place, live, (untouched.slotsAt core core' free place).symm ▸ held⟩

/-- Passing a value to the next call changes no earlier value. -/
theorem value_pass {number : Nat} (earlier : number < book.calls) (value : V)
    (gone : Option V) :
    (book.pass value gone).value number = book.value number := by
  simp [PoolBook.pass, earlier.ne]

/-- A call destroys its value. -/
theorem reject (linear : Linear machine id free book) (value : V) :
    Linear machine id free (book.pass value (some value)) where
  custody := by
    rw [show (book.pass value (some value)).calls = book.calls + 1 from rfl, Multiset.range_succ]
    refine linear.custody.grow .rejected ?_ ?_
    · simp [PoolBook.callsAt, PoolBook.pass]
    · intro place other
      cases place with
      | rejected => exact absurd rfl other
      | _ => rfl
  kept place live slot held := by
    refine (linear.kept place live slot held).congr fun number isCall => ?_
    exact value_pass (linear.lt_of_callOf live held isCall) value (some value)
  parked task member := by
    refine (linear.parked task member).congr fun number isCall => ?_
    exact value_pass (linear.lt_of_task isCall) value (some value)
  idle := linear.idle
  destroyed number other gone := by
    have fresh : (book.pass value (some value)).value book.calls = some value := by
      simp [PoolBook.pass]
    have listed : ((number = book.calls ∧ other = value) ∨ (number, other) ∈ book.rejected) ∨
        (number, other) ∈ book.dropped := by
      simpa [PoolBook.pass] using gone
    rcases listed with (⟨rfl, rfl⟩ | gone) | gone
    · exact fresh
    · exact (value_pass (linear.lt_of_destroyed (.inl gone)) value (some value)).trans
        (linear.destroyed number other (.inl gone))
    · exact (value_pass (linear.lt_of_destroyed (.inr gone)) value (some value)).trans
        (linear.destroyed number other (.inr gone))
  filled := linear.filled

/-- The slots that hold a value after a slot has changed hands. -/
theorem kept_handed {free' : List U8} {source target : PoolPlace n} {after : PoolBook n V}
    (linear : Linear machine id free book) (pooled : Pooled config machine id free)
    (handed : Handed machine next id free free' source target slot)
    (values : ∀ number < book.calls, after.value number = book.value number)
    (calls : ∀ place : PoolPlace n, place.Live → ∀ other ∈ machine.slotsAt id free place,
      other ≠ slot → after.callOf place other = book.callOf place other)
    (filled : target.Live →
      after.Tells (after.callOf target slot) ((next.kernel.pool id).nodes slot.val))
    (place : PoolPlace n) (live : place.Live) (other : U8)
    (held : other ∈ next.slotsAt id free' place) :
    after.Tells (after.callOf place other) ((next.kernel.pool id).nodes other.val) := by
  by_cases same : other = slot
  · subst same
    have custody := pooled.custody.transfer source target _ handed.different handed.out handed.into
      handed.others
    have atTarget : other ∈ next.slotsAt id free' target :=
      handed.into ▸ Multiset.mem_cons_self other _
    obtain rfl := custody.unique (Pool.slots_nodup _) held atTarget
    exact filled live
  · have before := handed.before held same
    rw [handed.nodes other same, calls place live other before same]
    refine (linear.kept place live other before).congr fun number isCall => ?_
    exact values number (linear.lt_of_callOf live before isCall)

/-- No slot but that of a box or a call holds a value after a slot has changed hands. -/
theorem filled_handed {free' : List U8} {source target : PoolPlace n}
    (linear : Linear machine id free book)
    (handed : Handed machine next id free free' source target slot)
    (emptied : ¬target.Live → (next.kernel.pool id).nodes slot.val = none)
    (other : U8) (stored : (next.kernel.pool id).nodes other.val ≠ none) :
    ∃ place : PoolPlace n, place.Live ∧ other ∈ next.slotsAt id free' place := by
  by_cases same : other = slot
  · subst same
    refine ⟨target, not_not.mp fun dead => stored (emptied dead), ?_⟩
    rw [handed.into]
    exact Multiset.mem_cons_self other _
  · rw [handed.nodes other same] at stored
    obtain ⟨place, live, held⟩ := linear.filled other stored
    exact ⟨place, live, handed.after held same⟩

/-- A task enters a call with a value. -/
theorem enter_custody (linear : Linear machine id free book)
    (outside : (machine.thread task).pc.home ≠ some (.pool id)) (value : V)
    (boxes : next.boxes id = machine.boxes id) (isrSlots : next.isrSlots id = machine.isrSlots id) :
    Custody ((book.enter task value none).callsAt next id) (Multiset.range (book.enter task value none).calls) := by
  rw [show (book.enter task value none).calls = book.calls + 1 from rfl, Multiset.range_succ]
  refine linear.custody.grow (.call task) ?_ ?_
  · simp [PoolBook.callsAt, PoolBook.enter, linear.idle task outside]
  · intro place other
    cases place with
    | rejected => rfl
    | dropped => rfl
    | boxes => simp only [PoolBook.callsAt, boxes]; rfl
    | handlers => simp only [PoolBook.callsAt, isrSlots]; rfl
    | call caller =>
        have different : caller ≠ task := fun same => other (same ▸ rfl)
        simp [PoolBook.callsAt, PoolBook.enter, different]

theorem enter_destroyed (linear : Linear machine id free book) (task : Fin n) (value : V)
    (number : Nat) (other : V) (gone : (number, other) ∈ (book.enter task value none).rejected ∨
      (number, other) ∈ (book.enter task value none).dropped) :
    (book.enter task value none).value number = some other :=
  (value_pass (linear.lt_of_destroyed gone) value none).trans (linear.destroyed number other gone)

/-- A task enters a call and gets a slot at once. -/
theorem granted {free' : List U8} (linear : Linear machine id (slot :: free') book)
    (pooled : Pooled config machine id (slot :: free')) (core : Core config machine)
    (handed : Handed machine next id (slot :: free') free' .free (.call task) slot)
    (outside : (machine.thread task).pc.home ≠ some (.pool id))
    (nodes : (next.kernel.pool id).nodes slot.val = some value)
    (boxes : next.boxes id = machine.boxes id) (isrSlots : next.isrSlots id = machine.isrSlots id)
    (waitHead : next.kernel.waitHead (.pool id) = machine.kernel.waitHead (.pool id))
    (frame : next.kernel.frame = machine.kernel.frame)
    (inside : (next.thread task).pc.home = some (.pool id))
    (others : ∀ other, other ≠ task → (next.thread other).pc = (machine.thread other).pc) :
    Linear next id free' (book.enter task value none) where
  custody := linear.enter_custody outside value boxes isrSlots
  kept := by
    refine linear.kept_handed pooled handed (fun number earlier => value_pass earlier value none) ?_ ?_
    · intro place live other held different
      cases place with
      | call caller =>
          have awake : caller ≠ task := by
            rintro rfl
            rw [Machine.slotsAt, Machine.assigned_eq_nil outside] at held
            simp at held
          simp [PoolBook.callOf, PoolBook.enter, awake]
      | _ => rfl
    · intro _
      exact ⟨book.calls, value, by simp [PoolBook.callOf, PoolBook.enter],
        by simp [PoolBook.enter, PoolBook.pass], nodes⟩
  parked other member := by
    rw [waitHead] at member
    have different : other ≠ task := by
      rintro rfl
      exact outside (by rw [core.waits_inside member]; rfl)
    have same : (book.enter task value none).task other = book.task other := by
      simp [PoolBook.enter, different]
    rw [same, frame]
    refine (linear.parked other member).congr fun number isCall => ?_
    exact value_pass (linear.lt_of_task isCall) value none
  idle other away := by
    have different : other ≠ task := by
      rintro rfl
      exact away inside
    have before := linear.idle other (others other different ▸ away)
    simpa [PoolBook.enter, different] using before
  destroyed := linear.enter_destroyed task value
  filled := linear.filled_handed handed fun dead => absurd trivial dead

/-- A task enters `alloc_blocking` and waits. -/
theorem park (linear : Linear machine id free book) (user : (machine.thread task).pc = .user)
    {pendsv : Bool} : Linear (machine.called task (.allocBlocking id value)
      (Spec.parkLocal machine.kernel (.pool id) task (some value))
      { pend := true, pc := .allocBlockingRet id } pendsv) id free (book.enter task value none) where
  custody := linear.enter_custody (by simp [user, Pc.home]) value rfl rfl
  kept place live slot held := by
    rw [slotsAt_park user value place] at held
    have same : (book.enter task value none).callOf place slot = book.callOf place slot := by
      cases place with
      | call caller =>
          have awake : caller ≠ task := by
            rintro rfl
            rw [Machine.slotsAt, Machine.assigned_eq_nil (by simp [user, Pc.home])] at held
            simp at held
          simp [PoolBook.callOf, PoolBook.enter, awake]
      | _ => rfl
    rw [same]
    refine (linear.kept place live slot held).congr fun number isCall => ?_
    exact value_pass (linear.lt_of_callOf live held isCall) value none
  parked other member := by
    by_cases same : other = task
    · subst same
      exact ⟨book.calls, value, by simp [PoolBook.enter], by simp [PoolBook.enter, PoolBook.pass],
        by simp [Spec.parkLocal, Spec.blockAndPush]⟩
    · have before : other ∈ machine.kernel.waitHead (.pool id) := by
        simpa [Spec.parkLocal, Spec.blockAndPush, same] using member
      have sameCall : (book.enter task value none).task other = book.task other := by
        simp [PoolBook.enter, same]
      have sameFrame : (Spec.parkLocal machine.kernel (.pool id) task (some value)).frame
          (some other) = machine.kernel.frame (some other) := by
        simp [Spec.parkLocal, Spec.blockAndPush, same]
      rw [sameCall, sameFrame]
      refine (linear.parked other before).congr fun number isCall => ?_
      exact value_pass (linear.lt_of_task isCall) value none
  idle other away := by
    have different : other ≠ task := by
      rintro rfl
      simp [Machine.setThread, Thread.after, Pc.home] at away
    have before := linear.idle other (by simpa [Machine.setThread, different] using away)
    simpa [PoolBook.enter, different] using before
  destroyed := linear.enter_destroyed task value
  filled slot stored := by
    obtain ⟨place, live, held⟩ := linear.filled slot stored
    exact ⟨place, live, (slotsAt_park user value place).symm ▸ held⟩

/-- The `alloc` of an interrupt handler gets a slot. -/
theorem handle {free' : List U8} (linear : Linear machine id (slot :: free') book)
    (pooled : Pooled config machine id (slot :: free')) {pendsv : Bool} :
    Linear { machine with
      kernel := Spec.grant machine.kernel id slot value, pendsv
      isrSlots := Function.update machine.isrSlots id (slot :: machine.isrSlots id) } id free'
      (book.handle slot value none) where
  custody := by
    rw [show (book.handle slot value none).calls = book.calls + 1 from rfl, Multiset.range_succ]
    have fresh : slot ∉ machine.isrSlots id := by
      intro held
      have listed : slot ∈ machine.slotsAt id (slot :: free') .free := by simp [Machine.slotsAt]
      cases pooled.unique .free .handlers listed held
    have same : (machine.isrSlots id).filterMap (book.handle slot value none).handler =
        (machine.isrSlots id).filterMap book.handler := by
      refine List.filterMap_congr fun other held => ?_
      have different : other ≠ slot := by
        rintro rfl
        exact fresh held
      simp [PoolBook.handle, different]
    refine linear.custody.grow .handlers ?_ ?_
    · have gets : (book.handle slot value none).handler slot = some book.calls := by
        simp [PoolBook.handle]
      simp only [PoolBook.callsAt, Function.update_self, List.filterMap_cons, gets, same]
      rfl
    · intro place other
      cases place with
      | handlers => exact absurd rfl other
      | _ => rfl
  kept := by
    refine linear.kept_handed pooled (.allocIsr slot value)
      (fun number earlier => value_pass earlier value none) ?_ ?_
    · intro place live other held different
      cases place with
      | handlers => simp [PoolBook.callOf, PoolBook.handle, different]
      | _ => rfl
    · intro _
      exact ⟨book.calls, value, by simp [PoolBook.callOf, PoolBook.handle],
        by simp [PoolBook.handle, PoolBook.pass], by simp [Spec.grant]⟩
  parked other member := by
    refine (linear.parked other member).congr fun number isCall => ?_
    exact value_pass (linear.lt_of_task isCall) value none
  idle := linear.idle
  destroyed number other gone :=
    (value_pass (linear.lt_of_destroyed gone) value none).trans (linear.destroyed number other gone)
  filled := linear.filled_handed (.allocIsr slot value) fun dead => absurd trivial dead

/-- The end of a drop: the slot goes back to the free list, or to a waiter with its value. -/
theorem release {kernel : Spec n V} {outcome : Outcome} {pendsv : Bool}
    (linear : Linear machine id free book) (pooled : Pooled config machine id free)
    (core : Core config machine) (isCurrent : machine.kernel.current = some task)
    (runs : (machine.kernel.tcb task).state.isRunning = true)
    (may : (machine.thread task).mayCall (.releaseBox id slot : Call V) = true)
    (returned : (Call.releaseBox id slot).run (some task) machine.kernel = .ok (kernel, outcome)) :
    ∃ free, Linear (machine.called task (.releaseBox id slot) kernel outcome pendsv) id free book := by
  obtain ⟨rest, _, drops⟩ := Thread.drops_of_mayCall may
  have held : slot ∈ (machine.thread task).drops id := by simp [drops]
  have user := Thread.home_of_mayCall may
  have idle : ∀ other, other ≠ task → (machine.thread other).pc.home ≠ some (.pool id) →
      book.task other = none := fun other _ => linear.idle other
  have custody : Custody (book.callsAt (machine.called task (.releaseBox id slot) kernel outcome
      pendsv) id) (Multiset.range book.calls) :=
    linear.custody.congr fun place => by cases place <;> rfl
  have atRest : ∀ other, ((machine.called task (.releaseBox id slot) kernel outcome pendsv).thread
      other).pc.home ≠ some (.pool id) → book.task other = none := by
    intro other away
    by_cases same : other = task
    · subst same
      exact linear.idle other (by simp [user])
    · exact linear.idle other (by simpa [Machine.setThread, same] using away)
  rcases pooled.run_releaseBox isCurrent held with
    ⟨nobody, restocks⟩ | ⟨waiter, member, value, pend, stored, delivers⟩
  · obtain ⟨rfl, rfl⟩ : Spec.restock machine.kernel id slot = kernel ∧ {} = outcome := by
      simpa using restocks.symm.trans returned
    exact ⟨slot :: free, custody,
      linear.kept_handed pooled (.restock may) (fun _ _ => rfl) (fun _ _ _ _ _ => rfl)
        (fun live => live.elim), linear.parked, atRest, linear.destroyed,
      linear.filled_handed (.restock may) fun _ => by
        simpa [Spec.restock] using linear.empty pooled (.drop task) (fun live => live) held⟩
  · obtain ⟨rfl, rfl⟩ : Spec.deliver machine.kernel id slot value waiter = kernel ∧
        { pend } = outcome := by
      simpa using delivers.symm.trans returned
    have awake : waiter ≠ task := by
      rintro rfl
      exact core.wf.not_mem_of_running runs member
    have pc := core.waits_inside member
    refine ⟨free, custody, linear.kept_handed pooled
      (.deliver may awake pc ((core.isBlocked_iff pc).mpr member) value) (fun _ _ => rfl)
      (fun _ _ _ _ _ => rfl) ?_, ?_, atRest, linear.destroyed, linear.filled_handed
      (.deliver may awake pc ((core.isBlocked_iff pc).mpr member) value) fun dead =>
        absurd trivial dead⟩
    · intro _
      -- the value of the waiter's own call is copied from its frame
      have parked := linear.parked waiter member
      rw [stored] at parked
      simpa [Spec.deliver, PoolBook.callOf] using parked
    · intro other waits
      have before : other ∈ machine.kernel.waitHead (.pool id) := by
        have erased : other ∈ (machine.kernel.waitHead (.pool id)).erase waiter := by
          simpa [Spec.deliver] using waits
        exact List.mem_of_mem_erase erased
      simpa [Spec.deliver] using linear.parked other before

/-- A call returns its box. -/
theorem box (linear : Linear machine id free book) (pooled : Pooled config machine id free)
    (core : Core config machine) (runs : (machine.kernel.tcb task).state.isRunning = true)
    (had : machine.assigned id task = [slot]) :
    Linear ((machine.setThread task { machine.thread task with pc := .user }).addBox id slot) id free
      (book.returns task slot) := by
  have held : slot ∈ machine.slotsAt id free (.call task) := by
    simp [Machine.slotsAt, had]
  obtain ⟨number, value, isCall, given, stored⟩ := linear.kept (.call task) trivial slot held
  have isTask : book.task task = some number := isCall
  have fresh : slot ∉ machine.boxes id := by
    intro boxed
    cases pooled.unique (.call task) .boxes held boxed
  have gets : (book.returns task slot).box slot = some number := by
    simp [PoolBook.returns, isTask]
  have sameBox : ∀ other, other ≠ slot → (book.returns task slot).box other = book.box other := by
    intro other different
    simp [PoolBook.returns, different]
  have sameTask : ∀ other, other ≠ task → (book.returns task slot).task other = book.task other := by
    intro other different
    simp [PoolBook.returns, different]
  refine ⟨?_, ?_, ?_, ?_, ?_, linear.filled_handed (.box had) fun dead => absurd trivial dead⟩
  · refine linear.custody.transfer (.call task) .boxes number (by simp) ?_ ?_ ?_
    · simp [PoolBook.callsAt, PoolBook.returns, isTask]
    · have same : (machine.boxes id).filterMap (book.returns task slot).box =
          (machine.boxes id).filterMap book.box :=
        List.filterMap_congr fun other boxed =>
          sameBox other fun isSlot => fresh (isSlot ▸ boxed)
      have boxes : ((machine.setThread task { machine.thread task with pc := .user }).addBox id
          slot).boxes id = slot :: machine.boxes id := by
        simp [Machine.addBox, Machine.setThread]
      simp only [PoolBook.callsAt, boxes, List.filterMap_cons, gets, same]
      rfl
    · intro place notCall notBoxes
      cases place with
      | boxes => exact absurd rfl notBoxes
      | call other =>
          have different : other ≠ task := fun same => notCall (same ▸ rfl)
          simp [PoolBook.callsAt, sameTask other different]
      | rejected => simp [PoolBook.callsAt]
      | _ => rfl
  · refine linear.kept_handed pooled (.box had) (fun _ _ => rfl) ?_ ?_
    · intro place live other before different
      cases place with
      | boxes => exact sameBox other different
      | call caller =>
          have notTask : caller ≠ task := by
            rintro rfl
            rw [Machine.slotsAt, had] at before
            exact different (by simpa using before)
          exact sameTask caller notTask
      | _ => rfl
    · intro _
      exact ⟨number, value, gets, given, stored⟩
  · intro other member
    have different : other ≠ task := by
      rintro rfl
      exact core.wf.not_mem_of_running runs member
    rw [sameTask other different]
    exact linear.parked other member
  · intro other away
    by_cases same : other = task
    · subst same
      simp [PoolBook.returns]
    · rw [sameTask other same]
      exact linear.idle other (by simpa [Machine.addBox, Machine.setThread, same] using away)
  · intro call other gone
    rw [PoolBook.returns_rejected] at gone
    exact linear.destroyed call other gone

/-- An interrupt handler gets its box. -/
theorem handlerReturns (linear : Linear machine id free book)
    (pooled : Pooled config machine id free) (assigned : slot ∈ machine.isrSlots id) :
    Linear { machine.addBox id slot with
      isrSlots := Function.update machine.isrSlots id ((machine.isrSlots id).erase slot) } id free
      (book.handlerReturns slot) := by
  obtain ⟨number, value, isCall, given, stored⟩ := linear.kept .handlers trivial slot assigned
  have isHandler : book.handler slot = some number := isCall
  have fresh : slot ∉ machine.boxes id := by
    intro boxed
    cases pooled.unique .handlers .boxes assigned boxed
  have gets : (book.handlerReturns slot).box slot = some number := by
    simp [PoolBook.handlerReturns, isHandler]
  have sameBox : ∀ other, other ≠ slot → (book.handlerReturns slot).box other = book.box other := by
    intro other different
    simp [PoolBook.handlerReturns, different]
  refine ⟨?_, ?_, linear.parked, linear.idle, ?_,
    linear.filled_handed (.isrRet assigned) fun dead => absurd trivial dead⟩
  · refine linear.custody.transfer .handlers .boxes number (by simp) ?_ ?_ ?_
    · have split := ((List.perm_cons_erase assigned).filterMap book.handler)
      rw [List.filterMap_cons, isHandler] at split
      simpa [PoolBook.callsAt, PoolBook.handlerReturns] using split
    · have same : (machine.boxes id).filterMap (book.handlerReturns slot).box =
          (machine.boxes id).filterMap book.box :=
        List.filterMap_congr fun other boxed =>
          sameBox other fun isSlot => fresh (isSlot ▸ boxed)
      simp only [PoolBook.callsAt, Machine.addBox, Function.update_self, List.filterMap_cons, gets, same]
      rfl
    · intro place notHandlers notBoxes
      cases place with
      | boxes => exact absurd rfl notBoxes
      | handlers => exact absurd rfl notHandlers
      | rejected => simp [PoolBook.callsAt]
      | _ => rfl
  · refine linear.kept_handed pooled (.isrRet assigned) (fun _ _ => rfl) ?_ ?_
    · intro place live other before different
      cases place with
      | boxes => exact sameBox other different
      | _ => rfl
    · intro _
      exact ⟨number, value, gets, given, stored⟩
  · intro call other gone
    rw [PoolBook.handlerReturns_rejected] at gone
    exact linear.destroyed call other gone

/-- A box is dropped: the destructor destroys the value of its call. -/
theorem drop (linear : Linear machine id free book) (pooled : Pooled config machine id free)
    (user : (machine.thread task).pc = .user) (live : slot ∈ machine.boxes id) :
    Linear (Handed.droppedBox machine id slot task) id free (book.drop slot
      (Pool.destroyed machine.kernel (Handed.droppedBox machine id slot task).kernel id slot)) := by
  obtain ⟨number, value, isCall, given, stored⟩ := linear.kept .boxes trivial slot live
  have isBox : book.box slot = some number := isCall
  have gone : Pool.destroyed machine.kernel (Handed.droppedBox machine id slot task).kernel id slot =
      some value := by
    simp [Pool.destroyed, stored]
  have after : book.drop slot (some value) =
      { book with dropped := (number, value) :: book.dropped } := by
    simp only [PoolBook.drop, isBox]
  rw [gone, after]
  refine ⟨?_, ?_, linear.parked, ?_, ?_, linear.filled_handed (.dropBox live) fun _ => by simp⟩
  · refine linear.custody.transfer .boxes .dropped number (by simp) ?_ ?_ ?_
    · have split := ((List.perm_cons_erase live).filterMap book.box)
      rw [List.filterMap_cons, isBox] at split
      simpa [PoolBook.callsAt, Machine.removeBox, Machine.setThread] using split
    · simp [PoolBook.callsAt]
    · intro place notBoxes notDropped
      cases place with
      | boxes => exact absurd rfl notBoxes
      | dropped => exact absurd rfl notDropped
      | _ => rfl
  · exact linear.kept_handed pooled (.dropBox live) (fun _ _ => rfl) (fun _ _ _ _ _ => by
      cases ‹PoolPlace n› <;> rfl) (fun live => live.elim)
  · intro other away
    refine linear.idle other ?_
    by_cases same : other = task
    · subst same
      simp [user, Pc.home]
    · simpa [Machine.setThread, Machine.removeBox, same] using away
  · intro other gone listed
    simp only [List.mem_cons, Prod.mk.injEq] at listed
    rcases listed with rejected | ⟨rfl, rfl⟩ | dropped
    · exact linear.destroyed other gone (.inl rejected)
    · exact given
    · exact linear.destroyed other gone (.inr dropped)

/-- The call of a box is the call of no other live slot, no blocked task and no destroyed
value. -/
theorem callOf_unique (linear : Linear machine id free book) {number : Nat} {place : PoolPlace n}
    {other : U8} (boxed : slot ∈ machine.boxes id) (isBox : book.box slot = some number)
    (live : place.Live) (held : other ∈ machine.slotsAt id free place)
    (isCall : book.callOf place other = some number) : place = .boxes ∧ other = slot := by
  have member : number ∈ book.callsAt machine id .boxes :=
    List.mem_filterMap.mpr ⟨slot, boxed, isBox⟩
  have distinct := Multiset.nodup_range book.calls
  obtain ⟨rfl, there⟩ | ⟨_, there⟩ | ⟨caller, _, there⟩ := mem_callsAt live held isCall
  · exact ⟨rfl, eq_of_nodup_filterMap (linear.custody.nodup distinct .boxes) held boxed isCall isBox⟩
  · cases linear.custody.unique distinct member there
  · cases linear.custody.unique distinct member there

/-- A write through a box. -/
theorem write (linear : Linear machine id free book) (pooled : Pooled config machine id free)
    (live : slot ∈ machine.boxes id) (value : V) :
    Linear { machine with
      kernel := machine.kernel.setPool id { machine.kernel.pool id with
        nodes := Function.update (machine.kernel.pool id).nodes slot.val (some value) } } id free
      (book.write slot value) := by
  obtain ⟨number, old, isCall, given, stored⟩ := linear.kept .boxes trivial slot live
  have isBox : book.box slot = some number := isCall
  have member : number ∈ book.callsAt machine id .boxes :=
    List.mem_filterMap.mpr ⟨slot, live, isBox⟩
  have distinct := Multiset.nodup_range book.calls
  have after : book.write slot value =
      { book with value := Function.update book.value number (some value) } := by
    simp only [PoolBook.write, isBox]
  rw [after]
  refine ⟨linear.custody.congr fun place => by cases place <;> rfl, ?_, ?_, linear.idle, ?_, ?_⟩
  · intro place alive other held
    have before : other ∈ machine.slotsAt id free place := by cases place <;> exact held
    obtain ⟨call, kept, isOther, gives, holds⟩ := linear.kept place alive other before
    by_cases same : call = number
    · subst same
      obtain ⟨rfl, rfl⟩ := linear.callOf_unique live isBox alive before isOther
      exact ⟨call, value, isOther, by simp, by simp⟩
    · have different : other.val ≠ slot.val := by
        intro equal
        obtain rfl : other = slot := Fin.ext equal
        obtain rfl := pooled.unique place .boxes before live
        exact same (Option.some.inj (isOther.symm.trans isCall))
      exact ⟨call, kept, isOther, by simp [same, gives], by simp [different, holds]⟩
  · intro other waits
    refine (linear.parked other waits).congr fun call isOther => ?_
    have apart : call ≠ number := by
      rintro rfl
      have there : call ∈ book.callsAt machine id (.call other) := by
        simp [PoolBook.callsAt, isOther]
      cases linear.custody.unique distinct member there
    simp [apart]
  · intro call gone listed
    have apart : call ≠ number := by
      rintro rfl
      rcases listed with rejected | dropped
      · have there : call ∈ book.callsAt machine id .rejected :=
          List.mem_map_of_mem (f := Prod.fst) rejected
        cases linear.custody.unique distinct member there
      · have there : call ∈ book.callsAt machine id .dropped :=
          List.mem_map_of_mem (f := Prod.fst) dropped
        cases linear.custody.unique distinct member there
    have before := linear.destroyed call gone listed
    simpa [apart] using before
  · intro other holds
    by_cases same : other = slot
    · exact ⟨.boxes, trivial, same ▸ live⟩
    · obtain ⟨place, alive, held⟩ := linear.filled other (by simpa [Fin.val_ne_of_ne same] using holds)
      exact ⟨place, alive, by cases place <;> exact held⟩

end Linear

section Record

variable {action : Action V} {call : Call V}

/-- The books note nothing of the scheduler's steps. -/
theorem record_of_schedules (schedules : action.schedules = true) :
    PoolBook.record id machine action next book = book := by
  cases action <;> simp_all [Action.schedules, PoolBook.record]

/-- Nor of the sections on anything else. -/
theorem record_of_apart (apart : .pool id ∉ call.uses) :
    PoolBook.record id machine (.call call) next book = book ∧
      PoolBook.record id machine (.isr call) next book = book := by
  cases call with
  | alloc pool value =>
      have other : pool ≠ id := by
        rintro rfl
        simp [Call.uses] at apart
      simp [PoolBook.record, other]
  | allocBlocking pool value =>
      have other : pool ≠ id := by
        rintro rfl
        simp [Call.uses] at apart
      simp [PoolBook.record, other]
  | _ => exact ⟨rfl, rfl⟩

end Record

namespace Linear

/-- The sections of a task. -/
theorem call (linear : Linear machine id free book) (pooled : Pooled config machine id free)
    (core : Core config machine) {call : Call V} {kernel : Spec n V} {outcome : Outcome}
    {pendsv : Bool} (core' : Core config (machine.called task call kernel outcome pendsv))
    (isCurrent : machine.kernel.current = some task)
    (runs : (machine.kernel.tcb task).state.isRunning = true)
    (may : (machine.thread task).mayCall call = true)
    (returned : call.run (some task) machine.kernel = .ok (kernel, outcome))
    (contract : call.Contract (some task) machine.kernel (kernel, outcome)) :
    ∃ free, Linear (machine.called task call kernel outcome pendsv) id free
      (PoolBook.record id machine (.call call) next book) := by
  by_cases uses : .pool id ∈ call.uses
  · obtain ⟨value, rfl⟩ | ⟨value, rfl⟩ | ⟨slot, rfl⟩ := Call.uses_pool uses
    · have user : (machine.thread task).pc = .user := by simpa [Thread.mayCall] using may
      rcases pooled.run_alloc (some task) value with ⟨rfl, refuses⟩ | ⟨slot, rest, rfl, grants⟩
      · obtain ⟨rfl, rfl⟩ : machine.kernel = kernel ∧ {} = outcome := by
          simpa using refuses.symm.trans returned
        have noted : PoolBook.record id machine (.call (.alloc id value)) next book =
            book.pass value (some value) := by
          simp only [PoolBook.record, if_true, isCurrent, PoolBook.allocResult, pooled.stocked.alloc_nil]
          rfl
        rw [noted]
        exact ⟨[], (linear.reject value).untouched core core' (.of_refused user rfl fun _ => rfl)⟩
      · obtain ⟨rfl, rfl⟩ : Spec.grant machine.kernel id slot value = kernel ∧
            { pc := .allocRet id slot } = outcome := by
          simpa using grants.symm.trans returned
        have fits := pooled.free_inBounds List.mem_cons_self
        have noted : PoolBook.record id machine (.call (.alloc id value)) next book =
            book.enter task value none := by
          simp only [PoolBook.record, if_true, isCurrent, PoolBook.allocResult,
            pooled.stocked.alloc_cons fits]
          rfl
        rw [noted]
        refine ⟨rest, linear.granted pooled core (.alloc user slot value) (by simp [user, Pc.home])
          (by simp [Spec.grant]) rfl rfl rfl rfl ?_ ?_⟩
        · simp [Machine.setThread, Thread.after, Pc.home]
        · intro other different
          simp [Machine.setThread, different]
    · have user : (machine.thread task).pc = .user := by simpa [Thread.mayCall] using may
      have noted : PoolBook.record id machine (.call (.allocBlocking id value)) next book =
          book.enter task value none := by
        simp only [PoolBook.record, if_true, isCurrent]
      rw [noted]
      rcases pooled.run_allocBlocking isCurrent value with ⟨rfl, parks⟩ | ⟨slot, rest, rfl, takes⟩
      · obtain ⟨rfl, rfl⟩ : Spec.parkLocal machine.kernel (.pool id) task (some value) = kernel ∧
            { pend := true, pc := .allocBlockingRet id } = outcome := by
          simpa using parks.symm.trans returned
        exact ⟨[], linear.park user⟩
      · obtain ⟨rfl, rfl⟩ : Spec.grantTo machine.kernel id slot value task = kernel ∧
            { pc := .allocBlockingRet id } = outcome := by
          simpa using takes.symm.trans returned
        refine ⟨rest, linear.granted pooled core (.allocBlocking user runs slot value)
          (by simp [user, Pc.home]) (by simp [Spec.grantTo, Spec.grant]) rfl rfl rfl rfl ?_ ?_⟩
        · simp [Machine.setThread, Thread.after, Pc.home]
        · intro other different
          simp [Machine.setThread, different]
    · exact linear.release pooled core isCurrent runs may returned
  · rw [(record_of_apart uses).1]
    exact ⟨free, linear.untouched core core' (.of_call core uses may returned contract)⟩

/-- The sections of an interrupt handler. -/
theorem isr (linear : Linear machine id free book) (pooled : Pooled config machine id free)
    (core : Core config machine) {call : Call V} {kernel : Spec n V} {outcome : Outcome}
    {pendsv : Bool} {isrSlots : Nat → List U8}
    (core' : Core config { machine with kernel, pendsv, isrSlots })
    (safe : call.isrSafe = true)
    (returned : call.run none machine.kernel = .ok (kernel, outcome))
    (contract : call.Contract none machine.kernel (kernel, outcome))
    (slots : isrSlots = match outcome.pc with
      | .allocRet id slot => Function.update machine.isrSlots id (slot :: machine.isrSlots id)
      | _ => machine.isrSlots) :
    ∃ free, Linear { machine with kernel, pendsv, isrSlots } id free
      (PoolBook.record id machine (.isr call) next book) := by
  by_cases uses : .pool id ∈ call.uses
  · obtain ⟨value, rfl⟩ | ⟨value, rfl⟩ | ⟨slot, rfl⟩ := Call.uses_pool uses
    · rcases pooled.run_alloc none value with ⟨rfl, refuses⟩ | ⟨slot, rest, rfl, grants⟩
      · obtain ⟨rfl, rfl⟩ : machine.kernel = kernel ∧ {} = outcome := by
          simpa using refuses.symm.trans returned
        subst slots
        have noted : PoolBook.record id machine (.isr (.alloc id value)) next book =
            book.pass value (some value) := by
          simp only [PoolBook.record, if_true, PoolBook.allocResult, pooled.stocked.alloc_nil]
          rfl
        rw [noted]
        exact ⟨[], (linear.reject value).untouched core core' .of_pendsv⟩
      · obtain ⟨rfl, rfl⟩ : Spec.grant machine.kernel id slot value = kernel ∧
            { pc := .allocRet id slot } = outcome := by
          simpa using grants.symm.trans returned
        subst slots
        have fits := pooled.free_inBounds List.mem_cons_self
        have noted : PoolBook.record id machine (.isr (.alloc id value)) next book =
            book.handle slot value none := by
          simp only [PoolBook.record, if_true, PoolBook.allocResult, pooled.stocked.alloc_cons fits]
          rfl
        rw [noted]
        exact ⟨rest, linear.handle pooled⟩
    · simp [Call.isrSafe] at safe
    · simp [Call.isrSafe] at safe
  · rw [(record_of_apart uses).2]
    exact ⟨free, linear.untouched core core' (.of_isr core uses returned contract slots)⟩

/-- Books and memory agree after every move. -/
theorem moves (linear : Linear machine id free book) (pooled : Pooled config machine id free)
    (core : Core config machine) (core' : Core config next) {action : Action V}
    (moves : Moves machine action next) :
    ∃ free, Linear next id free (PoolBook.record id machine action next book) := by
  cases moves with
  | scheduled scheduled schedules =>
      rw [record_of_schedules schedules]
      exact ⟨free, linear.untouched core core' (.of_scheduled scheduled)⟩
  | isr safe returned contract slots =>
      exact linear.isr pooled core core' safe returned contract slots
  | isrRet assigned =>
      rename_i pool slot
      by_cases same : pool = id
      · subst same
        simp only [PoolBook.record, if_true]
        exact ⟨free, linear.handlerReturns pooled assigned⟩
      · simp only [PoolBook.record, if_neg same]
        exact ⟨free, linear.untouched core core' (.of_isrRet (by simp [Ne.symm same]))⟩
  | call isCurrent runs may returned contract =>
      exact linear.call pooled core core' isCurrent runs may returned contract
  | ret runs returns =>
      rename_i task
      have isCurrent := core.running task runs
      by_cases inside : (machine.thread task).pc.home = some (.pool id)
      · cases returns with
        | plain pc => obtain ⟨_, at_⟩ | ⟨_, at_⟩ | ⟨_, at_⟩ | ⟨_, at_⟩ | ⟨_, at_⟩ := pc <;>
            simp [at_, Pc.home] at inside
        | guard pc => simp [pc, Pc.home] at inside
        | value pc received => simp [pc, Pc.home] at inside
        | box pc =>
            rename_i pool slot
            obtain rfl : pool = id := by
              obtain at_ | ⟨at_, _⟩ := pc <;> simpa [at_, Pc.home] using inside
            have had := Handed.assigned_of_returns runs pc
            simp only [PoolBook.record, isCurrent, had]
            exact ⟨free, linear.box pooled core runs had⟩
      · simp only [PoolBook.record, isCurrent, Machine.assigned_eq_nil inside]
        exact ⟨free, linear.untouched core core' (.of_ret inside returns)⟩
  | dropBox runs user live inBounds =>
      rename_i pool slot task
      by_cases same : pool = id
      · subst same
        simp only [PoolBook.record, if_true]
        exact ⟨free, linear.drop pooled user live⟩
      · simp only [PoolBook.record, if_neg same]
        exact ⟨free, linear.untouched core core' (.of_dropBox (by simp [Ne.symm same]) user)⟩
  | writeBox live stored =>
      rename_i pool slot value
      by_cases same : pool = id
      · subst same
        simp only [PoolBook.record, if_true]
        exact ⟨free, linear.write pooled live value⟩
      · simp only [PoolBook.record, if_neg same]
        exact ⟨free, linear.untouched core core' (.of_writeBox (by simp [Ne.symm same]))⟩
  | forgetGuard runs user held =>
      exact ⟨free, linear.untouched core core' (.of_forgetGuard user)⟩

end Linear

end SpecMachine

namespace Config

/-- The machine with the books of a pool. -/
abbrev withPoolBook {n : Nat} (config : Config n) (V Link Head : Type)
    [ops : WaitOps n V Link Head] (id : Nat) :
    TransitionSystem (Machine n V Link Head × PoolBook n V) (Action V) :=
  (config.system V Link Head).observed PoolBook.blank
    fun machine action next => PoolBook.record id machine action next

end Config

/-- Books and memory agree along every run. -/
theorem SpecMachine.linear_of_reachable {n : Nat} {V : Type} {config : Config n} {id : Nat}
    {pair : SpecMachine n V × PoolBook n V}
    (reachable : (config.withPoolBook V WaitList (List (Fin n)) id).Reachable pair) :
    Linear pair.1 id [] pair.2 := by
  refine reachable.observed_invariant (fun machine book => Linear machine id [] book) ?_ ?_
  · rintro machine ⟨kernel, boot, rfl⟩
    have booted := Config.booted_of_boot boot
    have nobody : kernel.waitHead (.pool id) = [] := by
      rw [booted.waitHead]
      rfl
    have nodes : ∀ index, (kernel.pool id).nodes index = none := by
      obtain ⟨_, statics⟩ := booted.statics
      intro index
      rw [statics]
      rfl
    refine ⟨?_, ?_, ?_, fun _ _ => rfl, by simp [PoolBook.blank], ?_⟩
    · refine .start .rejected rfl fun place _ => ?_
      cases place <;> simp [PoolBook.callsAt, PoolBook.blank, Config.start]
    · intro place live slot held
      cases place with
      | free => exact live.elim
      | drop task => exact live.elim
      | _ => simp [Machine.slotsAt, Config.start, Machine.assigned] at held
    · intro task member
      simp [Config.start, nobody] at member
    · exact fun slot stored => absurd (nodes slot.val) stored
  · intro machine action next book reached linear performed
    have core := core_of_reachable reached
    have core' := core_of_reachable (.step reached performed)
    obtain ⟨free, pooled⟩ := pooled_of_reachable reached id
    obtain ⟨_, after⟩ := (linear.any free).moves pooled core core'
      (core.moves (Machine.step_of_perform performed))
    exact after.any []

namespace RepMachine

variable {n : Nat} {V : Type} {config : Config n} {machine : RtosMachine n V}
  {spec : SpecMachine n V} {id : Nat}

/-- `alloc` returns the same at both levels. -/
theorem allocResult_eq (rep : RepMachine machine spec) (id : Nat) (value : V) :
    PoolBook.allocResult machine.kernel id value = PoolBook.allocResult spec.kernel id value := by
  have alike : Simulates Alike (Pool.alloc machine.kernel id value)
      (Pool.alloc spec.kernel id value) := rep.kernel.alloc
  unfold PoolBook.allocResult
  match Pool.alloc machine.kernel id value, Pool.alloc spec.kernel id value, alike with
  | .ok (_, slot), .ok (_, slot'), alike =>
      obtain rfl : slot = slot' := alike.2
      rfl
  | .error _, .error _, _ => rfl

/-- The books of the machine as coded are those of the abstract machine. -/
theorem record_eq {next : RtosMachine n V} {specNext : SpecMachine n V}
    (rep : RepMachine machine spec) (repNext : RepMachine next specNext) (id : Nat)
    (action : Action V) :
    PoolBook.record id machine action next = PoolBook.record id spec action specNext := by
  funext book
  unfold PoolBook.record Pool.destroyed
  simp only [rep.allocResult_eq, rep.assigned_eq, rep.kernel.statics, repNext.kernel.statics]

/-- The values of a pool are linear, whatever tasks and handlers do with it. Dereferencing a live
box yields the value of the call that returned it, as last written through that box. Every call's
value is in one place: destroyed by the call itself, destroyed by the drop of its box, in a live
box, with a handler's `alloc`, or with the call a task is in; in particular it is destroyed once
at most, and `alloc` destroys it just when it returns `None`. A blocked caller's value is in its
frame until it is copied to the slot the caller is given. Dropping a box and writing through it
never meets an empty slot, and leaves none full behind: the slots on the free list and those that
are being dropped hold no value. -/
theorem pool_values_linear {book : PoolBook n V}
    (reachable : (config.withPoolBook V (TcbPtr n) (TcbPtr n) id).Reachable (machine, book)) :
    (∀ slot ∈ machine.boxes id, ∃ call value, book.box slot = some call ∧
      book.value call = some value ∧ Pool.read machine.kernel id slot = .ok value) ∧
    (∀ first ∈ machine.boxes id, ∀ second ∈ machine.boxes id,
      book.box first = book.box second → first = second) ∧
    Custody (book.callsAt machine id) (Multiset.range book.calls) ∧
    ((book.rejected ++ book.dropped).map Prod.fst).Nodup ∧
    (∀ call value, (call, value) ∈ book.rejected ++ book.dropped → book.value call = some value) ∧
    (∀ task, machine.kernel.WaitsOn (.pool id) task → ∃ call value, book.task task = some call ∧
      book.value call = some value ∧ machine.kernel.frame (some task) = some value) ∧
    (∀ task, ∀ slot ∈ machine.assigned id task, ∃ call value, book.task task = some call ∧
      book.value call = some value ∧ Pool.read machine.kernel id slot = .ok value) ∧
    (∀ slot value fault, machine.perform config.idle (.dropBox id slot) ≠ some (.error fault) ∧
      machine.perform config.idle (.writeBox id slot value) ≠ some (.error fault)) ∧
    (∃ free : List U8, Linked.Chain (machine.kernel.pool id).freeLink
        (Pool.link (machine.kernel.pool id).freeHead) free ∧
      ∀ slot ∈ free, (machine.kernel.pool id).nodes slot.val = none) ∧
    (∀ task, ∀ slot ∈ (machine.thread task).drops id,
      (machine.kernel.pool id).nodes slot.val = none) ∧
    (∀ slot next, machine.perform config.idle (.dropBox id slot) = some (.ok next) →
      ∃ call value, book.box slot = some call ∧ Pool.read machine.kernel id slot = .ok value ∧
        (PoolBook.record id machine (.dropBox id slot) next book).dropped =
          (call, value) :: book.dropped) ∧
    ∀ action value next, action = .call (.alloc id value) ∨ action = .isr (.alloc id value) →
      machine.perform config.idle action = some (.ok next) →
      (PoolBook.record id machine action next book).rejected =
        if PoolBook.allocResult machine.kernel id value = some none then
          (book.calls, value) :: book.rejected
        else book.rejected := by
  obtain ⟨⟨spec, shared⟩, reach, rep, sameBook⟩ := ((simulation config V).observed PoolBook.blank
    fun state action next spec specNext rep repNext => record_eq rep repNext id action).reachable
      reachable
  obtain rfl : book = shared := sameBook
  have core : SpecMachine.Core config spec := SpecMachine.core_of_reachable reach.of_observed
  obtain ⟨free, pooled⟩ : ∃ free, SpecMachine.Pooled config spec id free :=
    SpecMachine.pooled_of_reachable reach.of_observed id
  replace rep : RepMachine machine spec := rep
  have linear : SpecMachine.Linear spec id free book :=
    (SpecMachine.linear_of_reachable reach).any free
  have custody : Custody (book.callsAt machine id) (Multiset.range book.calls) := by
    refine linear.custody.congr fun place => ?_
    cases place <;> simp only [PoolBook.callsAt, rep.boxes, rep.isrSlots]
  have distinct := Multiset.nodup_range book.calls
  have samePool : machine.kernel.pool id = spec.kernel.pool id := by
    rw [rep.kernel.statics]
  have reads := linear.reads pooled samePool
  rw [rep.boxes]
  refine ⟨fun slot live => reads .boxes trivial slot live, ?_, custody, ?_, ?_, ?_, ?_, ?_,
    ⟨free, samePool ▸ pooled.stocked.chain, fun slot listed => ?_⟩, fun task slot dropping => ?_,
    ?_, fun action value next isAlloc performed => PoolBook.rejected_of_alloc isAlloc performed⟩
  · intro first left second right same
    obtain ⟨call, _, isCall, _⟩ := reads .boxes trivial first left
    have live : PoolPlace.Live (.boxes : PoolPlace n) := trivial
    exact (linear.callOf_unique right (same ▸ isCall) live left isCall).2
  · rw [List.map_append]
    refine List.nodup_append.mpr ⟨custody.nodup distinct .rejected, custody.nodup distinct .dropped, ?_⟩
    rintro call (left : call ∈ book.callsAt machine id .rejected) other
      (right : other ∈ book.callsAt machine id .dropped) rfl
    cases custody.unique distinct left right
  · intro call value gone
    exact linear.destroyed call value (List.mem_append.mp gone)
  · intro task waits
    obtain ⟨call, value, isCall, given, stored⟩ :=
      linear.parked task ((rep.kernel.waitsOn_iff _ task).mp waits)
    exact ⟨call, value, isCall, given, by rw [rep.kernel.statics]; exact stored⟩
  · intro task slot held
    rw [rep.assigned_eq] at held
    exact reads (.call task) trivial slot held
  · intro slot value fault
    obtain ⟨drops, writes⟩ := linear.box_ok pooled slot value fault
    exact ⟨fun performed => drops (rep.perform_error core performed),
      fun performed => writes (rep.perform_error core performed)⟩
  · rw [samePool]
    exact linear.empty pooled .free (fun live => live) listed
  · rw [samePool]
    rw [rep.thread] at dropping
    exact linear.empty pooled (.drop task) (fun live => live) dropping
  · intro slot next performed
    obtain ⟨live, value, read, gone⟩ := PoolBook.destroyed_of_dropBox performed
    rw [rep.boxes] at live
    obtain ⟨call, _, isCall, _⟩ := reads .boxes trivial slot live
    replace isCall : book.box slot = some call := isCall
    exact ⟨call, value, isCall, read, by simp [PoolBook.record, PoolBook.drop, isCall, gone]⟩

/-- A box is read while another task waits for its slot. -/
theorem pool_values_linear_waiting : ∃ (machine : RtosMachine 4 Nat) (book : PoolBook 4 Nat),
    machine.kernel.waitHead (.pool 0) = some 2 ∧
    (∃ call value, book.box 0 = some call ∧ book.value call = some value ∧
      Pool.read machine.kernel 0 0 = .ok value) ∧
    Custody (book.callsAt machine 0) (Multiset.range book.calls) := by
  let check (machine : RtosMachine 4 Nat) : Bool :=
    machine.boxes 0 = [0] ∧ machine.kernel.waitHead (.pool 0) = some 2
  let actions : List (Action Nat) := [.launch, .call (.alloc 0 5), .ret, .writeBox 0 0 7] ++
    Config.thenSwitch (.take 0) ++ Config.thenSwitch (.allocBlocking 0 6)
  obtain ⟨machine, reachable, checked⟩ := Machine.exists_of_check actions check
    (by decide +kernel : (Config.small 10 20 30).passes Nat _ _ actions check = true)
  obtain ⟨isBox, waits⟩ := of_decide_eq_true checked
  obtain ⟨book, observed⟩ := reachable.exists_history PoolBook.blank
    fun machine action next => PoolBook.record 0 machine action next
  obtain ⟨boxes, _, custody, _⟩ := pool_values_linear observed
  exact ⟨machine, book, waits, boxes 0 (by simp [isBox]), custody⟩

end RepMachine

end Kangaroos
