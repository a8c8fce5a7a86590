import Kangaroos.Abstract.PoolSteps
import Kangaroos.Proofs.WaitLists

/-!
# Pool slots have one owner

`Pooled` ties the free list of a pool to the boxes, the calls that have not returned and the
drops that are under way: together they have every slot once. It survives every step, so a
slot is never with two owners and never lost, and the free list is a proper list.
-/

namespace Kangaroos

namespace SpecMachine

variable {n : Nat} {V : Type} {config : Config n} {machine next : SpecMachine n V} {id : Nat}
  {free : List U8} {task : Fin n} {slot : U8} {value : V}

/-- The slots of a pool and their owners. -/
structure Pooled (config : Config n) (machine : SpecMachine n V) (id : Nat) (free : List U8) :
    Prop where
  stocked : Spec.Stocked machine.kernel id free
  capacity : (machine.kernel.pool id).capacity = config.pool id
  custody : Custody (machine.slotsAt id free) (Pool.slots (config.pool id))
  told : ∀ task, (machine.thread task).pc = .allocBlockingRet id →
    task ∉ machine.kernel.waitHead (.pool id) →
      ∃ slot : U8, (machine.kernel.tcb task).waitPtr = .word (BitVec.ofNat 32 slot.val)
  stored : ∀ place : PoolPlace n, place.Live → ∀ slot ∈ machine.slotsAt id free place,
    (machine.kernel.pool id).nodes slot.val ≠ none

namespace Pooled

/-- A slot with an owner is a slot of the pool. -/
theorem inBounds (pooled : Pooled config machine id free) (place : PoolPlace n)
    (held : slot ∈ machine.slotsAt id free place) :
    slot.val < (machine.kernel.pool id).capacity := by
  rw [pooled.capacity]
  exact Pool.mem_slots.mp (pooled.custody.mem held)

/-- A slot has one owner. -/
theorem unique (pooled : Pooled config machine id free) (first second : PoolPlace n)
    (left : slot ∈ machine.slotsAt id free first) (right : slot ∈ machine.slotsAt id free second) :
    first = second :=
  pooled.custody.unique (Pool.slots_nodup _) left right

theorem nodup (pooled : Pooled config machine id free) (place : PoolPlace n) :
    (machine.slotsAt id free place).Nodup :=
  pooled.custody.nodup (Pool.slots_nodup _) place

/-- A step that leaves the pool alone. -/
theorem untouched (pooled : Pooled config machine id free) (core : Core config machine)
    (core' : Core config next) (untouched : Untouched (.pool id) machine next) :
    Pooled config next id free := by
  have agree : next.kernel.pool id = machine.kernel.pool id := untouched.agree
  have heads := untouched.heads (.pool id) rfl
  have places := untouched.slotsAt core core' free
  refine ⟨?_, ?_, pooled.custody.congr places, ?_, ?_⟩
  · refine pooled.stocked.congr (by rw [agree]) (by rw [agree]) ?_
    rw [heads]
    intro task member
    exact ⟨member, untouched.kept task (by rw [core.waits_inside member]; rfl)⟩
  · rw [agree]
    exact pooled.capacity
  · intro task blocking away
    have pc := untouched.pc task (.inr (by rw [blocking]; rfl))
    rw [(untouched.kept task (by rw [← pc, blocking]; rfl)).1]
    exact pooled.told task (pc ▸ blocking) (heads ▸ away)
  · intro place live slot held
    rw [agree]
    exact pooled.stored place live slot (places place ▸ held)

/-- A slot changes hands. -/
theorem handed {free' : List U8} {source target : PoolPlace n}
    (pooled : Pooled config machine id free)
    (handed : Handed machine next id free free' source target slot)
    (stocked : Spec.Stocked next.kernel id free')
    (capacity : (next.kernel.pool id).capacity = (machine.kernel.pool id).capacity)
    (filled : target.Live → (next.kernel.pool id).nodes slot.val ≠ none)
    (told : ∀ other, (next.thread other).pc = .allocBlockingRet id →
      other ∉ next.kernel.waitHead (.pool id) →
        ∃ slot : U8, (next.kernel.tcb other).waitPtr = .word (BitVec.ofNat 32 slot.val)) :
    Pooled config next id free' := by
  have custody := pooled.custody.transfer source target slot handed.different handed.out handed.into
      handed.others
  refine ⟨stocked, capacity.trans pooled.capacity, custody, told, ?_⟩
  intro place live other held
  by_cases same : other = slot
  · subst same
    have atTarget : other ∈ next.slotsAt id free' target :=
      handed.into ▸ Multiset.mem_cons_self other _
    obtain rfl := custody.unique (Pool.slots_nodup _) held atTarget
    exact filled live
  · rw [handed.nodes other same]
    exact pooled.stored place live other (handed.before held same)

/-- The first free slot is a slot of the pool. -/
theorem free_inBounds (pooled : Pooled config machine id free) (listed : slot ∈ free) :
    slot.val < (machine.kernel.pool id).capacity :=
  pooled.inBounds .free listed

/-- `alloc` rejects its value if the pool is exhausted and takes the first free slot if not. -/
theorem run_alloc (pooled : Pooled config machine id free) (who : TcbPtr n) (value : V) :
    free = [] ∧ (Call.alloc id value).run who machine.kernel = .ok (machine.kernel, {}) ∨
    ∃ slot rest, free = slot :: rest ∧ (Call.alloc id value).run who machine.kernel =
      .ok (Spec.grant machine.kernel id slot value, { pc := .allocRet id slot }) := by
  cases free with
  | nil => exact .inl ⟨rfl, by rw [Call.run, pooled.stocked.alloc_nil]; rfl⟩
  | cons slot rest =>
      have fits := pooled.free_inBounds List.mem_cons_self
      exact .inr ⟨slot, rest, rfl, by rw [Call.run, pooled.stocked.alloc_cons fits]; rfl⟩

/-- `alloc_blocking` parks its value if the pool is exhausted and takes the first free slot
if not. -/
theorem run_allocBlocking (pooled : Pooled config machine id free)
    (isCurrent : machine.kernel.current = some task) (value : V) :
    free = [] ∧ (Call.allocBlocking id value).run (some task) machine.kernel =
      .ok (Spec.parkLocal machine.kernel (.pool id) task (some value),
        { pend := true, pc := .allocBlockingRet id }) ∨
    ∃ slot rest, free = slot :: rest ∧ (Call.allocBlocking id value).run (some task) machine.kernel =
      .ok (Spec.grantTo machine.kernel id slot value task, { pc := .allocBlockingRet id }) := by
  cases free with
  | nil => exact .inl ⟨rfl, by rw [Call.run, pooled.stocked.allocBlocking_nil isCurrent]; rfl⟩
  | cons slot rest =>
      have fits := pooled.free_inBounds List.mem_cons_self
      exact .inr ⟨slot, rest, rfl, by
        rw [Call.run, pooled.stocked.allocBlocking_cons fits isCurrent]; rfl⟩

/-- A released slot goes to the most urgent waiter, with its value, or back to the free list. -/
theorem run_releaseBox (pooled : Pooled config machine id free)
    (isCurrent : machine.kernel.current = some task) (held : slot ∈ (machine.thread task).drops id) :
    machine.kernel.waitHead (.pool id) = [] ∧
      (Call.releaseBox id slot).run (some task) machine.kernel =
        .ok (Spec.restock machine.kernel id slot, {}) ∨
    ∃ waiter ∈ machine.kernel.waitHead (.pool id), ∃ value pend,
      machine.kernel.frame (some waiter) = some value ∧
      (Call.releaseBox id slot).run (some task) machine.kernel =
        .ok (Spec.deliver machine.kernel id slot value waiter, { pend }) := by
  have fits := pooled.inBounds (.drop task) held
  by_cases idle : machine.kernel.waitHead (.pool id) = []
  · exact .inl ⟨idle, by rw [Call.run, Spec.Stocked.release_idle idle fits]; rfl⟩
  · obtain ⟨waiter, member, value, pend, stored, releases⟩ :=
      pooled.stocked.release_waiter idle (by simp [isCurrent]) fits
    exact .inr ⟨waiter, member, value, pend, stored, by rw [Call.run, releases]; rfl⟩

/-- `alloc` in a task. -/
theorem call_alloc (pooled : Pooled config machine id free) (core : Core config machine)
    {kernel : Spec n V} {outcome : Outcome} {pendsv : Bool}
    (core' : Core config (machine.called task (.alloc id value) kernel outcome pendsv))
    (user : (machine.thread task).pc = .user)
    (returned : (Call.alloc id value).run (some task) machine.kernel = .ok (kernel, outcome)) :
    ∃ free, Pooled config (machine.called task (.alloc id value) kernel outcome pendsv) id free := by
  rcases pooled.run_alloc (some task) value with ⟨rfl, runs⟩ | ⟨slot, rest, rfl, runs⟩
  · obtain ⟨rfl, rfl⟩ : machine.kernel = kernel ∧ {} = outcome := by
      simpa using runs.symm.trans returned
    exact ⟨[], pooled.untouched core core' (.of_refused user rfl fun _ => rfl)⟩
  · obtain ⟨rfl, rfl⟩ : Spec.grant machine.kernel id slot value = kernel ∧
        { pc := .allocRet id slot } = outcome := by
      simpa using runs.symm.trans returned
    refine ⟨rest, pooled.handed (.alloc user slot value) (pooled.stocked.grant value)
      (by simp [Spec.grant]) (by simp [Spec.grant]) ?_⟩
    intro other blocking away
    by_cases same : other = task
    · subst same
      simp [Machine.setThread, Thread.after] at blocking
    · exact pooled.told other (by simpa [Machine.setThread, same] using blocking) away

/-- `alloc_blocking`. -/
theorem call_allocBlocking (pooled : Pooled config machine id free)
    {kernel : Spec n V} {outcome : Outcome} {pendsv : Bool}
    (isCurrent : machine.kernel.current = some task)
    (runs : (machine.kernel.tcb task).state.isRunning = true)
    (user : (machine.thread task).pc = .user)
    (returned : (Call.allocBlocking id value).run (some task) machine.kernel =
      .ok (kernel, outcome)) :
    ∃ free, Pooled config (machine.called task (.allocBlocking id value) kernel outcome pendsv) id
      free := by
  rcases pooled.run_allocBlocking isCurrent value with ⟨rfl, parks⟩ | ⟨slot, rest, rfl, takes⟩
  · obtain ⟨rfl, rfl⟩ : Spec.parkLocal machine.kernel (.pool id) task (some value) = kernel ∧
        { pend := true, pc := .allocBlockingRet id } = outcome := by
      simpa using parks.symm.trans returned
    refine ⟨[], pooled.stocked.parkLocal task value, ?_,
      pooled.custody.congr (slotsAt_park user value), ?_, ?_⟩
    · simpa [Spec.parkLocal, Spec.blockAndPush] using pooled.capacity
    · intro other blocking away
      have different : other ≠ task := by
        rintro rfl
        simp [Spec.parkLocal, Spec.blockAndPush] at away
      have before := pooled.told other (by simpa [Machine.setThread, different] using blocking)
        fun before => away (by simp [Spec.parkLocal, Spec.blockAndPush, before])
      simpa [Spec.parkLocal, Spec.blockAndPush, different] using before
    · intro place live slot held
      exact pooled.stored place live slot (slotsAt_park user value place ▸ held)
  · obtain ⟨rfl, rfl⟩ : Spec.grantTo machine.kernel id slot value task = kernel ∧
        { pc := .allocBlockingRet id } = outcome := by
      simpa using takes.symm.trans returned
    refine ⟨rest, pooled.handed (.allocBlocking user runs slot value)
      (pooled.stocked.grantTo value task) (by simp [Spec.grantTo, Spec.grant])
      (by simp [Spec.grantTo, Spec.grant]) ?_⟩
    intro other blocking away
    by_cases same : other = task
    · subst same
      exact ⟨slot, by simp [Spec.grantTo]⟩
    · have before := pooled.told other (by simpa [Machine.setThread, same] using blocking) away
      simpa [Spec.grantTo, Spec.grant, same] using before

/-- The critical section of `PoolBox::drop`. -/
theorem call_releaseBox (pooled : Pooled config machine id free) (core : Core config machine)
    {kernel : Spec n V} {outcome : Outcome} {pendsv : Bool}
    (isCurrent : machine.kernel.current = some task)
    (runs : (machine.kernel.tcb task).state.isRunning = true)
    (may : (machine.thread task).mayCall (.releaseBox id slot : Call V) = true)
    (returned : (Call.releaseBox id slot).run (some task) machine.kernel = .ok (kernel, outcome)) :
    ∃ free, Pooled config (machine.called task (.releaseBox id slot) kernel outcome pendsv) id
      free := by
  obtain ⟨rest, _, drops⟩ := Thread.drops_of_mayCall may
  have held : slot ∈ machine.slotsAt id free (.drop task) := by
    simp [Machine.slotsAt, drops]
  rcases pooled.run_releaseBox isCurrent held with
    ⟨idle, restocks⟩ | ⟨waiter, member, value, pend, stored, delivers⟩
  · obtain ⟨rfl, rfl⟩ : Spec.restock machine.kernel id slot = kernel ∧ {} = outcome := by
      simpa using restocks.symm.trans returned
    have fresh : slot ∉ free := by
      intro listed
      cases pooled.unique .free (.drop task) listed held
    have valid : slot ≠ Pool.endMark :=
      Pool.ne_endMark (config.poolBound id) (pooled.capacity ▸ pooled.inBounds (.drop task) held)
    refine ⟨slot :: free, pooled.handed (.restock may) (pooled.stocked.restock idle fresh valid)
      (by simp [Spec.restock]) (fun live => live.elim) ?_⟩
    intro other blocking away
    by_cases same : other = task
    · subst same
      simp [Machine.setThread, Thread.after] at blocking
    · exact pooled.told other (by simpa [Machine.setThread, same] using blocking) away
  · obtain ⟨rfl, rfl⟩ : Spec.deliver machine.kernel id slot value waiter = kernel ∧
        { pend } = outcome := by
      simpa using delivers.symm.trans returned
    have awake : waiter ≠ task := by
      rintro rfl
      exact core.wf.not_mem_of_running runs member
    have pc := core.waits_inside member
    refine ⟨free, pooled.handed (.deliver may awake pc ((core.isBlocked_iff pc).mpr member) value)
      (pooled.stocked.deliver core.wf slot value waiter) (by simp [Spec.deliver])
      (by simp [Spec.deliver]) ?_⟩
    intro other blocking away
    by_cases isWaiter : other = waiter
    · subst isWaiter
      exact ⟨slot, by simp [Spec.deliver]⟩
    · by_cases same : other = task
      · subst same
        simp [Machine.setThread, Thread.after] at blocking
      · have before := pooled.told other (by simpa [Machine.setThread, same] using blocking)
          fun before => away (by simp [Spec.deliver, List.mem_erase_of_ne isWaiter, before])
        simpa [Spec.deliver, isWaiter] using before

/-- The sections of a task. -/
theorem call (pooled : Pooled config machine id free) (core : Core config machine)
    {call : Call V} {kernel : Spec n V} {outcome : Outcome} {pendsv : Bool}
    (core' : Core config (machine.called task call kernel outcome pendsv))
    (isCurrent : machine.kernel.current = some task)
    (runs : (machine.kernel.tcb task).state.isRunning = true)
    (may : (machine.thread task).mayCall call = true)
    (returned : call.run (some task) machine.kernel = .ok (kernel, outcome))
    (contract : call.Contract (some task) machine.kernel (kernel, outcome)) :
    ∃ free, Pooled config (machine.called task call kernel outcome pendsv) id free := by
  by_cases uses : .pool id ∈ call.uses
  · obtain ⟨value, rfl⟩ | ⟨value, rfl⟩ | ⟨slot, rfl⟩ := Call.uses_pool uses
    · have user : (machine.thread task).pc = .user := by simpa [Thread.mayCall] using may
      exact pooled.call_alloc core core' user returned
    · have user : (machine.thread task).pc = .user := by simpa [Thread.mayCall] using may
      exact pooled.call_allocBlocking isCurrent runs user returned
    · exact pooled.call_releaseBox core isCurrent runs may returned
  · exact ⟨free, pooled.untouched core core' (.of_call core uses may returned contract)⟩

/-- The sections of an interrupt handler. -/
theorem isr (pooled : Pooled config machine id free) (core : Core config machine)
    {call : Call V} {kernel : Spec n V} {outcome : Outcome} {pendsv : Bool}
    {isrSlots : Nat → List U8}
    (core' : Core config { machine with kernel, pendsv, isrSlots })
    (safe : call.isrSafe = true)
    (returned : call.run none machine.kernel = .ok (kernel, outcome))
    (contract : call.Contract none machine.kernel (kernel, outcome))
    (slots : isrSlots = match outcome.pc with
      | .allocRet id slot => Function.update machine.isrSlots id (slot :: machine.isrSlots id)
      | _ => machine.isrSlots) :
    ∃ free, Pooled config { machine with kernel, pendsv, isrSlots } id free := by
  by_cases uses : .pool id ∈ call.uses
  · obtain ⟨value, rfl⟩ | ⟨value, rfl⟩ | ⟨slot, rfl⟩ := Call.uses_pool uses
    · rcases pooled.run_alloc none value with ⟨rfl, runs⟩ | ⟨slot, rest, rfl, runs⟩
      · obtain ⟨rfl, rfl⟩ : machine.kernel = kernel ∧ {} = outcome := by
          simpa using runs.symm.trans returned
        subst slots
        exact ⟨[], pooled.untouched core core' .of_pendsv⟩
      · obtain ⟨rfl, rfl⟩ : Spec.grant machine.kernel id slot value = kernel ∧
            { pc := .allocRet id slot } = outcome := by
          simpa using runs.symm.trans returned
        subst slots
        exact ⟨rest, pooled.handed (.allocIsr slot value) (pooled.stocked.grant value)
          (by simp [Spec.grant]) (by simp [Spec.grant]) pooled.told⟩
    · simp [Call.isrSafe] at safe
    · simp [Call.isrSafe] at safe
  · exact ⟨free, pooled.untouched core core' (.of_isr core uses returned contract slots)⟩

/-- A call of `alloc` or `alloc_blocking` returns its box. -/
theorem box (pooled : Pooled config machine id free) (had : machine.assigned id task = [slot]) :
    Pooled config
      ((machine.setThread task { machine.thread task with pc := .user }).addBox id slot) id free := by
  refine pooled.handed (.box had)
    (pooled.stocked.congr rfl rfl fun _ member => ⟨member, rfl, rfl⟩) rfl ?_ ?_
  · intro _
    refine pooled.stored (.call task) trivial slot ?_
    simp [Machine.slotsAt, had]
  · intro other blocking away
    by_cases same : other = task
    · subst same
      simp [Machine.addBox, Machine.setThread] at blocking
    · refine pooled.told other ?_ away
      simpa [Machine.addBox, Machine.setThread, same] using blocking

/-- The `alloc` of an interrupt handler returns its box. -/
theorem isrRet (pooled : Pooled config machine id free) (assigned : slot ∈ machine.isrSlots id) :
    Pooled config { machine.addBox id slot with
      isrSlots := Function.update machine.isrSlots id ((machine.isrSlots id).erase slot) } id free :=
  pooled.handed (.isrRet assigned)
    (pooled.stocked.congr rfl rfl fun _ member => ⟨member, rfl, rfl⟩) rfl
    (fun _ => pooled.stored .handlers trivial slot assigned) pooled.told

/-- The value of a box is destroyed. -/
theorem dropBox (pooled : Pooled config machine id free)
    (user : (machine.thread task).pc = .user) (live : slot ∈ machine.boxes id) :
    Pooled config (Handed.droppedBox machine id slot task) id free := by
  refine pooled.handed (.dropBox live)
    (pooled.stocked.congr (by simp) (by simp) fun _ member => ⟨member, rfl, rfl⟩) (by simp)
    (fun live => live.elim) ?_
  intro other blocking away
  refine pooled.told other ?_ away
  by_cases same : other = task
  · subst same
    simp [Machine.setThread, user] at blocking
  · simpa [Machine.setThread, Machine.removeBox, same] using blocking

/-- A write through a box. -/
theorem writeBox (pooled : Pooled config machine id free) (value : V) :
    Pooled config { machine with
      kernel := machine.kernel.setPool id { machine.kernel.pool id with
        nodes := Function.update (machine.kernel.pool id).nodes slot.val (some value) } } id
      free where
  stocked := pooled.stocked.congr (by simp) (by simp) fun _ member => ⟨member, rfl, rfl⟩
  capacity := by simpa using pooled.capacity
  custody := pooled.custody.congr fun place => by cases place <;> rfl
  told := pooled.told
  stored place live other held := by
    have before := pooled.stored place live other (by cases place <;> exact held)
    by_cases same : other.val = slot.val
    · simp [same]
    · simpa [same] using before

/-- The invariant survives every move. -/
theorem moves (pooled : Pooled config machine id free) (core : Core config machine)
    (core' : Core config next) {action : Action V} (moves : Moves machine action next) :
    ∃ free, Pooled config next id free := by
  cases moves with
  | scheduled scheduled => exact ⟨free, pooled.untouched core core' (.of_scheduled scheduled)⟩
  | isr safe returned contract slots => exact pooled.isr core core' safe returned contract slots
  | isrRet assigned =>
      rename_i pool slot
      by_cases same : pool = id
      · subst same
        exact ⟨free, pooled.isrRet assigned⟩
      · exact ⟨free, pooled.untouched core core' (.of_isrRet (by simp [Ne.symm same]))⟩
  | call isCurrent runs may returned contract =>
      exact pooled.call core core' isCurrent runs may returned contract
  | ret runs returns =>
      rename_i task
      by_cases outside : (machine.thread task).pc.home = some (.pool id)
      · cases returns with
        | plain pc => obtain ⟨_, at_⟩ | ⟨_, at_⟩ | ⟨_, at_⟩ | ⟨_, at_⟩ | ⟨_, at_⟩ := pc <;>
            simp [at_, Pc.home] at outside
        | guard pc => simp [pc, Pc.home] at outside
        | value pc received => simp [pc, Pc.home] at outside
        | box pc =>
            rename_i pool slot
            obtain rfl : pool = id := by
              obtain at_ | ⟨at_, _⟩ := pc <;> simpa [at_, Pc.home] using outside
            exact ⟨free, pooled.box (Handed.assigned_of_returns runs pc)⟩
      · exact ⟨free, pooled.untouched core core' (.of_ret outside returns)⟩
  | dropBox runs user live inBounds =>
      rename_i pool slot task
      by_cases same : pool = id
      · subst same
        exact ⟨free, pooled.dropBox user live⟩
      · exact ⟨free, pooled.untouched core core' (.of_dropBox (by simp [Ne.symm same]) user)⟩
  | writeBox live stored =>
      rename_i pool slot value
      by_cases same : pool = id
      · subst same
        exact ⟨free, pooled.writeBox value⟩
      · exact ⟨free, pooled.untouched core core' (.of_writeBox (by simp [Ne.symm same]))⟩
  | forgetGuard runs user held =>
      exact ⟨free, pooled.untouched core core' (.of_forgetGuard user)⟩

/-- No section on the pool faults. -/
theorem call_ok (pooled : Pooled config machine id free) {call : Call V}
    (uses : .pool id ∈ call.uses) (fault : Fault) :
    machine.perform config.idle (.call call) ≠ some (.error fault) ∧
      machine.perform config.idle (.isr call) ≠ some (.error fault) := by
  constructor
  · intro performed
    cases Machine.faults_of_perform performed with
    | call isTask triggered may faults =>
        rename_i task
        obtain ⟨_, _, isCurrent⟩ := Machine.threadTask_eq_some.mp isTask
        obtain ⟨after, outcome, runs⟩ : ∃ after outcome,
            call.run (some task) machine.kernel = .ok (after, outcome) := by
          obtain ⟨value, rfl⟩ | ⟨value, rfl⟩ | ⟨slot, rfl⟩ := Call.uses_pool uses
          · rcases pooled.run_alloc (some task) value with ⟨_, runs⟩ | ⟨_, _, _, runs⟩ <;>
              exact ⟨_, _, runs⟩
          · rcases pooled.run_allocBlocking isCurrent value with ⟨_, runs⟩ | ⟨_, _, _, runs⟩ <;>
              exact ⟨_, _, runs⟩
          · obtain ⟨_, top⟩ : (machine.thread task).pc = .user ∧
                (machine.thread task).frames.head? = some (.boxDrop id slot) := by
              simpa [Thread.mayCall] using may
            obtain ⟨rest, frames⟩ := List.head?_eq_some_iff.mp top
            have held : slot ∈ (machine.thread task).drops id := by
              simp [Thread.drops, frames, Frame.dropped]
            rcases pooled.run_releaseBox isCurrent held with ⟨_, runs⟩ | ⟨_, _, _, _, _, runs⟩ <;>
              exact ⟨_, _, runs⟩
        cases runs.symm.trans faults
  · intro performed
    cases Machine.faults_of_perform performed with
    | isr safe faults =>
        obtain ⟨value, rfl⟩ | ⟨value, rfl⟩ | ⟨slot, rfl⟩ := Call.uses_pool uses
        · rcases pooled.run_alloc none value with ⟨_, runs⟩ | ⟨_, _, _, runs⟩ <;>
            cases runs.symm.trans faults
        · simp [Call.isrSafe] at safe
        · simp [Call.isrSafe] at safe

end Pooled

/-- Every pool has its slots in one place each in every reachable state. -/
theorem pooled_of_reachable (reachable : (system config V).Reachable machine) (id : Nat) :
    ∃ free, Pooled config machine id free := by
  refine invariant_of_core_moves (fun machine => ∃ free, Pooled config machine id free) ?_ ?_
    reachable
  · intro kernel boot
    have booted := Config.booted_of_boot boot
    obtain ⟨allTasks, statics⟩ := booted.statics
    have pool : kernel.pool id = Pool.new V (config.pool id) := by
      rw [statics]
      rfl
    have nobody : kernel.waitHead (.pool id) = [] := by
      rw [booted.waitHead]
      rfl
    have bound := config.poolBound id
    refine ⟨Pool.fresh (config.pool id), ⟨?_, fun waits => absurd nobody waits, ?_⟩, ?_,
      .start .free (Pool.coe_fresh bound) ?_, ?_, ?_⟩
    · simpa only [Config.start, pool] using Pool.chain_new V bound
    · intro task member
      simp [Config.start, nobody] at member
    · simp [Config.start, pool, Pool.new]
    · intro place notFree
      cases place with
      | free => exact absurd rfl notFree
      | _ => rfl
    · intro task blocking
      simp [Config.start] at blocking
    · intro place live slot held
      cases place with
      | free => exact live.elim
      | drop task => exact live.elim
      | _ => simp [Machine.slotsAt, Config.start, Machine.assigned] at held
  · rintro machine action next core core' ⟨free, pooled⟩ moves
    exact pooled.moves core core' moves

end SpecMachine

namespace RepMachine

variable {n : Nat} {V : Type} {config : Config n} {machine : RtosMachine n V}
  {spec : SpecMachine n V}

/-- The slots of the machine as coded are where the abstract machine has them. -/
theorem assigned_eq (rep : RepMachine machine spec) (id : Nat) (task : Fin n) :
    machine.assigned id task = spec.assigned id task := by
  simp only [Machine.assigned, rep.thread, rep.kernel.isBlocked, Pool.assignedSlot, Kernel.waitWord,
    rep.kernel.waitPtr]

theorem slotsAt_eq (rep : RepMachine machine spec) (id : Nat) (free : List U8)
    (place : PoolPlace n) : machine.slotsAt id free place = spec.slotsAt id free place := by
  cases place <;> simp [Machine.slotsAt, rep.boxes, rep.isrSlots, rep.thread, rep.assigned_eq]

/-- Every slot of a pool has one owner. The free list is a proper list that ends within as
many steps as the pool has slots; together with the boxes, the calls and handlers that have not
returned their box, and the drops that have not released theirs, it has every slot once. A task
waits for a pool only while its free list is empty, `available` counts the free list, and no
operation faults. -/
theorem pool_partition (reachable : (system config V).Reachable machine) (id : Nat) :
    ∃ free : List U8,
      Linked.Chain (machine.kernel.pool id).freeLink
        (Pool.link (machine.kernel.pool id).freeHead) free ∧
      free.Nodup ∧ (∀ slot ∈ free, slot.val < config.pool id) ∧ free.length ≤ config.pool id ∧
      Custody (machine.slotsAt id free) (Pool.slots (config.pool id)) ∧
      (∀ first second slot, slot ∈ machine.slotsAt id free first →
        slot ∈ machine.slotsAt id free second → first = second) ∧
      (machine.boxes id).Nodup ∧
      ((∃ task, machine.kernel.WaitsOn (.pool id) task) → free = []) ∧
      Pool.available machine.kernel id = .ok free.length ∧
      ∀ call fault, .pool id ∈ call.uses →
        machine.perform config.idle (.call call) ≠ some (.error fault) ∧
          machine.perform config.idle (.isr call) ≠ some (.error fault) := by
  obtain ⟨spec, reach, rep⟩ := exists_spec reachable
  have core := SpecMachine.core_of_reachable reach
  obtain ⟨free, pooled⟩ := SpecMachine.pooled_of_reachable reach id
  have pool : machine.kernel.pool id = spec.kernel.pool id := by
    rw [rep.kernel.statics]
  have places : machine.slotsAt id free = spec.slotsAt id free := funext (rep.slotsAt_eq id free)
  have fits : ∀ slot ∈ free, slot.val < config.pool id := by
    intro slot listed
    exact pooled.capacity ▸ pooled.free_inBounds listed
  have distinct : free.Nodup := pooled.nodup .free
  have short := Pool.length_le distinct fits
  refine ⟨free, pool ▸ pooled.stocked.chain, distinct, fits, short, places ▸ pooled.custody, ?_, ?_, ?_,
    ?_, ?_⟩
  · intro first second slot left right
    exact pooled.unique first second (places ▸ left) (places ▸ right)
  · rw [rep.boxes]
    exact pooled.nodup .boxes
  · rintro ⟨task, waiting⟩
    exact pooled.stocked.exhausted (List.ne_nil_of_mem ((rep.kernel.waitsOn_iff _ task).mp waiting))
  · have counted := Pool.availableFrom_eq 0 pooled.stocked.chain
      (fun slot => pooled.free_inBounds) (pooled.capacity ▸ short)
    rw [Pool.available, pool, counted, Nat.zero_add]
  · intro call fault uses
    obtain ⟨callOk, isrOk⟩ := pooled.call_ok uses fault
    exact ⟨fun performed => callOk (rep.perform_error core performed),
      fun performed => isrOk (rep.perform_error core performed)⟩

/-- A task waits for the only slot, which another task has in a box. -/
theorem pool_partition_waiting : ∃ machine : RtosMachine 4 Nat,
    machine.boxes 0 = [0] ∧ machine.kernel.waitHead (.pool 0) = some 2 ∧
    ∃ free : List U8, Custody (machine.slotsAt 0 free) (Pool.slots 1) ∧
      Pool.available machine.kernel 0 = .ok free.length := by
  let check (machine : RtosMachine 4 Nat) : Bool :=
    machine.boxes 0 = [0] ∧ machine.kernel.waitHead (.pool 0) = some 2
  let actions : List (Action Nat) := [.launch, .call (.alloc 0 5), .ret] ++
    Config.thenSwitch (.take 0) ++ Config.thenSwitch (.allocBlocking 0 6)
  obtain ⟨machine, reachable, checked⟩ := Machine.exists_of_check actions check
    (by decide +kernel : (Config.small 10 20 30).passes Nat _ _ actions check = true)
  obtain ⟨isBox, waits⟩ := of_decide_eq_true checked
  obtain ⟨free, _, _, _, _, custody, _, _, _, counted, _⟩ := pool_partition reachable 0
  exact ⟨machine, isBox, waits, free, custody, counted⟩

end RepMachine

end Kangaroos
