import Kangaroos.Abstract.ChannelCalls
import Kangaroos.Abstract.Mutexes
import Kangaroos.Proofs.WaitLists

/-!
# Channels are queues

`Flowing` ties the books of a channel to the program points: the receivers with a value
in flight are those inside `recv` that wait no more. It survives every step, whatever the
capacity and whoever sends and receives.
-/

namespace Kangaroos

namespace Call

variable {V : Type} {call : Call V} {id : Nat}

/-- The task that is inside `recv` after the section. -/
def receiving {n : Nat} (who : TcbPtr n) : Call V → TcbPtr n
  | .recv _ => who
  | _ => none

theorem eq_of_receiving {n : Nat} {who : TcbPtr n} {task : Fin n}
    (isReceiving : call.receiving who = some task) : who = some task := by
  cases call <;> simp_all [receiving]

/-- The sections on a channel. -/
theorem uses_channel (uses : .channel id ∈ call.uses) :
    (∃ value, call = .send id value) ∨ (∃ value, call = .trySend id value) ∨ call = .recv id ∨
      call = .tryRecv id := by
  cases call <;> simp_all [Call.uses]

/-- Only a section on a channel leaves its caller inside `recv`. -/
theorem uses_of_endsAt_recvRet (ends : call.endsAt (.recvRet id)) : .channel id ∈ call.uses := by
  cases call <;> simp_all [endsAt, Call.uses]

end Call

/-- A task that may enter a section is not inside `recv`. -/
theorem Thread.not_recvRet_of_mayCall {V : Type} {thread : Thread} {call : Call V} {id : Nat}
    (may : thread.mayCall call = true) : thread.pc ≠ .recvRet id := by
  intro pc
  cases call <;> simp [mayCall, pc] at may

namespace SpecMachine

variable {n : Nat} {V : Type} {config : Config n} {machine next : SpecMachine n V} {id : Nat}
  {flight : TcbPtr n → Option V} {contents : List V}

/-- A channel flows, and its receivers with a value in flight are those about to return. -/
structure Flowing (config : Config n) (machine : SpecMachine n V) (id : Nat)
    (flight : TcbPtr n → Option V) (contents : List V) : Prop where
  flows : Spec.Flows machine.kernel id flight contents
  capacity : (machine.kernel.channel id).capacity = config.channel id
  receiving : ∀ task, flight (some task) ≠ none ↔
    (machine.thread task).pc = .recvRet id ∧ task ∉ machine.kernel.waitHead (.channelRecv id)

/-- Nobody waits before the launch. -/
theorem Core.launched (core : Core config machine) (list : WaitList)
    (waiting : machine.kernel.waitHead list ≠ []) : machine.kernel.current ≠ none := by
  intro noCurrent
  obtain ⟨task, member⟩ := List.exists_mem_of_ne_nil _ waiting
  exact (core.fresh noCurrent).2.2 task list (core.wf.mem.mp member)

namespace Flowing

/-- Steps that leave the channel and the tasks on it alone. -/
theorem frame (flowing : Flowing config machine id flight contents)
    (channel : next.kernel.channel id = machine.kernel.channel id)
    (heads : ∀ list, list.home = .channel id →
      next.kernel.waitHead list = machine.kernel.waitHead list)
    (kept : ∀ task, (∃ list, list.home = .channel id ∧ task ∈ machine.kernel.waitHead list) ∨
      (machine.thread task).pc = .recvRet id →
        (next.kernel.tcb task).waitPtr = (machine.kernel.tcb task).waitPtr ∧
          next.kernel.frame (some task) = machine.kernel.frame (some task))
    (pc : ∀ task, (next.thread task).pc = .recvRet id ↔ (machine.thread task).pc = .recvRet id) :
    Flowing config next id flight contents := by
  have senders := heads (.channelSend id) rfl
  have receivers := heads (.channelRecv id) rfl
  refine ⟨⟨?_, ⟨?_, ?_⟩, ?_, flowing.flows.outside⟩, ?_, ?_⟩
  · refine flowing.flows.carries.congr channel senders ?_ ?_ ?_
    · rw [receivers]
      exact fun _ listed => listed
    · exact fun task member => (kept task (.inl ⟨_, rfl, member⟩)).2
    · rintro task (member | member)
      · exact (kept task (.inl ⟨_, rfl, member⟩)).1
      · exact (kept task (.inl ⟨_, rfl, member⟩)).1
  · rw [channel, senders]
    exact flowing.flows.settled.full
  · rw [channel, receivers]
    exact flowing.flows.settled.empty
  · intro task value flies
    have inside := ((flowing.receiving task).mp (by simp [flies])).1
    rw [(kept task (.inr inside)).2]
    exact flowing.flows.landed task value flies
  · rw [channel]
    exact flowing.capacity
  · intro task
    rw [pc, receivers]
    exact flowing.receiving task

/-- A section on the channel. -/
theorem of_served (flowing : Flowing config machine id flight contents)
    (core : Core config machine) {receiving : TcbPtr n}
    (served : Spec.Served receiving machine.kernel next.kernel id flight)
    (fresh : ∀ task, receiving = some task → (machine.thread task).pc ≠ .recvRet id)
    (pc : ∀ task, (next.thread task).pc = .recvRet id ↔
      (machine.thread task).pc = .recvRet id ∨ receiving = some task)
    (shrinks : ∀ task, receiving ≠ some task → task ∈ next.kernel.waitHead (.channelRecv id) →
      task ∈ machine.kernel.waitHead (.channelRecv id)) :
    ∃ flight contents, Flowing config next id flight contents := by
  obtain ⟨flight', contents', flows, capacity, given⟩ := served
  refine ⟨flight', contents', flows, capacity.trans flowing.capacity, fun task => ?_⟩
  have waits : task ∈ machine.kernel.waitHead (.channelRecv id) →
      (machine.thread task).pc = .recvRet id := by
    intro listed
    have awaits := core.awaits task _ (core.wf.mem.mp listed)
    cases at_ : (machine.thread task).pc <;> rw [at_] at awaits <;> simp_all [Pc.awaits]
  rw [given, pc, flowing.receiving]
  by_cases isReceiving : receiving = some task
  · have notInside := fresh task isReceiving
    simp [isReceiving, notInside]
  · have still := shrinks task isReceiving
    simp only [isReceiving, or_false]
    tauto

/-- The sections on a channel run without a fault. A task is `receiving` in `recv`. -/
theorem run_served (flowing : Flowing config machine id flight contents)
    (core : Core config machine) {call : Call V} {who : TcbPtr n}
    (caller : who = none ∧ call.isrSafe = true ∨ ∃ task, who = some task ∧
      machine.kernel.current = some task ∧
      (machine.kernel.tcb task).state.isRunning = true ∧
      (machine.thread task).mayCall call = true)
    (uses : .channel id ∈ call.uses) :
    ∃ after outcome, call.run who machine.kernel = .ok (after, outcome) ∧
      Spec.Served (call.receiving who) machine.kernel after id flight := by
  obtain ⟨away, idle, launched⟩ : (∀ list, ∀ task ∈ machine.kernel.waitHead list, who ≠ some task) ∧
      flight who = none ∧ ∀ list, machine.kernel.waitHead list ≠ [] →
        machine.kernel.current ≠ none := by
    refine ⟨?_, ?_, core.launched⟩
    · rintro list task member rfl
      obtain ⟨isNone, _⟩ | ⟨caller, isCaller, _, runs, _⟩ := caller
      · simp at isNone
      · obtain rfl := Option.some.inj isCaller
        exact core.wf.not_mem_of_running runs member
    · obtain ⟨rfl, _⟩ | ⟨caller, rfl, _, _, may⟩ := caller
      · exact flowing.flows.outside
      · by_contra flies
        exact Thread.not_recvRet_of_mayCall may ((flowing.receiving caller).mp flies).1
  obtain ⟨value, rfl⟩ | ⟨value, rfl⟩ | rfl | rfl := Call.uses_channel uses
  · obtain ⟨_, safe⟩ | ⟨task, rfl, isCurrent, runs, _⟩ := caller
    · simp [Call.isrSafe] at safe
    · obtain ⟨after, pend, block, sends, served⟩ :=
        flowing.flows.sendImpl core.wf isCurrent runs idle value
      exact ⟨after, _, by rw [Call.run, sends]; rfl, served⟩
  · obtain ⟨after, pend, sent, sends, served⟩ :=
      flowing.flows.trySendImpl core.wf away launched value
    exact ⟨after, _, by rw [Call.run, sends]; rfl, served⟩
  · obtain ⟨_, safe⟩ | ⟨task, rfl, isCurrent, runs, _⟩ := caller
    · simp [Call.isrSafe] at safe
    · obtain ⟨after, pend, block, receives, _, _, served⟩ :=
        flowing.flows.recvImpl core.wf isCurrent runs idle
      exact ⟨after, _, by rw [Call.run, receives]; rfl, served⟩
  · obtain ⟨after, pend, result, receives, _, served⟩ := flowing.flows.tryRecvImpl idle launched
    exact ⟨after, _, by rw [Call.run, receives]; rfl, served⟩

/-- Sections on other primitives. -/
theorem outside (flowing : Flowing config machine id flight contents) {call : Call V}
    {who : TcbPtr n} {flag : Bool}
    (effect : Spec.Effect (· ∈ call.uses) (call.parksOn = some ·) who flag machine.kernel
      next.kernel)
    (uses : .channel id ∉ call.uses) (core : Core config machine)
    (caller : ∀ task, who = some task → (machine.kernel.tcb task).state.isRunning = true ∧
      (machine.thread task).pc ≠ .recvRet id)
    (pc : ∀ task, (next.thread task).pc = .recvRet id ↔ (machine.thread task).pc = .recvRet id) :
    Flowing config next id flight contents := by
  refine flowing.frame (effect.agree (.channel id) uses) ?_ ?_ pc
  · intro list home
    exact effect.heads list (home ▸ uses)
  · intro task concerned
    have other : who ≠ some task := by
      intro isWho
      obtain ⟨runs, notInside⟩ := caller task isWho
      rcases concerned with ⟨list, _, member⟩ | inside
      · exact core.wf.not_mem_of_running runs member
      · exact notInside inside
    rcases effect.kept task other with same | ⟨list, inScope, blocked⟩
    · exact same
    · -- a task on the channel is not blocked on another primitive
      exfalso
      rcases concerned with ⟨onList, home, member⟩ | inside
      · obtain rfl := core.wf.list_unique member (core.wf.mem.mpr blocked)
        exact uses (home ▸ inScope)
      · have awaits := core.awaits task list blocked
        rw [inside] at awaits
        obtain rfl : list = .channelRecv id := awaits
        exact uses inScope

/-- A waiter other than the caller was waiting before. -/
theorem shrinks {call : Call V} {who : TcbPtr n} {kernel : Spec n V} {outcome : Outcome}
    (core : Core config machine) (contract : call.Contract who machine.kernel (kernel, outcome))
    {task : Fin n} (other : who ≠ some task) {list : WaitList}
    (member : task ∈ kernel.waitHead list) : task ∈ machine.kernel.waitHead list := by
  have blocked : (kernel.tcb task).state = .blocked list := contract.wf.mem.mp member
  obtain ⟨flag, effect, _⟩ := contract.effect
  have same : (kernel.tcb task).state = (machine.kernel.tcb task).state :=
    effect.state_of_not_ready other (by simp [blocked])
  exact core.wf.mem.mpr (same.symm.trans blocked)

/-- The sections of a task. -/
theorem call (flowing : Flowing config machine id flight contents) (core : Core config machine)
    {call : Call V} {task : Fin n} {kernel : Spec n V} {outcome : Outcome} {pendsv : Bool}
    (isCurrent : machine.kernel.current = some task)
    (runs : (machine.kernel.tcb task).state.isRunning = true)
    (may : (machine.thread task).mayCall call = true)
    (returned : call.run (some task) machine.kernel = .ok (kernel, outcome))
    (contract : call.Contract (some task) machine.kernel (kernel, outcome)) :
    ∃ flight contents, Flowing config
      { machine.setThread task ((machine.thread task).after call outcome) with kernel, pendsv }
      id flight contents := by
  have ends := Call.run_endsAt returned
  have notInside : (machine.thread task).pc ≠ .recvRet id := Thread.not_recvRet_of_mayCall may
  have others : ∀ other, other ≠ task → (machine.setThread task
      ((machine.thread task).after call outcome)).thread other = machine.thread other := by
    intro other different
    simp [Machine.setThread, different]
  by_cases uses : .channel id ∈ call.uses
  · obtain ⟨after, result, runsTo, served⟩ := flowing.run_served core
      (.inr ⟨task, rfl, isCurrent, runs, may⟩) uses
    obtain ⟨rfl, rfl⟩ : after = kernel ∧ result = outcome := by
      simpa using runsTo.symm.trans returned
    -- the caller is inside `recv` exactly if that is the section it executed
    have inside : result.pc = .recvRet id ↔ call.receiving (some task) = some task := by
      obtain ⟨value, rfl⟩ | ⟨value, rfl⟩ | rfl | rfl := Call.uses_channel uses <;>
        simp_all [Call.endsAt, Call.receiving]
    have receives : ∀ other, call.receiving (some task) = some other → other = task :=
      fun other isReceiving => (Option.some.inj (Call.eq_of_receiving isReceiving)).symm
    refine flowing.of_served core served ?_ ?_ ?_
    · intro other isReceiving
      rwa [receives other isReceiving]
    · intro other
      by_cases same : other = task
      · subst same
        simpa [Machine.setThread, Thread.after, notInside] using inside
      · have notReceiving : call.receiving (some task) ≠ some other :=
          fun isReceiving => same (receives other isReceiving)
        simp only [others other same, notReceiving, or_false]
    · intro other notReceiving member
      by_cases same : other = task
      · subst same
        have awaits := contract.awaits other _ rfl (contract.wf.mem.mp member)
        have pc : result.pc = .recvRet id := by
          obtain ⟨value, rfl⟩ | ⟨value, rfl⟩ | rfl | rfl := Call.uses_channel uses <;>
            simp_all [Call.endsAt, Pc.awaits]
        exact absurd (inside.mp pc) notReceiving
      · exact shrinks core contract (fun isTask => same (Option.some.inj isTask).symm) member
  · obtain ⟨flag, effect, _⟩ := contract.effect
    refine ⟨flight, contents, flowing.outside effect uses core ?_ ?_⟩
    · rintro caller isCaller
      obtain rfl := Option.some.inj isCaller
      exact ⟨runs, notInside⟩
    · intro other
      by_cases same : other = task
      · subst same
        have away : outcome.pc ≠ .recvRet id := by
          intro pc
          rw [pc] at ends
          exact uses (Call.uses_of_endsAt_recvRet ends)
        simp [Machine.setThread, Thread.after, away, notInside]
      · rw [show (_ : Thread).pc = _ from congrArg Thread.pc (others other same)]

/-- A step that touches no wait list and none of the data of a channel. -/
theorem still (flowing : Flowing config machine id flight contents)
    (channel : next.kernel.channel id = machine.kernel.channel id)
    (waitHead : next.kernel.waitHead = machine.kernel.waitHead)
    (waitPtr : ∀ task, (next.kernel.tcb task).waitPtr = (machine.kernel.tcb task).waitPtr)
    (frame : next.kernel.frame = machine.kernel.frame)
    (pc : ∀ task, (next.thread task).pc = .recvRet id ↔ (machine.thread task).pc = .recvRet id) :
    Flowing config next id flight contents :=
  flowing.frame channel (fun list _ => congrFun waitHead list)
    (fun task _ => ⟨waitPtr task, congrFun frame _⟩) pc

/-- A task outside `recv` goes on outside `recv`. -/
theorem pc_iff {task : Fin n} {thread : Thread} (before : (machine.thread task).pc ≠ .recvRet id)
    (after : thread.pc ≠ .recvRet id) (other : Fin n) :
    (Function.update machine.thread task thread other).pc = .recvRet id ↔
      (machine.thread other).pc = .recvRet id := by
  by_cases same : other = task
  · subst same
    simp [before, after]
  · simp [same]

/-- A task returns from `recv` with the value in its frame. -/
theorem returns (flowing : Flowing config machine id flight contents)
    (core : Core config machine) {task : Fin n} {value : V}
    (runs : (machine.kernel.tcb task).state.isRunning = true)
    (pc : (machine.thread task).pc = .recvRet id)
    (received : machine.kernel.frame (some task) = some value) :
    Flowing config
      { machine.setThread task { machine.thread task with pc := .user } with
        kernel := Channel.logReturned machine.kernel id (some task) value }
      id (Function.update flight (some task) none) contents := by
  have given := (flowing.receiving task).mpr ⟨pc, core.wf.not_mem_of_running runs⟩
  obtain ⟨held, isHeld⟩ := Option.ne_none_iff_exists'.mp given
  have landed := flowing.flows.landed task held isHeld
  obtain rfl : held = value := by simpa using landed.symm.trans received
  refine ⟨⟨flowing.flows.carries.logReturned isHeld, ⟨?_, ?_⟩, ?_, ?_⟩, ?_, ?_⟩
  · simpa [Channel.logReturned] using flowing.flows.settled.full
  · simpa [Channel.logReturned] using flowing.flows.settled.empty
  · intro other value flies
    by_cases same : other = task
    · subst same
      simp at flies
    · exact flowing.flows.landed other value (by simpa [same] using flies)
  · simpa using flowing.flows.outside
  · simpa [Channel.logReturned] using flowing.capacity
  · intro other
    by_cases same : other = task
    · subst same
      simp [Machine.setThread]
    · simpa [Machine.setThread, Channel.logReturned, same] using flowing.receiving other

/-- The invariant survives every move. -/
theorem moves (flowing : Flowing config machine id flight contents) (core : Core config machine)
    {action : Action V} (moves : Moves machine action next) :
    ∃ flight contents, Flowing config next id flight contents := by
  cases moves with
  | scheduled scheduled =>
      obtain ⟨_, _, statics⟩ := scheduled.moved.statics
      refine ⟨flight, contents, flowing.still ?_ scheduled.moved.waitHead ?_ ?_ ?_⟩
      · rw [statics]
      · exact fun task => (scheduled.moved.fixed task).2.2.2.2
      · rw [statics]
      · intro task
        rw [(scheduled.thread task).1]
  | isr safe returned contract slots =>
      rename_i call kernel outcome pendsv isrSlots
      by_cases uses : .channel id ∈ call.uses
      · obtain ⟨after, result, runsTo, served⟩ := flowing.run_served core (.inl ⟨rfl, safe⟩) uses
        obtain ⟨rfl, rfl⟩ : after = kernel ∧ result = outcome := by
          simpa using runsTo.symm.trans returned
        have nobody : ∀ task : Fin n, call.receiving none ≠ some task := by
          intro task isReceiving
          simpa using Call.eq_of_receiving isReceiving
        refine flowing.of_served core served ?_ ?_ ?_
        · exact fun task isReceiving => absurd isReceiving (nobody task)
        · exact fun task => by simp [nobody task]
        · exact fun task _ member => shrinks core contract (by simp) member
      · obtain ⟨flag, effect, _⟩ := contract.effect
        exact ⟨flight, contents, flowing.outside effect uses core (by simp) fun _ => Iff.rfl⟩
  | call isCurrent runs may returned contract =>
      exact flowing.call core isCurrent runs may returned contract
  | ret runs returns =>
      rename_i task
      cases returns with
      | plain pc =>
          have away : (machine.thread task).pc ≠ .recvRet id := by
            obtain ⟨_, at_⟩ | ⟨_, at_⟩ | ⟨_, at_⟩ | ⟨_, at_⟩ | ⟨_, at_⟩ := pc <;> simp [at_]
          exact ⟨flight, contents,
            flowing.still rfl rfl (fun _ => rfl) rfl (pc_iff away (by simp))⟩
      | guard pc =>
          exact ⟨flight, contents,
            flowing.still rfl rfl (fun _ => rfl) rfl (pc_iff (by simp [pc]) (by simp))⟩
      | box pc =>
          have away : (machine.thread task).pc ≠ .recvRet id := by
            obtain at_ | ⟨at_, _⟩ := pc <;> simp [at_]
          exact ⟨flight, contents,
            flowing.still rfl rfl (fun _ => rfl) rfl (pc_iff away (by simp))⟩
      | value pc received =>
          rename_i channel value
          by_cases same : channel = id
          · subst same
            exact ⟨_, contents, flowing.returns core runs pc received⟩
          · refine ⟨flight, contents, flowing.still ?_ rfl (fun _ => rfl) rfl
              (pc_iff (by simp [pc, same]) (by simp))⟩
            simp [Channel.logReturned, Ne.symm same]
  | isrRet assigned =>
      exact ⟨flight, contents, flowing.still rfl rfl (fun _ => rfl) rfl fun _ => Iff.rfl⟩
  | dropBox runs user live inBounds =>
      rename_i pool slot task
      have away : (machine.thread task).pc ≠ .recvRet id := by simp [user]
      exact ⟨flight, contents, flowing.still rfl rfl (fun _ => rfl) rfl (pc_iff away away)⟩
  | writeBox live stored =>
      exact ⟨flight, contents, flowing.still rfl rfl (fun _ => rfl) rfl fun _ => Iff.rfl⟩
  | forgetGuard runs user held =>
      exact ⟨flight, contents, flowing.still rfl rfl (fun _ => rfl) rfl
        (pc_iff (by simp [user]) (by simp [user]))⟩

end Flowing

/-- Every channel flows in every reachable state. -/
theorem flowing_of_reachable (reachable : (system config V).Reachable machine) (id : Nat) :
    ∃ flight contents, Flowing config machine id flight contents := by
  refine invariant_of_moves (fun machine => ∃ flight contents,
    Flowing config machine id flight contents) ?_ ?_ reachable
  · intro kernel boot
    have booted := Config.booted_of_boot boot
    obtain ⟨allTasks, statics⟩ := booted.statics
    have channel : kernel.channel id = Channel.new n V (config.channel id) := by
      rw [statics]
      rfl
    have nobody : ∀ list, kernel.waitHead list = [] := by
      intro list
      rw [booted.waitHead]
      rfl
    refine ⟨fun _ => none, [], ⟨⟨?_, ?_, ?_, ?_, ?_, ?_⟩, ⟨?_, ?_⟩, ?_, rfl⟩, ?_, ?_⟩
    · simpa only [Config.start, channel, Channel.new] using
        RingBuffer.empty (fun _ => none) (config.channel id)
    · simp [Config.start, channel, Channel.new]
    · simpa [Config.start, channel, Channel.new, Spec.parked, nobody] using Ledger.empty
    · simpa [Config.start, channel, Channel.new] using Delivery.empty
    · simp [Config.start, nobody]
    · simp [Config.start, nobody]
    · exact fun senders => absurd (nobody _) senders
    · exact fun receivers => absurd (nobody _) receivers
    · exact fun task value flies => by simp at flies
    · simp [Config.start, channel, Channel.new]
    · simp [Config.start]
  · rintro machine action next core ⟨flight, contents, flowing⟩ moves
    exact flowing.moves core moves

/-- No section on a channel faults. -/
theorem Flowing.call_ok (flowing : Flowing config machine id flight contents)
    (core : Core config machine) {call : Call V} (uses : .channel id ∈ call.uses) (fault : Fault) :
    machine.perform config.idle (.call call) ≠ some (.error fault) ∧
      machine.perform config.idle (.isr call) ≠ some (.error fault) := by
  constructor
  · intro performed
    cases Machine.faults_of_perform performed with
    | call isTask triggered may faults =>
        rename_i task
        obtain ⟨_, _, isCurrent⟩ := Machine.threadTask_eq_some.mp isTask
        have runs := core.task_running isTask triggered
        obtain ⟨after, outcome, runsTo, _⟩ := flowing.run_served core
          (.inr ⟨task, rfl, isCurrent, runs, may⟩) uses
        cases runsTo.symm.trans faults
  · intro performed
    cases Machine.faults_of_perform performed with
    | isr safe faults =>
        obtain ⟨after, outcome, runsTo, _⟩ := flowing.run_served core (.inl ⟨rfl, safe⟩) uses
        cases runsTo.symm.trans faults

/-- No return from `recv` reads an uninitialised local. -/
theorem Flowing.ret_ok (flowing : Flowing config machine id flight contents)
    (core : Core config machine) {task : Fin n} (isTask : machine.threadTask = some task)
    (pc : (machine.thread task).pc = .recvRet id) (fault : Fault) :
    machine.perform config.idle .ret ≠ some (.error fault) := by
  intro performed
  cases Machine.faults_of_perform performed with
  | ret isCaller triggered faults =>
      obtain rfl := Option.some.inj (isTask.symm.trans isCaller)
      have runs := core.task_running isTask triggered
      have given := (flowing.receiving task).mpr ⟨pc, core.wf.not_mem_of_running runs⟩
      obtain ⟨value, isValue⟩ := Option.ne_none_iff_exists'.mp given
      have received := flowing.flows.landed task value isValue
      simp [Machine.returnFrom, pc, received] at faults

end SpecMachine

/-- What the callers of a channel have been told: which values were refused, and which they got. -/
def ChannelInner.answers {n : Nat} {V : Type} (inner : ChannelInner n V) :
    List (TcbPtr n × V) × List (TcbPtr n × V) := (inner.rejected, inner.returned)

namespace Spec

variable {n : Nat} {V : Type} {kernel : Spec n V} {id : Nat} {who : TcbPtr n} {value : V}

/-- A section that tells no caller of a channel anything. -/
def Silent {α : Type} (kernel : Spec n V) (id : Nat) (run : Exec (Spec n V × α)) : Prop :=
  Triple run (fun result => (result.1.channel id).answers = (kernel.channel id).answers)
    fun _ => True

/-- A section that goes on from a state in which nobody has been told more. -/
theorem Silent.of_eq {α : Type} {start : Spec n V} {run : Exec (Spec n V × α)}
    (silent : Silent start id run)
    (same : (start.channel id).answers = (kernel.channel id).answers) : Silent kernel id run :=
  silent.mono fun _ kept => kept.trans same

end Spec

/-- The live cells of the ring buffer, in order. -/
def ChannelInner.cells {n : Nat} {V : Type} (inner : ChannelInner n V) : List (Option V) :=
  (List.range inner.count).map fun offset => inner.buf ((inner.head + offset) % inner.capacity)

namespace RepMachine

variable {n : Nat} {V : Type} {config : Config n} {machine : RtosMachine n V}

end RepMachine

end Kangaroos
