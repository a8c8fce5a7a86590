import Kangaroos.Proofs.ChannelFifo

/-!
# Stranded pairs

`recv` and `try_recv` look at `count` only, never at the parked senders. With a cell or more
a parked sender implies a full buffer, so they find a value; a channel of capacity 0 has no
buffer, and a sender and a receiver wait for each other.
-/

namespace Kangaroos

variable {n : Nat} {V : Type} {config : Config n}

/-- A task that executes application code. -/
def Machine.Ready {Link Head : Type} (machine : Machine n V Link Head) (task : Fin n) : Prop :=
  machine.threadTask = some task ∧ (machine.thread task).trig = false ∧
    (machine.thread task).pc = .user

/-- A receiver that comes now gets a value: `recv` does not block and leaves the value in the
local of its caller, and `try_recv` returns one to a task or an interrupt handler. -/
def Machine.Obtains (machine : RtosMachine n V) (id : Nat) : Prop :=
  (∀ task, machine.Ready task → ∃ after pend value,
    Channel.recvImpl machine.kernel id = .ok (after, pend, false) ∧
      after.frame (some task) = some value) ∧
  ∀ who, (∀ task, who = some task → machine.Ready task) → ∃ after pend value,
    Channel.tryRecvImpl machine.kernel id who = .ok (after, pend, some value)

/-- No sender and receiver wait for each other, and while a sender is parked a receiver
gets a value. -/
def Machine.Pairs (machine : RtosMachine n V) (id : Nat) : Prop :=
  (¬∃ sender receiver, machine.kernel.WaitsOn (.channelSend id) sender ∧
    machine.kernel.WaitsOn (.channelRecv id) receiver) ∧
  ((∃ sender, machine.kernel.WaitsOn (.channelSend id) sender) → machine.Obtains id)

namespace SpecMachine

variable {machine : SpecMachine n V} {id : Nat} {flight : TcbPtr n → Option V} {contents : List V}

/-- A task that executes application code has no value in flight. -/
theorem Flowing.idle (flowing : Flowing config machine id flight contents) {who : TcbPtr n}
    (ready : ∀ task, who = some task → machine.Ready task) : flight who = none := by
  cases who with
  | none => exact flowing.flows.outside
  | some task =>
      by_contra flies
      obtain ⟨_, _, user⟩ := ready task rfl
      simp [((flowing.receiving task).mp flies).1] at user

/-- With a value in the buffer `recv` returns one. -/
theorem Flowing.recv_obtains (flowing : Flowing config machine id flight contents)
    (core : Core config machine) (occupied : (machine.kernel.channel id).count ≠ 0) {task : Fin n}
    (ready : machine.Ready task) : ∃ after pend value,
      Channel.recvImpl machine.kernel id = .ok (after, pend, false) ∧
        after.frame (some task) = some value := by
  have isCurrent := (Machine.threadTask_eq_some.mp ready.1).2.2
  have idle : flight (some task) = none :=
    flowing.idle fun other isTask => Option.some.inj isTask ▸ ready
  obtain ⟨after, pend, block, receives, blocks, lands, _⟩ := flowing.flows.recvImpl core.wf
    isCurrent (core.task_running ready.1 ready.2.1) idle
  obtain rfl : block = false := by
    rw [Bool.eq_false_iff]
    exact fun blocked => occupied (blocks.mp blocked)
  obtain ⟨value, stored⟩ := lands rfl
  exact ⟨after, pend, value, receives, stored⟩

/-- So does `try_recv`. -/
theorem Flowing.tryRecv_obtains (flowing : Flowing config machine id flight contents)
    (core : Core config machine) (occupied : (machine.kernel.channel id).count ≠ 0)
    {who : TcbPtr n} (ready : ∀ task, who = some task → machine.Ready task) :
    ∃ after pend value,
      Channel.tryRecvImpl machine.kernel id who = .ok (after, pend, some value) := by
  obtain ⟨after, pend, result, receives, fails, _⟩ :=
    flowing.flows.tryRecvImpl (flowing.idle ready) core.launched
  cases result with
  | none => exact absurd (fails.mp rfl) occupied
  | some value => exact ⟨after, pend, value, receives⟩

end SpecMachine

namespace RepMachine

variable {machine : RtosMachine n V} {id : Nat}

/-- The code is ready when the abstract machine is. -/
theorem ready_iff {spec : SpecMachine n V} (rep : RepMachine machine spec) (task : Fin n) :
    machine.Ready task ↔ spec.Ready task := by
  rw [Machine.Ready, Machine.Ready, rep.threadTask_eq, rep.thread]

/-- A buffer that is not empty serves every receiver. -/
theorem obtains_of_occupied (reachable : (system config V).Reachable machine)
    (occupied : (machine.kernel.channel id).count ≠ 0) : machine.Obtains id := by
  obtain ⟨spec, reach, rep⟩ := exists_spec reachable
  have core := SpecMachine.core_of_reachable reach
  obtain ⟨flight, contents, flowing⟩ := SpecMachine.flowing_of_reachable reach id
  rw [rep.kernel.statics] at occupied
  constructor
  · intro task ready
    rw [rep.ready_iff] at ready
    obtain ⟨after, pend, value, receives, stored⟩ := flowing.recv_obtains core occupied ready
    have running : CurrentRuns spec.kernel := by
      intro current isCurrent
      obtain rfl : task = current :=
        Option.some.inj ((Machine.threadTask_eq_some.mp ready.1).2.2.symm.trans isCurrent)
      exact core.task_running ready.1 ready.2.1
    have matched : Simulates Alike (Channel.recvImpl machine.kernel id)
        (Channel.recvImpl spec.kernel id) := rep.kernel.recvImpl running
    obtain ⟨⟨coded, flags⟩, receivesCoded, related, rfl⟩ := matched.of_ok_right receives
    exact ⟨coded, pend, value, receivesCoded, by rw [related.statics]; exact stored⟩
  · intro who ready
    obtain ⟨after, pend, value, receives⟩ := flowing.tryRecv_obtains core occupied
      fun task isTask => (rep.ready_iff task).mp (ready task isTask)
    have matched : Simulates Alike (Channel.tryRecvImpl machine.kernel id who)
        (Channel.tryRecvImpl spec.kernel id who) := rep.kernel.tryRecvImpl
    obtain ⟨⟨coded, flags⟩, receivesCoded, related, rfl⟩ := matched.of_ok_right receives
    exact ⟨coded, pend, value, receivesCoded⟩

/-- Nobody gets a value from an empty buffer. -/
theorem not_obtains_of_empty (empty : (machine.kernel.channel id).count = 0) :
    ¬machine.Obtains id := by
  rintro ⟨_, tries⟩
  obtain ⟨after, pend, value, receives⟩ := tries none (by simp)
  simp [Channel.tryRecvImpl, empty] at receives

/-- A channel strands no pair exactly in the states in which it has a cell or no sender is
parked. -/
theorem pairs_iff (reachable : (system config V).Reachable machine) (id : Nat) :
    machine.Pairs id ↔
      0 < config.channel id ∨ ∀ task, ¬machine.kernel.WaitsOn (.channelSend id) task := by
  obtain ⟨spec, reach, rep⟩ := exists_spec reachable
  obtain ⟨flight, contents, flowing⟩ := SpecMachine.flowing_of_reachable reach id
  have waits := rep.kernel.waitsOn_iff
  have capacity := flowing.capacity
  have settled := flowing.flows.settled
  rw [← rep.kernel.statics] at capacity
  have full : ∀ task, machine.kernel.WaitsOn (.channelSend id) task →
      (machine.kernel.channel id).count = config.channel id := by
    intro task waiting
    rw [← capacity, rep.kernel.statics]
    exact settled.full (List.ne_nil_of_mem ((waits _ task).mp waiting))
  constructor
  · rintro ⟨_, obtains⟩
    by_contra neither
    obtain ⟨noCell, somebody⟩ := not_or.mp neither
    obtain ⟨sender, waiting⟩ := not_forall_not.mp somebody
    have empty := (full sender waiting).trans (Nat.eq_zero_of_not_pos noCell)
    exact not_obtains_of_empty empty (obtains ⟨sender, waiting⟩)
  · rintro (cell | nobody)
    · refine ⟨?_, ?_⟩
      · rintro ⟨sender, receiver, sends, receives⟩
        have occupied := full sender sends
        have empty := settled.empty (List.ne_nil_of_mem ((waits _ receiver).mp receives))
        rw [← rep.kernel.statics] at empty
        omega
      · rintro ⟨sender, waiting⟩
        have occupied := full sender waiting
        exact obtains_of_occupied reachable (by omega)
    · refine ⟨?_, ?_⟩
      · rintro ⟨sender, _, sends, _⟩
        exact nobody sender sends
      · rintro ⟨sender, sends⟩
        exact absurd sends (nobody sender)

/-- A sender is parked at a channel with one cell, which holds a value. -/
theorem pairs_iff_one_cell : ∃ machine : RtosMachine 4 Unit,
    machine.kernel.waitHead (.channelSend 0) = some 1 ∧ machine.Pairs 0 := by
  let check (machine : RtosMachine 4 Unit) : Bool :=
    machine.kernel.waitHead (.channelSend 0) = some 1
  let actions : List (Action Unit) :=
    [.launch, .call (.send 0 ()), .ret] ++ Config.thenSwitch (.send 0 ())
  obtain ⟨machine, reachable, checked⟩ := Machine.exists_of_check actions check
    (by decide +kernel : (Config.small 10 20 30).passes Unit _ _ actions check = true)
  exact ⟨machine, of_decide_eq_true checked, (pairs_iff reachable 0).mpr (.inl Nat.one_pos)⟩

/-- With no cell at all, task 1 parks a value, and task 2 blocks in `recv` beside it. -/
theorem stranded_without_cells :
    ¬∀ machine : RtosMachine 4 Unit,
      (system { Config.small 10 20 30 with channel := fun _ => 0 } Unit).Reachable machine →
        machine.Pairs 0 := by
  intro always
  let check (machine : RtosMachine 4 Unit) : Bool :=
    machine.kernel.waitHead (.channelSend 0) = some 1 ∧
      machine.kernel.waitHead (.channelRecv 0) = some 2
  let actions : List (Action Unit) := [.launch] ++ Config.thenSwitch (.send 0 ()) ++
    Config.thenSwitch (.recv 0)
  obtain ⟨machine, reachable, checked⟩ := Machine.exists_of_check actions check
    (by decide +kernel : ({ Config.small 10 20 30 with channel := fun _ => 0 }).passes Unit _ _
      actions check = true)
  obtain ⟨sender, receiver⟩ := of_decide_eq_true checked
  refine (always machine reachable).1 ⟨1, 2, ?_, ?_⟩
  · rw [Kernel.WaitsOn, sender]
    exact .here 1
  · rw [Kernel.WaitsOn, receiver]
    exact .here 2

end RepMachine

end Kangaroos
