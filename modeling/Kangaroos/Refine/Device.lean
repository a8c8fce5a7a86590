import Kangaroos.Abstract.Stacks
import Kangaroos.Proofs.TaskStacks
import Kangaroos.Refine.Machine
import Mathlib.Data.List.Pairwise

/-!
# The device and the machine

The tokens of a firmware have TCBs and stacks of their own. The boot writes their first frames,
and leaves a machine that represents an abstract one; between the assembly stubs the device
takes the steps of the machine, which move no stack.
-/

namespace Kangaroos

open Words (storeWords loadWords Block)

variable {n : Nat} {V : Type}

namespace Firmware

variable {firmware : Firmware n} {token other : EntryToken n}

theorem map_tcb_entries (firmware : Firmware n) :
    firmware.entries.map (·.tcb) = firmware.config.tokens.map SpawnToken.tcb ++ [firmware.config.idle] := by
  rw [firmware.tokens, entries, List.map_append, List.map_map]
  rfl

theorem entries_nodup (firmware : Firmware n) : (firmware.entries.map (·.tcb)).Nodup := by
  have distinct := firmware.config.distinct
  rw [map_tcb_entries, List.nodup_append_comm]
  exact distinct

/-- A TCB belongs to one token. -/
theorem eq_of_tcb (member : token ∈ firmware.entries) (member' : other ∈ firmware.entries)
    (same : token.tcb = other.tcb) : token = other :=
  List.inj_on_of_nodup_map firmware.entries_nodup member member' same

theorem find_entry (member : token ∈ firmware.entries) :
    firmware.entries.find? (·.tcb = token.tcb) = some token := by
  cases found : firmware.entries.find? (·.tcb = token.tcb) with
  | none => simpa using List.find?_eq_none.mp found token member
  | some other =>
      have same : other.tcb = token.tcb := by simpa using List.find?_some found
      rw [eq_of_tcb (List.mem_of_find?_eq_some found) member same]

/-- Two tasks share no word of their stacks. -/
theorem apart_entries (member : token ∈ firmware.entries) (member' : other ∈ firmware.entries)
    (different : token.tcb ≠ other.tcb) : token.stack.Apart other.stack := by
  have apart : firmware.entries.Pairwise fun first second => first.stack.Apart second.stack := by
    have slices := firmware.apart
    rw [show firmware.tasks.map EntryToken.stack ++
      [({ ptr := firmware.idleStack, len := 64, fits := idle_fits } : Slice)] =
        firmware.entries.map EntryToken.stack by rw [entries, List.map_append]; rfl] at slices
    exact List.pairwise_map.mp slices
  have symmetric : Std.Symm fun first second : EntryToken n => first.stack.Apart second.stack :=
    ⟨fun _ _ apart address owned owns => apart address owns owned⟩
  exact apart.forall member member' fun same => different (congrArg (·.tcb) same)

/-- Every task of the configuration has a token. -/
theorem exists_entry {task : Fin n} (member : task ∈ firmware.config.order) :
    ∃ token ∈ firmware.entries, token.tcb = task := by
  rw [Config.order, List.mem_cons, List.mem_reverse] at member
  have listed : task ∈ firmware.entries.map (·.tcb) := by
    rw [map_tcb_entries, List.mem_append, List.mem_singleton]
    exact member.symm
  obtain ⟨token, isEntry, isTask⟩ := List.mem_map.mp listed
  exact ⟨token, isEntry, isTask⟩

/-- Every token is of a task of the configuration. -/
theorem mem_order (member : token ∈ firmware.entries) : token.tcb ∈ firmware.config.order := by
  have listed : token.tcb ∈ firmware.entries.map (·.tcb) := List.mem_map_of_mem member
  rw [map_tcb_entries, List.mem_append, List.mem_singleton] at listed
  rw [Config.order, List.mem_cons, List.mem_reverse]
  exact listed.symm

end Firmware

/-- A task as `spawn_into` leaves it. -/
structure EntryToken.Spawned (token : EntryToken n) (taskExit : Word) (board : Board n V) : Prop where
  parked : token.stack.Parked board.cpu.mem (board.kernel.tcb token.tcb).sp (token.firstView taskExit)
  stackBase : (board.kernel.tcb token.tcb).stackBase = token.stackPtr
  canary : loadWords board.cpu.mem token.stackPtr 4 = List.replicate 4 canary

/-- There was room for the canary. -/
theorem EntryToken.Spawned.enough {token : EntryToken n} {taskExit : Word} {board : Board n V}
    (spawned : token.Spawned taskExit board) : 4 ≤ token.stack.len := by
  obtain ⟨frame, _, xpsr, _, _, _, hardware⟩ := spawned.parked
  have := hardware.fits
  omega

/-- It stays so while others are spawned. -/
theorem EntryToken.Spawned.congr {token : EntryToken n} {taskExit : Word} {board after : Board n V}
    (spawned : token.Spawned taskExit board)
    (mem : ∀ address, token.stack.Owns address → after.cpu.mem address = board.cpu.mem address)
    (tcb : after.kernel.tcb token.tcb = board.kernel.tcb token.tcb) : token.Spawned taskExit after where
  parked := by
    rw [tcb]
    exact spawned.parked.congr mem
  stackBase := by
    rw [tcb]
    exact spawned.stackBase
  canary := by
    have enough := spawned.enough
    rw [← spawned.canary]
    refine Words.loadWords_congr fun address inside => mem address ?_
    have start : Block (token.stack.address 0) 4 address := token.stack.address_zero ▸ inside
    exact Slice.owns_of_block (by omega) start

namespace Port

variable {port : Port} {taskExit : Port → Word} {token : EntryToken n} {board after : Board n V}

/-- The first frame parks a task. -/
theorem parked_of_initialFrame {mem : Word → Word} {exit : Word} (enough : 21 ≤ token.stackLen)
    (frame : loadWords mem (token.stack.address (token.stackLen - 17)) 17 =
      initialFrame exit token.entry) :
    token.stack.Parked mem (token.stack.address (token.stackLen - 17)) (token.firstView exit) := by
  rw [Words.loadWords_add mem _ 9 8, initialFrame] at frame
  obtain ⟨software, hardware⟩ := List.append_inj frame rfl
  have unpadded : padWords 0x01000000 = 0 := by decide
  have top : token.stackLen - 17 + 9 + 8 + 0 = token.stack.len :=
    show token.stackLen - 17 + 9 + 8 + 0 = token.stackLen by omega
  refine ⟨token.stackLen - 17, 0xFFFFFFFD, 0x01000000, rfl, by decide, software, ?_, ?_, ?_, ?_, ?_⟩
  · rw [unpadded, top]
  · rw [Slice.address_add]
    exact hardware
  · show (0x01000000 : Word) = 0x01000000 &&& ~~~0x200
    decide
  · rw [unpadded, top]
    rfl
  · rw [unpadded, top, Nat.sub_self]
    rfl

/-- `spawn_into` spawns a task, and writes nothing but its stack and its TCB. -/
theorem spawned_of_spawnInto (returned : (port.spawnInto taskExit token).run board = .ok ⟨⟩ after) :
    board.kernel.spawnInto token.toSpawnToken = .ok after.kernel ∧
      token.Spawned (taskExit port) after ∧
      (∀ address, ¬token.stack.Owns address → after.cpu.mem address = board.cpu.mem address) ∧
      ∀ task, task ≠ token.tcb → after.kernel.tcb task = board.kernel.tcb task := by
  have enough : 21 ≤ token.stackLen := by
    by_contra small
    obtain ⟨fault, last, panics, _⟩ :=
      @spawnInto_error n V board port taskExit token (by omega)
    cases panics.symm.trans returned
  have long : 21 ≤ token.stack.len := enough
  obtain ⟨kernel, isKernel⟩ : ∃ kernel, kernel = board.kernel.enlist token.toSpawnToken
      (token.stack.address (token.stackLen - 17)) := ⟨_, rfl⟩
  obtain ⟨isMem, sameKernel⟩ : after.cpu.mem =
      spawned board.cpu.mem token.stack (taskExit port) token.entry ∧ after.kernel = kernel := by
    rw [spawnInto_ok enough] at returned
    rw [isKernel]
    cases returned
    exact ⟨rfl, rfl⟩
  have sp : (kernel.tcb token.tcb).sp = token.stack.address (token.stackLen - 17) := by
    simp [isKernel, Kernel.enlist]
  refine ⟨?_, ⟨?_, ?_, ?_⟩, fun address outside => ?_, fun task different => ?_⟩
  · rcases port.spawnInto_kernel taskExit token board with ⟨last, ended, spawns⟩ | ⟨_, _, panics, _⟩
    · cases ended.symm.trans returned
      exact spawns
    · cases panics.symm.trans returned
  · rw [isMem, sameKernel, sp]
    exact parked_of_initialFrame enough (spawned_frame _ token.stack _ _)
  · rw [sameKernel]
    simp [isKernel, Kernel.enlist]
  · rw [isMem]
    exact spawned_canary long
  · have seventeen : (initialFrame (taskExit port) token.entry).length = 17 := rfl
    have four : (List.replicate 4 canary).length = 4 := rfl
    rw [isMem, spawned, Words.storeWords_of_outside, Words.storeWords_of_outside]
    · rw [four, ← token.stack.address_zero]
      exact fun inside => outside (Slice.owns_of_block (by omega) inside)
    · rw [seventeen]
      exact fun inside => outside (Slice.owns_of_block (by omega) inside)
  · rw [sameKernel]
    simp [isKernel, Kernel.enlist, different]

/-- Spawning tokens with TCBs and stacks of their own. -/
theorem spawned_of_forM {tokens : List (EntryToken n)} (distinct : (tokens.map (·.tcb)).Nodup)
    (apart : ∀ token ∈ tokens, ∀ other ∈ tokens, token.tcb ≠ other.tcb →
      token.stack.Apart other.stack)
    (returned : (tokens.forM (port.spawnInto taskExit)).run board = .ok ⟨⟩ after) :
    (tokens.map EntryToken.toSpawnToken).foldlM Kernel.spawnInto board.kernel = .ok after.kernel ∧
      (∀ token ∈ tokens, token.Spawned (taskExit port) after) ∧
      (∀ address, (∀ token ∈ tokens, ¬token.stack.Owns address) →
        after.cpu.mem address = board.cpu.mem address) ∧
      ∀ task, task ∉ tokens.map (·.tcb) → after.kernel.tcb task = board.kernel.tcb task := by
  induction tokens generalizing board with
  | nil =>
      cases returned
      exact ⟨rfl, by simp, fun _ _ => rfl, fun _ _ => rfl⟩
  | cons token rest ih =>
      rw [List.map_cons, List.nodup_cons] at distinct
      rw [List.forM] at returned
      cases first : (port.spawnInto taskExit token).run board with
      | error fault middle => cases (EStateM.run_bind_of_error first).symm.trans returned
      | ok result middle =>
          rw [EStateM.run_bind_of_ok first] at returned
          obtain ⟨spawns, spawned, mem, tcb⟩ := spawned_of_spawnInto first
          obtain ⟨others, spawnedRest, memRest, tcbRest⟩ := ih distinct.2
            (fun one isOne two isTwo => apart one (List.mem_cons_of_mem _ isOne) two
              (List.mem_cons_of_mem _ isTwo)) returned
          refine ⟨?_, ?_, fun address outside => ?_, fun task unlisted => ?_⟩
          · rw [List.map_cons, List.foldlM_cons, spawns]
            exact others
          · rw [List.forall_mem_cons]
            refine ⟨spawned.congr (fun address owns => memRest address fun other member => ?_)
              (tcbRest _ distinct.1), spawnedRest⟩
            have different : token.tcb ≠ other.tcb := by
              rintro same
              exact distinct.1 (same ▸ List.mem_map_of_mem member)
            exact apart token List.mem_cons_self other (List.mem_cons_of_mem _ member) different
              address owns
          · rw [List.forall_mem_cons] at outside
            exact (memRest address outside.2).trans (mem address outside.1)
          · rw [List.map_cons, List.mem_cons, not_or] at unlisted
            exact (tcbRest task unlisted.2).trans (tcb task unlisted.1)

end Port

/-- Between the stubs nothing but the registers of the running task and of handlers changes. -/
theorem SpecMachine.Core.between_stubs {config : Config n} {machine next : SpecMachine n V}
    (core : SpecMachine.Core config machine) {action : Action V}
    (step : Machine.Step config.idle machine action next) (noStub : action.hasStub = false) :
    next.handler = machine.handler ∧ next.kernel.current = machine.kernel.current ∧
      next.kernel.stackPtrs = machine.kernel.stackPtrs := by
  have sameStacks := SpecMachine.stackPtrs_of_step step (by rintro sp rfl; simp [Action.hasStub] at noStub)
  refine ⟨?_, ?_, sameStacks⟩
  · cases step with
    | pendsv switches => simp [Action.hasStub] at noStub
    | ret isTask triggered returns => cases returns <;> rfl
    | launch | tick | isr | isrRet | call | trigger | dropBox | writeBox | forgetGuard => rfl
  · cases step with
    | launch fresh returned => simp [Action.hasStub] at noStub
    | pendsv switches => simp [Action.hasStub] at noStub
    | tick returned => exact ((Spec.tick_spec core.chain).of_ok returned).current
    | isr safe returned =>
        obtain ⟨_, effect, _⟩ := (core.isr_contract safe returned).effect
        exact effect.current
    | call isTask notIdle triggered may returned =>
        obtain ⟨_, effect, _⟩ := (core.call_contract isTask triggered returned).effect
        exact effect.current
    | ret isTask triggered returns => cases returns <;> rfl
    | dropBox isTask notIdle triggered user live returned =>
        obtain ⟨_, _, rfl⟩ := Pool.destroy_ok returned
        rfl
    | writeBox isTask notIdle triggered user live returned =>
        obtain ⟨_, _, rfl⟩ := Pool.write_ok returned
        rfl
    | isrRet | trigger | forgetGuard => rfl

/-- A machine as coded and the abstract machine it represents, with its invariant. -/
def RtosMachine.Valid (config : Config n) (machine : RtosMachine n V) : Prop :=
  ∃ spec, RepMachine machine spec ∧ SpecMachine.Core config spec

namespace RtosMachine.Valid

variable {config : Config n} {machine next : RtosMachine n V} {action : Action V}

theorem perform (valid : RtosMachine.Valid config machine)
    (performed : machine.perform config.idle action = some (.ok next)) :
    RtosMachine.Valid config next := by
  obtain ⟨spec, rep, core⟩ := valid
  obtain ⟨spec', performed', rep'⟩ := rep.perform_ok core performed
  exact ⟨spec', rep', core.step (Machine.step_of_perform performed')⟩

theorem between_stubs (valid : RtosMachine.Valid config machine)
    (performed : machine.perform config.idle action = some (.ok next))
    (noStub : action.hasStub = false) :
    next.handler = machine.handler ∧ next.kernel.current = machine.kernel.current ∧
      next.kernel.stackPtrs = machine.kernel.stackPtrs := by
  obtain ⟨spec, rep, core⟩ := valid
  obtain ⟨spec', performed', rep'⟩ := rep.perform_ok core performed
  obtain ⟨handler, current, stackPtrs⟩ :=
    core.between_stubs (Machine.step_of_perform performed') noStub
  have same {machine : RtosMachine n V} {spec : SpecMachine n V} (rep : RepMachine machine spec) :
      machine.kernel.stackPtrs = spec.kernel.stackPtrs := by
    ext1 task
    exact Prod.ext (rep.kernel.sp task) (congrArg Tcb.stackBase (rep.kernel.tcb task))
  refine ⟨?_, ?_, ?_⟩
  · rw [rep.handler, rep'.handler, handler]
  · rw [rep.kernel.statics, rep'.kernel.statics, current]
  · rw [same rep, same rep', stackPtrs]

/-- `CURRENT` is a task of the configuration. -/
theorem member (valid : RtosMachine.Valid config machine) {task : Fin n}
    (isCurrent : machine.kernel.current = some task) : task ∈ config.order := by
  obtain ⟨spec, rep, core⟩ := valid
  exact core.member task (by rw [← rep.kernel.statics]; exact isCurrent)

/-- Before the launch PendSV does not happen. -/
theorem fresh (valid : RtosMachine.Valid config machine) (none : machine.kernel.current = none) :
    machine.handler = .inactive ∧ machine.pendsv = false := by
  obtain ⟨spec, rep, core⟩ := valid
  have start := core.fresh (by rw [← rep.kernel.statics]; exact none)
  exact ⟨rep.handler.trans start.1, rep.pendsv.trans start.2.1⟩

/-- At the end of PendSV the selected task is `CURRENT`. -/
theorem switched (valid : RtosMachine.Valid config machine) {task : Fin n}
    (isSwitched : machine.handler = .switched task) : machine.kernel.current = some task := by
  obtain ⟨spec, rep, core⟩ := valid
  have phase := core.phase
  rw [← rep.handler, isSwitched] at phase
  rw [rep.kernel.statics]
  exact phase.2.2

end RtosMachine.Valid

/-- The boot leads to a valid machine, which has not been launched. -/
theorem RtosMachine.valid_of_spawns {firmware : Firmware n} {kernel : Rtos n V}
    (spawns : (firmware.entries.map EntryToken.toSpawnToken).foldlM Kernel.spawnInto
      (firmware.config.reset V (TcbPtr n) (TcbPtr n)) = .ok kernel) :
    RtosMachine.Valid firmware.config (Config.start V (TcbPtr n) (TcbPtr n) kernel) ∧
      kernel.current = none := by
  have reps := (Rep.reset (V := V) firmware.config).foldlM_spawnInto
    (by simp [Config.reset, Tcb.zeroed]) (firmware.entries.map EntryToken.toSpawnToken)
  obtain ⟨spec, spawns', rep⟩ := reps.of_ok spawns
  have tcbs : (firmware.entries.map EntryToken.toSpawnToken).map SpawnToken.tcb =
      firmware.entries.map (·.tcb) := by
    rw [List.map_map]
    rfl
  have fresh : Config.Booted [] (firmware.config.reset V WaitList (List (Fin n)))
      (firmware.config.reset V WaitList (List (Fin n))) :=
    ⟨rfl, by simp, fun _ _ => rfl, ⟨none, rfl⟩, rfl, by simp, by simp⟩
  have all : (firmware.entries.map (·.tcb)).reverse ++ [] = firmware.config.order := by
    rw [Firmware.map_tcb_entries, List.reverse_append]
    simp [Config.order]
  have booted := fresh.foldlM (by simp) (tcbs ▸ firmware.entries_nodup) spawns'
  rw [tcbs, all] at booted
  have rested : kernel.current = none := by
    obtain ⟨_, statics⟩ := booted.statics
    rw [rep.statics, statics]
    rfl
  exact ⟨⟨Config.start V _ _ spec, ⟨rep, rfl, rfl, rfl, rfl, rfl⟩, SpecMachine.core_of_booted booted⟩,
    rested⟩

end Kangaroos
