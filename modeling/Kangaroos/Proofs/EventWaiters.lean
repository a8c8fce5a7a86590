import Kangaroos.Abstract.Deliveries
import Kangaroos.Proofs.Parking

/-!
# No task sleeps on a satisfied event

The books note the mask of the last `wait_any` or `wait_all` each task has called on an event
group. Whatever is set, cleared and waited for, no parked task has a mask the bits satisfy.
-/

namespace Kangaroos

/-- The sections of `set` and `set_from_isr`. -/
def Action.Sets {V : Type} (action : Action V) (id : Nat) : Prop :=
  ∃ mask, action = .call (.set id mask) ∨ action = .isr (.set id mask) ∨
    ∃ trigger, action = .isr (.setFromIsr id mask trigger)

/-- Where a task is while it waits on a list. -/
def ScanRule.ret : ScanRule → Nat → Pc
  | .any, event => .waitAnyRet event
  | .all, event => .waitAllRet event

/-- What the books note of a step: the mask a task waits with. -/
def EventGroup.noteMask {n : Nat} {V Link Head : Type} (id : Nat) (machine : Machine n V Link Head)
    (action : Action V) (masks : Fin n → Word) : Fin n → Word :=
  match action with
  | .call (.waitAny event mask) | .call (.waitAll event mask) =>
    if event = id then
      match machine.kernel.current with
      | some task => Function.update masks task mask
      | none => masks
    else masks
  | _ => masks

/-- Steps of other primitives are not noted. -/
theorem EventGroup.noteMask_apart {n : Nat} {V Link Head : Type} {id : Nat}
    {machine : Machine n V Link Head} {call : Call V} {masks : Fin n → Word}
    (apart : .event id ∉ call.uses) : noteMask id machine (.call call) masks = masks := by
  have other : ∀ event, .event id ∉ [Prim.event event] → event ≠ id := by
    rintro event unused rfl
    simp at unused
  cases call with
  | waitAny event mask => simp [noteMask, other event apart]
  | waitAll event mask => simp [noteMask, other event apart]
  | _ => rfl

namespace SpecMachine

variable {n : Nat} {V : Type} {config : Config n} {machine next : SpecMachine n V} {id : Nat}
  {masks : Fin n → Word} {action : Action V} {task : Fin n}

/-- A task that waits for events is inside the call. -/
theorem Core.waits_event (core : Core config machine) {rule : ScanRule}
    (member : task ∈ machine.kernel.waitHead (rule.list id)) :
    (machine.thread task).pc.home = some (.event id) := by
  have awaits := core.awaits task _ (core.wf.mem.mp member)
  cases rule <;> cases pc : (machine.thread task).pc <;> rw [pc] at awaits <;>
    simp_all [Pc.awaits, ScanRule.list, Pc.home]

/-- The tasks parked in `wait_any` or `wait_all` are those on its list. -/
theorem Core.parked_event (core : Core config machine) (rule : ScanRule) (task : Fin n) :
    machine.parked (rule.ret id) task = true ↔ task ∈ machine.kernel.waitHead (rule.list id) := by
  cases rule with
  | any =>
      exact core.parked_iff (.waitAnyRet id) (.eventAny id) (fun other awaits => awaits)
        (fun other awaits => by cases other <;> simp_all [Pc.awaits]) task
  | all =>
      exact core.parked_iff (.waitAllRet id) (.eventAll id) (fun other awaits => awaits)
        (fun other awaits => by cases other <;> simp_all [Pc.awaits]) task

/-- Nobody waits before the first dispatch. -/
theorem Core.launched_of_mem (core : Core config machine) {list : WaitList}
    (member : task ∈ machine.kernel.waitHead list) : machine.kernel.current ≠ none := by
  intro unlaunched
  exact (core.fresh unlaunched).2.2 task list (core.wf.mem.mp member)

/-- Steps of other primitives keep the waiters and the bits. -/
theorem unserved_untouched (core : Core config machine)
    (unserved : Spec.Unserved machine.kernel id masks)
    (untouched : Untouched (.event id) machine next) : Spec.Unserved next.kernel id masks := by
  have bits : next.kernel.bits id = machine.kernel.bits id := untouched.agree
  refine unserved.frame ?_ ?_ ?_
  · intro rule
    exact untouched.heads (rule.list id) (by cases rule <;> rfl)
  · intro rule task member
    exact (untouched.kept task (core.waits_event member)).1
  · rw [show next.kernel.bits id = _ from bits]
    exact .refl _

/-- Setters and `clear` keep the waiters with masks that are not satisfied. -/
theorem unserved_writes (core : Core config machine)
    (unserved : Spec.Unserved machine.kernel id masks) {call : Call V} {who : TcbPtr n}
    {kernel : Spec n V} {outcome : Outcome}
    (writes : (∃ mask, call = .set id mask) ∨ (∃ mask trigger, call = .setFromIsr id mask trigger) ∨
      ∃ mask, call = .clear id mask)
    (returned : call.run who machine.kernel = .ok (kernel, outcome)) :
    Spec.Unserved kernel id masks := by
  have launched : ∀ rule : ScanRule, ∀ task ∈ machine.kernel.waitHead (rule.list id),
      machine.kernel.current ≠ none := fun rule task member => core.launched_of_mem member
  obtain ⟨mask, rfl⟩ | ⟨mask, trigger, rfl⟩ | ⟨mask, rfl⟩ := writes
  · obtain ⟨after, flag, sets, holds⟩ := unserved.setFromIsr core.wf launched mask
    simp only [Call.run, EventGroup.set_eq_setFromIsr, sets, Except.ok_bind] at returned
    cases returned
    exact holds
  · obtain ⟨after, flag, sets, holds⟩ := unserved.setFromIsr core.wf launched mask
    simp only [Call.run, sets, Except.ok_bind] at returned
    cases returned
    exact holds
  · cases returned
    refine unserved.frame (fun _ => rfl) (fun _ _ _ => rfl) ?_
    simpa [EventGroup.clear] using Within.and _ _

/-- `wait_any` and `wait_all` block their caller only with a mask that is not satisfied. -/
theorem unserved_waits (core : Core config machine)
    (unserved : Spec.Unserved machine.kernel id masks) {call : Call V} {kernel : Spec n V}
    {outcome : Outcome} (isCurrent : machine.kernel.current = some task)
    (runs : (machine.kernel.tcb task).state.isRunning = true) {mask : Word}
    (waits : call = .waitAny id mask ∨ call = .waitAll id mask)
    (returned : call.run (some task) machine.kernel = .ok (kernel, outcome)) :
    Spec.Unserved kernel id (Function.update masks task mask) := by
  have away : ∀ rule : ScanRule, ∀ other ∈ machine.kernel.waitHead (rule.list id),
      other ≠ task := by
    rintro rule other member rfl
    exact core.wf.not_mem_of_running runs member
  have renoted : Spec.Unserved machine.kernel id (Function.update masks task mask) := by
    intro rule other member
    rw [Function.update_of_ne (away rule other member)]
    exact unserved rule other member
  obtain rfl | rfl := waits
  · obtain ⟨⟨after, flag⟩, waited, rest⟩ := Except.ok_of_bind returned
    cases rest
    rcases Spec.waitAny_cases isCurrent waited with ⟨matched, _, rfl⟩ | ⟨refused, rfl⟩
    · refine renoted.frame (fun _ => rfl) ?_ (by simpa using Within.and _ _)
      intro rule other member
      simp [away rule other member]
    · exact unserved.park core.wf runs .any refused
  · obtain ⟨⟨after, flag⟩, waited, rest⟩ := Except.ok_of_bind returned
    cases rest
    rcases Spec.waitAll_cases isCurrent waited with ⟨_, rfl⟩ | ⟨refused, rfl⟩
    · exact renoted.frame (fun _ => rfl) (fun _ _ _ => rfl) (by simpa using Within.and _ _)
    · exact unserved.park core.wf runs .all refused

/-- No move leaves a waiter behind whose mask is satisfied. -/
theorem unserved_moves (core : Core config machine)
    (unserved : Spec.Unserved machine.kernel id masks) (moves : Moves machine action next) :
    Spec.Unserved next.kernel id (EventGroup.noteMask id machine action masks) := by
  cases moves with
  | scheduled scheduled schedules =>
      have quiet : EventGroup.noteMask id machine action masks = masks := by
        cases action <;> first | rfl | simp [Action.schedules] at schedules
      rw [quiet]
      exact unserved_untouched core unserved (.of_scheduled scheduled)
  | isr safe returned contract slots =>
      rename_i call kernel outcome pendsv isrSlots
      by_cases uses : .event id ∈ call.uses
      · obtain sets | sets | clears | ⟨mask, rfl⟩ | ⟨mask, rfl⟩ := Call.uses_event uses
        · exact unserved_writes core unserved (.inl sets) returned
        · exact unserved_writes core unserved (.inr (.inl sets)) returned
        · exact unserved_writes core unserved (.inr (.inr clears)) returned
        · simp [Call.isrSafe] at safe
        · simp [Call.isrSafe] at safe
      · exact unserved_untouched core unserved (.of_isr core uses returned contract slots)
  | call isCurrent runs may returned contract =>
      rename_i call task kernel outcome pendsv
      by_cases uses : .event id ∈ call.uses
      · obtain ⟨mask, rfl⟩ | ⟨mask, trigger, rfl⟩ | ⟨mask, rfl⟩ | ⟨mask, rfl⟩ | ⟨mask, rfl⟩ :=
          Call.uses_event uses
        · exact unserved_writes core unserved (.inl ⟨mask, rfl⟩) returned
        · simp [Thread.mayCall] at may
        · exact unserved_writes core unserved (.inr (.inr ⟨mask, rfl⟩)) returned
        · simpa [EventGroup.noteMask, isCurrent] using
            unserved_waits core unserved isCurrent runs (.inl rfl) returned
        · simpa [EventGroup.noteMask, isCurrent] using
            unserved_waits core unserved isCurrent runs (.inr rfl) returned
      · rw [EventGroup.noteMask_apart uses]
        exact unserved_untouched core unserved (.of_call core uses may returned contract)
  | ret runs returns =>
      cases returns with
      | value pc received => exact unserved.frame (fun _ => rfl) (fun _ _ _ => rfl) (.refl _)
      | _ => exact unserved
  | dropBox runs user live inBounds =>
      exact unserved.frame (fun _ => rfl) (fun _ _ _ => rfl) (.refl _)
  | writeBox live stored => exact unserved.frame (fun _ => rfl) (fun _ _ _ => rfl) (.refl _)
  | isrRet assigned => exact unserved
  | forgetGuard runs user held => exact unserved

theorem unserved_start {kernel : Spec n V}
    (boot : config.boot V WaitList (List (Fin n)) = .ok kernel) :
    Spec.Unserved (Config.start V WaitList (List (Fin n)) kernel).kernel id masks := by
  intro rule task member
  have core := core_of_boot boot
  have launched : kernel.current ≠ none := core.launched_of_mem member
  obtain ⟨_, statics⟩ := (Config.booted_of_boot boot).statics
  rw [statics] at launched
  exact absurd rfl launched

/-- No task sleeps on a satisfied event. -/
theorem unserved_of_reachable (reachable : (config.withBooks V WaitList (List (Fin n)) (fun _ => 0)
    (EventGroup.noteMask id)).Reachable (machine, masks)) :
    Spec.Unserved machine.kernel id masks := by
  refine reachable.observed_invariant
    (fun machine masks => Spec.Unserved machine.kernel id masks) ?_ ?_
  · rintro state ⟨kernel, boot, rfl⟩
    exact unserved_start boot
  · intro state action after history reached holds performed
    have core := core_of_reachable reached
    exact unserved_moves core holds (core.moves (Machine.step_of_perform performed))

/-- A setter runs into no fault. -/
theorem sets_ok (core : Core config machine) (unserved : Spec.Unserved machine.kernel id masks)
    (sets : action.Sets id) (fault : Fault) :
    machine.perform config.idle action ≠ some (.error fault) := by
  have launched : ∀ rule : ScanRule, ∀ task ∈ machine.kernel.waitHead (rule.list id),
      machine.kernel.current ≠ none := fun rule task member => core.launched_of_mem member
  obtain ⟨mask, sets⟩ := sets
  obtain ⟨after, flag, done, _⟩ := unserved.setFromIsr core.wf launched mask
  intro performed
  cases Machine.faults_of_perform performed with
  | call isTask triggered may faults =>
      obtain rfl : _ = Call.set id mask := by simpa using sets
      simp [Call.run, EventGroup.set_eq_setFromIsr, done, Except.ok_bind] at faults
  | isr safe faults =>
      obtain rfl | ⟨trigger, rfl⟩ : _ = Call.set id mask ∨ ∃ trigger, _ =
          Call.setFromIsr id mask trigger := by simpa using sets
      · simp [Call.run, EventGroup.set_eq_setFromIsr, done, Except.ok_bind] at faults
      · simp [Call.run, done, Except.ok_bind] at faults
  | _ => simp at sets

end SpecMachine

namespace RepMachine

variable {n : Nat} {V : Type} {config : Config n} {machine next : RtosMachine n V}
  {spec : SpecMachine n V} {id : Nat} {masks : Fin n → Word}

theorem noteMask_eq (rep : RepMachine machine spec) (action : Action V) :
    EventGroup.noteMask id machine action = EventGroup.noteMask id spec action := by
  funext masks
  cases action with
  | call call =>
      cases call with
      | waitAny event mask => simp only [EventGroup.noteMask, rep.kernel.statics]
      | waitAll event mask => simp only [EventGroup.noteMask, rep.kernel.statics]
      | _ => rfl
  | _ => rfl

/-- The abstract machine beside the books of the code. -/
theorem exists_spec_masks (reachable : (config.withBooks V (TcbPtr n) (TcbPtr n) (fun _ => 0)
    (EventGroup.noteMask id)).Reachable (machine, masks)) :
    ∃ spec, RepMachine machine spec ∧ SpecMachine.Core config spec ∧
      Spec.Unserved spec.kernel id masks := by
  obtain ⟨⟨spec, shared⟩, reach, rep, sameBook⟩ := ((simulation config V).observed (fun _ => 0)
    fun state action _ spec _ rep _ => noteMask_eq rep action).reachable reachable
  obtain rfl : masks = shared := sameBook
  exact ⟨spec, rep, SpecMachine.core_of_reachable reach.of_observed,
    SpecMachine.unserved_of_reachable reach⟩

/-- No parked task has a mask the bits satisfy. -/
theorem unsatisfied (reachable : (config.withBooks V (TcbPtr n) (TcbPtr n) (fun _ => 0)
    (EventGroup.noteMask id)).Reachable (machine, masks)) :
    (∀ task, machine.parked (.waitAnyRet id) task = true →
      machine.kernel.bits id &&& masks task = 0) ∧
    ∀ task, machine.parked (.waitAllRet id) task = true →
      machine.kernel.bits id &&& masks task ≠ masks task := by
  obtain ⟨spec, rep, core, unserved⟩ := exists_spec_masks reachable
  rw [rep.kernel.statics]
  constructor
  · intro task isParked
    have listed := (core.parked_event .any task).mp (rep.parked_eq _ task ▸ isParked)
    exact ScanRule.taken_any_eq_none.mp (unserved .any task listed).2
  · intro task isParked
    have listed := (core.parked_event .all task).mp (rep.parked_eq _ task ▸ isParked)
    exact ScanRule.taken_all_eq_none.mp (unserved .all task listed).2

/-- No task sleeps on a satisfied event: in every reachable state no task parked in `wait_any`
has a bit of its mask set, and no task parked in `wait_all` has all of them. In particular a
`set` or `set_from_isr` ends without a fault, and leaves no waiter that the remaining bits
satisfy. -/
theorem no_satisfied_sleeper (reachable : (config.withBooks V (TcbPtr n) (TcbPtr n) (fun _ => 0)
    (EventGroup.noteMask id)).Reachable (machine, masks)) :
    (∀ task, machine.parked (.waitAnyRet id) task = true →
      machine.kernel.bits id &&& masks task = 0) ∧
    (∀ task, machine.parked (.waitAllRet id) task = true →
      machine.kernel.bits id &&& masks task ≠ masks task) ∧
    ∀ action, action.Sets id →
      (∀ fault, machine.perform config.idle action ≠ some (.error fault)) ∧
      ∀ next, machine.perform config.idle action = some (.ok next) →
        (∀ task, next.parked (.waitAnyRet id) task = true →
          next.kernel.bits id &&& masks task = 0) ∧
        ∀ task, next.parked (.waitAllRet id) task = true →
          next.kernel.bits id &&& masks task ≠ masks task := by
  obtain ⟨any, all⟩ := unsatisfied reachable
  obtain ⟨spec, rep, core, unserved⟩ := exists_spec_masks reachable
  refine ⟨any, all, fun action sets => ⟨fun fault performed => ?_, fun next performed => ?_⟩⟩
  · exact SpecMachine.sets_ok core unserved sets fault (rep.perform_error core performed)
  · have noted : (config.withBooks V (TcbPtr n) (TcbPtr n) (fun _ => 0)
        (EventGroup.noteMask id)).Reachable (next, EventGroup.noteMask id machine action masks) :=
      .step reachable ⟨performed, rfl⟩
    have quiet : EventGroup.noteMask id machine action masks = masks := by
      obtain ⟨mask, rfl | rfl | ⟨trigger, rfl⟩⟩ := sets <;> rfl
    rw [quiet] at noted
    exact unsatisfied noted

/-- Task 1 waits for bits 0 and 1, task 2 for either: setting bit 1 wakes task 2, which consumes
it, and task 1 stays. -/
theorem no_satisfied_sleeper_all : ∃ (machine : RtosMachine 4 Unit) (masks : Fin 4 → Word),
    masks 1 = 3 ∧ machine.parked (.waitAllRet 0) 1 = true ∧
    machine.parked (.waitAnyRet 0) 2 = false ∧ machine.kernel.bits 0 &&& masks 1 ≠ masks 1 := by
  let actions : List (Action Unit) := [.launch] ++ Config.thenSwitch (.waitAll 0 3) ++
    Config.thenSwitch (.waitAny 0 3) ++ [.isr (.set 0 2)]
  let check (pair : RtosMachine 4 Unit × (Fin 4 → Word)) : Bool :=
    pair.2 1 = 3 ∧ pair.1.parked (.waitAllRet 0) 1 = true ∧
      pair.1.parked (.waitAnyRet 0) 2 = false
  obtain ⟨⟨machine, masks⟩, reachable, checked⟩ := Machine.exists_of_checkNoting actions check
    (by decide +kernel : Machine.passesNoting (Config.small 10 20 30) (fun _ => 0)
      (EventGroup.noteMask 0) actions check = true)
  obtain ⟨mask, isParked, woken⟩ := of_decide_eq_true checked
  obtain ⟨_, all, _⟩ := no_satisfied_sleeper reachable
  exact ⟨machine, masks, mask, isParked, woken, all 1 isParked⟩

end RepMachine

end Kangaroos
