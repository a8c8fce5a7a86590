import Kangaroos.Abstract.Condvars
import Kangaroos.Observed
import Kangaroos.Proofs.MutualExclusion

/-!
# Notifications and waits

The books note every call of `Condvar::wait`: its condvar, its mutex, and whether a notify has
taken the caller off the list. A call that no notify has reached is on the list, from the section
that releases the mutex on; a call that returns was reached, and owns the mutex.
-/

namespace Kangaroos

/-- A call of `Condvar::wait` that has not returned. -/
structure WaitCall where
  condvar : Nat
  mutex : Nat
  notified : Bool
  deriving DecidableEq

/-- The `wait` each task is in. -/
abbrev WaitBook (n : Nat) := Fin n → Option WaitCall

namespace WaitBook

variable {n : Nat} {V Link Head : Type}

/-- A notify has reached the tasks it made ready. -/
def notify (book : WaitBook n) (condvar : Nat) (machine next : Machine n V Link Head) :
    WaitBook n := fun task =>
  (book task).map fun call =>
    if call.condvar = condvar ∧ (machine.kernel.tcb task).state.isBlocked = true ∧
        (next.kernel.tcb task).state.isBlocked = false
      then { call with notified := true } else call

/-- What the books note of a step. -/
def record (machine : Machine n V Link Head) (action : Action V) (next : Machine n V Link Head)
    (book : WaitBook n) : WaitBook n :=
  match action with
  | .call (.wait condvar mutex) =>
    match machine.kernel.current with
    | some task => Function.update book task (some { condvar, mutex, notified := false })
    | none => book
  | .call (.notifyOne condvar) | .call (.notifyAll condvar)
  | .isr (.notifyOne condvar) | .isr (.notifyAll condvar) => book.notify condvar machine next
  | .ret =>
    match machine.kernel.current with
    | some task => Function.update book task none
    | none => book
  | _ => book

/-- Sections that are no `wait` and no notify are not noted. -/
theorem record_apart {machine next : Machine n V Link Head} {call : Call V} {book : WaitBook n}
    (apart : ∀ condvar, .condvar condvar ∉ call.uses) :
    record machine (.call call) next book = book ∧ record machine (.isr call) next book = book := by
  cases call with
  | wait condvar mutex => exact absurd List.mem_cons_self (apart condvar)
  | notifyOne condvar => exact absurd List.mem_cons_self (apart condvar)
  | notifyAll condvar => exact absurd List.mem_cons_self (apart condvar)
  | _ => exact ⟨rfl, rfl⟩

/-- What the books note of a notify. -/
theorem record_notifies {machine next : Machine n V Link Head} {call : Call V} {condvar : Nat}
    {book : WaitBook n} (notifies : call.notifies condvar) :
    record machine (.call call) next book = book.notify condvar machine next ∧
      record machine (.isr call) next book = book.notify condvar machine next := by
  cases call with
  | notifyOne id =>
      obtain rfl : id = condvar := notifies
      exact ⟨rfl, rfl⟩
  | notifyAll id =>
      obtain rfl : id = condvar := notifies
      exact ⟨rfl, rfl⟩
  | _ => exact notifies.elim

end WaitBook

namespace SpecMachine

variable {n : Nat} {V : Type} {config : Config n} {machine next : SpecMachine n V}
  {book : WaitBook n} {task : Fin n} {action : Action V}

/-- The books tell who is on the list of a condvar, and where its call of `wait` has come to. -/
structure Noted (machine : SpecMachine n V) (book : WaitBook n) : Prop where
  waiting : ∀ task call, book task = some call → call.notified = false →
    task ∈ machine.kernel.waitHead (.condvar call.condvar)
  listed : ∀ task condvar, task ∈ machine.kernel.waitHead (.condvar condvar) →
    ∃ mutex, book task = some { condvar, mutex, notified := false }
  inside : ∀ task call, book task = some call → (machine.thread task).pc = .relock call.mutex ∨
    (machine.thread task).pc = .lockRet call.mutex ∧ call.notified = true

namespace Noted

/-- The lists of condvars stay, and so do the tasks inside `wait`. -/
theorem frame (noted : Noted machine book)
    (heads : ∀ condvar, next.kernel.waitHead (.condvar condvar) =
      machine.kernel.waitHead (.condvar condvar))
    (inside : ∀ task call, book task = some call →
      (next.thread task).pc = (machine.thread task).pc ∨
        call.notified = true ∧ (next.thread task).pc = .lockRet call.mutex) : Noted next book where
  waiting task call isCall silent := by
    rw [heads]
    exact noted.waiting task call isCall silent
  listed task condvar member := by
    rw [heads] at member
    exact noted.listed task condvar member
  inside task call isCall := by
    rcases inside task call isCall with same | ⟨reached, returns⟩
    · rw [same]
      exact noted.inside task call isCall
    · exact .inr ⟨returns, reached⟩

/-- A running task that is in a call has been notified. -/
theorem notified_of_running (noted : Noted machine book) (core : Core config machine)
    (runs : (machine.kernel.tcb task).state.isRunning = true) {call : WaitCall}
    (isCall : book task = some call) : call.notified = true := by
  by_contra silent
  exact core.wf.not_mem_of_running runs
    (noted.waiting task call isCall (Bool.not_eq_true _ ▸ silent))

/-- A notify marks whom it releases. -/
theorem notify (noted : Noted machine book) (core : Core config machine)
    (core' : Core config next) {condvar : Nat}
    (released : Spec.Released (.condvar condvar) machine.kernel next.kernel)
    (pc : ∀ task, (next.thread task).pc = (machine.thread task).pc) :
    Noted next (book.notify condvar machine next) := by
  have blocked : ∀ (state : SpecMachine n V), Core config state → ∀ task id,
      task ∈ state.kernel.waitHead (.condvar id) →
        (state.kernel.tcb task).state.isBlocked = true := by
    intro state core task id member
    rw [core.wf.mem.mp member]
    rfl
  have shrinks : ∀ task id, task ∈ next.kernel.waitHead (.condvar id) →
      task ∈ machine.kernel.waitHead (.condvar id) := by
    intro task id member
    by_cases same : id = condvar
    · subst same
      exact released.shrinks task member
    · rwa [released.heads _ (by simpa using same)] at member
  constructor
  case waiting =>
    intro task call isCall silent
    obtain ⟨before, wasCall, rfl⟩ := Option.map_eq_some_iff.mp isCall
    by_cases reached : before.condvar = condvar ∧
        (machine.kernel.tcb task).state.isBlocked = true ∧
          (next.kernel.tcb task).state.isBlocked = false
    · rw [if_pos reached] at silent
      cases silent
    · rw [if_neg reached] at silent ⊢
      have member := noted.waiting task before wasCall silent
      by_cases same : before.condvar = condvar
      · by_contra left
        have isReady := released.ready task (same ▸ member) (same ▸ left)
        obtain ⟨slice, state⟩ := TaskState.isReady_iff.mp isReady
        refine reached ⟨same, blocked machine core task _ member, ?_⟩
        rw [state]
        rfl
      · rwa [released.heads _ (by simpa using same)]
  case listed =>
    intro task id member
    obtain ⟨mutex, wasCall⟩ := noted.listed task id (shrinks task id member)
    refine ⟨mutex, ?_⟩
    have stays := blocked next core' task id member
    simp [WaitBook.notify, wasCall, stays]
  case inside =>
    intro task call isCall
    obtain ⟨before, wasCall, rfl⟩ := Option.map_eq_some_iff.mp isCall
    rw [pc]
    rcases noted.inside task before wasCall with relocks | ⟨returns, reached⟩
    · refine .inl (relocks.trans ?_)
      split <;> rfl
    · refine .inr ?_
      split
      · exact ⟨returns, rfl⟩
      · exact ⟨returns, reached⟩

/-- A call of `wait` is noted with its place on the list. -/
theorem wait (noted : Noted machine book) (core : Core config machine) {condvar mutex : Nat}
    (runs : (machine.kernel.tcb task).state.isRunning = true)
    (heads : ∀ other, next.kernel.waitHead (.condvar other) = if other = condvar
      then task :: machine.kernel.waitHead (.condvar condvar)
      else machine.kernel.waitHead (.condvar other))
    (pc : ∀ other, (next.thread other).pc = if other = task then .relock mutex
      else (machine.thread other).pc) :
    Noted next (Function.update book task (some { condvar, mutex, notified := false })) := by
  have away : ∀ id, task ∉ machine.kernel.waitHead (.condvar id) :=
    fun id => core.wf.not_mem_of_running runs
  constructor
  case waiting =>
    intro other call isCall silent
    rw [heads]
    by_cases same : other = task
    · subst same
      rw [Function.update_self] at isCall
      cases isCall
      simp
    · rw [Function.update_of_ne same] at isCall
      have member := noted.waiting other call isCall silent
      split
      · rename_i sameCondvar
        exact List.mem_cons_of_mem _ (sameCondvar ▸ member)
      · exact member
  case listed =>
    intro other id member
    rw [heads] at member
    by_cases same : other = task
    · subst same
      refine ⟨mutex, ?_⟩
      split at member
      · rename_i sameCondvar
        rw [Function.update_self, sameCondvar]
      · exact absurd member (away id)
    · rw [Function.update_of_ne same]
      refine noted.listed other id ?_
      split at member
      · rename_i sameCondvar
        subst sameCondvar
        simpa [same] using member
      · exact member
  case inside =>
    intro other call isCall
    rw [pc]
    by_cases same : other = task
    · subst same
      rw [Function.update_self] at isCall
      cases isCall
      simp
    · rw [Function.update_of_ne same] at isCall
      rw [if_neg same]
      exact noted.inside other call isCall

/-- A task returns from the kernel. -/
theorem ret (noted : Noted machine book) (core : Core config machine)
    (runs : (machine.kernel.tcb task).state.isRunning = true)
    (heads : next.kernel.waitHead = machine.kernel.waitHead)
    (pc : ∀ other, other ≠ task → (next.thread other).pc = (machine.thread other).pc) :
    Noted next (Function.update book task none) := by
  have other_of_some : ∀ other call, Function.update book task none other = some call →
      other ≠ task ∧ book other = some call := by
    intro other call isCall
    by_cases same : other = task
    · subst same
      simp at isCall
    · exact ⟨same, by simpa [same] using isCall⟩
  constructor
  case waiting =>
    intro other call isCall silent
    obtain ⟨_, wasCall⟩ := other_of_some other call isCall
    rw [heads]
    exact noted.waiting other call wasCall silent
  case listed =>
    intro other id member
    rw [heads] at member
    have different : other ≠ task := by
      rintro rfl
      exact core.wf.not_mem_of_running runs member
    rw [Function.update_of_ne different]
    exact noted.listed other id member
  case inside =>
    intro other call isCall
    obtain ⟨different, wasCall⟩ := other_of_some other call isCall
    rw [pc other different]
    exact noted.inside other call wasCall

/-- A section of a task. -/
theorem call (noted : Noted machine book) (core : Core config machine)
    (isCurrent : machine.kernel.current = some task)
    (runs : (machine.kernel.tcb task).state.isRunning = true) {call : Call V} {kernel : Spec n V}
    {outcome : Outcome} {pendsv : Bool} (may : (machine.thread task).mayCall call = true)
    (returned : call.run (some task) machine.kernel = .ok (kernel, outcome))
    (contract : call.Contract (some task) machine.kernel (kernel, outcome))
    (isNext : next = { machine.setThread task ((machine.thread task).after call outcome) with
      kernel, pendsv })
    (core' : Core config next) :
    Noted next (WaitBook.record machine (.call call) next book) := by
  have ends := Call.run_endsAt returned
  have pc : ∀ other, (next.thread other).pc =
      if other = task then outcome.pc else (machine.thread other).pc := by
    rw [isNext]
    exact called_pc
  have isKernel : next.kernel = kernel := by rw [isNext]
  by_cases uses : ∃ condvar, .condvar condvar ∈ call.uses
  · obtain ⟨condvar, uses⟩ := uses
    have notifies : call.notifies condvar → (machine.thread task).pc = .user →
        outcome.pc = .user → Noted next (WaitBook.record machine (.call call) next book) := by
      intro notifies user back
      rw [(WaitBook.record_notifies notifies).1]
      refine noted.notify core core' ?_ ?_
      · rw [isKernel]
        exact Spec.released_of_notifies notifies returned
      · intro other
        rw [pc, back]
        split
        · rename_i same
          rw [same, user]
        · rfl
    obtain rfl | rfl | ⟨mutex, rfl⟩ := Call.uses_condvar uses
    · exact notifies rfl (by simpa [Thread.mayCall] using may) ends
    · exact notifies rfl (by simpa [Thread.mayCall] using may) ends
    · have relocks : outcome.pc = .relock mutex := ends
      have noting : WaitBook.record machine (.call (.wait condvar mutex)) next book =
          Function.update book task (some { condvar, mutex, notified := false }) := by
        simp only [WaitBook.record, isCurrent]
      rw [noting]
      obtain ⟨⟨waited, flag⟩, waits, rest⟩ := Except.ok_of_bind returned
      cases rest
      refine noted.wait core runs ?_ (relocks ▸ pc)
      rw [isKernel]
      exact Spec.wait_heads isCurrent waits
  · have apart := not_exists.mp uses
    rw [(WaitBook.record_apart apart).1]
    obtain ⟨flag, effect, _⟩ := contract.effect
    refine noted.frame ?_ ?_
    · intro condvar
      rw [isKernel]
      exact effect.heads _ (apart condvar)
    · intro other entry isCall
      by_cases same : other = task
      · -- the only section a task inside `wait` enters is the one that locks again
        subst same
        have reached := noted.notified_of_running core runs isCall
        rcases noted.inside other entry isCall with relocks | ⟨returns, _⟩
        · have locks : call = .lock entry.mutex := by
            cases call <;> simp_all [Thread.mayCall]
          subst locks
          refine .inr ⟨reached, ?_⟩
          rw [pc, if_pos rfl]
          exact ends
        · cases call <;> simp [Thread.mayCall, returns] at may
      · refine .inl ?_
        rw [pc, if_neg same]

/-- The books stay true under every move. -/
theorem moves (noted : Noted machine book) (core : Core config machine) (core' : Core config next)
    (moves : Moves machine action next) : Noted next (WaitBook.record machine action next book) := by
  cases moves with
  | scheduled scheduled schedules =>
      have quiet : WaitBook.record machine action next book = book := by
        cases action <;> first | rfl | simp [Action.schedules] at schedules
      rw [quiet]
      refine noted.frame (fun condvar => ?_) fun task _ _ => .inl (scheduled.thread task).1
      rw [scheduled.moved.waitHead]
  | isr safe returned contract slots =>
      rename_i call kernel outcome pendsv isrSlots
      by_cases uses : ∃ condvar, .condvar condvar ∈ call.uses
      · obtain ⟨condvar, uses⟩ := uses
        have notifies : call.notifies condvar := by
          obtain rfl | rfl | ⟨mutex, rfl⟩ := Call.uses_condvar uses
          · rfl
          · rfl
          · simp [Call.isrSafe] at safe
        rw [(WaitBook.record_notifies notifies).2]
        exact noted.notify core core' (Spec.released_of_notifies notifies returned) fun _ => rfl
      · have apart := not_exists.mp uses
        rw [(WaitBook.record_apart apart).2]
        obtain ⟨flag, effect, _⟩ := contract.effect
        exact noted.frame (fun condvar => effect.heads _ (apart condvar)) fun _ _ _ => .inl rfl
  | call isCurrent runs may returned contract =>
      exact noted.call core isCurrent runs may returned contract rfl core'
  | ret runs returns =>
      rename_i task
      have noting : WaitBook.record machine (.ret : Action V) next book =
          Function.update book task none := by
        simp only [WaitBook.record, core.running task runs]
      rw [noting]
      refine noted.ret core runs (by cases returns <;> rfl) fun other different => ?_
      cases returns <;> simp [Machine.setThread, Machine.addBox, different]
  | dropBox runs user live inBounds =>
      rename_i id slot task
      refine noted.frame (fun _ => rfl) fun other entry isCall => .inl ?_
      by_cases same : other = task
      · subst same
        simp [Machine.setThread]
      · simp [Machine.setThread, Machine.removeBox, same]
  | forgetGuard runs user held =>
      rename_i id task
      refine noted.frame (fun _ => rfl) fun other entry isCall => .inl ?_
      by_cases same : other = task
      · subst same
        simp [Machine.setThread]
      · simp [Machine.setThread, same]
  | isrRet assigned => exact noted.frame (fun _ => rfl) fun _ _ _ => .inl rfl
  | writeBox live stored => exact noted.frame (fun _ => rfl) fun _ _ _ => .inl rfl

end Noted

/-- The books are true along every run. -/
theorem noted_of_reachable (reachable : ((system config V).observed (fun _ => none)
    WaitBook.record).Reachable (machine, book)) : Noted machine book := by
  refine reachable.observed_invariant Noted ?_ ?_
  · rintro state ⟨kernel, boot, rfl⟩
    have empty : ∀ list, kernel.waitHead list = [] := by
      intro list
      rw [(Config.booted_of_boot boot).waitHead]
      rfl
    refine ⟨by simp, fun task condvar member => ?_, by simp⟩
    simp [Config.start, empty] at member
  · intro state action after history reached noted performed
    have core := core_of_reachable reached
    have core' := core_of_reachable (.step reached performed)
    exact noted.moves core core' (core.moves (Machine.step_of_perform performed))

/-- Only a notify takes a task off the list of a condvar. -/
theorem Moves.leaves_condvar (moves : Moves machine action next) {condvar : Nat}
    (member : task ∈ machine.kernel.waitHead (.condvar condvar)) :
    task ∈ next.kernel.waitHead (.condvar condvar) ∨
      ∃ call : Call V, call.notifies condvar ∧ (action = .call call ∨ action = .isr call) := by
  cases moves with
  | scheduled scheduled schedules =>
      rw [scheduled.moved.waitHead]
      exact .inl member
  | isr safe returned contract slots =>
      rename_i call kernel outcome pendsv isrSlots
      by_cases uses : .condvar condvar ∈ call.uses
      · obtain rfl | rfl | ⟨mutex, rfl⟩ := Call.uses_condvar uses
        · exact .inr ⟨.notifyOne condvar, rfl, .inr rfl⟩
        · exact .inr ⟨.notifyAll condvar, rfl, .inr rfl⟩
        · simp [Call.isrSafe] at safe
      · obtain ⟨flag, effect, _⟩ := contract.effect
        have heads := effect.heads (.condvar condvar) uses
        refine .inl ?_
        rw [show kernel.waitHead (.condvar condvar) = _ from heads]
        exact member
  | call isCurrent runs may returned contract =>
      rename_i call caller kernel outcome pendsv
      by_cases uses : .condvar condvar ∈ call.uses
      · obtain rfl | rfl | ⟨mutex, rfl⟩ := Call.uses_condvar uses
        · exact .inr ⟨.notifyOne condvar, rfl, .inl rfl⟩
        · exact .inr ⟨.notifyAll condvar, rfl, .inl rfl⟩
        · obtain ⟨⟨waited, flag⟩, waits, rest⟩ := Except.ok_of_bind returned
          have heads := Spec.wait_heads isCurrent waits condvar
          cases rest
          refine .inl ?_
          rw [show kernel.waitHead (.condvar condvar) = _ from heads, if_pos rfl]
          exact List.mem_cons_of_mem _ member
      · obtain ⟨flag, effect, _⟩ := contract.effect
        have heads := effect.heads (.condvar condvar) uses
        refine .inl ?_
        rw [show kernel.waitHead (.condvar condvar) = _ from heads]
        exact member
  | ret runs returns => cases returns <;> exact .inl member
  | isrRet assigned => exact .inl member
  | dropBox runs user live inBounds => exact .inl member
  | writeBox live stored => exact .inl member
  | forgetGuard runs user held => exact .inl member

/-- A section that was entered has run. -/
theorem run_of_step (step : Machine.Step config.idle machine action next) {call : Call V}
    (entered : action = .call call ∨ action = .isr call) :
    ∃ who outcome, call.run who machine.kernel = .ok (next.kernel, outcome) := by
  cases step with
  | call isTask notIdle triggered may returned =>
      obtain rfl : _ = call := by simpa using entered
      exact ⟨_, _, returned⟩
  | isr safe returned slots =>
      obtain rfl : _ = call := by simpa using entered
      exact ⟨_, _, returned⟩
  | _ => simp at entered

/-- `notify_one` wakes exactly one waiter, one of the most urgent. -/
theorem Core.notifyOne (core : Core config machine)
    (step : Machine.Step config.idle machine action next) {condvar : Nat}
    (entered : action = .call (.notifyOne condvar) ∨ action = .isr (.notifyOne condvar))
    (waiting : machine.kernel.waitHead (.condvar condvar) ≠ []) :
    ∃ woken ∈ machine.kernel.waitHead (.condvar condvar),
      (∀ other ∈ machine.kernel.waitHead (.condvar condvar),
        (machine.kernel.tcb woken).priority ≤ (machine.kernel.tcb other).priority) ∧
      (next.kernel.tcb woken).state.isReady = true ∧
      ∀ other, other ∈ next.kernel.waitHead (.condvar condvar) ↔
        other ≠ woken ∧ other ∈ machine.kernel.waitHead (.condvar condvar) := by
  obtain ⟨who, outcome, returned⟩ := run_of_step step entered
  obtain ⟨⟨after, flag⟩, notified, rest⟩ := Except.ok_of_bind returned
  obtain rfl : after = next.kernel := congrArg Prod.fst (Except.ok.inj rest)
  rcases Spec.notifyOne_cases notified with ⟨empty, _⟩ | ⟨woken, chosen, isNext⟩
  · exact absurd empty waiting
  · refine ⟨woken, Spec.mem_of_mostUrgent chosen, fun _ => Spec.mostUrgent_le chosen, ?_, ?_⟩
    · rw [isNext]
      simp [Spec.wake]
    · intro other
      rw [isNext, Spec.wake_waitHead, Function.update_self]
      exact (core.wf.nodup _).mem_erase_iff

/-- `notify_all` wakes all waiters. -/
theorem notifyAll_step (step : Machine.Step config.idle machine action next) {condvar : Nat}
    (entered : action = .call (.notifyAll condvar) ∨ action = .isr (.notifyAll condvar)) :
    next.kernel.waitHead (.condvar condvar) = [] ∧
      ∀ task ∈ machine.kernel.waitHead (.condvar condvar),
        (next.kernel.tcb task).state.isReady = true := by
  obtain ⟨who, outcome, returned⟩ := run_of_step step entered
  obtain ⟨⟨after, flag⟩, notified, rest⟩ := Except.ok_of_bind returned
  obtain rfl : after = next.kernel := congrArg Prod.fst (Except.ok.inj rest)
  obtain ⟨empty, released, _⟩ := Spec.drain_released notified
  exact ⟨empty, fun task member => released.ready task member (by simp [empty])⟩

/-- A notify runs into no fault. -/
theorem Core.notifies_ok (core : Core config machine) {call : Call V} {condvar : Nat}
    (notifies : call.notifies condvar) (entered : action = .call call ∨ action = .isr call)
    (fault : Fault) : machine.perform config.idle action ≠ some (.error fault) := by
  have launched : machine.kernel.waitHead (.condvar condvar) ≠ [] →
      machine.kernel.current ≠ none := by
    intro nonempty unlaunched
    obtain ⟨task, member⟩ := List.exists_mem_of_ne_nil _ nonempty
    exact (core.fresh unlaunched).2.2 task _ (core.wf.mem.mp member)
  have runs : ∀ who, ∃ after outcome, call.run who machine.kernel = .ok (after, outcome) := by
    intro who
    obtain ⟨⟨first, flag, one⟩, ⟨last, flag', all⟩⟩ := Spec.notify_ok core.wf launched
    cases call with
    | notifyOne id =>
        obtain rfl : id = condvar := notifies
        exact ⟨first, { pend := flag }, by simp only [Call.run, one, Except.ok_bind]⟩
    | notifyAll id =>
        obtain rfl : id = condvar := notifies
        exact ⟨last, { pend := flag' }, by simp only [Call.run, all, Except.ok_bind]⟩
    | _ => exact notifies.elim
  intro performed
  rcases entered with rfl | rfl
  · cases Machine.faults_of_perform performed with
    | call isTask triggered may faults =>
        obtain ⟨after, outcome, returned⟩ := runs (some _)
        cases returned.symm.trans faults
  · cases Machine.faults_of_perform performed with
    | isr safe faults =>
        obtain ⟨after, outcome, returned⟩ := runs none
        cases returned.symm.trans faults

/-- A `wait` that returns was notified, and its caller has the mutex and the guard. -/
theorem Noted.returns (noted : Noted machine book) (core : Core config machine)
    (guarded : ∀ id, Guarded machine id) (step : Machine.Step config.idle machine .ret next)
    (isCurrent : machine.kernel.current = some task) {call : WaitCall}
    (isCall : book task = some call) : call.notified = true ∧
      next.kernel.owner call.mutex = some task ∧ call.mutex ∈ (next.thread task).guards := by
  cases step with
  | ret isTask triggered returns =>
      obtain ⟨_, _, isCaller⟩ := Machine.threadTask_eq_some.mp isTask
      obtain rfl := Option.some.inj (isCurrent.symm.trans isCaller)
      have runs := core.task_running isTask triggered
      refine ⟨noted.notified_of_running core runs isCall, ?_⟩
      rcases noted.inside task call isCall with relocks | ⟨awaits, _⟩
      · cases returns <;> simp [relocks] at *
      · have owned := ((guarded call.mutex).granted task awaits
          (core.wf.not_mem_of_running runs)).1
        cases returns with
        | guard pc =>
            rw [awaits] at pc
            cases pc
            exact ⟨owned, by simp [Machine.setThread]⟩
        | plain pc => simp [awaits] at pc
        | value pc received => simp [awaits] at pc
        | box pc => simp [awaits] at pc

end SpecMachine

namespace RepMachine

variable {n : Nat} {V : Type} {config : Config n} {machine next : RtosMachine n V}
  {spec spec' : SpecMachine n V} {book : WaitBook n}

theorem record_wait_eq (rep : RepMachine machine spec) (rep' : RepMachine next spec')
    (action : Action V) :
    WaitBook.record machine action next = WaitBook.record spec action spec' := by
  have notify : ∀ (book : WaitBook n) condvar,
      book.notify condvar machine next = book.notify condvar spec spec' := by
    intro book condvar
    funext task
    simp only [WaitBook.notify, rep.kernel.isBlocked, rep'.kernel.isBlocked]
  funext book
  cases action with
  | call call =>
      cases call with
      | wait condvar mutex => simp only [WaitBook.record, rep.kernel.statics]
      | notifyOne condvar => exact notify book condvar
      | notifyAll condvar => exact notify book condvar
      | _ => rfl
  | isr call =>
      cases call with
      | notifyOne condvar => exact notify book condvar
      | notifyAll condvar => exact notify book condvar
      | _ => rfl
  | ret => simp only [WaitBook.record, rep.kernel.statics]
  | _ => rfl

/-- No notification is lost and no wait returns without one. The list of a condvar holds exactly
the calls of `wait` that no notify has reached; the section that releases the mutex, which its
caller owned until then, is the section that puts the caller there, and only a notify of the
condvar takes it off. `notify_one` wakes exactly one waiter if there is one, one of the most
urgent; `notify_all` wakes all of them; neither runs into a fault. A `wait` that returns was
reached by a notify, and its caller owns the mutex and has its guard. -/
theorem condvar_wait_notify (reachable : ((system config V).observed (fun _ => none)
    WaitBook.record).Reachable (machine, book)) :
    (∀ task condvar, machine.kernel.WaitsOn (.condvar condvar) task ↔
      ∃ mutex, book task = some { condvar, mutex, notified := false }) ∧
    (∀ action call condvar fault, call.notifies condvar →
      action = .call call ∨ action = .isr call →
      machine.perform config.idle action ≠ some (.error fault)) ∧
    ∀ action next, machine.perform config.idle action = some (.ok next) →
      (∀ condvar mutex task, action = .call (.wait condvar mutex) →
        machine.kernel.current = some task → machine.kernel.owner mutex = some task ∧
          next.kernel.WaitsOn (.condvar condvar) task) ∧
      (∀ condvar task, machine.kernel.WaitsOn (.condvar condvar) task →
        next.kernel.WaitsOn (.condvar condvar) task ∨
          ∃ call : Call V, call.notifies condvar ∧ (action = .call call ∨ action = .isr call)) ∧
      (∀ condvar, action = .call (.notifyOne condvar) ∨ action = .isr (.notifyOne condvar) →
        (∃ task, machine.kernel.WaitsOn (.condvar condvar) task) →
        ∃ woken, machine.kernel.WaitsOn (.condvar condvar) woken ∧
          (∀ other, machine.kernel.WaitsOn (.condvar condvar) other →
            (machine.kernel.tcb woken).priority ≤ (machine.kernel.tcb other).priority) ∧
          (next.kernel.tcb woken).state.isReady = true ∧
          ∀ other, next.kernel.WaitsOn (.condvar condvar) other ↔
            other ≠ woken ∧ machine.kernel.WaitsOn (.condvar condvar) other) ∧
      (∀ condvar, action = .call (.notifyAll condvar) ∨ action = .isr (.notifyAll condvar) →
        ∀ task, ¬next.kernel.WaitsOn (.condvar condvar) task ∧
          (machine.kernel.WaitsOn (.condvar condvar) task →
            (next.kernel.tcb task).state.isReady = true)) ∧
      ∀ task call, action = .ret → machine.kernel.current = some task → book task = some call →
        call.notified = true ∧ next.kernel.owner call.mutex = some task ∧
          call.mutex ∈ (next.thread task).guards := by
  obtain ⟨⟨spec, shared⟩, reach, rep, sameBook⟩ := ((simulation config V).observed (fun _ => none)
    fun state action next spec spec' rep rep' => record_wait_eq rep rep' action).reachable reachable
  obtain rfl : book = shared := sameBook
  replace rep : RepMachine machine spec := rep
  have core : SpecMachine.Core config spec := SpecMachine.core_of_reachable reach.of_observed
  have noted : SpecMachine.Noted spec book := SpecMachine.noted_of_reachable reach
  have waits : ∀ list task, machine.kernel.WaitsOn list task ↔ task ∈ spec.kernel.waitHead list :=
    rep.kernel.waitsOn_iff
  refine ⟨fun task condvar => ?_, fun action call condvar fault notifies entered => ?_,
    fun action next performed => ?_⟩
  · rw [waits]
    constructor
    · exact noted.listed task condvar
    · rintro ⟨mutex, isCall⟩
      exact noted.waiting task _ isCall rfl
  · intro performed
    exact core.notifies_ok notifies entered fault (rep.perform_error core performed)
  obtain ⟨spec', performed', rep'⟩ := rep.perform_ok core performed
  have waits' : ∀ list task, next.kernel.WaitsOn list task ↔ task ∈ spec'.kernel.waitHead list :=
    rep'.kernel.waitsOn_iff
  have core' : SpecMachine.Core config spec' :=
    SpecMachine.core_of_reachable (.step reach.of_observed performed')
  have guarded : ∀ id, SpecMachine.Guarded spec id :=
    SpecMachine.guarded_of_reachable reach.of_observed
  have step := Machine.step_of_perform performed'
  simp only [waits, waits', rep.kernel.priority, rep'.kernel.isReady]
  refine ⟨?_, ?_, ?_, ?_, ?_⟩
  · rintro condvar mutex task rfl isCurrent
    have noted' := noted.moves core core' (core.moves step)
    have releases : (Call.wait condvar mutex : Call V).releases mutex := rfl
    obtain ⟨owned, _⟩ := core.passed (guarded mutex) releases step
    rw [rep.kernel.statics] at isCurrent ⊢
    refine ⟨owned.trans isCurrent, noted'.waiting task ⟨condvar, mutex, false⟩ ?_ rfl⟩
    simp [WaitBook.record, isCurrent]
  · intro condvar task member
    exact (core.moves step).leaves_condvar member
  · rintro condvar entered ⟨task, member⟩
    exact core.notifyOne step entered (List.ne_nil_of_mem member)
  · intro condvar entered task
    obtain ⟨empty, ready⟩ := SpecMachine.notifyAll_step step entered
    exact ⟨by simp [empty], ready task⟩
  · rintro task call rfl isCurrent isCall
    rw [rep.kernel.statics] at isCurrent
    rw [rep'.kernel.statics, rep'.thread]
    exact noted.returns core guarded step isCurrent isCall

/-- Task 1 waits on a condvar, no notify has reached it, and its mutex is free. -/
theorem condvar_wait_notify_one : ∃ (machine : RtosMachine 4 Unit) (book : WaitBook 4),
    machine.kernel.waitHead (.condvar 0) = some 1 ∧ machine.kernel.owner 0 = none ∧
    (∃ mutex, book 1 = some { condvar := 0, mutex, notified := false }) ∧
    ∀ fault, machine.perform 0 (.isr (.notifyOne 0)) ≠ some (.error fault) := by
  let actions : List (Action Unit) := [.launch, .call (.lock 0), .ret] ++
    Config.thenSwitch (.wait 0 0)
  let check (machine : RtosMachine 4 Unit) : Bool :=
    machine.kernel.waitHead (.condvar 0) = some 1 ∧ machine.kernel.owner 0 = none
  obtain ⟨machine, reachable, checked⟩ := Machine.exists_of_check actions check
    (by decide +kernel : (Config.small 10 20 30).passes Unit _ _ actions check = true)
  obtain ⟨head, free⟩ := of_decide_eq_true checked
  obtain ⟨book, observed⟩ := reachable.exists_history (fun _ => none) WaitBook.record
  obtain ⟨listed, noFault, _⟩ := condvar_wait_notify observed
  have waits : machine.kernel.WaitsOn (.condvar 0) 1 := by
    rw [Kernel.WaitsOn, head]
    exact .here 1
  refine ⟨machine, book, head, free, (listed 1 0).mp waits, fun fault => ?_⟩
  exact noFault _ (.notifyOne 0) 0 fault rfl (.inr rfl)

end RepMachine

end Kangaroos
