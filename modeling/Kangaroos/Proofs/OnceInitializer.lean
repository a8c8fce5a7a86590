import Kangaroos.Abstract.Onces
import Kangaroos.Observed
import Kangaroos.Proofs.Parking
import Kangaroos.Proofs.WaitLists

/-!
# One initialiser, and nobody passes it

`call_once` decides, runs the closure and completes in three steps, with any number of other
callers in between. The state of the `Once` decides alone: whoever finds it unstarted runs the
closure, whoever finds it running waits, and the section that marks it done leaves nobody behind.
Books count the closures invoked and completed.
-/

namespace Kangaroos

/-- The closures handed to one `Once`. -/
structure OnceBook where
  invoked : Nat := 0
  completed : Nat := 0

namespace Once

variable {n : Nat} {V Link Head : Type} [ops : WaitOps n V Link Head]

/-- Whether a caller of `call_once` becomes the initialiser. -/
def invokes (kernel : Kernel n V Link Head) (id : Nat) : Bool :=
  match enter kernel id with
  | .ok (_, .initializer) => true
  | _ => false

/-- A closure is invoked by the caller that becomes the initialiser, and completed when its second
section is entered. -/
def note (id : Nat) (machine : Machine n V Link Head) (action : Action V) (book : OnceBook) :
    OnceBook :=
  match action with
  | .call (.callOnce once) =>
    if once = id ∧ invokes machine.kernel id = true then
      { book with invoked := book.invoked + 1 }
    else book
  | .call (.finishOnce once) =>
    if once = id then { book with completed := book.completed + 1 } else book
  | _ => book

/-- A step with which a `call_once` ends: of a caller that finds the `Once` done, of one that has
waited, and of the initialiser. -/
def Ends (id : Nat) (machine : Machine n V Link Head) : Action V → Prop
  | .call (.callOnce once) => once = id ∧ ∃ kernel, enter machine.kernel id = .ok (kernel, .bystander)
  | .call (.finishOnce once) => once = id
  | .ret => ∃ task, machine.kernel.current = some task ∧ (machine.thread task).pc = .onceRet id
  | _ => False

theorem invokes_iff (kernel : Kernel n V Link Head) (id : Nat) :
    invokes kernel id = true ↔ kernel.once id = .unstarted := by
  unfold invokes enter
  cases kernel.once id with
  | unstarted => simp
  | done => simp
  | running =>
      cases Kernel.blockCurrent kernel (.once id) with
      | error fault => simp [bind, Except.bind]
      | ok parked => simp [bind, Except.bind]

/-- A caller passes at once when the initialisation is done, and only then. -/
theorem bystander_iff (kernel : Kernel n V Link Head) (id : Nat) :
    (∃ after, enter kernel id = .ok (after, .bystander)) ↔ kernel.once id = .done := by
  constructor
  · rintro ⟨after, returned⟩
    unfold enter at returned
    split at returned
    · assumption
    · cases returned
    · obtain ⟨_, _, rest⟩ := Except.ok_of_bind returned
      cases rest
  · intro done
    exact ⟨kernel, by rw [enter, done]⟩

/-- Only the sections of `call_once` are noted. -/
theorem note_apart {id : Nat} {machine : Machine n V Link Head} {call : Call V}
    (apart : .once id ∉ call.uses) (book : OnceBook) :
    note id machine (.call call) book = book := by
  cases call with
  | callOnce once =>
      have other : once ≠ id := by
        rintro rfl
        simp [Call.uses] at apart
      simp [note, other]
  | finishOnce once =>
      have other : once ≠ id := by
        rintro rfl
        simp [Call.uses] at apart
      simp [note, other]
  | _ => rfl

end Once

namespace Thread

variable {V : Type} {thread : Thread} {call : Call V} {id : Nat}

/-- A section on another primitive starts and ends no closure of the `Once`. -/
theorem count_framesAfter {n : Nat} {Link Head : Type} [ops : WaitOps n V Link Head]
    {who : TcbPtr n} {kernel after : Kernel n V Link Head} {outcome : Outcome}
    (may : thread.mayCall call = true) (apart : .once id ∉ call.uses)
    (returned : call.run who kernel = .ok (after, outcome)) :
    (thread.framesAfter outcome.push call).count (.once id) = thread.frames.count (.once id) := by
  have pushed : (outcome.push.toList ++ thread.frames).count (.once id) =
      thread.frames.count (.once id) := by
    obtain none | ⟨once, rfl, pushes⟩ := Call.run_pushes returned
    · rw [none]
      rfl
    · have other : Frame.once once ≠ .once id := by
        rintro ⟨⟩
        simp [Call.uses] at apart
      rw [pushes, List.count_append, Option.toList_some, List.count_singleton]
      simp [other]
  cases call with
  | finishOnce once =>
      simp only [mayCall, Bool.and_eq_true, decide_eq_true_eq] at may
      obtain ⟨rest, frames⟩ := List.head?_eq_some_iff.mp may.2
      have other : Frame.once once ≠ .once id := by
        rintro ⟨⟩
        simp [Call.uses] at apart
      rw [framesAfter, frames, List.tail_cons, List.count_cons_of_ne other]
  | releaseBox pool slot =>
      simp only [mayCall, Bool.and_eq_true, decide_eq_true_eq] at may
      obtain ⟨rest, frames⟩ := List.head?_eq_some_iff.mp may.2
      rw [framesAfter, frames, List.tail_cons, List.count_cons_of_ne (by simp)]
  | _ => exact pushed

end Thread

namespace SpecMachine

variable {n : Nat} {V : Type} {config : Config n} {machine next : SpecMachine n V} {id : Nat}
  {book : OnceBook}

/-- What the state of the `Once` says about its callers. -/
structure Initialises (id : Nat) (machine : SpecMachine n V) (book : OnceBook) : Prop where
  invoked : book.invoked = if machine.kernel.once id = .unstarted then 0 else 1
  completed : book.completed = if machine.kernel.once id = .done then 1 else 0
  runner : ∃ runner : TcbPtr n, (runner ≠ none ↔ machine.kernel.once id = .running) ∧
    ∀ task, (machine.thread task).frames.count (.once id) = if runner = some task then 1 else 0
  waits : machine.kernel.waitHead (.once id) ≠ [] → machine.kernel.once id = .running
  inside : ∀ task, (machine.thread task).pc = .onceRet id →
    task ∈ machine.kernel.waitHead (.once id) ∨ machine.kernel.once id = .done

theorem initialises_start {kernel : Spec n V}
    (boot : config.boot V WaitList (List (Fin n)) = .ok kernel) :
    Initialises id (Config.start V WaitList (List (Fin n)) kernel) {} := by
  have booted := Config.booted_of_boot boot
  obtain ⟨_, statics⟩ := booted.statics
  have fresh : kernel.once id = .unstarted := by
    rw [statics]
    rfl
  refine ⟨by simp [Config.start, fresh], by simp [Config.start, fresh],
    ⟨none, by simp [Config.start, fresh], by simp [Config.start]⟩, ?_, by simp [Config.start]⟩
  intro waiting
  simp [Config.start, booted.waitHead, Config.reset, WaitOps.null] at waiting

/-- Steps that leave the `Once`, its list and its callers alone. -/
theorem Initialises.frame (initialises : Initialises id machine book)
    (once : next.kernel.once id = machine.kernel.once id)
    (heads : next.kernel.waitHead (.once id) = machine.kernel.waitHead (.once id))
    (frames : ∀ task, (next.thread task).frames.count (.once id) =
      (machine.thread task).frames.count (.once id))
    (pc : ∀ task, (next.thread task).pc = .onceRet id → (machine.thread task).pc = .onceRet id) :
    Initialises id next book := by
  obtain ⟨invoked, completed, ⟨runner, runs, counts⟩, waits, inside⟩ := initialises
  refine ⟨by rwa [once], by rwa [once], ⟨runner, by rwa [once], fun task => ?_⟩, ?_, ?_⟩
  · rw [frames, counts]
  · rwa [once, heads]
  · rw [once, heads]
    exact fun task at_ => inside task (pc task at_)

/-- The first section of `call_once`. -/
theorem Initialises.callOnce (initialises : Initialises id machine book) {task : Fin n}
    {kernel : Spec n V} {outcome : Outcome} {pendsv : Bool}
    (isCurrent : machine.kernel.current = some task)
    (returned : (Call.callOnce id : Call V).run (some task) machine.kernel = .ok (kernel, outcome)) :
    Initialises id { machine.setThread task ((machine.thread task).after (.callOnce id : Call V) outcome) with
      kernel, pendsv } (Once.note id machine (.call (.callOnce id)) book) := by
  obtain ⟨⟨after, role⟩, enters, rest⟩ := Except.ok_of_bind returned
  obtain ⟨done, rfl, rfl⟩ | ⟨unstarted, rfl, rfl⟩ | ⟨running, rfl, rfl⟩ :=
    Spec.enter_cases isCurrent enters
  · cases rest
    have unnoted : Once.note id machine (.call (.callOnce id)) book = book := by
      simp [Once.note, Once.invokes_iff, done]
    rw [unnoted]
    refine initialises.frame rfl rfl (fun other => ?_) fun other at_ => ?_
    · by_cases same : other = task
      · subst same
        simp [Machine.setThread, Thread.after, Thread.framesAfter]
      · simp [Machine.setThread, same]
    · by_cases same : other = task
      · subst same
        simp [Machine.setThread, Thread.after] at at_
      · simpa [Machine.setThread, same] using at_
  · cases rest
    obtain ⟨invoked, completed, ⟨runner, runs, counts⟩, waits, inside⟩ := initialises
    have nobody : runner = none := by
      by_contra someone
      cases unstarted.symm.trans (runs.mp someone)
    subst nobody
    refine ⟨?_, ?_, ⟨some task, by simp, fun other => ?_⟩, fun _ => by simp, fun other at_ => ?_⟩
    · simp [Once.note, Once.invokes_iff, unstarted, invoked]
    · simp [Once.note, Once.invokes_iff, unstarted, completed]
    · by_cases same : other = task
      · subst same
        simp [Machine.setThread, Thread.after, Thread.framesAfter, counts]
      · simp [Machine.setThread, same, counts, Ne.symm same]
    · by_cases same : other = task
      · subst same
        simp [Machine.setThread, Thread.after] at at_
      · rcases inside other (by simpa [Machine.setThread, same] using at_) with member | done
        · exact .inl member
        · cases unstarted.symm.trans done
  · cases rest
    obtain ⟨invoked, completed, ⟨runner, runs, counts⟩, waits, inside⟩ := initialises
    have unnoted : Once.note id machine (.call (.callOnce id)) book = book := by
      simp [Once.note, Once.invokes_iff, running]
    rw [unnoted]
    refine ⟨invoked, completed, ⟨runner, runs, fun other => ?_⟩, fun _ => running, fun other at_ => ?_⟩
    · rw [← counts other]
      by_cases same : other = task
      · subst same
        simp [Machine.setThread, Thread.after, Thread.framesAfter]
      · simp [Machine.setThread, same]
    · by_cases same : other = task
      · subst same
        simp [Spec.blockAndPush]
      · rcases inside other (by simpa [Machine.setThread, same] using at_) with member | done
        · exact .inl (by simp [Spec.blockAndPush, member])
        · cases running.symm.trans done

/-- Only the initialiser has the frame of the closure, and it is on its way. -/
theorem Initialises.of_mayCall (initialises : Initialises id machine book) {task : Fin n}
    (may : (machine.thread task).mayCall (.finishOnce id : Call V) = true) :
    machine.kernel.once id = .running ∧
      (machine.thread task).frames.tail.count (.once id) = 0 ∧
      ∀ other, other ≠ task → (machine.thread other).frames.count (.once id) = 0 := by
  obtain ⟨_, _, ⟨runner, runs, counts⟩, _, _⟩ := initialises
  simp only [Thread.mayCall, Bool.and_eq_true, decide_eq_true_eq] at may
  obtain ⟨rest, frames⟩ := List.head?_eq_some_iff.mp may.2
  have own := counts task
  rw [frames, List.count_cons_self] at own
  have isRunner : runner = some task := by
    by_contra other
    rw [if_neg other] at own
    omega
  rw [if_pos isRunner] at own
  refine ⟨runs.mp (by simp [isRunner]), ?_, fun other different => ?_⟩
  · rw [frames, List.tail_cons]
    omega
  · rw [counts, if_neg]
    rw [isRunner]
    exact fun isOther => different (Option.some.inj isOther).symm

/-- The second section of `call_once`. -/
theorem Initialises.finishOnce (initialises : Initialises id machine book) {task : Fin n}
    {kernel : Spec n V} {outcome : Outcome} {pendsv : Bool}
    (may : (machine.thread task).mayCall (.finishOnce id : Call V) = true)
    (returned : (Call.finishOnce id : Call V).run (some task) machine.kernel = .ok (kernel, outcome)) :
    Initialises id { machine.setThread task ((machine.thread task).after (.finishOnce id : Call V) outcome) with
      kernel, pendsv } (Once.note id machine (.call (.finishOnce id)) book) := by
  obtain ⟨⟨after, flag⟩, finishes, rest⟩ := Except.ok_of_bind returned
  obtain ⟨done, empty, _⟩ := Spec.finish_released finishes
  cases rest
  obtain ⟨running, own, others⟩ := initialises.of_mayCall may
  refine ⟨?_, ?_, ⟨none, by simp [done], fun other => ?_⟩, fun waiting => absurd empty waiting,
    fun _ _ => .inr done⟩
  · simp [Once.note, initialises.invoked, running, done]
  · simp [Once.note, initialises.completed, running, done]
  · by_cases same : other = task
    · subst same
      simpa [Machine.setThread, Thread.after, Thread.framesAfter] using own
    · simpa [Machine.setThread, same] using others other same

/-- The steps of the machine, as a `Once` sees them. -/
inductive OnceMoves (id : Nat) (machine : SpecMachine n V) : Action V → SpecMachine n V → Prop
  | apart {action next} (once : next.kernel.once id = machine.kernel.once id)
      (heads : next.kernel.waitHead (.once id) = machine.kernel.waitHead (.once id))
      (frames : ∀ task, (next.thread task).frames.count (.once id) =
        (machine.thread task).frames.count (.once id))
      (pc : ∀ task, (next.thread task).pc = .onceRet id → (machine.thread task).pc = .onceRet id)
      (unnoted : ∀ book, Once.note id machine action book = book) :
      OnceMoves id machine action next
  | callOnce {task kernel outcome pendsv} (isCurrent : machine.kernel.current = some task)
      (returned : (Call.callOnce id : Call V).run (some task) machine.kernel = .ok (kernel, outcome)) :
      OnceMoves id machine (.call (.callOnce id))
        { machine.setThread task ((machine.thread task).after (.callOnce id : Call V) outcome) with
          kernel, pendsv }
  | finishOnce {task kernel outcome pendsv}
      (may : (machine.thread task).mayCall (.finishOnce id : Call V) = true)
      (returned : (Call.finishOnce id : Call V).run (some task) machine.kernel =
        .ok (kernel, outcome)) :
      OnceMoves id machine (.call (.finishOnce id))
        { machine.setThread task ((machine.thread task).after (.finishOnce id : Call V) outcome) with
          kernel, pendsv }

theorem OnceMoves.of_untouched {action : Action V} (untouched : Untouched (.once id) machine next)
    (frames : ∀ task, (next.thread task).frames.count (.once id) =
      (machine.thread task).frames.count (.once id))
    (unnoted : ∀ book, Once.note id machine action book = book) :
    OnceMoves id machine action next := by
  refine .apart untouched.agree (untouched.heads (.once id) rfl) frames (fun task at_ => ?_) unnoted
  rw [← untouched.pc task (.inr (by rw [at_]; rfl))]
  exact at_

/-- Steps of a task outside `call_once`. -/
theorem OnceMoves.of_thread {action : Action V} {task : Fin n} {thread : Thread}
    (once : next.kernel.once id = machine.kernel.once id)
    (heads : next.kernel.waitHead (.once id) = machine.kernel.waitHead (.once id))
    (threads : next.thread = Function.update machine.thread task thread)
    (frames : thread.frames.count (.once id) = (machine.thread task).frames.count (.once id))
    (pc : thread.pc ≠ .onceRet id) (unnoted : ∀ book, Once.note id machine action book = book) :
    OnceMoves id machine action next := by
  refine .apart once heads (fun other => ?_) (fun other at_ => ?_) unnoted
  · by_cases same : other = task
    · subst same
      rw [threads, Function.update_self, frames]
    · rw [threads, Function.update_of_ne same]
  · by_cases same : other = task
    · subst same
      rw [threads, Function.update_self] at at_
      exact absurd at_ pc
    · rwa [threads, Function.update_of_ne same] at at_

theorem Core.once_moves (core : Core config machine) {action : Action V}
    (moves : Moves machine action next) : OnceMoves id machine action next := by
  cases moves with
  | scheduled scheduled schedules =>
      refine .of_untouched (.of_scheduled scheduled) (fun task => ?_) fun book => ?_
      · rw [(scheduled.thread task).2.1]
      · cases action with
        | call call => cases schedules
        | _ => rfl
  | isr safe returned contract slots =>
      rename_i call kernel outcome pendsv isrSlots
      have apart : .once id ∉ call.uses := by
        intro uses
        rcases Call.uses_once uses with rfl | rfl <;> cases safe
      exact .of_untouched (.of_isr core apart returned contract slots) (fun _ => rfl) fun _ => rfl
  | isrRet assigned => exact .apart rfl rfl (fun _ => rfl) (fun _ at_ => at_) fun _ => rfl
  | call isCurrent runs may returned contract =>
      rename_i call task kernel outcome pendsv
      by_cases uses : .once id ∈ call.uses
      · rcases Call.uses_once uses with rfl | rfl
        · exact .callOnce isCurrent returned
        · exact .finishOnce may returned
      · refine .of_untouched (.of_call core uses may returned contract) (fun other => ?_)
          (Once.note_apart uses)
        by_cases same : other = task
        · subst same
          simpa [Machine.setThread, Thread.after] using
            Thread.count_framesAfter may uses returned
        · simp [Machine.setThread, same]
  | ret runs returns =>
      cases returns <;> exact .of_thread rfl rfl rfl rfl (by simp) fun _ => rfl
  | dropBox runs user live inBounds =>
      exact .of_thread rfl rfl rfl (List.count_cons_of_ne (by simp)) (by simp [user]) fun _ => rfl
  | writeBox live stored => exact .apart rfl rfl (fun _ => rfl) (fun _ at_ => at_) fun _ => rfl
  | forgetGuard runs user held =>
      exact .of_thread rfl rfl rfl rfl (by simp [user]) fun _ => rfl

/-- Every move keeps the books right. -/
theorem Initialises.moves (initialises : Initialises id machine book) {action : Action V}
    (moves : OnceMoves id machine action next) :
    Initialises id next (Once.note id machine action book) := by
  cases moves with
  | apart once heads frames pc unnoted =>
      rw [unnoted]
      exact initialises.frame once heads frames pc
  | callOnce isCurrent returned => exact initialises.callOnce isCurrent returned
  | finishOnce may returned => exact initialises.finishOnce may returned

/-- The state of the `Once` moves forward, and leaves nobody behind. -/
theorem Initialises.advances (initialises : Initialises id machine book) {action : Action V}
    (moves : OnceMoves id machine action next) :
    next.kernel.once id = machine.kernel.once id ∨
    machine.kernel.once id = .unstarted ∧ next.kernel.once id = .running ∨
    machine.kernel.once id = .running ∧ next.kernel.once id = .done ∧
      next.kernel.waitHead (.once id) = [] ∧ ∀ task ∈ machine.kernel.waitHead (.once id),
        (next.kernel.tcb task).state.isReady = true := by
  cases moves with
  | apart once heads frames pc unnoted => exact .inl once
  | callOnce isCurrent returned =>
      obtain ⟨⟨after, role⟩, enters, rest⟩ := Except.ok_of_bind returned
      obtain ⟨_, _, rfl⟩ | ⟨unstarted, _, rfl⟩ | ⟨_, _, rfl⟩ := Spec.enter_cases isCurrent enters
      · cases rest
        exact .inl rfl
      · cases rest
        exact .inr (.inl ⟨unstarted, by simp⟩)
      · cases rest
        exact .inl rfl
  | finishOnce may returned =>
      obtain ⟨⟨after, flag⟩, finishes, rest⟩ := Except.ok_of_bind returned
      cases rest
      exact .inr (.inr ⟨(initialises.of_mayCall may).1, Spec.finish_released finishes⟩)

/-- A `call_once` ends after the closure has completed. -/
theorem Initialises.ends (initialises : Initialises id machine book) (core : Core config machine)
    {action : Action V} (step : Machine.Step config.idle machine action next)
    (ends : Once.Ends id machine action) : (Once.note id machine action book).completed = 1 := by
  cases step with
  | call isTask notIdle triggered may returned =>
      rename_i call task kernel outcome
      cases call with
      | callOnce once =>
          obtain ⟨rfl, passes⟩ := ends
          have done := (Once.bystander_iff _ _).mp passes
          simp [Once.note, Once.invokes_iff, done, initialises.completed]
      | finishOnce once =>
          obtain rfl : once = id := ends
          have running := (initialises.of_mayCall may).1
          simp [Once.note, initialises.completed, running]
      | _ => exact ends.elim
  | ret isTask triggered returns =>
      rename_i task
      obtain ⟨caller, isCaller, at_⟩ := ends
      obtain ⟨_, _, isCurrent⟩ := Machine.threadTask_eq_some.mp isTask
      obtain rfl : task = caller := Option.some.inj (isCurrent.symm.trans isCaller)
      rcases initialises.inside task at_ with member | done
      · exact absurd member (core.wf.not_mem_of_running (core.task_running isTask triggered))
      · simp [Once.note, initialises.completed, done]
  | _ => exact ends.elim

/-- The books are right in every run. -/
theorem initialises_of_reachable (reachable : (config.withBooks V WaitList (List (Fin n)) {}
    (Once.note id)).Reachable (machine, book)) : Initialises id machine book := by
  refine reachable.observed_invariant (fun machine book => Initialises id machine book) ?_ ?_
  · rintro state ⟨kernel, boot, rfl⟩
    exact initialises_start boot
  · intro state action after book reached initialises performed
    have core := core_of_reachable reached
    exact initialises.moves (core.once_moves (core.moves (Machine.step_of_perform performed)))

/-- The section that ends the initialisation runs into no fault. -/
theorem Core.finishOnce_ok (core : Core config machine) (fault : Fault) :
    machine.perform config.idle (.call (.finishOnce id)) ≠ some (.error fault) := by
  intro performed
  cases Machine.faults_of_perform performed with
  | call isTask triggered may faults =>
      obtain ⟨_, _, isCurrent⟩ := Machine.threadTask_eq_some.mp isTask
      obtain ⟨after, flag, finishes⟩ : ∃ after flag,
          Once.finish machine.kernel id = .ok (after, flag) :=
        Spec.finish_ok core.wf (by simp [isCurrent])
      simp only [Call.run, finishes, Except.ok_bind] at faults
      cases faults

end SpecMachine

namespace RepMachine

variable {n : Nat} {V : Type} {config : Config n} {machine : RtosMachine n V}
  {spec : SpecMachine n V} {id : Nat} {book : OnceBook}

theorem note_once_eq (rep : RepMachine machine spec) (action : Action V) :
    Once.note id machine action = Once.note id spec action := by
  funext book
  have once : machine.kernel.once = spec.kernel.once := congrArg Statics.once rep.kernel.statics
  cases action with
  | call call =>
      cases call with
      | callOnce => simp only [Once.note, Once.invokes_iff, once]
      | _ => rfl
  | _ => rfl

theorem ends_once_iff (rep : RepMachine machine spec) (action : Action V) :
    Once.Ends id machine action ↔ Once.Ends id spec action := by
  have once : machine.kernel.once = spec.kernel.once := congrArg Statics.once rep.kernel.statics
  cases action with
  | call call =>
      cases call with
      | callOnce => simp only [Once.Ends, Once.bystander_iff, once]
      | _ => exact Iff.rfl
  | ret => simp only [Once.Ends, rep.kernel.statics, rep.thread]
  | _ => exact Iff.rfl

/-- Of all closures handed to a `Once` at most one is invoked, and once. Its state moves from
unstarted to running to done; it is done when the closure has completed, and no `call_once` ends
before. Tasks wait only while it is running, and the section that makes it done, which runs into
no fault, makes them all ready. -/
theorem call_once_initialises (reachable : (config.withBooks V (TcbPtr n) (TcbPtr n) {}
      (Once.note id)).Reachable (machine, book)) :
    (book.completed ≤ book.invoked ∧ book.invoked ≤ 1) ∧
    (machine.kernel.once id = .unstarted ↔ book.invoked = 0) ∧
    (machine.kernel.once id = .done ↔ book.completed = 1) ∧
    (∀ task, machine.parked (.onceRet id) task = true ↔ machine.kernel.WaitsOn (.once id) task) ∧
    (∀ task, machine.kernel.WaitsOn (.once id) task → machine.kernel.once id = .running) ∧
    (∀ fault, machine.perform config.idle (.call (.finishOnce id)) ≠ some (.error fault)) ∧
    ∀ action next, machine.perform config.idle action = some (.ok next) →
      (Once.Ends id machine action → (Once.note id machine action book).completed = 1) ∧
      (next.kernel.once id = machine.kernel.once id ∨
        machine.kernel.once id = .unstarted ∧ next.kernel.once id = .running ∨
        machine.kernel.once id = .running ∧ next.kernel.once id = .done ∧
          (∀ task, ¬ next.kernel.WaitsOn (.once id) task) ∧
          ∀ task, machine.kernel.WaitsOn (.once id) task →
            (next.kernel.tcb task).state.isReady = true) := by
  obtain ⟨⟨spec, shared⟩, reach, rep, sameBook⟩ := ((simulation config V).observed {}
    fun state action _ spec _ rep _ => note_once_eq rep action).reachable reachable
  obtain rfl : book = shared := sameBook
  replace rep : RepMachine machine spec := rep
  have core : SpecMachine.Core config spec := SpecMachine.core_of_reachable reach.of_observed
  have initialises : SpecMachine.Initialises id spec book :=
    SpecMachine.initialises_of_reachable reach
  have waits := rep.kernel.waitsOn_iff (.once id)
  have once : machine.kernel.once = spec.kernel.once := congrArg Statics.once rep.kernel.statics
  refine ⟨?_, ?_, ?_, fun task => ?_, fun task member => ?_, fun fault performed => ?_,
    fun action next performed => ⟨fun ends => ?_, ?_⟩⟩
  · rw [initialises.invoked, initialises.completed]
    cases spec.kernel.once id <;> simp
  · rw [once, initialises.invoked]
    cases spec.kernel.once id <;> simp
  · rw [once, initialises.completed]
    cases spec.kernel.once id <;> simp
  · rw [waits, rep.parked_eq]
    exact core.parked_iff (.onceRet id) (.once id) (fun other awaits => awaits)
      (fun other awaits => by cases other <;> simp_all [Pc.awaits]) task
  · rw [once]
    exact initialises.waits (List.ne_nil_of_mem ((waits task).mp member))
  · exact core.finishOnce_ok fault (rep.perform_error core performed)
  · obtain ⟨spec', performed', rep'⟩ := rep.perform_ok core performed
    rw [note_once_eq rep]
    exact initialises.ends core (Machine.step_of_perform performed') ((ends_once_iff rep action).mp ends)
  · obtain ⟨spec', performed', rep'⟩ := rep.perform_ok core performed
    have waits' := rep'.kernel.waitsOn_iff (.once id)
    have once' : next.kernel.once = spec'.kernel.once := congrArg Statics.once rep'.kernel.statics
    simp only [waits, waits', once, once', rep'.kernel.isReady]
    rcases initialises.advances (core.once_moves (core.moves (Machine.step_of_perform performed')))
      with same | started | ⟨running, done, empty, ready⟩
    · exact .inl same
    · exact .inr (.inl started)
    · exact .inr (.inr ⟨running, done, by simp [empty], ready⟩)

/-- Task 3 runs the closure and yields in it; task 2 waits for the end, and is woken by it. -/
theorem call_once_initialises_two : ∃ (machine next : RtosMachine 4 Unit) (book : OnceBook),
    book.completed = 0 ∧ machine.kernel.WaitsOn (.once 0) 2 ∧
    machine.perform 0 (.call (.finishOnce 0)) = some (.ok next) ∧ next.kernel.once 0 = .done ∧
    (Once.note 0 machine (.call (.finishOnce 0)) book).completed = 1 ∧
    (next.kernel.tcb 2).state.isReady = true := by
  let check (machine : RtosMachine 4 Unit) : Bool :=
    machine.kernel.waitHead (.once 0) = some 2 ∧
      machine.performPasses 0 (.call (.finishOnce 0)) fun next => next.kernel.once 0 = .done
  obtain ⟨machine, reachable, checked⟩ := Machine.exists_of_check
    ([.launch, .call (.callOnce 0)] ++ Config.thenSwitch .yieldNow ++
      Config.thenSwitch (.callOnce 0)) check
    (by decide +kernel : (Config.small 20 10 10).passes Unit _ _ _ check = true)
  obtain ⟨head, finishes⟩ := of_decide_eq_true checked
  obtain ⟨next, performed, isDone⟩ := Machine.exists_of_performPasses finishes
  have done : next.kernel.once 0 = .done := of_decide_eq_true isDone
  obtain ⟨book, observed⟩ := reachable.exists_history {} fun machine action _ => Once.note 0 machine action
  obtain ⟨⟨below, atMost⟩, _, doneIff, _, running, _, steps⟩ := call_once_initialises observed
  have waits : machine.kernel.WaitsOn (.once 0) 2 := by
    rw [Kernel.WaitsOn, head]
    exact .here 2
  have isRunning := running 2 waits
  obtain ⟨ends, moves⟩ := steps _ next performed
  have incomplete : book.completed ≠ 1 := fun complete => by
    cases isRunning.symm.trans (doneIff.mpr complete)
  refine ⟨machine, next, book, by omega, waits, performed, done, ends rfl, ?_⟩
  rcases moves with same | ⟨unstarted, _⟩ | ⟨_, _, _, ready⟩
  · cases isRunning.symm.trans (same.symm.trans done)
  · cases isRunning.symm.trans unstarted
  · exact ready 2 waits

end RepMachine

end Kangaroos
