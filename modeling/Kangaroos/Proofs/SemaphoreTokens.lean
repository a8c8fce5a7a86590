import Kangaroos.Abstract.Semaphores
import Kangaroos.Proofs.Parking

/-!
# Semaphore tokens

A token is a unit of the count or the removal of a waiter from the list. The books count what
every operation does with tokens: a `give` that neither raises the count nor wakes a task drops
its token, and a task gets a token when `take` lowers the count or a `give` wakes it.
-/

namespace Kangaroos

/-- A count above zero has a predecessor. -/
theorem pred_val {count : U8} (available : 0 < count) : (count - 1).val + 1 = count.val := by
  have positive : 0 < count.val := available
  rw [Fin.val_sub_one_of_ne_zero (Fin.pos_iff_ne_zero.mp available)]
  omega

/-- A count below another has a successor. -/
theorem succ_val {count ceiling : U8} (below : count < ceiling) :
    (count + 1).val = count.val + 1 := by
  have bound := ceiling.isLt
  have less : count.val < ceiling.val := below
  exact Fin.val_add_one_of_lt' (by omega)

/-- And differs from it. -/
theorem ne_succ {count ceiling : U8} (below : count < ceiling) : count ≠ count + 1 := by
  intro equal
  have values := congrArg Fin.val equal
  rw [succ_val below] at values
  omega

/-- What has happened to the tokens of a semaphore, and how many tokens the last `take` of each
task has got. -/
structure SemaphoreBook (n : Nat) where
  gives : Nat := 0
  dropped : Nat := 0
  tryTakes : Nat := 0
  takes : Nat := 0
  handed : Nat := 0
  tokens : Fin n → Nat := fun _ => 0

namespace SemaphoreBook

variable {n : Nat} {V Link Head : Type}

/-- A `take` that does not block. -/
def take (book : SemaphoreBook n) (task : Fin n) (consumed : Nat) : SemaphoreBook n :=
  { book with takes := book.takes + 1, tokens := Function.update book.tokens task consumed }

/-- A `take` that blocks. -/
def park (book : SemaphoreBook n) (task : Fin n) : SemaphoreBook n :=
  { book with tokens := Function.update book.tokens task 0 }

/-- A `give` that changed the count or woke tasks, or did neither. -/
def give (book : SemaphoreBook n) (counted : Bool) (woken : Finset (Fin n)) : SemaphoreBook n :=
  if counted = false ∧ woken = ∅ then { book with dropped := book.dropped + 1 }
  else
    { book with
      gives := book.gives + 1
      handed := book.handed + woken.card
      tokens := fun task => if task ∈ woken then book.tokens task + 1 else book.tokens task }

/-- What the books of a semaphore note of a step. -/
def record (id : Nat) (machine : Machine n V Link Head) (action : Action V)
    (next : Machine n V Link Head) (book : SemaphoreBook n) : SemaphoreBook n :=
  let before := (machine.kernel.semaphore id).count
  let after := (next.kernel.semaphore id).count
  match action with
  | .call (.take semaphore) =>
    if semaphore = id then
      match machine.kernel.current with
      | some task =>
        if next.parked (.takeRet id) task then book.park task
        else book.take task (before.val - after.val)
      | none => book
    else book
  | .call (.tryTake semaphore) | .isr (.tryTake semaphore) =>
    if semaphore = id ∧ (Semaphore.tryTake machine.kernel id).2 = true then
      { book with tryTakes := book.tryTakes + 1 }
    else book
  | .call (.give semaphore) | .isr (.give semaphore) =>
    if semaphore = id then book.give (before ≠ after) (machine.woken next (.takeRet id)) else book
  | _ => book

/-- Steps of other primitives are not noted. -/
theorem record_apart {id : Nat} {machine next : Machine n V Link Head} {action : Action V}
    {book : SemaphoreBook n}
    (apart : ∀ call, action = .call call ∨ action = .isr call → .semaphore id ∉ call.uses) :
    record id machine action next book = book := by
  have other : ∀ semaphore, .semaphore id ∉ [Prim.semaphore semaphore] → semaphore ≠ id := by
    rintro semaphore unused rfl
    simp at unused
  cases action with
  | call call =>
      have unused := apart call (.inl rfl)
      cases call with
      | take semaphore => simp [record, other semaphore unused]
      | tryTake semaphore => simp [record, other semaphore unused]
      | give semaphore => simp [record, other semaphore unused]
      | _ => rfl
  | isr call =>
      have unused := apart call (.inr rfl)
      cases call with
      | tryTake semaphore => simp [record, other semaphore unused]
      | give semaphore => simp [record, other semaphore unused]
      | _ => rfl
  | _ => rfl

end SemaphoreBook

namespace Machine

variable {n : Nat} {V Link Head : Type}

/-- The books of a semaphore balance. -/
structure Conserves (config : Config n) (id : Nat) (machine : Machine n V Link Head)
    (book : SemaphoreBook n) : Prop where
  balance : (config.semaphore id).1.val + book.gives =
    (machine.kernel.semaphore id).count.val + (book.tryTakes + book.takes + book.handed)
  max : (machine.kernel.semaphore id).max = (config.semaphore id).2
  bound : (machine.kernel.semaphore id).count ≤ (config.semaphore id).1 ⊔ (config.semaphore id).2
  empty : ∀ task, machine.parked (.takeRet id) task = true →
    (machine.kernel.semaphore id).count = 0
  tokens : ∀ task, (machine.thread task).pc = .takeRet id →
    book.tokens task = if machine.parked (.takeRet id) task then 0 else 1

end Machine

namespace SpecMachine

variable {n : Nat} {V : Type} {config : Config n} {machine next : SpecMachine n V} {id : Nat}
  {book : SemaphoreBook n} {task : Fin n} {action : Action V}

/-- The tasks parked in `take` are those on the list. -/
theorem Core.parked_take (core : Core config machine) (task : Fin n) :
    machine.parked (.takeRet id) task = true ↔ task ∈ machine.kernel.waitHead (.semaphore id) :=
  core.parked_iff (.takeRet id) (.semaphore id) (fun other awaits => awaits)
    (fun other awaits => by cases other <;> simp_all [Pc.awaits]) task

/-- Equal lists park the same tasks. -/
theorem Core.parked_congr (core : Core config machine) (core' : Core config next)
    (heads : next.kernel.waitHead (.semaphore id) = machine.kernel.waitHead (.semaphore id))
    (task : Fin n) : next.parked (.takeRet id) task = machine.parked (.takeRet id) task := by
  rw [Bool.eq_iff_iff, core.parked_take, core'.parked_take, heads]

/-- No token moves. -/
theorem conserves_untouched (core : Core config machine) (core' : Core config next)
    (conserves : machine.Conserves config id book)
    (untouched : Untouched (.semaphore id) machine next) : next.Conserves config id book := by
  have same : next.kernel.semaphore id = machine.kernel.semaphore id := untouched.agree
  have parked := core.parked_congr core' (untouched.heads (.semaphore id) rfl)
  constructor
  case balance => rw [same]; exact conserves.balance
  case max => rw [same]; exact conserves.max
  case bound => rw [same]; exact conserves.bound
  case empty =>
    intro task isParked
    rw [same]
    exact conserves.empty task (parked task ▸ isParked)
  case tokens =>
    intro task inside
    rw [parked]
    refine conserves.tokens task ?_
    rw [← untouched.pc task (.inr (by rw [inside]; rfl))]
    exact inside

/-- A task returns from `take`. -/
theorem conserves_return (conserves : machine.Conserves config id book)
    (kernel : next.kernel = machine.kernel)
    (pc : ∀ other, (next.thread other).pc = if other = task then .user
      else (machine.thread other).pc) : next.Conserves config id book := by
  have parked : ∀ other, (next.thread other).pc = .takeRet id → other ≠ task ∧
      next.parked (.takeRet id) other = machine.parked (.takeRet id) other := by
    intro other inside
    have moved := pc other
    rw [inside] at moved
    split at moved
    · cases moved
    · rename_i different
      refine ⟨different, ?_⟩
      simp only [Machine.parked, inside, kernel, ← moved]
  constructor
  case balance => rw [kernel]; exact conserves.balance
  case max => rw [kernel]; exact conserves.max
  case bound => rw [kernel]; exact conserves.bound
  case empty =>
    intro other isParked
    have inside : (next.thread other).pc = .takeRet id := by
      simp only [Machine.parked, Bool.and_eq_true, decide_eq_true_eq] at isParked
      exact isParked.1
    rw [kernel]
    exact conserves.empty other ((parked other inside).2 ▸ isParked)
  case tokens =>
    intro other inside
    obtain ⟨different, same⟩ := parked other inside
    rw [same]
    refine conserves.tokens other ?_
    have moved := pc other
    rwa [if_neg different, inside, eq_comm] at moved

/-- The count changes, and no task is parked or woken. -/
theorem conserves_count {after : SemaphoreBook n} (count : U8)
    (conserves : machine.Conserves config id book)
    (semaphore : next.kernel.semaphore id = { machine.kernel.semaphore id with count })
    (tcb : next.kernel.tcb = machine.kernel.tcb)
    (pc : ∀ task, (next.thread task).pc = (machine.thread task).pc)
    (tokens : after.tokens = book.tokens)
    (balance : (config.semaphore id).1.val + after.gives =
      count.val + (after.tryTakes + after.takes + after.handed))
    (bound : count ≤ (config.semaphore id).1 ⊔ (config.semaphore id).2)
    (empty : ∀ task, machine.parked (.takeRet id) task = true → count = 0) :
    next.Conserves config id after := by
  have parked : ∀ task, next.parked (.takeRet id) task = machine.parked (.takeRet id) task := by
    intro task
    simp only [Machine.parked, pc, tcb]
  constructor
  case balance => rw [semaphore]; exact balance
  case max => rw [semaphore]; exact conserves.max
  case bound => rw [semaphore]; exact bound
  case empty =>
    intro task isParked
    rw [semaphore]
    exact empty task (parked task ▸ isParked)
  case tokens =>
    intro task inside
    rw [tokens, parked]
    exact conserves.tokens task (pc task ▸ inside)

/-- `take` consumes a token. -/
theorem conserves_take (conserves : machine.Conserves config id book)
    (isCurrent : machine.kernel.current = some task)
    (runs : (machine.kernel.tcb task).state.isRunning = true)
    (available : 0 < (machine.kernel.semaphore id).count)
    (kernel : next.kernel = machine.kernel.setSemaphore id { machine.kernel.semaphore id with
      count := (machine.kernel.semaphore id).count - 1 })
    (pc : ∀ other, (next.thread other).pc = if other = task then .takeRet id
      else (machine.thread other).pc) :
    next.Conserves config id (SemaphoreBook.record id machine (.call (.take id)) next book) := by
  have semaphore : next.kernel.semaphore id = { machine.kernel.semaphore id with
      count := (machine.kernel.semaphore id).count - 1 } := by
    rw [kernel]
    simp
  have counted : (next.kernel.semaphore id).count.val + 1 =
      (machine.kernel.semaphore id).count.val := by
    rw [semaphore]
    exact pred_val available
  have tcb : next.kernel.tcb = machine.kernel.tcb := by
    rw [kernel]
    rfl
  have unparked : next.parked (.takeRet id) task = false := by
    simp [Machine.parked, tcb, not_blocked_of_running runs]
  have parked : ∀ other, other ≠ task →
      next.parked (.takeRet id) other = machine.parked (.takeRet id) other := by
    intro other different
    simp only [Machine.parked, pc, tcb, if_neg different]
  have noted : SemaphoreBook.record id machine (.call (.take id)) next book = book.take task 1 := by
    have consumed : (machine.kernel.semaphore id).count.val -
        (next.kernel.semaphore id).count.val = 1 := by omega
    simp only [SemaphoreBook.record, isCurrent, unparked, consumed]
    simp
  have balance := conserves.balance
  rw [noted]
  constructor
  case balance =>
    simp only [SemaphoreBook.take]
    omega
  case max => rw [semaphore]; exact conserves.max
  case bound =>
    refine le_trans ?_ conserves.bound
    show (next.kernel.semaphore id).count.val ≤ _
    omega
  case empty =>
    intro other isParked
    by_cases same : other = task
    · rw [same, unparked] at isParked
      cases isParked
    · rw [parked other same] at isParked
      have zero := conserves.empty other isParked
      rw [zero] at available
      exact absurd available (lt_irrefl 0)
  case tokens =>
    intro other inside
    by_cases same : other = task
    · subst same
      simp [SemaphoreBook.take, unparked]
    · rw [parked other same]
      simp only [SemaphoreBook.take, Function.update_of_ne same]
      refine conserves.tokens other ?_
      rwa [pc, if_neg same] at inside

/-- `take` parks its caller. -/
theorem conserves_park (conserves : machine.Conserves config id book)
    (isCurrent : machine.kernel.current = some task)
    (empty : (machine.kernel.semaphore id).count = 0)
    (kernel : next.kernel = Spec.blockAndPush machine.kernel (.semaphore id) task)
    (pc : ∀ other, (next.thread other).pc = if other = task then .takeRet id
      else (machine.thread other).pc) :
    next.Conserves config id (SemaphoreBook.record id machine (.call (.take id)) next book) := by
  have semaphore : next.kernel.semaphore id = machine.kernel.semaphore id := by
    rw [kernel]
    rfl
  have state : (next.kernel.tcb task).state = .blocked (.semaphore id) := by
    rw [kernel]
    simp [Spec.blockAndPush]
  have isParked : next.parked (.takeRet id) task = true := by
    simp [Machine.parked, pc, state, TaskState.isBlocked]
  have parked : ∀ other, other ≠ task →
      next.parked (.takeRet id) other = machine.parked (.takeRet id) other := by
    intro other different
    have tcb : next.kernel.tcb other = machine.kernel.tcb other := by
      rw [kernel]
      simp [Spec.blockAndPush, different]
    simp only [Machine.parked, pc, tcb, if_neg different]
  have noted : SemaphoreBook.record id machine (.call (.take id)) next book = book.park task := by
    simp [SemaphoreBook.record, isCurrent, isParked]
  rw [noted]
  constructor
  case balance => rw [semaphore]; exact conserves.balance
  case max => rw [semaphore]; exact conserves.max
  case bound => rw [semaphore]; exact conserves.bound
  case empty =>
    intro other _
    rw [semaphore, empty]
  case tokens =>
    intro other inside
    by_cases same : other = task
    · subst same
      simp [SemaphoreBook.park, isParked]
    · rw [parked other same]
      simp only [SemaphoreBook.park, Function.update_of_ne same]
      refine conserves.tokens other ?_
      rwa [pc, if_neg same] at inside

/-- `try_take` consumes a token, or does nothing. -/
theorem conserves_tries (conserves : machine.Conserves config id book)
    (asks : action = .call (.tryTake id) ∨ action = .isr (.tryTake id))
    (kernel : next.kernel = (Semaphore.tryTake machine.kernel id).1)
    (pc : ∀ task, (next.thread task).pc = (machine.thread task).pc) :
    next.Conserves config id (SemaphoreBook.record id machine action next book) := by
  have balance := conserves.balance
  rcases Spec.tryTake_cases machine.kernel id with ⟨available, tried⟩ | ⟨_, tried⟩
  · have pred := pred_val available
    have noted : SemaphoreBook.record id machine action next book =
        { book with tryTakes := book.tryTakes + 1 } := by
      rcases asks with rfl | rfl <;> simp [SemaphoreBook.record, tried]
    rw [noted]
    rw [tried] at kernel
    refine conserves_count _ conserves (by rw [kernel]; simp; rfl) (by rw [kernel]; rfl) pc rfl
      (by simp only; omega) ?_ ?_
    · refine le_trans ?_ conserves.bound
      show (_ : U8).val ≤ _
      omega
    · intro task isParked
      have zero := conserves.empty task isParked
      rw [zero] at available
      exact absurd available (lt_irrefl 0)
  · have noted : SemaphoreBook.record id machine action next book = book := by
      rcases asks with rfl | rfl <;> simp [SemaphoreBook.record, tried]
    rw [noted]
    rw [tried] at kernel
    exact conserves_count _ conserves (by rw [kernel]) (by rw [kernel]) pc rfl balance conserves.bound
      conserves.empty

/-- A `give` wakes exactly one parked task, raises the count, or does nothing. -/
theorem Core.give_outcome (core : Core config machine) (core' : Core config next) {flag : Bool}
    (returned : Semaphore.give machine.kernel id = .ok (next.kernel, flag)) :
    (∃ task, machine.parked (.takeRet id) task = true ∧
      (∀ other, next.parked (.takeRet id) other = true ↔
        other ≠ task ∧ machine.parked (.takeRet id) other = true) ∧
      machine.woken next (.takeRet id) = {task} ∧
      next.kernel.semaphore id = machine.kernel.semaphore id) ∨
    (∀ task, machine.parked (.takeRet id) task = false) ∧ machine.woken next (.takeRet id) = ∅ ∧
      next.kernel.tcb = machine.kernel.tcb ∧
      ((machine.kernel.semaphore id).count < (machine.kernel.semaphore id).max ∧
        next.kernel.semaphore id = { machine.kernel.semaphore id with
          count := (machine.kernel.semaphore id).count + 1 } ∨
      (machine.kernel.semaphore id).max ≤ (machine.kernel.semaphore id).count ∧
        next.kernel.semaphore id = machine.kernel.semaphore id) := by
  rcases Spec.give_cases returned with ⟨task, _, chosen, _, kernel, _⟩ | ⟨empty, outcome⟩
  · have member := Spec.mem_of_mostUrgent chosen
    have left : ∀ other, next.parked (.takeRet id) other = true ↔
        other ≠ task ∧ machine.parked (.takeRet id) other = true := by
      intro other
      rw [core.parked_take, core'.parked_take, kernel, Spec.wake_waitHead, Function.update_self]
      exact (core.wf.nodup (.semaphore id)).mem_erase_iff
    refine .inl ⟨task, (core.parked_take task).mpr member, left, ?_, by rw [kernel]; rfl⟩
    ext other
    simp only [Machine.woken, Finset.mem_filter, Finset.mem_univ, true_and, Bool.and_eq_true,
      Bool.not_eq_true', Finset.mem_singleton]
    rw [← Bool.not_eq_true, left, core.parked_take]
    constructor
    · rintro ⟨listed, isLeft⟩
      by_contra different
      exact isLeft ⟨different, listed⟩
    · rintro rfl
      exact ⟨member, fun stays => stays.1 rfl⟩
  · have nobody : ∀ task, machine.parked (.takeRet id) task = false := by
      intro task
      rw [← Bool.not_eq_true, core.parked_take, empty]
      simp
    have nobodyWoken : machine.woken next (.takeRet id) = ∅ := by simp [Machine.woken, nobody]
    refine .inr ⟨nobody, nobodyWoken, ?_⟩
    rcases outcome with ⟨below, kernel⟩ | ⟨full, kernel⟩
    · exact ⟨by rw [kernel]; rfl, .inl ⟨below, by rw [kernel]; simp⟩⟩
    · exact ⟨by rw [kernel], .inr ⟨full, by rw [kernel]⟩⟩

/-- What the books note of a `give`. -/
theorem record_give (asks : action = .call (.give id) ∨ action = .isr (.give id)) :
    SemaphoreBook.record id machine action next book = book.give
      ((machine.kernel.semaphore id).count ≠ (next.kernel.semaphore id).count)
      (machine.woken next (.takeRet id)) := by
  rcases asks with rfl | rfl <;> simp [SemaphoreBook.record]

/-- `give` hands a token over, adds it to the count, or drops it. -/
theorem conserves_gives (core : Core config machine) (core' : Core config next)
    (conserves : machine.Conserves config id book)
    (asks : action = .call (.give id) ∨ action = .isr (.give id)) {flag : Bool}
    (returned : Semaphore.give machine.kernel id = .ok (next.kernel, flag))
    (pc : ∀ task, (next.thread task).pc = (machine.thread task).pc) :
    next.Conserves config id (SemaphoreBook.record id machine action next book) := by
  have balance := conserves.balance
  rw [record_give asks]
  rcases core.give_outcome core' returned with ⟨task, isParked, left, woken, same⟩ |
    ⟨nobody, woken, tcb, ⟨below, semaphore⟩ | ⟨_, same⟩⟩
  · have noted : book.give ((machine.kernel.semaphore id).count ≠ (next.kernel.semaphore id).count)
        (machine.woken next (.takeRet id)) = { book with
          gives := book.gives + 1
          handed := book.handed + 1
          tokens := fun other => if other = task then book.tokens other + 1
            else book.tokens other } := by
      simp [SemaphoreBook.give, woken]
    rw [noted]
    constructor
    case balance =>
      rw [same]
      simp only
      omega
    case max => rw [same]; exact conserves.max
    case bound => rw [same]; exact conserves.bound
    case empty =>
      intro other _
      rw [same]
      exact conserves.empty task isParked
    case tokens =>
      intro other inside
      have tokens := conserves.tokens other (pc other ▸ inside)
      by_cases isTask : other = task
      · subst isTask
        have unparked : next.parked (.takeRet id) other = false := by
          rw [← Bool.not_eq_true, left]
          simp
        rw [isParked] at tokens
        simp [tokens, unparked]
      · have steady : next.parked (.takeRet id) other = machine.parked (.takeRet id) other := by
          rw [Bool.eq_iff_iff, left]
          exact and_iff_right isTask
        rw [steady, ← tokens]
        simp [isTask]
  · have succ := succ_val below
    have changed : (machine.kernel.semaphore id).count ≠ (next.kernel.semaphore id).count := by
      rw [semaphore]
      exact ne_succ below
    have noted : book.give ((machine.kernel.semaphore id).count ≠ (next.kernel.semaphore id).count)
        (machine.woken next (.takeRet id)) = { book with gives := book.gives + 1 } := by
      simp [SemaphoreBook.give, woken, changed]
    rw [noted]
    refine conserves_count _ conserves semaphore tcb pc rfl (by simp only; omega) ?_ ?_
    · refine le_trans ?_ (le_sup_right)
      rw [← conserves.max]
      show (_ : U8).val ≤ _
      have less : (machine.kernel.semaphore id).count.val <
        (machine.kernel.semaphore id).max.val := below
      omega
    · intro task isParked
      rw [nobody task] at isParked
      cases isParked
  · have noted : book.give ((machine.kernel.semaphore id).count ≠ (next.kernel.semaphore id).count)
        (machine.woken next (.takeRet id)) = { book with dropped := book.dropped + 1 } := by
      simp [SemaphoreBook.give, woken, same]
    rw [noted]
    exact conserves_count _ conserves same tcb pc rfl balance conserves.bound conserves.empty

/-- The books balance after every step. -/
theorem conserves_step (core : Core config machine) (core' : Core config next)
    (conserves : machine.Conserves config id book) (step : SemaphoreStep id machine action next) :
    next.Conserves config id (SemaphoreBook.record id machine action next book) := by
  cases step with
  | passes untouched apart =>
      rw [SemaphoreBook.record_apart apart]
      exact conserves_untouched core core' conserves untouched
  | returns kernel pc => exact conserves_return conserves kernel pc
  | takes isCurrent runs available kernel pc =>
      exact conserves_take conserves isCurrent runs available kernel pc
  | parks isCurrent empty kernel pc => exact conserves_park conserves isCurrent empty kernel pc
  | tries asks kernel pc => exact conserves_tries conserves asks kernel pc
  | gives asks returned pc => exact conserves_gives core core' conserves asks returned pc

/-- The machine boots with the initial count and nobody in `take`. -/
theorem conserves_start {kernel : Spec n V}
    (boot : config.boot V WaitList (List (Fin n)) = .ok kernel) :
    (Config.start V WaitList (List (Fin n)) kernel).Conserves config id {} := by
  have semaphore : kernel.semaphore id =
      Semaphore.new (config.semaphore id).1 (config.semaphore id).2 := by
    obtain ⟨_, statics⟩ := (Config.booted_of_boot boot).statics
    rw [statics]
    rfl
  have outside : ∀ task, ((Config.start V WaitList (List (Fin n)) kernel).thread task).pc =
      .user := fun _ => rfl
  constructor
  case balance => simp [Config.start, semaphore, Semaphore.new]
  case max => simp [Config.start, semaphore, Semaphore.new]
  case bound => simp [Config.start, semaphore, Semaphore.new]
  case empty =>
    intro task isParked
    simp [Machine.parked, outside] at isParked
  case tokens =>
    intro task inside
    rw [outside] at inside
    cases inside

/-- The books balance along every run. -/
theorem conserves_of_reachable (reachable : ((system config V).observed {}
    (SemaphoreBook.record id)).Reachable (machine, book)) : machine.Conserves config id book := by
  refine reachable.observed_invariant (fun machine book => Machine.Conserves config id machine book)
    ?_ ?_
  · rintro state ⟨kernel, boot, rfl⟩
    exact conserves_start boot
  · intro state action after history reached conserves performed
    have core := core_of_reachable reached
    have core' := core_of_reachable (.step reached performed)
    have moves := core.moves (Machine.step_of_perform performed)
    exact conserves_step core core' conserves (moves.semaphoreStep core id)

/-- No step changes a count by more than one. -/
theorem SemaphoreStep.count_near (step : SemaphoreStep id machine action next) :
    (next.kernel.semaphore id).count.val ≤ (machine.kernel.semaphore id).count.val + 1 ∧
      (machine.kernel.semaphore id).count.val ≤ (next.kernel.semaphore id).count.val + 1 := by
  have lowered : ∀ kernel : Spec n V, kernel = machine.kernel.setSemaphore id
      { machine.kernel.semaphore id with count := (machine.kernel.semaphore id).count - 1 } →
      0 < (machine.kernel.semaphore id).count →
      (kernel.semaphore id).count.val + 1 = (machine.kernel.semaphore id).count.val := by
    rintro kernel rfl available
    simpa using pred_val available
  have kept : next.kernel.semaphore id = machine.kernel.semaphore id →
      (next.kernel.semaphore id).count.val = (machine.kernel.semaphore id).count.val := by
    intro same
    rw [same]
  cases step with
  | passes untouched apart =>
      have := kept untouched.agree
      omega
  | returns kernel pc =>
      have := kept (by rw [kernel])
      omega
  | takes isCurrent runs available kernel pc =>
      have := lowered _ kernel available
      omega
  | parks isCurrent empty kernel pc =>
      have := kept (by rw [kernel]; rfl)
      omega
  | tries asks kernel pc =>
      rcases Spec.tryTake_cases machine.kernel id with ⟨available, tried⟩ | ⟨_, tried⟩
      · rw [tried] at kernel
        have := lowered _ kernel available
        omega
      · rw [tried] at kernel
        have := kept (by rw [kernel])
        omega
  | gives asks returned pc =>
      rcases Spec.give_cases returned with ⟨task, _, _, _, kernel, _⟩ |
        ⟨_, ⟨below, kernel⟩ | ⟨_, kernel⟩⟩
      · have := kept (by rw [kernel]; rfl)
        omega
      · have raised := succ_val below
        have now : (next.kernel.semaphore id).count = (machine.kernel.semaphore id).count + 1 := by
          rw [kernel]
          simp
        rw [now]
        omega
      · have := kept (by rw [kernel])
        omega

/-- A give is a step of the semaphore that ran `give`. -/
theorem SemaphoreStep.give_returned (step : SemaphoreStep id machine action next)
    (asks : action = .call (.give id) ∨ action = .isr (.give id)) :
    ∃ flag, Semaphore.give machine.kernel id = .ok (next.kernel, flag) := by
  cases step with
  | passes untouched apart =>
      exact absurd (by simp [Call.uses]) (apart (.give id) asks)
  | gives _ returned pc => exact ⟨_, returned⟩
  | tries tries kernel pc => rcases asks with rfl | rfl <;> simp at tries
  | _ => simp at asks

/-- A token is dropped when nobody is parked and the count is at its ceiling; otherwise a
parked task gets it. -/
theorem dropped_iff (core : Core config machine) (core' : Core config next)
    (book : SemaphoreBook n)
    (step : SemaphoreStep id machine action next)
    (asks : action = .call (.give id) ∨ action = .isr (.give id)) :
    ((SemaphoreBook.record id machine action next book).dropped = book.dropped + 1 ↔
      (∀ task, machine.parked (.takeRet id) task = false) ∧
        (machine.kernel.semaphore id).max ≤ (machine.kernel.semaphore id).count) ∧
    ((∃ task, machine.parked (.takeRet id) task = true) →
      ∃ task, machine.parked (.takeRet id) task = true ∧
        machine.woken next (.takeRet id) = {task}) := by
  obtain ⟨flag, returned⟩ := step.give_returned asks
  rw [record_give asks]
  rcases core.give_outcome core' returned with ⟨task, isParked, _, woken, same⟩ |
    ⟨nobody, woken, _, ⟨below, semaphore⟩ | ⟨full, same⟩⟩
  · refine ⟨iff_of_false ?_ ?_, fun _ => ⟨task, isParked, woken⟩⟩
    · simp [SemaphoreBook.give, woken]
    · rintro ⟨nobody, _⟩
      rw [nobody task] at isParked
      cases isParked
  · have changed : (machine.kernel.semaphore id).count ≠ (next.kernel.semaphore id).count := by
      rw [semaphore]
      exact ne_succ below
    refine ⟨iff_of_false ?_ ?_, fun ⟨task, isParked⟩ => ?_⟩
    · simp [SemaphoreBook.give, changed]
    · exact fun dropped => absurd below (not_lt.mpr dropped.2)
    · simp [nobody] at isParked
  · refine ⟨iff_of_true ?_ ⟨nobody, full⟩, fun ⟨task, isParked⟩ => ?_⟩
    · simp [SemaphoreBook.give, woken, same]
    · simp [nobody] at isParked

end SpecMachine

namespace RepMachine

variable {n : Nat} {V : Type} {config : Config n} {machine next : RtosMachine n V}
  {spec spec' : SpecMachine n V} {id : Nat}

theorem record_semaphore_eq (rep : RepMachine machine spec) (rep' : RepMachine next spec')
    (action : Action V) : SemaphoreBook.record id machine action next =
      SemaphoreBook.record id spec action spec' := by
  have tried : (Semaphore.tryTake machine.kernel id).2 = (Semaphore.tryTake spec.kernel id).2 := by
    simp only [Semaphore.tryTake, rep.kernel.statics]
    split <;> rfl
  funext book
  cases action with
  | call call =>
      cases call with
      | take semaphore =>
          simp only [SemaphoreBook.record, rep'.parked_eq, rep.kernel.statics, rep'.kernel.statics]
      | tryTake semaphore => simp only [SemaphoreBook.record, tried]
      | give semaphore =>
          simp only [SemaphoreBook.record, rep.woken_eq rep', rep.kernel.statics,
            rep'.kernel.statics]
      | _ => rfl
  | isr call =>
      cases call with
      | tryTake semaphore => simp only [SemaphoreBook.record, tried]
      | give semaphore =>
          simp only [SemaphoreBook.record, rep.woken_eq rep', rep.kernel.statics,
            rep'.kernel.statics]
      | _ => rfl
  | _ => rfl

/-- The books of the code balance when those of the abstract machine do. -/
theorem conserves (rep : RepMachine machine spec) {book : SemaphoreBook n}
    (balanced : spec.Conserves config id book) : machine.Conserves config id book := by
  have semaphore : machine.kernel.semaphore id = spec.kernel.semaphore id := by
    rw [rep.kernel.statics]
  constructor
  case balance => rw [semaphore]; exact balanced.balance
  case max => rw [semaphore]; exact balanced.max
  case bound => rw [semaphore]; exact balanced.bound
  case empty =>
    intro task isParked
    rw [semaphore]
    exact balanced.empty task (rep.parked_eq _ task ▸ isParked)
  case tokens =>
    intro task inside
    rw [rep.parked_eq]
    exact balanced.tokens task (rep.thread ▸ inside)

/-- Tokens of a semaphore are conserved along every run. The books balance: what was there at
first and what was given is what is there, what was taken and what was handed to parked tasks;
a parked task means a count of zero, and the count stays below the larger of its initial value
and its ceiling. A `give` drops its token exactly when nobody is parked and the count is at its
ceiling, and wakes exactly one task when somebody is parked; a count changes by at most one in a
step, so it never wraps; and a task that returns from `take` has got exactly one token. -/
theorem semaphore_tokens_conserved {book : SemaphoreBook n}
    (reachable : ((system config V).observed {} (SemaphoreBook.record id)).Reachable
      (machine, book)) :
    machine.Conserves config id book ∧
    ∀ action next, machine.perform config.idle action = some (.ok next) →
      ((next.kernel.semaphore id).count.val ≤ (machine.kernel.semaphore id).count.val + 1 ∧
        (machine.kernel.semaphore id).count.val ≤ (next.kernel.semaphore id).count.val + 1) ∧
      (action = .call (.give id) ∨ action = .isr (.give id) →
        ((SemaphoreBook.record id machine action next book).dropped = book.dropped + 1 ↔
          (∀ task, machine.parked (.takeRet id) task = false) ∧
            (config.semaphore id).2 ≤ (machine.kernel.semaphore id).count) ∧
        ((∃ task, machine.parked (.takeRet id) task = true) →
          ∃ task, machine.parked (.takeRet id) task = true ∧
            machine.woken next (.takeRet id) = {task})) ∧
      (action = .ret → ∀ task, machine.kernel.current = some task →
        (machine.thread task).pc = .takeRet id → book.tokens task = 1) := by
  obtain ⟨⟨spec, shared⟩, reach, rep, sameBook⟩ := ((simulation config V).observed {}
    fun state action next spec spec' rep rep' => record_semaphore_eq rep rep' action).reachable
      reachable
  obtain rfl : book = shared := sameBook
  replace rep : RepMachine machine spec := rep
  have core : SpecMachine.Core config spec := SpecMachine.core_of_reachable reach.of_observed
  have conserves : machine.Conserves config id book :=
    rep.conserves (SpecMachine.conserves_of_reachable reach)
  have semaphore : machine.kernel.semaphore id = spec.kernel.semaphore id := by
    rw [rep.kernel.statics]
  refine ⟨conserves, fun action next performed => ?_⟩
  obtain ⟨spec', performed', rep'⟩ := rep.perform_ok core performed
  have semaphore' : next.kernel.semaphore id = spec'.kernel.semaphore id := by
    rw [rep'.kernel.statics]
  have core' : SpecMachine.Core config spec' :=
    SpecMachine.core_of_reachable (.step reach.of_observed performed')
  have step : SpecMachine.SemaphoreStep id spec action spec' :=
    (core.moves (Machine.step_of_perform performed')).semaphoreStep core id
  refine ⟨?_, ?_, ?_⟩
  · rw [semaphore, semaphore']
    exact step.count_near
  · intro asks
    have dropped := SpecMachine.dropped_iff core core' book step asks
    rw [← conserves.max, record_semaphore_eq rep rep', rep.woken_eq rep', semaphore]
    simp only [rep.parked_eq]
    exact dropped
  · rintro rfl task isCurrent inside
    have tokens := conserves.tokens task inside
    cases Machine.step_of_perform performed' with
    | ret isTask triggered returns =>
        have runs := core.task_running isTask triggered
        have isTask' := (Machine.threadTask_eq_some.mp isTask).2.2
        rw [rep.kernel.statics] at isCurrent
        obtain rfl := Option.some.inj (isCurrent.symm.trans isTask')
        have unparked : machine.parked (.takeRet id) task = false := by
          rw [rep.parked_eq]
          simp [Machine.parked, SpecMachine.not_blocked_of_running runs]
        simpa [unparked] using tokens

/-- An interrupt handler gives between the section that parks task 1 and its PendSV: the task
has its token, and the books account for every token given. -/
theorem semaphore_tokens_conserved_handed :
    ∃ (machine : RtosMachine 4 Unit) (book : SemaphoreBook 4),
      (machine.kernel.semaphore 0).count = 0 ∧ machine.handler = .inactive ∧
      machine.pendsv = false ∧ book.tokens 1 = 1 ∧
      book.gives = book.tryTakes + book.takes + book.handed := by
  let actions : List (Action Unit) := [.launch, .call (.take 0), .isr (.give 0)]
  let check (machine : RtosMachine 4 Unit) : Bool :=
    (machine.kernel.semaphore 0).count = 0 ∧ machine.pendsv = false ∧
      machine.threadTask = some 1 ∧ (machine.thread 1).pc = .takeRet 0 ∧
      machine.parked (.takeRet 0) 1 = false
  obtain ⟨machine, reachable, checked⟩ := Machine.exists_of_check actions check
    (by decide +kernel : (Config.small 10 20 30).passes Unit _ _ actions check = true)
  obtain ⟨count, pendsv, isTask, pc, parked⟩ := of_decide_eq_true checked
  obtain ⟨book, observed⟩ := reachable.exists_history {} (SemaphoreBook.record 0)
  obtain ⟨conserves, _⟩ := semaphore_tokens_conserved observed
  refine ⟨machine, book, count, (Machine.threadTask_eq_some.mp isTask).1, pendsv, ?_, ?_⟩
  · have tokens := conserves.tokens 1 pc
    rwa [parked] at tokens
  · have balance := conserves.balance
    rw [count] at balance
    simpa [Config.small] using balance

end RepMachine

end Kangaroos
