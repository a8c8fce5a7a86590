import Kangaroos.Proofs.EventWaiters

/-!
# Event bits are delivered once

The setters share the bits of a group out among its waiters, and `wait_any` returns the share of
its caller, which it reads from `wait_ptr` some steps later. Books note the mask each task waits
with, and the bits consumed for it: its share when it calls, and what setters grant it until it
returns.
-/

namespace Kangaroos

/-- The tasks that wait on a list, in its order. -/
def Kernel.waiters {n : Nat} {V : Type} (kernel : Rtos n V) (list : WaitList) : List (Fin n) :=
  Linked.follow kernel.waitLink n (kernel.waitHead list)

theorem Rep.waiters_eq {n : Nat} {V : Type} {kernel : Rtos n V} {spec : Spec n V}
    (rep : Rep none kernel spec) (list : WaitList) : kernel.waiters list = spec.waitHead list :=
  (rep.chain list).follow_eq (by simpa using (rep.wf.nodup list).length_le_card)

/-- The masks tasks wait with, and the bits consumed for them. -/
structure EventBook (n : Nat) where
  masks : Fin n → Word := fun _ => 0
  consumed : Fin n → Word := fun _ => 0

namespace EventBook

variable {n : Nat}

/-- A call takes what it finds, or nothing. -/
def waits (book : EventBook n) (rule : ScanRule) (task : Fin n) (mask bits : Word) : EventBook n where
  masks := Function.update book.masks task mask
  consumed := Function.update book.consumed task ((rule.taken bits mask).getD 0)

/-- A setter grants bits. -/
def delivers (book : EventBook n) (grants : List (Fin n × Word)) : EventBook n where
  masks := book.masks
  consumed := grants.foldl
    (fun consumed grant => Function.update consumed grant.1 (consumed grant.1 ||| grant.2))
    book.consumed

/-- A task without a grant. -/
theorem delivers_of_not_mem {book : EventBook n} {grants : List (Fin n × Word)} {task : Fin n}
    (outside : task ∉ grants.map Prod.fst) :
    (book.delivers grants).consumed task = book.consumed task := by
  induction grants generalizing book with
  | nil => rfl
  | cons first rest ih =>
      rw [List.map_cons, List.mem_cons, not_or] at outside
      refine (@ih (book.delivers [first]) outside.2).trans ?_
      exact Function.update_of_ne outside.1 _ _

/-- A task with one. -/
theorem delivers_of_mem {book : EventBook n} {grants : List (Fin n × Word)} {grant : Fin n × Word}
    (distinct : (grants.map Prod.fst).Nodup) (member : grant ∈ grants) :
    (book.delivers grants).consumed grant.1 = book.consumed grant.1 ||| grant.2 := by
  induction grants generalizing book with
  | nil => cases member
  | cons first rest ih =>
      rw [List.map_cons, List.nodup_cons] at distinct
      rcases List.mem_cons.mp member with rfl | inRest
      · refine (@delivers_of_not_mem n (book.delivers [grant]) _ _ distinct.1).trans ?_
        exact Function.update_self _ _ _
      · refine (@ih (book.delivers [first]) distinct.2 inRest).trans ?_
        have different : grant.1 ≠ first.1 := by
          intro same
          exact distinct.1 (same ▸ List.mem_map_of_mem inRest)
        exact congrArg (· ||| grant.2) (Function.update_of_ne different _ _)

end EventBook

namespace EventGroup

variable {n : Nat} {V Link Head : Type}

/-- What the books note of a step, given the tasks on a list. -/
def note (waiters : Kernel n V Link Head → WaitList → List (Fin n)) (id : Nat)
    (machine : Machine n V Link Head) (action : Action V) (book : EventBook n) : EventBook n :=
  let kernel := machine.kernel
  match action with
  | .call (.waitAny event mask) =>
    if event = id then
      match kernel.current with
      | some task => book.waits .any task mask (kernel.bits id)
      | none => book
    else book
  | .call (.waitAll event mask) =>
    if event = id then
      match kernel.current with
      | some task => book.waits .all task mask (kernel.bits id)
      | none => book
    else book
  | .call (.set event mask) | .isr (.set event mask) | .isr (.setFromIsr event mask _) =>
    if event = id then
      book.delivers (grants book.masks (waiters kernel (.eventAny id)) (waiters kernel (.eventAll id))
        (kernel.bits id ||| mask))
    else book
  | _ => book

/-- The masks are those the other books note. -/
theorem note_masks (waiters : Kernel n V Link Head → WaitList → List (Fin n)) (id : Nat)
    (machine : Machine n V Link Head) (action : Action V) (book : EventBook n) :
    (note waiters id machine action book).masks = noteMask id machine action book.masks := by
  have setter : ∀ event grants, (if event = id then EventBook.delivers book grants else book).masks =
      book.masks := by
    intro event grants
    split <;> rfl
  cases action with
  | call call =>
      cases call with
      | waitAny event mask =>
          simp only [note, noteMask]
          split
          · cases machine.kernel.current <;> rfl
          · rfl
      | waitAll event mask =>
          simp only [note, noteMask]
          split
          · cases machine.kernel.current <;> rfl
          · rfl
      | set event mask => exact setter event _
      | _ => rfl
  | isr call =>
      cases call with
      | set event mask => exact setter event _
      | setFromIsr event mask trigger => exact setter event _
      | _ => rfl
  | _ => rfl

/-- Steps of other primitives are not noted. -/
theorem note_apart {waiters : Kernel n V Link Head → WaitList → List (Fin n)} {id : Nat}
    {machine : Machine n V Link Head} {call : Call V} (apart : .event id ∉ call.uses)
    (book : EventBook n) : note waiters id machine (.call call) book = book ∧
      note waiters id machine (.isr call) book = book := by
  have other : ∀ event, .event id ∉ [Prim.event event] → event ≠ id := by
    rintro event unused rfl
    simp at unused
  cases call with
  | waitAny event mask => simp [note, other event apart]
  | waitAll event mask => simp [note, other event apart]
  | set event mask => simp [note, other event apart]
  | setFromIsr event mask trigger => simp [note, other event apart]
  | _ => exact ⟨rfl, rfl⟩

/-- What a setter has done with the bits of a group, of which `any` and `all` waited: every task
it wakes has consumed its share, and every bit has gone to one of them or is left. -/
structure Delivered (id : Nat) (masks : Fin n → Word) (any all : List (Fin n)) (bits : Word)
    (before after : Rtos n V) : Prop where
  takesAny : ∀ earlier grant later,
    ScanRule.any.grants masks any bits = earlier ++ grant :: later →
    grant.1 ∈ any ∧ (after.tcb grant.1).waitPtr = .word grant.2 ∧ grant.2 ≠ 0 ∧
      grant.2 = earlier.foldl (fun bits grant => bits &&& ~~~grant.2) bits &&& masks grant.1
  takesAll : ∀ grant ∈ ScanRule.all.grants masks all (leftByAny masks any bits),
    grant.1 ∈ all ∧ grant.2 = masks grant.1
  woken : ∀ grant ∈ grants masks any all bits, (after.tcb grant.1).state.isReady = true
  disjoint : (grants masks any all bits).Pairwise fun grant other => grant.2 &&& other.2 = 0
  apart : ∀ grant ∈ grants masks any all bits, grant.2 &&& after.bits id = 0
  union : (grants masks any all bits).foldl (fun bits grant => bits ||| grant.2) (after.bits id) =
    bits
  anyLeft : Linked.Chain after.waitLink (after.waitHead (.eventAny id))
    (any.filter (· ∉ (grants masks any all bits).map Prod.fst))
  allLeft : Linked.Chain after.waitLink (after.waitHead (.eventAll id))
    (all.filter (· ∉ (grants masks any all bits).map Prod.fst))
  kept : ∀ task, task ∉ (grants masks any all bits).map Prod.fst →
    (after.tcb task).forget = (before.tcb task).forget

end EventGroup

namespace Rep

variable {n : Nat} {V : Type} {kernel after : Rtos n V} {spec spec' : Spec n V} {id : Nat}
  {masks : Fin n → Word} {bits : Word}

/-- What the abstract setter has done. -/
theorem delivered (rep : Rep none kernel spec) (rep' : Rep none after spec')
    (delivered : Spec.Delivered id masks bits spec spec') :
    EventGroup.Delivered id masks (spec.waitHead (.eventAny id)) (spec.waitHead (.eventAll id)) bits
      kernel after := by
  have shared := EventGroup.grants_sharedOut masks (spec.waitHead (.eventAny id))
    (spec.waitHead (.eventAll id)) bits
  rw [← delivered.remaining] at shared
  have left : after.bits id = spec'.bits id := by rw [rep'.statics]
  constructor
  case takesAny =>
    intro earlier grant later split
    have member : grant ∈ ScanRule.any.grants masks (spec.waitHead (.eventAny id)) bits := by
      simp [split]
    have waited := (of_mem_shareOut member).1
    obtain ⟨share, some⟩ := EventGroup.grant_any split
    refine ⟨waited, ?_, some, share⟩
    rw [rep'.waitPtr]
    exact delivered.value grant (List.mem_append_left _ member) waited
  case takesAll =>
    intro grant member
    exact ⟨(of_mem_shareOut member).1, EventGroup.grant_all member⟩
  case woken =>
    intro grant member
    rw [rep'.isReady]
    exact delivered.woken grant member
  case disjoint => exact shared.disjoint.imp fun apart => Word.and_eq_zero_iff.mpr apart
  case apart =>
    intro grant member
    rw [left]
    exact Word.and_eq_zero_iff.mpr (shared.apart grant member)
  case union =>
    refine Word.eq_of_holds fun bit => ?_
    rw [Word.holds_foldl, shared.accounts bit, left]
  case anyLeft =>
    have chain := rep'.chain (ScanRule.any.list id)
    rw [delivered.waiters .any] at chain
    exact chain
  case allLeft =>
    have chain := rep'.chain (ScanRule.all.list id)
    rw [delivered.waiters .all] at chain
    exact chain
  case kept =>
    intro task outside
    rw [rep.tcb, rep'.tcb, delivered.kept task outside]

/-- Both setters deliver, whoever waits. -/
theorem set_delivers (rep : Rep none kernel spec)
    (launched : ∀ rule : ScanRule, ∀ task ∈ spec.waitHead (rule.list id), spec.current ≠ none)
    (words : ∀ rule : ScanRule, ∀ task ∈ spec.waitHead (rule.list id),
      (spec.tcb task).waitPtr = .word (masks task)) (mask : Word) :
    ∃ after preempt, EventGroup.setFromIsr kernel id mask = .ok (after, preempt) ∧
      EventGroup.set kernel id mask = .ok (after, after.bits id, preempt) ∧
      EventGroup.Delivered id masks (spec.waitHead (.eventAny id)) (spec.waitHead (.eventAll id))
        (kernel.bits id ||| mask) kernel after := by
  obtain ⟨spec', preempt, done, delivers⟩ := Spec.setFromIsr_delivers rep.wf launched words mask
  obtain ⟨⟨after, flag⟩, performed, rep', same⟩ := Simulates.of_ok_right rep.setFromIsr done
  refine ⟨after, flag, performed, ?_, ?_⟩
  · rw [EventGroup.set_eq_setFromIsr, performed, Except.ok_bind]
  · rw [rep.statics]
    exact rep.delivered rep' delivers

end Rep

/-- The sections of both setters. -/
theorem Call.run_sets {n : Nat} {V : Type} {call : Call V} {who : TcbPtr n} {before after : Spec n V}
    {outcome : Outcome} {id : Nat} {mask : Word}
    (sets : call = .set id mask ∨ ∃ trigger, call = .setFromIsr id mask trigger)
    (returned : call.run who before = .ok (after, outcome)) :
    ∃ flag, EventGroup.setFromIsr before id mask = .ok (after, flag) ∧ outcome.pc = .user := by
  obtain rfl | ⟨trigger, rfl⟩ := sets
  · simp only [Call.run, EventGroup.set_eq_setFromIsr] at returned
    obtain ⟨⟨middle, word, flag⟩, set, rest⟩ := Except.ok_of_bind returned
    obtain ⟨⟨kernel, urgent⟩, sets, last⟩ := Except.ok_of_bind set
    cases last
    cases rest
    exact ⟨_, sets, rfl⟩
  · obtain ⟨⟨middle, flag⟩, sets, rest⟩ := Except.ok_of_bind returned
    cases rest
    exact ⟨_, sets, rfl⟩

namespace SpecMachine

variable {n : Nat} {V : Type} {config : Config n} {machine next : SpecMachine n V} {id : Nat}
  {book : EventBook n} {action : Action V} {task : Fin n}

/-- What the books say about the tasks in `wait_any`. -/
structure Attributes (id : Nat) (machine : SpecMachine n V) (book : EventBook n) : Prop where
  waits : ∀ task ∈ machine.kernel.waitHead (.eventAny id), book.consumed task = 0
  served : ∀ task, (machine.thread task).pc = .waitAnyRet id →
    task ∉ machine.kernel.waitHead (.eventAny id) →
    (machine.kernel.tcb task).waitPtr = .word (book.consumed task) ∧ book.consumed task ≠ 0 ∧
      Within (book.consumed task) (book.masks task)

/-- Steps that leave the list and the tasks in `wait_any` alone. -/
theorem Attributes.frame (attributes : Attributes id machine book)
    (heads : next.kernel.waitHead (.eventAny id) = machine.kernel.waitHead (.eventAny id))
    (pc : ∀ task, (next.thread task).pc = .waitAnyRet id → (machine.thread task).pc = .waitAnyRet id)
    (waitPtr : ∀ task, (machine.thread task).pc = .waitAnyRet id →
      (next.kernel.tcb task).waitPtr = (machine.kernel.tcb task).waitPtr) :
    Attributes id next book where
  waits task member := attributes.waits task (heads ▸ member)
  served task at_ outside := by
    rw [heads] at outside
    rw [waitPtr task (pc task at_)]
    exact attributes.served task (pc task at_) outside

theorem Attributes.untouched (attributes : Attributes id machine book)
    (untouched : Untouched (.event id) machine next) : Attributes id next book := by
  refine attributes.frame (untouched.heads (.eventAny id) rfl) (fun task at_ => ?_) fun task at_ => ?_
  · rw [← untouched.pc task (.inr (by rw [at_]; rfl))]
    exact at_
  · exact (untouched.kept task (by rw [at_]; rfl)).1

/-- A setter. -/
theorem Attributes.delivers (attributes : Attributes id machine book) (core : Core config machine)
    (unserved : Spec.Unserved machine.kernel id book.masks) {mask : Word} {kernel : Spec n V}
    {flag : Bool} (sets : EventGroup.setFromIsr machine.kernel id mask = .ok (kernel, flag))
    (same : next.kernel = kernel)
    (pc : ∀ task, (next.thread task).pc = .waitAnyRet id →
      (machine.thread task).pc = .waitAnyRet id) :
    Attributes id next (book.delivers
      (Spec.grants machine.kernel id book.masks (machine.kernel.bits id ||| mask))) := by
  obtain ⟨after, flag', done, delivered⟩ := Spec.setFromIsr_delivers core.wf
    (fun rule task member => core.launched_of_mem member)
    (fun rule task member => (unserved rule task member).1) mask
  cases sets.symm.trans done
  subst same
  have head : next.kernel.waitHead (.eventAny id) = _ := delivered.waiters .any
  constructor
  case waits =>
    intro task member
    rw [head, List.mem_filter] at member
    rw [EventBook.delivers_of_not_mem (of_decide_eq_true member.2)]
    exact attributes.waits task member.1
  case served =>
    intro task at_ outside
    by_cases waited : task ∈ machine.kernel.waitHead (.eventAny id)
    · have granted : task ∈ (Spec.grants machine.kernel id book.masks
          (machine.kernel.bits id ||| mask)).map Prod.fst := by
        by_contra refused
        rw [head, List.mem_filter] at outside
        exact outside ⟨waited, decide_eq_true refused⟩
      obtain ⟨grant, member, rfl⟩ := List.mem_map.mp granted
      rw [EventBook.delivers_of_mem (Spec.grants_nodup core.wf) member, attributes.waits _ waited,
        show (0 : Word) ||| grant.2 = grant.2 from BitVec.zero_or]
      obtain ⟨some, within⟩ := Spec.grant_within core.wf member waited
      exact ⟨delivered.value grant member waited, some, within⟩
    · have refused : task ∉ (Spec.grants machine.kernel id book.masks
          (machine.kernel.bits id ||| mask)).map Prod.fst := by
        intro granted
        rcases Spec.waits_of_granted granted with inAny | inAll
        · exact waited inAny
        · have isParked := (core.parked_event .all task).mpr inAll
          simp [Machine.parked, pc task at_, ScanRule.ret] at isParked
      rw [EventBook.delivers_of_not_mem refused, delivered.kept task refused]
      exact attributes.served task (pc task at_) waited

/-- `wait_any` takes what it finds, or waits with nothing. -/
theorem Attributes.waitAny (attributes : Attributes id machine book) (core : Core config machine)
    (isCurrent : machine.kernel.current = some task)
    (runs : (machine.kernel.tcb task).state.isRunning = true) {mask : Word} {kernel : Spec n V}
    {flag : Bool} (waited : EventGroup.waitAny machine.kernel id mask = .ok (kernel, flag))
    (same : next.kernel = kernel) (thread : ∀ other, other ≠ task →
      next.thread other = machine.thread other) :
    Attributes id next (book.waits .any task mask (machine.kernel.bits id)) := by
  subst same
  have away : ∀ other ∈ machine.kernel.waitHead (.eventAny id), other ≠ task := by
    rintro other member rfl
    exact core.wf.not_mem_of_running runs member
  rcases Spec.waitAny_cases isCurrent waited with ⟨matched, takes, isAfter⟩ | ⟨refused, isAfter⟩
  · have heads : next.kernel.waitHead = machine.kernel.waitHead := by
      rw [isAfter]
      rfl
    constructor
    case waits =>
      intro other member
      rw [heads] at member
      simpa [EventBook.waits, away other member] using attributes.waits other member
    case served =>
      intro other at_ outside
      by_cases isTask : other = task
      · subst isTask
        obtain ⟨rfl, some⟩ := ScanRule.taken_any takes
        refine ⟨by simp [isAfter, EventBook.waits, takes], by simpa [EventBook.waits, takes] using some, ?_⟩
        simpa [EventBook.waits, takes, BitVec.and_comm] using Within.and mask (machine.kernel.bits id)
      · rw [heads] at outside
        rw [thread other isTask] at at_
        simpa [isAfter, EventBook.waits, isTask] using attributes.served other at_ outside
  · constructor
    case waits =>
      intro other member
      by_cases isTask : other = task
      · subst isTask
        simp [EventBook.waits, refused]
      · have listed : other ∈ machine.kernel.waitHead (.eventAny id) := by
          simpa [isAfter, Spec.blockAndPush, ScanRule.list, isTask] using member
        simpa [EventBook.waits, isTask] using attributes.waits other listed
    case served =>
      intro other at_ outside
      by_cases isTask : other = task
      · subst isTask
        simp [isAfter, Spec.blockAndPush, ScanRule.list] at outside
      · rw [thread other isTask] at at_
        have outside' : other ∉ machine.kernel.waitHead (.eventAny id) := by
          simpa [isAfter, Spec.blockAndPush, ScanRule.list, isTask] using outside
        simpa [isAfter, Spec.blockAndPush, EventBook.waits, isTask] using
          attributes.served other at_ outside'

/-- `wait_all` takes its mask, or waits. -/
theorem Attributes.waitAll (attributes : Attributes id machine book) (core : Core config machine)
    (isCurrent : machine.kernel.current = some task)
    (runs : (machine.kernel.tcb task).state.isRunning = true) {mask : Word} {kernel : Spec n V}
    {flag : Bool} (waited : EventGroup.waitAll machine.kernel id mask = .ok (kernel, flag))
    (same : next.kernel = kernel) (thread : ∀ other, other ≠ task →
      next.thread other = machine.thread other) (pc : (next.thread task).pc ≠ .waitAnyRet id) :
    Attributes id next (book.waits .all task mask (machine.kernel.bits id)) := by
  subst same
  have away : ∀ other ∈ machine.kernel.waitHead (.eventAny id), other ≠ task := by
    rintro other member rfl
    exact core.wf.not_mem_of_running runs member
  have heads : next.kernel.waitHead (.eventAny id) = machine.kernel.waitHead (.eventAny id) ∧
      ∀ other, other ≠ task → (next.kernel.tcb other).waitPtr = (machine.kernel.tcb other).waitPtr := by
    rcases Spec.waitAll_cases isCurrent waited with ⟨_, isAfter⟩ | ⟨_, isAfter⟩
    · rw [isAfter]
      exact ⟨rfl, fun _ _ => rfl⟩
    · rw [isAfter]
      exact ⟨by simp [Spec.blockAndPush, ScanRule.list],
        fun other isOther => by simp [Spec.blockAndPush, isOther]⟩
  constructor
  case waits =>
    intro other member
    rw [heads.1] at member
    simpa [EventBook.waits, away other member] using attributes.waits other member
  case served =>
    intro other at_ outside
    have isOther : other ≠ task := by
      rintro rfl
      exact pc at_
    rw [heads.1] at outside
    rw [thread other isOther] at at_
    rw [heads.2 other isOther]
    simpa [EventBook.waits, isOther] using attributes.served other at_ outside

/-- A task that is elsewhere after its own step was there before another one's. -/
theorem was_at_of_setThread {thread : Thread} {other : Fin n} {pc : Pc} (away : thread.pc ≠ pc)
    (at_ : ((machine.setThread task thread).thread other).pc = pc) :
    (machine.thread other).pc = pc :=
  Machine.forall_setThread (P := fun other thread => thread.pc = pc → (machine.thread other).pc = pc)
    (fun here => absurd here away) (fun _ _ => id) other at_

/-- Every move keeps the books right. -/
theorem Attributes.moves (attributes : Attributes id machine book) (core : Core config machine)
    (unserved : Spec.Unserved machine.kernel id book.masks) (moves : Moves machine action next) :
    Attributes id next (EventGroup.note Kernel.waitHead id machine action book) := by
  cases moves with
  | scheduled scheduled schedules =>
      have quiet : EventGroup.note Kernel.waitHead id machine action book = book := by
        cases action <;> first | rfl | simp [Action.schedules] at schedules
      rw [quiet]
      exact attributes.untouched (.of_scheduled scheduled)
  | isr safe returned contract slots =>
      rename_i call kernel outcome pendsv isrSlots
      by_cases uses : .event id ∈ call.uses
      · obtain ⟨mask, rfl⟩ | ⟨mask, trigger, rfl⟩ | ⟨mask, rfl⟩ | ⟨mask, rfl⟩ | ⟨mask, rfl⟩ :=
          Call.uses_event uses
        · obtain ⟨flag, sets, _⟩ := Call.run_sets (.inl rfl) returned
          simp only [EventGroup.note, if_true]
          exact attributes.delivers core unserved sets rfl fun _ at_ => at_
        · obtain ⟨flag, sets, _⟩ := Call.run_sets (.inr ⟨trigger, rfl⟩) returned
          simp only [EventGroup.note, if_true]
          exact attributes.delivers core unserved sets rfl fun _ at_ => at_
        · cases returned
          exact attributes.frame rfl (fun task at_ => at_) fun _ _ => rfl
        · simp [Call.isrSafe] at safe
        · simp [Call.isrSafe] at safe
      · rw [(EventGroup.note_apart uses book).2]
        exact attributes.untouched (.of_isr core uses returned contract slots)
  | call isCurrent runs may returned contract =>
      rename_i call task kernel outcome pendsv
      by_cases uses : .event id ∈ call.uses
      · obtain ⟨mask, rfl⟩ | ⟨mask, trigger, rfl⟩ | ⟨mask, rfl⟩ | ⟨mask, rfl⟩ | ⟨mask, rfl⟩ :=
          Call.uses_event uses
        · obtain ⟨flag, sets, user⟩ := Call.run_sets (.inl rfl) returned
          simp only [EventGroup.note, if_true]
          exact attributes.delivers core unserved sets rfl fun other at_ =>
            was_at_of_setThread (by simp [Thread.after, user]) at_
        · simp [Thread.mayCall] at may
        · cases returned
          exact attributes.frame rfl (fun other at_ => was_at_of_setThread (by simp [Thread.after]) at_)
            fun _ _ => rfl
        · obtain ⟨⟨after, flag⟩, waited, rest⟩ := Except.ok_of_bind returned
          cases rest
          simp only [EventGroup.note, isCurrent, if_true]
          exact attributes.waitAny core isCurrent runs waited rfl fun other isOther =>
            Function.update_of_ne isOther _ _
        · obtain ⟨⟨after, flag⟩, waited, rest⟩ := Except.ok_of_bind returned
          cases rest
          simp only [EventGroup.note, isCurrent, if_true]
          exact attributes.waitAll core isCurrent runs waited rfl (fun other isOther =>
            Function.update_of_ne isOther _ _) (by simp [Machine.setThread, Thread.after])
      · rw [(EventGroup.note_apart uses book).1]
        exact attributes.untouched (.of_call core uses may returned contract)
  | ret runs returns =>
      cases returns <;> exact attributes.frame rfl
        (fun other at_ => was_at_of_setThread (by simp) at_) fun _ _ => rfl
  | dropBox runs user live inBounds =>
      exact attributes.frame rfl (fun other at_ => was_at_of_setThread (by simp [user]) at_) fun _ _ => rfl
  | writeBox live stored => exact attributes.frame rfl (fun _ at_ => at_) fun _ _ => rfl
  | isrRet assigned => exact attributes.frame rfl (fun _ at_ => at_) fun _ _ => rfl
  | forgetGuard runs user held =>
      exact attributes.frame rfl (fun other at_ => was_at_of_setThread (by simp [user]) at_) fun _ _ => rfl

theorem attributes_start {kernel : Spec n V}
    (boot : config.boot V WaitList (List (Fin n)) = .ok kernel) :
    Attributes id (Config.start V WaitList (List (Fin n)) kernel) {} := by
  have booted := Config.booted_of_boot boot
  refine ⟨fun task member => rfl, fun task at_ => ?_⟩
  simp [Config.start] at at_

/-- The books are right in every run. -/
theorem attributes_of_reachable (reachable : (config.withBooks V WaitList (List (Fin n)) {}
    (EventGroup.note Kernel.waitHead id)).Reachable (machine, book)) :
    Spec.Unserved machine.kernel id book.masks ∧ Attributes id machine book := by
  refine reachable.observed_invariant
    (fun machine book => Spec.Unserved machine.kernel id book.masks ∧ Attributes id machine book) ?_ ?_
  · rintro state ⟨kernel, boot, rfl⟩
    exact ⟨unserved_start boot, attributes_start boot⟩
  · rintro state action after book reached ⟨unserved, attributes⟩ performed
    have core := core_of_reachable reached
    have moves := core.moves (Machine.step_of_perform performed)
    rw [EventGroup.note_masks]
    exact ⟨unserved_moves core unserved moves, attributes.moves core unserved moves⟩

end SpecMachine

namespace RepMachine

variable {n : Nat} {V : Type} {config : Config n} {machine : RtosMachine n V}
  {spec : SpecMachine n V} {id : Nat} {book : EventBook n}

theorem note_event_eq (rep : RepMachine machine spec) (action : Action V) :
    EventGroup.note Kernel.waiters id machine action =
      EventGroup.note Kernel.waitHead id spec action := by
  funext book
  cases action with
  | call call =>
      cases call <;> simp only [EventGroup.note, rep.kernel.statics, rep.kernel.waiters_eq]
  | isr call =>
      cases call <;> simp only [EventGroup.note, rep.kernel.statics, rep.kernel.waiters_eq]
  | _ => rfl

/-- Whoever waits on the lists of a group, both setters deliver. -/
theorem set_delivers {kernel : Rtos n V} (masks : Fin n → Word) {any all : List (Fin n)}
    (mask : Word) (represents : ∃ spec, Rep none kernel spec)
    (anyChain : Linked.Chain kernel.waitLink (kernel.waitHead (.eventAny id)) any)
    (allChain : Linked.Chain kernel.waitLink (kernel.waitHead (.eventAll id)) all)
    (words : ∀ task ∈ any ++ all, (kernel.tcb task).waitPtr = .word (masks task))
    (launched : kernel.current = none → any ++ all = []) :
    ∃ after preempt, EventGroup.setFromIsr kernel id mask = .ok (after, preempt) ∧
      EventGroup.set kernel id mask = .ok (after, after.bits id, preempt) ∧
      EventGroup.Delivered id masks any all (kernel.bits id ||| mask) kernel after := by
  obtain ⟨spec, rep⟩ := represents
  obtain rfl := anyChain.unique (rep.chain (.eventAny id))
  obtain rfl := allChain.unique (rep.chain (.eventAll id))
  refine rep.set_delivers (fun rule task member unlaunched => ?_) (fun rule task member => ?_) mask
  · rw [← rep.statics] at unlaunched
    obtain ⟨noAny, noAll⟩ := List.append_eq_nil_iff.mp (launched unlaunched)
    cases rule with
    | any => simp [ScanRule.list, noAny] at member
    | all => simp [ScanRule.list, noAll] at member
  · rw [← rep.waitPtr]
    cases rule with
    | any => exact words task (List.mem_append_left _ member)
    | all => exact words task (List.mem_append_right _ member)

/-- The abstract machine beside the books of the code. -/
theorem exists_spec_book (reachable : (config.withBooks V (TcbPtr n) (TcbPtr n) {}
    (EventGroup.note Kernel.waiters id)).Reachable (machine, book)) :
    ∃ spec, RepMachine machine spec ∧ SpecMachine.Core config spec ∧
      Spec.Unserved spec.kernel id book.masks ∧ SpecMachine.Attributes id spec book := by
  obtain ⟨⟨spec, shared⟩, reach, rep, sameBook⟩ := ((simulation config V).observed {}
    fun state action _ spec _ rep _ => note_event_eq rep action).reachable reachable
  obtain rfl : book = shared := sameBook
  exact ⟨spec, rep, SpecMachine.core_of_reachable reach.of_observed,
    SpecMachine.attributes_of_reachable reach⟩

/-- `wait_any` returns what has been consumed for its caller. -/
theorem wait_any_returns (rep : RepMachine machine spec) (core : SpecMachine.Core config spec)
    (attributes : SpecMachine.Attributes id spec book) {task : Fin n}
    (isTask : machine.threadTask = some task) (triggered : (machine.thread task).trig = false)
    (at_ : (machine.thread task).pc = .waitAnyRet id) :
    ∃ bits next, machine.kernel.waitWord task = .ok bits ∧
      machine.perform config.idle .ret = some (.ok next) ∧
      bits ≠ 0 ∧ book.masks task &&& bits = bits ∧ bits = book.consumed task := by
  have running : (spec.kernel.tcb task).state.isRunning = true :=
    core.task_running (rep.threadTask_eq ▸ isTask) (rep.thread ▸ triggered)
  obtain ⟨word, nonempty, within⟩ := attributes.served task (rep.thread ▸ at_)
    (core.wf.not_mem_of_running running)
  have value : machine.kernel.waitWord task = .ok (book.consumed task) := by
    simp only [Kernel.waitWord, rep.kernel.waitPtr, word]
  refine ⟨book.consumed task, machine.setThread task { machine.thread task with pc := .user },
    value, ?_, nonempty, within, rfl⟩
  simp [Machine.perform, Machine.returnFrom, isTask, triggered, at_, value, Except.ok_bind]

/-- Event bits are delivered once. Whoever waits on the lists of a group, both setters end in the
same state with the same decision to preempt, and share the bits out: each task they wake has
consumed its share, the shares and the bits left, which `set` returns, are disjoint and make up
all bits, and the others wait on as they did. In every run the tasks in `wait_any` and `wait_all`
wait so with the masks of their calls, and `wait_any` returns a non-empty part of its mask, which
is what has been consumed for it. -/
theorem event_bits_delivered_once :
    (∀ (kernel : Rtos n V) (masks : Fin n → Word) (any all : List (Fin n)) (mask : Word),
      (∃ spec, Rep none kernel spec) →
      Linked.Chain kernel.waitLink (kernel.waitHead (.eventAny id)) any →
      Linked.Chain kernel.waitLink (kernel.waitHead (.eventAll id)) all →
      (∀ task ∈ any ++ all, (kernel.tcb task).waitPtr = .word (masks task)) →
      (kernel.current = none → any ++ all = []) →
      ∃ after preempt, EventGroup.setFromIsr kernel id mask = .ok (after, preempt) ∧
        EventGroup.set kernel id mask = .ok (after, after.bits id, preempt) ∧
        EventGroup.Delivered id masks any all (kernel.bits id ||| mask) kernel after) ∧
    ∀ (machine : RtosMachine n V) (book : EventBook n),
      (config.withBooks V (TcbPtr n) (TcbPtr n) {}
        (EventGroup.note Kernel.waiters id)).Reachable (machine, book) →
      (∀ (rule : ScanRule) task, machine.parked (rule.ret id) task = true ↔
        task ∈ machine.kernel.waiters (rule.list id)) ∧
      (∀ (rule : ScanRule) task, machine.parked (rule.ret id) task = true →
        (machine.kernel.tcb task).waitPtr = .word (book.masks task)) ∧
      (∀ mask, ∃ after preempt,
        EventGroup.setFromIsr machine.kernel id mask = .ok (after, preempt) ∧
        EventGroup.set machine.kernel id mask = .ok (after, after.bits id, preempt) ∧
        EventGroup.Delivered id book.masks (machine.kernel.waiters (.eventAny id))
          (machine.kernel.waiters (.eventAll id)) (machine.kernel.bits id ||| mask) machine.kernel
          after) ∧
      ∀ task, machine.threadTask = some task → (machine.thread task).trig = false →
        (machine.thread task).pc = .waitAnyRet id →
        ∃ bits next, machine.kernel.waitWord task = .ok bits ∧
          machine.perform config.idle .ret = some (.ok next) ∧
          bits ≠ 0 ∧ book.masks task &&& bits = bits ∧ bits = book.consumed task := by
  refine ⟨fun kernel masks any all mask represents anyChain allChain words launched =>
    set_delivers masks mask represents anyChain allChain words launched,
    fun machine book reachable => ?_⟩
  obtain ⟨spec, rep, core, unserved, attributes⟩ := exists_spec_book reachable
  have parked : ∀ (rule : ScanRule) task, machine.parked (rule.ret id) task = true ↔
      task ∈ spec.kernel.waitHead (rule.list id) := by
    intro rule task
    rw [rep.parked_eq]
    exact core.parked_event rule task
  refine ⟨fun rule task => ?_, fun rule task isParked => ?_, fun mask => ?_,
    fun task isTask triggered at_ => wait_any_returns rep core attributes isTask triggered at_⟩
  · rw [rep.kernel.waiters_eq]
    exact parked rule task
  · rw [rep.kernel.waitPtr]
    exact (unserved rule task ((parked rule task).mp isParked)).1
  · rw [rep.kernel.waiters_eq, rep.kernel.waiters_eq]
    exact rep.kernel.set_delivers (fun rule task member => core.launched_of_mem member)
      (fun rule task member => (unserved rule task member).1) mask

/-- Task 1 waits for bits 0 and 1. Setting bits 1 and 2 delivers bit 1 and leaves bit 2; when task
1 runs again, `wait_any` returns bit 1. -/
theorem event_bits_delivered_once_one :
    (∃ (kernel after : Rtos 4 Unit) (preempt : Bool),
      kernel.waiters (.eventAny 0) = [1] ∧
      EventGroup.set kernel 0 6 = .ok (after, after.bits 0, preempt) ∧
      (after.tcb 1).waitPtr = .word 2 ∧ 2 &&& after.bits 0 = 0 ∧ after.bits 0 ||| 2 = 6) ∧
    ∃ (machine : RtosMachine 4 Unit) (book : EventBook 4),
      machine.threadTask = some 1 ∧ (machine.thread 1).pc = .waitAnyRet 0 ∧
      book.masks 1 = 3 ∧ book.consumed 1 = 2 ∧ machine.kernel.waitWord 1 = .ok 2 := by
  constructor
  · let check (machine : RtosMachine 4 Unit) : Bool :=
      machine.kernel.waitHead (.eventAny 0) = some 1 ∧ machine.kernel.waitLink 1 = none ∧
        machine.kernel.waitHead (.eventAll 0) = none ∧ machine.kernel.bits 0 = 0 ∧
        (machine.kernel.tcb 1).waitPtr = .word 3 ∧ machine.kernel.current = some 2
    obtain ⟨machine, reachable, checked⟩ := Machine.exists_of_check
      ([.launch] ++ Config.thenSwitch (.waitAny 0 3)) check
      (by decide +kernel : (Config.small 10 20 30).passes Unit _ _ _ check = true)
    obtain ⟨head, last, noAll, bits, word, isCurrent⟩ := of_decide_eq_true checked
    obtain ⟨spec, _, rep⟩ := exists_spec reachable
    have anyChain : Linked.Chain machine.kernel.waitLink (machine.kernel.waitHead (.eventAny 0)) [1] :=
      ⟨head, last⟩
    obtain ⟨after, preempt, _, sets, delivered⟩ :=
      (@event_bits_delivered_once 4 Unit (Config.small 10 20 30) 0).1 machine.kernel (fun _ => 3)
        [1] [] 6 ⟨spec.kernel, rep.kernel⟩ anyChain noAll (by simpa using word) (by simp [isCurrent])
    rw [bits] at delivered
    obtain ⟨_, value, _, _⟩ := delivered.takesAny [] (1, 2) [] (by decide)
    have granted : EventGroup.grants (fun _ => 3) [1] [] (0 ||| 6) = [((1 : Fin 4), (2 : Word))] := by
      decide
    have apart := delivered.apart
    have union := delivered.union
    rw [granted] at apart union
    refine ⟨machine.kernel, after, preempt, anyChain.follow_eq (by simp), sets, value,
      apart ((1 : Fin 4), (2 : Word)) (by simp), union⟩
  · let check (pair : RtosMachine 4 Unit × EventBook 4) : Bool :=
      pair.1.threadTask = some 1 ∧ (pair.1.thread 1).trig = false ∧
        (pair.1.thread 1).pc = .waitAnyRet 0 ∧ pair.2.masks 1 = 3 ∧ pair.2.consumed 1 = 2
    obtain ⟨pair, reachable, checked⟩ := Machine.exists_of_checkNoting
      ([.launch] ++ Config.thenSwitch (.waitAny 0 3) ++ Config.thenSwitch (.set 0 6)) check
      (by decide +kernel : Machine.passesNoting (Config.small 10 20 30) {}
        (EventGroup.note Kernel.waiters 0) _ check = true)
    obtain ⟨runs, untriggered, at_, mask, consumed⟩ := of_decide_eq_true checked
    obtain ⟨bits, _, value, _, _, _, delivered⟩ :=
      ((event_bits_delivered_once).2 pair.1 pair.2 reachable).2.2.2 1 runs untriggered at_
    rw [delivered, consumed] at value
    exact ⟨pair.1, pair.2, runs, at_, mask, consumed, value⟩

end RepMachine

end Kangaroos
