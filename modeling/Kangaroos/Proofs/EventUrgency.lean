import Kangaroos.Proofs.EventDelivery

/-!
# Contested events

Bits that two waiters compete for go to the one a scan comes to first. The lists of an event group
are LIFO, and unlike `wait_list_pop_highest` a scan never compares priorities, so the more urgent
waiter gets the bits exactly when the list has it in front.
-/

namespace Kangaroos

/-- A task state without its link is blocked when it is. -/
@[simp] theorem TaskState.isBlocked_forget {Link : Type} (state : TaskState Link) :
    state.forget.isBlocked = state.isBlocked := by
  cases state <;> rfl

theorem TaskState.not_blocked_of_ready {Link : Type} {state : TaskState Link}
    (ready : state.isReady = true) : state.isBlocked ≠ true := by
  cases state <;> simp_all [TaskState.isReady, TaskState.isBlocked]

variable {n : Nat} {V : Type} {kernel after : Rtos n V} {spec : Spec n V} {id : Nat}
  {rule : ScanRule} {masks : Fin n → Word} {any all waiters ahead between behind : List (Fin n)}
  {bits offered : Word} {woken blocked task : Fin n}

/-- The bits a setter has consumed for a task it has woken: its result, or its mask. -/
def ScanRule.consumed (rule : ScanRule) (masks : Fin n → Word) (after : Rtos n V) (task : Fin n) :
    Word :=
  match rule, (after.tcb task).waitPtr with
  | .any, .word taken => taken
  | .any, .stack _ => 0
  | .all, _ => masks task

namespace EventGroup

/-- Each of two waiters would be satisfied by the bits alone. One is ready, the other is still
blocked, and what was consumed for the first has bits the other waits for. -/
structure Contest (rule : ScanRule) (masks : Fin n → Word) (bits : Word) (after : Rtos n V)
    (woken blocked : Fin n) : Prop where
  satisfiesWoken : rule.taken bits (masks woken) ≠ none
  satisfiesBlocked : rule.taken bits (masks blocked) ≠ none
  wakes : (after.tcb woken).state.isReady = true
  leaves : (after.tcb blocked).state.isBlocked = true
  shared : rule.consumed masks after woken &&& masks blocked ≠ 0

/-- No waiter loses a contest to a less urgent one. Bits a scan consumes once it has passed a
waiter are not why that waiter is blocked, so who wins a contest is the first of the two. -/
def Urgent (rule : ScanRule) (masks : Fin n → Word) (waiters : List (Fin n)) (bits : Word)
    (kernel after : Rtos n V) : Prop :=
  ∀ ahead woken between blocked behind, waiters = ahead ++ woken :: (between ++ blocked :: behind) →
    Contest rule masks bits after woken blocked →
    (kernel.tcb woken).priority ≤ (kernel.tcb blocked).priority

/-- The bits some tasks wait for. -/
def union (masks : Fin n → Word) (tasks : List (Fin n)) : Word :=
  tasks.foldr (fun task bits => masks task ||| bits) 0

/-- The bits without the masks of those tasks that, in turn, find all of theirs. -/
def unclaimed (masks : Fin n → Word) : List (Fin n) → Word → Word
  | [], bits => bits
  | task :: rest, bits =>
    if bits &&& masks task = masks task then unclaimed masks rest (bits &&& ~~~masks task)
    else unclaimed masks rest bits

/-- Of two tasks in `wait_any`, the one in front is no less urgent when they compete for a bit
nobody before them waits for, and the tasks up to the second wait for all its bits. -/
def AnyByUrgency (masks : Fin n → Word) (any : List (Fin n)) (bits : Word) (kernel : Rtos n V) :
    Prop :=
  ∀ ahead woken between blocked behind, any = ahead ++ woken :: (between ++ blocked :: behind) →
    bits &&& ~~~union masks ahead &&& masks woken &&& masks blocked ≠ 0 →
    bits &&& ~~~union masks (ahead ++ woken :: between) &&& masks blocked = 0 →
    (kernel.tcb woken).priority ≤ (kernel.tcb blocked).priority

/-- Of two tasks in `wait_all` with masks that overlap, the one in front is no less urgent when
it finds its mask among the bits unclaimed before it, and the bits have the mask of the other. -/
def AllByUrgency (masks : Fin n → Word) (any all : List (Fin n)) (bits : Word)
    (kernel : Rtos n V) : Prop :=
  ∀ ahead woken between blocked behind, all = ahead ++ woken :: (between ++ blocked :: behind) →
    Within (masks woken) (unclaimed masks ahead (bits &&& ~~~union masks any)) →
    Within (masks blocked) bits → masks woken &&& masks blocked ≠ 0 →
    (kernel.tcb woken).priority ≤ (kernel.tcb blocked).priority

theorem holds_union {tasks : List (Fin n)} {bit : Nat} :
    (union masks tasks).Holds bit ↔ ∃ task ∈ tasks, (masks task).Holds bit := by
  induction tasks with
  | nil => simp [union, Word.Holds]
  | cons task rest ih =>
      rw [union, List.foldr_cons, Word.holds_or, List.exists_mem_cons_iff]
      exact or_congr Iff.rfl ih

end EventGroup

namespace ScanRule

/-- A scan of `wait_any` leaves the bits nobody waits for. -/
theorem any_left (waiters : List (Fin n)) (bits : Word) :
    (serveAll (ScanRule.any.serve masks) waiters bits).1 =
      bits &&& ~~~EventGroup.union masks waiters := by
  induction waiters generalizing bits with
  | nil =>
      refine Word.eq_of_holds fun bit => ?_
      rw [Word.holds_clear, EventGroup.holds_union]
      simp [serveAll]
  | cons task rest ih =>
      refine Word.eq_of_holds fun bit => ?_
      by_cases matched : bits &&& masks task = 0
      · -- the task stays: none of its bits is there to be cleared
        have apart := Word.and_eq_zero_iff.mp matched bit
        simp only [serveAll, serve, taken, matched, ne_eq, not_true_eq_false, if_false,
          Option.map_none]
        rw [ih, Word.holds_clear, Word.holds_clear, EventGroup.holds_union,
          EventGroup.holds_union, List.exists_mem_cons_iff]
        grind
      · simp only [serveAll, serve, taken, matched, ne_eq, not_false_eq_true, if_true,
          Option.map_some]
        rw [ih, Word.holds_clear, Word.holds_clear, Word.holds_clear, Word.holds_and,
          EventGroup.holds_union, EventGroup.holds_union, List.exists_mem_cons_iff]
        grind

/-- A scan of `wait_all` leaves what is unclaimed. -/
theorem all_left (waiters : List (Fin n)) (bits : Word) :
    (serveAll (ScanRule.all.serve masks) waiters bits).1 =
      EventGroup.unclaimed masks waiters bits := by
  induction waiters generalizing bits with
  | nil => rfl
  | cons task rest ih =>
      unfold EventGroup.unclaimed
      split
      · rename_i found
        simp only [serveAll, serve, taken, found, if_true, Option.map_some]
        exact ih _
      · rename_i missing
        simp only [serveAll, serve, taken, missing, if_false, Option.map_none]
        exact ih bits

theorem taken_any_eq_some {mask share : Word} :
    ScanRule.any.taken bits mask = some share ↔ share = bits &&& mask ∧ share ≠ 0 := by
  refine ⟨taken_any, ?_⟩
  rintro ⟨rfl, matched⟩
  simp only [taken, matched, ne_eq, not_false_eq_true, if_true]

theorem taken_all_eq_some {mask share : Word} :
    ScanRule.all.taken bits mask = some share ↔ share = mask ∧ Within mask bits := by
  refine ⟨taken_all, ?_⟩
  rintro ⟨rfl, found⟩
  rw [Within] at found
  simp only [taken, found, if_true]

theorem serve_all_of_within (found : Within (masks task) bits) :
    ScanRule.all.serve masks task bits = some (bits &&& ~~~masks task) := by
  rw [serve, taken_all_eq_some.mpr ⟨rfl, found⟩, Option.map_some]

/-- What is left where a scan comes to a waiter. -/
def leftBefore (rule : ScanRule) (masks : Fin n → Word) (ahead : List (Fin n)) (offered : Word) :
    Word :=
  (serveAll (rule.serve masks) ahead offered).1

/-- What a scan has done with the waiters of its list: they are ready with their share, or blocked
if there is none. -/
structure Served (rule : ScanRule) (masks : Fin n → Word) (waiters : List (Fin n)) (offered : Word)
    (after : Rtos n V) : Prop where
  woken : ∀ task share, (task, share) ∈ rule.grants masks waiters offered →
    (after.tcb task).state.isReady = true ∧ rule.consumed masks after task = share
  left : ∀ task ∈ waiters, task ∉ (rule.grants masks waiters offered).map Prod.fst →
    (after.tcb task).state.isBlocked = true

namespace Served

/-- A waiter is woken with what it takes of the bits left where the scan comes to it. -/
theorem wakes_iff (served : Served rule masks (ahead ++ task :: behind) offered after)
    (distinct : (ahead ++ task :: behind).Nodup) (share : Word) :
    (after.tcb task).state.isReady = true ∧ rule.consumed masks after task = share ↔
      rule.taken (rule.leftBefore masks ahead offered) (masks task) = some share := by
  have granted : (task, share) ∈ rule.grants masks (ahead ++ task :: behind) offered ↔
      rule.taken (rule.leftBefore masks ahead offered) (masks task) = some share :=
    mem_shareOut_iff distinct
  rw [← granted]
  refine ⟨fun woken => ?_, served.woken task share⟩
  obtain ⟨ready, consumed⟩ := woken
  by_cases among : task ∈ (rule.grants masks (ahead ++ task :: behind) offered).map Prod.fst
  · obtain ⟨grant, member, rfl⟩ := List.mem_map.mp among
    obtain ⟨_, isShare⟩ := served.woken grant.1 grant.2 member
    rw [← consumed, isShare]
    exact member
  · exact absurd (served.left task (by simp) among) (TaskState.not_blocked_of_ready ready)

/-- It stays when these bits do not satisfy it. -/
theorem leaves_iff (served : Served rule masks (ahead ++ task :: behind) offered after)
    (distinct : (ahead ++ task :: behind).Nodup) :
    (after.tcb task).state.isBlocked = true ↔
      rule.taken (rule.leftBefore masks ahead offered) (masks task) = none := by
  cases taken : rule.taken (rule.leftBefore masks ahead offered) (masks task) with
  | some share =>
      obtain ⟨ready, _⟩ := (served.wakes_iff distinct share).mpr taken
      exact iff_of_false (TaskState.not_blocked_of_ready ready) (by simp)
  | none =>
      refine iff_of_true (served.left task (by simp) fun among => ?_) rfl
      obtain ⟨grant, member, rfl⟩ := List.mem_map.mp among
      have share := (served.wakes_iff distinct grant.2).mp (served.woken grant.1 grant.2 member)
      rw [taken] at share
      cases share

/-- A contest, in terms of the bits left where the scan comes to the two. -/
theorem contest_iff
    (served : Served rule masks (ahead ++ woken :: (between ++ blocked :: behind)) offered after)
    (distinct : (ahead ++ woken :: (between ++ blocked :: behind)).Nodup) :
    EventGroup.Contest rule masks bits after woken blocked ↔
      rule.taken bits (masks woken) ≠ none ∧ rule.taken bits (masks blocked) ≠ none ∧
        (∃ share, rule.taken (rule.leftBefore masks ahead offered) (masks woken) = some share ∧
          share &&& masks blocked ≠ 0) ∧
        rule.taken (rule.leftBefore masks (ahead ++ woken :: between) offered) (masks blocked) =
          none := by
  have regroup : ahead ++ woken :: (between ++ blocked :: behind) =
      (ahead ++ woken :: between) ++ blocked :: behind := by simp
  have wakes := served.wakes_iff distinct
  rw [regroup] at served distinct
  have leaves := served.leaves_iff distinct
  constructor
  · rintro ⟨satisfiesWoken, satisfiesBlocked, ready, stays, shared⟩
    exact ⟨satisfiesWoken, satisfiesBlocked, ⟨_, (wakes _).mp ⟨ready, rfl⟩, shared⟩,
      leaves.mp stays⟩
  · rintro ⟨satisfiesWoken, satisfiesBlocked, ⟨share, taken, shared⟩, refused⟩
    obtain ⟨ready, rfl⟩ := (wakes share).mpr taken
    exact ⟨satisfiesWoken, satisfiesBlocked, ready, leaves.mpr refused, shared⟩

/-- Tasks in `wait_any` compete for a bit that is left for the first, while none is left for the
second. -/
theorem contest_any_iff
    (served : Served .any masks (ahead ++ woken :: (between ++ blocked :: behind)) bits after)
    (distinct : (ahead ++ woken :: (between ++ blocked :: behind)).Nodup) :
    EventGroup.Contest .any masks bits after woken blocked ↔
      bits &&& ~~~EventGroup.union masks ahead &&& masks woken &&& masks blocked ≠ 0 ∧
        bits &&& ~~~EventGroup.union masks (ahead ++ woken :: between) &&& masks blocked = 0 := by
  rw [served.contest_iff distinct, leftBefore, leftBefore, any_left, any_left]
  simp only [ne_eq, taken_any_eq_none, taken_any_eq_some]
  constructor
  · rintro ⟨_, _, ⟨share, ⟨rfl, _⟩, shared⟩, none⟩
    exact ⟨shared, none⟩
  · rintro ⟨shared, none⟩
    obtain ⟨bit, held, wanted⟩ := Word.and_ne_zero_iff.mp shared
    obtain ⟨unclaimed, asked⟩ := Word.holds_and.mp held
    have there := (Word.holds_clear.mp unclaimed).1
    exact ⟨Word.and_ne_zero_iff.mpr ⟨bit, there, asked⟩, Word.and_ne_zero_iff.mpr ⟨bit, there, wanted⟩,
      ⟨_, ⟨rfl, Word.and_ne_zero_iff.mpr ⟨bit, unclaimed, asked⟩⟩, shared⟩, none⟩

/-- Tasks in `wait_all` compete when the first finds its mask, which overlaps the mask of the
second. -/
theorem contest_all_iff
    (served : Served .all masks (ahead ++ woken :: (between ++ blocked :: behind)) offered after)
    (distinct : (ahead ++ woken :: (between ++ blocked :: behind)).Nodup)
    (fewer : Within offered bits) :
    EventGroup.Contest .all masks bits after woken blocked ↔
      Within (masks woken) (EventGroup.unclaimed masks ahead offered) ∧
        Within (masks blocked) bits ∧ masks woken &&& masks blocked ≠ 0 := by
  rw [served.contest_iff distinct, leftBefore, leftBefore]
  simp only [ne_eq, taken_all_eq_none, taken_all_eq_some, not_not]
  constructor
  · rintro ⟨_, satisfies, ⟨share, ⟨rfl, found⟩, shared⟩, _⟩
    rw [all_left] at found
    exact ⟨found, satisfies, shared⟩
  · rintro ⟨found, satisfies, shared⟩
    rw [← all_left] at found
    have within : Within (serveAll (ScanRule.all.serve masks) ahead offered).1 bits :=
      ((ScanRule.all.consuming masks).serveAll_le ahead offered).trans fewer
    refine ⟨found.trans within, satisfies, ⟨_, ⟨rfl, found⟩, shared⟩, fun refound => ?_⟩
    -- the shared bit is gone when the scan comes to the second
    obtain ⟨bit, taken, wanted⟩ := Word.and_ne_zero_iff.mp shared
    rw [serveAll_append, serveAll_cons_of_some (serve_all_of_within found)] at refound
    have remains : Within (masks blocked)
        ((serveAll (ScanRule.all.serve masks) ahead offered).1 &&& ~~~masks woken) :=
      Within.trans refound ((ScanRule.all.consuming masks).serveAll_le between _)
    exact (Word.holds_clear.mp (Within.iff_holds.mp remains bit wanted)).2 taken

end Served

end ScanRule

namespace EventGroup

/-- A setter has served both lists. -/
theorem Delivered.served (delivered : Delivered id masks any all bits kernel after)
    (waits : ∀ task ∈ any ++ all, (kernel.tcb task).state.isBlocked = true)
    (apart : ∀ task ∈ any, task ∉ all) :
    ScanRule.Served .any masks any bits after ∧
      ScanRule.Served .all masks all (bits &&& ~~~EventGroup.union masks any) after := by
  rw [← ScanRule.any_left]
  have stays : ∀ task ∈ any ++ all, task ∉ (grants masks any all bits).map Prod.fst →
      (after.tcb task).state.isBlocked = true := by
    intro task member refused
    have same := congrArg (fun tcb => tcb.state.isBlocked) (delivered.kept task refused)
    simp only [Tcb.forget, TaskState.isBlocked_forget] at same
    rw [same]
    exact waits task member
  have granted : ∀ task, task ∈ (grants masks any all bits).map Prod.fst →
      task ∈ (ScanRule.any.grants masks any bits).map Prod.fst ∨
        task ∈ (ScanRule.all.grants masks all (leftByAny masks any bits)).map Prod.fst := by
    intro task member
    rwa [grants, List.map_append, List.mem_append] at member
  constructor
  · constructor
    case woken =>
      intro task share member
      obtain ⟨earlier, later, split⟩ := List.append_of_mem member
      obtain ⟨_, value, _⟩ := delivered.takesAny earlier (task, share) later split
      refine ⟨delivered.woken (task, share) (List.mem_append_left _ member), ?_⟩
      simp only [ScanRule.consumed, value]
    case left =>
      intro task member refused
      refine stays task (List.mem_append_left _ member) fun among => ?_
      rcases granted task among with byAny | byAll
      · exact refused byAny
      · exact apart task member (Spec.mem_of_grants byAll)
  · constructor
    case woken =>
      intro task share member
      obtain ⟨_, isMask⟩ := delivered.takesAll (task, share) member
      exact ⟨delivered.woken (task, share) (List.mem_append_right _ member), isMask.symm⟩
    case left =>
      intro task member refused
      refine stays task (List.mem_append_right _ member) fun among => ?_
      rcases granted task among with byAny | byAll
      · exact apart task (Spec.mem_of_grants byAny) member
      · exact refused byAll

theorem urgent_any_iff (served : ScanRule.Served .any masks any bits after) (distinct : any.Nodup) :
    Urgent .any masks any bits kernel after ↔ AnyByUrgency masks any bits kernel := by
  constructor
  · intro urgent ahead woken between blocked behind split shared gone
    subst split
    exact urgent _ _ _ _ _ rfl ((served.contest_any_iff distinct).mpr ⟨shared, gone⟩)
  · intro byUrgency ahead woken between blocked behind split contest
    subst split
    obtain ⟨shared, gone⟩ := (served.contest_any_iff distinct).mp contest
    exact byUrgency _ _ _ _ _ rfl shared gone

theorem urgent_all_iff
    (served : ScanRule.Served .all masks all (bits &&& ~~~union masks any) after)
    (distinct : all.Nodup) :
    Urgent .all masks all bits kernel after ↔ AllByUrgency masks any all bits kernel := by
  have fewer : Within (bits &&& ~~~union masks any) bits := .and _ _
  constructor
  · intro urgent ahead woken between blocked behind split found satisfies shared
    subst split
    exact urgent _ _ _ _ _ rfl
      ((served.contest_all_iff distinct fewer).mpr ⟨found, satisfies, shared⟩)
  · intro byUrgency ahead woken between blocked behind split contest
    subst split
    obtain ⟨found, satisfies, shared⟩ := (served.contest_all_iff distinct fewer).mp contest
    exact byUrgency _ _ _ _ _ rfl found satisfies shared

end EventGroup

/-- Waiters in the order of their urgency are no exception. -/
theorem EventGroup.byUrgency_of_sorted (sorted : waiters.Pairwise fun task other =>
    (kernel.tcb task).priority ≤ (kernel.tcb other).priority) :
    AnyByUrgency masks waiters bits kernel ∧
      ∀ any, AllByUrgency masks any waiters bits kernel := by
  have inFront : ∀ ahead woken between blocked behind,
      waiters = ahead ++ woken :: (between ++ blocked :: behind) →
      (kernel.tcb woken).priority ≤ (kernel.tcb blocked).priority := by
    rintro ahead woken between blocked behind rfl
    obtain ⟨_, later, _⟩ := List.pairwise_append.mp sorted
    exact List.rel_of_pairwise_cons later (by simp)
  constructor
  · intro ahead woken between blocked behind split _ _
    exact inFront _ _ _ _ _ split
  · intro any ahead woken between blocked behind split _ _ _
    exact inFront _ _ _ _ _ split

/-- A setter gives contested bits to the most urgent waiters exactly where those are in front. -/
theorem Rep.urgent_iff (rep : Rep none kernel spec)
    (delivered : EventGroup.Delivered id masks (spec.waitHead (.eventAny id))
      (spec.waitHead (.eventAll id)) bits kernel after) :
    (EventGroup.Urgent .any masks (spec.waitHead (.eventAny id)) bits kernel after ↔
      EventGroup.AnyByUrgency masks (spec.waitHead (.eventAny id)) bits kernel) ∧
    (EventGroup.Urgent .all masks (spec.waitHead (.eventAll id)) bits kernel after ↔
      EventGroup.AllByUrgency masks (spec.waitHead (.eventAny id)) (spec.waitHead (.eventAll id))
        bits kernel) := by
  have waits : ∀ task ∈ spec.waitHead (.eventAny id) ++ spec.waitHead (.eventAll id),
      (kernel.tcb task).state.isBlocked = true := by
    intro task member
    rw [rep.isBlocked]
    rcases List.mem_append.mp member with inAny | inAll
    · rw [rep.wf.mem.mp inAny]
      rfl
    · rw [rep.wf.mem.mp inAll]
      rfl
  obtain ⟨servedAny, servedAll⟩ := delivered.served waits fun task => rep.wf.apart_event
  exact ⟨EventGroup.urgent_any_iff servedAny (rep.wf.nodup _),
    EventGroup.urgent_all_iff servedAll (rep.wf.nodup _)⟩

namespace RepMachine

variable {config : Config n}

/-- Contested bits go to the more urgent waiter only where the list has it in front. Whoever waits
on the lists of a group, both setters end in the same state, in which no waiter has lost a contest
to a less urgent one if and only if no two waiters that compete for the bits are in the wrong order;
so it is with the waiters of every run. -/
theorem contests_won_iff_in_front :
    (∀ (kernel : Rtos n V) (masks : Fin n → Word) (any all : List (Fin n)) (mask : Word),
      (∃ spec, Rep none kernel spec) →
      Linked.Chain kernel.waitLink (kernel.waitHead (.eventAny id)) any →
      Linked.Chain kernel.waitLink (kernel.waitHead (.eventAll id)) all →
      (∀ task ∈ any ++ all, (kernel.tcb task).waitPtr = .word (masks task)) →
      (kernel.current = none → any ++ all = []) →
      ∃ after preempt, EventGroup.setFromIsr kernel id mask = .ok (after, preempt) ∧
        EventGroup.set kernel id mask = .ok (after, after.bits id, preempt) ∧
        (EventGroup.Urgent .any masks any (kernel.bits id ||| mask) kernel after ↔
          EventGroup.AnyByUrgency masks any (kernel.bits id ||| mask) kernel) ∧
        (EventGroup.Urgent .all masks all (kernel.bits id ||| mask) kernel after ↔
          EventGroup.AllByUrgency masks any all (kernel.bits id ||| mask) kernel)) ∧
    ∀ (machine : RtosMachine n V) (book : EventBook n),
      (config.withBooks V (TcbPtr n) (TcbPtr n) {}
        (EventGroup.note Kernel.waiters id)).Reachable (machine, book) →
      ∀ mask, ∃ after preempt,
        EventGroup.setFromIsr machine.kernel id mask = .ok (after, preempt) ∧
        EventGroup.set machine.kernel id mask = .ok (after, after.bits id, preempt) ∧
        (EventGroup.Urgent .any book.masks (machine.kernel.waiters (.eventAny id))
            (machine.kernel.bits id ||| mask) machine.kernel after ↔
          EventGroup.AnyByUrgency book.masks (machine.kernel.waiters (.eventAny id))
            (machine.kernel.bits id ||| mask) machine.kernel) ∧
        (EventGroup.Urgent .all book.masks (machine.kernel.waiters (.eventAll id))
            (machine.kernel.bits id ||| mask) machine.kernel after ↔
          EventGroup.AllByUrgency book.masks (machine.kernel.waiters (.eventAny id))
            (machine.kernel.waiters (.eventAll id)) (machine.kernel.bits id ||| mask)
            machine.kernel) := by
  constructor
  · intro kernel masks any all mask represents anyChain allChain words launched
    obtain ⟨after, preempt, setsFromIsr, sets, delivered⟩ :=
      set_delivers masks mask represents anyChain allChain words launched
    obtain ⟨spec, rep⟩ := represents
    obtain rfl := anyChain.unique (rep.chain (.eventAny id))
    obtain rfl := allChain.unique (rep.chain (.eventAll id))
    exact ⟨after, preempt, setsFromIsr, sets, rep.urgent_iff delivered⟩
  · intro machine book reachable mask
    obtain ⟨spec, rep, core, unserved, _⟩ := exists_spec_book reachable
    rw [rep.kernel.waiters_eq, rep.kernel.waiters_eq]
    obtain ⟨after, preempt, setsFromIsr, sets, delivered⟩ := rep.kernel.set_delivers
      (fun rule task member => core.launched_of_mem member)
      (fun rule task member => (unserved rule task member).1) mask
    exact ⟨after, preempt, setsFromIsr, sets, rep.kernel.urgent_iff delivered⟩

/-- Task 2 waits while the more urgent task 1 sleeps, so task 1, which waits last, is in front. -/
theorem contests_won_iff_in_front_urgent :
    ∃ (machine : RtosMachine 4 Unit) (book : EventBook 4) (after : Rtos 4 Unit) (preempt : Bool),
      machine.kernel.waiters (.eventAny 0) = [1, 2] ∧ book.masks 1 = 1 ∧ book.masks 2 = 1 ∧
      EventGroup.set machine.kernel 0 1 = .ok (after, after.bits 0, preempt) ∧
      EventGroup.Urgent .any book.masks [1, 2] (machine.kernel.bits 0 ||| 1) machine.kernel
        after := by
  let check (pair : RtosMachine 4 Unit × EventBook 4) : Bool :=
    pair.1.kernel.waiters (.eventAny 0) = [1, 2] ∧ pair.2.masks 1 = 1 ∧ pair.2.masks 2 = 1 ∧
      (pair.1.kernel.tcb 1).priority = 10 ∧ (pair.1.kernel.tcb 2).priority = 20
  obtain ⟨pair, reachable, checked⟩ := Machine.exists_of_checkNoting
    ([.launch, .call (.sleep 1)] ++ Config.thenSwitch (.sleepUntil 1) ++
      Config.thenSwitch (.waitAny 0 1) ++ [.tick] ++ List.replicate 10 (.pendsv 0) ++
      Config.thenSwitch (.waitAny 0 1)) check
    (by decide +kernel : Machine.passesNoting (Config.small 10 20 30) {}
      (EventGroup.note Kernel.waiters 0) _ check = true)
  obtain ⟨waiters, first, second, urgent, later⟩ := of_decide_eq_true checked
  obtain ⟨after, preempt, _, sets, anyIff, _⟩ :=
    (@contests_won_iff_in_front 4 Unit 0 (Config.small 10 20 30)).2 pair.1 pair.2 reachable 1
  rw [waiters] at anyIff
  have sorted : [1, 2].Pairwise fun task other =>
      (pair.1.kernel.tcb task).priority ≤ (pair.1.kernel.tcb other).priority := by
    simp [urgent, later]
  exact ⟨pair.1, pair.2, after, preempt, waiters, first, second, sets,
    anyIff.mpr (EventGroup.byUrgency_of_sorted sorted).1⟩

/-- Tasks 1 and 2 wait for one bit, the more urgent task 1 first: `set` wakes task 2. -/
theorem not_contests_won_by_urgent :
    ¬∀ (machine : RtosMachine 4 Unit) (book : EventBook 4) (mask : Word) (after : Rtos 4 Unit)
      (preempt : Bool),
      ((Config.small 10 20 30).withBooks Unit (TcbPtr 4) (TcbPtr 4) {}
        (EventGroup.note Kernel.waiters 0)).Reachable (machine, book) →
      EventGroup.set machine.kernel 0 mask = .ok (after, after.bits 0, preempt) →
      EventGroup.Urgent .any book.masks (machine.kernel.waiters (.eventAny 0))
        (machine.kernel.bits 0 ||| mask) machine.kernel after := by
  intro always
  let check (pair : RtosMachine 4 Unit × EventBook 4) : Bool :=
    pair.1.kernel.waiters (.eventAny 0) = [2, 1] ∧ pair.1.kernel.bits 0 = 0 ∧
      pair.2.masks 1 = 1 ∧ pair.2.masks 2 = 1 ∧
      (pair.1.kernel.tcb 1).priority = 10 ∧ (pair.1.kernel.tcb 2).priority = 20
  obtain ⟨pair, reachable, checked⟩ := Machine.exists_of_checkNoting
    ([.launch] ++ Config.thenSwitch (.waitAny 0 1) ++ Config.thenSwitch (.waitAny 0 1)) check
    (by decide +kernel : Machine.passesNoting (Config.small 10 20 30) {}
      (EventGroup.note Kernel.waiters 0) _ check = true)
  obtain ⟨waiters, bits, first, second, urgent, later⟩ := of_decide_eq_true checked
  obtain ⟨spec, rep, core, unserved, _⟩ := exists_spec_book reachable
  obtain ⟨after, preempt, _, sets, delivered⟩ := rep.kernel.set_delivers
    (fun rule task member => core.launched_of_mem member)
    (fun rule task member => (unserved rule task member).1) 1
  have inOrder := (rep.kernel.urgent_iff delivered).1.mp
    (rep.kernel.waiters_eq (.eventAny 0) ▸ always pair.1 pair.2 1 after preempt reachable sets)
  rw [← rep.kernel.waiters_eq, waiters, bits] at inOrder
  have wrong := inOrder [] 2 [] 1 [] rfl (by simp [EventGroup.union, first, second])
    (by simp [EventGroup.union, first, second])
  rw [urgent, later] at wrong
  exact absurd wrong (by decide)

end RepMachine

end Kangaroos
