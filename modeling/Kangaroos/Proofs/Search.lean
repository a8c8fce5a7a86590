import Kangaroos.Abstract.Moves
import Kangaroos.Proofs.FindNext
import Kangaroos.Proofs.PriorityInheritance

/-!
# The search of `find_next`, step by step

The two loops of `find_next` visit `ALL_TASKS` as a ring: one sweep that begins behind
`CURRENT` and ends with it. Interrupts may arrive between two visits, but only PendSV moves
the search on, and no interrupt changes `CURRENT`, the list or a priority.
-/

namespace Kangaroos

namespace Kernel

variable {n : Nat} {V Link Head : Type} {kernel : Kernel n V Link Head}

/-- The nodes a search loop visits from a node on. -/
def visits (link : Fin n → TcbPtr n) (stop : TcbPtr n) : Nat → TcbPtr n → List (Fin n)
  | _, none => []
  | 0, some _ => []
  | fuel + 1, some task =>
    if some task = stop then [] else task :: visits link stop fuel (link task)

theorem visits_eq {link : Fin n → TcbPtr n} {stop next : TcbPtr n} {tasks : List (Fin n)}
    {fuel : Nat} (chain : Linked.Chain link next tasks) (enough : tasks.length ≤ fuel) :
    visits link stop fuel next = before stop tasks := by
  induction chain, enough using Linked.Chain.walk with
  | done fuel => simp [visits, before]
  | visit fuel task rest _ _ _ _ ih =>
      rw [visits, ih]
      by_cases atStop : some task = stop
      · simp [before, atStop]
      · simp [before, atStop]

/-- The search remembers the priority of its best task. -/
def Scored (kernel : Kernel n V Link Head) (best : TcbPtr n × U8) : Prop :=
  ∀ task, best.1 = some task → best.2 = (kernel.tcb task).priority

theorem Scored.consider {best : TcbPtr n × U8} (scored : kernel.Scored best) (task : Fin n) :
    kernel.Scored (kernel.consider task best) := by
  unfold Kernel.consider
  split
  · intro other chosen
    obtain rfl : task = other := Option.some.inj chosen
    rfl
  · exact scored

end Kernel

namespace Handler

variable {n : Nat}

/-- Whether the search of `find_next` has started. -/
def searching : Handler n → Bool
  | .inactive | .entered => false
  | _ => true

/-- The best task so far. -/
def best : Handler n → TcbPtr n
  | .pass1 _ _ best | .pass2 _ _ best => best.1
  | .selected task | .switched task => some task
  | _ => none

/-- The best task so far and its priority, while one of the two loops runs. -/
def pass : Handler n → Option (TcbPtr n × U8)
  | .pass1 _ _ best | .pass2 _ _ best => some best
  | _ => none

/-- A loop that runs has its best task. -/
theorem best_of_pass {handler : Handler n} {score : TcbPtr n × U8} (inPass : handler.pass = some score) :
    handler.searching = true ∧ handler.best = score.1 := by
  cases handler with
  | pass1 start next best =>
      obtain rfl : best = score := Option.some.inj inPass
      exact ⟨rfl, rfl⟩
  | pass2 start next best =>
      obtain rfl : best = score := Option.some.inj inPass
      exact ⟨rfl, rfl⟩
  | _ => cases inPass

end Handler

namespace Machine

variable {n : Nat} {V Link Head : Type}

/-- The tasks the search has yet to visit. -/
def toVisit (machine : Machine n V Link Head) : List (Fin n) :=
  let kernel := machine.kernel
  match machine.handler with
  | .pass1 start next _ =>
    Kernel.visits kernel.allLink none n next ++ Kernel.visits kernel.allLink start n kernel.allTasks
  | .pass2 start next _ => Kernel.visits kernel.allLink start n next
  | _ => []

/-- The search remembers the priority of its best task. -/
def Scored (machine : Machine n V Link Head) : Prop :=
  match machine.handler with
  | .pass1 _ _ best | .pass2 _ _ best => machine.kernel.Scored best
  | _ => True

theorem scored_iff {machine : Machine n V Link Head} :
    machine.Scored ↔ ∀ best, machine.handler.pass = some best → machine.kernel.Scored best := by
  unfold Machine.Scored
  cases machine.handler with
  | pass1 start next best => simp [Handler.pass]
  | pass2 start next best => simp [Handler.pass]
  | _ => simp [Handler.pass]

variable [ops : WaitOps n V Link Head]

/-- Only PendSV moves its handler on. -/
theorem Step.handler_eq {idle : Fin n} {machine next : Machine n V Link Head} {action : Action V}
    (step : Step idle machine action next) (other : ∀ sp, action ≠ .pendsv sp) :
    next.handler = machine.handler := by
  cases step with
  | pendsv switches => exact absurd rfl (other _)
  | ret isTask triggered returns => cases returns <;> rfl
  | _ => rfl

end Machine

namespace SpecMachine

variable {n : Nat} {V : Type} {config : Config n} {machine next : SpecMachine n V}

/-- The tasks left to visit depend on the handler and on `ALL_TASKS` only. -/
theorem toVisit_congr (handler : next.handler = machine.handler)
    (links : next.kernel.allLink = machine.kernel.allLink)
    (allTasks : next.kernel.allTasks = machine.kernel.allTasks) :
    next.toVisit = machine.toVisit := by
  simp only [Machine.toVisit, handler, links, allTasks]

/-- Priorities carry the scores over. -/
theorem scored_congr (scored : machine.Scored) (handler : next.handler = machine.handler)
    (priority : ∀ task, (next.kernel.tcb task).priority = (machine.kernel.tcb task).priority) :
    next.Scored := by
  unfold Machine.Scored Kernel.Scored at scored ⊢
  simp only [handler, priority]
  exact scored

theorem Core.toVisit_pass1 (core : Core config machine) {start node : TcbPtr n}
    {best : TcbPtr n × U8} {rest : List (Fin n)}
    (searching : machine.handler = .pass1 start node best) (suffix : rest <:+ config.order)
    (chain : Linked.Chain machine.kernel.allLink node rest) :
    machine.toVisit = rest ++ Kernel.before start config.order := by
  have enough : config.order.length ≤ n := by simpa using config.order_nodup.length_le_card
  simp only [Machine.toVisit, searching, Kernel.visits_eq core.chain enough,
    Kernel.visits_eq chain (suffix.length_le.trans enough), Kernel.before_none]

theorem toVisit_pass2 {start node : TcbPtr n} {best : TcbPtr n × U8} {rest : List (Fin n)}
    (searching : machine.handler = .pass2 start node best) (suffix : rest <:+ config.order)
    (chain : Linked.Chain machine.kernel.allLink node rest) :
    machine.toVisit = Kernel.before start rest := by
  have enough : config.order.length ≤ n := by simpa using config.order_nodup.length_le_card
  simp only [Machine.toVisit, searching, Kernel.visits_eq chain (suffix.length_le.trans enough)]

/-- No step changes `ALL_TASKS`. -/
theorem Moves.allTasks_same {action : Action V} (moves : Moves machine action next) :
    next.kernel.allLink = machine.kernel.allLink ∧
      next.kernel.allTasks = machine.kernel.allTasks := by
  cases moves with
  | scheduled scheduled =>
      obtain ⟨_, _, same⟩ := scheduled.moved.statics
      refine ⟨?_, by rw [same]⟩
      ext task : 1
      exact (scheduled.moved.fixed task).2.2.2.1
  | isr safe returned contract slots =>
      obtain ⟨flag, effect, _⟩ := contract.effect
      refine ⟨?_, effect.allTasks⟩
      ext task : 1
      exact (effect.fixed task).2.2
  | call isCurrent runs may returned contract =>
      obtain ⟨flag, effect, _⟩ := contract.effect
      refine ⟨?_, effect.allTasks⟩
      ext task : 1
      exact (effect.fixed task).2.2
  | ret runs returns => cases returns <;> exact ⟨rfl, rfl⟩
  | isrRet assigned => exact ⟨rfl, rfl⟩
  | dropBox runs user live inBounds => exact ⟨rfl, rfl⟩
  | writeBox live stored => exact ⟨rfl, rfl⟩
  | forgetGuard runs user held => exact ⟨rfl, rfl⟩

/-- What may happen while PendSV is active and does not move leaves the search alone. -/
theorem Core.search_waits (core : Core config machine) {action : Action V}
    (step : Machine.Step config.idle machine action next) (other : ∀ sp, action ≠ .pendsv sp)
    (active : machine.handler ≠ .inactive) :
    next.handler = machine.handler ∧ next.kernel.current = machine.kernel.current ∧
      next.toVisit = machine.toVisit ∧
      ∀ task, (next.kernel.tcb task).priority = (machine.kernel.tcb task).priority := by
  have handler := step.handler_eq other
  have moves := core.moves step
  obtain ⟨links, allTasks⟩ := moves.allTasks_same
  have idleOnly : ∀ task, machine.threadTask ≠ some task := fun task isTask =>
    active (Machine.threadTask_eq_some.mp isTask).1
  have priority : ∀ task, (next.kernel.tcb task).priority = (machine.kernel.tcb task).priority := by
    refine (moves.mutexes_same ?_).2.2
    rintro call rfl
    cases step with
    | call isTask notIdle triggered may returned => exact idleOnly _ isTask
  refine ⟨handler, ?_, toVisit_congr handler links allTasks, priority⟩
  cases step with
  | launch fresh returned => exact absurd (core.fresh fresh).1 active
  | tick returned => exact ((Spec.tick_spec core.chain).of_ok returned).current
  | pendsv switches => exact absurd rfl (other _)
  | isr safe returned slots =>
      obtain ⟨flag, effect, _⟩ := (core.isr_contract safe returned).effect
      exact effect.current
  | isrRet assigned => rfl
  | call isTask notIdle triggered may returned => exact absurd isTask (idleOnly _)
  | trigger isTask untriggered => exact absurd isTask (idleOnly _)
  | ret isTask triggered returns => exact absurd isTask (idleOnly _)
  | dropBox isTask notIdle triggered user live returned => exact absurd isTask (idleOnly _)
  | writeBox isTask notIdle triggered user live returned => exact absurd isTask (idleOnly _)
  | forgetGuard isTask notIdle triggered user held => exact absurd isTask (idleOnly _)

/-- The search begins with a whole sweep behind `CURRENT` before it. -/
theorem Core.search_begins (core : Core config machine) {current : Fin n} {best : TcbPtr n × U8}
    (isCurrent : machine.kernel.current = some current)
    (begins : machine.handler =
      .pass1 machine.kernel.searchStart machine.kernel.searchStart best) :
    machine.toVisit = Rotation.sweep config.order current := by
  obtain ⟨rest, suffix, chain, whole⟩ :=
    Kernel.exists_searchStart core.chain isCurrent (core.member current isCurrent)
  rw [core.toVisit_pass1 begins suffix chain, whole]

/-- A step of a search loop visits the next task, goes on to the second loop, or ends the
search with its best task. -/
theorem Core.search_moves (core : Core config machine) {sp : Word} {best : TcbPtr n × U8}
    (switches : Machine.SwitchStep machine sp next) (inPass : machine.handler.pass = some best) :
    next.kernel = machine.kernel ∧ next.pendsv = machine.pendsv ∧
      ((∃ task, machine.toVisit = task :: next.toVisit ∧
          next.handler.pass = some (machine.kernel.consider task best)) ∨
        next.toVisit = machine.toVisit ∧ next.handler.pass = some best ∨
        ∃ task, machine.toVisit = [] ∧ best.1 = some task ∧ next.handler = .selected task) := by
  have phase := core.phase
  have coreNext := core.switchStep switches
  cases switches with
  | visit1 searching =>
      rename_i start task score
      rw [searching] at phase inPass
      obtain rfl : score = best := Option.some.inj inPass
      obtain ⟨_, _, ⟨_, suffix, chain⟩, _⟩ := phase
      obtain ⟨tail, rfl, chainTail⟩ := chain.exists_cons
      refine ⟨rfl, rfl, .inl ⟨task, ?_, rfl⟩⟩
      rw [core.toVisit_pass1 searching suffix ⟨rfl, chainTail⟩,
        coreNext.toVisit_pass1 rfl ((List.suffix_cons task tail).trans suffix) chainTail]
      rfl
  | wrap searching =>
      rename_i start score
      rw [searching] at phase inPass
      obtain rfl : score = best := Option.some.inj inPass
      obtain ⟨_, _, ⟨rest, suffix, chain⟩, _⟩ := phase
      obtain rfl := chain.eq_nil
      refine ⟨rfl, rfl, .inr (.inl ⟨?_, rfl⟩)⟩
      have visitsNext : ({ machine with
          handler := .pass2 start machine.kernel.allTasks score } : SpecMachine n V).toVisit =
            Kernel.before start config.order :=
        toVisit_pass2 rfl List.suffix_rfl core.chain
      rw [core.toVisit_pass1 searching suffix chain, visitsNext]
      rfl
  | visit2 searching notStart =>
      rename_i start task score
      rw [searching] at phase inPass
      obtain rfl : score = best := Option.some.inj inPass
      obtain ⟨_, _, ⟨_, suffix, chain⟩, _⟩ := phase
      obtain ⟨tail, rfl, chainTail⟩ := chain.exists_cons
      have visitsNext : ({ machine with
          handler := .pass2 start (machine.kernel.tcb task).allNext
            (machine.kernel.consider task score) } : SpecMachine n V).toVisit =
            Kernel.before start tail :=
        toVisit_pass2 rfl ((List.suffix_cons task tail).trans suffix) chainTail
      refine ⟨rfl, rfl, .inl ⟨task, ?_, rfl⟩⟩
      rw [toVisit_pass2 searching suffix ⟨rfl, chainTail⟩, visitsNext]
      simp [Kernel.before, notStart]
  | select searching atEnd found =>
      rename_i start node score task
      rw [searching] at phase inPass
      obtain rfl : score = best := Option.some.inj inPass
      obtain ⟨_, _, ⟨rest, suffix, chain⟩, _⟩ := phase
      refine ⟨rfl, rfl, .inr (.inr ⟨task, ?_, found, rfl⟩)⟩
      rw [toVisit_pass2 searching suffix chain]
      cases rest with
      | nil => rfl
      | cons head tail =>
          have isStart : some head = start := by
            rcases atEnd with isNone | isStart
            · cases isNone.symm.trans chain.1
            · exact chain.1.symm.trans isStart
          simp [Kernel.before, isStart]
  | enter inactive pending =>
      rw [inactive] at inPass
      cases inPass
  | save entered saved =>
      rw [entered] at inPass
      cases inPass
  | switch selected =>
      rw [selected] at inPass
      cases inPass
  | finish switched marked =>
      rw [switched] at inPass
      cases inPass

/-- The score of the search is right after every step. -/
theorem Core.scored_step (core : Core config machine) (scored : machine.Scored)
    {action : Action V} (step : Machine.Step config.idle machine action next) : next.Scored := by
  rw [Machine.scored_iff]
  intro best inPass
  by_cases isSwitch : ∃ sp, action = .pendsv sp
  · obtain ⟨sp, rfl⟩ := isSwitch
    cases step with
    | pendsv switches =>
        cases before : machine.handler.pass with
        | none =>
            -- only the first step of a search starts a loop
            cases switches with
            | save entered saved =>
                obtain rfl : (none, 255) = best := Option.some.inj inPass
                simp [Kernel.Scored]
            | visit1 searching => simp [searching, Handler.pass] at before
            | wrap searching => simp [searching, Handler.pass] at before
            | visit2 searching notStart => simp [searching, Handler.pass] at before
            | _ => cases inPass
        | some score =>
            have scoredBefore := Machine.scored_iff.mp scored score before
            obtain ⟨kernel, _, ⟨task, _, visited⟩ | ⟨_, kept⟩ | ⟨task, _, _, selected⟩⟩ :=
              core.search_moves switches before
            · obtain rfl := Option.some.inj (visited.symm.trans inPass)
              rw [kernel]
              exact scoredBefore.consider task
            · obtain rfl : score = best := Option.some.inj (kept.symm.trans inPass)
              rwa [kernel]
            · rw [selected] at inPass
              cases inPass
  · have other : ∀ sp, action ≠ .pendsv sp := fun sp same => isSwitch ⟨sp, same⟩
    have handler := step.handler_eq other
    have active : machine.handler ≠ .inactive := by
      intro inactive
      rw [handler, inactive] at inPass
      cases inPass
    obtain ⟨_, _, _, priority⟩ := core.search_waits step other active
    exact Machine.scored_iff.mp (scored_congr scored handler priority) best inPass

/-- The score of every search is right. -/
theorem scored_of_reachable (reachable : (system config V).Reachable machine) : machine.Scored := by
  refine reachable.invariant Machine.Scored ?_ ?_
  · rintro state ⟨kernel, boot, rfl⟩
    trivial
  · intro state action after reached scored performed
    exact (core_of_reachable reached).scored_step scored (Machine.step_of_perform performed)

end SpecMachine

end Kangaroos
