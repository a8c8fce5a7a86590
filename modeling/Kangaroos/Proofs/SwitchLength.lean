import Kangaroos.Observed
import Kangaroos.Proofs.SingleRunning

/-!
# The length of a switch

The two passes of `find_next` share out the task list: the first visits it from where the
search starts, the second from the head up to there. Whatever handlers run in between, an
activation of PendSV visits every task once.
-/

namespace Kangaroos

/-- The steps of an activation of PendSV so far, and the tasks `find_next` has looked at. -/
structure SwitchTrace (n : Nat) where
  steps : Nat
  visited : List (Fin n)
  deriving DecidableEq

namespace SwitchTrace

/-- The books before the first activation. -/
def blank (n : Nat) : SwitchTrace n := { steps := 0, visited := [] }

/-- A step that looks at no task. -/
def advance {n : Nat} (trace : SwitchTrace n) : SwitchTrace n := { trace with steps := trace.steps + 1 }

/-- A step that looks at a task. -/
def visit {n : Nat} (trace : SwitchTrace n) (task : Fin n) : SwitchTrace n :=
  { steps := trace.steps + 1, visited := trace.visited ++ [task] }

end SwitchTrace

namespace Machine

variable {n : Nat} {V Link Head : Type}

/-- What a step adds to the trace of the activation it belongs to. -/
def traceSwitch (machine : Machine n V Link Head) (action : Action V) (trace : SwitchTrace n) :
    SwitchTrace n :=
  match action, machine.handler with
  | .pendsv _, .inactive => (SwitchTrace.blank n).advance
  | .pendsv _, .pass1 _ (some task) _ => trace.visit task
  | .pendsv _, .pass2 start (some task) _ =>
    if some task = start then trace.advance else trace.visit task
  | .pendsv _, _ => trace.advance
  | _, _ => trace

/-- Every step of an activation counts. -/
theorem traceSwitch_steps {machine : Machine n V Link Head} {trace : SwitchTrace n} (sp : Word)
    (active : machine.handler ≠ .inactive) :
    (machine.traceSwitch (.pendsv sp : Action V) trace).steps = trace.steps + 1 := by
  unfold traceSwitch
  split
  · contradiction
  · rfl
  · split <;> rfl
  · rfl
  · rename_i other _ _ _
    exact absurd rfl (other sp)

/-- PendSV goes on until it is done. -/
theorem pendsvStep_ne_none {machine : Machine n V Link Head} (sp : Word)
    (active : machine.handler ≠ .inactive) : machine.pendsvStep sp ≠ none := by
  unfold pendsvStep
  split
  · rename_i inactive
    exact absurd inactive active
  all_goals try split
  all_goals exact Option.some_ne_none _

end Machine

/-- How many steps PendSV has left, and that it has visited what the passes leave behind them. -/
def Config.SwitchLeft {n : Nat} (config : Config n) : Handler n → List (Fin n) → Nat → Prop
  | .inactive, visited, left => visited.Perm config.order ∧ left = 0
  | .entered, visited, left => visited = [] ∧ left = config.order.length + 5
  | .pass1 start next _, visited, left => ∃ seen unseen,
      config.order = seen ++ (visited ++ unseen) ∧ start = (visited ++ unseen).head? ∧
      next = unseen.head? ∧ left = unseen.length + seen.length + 4
  | .pass2 start next _, visited, left => ∃ seen unseen after,
      config.order = seen ++ (unseen ++ after) ∧ visited = after ++ seen ∧
      start = after.head? ∧ next = (unseen ++ after).head? ∧ left = unseen.length + 3
  | .selected _, visited, left => visited.Perm config.order ∧ left = 2
  | .switched _, visited, left => visited.Perm config.order ∧ left = 1

/-- At no point of a search has a task been visited twice. -/
theorem Config.visited_of_switchLeft {n : Nat} {config : Config n} {handler : Handler n}
    {visited : List (Fin n)} {left : Nat} (holds : config.SwitchLeft handler visited left) :
    visited.Nodup ∧ visited ⊆ config.order := by
  have distinct := config.order_nodup
  have of_perm : visited.Perm config.order → visited.Nodup ∧ visited ⊆ config.order :=
    fun all => ⟨all.nodup_iff.mpr distinct, all.subset⟩
  cases handler with
  | inactive => exact of_perm holds.1
  | entered => simp [holds.1]
  | pass1 start next best =>
      obtain ⟨seen, unseen, whole, _⟩ := holds
      have part : visited.Sublist config.order := by
        rw [whole]
        exact (List.sublist_append_left _ _).trans (List.sublist_append_right _ _)
      exact ⟨part.nodup distinct, part.subset⟩
  | pass2 start next best =>
      obtain ⟨seen, unseen, after, whole, rfl, _⟩ := holds
      have part : (seen ++ after).Sublist config.order := by
        rw [whole]
        exact (List.sublist_append_right unseen after).append_left seen
      exact ⟨(List.perm_append_comm.nodup_iff).mp (part.nodup distinct),
        fun task visited => part.subset (List.perm_append_comm.subset visited)⟩
  | selected task => exact of_perm holds.1
  | switched task => exact of_perm holds.1

namespace SpecMachine

variable {n : Nat} {V : Type} {config : Config n} {machine next : SpecMachine n V}

/-- A part of the task list goes on with the link of its first task. -/
theorem Core.allNext_eq (core : Core config machine) {task : Fin n} {rest : List (Fin n)}
    (part : task :: rest <:+ config.order) :
    (machine.kernel.tcb task).allNext = rest.head? := by
  obtain ⟨front, whole⟩ := part
  have chain := core.chain
  rw [← whole] at chain
  exact chain.split.eq_head?

/-- Each step of PendSV is one fewer to go. -/
theorem Core.switchLeft_step (core : Core config machine) (core' : Core config next) {sp : Word}
    (switches : Machine.SwitchStep machine sp next) {trace : SwitchTrace n} {left : Nat}
    (active : machine.handler ≠ .inactive)
    (before : config.SwitchLeft machine.handler trace.visited left) :
    ∃ fewer, left = fewer + 1 ∧ config.SwitchLeft next.handler
      (machine.traceSwitch (.pendsv sp : Action V) trace).visited fewer := by
  have phase' := core'.phase
  cases switches with
  | enter inactive pending => exact absurd inactive active
  | save entered saved =>
      rename_i kernel
      rw [entered] at before
      obtain ⟨isEmpty, isLeft⟩ := before
      obtain ⟨_, _, ⟨rest, ⟨seen, whole⟩, chain⟩, _⟩ := phase'
      have total : seen.length + rest.length = config.order.length := by
        rw [← whole, List.length_append]
      simp only [Machine.traceSwitch, entered, SwitchTrace.advance, isEmpty]
      refine ⟨config.order.length + 4, isLeft, seen, rest, whole.symm, chain.eq_head?,
        chain.eq_head?, ?_⟩
      omega
  | visit1 searching =>
      rename_i start task best
      rw [searching] at before
      obtain ⟨seen, unseen, whole, isStart, isNext, isLeft⟩ := before
      obtain ⟨rest, rfl⟩ := List.head?_eq_some_iff.mp isNext.symm
      have part : task :: rest <:+ config.order :=
        ⟨seen ++ trace.visited, by rw [whole, List.append_assoc]⟩
      simp only [Machine.traceSwitch, searching, SwitchTrace.visit]
      refine ⟨rest.length + seen.length + 4, ?_, seen, rest, ?_, ?_, core.allNext_eq part, rfl⟩
      · rw [isLeft, List.length_cons]
        omega
      · rw [whole, List.append_cons]
      · rw [isStart, List.append_cons]
  | wrap searching =>
      rename_i start best
      rw [searching] at before
      obtain ⟨seen, unseen, whole, isStart, isNext, isLeft⟩ := before
      obtain rfl := List.head?_eq_none_iff.mp isNext.symm
      rw [List.append_nil] at whole isStart
      simp only [Machine.traceSwitch, searching, SwitchTrace.advance]
      refine ⟨seen.length + 3, by simpa using isLeft, [], seen, trace.visited, whole,
        (List.append_nil _).symm, isStart, ?_, rfl⟩
      rw [← whole]
      exact core.chain.eq_head?
  | visit2 searching notStart =>
      rename_i start task best
      rw [searching] at before
      obtain ⟨seen, unseen, after, whole, visited, isStart, isNext, isLeft⟩ := before
      simp only [Machine.traceSwitch, searching, if_neg notStart, SwitchTrace.visit, visited]
      cases unseen with
      | nil => exact absurd (isNext.trans isStart.symm) notStart
      | cons first rest =>
          obtain rfl := Option.some.inj isNext
          refine ⟨rest.length + 3, by rw [isLeft, List.length_cons], seen ++ [task], rest, after,
            ?_, List.append_assoc .., isStart, core.allNext_eq ⟨seen, whole.symm⟩, rfl⟩
          rw [whole, List.cons_append, List.append_cons]
  | select searching atEnd found =>
      rename_i start following best task
      rw [searching] at before
      obtain ⟨seen, unseen, after, whole, visited, isStart, isNext, isLeft⟩ := before
      -- a search that is back where it started has nothing left, since no task is listed twice
      have empty : unseen = [] := by
        cases unseen with
        | nil => rfl
        | cons first rest =>
            rcases atEnd with isNone | isBack
            · exact absurd (isNone.symm.trans isNext) (by simp)
            · have again : after.head? = some first := by
                rw [← isStart, ← isBack, isNext]
                rfl
              have part : first :: (rest ++ after) <:+ config.order := ⟨seen, whole.symm⟩
              have distinct := part.sublist.nodup config.order_nodup
              exact absurd (List.mem_append_right rest (List.mem_of_mem_head? again))
                (List.nodup_cons.mp distinct).1
      subst empty
      have all : trace.visited.Perm config.order := by
        rw [visited, whole]
        exact List.perm_append_comm
      have stops : machine.traceSwitch (.pendsv sp : Action V) trace = trace.advance := by
        cases following with
        | none => simp only [Machine.traceSwitch, searching]
        | some first =>
            obtain rfl : some first = start := atEnd.resolve_left (by simp)
            simp only [Machine.traceSwitch, searching, if_true]
      rw [stops]
      exact ⟨2, by simpa using isLeft, all, rfl⟩
  | switch selected =>
      rw [selected] at before
      simp only [Machine.traceSwitch, selected, SwitchTrace.advance]
      exact ⟨1, before.2, before.1, rfl⟩
  | finish switched marked =>
      rw [switched] at before
      simp only [Machine.traceSwitch, switched, SwitchTrace.advance]
      exact ⟨0, before.2, before.1, rfl⟩

/-- The steps an activation has taken, its entry included, and those it has left. -/
def Paced (config : Config n) (machine : SpecMachine n V) (trace : SwitchTrace n) : Prop :=
  machine.handler = .inactive ∧ trace = .blank n ∨
    ∃ left, config.SwitchLeft machine.handler trace.visited left ∧
      0 < trace.steps ∧ trace.steps + left = config.order.length + 6

/-- Every step keeps the pace. -/
theorem Paced.step {trace : SwitchTrace n} (paced : Paced config machine trace)
    (core : Core config machine) (core' : Core config next) {action : Action V}
    (step : Machine.Step config.idle machine action next) :
    Paced config next (machine.traceSwitch action trace) := by
  cases step with
  | pendsv switches =>
      rename_i sp
      by_cases inactive : machine.handler = .inactive
      · simp only [Machine.traceSwitch, inactive]
        cases switches with
        | enter => exact .inr ⟨_, ⟨rfl, rfl⟩, Nat.one_pos, by simp [SwitchTrace.advance, SwitchTrace.blank]; omega⟩
        | _ => simp_all
      · obtain ⟨left, before, started, counted⟩ := paced.resolve_left fun idle => inactive idle.1
        obtain ⟨fewer, isLeft, after⟩ := core.switchLeft_step core' switches inactive before
        have steps := @Machine.traceSwitch_steps n V _ _ machine trace sp inactive
        exact .inr ⟨fewer, after, by omega, by omega⟩
  | ret isTask triggered returns => cases returns <;> exact paced
  | _ => exact paced

end SpecMachine

namespace RepMachine

variable {n : Nat} {V : Type} {config : Config n} {machine : RtosMachine n V} {trace : SwitchTrace n}

/-- Both machines leave the same trace. -/
theorem traceSwitch_eq {spec : SpecMachine n V} (rep : RepMachine machine spec)
    (action : Action V) : machine.traceSwitch action = spec.traceSwitch action := by
  funext trace
  cases action <;> simp only [Machine.traceSwitch, rep.handler]

/-- A switch takes as many steps as there are tasks and six more, whatever handlers run between
them and whatever they do to the tasks, and looks at each registered task once; until it is done
its next step can be taken and runs into no fault. -/
theorem pendsv_length (reachable : (config.withBooks V (TcbPtr n) (TcbPtr n) (SwitchTrace.blank n)
      Machine.traceSwitch).Reachable (machine, trace)) :
    (machine.handler = .inactive → trace = .blank n ∨
      trace.steps = config.tokens.length + 7 ∧ trace.visited.Perm config.order) ∧
    (machine.handler ≠ .inactive → 0 < trace.steps ∧ trace.steps < config.tokens.length + 7 ∧
      trace.visited.Nodup ∧ trace.visited ⊆ config.order ∧
      ∀ sp, ∃ next, machine.perform config.idle (.pendsv sp) = some (.ok next)) := by
  obtain ⟨⟨spec, shared⟩, reach, rep, sameBook⟩ := ((simulation config V).observed
    (SwitchTrace.blank n)
    fun state action next spec spec' rep rep' => traceSwitch_eq rep action).reachable reachable
  obtain rfl : trace = shared := sameBook
  have core := SpecMachine.core_of_reachable reach.of_observed
  have paced : SpecMachine.Paced config spec trace := by
    refine reach.observed_invariant (fun spec trace => SpecMachine.Paced config spec trace) ?_ ?_
    · rintro state ⟨kernel, boot, rfl⟩
      exact .inl ⟨rfl, rfl⟩
    · intro state action next trace reached paced performed
      have core := SpecMachine.core_of_reachable reached
      have core' := SpecMachine.core_of_reachable (.step reached performed)
      exact paced.step core core' (Machine.step_of_perform performed)
  have total : config.order.length = config.tokens.length + 1 := by simp [Config.order]
  rw [show machine.handler = spec.handler from rep.handler]
  constructor
  · intro inactive
    rcases paced with ⟨_, isBlank⟩ | ⟨left, before, _, counted⟩
    · exact .inl isBlank
    · rw [inactive] at before
      obtain ⟨all, rfl⟩ := before
      exact .inr ⟨by omega, all⟩
  · intro active
    obtain ⟨left, before, started, counted⟩ := paced.resolve_left fun idle => active idle.1
    have some_left : left ≠ 0 := by
      rintro rfl
      cases phase : spec.handler <;> simp_all [Config.SwitchLeft]
    obtain ⟨once, listed⟩ := Config.visited_of_switchLeft before
    refine ⟨started, by omega, once, listed, fun sp => ?_⟩
    obtain ⟨run, performed⟩ := Option.ne_none_iff_exists'.mp
      (machine.pendsvStep_ne_none sp (rep.handler ▸ active))
    cases run with
    | ok next => exact ⟨next, performed⟩
    | error fault =>
        have faults : machine.perform config.idle (.pendsv sp) = some (.error fault) := performed
        obtain ⟨next, isNext⟩ := core.pendsvStep_ok (rep.perform_error core faults)
        cases isNext

/-- The first switch of the small program, with a tick in the middle of its search. -/
theorem pendsv_length_interrupted : ∃ (machine : RtosMachine 4 Unit) (trace : SwitchTrace 4),
    (∃ start next best, machine.handler = .pass1 start next best) ∧ trace = ⟨4, [0, 3]⟩ ∧
    ∀ sp, ∃ next, machine.perform (Config.small 10 20 30).idle (.pendsv sp) = some (.ok next) := by
  let actions : List (Action Unit) := [.launch, .call (.take 0), .trigger, .pendsv 0, .pendsv 0,
    .pendsv 0, .tick, .pendsv 0]
  let check (pair : RtosMachine 4 Unit × SwitchTrace 4) : Bool :=
    pair.1.handler = .pass1 (some 0) (some 2) (some 3, 30) ∧ pair.2 = ⟨4, [0, 3]⟩
  obtain ⟨⟨machine, trace⟩, reachable, checked⟩ := Machine.exists_of_checkNoting actions check
    (by decide +kernel : Machine.passesNoting (Config.small 10 20 30) (SwitchTrace.blank 4)
      Machine.traceSwitch actions check = true)
  obtain ⟨phase, isTrace⟩ := of_decide_eq_true checked
  replace phase : machine.handler = .pass1 (some 0) (some 2) (some 3, 30) := phase
  have active : machine.handler ≠ .inactive := by simp [phase]
  exact ⟨machine, trace, ⟨_, _, _, phase⟩, isTrace,
    ((pendsv_length reachable).2 active).2.2.2.2⟩

end RepMachine

end Kangaroos
