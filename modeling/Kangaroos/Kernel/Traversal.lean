import Kangaroos.Kernel.Scheduler
import Kangaroos.Logic.Chain
import Kangaroos.Logic.Triple
import Mathlib.Data.List.TakeWhile

/-!
# The loops over `ALL_TASKS`

Where the list is null-terminated a loop visits its tasks once each, in order. Each loop then
has a closed form over the list of tasks it visits; for the fused loop of `tick` it does not
depend on their order.
-/

namespace Kangaroos

/-- The link `ALL_TASKS` is threaded through. -/
def Kernel.allLink {n : Nat} {V Link Head : Type} (kernel : Kernel n V Link Head) (task : Fin n) :
    TcbPtr n :=
  (kernel.tcb task).allNext

/-- What the fused loop of `tick` makes of a TCB. -/
def Tcb.wake {n : Nat} {Link : Type} (now : U64) (tcb : Tcb n Link) : Tcb n Link :=
  match tcb.state with
  | .sleeping deadline =>
    if deadline ≤ now then { tcb with state := .ready tcb.timeSlice } else tcb
  | _ => tcb

/-- A task sleeps although its deadline has come. -/
def Tcb.Overdue {n : Nat} {Link : Type} (now : U64) (tcb : Tcb n Link) : Prop :=
  ∃ deadline, tcb.state = .sleeping deadline ∧ deadline ≤ now

namespace Tcb

variable {n : Nat} {Link : Type} {now : U64} {tcb : Tcb n Link}

theorem wake_of_overdue (overdue : tcb.Overdue now) :
    tcb.wake now = { tcb with state := .ready tcb.timeSlice } := by
  obtain ⟨deadline, sleeps, due⟩ := overdue
  simp [wake, sleeps, due]

theorem wake_of_not_overdue (awake : ¬ tcb.Overdue now) : tcb.wake now = tcb := by
  unfold wake
  split
  · rename_i deadline sleeps
    exact if_neg fun due => awake ⟨deadline, sleeps, due⟩
  · rfl

theorem not_overdue_of_ready (ready : tcb.state.isReady = true) : ¬ tcb.Overdue now := by
  rintro ⟨deadline, sleeps, _⟩
  rw [sleeps] at ready
  cases ready

theorem not_overdue_wake (now : U64) (tcb : Tcb n Link) : ¬ (tcb.wake now).Overdue now := by
  by_cases overdue : tcb.Overdue now
  · rw [wake_of_overdue overdue]
    rintro ⟨deadline, sleeps, _⟩
    cases sleeps
  · rwa [wake_of_not_overdue overdue]

/-- Only the state of a sleeper changes. -/
theorem wake_cases (now : U64) (tcb : Tcb n Link) :
    tcb.Overdue now ∧ tcb.wake now = { tcb with state := .ready tcb.timeSlice } ∨
      ¬ tcb.Overdue now ∧ tcb.wake now = tcb := by
  by_cases overdue : tcb.Overdue now
  · exact .inl ⟨overdue, wake_of_overdue overdue⟩
  · exact .inr ⟨overdue, wake_of_not_overdue overdue⟩

end Tcb

namespace Kernel

variable {n : Nat} {V Link Head : Type} {kernel : Kernel n V Link Head}

/-- A write of a TCB that keeps its `all_next` keeps `ALL_TASKS`. -/
theorem modifyTcb_allLink {task : Fin n} {change : Tcb n Link → Tcb n Link}
    (keeps : (change (kernel.tcb task)).allNext = (kernel.tcb task).allNext) :
    (kernel.modifyTcb task change).allLink = kernel.allLink := by
  funext other
  by_cases same : other = task
  · subst same
    simpa [allLink] using keeps
  · simp [allLink, same]

/-- A state change leaves the links alone. -/
theorem setState_allLink (kernel : Kernel n V Link Head) (task : Fin n) (state : TaskState Link) :
    (kernel.setState task state).allLink = kernel.allLink :=
  modifyTcb_allLink rfl

theorem wakeDue_eq (kernel : Kernel n V Link Head) (now : U64) (task : Fin n) :
    kernel.wakeDue now task = kernel.modifyTcb task (Tcb.wake now) := by
  unfold wakeDue
  split
  · rename_i deadline sleeps
    split
    · rename_i due
      simp only [modifyTcb, Tcb.wake_of_overdue ⟨deadline, sleeps, due⟩]
    · rename_i notDue
      have awake : ¬ (kernel.tcb task).Overdue now := by
        rintro ⟨_, sleepsUntil, due⟩
        obtain rfl : deadline = _ := by simpa [sleeps] using sleepsUntil
        exact notDue due
      simp [modifyTcb, Tcb.wake_of_not_overdue awake]
  · rename_i sleepless
    have awake : ¬ (kernel.tcb task).Overdue now := fun overdue =>
      sleepless overdue.choose overdue.choose_spec.1
    simp [modifyTcb, Tcb.wake_of_not_overdue awake]

theorem wakeDue_allLink (kernel : Kernel n V Link Head) (now : U64) (task : Fin n) :
    (kernel.wakeDue now task).allLink = kernel.allLink := by
  rw [wakeDue_eq]
  refine modifyTcb_allLink ?_
  obtain ⟨_, woken⟩ | ⟨_, woken⟩ := Tcb.wake_cases now (kernel.tcb task)
  · rw [woken]
  · rw [woken]

/-- The best task of a search that visits `tasks`. -/
def bestOf (kernel : Kernel n V Link Head) (tasks : List (Fin n)) (best : TcbPtr n × U8) :
    TcbPtr n × U8 :=
  tasks.foldl (fun best task => kernel.consider task best) best

/-- The nodes a search visits before `stop`. -/
def before (stop : TcbPtr n) (tasks : List (Fin n)) : List (Fin n) :=
  tasks.takeWhile fun task => some task ≠ stop

/-- The body of the selection loop of the launch. -/
def launchConsider (kernel : Kernel n V Link Head) (best : TcbPtr n × U8) (task : Fin n) :
    TcbPtr n × U8 :=
  if (kernel.tcb task).state.isReady = true ∧ (kernel.tcb task).priority < best.2 then
    (some task, (kernel.tcb task).priority)
  else best

/-- The state after the fused loop of `tick` has visited `tasks`. -/
def wakeAll (kernel : Kernel n V Link Head) (now : U64) (current : Fin n) (tasks : List (Fin n)) :
    Kernel n V Link Head :=
  { kernel with tcb := fun task =>
      if task ∈ tasks ∧ task ≠ current then (kernel.tcb task).wake now else kernel.tcb task }

/-- Whether one of `tasks`, other than `current`, is ready and more urgent than `curPrio`. -/
def rival (kernel : Kernel n V Link Head) (current : Fin n) (curPrio : U8)
    (tasks : List (Fin n)) : Bool :=
  tasks.any fun task => task ≠ current ∧ (kernel.tcb task).state.isReady = true ∧
    (kernel.tcb task).priority < curPrio

/-- Whether one of `tasks`, other than `current`, is ready at priority `curPrio`. -/
def peer (kernel : Kernel n V Link Head) (current : Fin n) (curPrio : U8)
    (tasks : List (Fin n)) : Bool :=
  tasks.any fun task => task ≠ current ∧ (kernel.tcb task).state.isReady = true ∧
    (kernel.tcb task).priority = curPrio

theorem before_none (tasks : List (Fin n)) : before none tasks = tasks :=
  List.takeWhile_eq_self_iff.mpr fun task _ => by simp

/-- The second loop of `find_next` stops where the first one started. -/
theorem before_append {front rest : List (Fin n)} {start : Fin n} (fresh : start ∉ front) :
    before (some start) (front ++ start :: rest) = front := by
  rw [before, List.takeWhile_append_of_pos]
  · simp
  · intro other inFront
    have different : other ≠ start := by
      rintro rfl
      exact fresh inFront
    simpa using different

@[simp] theorem wakeAll_toStatics (kernel : Kernel n V Link Head) (now : U64) (current : Fin n)
    (tasks : List (Fin n)) : (kernel.wakeAll now current tasks).toStatics = kernel.toStatics := rfl

@[simp] theorem wakeAll_waitHead (kernel : Kernel n V Link Head) (now : U64) (current : Fin n)
    (tasks : List (Fin n)) : (kernel.wakeAll now current tasks).waitHead = kernel.waitHead := rfl

theorem wakeAll_tcb (kernel : Kernel n V Link Head) (now : U64) (current : Fin n)
    (tasks : List (Fin n)) (task : Fin n) :
    (kernel.wakeAll now current tasks).tcb task =
      if task ∈ tasks ∧ task ≠ current then (kernel.tcb task).wake now else kernel.tcb task := rfl

@[simp] theorem wakeAll_current (kernel : Kernel n V Link Head) (now : U64) (current : Fin n)
    (tasks : List (Fin n)) : (kernel.wakeAll now current tasks).tcb current = kernel.tcb current := by
  simp [wakeAll_tcb]

theorem wakeAll_allLink (kernel : Kernel n V Link Head) (now : U64) (current : Fin n)
    (tasks : List (Fin n)) : (kernel.wakeAll now current tasks).allLink = kernel.allLink := by
  funext task
  rw [allLink, wakeAll_tcb]
  split
  · obtain ⟨_, woken⟩ | ⟨_, woken⟩ := Tcb.wake_cases now (kernel.tcb task)
    · rw [woken]
      rfl
    · rw [woken]
      rfl
  · rfl

/-- A task that is not asleep stays as it is. -/
theorem wakeAll_awake {now : U64} {current task : Fin n} {tasks : List (Fin n)}
    (awake : ¬ (kernel.tcb task).Overdue now) :
    (kernel.wakeAll now current tasks).tcb task = kernel.tcb task := by
  rw [wakeAll_tcb, Tcb.wake_of_not_overdue awake, ite_self]

/-- The loop passes over `current`. -/
theorem wakeAll_cons_current {now : U64} {current task : Fin n} {rest : List (Fin n)}
    (isCurrent : task = current) :
    kernel.wakeAll now current (task :: rest) = kernel.wakeAll now current rest := by
  unfold wakeAll
  congr 1
  funext other
  by_cases isOther : other = current
  · simp [isOther]
  · simp [isOther, isCurrent]

/-- The loop wakes its first task and then the others. -/
theorem wakeDue_wakeAll {now : U64} {current task : Fin n} {rest : List (Fin n)}
    (fresh : task ∉ rest) (different : task ≠ current) :
    (kernel.wakeDue now task).wakeAll now current rest =
      kernel.wakeAll now current (task :: rest) := by
  rw [wakeDue_eq]
  unfold wakeAll modifyTcb
  congr 1
  funext other
  by_cases same : other = task
  · subst same
    simp [fresh, different]
  · simp [same]

theorem rival_iff {current : Fin n} {curPrio : U8} {tasks : List (Fin n)} :
    kernel.rival current curPrio tasks = true ↔
      ∃ task ∈ tasks, task ≠ current ∧ (kernel.tcb task).state.isReady = true ∧
        (kernel.tcb task).priority < curPrio := by
  simp [rival]

theorem peer_iff {current : Fin n} {curPrio : U8} {tasks : List (Fin n)} :
    kernel.peer current curPrio tasks = true ↔
      ∃ task ∈ tasks, task ≠ current ∧ (kernel.tcb task).state.isReady = true ∧
        (kernel.tcb task).priority = curPrio := by
  simp [peer]

section Loops

variable {next : TcbPtr n} {tasks : List (Fin n)} {fuel : Nat}
  (chain : Linked.Chain kernel.allLink next tasks) (enough : tasks.length ≤ fuel)

include chain enough

/-- Every search loop ends with the best of what it visits. -/
theorem searchPass_eq {stop : TcbPtr n} {best : TcbPtr n × U8} :
    kernel.searchPass stop fuel next best = .ok (kernel.bestOf (before stop tasks) best) := by
  induction chain, enough using Linked.Chain.walk generalizing best with
  | done fuel =>
      rw [searchPass]
      rfl
  | visit fuel task rest _ _ _ _ ih =>
      rw [searchPass]
      by_cases atStop : some task = stop
      · simp [atStop, before, bestOf]
      · rw [if_neg atStop, show (kernel.tcb task).allNext = kernel.allLink task from rfl, ih]
        simp [before, bestOf, atStop]

/-- The selection loop of the launch. -/
theorem svcSearch_eq {best : TcbPtr n × U8} :
    kernel.svcSearch fuel next best = .ok (tasks.foldl kernel.launchConsider best) := by
  induction chain, enough using Linked.Chain.walk generalizing best with
  | done fuel =>
      rw [svcSearch]
      rfl
  | visit fuel task rest _ _ _ _ ih =>
      rw [svcSearch, show (kernel.tcb task).allNext = kernel.allLink task from rfl, ih]
      rfl

/-- The rotation loop of `tick`. -/
theorem tickPeer_eq {current : Fin n} {curPrio : U8} :
    kernel.tickPeer current curPrio fuel next = .ok (kernel.peer current curPrio tasks) := by
  induction chain, enough using Linked.Chain.walk with
  | done fuel =>
      rw [tickPeer]
      rfl
  | visit fuel task rest _ _ _ _ ih =>
      rw [tickPeer]
      by_cases found : task ≠ current ∧ (kernel.tcb task).state.isReady = true ∧
          (kernel.tcb task).priority = curPrio
      · rw [if_pos found]
        simp [peer, found]
      · rw [if_neg found, show (kernel.tcb task).allNext = kernel.allLink task from rfl, ih]
        simp only [peer, List.any_cons, decide_eq_false found, Bool.false_or]

/-- The canary loop of `systick_handler`. -/
theorem canaryPass_eq {canaryCheck : Word → Bool} :
    kernel.canaryPass canaryCheck fuel next =
      if ∃ task ∈ tasks, (kernel.tcb task).state.live = true ∧
          canaryCheck (kernel.tcb task).stackBase = false then .error .stackOverflow
      else .ok () := by
  induction chain, enough using Linked.Chain.walk with
  | done fuel =>
      rw [canaryPass]
      simp
  | visit fuel task rest _ _ _ _ ih =>
      rw [canaryPass, show (kernel.tcb task).allNext = kernel.allLink task from rfl, ih]
      by_cases broken : (kernel.tcb task).state.live = true ∧
          canaryCheck (kernel.tcb task).stackBase = false
      · rw [if_pos broken, if_pos ⟨task, List.mem_cons_self, broken⟩]
      · rw [if_neg broken]
        simp only [List.mem_cons, exists_eq_or_imp, broken, false_or]

end Loops

/-- The fused loop of `tick`: it wakes the sleepers that are due, and looks for rivals among
all it has visited. -/
theorem tickWake_eq {now : U64} {current : Fin n} {curPrio : U8} {next : TcbPtr n}
    {tasks : List (Fin n)} {fuel : Nat} {preempt : Bool}
    (chain : Linked.Chain kernel.allLink next tasks) (enough : tasks.length ≤ fuel) :
    tickWake now current curPrio fuel next (kernel, preempt) =
      .ok (kernel.wakeAll now current tasks,
        preempt || (kernel.wakeAll now current tasks).rival current curPrio tasks) := by
  have distinct := chain.nodup
  obtain ⟨link, links⟩ : ∃ link, kernel.allLink = link := ⟨_, rfl⟩
  rw [links] at chain
  induction chain, enough using Linked.Chain.walk generalizing kernel preempt with
  | done fuel =>
      rw [tickWake]
      simp [wakeAll, rival]
  | visit fuel task rest _ _ _ _ ih =>
      obtain ⟨fresh, distinctRest⟩ := List.nodup_cons.mp distinct
      rw [tickWake]
      by_cases isCurrent : task = current
      · rw [if_pos isCurrent, show (kernel.tcb task).allNext = link task from congrFun links task,
          ih distinctRest links, wakeAll_cons_current isCurrent]
        simp [rival, isCurrent]
      · have wokenLinks : (kernel.wakeDue now task).allLink = link := by
          rw [wakeDue_allLink, links]
        have onward : ((kernel.wakeDue now task).tcb task).allNext = link task :=
          congrFun wokenLinks task
        have visited : (kernel.wakeDue now task).tcb task =
            (kernel.wakeAll now current (task :: rest)).tcb task := by
          simp [wakeDue_eq, wakeAll_tcb, isCurrent]
        simp only [if_neg isCurrent, onward]
        rw [ih distinctRest wokenLinks, wakeDue_wakeAll fresh isCurrent, visited]
        simp [rival, isCurrent, Bool.or_assoc]

/-- `tick` advances `TICK` first. -/
def countTick (kernel : Kernel n V Link Head) : Kernel n V Link Head :=
  kernel.modifyStatics fun statics => { statics with tickCount := statics.tickCount + 1 }

/-- What `tick` returns while `current` runs with `slice` ticks left: `woken` is the state
after the fused loop. -/
inductive TickResult (order : List (Fin n)) (current : Fin n) (slice : U8)
    (woken : Kernel n V Link Head) : Kernel n V Link Head × Bool → Prop
  | preempts (urgent : woken.rival current (woken.tcb current).priority order = true) :
      TickResult order current slice woken (woken, true)
  | counts (quiet : woken.rival current (woken.tcb current).priority order = false)
      (remains : 1 < slice.val) :
      TickResult order current slice woken (woken.setState current (.running (slice - 1)), false)
  | expires (quiet : woken.rival current (woken.tcb current).priority order = false)
      (used : slice.val ≤ 1) :
      TickResult order current slice woken
        (woken.setState current (.running (woken.tcb current).timeSlice),
          woken.peer current (woken.tcb current).priority order)

/-- The slice accounting concerns only the current task. -/
theorem TickResult.others {order : List (Fin n)} {current : Fin n} {slice : U8}
    {woken : Kernel n V Link Head} {result : Kernel n V Link Head × Bool}
    (ticks : TickResult order current slice woken result) :
    result.1.toStatics = woken.toStatics ∧ result.1.waitHead = woken.waitHead ∧
      ∀ task, task ≠ current → result.1.tcb task = woken.tcb task := by
  cases ticks with
  | preempts urgent => exact ⟨rfl, rfl, fun _ _ => rfl⟩
  | counts quiet remains => exact ⟨rfl, rfl, fun task different => by simp [different]⟩
  | expires quiet used => exact ⟨rfl, rfl, fun task different => by simp [different]⟩

/-- The new slice of the running task, before it is reloaded. -/
theorem remaining_eq (slice : U8) :
    (if 0 < slice then slice - 1 else slice) = 0 ↔ slice.val ≤ 1 := by
  by_cases positive : 0 < slice
  · rw [if_pos positive, Fin.ext_iff, Fin.val_sub_one_of_ne_zero positive.ne']
    have nonzero : 0 < slice.val := positive
    simp only [Fin.val_zero]
    omega
  · obtain rfl : slice = 0 := by simpa using positive
    simp

/-- The state of `current` does not matter to the rotation loop. -/
theorem peer_setState (kernel : Kernel n V Link Head) (current : Fin n) (state : TaskState Link)
    (curPrio : U8) (tasks : List (Fin n)) :
    (kernel.setState current state).peer current curPrio tasks =
      kernel.peer current curPrio tasks := by
  unfold peer
  congr 1
  funext task
  by_cases same : task = current
  · simp [same]
  · simp [same]

/-- `tick` while no task runs. -/
theorem tick_stopped (stopped : ∀ current, kernel.current = some current →
    (kernel.tcb current).state.isRunning = false) : kernel.tick = .ok (kernel.countTick, false) := by
  cases isCurrent : kernel.current with
  | none =>
      simp only [tick, modifyStatics_toStatics, isCurrent]
      rfl
  | some current =>
      have notRunning := stopped current isCurrent
      simp only [tick, modifyStatics_toStatics, isCurrent, modifyStatics_tcb, notRunning]
      rfl

/-- `tick` while `current` runs. -/
theorem tick_running {order : List (Fin n)} {current : Fin n} {slice : U8}
    (chain : Linked.Chain kernel.allLink kernel.allTasks order)
    (isCurrent : kernel.current = some current)
    (runs : (kernel.tcb current).state = .running slice) :
    ∃ result, kernel.tick = .ok result ∧
      TickResult order current slice
        (kernel.countTick.wakeAll (kernel.tickCount + 1) current order) result := by
  have enough : order.length ≤ n := by simpa using chain.nodup.length_le_card
  have isRunning : (kernel.tcb current).state.isRunning = true := by rw [runs]; rfl
  obtain ⟨woken, isWoken⟩ : ∃ woken, woken =
    kernel.countTick.wakeAll (kernel.tickCount + 1) current order := ⟨_, rfl⟩
  have sameCurrent : woken.tcb current = kernel.tcb current := by
    rw [isWoken, wakeAll_current]
    rfl
  have chainWoken : Linked.Chain woken.allLink woken.allTasks order := by
    rw [isWoken, wakeAll_allLink]
    exact chain
  have wakes : tickWake (kernel.tickCount + 1) current (kernel.tcb current).priority n
      kernel.allTasks (kernel.countTick, false) =
      .ok (woken, false || woken.rival current (kernel.tcb current).priority order) := by
    rw [isWoken]
    exact tickWake_eq chain enough
  have unfolded : kernel.tick =
      if woken.rival current (woken.tcb current).priority order = true then .ok (woken, true)
      else woken.tickSlice current (woken.tcb current).priority := by
    rw [Bool.false_or, ← sameCurrent] at wakes
    simp only [tick, modifyStatics_toStatics, isCurrent, modifyStatics_tcb, isRunning, if_true]
    rw [← sameCurrent]
    exact (congrArg (· >>= _) wakes).trans (Except.ok_bind _ _)
  rw [← isWoken, unfolded]
  cases urgent : woken.rival current (woken.tcb current).priority order with
  | true => exact ⟨_, rfl, .preempts urgent⟩
  | false =>
      simp only [Bool.false_eq_true, if_false, tickSlice, sameCurrent, runs]
      rw [← sameCurrent]
      by_cases used : (if 0 < slice then slice - 1 else slice) = 0
      · rw [if_pos used, tickPeer_eq (by rw [setState_allLink]; exact chainWoken) enough,
          peer_setState, Except.ok_bind]
        exact ⟨_, rfl, .expires urgent ((remaining_eq slice).mp used)⟩
      · have remains : 1 < slice.val := not_le.mp (mt (remaining_eq slice).mpr used)
        have positive : 0 < slice := Nat.lt_trans Nat.zero_lt_one remains
        rw [if_neg used, if_pos positive]
        exact ⟨_, rfl, .counts urgent remains⟩

/-- Either a task runs or `tick` only counts. -/
theorem running_or_stopped (kernel : Kernel n V Link Head) :
    (∃ current slice, kernel.current = some current ∧
        (kernel.tcb current).state = .running slice) ∨
      ∀ current, kernel.current = some current → (kernel.tcb current).state.isRunning = false := by
  by_cases running : ∃ current, kernel.current = some current ∧
      (kernel.tcb current).state.isRunning = true
  · obtain ⟨current, isCurrent, runs⟩ := running
    obtain ⟨slice, isRunning⟩ := TaskState.isRunning_iff.mp runs
    exact .inl ⟨current, slice, isCurrent, isRunning⟩
  · refine .inr fun current isCurrent => ?_
    by_contra runs
    exact running ⟨current, isCurrent, by simpa using runs⟩

/-- `tick` ends and leaves the list as it is. -/
theorem tick_returns {order : List (Fin n)}
    (chain : Linked.Chain kernel.allLink kernel.allTasks order) :
    ∃ next flag, kernel.tick = .ok (next, flag) ∧ next.allLink = kernel.allLink ∧
      next.allTasks = kernel.allTasks := by
  obtain ⟨current, slice, isCurrent, runs⟩ | stopped := kernel.running_or_stopped
  · obtain ⟨⟨next, flag⟩, returned, ticks⟩ := tick_running chain isCurrent runs
    refine ⟨next, flag, returned, ?_⟩
    cases ticks with
    | preempts urgent => exact ⟨wakeAll_allLink _ _ _ _, rfl⟩
    | counts quiet remains => exact ⟨(setState_allLink _ _ _).trans (wakeAll_allLink _ _ _ _), rfl⟩
    | expires quiet used => exact ⟨(setState_allLink _ _ _).trans (wakeAll_allLink _ _ _ _), rfl⟩
  · exact ⟨_, _, tick_stopped stopped, rfl, rfl⟩

end Kernel

end Kangaroos
