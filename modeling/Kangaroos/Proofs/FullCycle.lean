import Kangaroos.Proofs.Dispatch

/-!
# Undisturbed rotation

Each `pendsv_save_and_switch` moves `CURRENT` and with it the place where the next search
begins. Seen from there the tasks of the most urgent tier turn by one: the dispatched task goes
from the front to the end. So as many switches as the tier has tasks dispatch each of them once.
-/

namespace Kangaroos

namespace Kernel

variable {n : Nat} {V Link Head : Type} {kernel : Kernel n V Link Head}
  {order : List (Fin n)} {current task : Fin n} {slice : U8} {sp : Word}

/-- What happens between two switches leaves the list, `CURRENT`, the priorities and which
tasks are runnable, and sets no task running. -/
structure Undisturbed (before after : Kernel n V Link Head) : Prop where
  allTasks : after.allTasks = before.allTasks
  links : after.allLink = before.allLink
  current : after.current = before.current
  priority : ∀ task, (after.tcb task).priority = (before.tcb task).priority
  runnable : ∀ task, (after.tcb task).state.runnable = (before.tcb task).state.runnable
  running : ∀ task, (before.tcb task).state.isRunning = false →
    (after.tcb task).state.isRunning = false

/-- What happens before a switch, and the stack pointer the switch finds. -/
structure Turn (n : Nat) (V Link Head : Type) where
  change : Kernel n V Link Head → Kernel n V Link Head
  sp : Word
  quiet : ∀ kernel, Undisturbed kernel (change kernel)

theorem Undisturbed.refl (kernel : Kernel n V Link Head) : Undisturbed kernel kernel :=
  ⟨rfl, rfl, rfl, fun _ => rfl, fun _ => rfl, fun _ stopped => stopped⟩

/-- A switch before which nothing happens. -/
def Turn.still (n : Nat) (V Link Head : Type) (sp : Word) : Turn n V Link Head where
  change := id
  sp := sp
  quiet := Undisturbed.refl

/-- Consecutive switches: the last state and the tasks dispatched. -/
def switchAll : List (Turn n V Link Head) → Kernel n V Link Head →
    Exec (Kernel n V Link Head × List (Fin n))
  | [], kernel => .ok (kernel, [])
  | turn :: turns, kernel => do
    let (next, _) ← (turn.change kernel).pendsvSaveAndSwitch turn.sp
    let task ← deref next.current
    let (last, tasks) ← next.switchAll turns
    .ok (last, task :: tasks)

/-- What happens before the switch leaves every `slice_remaining`. -/
def Turn.KeepsSlices (turn : Turn n V Link Head) : Prop :=
  ∀ kernel task, ((turn.change kernel).tcb task).state.sliceRemaining =
    (kernel.tcb task).state.sliceRemaining

/-- The most urgent runnable tasks of the list, cyclically from the node after `CURRENT`. -/
def tier (kernel : Kernel n V Link Head) (order : List (Fin n)) : List (Fin n) :=
  minima kernel.priorityOf (kernel.candidates order)

theorem Undisturbed.sole {after : Kernel n V Link Head} (quiet : Undisturbed kernel after)
    (sole : kernel.Sole order current) : after.Sole order current where
  chain := by
    rw [quiet.links, quiet.allTasks]
    exact sole.chain
  isCurrent := quiet.current.trans sole.isCurrent
  listed := sole.listed
  alone task member different := quiet.running task (sole.alone task member different)

theorem Undisturbed.tier {after : Kernel n V Link Head} (quiet : Undisturbed kernel after)
    (order : List (Fin n)) : after.tier order = kernel.tier order := by
  have priority : after.priorityOf = kernel.priorityOf := funext quiet.priority
  have candidates : after.candidates order = kernel.candidates order := by
    simp only [Kernel.candidates, searchOrder, quiet.current, quiet.runnable]
  rw [Kernel.tier, Kernel.tier, priority, candidates]

/-- One switch dispatches the first task of the tier, which goes to the end. -/
theorem Sole.turn (sole : kernel.Sole order current) (sp : Word)
    (occupied : kernel.tier order ≠ []) :
    ∃ task rest next, kernel.tier order = task :: rest ∧
      kernel.pendsvSaveAndSwitch sp = .ok (next, (next.tcb task).sp) ∧ next.Sole order task ∧
      next.tier order = rest ++ [task] ∧
      ∀ other, (next.tcb other).state.sliceRemaining = (kernel.tcb other).state.sliceRemaining := by
  obtain ⟨urgent, member⟩ := List.exists_mem_of_ne_nil _ occupied
  obtain ⟨task, slice, first, ready, switches⟩ :=
    sole.dispatches sp ⟨urgent, mem_candidates.mp (mem_minima.mp member).1⟩
  have keeps := dispatched_keeps ready
  have listed := (mem_candidates.mp first.mem).1
  obtain ⟨rest, parts⟩ := first.minima_eq
  refine ⟨task, rest, _, parts, switches, sole.dispatched listed ready, ?_,
    fun other => (keeps other).2.2.2⟩
  -- both searches sweep the same ring, the second one from behind `task`
  have swept : task ∈ Rotation.sweep order current := Rotation.mem_sweep.mpr listed
  obtain ⟨seen, unseen, split⟩ := List.append_of_mem swept
  have turned := Rotation.sweep_of_sweep sole.chain.nodup split
  obtain ⟨stands, isStands⟩ : ∃ stands : Fin n → Bool, stands = fun other =>
    (kernel.tcb other).state.runnable := ⟨_, rfl⟩
  have here : stands task = true := by
    rw [isStands]
    exact (mem_candidates.mp first.mem).2
  have before : kernel.candidates order = seen.filter stands ++ task :: unseen.filter stands := by
    rw [candidates, searchOrder, sole.isCurrent, ← isStands]
    simp only [split, List.filter_append, List.filter_cons_of_pos here]
  have after : (kernel.dispatched current sp task slice).candidates order =
      unseen.filter stands ++ (seen.filter stands ++ [task]) := by
    rw [candidates, searchOrder, show (kernel.dispatched current sp task slice).current = some task
      from rfl]
    simp only [(keeps _).2.2.1, turned, List.filter_append, isStands]
    simp [← isStands, here]
  have priority : (kernel.dispatched current sp task slice).priorityOf = kernel.priorityOf :=
    funext fun other => (keeps other).1
  have distinct : (kernel.candidates order).Nodup := by
    rw [candidates, searchOrder, sole.isCurrent]
    exact (Rotation.sweep_nodup sole.chain.nodup).filter _
  rw [before] at distinct
  rw [tier, priority, after]
  exact minima_turn distinct (by rw [← before, parts])

theorem Sole.tier_nodup (sole : kernel.Sole order current) : (kernel.tier order).Nodup := by
  rw [tier, minima, candidates, searchOrder, sole.isCurrent]
  exact ((Rotation.sweep_nodup sole.chain.nodup).filter _).filter _

theorem mem_tier : task ∈ kernel.tier order ↔
    (task ∈ order ∧ (kernel.tcb task).state.runnable = true) ∧
      ∀ other ∈ order, (kernel.tcb other).state.runnable = true →
        kernel.priorityOf task ≤ kernel.priorityOf other := by
  simp only [tier, mem_minima, mem_candidates, and_imp]

/-- Consecutive switches dispatch the tasks of the tier in turn, and turn it by as many. -/
theorem Sole.switchAll (sole : kernel.Sole order current) (turns : List (Turn n V Link Head))
    (occupied : kernel.tier order ≠ []) :
    ∃ last tasks, kernel.switchAll turns = .ok (last, tasks) ∧
      (∃ current, last.Sole order current) ∧
      last.tier order = (kernel.tier order).rotate turns.length ∧
      (turns.length ≤ (kernel.tier order).length →
        tasks = (kernel.tier order).take turns.length) ∧
      ((∀ turn ∈ turns, turn.KeepsSlices) → ∀ task,
        (last.tcb task).state.sliceRemaining = (kernel.tcb task).state.sliceRemaining) := by
  induction turns generalizing kernel current with
  | nil => exact ⟨kernel, [], rfl, ⟨current, sole⟩, by simp, by simp, fun _ _ => rfl⟩
  | cons turn turns ih =>
      have quiet := turn.quiet kernel
      rw [← quiet.tier order] at occupied ⊢
      obtain ⟨task, rest, next, front, switches, soleNext, turned, kept⟩ :=
        (quiet.sole sole).turn turn.sp occupied
      obtain ⟨last, tasks, onward, soleLast, tierLast, dispatched, keptLast⟩ :=
        ih soleNext (by simp [turned])
      rw [turned] at tierLast dispatched
      rw [front]
      refine ⟨last, task :: tasks, ?_, soleLast, ?_, fun enough => ?_, fun keeps other => ?_⟩
      · simp [Kernel.switchAll, switches, soleNext.isCurrent, onward, Except.ok_bind]
      · rw [tierLast, List.length_cons, List.rotate_cons_succ]
      · have fits : turns.length ≤ rest.length := by simpa using enough
        rw [dispatched (by simp; omega), List.take_append_of_le_length fits, List.length_cons,
          List.take_succ_cons]
      · rw [keptLast (fun later member => keeps later (List.mem_cons_of_mem _ member)) other,
          kept other, keeps turn List.mem_cons_self kernel other]

/-- From any state on, as many consecutive switches as there are tasks in the most urgent tier
dispatch each of them once, in cyclic order, and no other; they keep every slice. -/
theorem rotation_cycles (sole : kernel.Sole order current)
    (occupied : ∃ task ∈ order, (kernel.tcb task).state.runnable = true)
    (lead turns : List (Turn n V Link Head)) :
    ∃ middle first last tasks, kernel.switchAll lead = .ok (middle, first) ∧
      middle.switchAll turns = .ok (last, tasks) ∧
      middle.tier order = (kernel.tier order).rotate lead.length ∧
      (turns.length = (kernel.tier order).length → tasks = middle.tier order ∧ tasks.Nodup ∧
        ∀ task, task ∈ tasks ↔ (task ∈ order ∧ (kernel.tcb task).state.runnable = true) ∧
          ∀ other ∈ order, (kernel.tcb other).state.runnable = true →
            kernel.priorityOf task ≤ kernel.priorityOf other) ∧
      ((∀ turn ∈ lead ++ turns, turn.KeepsSlices) → ∀ task,
        (middle.tcb task).state.sliceRemaining = (kernel.tcb task).state.sliceRemaining ∧
          (last.tcb task).state.sliceRemaining = (kernel.tcb task).state.sliceRemaining) := by
  have occupiedTier : kernel.tier order ≠ [] := by
    obtain ⟨task, member, runnable⟩ := occupied
    obtain ⟨urgent, _, first, _⟩ := sole.dispatches 0 ⟨task, member, runnable⟩
    obtain ⟨rest, parts⟩ := first.minima_eq
    simp [tier, parts]
  obtain ⟨middle, first, started, ⟨now, soleMiddle⟩, turned, _, kept⟩ :=
    sole.switchAll lead occupiedTier
  obtain ⟨last, tasks, ended, _, _, dispatched, keptLast⟩ :=
    soleMiddle.switchAll turns (by simp [turned, occupiedTier])
  refine ⟨middle, first, last, tasks, started, ended, turned, fun length => ?_,
    fun keeps task => ⟨?_, ?_⟩⟩
  · have whole : turns.length = (middle.tier order).length := by simp [turned, length]
    obtain rfl : tasks = middle.tier order := by
      rw [dispatched whole.le, whole, List.take_length]
    refine ⟨rfl, soleMiddle.tier_nodup, fun task => ?_⟩
    rw [turned, List.mem_rotate, mem_tier]
  · exact kept (fun turn member => keeps turn (List.mem_append_left _ member)) task
  · rw [keptLast (fun turn member => keeps turn (List.mem_append_right _ member)) task]
    exact kept (fun turn member => keeps turn (List.mem_append_left _ member)) task

/-- Two tasks of priority 10, one of them `CURRENT`: two switches dispatch the other and then
`CURRENT` again. -/
theorem rotation_cycles_small : ∃ kernel small last : Rtos 4 Nat,
    (Config.small 20 10 10).boot Nat (TcbPtr 4) (TcbPtr 4) = .ok kernel ∧
    small = (kernel.setCurrent (some 3)).setState 3 (.running 2) ∧
    small.switchAll [.still _ _ _ _ 8, .still _ _ _ _ 4] = .ok (last, [2, 3]) ∧
    (last.tcb 3).state.sliceRemaining = some 2 := by
  obtain ⟨kernel, small, boot, isSmall, sole, runs, tier⟩ : ∃ kernel small : Rtos 4 Nat,
      (Config.small 20 10 10).boot Nat (TcbPtr 4) (TcbPtr 4) = .ok kernel ∧
      small = (kernel.setCurrent (some 3)).setState 3 (.running 2) ∧
      small.Sole [0, 3, 2, 1] 3 ∧ (small.tcb 3).state = .running 2 ∧
      small.tier [0, 3, 2, 1] = [2, 3] :=
    ⟨_, _, rfl, rfl, ⟨⟨rfl, rfl, rfl, rfl, rfl⟩, rfl, by decide, by decide⟩, rfl, by decide⟩
  obtain ⟨middle, first, last, tasks, started, ended, turned, dispatched, kept⟩ :=
    rotation_cycles sole ⟨3, by decide, by rw [runs]; rfl⟩ [] [.still _ _ _ _ 8, .still _ _ _ _ 4]
  cases started
  rw [tier] at dispatched
  obtain ⟨rfl, _⟩ := dispatched rfl
  refine ⟨kernel, small, last, boot, isSmall, ended, ?_⟩
  rw [(kept (by simp [Turn.KeepsSlices, Turn.still]) 3).2, runs]
  rfl

end Kernel

end Kangaroos
