import Kangaroos.Kernel.State

/-!
# Scheduler core

`find_next`, `tick`, `unblock` and the two context-switch helpers. None of them
follows a wait link, so each is written once for both levels of the model. A
`while` loop over `ALL_TASKS` carries the number of TCBs as fuel: a traversal
that outlives it has visited some TCB twice and never ends.
-/

namespace Kangaroos

namespace Kernel

variable {n : Nat} {V Link Head : Type}

/-- The body of both search loops of `find_next`: `best` is the best task so far
with its priority. -/
def consider (kernel : Kernel n V Link Head) (task : Fin n) (best : TcbPtr n × U8) :
    TcbPtr n × U8 :=
  if (kernel.tcb task).state.runnable = true ∧
      (best.1 = none ∨ (kernel.tcb task).priority < best.2) then
    (some task, (kernel.tcb task).priority)
  else best

/-- Where `find_next` starts: the node after `CURRENT`, or the list head. -/
def searchStart (kernel : Kernel n V Link Head) : TcbPtr n :=
  match kernel.current with
  | none => kernel.allTasks
  | some current =>
    match (kernel.tcb current).allNext with
    | none => kernel.allTasks
    | some next => some next

/-- One search loop of `find_next`: from a node to the end of the list or to `stop`. -/
def searchPass (kernel : Kernel n V Link Head) (stop : TcbPtr n) :
    Nat → TcbPtr n → TcbPtr n × U8 → Exec (TcbPtr n × U8)
  | _, none, best => .ok best
  | 0, some _, _ => .error .diverges
  | fuel + 1, some task, best =>
    if some task = stop then .ok best
    else searchPass kernel stop fuel (kernel.tcb task).allNext (kernel.consider task best)

/-- `find_next`. -/
def findNext (kernel : Kernel n V Link Head) : Exec (Fin n) := do
  let start := kernel.searchStart
  let best ← kernel.searchPass none n start (none, 255)
  let best ← if kernel.current = none then .ok best
    else kernel.searchPass start n kernel.allTasks best
  match best.1 with
  | some task => .ok task
  | none => .error .noReadyTask

/-- A sleeper whose deadline has passed becomes ready. -/
def wakeDue (kernel : Kernel n V Link Head) (now : U64) (task : Fin n) : Kernel n V Link Head :=
  match (kernel.tcb task).state with
  | .sleeping deadline =>
    if deadline ≤ now then kernel.setState task (.ready (kernel.tcb task).timeSlice)
    else kernel
  | _ => kernel

/-- The fused loop of `tick`: wake the sleepers that are due and look for a ready
task more urgent than the current one. -/
def tickWake (now : U64) (current : Fin n) (curPrio : U8) :
    Nat → TcbPtr n → Kernel n V Link Head × Bool → Exec (Kernel n V Link Head × Bool)
  | _, none, acc => .ok acc
  | 0, some _, _ => .error .diverges
  | fuel + 1, some task, (kernel, shouldPreempt) =>
    if task = current then
      tickWake now current curPrio fuel (kernel.tcb task).allNext (kernel, shouldPreempt)
    else
      let woken := kernel.wakeDue now task
      let preempt := shouldPreempt ||
        ((woken.tcb task).state.isReady && decide ((woken.tcb task).priority < curPrio))
      tickWake now current curPrio fuel (woken.tcb task).allNext (woken, preempt)

/-- The rotation loop of `tick`: is an equal-priority peer of the current task ready? -/
def tickPeer (kernel : Kernel n V Link Head) (current : Fin n) (curPrio : U8) :
    Nat → TcbPtr n → Exec Bool
  | _, none => .ok false
  | 0, some _ => .error .diverges
  | fuel + 1, some task =>
    if task ≠ current ∧ (kernel.tcb task).state.isReady = true ∧
        (kernel.tcb task).priority = curPrio then .ok true
    else tickPeer kernel current curPrio fuel (kernel.tcb task).allNext

/-- The slice accounting of `tick`: decrement, and on expiry reload and look for a peer. -/
def tickSlice (kernel : Kernel n V Link Head) (current : Fin n) (curPrio : U8) :
    Exec (Kernel n V Link Head × Bool) :=
  match (kernel.tcb current).state with
  | .running slice =>
    let remaining := if 0 < slice then slice - 1 else slice
    if remaining = 0 then do
      let reloaded := kernel.setState current (.running (kernel.tcb current).timeSlice)
      let peer ← reloaded.tickPeer current curPrio n reloaded.allTasks
      .ok (reloaded, peer)
    else .ok (kernel.setState current (.running remaining), false)
  | _ => .ok (kernel, false)

/-- `tick`: the new state, and whether PendSV should be triggered. -/
def tick (kernel : Kernel n V Link Head) : Exec (Kernel n V Link Head × Bool) :=
  let kernel := kernel.modifyStatics fun statics => { statics with tickCount := statics.tickCount + 1 }
  match kernel.current with
  | none => .ok (kernel, false)
  | some current =>
    if (kernel.tcb current).state.isRunning = true then do
      let curPrio := (kernel.tcb current).priority
      let (kernel, shouldPreempt) ←
        tickWake kernel.tickCount current curPrio n kernel.allTasks (kernel, false)
      if shouldPreempt then .ok (kernel, true)
      else kernel.tickSlice current curPrio
    else .ok (kernel, false)

/-- The canary loop of `systick_handler`: `canaryCheck` tells whether the canary at a stack
base is intact. -/
def canaryPass (kernel : Kernel n V Link Head) (canaryCheck : Word → Bool) :
    Nat → TcbPtr n → Exec Unit
  | _, none => .ok ()
  | 0, some _ => .error .diverges
  | fuel + 1, some task =>
    if (kernel.tcb task).state.live = true ∧ canaryCheck (kernel.tcb task).stackBase = false then
      .error .stackOverflow
    else kernel.canaryPass canaryCheck fuel (kernel.tcb task).allNext

/-- `systick_handler`: the new state, and whether it triggered PendSV. -/
def systickHandler (canaryCheck : Word → Bool) (kernel : Kernel n V Link Head) :
    Exec (Kernel n V Link Head × Bool) := do
  let (kernel, pendsv) ← kernel.tick
  kernel.canaryPass canaryCheck n kernel.allTasks
  .ok (kernel, pendsv)

/-- `unblock`: mark `task` ready, and say whether it is more urgent than `CURRENT`. -/
def unblock (kernel : Kernel n V Link Head) (task : Fin n) :
    Exec (Kernel n V Link Head × Bool) := do
  let kernel := kernel.setState task (.ready (kernel.tcb task).timeSlice)
  let current ← deref kernel.current
  .ok (kernel, decide ((kernel.tcb task).priority < (kernel.tcb current).priority))

/-- The selection loop of `svc_first_task_sp`. -/
def svcSearch (kernel : Kernel n V Link Head) :
    Nat → TcbPtr n → TcbPtr n × U8 → Exec (TcbPtr n × U8)
  | _, none, best => .ok best
  | 0, some _, _ => .error .diverges
  | fuel + 1, some task, best =>
    let best :=
      if (kernel.tcb task).state.isReady = true ∧ (kernel.tcb task).priority < best.2 then
        (some task, (kernel.tcb task).priority)
      else best
    svcSearch kernel fuel (kernel.tcb task).allNext best

/-- Turn a `Ready` task into a `Running` one; any other state is `unreachable!()`. -/
def markRunning (kernel : Kernel n V Link Head) (task : Fin n) : Exec (Kernel n V Link Head) :=
  match (kernel.tcb task).state with
  | .ready slice => .ok (kernel.setState task (.running slice))
  | _ => .error .unreachable

/-- `svc_first_task_sp`: the new state and the stack pointer of the first task. -/
def svcFirstTaskSp (kernel : Kernel n V Link Head) : Exec (Kernel n V Link Head × Word) := do
  let (best, _) ← kernel.svcSearch n kernel.allTasks (none, 255)
  let kernel := kernel.setCurrent best
  let first ← deref best
  let kernel ← kernel.markRunning first
  .ok (kernel, (kernel.tcb first).sp)

/-- `svc_first_task_sp` of ARMv8-M: its loop is the same text. The state, the stack limit
it installs in `PSPLIM`, and the stack pointer of the first task. -/
def svcFirstTaskSpV8m (kernel : Kernel n V Link Head) :
    Exec (Kernel n V Link Head × Word × Word) := do
  let (best, _) ← kernel.svcSearch n kernel.allTasks (none, 255)
  let kernel := kernel.setCurrent best
  let first ← deref best
  let kernel ← kernel.markRunning first
  .ok (kernel, (kernel.tcb first).stackBase, (kernel.tcb first).sp)

/-- The first half of `pendsv_save_and_switch`: save the stack pointer of `CURRENT`
and turn it from `Running` to `Ready`. -/
def saveCurrent (kernel : Kernel n V Link Head) (currentSp : Word) :
    Exec (Kernel n V Link Head) := do
  let old ← deref kernel.current
  let kernel := kernel.modifyTcb old fun tcb => { tcb with sp := currentSp }
  match (kernel.tcb old).state with
  | .running slice => .ok (kernel.setState old (.ready slice))
  | _ => .ok kernel

/-- `pendsv_save_and_switch`: the new state and the stack pointer of the next task. -/
def pendsvSaveAndSwitch (kernel : Kernel n V Link Head) (currentSp : Word) :
    Exec (Kernel n V Link Head × Word) := do
  let kernel ← kernel.saveCurrent currentSp
  let next ← kernel.findNext
  let kernel := kernel.setCurrent (some next)
  let kernel ← kernel.markRunning next
  .ok (kernel, (kernel.tcb next).sp)

end Kernel

end Kangaroos
