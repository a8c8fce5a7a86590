import Kangaroos.Abstract.Untouched
import Kangaroos.Logic.OnePass

/-!
# Event groups

A scan of `set` offers the bits of the group to the tasks of one list in turn, so it is one pass
over a queue. Bits are only consumed on the way, and a mask that more bits do not satisfy is not
satisfied by fewer.
-/

namespace Kangaroos

namespace ScanRule

/-- The list a scan goes over. -/
def list : ScanRule → Nat → WaitList
  | .any, event => .eventAny event
  | .all, event => .eventAll event

/-- The bits left after a task has been offered some. -/
def serve {Member : Type} (rule : ScanRule) (masks : Member → Word) (task : Member) (bits : Word) :
    Option Word :=
  (rule.taken bits (masks task)).map fun taken => bits &&& ~~~taken

@[simp] theorem serve_eq_none {Member : Type} {rule : ScanRule} {masks : Member → Word}
    {task : Member} {bits : Word} :
    rule.serve masks task bits = none ↔ rule.taken bits (masks task) = none := by
  simp [serve]

@[simp] theorem taken_any_eq_none {bits mask : Word} :
    ScanRule.any.taken bits mask = none ↔ bits &&& mask = 0 := by
  simp [taken]

@[simp] theorem taken_all_eq_none {bits mask : Word} :
    ScanRule.all.taken bits mask = none ↔ bits &&& mask ≠ mask := by
  simp [taken]

end ScanRule

/-- All bits of one word are in another. -/
def Within (less more : Word) : Prop := more &&& less = less

namespace Within

theorem refl (bits : Word) : Within bits bits := BitVec.and_self

theorem trans {least less more : Word} (left : Within least less) (right : Within less more) :
    Within least more := by
  unfold Within at *
  rw [← left, ← BitVec.and_assoc, right]

/-- Clearing bits. -/
theorem and (bits mask : Word) : Within (bits &&& mask) bits := by
  unfold Within
  rw [← BitVec.and_assoc, BitVec.and_self]

/-- Fewer bits satisfy fewer masks. -/
theorem taken_eq_none {rule : ScanRule} {less more mask : Word} (within : Within less more)
    (refused : rule.taken more mask = none) : rule.taken less mask = none := by
  unfold Within at within
  cases rule with
  | any =>
      rw [ScanRule.taken_any_eq_none] at refused ⊢
      rw [← within, BitVec.and_comm more, BitVec.and_assoc, refused]
      exact BitVec.and_zero
  | all =>
      rw [ScanRule.taken_all_eq_none] at refused ⊢
      intro satisfied
      apply refused
      calc more &&& mask = more &&& (less &&& mask) := by rw [satisfied]
        _ = less &&& mask := by rw [← BitVec.and_assoc, within]
        _ = mask := satisfied

end Within

/-- A scan consumes bits. -/
theorem ScanRule.consuming {Member : Type} (rule : ScanRule) (masks : Member → Word) :
    Consuming (rule.serve masks) Within where
  refl := .refl
  trans := .trans
  consumes {task bits remaining} served := by
    obtain ⟨taken, _, rfl⟩ := Option.map_eq_some_iff.mp served
    exact .and bits _
  refuses within refused := by
    rw [serve_eq_none] at refused ⊢
    exact within.taken_eq_none refused

namespace Spec

variable {n : Nat} {V : Type} {kernel after : Spec n V} {id event : Nat} {flag : Bool}
  {task : Fin n} {rule : ScanRule} {masks : Fin n → Word} {kept rest : List (Fin n)}

/-- What a scan leaves behind: it has served the tasks from `rest` on. -/
structure Scanned (rule : ScanRule) (event : Nat) (masks : Fin n → Word) (kept rest : List (Fin n))
    (kernel after : Spec n V) : Prop where
  bits : after.bits event = (serveAll (rule.serve masks) rest (kernel.bits event)).1
  head : after.waitHead (rule.list event) =
    kept ++ (serveAll (rule.serve masks) rest (kernel.bits event)).2
  heads : ∀ other, other ≠ rule.list event → after.waitHead other = kernel.waitHead other
  current : after.current = kernel.current
  tcb : ∀ task, task ∉ rest ∨ task ∈ (serveAll (rule.serve masks) rest (kernel.bits event)).2 →
    after.tcb task = kernel.tcb task

/-- What `satisfy` leaves behind. -/
theorem satisfy_eq (kernel : Spec n V) (rule : ScanRule) (event : Nat) (task : Fin n) (taken : Word)
    (launched : kernel.current ≠ none) : ∃ after urgent,
    kernel.satisfy rule event task taken = .ok (after, urgent) ∧
      after.bits event = kernel.bits event &&& ~~~taken ∧ after.waitHead = kernel.waitHead ∧
      after.current = kernel.current ∧
      ∀ other, other ≠ task → after.tcb other = kernel.tcb other := by
  cases rule with
  | any =>
      obtain ⟨urgent, woken⟩ := unblock_eq ((kernel.setBits event (kernel.bits event &&& ~~~taken)).setWaitPtr
        task (.word taken)) launched task
      exact ⟨_, urgent, woken, by simp, rfl, rfl, fun other different => by simp [different]⟩
  | all =>
      obtain ⟨urgent, woken⟩ := unblock_eq (kernel.setBits event (kernel.bits event &&& ~~~taken))
        launched task
      exact ⟨_, urgent, woken, by simp, rfl, rfl, fun other different => by simp [different]⟩

/-- A scan over the tasks from `rest` on serves them in one pass. -/
theorem scanList_serves (rule : ScanRule) (event : Nat) (kernel : Spec n V) (masks : Fin n → Word)
    (kept rest : List (Fin n)) (launched : ∀ task ∈ rest, kernel.current ≠ none)
    (words : ∀ task ∈ rest, (kernel.tcb task).waitPtr = .word (masks task))
    (distinct : (kept ++ rest).Nodup)
    (listed : kernel.waitHead (rule.list event) = kept ++ rest) (pend : Bool) :
    ∃ after flag, scanList rule event (rule.list event) rest (kernel, pend) = .ok (after, flag) ∧
      Scanned rule event masks kept rest kernel after := by
  induction rest generalizing kernel kept pend with
  | nil =>
      refine ⟨kernel, pend, rfl, ?_, listed, fun _ _ => rfl, rfl, fun _ _ => rfl⟩
      rfl
  | cons task rest ih =>
      have word : kernel.waitWord task = .ok (masks task) := by
        simp only [Kernel.waitWord, words task List.mem_cons_self]
      have fresh : task ∉ kept ∧ task ∉ rest := by
        have apart := List.nodup_append.mp distinct
        exact ⟨fun isKept => apart.2.2 task isKept task List.mem_cons_self rfl,
          (List.nodup_cons.mp apart.2.1).1⟩
      have launchedRest : ∀ other ∈ rest, kernel.current ≠ none :=
        fun other member => launched other (List.mem_cons_of_mem _ member)
      unfold scanList
      rw [word, Except.ok_bind]
      cases offered : rule.taken (kernel.bits event) (masks task) with
      | some taken =>
          have served : rule.serve masks task (kernel.bits event) =
              some (kernel.bits event &&& ~~~taken) := by
            simp [ScanRule.serve, offered]
          obtain ⟨middle, urgent, satisfied, bits, heads, current, others⟩ := satisfy_eq
            (kernel.remove (rule.list event) task) rule event task taken
            (launched task List.mem_cons_self)
          have left : middle.waitHead (rule.list event) = kept ++ rest := by
            rw [heads, remove_waitHead, Function.update_self, listed,
              List.erase_append_right _ fresh.1, List.erase_cons_head]
          have sameTcb : ∀ other, other ≠ task → middle.tcb other = kernel.tcb other := others
          have notTask : ∀ other ∈ rest, other ≠ task := by
            rintro other member rfl
            exact fresh.2 member
          have distinctRest : (kept ++ rest).Nodup :=
            distinct.sublist (List.Sublist.append_left (List.sublist_cons_self task rest) kept)
          obtain ⟨after, flag, scanned, result⟩ := @ih middle kept
            (fun other member => by rw [current]; exact launchedRest other member)
            (fun other member => by
              rw [sameTcb other (notTask other member)]
              exact words other (List.mem_cons_of_mem _ member))
            distinctRest left (pend || urgent)
          refine ⟨after, flag, ?_, ?_⟩
          · simp only [satisfied, Except.ok_bind]
            exact scanned
          · have bitsLeft : middle.bits event = kernel.bits event &&& ~~~taken := bits
            constructor
            case bits => simp only [serveAll, served]; rw [result.bits, bitsLeft]
            case head => simp only [serveAll, served]; rw [result.head, bitsLeft]
            case heads =>
              intro other different
              rw [result.heads other different, heads, remove_waitHead,
                Function.update_of_ne different]
            case current => exact result.current.trans current
            case tcb =>
              intro other untouched
              simp only [serveAll, served] at untouched
              have different : other ≠ task := by
                rintro rfl
                rcases untouched with outside | isLeft
                · exact outside List.mem_cons_self
                · exact fresh.2 ((serveAll_sublist _ _ _).subset isLeft)
              rw [← bitsLeft] at untouched
              refine (result.tcb other (untouched.imp_left ?_)).trans (sameTcb other different)
              exact fun outside inRest => outside (List.mem_cons_of_mem _ inRest)
      | none =>
          have refused : rule.serve masks task (kernel.bits event) = none := by
            simp [ScanRule.serve, offered]
          obtain ⟨after, flag, scanned, result⟩ := @ih kernel (kept ++ [task])
            launchedRest (fun other member => words other (List.mem_cons_of_mem _ member))
            (by simpa using distinct) (by simpa using listed) pend
          refine ⟨after, flag, scanned, ?_⟩
          constructor
          case bits => simp only [serveAll, refused]; exact result.bits
          case head => simp only [serveAll, refused]; simpa using result.head
          case heads => exact result.heads
          case current => exact result.current
          case tcb =>
            intro other untouched
            simp only [serveAll, refused, List.mem_cons, not_or] at untouched
            refine result.tcb other ?_
            rcases untouched with ⟨_, outside⟩ | rfl | isLeft
            · exact .inl outside
            · exact .inl fresh.2
            · exact .inr isLeft

/-- No task of a group waits for bits that satisfy its mask. -/
def Unserved (kernel : Spec n V) (id : Nat) (masks : Fin n → Word) : Prop :=
  ∀ rule : ScanRule, ∀ task ∈ kernel.waitHead (rule.list id),
    (kernel.tcb task).waitPtr = .word (masks task) ∧
      rule.taken (kernel.bits id) (masks task) = none

namespace Unserved

/-- The same tasks wait, for no more bits. -/
theorem frame (unserved : Unserved kernel id masks)
    (heads : ∀ rule : ScanRule, after.waitHead (rule.list id) = kernel.waitHead (rule.list id))
    (waitPtr : ∀ rule : ScanRule, ∀ task ∈ kernel.waitHead (rule.list id),
      (after.tcb task).waitPtr = (kernel.tcb task).waitPtr)
    (bits : Within (after.bits id) (kernel.bits id)) : Unserved after id masks := by
  intro rule task member
  rw [heads] at member
  obtain ⟨word, refused⟩ := unserved rule task member
  rw [waitPtr rule task member]
  exact ⟨word, bits.taken_eq_none refused⟩

/-- The caller blocks on one of the lists, with bits that do not satisfy its mask. -/
theorem park (unserved : Unserved kernel id masks) (wf : WellFormed kernel none)
    (runs : (kernel.tcb task).state.isRunning = true) (rule : ScanRule) {mask : Word}
    (refused : rule.taken (kernel.bits id) mask = none) :
    Unserved (blockAndPush (kernel.setWaitPtr task (.word mask)) (rule.list id) task) id
      (Function.update masks task mask) := by
  intro other waiter member
  by_cases same : waiter = task
  · subst same
    have own : other = rule := by
      by_contra different
      have away : other.list id ≠ rule.list id := by
        cases other <;> cases rule <;> simp_all [ScanRule.list]
      simp only [blockAndPush, Kernel.setHead_waitHead, Function.update_of_ne away] at member
      exact wf.not_mem_of_running runs member
    subst own
    refine ⟨by simp [blockAndPush], ?_⟩
    simpa [blockAndPush] using refused
  · have listed : waiter ∈ kernel.waitHead (other.list id) := by
      by_cases sameList : other.list id = rule.list id
      · rw [sameList] at member ⊢
        simpa [blockAndPush, same] using member
      · simpa [blockAndPush, sameList] using member
    simpa [blockAndPush, same] using unserved other waiter listed

end Unserved

/-- `wait_any` consumes what matches, or blocks its caller. -/
theorem waitAny_cases {mask : Word} (isCurrent : kernel.current = some task)
    (returned : EventGroup.waitAny kernel id mask = .ok (after, flag)) :
    (∃ matched, ScanRule.any.taken (kernel.bits id) mask = some matched ∧
      after = (kernel.setBits id (kernel.bits id &&& ~~~matched)).setWaitPtr task (.word matched)) ∨
    ScanRule.any.taken (kernel.bits id) mask = none ∧
      after = blockAndPush (kernel.setWaitPtr task (.word mask)) (ScanRule.any.list id) task := by
  unfold EventGroup.waitAny at returned
  simp only [isCurrent, deref_some, Except.ok_bind] at returned
  split at returned
  · rename_i matched
    cases returned
    exact .inl ⟨kernel.bits id &&& mask, if_pos matched, rfl⟩
  · rename_i unmatched
    obtain ⟨blocked, blocks, rest⟩ := Except.ok_of_bind returned
    rw [blockCurrent_eq (show (kernel.setWaitPtr task (.word mask)).current = some task from
      isCurrent)] at blocks
    cases blocks
    cases rest
    exact .inr ⟨by simpa using unmatched, rfl⟩

/-- `wait_all` consumes its mask, or blocks its caller. -/
theorem waitAll_cases {mask : Word} (isCurrent : kernel.current = some task)
    (returned : EventGroup.waitAll kernel id mask = .ok (after, flag)) :
    (ScanRule.all.taken (kernel.bits id) mask = some mask ∧
      after = kernel.setBits id (kernel.bits id &&& ~~~mask)) ∨
    ScanRule.all.taken (kernel.bits id) mask = none ∧
      after = blockAndPush (kernel.setWaitPtr task (.word mask)) (ScanRule.all.list id) task := by
  unfold EventGroup.waitAll at returned
  split at returned
  · rename_i matched
    cases returned
    exact .inl ⟨if_pos matched, rfl⟩
  · rename_i unmatched
    simp only [isCurrent, deref_some, Except.ok_bind] at returned
    obtain ⟨blocked, blocks, rest⟩ := Except.ok_of_bind returned
    rw [blockCurrent_eq (show (kernel.setWaitPtr task (.word mask)).current = some task from
      isCurrent)] at blocks
    cases blocks
    cases rest
    exact .inr ⟨by simpa using unmatched, rfl⟩

end Spec

/-- The sections on an event group. -/
theorem Call.uses_event {V : Type} {call : Call V} {id : Nat} (uses : .event id ∈ call.uses) :
    (∃ mask, call = .set id mask) ∨ (∃ mask trigger, call = .setFromIsr id mask trigger) ∨
      (∃ mask, call = .clear id mask) ∨ (∃ mask, call = .waitAny id mask) ∨
      ∃ mask, call = .waitAll id mask := by
  cases call <;> simp_all [Call.uses]

end Kangaroos
