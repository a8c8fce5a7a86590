import Kangaroos.Abstract.Events

/-!
# What a setter hands out

The two scans of `set` share the bits out among the waiters: a `wait_any` task gets the bits of its
mask that are there, a `wait_all` task its mask. Every bit stays in the group or goes to one task.
-/

namespace Kangaroos

/-- A bit of a word. -/
def Word.Holds (bits : Word) (bit : Nat) : Prop := bits.getLsbD bit = true

namespace Word

theorem lt_of_holds {bits : Word} {bit : Nat} (held : bits.Holds bit) : bit < 32 :=
  BitVec.lt_of_getLsbD held

@[simp] theorem holds_and {bits mask : Word} {bit : Nat} :
    (bits &&& mask).Holds bit ↔ bits.Holds bit ∧ mask.Holds bit := by
  simp [Holds]

@[simp] theorem holds_or {bits other : Word} {bit : Nat} :
    (bits ||| other).Holds bit ↔ bits.Holds bit ∨ other.Holds bit := by
  simp [Holds]

/-- Clearing bits. -/
theorem holds_clear {bits taken : Word} {bit : Nat} :
    (bits &&& ~~~taken).Holds bit ↔ bits.Holds bit ∧ ¬taken.Holds bit := by
  rw [holds_and]
  refine and_congr_right fun held => ?_
  simp [Holds, lt_of_holds held]

theorem and_eq_zero_iff {bits other : Word} :
    bits &&& other = 0 ↔ ∀ bit, bits.Holds bit → ¬other.Holds bit := by
  constructor
  · intro empty bit held heldToo
    have both := holds_and.mpr ⟨held, heldToo⟩
    rw [empty] at both
    simp [Holds] at both
  · intro apart
    apply BitVec.eq_of_getLsbD_eq
    intro bit _
    rw [Bool.eq_iff_iff]
    constructor
    · intro both
      obtain ⟨held, heldToo⟩ := holds_and.mp both
      exact absurd heldToo (apart bit held)
    · intro zero
      simp at zero

theorem and_ne_zero_iff {bits other : Word} :
    bits &&& other ≠ 0 ↔ ∃ bit, bits.Holds bit ∧ other.Holds bit := by
  rw [ne_eq, and_eq_zero_iff]
  push Not
  rfl

/-- Putting shares together. -/
theorem holds_foldl {Member : Type} (shares : List (Member × Word)) (bits : Word) (bit : Nat) :
    (shares.foldl (fun bits share => bits ||| share.2) bits).Holds bit ↔
      bits.Holds bit ∨ ∃ share ∈ shares, share.2.Holds bit := by
  induction shares generalizing bits with
  | nil => simp
  | cons first rest ih =>
      rw [List.foldl_cons, ih]
      simp [Holds, or_assoc]

theorem eq_of_holds {bits other : Word} (same : ∀ bit, bits.Holds bit ↔ other.Holds bit) :
    bits = other :=
  BitVec.eq_of_getLsbD_eq fun bit _ => Bool.eq_iff_iff.mpr (same bit)

end Word

theorem Within.iff_holds {less more : Word} :
    Within less more ↔ ∀ bit, less.Holds bit → more.Holds bit := by
  constructor
  · intro within bit held
    rw [Within] at within
    rw [← within] at held
    exact (Word.holds_and.mp held).1
  · intro holds
    refine Word.eq_of_holds fun bit => ?_
    rw [Word.holds_and]
    exact and_iff_right_of_imp (holds bit)

namespace ScanRule

variable {Member : Type} {rule : ScanRule} {bits mask taken : Word}

/-- Whom a scan wakes, and with which bits. -/
def grants (rule : ScanRule) (masks : Member → Word) (waiters : List Member) (bits : Word) :
    List (Member × Word) :=
  shareOut (fun task bits => rule.taken bits (masks task)) (fun bits taken => bits &&& ~~~taken)
    waiters bits

/-- A `wait_any` task takes the bits of its mask that are there, and there is one. -/
theorem taken_any (takes : ScanRule.any.taken bits mask = some taken) :
    taken = bits &&& mask ∧ taken ≠ 0 := by
  simp only [ScanRule.taken, ne_eq] at takes
  split at takes
  · rename_i matched
    cases takes
    exact ⟨rfl, matched⟩
  · cases takes

/-- A `wait_all` task takes its mask, and all of it is there. -/
theorem taken_all (takes : ScanRule.all.taken bits mask = some taken) :
    taken = mask ∧ bits &&& mask = mask := by
  simp only [ScanRule.taken] at takes
  split at takes
  · rename_i matched
    cases takes
    exact ⟨rfl, matched⟩
  · cases takes

theorem holds_of_taken (takes : rule.taken bits mask = some taken) (bit : Nat)
    (held : taken.Holds bit) : bits.Holds bit := by
  cases rule with
  | any =>
      rw [(taken_any takes).1] at held
      exact (Word.holds_and.mp held).1
  | all =>
      obtain ⟨rfl, matched⟩ := taken_all takes
      rw [← matched] at held
      exact (Word.holds_and.mp held).1

/-- A task that is granted nothing stays. -/
theorem mem_of_not_granted [DecidableEq Member] {masks : Member → Word} {waiters : List Member}
    {task : Member} (distinct : waiters.Nodup) (member : task ∈ waiters)
    (refused : task ∉ (rule.grants masks waiters bits).map Prod.fst) :
    task ∈ (serveAll (rule.serve masks) waiters bits).2 := by
  have left : (serveAll (rule.serve masks) waiters bits).2 =
      waiters.filter (· ∉ (rule.grants masks waiters bits).map Prod.fst) :=
    serveAll_eq_filter distinct _
  rw [left, List.mem_filter]
  exact ⟨member, decide_eq_true refused⟩

/-- What the scan leaves does not satisfy it. -/
theorem refused_of_not_granted [DecidableEq Member] {masks : Member → Word} {waiters : List Member}
    {task : Member} (distinct : waiters.Nodup) (member : task ∈ waiters)
    (refused : task ∉ (rule.grants masks waiters bits).map Prod.fst) :
    rule.taken (serveAll (rule.serve masks) waiters bits).1 (masks task) = none :=
  ScanRule.serve_eq_none.mp
    ((rule.consuming masks).refuses_of_mem (mem_of_not_granted distinct member refused))

theorem grants_sharedOut (rule : ScanRule) (masks : Member → Word) (waiters : List Member)
    (bits : Word) : SharedOut Word.Holds Word.Holds bits (rule.grants masks waiters bits)
      (serveAll (rule.serve masks) waiters bits).1 :=
  shareOut_sharedOut (fun takes => holds_of_taken takes) (fun _ _ _ => Word.holds_clear) waiters bits

end ScanRule

namespace EventGroup

variable {Member : Type}

/-- What the first scan leaves. -/
def leftByAny (masks : Member → Word) (any : List Member) (bits : Word) : Word :=
  (serveAll (ScanRule.any.serve masks) any bits).1

/-- Whom a setter wakes, and with which bits. -/
def grants (masks : Member → Word) (any all : List Member) (bits : Word) : List (Member × Word) :=
  ScanRule.any.grants masks any bits ++ ScanRule.all.grants masks all (leftByAny masks any bits)

/-- A `wait_any` task takes the bits of its mask that the tasks before it have left. -/
theorem grant_any {masks : Member → Word} {any : List Member} {bits : Word}
    {earlier later : List (Member × Word)} {grant : Member × Word}
    (split : ScanRule.any.grants masks any bits = earlier ++ grant :: later) :
    grant.2 = earlier.foldl (fun bits grant => bits &&& ~~~grant.2) bits &&& masks grant.1 ∧
      grant.2 ≠ 0 :=
  ScanRule.taken_any (grant_of_split split)

/-- A `wait_all` task takes its mask. -/
theorem grant_all {masks : Member → Word} {all : List Member} {bits : Word}
    {grant : Member × Word} (granted : grant ∈ ScanRule.all.grants masks all bits) :
    grant.2 = masks grant.1 := by
  obtain ⟨_, offered, takes⟩ := of_mem_shareOut granted
  exact (ScanRule.taken_all takes).1

/-- What both scans leave. -/
def left (masks : Member → Word) (any all : List Member) (bits : Word) : Word :=
  (serveAll (ScanRule.all.serve masks) all (leftByAny masks any bits)).1

theorem grants_sharedOut (masks : Member → Word) (any all : List Member) (bits : Word) :
    SharedOut Word.Holds Word.Holds bits (grants masks any all bits) (left masks any all bits) :=
  (ScanRule.any.grants_sharedOut masks any bits).append
    (ScanRule.all.grants_sharedOut masks all _)

end EventGroup

namespace Spec

variable {n : Nat} {V : Type} {kernel after : Spec n V} {id event : Nat} {flag pend : Bool}
  {task : Fin n} {rule : ScanRule} {masks : Fin n → Word} {list : WaitList} {kept rest : List (Fin n)}

/-- A satisfied waiter is ready, and a `wait_any` task has its bits in `wait_ptr`. -/
theorem satisfy_task {taken : Word}
    (returned : kernel.satisfy rule event task taken = .ok (after, flag)) :
    after.bits event = kernel.bits event &&& ~~~taken ∧
      (∀ other, other ≠ task → after.tcb other = kernel.tcb other) ∧
      (after.tcb task).state.isReady = true ∧
      (rule = .any → (after.tcb task).waitPtr = .word taken) := by
  obtain ⟨current, _, done⟩ := Except.ok_of_bind returned
  cases rule with
  | any =>
      cases done
      exact ⟨by simp, fun other different => by simp [different], by simp, fun _ => by simp⟩
  | all =>
      cases done
      exact ⟨by simp, fun other different => by simp [different], by simp, by simp⟩

/-- A scan wakes the tasks it grants bits to, and leaves the tasks outside its list alone. -/
theorem scanList_grants
    (returned : scanList rule event list rest (kernel, pend) = .ok (after, flag))
    (words : ∀ task ∈ rest, (kernel.tcb task).waitPtr = .word (masks task))
    (distinct : rest.Nodup) :
    (∀ task, task ∉ rest → after.tcb task = kernel.tcb task) ∧
      ∀ grant ∈ rule.grants masks rest (kernel.bits event),
        (after.tcb grant.1).state.isReady = true ∧
          (rule = .any → (after.tcb grant.1).waitPtr = .word grant.2) := by
  induction rest generalizing kernel pend with
  | nil =>
      cases returned
      exact ⟨fun _ _ => rfl, by simp [ScanRule.grants, shareOut]⟩
  | cons task rest ih =>
      obtain ⟨fresh, distinctRest⟩ := List.nodup_cons.mp distinct
      have word : kernel.waitWord task = .ok (masks task) := by
        simp only [Kernel.waitWord, words task List.mem_cons_self]
      unfold scanList at returned
      rw [word, Except.ok_bind] at returned
      cases offered : rule.taken (kernel.bits event) (masks task) with
      | none =>
          simp only [offered] at returned
          obtain ⟨same, granted⟩ := ih returned
            (fun other member => words other (List.mem_cons_of_mem _ member)) distinctRest
          refine ⟨fun other outside => same other fun member =>
            outside (List.mem_cons_of_mem _ member), ?_⟩
          simp only [ScanRule.grants, shareOut, offered]
          exact granted
      | some taken =>
          simp only [offered] at returned
          obtain ⟨⟨middle, urgent⟩, satisfied, onward⟩ := Except.ok_of_bind returned
          obtain ⟨bits, others, ready, value⟩ := satisfy_task satisfied
          have kept : ∀ other ∈ rest, middle.tcb other = kernel.tcb other := by
            intro other member
            refine others other ?_
            rintro rfl
            exact fresh member
          obtain ⟨same, granted⟩ := ih onward
            (fun other member => by
              rw [kept other member]
              exact words other (List.mem_cons_of_mem _ member)) distinctRest
          rw [show middle.bits event = kernel.bits event &&& ~~~taken from bits] at granted
          refine ⟨fun other outside => ?_, ?_⟩
          · rw [List.mem_cons, not_or] at outside
            exact (same other outside.2).trans (others other outside.1)
          · simp only [ScanRule.grants, shareOut, offered, List.forall_mem_cons]
            rw [same task fresh]
            exact ⟨⟨ready, value⟩, granted⟩

/-- A scan leaves the tasks alone that it grants no bits. -/
theorem Scanned.keeps (scanned : Scanned rule event masks kept rest kernel after)
    (distinct : rest.Nodup)
    (outside : task ∉ (rule.grants masks rest (kernel.bits event)).map Prod.fst) :
    after.tcb task = kernel.tcb task := by
  refine scanned.tcb task ?_
  by_cases member : task ∈ rest
  · exact .inr (ScanRule.mem_of_not_granted distinct member outside)
  · exact .inl member

/-- Whom a setter wakes of the tasks that wait for the group, and with which bits. -/
def grants (kernel : Spec n V) (id : Nat) (masks : Fin n → Word) (bits : Word) :
    List (Fin n × Word) :=
  EventGroup.grants masks (kernel.waitHead (.eventAny id)) (kernel.waitHead (.eventAll id)) bits

/-- What a setter leaves behind. -/
structure Delivered (id : Nat) (masks : Fin n → Word) (bits : Word) (before after : Spec n V) :
    Prop where
  remaining : after.bits id = EventGroup.left masks (before.waitHead (.eventAny id))
    (before.waitHead (.eventAll id)) bits
  waiters : ∀ rule : ScanRule, after.waitHead (rule.list id) =
    (before.waitHead (rule.list id)).filter (· ∉ (before.grants id masks bits).map Prod.fst)
  woken : ∀ grant ∈ before.grants id masks bits, (after.tcb grant.1).state.isReady = true
  value : ∀ grant ∈ before.grants id masks bits, grant.1 ∈ before.waitHead (.eventAny id) →
    (after.tcb grant.1).waitPtr = .word grant.2
  kept : ∀ task, task ∉ (before.grants id masks bits).map Prod.fst →
    after.tcb task = before.tcb task

/-- Only waiters of the list are granted bits. -/
theorem mem_of_grants {waiters : List (Fin n)} {bits : Word}
    (granted : task ∈ (rule.grants masks waiters bits).map Prod.fst) : task ∈ waiters :=
  (shareOut_sublist waiters bits).subset granted

/-- So only waiters are. -/
theorem waits_of_granted {bits : Word}
    (granted : task ∈ (kernel.grants id masks bits).map Prod.fst) :
    task ∈ kernel.waitHead (.eventAny id) ∨ task ∈ kernel.waitHead (.eventAll id) := by
  rw [grants, EventGroup.grants, List.map_append, List.mem_append] at granted
  exact granted.imp mem_of_grants mem_of_grants

/-- No task waits on both lists of a group. -/
theorem WellFormed.apart_event (wf : WellFormed kernel none)
    (inAny : task ∈ kernel.waitHead (.eventAny id)) : task ∉ kernel.waitHead (.eventAll id) := by
  intro inAll
  cases wf.list_unique inAny inAll

/-- No task is granted bits twice. -/
theorem grants_nodup (wf : WellFormed kernel none) {bits : Word} :
    ((kernel.grants id masks bits).map Prod.fst).Nodup := by
  rw [grants, EventGroup.grants, List.map_append]
  refine List.nodup_append.mpr ⟨(wf.nodup _).sublist (shareOut_sublist _ _),
    (wf.nodup _).sublist (shareOut_sublist _ _), ?_⟩
  rintro task inAny _ inAll rfl
  exact wf.apart_event (mem_of_grants inAny) (mem_of_grants inAll)

/-- A `wait_any` task is granted some bits of its mask. -/
theorem grant_within (wf : WellFormed kernel none) {bits : Word} {grant : Fin n × Word}
    (member : grant ∈ kernel.grants id masks bits)
    (waited : grant.1 ∈ kernel.waitHead (.eventAny id)) :
    grant.2 ≠ 0 ∧ Within grant.2 (masks grant.1) := by
  rcases List.mem_append.mp member with inAny | inAll
  · obtain ⟨_, offered, takes⟩ := of_mem_shareOut inAny
    obtain ⟨share, some⟩ := ScanRule.taken_any takes
    refine ⟨some, ?_⟩
    rw [share, BitVec.and_comm]
    exact .and (masks grant.1) offered
  · exact absurd (mem_of_grants (List.mem_map_of_mem inAll)) (wf.apart_event waited)

/-- A setter terminates and delivers. -/
theorem setFromIsr_delivers (wf : WellFormed kernel none)
    (launched : ∀ rule : ScanRule, ∀ task ∈ kernel.waitHead (rule.list id), kernel.current ≠ none)
    (words : ∀ rule : ScanRule, ∀ task ∈ kernel.waitHead (rule.list id),
      (kernel.tcb task).waitPtr = .word (masks task)) (mask : Word) :
    ∃ after flag, EventGroup.setFromIsr kernel id mask = .ok (after, flag) ∧
      Delivered id masks (kernel.bits id ||| mask) kernel after := by
  obtain ⟨start, isStart⟩ : ∃ start : Spec n V, start =
    kernel.setBits id (kernel.bits id ||| mask) := ⟨_, rfl⟩
  have startBits : start.bits id = kernel.bits id ||| mask := by simp [isStart]
  have startHead : start.waitHead = kernel.waitHead := by rw [isStart]; rfl
  have startTcb : start.tcb = kernel.tcb := by rw [isStart]; rfl
  have startCurrent : start.current = kernel.current := by rw [isStart]; rfl
  have apart : ∀ task, task ∈ kernel.waitHead (.eventAny id) →
      task ∉ kernel.waitHead (.eventAll id) := fun task => wf.apart_event
  have wordsAny : ∀ task ∈ kernel.waitHead (.eventAny id),
      (start.tcb task).waitPtr = .word (masks task) := by
    rw [startTcb]
    exact words .any
  obtain ⟨first, flag, scansAny, anyDone⟩ := scanList_serves .any id start masks []
    (kernel.waitHead (.eventAny id)) (fun task member => startCurrent ▸ launched .any task member)
    wordsAny (wf.nodup _) (by rw [startHead]; rfl) false
  obtain ⟨sameAny, granted⟩ := scanList_grants scansAny wordsAny (wf.nodup _)
  have allHead : first.waitHead (.eventAll id) = kernel.waitHead (.eventAll id) := by
    rw [anyDone.heads _ (by simp [ScanRule.list]), startHead]
  have wordsAll : ∀ task ∈ kernel.waitHead (.eventAll id),
      (first.tcb task).waitPtr = .word (masks task) := by
    intro task member
    rw [sameAny task fun inAny => apart task inAny member, startTcb]
    exact words .all task member
  obtain ⟨second, flag', scansAll, allDone⟩ := scanList_serves .all id first masks []
    (kernel.waitHead (.eventAll id))
    (fun task member => by
      rw [anyDone.current, startCurrent]
      exact launched .all task member)
    wordsAll (wf.nodup _) allHead false
  obtain ⟨sameAll, granted'⟩ := scanList_grants scansAll wordsAll (wf.nodup _)
  have middleBits : first.bits id = EventGroup.leftByAny masks (kernel.waitHead (.eventAny id))
      (kernel.bits id ||| mask) := by
    rw [anyDone.bits, startBits]
    rfl
  rw [startBits] at granted
  rw [middleBits] at granted'
  have fromAny : ∀ grant ∈ ScanRule.any.grants masks (kernel.waitHead (.eventAny id))
      (kernel.bits id ||| mask), grant.1 ∈ kernel.waitHead (.eventAny id) :=
    fun grant member => mem_of_grants (List.mem_map_of_mem member)
  have fromAll : ∀ grant ∈ ScanRule.all.grants masks (kernel.waitHead (.eventAll id))
      (first.bits id), grant.1 ∈ kernel.waitHead (.eventAll id) :=
    fun grant member => mem_of_grants (List.mem_map_of_mem member)
  rw [middleBits] at fromAll
  refine ⟨second, flag || flag', ?_, ?_⟩
  · have scanAny : WaitOps.scan (kernel.setBits id (kernel.bits id ||| mask)) .any id (.eventAny id) =
        .ok (first, flag) := by
      rw [← isStart]
      refine Eq.trans ?_ scansAny
      rw [← startHead]
      rfl
    have scanAll : WaitOps.scan first .all id (.eventAll id) = .ok (second, flag') := by
      refine Eq.trans ?_ scansAll
      rw [← allHead]
      rfl
    simp only [EventGroup.setFromIsr, scanAny, scanAll, Except.ok_bind]
  · constructor
    case remaining =>
      rw [allDone.bits, middleBits]
      rfl
    case waiters =>
      intro rule
      cases rule with
      | any =>
          have head : second.waitHead (.eventAny id) =
              (serveAll (ScanRule.any.serve masks) (kernel.waitHead (.eventAny id))
                (kernel.bits id ||| mask)).2 := by
            rw [allDone.heads _ (by simp [ScanRule.list]), ← startBits]
            exact anyDone.head
          change second.waitHead (.eventAny id) = _
          rw [head]
          refine (serveAll_eq_filter (wf.nodup _) _).trans (List.filter_congr fun task member => ?_)
          have outside : task ∉ (ScanRule.all.grants masks (kernel.waitHead (.eventAll id))
              (EventGroup.leftByAny masks (kernel.waitHead (.eventAny id))
                (kernel.bits id ||| mask))).map Prod.fst :=
            fun granted => apart task member (mem_of_grants granted)
          simp only [Spec.grants, EventGroup.grants, List.map_append, List.mem_append, outside,
            or_false]
          rfl
      | all =>
          have head : second.waitHead (.eventAll id) =
              (serveAll (ScanRule.all.serve masks) (kernel.waitHead (.eventAll id))
                (first.bits id)).2 := allDone.head
          change second.waitHead (.eventAll id) = _
          rw [head, middleBits]
          refine (serveAll_eq_filter (wf.nodup _) _).trans (List.filter_congr fun task member => ?_)
          have outside : task ∉ (ScanRule.any.grants masks (kernel.waitHead (.eventAny id))
              (kernel.bits id ||| mask)).map Prod.fst :=
            fun granted => apart task (mem_of_grants granted) member
          simp only [Spec.grants, EventGroup.grants, List.map_append, List.mem_append, outside,
            false_or]
          rfl
    case woken =>
      intro grant member
      rcases List.mem_append.mp member with inAny | inAll
      · rw [sameAll grant.1 (apart _ (fromAny grant inAny))]
        exact (granted grant inAny).1
      · exact (granted' grant inAll).1
    case value =>
      intro grant member waited
      rcases List.mem_append.mp member with inAny | inAll
      · rw [sameAll grant.1 (apart _ waited)]
        exact (granted grant inAny).2 rfl
      · exact absurd (fromAll grant inAll) (apart _ waited)
    case kept =>
      intro task outside
      simp only [Spec.grants, EventGroup.grants, List.map_append, List.mem_append, not_or] at outside
      rw [← middleBits, ← startBits] at outside
      exact (allDone.keeps (wf.nodup _) outside.2).trans
        ((anyDone.keeps (wf.nodup _) outside.1).trans (congrFun startTcb task))

/-- A setter terminates, and leaves nobody behind whom the remaining bits satisfy. -/
theorem Unserved.setFromIsr (unserved : Unserved kernel id masks) (wf : WellFormed kernel none)
    (launched : ∀ rule : ScanRule, ∀ task ∈ kernel.waitHead (rule.list id), kernel.current ≠ none)
    (mask : Word) : ∃ after flag, EventGroup.setFromIsr kernel id mask = .ok (after, flag) ∧
      Unserved after id masks := by
  obtain ⟨after, flag, sets, delivered⟩ := setFromIsr_delivers wf launched
    (fun rule task member => (unserved rule task member).1) mask
  refine ⟨after, flag, sets, fun rule task member => ?_⟩
  rw [delivered.waiters, List.mem_filter] at member
  have refused := of_decide_eq_true member.2
  rw [delivered.kept task refused, delivered.remaining]
  refine ⟨(unserved rule task member.1).1, ?_⟩
  rw [grants, EventGroup.grants, List.map_append, List.mem_append, not_or] at refused
  cases rule with
  | any =>
      have fewer := (ScanRule.all.consuming masks).serveAll_le (kernel.waitHead (.eventAll id))
        (EventGroup.leftByAny masks (kernel.waitHead (.eventAny id)) (kernel.bits id ||| mask))
      exact fewer.taken_eq_none (ScanRule.refused_of_not_granted (wf.nodup _) member.1 refused.1)
  | all => exact ScanRule.refused_of_not_granted (wf.nodup _) member.1 refused.2

end Spec

end Kangaroos
