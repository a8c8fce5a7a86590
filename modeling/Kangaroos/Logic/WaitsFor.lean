import Mathlib.Data.Fintype.EquivFin
import Mathlib.Logic.Relation
import Mathlib.Order.WellFounded

/-!
# Waits-for graphs

Tasks wait for locks, and a lock has at most one owner. A set of tasks is stuck when each of
them is gone or waits for a lock another of them owns: as long as only a task that acts gives
up what it owns, nobody in such a set acts again. If locks are ranked and every task waits for
a lock ranked above all those it owns, nobody waits in a circle.
-/

/-- Who waits for which lock, who owns it, and who will not act again. -/
structure WaitGraph (Task Lock : Type*) where
  waits : Task → Lock → Prop
  owner : Lock → Option Task
  gone : Task → Prop

namespace WaitGraph

variable {Task Lock : Type*} {graph before after : WaitGraph Task Lock}

/-- A task waits for another: for a lock the other owns. -/
def WaitsFor (graph : WaitGraph Task Lock) (task other : Task) : Prop :=
  ∃ lock, graph.waits task lock ∧ graph.owner lock = some other

/-- A task that does not act: it is gone, or it waits. -/
def Idle (graph : WaitGraph Task Lock) (task : Task) : Prop :=
  graph.gone task ∨ ∃ lock, graph.waits task lock

/-- Nobody in the set acts before another in the set does. -/
def Stuck (graph : WaitGraph Task Lock) (tasks : Set Task) : Prop :=
  ∀ task ∈ tasks, graph.gone task ∨ ∃ other ∈ tasks, graph.WaitsFor task other

theorem Stuck.idle {tasks : Set Task} (stuck : graph.Stuck tasks) {task : Task}
    (member : task ∈ tasks) : graph.Idle task := by
  rcases stuck task member with gone | ⟨_, _, lock, waits, _⟩
  · exact .inl gone
  · exact .inr ⟨lock, waits⟩

/-- What is gone stays gone, and an owner that does not act keeps the lock and those who wait
for it. -/
structure Keeps (before after : WaitGraph Task Lock) : Prop where
  gone : ∀ task, before.gone task → after.gone task
  owner : ∀ lock owner, before.owner lock = some owner → before.Idle owner →
    after.owner lock = some owner
  waits : ∀ task lock owner, before.waits task lock → before.owner lock = some owner →
    before.Idle owner → after.waits task lock

/-- A stuck set stays stuck. -/
theorem Stuck.keeps {tasks : Set Task} (stuck : before.Stuck tasks) (keeps : Keeps before after) :
    after.Stuck tasks := by
  intro task member
  rcases stuck task member with gone | ⟨other, otherMember, lock, waits, owned⟩
  · exact .inl (keeps.gone task gone)
  · have idle := stuck.idle otherMember
    exact .inr ⟨other, otherMember, lock, keeps.waits task lock other waits owned idle,
      keeps.owner lock other owned idle⟩

section Urgency

variable {Urgency : Type*} [Preorder Urgency] {urgency : Task → Urgency}

/-- Every owner is at least as urgent as those who wait for it (the least value is the most
urgent). -/
def Lends (graph : WaitGraph Task Lock) (urgency : Task → Urgency) : Prop :=
  ∀ task other, graph.WaitsFor task other → urgency other ≤ urgency task

/-- So is the last owner of a chain as urgent as its first task. -/
theorem Lends.chain (lends : graph.Lends urgency) {task last : Task}
    (chain : Relation.ReflTransGen graph.WaitsFor task last) : urgency last ≤ urgency task := by
  induction chain with
  | refl => exact le_rfl
  | tail _ step ih => exact (lends _ _ step).trans ih

end Urgency

/-- Every task waits for locks ranked above all those it owns. -/
def Ranked (graph : WaitGraph Task Lock) (rank : Lock → Nat) : Prop :=
  ∀ task lock held, graph.waits task lock → graph.owner held = some task → rank held < rank lock

namespace Ranked

variable {rank : Lock → Nat}

/-- Ranks grow along a chain of waiting tasks, from the lock its first task waits for to the
lock its last task owns. -/
theorem rank_le (ranked : graph.Ranked rank) {task last : Task}
    (chain : Relation.TransGen graph.WaitsFor task last) :
    ∃ first final, graph.waits task first ∧ graph.owner final = some last ∧
      rank first ≤ rank final := by
  induction chain with
  | single step =>
      obtain ⟨lock, waits, owned⟩ := step
      exact ⟨lock, lock, waits, owned, le_rfl⟩
  | tail _ step ih =>
      obtain ⟨first, final, waits, owned, ordered⟩ := ih
      obtain ⟨lock, waitsNext, ownedNext⟩ := step
      exact ⟨first, lock, waits, ownedNext, ordered.trans (ranked _ lock final waitsNext owned).le⟩

/-- Nobody waits in a circle. -/
theorem irrefl (ranked : graph.Ranked rank) (task : Task) :
    ¬Relation.TransGen graph.WaitsFor task task := by
  intro circle
  obtain ⟨first, final, waits, owned, ordered⟩ := ranked.rank_le circle
  exact absurd (ranked task first final waits owned) (not_lt.mpr ordered)

variable [Finite Task]

/-- Waiting is well-founded. -/
theorem wellFounded (ranked : graph.Ranked rank) :
    WellFounded fun other task => Relation.TransGen graph.WaitsFor task other := by
  have irreflexive : Std.Irrefl fun other task => Relation.TransGen graph.WaitsFor task other :=
    ⟨ranked.irrefl⟩
  have transitive : IsTrans Task fun other task => Relation.TransGen graph.WaitsFor task other :=
    ⟨fun _ _ _ near far => far.trans near⟩
  exact Finite.wellFounded_of_trans_of_irrefl _

/-- Every task leads to one that waits for nobody. -/
theorem exists_last (ranked : graph.Ranked rank) (task : Task) :
    ∃ last, Relation.ReflTransGen graph.WaitsFor task last ∧ ∀ other, ¬graph.WaitsFor last other := by
  induction task using ranked.wellFounded.induction with
  | _ task ih =>
      by_cases waits : ∃ other, graph.WaitsFor task other
      · obtain ⟨other, step⟩ := waits
        obtain ⟨last, chain, ends⟩ := ih other (.single step)
        exact ⟨last, chain.head step, ends⟩
      · exact ⟨task, .refl, not_exists.mp waits⟩

/-- A stuck set has somebody in it who is gone. -/
theorem exists_gone (ranked : graph.Ranked rank) {tasks : Set Task} (stuck : graph.Stuck tasks)
    (nonempty : tasks.Nonempty) : ∃ task ∈ tasks, graph.gone task := by
  obtain ⟨task, member⟩ := nonempty
  induction task using ranked.wellFounded.induction with
  | _ task ih =>
      rcases stuck task member with gone | ⟨other, otherMember, step⟩
      · exact ⟨task, member, gone⟩
      · exact ih other (.single step) otherMember

end Ranked

end WaitGraph
