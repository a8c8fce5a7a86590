import Mathlib.Algebra.BigOperators.Group.Finset.Basic
import Mathlib.Algebra.Order.Group.Multiset

/-!
# Custody

Resources that are handed from place to place. `Custody places all` says that the
places hold exactly the resources of `all`, each as often as `all` has it: nothing is
lost, nothing is in two places. A step that hands one resource over keeps custody,
whatever the places are.
-/

open scoped BigOperators

variable {Place Item : Type*} [Fintype Place]

/-- Together the places hold exactly `all`. -/
def Custody (places : Place → Multiset Item) (all : Multiset Item) : Prop :=
  ∑ place, places place = all

namespace Custody

variable {before after : Place → Multiset Item} {all : Multiset Item} {item : Item}

/-- At first one place holds everything. -/
theorem start (first : Place) (holds : before first = all)
    (others : ∀ place, place ≠ first → before place = 0) : Custody before all := by
  rw [Custody, Finset.sum_eq_single first (fun place _ => others place) (by simp), holds]

/-- Nothing moves. -/
theorem congr (custody : Custody before all) (same : ∀ place, after place = before place) :
    Custody after all := by
  rwa [Custody, funext same]

/-- What a place holds is among the resources. -/
theorem le (custody : Custody before all) (place : Place) : before place ≤ all := by
  classical
  rw [← show _ = all from custody, ← Finset.add_sum_erase _ before (Finset.mem_univ place)]
  exact Multiset.le_add_right _ _

theorem mem (custody : Custody before all) {place : Place} (member : item ∈ before place) :
    item ∈ all :=
  Multiset.mem_of_le (custody.le place) member

/-- A place holds a resource once. -/
theorem nodup (custody : Custody before all) (distinct : all.Nodup) (place : Place) :
    (before place).Nodup :=
  Multiset.nodup_of_le (custody.le place) distinct

/-- Two places do not hold the same resource. -/
theorem unique (custody : Custody before all) (distinct : all.Nodup) {first second : Place}
    (left : item ∈ before first) (right : item ∈ before second) : first = second := by
  classical
  by_contra different
  rw [← show _ = all from custody, ← Finset.add_sum_erase _ before (Finset.mem_univ first)]
    at distinct
  have apart := (Multiset.nodup_add.mp distinct).2.2
  have other : second ∈ Finset.univ.erase first := by simp [Ne.symm different]
  have rest : item ∈ ∑ place ∈ Finset.univ.erase first, before place :=
    Multiset.mem_sum.mpr ⟨second, other, right⟩
  exact Multiset.disjoint_left.mp apart left rest

/-- A new resource comes to a place. -/
theorem grow (custody : Custody before all) (target : Place)
    (into : after target = item ::ₘ before target)
    (others : ∀ place, place ≠ target → after place = before place) :
    Custody after (item ::ₘ all) := by
  classical
  rw [← show _ = all from custody, Custody, ← Finset.add_sum_erase _ after (Finset.mem_univ target),
    ← Finset.add_sum_erase _ before (Finset.mem_univ target), into, Multiset.cons_add]
  congr 2
  refine Finset.sum_congr rfl fun place member => ?_
  exact others place (Finset.ne_of_mem_erase member)

/-- One resource is handed over. -/
theorem transfer (custody : Custody before all) (source target : Place) (item : Item)
    (different : source ≠ target) (out : before source = item ::ₘ after source)
    (into : after target = item ::ₘ before target)
    (others : ∀ place, place ≠ source → place ≠ target → after place = before place) :
    Custody after all := by
  classical
  have targetLeft : target ∈ Finset.univ.erase source := by simp [Ne.symm different]
  have split : ∀ places : Place → Multiset Item, ∑ place, places place =
      places source + (places target +
        ∑ place ∈ (Finset.univ.erase source).erase target, places place) := by
    intro places
    rw [Finset.add_sum_erase _ places targetLeft,
      Finset.add_sum_erase _ places (Finset.mem_univ source)]
  have rest : ∑ place ∈ (Finset.univ.erase source).erase target, after place =
      ∑ place ∈ (Finset.univ.erase source).erase target, before place := by
    refine Finset.sum_congr rfl fun place member => ?_
    simp only [Finset.mem_erase, Finset.mem_univ, and_true] at member
    exact others place member.2 member.1
  calc ∑ place, after place
      = after source + (after target +
          ∑ place ∈ (Finset.univ.erase source).erase target, after place) := split after
    _ = before source + (before target +
          ∑ place ∈ (Finset.univ.erase source).erase target, before place) := by
        rw [into, out, rest, Multiset.cons_add, Multiset.cons_add, Multiset.add_cons]
    _ = ∑ place, before place := (split before).symm
    _ = all := custody

end Custody
