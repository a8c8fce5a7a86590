import Mathlib.Data.List.Nodup
import Mathlib.Data.List.Perm.Basic
import Mathlib.Logic.Function.Basic

/-!
# Ledgers

The books of a queue that many parties send to and receive from. On the way in,
an item that was sent is rejected, has entered the queue, or is still held
outside it; `Ledger` says that these three account for every item once and that
the items of one sender enter in the order they were sent. On the way out,
`Delivery` says that a receiver gets what left the queue for it, in order, except
for the item it is still in the middle of receiving.
-/

variable {S R V : Type*} [DecidableEq S] [DecidableEq R]

/-- Every item of `sent` is in one place, and no sender is overtaken by itself. A sender
has one held item at most. -/
structure Ledger (sent rejected entered held : List (S × V)) : Prop where
  perm : sent.Perm (rejected ++ (entered ++ held))
  ordered : ∀ who, ((entered ++ held).filter (·.1 = who)).Sublist (sent.filter (·.1 = who))
  distinct : (held.map Prod.fst).Nodup

/-- What left a queue for `who` was returned to it, in order, less the item in `flight`. -/
def Delivery (left returned : List (R × V)) (flight : R → Option V) : Prop :=
  ∀ who, left.filter (·.1 = who) = returned.filter (·.1 = who) ++ (flight who).toList.map (who, ·)

namespace Ledger

variable {sent rejected entered held : List (S × V)} {item : S × V} {who : S}

/-- Books without entries. -/
theorem empty : Ledger ([] : List (S × V)) [] [] [] :=
  ⟨.refl _, fun _ => .refl _, List.nodup_nil⟩

/-- A sender without a held item has none among the held ones. -/
theorem filter_eq_nil (absent : who ∉ held.map Prod.fst) : held.filter (·.1 = who) = [] := by
  rw [List.filter_eq_nil_iff]
  intro item member same
  exact absent (List.mem_map.mpr ⟨item, member, by simpa using same⟩)

/-- Of distinct senders, one has one item at most. -/
theorem length_filter_le_one (distinct : (held.map Prod.fst).Nodup) (who : S) :
    (held.filter (·.1 = who)).length ≤ 1 := by
  induction held with
  | nil => exact Nat.zero_le 1
  | cons item rest ih =>
      obtain ⟨absent, distinctRest⟩ := List.nodup_cons.mp distinct
      by_cases same : item.1 = who
      · subst same
        simp [filter_eq_nil absent]
      · simpa [List.filter_cons, same] using ih distinctRest

/-- A sender hands over an item; it is held until something is done with it. -/
theorem send (ledger : Ledger sent rejected entered held) (absent : who ∉ held.map Prod.fst)
    (value : V) :
    Ledger (sent ++ [(who, value)]) rejected entered ((who, value) :: held) where
  perm := by
    have grown : (sent ++ [(who, value)]).Perm
        (rejected ++ (entered ++ held) ++ [(who, value)]) := ledger.perm.append_right _
    refine grown.trans ?_
    simp only [List.append_assoc]
    exact ((List.perm_append_singleton _ held).append_left _).append_left _
  ordered other := by
    have before := ledger.ordered other
    rw [List.filter_append] at before ⊢
    rw [List.filter_append]
    by_cases same : who = other
    · subst same
      rw [filter_eq_nil absent, List.append_nil] at before
      have last := before.append (List.Sublist.refl [(who, value)])
      simpa [List.filter_cons, filter_eq_nil absent] using last
    · simpa [List.filter_cons, same] using before
  distinct := List.nodup_cons.mpr ⟨absent, ledger.distinct⟩

/-- A held item enters the queue. -/
theorem enter (ledger : Ledger sent rejected entered (item :: held)) :
    Ledger sent rejected (entered ++ [item]) held where
  perm := by simpa using ledger.perm
  ordered := by simpa using ledger.ordered
  distinct := (List.nodup_cons.mp ledger.distinct).2

/-- A held item is rejected. -/
theorem reject (ledger : Ledger sent rejected entered (item :: held)) :
    Ledger sent (rejected ++ [item]) entered held where
  perm := by
    refine ledger.perm.trans ?_
    rw [List.append_assoc]
    exact List.perm_middle.append_left _
  ordered who := by
    refine List.Sublist.trans ?_ (ledger.ordered who)
    exact (((List.sublist_cons_self item held).append_left entered)).filter _
  distinct := (List.nodup_cons.mp ledger.distinct).2

/-- The order in which items are held does not matter. -/
theorem reorder {held' : List (S × V)} (ledger : Ledger sent rejected entered held)
    (perm : held.Perm held') : Ledger sent rejected entered held' where
  perm := ledger.perm.trans ((perm.append_left _).append_left _)
  ordered who := by
    have before := ledger.ordered who
    have same : held.filter (·.1 = who) = held'.filter (·.1 = who) := by
      have alike := perm.filter (·.1 = who)
      have short := length_filter_le_one ledger.distinct who
      generalize held.filter (·.1 = who) = mine at alike short
      match mine, short with
      | [], _ => exact (List.nil_perm.mp alike).symm
      | [only], _ => exact List.singleton_perm.mp alike
    rw [List.filter_append] at before ⊢
    rwa [← same]
  distinct := (perm.map Prod.fst).nodup_iff.mp ledger.distinct

end Ledger

namespace Delivery

variable {left returned : List (R × V)} {flight : R → Option V} {who : R} {value : V}

/-- Nothing has left. -/
theorem empty : Delivery ([] : List (R × V)) [] fun _ => none := fun _ => rfl

/-- An item leaves for a receiver that is not in the middle of receiving. -/
theorem leave (delivery : Delivery left returned flight) (idle : flight who = none) (value : V) :
    Delivery (left ++ [(who, value)]) returned (Function.update flight who (some value)) := by
  intro other
  have before := delivery other
  rw [List.filter_append, before]
  by_cases same : who = other
  · subst same
    simp [idle]
  · simp [Ne.symm same, same]

/-- The item in flight is returned. -/
theorem arrive (delivery : Delivery left returned flight) (flies : flight who = some value) :
    Delivery left (returned ++ [(who, value)]) (Function.update flight who none) := by
  intro other
  have before := delivery other
  rw [List.filter_append, before]
  by_cases same : who = other
  · subst same
    simp [flies]
  · simp [Ne.symm same, same]

end Delivery
