import Mathlib.Data.List.MinMax
import Mathlib.Data.List.Perm.Basic
import Mathlib.Order.Lattice

/-!
# The first minimum of a list

A search loop that replaces its best candidate by strictly better ones ends with the
first element of minimal key. `FirstMin key list chosen` states that outcome; the rules
follow the loop, which sees the list one element at a time.
-/

variable {α β : Type*} [LinearOrder β]

/-- `chosen` has the least key of the list, and is the first to have it. -/
def FirstMin (key : α → β) (list : List α) (chosen : α) : Prop :=
  ∃ before after, list = before ++ chosen :: after ∧
    (∀ other ∈ before, key chosen < key other) ∧ ∀ other ∈ after, key chosen ≤ key other

namespace FirstMin

variable {key : α → β} {list : List α} {chosen next : α}

theorem mem (first : FirstMin key list chosen) : chosen ∈ list := by
  obtain ⟨before, after, rfl, _, _⟩ := first
  simp

theorem le (first : FirstMin key list chosen) {other : α} (member : other ∈ list) :
    key chosen ≤ key other := by
  obtain ⟨before, after, rfl, earlier, later⟩ := first
  rcases List.mem_append.mp member with inBefore | inRest
  · exact (earlier other inBefore).le
  · rcases List.mem_cons.mp inRest with rfl | inAfter
    · exact le_refl _
    · exact later other inAfter

/-- A list has one first minimum. -/
theorem unique {other : α} (left : FirstMin key list chosen) (right : FirstMin key list other) :
    chosen = other := by
  induction list with
  | nil => exact absurd left.mem List.not_mem_nil
  | cons head rest ih =>
      have tail : ∀ {first : α}, FirstMin key (head :: rest) first → first ≠ head →
          FirstMin key rest first := by
        rintro first ⟨before, after, split, earlier, later⟩ different
        cases before with
        | nil => exact absurd (List.cons.inj split).1.symm different
        | cons _ before =>
            exact ⟨before, after, (List.cons.inj split).2,
              fun other member => earlier other (List.mem_cons_of_mem _ member), later⟩
      have notLater : ∀ {first : α}, FirstMin key (head :: rest) first → first ≠ head →
          key first < key head := by
        rintro first ⟨before, after, split, earlier, _⟩ different
        cases before with
        | nil => exact absurd (List.cons.inj split).1.symm different
        | cons _ before =>
            obtain rfl := (List.cons.inj split).1
            exact earlier head List.mem_cons_self
      by_cases isLeft : chosen = head
      · by_cases isRight : other = head
        · exact isLeft.trans isRight.symm
        · subst isLeft
          exact absurd (left.le right.mem) (not_le.mpr (notLater right isRight))
      · by_cases isRight : other = head
        · subst isRight
          exact absurd (right.le left.mem) (not_le.mpr (notLater left isLeft))
        · exact ih (tail left isLeft) (tail right isRight)

/-- An element below all others seen. -/
theorem of_lt (least : ∀ other ∈ list, key next < key other) : FirstMin key (list ++ [next]) next :=
  ⟨list, [], rfl, least, by simp⟩

/-- The next element replaces the best one. -/
theorem replace (first : FirstMin key list chosen) (less : key next < key chosen) :
    FirstMin key (list ++ [next]) next :=
  of_lt fun _ member => less.trans_le (first.le member)

/-- The next element is passed over. -/
theorem keep (first : FirstMin key list chosen) (least : key chosen ≤ key next) :
    FirstMin key (list ++ [next]) chosen := by
  obtain ⟨before, after, rfl, earlier, later⟩ := first
  refine ⟨before, after ++ [next], by simp, earlier, fun other member => ?_⟩
  rcases List.mem_append.mp member with inAfter | isNext
  · exact later other inAfter
  · rw [List.mem_singleton.mp isNext]
    exact least

/-- The last element is only chosen when it is below all others. -/
theorem lt_of_last (first : FirstMin key (list ++ [chosen]) chosen) (fresh : chosen ∉ list) :
    ∀ other ∈ list, key chosen < key other := by
  obtain ⟨before, after, split, earlier, _⟩ := first
  obtain rfl | ⟨rest, last, rfl⟩ := after.eq_nil_or_concat
  · obtain rfl : list = before := List.append_cancel_right split
    exact earlier
  · have inList : chosen ∈ list := by
      have same := congrArg List.dropLast split
      simp only [List.dropLast_concat, List.concat_eq_append, ← List.cons_append,
        ← List.append_assoc] at same
      rw [same]
      simp
    exact absurd inList fresh

/-- `argmin` is the first minimum. -/
theorem of_argmin (least : list.argmin key = some chosen) : FirstMin key list chosen := by
  induction list using List.reverseRecOn generalizing chosen with
  | nil => simp at least
  | append_singleton rest last ih =>
      rw [List.argmin_concat] at least
      cases found : rest.argmin key with
      | none =>
          obtain rfl : rest = [] := List.argmin_eq_none.mp found
          obtain rfl : last = chosen := by simpa [found] using least
          exact of_lt (by simp)
      | some best =>
          simp only [found] at least
          split at least
          · rename_i less
            obtain rfl : last = chosen := Option.some.inj least
            exact (ih found).replace less
          · rename_i notLess
            obtain rfl : best = chosen := Option.some.inj least
            exact (ih found).keep (not_lt.mp notLess)

/-- A list that is not empty has one. -/
theorem exists_of_ne_nil (key : α → β) (nonempty : list ≠ []) : ∃ chosen, FirstMin key list chosen := by
  obtain ⟨chosen, least⟩ := Option.ne_none_iff_exists'.mp
    (mt (List.argmin_eq_none (f := key)).mp nonempty)
  exact ⟨chosen, of_argmin least⟩

end FirstMin

/-- The elements of least key, in the order of the list. -/
def minima (key : α → β) (list : List α) : List α :=
  list.filter fun element => ∀ other ∈ list, key element ≤ key other

section Minima

variable {key : α → β} {list seen unseen rest : List α} {element chosen : α}

theorem mem_minima :
    element ∈ minima key list ↔ element ∈ list ∧ ∀ other ∈ list, key element ≤ key other := by
  simp [minima]

/-- The first minimum comes first. -/
theorem FirstMin.minima_eq (first : FirstMin key list chosen) :
    ∃ rest, minima key list = chosen :: rest := by
  have least : ∀ other ∈ list, key chosen ≤ key other := fun other member => first.le member
  obtain ⟨before, after, parts, earlier, _⟩ := first
  have skipped : (before.filter fun element => ∀ other ∈ list, key element ≤ key other) = [] := by
    refine List.filter_eq_nil_iff.mpr fun other member => ?_
    have below : ¬ ∀ another ∈ list, key other ≤ key another := fun low =>
      absurd (low chosen (by simp [parts])) (not_le.mpr (earlier other member))
    simpa using below
  refine ⟨after.filter fun element => ∀ other ∈ list, key element ≤ key other, ?_⟩
  calc minima key list
      = (before ++ chosen :: after).filter fun element => ∀ other ∈ list, key element ≤ key other := by
        rw [← parts, minima]
    _ = _ := by
        rw [List.filter_append, skipped, List.nil_append,
          List.filter_cons_of_pos (by simpa using least)]

/-- Turning the list until its first minimum is at the end turns the minima by one. -/
theorem minima_turn (distinct : (seen ++ chosen :: unseen).Nodup)
    (first : minima key (seen ++ chosen :: unseen) = chosen :: rest) :
    minima key (unseen ++ (seen ++ [chosen])) = rest ++ [chosen] := by
  obtain ⟨low, isLow⟩ : ∃ low : α → Bool, low = fun element =>
    decide (∀ other ∈ seen ++ chosen :: unseen, key element ≤ key other) := ⟨_, rfl⟩
  have turned : minima key (unseen ++ (seen ++ [chosen])) =
      unseen.filter low ++ (seen.filter low ++ [chosen].filter low) := by
    rw [minima, ← List.filter_append, ← List.filter_append, isLow]
    congr 1
    funext element
    refine decide_eq_decide.mpr (forall_congr' fun other => imp_congr_left ?_)
    simp only [List.mem_append, List.mem_cons, List.not_mem_nil, or_false]
    tauto
  have isLeast : low chosen = true := by
    have member : chosen ∈ minima key (seen ++ chosen :: unseen) := by simp [first]
    rw [isLow]
    exact decide_eq_true (mem_minima.mp member).2
  have parts : seen.filter low ++ chosen :: unseen.filter low = chosen :: rest := by
    rw [← first, minima, ← isLow, List.filter_append, List.filter_cons_of_pos isLeast]
  rw [turned]
  cases skipped : seen.filter low with
  | nil =>
      rw [skipped] at parts
      rw [(List.cons.inj parts).2]
      simp [isLeast]
  | cons element more =>
      rw [skipped] at parts
      obtain rfl : element = chosen := (List.cons.inj parts).1
      have again : element ∈ seen := List.mem_of_mem_filter (by rw [skipped]; exact List.mem_cons_self)
      exact absurd rfl ((List.nodup_append.mp distinct).2.2 element again element List.mem_cons_self)

end Minima

/-- Taking the first minimum out of a list, until none is left. -/
inductive Picks (key : α → β) : List α → List α → Prop where
  | done : Picks key [] []
  | pick {before behind order : List α} {chosen : α}
      (earlier : ∀ other ∈ before, key chosen < key other)
      (later : ∀ other ∈ behind, key chosen ≤ key other)
      (rest : Picks key (before ++ behind) order) :
      Picks key (before ++ chosen :: behind) (chosen :: order)

namespace Picks

variable {key : α → β} {list order : List α}

/-- Every element is picked once. -/
theorem perm (picks : Picks key list order) : order.Perm list := by
  induction picks with
  | done => exact .refl _
  | pick earlier later rest ih => exact (ih.cons _).trans List.perm_middle.symm

/-- Smaller keys are picked first, and equal ones in the order of the list. -/
theorem stable (picks : Picks key list order) : order.Pairwise fun first second =>
    key first < key second ∨ key first = key second ∧ [first, second].Sublist list := by
  induction picks with
  | done => exact .nil
  | @pick before behind order chosen earlier later rest ih =>
      have shorter : (before ++ behind).Sublist (before ++ chosen :: behind) :=
        (List.sublist_cons_self chosen behind).append_left before
      refine List.pairwise_cons.mpr ⟨fun other member => ?_,
        ih.imp fun ordered => ordered.imp_right (And.imp_right fun inList => inList.trans shorter)⟩
      rcases List.mem_append.mp (rest.perm.subset member) with inBefore | inBehind
      · exact .inl (earlier other inBefore)
      · refine (later other inBehind).lt_or_eq.imp_right fun tie => ⟨tie, ?_⟩
        have pair : [chosen, other].Sublist (chosen :: behind) :=
          (List.singleton_sublist.mpr inBehind).cons_cons chosen
        exact pair.trans (List.sublist_append_right before _)

end Picks
