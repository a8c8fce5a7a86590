import Mathlib.Data.List.Rotate

/-!
# Sweeps around a ring

A round-robin search reads a list as a ring: it begins behind the element that had the last
turn and comes back to it at the end. `gap` counts the elements it meets before a target, and
whatever it meets before the target is closer to it.
-/

namespace Rotation

variable {α : Type*} [DecidableEq α] {ring seen unseen : List α} {last task target : α}

/-- One sweep around `ring`: it begins behind `last` and ends with it. -/
def sweep (ring : List α) (last : α) : List α := ring.rotate (ring.idxOf last + 1)

/-- How many elements a sweep that begins behind `last` meets before `target`. -/
def gap (ring : List α) (target last : α) : Nat := (sweep ring last).idxOf target

/-- A sweep has the members of the ring. -/
theorem mem_sweep : task ∈ sweep ring last ↔ task ∈ ring := List.mem_rotate

/-- It visits none of them twice. -/
theorem sweep_nodup (distinct : ring.Nodup) : (sweep ring last).Nodup :=
  List.nodup_rotate.mpr distinct

/-- It starts behind the last one and comes back to it. -/
theorem sweep_append {before rest : List α} (fresh : last ∉ before) :
    sweep (before ++ last :: rest) last = rest ++ (before ++ [last]) := by
  have position : (before ++ last :: rest).idxOf last + 1 = (before ++ [last]).length := by
    rw [List.idxOf_append_of_notMem fresh]
    simp
  rw [sweep, position, List.append_cons before last rest]
  exact List.rotate_append_length_eq _ _

/-- The last one is visited last. -/
theorem sweep_eq_append (distinct : ring.Nodup) (member : last ∈ ring) :
    ∃ others, sweep ring last = others ++ [last] ∧ last ∉ others := by
  obtain ⟨before, rest, rfl⟩ := List.append_of_mem member
  have fresh : last ∉ before := fun inBefore =>
    (List.nodup_append.mp distinct).2.2 last inBefore last List.mem_cons_self rfl
  refine ⟨rest ++ before, by simp [sweep_append fresh], fun again => ?_⟩
  have later := (List.nodup_cons.mp (List.nodup_append.mp distinct).2.1).1
  exact (List.mem_append.mp again).elim later fresh

/-- A sweep does not depend on where the ring is cut open. -/
theorem sweep_rotate (distinct : ring.Nodup) (member : last ∈ ring) (count : Nat) :
    sweep (ring.rotate count) last = sweep ring last := by
  have member' : last ∈ ring.rotate count := List.mem_rotate.mpr member
  have bound := List.idxOf_lt_length_of_mem member'
  have here : (ring.rotate count)[(ring.rotate count).idxOf last] = last := List.getElem_idxOf bound
  rw [List.getElem_rotate] at here
  have position : ring.idxOf last =
      ((ring.rotate count).idxOf last + count) % ring.length := by
    conv_lhs => rw [← here]
    exact distinct.idxOf_getElem _ _
  rw [sweep, sweep, List.rotate_rotate, position, ← List.rotate_mod ring (_ % _ + 1),
    Nat.mod_add_mod, List.rotate_mod, Nat.add_right_comm, Nat.add_comm count]

/-- A sweep that begins later begins with what is left of this one. -/
theorem sweep_of_sweep (distinct : ring.Nodup) (parts : sweep ring last = seen ++ task :: unseen) :
    sweep ring task = unseen ++ (seen ++ [task]) := by
  have member : task ∈ ring := by
    have swept : task ∈ sweep ring last := by simp [parts]
    exact mem_sweep.mp swept
  have distinctParts : (sweep ring last).Nodup := sweep_nodup distinct
  rw [parts] at distinctParts
  have fresh : task ∉ seen := fun inSeen =>
    (List.nodup_append.mp distinctParts).2.2 task inSeen task List.mem_cons_self rfl
  calc sweep ring task = sweep (sweep ring last) task := (sweep_rotate distinct member _).symm
    _ = sweep (seen ++ task :: unseen) task := by rw [parts]
    _ = unseen ++ (seen ++ [task]) := sweep_append fresh

/-- What a sweep meets before the target is closer to it. -/
theorem gap_lt (distinct : ring.Nodup) (parts : sweep ring last = seen ++ unseen)
    (met : task ∈ seen) (ahead : target ∈ unseen) : gap ring target task < gap ring target last := by
  obtain ⟨earlier, later, rfl⟩ := List.append_of_mem met
  have distinctParts : (sweep ring last).Nodup := sweep_nodup distinct
  rw [parts] at distinctParts
  have unmet : target ∉ earlier ++ task :: later := fun inSeen =>
    (List.nodup_append.mp distinctParts).2.2 target inSeen target ahead rfl
  have fresh : target ∉ later := fun inLater =>
    unmet (List.mem_append_right _ (List.mem_cons_of_mem _ inLater))
  have turned : sweep ring task = later ++ unseen ++ (earlier ++ [task]) :=
    sweep_of_sweep distinct (by rw [parts]; simp)
  have near : gap ring target task = later.length + unseen.idxOf target := by
    rw [gap, turned, List.append_assoc, List.idxOf_append_of_notMem fresh,
      List.idxOf_append_of_mem ahead]
  have far : gap ring target last =
      (earlier ++ task :: later).length + unseen.idxOf target := by
    rw [gap, parts, List.idxOf_append_of_notMem unmet]
  rw [near, far, List.length_append, List.length_cons]
  omega

end Rotation
