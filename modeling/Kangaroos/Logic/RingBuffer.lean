import Mathlib.Data.List.Basic
import Mathlib.Data.Nat.ModEq
import Mathlib.Logic.Function.Basic

/-!
# Ring buffers

A ring buffer keeps a queue in a fixed number of cells, with the indices of its
first element and of the cell behind its last. `RingBuffer` relates the fields to the
queue; the rules are one for each end. Cells that hold no element are not
constrained.
-/

/-- The `count` cells from `head` on, wrapping at `capacity`, hold `contents` in order. -/
structure RingBuffer {α : Type*} (buf : Nat → Option α) (capacity head tail count : Nat)
    (contents : List α) : Prop where
  length : contents.length = count
  bounded : count ≤ capacity
  head_lt : 0 < capacity → head < capacity
  tail_eq : 0 < capacity → tail = (head + count) % capacity
  cells : ∀ offset < count, buf ((head + offset) % capacity) = contents[offset]?

namespace RingBuffer

variable {α : Type*} {buf : Nat → Option α} {capacity head tail count : Nat} {contents : List α}

/-- A ring without elements. -/
theorem empty (buf : Nat → Option α) (capacity : Nat) : RingBuffer buf capacity 0 0 0 [] where
  length := rfl
  bounded := Nat.zero_le _
  head_lt := id
  tail_eq _ := (Nat.zero_mod capacity).symm
  cells _ impossible := absurd impossible (Nat.not_lt_zero _)

/-- The tail stays inside the buffer. -/
theorem tail_lt (ring : RingBuffer buf capacity head tail count contents) (positive : 0 < capacity) :
    tail < capacity := by
  rw [ring.tail_eq positive]
  exact Nat.mod_lt _ positive

/-- Two offsets of one turn are different cells. -/
theorem offset_ne {first second : Nat} (before : first < second) (turn : second < capacity) :
    (head + first) % capacity ≠ (head + second) % capacity := by
  intro same
  have congruent : first ≡ second [MOD capacity] := Nat.ModEq.add_left_cancel' head same
  rw [Nat.ModEq, Nat.mod_eq_of_lt (before.trans turn), Nat.mod_eq_of_lt turn] at congruent
  omega

/-- Writing behind the last element. -/
theorem push (ring : RingBuffer buf capacity head tail count contents) (room : count < capacity)
    (value : α) : RingBuffer (Function.update buf tail (some value)) capacity head
      ((tail + 1) % capacity) (count + 1) (contents ++ [value]) where
  length := by simp [ring.length]
  bounded := room
  head_lt := ring.head_lt
  tail_eq positive := by rw [ring.tail_eq positive, Nat.mod_add_mod, Nat.add_assoc]
  cells offset live := by
    have positive : 0 < capacity := by omega
    rw [ring.tail_eq positive]
    rcases Nat.lt_succ_iff_lt_or_eq.mp live with old | rfl
    · rw [Function.update_of_ne (offset_ne old room), ring.cells offset old,
        List.getElem?_append_left (by rw [ring.length]; exact old)]
    · rw [Function.update_self, ← ring.length, List.getElem?_concat_length]

/-- The cell at `head` holds the first element. -/
theorem front {value : α} {rest : List α}
    (ring : RingBuffer buf capacity head tail count (value :: rest)) :
    head < capacity ∧ buf head = some value := by
  have occupied : 0 < count := by simp [← ring.length]
  have inside : head < capacity := ring.head_lt (occupied.trans_le ring.bounded)
  have first := ring.cells 0 occupied
  rw [Nat.add_zero, Nat.mod_eq_of_lt inside] at first
  exact ⟨inside, first⟩

/-- Moving `head` past the first element. -/
theorem pop {value : α} {rest : List α}
    (ring : RingBuffer buf capacity head tail count (value :: rest)) :
    RingBuffer buf capacity ((head + 1) % capacity) tail (count - 1) rest := by
  have size : count = rest.length + 1 := ring.length.symm
  subst size
  refine ⟨rfl, ?_, ?_, ?_, ?_⟩
  · have bounded := ring.bounded
    omega
  · exact fun positive => Nat.mod_lt _ positive
  · intro positive
    rw [ring.tail_eq positive, Nat.add_sub_cancel, Nat.mod_add_mod, Nat.add_assoc,
      Nat.add_comm 1]
  · intro offset live
    have shifted := ring.cells (offset + 1) (by omega)
    rw [List.getElem?_cons_succ] at shifted
    rw [Nat.mod_add_mod, Nat.add_assoc, Nat.add_comm 1]
    exact shifted

end RingBuffer
