import Mathlib.Data.BitVec
import Mathlib.Logic.Function.Basic

/-!
# Blocks of words in memory

A memory maps word-aligned byte addresses to words. `storeWords` and `loadWords`
move a block upwards from an address; what is stored is loaded again as long as
the block does not wrap around the address space.
-/

namespace Words

variable {w : Nat} {α : Type*}

/-- Store a block of words, the first at `address`. -/
def storeWords (mem : BitVec w → α) (address : BitVec w) : List α → BitVec w → α
  | [] => mem
  | word :: rest => storeWords (Function.update mem address word) (address + 4) rest

/-- Load a block of words, the first from `address`. -/
def loadWords (mem : BitVec w → α) (address : BitVec w) : Nat → List α
  | 0 => []
  | count + 1 => mem address :: loadWords mem (address + 4) count

/-- The addresses of a block. -/
def Block (address : BitVec w) (count : Nat) (target : BitVec w) : Prop :=
  ∃ index < count, target = address + BitVec.ofNat w (4 * index)

theorem Block.head {address : BitVec w} {count : Nat} : Block address (count + 1) address :=
  ⟨0, Nat.succ_pos count, by simp⟩

theorem Block.tail {address target : BitVec w} {count : Nat}
    (inside : Block (address + 4) count target) : Block address (count + 1) target := by
  obtain ⟨index, bound, rfl⟩ := inside
  refine ⟨index + 1, Nat.succ_lt_succ bound, ?_⟩
  rw [Nat.mul_add, Nat.add_comm, BitVec.ofNat_add, BitVec.add_assoc]
  rfl

/-- A block that does not wrap around does not come back to its first word. -/
theorem Block.not_head {address : BitVec w} {count : Nat} (fits : 4 * (count + 1) ≤ 2 ^ w) :
    ¬Block (address + 4) count address := by
  rintro ⟨index, bound, same⟩
  have wraps : (address + 4 + BitVec.ofNat w (4 * index)).toNat = address.toNat :=
    congrArg BitVec.toNat same.symm
  have small : address.toNat < 2 ^ w := address.isLt
  have four : (4 : BitVec w).toNat = 4 := by
    show (BitVec.ofNat w 4).toNat = 4
    rw [BitVec.toNat_ofNat]
    exact Nat.mod_eq_of_lt (by omega)
  have offset : (BitVec.ofNat w (4 * index)).toNat = 4 * index := by
    rw [BitVec.toNat_ofNat]
    exact Nat.mod_eq_of_lt (by omega)
  rw [BitVec.toNat_add, BitVec.toNat_add, four, offset, Nat.mod_add_mod] at wraps
  rcases Nat.lt_or_ge (address.toNat + 4 + 4 * index) (2 ^ w) with below | above
  · rw [Nat.mod_eq_of_lt below] at wraps
    omega
  · rw [Nat.mod_eq_sub_mod above, Nat.mod_eq_of_lt (by omega)] at wraps
    omega

/-- Frame rule: a store leaves the words outside its block alone. -/
theorem storeWords_of_outside {mem : BitVec w → α} {address target : BitVec w} {words : List α}
    (outside : ¬Block address words.length target) :
    storeWords mem address words target = mem target := by
  induction words generalizing mem address with
  | nil => rfl
  | cons word rest ih =>
      rw [storeWords, ih fun inside => outside inside.tail]
      apply Function.update_of_ne
      rintro rfl
      exact outside Block.head

/-- What a store leaves at an address depends on what was there. -/
theorem storeWords_congr {mem mem' : BitVec w → α} {address target : BitVec w} {words : List α}
    (same : mem target = mem' target) :
    storeWords mem address words target = storeWords mem' address words target := by
  induction words generalizing mem mem' address with
  | nil => exact same
  | cons word rest ih =>
      refine ih ?_
      by_cases head : target = address
      · subst head
        rw [Function.update_self, Function.update_self]
      · rw [Function.update_of_ne head, Function.update_of_ne head]
        exact same

/-- Storing a block and then the word below it is storing one block. -/
theorem update_storeWords (mem : BitVec w → α) (address : BitVec w) (word : α) (rest : List α)
    (fits : 4 * (rest.length + 1) ≤ 2 ^ w) :
    Function.update (storeWords mem (address + 4) rest) address word =
      storeWords mem address (word :: rest) := by
  funext target
  rw [storeWords]
  by_cases head : target = address
  · subst head
    rw [Function.update_self, storeWords_of_outside (Block.not_head fits), Function.update_self]
  · rw [Function.update_of_ne head]
    exact storeWords_congr (Function.update_of_ne head _ _).symm

/-- Storing two adjacent blocks is storing one. -/
theorem storeWords_append (mem : BitVec w → α) (address : BitVec w) (first second : List α) :
    storeWords mem address (first ++ second) =
      storeWords (storeWords mem address first) (address + BitVec.ofNat w (4 * first.length))
        second := by
  induction first generalizing mem address with
  | nil => simp [storeWords]
  | cons word rest ih =>
      rw [List.cons_append, storeWords, ih, storeWords, List.length_cons, Nat.mul_add,
        Nat.add_comm, BitVec.ofNat_add, BitVec.add_assoc]
      rfl

/-- Only the words of the block matter to a load. -/
theorem loadWords_congr {mem mem' : BitVec w → α} {address : BitVec w} {count : Nat}
    (same : ∀ target, Block address count target → mem' target = mem target) :
    loadWords mem' address count = loadWords mem address count := by
  induction count generalizing address with
  | zero => rfl
  | succ count ih =>
      rw [loadWords, loadWords, same address Block.head, ih fun target inside => same target inside.tail]

/-- A load in two parts. -/
theorem loadWords_add (mem : BitVec w → α) (address : BitVec w) (first second : Nat) :
    loadWords mem address (first + second) =
      loadWords mem address first ++ loadWords mem (address + BitVec.ofNat w (4 * first)) second := by
  induction first generalizing address with
  | zero => simp [loadWords]
  | succ count ih =>
      rw [Nat.succ_add, loadWords, ih, loadWords, List.cons_append, Nat.mul_succ, Nat.add_comm (4 * count),
        BitVec.ofNat_add, BitVec.add_assoc]
      rfl

/-- The first words of a block. -/
theorem take_loadWords (mem : BitVec w → α) (address : BitVec w) {count total : Nat}
    (part : count ≤ total) : (loadWords mem address total).take count = loadWords mem address count := by
  induction count generalizing address total with
  | zero => rfl
  | succ count ih =>
      cases total with
      | zero => omega
      | succ total => rw [loadWords, List.take_succ_cons, ih (address + 4) (by omega), loadWords]

/-- What has been stored is loaded. -/
theorem loadWords_storeWords (mem : BitVec w → α) (address : BitVec w) (words : List α)
    (fits : 4 * words.length ≤ 2 ^ w) :
    loadWords (storeWords mem address words) address words.length = words := by
  induction words generalizing mem address with
  | nil => rfl
  | cons word rest ih =>
      have kept : storeWords (Function.update mem address word) (address + 4) rest address = word := by
        rw [storeWords_of_outside (Block.not_head fits), Function.update_self]
      rw [List.length_cons, loadWords, storeWords, kept, ih]
      rw [List.length_cons] at fits
      omega

end Words
