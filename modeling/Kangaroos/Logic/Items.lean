import Mathlib.Data.List.Basic

/-!
# Parsing item after item

A parser that reads items until its input is used up, and folds what it reads into a state. If
reading one item is described by a relation, the loop accepts exactly the inputs that are
sequences of items, and fails where the first sequence of items ends that nothing can follow.
-/

namespace Items

universe u

variable {Token Item Fault State : Type u}

/-- The loop. The first argument bounds the number of items. -/
def loop (next : List Token → State → Except Fault (State × List Token)) (stuck : Fault) :
    Nat → List Token → State → Except Fault State
  | _, [], state => .ok state
  | 0, _ :: _, _ => .error stuck
  | fuel + 1, token :: tokens, state => do
    let (state, rest) ← next (token :: tokens) state
    loop next stuck fuel rest state

/-- An input is a sequence of items, up to what is left. -/
inductive Sequence (reads : List Token → Item → List Token → Prop) :
    List Token → List Item → List Token → Prop where
  | nil {input} : Sequence reads input [] input
  | cons {input item middle items rest} (first : reads input item middle)
      (others : Sequence reads middle items rest) : Sequence reads input (item :: items) rest

/-- Reading a value and putting it into the state. -/
theorem map_eq_ok {Value : Type u} (put : Value → State)
    {read : Except Fault (Value × List Token)} {state : State} {rest : List Token} :
    (read.map fun result => (put result.1, result.2)) = .ok (state, rest) ↔
      ∃ value, read = .ok (value, rest) ∧ state = put value := by
  cases read with
  | error fault => simp [Except.map]
  | ok result =>
      constructor
      · intro returned
        cases returned
        exact ⟨result.1, rfl, rfl⟩
      · rintro ⟨value, same, rfl⟩
        cases same
        rfl

theorem map_eq_error {Value : Type u} (put : Value → State)
    {read : Except Fault (Value × List Token)} {fault : Fault} :
    (read.map fun result => (put result.1, result.2)) = .error fault ↔ read = .error fault := by
  cases read <;> simp [Except.map]

/-- What reading one item does: it reads what `reads` says, with the effect `apply`, or is
rejected, whatever the state. -/
structure Describes (next : List Token → State → Except Fault (State × List Token))
    (reads : List Token → Item → List Token → Prop) (apply : State → Item → State)
    (rejects : List Token → Fault → Prop) : Prop where
  accepts : ∀ input state state' rest, next input state = .ok (state', rest) ↔
    ∃ item, reads input item rest ∧ state' = apply state item
  fails : ∀ input state fault, next input state = .error fault ↔ rejects input fault
  shrinks : ∀ input item rest, reads input item rest → rest.length < input.length

variable {next : List Token → State → Except Fault (State × List Token)}
  {reads : List Token → Item → List Token → Prop} {apply : State → Item → State}
  {rejects : List Token → Fault → Prop} {stuck : Fault}

namespace Describes

/-- An item takes up at least one token. -/
theorem sequence_nil (describes : Describes next reads apply rejects) {items : List Item}
    {rest : List Token} (sequence : Sequence reads [] items rest) : items = [] ∧ rest = [] := by
  cases sequence with
  | nil => exact ⟨rfl, rfl⟩
  | cons first others =>
      have shorter := describes.shrinks _ _ _ first
      simp at shorter

/-- The loop reads an item and goes on. -/
theorem loop_of_reads (describes : Describes next reads apply rejects) {fuel : Nat} {token : Token}
    {tokens rest : List Token} {item : Item} (state : State) (first : reads (token :: tokens) item rest) :
    loop next stuck (fuel + 1) (token :: tokens) state =
      loop next stuck fuel rest (apply state item) := by
  have read := (describes.accepts _ state _ _).mpr ⟨item, first, rfl⟩
  rw [loop, read]
  rfl

/-- The loop stops at what it cannot read. -/
theorem loop_of_rejects (describes : Describes next reads apply rejects) {fuel : Nat}
    {token : Token} {tokens : List Token} {fault : Fault} (state : State)
    (rejected : rejects (token :: tokens) fault) :
    loop next stuck (fuel + 1) (token :: tokens) state = .error fault := by
  rw [loop, (describes.fails _ state _).mpr rejected]
  rfl

/-- What the loop starts with: an item, or something it cannot read. -/
theorem reads_or_rejects (describes : Describes next reads apply rejects) (input : List Token)
    (state : State) : (∃ item rest, reads input item rest) ∨ ∃ fault, rejects input fault := by
  cases attempt : next input state with
  | error fault => exact .inr ⟨fault, (describes.fails _ _ _).mp attempt⟩
  | ok result =>
      obtain ⟨item, first, _⟩ := (describes.accepts _ _ _ _).mp attempt
      exact .inl ⟨item, result.2, first⟩

/-- The loop accepts the sequences of items, and folds them into the state. -/
theorem loop_eq_ok (describes : Describes next reads apply rejects) {fuel : Nat}
    {input : List Token} {state final : State} (enough : input.length ≤ fuel) :
    loop next stuck fuel input state = .ok final ↔
      ∃ items, Sequence reads input items [] ∧ final = items.foldl apply state := by
  induction fuel generalizing input state with
  | zero =>
      obtain rfl := List.length_eq_zero_iff.mp (Nat.le_zero.mp enough)
      constructor
      · intro returned
        cases returned
        exact ⟨[], .nil, rfl⟩
      · rintro ⟨items, sequence, rfl⟩
        obtain ⟨rfl, _⟩ := describes.sequence_nil sequence
        rfl
  | succ fuel ih =>
      cases input with
      | nil =>
          constructor
          · intro returned
            cases returned
            exact ⟨[], .nil, rfl⟩
          · rintro ⟨items, sequence, rfl⟩
            obtain ⟨rfl, _⟩ := describes.sequence_nil sequence
            rfl
      | cons token tokens =>
          constructor
          · intro returned
            rcases describes.reads_or_rejects (token :: tokens) state with
              ⟨item, rest, first⟩ | ⟨fault, rejected⟩
            · rw [describes.loop_of_reads state first] at returned
              have shorter := describes.shrinks _ _ _ first
              obtain ⟨items, others, folded⟩ := (ih (by simp at shorter enough; omega)).mp returned
              exact ⟨item :: items, .cons first others, folded⟩
            · rw [describes.loop_of_rejects state rejected] at returned
              cases returned
          · rintro ⟨items, sequence, rfl⟩
            cases sequence with
            | cons first others =>
                have shorter := describes.shrinks _ _ _ first
                rw [describes.loop_of_reads state first]
                exact (ih (by simp at shorter enough; omega)).mpr ⟨_, others, rfl⟩

/-- The loop fails on the first input that nothing can follow. -/
theorem loop_eq_error (describes : Describes next reads apply rejects) {fuel : Nat}
    {input : List Token} {state : State} {fault : Fault} (enough : input.length ≤ fuel) :
    loop next stuck fuel input state = .error fault ↔
      ∃ items rest, Sequence reads input items rest ∧ rest ≠ [] ∧ rejects rest fault := by
  induction fuel generalizing input state with
  | zero =>
      obtain rfl := List.length_eq_zero_iff.mp (Nat.le_zero.mp enough)
      constructor
      · intro returned
        cases returned
      · rintro ⟨items, rest, sequence, left, _⟩
        exact absurd (describes.sequence_nil sequence).2 left
  | succ fuel ih =>
      cases input with
      | nil =>
          constructor
          · intro returned
            cases returned
          · rintro ⟨items, rest, sequence, left, _⟩
            exact absurd (describes.sequence_nil sequence).2 left
      | cons token tokens =>
          constructor
          · intro returned
            rcases describes.reads_or_rejects (token :: tokens) state with
              ⟨item, rest, first⟩ | ⟨other, rejected⟩
            · rw [describes.loop_of_reads state first] at returned
              have shorter := describes.shrinks _ _ _ first
              obtain ⟨items, last, others, left, rejected⟩ :=
                (ih (by simp at shorter enough; omega)).mp returned
              exact ⟨item :: items, last, .cons first others, left, rejected⟩
            · rw [describes.loop_of_rejects state rejected] at returned
              cases returned
              exact ⟨[], _, .nil, by simp, rejected⟩
          · rintro ⟨items, rest, sequence, left, rejected⟩
            cases sequence with
            | nil => exact describes.loop_of_rejects state rejected
            | cons first others =>
                have shorter := describes.shrinks _ _ _ first
                rw [describes.loop_of_reads state first]
                exact (ih (by simp at shorter enough; omega)).mpr ⟨_, _, others, left, rejected⟩

end Describes

end Items
