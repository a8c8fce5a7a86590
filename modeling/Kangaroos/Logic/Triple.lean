import Mathlib.Logic.Basic

/-!
# Contracts of programs that return or fault

`Triple run post fault` holds when `run` returns a result that meets `post`, or
stops with an error that meets `fault`. The rules follow the syntax of a `do`
block, so a proof walks through the program text; `Simulates` is the relational
form, for two programs that run the same text over different states.
-/

universe u v

variable {ε : Type u} {α β γ δ : Type v}

/-- A block that returns has passed its first statement. -/
theorem Except.ok_of_bind {ε : Type u} {α β : Type v} {first : Except ε α}
    {rest : α → Except ε β} {result : β} (returned : first >>= rest = .ok result) :
    ∃ middle, first = .ok middle ∧ rest middle = .ok result := by
  match first, returned with
  | .ok middle, returned => exact ⟨middle, rfl, returned⟩
  | .error _, returned => cases returned

/-- A block whose last statement returns stops only in its first. -/
theorem Except.error_of_bind_ok {ε : Type u} {α β : Type v} {first : Except ε α} {result : α → β}
    {error : ε} (stopped : first >>= (fun middle => .ok (result middle)) = .error error) :
    first = .error error := by
  match first, stopped with
  | .ok _, stopped => cases stopped
  | .error _, rfl => rfl

/-- A statement that returns hands its result to the rest of the block. -/
theorem Except.ok_bind {ε : Type u} {α β : Type v} (first : α) (rest : α → Except ε β) :
    (.ok first : Except ε α) >>= rest = rest first := rfl

/-- In a block that keeps its state when it stops, the state goes along. -/
theorem EStateM.run_bind_of_ok {ε σ α β : Type u} {first : EStateM ε σ α} {rest : α → EStateM ε σ β}
    {state after : σ} {result : α} (returned : first.run state = .ok result after) :
    (first >>= rest).run state = (rest result).run after := by
  rw [EStateM.run_bind, returned]

/-- A statement that stops ends such a block. -/
theorem EStateM.run_bind_of_error {ε σ α β : Type u} {first : EStateM ε σ α}
    {rest : α → EStateM ε σ β} {state after : σ} {error : ε}
    (stopped : first.run state = .error error after) :
    (first >>= rest).run state = .error error after := by
  rw [EStateM.run_bind, stopped]

/-- Every result of `run` meets `post` and every error it stops with meets `fault`. -/
def Triple (run : Except ε α) (post : α → Prop) (fault : ε → Prop) : Prop :=
  match run with
  | .ok result => post result
  | .error error => fault error

namespace Triple

@[simp] theorem ok_iff {result : α} {post : α → Prop} {fault : ε → Prop} :
    Triple (.ok result) post fault ↔ post result := Iff.rfl

@[simp] theorem error_iff {error : ε} {post : α → Prop} {fault : ε → Prop} :
    Triple (.error error : Except ε α) post fault ↔ fault error := Iff.rfl

/-- Sequencing: the rest of the block starts from what the first part establishes. -/
theorem bind {run : Except ε α} {next : α → Except ε β} {middle : α → Prop} {post : β → Prop}
    {fault : ε → Prop} (first : Triple run middle fault)
    (rest : ∀ result, middle result → Triple (next result) post fault) :
    Triple (run >>= next) post fault := by
  cases run with
  | ok result => exact rest result first
  | error error => exact first

/-- A first part that nothing is known of. -/
theorem compute {run : Except ε α} {next : α → Except ε β} {post : β → Prop}
    (rest : ∀ result, Triple (next result) post fun _ => True) :
    Triple (run >>= next) post fun _ => True :=
  match run with
  | .ok result => rest result
  | .error _ => trivial

/-- Weaken the postcondition. -/
theorem mono {run : Except ε α} {post post' : α → Prop} {fault : ε → Prop}
    (holds : Triple run post fault) (weaker : ∀ result, post result → post' result) :
    Triple run post' fault := by
  cases run with
  | ok result => exact weaker result holds
  | error error => exact holds

/-- Read the postcondition off a known result. -/
theorem of_ok {run : Except ε α} {post : α → Prop} {fault : ε → Prop} {result : α}
    (holds : Triple run post fault) (returned : run = .ok result) : post result := by
  subst returned
  exact holds

/-- Read the fault condition off a known error. -/
theorem of_error {run : Except ε α} {post : α → Prop} {fault : ε → Prop} {error : ε}
    (holds : Triple run post fault) (stopped : run = .error error) : fault error := by
  subst stopped
  exact holds

end Triple

/-- `run` and `run'` return related results, or stop with the same error. -/
def Simulates (related : α → β → Prop) (run : Except ε α) (run' : Except ε β) : Prop :=
  match run, run' with
  | .ok result, .ok result' => related result result'
  | .error error, .error error' => error = error'
  | _, _ => False

namespace Simulates

@[simp] theorem ok_iff {related : α → β → Prop} {result : α} {result' : β} :
    Simulates related (.ok result : Except ε α) (.ok result') ↔ related result result' := Iff.rfl

@[simp] theorem error_iff {related : α → β → Prop} {error error' : ε} :
    Simulates related (.error error : Except ε α) (.error error') ↔ error = error' := Iff.rfl

/-- Sequencing two programs over related states. -/
theorem bind {run : Except ε α} {run' : Except ε β} {next : α → Except ε γ}
    {next' : β → Except ε δ} {middle : α → β → Prop} {related : γ → δ → Prop}
    (first : Simulates middle run run')
    (rest : ∀ result result', middle result result' →
      Simulates related (next result) (next' result')) :
    Simulates related (run >>= next) (run' >>= next') := by
  match run, run', first with
  | .ok result, .ok result', first => exact rest result result' first
  | .error error, .error error', first => exact first

/-- Weaken the relation between the results. -/
theorem mono {run : Except ε α} {run' : Except ε β} {related related' : α → β → Prop}
    (holds : Simulates related run run')
    (weaker : ∀ result result', related result result' → related' result result') :
    Simulates related' run run' := by
  match run, run', holds with
  | .ok result, .ok result', holds => exact weaker result result' holds
  | .error error, .error error', holds => exact holds

/-- A program that does not depend on the state simulates itself. -/
theorem refl (run : Except ε α) : Simulates Eq run run := by
  cases run <;> simp [Simulates]

/-- A result of the first program is matched by a related result of the second. -/
theorem of_ok {run : Except ε α} {run' : Except ε β} {related : α → β → Prop} {result : α}
    (holds : Simulates related run run') (returned : run = .ok result) :
    ∃ result', run' = .ok result' ∧ related result result' := by
  subst returned
  cases run' with
  | ok result' => exact ⟨result', rfl, holds⟩
  | error error => exact holds.elim

/-- A result of the second program is matched by a related result of the first. -/
theorem of_ok_right {run : Except ε α} {run' : Except ε β} {related : α → β → Prop} {result' : β}
    (holds : Simulates related run run') (returned : run' = .ok result') :
    ∃ result, run = .ok result ∧ related result result' := by
  subst returned
  cases run with
  | ok result => exact ⟨result, rfl, holds⟩
  | error error => exact holds.elim

/-- What the relation carries over between results it carries over between runs. -/
theorem exists_ok_iff {run : Except ε α} {run' : Except ε β} {related : α → β → Prop}
    {post : α → Prop} {post' : β → Prop} (holds : Simulates related run run')
    (carries : ∀ result result', related result result' → (post result ↔ post' result')) :
    (∃ result, run = .ok result ∧ post result) ↔ ∃ result, run' = .ok result ∧ post' result := by
  match run, run', holds with
  | .ok result, .ok result', holds => simpa using carries result result' holds
  | .error _, .error _, _ => simp

/-- An error of the first program is an error of the second. -/
theorem of_error {run : Except ε α} {run' : Except ε β} {related : α → β → Prop} {error : ε}
    (holds : Simulates related run run') (stopped : run = .error error) :
    run' = .error error := by
  subst stopped
  cases run' with
  | ok result' => exact holds.elim
  | error error' => exact congrArg _ (Eq.symm holds)

end Simulates
