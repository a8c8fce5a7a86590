import Kangaroos.Logic.Triple
import Kangaroos.Macros
import Mathlib.Data.List.Induction

/-!
# What the attribute macros accept

An attribute is a sequence of settings, and of every key the last setting counts. An attribute
that is none is rejected where the first setting is wrong, with the error that belongs to it.
-/

namespace Kangaroos

namespace Macros

/-- A setting: a key that `value` knows, `=`, a value, and perhaps a comma. -/
inductive Reads {Item : Type} (value : String → List Token → Item → List Token → Prop) :
    List Token → Item → List Token → Prop where
  | setting {key after item rest} (read : value key after item rest) :
      Reads value (.ident key :: .eq :: after) item (skipComma rest)

/-- What cannot start a setting, and the error for it: no key, no `=`, or a key or value that is
wrong. -/
inductive Rejects {Expr : Type} (syn : Syn Expr) (wrong : String → Span → List Token → Error → Prop) :
    List Token → Error → Prop where
  | key {input} (noIdent : ∀ key rest, input ≠ .ident key :: rest) :
      Rejects syn wrong input (syn.expected "identifier" input)
  | eq {key rest} (noEq : ∀ after, rest ≠ .eq :: after) :
      Rejects syn wrong (.ident key :: rest) (syn.expected "=" rest)
  | value {key after fault}
      (isWrong : wrong key (span (.ident key :: .eq :: after)) after fault) :
      Rejects syn wrong (.ident key :: .eq :: after) fault

section Loops

variable {Expr Args Item : Type}

/-- What the `match` on the key does. -/
structure Assigns (assign : String → Span → List Token → Args → Except Error (Args × List Token))
    (value : String → List Token → Item → List Token → Prop) (apply : Args → Item → Args)
    (wrong : String → Span → List Token → Error → Prop) : Prop where
  accepts : ∀ key span after args args' rest, assign key span after args = .ok (args', rest) ↔
    ∃ item, value key after item rest ∧ args' = apply args item
  fails : ∀ key span after args fault, assign key span after args = .error fault ↔
    wrong key span after fault
  shrinks : ∀ key after item rest, value key after item rest → rest.length ≤ after.length

/-- Skipping a comma makes the input no longer. -/
theorem skipComma_length (input : List Token) : (skipComma input).length ≤ input.length := by
  unfold skipComma
  split
  · simp
  · exact Nat.le_refl _

variable {syn : Syn Expr}
  {assign : String → Span → List Token → Args → Except Error (Args × List Token)}
  {value : String → List Token → Item → List Token → Prop} {apply : Args → Item → Args}
  {wrong : String → Span → List Token → Error → Prop}

/-- The start of a setting. -/
theorem setting_of_key (key : String) (after : List Token) (args : Args) :
    setting syn assign (.ident key :: .eq :: after) args =
      (assign key (span (.ident key :: .eq :: after)) after args).map
        fun result => (result.1, skipComma result.2) := by
  cases attempt : assign key (span (.ident key :: .eq :: after)) after args <;>
    simp [setting, Syn.ident, Syn.eq, attempt, bind, Except.bind, Except.map]

/-- A setting starts with a key. -/
theorem setting_of_no_key {input : List Token} (noIdent : ∀ key rest, input ≠ .ident key :: rest)
    (args : Args) : setting syn assign input args = .error (syn.expected "identifier" input) := by
  have stuck : syn.ident input = .error (syn.expected "identifier" input) := by
    unfold Syn.ident
    split
    · rename_i name rest
      exact absurd rfl (noIdent name rest)
    · rfl
  rw [setting, stuck]
  rfl

/-- After the key comes an equals sign. -/
theorem setting_of_no_eq (key : String) {rest : List Token} (noEq : ∀ after, rest ≠ .eq :: after)
    (args : Args) :
    setting syn assign (.ident key :: rest) args = .error (syn.expected "=" rest) := by
  have stuck : syn.eq rest = .error (syn.expected "=" rest) := by
    unfold Syn.eq
    split
    · rename_i after
      exact absurd rfl (noEq after)
    · rfl
  simp only [setting, Syn.ident, Except.ok_bind, stuck]
  rfl

/-- How an input can start. -/
theorem input_cases (input : List Token) : (∃ key after, input = .ident key :: .eq :: after) ∨
    (∃ key rest, input = .ident key :: rest ∧ ∀ after, rest ≠ .eq :: after) ∨
      ∀ key rest, input ≠ .ident key :: rest := by
  by_cases hasKey : ∃ key rest, input = .ident key :: rest
  · obtain ⟨key, rest, rfl⟩ := hasKey
    by_cases hasEq : ∃ after, rest = .eq :: after
    · obtain ⟨after, rfl⟩ := hasEq
      exact .inl ⟨key, after, rfl⟩
    · exact .inr (.inl ⟨key, rest, rfl, fun after same => hasEq ⟨after, same⟩⟩)
  · exact .inr (.inr fun key rest same => hasKey ⟨key, rest, same⟩)

/-- A setting is read from a key on. -/
theorem setting_eq_ok {input rest : List Token} {args args' : Args} :
    setting syn assign input args = .ok (args', rest) ↔ ∃ key after middle,
      input = .ident key :: .eq :: after ∧
        assign key (span input) after args = .ok (args', middle) ∧ rest = skipComma middle := by
  rcases input_cases input with ⟨key, after, rfl⟩ | ⟨key, after, rfl, noEq⟩ | noIdent
  · rw [setting_of_key]
    constructor
    · intro returned
      cases attempt : assign key (span (.ident key :: .eq :: after)) after args with
      | error fault =>
          rw [attempt] at returned
          cases returned
      | ok result =>
          rw [attempt] at returned
          cases returned
          exact ⟨key, after, result.2, rfl, attempt, rfl⟩
    · rintro ⟨_, _, middle, same, assigned, rfl⟩
      cases same
      rw [assigned]
      rfl
  · rw [setting_of_no_eq key noEq]
    constructor
    · intro returned
      cases returned
    · rintro ⟨_, after, _, same, _⟩
      cases same
      exact absurd rfl (noEq after)
  · rw [setting_of_no_key noIdent]
    constructor
    · intro returned
      cases returned
    · rintro ⟨key, after, _, same, _⟩
      exact absurd same (noIdent _ _)

/-- A setting is rejected for its key, its `=`, or by the `match` on the key. -/
theorem setting_eq_error {input : List Token} {args : Args} {fault : Error} :
    setting syn assign input args = .error fault ↔
      Rejects syn (fun key span after fault => assign key span after args = .error fault) input
        fault := by
  rcases input_cases input with ⟨key, after, rfl⟩ | ⟨key, after, rfl, noEq⟩ | noIdent
  · rw [setting_of_key]
    constructor
    · intro returned
      cases attempt : assign key (span (.ident key :: .eq :: after)) after args with
      | error other =>
          rw [attempt] at returned
          cases returned
          exact .value attempt
      | ok result =>
          rw [attempt] at returned
          cases returned
    · intro rejected
      cases rejected with
      | key noIdent => exact absurd rfl (noIdent _ _)
      | eq noEq => exact absurd rfl (noEq _)
      | value failed =>
          rw [failed]
          rfl
  · rw [setting_of_no_eq key noEq]
    constructor
    · intro returned
      cases returned
      exact .eq noEq
    · intro rejected
      cases rejected with
      | key noIdent => exact absurd rfl (noIdent _ _)
      | eq => rfl
      | value => exact absurd rfl (noEq _)
  · rw [setting_of_no_key noIdent]
    constructor
    · intro returned
      cases returned
      exact .key noIdent
    · intro rejected
      cases rejected with
      | key => rfl
      | eq => exact absurd rfl (noIdent _ _)
      | value => exact absurd rfl (noIdent _ _)

/-- The body of the loops reads one setting. -/
theorem Assigns.describes (assigns : Assigns assign value apply wrong) (syn : Syn Expr) :
    Items.Describes (setting syn assign) (Reads value) apply (Rejects syn wrong) where
  accepts input args args' rest := by
    rw [setting_eq_ok]
    constructor
    · rintro ⟨key, after, middle, rfl, assigned, rfl⟩
      obtain ⟨item, read, applied⟩ := (assigns.accepts _ _ _ _ _ _).mp assigned
      exact ⟨item, .setting read, applied⟩
    · rintro ⟨item, ⟨read⟩, rfl⟩
      exact ⟨_, _, _, rfl, (assigns.accepts _ _ _ _ _ _).mpr ⟨item, read, rfl⟩, rfl⟩
  fails input args fault := by
    have same : (fun key span after fault => assign key span after args = .error fault) = wrong := by
      ext key span after fault
      exact assigns.fails key span after args fault
    rw [setting_eq_error, same]
  shrinks := by
    rintro _ item _ ⟨read⟩
    rename_i key after rest
    have within := assigns.shrinks _ _ _ _ read
    have skipped := skipComma_length rest
    simp only [List.length_cons]
    omega

/-- The loops accept the attributes that are sequences of settings. -/
theorem Assigns.settings_eq_ok (assigns : Assigns assign value apply wrong) {input : List Token}
    {args final : Args} : settings syn assign input args = .ok final ↔
      ∃ items, Items.Sequence (Reads value) input items [] ∧ final = items.foldl apply args :=
  (assigns.describes syn).loop_eq_ok (Nat.le_refl _)

/-- The loops fail at the first wrong setting. -/
theorem Assigns.settings_eq_error (assigns : Assigns assign value apply wrong)
    {input : List Token} {args : Args} {fault : Error} :
    settings syn assign input args = .error fault ↔ ∃ items rest,
      Items.Sequence (Reads value) input items rest ∧ rest ≠ [] ∧ Rejects syn wrong rest fault :=
  (assigns.describes syn).loop_eq_error (Nat.le_refl _)

end Loops

variable {Expr : Type}

/-- A setting of `#[task]`. -/
inductive TaskSetting (Expr : Type) where
  | priority (value : Expr)
  | stackSize (value : Expr)
  | timeSlice (value : Expr)
  | name (value : String)

namespace TaskSetting

/-- The keys of `#[task]`. -/
def key : TaskSetting Expr → String
  | .priority _ => "priority"
  | .stackSize _ => "stack_size"
  | .timeSlice _ => "time_slice"
  | .name _ => "name"

/-- How the value of a setting is read. -/
def ReadFrom (syn : Syn Expr) (after rest : List Token) : TaskSetting Expr → Prop
  | .priority value | .stackSize value | .timeSlice value => syn.expr after = .ok (value, rest)
  | .name value => after = .str value :: rest

/-- The settings of `#[task]`. -/
def Value (syn : Syn Expr) (key : String) (after : List Token) (item : TaskSetting Expr)
    (rest : List Token) : Prop :=
  key = item.key ∧ item.ReadFrom syn after rest

/-- What can be wrong with a setting of `#[task]`. -/
inductive Wrong (syn : Syn Expr) (key : String) (span : Span) (after : List Token) : Error → Prop where
  | key (unknown : key ∉ ["priority", "stack_size", "time_slice", "name"]) :
      Wrong syn key span after (.at span ("unknown attribute key `" ++ key ++
        "`; expected `priority`, `stack_size`, `time_slice`, or `name`"))
  | expr {fault} (isExpr : key ∈ ["priority", "stack_size", "time_slice"])
      (fails : syn.expr after = .error fault) : Wrong syn key span after fault
  | name (isName : key = "name") (noStr : ∀ value rest, after ≠ .str value :: rest) :
      Wrong syn key span after (syn.expected "string literal" after)

/-- What a setting does to the variables of the parser. -/
def apply (args : TaskSettings Expr) : TaskSetting Expr → TaskSettings Expr
  | .priority value => { args with priority := some value }
  | .stackSize value => { args with stackSize := some value }
  | .timeSlice value => { args with timeSlice := some value }
  | .name value => { args with name := some value }

section Assign

variable {syn : Syn Expr} {args : TaskSettings Expr} {span : Span} {after : List Token}

/-- `priority` takes an expression. -/
theorem assign_priority : TaskSettings.assign syn "priority" span after args =
    (syn.expr after).map fun result => (apply args (.priority result.1), result.2) := by
  cases read : syn.expr after <;> simp only [TaskSettings.assign, read] <;> rfl

/-- `stack_size` takes an expression. -/
theorem assign_stackSize : TaskSettings.assign syn "stack_size" span after args =
    (syn.expr after).map fun result => (apply args (.stackSize result.1), result.2) := by
  cases read : syn.expr after <;> simp only [TaskSettings.assign, read] <;> rfl

/-- `time_slice` takes an expression. -/
theorem assign_timeSlice : TaskSettings.assign syn "time_slice" span after args =
    (syn.expr after).map fun result => (apply args (.timeSlice result.1), result.2) := by
  cases read : syn.expr after <;> simp only [TaskSettings.assign, read] <;> rfl

/-- `name` takes a string literal. -/
theorem assign_name : TaskSettings.assign syn "name" span after args =
    (syn.litStr after).map fun result => (apply args (.name result.1), result.2) := by
  cases read : syn.litStr after <;> simp only [TaskSettings.assign, read] <;> rfl

/-- Any other key is an error at the key. -/
theorem assign_unknown {key : String}
    (unknown : key ∉ ["priority", "stack_size", "time_slice", "name"]) :
    TaskSettings.assign syn key span after args =
      .error (.at span ("unknown attribute key `" ++ key ++
        "`; expected `priority`, `stack_size`, `time_slice`, or `name`")) := by
  unfold TaskSettings.assign
  split <;> simp_all

end Assign

/-- A string literal is one token. -/
theorem litStr_eq_ok {syn : Syn Expr} {after rest : List Token} {value : String} :
    syn.litStr after = .ok (value, rest) ↔ after = .str value :: rest := by
  unfold Syn.litStr
  split <;> simp_all

/-- Anything else is not one. -/
theorem litStr_eq_error {syn : Syn Expr} {after : List Token} {fault : Error} :
    syn.litStr after = .error fault ↔ (∀ value rest, after ≠ .str value :: rest) ∧
      fault = syn.expected "string literal" after := by
  unfold Syn.litStr
  split
  · simp
  · rename_i noStr
    constructor
    · intro failed
      cases failed
      exact ⟨noStr, rfl⟩
    · rintro ⟨_, rfl⟩
      rfl

/-- A value that is an expression. -/
theorem expr_accepts {syn : Syn Expr} {key : String} {after rest : List Token}
    {args args' : TaskSettings Expr} (of : Expr → TaskSetting Expr)
    (own : ∀ value, Value syn key after (of value) rest ↔ syn.expr after = .ok (value, rest))
    (only : ∀ item : TaskSetting Expr, key = item.key → ∃ value, item = of value) :
    ((syn.expr after).map fun result => (apply args (of result.1), result.2)) = .ok (args', rest) ↔
      ∃ item, Value syn key after item rest ∧ args' = apply args item := by
  rw [Items.map_eq_ok fun value => apply args (of value)]
  constructor
  · rintro ⟨value, read, rfl⟩
    exact ⟨of value, (own value).mpr read, rfl⟩
  · rintro ⟨item, read, rfl⟩
    obtain ⟨value, rfl⟩ := only item read.1
    exact ⟨value, (own value).mp read, rfl⟩

/-- An expression that cannot be read. -/
theorem expr_fails {syn : Syn Expr} {key : String} {span : Span} {after : List Token}
    {args : TaskSettings Expr} {fault : Error} (of : Expr → TaskSetting Expr)
    (isExpr : key ∈ ["priority", "stack_size", "time_slice"]) :
    ((syn.expr after).map fun result => (apply args (of result.1), result.2)) = .error fault ↔
      Wrong syn key span after fault := by
  rw [Items.map_eq_error fun value => apply args (of value)]
  refine ⟨.expr isExpr, fun wrong => ?_⟩
  cases wrong with
  | key unknown => simp_all
  | expr _ fails => exact fails
  | name isName => simp_all

/-- The value of a key is accepted exactly if it is one of the key's kind. -/
theorem assign_eq_ok {syn : Syn Expr} {key : String} {span : Span} {after rest : List Token}
    {args args' : TaskSettings Expr} :
    TaskSettings.assign syn key span after args = .ok (args', rest) ↔
      ∃ item, Value syn key after item rest ∧ args' = apply args item := by
  by_cases known : key ∈ ["priority", "stack_size", "time_slice", "name"]
  · simp only [List.mem_cons, List.not_mem_nil, or_false] at known
    rcases known with rfl | rfl | rfl | rfl
    · rw [assign_priority]
      refine expr_accepts .priority (fun value => ⟨And.right, .intro rfl⟩) fun item isKey => ?_
      cases item <;> simp_all [TaskSetting.key]
    · rw [assign_stackSize]
      refine expr_accepts .stackSize (fun value => ⟨And.right, .intro rfl⟩) fun item isKey => ?_
      cases item <;> simp_all [TaskSetting.key]
    · rw [assign_timeSlice]
      refine expr_accepts .timeSlice (fun value => ⟨And.right, .intro rfl⟩) fun item isKey => ?_
      cases item <;> simp_all [TaskSetting.key]
    · rw [assign_name, Items.map_eq_ok fun value => apply args (.name value)]
      simp only [litStr_eq_ok]
      constructor
      · rintro ⟨value, read, rfl⟩
        exact ⟨.name value, ⟨rfl, read⟩, rfl⟩
      · rintro ⟨item, ⟨isKey, read⟩, rfl⟩
        cases item with
        | name value => exact ⟨value, read, rfl⟩
        | _ => simp [TaskSetting.key] at isKey
  · rw [assign_unknown known]
    constructor
    · intro returned
      cases returned
    · rintro ⟨item, ⟨rfl, _⟩, _⟩
      cases item <;> simp [TaskSetting.key] at known

/-- Otherwise it is rejected with the error of the value, or of the key. -/
theorem assign_eq_error {syn : Syn Expr} {key : String} {span : Span} {after : List Token}
    {args : TaskSettings Expr} {fault : Error} :
    TaskSettings.assign syn key span after args = .error fault ↔ Wrong syn key span after fault := by
  by_cases known : key ∈ ["priority", "stack_size", "time_slice", "name"]
  · simp only [List.mem_cons, List.not_mem_nil, or_false] at known
    rcases known with rfl | rfl | rfl | rfl
    · rw [assign_priority]
      exact expr_fails .priority (by simp)
    · rw [assign_stackSize]
      exact expr_fails .stackSize (by simp)
    · rw [assign_timeSlice]
      exact expr_fails .timeSlice (by simp)
    · rw [assign_name, Items.map_eq_error fun value => apply args (.name value), litStr_eq_error]
      constructor
      · rintro ⟨noStr, rfl⟩
        exact .name rfl noStr
      · intro wrong
        cases wrong with
        | key unknown => simp at unknown
        | expr isExpr => simp at isExpr
        | name _ noStr => exact ⟨noStr, rfl⟩
  · rw [assign_unknown known]
    constructor
    · intro returned
      cases returned
      exact .key known
    · intro wrong
      cases wrong with
      | key => rfl
      | expr isExpr => simp_all
      | name isName => simp_all

/-- So the match on the key fits the parser of settings. -/
theorem assigns (syn : Syn Expr) :
    Assigns (TaskSettings.assign syn) (Value syn) apply (Wrong syn) where
  accepts _ _ _ _ _ _ := assign_eq_ok
  fails _ _ _ _ _ := assign_eq_error
  shrinks key after item rest read := by
    obtain ⟨_, read⟩ := read
    cases item with
    | name value => simp [show after = .str value :: rest from read]
    | priority value => exact syn.consumes _ _ _ read
    | stackSize value => exact syn.consumes _ _ _ read
    | timeSlice value => exact syn.consumes _ _ _ read

/-- The value of a setting of `priority`; the other keys likewise. -/
def asPriority : TaskSetting Expr → Option Expr
  | .priority value => some value
  | _ => none

/-- The stack size of a setting that sets it. -/
def asStackSize : TaskSetting Expr → Option Expr
  | .stackSize value => some value
  | _ => none

/-- The time slice of a setting that sets it. -/
def asTimeSlice : TaskSetting Expr → Option Expr
  | .timeSlice value => some value
  | _ => none

/-- The name of a setting that sets it. -/
def asName : TaskSetting Expr → Option String
  | .name value => some value
  | _ => none

/-- Of every key the parser keeps the last setting. -/
theorem foldl_apply (items : List (TaskSetting Expr)) :
    items.foldl apply {} = {
      priority := (items.filterMap asPriority).getLast?
      stackSize := (items.filterMap asStackSize).getLast?
      timeSlice := (items.filterMap asTimeSlice).getLast?
      name := (items.filterMap asName).getLast? } := by
  induction items using List.reverseRecOn with
  | nil => rfl
  | append_singleton items item ih =>
      rw [List.foldl_append, List.foldl_cons, List.foldl_nil, ih]
      cases item <;>
        simp [apply, asPriority, asStackSize, asTimeSlice, asName, List.filterMap_append,
          List.filterMap_cons]

end TaskSetting

/-- What settings stand for: the last of every key, or its default. -/
def TaskArgs.of (syn : Syn Expr) (items : List (TaskSetting Expr)) : TaskArgs Expr where
  priority := (items.filterMap TaskSetting.asPriority).getLast?.getD (syn.parseStr "0")
  stackSize := (items.filterMap TaskSetting.asStackSize).getLast?.getD (syn.parseStr "512usize")
  timeSlice := (items.filterMap TaskSetting.asTimeSlice).getLast?.getD (syn.parseStr "10")
  name := (items.filterMap TaskSetting.asName).getLast?

/-- `#[task]` accepts the sequences of settings. -/
theorem TaskArgs.parse_eq_ok (syn : Syn Expr) (input : List Token) (args : TaskArgs Expr) :
    TaskArgs.parse syn input = .ok args ↔ ∃ items,
      Items.Sequence (Reads (TaskSetting.Value syn)) input items [] ∧ args = TaskArgs.of syn items := by
  have accepts : ∀ final, settings syn (TaskSettings.assign syn) input {} = .ok final ↔ _ :=
    fun _ => (TaskSetting.assigns syn).settings_eq_ok
  constructor
  · intro returned
    obtain ⟨final, accepted, rest⟩ := Except.ok_of_bind returned
    obtain ⟨items, sequence, rfl⟩ := (accepts final).mp accepted
    cases rest
    refine ⟨items, sequence, ?_⟩
    rw [TaskSetting.foldl_apply]
    rfl
  · rintro ⟨items, sequence, rfl⟩
    rw [TaskArgs.parse, (accepts _).mpr ⟨items, sequence, rfl⟩, TaskSetting.foldl_apply]
    rfl

/-- `#[task]` rejects everything else, at the first setting that is wrong. -/
theorem TaskArgs.parse_eq_error (syn : Syn Expr) (input : List Token) (fault : Error) :
    TaskArgs.parse syn input = .error fault ↔ ∃ items rest,
      Items.Sequence (Reads (TaskSetting.Value syn)) input items rest ∧ rest ≠ [] ∧
        Rejects syn (TaskSetting.Wrong syn) rest fault := by
  have fails : settings syn (TaskSettings.assign syn) input {} = .error fault ↔ _ :=
    (TaskSetting.assigns syn).settings_eq_error
  rw [← fails]
  refine ⟨Except.error_of_bind_ok, fun failed => ?_⟩
  rw [TaskArgs.parse, failed]
  rfl

section Literals

/-- The expressions of the examples: single literals. -/
def literal : List Token → Except Error (String × List Token)
  | .other text :: rest => .ok (text, rest)
  | input => .error (.at (span input) "expected an expression")

/-- A literal is consumed. -/
theorem literal_consumes (input : List Token) (value : String) (rest : List Token)
    (read : literal input = .ok (value, rest)) : rest.length ≤ input.length := by
  unfold literal at read
  split at read
  · cases read
    simp
  · cases read

/-- A grammar whose expressions are literals. -/
def literals : Syn String where
  expr := literal
  parseStr text := text
  expected what input := .at (span input) ("expected " ++ what)
  consumes := literal_consumes

/-- A comma may be missing, and the last `priority` counts. -/
example : TaskArgs.parse literals
    [.ident "priority", .eq, .other "1", .comma, .ident "stack_size", .eq, .other "2048",
      .ident "priority", .eq, .other "2"] =
    .ok { priority := "2", stackSize := "2048", timeSlice := "10", name := none } := rfl

end Literals

/-- What can be wrong with a setting of `#[main]`. -/
inductive MainArgs.Wrong (syn : Syn Expr) (key : String) (span : Span) (after : List Token) :
    Error → Prop where
  | key (unknown : key ≠ "cpu_hz") : Wrong syn key span after (.at span
      ("unknown attribute key `" ++ key ++ "`; expected `cpu_hz` or `max_tasks`"))
  | expr {fault} (isExpr : key = "cpu_hz") (fails : syn.expr after = .error fault) :
      Wrong syn key span after fault

/-- The settings of `#[main]`. -/
def MainArgs.Value (syn : Syn Expr) (key : String) (after : List Token) (value : Expr)
    (rest : List Token) : Prop :=
  key = "cpu_hz" ∧ syn.expr after = .ok (value, rest)

namespace MainArgs

/-- `cpu_hz` takes an expression. -/
theorem assign_cpuHz {syn : Syn Expr} {span : Span} {after : List Token} {args : Option Expr} :
    MainArgs.assign syn "cpu_hz" span after args =
      (syn.expr after).map fun result => (some result.1, result.2) := by
  cases read : syn.expr after <;> simp only [MainArgs.assign, read] <;> rfl

theorem assign_unknown {syn : Syn Expr} {key : String} {span : Span} {after : List Token}
    {args : Option Expr} (unknown : key ≠ "cpu_hz") : MainArgs.assign syn key span after args =
      .error (.at span ("unknown attribute key `" ++ key ++
        "`; expected `cpu_hz` or `max_tasks`")) := by
  unfold MainArgs.assign
  split
  · exact absurd rfl unknown
  · rfl

theorem assigns (syn : Syn Expr) : Assigns (MainArgs.assign syn) (MainArgs.Value syn)
    (fun _ value => some value) (MainArgs.Wrong syn) where
  accepts key span after args args' rest := by
    by_cases known : key = "cpu_hz"
    · subst known
      rw [assign_cpuHz, Items.map_eq_ok some]
      simp [MainArgs.Value]
    · rw [assign_unknown known]
      constructor
      · intro returned
        cases returned
      · rintro ⟨value, ⟨isKey, _⟩, _⟩
        exact absurd isKey known
  fails key span after args fault := by
    by_cases known : key = "cpu_hz"
    · subst known
      rw [assign_cpuHz, Items.map_eq_error some]
      refine ⟨.expr rfl, fun wrong => ?_⟩
      cases wrong with
      | key unknown => exact absurd rfl unknown
      | expr _ fails => exact fails
    · rw [assign_unknown known]
      constructor
      · intro returned
        cases returned
        exact .key known
      · intro wrong
        cases wrong with
        | key => rfl
        | expr isKey => exact absurd isKey known
  shrinks key after value rest read := syn.consumes _ _ _ read.2

/-- The parser keeps the last setting. -/
theorem foldl_some (items : List Expr) :
    items.foldl (fun _ value => some value) none = items.getLast? := by
  induction items using List.reverseRecOn with
  | nil => rfl
  | append_singleton items item ih => simp

/-- Of the settings the last one is kept. -/
theorem settings_eq_ok {syn : Syn Expr} {input : List Token} {final : Option Expr} :
    settings syn (MainArgs.assign syn) input none = .ok final ↔ ∃ items,
      Items.Sequence (Reads (MainArgs.Value syn)) input items [] ∧ final = items.getLast? := by
  rw [(assigns syn).settings_eq_ok]
  simp only [foldl_some]

/-- Only the empty attribute sets nothing. -/
theorem settings_eq_none {syn : Syn Expr} {input : List Token} :
    settings syn (MainArgs.assign syn) input none = .ok none ↔ input = [] := by
  rw [settings_eq_ok]
  constructor
  · rintro ⟨items, sequence, unset⟩
    obtain rfl := List.getLast?_eq_none_iff.mp unset.symm
    cases sequence
    rfl
  · rintro rfl
    exact ⟨[], .nil, rfl⟩

/-- `#[main]` takes the last `cpu_hz`. It rejects the empty attribute for the lack of one, and
what is no sequence of settings at the first setting that is wrong. `max_tasks` is wrong. -/
theorem parse_eq (syn : Syn Expr) (input : List Token) :
    (∀ args, MainArgs.parse syn input = .ok args ↔ ∃ items,
      Items.Sequence (Reads (MainArgs.Value syn)) input items [] ∧
        items.getLast? = some args.cpuHz) ∧
    ∀ fault, MainArgs.parse syn input = .error fault ↔
      input = [] ∧ fault = .at .callSite "`cpu_hz` is required" ∨ ∃ items rest,
        Items.Sequence (Reads (MainArgs.Value syn)) input items rest ∧ rest ≠ [] ∧
          Rejects syn (MainArgs.Wrong syn) rest fault := by
  have fails : ∀ fault, settings syn (MainArgs.assign syn) input none = .error fault ↔ _ :=
    fun _ => (assigns syn).settings_eq_error
  have accepts : ∀ final, (∃ items, Items.Sequence (Reads (MainArgs.Value syn)) input items [] ∧
      items.getLast? = final) ↔ settings syn (MainArgs.assign syn) input none = .ok final := by
    intro final
    rw [settings_eq_ok]
    simp only [eq_comm]
  simp only [accepts, ← fails, ← @settings_eq_none Expr syn input, MainArgs.parse]
  cases settings syn (MainArgs.assign syn) input none with
  | error other => simp [bind, Except.bind]
  | ok final =>
      cases final with
      | none => simp [bind, Except.bind, eq_comm]
      | some value => simp [bind, Except.bind, MainArgs.ext_iff]

example : MainArgs.parse literals
    [.ident "cpu_hz", .eq, .other "8_000_000", .comma, .ident "max_tasks", .eq, .other "2"] =
    .error (.at (.token 3)
      "unknown attribute key `max_tasks`; expected `cpu_hz` or `max_tasks`") := rfl

end MainArgs

end Macros

end Kangaroos
