import Kangaroos.Logic.Items

/-!
# The arguments of the attribute macros

`#[task]` and `#[main]` take settings `key = value`. Both parsers loop over the tokens of the
attribute until none is left. A comma behind a setting is skipped if it is there.

The parsers are written with `syn`. What it does with a single token is modelled as documented;
its parser of expressions, which knows the whole grammar of the language, and the wording of its
errors are parameters.
-/

namespace Kangaroos

namespace Macros

/-- A token of an attribute. Keywords, literals but strings, other punctuation and groups are
`other`. -/
inductive Token where
  | ident (name : String)
  | eq
  | comma
  | str (value : String)
  | other (text : String)
  deriving DecidableEq

/-- Where an error points: at the token so many tokens before the end, or at the macro call. -/
inductive Span where
  | token (left : Nat)
  | callSite
  deriving DecidableEq

/-- `syn::Error`; `diverges` stands for a loop that is not done after as many settings as the
attribute has tokens. -/
inductive Error where
  | at (span : Span) (message : String)
  | diverges
  deriving DecidableEq

/-- The span of the token an input starts with. -/
def span (input : List Token) : Span := .token input.length

/-- The parts of `syn` that are not modelled: `parse::<Expr>()`, `parse_str`, and the error for
a token that is not the expected one. -/
structure Syn (Expr : Type) where
  expr : List Token → Except Error (Expr × List Token)
  parseStr : String → Expr
  expected : String → List Token → Error
  consumes : ∀ input value rest, expr input = .ok (value, rest) → rest.length ≤ input.length

namespace Syn

variable {Expr : Type}

/-- `parse::<Ident>()`. -/
def ident (syn : Syn Expr) : List Token → Except Error (String × List Token)
  | .ident name :: rest => .ok (name, rest)
  | input => .error (syn.expected "identifier" input)

/-- `parse::<Token![=]>()`. -/
def eq (syn : Syn Expr) : List Token → Except Error (List Token)
  | .eq :: rest => .ok rest
  | input => .error (syn.expected "=" input)

/-- `parse::<LitStr>()`. -/
def litStr (syn : Syn Expr) : List Token → Except Error (String × List Token)
  | .str value :: rest => .ok (value, rest)
  | input => .error (syn.expected "string literal" input)

end Syn

/-- `let _ = input.parse::<Token![,]>()`. -/
def skipComma : List Token → List Token
  | .comma :: rest => rest
  | input => input

section Settings

variable {Expr Args : Type}

/-- The body of the loops: a key, `=`, and what `assign` makes of the key. -/
def setting (syn : Syn Expr)
    (assign : String → Span → List Token → Args → Except Error (Args × List Token))
    (input : List Token) (args : Args) : Except Error (Args × List Token) := do
  let (key, rest) ← syn.ident input
  let rest ← syn.eq rest
  let (args, rest) ← assign key (span input) rest args
  .ok (args, skipComma rest)

/-- `while !input.is_empty()`. -/
def settings (syn : Syn Expr)
    (assign : String → Span → List Token → Args → Except Error (Args × List Token))
    (input : List Token) (args : Args) : Except Error Args :=
  Items.loop (setting syn assign) .diverges input.length input args

end Settings

/-- `TaskArgs`. -/
structure TaskArgs (Expr : Type) where
  priority : Expr
  stackSize : Expr
  timeSlice : Expr
  name : Option String

/-- The variables of `TaskArgs::parse`. -/
structure TaskSettings (Expr : Type) where
  priority : Option Expr := none
  stackSize : Option Expr := none
  timeSlice : Option Expr := none
  name : Option String := none

variable {Expr : Type}

/-- The `match` on the key in `TaskArgs::parse`. -/
def TaskSettings.assign (syn : Syn Expr) (key : String) (span : Span) (input : List Token)
    (args : TaskSettings Expr) : Except Error (TaskSettings Expr × List Token) :=
  match key with
  | "priority" => do
    let (value, rest) ← syn.expr input
    .ok ({ args with priority := some value }, rest)
  | "stack_size" => do
    let (value, rest) ← syn.expr input
    .ok ({ args with stackSize := some value }, rest)
  | "time_slice" => do
    let (value, rest) ← syn.expr input
    .ok ({ args with timeSlice := some value }, rest)
  | "name" => do
    let (value, rest) ← syn.litStr input
    .ok ({ args with name := some value }, rest)
  | other => .error (.at span ("unknown attribute key `" ++ other ++
      "`; expected `priority`, `stack_size`, `time_slice`, or `name`"))

/-- `TaskArgs::parse`. -/
def TaskArgs.parse (syn : Syn Expr) (input : List Token) : Except Error (TaskArgs Expr) := do
  let args ← settings syn (TaskSettings.assign syn) input {}
  .ok {
    priority := args.priority.getD (syn.parseStr "0")
    stackSize := args.stackSize.getD (syn.parseStr "512usize")
    timeSlice := args.timeSlice.getD (syn.parseStr "10")
    name := args.name }

/-- `MainArgs`. -/
@[ext] structure MainArgs (Expr : Type) where
  cpuHz : Expr

/-- The `match` on the key in `MainArgs::parse`. -/
def MainArgs.assign (syn : Syn Expr) (key : String) (span : Span) (input : List Token)
    (_ : Option Expr) : Except Error (Option Expr × List Token) :=
  match key with
  | "cpu_hz" => do
    let (value, rest) ← syn.expr input
    .ok (some value, rest)
  | other => .error (.at span ("unknown attribute key `" ++ other ++
      "`; expected `cpu_hz` or `max_tasks`"))

/-- `MainArgs::parse`. -/
def MainArgs.parse (syn : Syn Expr) (input : List Token) : Except Error (MainArgs Expr) := do
  match ← settings syn (MainArgs.assign syn) input none with
  | some cpuHz => .ok { cpuHz }
  | none => .error (.at .callSite "`cpu_hz` is required")

end Macros

end Kangaroos
