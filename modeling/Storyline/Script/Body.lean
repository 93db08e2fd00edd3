import Storyline.Mounted

/-!
# Step bodies written as data

A body is a list of statements that read the context and end with an outcome. Expressions give
JSON values; they can read the context, calculate with integers, and call mounted stories.
-/

set_option autoImplicit false

namespace Storyline.Script

/-- An operation on two integers that gives an integer. -/
inductive Arithmetic where
  | add
  | sub
  | mul
  deriving DecidableEq, Repr

/-- An expression over a context. -/
inductive Expr where
  | lit (value : Json)
  /-- The value of a name that has to be set. -/
  | required (name : String)
  /-- The value of a name, or null. -/
  | get (name : String)
  | has (name : String)
  | names
  | items
  | size
  | isEmpty
  | representation
  | display
  | history
  /-- The value of a name that has to be set and to be of a shape. -/
  | requiredAs (name : String) (shape : Shape)
  | arithmetic (op : Arithmetic) (a b : Expr)
  | less (a b : Expr)
  | equal (a b : Expr)
  | isNotTrue (a : Expr)
  /-- The value of a mounted story. -/
  | call (calling : Calling) (mounted : String) (arguments : List (String × Expr))

/-- A statement of a body. -/
inductive Statement where
  | success (values : List (String × Expr))
  | failure (reason : Option Reason)
  | result (value : Expr)
  | skip
  | next (value : Option Expr)
  /-- Evaluate an expression for its errors. -/
  | evaluate (e : Expr)
  /-- The first statements if the expression is true, else the second. -/
  | choose (condition : Expr) (yes no : List Statement)
  | raise (error : StepError)

/-- A body of a step. -/
abbrev Body := List Statement

/-- Evaluation in a step: it may raise an error, and the events of the stories it calls remain
in either case. -/
abbrev Eval := ExceptT StepError (StateM (List Event))

namespace Eval

/-- The value of a context reader. -/
def ofContext {α : Type} : Except ContextError α → Eval α
  | .ok value => pure value
  | .error e => throw (.ofContextError e)

/-- The integer that a value has to be. -/
def integer (v : Json) : Eval Int :=
  match v.toInt64? with
  | some i => pure i
  | none => throw (.message "not an integer")

/-- The result of an operation on integers, which has to fit into 64 bits. -/
def calculate (op : Arithmetic) (a b : Int) : Eval Json :=
  let i := match op with
    | .add => a + b
    | .sub => a - b
    | .mul => a * b
  if Number.fitsSigned i then pure (.int i) else throw (.message "overflow")

end Eval

/-- Whether a value is exactly true. -/
def isTrue : Json → Bool
  | .bool b => b
  | _ => false

/-- The names and values of a context as pairs. -/
def contextItems (ctx : Context) : Json :=
  .array (ctx.entries.map fun v => .array [.string v.name, v.value])

section Evaluation

variable (invoke : Calling → String → Bindings → Eval Json) (ctx : Context)

mutual

/-- The value of an expression. -/
def Expr.eval : Expr → Eval Json
  | .lit value => pure value
  | .required name => .ofContext (ctx.require name)
  | .get name => pure ((ctx.find? name).getD .null)
  | .has name => pure (.bool (ctx.contains name))
  | .names => pure (.array (ctx.names.map .string))
  | .items => pure (contextItems ctx)
  | .size => pure (.nat ctx.entries.length)
  | .isEmpty => pure (.bool ctx.entries.isEmpty)
  | .representation => pure (.string ctx.representation)
  | .display => pure (.string ctx.display)
  | .history => pure (.array (ctx.history.texts.map .string))
  | .requiredAs name shape => .ofContext (ctx.requireAs name shape)
  | .arithmetic op a b => do
    let a ← Eval.integer (← a.eval)
    let b ← Eval.integer (← b.eval)
    Eval.calculate op a b
  | .less a b => do
    let a ← Eval.integer (← a.eval)
    let b ← Eval.integer (← b.eval)
    return .bool (a < b)
  | .equal a b => do
    let a ← a.eval
    let b ← b.eval
    return .bool (a.same b)
  | .isNotTrue a => return .bool (!isTrue (← a.eval))
  | .call calling mounted arguments => do
    invoke calling mounted (.ofList (← Expr.evalAll arguments))

/-- The values of named expressions, in order. -/
def Expr.evalAll : List (String × Expr) → Eval (List (String × Json))
  | [] => return []
  | (name, e) :: rest => do
    let value ← e.eval
    return (name, value) :: (← Expr.evalAll rest)

end

mutual

/-- The outcome of a statement, if it gives one. -/
def Statement.run : Statement → Eval (Option Outcome)
  | .success values => return some (.success (.ofList (← Expr.evalAll invoke ctx values)))
  | .failure reason => return some (.failure reason)
  | .result value => return some (.result (← value.eval invoke ctx))
  | .skip => return some .skip
  | .next none => return some (.next none)
  | .next (some value) => return some (.next (some (← value.eval invoke ctx)))
  | .evaluate e => do
    discard (e.eval invoke ctx)
    return none
  | .choose condition yes no => do
    if isTrue (← condition.eval invoke ctx) then Statement.runAll yes else Statement.runAll no
  | .raise error => throw error

/-- The outcome of the first statement that gives one. -/
def Statement.runAll : List Statement → Eval (Option Outcome)
  | [] => return none
  | statement :: rest => do
    match ← statement.run with
    | some outcome => return some outcome
    | none => Statement.runAll rest

end

/-- What a body comes to. One that ends without an outcome is a success. -/
def Body.reply (body : Body) : Reply :=
  let (result, events) := (Statement.runAll invoke ctx body).run.run []
  { events, result := result.map fun outcome => outcome.getD (.success .empty) }

end Evaluation

/-! ## Calls between stories -/

/-- How deep the calls of steps may be nested. Only stories that call each other without end go
so deep. -/
def maxNesting : Nat := 100000

/-- Call a mounted story from a body. An error of the story is an error of the step. -/
def callMounted (mounted : Named (Mounted Body)) (perform : Body → Context → Reply)
    (calling : Calling) (id : String) (arguments : Bindings) : Eval Json := do
  match mounted.find? id with
  | none => throw (.message ("not mounted: " ++ id))
  | some m =>
    let answer := m.call perform calling arguments
    modify (· ++ [Event.called m.observers answer.events])
    match answer.result with
    | .ok value => return value
    | .error cause => throw (.other "StoryError" cause.message)

/-- What a body comes to when its calls are nested at most `depth` deep. -/
def performWithin (mounted : Named (Mounted Body)) : (depth : Nat) → Body → Context → Reply
  | 0, _, _ => { result := .error (.message "calls are nested too deep") }
  | depth + 1, body, ctx =>
    Body.reply (callMounted mounted (performWithin mounted depth)) ctx body

/-- What a body comes to, among mounted stories. -/
def perform (mounted : Named (Mounted Body)) : Body → Context → Reply :=
  performWithin mounted maxNesting

end Storyline.Script
