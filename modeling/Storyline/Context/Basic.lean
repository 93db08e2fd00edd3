import Storyline.Context.History
import Storyline.Json.Printer
import Storyline.Schema.Shape
import Storyline.Text.Lines

/-!
# The context of an invocation

The context holds the names that one invocation has set so far, in the order they were set,
each with where it came from, and the history of the invocation. Steps read it. Names enter it
when the story starts and when a step succeeds, and never change afterwards.
-/

set_option autoImplicit false

namespace Storyline

/-- Where a name of the context came from. -/
inductive Origin where
  /-- It is an argument of the call. -/
  | argument
  /-- The step with this qualified name set it. -/
  | step (qualified : String)
  deriving DecidableEq, Repr

/-- An origin as it is shown beside its name. -/
def Origin.text : Origin → String
  | argument => "Story argument"
  | step qualified => "Set by " ++ qualified

/-- A name of the context with its value and origin. -/
structure Variable where
  name : String
  value : Json
  origin : Origin

/-- The names set so far, and the history of the invocation. -/
structure Context where
  entries : List Variable := []
  history : History := {}
  /-- Values that would make a line longer than this are shown on a line of their own. -/
  width : Nat

namespace Context

/-- A context without names. -/
def empty (width : Nat) : Context := { width := width }

/-- The value of a name. -/
def find? (ctx : Context) (name : String) : Option Json :=
  (ctx.entries.find? (·.name == name)).map Variable.value

/-- The names, in the order they were set. -/
def names (ctx : Context) : List String := ctx.entries.map Variable.name

/-- Whether a name is set. -/
def contains (ctx : Context) (name : String) : Bool := ctx.names.contains name

/-- Add an argument of the call. -/
def addArgument (ctx : Context) (name : String) (value : Json) : Context :=
  { ctx with entries := ctx.entries ++ [⟨name, value, .argument⟩] }

/-- Add the values that a step has set. -/
def extend (ctx : Context) (step : String) (values : Bindings) : Context :=
  { ctx with
    entries := ctx.entries ++ values.entries.map fun (name, value) =>
      ⟨name, value, .step step⟩ }

/-- Change the history. -/
def mapHistory (f : History → History) (ctx : Context) : Context :=
  { ctx with history := f ctx.history }

/-! ## How a context is shown -/

/-- A text filled up with spaces to a number of characters. -/
def padded (text : String) (width : Nat) : String :=
  text ++ String.ofList (List.replicate (width - text.length) ' ')

/-- Whether the value of a variable is shown on lines of its own: the line would be longer than
the width, counted in bytes of UTF-8, or the value has a line break. -/
def isLong (width : Nat) (v : Variable) : Bool :=
  width < v.name.utf8ByteSize + v.value.text.utf8ByteSize + 4 ||
    v.value.text.toList.contains '\n'

/-- The part of a variable's first line before its origin. -/
def head (width : Nat) (v : Variable) : String :=
  if isLong width v then v.name ++ ":" else v.name ++ ": " ++ v.value.text

/-- The lines of a text, moved to the right. -/
def indented (text : String) : List String :=
  (linesOf text.toList).map fun line => "    " ++ String.ofList line

/-- What follows the origin of a variable: the value, if it has lines of its own. -/
def tail (width : Nat) (v : Variable) : String :=
  if isLong width v then "\n" ++ "\n".intercalate (indented v.value.text) else ""

/-- The names with their values and origins, the origins below each other. The longest head is
found in bytes of UTF-8, and the heads are filled up to that many characters. -/
def representation (ctx : Context) : String :=
  match ctx.entries with
  | [] => "Context()"
  | entries =>
    let longest := (entries.map fun v => (head ctx.width v).utf8ByteSize).foldl max 0
    let lines := entries.map fun v =>
      "  " ++ padded (head ctx.width v) longest ++ "  # " ++ v.origin.text ++ tail ctx.width v
    "\n".intercalate ("Context:" :: lines)

/-- The history, if there is any, and the names. -/
def display (ctx : Context) : String :=
  match ctx.history.lines with
  | [] => ctx.representation
  | _ => ctx.history.display ++ "\n\n" ++ ctx.representation

end Context

/-! ## Reading from steps -/

/-- Why a step could not read a name. -/
inductive ContextError where
  /-- The name is not set. -/
  | missing (name : String) (context : Context)
  /-- The value is not of the shape asked for. -/
  | mistyped (name : String) (cause : String)

namespace ContextError

/-- What the error says. -/
def message : ContextError → String
  | missing name context =>
    "'Context' object has no attribute " ++ name ++ "\n\n" ++ context.display
  | mistyped name cause => "Context variable " ++ name ++ " has unexpected type: " ++ cause

end ContextError

namespace Context

/-- The value of a name that has to be set. -/
def require (ctx : Context) (name : String) : Except ContextError Json :=
  match ctx.find? name with
  | some value => .ok value
  | none => .error (.missing name ctx)

/-- The value of a name, read into a shape. -/
def requireAs (ctx : Context) (name : String) (shape : Shape) : Except ContextError Json := do
  let value ← ctx.require name
  (shape.read value).mapError (.mistyped name)

end Context

end Storyline
