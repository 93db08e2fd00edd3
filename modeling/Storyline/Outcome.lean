import Storyline.Failures.Reason
import Storyline.Json.Printer

/-!
# Outcomes of steps

A step answers with one of five outcomes. Errors raised by its body travel apart and are never
taken for outcomes.
-/

set_option autoImplicit false

namespace Storyline

/-- What a step answers with. -/
inductive Outcome where
  /-- Go on, adding names to the context. -/
  | success (values : Bindings)
  /-- Stop the whole story, perhaps with a reason. -/
  | failure (reason : Option Reason)
  /-- Stop the whole story and give the value. -/
  | result (value : Json)
  /-- Leave the innermost story. -/
  | skip
  /-- Coroutine stories only: leave the innermost story; a value given in the outermost one is
  the result. -/
  | next (value : Option Json)

namespace Outcome

/-- Add a name to a success; other outcomes stay as they are. -/
def set (name : String) (value : Json) : Outcome → Outcome
  | success values => success (values.insert name value)
  | other => other

/-- The outcome as it is shown in messages. -/
def display : Outcome → String
  | success values =>
    let shown := values.entries.map fun (name, value) => name ++ "=" ++ value.text
    "Success(" ++ ", ".intercalate shown ++ ")"
  | failure none => "Failure()"
  | failure (some reason) => "Failure(" ++ reason.display ++ ")"
  | result value => "Result(" ++ value.text ++ ")"
  | skip => "Skip()"
  | next none => "Next()"
  | next (some value) => "Next(" ++ value.text ++ ")"

/-- An outcome as a JSON value: its name and what it carries. -/
def tagged (name : String) (value : Json) : Json :=
  .object [("outcome", .string name), ("value", value)]

/-- The outcome as a JSON value. -/
def toJson : Outcome → Json
  | success values => tagged "Success" (.ofBindings values)
  | failure none => tagged "Failure" .null
  | failure (some reason) => tagged "Failure" reason.toJson
  | result value => tagged "Result" value
  | skip => .object [("outcome", .string "Skip")]
  | next none => tagged "Next" .null
  | next (some value) => tagged "Next" value

end Outcome

end Storyline
