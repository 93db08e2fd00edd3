import Storyline.Contract.Build
import Storyline.Story.Error
import Storyline.Text.Letters

/-!
# Stories

A story is a named list of steps with arguments, and perhaps a schema and a failure vocabulary.
The steps are names only; what they are is found on the object the story is mounted on.
-/

set_option autoImplicit false

namespace Storyline

/-- An entry of a story: a step, or a group of independent steps that run together. -/
inductive Collected where
  | step (name : String)
  | parallel (names : List String)
  deriving DecidableEq, Repr

namespace Collected

/-- The names of an entry. -/
def names : Collected → List String
  | step name => [name]
  | parallel names => names

/-- A group as it is shown. -/
def displayGroup (names : List String) : String :=
  "parallel(" ++ ", ".intercalate names ++ ")"

/-- An entry as it is shown. -/
def display : Collected → String
  | step name => name
  | parallel names => displayGroup names

/-- The developer's view of an entry. -/
def inspect : Collected → String
  | step name => Inspect.wrapped "Step" [quoted name]
  | parallel names => Inspect.wrapped "Parallel" [Inspect.list (names.map quoted)]

end Collected

/-- A story as it is declared. -/
structure Story where
  name : StoryName
  arguments : List String
  collected : List Collected
  spec : Option Spec
  failures : Option Failures

namespace Story

/-- The name as it is shown. -/
def qualified (s : Story) : String := s.name.qualified

/-- The names of all steps, groups flattened. -/
def steps (s : Story) : List String := (s.collected.map Collected.names).flatten

/-- The contract of the story alone. -/
def contract (s : Story) : Except ContractError Contract :=
  Contract.build s.name s.arguments s.spec

/-- The same story with another schema, which has to declare all arguments. -/
def withContract (s : Story) (spec : Spec) : Except StoryError Story :=
  let changed := { s with spec := some spec }
  match changed.contract with
  | .ok _ => .ok changed
  | .error cause => .error (.contract cause)

/-- The same story with another failure vocabulary. -/
def withFailures (s : Story) (failures : Failures) : Story :=
  { s with failures := some failures }

/-- Several stories with one schema; the first whose arguments it does not declare is an
error. -/
def contractIn (spec : Spec) (stories : List Story) : Except StoryError (List Story) :=
  stories.mapM (·.withContract spec)

/-- Several stories with one failure vocabulary. -/
def failuresIn (failures : Failures) (stories : List Story) : List Story :=
  stories.map (·.withFailures failures)

/-- The story as it is shown: its name, and an entry on each line. -/
def display (s : Story) : String :=
  "\n".intercalate (s.qualified :: s.collected.map fun entry => "  " ++ entry.display)

/-- The developer's view of a story. -/
def inspect (s : Story) : String :=
  Inspect.record "Story"
    [("story", quoted s.qualified), ("arguments", Inspect.list (s.arguments.map quoted)),
      ("collected", Inspect.list (s.collected.map Collected.inspect)),
      ("failures", Inspect.optional (s.failures.map Failures.inspect))]

end Story

end Storyline
