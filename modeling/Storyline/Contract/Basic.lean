import Storyline.Names.Catalog
import Storyline.Schema.Spec
import Storyline.Text.Inspect

/-!
# Contracts

A contract says which names may enter the context of a story and how their values are
validated. It is built from the arguments the story declares and the schema attached to it:

* an *argument* may be validated by several sources, one per story that declares it, and all of
  them have to agree on the value that is kept;
* a *variable* is a field of the schema that is not an argument; only steps set it.

Without a schema every step may set any name, and arguments are taken as they are given.
-/

set_option autoImplicit false

namespace Storyline

/-- The name of a story: the class it is declared on and its own name. -/
structure StoryName where
  className : String
  name : String
  deriving DecidableEq, Repr

/-- The name of a story as it is shown. -/
def StoryName.qualified (s : StoryName) : String := s.className ++ "." ++ s.name

/-- One of the stories that declare an argument, with its validator if it has a schema. -/
structure Source where
  validator : Option Field
  story : StoryName

namespace Source

/-- How a source describes its argument. -/
def description (s : Source) : String :=
  match s.validator with
  | none => ""
  | some field => field.description

/-- The line of an argument and one of its sources, after what the line starts with. -/
def line (start : String) (s : Source) : String :=
  start ++ "  # Argument of " ++ s.story.qualified

/-- Whether a source is shown before another: by class, then by story. -/
def shownBefore (a b : Source) : Bool :=
  a.story.className < b.story.className ||
    (a.story.className == b.story.className && a.story.name ≤ b.story.name)

end Source

/-- The story that declares a variable, and how the variable is described there. -/
structure Declaration where
  story : StoryName
  description : String

/-- The contract of a story, combined with those of the stories it was composed with. -/
structure Contract where
  story : StoryName
  /-- The arguments the story itself declares, in order. -/
  arguments : List String
  spec : Option Spec
  /-- The arguments of the whole composition, with all that declare them. -/
  sources : Catalog (List Source)
  /-- The variables of the story's own schema. -/
  ownVariables : Catalog Field
  /-- The variables of the whole composition. -/
  declared : Catalog Declaration

namespace Contract

/-- Whether no schema is attached. -/
def isNull (c : Contract) : Bool := c.spec.isNone

/-- All names the story may be called with. -/
def argumentNames (c : Contract) : List String := c.sources.names

/-- The family of the schema as it is shown in diagnostics. -/
def familyName (c : Contract) : String :=
  match c.spec with
  | none => "None"
  | some spec => spec.family.display

/-- The sources of an argument; none for other names. -/
def sourcesOf (c : Contract) (name : String) : List Source := (c.sources.find? name).getD []

/-! ## How a contract is shown -/

/-- The lines of an argument of a contract without schema. -/
def plainLines (c : Contract) (name : String) : List String :=
  (c.sourcesOf name).map (Source.line ("  " ++ name))

/-- The lines of an argument of a contract with a schema: one for a single source, else a line
for the name and one for each source, sorted. -/
def describedLines (name : String) (sources : List Source) : List String :=
  match sources with
  | [source] => [source.line ("  " ++ name ++ ": " ++ source.description)]
  | _ =>
    let sorted := sources.mergeSort Source.shownBefore
    ("  " ++ name ++ ":") ::
      sorted.map fun source => source.line ("    " ++ source.description)

/-- The line of a variable. -/
def variableLine (name : String) (d : Declaration) : String :=
  "  " ++ name ++ ": " ++ d.description ++ "  # Variable in " ++ d.story.qualified

/-- The part of the contract that concerns some names: arguments first, then variables, each
in alphabetic order. -/
def excerpt (c : Contract) (names : List String) : String :=
  let names := sortedNames names
  if c.isNull then
    if c.sources.isEmpty then "Contract()"
    else "\n".intercalate ("Contract:" :: (names.map c.plainLines).flatten)
  else
    let arguments := names.filterMap fun name =>
      (c.sources.find? name).map (describedLines name)
    let declared := names.filterMap fun name => (c.declared.find? name).map (variableLine name)
    "\n".intercalate ("Contract:" :: (arguments.flatten ++ declared))

/-- The whole contract. -/
def display (c : Contract) : String := c.excerpt (c.sources.names ++ c.declared.names)

/-- The developer's view of a contract. -/
def inspect (c : Contract) : String :=
  Inspect.record "Contract"
    [("story", quoted c.story.qualified), ("family", quoted c.familyName),
      ("arguments", Inspect.list (c.sources.names.map quoted)),
      ("variables", Inspect.list (c.declared.names.map quoted))]

end Contract

end Storyline
