import Storyline.Schema.Shape
import Storyline.Text.Inspect

/-!
# Settings

What may be chosen when a story is mounted. Settings can be read from a configuration; whatever
is left out has its default.
-/

set_option autoImplicit false

namespace Storyline

/-- What may be chosen when a story is mounted. -/
structure Settings where
  /-- How many workers run the steps of a group; by default those shared by all stories. -/
  workers : Option Nat := none
  /-- Values that would make a line longer than this are shown on a line of their own. -/
  reprWidth : Nat := 88
  deriving DecidableEq, Repr

namespace Settings

/-- Choose the number of workers. -/
def withWorkers (s : Settings) (workers : Nat) : Settings := { s with workers := some workers }

/-- Choose the width. -/
def withReprWidth (s : Settings) (width : Nat) : Settings := { s with reprWidth := width }

/-- The shape of a configuration. -/
def shape : Shape :=
  .record "Settings"
    [("workers", .optional .size, some .null), ("repr_width", .size, some (.nat 88))]

/-- A field of a configuration as a natural number. -/
def natField? (v : Json) (field : String) : Option Nat :=
  match v.field? field with
  | some (.number (.int i)) => some i.toNat
  | _ => none

/-- Read settings from a configuration. -/
def ofJson (v : Json) : Except String Settings := do
  let v ← shape.read v
  return { workers := natField? v "workers", reprWidth := (natField? v "repr_width").getD 88 }

/-- The settings as a configuration. -/
def toJson (s : Settings) : Json :=
  let workers := match s.workers with
    | none => .null
    | some n => .nat n
  .object [("workers", workers), ("repr_width", .nat s.reprWidth)]

/-- The developer's view of settings. -/
def inspect (s : Settings) : String :=
  Inspect.record "Settings"
    [("workers", Inspect.optional (s.workers.map toString)),
      ("repr_width", toString s.reprWidth)]

end Settings

end Storyline
