import Storyline.Text.Quoted

/-!
# Inspection text

The developer's view of a value on one line: records with their fields, lists in brackets,
optional values as `None` or `Some(..)`, names quoted.
-/

set_option autoImplicit false

namespace Storyline.Inspect

/-- A list of inspected items. -/
def list (items : List String) : String :=
  "[" ++ ", ".intercalate items ++ "]"

/-- A record: its name and its inspected fields. -/
def record (name : String) (fields : List (String × String)) : String :=
  let body := ", ".intercalate (fields.map fun (field, text) => field ++ ": " ++ text)
  name ++ " \x7b " ++ body ++ " \x7d"

/-- A named wrapper around inspected arguments. -/
def wrapped (name : String) (arguments : List String) : String :=
  name ++ "(" ++ ", ".intercalate arguments ++ ")"

/-- A value that may be absent. -/
def optional : Option String → String
  | none => "None"
  | some text => wrapped "Some" [text]

/-- A table from quoted names to inspected values. -/
def table (entries : List (String × String)) : String :=
  let body := ", ".intercalate (entries.map fun (name, text) => quoted name ++ ": " ++ text)
  "\x7b" ++ body ++ "\x7d"

end Storyline.Inspect
