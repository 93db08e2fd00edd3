import Storyline.Json.Basic
import Storyline.Number.Reading
import Storyline.Schema.Violation
import Storyline.Text.Blank

/-!
# Kinds of values

A kind says which values a field takes and in which form they are kept. `Kind.coerce` accepts
the written forms of booleans and numbers beside the values themselves and gives the form that
is kept; a list is coerced item by item, and every failing item is reported under its index.
-/

set_option autoImplicit false

namespace Storyline

/-- The kind of a field. -/
inductive Kind where
  | any
  | boolean
  | integer
  | float
  | string
  | list (item : Kind)
  | map
  deriving DecidableEq, Repr

namespace Kind

/-- The kind as it is shown in contracts. -/
def display : Kind → String
  | any => "any"
  | boolean => "boolean"
  | integer => "integer"
  | float => "float"
  | string => "string"
  | list item => "list[" ++ item.display ++ "]"
  | map => "map"

/-! ## Single values -/

/-- The boolean a word stands for; capitals make no difference. -/
def wordToBool? (word : String) : Option Bool :=
  let lower := word.map Char.toLower
  if ["true", "yes", "on", "1"].contains lower then some true
  else if ["false", "no", "off", "0"].contains lower then some false
  else none

/-- A boolean, one of the integers `0` and `1`, or a word for one. -/
def toBool? : Json → Option Bool
  | .bool b => some b
  | .number (.int 0) => some false
  | .number (.int 1) => some true
  | .string s => wordToBool? s
  | _ => none

/-- An integer of 64 bits: given as one, as a number whose nearest double is whole and within the
range, or in decimal text. -/
def toInteger? : Json → Option Int
  | .number n =>
    (Json.number n).toInt64?.or ((n.toDouble?.bind Double.toInt?).filter Number.fitsSigned)
  | .string s => readInteger? (trimmed s.toList)
  | _ => none

/-- A finite double: given as one, as an integer, or in decimal text. -/
def toDouble? : Json → Option Double
  | .number n => n.toDouble?
  | .string s => readDouble? (trimmed s.toList)
  | _ => none

/-! ## Coercion -/

/-- The messages of the failing items, in order, each under the index of its item. -/
def complaints (results : List (Except Violation Json)) : List String :=
  (results.zipIdx.map fun (result, index) => match result with
    | .ok _ => []
    | .error violation => violation.messages.map fun m => toString index ++ ": " ++ m).flatten

/-- The list of the accepted items, or the messages of all that failed. -/
def gather (results : List (Except Violation Json)) : Except Violation Json :=
  match complaints results with
  | [] => .ok (.array (results.filterMap Except.toOption))
  | messages => .error ⟨messages⟩

/-- The value if there is one, or a violation with the given message. -/
def orViolation (message : String) : Option Json → Except Violation Json
  | some v => .ok v
  | none => .error (.because message)

/-- Check a value and give the form that is kept. Null is a value of the kind `any` only. -/
def coerce : Kind → Json → Except Violation Json
  | any, v => .ok v
  | _, .null => .error (.because "none is not an allowed value")
  | boolean, v =>
    orViolation "value could not be parsed to a boolean" ((toBool? v).map .bool)
  | integer, v =>
    orViolation "value is not a valid integer" ((toInteger? v).map .int)
  | float, v =>
    orViolation "value is not a valid float" ((toDouble? v).map (.number ∘ .float))
  | string, .string s => .ok (.string s)
  | string, _ => .error (.because "str type expected")
  | list item, .array items => gather (items.map fun v => item.coerce v)
  | list _, _ => .error (.because "value is not a valid list")
  | map, .object fields => .ok (.object fields)
  | map, _ => .error (.because "value is not a valid dict")

end Kind

end Storyline
