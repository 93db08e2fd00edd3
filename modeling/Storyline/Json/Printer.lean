import Storyline.Json.Basic
import Storyline.Text.Quoted

/-!
# Compact text of JSON values

Values are written without spaces, fields in their order, and with escapes only for the quote,
the backslash and the control characters below the space.
-/

set_option autoImplicit false

namespace Storyline.Json

/-- One character of a JSON string. -/
def escapedChar (c : Char) : String :=
  if c == '"' then "\\\""
  else if c == '\\' then "\\\\"
  else if c == '\x08' then "\\b"
  else if c == '\t' then "\\t"
  else if c == '\n' then "\\n"
  else if c == '\x0c' then "\\f"
  else if c == '\r' then "\\r"
  else if c.toNat < 16 then "\\u000" ++ hexadecimal c.toNat
  else if c.toNat < 32 then "\\u00" ++ hexadecimal c.toNat
  else c.toString

/-- A JSON string. -/
def escaped (s : String) : String :=
  "\"" ++ String.join (s.toList.map escapedChar) ++ "\""

mutual

/-- The compact text of a value. -/
def text : Json → String
  | .null => "null"
  | .bool true => "true"
  | .bool false => "false"
  | .number n => n.text
  | .string s => escaped s
  | .array items => "[" ++ ",".intercalate (itemTexts items) ++ "]"
  | .object fields => "\x7b" ++ ",".intercalate (fieldTexts fields) ++ "\x7d"

/-- The texts of the items of an array. -/
def itemTexts : List Json → List String
  | [] => []
  | v :: rest => text v :: itemTexts rest

/-- The texts of the fields of an object. -/
def fieldTexts : List (String × Json) → List String
  | [] => []
  | (name, v) :: rest => (escaped name ++ ":" ++ text v) :: fieldTexts rest

end

end Storyline.Json
