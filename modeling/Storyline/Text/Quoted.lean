import Storyline.Text.Printable

/-!
# Quoted names

Names are quoted in messages so that every character of them can be told apart: the quote and
the backslash are escaped, and so is every character that has no visible form or that would
merge with the character before it.
-/

set_option autoImplicit false

namespace Storyline

/-- A code point in lower-case hexadecimal, without padding. -/
def hexadecimal (n : Nat) : String :=
  String.ofList (Nat.toDigits 16 n)

/-- One character of a quoted name. -/
def quotedChar (c : Char) : String :=
  if c == '\x00' then "\\0"
  else if c == '\t' then "\\t"
  else if c == '\n' then "\\n"
  else if c == '\r' then "\\r"
  else if c == '"' then "\\\""
  else if c == '\\' then "\\\\"
  else if CharClass.extendingMark.contains c || CharClass.hidden.contains c then
    "\\u\x7b" ++ hexadecimal c.toNat ++ "\x7d"
  else c.toString

/-- A name in double quotes, with escapes for all that could be misread. -/
def quoted (name : String) : String :=
  "\"" ++ String.join (name.toList.map quotedChar) ++ "\""

/-- Several names, each quoted, separated by commas. -/
def quotedNames (names : List String) : String :=
  ", ".intercalate (names.map quoted)

end Storyline
