import Storyline.Json.Basic
import Storyline.Text.Inspect

/-!
# Failure reasons

A step that fails may say why: with a token of a flat list, or with a member of an enumeration.
Tokens are equal as texts. Members are equal when their names are: a member taken over into a
combined enumeration is still the member it came from.
-/

set_option autoImplicit false

namespace Storyline

/-- Why a step failed. -/
inductive Reason where
  | token (text : String)
  | member (enumeration name : String) (value : Int64)
  deriving DecidableEq

namespace Reason

/-- The text of a token or the name of a member. -/
def name : Reason → String
  | token text => text
  | member _ name _ => name

/-- Equality of reasons: tokens by text, members by name, never across. -/
def same : Reason → Reason → Bool
  | token a, token b => a == b
  | member _ a _, member _ b _ => a == b
  | _, _ => false

/-- A member as it is shown: its enumeration, name and value. -/
def displayMember (enumeration name : String) (value : Int64) : String :=
  "<" ++ enumeration ++ "." ++ name ++ ": " ++ toString value.toInt ++ ">"

/-- The reason as it is shown in messages. -/
def display : Reason → String
  | token text => quoted text
  | member enumeration name value => displayMember enumeration name value

/-- The reason as a JSON value. -/
def toJson : Reason → Json
  | token text => .string text
  | member enumeration name value =>
    .object [("enumeration", .string enumeration), ("name", .string name),
      ("value", .int value.toInt)]

/-- The reason a JSON value stands for: a text is a token, an object with the fields of a member
is that member. -/
def ofJson? : Json → Option Reason
  | .string text => some (token text)
  | v => do
    let .string enumeration ← v.field? "enumeration" | none
    let .string name ← v.field? "name" | none
    let value ← (← v.field? "value").toInt64?
    some (member enumeration name (Int64.ofInt value))

/-- The message for a value that stands for no reason. -/
def unreadable : String := "data did not match any variant of untagged enum Reason"

/-- The developer's view of a reason. -/
def inspect : Reason → String
  | token text => Inspect.wrapped "Token" [quoted text]
  | member enumeration name value =>
    Inspect.record "Member" [("enumeration", quoted enumeration), ("name", quoted name),
      ("value", toString value.toInt)]

end Reason

end Storyline
