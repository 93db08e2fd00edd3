import Storyline.Json.Basic
import Storyline.Json.Token

/-!
# Reading JSON documents

`Json.read?` reads a document into a value. Arrays and objects may be nested up to a fixed
depth. A repeated name of an object keeps its first place and its last value.
-/

set_option autoImplicit false

namespace Storyline.Json

/-- How deep arrays and objects may be nested in a document. -/
def maxDepth : Nat := 127

mutual

/-- The value at the start of some tokens and what follows it. -/
def value? : (fuel depth : Nat) → List Token → Option (Json × List Token)
  | 0, _, _ => none
  | fuel + 1, depth, token :: rest =>
    match token with
    | .null => some (.null, rest)
    | .bool b => some (.bool b, rest)
    | .number n => some (.number n, rest)
    | .string s => some (.string s, rest)
    | .openBracket =>
      match depth, rest with
      | 0, _ => none
      | _ + 1, .closeBracket :: rest => some (.array [], rest)
      | depth + 1, rest => (items? fuel depth rest).map fun (items, rest) => (.array items, rest)
    | .openBrace =>
      match depth, rest with
      | 0, _ => none
      | _ + 1, .closeBrace :: rest => some (.object [], rest)
      | depth + 1, rest => (members? fuel depth rest).map fun (fields, rest) =>
          (.object (Named.ofList fields).entries, rest)
    | _ => none
  | _ + 1, _, [] => none

/-- The items of an array that is open and has at least one more, up to its closing bracket. -/
def items? : (fuel depth : Nat) → List Token → Option (List Json × List Token)
  | 0, _, _ => none
  | fuel + 1, depth, tokens =>
    match value? fuel depth tokens with
    | some (v, .closeBracket :: rest) => some ([v], rest)
    | some (v, .comma :: rest) =>
      (items? fuel depth rest).map fun (items, rest) => (v :: items, rest)
    | _ => none

/-- The fields of an object that is open and has at least one more, up to its closing brace. -/
def members? : (fuel depth : Nat) → List Token → Option (List (String × Json) × List Token)
  | 0, _, _ => none
  | fuel + 1, depth, tokens =>
    match tokens with
    | .string name :: .colon :: rest =>
      match value? fuel depth rest with
      | some (v, .closeBrace :: rest) => some ([(name, v)], rest)
      | some (v, .comma :: rest) =>
        (members? fuel depth rest).map fun (fields, rest) => ((name, v) :: fields, rest)
      | _ => none
    | _ => none

end

/-- The value of a document, if it is one. -/
def read? (text : String) : Option Json := do
  let tokens ← scan? text
  match value? (2 * tokens.length + 1) maxDepth tokens with
  | some (v, []) => some v
  | _ => none

end Storyline.Json
