import Storyline.Names.Named
import Storyline.Number.Basic

/-!
# JSON values

The values that stories are called with, that steps set, and that stories return. Objects keep
the order of their fields, but two objects with the same fields in different orders are equal
(`Json.same`).
-/

set_option autoImplicit false

namespace Storyline

/-- A JSON value. The fields of an object have distinct names. -/
inductive Json where
  | null
  | bool (value : Bool)
  | number (value : Number)
  | string (value : String)
  | array (items : List Json)
  | object (fields : List (String × Json))

instance : Inhabited Json := ⟨.null⟩

/-- Values set by a step or given in a call, in the order given. -/
abbrev Bindings := Named Json

namespace Json

/-- An integer as a value. -/
def int (i : Int) : Json := .number (.int i)

/-- A natural number as a value. -/
def nat (n : Nat) : Json := .number (.int n)

/-- A text that may be absent. -/
def optionalString : Option String → Json
  | none => .null
  | some s => .string s

/-- The object with the given named values. -/
def ofBindings (m : Bindings) : Json := .object m.entries

/-- Whether a value is null. -/
def isNull : Json → Bool
  | .null => true
  | _ => false

/-- The value as an integer of 64 bits; doubles are none, whole or not. -/
def toInt64? : Json → Option Int
  | .number (.int i) => if Number.fitsSigned i then some i else none
  | _ => none

/-- The fields of an object. -/
def fields? : Json → Option (List (String × Json))
  | .object fields => some fields
  | _ => none

/-- The value of a field of an object. -/
def field? (name : String) (v : Json) : Option Json :=
  v.fields?.bind (·.lookup name)

/-! ## Equality -/

mutual

/-- Equality of values: arrays item by item, objects field by field in any order. -/
def same : Json → Json → Bool
  | .null, .null => true
  | .bool a, .bool b => a == b
  | .number a, .number b => a.same b
  | .string a, .string b => a == b
  | .array as, .array bs => sameItems as bs
  | .object as, .object bs => as.length == bs.length && sameFields as bs
  | _, _ => false

/-- Equality of lists of values. -/
def sameItems : List Json → List Json → Bool
  | [], [] => true
  | a :: as, b :: bs => same a b && sameItems as bs
  | _, _ => false

/-- Whether every field of the first list has an equal value in the second. -/
def sameFields : List (String × Json) → List (String × Json) → Bool
  | [], _ => true
  | (name, a) :: as, bs =>
    (match bs.lookup name with
      | some b => same a b
      | none => false) && sameFields as bs

end

end Json

end Storyline
