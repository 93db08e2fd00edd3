import Storyline.Schema.Spec

/-!
# Validators for described schemas

The checks and functions that the fields of a schema described by data may use, and the shapes
of records they may have.
-/

set_option autoImplicit false

namespace Storyline.Script

namespace Check

/-- Every value passes. -/
def always (_ : Json) : Except String Unit := .ok ()

/-- A number that is at least zero. -/
def nonnegative (v : Json) : Except String Unit :=
  let passes := match v with
    | .number (.int i) => decide (0 ≤ i)
    | .number (.float x) => x.isNonneg
    | _ => false
  if passes then .ok () else .error "must not be negative"

/-- A text, list or object that is not empty. -/
def nonempty (v : Json) : Except String Unit :=
  let passes := match v with
    | .string s => !s.isEmpty
    | .array items => !items.isEmpty
    | .object fields => !fields.isEmpty
    | _ => false
  if passes then .ok () else .error "must not be empty"

end Check

namespace Convert

/-- Every value, as it is. -/
def identity (v : Json) : Except String Json := .ok v

/-- An integer of 64 bits. -/
def integer (v : Json) : Except String Json :=
  if v.toInt64?.isSome then .ok v else .error "not an int"

/-- An even integer of 64 bits. -/
def even (v : Json) : Except String Json :=
  match v.toInt64? with
  | some i => if i % 2 = 0 then .ok v else .error "odd"
  | none => .error "odd"

/-- A text, in capitals. -/
def upper (v : Json) : Except String Json :=
  match v with
  | .string s => .ok (.string (s.map Char.toUpper))
  | _ => .error "not a string"

/-- No value. -/
def reject (_ : Json) : Except String Json := .error "rejected\nalways"

end Convert

/-- An amount of money. -/
def moneyShape : Shape := .record "Money" [("amount", .nat32, none)]

end Storyline.Script
