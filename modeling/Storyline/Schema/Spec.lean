import Storyline.Schema.Kind
import Storyline.Schema.Shape

/-!
# Schemas

A schema declares fields, each with a description and a validator. Schemas come in families, by
how their fields are declared: by kind, by shape, or by a function; only schemas of one family
combine. A schema also has an identity: two stories share a schema when they were given one and
the same, not when they were given two that look alike.
-/

set_option autoImplicit false

namespace Storyline

/-- How the fields of a schema are declared. -/
inductive Family where
  | schema
  | typed
  | raw
  deriving DecidableEq, Repr

/-- The family as it is shown in diagnostics. -/
def Family.display : Family → String
  | .schema => "Schema"
  | .typed => "Typed"
  | .raw => "Raw"

/-- A field of a schema: how it is described, and which values it accepts in which form. -/
structure Field where
  description : String
  validate : Json → Except Violation Json

namespace Field

/-- A field of a kind, with a check that is run on the coerced value. -/
def ofKind (kind : Kind) (check : Json → Except String Unit) : Field where
  description := kind.display
  validate v := do
    let normalized ← kind.coerce v
    match check normalized with
    | .ok () => .ok normalized
    | .error message => .error (.because message)

/-- A field of a shape. -/
def ofShape (shape : Shape) : Field where
  description := shape.display
  validate v := (shape.read v).mapError .because

/-- A field validated by a function, with a description of its own. -/
def ofFunction (description : String) (convert : Json → Except String Json) : Field where
  description := description
  validate v := (convert v).mapError .because

end Field

/-- A schema. -/
structure Spec where
  /-- Tells schemas apart that look alike. -/
  identity : Nat
  family : Family
  name : String
  /-- The declared fields, in the order they were first declared. -/
  fields : Named Field

namespace Spec

/-- Whether two schemas are one and the same. -/
def sameAs (a b : Spec) : Bool := a.identity == b.identity

/-- Validate a value for a field. -/
def validate (spec : Spec) (field : String) (v : Json) : Except Violation Json :=
  match spec.fields.find? field with
  | some declared => declared.validate v
  | none => .error (.because ("field " ++ quoted field ++ " is not declared"))

/-- The description of a field; empty for a field that is not declared. -/
def describe (spec : Spec) (field : String) : String :=
  match spec.fields.find? field with
  | some declared => declared.description
  | none => ""

end Spec

end Storyline
