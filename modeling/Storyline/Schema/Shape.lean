import Storyline.Json.Printer
import Storyline.Names.Catalog

/-!
# Shapes of typed values

A shape describes the values of a static type: fixed-width numbers, texts, lists, optional
values, maps, and records with named fields. `Shape.read` reads a value into a shape and gives
it in the form of the type, or says what was found and what was expected instead. Nothing is
converted but numbers into doubles.
-/

set_option autoImplicit false

namespace Storyline

/-- A shape of values. A record names its fields in order, each with the value it has when it is
missing, if it may be missing. -/
inductive Shape where
  | int64
  | nat32
  | nat64
  | size
  | double
  | bool
  | string
  | list (item : Shape)
  | optional (value : Shape)
  | map (value : Shape)
  | record (name : String) (fields : List (String × Shape × Option Json))

namespace Shape

/-- The type a shape describes, as it is shown in contracts. -/
def display : Shape → String
  | int64 => "i64"
  | nat32 => "u32"
  | nat64 => "u64"
  | size => "usize"
  | double => "f64"
  | bool => "bool"
  | string => "String"
  | list item => "Vec<" ++ item.display ++ ">"
  | optional value => "Option<" ++ value.display ++ ">"
  | map value => "BTreeMap<String, " ++ value.display ++ ">"
  | record name _ => name

/-- What a shape expects, as it is named in messages. -/
def expectation : Shape → String
  | int64 => "i64"
  | nat32 => "u32"
  | nat64 => "u64"
  | size => "usize"
  | double => "f64"
  | bool => "a boolean"
  | string => "a string"
  | list _ => "a sequence"
  | optional value => value.expectation
  | map _ => "a map"
  | record name _ => "struct " ++ name

/-- A value as it is named in messages. -/
def found : Json → String
  | .null => "null"
  | .bool b => "boolean \x60" ++ (if b then "true" else "false") ++ "\x60"
  | .number (.int i) => "integer \x60" ++ toString i ++ "\x60"
  | .number (.float x) => "floating point \x60" ++ x.text ++ "\x60"
  | .string s => "string " ++ quoted s
  | .array _ => "sequence"
  | .object _ => "map"

/-- The message for a value of another type. -/
def wrongType (shape : Shape) (v : Json) : String :=
  "invalid type: " ++ found v ++ ", expected " ++ shape.expectation

/-- The message for a value of the right type that is out of range. -/
def wrongValue (shape : Shape) (v : Json) : String :=
  "invalid value: " ++ found v ++ ", expected " ++ shape.expectation

/-- Read an integer with the given bounds, the lower included. -/
def readInteger (shape : Shape) (low high : Int) (v : Json) : Except String Json :=
  match v with
  | .number (.int i) => if low ≤ i && i < high then .ok v else .error (wrongValue shape v)
  | _ => .error (wrongType shape v)

/-- The message for an array with the wrong number of fields of a record. -/
def wrongLength (length : Nat) (expected : String) : String :=
  "invalid length " ++ toString length ++ ", expected " ++ expected

/-- What an array must hold to be a record. -/
def elementsExpectation (name : String) (count : Nat) : String :=
  "struct " ++ name ++ " with " ++ toString count ++
    (if count == 1 then " element" else " elements")

/-- The fields of a record from those that an object gives: the first given field that can not be
read is reported before a missing one. Other fields of the object are ignored. -/
def complete (fields : List (String × Shape × Option Json)) (given : List (String × Json))
    (results : List (String × Except String Json)) : Except String (List (String × Json)) := do
  let _ ← given.mapM fun (name, v) => (results.lookup name).getD (.ok v)
  fields.mapM fun (field, _, default) =>
    match results.lookup field, default with
    | some result, _ => return (field, ← result)
    | none, some v => return (field, v)
    | none, none => .error ("missing field \x60" ++ field ++ "\x60")

mutual

/-- Read a value into a shape. -/
def read : Shape → Json → Except String Json
  | int64, v => readInteger int64 (-0x8000000000000000) 0x8000000000000000 v
  | nat32, v => readInteger nat32 0 0x100000000 v
  | nat64, v => readInteger nat64 0 0x10000000000000000 v
  | size, v => readInteger size 0 0x10000000000000000 v
  | double, v =>
    match v with
    | .number n => match n.toDouble? with
      | some x => .ok (.number (.float x))
      | none => .error (wrongValue double v)
    | _ => .error (wrongType double v)
  | bool, v =>
    match v with
    | .bool _ => .ok v
    | _ => .error (wrongType bool v)
  | string, v =>
    match v with
    | .string _ => .ok v
    | _ => .error (wrongType string v)
  | list item, v =>
    match v with
    | .array items => return .array (← items.mapM fun v => item.read v)
    | _ => .error (wrongType (list item) v)
  | optional value, v =>
    match v with
    | .null => .ok .null
    | _ => value.read v
  | map value, v =>
    match v with
    | .object fields => do
      let entries ← fields.mapM fun (name, v) => return (name, ← value.read v)
      return .object (Catalog.ofList entries).entries
    | _ => .error (wrongType (map value) v)
  | record name fields, v =>
    match v with
    | .object given => return .object (← complete fields given (readGiven fields given))
    | .array items => do
      let result ← readItems name fields.length items.length fields items
      return .object result
    | _ => .error (wrongType (record name fields) v)

/-- Read those fields of a record that an object gives. -/
def readGiven : List (String × Shape × Option Json) → List (String × Json) →
    List (String × Except String Json)
  | [], _ => []
  | (field, shape, _) :: rest, given =>
    match given.lookup field with
    | some v => (field, shape.read v) :: readGiven rest given
    | none => readGiven rest given

/-- Read the fields of a record from the items of an array, in order; `count` is the number of
all fields and `length` that of all items. -/
def readItems (name : String) (count length : Nat) :
    List (String × Shape × Option Json) → List Json → Except String (List (String × Json))
  | [], [] => .ok []
  | [], _ :: _ => .error (wrongLength length "fewer elements in array")
  | (field, _, default) :: rest, [] => do
    let value ← match default with
      | some v => .ok v
      | none => .error (wrongLength length (elementsExpectation name count))
    return (field, value) :: (← readItems name count length rest [])
  | (field, shape, _) :: rest, v :: items => do
    let value ← shape.read v
    return (field, value) :: (← readItems name count length rest items)

end

end Shape

end Storyline
