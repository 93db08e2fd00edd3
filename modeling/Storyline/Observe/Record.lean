import Storyline.Observe.Hook
import Storyline.Schema.Shape

/-!
# Records of finished invocations

A recorder keeps a record of every invocation it sees come to an end: the story, and the context
as it was shown then. Records can be stored, with the id of the invocation and the time it
finished at.
-/

set_option autoImplicit false

namespace Storyline

/-- A finished invocation as a recorder keeps it. -/
structure Finished where
  story : String
  rendered : String
  deriving DecidableEq, Repr

/-- The record of what an observer is told, if it is told that an invocation ended. -/
def Finished.ofHook? : Hook → Option Finished
  | .finished story ctx => some ⟨story, ctx.display⟩
  | _ => none

/-! ## Ids -/

/-- The groups of digits of an id, by length. -/
def idGroups : List Nat := [8, 4, 4, 4, 12]

/-- The digits of an id whose groups are joined by hyphens. -/
def groupedDigits? : List Nat → List Char → Option (List Char)
  | [], [] => some []
  | [], _ :: _ => none
  | [size], text => if text.length = size then some text else none
  | size :: sizes, text =>
    match text.drop size with
    | '-' :: rest => (groupedDigits? sizes rest).map (text.take size ++ ·)
    | _ => none

/-- What an id written as a resource name starts with, in letters of either case. -/
def idScheme : List Char := ['u', 'r', 'n', ':', 'u', 'u', 'i', 'd', ':']

/-- The digits of an id: bare, with hyphens, and with hyphens in braces or after the scheme. -/
def idDigits? (text : List Char) : Option (List Char) :=
  match text.length, text with
  | 32, text => some text
  | 36, text => groupedDigits? idGroups text
  | 38, '\x7b' :: rest =>
    if rest.getLast? = some '\x7d' then groupedDigits? idGroups rest.dropLast else none
  | 45, text =>
    if (text.take idScheme.length).map Char.toLower = idScheme then
      groupedDigits? idGroups (text.drop idScheme.length)
    else none
  | _, _ => none

/-- Whether a character is a hexadecimal digit. -/
def isHexDigit (c : Char) : Bool :=
  c.isDigit || ('a' ≤ c && c ≤ 'f') || ('A' ≤ c && c ≤ 'F')

/-- Digits split into groups, joined by hyphens. -/
def hyphenated : List Nat → List Char → List Char
  | [], rest => rest
  | [size], digits => digits.take size
  | size :: sizes, digits => digits.take size ++ '-' :: hyphenated sizes (digits.drop size)

/-- The canonical form of an id: lower-case digits with hyphens. -/
def canonicalId? (text : String) : Option String := do
  let digits ← idDigits? text.toList
  if digits.all isHexDigit then
    some (String.ofList (hyphenated idGroups (digits.map Char.toLower)))
  else none

/-! ## Stored records -/

/-- A stored record of a finished invocation. -/
structure Record where
  id : String
  story : String
  rendered : String
  finishedAt : Nat
  deriving DecidableEq, Repr

namespace Record

/-- The shape of a stored record. -/
def shape : Shape :=
  .record "Record"
    [("id", .string, none), ("story", .string, none), ("rendered", .string, none),
      ("finished_at", .nat64, none)]

/-- Read a stored record. -/
def ofJson? (v : Json) : Option Record := do
  let v ← (shape.read v).toOption
  let .string id ← v.field? "id" | none
  let .string story ← v.field? "story" | none
  let .string rendered ← v.field? "rendered" | none
  let .number (.int finishedAt) ← v.field? "finished_at" | none
  return { id := ← canonicalId? id, story, rendered, finishedAt := finishedAt.toNat }

/-- The record as it is stored. -/
def toJson (r : Record) : Json :=
  .object [("id", .string r.id), ("story", .string r.story), ("rendered", .string r.rendered),
    ("finished_at", .nat r.finishedAt)]

end Record

end Storyline
