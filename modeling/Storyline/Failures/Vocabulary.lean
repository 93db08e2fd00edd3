import Storyline.Failures.Reason

/-!
# Failure vocabularies

A story may declare the closed set of reasons its steps fail with: a flat list of tokens, or an
enumeration of members with values. `Failures.contains` says which reasons belong to a
vocabulary, `Failures.compare` when two reasons count as one.
-/

set_option autoImplicit false

namespace Storyline

/-- A named, closed set of members with their values, in declaration order. -/
structure Enumeration where
  name : String
  members : Named Int64
  deriving DecidableEq

namespace Enumeration

/-- The members that a list of names declares: each new name takes the next value, from one. -/
def declare : Named Int64 → List String → Named Int64
  | declared, [] => declared
  | declared, name :: rest =>
    if declared.contains name then declare declared rest
    else declare (declared.insert name (Int64.ofNat (declared.size + 1))) rest

/-- The enumeration of some names, numbered from one in declaration order. -/
def ofNames (name : String) (members : List String) : Enumeration :=
  ⟨name, declare .empty members⟩

/-- The reason a member's name stands for. -/
def find? (e : Enumeration) (name : String) : Option Reason :=
  (e.members.find? name).map (.member e.name name)

/-- Whether a reason is a member by name. -/
def contains (e : Enumeration) : Reason → Bool
  | .token _ => false
  | .member _ name _ => e.members.contains name

/-- The members as they are shown in messages. -/
def display (e : Enumeration) : String :=
  ", ".intercalate (e.members.entries.map fun (name, value) =>
    Reason.displayMember e.name name value)

/-- Equality of enumerations; the order of members makes no difference. -/
def same (a b : Enumeration) : Bool :=
  a.name == b.name && a.members.size == b.members.size &&
    a.members.entries.all fun (name, value) => b.members.find? name == some value

end Enumeration

/-- The vocabulary of reasons a story may fail with. -/
inductive Failures where
  | tokens (list : List String)
  | enumeration (e : Enumeration)
  deriving DecidableEq

namespace Failures

/-- Append the tokens of a list that are not there yet. -/
def addTokens (list : List String) : List String → List String
  | [] => list
  | token :: rest => addTokens (if list.contains token then list else list ++ [token]) rest

/-- The vocabulary of some tokens; a repeated token is kept once. -/
def ofTokens (list : List String) : Failures := .tokens (addTokens [] list)

/-- The vocabulary of the members with the given names. -/
def ofMembers (name : String) (members : List String) : Failures :=
  .enumeration (.ofNames name members)

/-- Whether a reason belongs to the vocabulary. -/
def contains : Failures → Reason → Bool
  | tokens list, .token text => list.contains text
  | tokens _, .member .. => false
  | enumeration e, reason => e.contains reason

/-- Whether two reasons count as one in the vocabulary: tokens with the same text in a list of
tokens, reasons with the same name in an enumeration. -/
def compare : Failures → Reason → Reason → Bool
  | tokens _, .token a, .token b => a == b
  | tokens _, _, _ => false
  | enumeration _, a, b => a.name == b.name

/-- The vocabulary as it is shown in messages. -/
def display : Failures → String
  | tokens list => quotedNames list
  | enumeration e => e.display

/-- Equality of vocabularies: tokens in order, members in any order. -/
def same : Failures → Failures → Bool
  | tokens a, tokens b => a == b
  | enumeration a, enumeration b => a.same b
  | _, _ => false

/-- The vocabulary as a JSON value. -/
def toJson : Failures → Json
  | tokens list => .object [("Tokens", .array (list.map .string))]
  | enumeration e =>
    .object [("Enumeration", .object [("name", .string e.name),
      ("members", .object (e.members.entries.map fun (name, value) =>
        (name, .int value.toInt)))])]

/-- The tokens that a JSON value lists. -/
def tokens? : Json → Option (List String)
  | .array items => items.mapM fun
    | .string token => some token
    | _ => none
  | _ => none

/-- The members that a JSON value lists. -/
def members? : Json → Option (Named Int64)
  | .object fields => do
    let values ← fields.mapM fun (name, v) => do
      some (name, Int64.ofInt (← v.toInt64?))
    some (.ofList values)
  | _ => none

/-- The vocabulary a JSON value stands for, taken as it is given. -/
def ofJson? : Json → Option Failures
  | .object [("Tokens", v)] => (tokens? v).map .tokens
  | .object [("Enumeration", .array [.string name, members])] =>
    (members? members).map fun m => .enumeration ⟨name, m⟩
  | .object [("Enumeration", v)] => do
    let .string name ← v.field? "name" | none
    some (.enumeration ⟨name, ← members? (← v.field? "members")⟩)
  | _ => none

/-- The developer's view of a vocabulary. -/
def inspect : Failures → String
  | tokens list => Inspect.wrapped "Tokens" [Inspect.list (list.map quoted)]
  | enumeration e =>
    let members := e.members.entries.map fun (name, value) => (name, toString value.toInt)
    Inspect.wrapped "Enumeration"
      [Inspect.record "Enumeration"
        [("name", quoted e.name), ("members", Inspect.table members)]]

end Failures

/-! ## Composition -/

/-- A member that a story and a substory declare with different values; the story's is kept. -/
structure MemberConflict where
  story : String
  substory : String
  member : String
  kept : Int64
  dropped : Int64
  deriving DecidableEq

namespace Failures

/-- The value after the largest, or one. -/
def nextValue (values : List Int64) : Int64 :=
  (values.max?.getD 0) + 1

/-- Append the members that are not there yet, numbered on from `next`. -/
def addMembers : Named Int64 → Int64 → List (String × Int64) → Named Int64
  | members, _, [] => members
  | members, next, (name, _) :: rest =>
    if members.contains name then addMembers members next rest
    else addMembers (members.insert name next) (next + 1) rest

/-- The join of the vocabularies of a story and a substory, if they are of one sort. None joins
with everything; tokens unite by text and members by name, the story's first. -/
def join? : Option Failures → Option Failures → Option (Option Failures)
  | none, other => some other
  | ours, none => some ours
  | some (tokens ours), some (tokens theirs) => some (some (tokens (addTokens ours theirs)))
  | some (enumeration ours), some (enumeration theirs) =>
    let next := nextValue (ours.members.entries.map Prod.snd)
    some (some (enumeration
      { ours with members := addMembers ours.members next theirs.members.entries }))
  | some _, some _ => none

/-- The members that both sides declare with different values, in the substory's order. Members
added in between count as the story's. -/
def conflicts (story : String) (ours : Option Failures) (substory : String)
    (theirs : Option Failures) : List MemberConflict :=
  match ours, theirs with
  | some (enumeration ours), some (enumeration theirs) =>
    theirs.members.entries.filterMap fun (name, dropped) =>
      match ours.members.find? name with
      | some kept => if kept == dropped then none else some ⟨story, substory, name, kept, dropped⟩
      | none => none
  | _, _ => []

end Failures

end Storyline
