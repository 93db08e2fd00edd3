import Storyline.Contract.Error

/-!
# Building and combining contracts

`Contract.build` makes the contract of a single story. Composition joins contracts: `combine`
the contract of a story with that of a substory, `sync` all contracts of a composition.
Arguments are joined source by source; a source counts as known when it has the same story.

Both contracts change when they are combined, so `combination` gives both beside the result, whether
they combine or not.
-/

set_option autoImplicit false

namespace Storyline.Contract

/-! ## A single story -/

/-- The contract without schema: every argument has one source without validator. -/
def plain (story : StoryName) (arguments : List String) : Contract where
  story := story
  arguments := arguments
  spec := none
  sources := .ofList (arguments.map fun name => (name, [⟨none, story⟩]))
  ownVariables := .empty
  declared := .empty

/-- The contract with a schema that declares all arguments: the fields that are arguments are
validated as such, the others are variables. -/
def ofSpec (story : StoryName) (arguments : List String) (spec : Spec) : Contract :=
  let (given, own) := spec.fields.entries.partition fun (name, _) => arguments.contains name
  { story := story
    arguments := arguments
    spec := some spec
    sources := .ofList (given.map fun (name, field) => (name, [⟨some field, story⟩]))
    ownVariables := .ofList own
    declared := .ofList (own.map fun (name, field) => (name, ⟨story, field.description⟩)) }

/-- The contract of a story. With a schema, every argument has to be one of its fields. -/
def build (story : StoryName) (arguments : List String) (spec : Option Spec) :
    Except ContractError Contract :=
  match spec with
  | none => .ok (plain story arguments)
  | some spec =>
    match arguments.filter fun name => !spec.fields.contains name with
    | [] => .ok (ofSpec story arguments spec)
    | undefined => .error (.undefinedArguments (sortNames undefined) story arguments)

/-! ## Joining sources -/

/-- Append the sources of stories that are not there yet. -/
def addSources (known : List Source) : List Source → List Source
  | [] => known
  | source :: rest =>
    let isKnown := known.any fun other => other.story == source.story
    addSources (if isKnown then known else known ++ [source]) rest

/-- Add to each argument the sources it has elsewhere. -/
def mergeSources (into : Catalog (List Source)) :
    List (String × List Source) → Catalog (List Source)
  | [] => into
  | (name, sources) :: rest =>
    mergeSources (into.insert name (addSources ((into.find? name).getD []) sources)) rest

/-- A contract that has also the sources of another. -/
def absorb (c other : Contract) : Contract :=
  { c with sources := mergeSources c.sources other.sources.entries }

/-- Two contracts, each with the sources of both. -/
def shareSources (parent child : Contract) : Contract × Contract :=
  let parent := parent.absorb child
  (parent, child.absorb parent)

/-! ## Composition -/

/-- How the schemas of two contracts relate. -/
inductive SchemaRelation where
  /-- Neither has a schema. -/
  | null
  /-- Both have the same schema. -/
  | shared
  /-- Both have schemas of one family. -/
  | family
  | incompatible
  deriving DecidableEq, Repr

/-- How the schemas of two contracts relate. -/
def schemaRelation (parent child : Contract) : SchemaRelation :=
  match parent.spec, child.spec with
  | none, none => .null
  | some a, some b =>
    if a.sameAs b then .shared else if a.family = b.family then .family else .incompatible
  | _, _ => .incompatible

/-- The variables that both contracts declare, each with the stories that declare it. -/
def repeatedVariables (parent child : Contract) : List (String × StoryName × StoryName) :=
  parent.declared.entries.filterMap fun (name, ours) =>
    (child.declared.find? name).map fun theirs => (name, ours.story, theirs.story)

/-- A contract that has also the variables of another, the other's in front. -/
def absorbVariables (c other : Contract) : Contract :=
  { c with
    declared := other.declared.entries.foldl (fun m (name, d) => m.insert name d) c.declared }

/-- Two contracts after one has been combined into the other, or has been refused. -/
structure Combination where
  parent : Contract
  child : Contract
  result : Except ContractError Unit

/-- Combine the contract of a substory into that of the story that uses it. Contracts without
schema combine with each other only, and contracts with one schema share their arguments.
Contracts of one family combine if no variable is declared by both. -/
def combination (parent child : Contract) : Combination :=
  match schemaRelation parent child with
  | .null | .shared =>
    let (parent, child) := shareSources parent child
    ⟨parent, child, .ok ()⟩
  | .family =>
    match repeatedVariables parent child with
    | [] =>
      let (parent, child) := shareSources parent child
      ⟨parent.absorbVariables child, child, .ok ()⟩
    | (name, story, substory) :: rest =>
      ⟨parent, child, .error (.repeatedVariables (name :: rest.map Prod.fst) story substory)⟩
  | .incompatible =>
    ⟨parent, child,
      .error (.incompatibleTypes parent.story parent.familyName child.story child.familyName)⟩

/-- Both contracts after they have been combined, for those who need them only if they combine. -/
def combine (parent child : Contract) : Except ContractError (Contract × Contract) :=
  let after := combination parent child
  after.result.map fun () => (after.parent, after.child)

/-- Share the arguments of all contracts of a composition, the first being that of the whole, so
that a value is validated by every story that declares it. Compositions without schema stay as
they are. -/
def sync : List Contract → List Contract
  | [] => []
  | root :: rest =>
    if root.isNull then root :: rest
    else
      let root := rest.foldl absorb root
      root :: rest.map (·.absorb root)

end Storyline.Contract
