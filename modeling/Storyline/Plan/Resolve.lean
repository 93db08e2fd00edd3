import Storyline.Plan.Basic

/-!
# Resolving stories

The names a story collects are looked up on an object: each is a step, a story that is resolved
on the same or another object, or a plan that was made before. Resolving a story gives the tree
of all that is found, story in story.

Objects may refer to each other, and a story may be found inside itself. Such a story is not
resolved again: a story on an object is *open* while its entries are looked up, and an open one
found among them is a fault. As there are only finitely many stories to be found, the tree is
finite. A tree goes no further than the first fault on each level.
-/

set_option autoImplicit false

namespace Storyline

/-- What a name on an object stands for. -/
inductive Member (β : Type) where
  /-- A step of the object. -/
  | step (s : Step β)
  /-- A story that is resolved on an object, or the error raised when it was declared. -/
  | story (definition : Except StoryError Story) (owner : OwnerId)
  /-- A plan that was made before. -/
  | mounted (plan : Plan β)

/-- An object that stories are mounted on. -/
structure Owner (β : Type) where
  className : String
  members : Named (Member β)

/-- All objects, each with its id. -/
abbrev Cast (β : Type) := Named (Owner β)

/-- What an entry of a story turned out to be. -/
inductive Entry (β : Type) where
  | step (s : Step β)
  /-- The steps of a group, up to the first name that is not one. -/
  | parallel (steps : List (Step β)) (fault : Option DefinitionError)
  /-- A substory under the name it is collected by. -/
  | story (name : String) (definition : Story) (owner : OwnerId) (entries : List (Entry β))
  | mounted (name : String) (plan : Plan β)
  | fault (cause : StoryError)

mutual

/-- Whether a fault was found in an entry. -/
def Entry.isFaulty {β : Type} : Entry β → Bool
  | .step _ => false
  | .parallel _ problem => problem.isSome
  | .story _ _ _ entries => Entry.anyFaulty entries
  | .mounted _ _ => false
  | .fault _ => true

/-- Whether a fault was found in any of some entries. -/
def Entry.anyFaulty {β : Type} : List (Entry β) → Bool
  | [] => false
  | entry :: rest => entry.isFaulty || Entry.anyFaulty rest

end

namespace Cast

variable {β : Type}

/-- What a name stands for on an object. -/
def member? (cast : Cast β) (owner : OwnerId) (name : String) : Option (Member β) := do
  (← cast.find? owner).members.find? name

/-- The class of an object. -/
def className (cast : Cast β) (owner : OwnerId) : String :=
  ((cast.find? owner).map Owner.className).getD ""

/-- A story on an object, by the name the story shows. -/
abbrev Frame := OwnerId × String

/-- The frame of a story on an object. -/
def frame (story : Story) (owner : OwnerId) : Frame := (owner, story.qualified)

/-- The frame of the story a member stands for, if it stands for one. -/
def memberFrame? : Member β → Option Frame
  | .story (.ok story) owner => some (frame story owner)
  | _ => none

/-- The frames of all stories that can be found on the objects. -/
def frames (cast : Cast β) : List Frame :=
  (cast.entries.map fun (_, owner) =>
    owner.members.entries.filterMap fun (_, member) => memberFrame? member).flatten

/-- The steps of a group, up to the first name that is not a step of the object. -/
def resolveGroup (cast : Cast β) (story : Story) (owner : OwnerId) :
    List String → List (Step β) × Option DefinitionError
  | [] => ([], none)
  | name :: rest =>
    match cast.member? owner name with
    | some (.step s) =>
      let (steps, fault) := resolveGroup cast story owner rest
      ({ s with owner := cast.className owner } :: steps, fault)
    | some _ => ([], some (.parallelSubstory story.qualified name))
    | none => ([], some (.unknownStep story.qualified name))

/-- What an entry of a story is. `descend` gives the entries of a substory unless it is open. -/
def resolveEntry (cast : Cast β) (story : Story) (owner : OwnerId)
    (descend : Story → OwnerId → Option (List (Entry β))) : Collected → Entry β
  | .step name =>
    match cast.member? owner name with
    | none => .fault (.definition (.unknownStep story.qualified name))
    | some (.step s) => .step { s with owner := cast.className owner }
    | some (.mounted plan) => .mounted name plan
    | some (.story (.error cause) _) => .fault cause
    | some (.story (.ok child) childOwner) =>
      match descend child childOwner with
      | some entries => .story name child childOwner entries
      | none => .fault (.definition (.recursiveStory story.qualified name))
  | .parallel names =>
    let (steps, fault) := cast.resolveGroup story owner names
    .parallel steps fault

/-- The entries of a story, up to the first with a fault. -/
def resolveAll (resolve : Collected → Entry β) : List Collected → List (Entry β)
  | [] => []
  | collected :: rest =>
    let entry := resolve collected
    if entry.isFaulty then [entry] else entry :: resolveAll resolve rest

/-- The entries of a story on an object, unless it is open or lies deeper than `fuel`. -/
def resolveWithin (cast : Cast β) :
    (fuel : Nat) → (opened : List Frame) → Story → OwnerId → Option (List (Entry β))
  | 0, _, _, _ => none
  | fuel + 1, opened, story, owner =>
    if opened.contains (frame story owner) then none
    else
      let descend := resolveWithin cast fuel (frame story owner :: opened)
      some (resolveAll (cast.resolveEntry story owner descend) story.collected)

/-- The entries of a story on an object. A chain of open stories is never longer than the number
of stories that can be found and the outermost one, so the bound on the depth is never met by a
story that is not open. -/
def resolve (cast : Cast β) (story : Story) (owner : OwnerId) : List (Entry β) :=
  (cast.resolveWithin (cast.frames.length + 1) [] story owner).getD []

end Cast

end Storyline
