import Storyline.Story.Basic

/-!
# Declaring stories

A story is declared call by call, and nothing is checked until `Story.Builder.build`. Then the
first rule that is broken is the error: arguments are a non-empty list of distinct identifiers,
there is at least one entry, no group is empty, all steps are distinct and differ from the story
itself, and the schema declares every argument.
-/

set_option autoImplicit false

namespace Storyline.Story

/-- A story that is being declared. -/
structure Builder where
  name : StoryName
  /-- The arguments, if any were declared; they may be an empty list. -/
  arguments : Option (List String) := none
  collected : List Collected := []
  spec : Option Spec := none
  failures : Option Failures := none

namespace Builder

/-- Declare arguments, after those declared before. -/
def addArguments (b : Builder) (names : List String) : Builder :=
  { b with arguments := some (b.arguments.getD [] ++ names) }

/-- Declare one argument. -/
def addArgument (b : Builder) (name : String) : Builder := b.addArguments [name]

/-- Collect steps in order. -/
def addSteps (b : Builder) (names : List String) : Builder :=
  { b with collected := b.collected ++ names.map .step }

/-- Collect one step. -/
def addStep (b : Builder) (name : String) : Builder := b.addSteps [name]

/-- Collect a group of steps that run together. -/
def addParallel (b : Builder) (names : List String) : Builder :=
  { b with collected := b.collected ++ [.parallel names] }

/-- Attach a schema; the last one counts. -/
def setContract (b : Builder) (spec : Spec) : Builder := { b with spec := some spec }

/-- Attach a failure vocabulary; the last one counts. -/
def setFailures (b : Builder) (failures : Failures) : Builder :=
  { b with failures := some failures }

/-! ## Checks -/

/-- Check some arguments after those in `seen`. -/
def checkArguments (story : String) (seen : List String) :
    List String → Except DefinitionError Unit
  | [] => .ok ()
  | argument :: rest =>
    if !isIdentifier argument then .error (.invalidArgument story argument)
    else if seen.contains argument then .error (.duplicateArgument story argument)
    else checkArguments story (argument :: seen) rest

/-- Check some steps after those in `seen`, which grows by them. -/
def checkSteps (name : StoryName) (seen : List String) :
    List String → Except DefinitionError (List String)
  | [] => .ok seen
  | step :: rest =>
    if step = name.name then .error (.recursiveStory name.qualified step)
    else if seen.contains step then .error (.duplicateStep name.qualified step)
    else checkSteps name (step :: seen) rest

/-- Check some entries after the steps in `seen`. -/
def checkCollected (name : StoryName) (seen : List String) :
    List Collected → Except DefinitionError Unit
  | [] => .ok ()
  | .parallel [] :: _ => .error (.emptyParallel name.qualified)
  | entry :: rest => do
    let seen ← checkSteps name seen entry.names
    checkCollected name seen rest

/-- Check the declaration, its schema excepted. -/
def check (b : Builder) : Except DefinitionError Unit := do
  let story := b.name.qualified
  match b.arguments with
  | none => pure ()
  | some [] => .error (.emptyArguments story)
  | some arguments => checkArguments story [] arguments
  match b.collected with
  | [] => .error (.emptyStory story)
  | collected => checkCollected b.name [] collected

/-- The declared story, or the first rule that it breaks. -/
def build (b : Builder) : Except StoryError Story :=
  match b.check with
  | .error cause => .error (.definition cause)
  | .ok () =>
    let story : Story :=
      { name := b.name, arguments := b.arguments.getD [], collected := b.collected,
        spec := b.spec, failures := b.failures }
    match story.contract with
    | .error cause => .error (.contract cause)
    | .ok _ => .ok story

end Builder

/-- Start declaring a story. -/
def define (className name : String) : Builder := { name := ⟨className, name⟩ }

end Storyline.Story
