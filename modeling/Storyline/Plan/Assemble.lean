import Storyline.Plan.Resolve

/-!
# Assembling plans

A plan is put together entry by entry. A substory is assembled into a plan of its own first and
then put into the plan of the story around it: its instructions move into place with their
contracts renumbered, and the contracts and failure vocabularies of the two are combined. When
all entries are in place, the arguments are shared among all contracts, and if the composition
has a vocabulary, the steps of stories without one may not fail any more.
-/

set_option autoImplicit false

namespace Storyline

/-- A plan in the making. -/
structure Draft (β : Type) where
  story : Story
  owner : OwnerId
  instructions : List (Instruction β)
  root : Contract
  inner : List Contract
  failures : Option Failures
  /-- The mode of the first step or substory, once there is one. -/
  mode : Option Mode

namespace Draft

variable {β : Type}

/-- The draft of a story before its first entry. -/
def start (story : Story) (owner : OwnerId) : Except StoryError (Draft β) :=
  match story.contract with
  | .error cause => .error (.contract cause)
  | .ok root => .ok
    { story, owner, instructions := [.enter story.qualified 0], root, inner := [],
      failures := story.failures, mode := none }

/-- What failing steps of the story itself are held against. -/
def protocol (d : Draft β) : StepProtocol := .ofFailures d.story.failures

/-- Whether a mode goes with that of the entries so far. -/
def admitsMode (d : Draft β) (mode : Mode) : Bool :=
  match d.mode with
  | none => true
  | some expected => expected == mode

/-- Check that a step has the mode of the entries so far. -/
def checkStep (d : Draft β) (s : Step β) : Except StoryError (Draft β) :=
  match d.mode with
  | none => .ok { d with mode := some s.mode }
  | some expected =>
    if expected = s.mode then .ok d
    else .error (.definition (.mixedSteps d.story.qualified s.qualified expected))

/-- Add a step. -/
def addStep (d : Draft β) (s : Step β) : Except StoryError (Draft β) := do
  let d ← d.checkStep s
  return { d with instructions := d.instructions ++ [.step s 0 d.protocol] }

/-- Add a group, unless a name of it is not a step. -/
def addGroup (d : Draft β) (steps : List (Step β)) (fault : Option DefinitionError) :
    Except StoryError (Draft β) := do
  let d ← steps.foldlM checkStep d
  match fault with
  | some cause => .error (.definition cause)
  | none => return { d with instructions := d.instructions ++ [.parallel steps 0 d.protocol] }

/-! ## Substories -/

/-- The label of a substory: its name, and the story it is if it lies on another object. -/
def label (d : Draft β) (name : String) (child : Plan β) : String :=
  if child.owner = d.owner then name else name ++ " (" ++ child.qualified ++ ")"

/-- The instructions of a substory in their place, under a label. -/
def placed (label : String) (offset : Nat) : List (Instruction β) → List (Instruction β)
  | .enter _ contract :: rest =>
    .enter label (contract + offset) :: rest.map (Instruction.shift offset)
  | _ :: rest => rest.map (Instruction.shift offset)
  | [] => []

/-- Add a substory that is a plan already. -/
def addPlan (d : Draft β) (name : String) (child : Plan β) : Except StoryError (Draft β) := do
  if !d.admitsMode child.mode then
    .error (.definition (.mixedComposition d.story.qualified (d.mode.getD child.mode)
      child.qualified child.mode))
  let (root, childRoot) ← (d.root.combine child.root).mapError .contract
  let failures ←
    (Failures.combine d.story.qualified d.failures child.qualified child.failures).mapError
      .protocol
  let offset := 1 + d.inner.length
  return {
    d with
    mode := some child.mode
    root := root
    failures := failures
    instructions := d.instructions ++ placed (d.label name child) offset child.instructions
    inner := d.inner ++ childRoot :: child.inner }

/-- The conflicts between members that adding a substory meets. -/
def planConflicts (d : Draft β) (child : Plan β) : List MemberConflict :=
  if d.admitsMode child.mode && (d.root.combine child.root).isOk then
    Failures.conflicts d.story.qualified d.failures child.qualified child.failures
  else []

/-- The plan, when all entries are in place. -/
def finish (d : Draft β) : Plan β :=
  let instructions := d.instructions ++ [.leave]
  let (root, inner) := match Contract.sync (d.root :: d.inner) with
    | root :: inner => (root, inner)
    | [] => (d.root, d.inner)
  { name := d.story.name
    owner := d.owner
    instructions :=
      if d.failures.isSome then instructions.map Instruction.disableNull else instructions
    root
    inner
    failures := d.failures
    mode := d.mode.getD .function }

/-! ## Trees -/

mutual

/-- Add what an entry is to a draft. -/
def add (d : Draft β) : Entry β → Except StoryError (Draft β)
  | .step s => d.addStep s
  | .parallel steps fault => d.addGroup steps fault
  | .story name definition owner entries => do
    let child ← start definition owner
    let child ← addAll child entries
    d.addPlan name child.finish
  | .mounted name plan => d.addPlan name plan
  | .fault cause => .error cause

/-- Add entries in order. -/
def addAll (d : Draft β) : List (Entry β) → Except StoryError (Draft β)
  | [] => .ok d
  | entry :: rest => do
    let d ← add d entry
    addAll d rest

end

mutual

/-- The conflicts between members met on the way of adding an entry. -/
def conflicts (d : Draft β) : Entry β → List MemberConflict
  | .story _ definition owner entries =>
    match start definition owner with
    | .error _ => []
    | .ok child =>
      conflictsAll child entries ++
        match addAll child entries with
        | .error _ => []
        | .ok child => d.planConflicts child.finish
  | .mounted _ plan => d.planConflicts plan
  | _ => []

/-- The conflicts between members met on the way of adding entries in order. -/
def conflictsAll (d : Draft β) : List (Entry β) → List MemberConflict
  | [] => []
  | entry :: rest =>
    conflicts d entry ++
      match add d entry with
      | .error _ => []
      | .ok d => conflictsAll d rest

end

end Draft

namespace Plan

variable {β : Type}

/-- The plan of a story with its resolved entries. -/
def assemble (story : Story) (owner : OwnerId) (entries : List (Entry β)) :
    Except StoryError (Plan β) := do
  let draft ← Draft.start story owner
  return (← draft.addAll entries).finish

/-- The plan of a story on an object. -/
def compile (cast : Cast β) (story : Story) (owner : OwnerId) : Except StoryError (Plan β) :=
  assemble story owner (cast.resolve story owner)

/-- The conflicts between members met on the way of making a plan, whether it is made or not. -/
def compileConflicts (cast : Cast β) (story : Story) (owner : OwnerId) : List MemberConflict :=
  match (Draft.start story owner : Except StoryError (Draft β)) with
  | .error _ => []
  | .ok draft => draft.conflictsAll (cast.resolve story owner)

end Plan

end Storyline
