import Storyline.Story.Basic

/-!
# Plans

A plan is a story resolved against the object it is mounted on: a flat list of instructions with
all substories in their places, and the contracts of all these stories. Every story, the outermost
included, stands between an `enter` and a `leave`:

    enter "Parent.y" 0
      step start
      enter "x (Simple.x)" 1
        step one
        step two
      leave
      step after
    leave

The bodies of steps are of any type `β`; what running a body means is left to whoever runs the
plan.
-/

set_option autoImplicit false

namespace Storyline

/-- A step on the object it was found on. -/
structure Step (β : Type) where
  name : String
  /-- The class of the object. -/
  owner : String
  mode : Mode
  body : β

/-- The name of a step as it is shown. -/
def Step.qualified {β : Type} (s : Step β) : String := s.owner ++ "." ++ s.name

/-- The developer's view of a step. -/
def Step.inspect {β : Type} (s : Step β) : String :=
  Inspect.record "Step"
    [("name", quoted s.name), ("owner", quoted s.owner), ("mode", s.mode.inspect)]

/-- An instruction of a plan. Contracts are given by their place in the list of contracts. -/
inductive Instruction (β : Type) where
  /-- A story starts. -/
  | enter (label : String) (contract : Nat)
  /-- A step of the innermost open story. -/
  | step (s : Step β) (contract : Nat) (protocol : StepProtocol)
  /-- A group of steps of the innermost open story. -/
  | parallel (steps : List (Step β)) (contract : Nat) (protocol : StepProtocol)
  /-- The innermost open story ends. -/
  | leave

namespace Instruction

variable {β : Type}

/-- The instruction with its contract some places further on. -/
def shift (offset : Nat) : Instruction β → Instruction β
  | enter label contract => enter label (contract + offset)
  | step s contract protocol => step s (contract + offset) protocol
  | parallel steps contract protocol => parallel steps (contract + offset) protocol
  | leave => leave

/-- The instruction within a composition that has a failure vocabulary. -/
def disableNull : Instruction β → Instruction β
  | step s contract protocol => step s contract protocol.disableNull
  | parallel steps contract protocol => parallel steps contract protocol.disableNull
  | other => other

/-- The name of a group of steps in descriptions and histories. -/
def groupName (steps : List (Step β)) : String := Collected.displayGroup (steps.map Step.name)

/-- The developer's view of an instruction. -/
def inspect : Instruction β → String
  | enter label contract =>
    Inspect.record "Begin" [("label", quoted label), ("contract", toString contract)]
  | step s contract protocol =>
    Inspect.record "Step"
      [("step", s.inspect), ("contract", toString contract), ("protocol", protocol.inspect)]
  | parallel steps contract protocol =>
    Inspect.record "Parallel"
      [("steps", Inspect.list (steps.map Step.inspect)), ("contract", toString contract),
        ("protocol", protocol.inspect)]
  | leave => "End"

end Instruction

/-- Names one object among those that stories are mounted on. -/
abbrev OwnerId := String

/-- A story resolved against an object. -/
structure Plan (β : Type) where
  name : StoryName
  owner : OwnerId
  instructions : List (Instruction β)
  /-- The contract of the outermost story. -/
  root : Contract
  /-- The contracts of the substories, in the order in which they start. -/
  inner : List Contract
  failures : Option Failures
  mode : Mode

namespace Plan

variable {β : Type}

/-- The name as it is shown. -/
def qualified (p : Plan β) : String := p.name.qualified

/-- All contracts, in the order in which their stories start. -/
def contracts (p : Plan β) : List Contract := p.root :: p.inner

/-- The lines of a description, from a depth on. -/
def describeLines : Nat → List (Instruction β) → List String
  | _, [] => []
  | depth, .enter label _ :: rest =>
    (indentation depth ++ label) :: describeLines (depth + 1) rest
  | depth, .leave :: rest => describeLines (depth - 1) rest
  | depth, .step s _ _ :: rest => (indentation depth ++ s.name) :: describeLines depth rest
  | depth, .parallel steps _ _ :: rest =>
    (indentation depth ++ Instruction.groupName steps) :: describeLines depth rest

/-- All steps with their substories in place, a name on each line. -/
def describe (p : Plan β) : String := "\n".intercalate (describeLines 0 p.instructions)

end Plan

end Storyline
