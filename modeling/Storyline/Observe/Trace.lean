import Storyline.Plan.Basic
import Storyline.Run.Event

/-!
# Traces

A trace is a list of messages with fields, made from the events of invocations and from what is
met when stories are mounted.
-/

set_option autoImplicit false

namespace Storyline

/-- A message of a trace. -/
structure TraceMessage where
  message : String
  fields : List (String × Json)

namespace TraceMessage

mutual

/-- The messages of an event; an event that stands for an invocation has those of all its
events. -/
def ofEvent : Event → List TraceMessage
  | .started story ctx =>
    [⟨"story.start", [("story", .string story), ("arguments", .nat ctx.entries.length)]⟩]
  | .entered label depth =>
    [⟨"substory.start", [("substory", .string label), ("depth", .nat depth)]⟩]
  | .left depth => [⟨"substory.end", [("depth", .nat depth)]⟩]
  | .invoked step _ => [⟨"step.start", [("step", .string step)]⟩]
  | .called _ events => ofEvents events
  | .answered step outcome =>
    [⟨"step.end", [("step", .string step), ("outcome", .string outcome.display)]⟩]
  | .erred error =>
    [⟨"step.error", [("kind", .string error.kind), ("error", .string error.message)]⟩]
  | .failed _ _ => []
  | .finished story _ => [⟨"story.end", [("story", .string story)]⟩]

/-- The messages of some events. -/
def ofEvents : List Event → List TraceMessage
  | [] => []
  | event :: rest => ofEvent event ++ ofEvents rest

end

/-- The message of a member that a story and a substory declare with different values. -/
def ofConflict (c : MemberConflict) : TraceMessage :=
  ⟨"failures.member_conflict",
    [("story", .string c.story), ("substory", .string c.substory), ("member", .string c.member),
      ("kept", .int c.kept.toInt), ("dropped", .int c.dropped.toInt)]⟩

/-- The message of a plan that was made. -/
def ofPlan {β : Type} (p : Plan β) : TraceMessage :=
  ⟨"story.compile",
    [("story", .string p.qualified), ("instructions", .nat p.instructions.length),
      ("contracts", .nat p.contracts.length), ("mode", .string p.mode.display)]⟩

end TraceMessage

end Storyline
