import Storyline.Run.Basic

/-!
# Summaries

A story is called for its value, or run for a summary. In a summary a failure is an answer like
any other: it can be asked where and why the story failed.
-/

set_option autoImplicit false

namespace Storyline

/-- What came of running a story. -/
inductive Verdict where
  | success (value : Json)
  | failure (step : String) (reason : Option Reason)

/-- The result of running a story: what came of it, the context at its end, and what questions
about reasons are held against. -/
structure Summary where
  protocol : RunProtocol
  ctx : Context
  verdict : Verdict

namespace Summary

/-- Whether the story came to its end without failure. -/
def isSuccess (s : Summary) : Bool :=
  match s.verdict with
  | .success _ => true
  | .failure _ _ => false

/-- Whether a step failed. -/
def isFailure (s : Summary) : Bool := !s.isSuccess

/-- The value of the story; a failed one has none. -/
def value (s : Summary) : Except StoryError Json :=
  match s.verdict with
  | .success value => .ok value
  | .failure step _ => .error (.summary step)

/-- The reason of the failure, if there is one. -/
def reason (s : Summary) : Option Reason :=
  match s.verdict with
  | .success _ => none
  | .failure _ reason => reason

/-- Whether the story failed on a step of this name. -/
def failedOn (s : Summary) (name : String) : Bool :=
  match s.verdict with
  | .success _ => false
  | .failure step _ => step == name

/-- Whether the story failed for a reason, which has to belong to the vocabulary of the
composition. -/
def failedBecause (s : Summary) (reason : Reason) : Except ProtocolError Bool :=
  match s.protocol.checkArgument reason with
  | .error cause => .error cause
  | .ok () => .ok (s.protocol.compare reason s.reason)

/-- The summary as it is shown. -/
def display (s : Summary) : String := if s.isSuccess then "Success()" else "Failure()"

end Summary

namespace Ending

/-- The value of a story that ended this way; without a result it is null. -/
def value : Ending → Except StoryError Json
  | failure step reason => .error (.failure step reason)
  | result value => .ok value
  | finished => .ok .null

/-- What came of a story that ended this way. -/
def verdict : Ending → Verdict
  | failure step reason => .failure step reason
  | result value => .success value
  | finished => .success .null

end Ending

end Storyline
