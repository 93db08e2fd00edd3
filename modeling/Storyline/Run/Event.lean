import Storyline.Story.Error

/-!
# Events of an invocation

Whatever happens in an invocation is recorded as an event, in order. Observers and traces are
made from these events alone.
-/

set_option autoImplicit false

namespace Storyline

/-- Names an observer. -/
abbrev ObserverId := String

/-- Something that happened in an invocation. Stories and steps are given by their qualified
names. -/
inductive Event where
  /-- The arguments were accepted and are in the context. -/
  | started (story : String) (ctx : Context)
  /-- A story or substory was entered; the outermost one has depth one. -/
  | entered (label : String) (depth : Nat)
  /-- The innermost story was left at its end. -/
  | left (depth : Nat)
  /-- A step is about to run. -/
  | invoked (step : String) (ctx : Context)
  /-- The body of a step called another story, which is observed by its own observers. -/
  | called (observers : List ObserverId) (events : List Event)
  /-- A step answered with an outcome. -/
  | answered (step : String) (outcome : Outcome)
  /-- An error ends the invocation. -/
  | erred (error : StoryError)
  /-- A step reported a failure that its protocol allows. -/
  | failed (step : String) (reason : Option Reason)
  /-- The invocation has ended, in whatever way. -/
  | finished (story : String) (ctx : Context)

/-- What running the body of a step came to, and the events of the stories it called. -/
structure Reply where
  events : List Event := []
  result : Except StepError Outcome

end Storyline
