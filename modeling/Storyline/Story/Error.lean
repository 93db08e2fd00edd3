import Storyline.Context.Basic
import Storyline.Contract.Error
import Storyline.Failures.Protocol
import Storyline.Outcome

/-!
# Errors of stories

Everything that can go wrong between declaring a story and reading its result: the story is
declared or composed wrongly (`DefinitionError`), a contract or failure protocol is violated, a
step raises an error of its own (`StepError`), or a business failure stands where a value was
asked for.
-/

set_option autoImplicit false

namespace Storyline

/-- How the steps of a story run: plain functions, or coroutines that may wait. -/
inductive Mode where
  | function
  | coroutine
  deriving DecidableEq, Repr

namespace Mode

/-- The mode as it is shown in messages. -/
def display : Mode → String
  | function => "function"
  | coroutine => "coroutine"

/-- The developer's view of a mode. -/
def inspect : Mode → String
  | function => "Function"
  | coroutine => "Coroutine"

end Mode

/-- A story that is declared or composed wrongly. Stories and steps are given by their qualified
names. -/
inductive DefinitionError where
  /-- The story has no steps. -/
  | emptyStory (story : String)
  /-- A parallel group has no steps. -/
  | emptyParallel (story : String)
  /-- A step is collected twice. -/
  | duplicateStep (story step : String)
  /-- A story is one of its own steps, directly or through other stories. -/
  | recursiveStory (story step : String)
  /-- Arguments are declared, but there are none. -/
  | emptyArguments (story : String)
  /-- An argument is not an identifier. -/
  | invalidArgument (story argument : String)
  /-- An argument is declared twice. -/
  | duplicateArgument (story argument : String)
  /-- A step is not a member of the owner. -/
  | unknownStep (story step : String)
  /-- A step is not of the mode of the steps before it. -/
  | mixedSteps (story step : String) (expected : Mode)
  /-- A substory is not of the mode of the story. -/
  | mixedComposition (story : String) (kind : Mode) (substory : String) (otherKind : Mode)
  /-- A member of a parallel group is not a step. -/
  | parallelSubstory (story step : String)
  /-- A step of a function story left it early with `Next`. -/
  | unexpectedOutcome (step : String) (outcome : Outcome)
  /-- A coroutine story is called without waiting for it. -/
  | coroutineStory (story : String)

namespace DefinitionError

/-- What the error says. -/
def message : DefinitionError → String
  | emptyStory story =>
    "Story should have at least one step defined\n\nStory method: " ++ story
  | emptyParallel story =>
    "Parallel group should have at least one step defined\n\nStory method: " ++ story
  | duplicateStep story step =>
    "Step is collected more than once: " ++ step ++ "\n\nStory method: " ++ story
  | recursiveStory story step =>
    "Story can not be used as its own step: " ++ step ++ "\n\nStory method: " ++ story
  | emptyArguments story =>
    "Story arguments can not be an empty list\n\nStory method: " ++ story
  | invalidArgument story argument =>
    "Story argument is not a valid name: " ++ quoted argument ++ "\n\nStory method: " ++ story
  | duplicateArgument story argument =>
    "Story argument is declared more than once: " ++ argument ++ "\n\nStory method: " ++ story
  | unknownStep story step =>
    "Step is not defined on the story owner: " ++ step ++ "\n\nStory method: " ++ story
  | mixedSteps story step expected =>
    "Coroutines and functions can not be used together in story definition.\n\n" ++
      "This method should be a " ++ expected.display ++ ": " ++ step ++
      "\n\nStory method: " ++ story
  | mixedComposition story kind substory otherKind =>
    "Coroutine and function stories can not be injected into each other.\n\n" ++
      "Story " ++ kind.display ++ " method: " ++ story ++
      "\n\nSubstory " ++ otherKind.display ++ " method: " ++ substory
  | parallelSubstory story step =>
    "Parallel group can only contain steps, not substories: " ++ step ++
      "\n\nStory method: " ++ story
  | unexpectedOutcome step outcome =>
    "Invalid outcome returned from " ++ step ++ ".\n\nGot \x60" ++ outcome.display ++
      "\x60. \x60Next\x60 can only be used in coroutine stories."
  | coroutineStory story =>
    "Coroutine story can not be called synchronously: " ++ story ++
      "\n\nUse \x60call_async\x60 or \x60run_async\x60."

end DefinitionError

/-- An error raised by the body of a step. It is known by the name of its type and by what it
says. -/
inductive StepError where
  /-- A plain message. -/
  | message (text : String)
  /-- An error of another type. -/
  | other (name text : String)
  deriving DecidableEq, Repr

namespace StepError

/-- The name of the error's type. -/
def name : StepError → String
  | message _ => "Message"
  | other name _ => name

/-- What the error says. -/
def text : StepError → String
  | message text => text
  | other _ text => text

/-- The error of a step that could not read the context. -/
def ofContextError (e : ContextError) : StepError := other "ContextError" e.message

/-- The developer's view of an error; only plain messages have one of their own. -/
def inspect? : StepError → Option String
  | message text =>
    some (Inspect.record "StepError"
      [("name", quoted "Message"), ("inner", Inspect.wrapped "Message" [quoted text])])
  | other _ _ => none

end StepError

/-- An error of declaring, mounting or running a story. -/
inductive StoryError where
  | definition (cause : DefinitionError)
  | contract (cause : ContractError)
  | protocol (cause : ProtocolError)
  /-- A story that was called for its value failed on a step. -/
  | failure (name : String) (reason : Option Reason)
  | step (cause : StepError)
  /-- The value of a summary was asked for, but the story failed on a step. -/
  | summary (name : String)

namespace StoryError

/-- What the error says. -/
def message : StoryError → String
  | definition cause => cause.message
  | contract cause => cause.message
  | protocol cause => cause.message
  | failure _ none => "FailureError()"
  | failure _ (some reason) => "FailureError(" ++ reason.display ++ ")"
  | step cause => cause.text
  | summary name => "Summary value is not available: the story failed on " ++ name

/-- The kind of the error as it is marked in the history. -/
def kind : StoryError → String
  | definition _ => "DefinitionError"
  | contract _ => "ContractError"
  | protocol _ => "FailureProtocolError"
  | failure _ _ => "FailureError"
  | step cause => cause.name
  | summary _ => "SummaryError"

end StoryError

end Storyline
