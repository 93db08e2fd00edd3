import Storyline.Failures.Vocabulary

/-!
# Failure protocols

A failure is checked twice. When a step fails, `StepProtocol.checkReturn` holds its reason
against the vocabulary of the story that declares the step. When the caller asks a summary why
the story failed, `RunProtocol.checkArgument` holds the question against the vocabulary of the
whole composition.
-/

set_option autoImplicit false

namespace Storyline

/-- A violation of a failure protocol. -/
inductive ProtocolError where
  /-- A reason in a story without vocabulary. -/
  | unexpectedReason (reason : Reason) (step : String)
  /-- No reason in a story with a vocabulary. -/
  | missingReason (available : Failures) (step : String)
  /-- No reason in a story without vocabulary, within a composition that has one. -/
  | disabledNull (step : String)
  /-- A reason outside the vocabulary of the story. -/
  | reasonNotAllowed (reason : Reason) (available : Failures) (step : String)
  /-- A summary of a composition without vocabulary was asked for a reason. -/
  | summaryWithoutProtocol (story : String)
  /-- A summary was asked for a reason outside the vocabulary of the composition. -/
  | summaryReasonMismatch (reason : Reason) (available : Failures) (story : String)
  /-- A story and a substory declare vocabularies of different sorts. -/
  | incompatibleTypes (story : String) (available : Failures) (substory : String)
      (otherAvailable : Failures)
  deriving DecidableEq

namespace ProtocolError

/-- What the error says. -/
def message : ProtocolError → String
  | unexpectedReason reason step =>
    "Failure(" ++ reason.display ++
      ") can not be used in a story without failure protocol.\n\n" ++
      "Function returned value: " ++ step ++
      "\n\nUse 'failures' story method to define failure protocol."
  | missingReason available step =>
    "Failure() can not be used in a story with failure protocol.\n\n" ++
      "Available failures are: " ++ available.display ++
      "\n\nFunction returned value: " ++ step ++
      "\n\nUse one of them as Failure() argument."
  | disabledNull step =>
    "Failure() can not be used in a story composition.\n\n" ++
      "Different types of failure protocol were used in parent and substory definitions.\n\n" ++
      "Function returned value: " ++ step ++
      "\n\nUse 'failures' story method to define failure protocol."
  | reasonNotAllowed reason available step =>
    "Failure(" ++ reason.display ++
      ") failure reason is not allowed by current protocol.\n\n" ++
      "Available failures are: " ++ available.display ++
      "\n\nFunction returned value: " ++ step
  | summaryWithoutProtocol story =>
    "'failed_because' method can not be used with story defined without failure protocol.\n\n" ++
      "Story returned result: " ++ story ++
      "\n\nUse 'failures' story method to define failure protocol."
  | summaryReasonMismatch reason available story =>
    "'failed_because' method got argument mismatching failure protocol: " ++ reason.display ++
      "\n\nAvailable failures are: " ++ available.display ++
      "\n\nStory returned result: " ++ story
  | incompatibleTypes story available substory otherAvailable =>
    "Story and substory failure protocols has incompatible types:\n\n" ++
      "Story method: " ++ story ++ "\n\nStory failure protocol: " ++ available.display ++
      "\n\nSubstory method: " ++ substory ++
      "\n\nSubstory failure protocol: " ++ otherAvailable.display

end ProtocolError

/-- Combine the vocabulary of a story with that of a substory. -/
def Failures.combine (story : String) (ours : Option Failures) (substory : String)
    (theirs : Option Failures) : Except ProtocolError (Option Failures) :=
  match ours, theirs with
  | none, other => .ok other
  | ours, none => .ok ours
  | some ours, some theirs =>
    match join? (some ours) (some theirs) with
    | some joined => .ok joined
    | none => .error (.incompatibleTypes story ours substory theirs)

/-! ## Steps -/

/-- What a failing step is held against. -/
inductive StepProtocol where
  /-- No vocabulary: steps fail without a reason. -/
  | null
  /-- No vocabulary in a composition that has one: steps do not fail. -/
  | disabledNull
  /-- A vocabulary: steps fail with one of its reasons. -/
  | declared (failures : Failures)
  deriving DecidableEq

namespace StepProtocol

/-- The protocol of a story's own vocabulary. -/
def ofFailures : Option Failures → StepProtocol
  | none => null
  | some failures => declared failures

/-- Check the reason a step failed with. -/
def checkReturn (step : String) : StepProtocol → Option Reason → Except ProtocolError Unit
  | null, none => .ok ()
  | null, some reason => .error (.unexpectedReason reason step)
  | disabledNull, some reason => .error (.unexpectedReason reason step)
  | disabledNull, none => .error (.disabledNull step)
  | declared failures, none => .error (.missingReason failures step)
  | declared failures, some reason =>
    if failures.contains reason then .ok ()
    else .error (.reasonNotAllowed reason failures step)

/-- The protocol within a composition that has a vocabulary. -/
def disableNull : StepProtocol → StepProtocol
  | null => disabledNull
  | other => other

/-- The developer's view of a protocol. -/
def inspect : StepProtocol → String
  | null => "Null"
  | disabledNull => "DisabledNull"
  | declared failures => Inspect.wrapped "Declared" [failures.inspect]

end StepProtocol

/-! ## Summaries -/

/-- What questions to a summary are held against: the composition and its vocabulary. -/
structure RunProtocol where
  story : String
  failures : Option Failures
  deriving DecidableEq

namespace RunProtocol

/-- Check that a reason may be asked for. -/
def checkArgument (p : RunProtocol) (reason : Reason) : Except ProtocolError Unit :=
  match p.failures with
  | none => .error (.summaryWithoutProtocol p.story)
  | some failures =>
    if failures.contains reason then .ok ()
    else .error (.summaryReasonMismatch reason failures p.story)

/-- Whether the reason asked for is the one the story failed with. -/
def compare (p : RunProtocol) (argument : Reason) : Option Reason → Bool
  | none => false
  | some reason => match p.failures with
    | none => false
    | some failures => failures.compare argument reason

end RunProtocol

end Storyline
