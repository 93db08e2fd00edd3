import Storyline.Contract.Basic

/-!
# Violations of contracts

`ContractError` has a case for each way in which stories, callers and steps break a contract.
-/

set_option autoImplicit false

namespace Storyline

/-- A named value that its validators reject. -/
structure Rejection where
  name : String
  value : Json
  violation : Violation

/-- A rejection as it is listed: the name, the value, and the messages. -/
def Rejection.display (r : Rejection) : String :=
  let messages := r.violation.messages.map fun m => "  " ++ m
  "\n".intercalate ((r.name ++ ":") :: ("  " ++ r.value.text) :: messages)

/-- A violation of a contract. Contracts and contexts are carried as they are shown. -/
inductive ContractError where
  /-- Arguments of the story are missing from its schema. -/
  | undefinedArguments (undefined : List String) (story : StoryName) (arguments : List String)
  /-- The caller gave names that the story does not take. -/
  | unknownArguments (unknown : List String) (story : StoryName) (contract : String)
  /-- A story started without its arguments in the context. -/
  | missingVariables (missed : List String) (story : StoryName) (arguments : List String)
      (context : String)
  /-- A step set a name that is in the context already. -/
  | variableOverride (name step context : String)
  /-- A step set a name that the contract does not declare. -/
  | unknownVariable (name step contract : String)
  /-- A step set values that are rejected. -/
  | invalidVariable (rejected : List Rejection) (step contract : String)
  /-- The caller gave values that are rejected. -/
  | invalidArguments (rejected : List Rejection) (story : StoryName) (contract : String)
  /-- A story and a substory declare the same variables. -/
  | repeatedVariables (repeated : List String) (story substory : StoryName)
  /-- A story and a substory have schemas that do not combine. -/
  | incompatibleTypes (story : StoryName) (contract : String) (substory : StoryName)
      (otherContract : String)
  /-- Validators of one name keep different values; by story and name. -/
  | normalizationConflict (results : Catalog (Catalog Json)) (contract : String)

namespace ContractError

/-- The names of a list, separated by commas. -/
def listed (names : List String) : String := ", ".intercalate names

/-- The names that validators disagree on. -/
def conflictingNames (results : Catalog (Catalog Json)) : List String :=
  sortedNames (results.entries.map fun (_, values) => values.names).flatten

/-- What each story makes of the values that validators disagree on. -/
def displayResults (results : Catalog (Catalog Json)) : String :=
  "\n\n".intercalate (results.entries.map fun (story, values) =>
    let lines := values.entries.map fun (name, value) => " - " ++ name ++ ": " ++ value.text
    story ++ ":\n" ++ "\n".intercalate lines)

/-- The rejected values as they are listed. -/
def displayRejections (rejected : List Rejection) : String :=
  "\n\n".intercalate (rejected.map Rejection.display)

/-- What the error says. -/
def message : ContractError → String
  | undefinedArguments undefined story arguments =>
    "These arguments should be declared in the context contract: " ++ listed undefined ++
      "\n\nStory method: " ++ story.qualified ++
      "\n\nStory arguments: " ++ listed arguments
  | unknownArguments unknown story contract =>
    "These arguments are unknown: " ++ listed unknown ++
      "\n\nStory method: " ++ story.qualified ++ "\n\n" ++ contract
  | missingVariables missed story arguments context =>
    "These variables are missing from the context: " ++ listed missed ++
      "\n\nStory method: " ++ story.qualified ++
      "\n\nStory arguments: " ++ listed arguments ++ "\n\n" ++ context
  | variableOverride name step context =>
    "This variable is already present in the context: " ++ quoted name ++
      "\n\nFunction returned value: " ++ step ++
      "\n\nUse a different name for context attribute.\n\n" ++ context
  | unknownVariable name step contract =>
    "This variable was not defined in the context contract: " ++ quoted name ++
      "\n\nFunction returned value: " ++ step ++
      "\n\nUse a different name for context attribute or add this name to the contract.\n\n" ++
      contract
  | invalidVariable rejected step contract =>
    "These variables violate context contract: " ++ quotedNames (rejected.map Rejection.name) ++
      "\n\nFunction returned value: " ++ step ++
      "\n\nViolations:\n\n" ++ displayRejections rejected ++ "\n\n" ++ contract
  | invalidArguments rejected story contract =>
    "These arguments violate context contract: " ++ quotedNames (rejected.map Rejection.name) ++
      "\n\nStory method: " ++ story.qualified ++
      "\n\nViolations:\n\n" ++ displayRejections rejected ++ "\n\n" ++ contract
  | repeatedVariables repeated story substory =>
    "Repeated variables can not be used in a story composition.\n\n" ++
      "Variables repeated in both context contracts: " ++ quotedNames repeated ++
      "\n\nStory method: " ++ story.qualified ++
      "\n\nSubstory method: " ++ substory.qualified ++
      "\n\nUse variables with different names."
  | incompatibleTypes story contract substory otherContract =>
    "Story and substory context contracts has incompatible types:\n\n" ++
      "Story method: " ++ story.qualified ++
      "\n\nStory context contract: " ++ contract ++
      "\n\nSubstory method: " ++ substory.qualified ++
      "\n\nSubstory context contract: " ++ otherContract
  | normalizationConflict results contract =>
    "These arguments have normalization conflict: " ++ quotedNames (conflictingNames results) ++
      "\n\n" ++ displayResults results ++ "\n\n" ++ contract

end ContractError

end Storyline
