import Storyline.Plan.Basic

/-!
# Groups of steps

The steps of a group all see the same context, and what they answer is merged before anything is
kept. A failure counts before all else; if all steps succeed, all their values are kept; and any
other mixture of outcomes is itself the result of the story.
-/

set_option autoImplicit false

namespace Storyline

/-- What the answers of a group come to. -/
inductive GroupResult (β : Type) where
  /-- All steps succeeded, with these values. -/
  | success (branches : List (Step β × Bindings))
  /-- The first step that failed. -/
  | failure (step : Step β) (reason : Option Reason)
  /-- All outcomes, as a list. -/
  | result (value : Json)

namespace GroupResult

variable {β : Type}

/-- The values of the steps, if all succeeded. -/
def successes? (answers : List (Step β × Outcome)) : Option (List (Step β × Bindings)) :=
  answers.mapM fun (s, outcome) => match outcome with
    | .success values => some (s, values)
    | _ => none

/-- The first step that failed. -/
def firstFailure? (answers : List (Step β × Outcome)) : Option (Step β × Option Reason) :=
  answers.findSome? fun (s, outcome) => match outcome with
    | .failure reason => some (s, reason)
    | _ => none

/-- Merge the answers of a group. -/
def ofAnswers (answers : List (Step β × Outcome)) : GroupResult β :=
  match successes? answers with
  | some branches => .success branches
  | none =>
    match firstFailure? answers with
    | some (s, reason) => .failure s reason
    | none => .result (.array (answers.map fun (_, outcome) => outcome.toJson))

end GroupResult

end Storyline
