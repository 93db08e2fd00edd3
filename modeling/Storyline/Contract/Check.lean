import Storyline.Context.Basic
import Storyline.Contract.Error

/-!
# Checks against a contract

Values are checked where they enter the context: the arguments of a call (`checkCall`), and what
a step sets (`checkOutput`). A story that starts inside another finds its arguments in the
context (`checkStart`).

`validate` runs every validator of every name. Validators that accept a value but keep it in
different forms are a conflict, which is reported before any rejection.
-/

set_option autoImplicit false

namespace Storyline.Contract

/-! ## Validators of one name -/

/-- The validators of a name, each with the story it belongs to: that of an own variable, then
those of the sources. -/
def validatorsOf (c : Contract) (name : String) : List (StoryName × Field) :=
  let own := match c.ownVariables.find? name, c.declared.find? name with
    | some field, some declaration => [(declaration.story, field)]
    | _, _ => []
  own ++ (c.sourcesOf name).filterMap fun source =>
    source.validator.map fun field => (source.story, field)

/-- The forms in which the validators that accept a value keep it. -/
def accepted (validators : List (StoryName × Field)) (value : Json) :
    List (StoryName × Json) :=
  validators.filterMap fun (story, field) => match field.validate value with
    | .ok kept => some (story, kept)
    | .error _ => none

/-- The first violation that a validator reports. -/
def firstViolation? (validators : List (StoryName × Field)) (value : Json) : Option Violation :=
  validators.findSome? fun (_, field) => match field.validate value with
    | .ok _ => none
    | .error violation => some violation

/-- The forms that differ from the first. -/
def disagreeing : List (StoryName × Json) → List (StoryName × Json)
  | [] => []
  | (_, first) :: others => others.filter fun (_, other) => !first.same other

/-! ## All names -/

/-- What a list of values came to: the values kept so far, the first violation of each rejected
name, and the forms in conflict by story and name. -/
structure Findings where
  kept : List (String × Json)
  rejected : Catalog Violation
  conflict : Catalog (Catalog Json)

/-- Record the form in which a story keeps the value of a name. -/
def recordForm (conflict : Catalog (Catalog Json)) (name : String) (form : StoryName × Json) :
    Catalog (Catalog Json) :=
  let story := form.1.qualified
  conflict.insert story (((conflict.find? story).getD .empty).insert name form.2)

/-- Record the first form of a value and a form that differs from it, for each that does. -/
def recordConflict (conflict : Catalog (Catalog Json)) (name : String)
    (forms : List (StoryName × Json)) : Catalog (Catalog Json) :=
  match forms with
  | [] => conflict
  | first :: _ =>
    (disagreeing forms).foldl
      (fun conflict other => recordForm (recordForm conflict name first) name other) conflict

/-- Judge one more name. A value without validators is kept as it is given. -/
def judge (c : Contract) (v : Findings) (entry : String × Json) : Findings :=
  let (name, value) := entry
  let validators := c.validatorsOf name
  let forms := accepted validators value
  let conflict := recordConflict v.conflict name forms
  match firstViolation? validators value with
  | some violation => { v with rejected := v.rejected.insertNew name violation, conflict }
  | none =>
    let kept := match forms with
      | [] => value
      | (_, first) :: _ => first
    { v with kept := v.kept ++ [(name, kept)], conflict }

/-- Run every validator of every name. -/
def findings (c : Contract) (values : Bindings) : Findings :=
  values.entries.foldl c.judge ⟨[], .empty, .empty⟩

/-- The rejections that were found, with the values as they were given. -/
def rejections (values : Bindings) (rejected : Catalog Violation) : List Rejection :=
  rejected.entries.map fun (name, violation) =>
    ⟨name, (values.find? name).getD .null, violation⟩

/-- Validate all values. The values that are kept, if no validator objects; else a conflict if
there is one, and the error made of all rejections if there is none. -/
def validate (c : Contract) (values : Bindings)
    (invalid : List Rejection → String → ContractError) : Except ContractError Bindings :=
  let v := c.findings values
  if !v.conflict.isEmpty then
    let names := ContractError.conflictingNames v.conflict
    .error (.normalizationConflict v.conflict (c.excerpt names))
  else if !v.rejected.isEmpty then
    .error (invalid (rejections values v.rejected) (c.excerpt v.rejected.names))
  else .ok (.ofList v.kept)

/-! ## Checks -/

/-- Check the arguments of a call. -/
def checkCall (c : Contract) (values : Bindings) : Except ContractError Bindings :=
  match values.names.filter fun name => !c.sources.contains name with
  | [] =>
    if c.isNull then .ok values
    else c.validate values fun rejected excerpt => .invalidArguments rejected c.story excerpt
  | unknown => .error (.unknownArguments (sortNames unknown) c.story c.display)

/-- Check that the story's own arguments are in the context when it starts. -/
def checkStart (c : Contract) (ctx : Context) : Except ContractError Unit :=
  match c.arguments.filter fun name => !ctx.contains name with
  | [] => .ok ()
  | missed => .error (.missingVariables (sortNames missed) c.story c.arguments ctx.display)

/-- Whether a step of the story may set a name. -/
def admits (c : Contract) (name : String) : Bool :=
  c.ownVariables.contains name || c.sources.contains name

/-- Check the values that a step set. -/
def checkOutput (c : Contract) (step : String) (ctx : Context) (values : Bindings) :
    Except ContractError Bindings :=
  match values.names.find? ctx.contains with
  | some name => .error (.variableOverride name step ctx.display)
  | none =>
    if c.isNull then .ok values
    else match values.names.find? fun name => !c.admits name with
      | some name => .error (.unknownVariable name step c.display)
      | none => c.validate values fun rejected excerpt => .invalidVariable rejected step excerpt

end Storyline.Contract
