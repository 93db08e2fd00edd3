import Mathlib.Data.List.Induction
import Mathlib.Data.List.Nodup
import Mathlib.Data.Option.Basic
import Storyline.Proofs.Names
import Storyline.Story.Builder

/-!
# Declarations of stories

A story is declared by calls. What it is made of can be read off the calls (`Story.declared`):
arguments and entries are gathered in the order of the calls, of schemas and vocabularies the last
one counts. The declaration is good when it keeps all rules (`Story.Builder.Keeps`), and otherwise
there is a first rule that it breaks and a first thing that breaks it (`Story.Builder.Breaks`).
`Story.declare_decided` says that building comes to exactly this.

Arguments and steps are checked in the same manner: names are gone through in order, and each may be
wrong by itself or because it was there before. `firstFault?` is this in general. For the entries of
a story it goes over *places*, where an empty group is a place without a step.
-/

set_option autoImplicit false

namespace Storyline

/-! ## The first fault of a list -/

section

variable {α ε : Type} {fault? : List α → α → Option ε} {seen items : List α}

/-- The fault of the first item that has one. What is wrong with an item may depend on those before
it. -/
def firstFault? (fault? : List α → α → Option ε) : List α → List α → Option ε
  | _, [] => none
  | seen, item :: rest => (fault? seen item).or (firstFault? fault? (seen ++ [item]) rest)

theorem firstFault?_append (before after : List α) :
    firstFault? fault? seen (before ++ after) =
      (firstFault? fault? seen before).or (firstFault? fault? (seen ++ before) after) := by
  induction before generalizing seen with
  | nil => rw [List.append_nil]; rfl
  | cons item rest ih =>
      rw [List.cons_append, firstFault?, ih, firstFault?, Option.or_assoc, List.append_assoc]
      rfl

/-- There is a fault when an item has one and those before it have none. -/
theorem firstFault?_eq_some_iff {cause : ε} :
    firstFault? fault? seen items = some cause ↔
      ∃ before item after, items = before ++ item :: after ∧
        firstFault? fault? seen before = none ∧ fault? (seen ++ before) item = some cause := by
  constructor
  · intro h
    induction items generalizing seen with
    | nil => cases h
    | cons item rest ih =>
        rw [firstFault?] at h
        cases hItem : fault? seen item with
        | some found =>
            rw [hItem] at h
            exact ⟨[], item, rest, rfl, rfl, by rw [List.append_nil, hItem]; exact h⟩
        | none =>
            rw [hItem, Option.none_or] at h
            obtain ⟨before, other, after, rfl, hBefore, hOther⟩ := ih h
            rw [List.append_assoc] at hOther
            refine ⟨item :: before, other, after, rfl, ?_, hOther⟩
            rw [firstFault?, hItem, Option.none_or, hBefore]
  · rintro ⟨before, item, after, rfl, hBefore, hItem⟩
    rw [firstFault?_append, hBefore, Option.none_or, firstFault?, hItem, Option.some_or]

/-- Where an item is at fault if it is not proper or was there before, there is no fault among
proper items that are distinct. -/
theorem firstFault?_eq_none_iff {proper : α → Prop}
    (hFault : ∀ seen item, fault? seen item = none ↔ proper item ∧ item ∉ seen) :
    firstFault? fault? seen items = none ↔
      (∀ item ∈ items, proper item) ∧ items.Nodup ∧ ∀ item ∈ items, item ∉ seen := by
  induction items generalizing seen with
  | nil => simp [firstFault?]
  | cons item rest ih =>
      rw [firstFault?, Option.or_eq_none_iff, ih, hFault, List.forall_mem_cons,
        List.forall_mem_cons, List.nodup_cons]
      constructor
      · rintro ⟨⟨hProper, hNew⟩, hRest, hDistinct, hOthers⟩
        refine ⟨⟨hProper, hRest⟩, ⟨fun hIn => ?_, hDistinct⟩, hNew, fun other hOther hSeen => ?_⟩
        · exact hOthers item hIn (by simp)
        · exact hOthers other hOther (List.mem_append_left _ hSeen)
      · rintro ⟨⟨hProper, hRest⟩, ⟨hItem, hDistinct⟩, hNew, hOthers⟩
        refine ⟨⟨hProper, hNew⟩, hRest, hDistinct, fun other hOther hSeen => ?_⟩
        rcases List.mem_append.mp hSeen with hOld | hLast
        · exact hOthers other hOther hOld
        · exact hItem (List.mem_singleton.mp hLast ▸ hOther)

theorem firstFault?_nil_eq_none_iff {proper : α → Prop}
    (hFault : ∀ seen item, fault? seen item = none ↔ proper item ∧ item ∉ seen) :
    firstFault? fault? [] items = none ↔ (∀ item ∈ items, proper item) ∧ items.Nodup := by
  rw [firstFault?_eq_none_iff hFault]
  simp

end

/-- The places of an entry: one for each step, and one without a step if there are none. -/
def Collected.places : Collected → List (Option String)
  | .parallel [] => [none]
  | entry => entry.names.map some

theorem Collected.places_eq {entry : Collected} (h : entry ≠ .parallel []) :
    entry.places = entry.names.map some := by
  match entry with
  | .step _ => rfl
  | .parallel [] => exact absurd rfl h
  | .parallel (_ :: _) => rfl

namespace Story

/-! ## Calls -/

/-- A call by which a story is declared. -/
inductive Call where
  | argument (name : String)
  | arguments (names : List String)
  | step (name : String)
  | steps (names : List String)
  | parallel (names : List String)
  | contract (spec : Spec)
  | failures (failures : Failures)

namespace Call

/-- The arguments that a call declares, if it declares arguments. -/
def arguments? : Call → Option (List String)
  | argument name => some [name]
  | arguments names => some names
  | _ => none

/-- The entries that a call collects. -/
def entries : Call → List Collected
  | step name => [.step name]
  | steps names => names.map .step
  | parallel names => [.parallel names]
  | _ => []

/-- The schema that a call attaches. -/
def spec? : Call → Option Spec
  | contract spec => some spec
  | _ => none

/-- The vocabulary that a call attaches. -/
def failures? : Call → Option Failures
  | failures vocabulary => some vocabulary
  | _ => none

end Call

/-- The arguments that some calls declare, in order, if any of them declares arguments. -/
def declaredArguments (calls : List Call) : Option (List String) :=
  match calls.filterMap Call.arguments? with
  | [] => none
  | lists => some lists.flatten

theorem declaredArguments_concat (calls : List Call) (call : Call) :
    declaredArguments (calls ++ [call]) =
      match call.arguments? with
      | none => declaredArguments calls
      | some names => some ((declaredArguments calls).getD [] ++ names) := by
  unfold declaredArguments
  rw [List.filterMap_append]
  cases hCall : call.arguments? with
  | none => simp [hCall]
  | some names =>
      cases hLists : calls.filterMap Call.arguments? with
      | nil => simp [hCall]
      | cons first rest => simp [hCall]

/-- What some calls declare of a story: all arguments and entries in the order of the calls, the
last schema and the last vocabulary. -/
def declared (name : StoryName) (calls : List Call) : Builder where
  name
  arguments := declaredArguments calls
  collected := calls.flatMap Call.entries
  spec := (calls.filterMap Call.spec?).getLast?
  failures := (calls.filterMap Call.failures?).getLast?

namespace Builder

/-- Do what a call says. -/
def perform (b : Builder) : Call → Builder
  | .argument name => b.addArgument name
  | .arguments names => b.addArguments names
  | .step name => b.addStep name
  | .steps names => b.addSteps names
  | .parallel names => b.addParallel names
  | .contract spec => b.setContract spec
  | .failures failures => b.setFailures failures

/-- Do what some calls say, one after the other. -/
def performAll (b : Builder) (calls : List Call) : Builder := calls.foldl perform b

theorem perform_declared (name : StoryName) (calls : List Call) (call : Call) :
    (declared name calls).perform call = declared name (calls ++ [call]) := by
  cases call with
  | argument | arguments =>
      simp [declared, perform, addArgument, addArguments, declaredArguments_concat,
        Call.arguments?, Call.entries, Call.spec?, Call.failures?]
  | step | steps | parallel | contract | failures =>
      simp [declared, perform, addStep, addSteps, addParallel, setContract, setFailures,
        declaredArguments_concat, Call.arguments?, Call.entries, Call.spec?, Call.failures?]

/-- What a story is made of after some calls can be read off them. -/
theorem performAll_define (name : StoryName) (calls : List Call) :
    performAll { name } calls = declared name calls := by
  induction calls using List.reverseRecOn with
  | nil => rfl
  | append_singleton calls call ih =>
      rw [← perform_declared, ← ih, performAll, List.foldl_append]
      rfl

/-! ## Rules -/

/-- Names that can be declared as arguments together. -/
structure AreArguments (names : List String) : Prop where
  identifiers : ∀ name ∈ names, isIdentifier name = true
  distinct : names.Nodup

/-- The rules that a declaration keeps. -/
structure Keeps (b : Builder) : Prop where
  arguments_ne_nil : b.arguments ≠ some []
  arguments : AreArguments (b.arguments.getD [])
  collected_ne_nil : b.collected ≠ []
  groups_ne_nil : .parallel [] ∉ b.collected
  steps_distinct : (b.collected.flatMap Collected.names).Nodup
  steps_ne_name : b.name.name ∉ b.collected.flatMap Collected.names
  arguments_in_spec : ∀ spec, b.spec = some spec →
    ∀ argument ∈ b.arguments.getD [], argument ∈ spec.fields.names

/-- The places of all entries, in order. -/
def places (b : Builder) : List (Option String) := b.collected.flatMap Collected.places

/-- Places whose steps a story with some name can have together. -/
structure AreSteps (name : String) (places : List (Option String)) : Prop where
  filled : ∀ place ∈ places, place ≠ none ∧ place ≠ some name
  distinct : places.Nodup

/-- The rules for the arguments of a declaration. -/
def ArgumentsHold (b : Builder) : Prop :=
  b.arguments ≠ some [] ∧ AreArguments (b.arguments.getD [])

/-- The rules for the entries of a declaration. -/
def StepsHold (b : Builder) : Prop := b.collected ≠ [] ∧ AreSteps b.name.name b.places

/-- The first rule for arguments that a declaration breaks, and the argument that breaks it. -/
inductive BreaksArguments (b : Builder) : DefinitionError → Prop where
  | empty : b.arguments = some [] → b.BreaksArguments (.emptyArguments b.name.qualified)
  | invalid {before after : List String} {argument : String} :
      b.arguments = some (before ++ argument :: after) → AreArguments before →
      isIdentifier argument = false →
      b.BreaksArguments (.invalidArgument b.name.qualified argument)
  | duplicate {before after : List String} {argument : String} :
      b.arguments = some (before ++ argument :: after) → AreArguments before →
      isIdentifier argument = true → argument ∈ before →
      b.BreaksArguments (.duplicateArgument b.name.qualified argument)

/-- The first rule for entries that a declaration breaks, and the place that breaks it. -/
inductive BreaksSteps (b : Builder) : DefinitionError → Prop where
  | empty : b.collected = [] → b.BreaksSteps (.emptyStory b.name.qualified)
  | emptyGroup {before after : List (Option String)} :
      b.places = before ++ none :: after → AreSteps b.name.name before →
      b.BreaksSteps (.emptyParallel b.name.qualified)
  | recursive {before after : List (Option String)} :
      b.places = before ++ some b.name.name :: after → AreSteps b.name.name before →
      b.BreaksSteps (.recursiveStory b.name.qualified b.name.name)
  | duplicate {before after : List (Option String)} {step : String} :
      b.places = before ++ some step :: after → AreSteps b.name.name before →
      step ≠ b.name.name → some step ∈ before →
      b.BreaksSteps (.duplicateStep b.name.qualified step)

/-- The first rule that a declaration breaks, and what breaks it: arguments come before entries, and
entries before the schema. -/
inductive Breaks (b : Builder) : StoryError → Prop where
  | arguments {cause : DefinitionError} : b.BreaksArguments cause → b.Breaks (.definition cause)
  | steps {cause : DefinitionError} : b.ArgumentsHold → b.BreaksSteps cause →
      b.Breaks (.definition cause)
  /-- All arguments are reported that the schema does not have, in alphabetic order. -/
  | spec {spec : Spec} {undefined : List String} : b.ArgumentsHold → b.StepsHold →
      b.spec = some spec → undefined ≠ [] → undefined.Pairwise (· < ·) →
      (∀ argument, argument ∈ undefined ↔
        argument ∈ b.arguments.getD [] ∧ argument ∉ spec.fields.names) →
      b.Breaks (.contract (.undefinedArguments undefined b.name (b.arguments.getD [])))

/-! ## Checks -/

/-- What is wrong with an argument after some others. -/
def argumentFault? (story : String) (before : List String) (argument : String) :
    Option DefinitionError :=
  if !isIdentifier argument then some (.invalidArgument story argument)
  else if before.contains argument then some (.duplicateArgument story argument)
  else none

/-- What is wrong with a place after some others. -/
def placeFault? (name : StoryName) (before : List (Option String)) :
    Option String → Option DefinitionError
  | none => some (.emptyParallel name.qualified)
  | some step =>
    if step = name.name then some (.recursiveStory name.qualified step)
    else if before.contains (some step) then some (.duplicateStep name.qualified step)
    else none

/-- A check goes wrong with the fault that it finds. -/
def verdict {ε : Type} : Option ε → Except ε Unit
  | none => .ok ()
  | some cause => .error cause

theorem argumentFault?_eq_none_iff (story : String) (before : List String) (argument : String) :
    argumentFault? story before argument = none ↔
      isIdentifier argument = true ∧ argument ∉ before := by
  unfold argumentFault?
  cases hName : isIdentifier argument <;> simp

theorem placeFault?_eq_none_iff (name : StoryName) (before : List (Option String))
    (place : Option String) :
    placeFault? name before place = none ↔
      (place ≠ none ∧ place ≠ some name.name) ∧ place ∉ before := by
  cases place with
  | none => simp [placeFault?]
  | some step => by_cases hName : step = name.name <;> simp [placeFault?, hName]

theorem firstFault?_arguments_iff {story : String} {names : List String} :
    firstFault? (argumentFault? story) [] names = none ↔ AreArguments names := by
  rw [firstFault?_nil_eq_none_iff (argumentFault?_eq_none_iff story)]
  constructor
  · rintro ⟨hNames, hDistinct⟩
    exact ⟨hNames, hDistinct⟩
  · rintro ⟨hNames, hDistinct⟩
    exact ⟨hNames, hDistinct⟩

theorem firstFault?_places_iff {name : StoryName} {places : List (Option String)} :
    firstFault? (placeFault? name) [] places = none ↔ AreSteps name.name places := by
  rw [firstFault?_nil_eq_none_iff (placeFault?_eq_none_iff name)]
  constructor
  · rintro ⟨hPlaces, hDistinct⟩
    exact ⟨hPlaces, hDistinct⟩
  · rintro ⟨hPlaces, hDistinct⟩
    exact ⟨hPlaces, hDistinct⟩

theorem checkArguments_eq {story : String} {known seen : List String}
    (hSame : ∀ name, name ∈ known ↔ name ∈ seen) (names : List String) :
    checkArguments story known names = verdict (firstFault? (argumentFault? story) seen names) := by
  induction names generalizing known seen with
  | nil => rfl
  | cons name rest ih =>
      -- the check collects names in front, the scan at the end
      have hContains : known.contains name = seen.contains name := by
        rw [Bool.eq_iff_iff, List.contains_iff_mem, List.contains_iff_mem, hSame]
      have hNext : ∀ other, other ∈ name :: known ↔ other ∈ seen ++ [name] := by
        intro other
        rw [List.mem_cons, List.mem_append, List.mem_singleton, hSame, or_comm]
      rw [checkArguments, firstFault?, argumentFault?, hContains, ih hNext]
      split
      · rfl
      · split
        · rfl
        · rw [Option.none_or]

/-- The steps of an entry are checked like their places. -/
theorem checkSteps_eq {name : StoryName} {known : List String} {seen : List (Option String)}
    (hSame : ∀ step, step ∈ known ↔ some step ∈ seen) (steps : List String) :
    checkSteps name known steps =
      (verdict (firstFault? (placeFault? name) seen (steps.map some))).map
        fun _ => steps.reverse ++ known := by
  induction steps generalizing known seen with
  | nil => rfl
  | cons step rest ih =>
      have hContains : known.contains step = seen.contains (some step) := by
        rw [Bool.eq_iff_iff, List.contains_iff_mem, List.contains_iff_mem, hSame]
      have hNext : ∀ other, other ∈ step :: known ↔ some other ∈ seen ++ [some step] := by
        intro other
        rw [List.mem_cons, List.mem_append, List.mem_singleton, hSame, or_comm, Option.some_inj]
      rw [checkSteps, List.map_cons, firstFault?, placeFault?, hContains, ih hNext]
      split
      · rfl
      · split
        · rfl
        · rw [Option.none_or, List.reverse_cons, List.append_assoc]
          rfl

theorem checkCollected_cons {name : StoryName} {known : List String} {entry : Collected}
    {rest : List Collected} (h : entry ≠ .parallel []) :
    checkCollected name known (entry :: rest) =
      checkSteps name known entry.names >>= fun known => checkCollected name known rest := by
  match entry with
  | .step _ => rfl
  | .parallel [] => exact absurd rfl h
  | .parallel (_ :: _) => rfl

theorem checkCollected_eq {name : StoryName} {known : List String} {seen : List (Option String)}
    (hSame : ∀ step, step ∈ known ↔ some step ∈ seen) (entries : List Collected) :
    checkCollected name known entries =
      verdict (firstFault? (placeFault? name) seen (entries.flatMap Collected.places)) := by
  induction entries generalizing known seen with
  | nil => rfl
  | cons entry rest ih =>
      by_cases hEntry : entry = .parallel []
      · rw [hEntry]
        rfl
      · rw [checkCollected_cons hEntry, checkSteps_eq hSame, List.flatMap_cons,
          entry.places_eq hEntry, firstFault?_append]
        cases firstFault? (placeFault? name) seen (entry.names.map some) with
        | some cause => rfl
        | none =>
            refine ih fun step => ?_
            rw [List.mem_append, List.mem_reverse, hSame, List.mem_append, or_comm]
            simp

/-- The first fault of the arguments of a declaration. -/
def argumentsFault? (b : Builder) : Option DefinitionError :=
  match b.arguments with
  | none => none
  | some [] => some (.emptyArguments b.name.qualified)
  | some arguments => firstFault? (argumentFault? b.name.qualified) [] arguments

/-- The first fault of the entries of a declaration. -/
def stepsFault? (b : Builder) : Option DefinitionError :=
  match b.collected with
  | [] => some (.emptyStory b.name.qualified)
  | _ => firstFault? (placeFault? b.name) [] b.places

theorem verdict_or {ε : Type} (first second : Option ε) :
    verdict (first.or second) = verdict first >>= fun _ => verdict second := by
  cases first <;> rfl

theorem check_eq (b : Builder) : b.check = verdict (b.argumentsFault?.or b.stepsFault?) := by
  obtain ⟨name, arguments, collected, spec, failures⟩ := b
  have hSteps : ∀ entry rest, checkCollected name [] (entry :: rest) =
      verdict (firstFault? (placeFault? name) [] ((entry :: rest).flatMap Collected.places)) :=
    fun entry rest => checkCollected_eq (by simp) (entry :: rest)
  have hArguments : ∀ names, checkArguments name.qualified [] names =
      verdict (firstFault? (argumentFault? name.qualified) [] names) :=
    fun names => checkArguments_eq (fun _ => Iff.rfl) names
  rw [verdict_or]
  match arguments, collected with
  | none, [] | some [], _ => rfl
  | none, entry :: rest => exact hSteps entry rest
  | some (first :: others), [] =>
      show checkArguments name.qualified [] (first :: others) >>= _ = _
      rw [hArguments]
      rfl
  | some (first :: others), entry :: rest =>
      show (checkArguments name.qualified [] (first :: others) >>= fun _ =>
        checkCollected name [] (entry :: rest)) = _
      rw [hArguments, hSteps]
      rfl

/-- The story that is declared. -/
def story (b : Builder) : Story where
  name := b.name
  arguments := b.arguments.getD []
  collected := b.collected
  spec := b.spec
  failures := b.failures

/-- What is wrong with the schema of a declaration. -/
def specFault? (b : Builder) : Option ContractError :=
  match b.story.contract with
  | .error cause => some cause
  | .ok _ => none

/-- The first fault of a declaration. -/
def fault? (b : Builder) : Option StoryError :=
  ((b.argumentsFault?.or b.stepsFault?).map .definition).or (b.specFault?.map .contract)

theorem build_eq (b : Builder) : b.build = (verdict b.fault?).map fun _ => b.story := by
  unfold build fault? specFault?
  rw [check_eq]
  cases b.argumentsFault?.or b.stepsFault? with
  | some cause => rfl
  | none =>
      show (match b.story.contract with
        | .error cause => Except.error (StoryError.contract cause)
        | .ok _ => Except.ok b.story) = _
      cases b.story.contract with
      | error cause => rfl
      | ok contract => rfl

/-! ## Rules and faults -/

theorem argumentsFault?_eq_none_iff {b : Builder} : b.argumentsFault? = none ↔ b.ArgumentsHold := by
  unfold argumentsFault? ArgumentsHold
  cases b.arguments with
  | none => simp [AreArguments.mk]
  | some names =>
      cases names with
      | nil => simp
      | cons first rest => simp [firstFault?_arguments_iff]

theorem stepsFault?_eq_none_iff {b : Builder} : b.stepsFault? = none ↔ b.StepsHold := by
  unfold stepsFault? StepsHold
  cases b.collected with
  | nil => simp
  | cons first rest => simp [firstFault?_places_iff]

/-- The declared arguments that a schema does not have. -/
def undefined (b : Builder) (spec : Spec) : List String :=
  (b.arguments.getD []).filter fun name => !spec.fields.contains name

theorem mem_undefined_iff {b : Builder} {spec : Spec} {argument : String} :
    argument ∈ b.undefined spec ↔
      argument ∈ b.arguments.getD [] ∧ argument ∉ spec.fields.names := by
  rw [undefined, List.mem_filter, Bool.not_eq_true', ← Bool.not_eq_true, Named.contains_iff]

theorem undefined_eq_nil_iff {b : Builder} {spec : Spec} :
    b.undefined spec = [] ↔ ∀ argument ∈ b.arguments.getD [], argument ∈ spec.fields.names := by
  simp only [List.eq_nil_iff_forall_not_mem, mem_undefined_iff, not_and, Decidable.not_not]

/-- Sorted, they are known by their members. -/
theorem eq_sortNames_undefined_iff {b : Builder} {spec : Spec} {names : List String}
    (h : (b.arguments.getD []).Nodup) :
    names = sortNames (b.undefined spec) ↔ names.Pairwise (· < ·) ∧
      ∀ argument, argument ∈ names ↔
        argument ∈ b.arguments.getD [] ∧ argument ∉ spec.fields.names := by
  have hSorted : (sortNames (b.undefined spec)).Pairwise (· < ·) :=
    pairwise_lt_sortNames (List.Pairwise.filter _ h)
  have hMem : ∀ argument, argument ∈ sortNames (b.undefined spec) ↔
      argument ∈ b.arguments.getD [] ∧ argument ∉ spec.fields.names :=
    fun argument => (perm_sortNames _).mem_iff.trans mem_undefined_iff
  constructor
  · rintro rfl
    exact ⟨hSorted, hMem⟩
  · rintro ⟨hNames, hSame⟩
    exact eq_of_pairwise_lt hNames hSorted fun argument => (hSame argument).trans (hMem _).symm

theorem specFault?_eq_some_iff {b : Builder} {cause : ContractError} :
    b.specFault? = some cause ↔ ∃ spec, b.spec = some spec ∧ b.undefined spec ≠ [] ∧
      cause = .undefinedArguments (sortNames (b.undefined spec)) b.name (b.arguments.getD []) := by
  obtain ⟨name, arguments, collected, spec, failures⟩ := b
  unfold specFault? Story.contract Contract.build
  cases spec with
  | none => simp [story]
  | some spec =>
      simp only [story, undefined, Option.some.injEq, exists_eq_left']
      cases (arguments.getD []).filter fun name => !spec.fields.contains name with
      | nil => simp
      | cons first rest => simp [eq_comm]

theorem specFault?_eq_none_iff {b : Builder} :
    b.specFault? = none ↔ ∀ spec, b.spec = some spec →
      ∀ argument ∈ b.arguments.getD [], argument ∈ spec.fields.names := by
  rw [Option.eq_none_iff_forall_ne_some]
  constructor
  · intro h spec hSpec
    refine undefined_eq_nil_iff.mp (Decidable.not_not.mp fun hUndefined => ?_)
    exact h _ (specFault?_eq_some_iff.mpr ⟨spec, hSpec, hUndefined, rfl⟩)
  · intro h cause hCause
    obtain ⟨spec, hSpec, hUndefined, -⟩ := specFault?_eq_some_iff.mp hCause
    exact hUndefined (undefined_eq_nil_iff.mpr (h spec hSpec))

/-- Entries have a place without a step when a group is empty. -/
theorem none_mem_places_iff {b : Builder} : none ∈ b.places ↔ .parallel [] ∈ b.collected := by
  rw [places, List.mem_flatMap]
  constructor
  · rintro ⟨entry, hEntry, hNone⟩
    by_cases hEmpty : entry = .parallel []
    · exact hEmpty ▸ hEntry
    · rw [entry.places_eq hEmpty] at hNone
      simp at hNone
  · exact fun h => ⟨_, h, List.mem_singleton.mpr rfl⟩

/-- Without an empty group the places are those of the steps. -/
theorem places_eq {b : Builder} (h : .parallel [] ∉ b.collected) :
    b.places = (b.collected.flatMap Collected.names).map some := by
  rw [places, List.map_flatMap]
  refine List.flatMap_congr fun entry hEntry => entry.places_eq ?_
  exact fun hEmpty => h (hEmpty ▸ hEntry)

theorem stepsHold_iff {b : Builder} :
    b.StepsHold ↔ b.collected ≠ [] ∧ .parallel [] ∉ b.collected ∧
      (b.collected.flatMap Collected.names).Nodup ∧
      b.name.name ∉ b.collected.flatMap Collected.names := by
  refine and_congr_right fun _ => ?_
  constructor
  · rintro ⟨hFilled, hDistinct⟩
    have hGroups : .parallel [] ∉ b.collected :=
      fun hEmpty => (hFilled none (none_mem_places_iff.mpr hEmpty)).1 rfl
    rw [places_eq hGroups] at hFilled hDistinct
    refine ⟨hGroups, List.Nodup.of_map some hDistinct, fun hName => ?_⟩
    exact (hFilled (some b.name.name) (List.mem_map_of_mem hName)).2 rfl
  · rintro ⟨hGroups, hDistinct, hName⟩
    constructor
    · intro place hPlace
      rw [places_eq hGroups] at hPlace
      obtain ⟨step, hStep, rfl⟩ := List.mem_map.mp hPlace
      refine ⟨Option.some_ne_none step, fun hSame => hName ?_⟩
      exact Option.some.inj hSame ▸ hStep
    · rw [places_eq hGroups]
      exact (List.nodup_map_iff (Option.some_injective String)).mpr hDistinct

theorem keeps_iff {b : Builder} :
    b.Keeps ↔ b.ArgumentsHold ∧ b.StepsHold ∧ b.specFault? = none := by
  rw [stepsHold_iff, specFault?_eq_none_iff]
  constructor
  · rintro ⟨hSome, hArguments, hEntries, hGroups, hDistinct, hName, hSpec⟩
    exact ⟨⟨hSome, hArguments⟩, ⟨hEntries, hGroups, hDistinct, hName⟩, hSpec⟩
  · rintro ⟨⟨hSome, hArguments⟩, ⟨hEntries, hGroups, hDistinct, hName⟩, hSpec⟩
    exact ⟨hSome, hArguments, hEntries, hGroups, hDistinct, hName, hSpec⟩

theorem argumentFault?_eq_some_iff {story : String} {before : List String} {argument : String}
    {cause : DefinitionError} :
    argumentFault? story before argument = some cause ↔
      (isIdentifier argument = false ∧ cause = .invalidArgument story argument) ∨
      (isIdentifier argument = true ∧ argument ∈ before ∧
        cause = .duplicateArgument story argument) := by
  unfold argumentFault?
  cases isIdentifier argument <;> simp [eq_comm]

theorem placeFault?_eq_some_iff {name : StoryName} {before : List (Option String)}
    {place : Option String} {cause : DefinitionError} :
    placeFault? name before place = some cause ↔
      (place = none ∧ cause = .emptyParallel name.qualified) ∨
      (place = some name.name ∧ cause = .recursiveStory name.qualified name.name) ∨
      ∃ step, place = some step ∧ step ≠ name.name ∧ some step ∈ before ∧
        cause = .duplicateStep name.qualified step := by
  cases place with
  | none => simp [placeFault?, eq_comm]
  | some step => by_cases hName : step = name.name <;> simp [placeFault?, hName, eq_comm]

theorem argumentsFault?_eq_some_iff {b : Builder} {cause : DefinitionError} :
    b.argumentsFault? = some cause ↔
      (b.arguments = some [] ∧ cause = .emptyArguments b.name.qualified) ∨
      ∃ before argument after, b.arguments = some (before ++ argument :: after) ∧
        AreArguments before ∧ argumentFault? b.name.qualified before argument = some cause := by
  unfold argumentsFault?
  cases b.arguments with
  | none => simp
  | some names =>
      cases names with
      | nil => simp [eq_comm]
      | cons first rest =>
          simp only [firstFault?_eq_some_iff, firstFault?_arguments_iff, Option.some.injEq,
            List.nil_append, reduceCtorEq, false_and, false_or]

theorem stepsFault?_eq_some_iff {b : Builder} {cause : DefinitionError} :
    b.stepsFault? = some cause ↔
      (b.collected = [] ∧ cause = .emptyStory b.name.qualified) ∨
      ∃ before place after, b.places = before ++ place :: after ∧
        AreSteps b.name.name before ∧ placeFault? b.name before place = some cause := by
  obtain ⟨name, arguments, collected, spec, failures⟩ := b
  unfold stepsFault?
  cases collected with
  | nil => simp [places, eq_comm]
  | cons first rest =>
      simp only [firstFault?_eq_some_iff, firstFault?_places_iff, List.nil_append, reduceCtorEq,
        false_and, false_or]

theorem breaksArguments_iff {b : Builder} {cause : DefinitionError} :
    b.BreaksArguments cause ↔ b.argumentsFault? = some cause := by
  rw [argumentsFault?_eq_some_iff]
  constructor
  · rintro (hNone | ⟨hSome, hFirst, hName⟩ | ⟨hSome, hFirst, hName, hOld⟩)
    · exact .inl ⟨hNone, rfl⟩
    · exact .inr ⟨_, _, _, hSome, hFirst, argumentFault?_eq_some_iff.mpr (.inl ⟨hName, rfl⟩)⟩
    · refine .inr ⟨_, _, _, hSome, hFirst, argumentFault?_eq_some_iff.mpr (.inr ?_)⟩
      exact ⟨hName, hOld, rfl⟩
  · rintro (⟨hNone, rfl⟩ | ⟨before, argument, after, hSome, hFirst, hArgument⟩)
    · exact .empty hNone
    · rcases argumentFault?_eq_some_iff.mp hArgument with ⟨hName, rfl⟩ | ⟨hName, hOld, rfl⟩
      · exact .invalid hSome hFirst hName
      · exact .duplicate hSome hFirst hName hOld

theorem breaksSteps_iff {b : Builder} {cause : DefinitionError} :
    b.BreaksSteps cause ↔ b.stepsFault? = some cause := by
  rw [stepsFault?_eq_some_iff]
  constructor
  · rintro (hNone | ⟨hSome, hFirst⟩ | ⟨hSome, hFirst⟩ | ⟨hSome, hFirst, hName, hOld⟩)
    · exact .inl ⟨hNone, rfl⟩
    · exact .inr ⟨_, _, _, hSome, hFirst, placeFault?_eq_some_iff.mpr (.inl ⟨rfl, rfl⟩)⟩
    · refine .inr ⟨_, _, _, hSome, hFirst, placeFault?_eq_some_iff.mpr (.inr (.inl ?_))⟩
      exact ⟨rfl, rfl⟩
    · refine .inr ⟨_, _, _, hSome, hFirst, placeFault?_eq_some_iff.mpr (.inr (.inr ?_))⟩
      exact ⟨_, rfl, hName, hOld, rfl⟩
  · rintro (⟨hNone, rfl⟩ | ⟨before, place, after, hSome, hFirst, hPlace⟩)
    · exact .empty hNone
    · rcases placeFault?_eq_some_iff.mp hPlace with
        ⟨rfl, rfl⟩ | ⟨rfl, rfl⟩ | ⟨step, rfl, hName, hOld, rfl⟩
      · exact .emptyGroup hSome hFirst
      · exact .recursive hSome hFirst
      · exact .duplicate hSome hFirst hName hOld

/-- The first rule that a declaration breaks is its first fault. -/
theorem breaks_iff {b : Builder} {cause : StoryError} :
    b.Breaks cause ↔ b.fault? = some cause := by
  unfold fault?
  constructor
  · rintro (hBreaks | ⟨hArguments, hBreaks⟩ |
      ⟨hArguments, hSteps, hSpec, hSome, hSorted, hUndefined⟩)
    · rw [breaksArguments_iff.mp hBreaks]
      rfl
    · rw [argumentsFault?_eq_none_iff.mpr hArguments, breaksSteps_iff.mp hBreaks]
      rfl
    · rw [argumentsFault?_eq_none_iff.mpr hArguments, stepsFault?_eq_none_iff.mpr hSteps]
      obtain rfl := (eq_sortNames_undefined_iff hArguments.2.distinct).mpr ⟨hSorted, hUndefined⟩
      have hSpecFault := specFault?_eq_some_iff.mpr
        ⟨_, hSpec, sortNames_eq_nil_iff.not.mp hSome, rfl⟩
      rw [hSpecFault]
      rfl
  · intro h
    cases hArguments : b.argumentsFault? with
    | some cause =>
        rw [hArguments] at h
        obtain rfl := Option.some.inj h
        exact .arguments (breaksArguments_iff.mpr hArguments)
    | none =>
        have hHold := argumentsFault?_eq_none_iff.mp hArguments
        rw [hArguments, Option.none_or] at h
        cases hSteps : b.stepsFault? with
        | some cause =>
            rw [hSteps] at h
            obtain rfl := Option.some.inj h
            exact .steps hHold (breaksSteps_iff.mpr hSteps)
        | none =>
            rw [hSteps] at h
            obtain ⟨cause, hCause, rfl⟩ := Option.map_eq_some_iff.mp h
            obtain ⟨spec, hSpec, hUndefined, rfl⟩ := specFault?_eq_some_iff.mp hCause
            obtain ⟨hSorted, hMem⟩ := (eq_sortNames_undefined_iff hHold.2.distinct).mp rfl
            exact .spec hHold (stepsFault?_eq_none_iff.mp hSteps) hSpec
              (sortNames_eq_nil_iff.not.mpr hUndefined) hSorted hMem

/-- Building keeps to the rules: what keeps them all is built, and what breaks one is turned down
for the first that it breaks. -/
theorem build_iff (b : Builder) :
    (∀ story, b.build = .ok story ↔ b.Keeps ∧ story = b.story) ∧
    ∀ cause, b.build = .error cause ↔ b.Breaks cause := by
  have hKeeps : b.Keeps ↔ b.fault? = none := by
    unfold fault?
    rw [keeps_iff, Option.or_eq_none_iff, Option.map_eq_none_iff, Option.map_eq_none_iff,
      Option.or_eq_none_iff, argumentsFault?_eq_none_iff, stepsFault?_eq_none_iff, and_assoc]
  rw [build_eq]
  constructor
  · intro story
    rw [hKeeps]
    cases b.fault? with
    | none => simp [verdict, Except.map, eq_comm]
    | some cause => simp [verdict, Except.map]
  · intro cause
    rw [breaks_iff]
    cases b.fault? with
    | none => simp [verdict, Except.map]
    | some found => simp [verdict, Except.map]

end Builder

/-- Declare a story by some calls, and build it. -/
def declare (className name : String) (calls : List Call) : Except StoryError Story :=
  ((define className name).performAll calls).build

/-- **Declarations, exactly.** Calls declare a story if what they say keeps all rules. The story has
the arguments and the entries in the order of the calls, and the schema and the vocabulary attached
last. If some rules are broken, the error is that of the first, and names what breaks it first. -/
theorem declare_decided (className name : String) (calls : List Call) :
    (∀ story, declare className name calls = .ok story ↔
      (declared ⟨className, name⟩ calls).Keeps ∧ story = (declared ⟨className, name⟩ calls).story) ∧
    ∀ cause, declare className name calls = .error cause ↔
      (declared ⟨className, name⟩ calls).Breaks cause := by
  have hDeclare : declare className name calls = (declared ⟨className, name⟩ calls).build :=
    congrArg Builder.build (Builder.performAll_define ⟨className, name⟩ calls)
  rw [hDeclare]
  exact Builder.build_iff _

/-- An argument that is declared twice counts before the empty group and the step `check`, which is
the name of the story. -/
example : declare "Office" "check"
    [.step "check", .parallel [], .argument "age", .arguments ["name", "age"]] =
      .error (.definition (.duplicateArgument "Office.check" "age")) := by
  rfl

end Story

end Storyline
