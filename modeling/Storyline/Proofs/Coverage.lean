import Storyline.Proofs.Moments
import Storyline.Proofs.Sources

/-!
# Which validators a composition has

Merging sources keeps, of each story that declares an argument, a source with the name of the
story (`Contract.Covers`), and in the end every contract of a composition with schemas covers all
stories of its tree (`Mounts.covers`). So a value that a story rejects for an argument is rejected
wherever it comes in, as an argument of a call or from any step (`Mounts.rejected`).

Sources are told apart by the names of their stories only. If two stories bear the same name and
declare the same argument, one of their validators is lost, and a value that is rejected by the
other alone is accepted (`Office.unchecked`).
-/

set_option autoImplicit false

namespace Storyline

variable {β : Type}

/-! ## Coverage -/

namespace Contract

/-- A contract has a source for an argument under the name of a story. -/
def HasSource (c : Contract) (name : String) (story : StoryName) : Prop :=
  ∃ source ∈ c.sourcesOf name, source.story = story

/-- A contract covers some stories: of each it has a source for each argument. -/
def Covers (c : Contract) (stories : List Story) : Prop :=
  ∀ story ∈ stories, ∀ name ∈ story.arguments, c.HasSource name story.name

theorem Covers.append {c : Contract} {stories others : List Story} (h : c.Covers stories)
    (hOthers : c.Covers others) : c.Covers (stories ++ others) := by
  intro story hStory
  rcases List.mem_append.mp hStory with hIn | hIn
  · exact h story hIn
  · exact hOthers story hIn

/-- In the contract of a story alone each argument has one source, that of the story. -/
theorem find?_sources_of_contract {story : Story} {c : Contract} (h : story.contract = .ok c)
    {name : String} (hName : name ∈ story.arguments) :
    ∃ validator, c.sources.find? name = some [⟨validator, story.name⟩] := by
  have hTable : ∃ pairs, c.sources = Catalog.ofList pairs ∧ name ∈ pairs.map Prod.fst ∧
      ∀ sources, (name, sources) ∈ pairs → ∃ validator, sources = [⟨validator, story.name⟩] := by
    unfold Story.contract build at h
    split at h
    · obtain rfl := Except.ok.inj h
      refine ⟨_, rfl, by simpa using hName, fun sources hPair => ?_⟩
      obtain ⟨argument, -, hSources⟩ := List.mem_map.mp hPair
      cases hSources
      exact ⟨none, rfl⟩
    · next spec _ =>
      split at h
      · next hDefined =>
        obtain rfl := Except.ok.inj h
        refine ⟨_, rfl, ?_, fun sources hPair => ?_⟩
        · -- the schema has a field for the argument
          have hContains := List.filter_eq_nil_iff.mp hDefined name hName
          have hField : name ∈ spec.fields.names := by
            rw [← Named.contains_iff]
            simpa using hContains
          obtain ⟨⟨other, field⟩, hEntry, rfl⟩ := List.mem_map.mp hField
          rw [List.map_map]
          exact List.mem_map.mpr ⟨_, mem_of_partition.1.mpr ⟨hEntry, hName⟩, rfl⟩
        · obtain ⟨⟨argument, field⟩, -, hSources⟩ := List.mem_map.mp hPair
          cases hSources
          exact ⟨some field, rfl⟩
      · cases h
  obtain ⟨pairs, hSources, hIn, hAlone⟩ := hTable
  obtain ⟨sources, hPair, hFind⟩ := Catalog.exists_find?_ofList hIn
  obtain ⟨validator, rfl⟩ := hAlone sources hPair
  exact ⟨validator, hSources ▸ hFind⟩

/-- The contract of a story alone covers the story. -/
theorem covers_of_contract {story : Story} {c : Contract} (h : story.contract = .ok c) :
    c.Covers [story] := by
  intro other hOther name hName
  rw [List.mem_singleton.mp hOther] at hName ⊢
  obtain ⟨validator, hFind⟩ := find?_sources_of_contract h hName
  refine ⟨⟨validator, story.name⟩, ?_, rfl⟩
  simp [sourcesOf, hFind]

/-- Joining sources of an argument keeps a source of each story. -/
theorem exists_mem_addSources_iff {known others : List Source} {story : StoryName} :
    (∃ source ∈ addSources known others, source.story = story) ↔
      (∃ source ∈ known, source.story = story) ∨ ∃ source ∈ others, source.story = story := by
  induction others generalizing known with
  | nil => simp [addSources]
  | cons first rest ih =>
      rw [addSources, ih]
      simp only [List.mem_cons, or_and_right, exists_or, exists_eq_left]
      by_cases hKnown : (known.any fun other => other.story == first.story) = true
      · -- the story of the first source has one already
        have hFirst : first.story = story → ∃ source ∈ known, source.story = story := by
          rintro rfl
          obtain ⟨other, hOther, hSame⟩ := List.any_eq_true.mp hKnown
          exact ⟨other, hOther, by simpa using hSame⟩
        rw [if_pos hKnown, ← or_assoc, or_iff_left_of_imp hFirst]
      · rw [if_neg hKnown]
        simp only [List.mem_append, List.mem_singleton, or_and_right, exists_or, exists_eq_left,
          or_assoc]

/-- Merging sources keeps a source of each story, for every argument. -/
theorem hasSource_mergeSources_iff {into : Catalog (List Source)}
    {others : List (String × List Source)} {name : String} {story : StoryName} :
    (∃ source ∈ ((mergeSources into others).find? name).getD [], source.story = story) ↔
      (∃ source ∈ (into.find? name).getD [], source.story = story) ∨
        ∃ sources, (name, sources) ∈ others ∧ ∃ source ∈ sources, source.story = story := by
  induction others generalizing into with
  | nil => simp [mergeSources]
  | cons first rest ih =>
      obtain ⟨argument, added⟩ := first
      rw [mergeSources, ih, Catalog.find?_insert]
      by_cases hName : name = argument
      · subst hName
        rw [if_pos rfl, Option.getD_some, exists_mem_addSources_iff, or_assoc]
        simp only [List.mem_cons, Prod.mk.injEq, true_and, or_and_right, exists_or,
          exists_eq_left]
      · rw [if_neg hName]
        simp [hName]

theorem hasSource_absorb_iff {c other : Contract} {name : String} {story : StoryName} :
    (c.absorb other).HasSource name story ↔
      c.HasSource name story ∨ other.HasSource name story := by
  unfold HasSource sourcesOf absorb
  rw [hasSource_mergeSources_iff]
  -- the entries of a table are what it has for each name
  simp only [← Catalog.find?_eq_some_iff]
  cases other.sources.find? name <;> simp

theorem Covers.absorb_left {c other : Contract} {stories : List Story} (h : c.Covers stories) :
    (c.absorb other).Covers stories := fun story hStory name hName =>
  hasSource_absorb_iff.mpr (.inl (h story hStory name hName))

theorem Covers.absorb_right {c other : Contract} {stories : List Story}
    (h : other.Covers stories) : (c.absorb other).Covers stories := fun story hStory name hName =>
  hasSource_absorb_iff.mpr (.inr (h story hStory name hName))

theorem Covers.foldl_absorb {c : Contract} {stories : List Story} (h : c.Covers stories)
    (rest : List Contract) : (rest.foldl absorb c).Covers stories := by
  induction rest generalizing c with
  | nil => exact h
  | cons other rest ih => exact ih h.absorb_left

/-- Combining contracts leaves the first with the coverage of both. -/
theorem Covers.combine {parent child parent' child' : Contract} {stories others : List Story}
    (hParent : parent.Covers stories) (hChild : child.Covers others)
    (h : parent.combine child = .ok (parent', child')) : parent'.Covers (stories ++ others) := by
  have hBoth : (parent.absorb child).Covers (stories ++ others) :=
    hParent.absorb_left.append hChild.absorb_right
  obtain ⟨-, rfl, rfl | rfl⟩ := combine_cases h
  · exact hBoth
  · exact hBoth

end Contract

namespace Draft

theorem covers_finish {d : Draft β} {stories : List Story} (h : d.root.Covers stories) :
    d.finish.root.Covers stories := by
  rw [root_finish]
  split
  · exact h
  · exact h.foldl_absorb d.inner

/-- The contract of a draft covers all stories that are gathered. -/
theorem Gathers.covers {scenes : Scenes β} {d d' : Draft β} (h : d.Gathers scenes d')
    {known : List Story} (hKnown : d.root.Covers known) :
    d'.root.Covers (known ++ scenes.stories) := by
  induction h generalizing known with
  | done =>
      rw [Scenes.stories, List.append_nil]
      exact hKnown
  | step _ ih => exact ih hKnown
  | parallel _ ih => exact ih hKnown
  | @story d d' c₀ c _ definition _ inner rest _ _ _ hStart _ hCombine _ _ ihInner ih =>
      obtain ⟨alone, hAlone, rfl⟩ := start_eq_ok hStart
      have hChild := covers_finish (ihInner (Contract.covers_of_contract hAlone))
      have hRest := ih (hKnown.combine hChild hCombine)
      rw [Scenes.stories]
      simpa using hRest

end Draft

/-- In a composition with schemas every contract covers all stories. -/
theorem Mounts.covers {cast : Cast β} {tree : StoryTree β} {plan : Plan β}
    (h : Mounts cast tree plan) (hSchema : tree.definition.spec.isSome = true) {c : Contract}
    (hc : c ∈ plan.contracts) : c.Covers tree.stories := by
  obtain ⟨d₀, d, hStart, hGathers, rfl⟩ := h.gathered
  have hContracts := hGathers.contracts
  obtain ⟨alone, hAlone, rfl⟩ := Draft.start_eq_ok hStart
  have hOf : d.root.IsOf tree.definition := ⟨alone, hAlone, hContracts.root⟩
  have hNotNull := hOf.isNull_eq_false_iff.mpr hSchema
  have hDraft : d.root.Covers tree.stories :=
    hGathers.covers (Contract.covers_of_contract hAlone)
  have hRoot := hDraft.foldl_absorb d.inner
  rw [Draft.contracts_finish, Contract.sync, hNotNull, if_neg Bool.false_ne_true] at hc
  rcases List.mem_cons.mp hc with rfl | hc
  · exact hRoot
  · -- the other contracts have their sources from the first
    obtain ⟨other, -, rfl⟩ := List.mem_map.mp hc
    exact hRoot.absorb_right

/-! ## Values that are rejected -/

/-- A story rejects a value for one of its arguments. -/
def Story.Rejects (story : Story) (name : String) (value : Json) : Prop :=
  name ∈ story.arguments ∧ ∃ spec violation,
    story.spec = some spec ∧ spec.validate name value = .error violation

/-- What is related member by member has something related to each member. -/
theorem exists_rel_of_mem {α γ : Type} {R : α → γ → Prop} {list : List α} {others : List γ}
    (h : List.Forall₂ R list others) {a : α} (ha : a ∈ list) : ∃ b ∈ others, R a b := by
  induction h with
  | nil => cases ha
  | cons hFirst _ ih =>
      rcases List.mem_cons.mp ha with rfl | ha
      · exact ⟨_, List.mem_cons_self, hFirst⟩
      · obtain ⟨b, hb, hRel⟩ := ih ha
        exact ⟨b, List.mem_cons_of_mem _ hb, hRel⟩

namespace Contract

/-- A contract refuses a value when one of the validators it runs rejects the value. -/
def Refuses (c : Contract) (name : String) (value : Json) : Prop :=
  ∃ validator ∈ c.validatorsOf name, ∃ violation,
    validator.2.validate value = .error violation

/-- A sound contract refuses what all stories with some name reject, if it covers one of them. -/
theorem Sound.refuses {c : Contract} {stories : List Story} (h : c.Sound stories)
    (hCovers : c.Covers stories) {story : Story} (hStory : story ∈ stories) {name : String}
    {value : Json} (hName : name ∈ story.arguments)
    (hRejects : ∀ other ∈ stories, other.name = story.name → name ∈ other.arguments →
      other.Rejects name value) : c.Refuses name value := by
  obtain ⟨source, hSource, hSame⟩ := hCovers story hStory name hName
  -- the source is that of some story with the name
  obtain ⟨other, hOther, hOwner, hArgument, hValidator⟩ := h.exists_standsFor hSource
  obtain ⟨-, spec, violation, hSpec, hViolation⟩ :=
    hRejects other hOther (hOwner.symm.trans hSame) hArgument
  rw [hSpec] at hValidator
  obtain ⟨field, hField, hValidator⟩ := hValidator
  have hFound : spec.fields.find? name = some field :=
    lookup_eq_some_of_mem spec.fields.distinct hField
  rw [Spec.validate, hFound] at hViolation
  -- its field is among the validators
  have hRegistered : field ∈ c.registered name :=
    List.mem_append_right _ (List.mem_filterMap.mpr ⟨source, hSource, hValidator⟩)
  rw [← map_validatorsOf h.declared] at hRegistered
  obtain ⟨validator, hMem, rfl⟩ := List.mem_map.mp hRegistered
  exact ⟨validator, hMem, violation, hViolation⟩

/-- A value that is refused is not judged. -/
theorem Refuses.not_judged {c : Contract} {name : String} {value : Json}
    (h : c.Refuses name value) {given kept : List (String × Json)}
    (hGiven : (name, value) ∈ given) : ¬ List.Forall₂ c.Judged given kept := by
  intro hJudged
  obtain ⟨validator, hMem, violation, hViolation⟩ := h
  obtain ⟨_, -, hOne⟩ := exists_rel_of_mem hJudged hGiven
  obtain ⟨form, hForm, -⟩ := hOne.accepts validator hMem
  cases hForm.symm.trans hViolation

theorem Refuses.checkCall_eq_error {c : Contract} {name : String} {value : Json}
    (h : c.Refuses name value) (hNotNull : c.isNull = false) {values : Bindings}
    (hGiven : values.find? name = some value) : ∃ cause, c.checkCall values = .error cause := by
  cases hCheck : c.checkCall values with
  | error cause => exact ⟨cause, rfl⟩
  | ok kept =>
      obtain ⟨-, hJudged⟩ := checkCall_eq_ok hCheck
      exact absurd (hJudged hNotNull) (h.not_judged (mem_of_lookup_eq_some hGiven))

theorem Refuses.checkOutput_eq_error {c : Contract} {name : String} {value : Json}
    (h : c.Refuses name value) (hNotNull : c.isNull = false) {values : Bindings}
    (hGiven : values.find? name = some value) (step : String) (ctx : Context) :
    ∃ cause, c.checkOutput step ctx values = .error cause := by
  cases hCheck : c.checkOutput step ctx values with
  | error cause => exact ⟨cause, rfl⟩
  | ok kept =>
      obtain ⟨-, -, hJudged⟩ := checkOutput_eq_ok hCheck
      exact absurd (hJudged hNotNull).2 (h.not_judged (mem_of_lookup_eq_some hGiven))

end Contract

section

variable {cast : Cast β} {tree : StoryTree β} {story : Story} {name : String} {value : Json}

/-- All contracts of a composition refuse what every story with some name rejects. -/
theorem Mounts.refuses {plan : Plan β} (h : Mounts cast tree plan) (hStory : story ∈ tree.stories)
    (hRejects : story.Rejects name value)
    (hNamesakes : ∀ other ∈ tree.stories, other.name = story.name → name ∈ other.arguments →
      other.Rejects name value) {c : Contract} (hc : c ∈ plan.contracts) :
    c.Refuses name value ∧ c.isNull = false := by
  obtain ⟨hName, spec, -, hSpec, -⟩ := hRejects
  have hSchema : tree.definition.spec.isSome = true := by
    rw [← h.isSome_spec hStory, hSpec]
    rfl
  obtain ⟨other, hOther, hOf⟩ := exists_rel_of_mem h.contracts_of hc
  exact ⟨(h.sound hc).refuses (h.covers hSchema hc) hStory hName hNamesakes,
    hOf.isNull_eq_false_iff.mpr ((h.isSome_spec hOther).trans hSchema)⟩

/-- Whatever is done in a call with arguments that the contract does not accept, no step is
performed. -/
theorem Mounted.invoke_eq_error {m : Mounted β} {arguments : Bindings} {cause : ContractError}
    (h : m.plan.root.checkCall arguments = .error cause) (calling : Calling) :
    ∃ error, ∀ perform : β → Context → Reply,
      m.invoke perform calling arguments = .error error := by
  have hPlan : ∀ perform : β → Context → Reply,
      m.plan.invoke perform calling m.settings.reprWidth arguments = .error cause := by
    intro perform
    rw [Plan.invoke, h]
  by_cases hMode : calling = .blocking ∧ m.plan.mode = .coroutine
  · obtain ⟨rfl, hCoroutine⟩ := hMode
    refine ⟨.definition (.coroutineStory m.plan.qualified), fun perform => ?_⟩
    simp only [Mounted.invoke, hCoroutine]
  · refine ⟨.contract cause, fun perform => ?_⟩
    unfold Mounted.invoke
    split
    · next hBlocking hCoroutine => exact absurd ⟨rfl, hCoroutine⟩ hMode
    · rw [hPlan]
      rfl

/-- **What a story rejects is rejected everywhere**, unless another story of the same name accepts
it: a call with the value is refused before any step is performed, and so is the value from any
step. -/
theorem Mounts.rejected {m : Mounted β} (h : Mounts cast tree m.plan)
    (hStory : story ∈ tree.stories) (hRejects : story.Rejects name value)
    (hNamesakes : ∀ other ∈ tree.stories, other.name = story.name → name ∈ other.arguments →
      other.Rejects name value) :
    (∀ calling (arguments : Bindings), arguments.find? name = some value →
      ∃ cause, ∀ (perform : β → Context → Reply) (α : Type)
        (finish : Context → Ending → Except StoryError α),
        m.answer perform calling arguments finish = { result := .error cause, events := [] }) ∧
    ∀ i ∈ m.plan.instructions, ∀ s ∈ i.steps, ∀ number, i.number? = some number →
      ∀ (r : Run) (values : Bindings), values.find? name = some value →
        ∃ c cause, m.plan.contracts[number]? = some c ∧
          c.checkOutput s.qualified r.ctx values = .error cause ∧
          r.commit m.plan s number values = r.err (.contract cause) := by
  have hRefuses : ∀ c ∈ m.plan.contracts, c.Refuses name value ∧ c.isNull = false :=
    fun c hc => h.refuses hStory hRejects hNamesakes hc
  constructor
  · intro calling arguments hGiven
    obtain ⟨hRefused, hNotNull⟩ := hRefuses m.plan.root List.mem_cons_self
    obtain ⟨cause, hCheck⟩ := hRefused.checkCall_eq_error hNotNull hGiven
    obtain ⟨error, hInvoke⟩ := Mounted.invoke_eq_error hCheck calling
    refine ⟨error, fun perform α finish => ?_⟩
    rw [Mounted.answer, hInvoke]
  · intro i hi s _ number hNumber r values hGiven
    rw [h.instructions_eq] at hi
    obtain ⟨⟨owner, _⟩, hScore, rfl⟩ := List.mem_map.mp hi
    obtain ⟨c, hContract, -⟩ := h.exists_contract hScore hNumber
    obtain ⟨hRefused, hNotNull⟩ := hRefuses c (List.mem_of_getElem? hContract)
    obtain ⟨cause, hCheck⟩ := hRefused.checkOutput_eq_error hNotNull hGiven s.qualified r.ctx
    exact ⟨c, cause, hContract, hCheck, Run.commit_of_error hContract hCheck⟩

end

/-! ## An example

In an office there are two objects of a class called `Form`. Whoever fills in a form has it checked
in the archive, where only numbers pass for an age. -/

namespace Office

open Shop (Body answer)

def number : Json → Except Violation Json
  | .number n => .ok (.number n)
  | _ => .error (.because "not a number")

/-- A schema in which everything passes for an age. -/
def lax : Spec where
  identity := 0
  family := .raw
  name := "Lax"
  fields := .ofList [("age", ⟨"anything", .ok⟩)]

/-- A schema in which only numbers pass for an age. -/
def strict : Spec where
  identity := 1
  family := .raw
  name := "Strict"
  fields := .ofList [("age", ⟨"a number", number⟩)]

/-- A story about an age, with one entry. -/
def form (name : String) (entry : String) (spec : Spec) : Story where
  name := ⟨"Form", name⟩
  arguments := ["age"]
  collected := [.step entry]
  spec := some spec
  failures := none

/-- The check in the archive. -/
def check : Story := form "check" "count" strict

/-- The form is filled in and then checked. -/
def fill : Story := form "fill" "verify" lax

/-- The check at the desk, which comes to that in the archive. -/
def glance : Story := form "check" "verify" lax

def count : Step Body where
  name := "count"
  owner := "Form"
  mode := .function
  body := .ok (.result .null)

def cast : Cast Body :=
  .ofList [("desk", {
      className := "Form"
      members := .ofList [("verify", .story (.ok check) "archive")] }),
    ("archive", {
      className := "Form"
      members := .ofList [("count", .step count)] })]

/-- A story at the desk that has the form checked in the archive. -/
def tree (story : Story) : StoryTree Body :=
  ⟨story, "desk", .story "verify" check "archive" (.step count .done) .done⟩

def filled : Mounted Body := { plan := (Plan.compile cast fill "desk").toOption.get rfl }

def glanced : Mounted Body := { plan := (Plan.compile cast glance "desk").toOption.get rfl }

theorem filled_mounts : Mounts cast (tree fill) filled.plan where
  compiled := rfl
  unfolds := .story (.step .done) .done

theorem glanced_mounts : Mounts cast (tree glance) glanced.plan where
  compiled := rfl
  unfolds := .story (.step .done) .done

theorem check_rejects : check.Rejects "age" (.string "old") :=
  ⟨List.mem_cons_self, strict, _, rfl, rfl⟩

def arguments : Bindings := .ofList [("age", .string "old")]

/-- A form with a word for the age is not filled in. -/
theorem checked : ∃ cause, filled.call answer .blocking arguments =
    { result := .error cause, events := [] } := by
  have hNamesakes : ∀ other ∈ (tree fill).stories, other.name = check.name →
      "age" ∈ other.arguments → other.Rejects "age" (.string "old") := by
    intro other hOther hName _
    have hBoth : other = fill ∨ other = check := by
      simpa [tree, StoryTree.stories, Scenes.stories] using hOther
    rcases hBoth with rfl | rfl
    · exact absurd hName (by decide)
    · exact check_rejects
  obtain ⟨hCalls, -⟩ := filled_mounts.rejected (by simp [tree, StoryTree.stories, Scenes.stories])
    check_rejects hNamesakes
  obtain ⟨cause, hRefused⟩ := hCalls .blocking arguments rfl
  exact ⟨cause, hRefused answer Json _⟩

/-- The check at the desk lets the word pass, although the check in the archive rejects it: its
validator is lost, as the two stories have the same name. -/
theorem unchecked : Mounts cast (tree glance) glanced.plan ∧ check ∈ (tree glance).stories ∧
    check.Rejects "age" (.string "old") ∧ arguments.find? "age" = some (.string "old") ∧
    (glanced.call answer .blocking arguments).result = .ok .null := by
  refine ⟨glanced_mounts, ?_, check_rejects, rfl, rfl⟩
  simp [tree, StoryTree.stories, Scenes.stories]

end Office

end Storyline
