import Storyline.Proofs.Sources

/-!
# Variables that are kept apart

Stories with schemas of one family compose unless a variable is declared twice, while stories with
one schema share its variables. A contract learns of the variables below a substory only if the
substory has another schema than the story around it. So what is compared are the stories
*announced* to a story (`StoryTree.announced`): the story itself, and for each substory with
another schema all that is announced to that one.

A tree mounts only if the stories announced to any of its stories are apart
(`Mounts.announced_apart`). A repetition goes unnoticed when one of the two stories lies below a
substory that shares the schema of the story around it (`Kitchen.salted_twice`).
-/

set_option autoImplicit false

namespace Storyline

variable {β : Type}

/-! ## Schemas and variables of stories -/

/-- Whether two schemas are one and the same, or there is none on both sides. -/
def Spec.areOne : Option Spec → Option Spec → Bool
  | none, none => true
  | some a, some b => a.sameAs b
  | _, _ => false

namespace Story

/-- Whether two stories have one and the same schema, or both have none. -/
def sharesSchema (s t : Story) : Bool := Spec.areOne s.spec t.spec

/-- The variables of a story, in the order of its schema. -/
def variableNames (story : Story) : List String :=
  match story.spec with
  | none => []
  | some spec => spec.fields.names.filter fun name => !story.arguments.contains name

theorem declaresVariable_iff {story : Story} {name : String} :
    story.DeclaresVariable name ↔ name ∈ story.variableNames := by
  unfold DeclaresVariable variableNames
  cases story.spec with
  | none => simp
  | some spec => simp

instance (story : Story) (name : String) : Decidable (story.DeclaresVariable name) :=
  decidable_of_iff _ declaresVariable_iff.symm

/-- Two stories are apart when no variable is declared by both. -/
def Apart (s t : Story) : Prop := ∀ name, s.DeclaresVariable name → ¬ t.DeclaresVariable name

instance (s t : Story) : Decidable (s.Apart t) :=
  decidable_of_iff (∀ name ∈ s.variableNames, name ∉ t.variableNames)
    (by simp only [Apart, declaresVariable_iff])

end Story

/-! ## The stories that are compared -/

/-- The stories among some scenes that are announced to the story around them: a substory with
another schema, and all that is announced to that substory. -/
def Scenes.announced (around : Story) : Scenes β → List Story
  | .done => []
  | .step _ rest => rest.announced around
  | .parallel _ rest => rest.announced around
  | .story _ definition _ inner rest =>
      (if around.sharesSchema definition then [] else definition :: inner.announced definition) ++
        rest.announced around

/-- The stories that are announced to the story of a tree, and itself. -/
def StoryTree.announced (tree : StoryTree β) : List Story :=
  tree.definition :: tree.scenes.announced tree.definition

/-- The trees of all substories among some scenes, at any depth. -/
def Scenes.subtrees : Scenes β → List (StoryTree β)
  | .done => []
  | .step _ rest => rest.subtrees
  | .parallel _ rest => rest.subtrees
  | .story _ definition owner inner rest =>
      ⟨definition, owner, inner⟩ :: (inner.subtrees ++ rest.subtrees)

/-- A tree and the trees of all its substories. -/
def StoryTree.subtrees (tree : StoryTree β) : List (StoryTree β) :=
  tree :: tree.scenes.subtrees

theorem Scenes.announced_subset (scenes : Scenes β) (around : Story) :
    scenes.announced around ⊆ scenes.stories := by
  induction scenes generalizing around with
  | done => exact List.nil_subset _
  | step _ _ ih => exact ih around
  | parallel _ _ ih => exact ih around
  | story name definition owner inner rest ihInner ih =>
      rw [announced, stories]
      intro story hStory
      rcases List.mem_append.mp hStory with hHere | hRest
      · split at hHere
        · cases hHere
        rcases List.mem_cons.mp hHere with rfl | hInner
        · exact List.mem_cons_self
        · exact List.mem_cons_of_mem _ (List.mem_append_left _ (ihInner definition hInner))
      · exact List.mem_cons_of_mem _ (List.mem_append_right _ (ih around hRest))

theorem StoryTree.announced_subset (tree : StoryTree β) : tree.announced ⊆ tree.stories :=
  List.cons_subset_cons _ (tree.scenes.announced_subset tree.definition)

theorem Scenes.stories_subset_of_mem_subtrees {scenes : Scenes β} {sub : StoryTree β}
    (h : sub ∈ scenes.subtrees) : sub.stories ⊆ scenes.stories := by
  induction scenes with
  | done => cases h
  | step _ _ ih => exact ih h
  | parallel _ _ ih => exact ih h
  | story name definition owner inner rest ihInner ih =>
      rw [stories]
      rcases List.mem_cons.mp h with rfl | h
      · exact List.cons_subset_cons _ (List.subset_append_left _ _)
      rcases List.mem_append.mp h with hInner | hRest
      · exact fun _ hIn => List.mem_cons_of_mem _ (List.mem_append_left _ (ihInner hInner hIn))
      · exact fun _ hIn => List.mem_cons_of_mem _ (List.mem_append_right _ (ih hRest hIn))

theorem StoryTree.stories_subset_of_mem_subtrees {tree sub : StoryTree β}
    (h : sub ∈ tree.subtrees) : sub.stories ⊆ tree.stories := by
  rcases List.mem_cons.mp h with rfl | h
  · exact List.Subset.refl _
  · exact fun _ hIn => List.mem_cons_of_mem _ (Scenes.stories_subset_of_mem_subtrees h hIn)

/-! ## The variables a contract knows of -/

namespace Contract

/-- A contract knows of the variables of some stories, and of no others. -/
def Knows (c : Contract) (stories : List Story) : Prop :=
  ∀ name, name ∈ c.declared.names ↔ ∃ story ∈ stories, story.DeclaresVariable name

/-- The contract of a story alone knows of the variables of the story. -/
theorem knows_of_contract {story : Story} {c : Contract} (h : story.contract = .ok c) :
    c.Knows [story] := by
  intro name
  simp only [List.mem_singleton, exists_eq_left]
  rcases build_cases h with ⟨hSpec, rfl⟩ | ⟨spec, hSpec, rfl⟩
  · constructor
    · intro hName
      cases hName
    · rintro ⟨spec, hSome, -⟩
      rw [hSpec] at hSome
      cases hSome
  · show name ∈ (Catalog.ofList _).names ↔ _
    rw [Catalog.mem_names_ofList, List.map_map]
    constructor
    · intro hName
      obtain ⟨⟨field, value⟩, hField, rfl⟩ := List.mem_map.mp hName
      obtain ⟨hField, hArgument⟩ := mem_of_partition.2.mp hField
      exact ⟨spec, hSpec, List.mem_map_of_mem hField, hArgument⟩
    · rintro ⟨_, hSome, hName, hArgument⟩
      obtain rfl := Option.some.inj (hSpec.symm.trans hSome)
      obtain ⟨⟨field, value⟩, hField, rfl⟩ := List.mem_map.mp hName
      exact List.mem_map.mpr ⟨(field, value), mem_of_partition.2.mpr ⟨hField, hArgument⟩, rfl⟩

/-- Contracts that know of apart stories know of no variable in common, and the other way. -/
theorem Knows.disjoint_iff {c other : Contract} {stories others : List Story}
    (h : c.Knows stories) (hOther : other.Knows others) :
    (∀ name ∈ c.declared.names, name ∉ other.declared.names) ↔
      ∀ s ∈ stories, ∀ t ∈ others, s.Apart t := by
  constructor
  · intro hDisjoint s hs t ht name hHere hThere
    exact hDisjoint name ((h name).mpr ⟨s, hs, hHere⟩) ((hOther name).mpr ⟨t, ht, hThere⟩)
  · intro hApart name hHere hThere
    obtain ⟨s, hs, hHere⟩ := (h name).mp hHere
    obtain ⟨t, ht, hThere⟩ := (hOther name).mp hThere
    exact hApart s hs t ht name hHere hThere

theorem repeatedVariables_eq_nil_iff {parent child : Contract} :
    repeatedVariables parent child = [] ↔
      ∀ name ∈ parent.declared.names, name ∉ child.declared.names := by
  unfold repeatedVariables
  rw [List.filterMap_eq_nil_iff]
  constructor
  · intro h name hName hChild
    obtain ⟨⟨name, ours⟩, hEntry, rfl⟩ := List.mem_map.mp hName
    have hNone := h _ hEntry
    rw [Option.map_eq_none_iff] at hNone
    rw [← Catalog.find?_isSome_iff, hNone] at hChild
    cases hChild
  · rintro h ⟨name, ours⟩ hEntry
    have hChild := h name (List.mem_map_of_mem hEntry)
    rw [← Catalog.find?_isSome_iff, Option.not_isSome_iff_eq_none] at hChild
    rw [Option.map_eq_none_iff]
    exact hChild

/-- Sharing arguments leaves the variables that are known. -/
theorem declared_foldl_absorb (rest : List Contract) (c : Contract) :
    (rest.foldl absorb c).declared = c.declared := by
  induction rest generalizing c with
  | nil => rfl
  | cons other rest ih => exact ih (c.absorb other)

theorem areOne_spec_iff {parent child : Contract} :
    Spec.areOne parent.spec child.spec = true ↔
      parent.schemaRelation child = .null ∨ parent.schemaRelation child = .shared := by
  unfold schemaRelation Spec.areOne
  cases parent.spec with
  | none => cases child.spec <;> simp
  | some a =>
      cases child.spec with
      | none => simp
      | some b =>
          by_cases hSame : a.sameAs b = true
          · simp [hSame]
          · by_cases hFamily : a.family = b.family
            · simp [hSame, hFamily]
            · simp [hSame, hFamily]

theorem areOne_of_family {parent child : Contract} (h : parent.schemaRelation child = .family) :
    Spec.areOne parent.spec child.spec = false := by
  refine Bool.eq_false_iff.mpr fun hOne => ?_
  have hRelation := areOne_spec_iff.mp hOne
  simp [h] at hRelation

/-- Combining contracts with one schema leaves the variables that are known. Otherwise no variable
may be known to both, and the first contract gets to know of those of the other. -/
theorem declared_combine {parent child parent' child' : Contract}
    (h : parent.combine child = .ok (parent', child')) :
    (Spec.areOne parent.spec child.spec = true ∧ parent'.declared = parent.declared) ∨
      (Spec.areOne parent.spec child.spec = false ∧
        (∀ name ∈ parent.declared.names, name ∉ child.declared.names) ∧
        ∀ name, name ∈ parent'.declared.names ↔
          name ∈ parent.declared.names ∨ name ∈ child.declared.names) := by
  cases combines_of_ok h with
  | one hOne => exact .inl ⟨areOne_spec_iff.mpr hOne, rfl⟩
  | family hFamily hNone =>
      exact .inr ⟨areOne_of_family hFamily, repeatedVariables_eq_nil_iff.mp hNone,
        fun name => Catalog.mem_names_foldl_insert⟩

/-- Combining fails because the schemas do not go together, or because contracts with different
schemas know of a variable in common. -/
theorem combine_eq_error {parent child : Contract} {cause : ContractError}
    (h : parent.combine child = .error cause) :
    cause = .incompatibleTypes parent.story parent.familyName child.story child.familyName ∨
      Spec.areOne parent.spec child.spec = false ∧
        ¬ ∀ name ∈ parent.declared.names, name ∉ child.declared.names := by
  have hCombines := combines_combination parent child
  have hRefused : (combination parent child).result = .error cause := by
    rw [combination_of_error h]
  generalize combination parent child = after at hCombines hRefused
  cases hCombines with
  | one _ => cases hRefused
  | family _ _ => cases hRefused
  | repeated hFamily hRepeated =>
      refine .inr ⟨areOne_of_family hFamily, fun hDisjoint => ?_⟩
      simp [repeatedVariables_eq_nil_iff.mpr hDisjoint] at hRepeated
  | incompatible _ => exact .inl (Except.error.inj hRefused).symm

end Contract

namespace Draft

/-- A draft knows of the variables of some stories, which are apart. -/
structure Knows (d : Draft β) (stories : List Story) : Prop where
  spec : d.root.spec = d.story.spec
  root : d.root.Knows stories
  apart : stories.Pairwise Story.Apart

theorem knows_of_start {story : Story} {owner : OwnerId} {d : Draft β}
    (h : start story owner = .ok d) : d.Knows [story] := by
  obtain ⟨root, hRoot, rfl⟩ := start_eq_ok h
  obtain ⟨-, -, hSpec⟩ := Contract.build_eq_ok hRoot
  exact ⟨hSpec, Contract.knows_of_contract hRoot, List.pairwise_singleton _ _⟩

theorem spec_root_finish (d : Draft β) : d.finish.root.spec = d.root.spec := by
  rw [root_finish]
  split
  · rfl
  · exact congrArg (·.2.2.1) (Contract.own_foldl_absorb d.inner d.root)

/-- Finishing a draft leaves what its contract knows of. -/
theorem Knows.finish {d : Draft β} {stories : List Story} (h : d.Knows stories) :
    d.finish.root.Knows stories := by
  intro name
  rw [root_finish]
  split
  · exact h.root name
  · rw [Contract.declared_foldl_absorb]
    exact h.root name

/-- The contracts that are combined have one schema when their stories have. -/
theorem Knows.areOne_spec {d c : Draft β} {known stories : List Story} (h : d.Knows known)
    (hChild : c.Knows stories) :
    Spec.areOne d.root.spec c.finish.root.spec = d.story.sharesSchema c.story := by
  rw [spec_root_finish, h.spec, hChild.spec]
  rfl

/-- A draft gets to know of the stories announced to a substory with another schema, which have to
be apart from those it knows. -/
theorem Knows.withPlan {d c : Draft β} {known stories : List Story} {name : String}
    {root childRoot : Contract} {failures : Option Failures} (h : d.Knows known)
    (hChild : c.Knows stories) (hCombine : d.root.combine c.finish.root = .ok (root, childRoot)) :
    (d.withPlan name c.finish root childRoot failures).Knows
      (known ++ if d.story.sharesSchema c.story then [] else stories) := by
  have hSpec : root.spec = d.root.spec := congrArg (·.2.2.1) (Contract.own_combine hCombine).1
  have hSchemas := h.areOne_spec hChild
  rcases Contract.declared_combine hCombine with ⟨hOne, hDeclared⟩ | ⟨hTwo, hDisjoint, hNames⟩
  · rw [← hSchemas, if_pos hOne, List.append_nil]
    refine ⟨hSpec.trans h.spec, fun name => ?_, h.apart⟩
    show name ∈ root.declared.names ↔ _
    rw [hDeclared]
    exact h.root name
  · rw [← hSchemas, hTwo, if_neg Bool.false_ne_true]
    refine ⟨hSpec.trans h.spec, fun name => ?_, ?_⟩
    · show name ∈ root.declared.names ↔ _
      rw [hNames, h.root, hChild.finish]
      simp only [List.mem_append, or_and_right, exists_or]
    · rw [List.pairwise_append]
      exact ⟨h.apart, hChild.apart, (h.root.disjoint_iff hChild.finish).mp hDisjoint⟩

/-- A draft gets to know of the stories announced among the scenes it gathers, and the stories
announced to each substory are apart. -/
theorem Gathers.knows {scenes : Scenes β} {d d' : Draft β} (h : d.Gathers scenes d')
    {known : List Story} (hKnows : d.Knows known) :
    d'.Knows (known ++ scenes.announced d.story) ∧
      ∀ sub ∈ scenes.subtrees, sub.announced.Pairwise Story.Apart := by
  induction h generalizing known with
  | done =>
      rw [Scenes.announced, List.append_nil]
      exact ⟨hKnows, fun _ hSub => by cases hSub⟩
  | step _ ih => exact ih ⟨hKnows.spec, hKnows.root, hKnows.apart⟩
  | parallel _ ih => exact ih ⟨hKnows.spec, hKnows.root, hKnows.apart⟩
  | @story d d' c₀ c _ definition _ inner rest _ _ _ hStart hGathers hCombine _ _ ihInner ih =>
      obtain ⟨hChild, hBelow⟩ := ihInner (knows_of_start hStart)
      have hStory := story_of_start hStart
      have hPlace : c.story = definition := hGathers.place_eq.1.trans hStory
      rw [hStory] at hChild
      obtain ⟨hKnown, hRest⟩ := ih (hKnows.withPlan hChild hCombine)
      rw [hPlace, List.append_assoc] at hKnown
      refine ⟨hKnown, fun sub hSub => ?_⟩
      rcases List.mem_cons.mp hSub with rfl | hSub
      · exact hChild.apart
      rcases List.mem_append.mp hSub with hIn | hOut
      · exact hBelow sub hIn
      · exact hRest sub hOut

end Draft

/-- **What a composition keeps apart**: two stories that are announced to the same story of a tree
that mounts have no variable in common. -/
theorem Mounts.announced_apart {cast : Cast β} {tree sub : StoryTree β} {plan : Plan β}
    (h : Mounts cast tree plan) (hSub : sub ∈ tree.subtrees) :
    sub.announced.Pairwise Story.Apart := by
  obtain ⟨d₀, d, hStart, hGathers, rfl⟩ := h.gathered
  obtain ⟨hKnows, hBelow⟩ := hGathers.knows (Draft.knows_of_start hStart)
  rw [Draft.story_of_start hStart] at hKnows
  rcases List.mem_cons.mp hSub with rfl | hSub
  · exact hKnows.apart
  · exact hBelow sub hSub

/-! ## An example

In a kitchen a soup is served with the schema of the whole meal, and made from a broth with a
schema of its own. -/

namespace Kitchen

open Shop (Body)

/-- A schema with one field that takes everything. -/
def spec (identity : Nat) (name field : String) : Spec where
  identity := identity
  family := .raw
  name := name
  fields := .ofList [(field, ⟨"a measure", .ok⟩)]

def table : Spec := spec 0 "Table" "guests"

def stock : Spec := spec 1 "Stock" "salt"

def greens : Spec := spec 2 "Greens" "salt"

/-- A story without arguments and failures. -/
def story (name : String) (spec : Spec) (collected : List String) : Story where
  name := ⟨"Kitchen", name⟩
  arguments := []
  collected := collected.map .step
  spec := some spec
  failures := none

def broth : Story := story "broth" stock ["boil"]

def salad : Story := story "salad" greens ["toss"]

def soup : Story := story "soup" table ["broth"]

/-- Broth twice, once within the soup. -/
def supper : Story := story "supper" table ["soup", "broth"]

/-- Broth in the soup, and a salad. -/
def meal : Story := story "meal" table ["soup", "salad"]

def step (name : String) : Step Body where
  name := name
  owner := "Kitchen"
  mode := .function
  body := .ok (.success .empty)

def cast : Cast Body :=
  .ofList [("kitchen", {
    className := "Kitchen"
    members := .ofList [("boil", .step (step "boil")), ("toss", .step (step "toss")),
      ("broth", .story (.ok broth) "kitchen"), ("salad", .story (.ok salad) "kitchen"),
      ("soup", .story (.ok soup) "kitchen"), ("first", .story (.ok salad) "kitchen"),
      ("second", .story (.ok salad) "kitchen")] })]

/-- The broth, and what comes after it. -/
def brothScenes (rest : Scenes Body) : Scenes Body :=
  .story "broth" broth "kitchen" (.step (step "boil") .done) rest

/-- A salad under some name, and what comes after it. -/
def saladScenes (name : String) (rest : Scenes Body) : Scenes Body :=
  .story name salad "kitchen" (.step (step "toss") .done) rest

def supperTree : StoryTree Body :=
  ⟨supper, "kitchen", .story "soup" soup "kitchen" (brothScenes .done) (brothScenes .done)⟩

def mealTree : StoryTree Body :=
  ⟨meal, "kitchen", .story "soup" soup "kitchen" (brothScenes .done) (saladScenes "salad" .done)⟩

def supperPlan : Plan Body := (Plan.compile cast supper "kitchen").toOption.get rfl

def mealPlan : Plan Body := (Plan.compile cast meal "kitchen").toOption.get rfl

theorem supper_mounts : Mounts cast supperTree supperPlan where
  compiled := rfl
  unfolds := .story (.story (.step .done) .done) (.story (.step .done) .done)

theorem meal_mounts : Mounts cast mealTree mealPlan where
  compiled := rfl
  unfolds := .story (.story (.step .done) .done) (.story (.step .done) .done)

/-- The supper is apart from the broth beside the soup, and the soup from that within it. -/
theorem supper_apart : supper.Apart broth ∧ soup.Apart broth := by
  have hSoup : (⟨soup, "kitchen", brothScenes .done⟩ : StoryTree Body) ∈ supperTree.subtrees :=
    List.mem_cons_of_mem _ List.mem_cons_self
  have hOuter := supper_mounts.announced_apart List.mem_cons_self
  have hInner := supper_mounts.announced_apart hSoup
  exact ⟨List.rel_of_pairwise_cons hOuter List.mem_cons_self,
    List.rel_of_pairwise_cons hInner List.mem_cons_self⟩

/-- The meal mounts, although broth and salad both declare the salt by schemas of their own: the
meal has one schema with the soup, and does not hear of the broth within it. -/
theorem salted_twice : Mounts cast mealTree mealPlan ∧ broth ∈ mealTree.stories ∧
    salad ∈ mealTree.stories ∧ broth.sharesSchema salad = false ∧
    broth.DeclaresVariable "salt" ∧ salad.DeclaresVariable "salt" := by
  refine ⟨meal_mounts, ?_, ?_, rfl, by decide, by decide⟩
  · simp [mealTree, StoryTree.stories, Scenes.stories, brothScenes]
  · simp [mealTree, StoryTree.stories, Scenes.stories, brothScenes, saladScenes]

end Kitchen

end Storyline
