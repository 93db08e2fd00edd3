import Mathlib.Data.List.Forall2
import Storyline.Proofs.Tree
import Storyline.Proofs.Vocabulary

/-!
# What a composition keeps of its stories

A plan has one contract for each story of its tree, in the order in which the stories start
(`Mounts.contracts_of`): combining and sharing contracts adds sources and declarations, but the
story, its arguments, its schema and its own variables stay those of the story alone
(`Contract.own`). The vocabulary of a plan has the reasons of all its stories and no others
(`Mounts.has_failures_iff`), and is none only when no story declares one.
-/

set_option autoImplicit false

namespace Storyline

variable {β : Type}

/-! ## The stories of a tree -/

/-- The stories among some scenes, in the order in which they start. -/
def Scenes.stories : Scenes β → List Story
  | .done => []
  | .step _ rest => rest.stories
  | .parallel _ rest => rest.stories
  | .story _ definition _ inner rest => definition :: (inner.stories ++ rest.stories)

/-- The stories of a tree, in the order in which they start. -/
def StoryTree.stories (tree : StoryTree β) : List Story :=
  tree.definition :: tree.scenes.stories

/-! ## What the operations on drafts do -/

namespace Draft

theorem start_eq_ok {story : Story} {owner : OwnerId} {d : Draft β}
    (h : start story owner = .ok d) :
    ∃ root, story.contract = .ok root ∧
      d = { story, owner, instructions := [.enter story.qualified 0], root, inner := [],
            failures := story.failures, mode := none } := by
  unfold start at h
  split at h
  · cases h
  · next root hRoot => exact ⟨root, hRoot, (Except.ok.inj h).symm⟩

theorem story_of_start {story : Story} {owner : OwnerId} {d : Draft β}
    (h : start story owner = .ok d) : d.story = story := by
  obtain ⟨root, -, rfl⟩ := start_eq_ok h
  rfl

/-- Checking a step changes nothing but the mode. -/
theorem checkStep_eq_ok {d d' : Draft β} {s : Step β} (h : d.checkStep s = .ok d') :
    ∃ mode, d' = { d with mode } := by
  unfold checkStep at h
  split at h
  · exact ⟨_, (Except.ok.inj h).symm⟩
  · split at h
    · obtain rfl := Except.ok.inj h
      exact ⟨d.mode, rfl⟩
    · cases h

theorem foldlM_checkStep_eq_ok {steps : List (Step β)} {d d' : Draft β}
    (h : steps.foldlM checkStep d = .ok d') : ∃ mode, d' = { d with mode } := by
  induction steps generalizing d with
  | nil =>
      obtain rfl := Except.ok.inj h
      exact ⟨d.mode, rfl⟩
  | cons s rest ih =>
      obtain ⟨d₁, hCheck, hRest⟩ := bind_eq_ok_iff.mp h
      obtain ⟨mode₁, rfl⟩ := checkStep_eq_ok hCheck
      obtain ⟨mode, rfl⟩ := ih hRest
      exact ⟨mode, rfl⟩

theorem addStep_eq_ok {d d' : Draft β} {s : Step β} (h : d.addStep s = .ok d') :
    ∃ mode, d' = { d with mode, instructions := d.instructions ++ [.step s 0 d.protocol] } := by
  obtain ⟨d₁, hCheck, h⟩ := bind_eq_ok_iff.mp h
  obtain ⟨mode, rfl⟩ := checkStep_eq_ok hCheck
  exact ⟨mode, (Except.ok.inj h).symm⟩

theorem addGroup_eq_ok {d d' : Draft β} {steps : List (Step β)}
    (h : d.addGroup steps none = .ok d') :
    ∃ mode, d' =
      { d with mode, instructions := d.instructions ++ [.parallel steps 0 d.protocol] } := by
  obtain ⟨d₁, hCheck, h⟩ := bind_eq_ok_iff.mp h
  obtain ⟨mode, rfl⟩ := foldlM_checkStep_eq_ok hCheck
  exact ⟨mode, (Except.ok.inj h).symm⟩

theorem addPlan_eq_ok {d d' : Draft β} {name : String} {child : Plan β}
    (h : d.addPlan name child = .ok d') :
    ∃ root childRoot failures,
      d.root.combine child.root = .ok (root, childRoot) ∧
      Failures.combine d.story.qualified d.failures child.qualified child.failures =
        .ok failures ∧
      d' = { d with
              mode := some child.mode
              root
              failures
              instructions := d.instructions ++
                placed (d.label name child) (1 + d.inner.length) child.instructions
              inner := d.inner ++ childRoot :: child.inner } := by
  unfold addPlan at h
  split at h
  · cases h
  obtain ⟨⟨root, childRoot⟩, hRoot, h⟩ := bind_eq_ok_iff.mp h
  obtain ⟨failures, hFailures, h⟩ := bind_eq_ok_iff.mp h
  exact ⟨root, childRoot, failures, mapError_eq_ok_iff.mp hRoot,
    mapError_eq_ok_iff.mp hFailures, (Except.ok.inj h).symm⟩

/-- The contracts of a finished draft are those of the draft with their arguments shared. -/
theorem contracts_finish (d : Draft β) :
    d.finish.contracts = Contract.sync (d.root :: d.inner) := by
  cases hSync : Contract.sync (d.root :: d.inner) with
  | nil =>
      simp only [Contract.sync] at hSync
      split at hSync <;> cases hSync
  | cons root inner => simp only [finish, Plan.contracts, hSync]

/-- Finishing a draft only shares arguments, if its story has a schema. -/
theorem root_finish (d : Draft β) :
    d.finish.root =
      if d.root.isNull then d.root else d.inner.foldl Contract.absorb d.root := by
  have hContracts := d.contracts_finish
  rw [Plan.contracts, Contract.sync] at hContracts
  split at hContracts
  · next hNull => rw [if_pos hNull, (List.cons.inj hContracts).1]
  · next hSome => rw [if_neg hSome, (List.cons.inj hContracts).1]

/-- A draft with an instruction more, and perhaps another mode. -/
def withInstruction (d : Draft β) (i : Instruction β) (mode : Option Mode) : Draft β :=
  { d with mode, instructions := d.instructions ++ [i] }

/-- A draft with a substory more: its contracts are combined with those of the draft already, and
so are the vocabularies. -/
def withPlan (d : Draft β) (name : String) (child : Plan β) (root childRoot : Contract)
    (failures : Option Failures) : Draft β :=
  { d with
    mode := some child.mode
    root
    failures
    instructions := d.instructions ++
      placed (d.label name child) (1 + d.inner.length) child.instructions
    inner := d.inner ++ childRoot :: child.inner }

/-- A draft gathers scenes, one after the other: all that adding them can do if it succeeds. -/
inductive Gathers : Draft β → Scenes β → Draft β → Prop where
  | done {d : Draft β} : Gathers d .done d
  | step {d d' : Draft β} {s : Step β} {rest : Scenes β} {mode : Option Mode} :
      Gathers (d.withInstruction (.step s 0 d.protocol) mode) rest d' →
      Gathers d (.step s rest) d'
  | parallel {d d' : Draft β} {steps : List (Step β)} {rest : Scenes β} {mode : Option Mode} :
      Gathers (d.withInstruction (.parallel steps 0 d.protocol) mode) rest d' →
      Gathers d (.parallel steps rest) d'
  | story {d d' c₀ c : Draft β} {name : String} {definition : Story} {owner : OwnerId}
      {inner rest : Scenes β} {root childRoot : Contract} {failures : Option Failures} :
      start definition owner = .ok c₀ → Gathers c₀ inner c →
      d.root.combine c.finish.root = .ok (root, childRoot) →
      Failures.combine d.story.qualified d.failures c.finish.qualified c.failures =
        .ok failures →
      Gathers (d.withPlan name c.finish root childRoot failures) rest d' →
      Gathers d (.story name definition owner inner rest) d'

theorem gathers_of_addScenes {scenes : Scenes β} {d d' : Draft β}
    (h : d.addScenes scenes = .ok d') : d.Gathers scenes d' := by
  induction scenes generalizing d d' with
  | done =>
      obtain rfl := Except.ok.inj h
      exact .done
  | step s rest ih =>
      obtain ⟨d₁, hStep, hRest⟩ := addScenes_step_eq_ok_iff.mp h
      obtain ⟨mode, rfl⟩ := addStep_eq_ok hStep
      exact .step (ih hRest)
  | parallel steps rest ih =>
      obtain ⟨d₁, hGroup, hRest⟩ := addScenes_parallel_eq_ok_iff.mp h
      obtain ⟨mode, rfl⟩ := addGroup_eq_ok hGroup
      exact .parallel (ih hRest)
  | story name definition owner inner rest ihInner ih =>
      obtain ⟨c₀, c, d₁, hStart, hInner, hPlan, hRest⟩ := addScenes_story_eq_ok_iff.mp h
      obtain ⟨root, childRoot, failures, hCombine, hFailures, rfl⟩ := addPlan_eq_ok hPlan
      exact .story hStart (ihInner hInner) hCombine hFailures (ih hRest)

end Draft

/-- The plan of a tree that mounts is a draft of its story that has gathered its scenes. -/
theorem Mounts.gathered {cast : Cast β} {tree : StoryTree β} {plan : Plan β}
    (h : Mounts cast tree plan) :
    ∃ d₀ d, Draft.start tree.definition tree.owner = .ok d₀ ∧ d₀.Gathers tree.scenes d ∧
      d.finish = plan := by
  obtain ⟨d₀, d, hStart, hAdd, hFinish⟩ := h.assembled
  exact ⟨d₀, d, hStart, Draft.gathers_of_addScenes hAdd, hFinish⟩

/-! ## The own part of a contract -/

namespace Contract

/-- What a contract has of its own story: the story, its arguments, its schema, its variables. -/
def own (c : Contract) : StoryName × List String × Option Spec × Catalog Field :=
  (c.story, c.arguments, c.spec, c.ownVariables)

/-- A contract is that of a story when it has the own part of the story's contract alone. -/
def IsOf (c : Contract) (story : Story) : Prop :=
  ∃ alone, story.contract = .ok alone ∧ c.own = alone.own

theorem IsOf.of_own_eq {c c' : Contract} {story : Story} (h : c.IsOf story)
    (hOwn : c'.own = c.own) : c'.IsOf story := by
  obtain ⟨alone, hAlone, h⟩ := h
  exact ⟨alone, hAlone, hOwn.trans h⟩

@[simp] theorem own_absorb (c other : Contract) : (c.absorb other).own = c.own := rfl

theorem own_foldl_absorb (rest : List Contract) (c : Contract) :
    (rest.foldl absorb c).own = c.own := by
  induction rest generalizing c with
  | nil => rfl
  | cons other rest ih => rw [List.foldl_cons, ih, own_absorb]

/-- What can become of two contracts of which the second is to be combined into the first. -/
inductive Combines (parent child : Contract) : Combination → Prop where
  /-- Without schemas, or with one schema, each gets the sources of the other. -/
  | one : parent.schemaRelation child = .null ∨ parent.schemaRelation child = .shared →
      Combines parent child ⟨parent.absorb child, child.absorb (parent.absorb child), .ok ()⟩
  /-- With two schemas of one family, the first gets the variables of the second as well. -/
  | family : parent.schemaRelation child = .family → repeatedVariables parent child = [] →
      Combines parent child
        ⟨(parent.absorb child).absorbVariables (child.absorb (parent.absorb child)),
          child.absorb (parent.absorb child), .ok ()⟩
  /-- A variable of both is refused, and both stay as they are. -/
  | repeated {name : String} {story substory : StoryName}
      {rest : List (String × StoryName × StoryName)} :
      parent.schemaRelation child = .family →
      repeatedVariables parent child = (name, story, substory) :: rest →
      Combines parent child
        ⟨parent, child,
          .error (.repeatedVariables (name :: rest.map Prod.fst) story substory)⟩
  /-- Schemas that do not go together are refused, and both stay as they are. -/
  | incompatible : parent.schemaRelation child = .incompatible →
      Combines parent child
        ⟨parent, child,
          .error (.incompatibleTypes parent.story parent.familyName child.story child.familyName)⟩

theorem combines_combination (parent child : Contract) :
    Combines parent child (combination parent child) := by
  unfold combination
  split
  · next hNull => exact .one (.inl hNull)
  · next hShared => exact .one (.inr hShared)
  · next hFamily =>
    split
    · next hApart => exact .family hFamily hApart
    · next hRepeated => exact .repeated hFamily hRepeated
  · next hIncompatible => exact .incompatible hIncompatible

theorem combination_of_ok {parent child parent' child' : Contract}
    (h : parent.combine child = .ok (parent', child')) :
    combination parent child = ⟨parent', child', .ok ()⟩ := by
  unfold combine at h
  generalize combination parent child = after at h ⊢
  obtain ⟨first, second, result⟩ := after
  cases result with
  | error cause => cases h
  | ok _ =>
      cases h
      rfl

theorem combines_of_ok {parent child parent' child' : Contract}
    (h : parent.combine child = .ok (parent', child')) :
    Combines parent child ⟨parent', child', .ok ()⟩ :=
  combination_of_ok h ▸ combines_combination parent child

/-- Contracts that are refused stay as they are. -/
theorem combination_of_error {parent child : Contract} {cause : ContractError}
    (h : parent.combine child = .error cause) :
    combination parent child = ⟨parent, child, .error cause⟩ := by
  have hCombines := combines_combination parent child
  unfold combine at h
  generalize combination parent child = after at hCombines h ⊢
  cases hCombines with
  | one _ => cases h
  | family _ _ => cases h
  | repeated _ _ =>
      cases h
      rfl
  | incompatible _ =>
      cases h
      rfl

/-- What combining two contracts comes to: both have schemas or neither has, each gets the sources
of the other, and the first may get the variables of the second. -/
theorem combine_cases {parent child parent' child' : Contract}
    (h : parent.combine child = .ok (parent', child')) :
    parent.spec.isSome = child.spec.isSome ∧ child' = child.absorb (parent.absorb child) ∧
      (parent' = parent.absorb child ∨ parent' = (parent.absorb child).absorbVariables child') := by
  -- a schema is incompatible with none
  have hSpecs : parent.schemaRelation child ≠ .incompatible →
      parent.spec.isSome = child.spec.isSome := by
    unfold schemaRelation
    cases parent.spec <;> cases child.spec <;> simp
  cases combines_of_ok h with
  | one hOne =>
      refine ⟨hSpecs fun hNot => ?_, rfl, .inl rfl⟩
      simp [hNot] at hOne
  | family hFamily _ => exact ⟨hSpecs (by simp [hFamily]), rfl, .inr rfl⟩

theorem own_combine {parent child parent' child' : Contract}
    (h : parent.combine child = .ok (parent', child')) :
    parent'.own = parent.own ∧ child'.own = child.own := by
  obtain ⟨-, rfl, rfl | rfl⟩ := combine_cases h
  · exact ⟨rfl, rfl⟩
  · exact ⟨rfl, rfl⟩

theorem map_own_sync (contracts : List Contract) :
    (sync contracts).map own = contracts.map own := by
  cases contracts with
  | nil => rfl
  | cons root rest =>
      simp only [sync]
      split
      · rfl
      · simp only [List.map_cons, own_foldl_absorb, List.map_map]
        congr 1

theorem forall₂_isOf_of_map_own {contracts contracts' : List Contract} {stories : List Story}
    (h : List.Forall₂ IsOf contracts stories)
    (hOwn : contracts'.map own = contracts.map own) : List.Forall₂ IsOf contracts' stories := by
  induction h generalizing contracts' with
  | nil =>
      obtain rfl := List.map_eq_nil_iff.mp hOwn
      exact .nil
  | cons hHead _ ih =>
      obtain ⟨c, rest, rfl, hc, hRest⟩ := List.map_eq_cons_iff.mp hOwn
      exact .cons (hHead.of_own_eq hc) (ih hRest)

/-- The contract of a story alone is the plain one, or that of its schema. -/
theorem build_cases {story : StoryName} {arguments : List String} {spec : Option Spec}
    {c : Contract} (h : build story arguments spec = .ok c) :
    spec = none ∧ c = plain story arguments ∨
      ∃ schema, spec = some schema ∧ c = ofSpec story arguments schema := by
  unfold build at h
  split at h
  · exact .inl ⟨rfl, (Except.ok.inj h).symm⟩
  · split at h
    · exact .inr ⟨_, rfl, (Except.ok.inj h).symm⟩
    · cases h

/-- What the contract of a story alone has from the story. -/
theorem build_eq_ok {story : StoryName} {arguments : List String} {spec : Option Spec}
    {c : Contract} (h : build story arguments spec = .ok c) :
    c.story = story ∧ c.arguments = arguments ∧ c.spec = spec := by
  rcases build_cases h with ⟨rfl, rfl⟩ | ⟨schema, rfl, rfl⟩
  · exact ⟨rfl, rfl, rfl⟩
  · exact ⟨rfl, rfl, rfl⟩

theorem IsOf.declares {c : Contract} {story : Story} (h : c.IsOf story) :
    c.story = story.name ∧ c.arguments = story.arguments ∧ c.spec = story.spec := by
  obtain ⟨alone, hAlone, hOwn⟩ := h
  obtain ⟨hStory, hArguments, hSpec⟩ := build_eq_ok hAlone
  simp only [own, Prod.mk.injEq] at hOwn
  obtain ⟨hStory', hArguments', hSpec', -⟩ := hOwn
  exact ⟨hStory'.trans hStory, hArguments'.trans hArguments, hSpec'.trans hSpec⟩

/-- A contract has a schema exactly when its story has one. -/
theorem IsOf.isNull_eq_false_iff {c : Contract} {story : Story} (h : c.IsOf story) :
    c.isNull = false ↔ story.spec.isSome = true := by
  obtain ⟨-, -, hSpec⟩ := h.declares
  rw [isNull, hSpec, ← Option.not_isSome, Bool.not_eq_false']

/-- A story with a number has the contract with that number. -/
theorem exists_isOf {contracts : List Contract} {stories : List Story}
    (h : List.Forall₂ IsOf contracts stories) {number : Nat} {story : Story}
    (hStory : stories[number]? = some story) :
    ∃ c, contracts[number]? = some c ∧ c.IsOf story := by
  induction h generalizing number with
  | nil => cases hStory
  | cons hHead _ ih =>
      cases number with
      | zero =>
          cases hStory
          exact ⟨_, rfl, hHead⟩
      | succ number => exact ih hStory

end Contract

namespace Draft

/-- A draft has the root contract of another, its own part at least, and further contracts, which
are those of some stories. -/
structure AddsContracts (d : Draft β) (stories : List Story) (d' : Draft β) : Prop where
  root : d'.root.own = d.root.own
  inner : ∃ more, d'.inner = d.inner ++ more ∧ List.Forall₂ Contract.IsOf more stories

/-- A finished draft has the contracts of its story and of the stories that were added. -/
theorem AddsContracts.finish {definition : Story} {owner : OwnerId} {stories : List Story}
    {d₀ d : Draft β} (hStart : start definition owner = .ok d₀)
    (h : AddsContracts d₀ stories d) :
    List.Forall₂ Contract.IsOf d.finish.contracts (definition :: stories) := by
  obtain ⟨alone, hAlone, rfl⟩ := start_eq_ok hStart
  obtain ⟨hRoot, more, hMore, hOf⟩ := h
  have hDraft : List.Forall₂ Contract.IsOf (d.root :: d.inner) (definition :: stories) := by
    rw [hMore]
    exact .cons ⟨alone, hAlone, hRoot⟩ hOf
  -- finishing shares arguments, which leaves the own parts
  refine Contract.forall₂_isOf_of_map_own hDraft ?_
  rw [contracts_finish, Contract.map_own_sync]

theorem Gathers.contracts {scenes : Scenes β} {d d' : Draft β} (h : d.Gathers scenes d') :
    AddsContracts d scenes.stories d' := by
  induction h with
  | done => exact ⟨rfl, [], by simp, .nil⟩
  | step _ ih => exact ⟨ih.root, ih.inner⟩
  | parallel _ ih => exact ⟨ih.root, ih.inner⟩
  | @story d d' c₀ c _ _ _ _ _ root childRoot _ hStart _ hCombine _ _ ihInner ih =>
      obtain ⟨hFirst, hOthers⟩ := List.forall₂_cons.mp (ihInner.finish hStart)
      obtain ⟨hOwn, hChild⟩ := Contract.own_combine hCombine
      obtain ⟨hRoot, more, hMore, hOf⟩ := ih
      -- first the contracts of the substory, then those of the scenes behind it
      refine ⟨hRoot.trans hOwn, childRoot :: c.finish.inner ++ more, ?_, ?_⟩
      · rw [hMore, withPlan, List.append_assoc]
      · exact .cons (hFirst.of_own_eq hChild) (List.rel_append hOthers hOf)

/-- Gathering scenes leaves the story of a draft and the object it lies on. -/
theorem Gathers.place_eq {scenes : Scenes β} {d d' : Draft β} (h : d.Gathers scenes d') :
    d'.story = d.story ∧ d'.owner = d.owner := by
  induction h with
  | done => exact ⟨rfl, rfl⟩
  | step _ ih => exact ih
  | parallel _ ih => exact ih
  | story _ _ _ _ _ _ ih => exact ih

end Draft

/-- **The contracts of a plan are those of the stories of its tree**, in the order in which the
stories start. -/
theorem Mounts.contracts_of {cast : Cast β} {tree : StoryTree β} {plan : Plan β}
    (h : Mounts cast tree plan) : List.Forall₂ Contract.IsOf plan.contracts tree.stories := by
  obtain ⟨d₀, d, hStart, hGathers, rfl⟩ := h.gathered
  exact hGathers.contracts.finish hStart

/-! ## The vocabulary of a composition -/

namespace Draft

/-- Gathering scenes adds the reasons of the stories among them. -/
theorem Gathers.failures {scenes : Scenes β} {d d' : Draft β} (h : d.Gathers scenes d') :
    (∀ r, Failures.has d'.failures r ↔
      Failures.has d.failures r ∨ ∃ story ∈ scenes.stories, Failures.has story.failures r) ∧
    (d'.failures.isSome = true ↔
      d.failures.isSome = true ∨ ∃ story ∈ scenes.stories, story.failures.isSome = true) := by
  induction h with
  | done => simp [Scenes.stories]
  | step _ ih => exact ih
  | parallel _ ih => exact ih
  | story hStart _ _ hCombine _ ihInner ih =>
      obtain ⟨alone, -, rfl⟩ := start_eq_ok hStart
      obtain ⟨hHasInner, hSomeInner⟩ := ihInner
      obtain ⟨hHas, hSome⟩ := ih
      simp only [withPlan] at hHas hSome
      simp only [Scenes.stories, List.mem_cons, List.mem_append]
      constructor
      · intro r
        rw [hHas, Failures.has_combine hCombine, hHasInner]
        grind
      · rw [hSome, Failures.isSome_combine hCombine, hSomeInner]
        grind

end Draft

/-- **The vocabulary of a plan is made of those of its stories**: a reason belongs to it when it
belongs to one of them. -/
theorem Mounts.has_failures_iff {cast : Cast β} {tree : StoryTree β} {plan : Plan β}
    (h : Mounts cast tree plan) (r : Reason) :
    Failures.has plan.failures r ↔ ∃ story ∈ tree.stories, Failures.has story.failures r := by
  obtain ⟨d₀, d, hStart, hGathers, rfl⟩ := h.gathered
  obtain ⟨alone, -, rfl⟩ := Draft.start_eq_ok hStart
  obtain ⟨hHas, -⟩ := hGathers.failures
  show Failures.has d.failures r ↔ _
  rw [hHas, StoryTree.stories]
  simp only [List.mem_cons, exists_eq_or_imp]

/-- A plan has a vocabulary when a story of its tree declares one. -/
theorem Mounts.isSome_failures_iff {cast : Cast β} {tree : StoryTree β} {plan : Plan β}
    (h : Mounts cast tree plan) :
    plan.failures.isSome = true ↔ ∃ story ∈ tree.stories, story.failures.isSome = true := by
  obtain ⟨d₀, d, hStart, hGathers, rfl⟩ := h.gathered
  obtain ⟨alone, -, rfl⟩ := Draft.start_eq_ok hStart
  obtain ⟨-, hSome⟩ := hGathers.failures
  show d.failures.isSome = true ↔ _
  rw [hSome, StoryTree.stories]
  simp only [List.mem_cons, exists_eq_or_imp]

end Storyline
