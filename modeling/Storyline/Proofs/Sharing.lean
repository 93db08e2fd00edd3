import Storyline.Proofs.Coverage

/-!
# What the contracts of a composition share

While a composition is put together only the contracts of a story and of each of its substories are
combined, and what a substory could not hear of then reaches it by the sharing at the end. The
arguments that come out are those that some story of the tree declares, each with a source for every
story that declares it (`Plan.SharesArguments`, `Mounts.sharesArguments`).

Without schemas nothing is shared at the end. Then only the outermost contract has all arguments,
which is the one that calls are held against.
-/

set_option autoImplicit false

namespace Storyline

variable {β : Type}

/-! ## One source for each story -/

namespace Contract

/-- An argument never has two sources of one story. -/
def Distinct (c : Contract) : Prop := ∀ name, ((c.sourcesOf name).map Source.story).Nodup

theorem nodup_addSources {known : List Source} (h : (known.map Source.story).Nodup)
    (others : List Source) : ((addSources known others).map Source.story).Nodup := by
  induction others generalizing known with
  | nil => exact h
  | cons first rest ih =>
      rw [addSources]
      refine ih ?_
      split
      · exact h
      · next hNew =>
        -- the story of the first source is not known yet
        have hAbsent : first.story ∉ known.map Source.story := by
          intro hIn
          obtain ⟨other, hOther, hSame⟩ := List.mem_map.mp hIn
          exact hNew (List.any_eq_true.mpr ⟨other, hOther, by simp [hSame]⟩)
        rw [List.map_append, List.map_singleton]
        refine List.nodup_append.mpr ⟨h, by simp, ?_⟩
        rintro owner hOld other hFirst rfl
        exact hAbsent (List.mem_singleton.mp hFirst ▸ hOld)

theorem nodup_mergeSources {into : Catalog (List Source)}
    (h : ∀ name, (((into.find? name).getD []).map Source.story).Nodup)
    (others : List (String × List Source)) (name : String) :
    ((((mergeSources into others).find? name).getD []).map Source.story).Nodup := by
  induction others generalizing into with
  | nil => exact h name
  | cons first rest ih =>
      obtain ⟨argument, added⟩ := first
      rw [mergeSources]
      refine ih fun other => ?_
      rw [Catalog.find?_insert]
      split
      · exact nodup_addSources (h argument) added
      · exact h other

theorem Distinct.absorb {c : Contract} (h : c.Distinct) (other : Contract) :
    (c.absorb other).Distinct :=
  nodup_mergeSources h other.sources.entries

theorem Distinct.foldl_absorb {c : Contract} (h : c.Distinct) (rest : List Contract) :
    (rest.foldl Contract.absorb c).Distinct := by
  induction rest generalizing c with
  | nil => exact h
  | cons other rest ih => exact ih (h.absorb other)

theorem Distinct.combine {parent child parent' child' : Contract} (hParent : parent.Distinct)
    (h : parent.combine child = .ok (parent', child')) : parent'.Distinct := by
  obtain ⟨-, rfl, rfl | rfl⟩ := combine_cases h
  · exact hParent.absorb child
  · exact hParent.absorb child

/-- In the contract of a story alone every argument has one source. -/
theorem distinct_of_contract {story : Story} {c : Contract} (h : story.contract = .ok c) :
    c.Distinct := by
  intro name
  by_cases hName : name ∈ story.arguments
  · obtain ⟨validator, hFind⟩ := find?_sources_of_contract h hName
    simp [sourcesOf, hFind]
  · have hNone : c.sourcesOf name = [] := by
      refine List.eq_nil_iff_forall_not_mem.mpr fun source hSource => ?_
      obtain ⟨other, hOther, -, hDeclares, -⟩ := (sound_of_contract h).exists_standsFor hSource
      obtain rfl := List.mem_singleton.mp hOther
      exact hName hDeclares
    simp [hNone]

end Contract

namespace Draft

/-- Gathering scenes leaves the sources of a draft's contract distinct. -/
theorem Gathers.distinct {scenes : Scenes β} {d d' : Draft β} (h : d.Gathers scenes d')
    (hDistinct : d.root.Distinct) : d'.root.Distinct := by
  induction h with
  | done => exact hDistinct
  | step _ ih => exact ih hDistinct
  | parallel _ ih => exact ih hDistinct
  | story _ _ hCombine _ _ _ ih => exact ih (hDistinct.combine hCombine)

end Draft

/-! ## What a contract knows of all stories -/

namespace Contract

theorem hasSource_iff {c : Contract} {name : String} {owner : StoryName} :
    c.HasSource name owner ↔ owner ∈ (c.sourcesOf name).map Source.story := by
  simp [HasSource]

/-- A sound contract that covers all stories has the sources of those that declare an argument, and
no others. -/
theorem Sound.hasSource_iff {c : Contract} {stories : List Story} (h : c.Sound stories)
    (hCovers : c.Covers stories) {name : String} {owner : StoryName} :
    c.HasSource name owner ↔ ∃ story ∈ stories, story.name = owner ∧ name ∈ story.arguments := by
  constructor
  · rintro ⟨source, hSource, rfl⟩
    obtain ⟨story, hStory, hName, hArgument, -⟩ := h.exists_standsFor hSource
    exact ⟨story, hStory, hName.symm, hArgument⟩
  · rintro ⟨story, hStory, rfl, hName⟩
    exact hCovers story hStory name hName

/-- A sound contract that covers all stories has exactly their arguments. -/
theorem Sound.mem_argumentNames_iff {c : Contract} {stories : List Story} (h : c.Sound stories)
    (hCovers : c.Covers stories) {name : String} :
    name ∈ c.argumentNames ↔ ∃ story ∈ stories, name ∈ story.arguments := by
  constructor
  · exact h.exists_declares
  · rintro ⟨story, hStory, hName⟩
    obtain ⟨source, hSource, -⟩ := hCovers story hStory name hName
    exact h.mem_argumentNames_iff_sourcesOf.mpr (List.ne_nil_of_mem hSource)

/-- A call is turned down for a name that is no argument, and only for such a name. -/
theorem checkCall_eq_unknown_iff {c : Contract} {arguments : Bindings} :
    (∃ unknown shown,
        c.checkCall arguments = .error (.unknownArguments unknown c.story shown)) ↔
      ∃ name ∈ arguments.names, name ∉ c.argumentNames := by
  have hUnknown : (∃ name ∈ arguments.names, name ∉ c.argumentNames) ↔
      (arguments.names.filter fun name => !c.sources.contains name) ≠ [] := by
    rw [ne_eq, List.filter_eq_nil_iff]
    simp [argumentNames, Catalog.contains_iff]
  rw [hUnknown]
  unfold checkCall
  split
  · next hNone =>
    simp only [hNone, ne_eq, not_true_eq_false, iff_false]
    rintro ⟨unknown, shown, hError⟩
    split at hError
    · cases hError
    · -- values are turned down for other reasons
      unfold validate at hError
      dsimp only at hError
      split at hError
      · cases hError
      · split at hError <;> cases hError
  · next hSome => exact ⟨fun _ => hSome, fun _ => ⟨_, _, rfl⟩⟩

end Contract

/-- Two tables with the same names have them in the same order. -/
theorem Catalog.names_eq_of_mem_iff {α γ : Type} {m : Catalog α} {other : Catalog γ}
    (h : ∀ name, name ∈ m.names ↔ name ∈ other.names) : m.names = other.names :=
  eq_of_pairwise_lt (List.pairwise_map.mpr m.sorted) (List.pairwise_map.mpr other.sorted) h

/-! ## Families -/

/-- Schemas are told apart by their identity: stories whose schemas have one identity have one and
the same schema. -/
def Story.Identified (stories : List Story) : Prop :=
  ∀ s ∈ stories, ∀ t ∈ stories, ∀ a b, s.spec = some a → t.spec = some b →
    a.sameAs b = true → a = b

/-- The family of the schema of a story, if it has one. -/
def Story.family? (story : Story) : Option Family := story.spec.map Spec.family

/-- Contracts that combine are of one family, unless two schemas have the same identity. -/
theorem Contract.family_eq_of_combine {parent child parent' child' : Contract}
    (h : parent.combine child = .ok (parent', child'))
    (hSame : ∀ a b, parent.spec = some a → child.spec = some b → a.sameAs b = true → a = b) :
    child.spec.map Spec.family = parent.spec.map Spec.family := by
  have hCompatible : parent.schemaRelation child ≠ .incompatible := by
    intro hRelation
    simp only [combine, combination, hRelation] at h
    cases h
  unfold schemaRelation at hCompatible
  cases hParent : parent.spec with
  | none =>
      cases hChild : child.spec with
      | none => rfl
      | some b => simp [hParent, hChild] at hCompatible
  | some a =>
      cases hChild : child.spec with
      | none => simp [hParent, hChild] at hCompatible
      | some b =>
          simp only [hParent, hChild] at hCompatible
          split at hCompatible
          · next hOne => rw [hSame a b hParent hChild hOne]
          · split at hCompatible
            · next hFamily => rw [Option.map_some, Option.map_some, hFamily]
            · exact absurd rfl hCompatible

namespace Draft

/-- The stories that a draft gathers are of the family of its own story. -/
theorem Gathers.family {scenes : Scenes β} {d d' : Draft β} (h : d.Gathers scenes d')
    {stories : List Story} (hIdentified : Story.Identified stories)
    (hRoot : ∃ story ∈ stories, d.root.spec = story.spec)
    (hStories : ∀ story ∈ scenes.stories, story ∈ stories) :
    ∀ story ∈ scenes.stories, story.family? = d.root.spec.map Spec.family := by
  induction h with
  | done => exact fun _ hStory => by cases hStory
  | step _ ih => exact ih hRoot hStories
  | parallel _ ih => exact ih hRoot hStories
  | @story d d' c₀ c _ definition _ inner rest root _ _ hStart hGathers hCombine _ _ ihInner ih =>
      have hOf := hGathers.contracts.finish hStart
      obtain ⟨-, -, hChildSpec⟩ := (List.forall₂_cons.mp hOf).1.declares
      have hDefinition : definition ∈ stories := hStories definition List.mem_cons_self
      have hRootSpec : root.spec = d.root.spec :=
        congrArg (·.2.2.1) (Contract.own_combine hCombine).1
      have hFamily : definition.family? = d.root.spec.map Spec.family := by
        obtain ⟨own, hOwn, hOwnSpec⟩ := hRoot
        rw [Story.family?, ← hChildSpec]
        refine Contract.family_eq_of_combine hCombine fun a b ha hb hSame => ?_
        exact hIdentified own hOwn definition hDefinition a b (hOwnSpec ▸ ha) (hChildSpec ▸ hb) hSame
      have hRest := ih (hRootSpec ▸ hRoot) fun story hStory =>
        hStories story (List.mem_cons_of_mem _ (List.mem_append_right _ hStory))
      obtain ⟨alone, hAlone, rfl⟩ := start_eq_ok hStart
      obtain ⟨-, -, hAloneSpec⟩ := Contract.build_eq_ok hAlone
      have hInner := ihInner ⟨definition, hDefinition, hAloneSpec⟩ fun story hStory =>
        hStories story (List.mem_cons_of_mem _ (List.mem_append_left _ hStory))
      intro story hStory
      rcases List.mem_cons.mp hStory with rfl | hStory
      · exact hFamily
      rcases List.mem_append.mp hStory with hIn | hOut
      · calc story.family? = alone.spec.map Spec.family := hInner story hIn
          _ = definition.family? := by rw [hAloneSpec]; rfl
          _ = d.root.spec.map Spec.family := hFamily
      · calc story.family? = root.spec.map Spec.family := hRest story hOut
          _ = d.root.spec.map Spec.family := by rw [hRootSpec]

end Draft

/-! ## Compositions -/

/-- The contracts of a plan share the arguments of some stories. -/
structure Plan.SharesArguments (plan : Plan β) (stories : List Story) : Prop where
  /-- The arguments of the outermost contract are those that some story declares. -/
  names : ∀ name, name ∈ plan.root.argumentNames ↔ ∃ story ∈ stories, name ∈ story.arguments
  /-- A call is turned down as unknown for the other names. -/
  unknown : ∀ arguments : Bindings,
    (∃ unknown shown,
        plan.root.checkCall arguments =
          .error (.unknownArguments unknown plan.root.story shown)) ↔
      ∃ name ∈ arguments.names, ∀ story ∈ stories, name ∉ story.arguments
  /-- Every argument has one source for each name of a story that declares it. -/
  sources : ∀ name, ((plan.root.sourcesOf name).map Source.story).Nodup ∧
    ∀ owner, owner ∈ (plan.root.sourcesOf name).map Source.story ↔
      ∃ story ∈ stories, story.name = owner ∧ name ∈ story.arguments
  /-- No contract has a schema, or all have schemas of one family. -/
  family : Story.Identified stories →
    (∀ c ∈ plan.contracts, c.spec = none) ∨
      ∃ family, ∀ c ∈ plan.contracts, ∃ spec, c.spec = some spec ∧ spec.family = family
  /-- With schemas every contract has the arguments of the outermost one, declared by the same
  stories. -/
  shared : plan.root.isNull = false → ∀ c ∈ plan.contracts,
    c.argumentNames = plan.root.argumentNames ∧
      ∀ name owner, owner ∈ (c.sourcesOf name).map Source.story ↔
        owner ∈ (plan.root.sourcesOf name).map Source.story

section

variable {cast : Cast β} {tree : StoryTree β} {plan : Plan β}

/-- The outermost contract covers all stories, with schemas or without. -/
theorem Mounts.root_covers (h : Mounts cast tree plan) : plan.root.Covers tree.stories := by
  obtain ⟨d₀, d, hStart, hGathers, rfl⟩ := h.gathered
  obtain ⟨alone, hAlone, rfl⟩ := Draft.start_eq_ok hStart
  exact Draft.covers_finish (hGathers.covers (Contract.covers_of_contract hAlone))

/-- The arguments of a plan are those that some story of its tree declares. -/
theorem Mounts.mem_argumentNames_iff (h : Mounts cast tree plan) {name : String} :
    name ∈ plan.root.argumentNames ↔ ∃ story ∈ tree.stories, name ∈ story.arguments :=
  (h.sound (List.mem_cons_self : plan.root ∈ plan.contracts)).mem_argumentNames_iff h.root_covers

theorem Mounts.root_distinct (h : Mounts cast tree plan) : plan.root.Distinct := by
  obtain ⟨d₀, d, hStart, hGathers, rfl⟩ := h.gathered
  obtain ⟨alone, hAlone, rfl⟩ := Draft.start_eq_ok hStart
  have hDistinct := hGathers.distinct (Contract.distinct_of_contract hAlone)
  rw [Draft.root_finish]
  split
  · exact hDistinct
  · exact hDistinct.foldl_absorb d.inner

/-- The stories of a tree that mounts are of one family, or have no schemas. -/
theorem Mounts.family_eq (h : Mounts cast tree plan) (hIdentified : Story.Identified tree.stories)
    {story : Story} (hStory : story ∈ tree.stories) : story.family? = tree.definition.family? := by
  obtain ⟨d₀, d, hStart, hGathers, rfl⟩ := h.gathered
  obtain ⟨alone, hAlone, rfl⟩ := Draft.start_eq_ok hStart
  obtain ⟨-, -, hSpec⟩ := Contract.build_eq_ok hAlone
  rcases List.mem_cons.mp hStory with rfl | hIn
  · rfl
  · have hFamily := hGathers.family hIdentified ⟨tree.definition, List.mem_cons_self, hSpec⟩
      (fun other hOther => List.mem_cons_of_mem _ hOther) story hIn
    rw [hFamily, Story.family?, hSpec]

/-- All contracts have a schema of the family of the outermost story, or none if it has none. -/
theorem Mounts.family_of_contract (h : Mounts cast tree plan)
    (hIdentified : Story.Identified tree.stories) {c : Contract} (hc : c ∈ plan.contracts) :
    c.spec.map Spec.family = tree.definition.family? := by
  obtain ⟨story, hStory, hOf⟩ := exists_rel_of_mem h.contracts_of hc
  obtain ⟨-, -, hSpec⟩ := hOf.declares
  rw [hSpec]
  exact h.family_eq hIdentified hStory

/-- **What the contracts of a composition share.** The outermost contract takes the arguments of all
stories of the tree and of no others, each with one source for every story that declares it. Either
no contract has a schema, or all have schemas of one family and the same arguments with the same
sources. -/
theorem Mounts.sharesArguments (h : Mounts cast tree plan) :
    plan.SharesArguments tree.stories := by
  have hRoot := h.sound (List.mem_cons_self : plan.root ∈ plan.contracts)
  have hCovers := h.root_covers
  constructor
  case names =>
    intro name
    exact hRoot.mem_argumentNames_iff hCovers
  case unknown =>
    intro arguments
    rw [Contract.checkCall_eq_unknown_iff]
    simp only [hRoot.mem_argumentNames_iff hCovers, not_exists, not_and]
  case sources =>
    intro name
    refine ⟨h.root_distinct name, fun owner => ?_⟩
    rw [← Contract.hasSource_iff, hRoot.hasSource_iff hCovers]
  case family =>
    intro hIdentified
    have hFamily := fun c (hc : c ∈ plan.contracts) => h.family_of_contract hIdentified hc
    cases hDefinition : tree.definition.family? with
    | none =>
        simp only [hDefinition, Option.map_eq_none_iff] at hFamily
        exact .inl hFamily
    | some family =>
        simp only [hDefinition, Option.map_eq_some_iff] at hFamily
        exact .inr ⟨family, hFamily⟩
  case shared =>
    intro hSchema c hc
    obtain ⟨hRootOf, -⟩ := List.forall₂_cons.mp h.contracts_of
    have hDefinition : tree.definition.spec.isSome = true :=
      hRootOf.isNull_eq_false_iff.mp hSchema
    have hSound := h.sound hc
    have hAll := h.covers hDefinition hc
    constructor
    · refine Catalog.names_eq_of_mem_iff fun name => ?_
      exact (hSound.mem_argumentNames_iff hAll).trans (hRoot.mem_argumentNames_iff hCovers).symm
    · intro name owner
      rw [← Contract.hasSource_iff, ← Contract.hasSource_iff, hSound.hasSource_iff hAll,
        hRoot.hasSource_iff hCovers]

end

namespace Office

theorem identified : Story.Identified [fill, check] := by
  intro s hs t ht a b ha hb hSame
  simp only [List.mem_cons, List.not_mem_nil, or_false] at hs ht
  rcases hs with rfl | rfl <;> rcases ht with rfl | rfl <;> cases ha <;> cases hb
  · rfl
  · cases hSame
  · cases hSame
  · rfl

/-- The age that is filled in is an argument of the form and of its check, in both contracts. Their
schemas are of one family. -/
theorem shared_age :
    (∀ name, name ∈ filled.plan.root.argumentNames ↔ name = "age") ∧
      (∀ c ∈ filled.plan.contracts, ∀ owner,
        owner ∈ (c.sourcesOf "age").map Source.story ↔
          owner = fill.name ∨ owner = check.name) ∧
      ∃ family, ∀ c ∈ filled.plan.contracts,
        ∃ spec, c.spec = some spec ∧ spec.family = family := by
  have hShares := filled_mounts.sharesArguments
  have hStories : (tree fill).stories = [fill, check] := rfl
  rw [hStories] at hShares
  refine ⟨fun name => ?_, fun c hc owner => ?_, ?_⟩
  · rw [hShares.names]
    simp [fill, check, form]
  · obtain ⟨-, hSame⟩ := hShares.shared rfl c hc
    rw [hSame, (hShares.sources "age").2]
    simp [fill, check, form, eq_comm]
  · rcases hShares.family identified with hNone | hFamily
    · cases hNone filled.plan.root List.mem_cons_self
    · exact hFamily

end Office

end Storyline
