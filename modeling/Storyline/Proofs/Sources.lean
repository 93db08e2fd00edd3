import Storyline.Proofs.Checks
import Storyline.Proofs.Composition

/-!
# Where the validators of a composition come from

However contracts are combined and their arguments shared, every source of an argument is that of
a story of the tree that declares the argument, with the field of the story's own schema
(`Contract.Sound`). Combining goes wrong unless either all stories of a tree have a schema or none
has (`Mounts.isSome_spec`).

`Contract.Accepts` says that a value was accepted by all validators registered for its name, of
which there is one at least, all keeping a form equal to the stored one. Whatever passes a check
of a composition with schemas is accepted in this sense (`Contract.Sound.accepts`).
-/

set_option autoImplicit false

namespace Storyline

variable {β : Type}

/-! ## Sound contracts -/

/-- A story declares a name as a variable: a field of its schema that is not an argument. -/
def Story.DeclaresVariable (story : Story) (name : String) : Prop :=
  ∃ spec, story.spec = some spec ∧ name ∈ spec.fields.names ∧ name ∉ story.arguments

/-- A source of an argument is that of a story: the story declares the argument, and validates it
by a field of its schema if it has one. -/
def Source.StandsFor (source : Source) (name : String) (story : Story) : Prop :=
  source.story = story.name ∧ name ∈ story.arguments ∧
    match story.spec with
    | none => source.validator = none
    | some spec => ∃ field, (name, field) ∈ spec.fields.entries ∧ source.validator = some field

/-- The sources of an argument are those of some stories, one at least. -/
def Source.AllStandFor (stories : List Story) (name : String) (sources : List Source) : Prop :=
  sources ≠ [] ∧ ∀ source ∈ sources, ∃ story ∈ stories, source.StandsFor name story

/-- A contract within a composition of some stories: its sources are theirs, and it knows where
its own variables are declared. -/
structure Contract.Sound (c : Contract) (stories : List Story) : Prop where
  sources : ∀ name sources, c.sources.find? name = some sources →
    Source.AllStandFor stories name sources
  declared : ∀ name ∈ c.ownVariables.names, name ∈ c.declared.names

namespace Contract

theorem Sound.mono {c : Contract} {stories stories' : List Story} (h : c.Sound stories)
    (hMore : ∀ story ∈ stories, story ∈ stories') : c.Sound stories' where
  sources name sources hFind := by
    obtain ⟨hSome, hAll⟩ := h.sources name sources hFind
    refine ⟨hSome, fun source hSource => ?_⟩
    obtain ⟨story, hStory, hStands⟩ := hAll source hSource
    exact ⟨story, hMore story hStory, hStands⟩
  declared := h.declared

/-- The fields of a schema that are arguments, and those that are not. -/
theorem mem_of_partition {arguments : List String} {spec : Spec} {name : String} {field : Field} :
    ((name, field) ∈ (spec.fields.entries.partition fun (name, _) => arguments.contains name).1 ↔
      (name, field) ∈ spec.fields.entries ∧ name ∈ arguments) ∧
    ((name, field) ∈ (spec.fields.entries.partition fun (name, _) => arguments.contains name).2 ↔
      (name, field) ∈ spec.fields.entries ∧ name ∉ arguments) := by
  rw [List.partition_eq_filter_filter]
  simp [List.mem_filter]

/-- The contract of a story alone is sound. -/
theorem sound_of_contract {story : Story} {c : Contract} (h : story.contract = .ok c) :
    c.Sound [story] := by
  rcases build_cases h with ⟨hSpec, rfl⟩ | ⟨spec, hSpec, rfl⟩
  · refine ⟨fun name sources hFind => ?_, fun name hName => by cases hName⟩
    obtain ⟨argument, hArgument, hPair⟩ := List.mem_map.mp (Catalog.mem_of_find?_ofList hFind)
    cases hPair
    refine ⟨by simp, fun source hSource => ⟨story, by simp, ?_⟩⟩
    obtain rfl := List.mem_singleton.mp hSource
    refine ⟨rfl, hArgument, ?_⟩
    rw [hSpec]
  · refine ⟨fun name sources hFind => ?_, fun name hName => ?_⟩
    · obtain ⟨⟨field, value⟩, hField, hPair⟩ :=
        List.mem_map.mp (Catalog.mem_of_find?_ofList hFind)
      cases hPair
      obtain ⟨hField, hArgument⟩ := mem_of_partition.1.mp hField
      refine ⟨by simp, fun source hSource => ⟨story, by simp, ?_⟩⟩
      obtain rfl := List.mem_singleton.mp hSource
      refine ⟨rfl, hArgument, ?_⟩
      rw [hSpec]
      exact ⟨value, hField, rfl⟩
    · -- the own variables and their declarations are made of the same fields
      have hOwn := Catalog.mem_names_ofList.mp hName
      refine Catalog.mem_names_ofList.mpr ?_
      rw [List.map_map]
      exact hOwn

/-- The own variables of the contract of a story are variables that the story declares. -/
theorem IsOf.declaresVariable {c : Contract} {story : Story} (h : c.IsOf story) {name : String}
    (hName : name ∈ c.ownVariables.names) : story.DeclaresVariable name := by
  obtain ⟨alone, hAlone, hOwn⟩ := h
  have hVariables : c.ownVariables = alone.ownVariables := congrArg (·.2.2.2) hOwn
  rw [hVariables] at hName
  rcases build_cases hAlone with ⟨-, rfl⟩ | ⟨spec, hSpec, rfl⟩
  · cases hName
  · obtain ⟨⟨field, value⟩, hField, rfl⟩ := List.mem_map.mp (Catalog.mem_names_ofList.mp hName)
    obtain ⟨hField, hArgument⟩ := mem_of_partition.2.mp hField
    exact ⟨spec, hSpec, List.mem_map_of_mem hField, hArgument⟩

/-! ## Joining sources -/

theorem mem_addSources {known others : List Source} {source : Source}
    (h : source ∈ addSources known others) : source ∈ known ∨ source ∈ others := by
  induction others generalizing known with
  | nil => exact .inl h
  | cons first rest ih =>
      rw [addSources] at h
      rcases ih h with hKnown | hRest
      · split at hKnown
        · exact .inl hKnown
        · rcases List.mem_append.mp hKnown with hOld | hNew
          · exact .inl hOld
          · exact .inr (List.mem_singleton.mp hNew ▸ List.mem_cons_self)
      · exact .inr (List.mem_cons_of_mem _ hRest)

theorem known_prefix_addSources (known others : List Source) :
    known <+: addSources known others := by
  induction others generalizing known with
  | nil => exact List.prefix_rfl
  | cons first rest ih =>
      rw [addSources]
      refine List.IsPrefix.trans ?_ (ih _)
      split
      · exact List.prefix_rfl
      · exact List.prefix_append _ _

theorem addSources_ne_nil (known : List Source) {others : List Source} (h : others ≠ []) :
    addSources known others ≠ [] := by
  cases others with
  | nil => exact absurd rfl h
  | cons first rest =>
      rw [addSources]
      split
      · next hKnown =>
        -- a source that is known already is among those that are kept
        intro hNil
        have hPrefix := known_prefix_addSources known rest
        rw [hNil, List.prefix_nil] at hPrefix
        simp [hPrefix] at hKnown
      · intro hNil
        have hPrefix := known_prefix_addSources (known ++ [first]) rest
        rw [hNil, List.prefix_nil] at hPrefix
        simp at hPrefix

/-- Merging sources of some stories gives sources of these stories. -/
theorem mergeSources_sound {stories : List Story} {into : Catalog (List Source)}
    {others : List (String × List Source)}
    (hInto : ∀ name sources, into.find? name = some sources →
      Source.AllStandFor stories name sources)
    (hOthers : ∀ name sources, (name, sources) ∈ others →
      Source.AllStandFor stories name sources) {name : String} {sources : List Source}
    (h : (mergeSources into others).find? name = some sources) :
    Source.AllStandFor stories name sources := by
  induction others generalizing into with
  | nil => exact hInto name sources h
  | cons first rest ih =>
      obtain ⟨argument, added⟩ := first
      obtain ⟨hSome, hAdded⟩ := hOthers argument added List.mem_cons_self
      refine ih ?_ (fun name sources hMem => hOthers name sources (List.mem_cons_of_mem _ hMem)) h
      intro other joined hFind
      rw [Catalog.find?_insert] at hFind
      split at hFind
      · next hName =>
        -- the sources of this argument are joined with those known of it
        subst hName
        obtain rfl := Option.some.inj hFind
        refine ⟨addSources_ne_nil _ hSome, fun source hSource => ?_⟩
        rcases mem_addSources hSource with hKnown | hNew
        · cases hOld : into.find? other with
          | none =>
              rw [hOld] at hKnown
              cases hKnown
          | some known =>
              rw [hOld] at hKnown
              exact (hInto other known hOld).2 source hKnown
        · exact hAdded source hNew
      · exact hInto other joined hFind

theorem Sound.absorb {c other : Contract} {stories : List Story} (h : c.Sound stories)
    (hOther : other.Sound stories) : (c.absorb other).Sound stories where
  sources name sources hFind := by
    refine mergeSources_sound h.sources (fun argument added hMem => ?_) hFind
    exact hOther.sources argument added (Catalog.find?_eq_some_iff.mpr hMem)
  declared := h.declared

theorem Sound.absorbVariables {c other : Contract} {stories : List Story} (h : c.Sound stories) :
    (c.absorbVariables other).Sound stories where
  sources := h.sources
  declared name hName := Catalog.mem_names_foldl_insert.mpr (.inl (h.declared name hName))

theorem Sound.combine {parent child parent' child' : Contract} {stories : List Story}
    (hParent : parent.Sound stories) (hChild : child.Sound stories)
    (h : parent.combine child = .ok (parent', child')) :
    parent'.Sound stories ∧ child'.Sound stories := by
  have hBoth := hParent.absorb hChild
  obtain ⟨-, rfl, rfl | rfl⟩ := combine_cases h
  · exact ⟨hBoth, hChild.absorb hBoth⟩
  · exact ⟨hBoth.absorbVariables, hChild.absorb hBoth⟩

theorem Sound.foldl_absorb {rest : List Contract} {c : Contract} {stories : List Story}
    (h : c.Sound stories) (hRest : ∀ other ∈ rest, other.Sound stories) :
    (rest.foldl Contract.absorb c).Sound stories := by
  induction rest generalizing c with
  | nil => exact h
  | cons other rest ih =>
      exact ih (h.absorb (hRest other List.mem_cons_self))
        fun later hLater => hRest later (List.mem_cons_of_mem _ hLater)

/-- Sharing arguments among sound contracts leaves them sound. -/
theorem sync_sound {contracts : List Contract} {stories : List Story}
    (h : ∀ c ∈ contracts, c.Sound stories) : ∀ c ∈ sync contracts, c.Sound stories := by
  cases contracts with
  | nil => exact h
  | cons root rest =>
      rw [sync]
      split
      · exact h
      have hInner : ∀ other ∈ rest, other.Sound stories :=
        fun other hOther => h other (List.mem_cons_of_mem _ hOther)
      have hRoot := (h root List.mem_cons_self).foldl_absorb hInner
      intro c hc
      rcases List.mem_cons.mp hc with rfl | hc
      · exact hRoot
      · obtain ⟨other, hOther, rfl⟩ := List.mem_map.mp hc
        exact (hInner other hOther).absorb hRoot

end Contract

/-! ## Trees -/

namespace Draft

/-- The contracts of a draft stay sound, among all stories of the composition. -/
theorem Gathers.sound {scenes : Scenes β} {stories : List Story} {d d' : Draft β}
    (h : d.Gathers scenes d') (hStories : ∀ story ∈ scenes.stories, story ∈ stories)
    (hSound : ∀ c ∈ d.root :: d.inner, c.Sound stories) :
    ∀ c ∈ d'.root :: d'.inner, c.Sound stories := by
  induction h with
  | done => exact hSound
  | step _ ih => exact ih hStories hSound
  | parallel _ ih => exact ih hStories hSound
  | @story d d' c₀ c _ definition _ inner _ root childRoot _ hStart _ hCombine _ _ ihInner ih =>
      obtain ⟨alone, hAlone, rfl⟩ := start_eq_ok hStart
      have hInner : ∀ story ∈ inner.stories, story ∈ stories := fun story hStory =>
        hStories story (List.mem_cons_of_mem _ (List.mem_append_left _ hStory))
      have hDefinition : alone.Sound stories := by
        refine (Contract.sound_of_contract hAlone).mono fun story hStory => ?_
        obtain rfl := List.mem_singleton.mp hStory
        exact hStories story List.mem_cons_self
      have hFinish : ∀ other ∈ c.finish.contracts, other.Sound stories := by
        rw [contracts_finish]
        exact Contract.sync_sound (ihInner hInner (by simpa using hDefinition))
      obtain ⟨hRoot, hChildRoot⟩ := (hSound d.root List.mem_cons_self).combine
        (hFinish c.finish.root List.mem_cons_self) hCombine
      refine ih (fun story hStory => hStories story
        (List.mem_cons_of_mem _ (List.mem_append_right _ hStory))) ?_
      -- the contracts of the draft, its root combined, then those of the substory
      intro other hOther
      rcases List.mem_cons.mp hOther with rfl | hOther
      · exact hRoot
      rcases List.mem_append.mp hOther with hOld | hNew
      · exact hSound other (List.mem_cons_of_mem _ hOld)
      rcases List.mem_cons.mp hNew with rfl | hNew
      · exact hChildRoot
      · exact hFinish other (List.mem_cons_of_mem _ hNew)

end Draft

namespace Draft

/-- Stories that are gathered have a schema if the draft has one, and none otherwise. -/
theorem Gathers.isSome_spec {scenes : Scenes β} {d d' : Draft β} (h : d.Gathers scenes d') :
    ∀ story ∈ scenes.stories, story.spec.isSome = d.root.spec.isSome := by
  induction h with
  | done => exact fun _ hStory => by cases hStory
  | step _ ih => exact ih
  | parallel _ ih => exact ih
  | @story d d' c₀ c _ definition _ _ _ root _ _ hStart hGathers hCombine _ _ ihInner ih =>
      have hOf := hGathers.contracts.finish hStart
      obtain ⟨-, -, hChildSpec⟩ := (List.forall₂_cons.mp hOf).1.declares
      have hSame : d.root.spec.isSome = definition.spec.isSome := by
        rw [(Contract.combine_cases hCombine).1, hChildSpec]
      have hRoot : root.spec = d.root.spec := congrArg (·.2.2.1) (Contract.own_combine hCombine).1
      obtain ⟨alone, hAlone, rfl⟩ := start_eq_ok hStart
      obtain ⟨-, -, hAloneSpec⟩ := Contract.build_eq_ok hAlone
      intro story hStory
      rcases List.mem_cons.mp hStory with rfl | hStory
      · exact hSame.symm
      rcases List.mem_append.mp hStory with hIn | hOut
      · calc story.spec.isSome = alone.spec.isSome := ihInner story hIn
          _ = definition.spec.isSome := by rw [hAloneSpec]
          _ = d.root.spec.isSome := hSame.symm
      · calc story.spec.isSome = root.spec.isSome := ih story hOut
          _ = d.root.spec.isSome := by rw [hRoot]

end Draft

section

variable {cast : Cast β} {tree : StoryTree β} {plan : Plan β}

/-- **The contracts of a plan are sound**: all their sources are those of stories of the tree. -/
theorem Mounts.sound (h : Mounts cast tree plan) {c : Contract} (hc : c ∈ plan.contracts) :
    c.Sound tree.stories := by
  obtain ⟨d₀, d, hStart, hGathers, rfl⟩ := h.gathered
  obtain ⟨alone, hAlone, rfl⟩ := Draft.start_eq_ok hStart
  have hRoot : alone.Sound tree.stories := by
    refine (Contract.sound_of_contract hAlone).mono fun story hStory => ?_
    obtain rfl := List.mem_singleton.mp hStory
    exact List.mem_cons_self
  have hAll : ∀ other ∈ d.root :: d.inner, other.Sound tree.stories := by
    refine hGathers.sound ?_ fun other hOther => ?_
    · exact fun story hStory => List.mem_cons_of_mem tree.definition hStory
    · obtain rfl := List.mem_singleton.mp hOther
      exact hRoot
  rw [Draft.contracts_finish] at hc
  exact Contract.sync_sound hAll c hc

/-- The stories of a tree that mounts all have schemas, or none has. -/
theorem Mounts.isSome_spec (h : Mounts cast tree plan) {story : Story}
    (hStory : story ∈ tree.stories) : story.spec.isSome = tree.definition.spec.isSome := by
  obtain ⟨d₀, d, hStart, hGathers, rfl⟩ := h.gathered
  have hScenes := hGathers.isSome_spec
  obtain ⟨alone, hAlone, rfl⟩ := Draft.start_eq_ok hStart
  obtain ⟨-, -, hSpec⟩ := Contract.build_eq_ok hAlone
  rcases List.mem_cons.mp hStory with rfl | hStory
  · rfl
  · rw [hScenes story hStory, hSpec]

end

/-! ## What sound contracts accept -/

namespace Contract

/-- The validators that are registered for a name: that of an own variable, and those of all
sources. -/
def registered (c : Contract) (name : String) : List Field :=
  (c.ownVariables.find? name).toList ++ (c.sourcesOf name).filterMap Source.validator

/-- A value is accepted and stored in some form: there are validators registered for its name,
and all of them accept it in a form equal to the stored one. -/
structure Accepts (c : Contract) (name : String) (raw stored : Json) : Prop where
  registered : c.registered name ≠ []
  forms : ∀ field ∈ c.registered name,
    ∃ form, field.validate raw = .ok form ∧ (form = stored ∨ stored.same form = true)

/-- The validators that a check runs are those that are registered, if it is known who declares the
own variables. -/
theorem map_validatorsOf {c : Contract}
    (h : ∀ name ∈ c.ownVariables.names, name ∈ c.declared.names) (name : String) :
    (c.validatorsOf name).map Prod.snd = c.registered name := by
  unfold validatorsOf Contract.registered
  rw [List.map_append, List.map_filterMap]
  congr 1
  · cases hOwn : c.ownVariables.find? name with
    | none => rfl
    | some field =>
        -- an own variable is validated only where it is known who declares it
        have hName : name ∈ c.ownVariables.names := by
          rw [← Catalog.find?_isSome_iff, hOwn]
          rfl
        have hDeclared := h name hName
        rw [← Catalog.find?_isSome_iff] at hDeclared
        obtain ⟨declaration, hDeclaration⟩ := Option.isSome_iff_exists.mp hDeclared
        rw [hDeclaration]
        rfl
  · refine List.filterMap_congr fun source _ => ?_
    cases source.validator <;> rfl

/-- A source of a sound contract is that of some story. -/
theorem Sound.exists_standsFor {c : Contract} {stories : List Story} (h : c.Sound stories)
    {name : String} {source : Source} (hSource : source ∈ c.sourcesOf name) :
    ∃ story ∈ stories, source.StandsFor name story := by
  unfold sourcesOf at hSource
  cases hFind : c.sources.find? name with
  | none =>
      rw [hFind] at hSource
      cases hSource
  | some sources =>
      rw [hFind] at hSource
      exact (h.sources name sources hFind).2 source hSource

/-- The arguments of a sound contract are the names that have a source. -/
theorem Sound.mem_argumentNames_iff_sourcesOf {c : Contract} {stories : List Story}
    (h : c.Sound stories) {name : String} : name ∈ c.argumentNames ↔ c.sourcesOf name ≠ [] := by
  have hFound : name ∈ c.argumentNames ↔ (c.sources.find? name).isSome = true :=
    (Catalog.find?_isSome_iff _ _).symm
  rw [hFound]
  unfold sourcesOf
  cases hFind : c.sources.find? name with
  | none => simp
  | some sources => simpa using (h.sources name sources hFind).1

/-- A name that is admitted by a sound contract has a validator, if all stories have schemas. -/
theorem Sound.registered_ne_nil {c : Contract} {stories : List Story} (h : c.Sound stories)
    (hSchemas : ∀ story ∈ stories, story.spec.isSome = true) {name : String}
    (hAdmits : name ∈ c.ownVariables.names ∨ name ∈ c.argumentNames) : c.registered name ≠ [] := by
  unfold Contract.registered
  rcases hAdmits with hOwn | hArgument
  · rw [← Catalog.find?_isSome_iff] at hOwn
    obtain ⟨field, hField⟩ := Option.isSome_iff_exists.mp hOwn
    simp [hField]
  · -- an argument has a source, whose story has a schema
    have hSome := h.mem_argumentNames_iff_sourcesOf.mp hArgument
    obtain ⟨source, hSource⟩ := List.exists_mem_of_ne_nil _ hSome
    obtain ⟨story, hStory, -, -, hStands⟩ := h.exists_standsFor hSource
    obtain ⟨spec, hSpec⟩ := Option.isSome_iff_exists.mp (hSchemas story hStory)
    rw [hSpec] at hStands
    obtain ⟨field, -, hValidator⟩ := hStands
    have hMem : field ∈ (c.sourcesOf name).filterMap Source.validator :=
      List.mem_filterMap.mpr ⟨source, hSource, hValidator⟩
    exact List.ne_nil_of_mem (List.mem_append_right _ hMem)

/-- A value that is judged by a sound contract is accepted. -/
theorem Sound.accepts {c : Contract} {stories : List Story} (h : c.Sound stories)
    (hSchemas : ∀ story ∈ stories, story.spec.isSome = true) {given kept : String × Json}
    (hJudged : c.Judged given kept)
    (hAdmits : given.1 ∈ c.ownVariables.names ∨ given.1 ∈ c.argumentNames) :
    c.Accepts given.1 given.2 kept.2 where
  registered := h.registered_ne_nil hSchemas hAdmits
  forms field hField := by
    rw [← map_validatorsOf h.declared] at hField
    obtain ⟨validator, hValidator, rfl⟩ := List.mem_map.mp hField
    exact hJudged.accepts validator hValidator

/-- An argument of a sound contract is one that some story declares. -/
theorem Sound.exists_declares {c : Contract} {stories : List Story} (h : c.Sound stories)
    {name : String} (hName : name ∈ c.argumentNames) :
    ∃ story ∈ stories, name ∈ story.arguments := by
  have hSome := h.mem_argumentNames_iff_sourcesOf.mp hName
  obtain ⟨source, hSource⟩ := List.exists_mem_of_ne_nil _ hSome
  obtain ⟨story, hStory, -, hArgument, -⟩ := h.exists_standsFor hSource
  exact ⟨story, hStory, hArgument⟩

end Contract

end Storyline
