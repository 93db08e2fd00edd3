import Storyline.Proofs.Merging

/-!
# Synchronised contracts

A composition with schemas synchronises its contracts at the end: the first one takes in the others
one after the other, and then each of them takes in the first. What comes out does not show how it
was done (`Contract.sync_agrees`): every contract has the arguments of all and for each of them the
stories of all, whatever the order of the contracts behind the first. What a contract had stays in
front, so that contracts that are synchronised once more stay as they are.
-/

set_option autoImplicit false

namespace Storyline

/-- Giving a name the value that it has changes nothing. -/
theorem Catalog.insert_of_find? {α : Type} {m : Catalog α} {name : String} {value : α}
    (h : m.find? name = some value) : m.insert name value = m := by
  apply Catalog.ext_find?
  intro other
  rw [find?_insert]
  by_cases hName : other = name
  · rw [if_pos hName, hName, h]
  · rw [if_neg hName]

/-! ## Sources behind those that are known -/

/-- Sources that are known, with some of a pool behind them: one for each of some stories that had
none. -/
def Source.Joined (pool : Source → Prop) (known joined : List Source) : Prop :=
  ∃ added, joined = known ++ added ∧ (added.map Source.story).Nodup ∧
    ∀ source ∈ added, (∀ other ∈ known, other.story ≠ source.story) ∧ pool source

namespace Source.Joined

variable {pool pool' : Source → Prop} {known joined further : List Source}

theorem refl (pool : Source → Prop) (known : List Source) : Joined pool known known :=
  ⟨[], by simp, by simp, by simp⟩

theorem trans (h : Joined pool known joined) (h' : Joined pool joined further) :
    Joined pool known further := by
  obtain ⟨added, rfl, hDistinct, hAdded⟩ := h
  obtain ⟨more, rfl, hDistinct', hMore⟩ := h'
  refine ⟨added ++ more, by rw [List.append_assoc], ?_, ?_⟩
  · rw [List.map_append]
    refine List.nodup_append.mpr ⟨hDistinct, hDistinct', ?_⟩
    intro owner hOwner owner' hOwner' hSame
    obtain ⟨source, hSource, rfl⟩ := List.mem_map.mp hOwner
    obtain ⟨source', hSource', rfl⟩ := List.mem_map.mp hOwner'
    exact (hMore source' hSource').1 source (List.mem_append_right _ hSource) hSame
  · intro source hSource
    rcases List.mem_append.mp hSource with hFirst | hLater
    · exact hAdded source hFirst
    · obtain ⟨hNew, hPool⟩ := hMore source hLater
      exact ⟨fun other hOther => hNew other (List.mem_append_left _ hOther), hPool⟩

theorem mono (h : Joined pool known joined) (hPool : ∀ source, pool source → pool' source) :
    Joined pool' known joined := by
  obtain ⟨added, hJoined, hDistinct, hAdded⟩ := h
  refine ⟨added, hJoined, hDistinct, fun source hSource => ?_⟩
  exact ⟨(hAdded source hSource).1, hPool source (hAdded source hSource).2⟩

/-- All sources are known ones or of the pool. -/
theorem mem (h : Joined pool known joined) {source : Source} (hSource : source ∈ joined) :
    source ∈ known ∨ pool source := by
  obtain ⟨added, rfl, -, hAdded⟩ := h
  rcases List.mem_append.mp hSource with hKnown | hNew
  · exact .inl hKnown
  · exact .inr (hAdded source hNew).2

end Source.Joined

namespace Contract

theorem joined_addSources (known others : List Source) :
    Source.Joined (· ∈ others) known (addSources known others) := by
  induction others generalizing known with
  | nil => exact .refl _ known
  | cons first rest ih =>
      rw [addSources]
      have hRest : ∀ known, Source.Joined (· ∈ first :: rest) known (addSources known rest) :=
        fun known => (ih known).mono fun _ hSource => List.mem_cons_of_mem _ hSource
      by_cases hKnown : (known.any fun other => other.story == first.story) = true
      · rw [if_pos hKnown]
        exact hRest known
      · rw [if_neg hKnown]
        refine Source.Joined.trans ⟨[first], rfl, by simp, ?_⟩ (hRest _)
        intro source hSource
        obtain rfl := List.mem_singleton.mp hSource
        refine ⟨fun other hOther hSame => hKnown ?_, List.mem_cons_self⟩
        exact List.any_eq_true.mpr ⟨other, hOther, by simp [hSame]⟩

theorem joined_mergeSources (into : Catalog (List Source)) (others : List (String × List Source))
    (name : String) :
    Source.Joined (fun source => ∃ sources, (name, sources) ∈ others ∧ source ∈ sources)
      ((into.find? name).getD []) (((mergeSources into others).find? name).getD []) := by
  induction others generalizing into with
  | nil => exact .refl _ _
  | cons first rest ih =>
      obtain ⟨argument, sources⟩ := first
      rw [mergeSources]
      have hRest := ih (into.insert argument (addSources ((into.find? argument).getD []) sources))
      rw [Catalog.find?_insert] at hRest
      refine Source.Joined.trans ?_ (hRest.mono ?_)
      · by_cases hName : name = argument
        · rw [if_pos hName, Option.getD_some, ← hName]
          refine (joined_addSources _ sources).mono fun source hSource => ?_
          exact ⟨sources, List.mem_cons_self, hSource⟩
        · rw [if_neg hName]
          exact .refl _ _
      · rintro source ⟨others, hOthers, hSource⟩
        exact ⟨others, List.mem_cons_of_mem _ hOthers, hSource⟩

theorem joined_absorb (c other : Contract) (name : String) :
    Source.Joined (· ∈ other.sourcesOf name) (c.sourcesOf name)
      ((c.absorb other).sourcesOf name) := by
  refine (joined_mergeSources c.sources other.sources.entries name).mono ?_
  rintro source ⟨sources, hSources, hSource⟩
  rw [sourcesOf, Catalog.find?_eq_some_iff.mpr hSources]
  exact hSource

theorem joined_foldl_absorb (rest : List Contract) (c : Contract) (name : String) :
    Source.Joined (fun source => ∃ other ∈ rest, source ∈ other.sourcesOf name)
      (c.sourcesOf name) ((rest.foldl absorb c).sourcesOf name) := by
  induction rest generalizing c with
  | nil => exact .refl _ _
  | cons first rest ih =>
      rw [List.foldl_cons]
      refine ((joined_absorb c first name).mono ?_).trans ((ih (c.absorb first)).mono ?_)
      · intro source hSource
        exact ⟨first, List.mem_cons_self, hSource⟩
      · rintro source ⟨other, hOther, hSource⟩
        exact ⟨other, List.mem_cons_of_mem _ hOther, hSource⟩

/-! ## Names and stories of all -/

theorem mem_names_mergeSources_iff {into : Catalog (List Source)}
    {others : List (String × List Source)} {name : String} :
    name ∈ (mergeSources into others).names ↔ name ∈ into.names ∨ name ∈ others.map Prod.fst := by
  induction others generalizing into with
  | nil => simp [mergeSources]
  | cons first rest ih =>
      rw [mergeSources, ih, Catalog.mem_names_insert, List.map_cons, List.mem_cons]
      grind

theorem mem_argumentNames_absorb_iff {c other : Contract} {name : String} :
    name ∈ (c.absorb other).argumentNames ↔
      name ∈ c.argumentNames ∨ name ∈ other.argumentNames :=
  mem_names_mergeSources_iff

theorem mem_argumentNames_foldl_absorb_iff {rest : List Contract} {c : Contract} {name : String} :
    name ∈ (rest.foldl absorb c).argumentNames ↔
      ∃ other ∈ c :: rest, name ∈ other.argumentNames := by
  induction rest generalizing c with
  | nil => simp
  | cons first rest ih =>
      rw [List.foldl_cons, ih]
      simp [mem_argumentNames_absorb_iff, or_assoc]

theorem hasSource_foldl_absorb_iff {rest : List Contract} {c : Contract} {name : String}
    {owner : StoryName} :
    (rest.foldl absorb c).HasSource name owner ↔
      ∃ other ∈ c :: rest, other.HasSource name owner := by
  induction rest generalizing c with
  | nil => simp
  | cons first rest ih =>
      rw [List.foldl_cons, ih]
      simp [hasSource_absorb_iff, or_assoc]

/-! ## Nothing new -/

/-- A contract includes another: it has its arguments, with a source for each story that the other
has one of. -/
structure Includes (c other : Contract) : Prop where
  names : ∀ name ∈ other.argumentNames, name ∈ c.argumentNames
  owners : ∀ name owner, other.HasSource name owner → c.HasSource name owner

theorem Includes.refl (c : Contract) : c.Includes c where
  names _ hName := hName
  owners _ _ hSource := hSource

theorem addSources_eq_self {known others : List Source}
    (h : ∀ source ∈ others, ∃ other ∈ known, other.story = source.story) :
    addSources known others = known := by
  induction others with
  | nil => rfl
  | cons first rest ih =>
      obtain ⟨other, hOther, hSame⟩ := h first List.mem_cons_self
      have hKnown : (known.any fun other => other.story == first.story) = true :=
        List.any_eq_true.mpr ⟨other, hOther, by simp [hSame]⟩
      rw [addSources, if_pos hKnown]
      exact ih fun source hSource => h source (List.mem_cons_of_mem _ hSource)

theorem mergeSources_eq_self {into : Catalog (List Source)}
    {others : List (String × List Source)}
    (h : ∀ name sources, (name, sources) ∈ others → ∃ known, into.find? name = some known ∧
      ∀ source ∈ sources, ∃ other ∈ known, other.story = source.story) :
    mergeSources into others = into := by
  induction others with
  | nil => rfl
  | cons first rest ih =>
      obtain ⟨argument, sources⟩ := first
      obtain ⟨known, hFind, hSources⟩ := h argument sources List.mem_cons_self
      have hInsert : into.insert argument (addSources known sources) = into := by
        rw [addSources_eq_self hSources]
        exact Catalog.insert_of_find? hFind
      rw [mergeSources, hFind, Option.getD_some, hInsert]
      exact ih fun name sources hPair => h name sources (List.mem_cons_of_mem _ hPair)

/-- A contract gets nothing from those that it includes. -/
theorem Includes.absorb_eq_self {c other : Contract} (h : c.Includes other) :
    c.absorb other = c := by
  have hSources : mergeSources c.sources other.sources.entries = c.sources := by
    apply mergeSources_eq_self
    intro name sources hPair
    have hName : name ∈ c.argumentNames := h.names name (List.mem_map_of_mem hPair)
    obtain ⟨known, hFind⟩ :=
      Option.isSome_iff_exists.mp ((Catalog.find?_isSome_iff _ _).mpr hName)
    refine ⟨known, hFind, fun source hSource => ?_⟩
    have hOther : other.HasSource name source.story := by
      refine ⟨source, ?_, rfl⟩
      rw [sourcesOf, Catalog.find?_eq_some_iff.mpr hPair]
      exact hSource
    obtain ⟨same, hSame, hStory⟩ := h.owners name source.story hOther
    rw [sourcesOf, hFind] at hSame
    exact ⟨same, hSame, hStory⟩
  rw [absorb, hSources]

theorem foldl_absorb_eq_self {rest : List Contract} {c : Contract}
    (h : ∀ other ∈ rest, c.Includes other) : rest.foldl absorb c = c := by
  induction rest with
  | nil => rfl
  | cons first rest ih =>
      rw [List.foldl_cons, (h first List.mem_cons_self).absorb_eq_self]
      exact ih fun other hOther => h other (List.mem_cons_of_mem _ hOther)

/-- A contract includes those that it has taken in. -/
theorem includes_absorb (c other : Contract) : (c.absorb other).Includes other where
  names _ hName := mem_argumentNames_absorb_iff.mpr (.inr hName)
  owners _ _ hSource := hasSource_absorb_iff.mpr (.inr hSource)

theorem includes_foldl_absorb {root : Contract} {rest : List Contract} {other : Contract}
    (h : other ∈ root :: rest) : (rest.foldl absorb root).Includes other where
  names _ hName := mem_argumentNames_foldl_absorb_iff.mpr ⟨other, h, hName⟩
  owners _ _ hSource := hasSource_foldl_absorb_iff.mpr ⟨other, h, hSource⟩

/-- A contract that includes two others includes what one of them becomes with the other. -/
theorem Includes.of_absorb {c other other' : Contract} (h : c.Includes other)
    (h' : c.Includes other') : c.Includes (other.absorb other') where
  names name hName := (mem_argumentNames_absorb_iff.mp hName).elim (h.names name) (h'.names name)
  owners name owner hSource :=
    (hasSource_absorb_iff.mp hSource).elim (h.owners name owner) (h'.owners name owner)

/-! ## Synchronising -/

theorem sync_of_schema {root : Contract} (hSchema : root.isNull = false) (rest : List Contract) :
    sync (root :: rest) =
      rest.foldl absorb root :: rest.map fun other => other.absorb (rest.foldl absorb root) := by
  rw [sync, hSchema, if_neg Bool.false_ne_true]

theorem isNull_foldl_absorb (rest : List Contract) (root : Contract) :
    (rest.foldl absorb root).isNull = root.isNull := by
  have hSpec : (rest.foldl absorb root).spec = root.spec :=
    congrArg (·.2.2.1) (own_foldl_absorb rest root)
  rw [isNull, isNull, hSpec]

/-- What becomes of a contract that is synchronised with others. -/
structure Synchronised (all : List Contract) (c c' : Contract) : Prop where
  own : c'.own = c.own
  declared : c'.declared = c.declared
  /-- It has the arguments of all. -/
  names : ∀ name, name ∈ c'.argumentNames ↔ ∃ other ∈ all, name ∈ other.argumentNames
  /-- Each argument is declared by the stories of all. -/
  owners : ∀ name owner, c'.HasSource name owner ↔ ∃ other ∈ all, other.HasSource name owner
  /-- The sources it had are in front of the others, which are sources of the contracts and stand
  for different stories that had none before. -/
  front : ∀ name, Source.Joined (fun source => ∃ other ∈ all, source ∈ other.sourcesOf name)
    (c.sourcesOf name) (c'.sourcesOf name)

theorem synchronised_root (root : Contract) (rest : List Contract) :
    Synchronised (root :: rest) root (rest.foldl absorb root) where
  own := own_foldl_absorb rest root
  declared := declared_foldl_absorb rest root
  names _ := mem_argumentNames_foldl_absorb_iff
  owners _ _ := hasSource_foldl_absorb_iff
  front name := by
    refine (joined_foldl_absorb rest root name).mono ?_
    rintro source ⟨other, hOther, hSource⟩
    exact ⟨other, List.mem_cons_of_mem _ hOther, hSource⟩

/-- The contracts behind the first hear of all through the first. -/
theorem synchronised_absorb {all : List Contract} {root root' c : Contract}
    (hRoot : Synchronised all root root') (hIn : root ∈ all) (hc : c ∈ all) :
    Synchronised all c (c.absorb root') where
  own := own_absorb c root'
  declared := rfl
  names name := by
    rw [mem_argumentNames_absorb_iff, hRoot.names]
    exact or_iff_right_of_imp fun hName => ⟨c, hc, hName⟩
  owners name owner := by
    rw [hasSource_absorb_iff, hRoot.owners]
    exact or_iff_right_of_imp fun hSource => ⟨c, hc, hSource⟩
  front name := by
    refine (joined_absorb c root' name).mono fun source hSource => ?_
    rcases (hRoot.front name).mem hSource with hOwn | hPool
    · exact ⟨root, hIn, hOwn⟩
    · exact hPool

theorem synchronised_sync {root : Contract} (hSchema : root.isNull = false)
    (rest : List Contract) :
    List.Forall₂ (Synchronised (root :: rest)) (root :: rest) (sync (root :: rest)) := by
  have hRoot := synchronised_root root rest
  rw [sync_of_schema hSchema]
  refine .cons hRoot ?_
  rw [List.forall₂_map_right_iff]
  refine List.forall₂_same.mpr fun c hc => ?_
  exact synchronised_absorb hRoot List.mem_cons_self (List.mem_cons_of_mem _ hc)

/-- Contracts that are synchronised have nothing to tell each other. -/
theorem sync_sync {root : Contract} (hSchema : root.isNull = false) (rest : List Contract) :
    sync (sync (root :: rest)) = sync (root :: rest) := by
  have hSchema' := (isNull_foldl_absorb rest root).trans hSchema
  rw [sync_of_schema hSchema, sync_of_schema hSchema']
  set root' := rest.foldl absorb root
  have hAgain : (rest.map fun other => other.absorb root').foldl absorb root' = root' := by
    apply foldl_absorb_eq_self
    intro other hOther
    obtain ⟨c, hc, rfl⟩ := List.mem_map.mp hOther
    exact (includes_foldl_absorb (List.mem_cons_of_mem _ hc)).of_absorb (.refl root')
  rw [hAgain, List.map_map]
  congr 1
  refine List.map_congr_left fun c _ => ?_
  exact (c.includes_absorb root').absorb_eq_self

/-- Contracts that were synchronised with the same others agree. -/
theorem Synchronised.agree {all all' : List Contract} {c₀ c c₀' c' : Contract}
    (h : Synchronised all c₀ c) (h' : Synchronised all' c₀' c')
    (hSame : ∀ other, other ∈ all ↔ other ∈ all') :
    c.argumentNames = c'.argumentNames ∧
      ∀ name owner, c.HasSource name owner ↔ c'.HasSource name owner := by
  constructor
  · refine Catalog.names_eq_of_mem_iff fun name => ?_
    calc name ∈ c.argumentNames
      _ ↔ ∃ other ∈ all, name ∈ other.argumentNames := h.names name
      _ ↔ ∃ other ∈ all', name ∈ other.argumentNames := by simp only [hSame]
      _ ↔ name ∈ c'.argumentNames := (h'.names name).symm
  · intro name owner
    calc c.HasSource name owner
      _ ↔ ∃ other ∈ all, other.HasSource name owner := h.owners name owner
      _ ↔ ∃ other ∈ all', other.HasSource name owner := by simp only [hSame]
      _ ↔ c'.HasSource name owner := (h'.owners name owner).symm

/-- **Synchronised contracts agree.** If the first of some contracts has a schema, synchronising
gives every contract the arguments and the declaring stories of all, behind what it had, and changes
nothing else. To do it once more changes nothing, and which arguments and stories come out does not
depend on the order of the contracts behind the first. -/
theorem sync_agrees {root : Contract} (hSchema : root.isNull = false) (rest : List Contract) :
    List.Forall₂ (Synchronised (root :: rest)) (root :: rest) (sync (root :: rest)) ∧
    sync (sync (root :: rest)) = sync (root :: rest) ∧
    ∀ others, others.Perm rest →
      ∀ c ∈ sync (root :: rest), ∀ c' ∈ sync (root :: others),
        c.argumentNames = c'.argumentNames ∧
          ∀ name owner, c.HasSource name owner ↔ c'.HasSource name owner := by
  have hAll := synchronised_sync hSchema
  refine ⟨hAll rest, sync_sync hSchema rest, fun others hPerm c hc c' hc' => ?_⟩
  obtain ⟨c₀, -, hOf⟩ := exists_rel_of_mem (hAll rest).flip hc
  obtain ⟨c₀', -, hOf'⟩ := exists_rel_of_mem (hAll others).flip hc'
  exact hOf.agree hOf' fun other => (hPerm.symm.cons root).mem_iff

end Contract

namespace Larder

/-- The salad hears of the guests through the soup, and the bread keeps its own source of them in
front. The bread could as well stand before the salad. -/
theorem guests_everywhere :
    let contracts := Contract.sync [store .soup, store .salad, store .bread]
    contracts.map (fun c => (c.sourcesOf "guests").map fun source => source.story.name) =
      [["soup", "bread"], ["soup", "bread"], ["bread", "soup"]] ∧
    Contract.sync contracts = contracts ∧
    ∀ c ∈ contracts, ∀ c' ∈ Contract.sync [store .soup, store .bread, store .salad],
      c'.argumentNames = ["guests", "oil"] ∧
        ∀ owner, c.HasSource "guests" owner ↔ c'.HasSource "guests" owner := by
  have hSchema : (store .soup).isNull = false := rfl
  obtain ⟨-, hAgain, hOrder⟩ := Contract.sync_agrees hSchema [store .salad, store .bread]
  refine ⟨rfl, hAgain, fun c hc c' hc' => ?_⟩
  have hSwapped := hOrder [store .bread, store .salad] (.swap _ _ _)
  refine ⟨?_, (hSwapped c hc c' hc').2 "guests"⟩
  -- the names are those of the soup, once it has heard of all
  obtain ⟨hNames, -⟩ := hSwapped _ List.mem_cons_self c' hc'
  exact hNames.symm.trans rfl

end Larder

end Storyline
