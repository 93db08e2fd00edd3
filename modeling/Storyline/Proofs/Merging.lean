import Mathlib.Data.List.Sort
import Mathlib.Logic.Function.Basic
import Storyline.Proofs.Announced
import Storyline.Proofs.Sharing

/-!
# Contracts that are merged in any order

Contracts may be combined in pairs and synchronised in groups in any order, more than once, and the
way a composition does it is only one of them. Whatever the order, a contract only grows
(`Contract.Grows`): its own part stays, further sources come behind those that it has, and no
declaration is taken from it. So it stays in order (`Contract.IsInOrder`), from which it follows
that contracts that combine have the same arguments afterwards.

The two parts are kept apart in the proofs. That a contract grows is a matter of one operation
alone; that it stays in order depends also on the order of the contracts it is merged with.
-/

set_option autoImplicit false

namespace Storyline

/-! ## Tables that grow -/

namespace Catalog

variable {α γ : Type}

/-- Tables in alphabetic order keep the order of their names when they get more of them. -/
theorem names_sublist {m : Catalog α} {other : Catalog γ} (h : m.names ⊆ other.names) :
    m.names.Sublist other.names := by
  have hOrder : ∀ {a b : String}, a < b → a ≤ b :=
    fun hLess => String.not_lt.mp (String.lt_asymm hLess)
  have hSorted : m.names.Pairwise (· ≤ ·) :=
    List.pairwise_map.mpr (m.sorted.imp hOrder)
  have hSorted' : other.names.Pairwise (· ≤ ·) :=
    List.pairwise_map.mpr (other.sorted.imp hOrder)
  have hSubperm := List.subperm_of_subset m.nodup_names h
  exact List.sublist_of_subperm_of_pairwise hSubperm hSorted hSorted'

/-- Names that are not among those that are inserted keep their values. -/
theorem find?_foldl_insert {pairs : List (String × α)} {name : String}
    (h : name ∉ pairs.map Prod.fst) (m : Catalog α) :
    (pairs.foldl (fun m (name, value) => m.insert name value) m).find? name = m.find? name := by
  induction pairs generalizing m with
  | nil => rfl
  | cons first rest ih =>
      rw [List.map_cons, List.mem_cons, not_or] at h
      rw [List.foldl_cons, ih h.2, find?_insert, if_neg h.1]

end Catalog

namespace Contract

/-! ## Growing -/

/-- A contract that another grows to: it has the same own part, all sources of each argument with
others perhaps behind them, and all declarations. -/
structure Grows (c c' : Contract) : Prop where
  own : c'.own = c.own
  sources : ∀ name sources, c.sources.find? name = some sources →
    ∃ more, c'.sources.find? name = some more ∧ sources <+: more
  declared : ∀ name declaration, c.declared.find? name = some declaration →
    c'.declared.find? name = some declaration

namespace Grows

theorem refl (c : Contract) : c.Grows c where
  own := rfl
  sources _ sources hFind := ⟨sources, hFind, List.prefix_rfl⟩
  declared _ _ hFind := hFind

theorem trans {c c' c'' : Contract} (h : c.Grows c') (h' : c'.Grows c'') : c.Grows c'' where
  own := h'.own.trans h.own
  sources name sources hFind := by
    obtain ⟨more, hMore, hPrefix⟩ := h.sources name sources hFind
    obtain ⟨most, hMost, hPrefix'⟩ := h'.sources name more hMore
    exact ⟨most, hMost, hPrefix.trans hPrefix'⟩
  declared name declaration hFind :=
    h'.declared name declaration (h.declared name declaration hFind)

/-- A contract that grows keeps its arguments and its declarations in order. -/
theorem names_sublist {c c' : Contract} (h : c.Grows c') :
    c.argumentNames.Sublist c'.argumentNames ∧ c.declared.names.Sublist c'.declared.names := by
  refine ⟨Catalog.names_sublist fun name hName => ?_, Catalog.names_sublist fun name hName => ?_⟩
  · obtain ⟨sources, hFind⟩ :=
      Option.isSome_iff_exists.mp ((Catalog.find?_isSome_iff _ _).mpr hName)
    obtain ⟨more, hMore, -⟩ := h.sources name sources hFind
    exact (Catalog.find?_isSome_iff _ _).mp (Option.isSome_iff_exists.mpr ⟨more, hMore⟩)
  · obtain ⟨declaration, hFind⟩ :=
      Option.isSome_iff_exists.mp ((Catalog.find?_isSome_iff _ _).mpr hName)
    exact (Catalog.find?_isSome_iff _ _).mp
      (Option.isSome_iff_exists.mpr ⟨declaration, h.declared name declaration hFind⟩)

end Grows

theorem exists_prefix_mergeSources {others : List (String × List Source)}
    {into : Catalog (List Source)} {name : String} {sources : List Source}
    (h : into.find? name = some sources) :
    ∃ more, (mergeSources into others).find? name = some more ∧ sources <+: more := by
  induction others generalizing into sources with
  | nil => exact ⟨sources, h, List.prefix_rfl⟩
  | cons first rest ih =>
      obtain ⟨argument, added⟩ := first
      rw [mergeSources]
      by_cases hName : name = argument
      · subst hName
        have hFirst : (into.insert name (addSources sources added)).find? name =
            some (addSources sources added) := by
          rw [Catalog.find?_insert, if_pos rfl]
        obtain ⟨more, hMore, hPrefix⟩ := ih hFirst
        rw [h, Option.getD_some]
        exact ⟨more, hMore, (known_prefix_addSources sources added).trans hPrefix⟩
      · exact ih (by rw [Catalog.find?_insert, if_neg hName, h])

theorem grows_absorb (c other : Contract) : c.Grows (c.absorb other) where
  own := rfl
  sources _ _ hFind := exists_prefix_mergeSources hFind
  declared _ _ hFind := hFind

theorem grows_foldl_absorb (rest : List Contract) (c : Contract) :
    c.Grows (rest.foldl absorb c) := by
  induction rest generalizing c with
  | nil => exact .refl c
  | cons other rest ih => exact (c.grows_absorb other).trans (ih (c.absorb other))

/-- The variables of another contract are added to those of a contract if the two are apart. -/
theorem grows_absorbVariables {c other : Contract}
    (h : ∀ name ∈ c.declared.names, name ∉ other.declared.names) :
    c.Grows (c.absorbVariables other) where
  own := rfl
  sources _ sources hFind := ⟨sources, hFind, List.prefix_rfl⟩
  declared name declaration hFind := by
    have hName : name ∈ c.declared.names := by
      rw [← Catalog.find?_isSome_iff, hFind]
      rfl
    exact (Catalog.find?_foldl_insert (h name hName) c.declared).trans hFind

/-- What combining two contracts comes to: each gets the sources of the other, and the first gets
the variables of the second only if they are apart. -/
theorem combine_apart {parent child parent' child' : Contract}
    (h : parent.combine child = .ok (parent', child')) :
    child' = child.absorb (parent.absorb child) ∧
      (parent' = parent.absorb child ∨
        parent' = (parent.absorb child).absorbVariables child' ∧
          ∀ name ∈ parent.declared.names, name ∉ child.declared.names) := by
  cases combines_of_ok h with
  | one _ => exact ⟨rfl, .inl rfl⟩
  | family _ hApart => exact ⟨rfl, .inr ⟨rfl, repeatedVariables_eq_nil_iff.mp hApart⟩⟩

theorem grows_combine {parent child parent' child' : Contract}
    (h : parent.combine child = .ok (parent', child')) :
    parent.Grows parent' ∧ child.Grows child' := by
  have hParent := parent.grows_absorb child
  obtain ⟨rfl, rfl | ⟨rfl, hApart⟩⟩ := combine_apart h
  · exact ⟨hParent, child.grows_absorb _⟩
  · exact ⟨hParent.trans (grows_absorbVariables hApart), child.grows_absorb _⟩

theorem grows_sync (contracts : List Contract) :
    List.Forall₂ Grows contracts (sync contracts) := by
  cases contracts with
  | nil => exact .nil
  | cons root rest =>
      rw [sync]
      split
      · exact List.forall₂_same.mpr fun c _ => .refl c
      · refine .cons (grows_foldl_absorb rest root) ?_
        rw [List.forall₂_map_right_iff]
        exact List.forall₂_same.mpr fun c _ => c.grows_absorb _

/-! ## Order -/

/-- A contract is in order: its own variables are declared by its own story, and every argument has
a source, but never two of one story. -/
structure IsInOrder (c : Contract) : Prop where
  declared : ∀ name ∈ c.ownVariables.names,
    ∃ declaration, c.declared.find? name = some declaration ∧ declaration.story = c.story
  sources : ∀ name sources, c.sources.find? name = some sources →
    sources ≠ [] ∧ (sources.map Source.story).Nodup

/-- The contract of a story alone is in order. -/
theorem isInOrder_of_build {story : StoryName} {arguments : List String} {spec : Option Spec}
    {c : Contract} (h : build story arguments spec = .ok c) : c.IsInOrder := by
  rcases build_cases h with ⟨-, rfl⟩ | ⟨schema, -, rfl⟩
  · refine ⟨fun name hName => (by cases hName), fun name sources hFind => ?_⟩
    obtain ⟨argument, -, hPair⟩ := List.mem_map.mp (Catalog.mem_of_find?_ofList hFind)
    cases hPair
    exact ⟨List.cons_ne_nil _ _, List.nodup_singleton _⟩
  · refine ⟨fun name hName => ?_, fun name sources hFind => ?_⟩
    · -- the own variables and their declarations are made of the same fields
      have hDeclared : name ∈ (ofSpec story arguments schema).declared.names := by
        refine Catalog.mem_names_ofList.mpr ?_
        rw [List.map_map]
        exact Catalog.mem_names_ofList.mp hName
      obtain ⟨declaration, hFind⟩ :=
        Option.isSome_iff_exists.mp ((Catalog.find?_isSome_iff _ _).mpr hDeclared)
      refine ⟨declaration, hFind, ?_⟩
      obtain ⟨_, -, hPair⟩ := List.mem_map.mp (Catalog.mem_of_find?_ofList hFind)
      cases hPair
      rfl
    · obtain ⟨field, -, hPair⟩ := List.mem_map.mp (Catalog.mem_of_find?_ofList hFind)
      cases hPair
      exact ⟨List.cons_ne_nil _ _, List.nodup_singleton _⟩

/-- A contract that has grown has its own variables declared as before. -/
theorem Grows.declares {c c' : Contract} (h : c.Grows c')
    (hDeclares : ∀ name ∈ c.ownVariables.names,
      ∃ declaration, c.declared.find? name = some declaration ∧ declaration.story = c.story) :
    ∀ name ∈ c'.ownVariables.names,
      ∃ declaration, c'.declared.find? name = some declaration ∧ declaration.story = c'.story := by
  have hVariables : c'.ownVariables = c.ownVariables := congrArg (·.2.2.2) h.own
  have hStory : c'.story = c.story := congrArg (·.1) h.own
  intro name hName
  rw [hVariables] at hName
  obtain ⟨declaration, hFind, hOwn⟩ := hDeclares name hName
  exact ⟨declaration, h.declared name declaration hFind, hOwn.trans hStory.symm⟩

theorem mergeSources_inOrder {others : List (String × List Source)} {into : Catalog (List Source)}
    (hInto : ∀ name sources, into.find? name = some sources →
      sources ≠ [] ∧ (sources.map Source.story).Nodup)
    (hOthers : ∀ name sources, (name, sources) ∈ others → sources ≠ []) {name : String}
    {sources : List Source} (h : (mergeSources into others).find? name = some sources) :
    sources ≠ [] ∧ (sources.map Source.story).Nodup := by
  induction others generalizing into with
  | nil => exact hInto name sources h
  | cons first rest ih =>
      obtain ⟨argument, added⟩ := first
      refine ih ?_ (fun name sources hMem => hOthers name sources (List.mem_cons_of_mem _ hMem)) h
      intro other joined hFind
      rw [Catalog.find?_insert] at hFind
      split at hFind
      · obtain rfl := Option.some.inj hFind
        refine ⟨addSources_ne_nil _ (hOthers argument added List.mem_cons_self), ?_⟩
        -- the sources that are known are distinct, if there are any
        refine nodup_addSources ?_ added
        cases hOld : into.find? argument with
        | none => exact List.nodup_nil
        | some known => exact (hInto argument known hOld).2
      · exact hInto other joined hFind

theorem IsInOrder.absorb {c other : Contract} (h : c.IsInOrder) (hOther : other.IsInOrder) :
    (c.absorb other).IsInOrder where
  declared := h.declared
  sources _ _ hFind := by
    refine mergeSources_inOrder h.sources (fun name sources hMem => ?_) hFind
    exact (hOther.sources name sources (Catalog.find?_eq_some_iff.mpr hMem)).1

theorem IsInOrder.foldl_absorb {rest : List Contract} {c : Contract} (h : c.IsInOrder)
    (hRest : ∀ other ∈ rest, other.IsInOrder) : (rest.foldl Contract.absorb c).IsInOrder := by
  induction rest generalizing c with
  | nil => exact h
  | cons other rest ih =>
      exact ih (h.absorb (hRest other List.mem_cons_self))
        fun later hLater => hRest later (List.mem_cons_of_mem _ hLater)

theorem IsInOrder.combine {parent child parent' child' : Contract} (hParent : parent.IsInOrder)
    (hChild : child.IsInOrder) (h : parent.combine child = .ok (parent', child')) :
    parent'.IsInOrder ∧ child'.IsInOrder := by
  have hBoth := hParent.absorb hChild
  have hGrows := (grows_combine h).1
  obtain ⟨rfl, rfl | ⟨rfl, -⟩⟩ := combine_apart h
  · exact ⟨hBoth, hChild.absorb hBoth⟩
  · exact ⟨⟨hGrows.declares hParent.declared, hBoth.sources⟩, hChild.absorb hBoth⟩

theorem isInOrder_sync {contracts : List Contract} (h : ∀ c ∈ contracts, c.IsInOrder) :
    ∀ c ∈ sync contracts, c.IsInOrder := by
  cases contracts with
  | nil => exact h
  | cons root rest =>
      rw [sync]
      split
      · exact h
      have hRest : ∀ other ∈ rest, other.IsInOrder :=
        fun other hOther => h other (List.mem_cons_of_mem _ hOther)
      have hRoot := (h root List.mem_cons_self).foldl_absorb hRest
      intro c hc
      rcases List.mem_cons.mp hc with rfl | hc
      · exact hRoot
      · obtain ⟨other, hOther, rfl⟩ := List.mem_map.mp hc
        exact (hRest other hOther).absorb hRoot

/-- In a contract that is in order the arguments are the names with a source. -/
theorem IsInOrder.mem_argumentNames_iff {c : Contract} (h : c.IsInOrder) {name : String} :
    name ∈ c.argumentNames ↔ ∃ owner, c.HasSource name owner := by
  rw [argumentNames, ← Catalog.find?_isSome_iff]
  unfold HasSource sourcesOf
  cases hFind : c.sources.find? name with
  | none => simp
  | some sources =>
      obtain ⟨source, hSource⟩ := List.exists_mem_of_ne_nil _ (h.sources name sources hFind).1
      simpa using ⟨source, hSource⟩

/-- Two contracts that combine have the sources of both, each in its own order. -/
theorem hasSource_combine_iff {parent child parent' child' : Contract}
    (h : parent.combine child = .ok (parent', child')) (name : String) (owner : StoryName) :
    (parent'.HasSource name owner ↔ parent.HasSource name owner ∨ child.HasSource name owner) ∧
      (child'.HasSource name owner ↔ parent.HasSource name owner ∨ child.HasSource name owner) := by
  have hParent : parent'.HasSource name owner ↔ (parent.absorb child).HasSource name owner := by
    obtain ⟨-, rfl | ⟨rfl, -⟩⟩ := combine_apart h
    · exact Iff.rfl
    · exact Iff.rfl
  obtain ⟨rfl, -⟩ := combine_apart h
  rw [hParent, hasSource_absorb_iff, hasSource_absorb_iff, hasSource_absorb_iff]
  exact ⟨Iff.rfl, by tauto⟩

/-! ## Operations in any order -/

variable {ι : Type} [DecidableEq ι]

/-- An operation on contracts that lie at some places: two of them are combined, or some are
synchronised, the first being that of the whole. No contract takes part twice. -/
inductive Operation (ι : Type) where
  | combine (parent child : ι) (apart : parent ≠ child)
  | sync (places : List ι) (distinct : places.Nodup)

/-- The contracts after an operation. -/
def perform (store : ι → Contract) : Operation ι → ι → Contract
  | .combine parent child _ =>
    let after := combination (store parent) (store child)
    Function.update (Function.update store parent after.parent) child after.child
  | .sync places _ => fun i =>
    ((Contract.sync (places.map store))[places.idxOf i]?).getD (store i)

/-- The contracts after some operations, one after the other. -/
def performAll (store : ι → Contract) (operations : List (Operation ι)) : ι → Contract :=
  operations.foldl perform store

section

variable {store : ι → Contract} {parent child : ι} {apart : parent ≠ child}

theorem perform_of_ok {parent' child' : Contract}
    (h : (store parent).combine (store child) = .ok (parent', child')) :
    perform store (.combine parent child apart) =
      Function.update (Function.update store parent parent') child child' := by
  simp only [perform, combination_of_ok h]

/-- What is put back is what was there. -/
theorem perform_of_error {cause : ContractError}
    (h : (store parent).combine (store child) = .error cause) :
    perform store (.combine parent child apart) = store := by
  simp only [perform, combination_of_error h, Function.update_eq_self]

end

/-- A contract that an operation comes to has grown, and is in order if all were before. -/
theorem perform_grows (store : ι → Contract) (operation : Operation ι) (i : ι) :
    (store i).Grows (perform store operation i) ∧
      ((∀ j, (store j).IsInOrder) → (perform store operation i).IsInOrder) := by
  cases operation with
  | combine parent child apart =>
      cases hCombine : (store parent).combine (store child) with
      | error cause =>
          rw [perform_of_error hCombine]
          exact ⟨.refl _, fun h => h i⟩
      | ok both =>
          obtain ⟨parent', child'⟩ := both
          rw [perform_of_ok hCombine]
          obtain ⟨hParent, hChild⟩ := grows_combine hCombine
          by_cases hIsChild : i = child
          · subst hIsChild
            rw [Function.update_self]
            exact ⟨hChild, fun h => ((h parent).combine (h i) hCombine).2⟩
          rw [Function.update_of_ne hIsChild]
          by_cases hIsParent : i = parent
          · subst hIsParent
            rw [Function.update_self]
            exact ⟨hParent, fun h => ((h i).combine (h child) hCombine).1⟩
          · rw [Function.update_of_ne hIsParent]
            exact ⟨.refl _, fun h => h i⟩
  | sync places distinct =>
      show (store i).Grows (((Contract.sync (places.map store))[places.idxOf i]?).getD (store i)) ∧
        (_ → (((Contract.sync (places.map store))[places.idxOf i]?).getD (store i)).IsInOrder)
      cases hFound : (Contract.sync (places.map store))[places.idxOf i]? with
      | none => exact ⟨.refl _, fun h => h i⟩
      | some c =>
          refine ⟨?_, fun h => isInOrder_sync (fun other hOther => ?_) c
            (List.mem_of_getElem? hFound)⟩
          · -- the place of a contract that was synchronised is that of the contract before
            obtain ⟨hLength, hGrows⟩ := List.forall₂_iff_get.mp (grows_sync (places.map store))
            obtain ⟨hBound, rfl⟩ := List.getElem?_eq_some_iff.mp hFound
            have hBefore : places.idxOf i < (places.map store).length := by rwa [hLength]
            have hGrown := hGrows (places.idxOf i) hBefore hBound
            simpa using hGrown
          · obtain ⟨j, -, rfl⟩ := List.mem_map.mp hOther
            exact h j

theorem performAll_grows (store : ι → Contract) (operations : List (Operation ι)) (i : ι) :
    (store i).Grows (performAll store operations i) ∧
      ((∀ j, (store j).IsInOrder) → (performAll store operations i).IsInOrder) := by
  induction operations generalizing store with
  | nil => exact ⟨.refl _, fun h => h i⟩
  | cons operation rest ih =>
      obtain ⟨hGrows, hOrder⟩ := ih (perform store operation)
      refine ⟨(perform_grows store operation i).1.trans hGrows, fun h => ?_⟩
      exact hOrder fun j => (perform_grows store operation j).2 h

/-- What has become of two contracts that were to be combined, and of all others. -/
def AreCombined (store after : ι → Contract) (parent child : ι) : Prop :=
  match (store parent).combine (store child) with
  | .error _ => after = store
  | .ok _ =>
    (after parent).argumentNames = (after child).argumentNames ∧
    (∀ name owner,
      ((after parent).HasSource name owner ↔ (after child).HasSource name owner) ∧
      ((after parent).HasSource name owner ↔
        (store parent).HasSource name owner ∨ (store child).HasSource name owner)) ∧
    ∀ i, i ≠ parent → i ≠ child → after i = store i

/-- What combining two contracts comes to, if all are in order afterwards. -/
theorem areCombined_perform {store : ι → Contract} {parent child : ι} (apart : parent ≠ child)
    (hOrder : ∀ i, (perform store (.combine parent child apart) i).IsInOrder) :
    AreCombined store (perform store (.combine parent child apart)) parent child := by
  rw [AreCombined]
  cases hCombine : (store parent).combine (store child) with
  | error cause => exact perform_of_error hCombine
  | ok both =>
      obtain ⟨parent', child'⟩ := both
      have hPerform := @perform_of_ok ι _ store parent child apart parent' child' hCombine
      set after := perform store (.combine parent child apart)
      have hParent : after parent = parent' := by
        rw [hPerform]
        simp [Function.update_of_ne apart]
      have hChild : after child = child' := by
        rw [hPerform]
        simp
      have hSources := hasSource_combine_iff hCombine
      have hSame : ∀ name owner,
          (after parent).HasSource name owner ↔ (after child).HasSource name owner := by
        intro name owner
        rw [hParent, hChild, (hSources name owner).1, (hSources name owner).2]
      refine ⟨?_, fun name owner => ⟨hSame name owner, ?_⟩, fun i hParent hChild => ?_⟩
      · refine Catalog.names_eq_of_mem_iff fun name => ?_
        have hHere : name ∈ (after parent).sources.names ↔ _ :=
          (hOrder parent).mem_argumentNames_iff
        have hThere : name ∈ (after child).sources.names ↔ _ :=
          (hOrder child).mem_argumentNames_iff
        rw [hHere, hThere]
        exact exists_congr (hSame name)
      · rw [hParent, (hSources name owner).1]
      · rw [hPerform]
        simp [Function.update_of_ne hParent, Function.update_of_ne hChild]

/-- **Contracts that are merged in any order.** However contracts of stories are combined and
synchronised, all of them are in order at any time, and whatever operations come next they only
grow. When two of them are combined, all stay as they are if it goes wrong; otherwise the two have
the same arguments, declared by the same stories. -/
theorem merged_in_any_order {store : ι → Contract}
    (hBuilt : ∀ i, ∃ story arguments spec, build story arguments spec = .ok (store i)) :
    (∀ operations i, (performAll store operations i).IsInOrder) ∧
    (∀ operations more i,
      let before := performAll store operations i
      let after := performAll store (operations ++ more) i
      before.Grows after ∧ before.argumentNames.Sublist after.argumentNames ∧
        before.declared.names.Sublist after.declared.names) ∧
    ∀ (operations : List (Operation ι)) (parent child : ι) (apart : parent ≠ child),
      AreCombined (performAll store operations)
        (performAll store (operations ++ [.combine parent child apart])) parent child := by
  have hOrder : ∀ operations i, (performAll store operations i).IsInOrder := by
    intro operations i
    refine (performAll_grows store operations i).2 fun j => ?_
    obtain ⟨story, arguments, spec, hBuild⟩ := hBuilt j
    exact isInOrder_of_build hBuild
  have hAppend : ∀ operations more, performAll store (operations ++ more) =
      performAll (performAll store operations) more :=
    fun operations more => List.foldl_append
  refine ⟨hOrder, fun operations more i => ?grows, fun operations parent child apart => ?combined⟩
  case grows =>
    rw [hAppend]
    have hGrows := (performAll_grows (performAll store operations) more i).1
    exact ⟨hGrows, hGrows.names_sublist⟩
  case combined =>
    have hAfter := hOrder (operations ++ [.combine parent child apart])
    rw [hAppend] at hAfter ⊢
    exact areCombined_perform apart hAfter

end Contract

namespace Larder

/-- A schema in which everything passes for some fields. -/
def spec (identity : Nat) (fields : List String) : Spec where
  identity
  family := .raw
  name := "Larder"
  fields := .ofList (fields.map fun field => (field, ⟨"a measure", .ok⟩))

inductive Dish where
  | soup
  | bread
  | salad
  deriving DecidableEq

/-- Soup and salad are both salted. -/
def store : Dish → Contract
  | .soup => .ofSpec ⟨"Larder", "soup"⟩ ["guests"] (spec 0 ["guests", "salt"])
  | .bread => .ofSpec ⟨"Larder", "bread"⟩ ["guests"] (spec 1 ["guests", "flour"])
  | .salad => .ofSpec ⟨"Larder", "salad"⟩ ["oil"] (spec 2 ["oil", "salt"])

def operations : List (Contract.Operation Dish) :=
  [.combine .soup .bread (by decide), .sync [.salad, .soup] (by decide)]

/-- The soup goes with the bread, and gets to know of the salad, with which it does not go. -/
theorem salted_once :
    (Contract.performAll store operations .soup).argumentNames = ["guests", "oil"] ∧
    (store .soup).Grows (Contract.performAll store operations .soup) ∧
    Contract.performAll store (operations ++ [.combine .soup .salad (by decide)]) =
      Contract.performAll store operations := by
  have hBuilt : ∀ dish, ∃ story arguments spec,
      Contract.build story arguments spec = .ok (store dish) := by
    intro dish
    cases dish with
    | soup => exact ⟨_, ["guests"], some (spec 0 ["guests", "salt"]), rfl⟩
    | bread => exact ⟨_, ["guests"], some (spec 1 ["guests", "flour"]), rfl⟩
    | salad => exact ⟨_, ["oil"], some (spec 2 ["oil", "salt"]), rfl⟩
  obtain ⟨-, hGrows, hCombined⟩ := Contract.merged_in_any_order hBuilt
  have hSalad := hCombined operations .soup .salad (by decide)
  obtain ⟨cause, hError⟩ : ∃ cause, (Contract.performAll store operations .soup).combine
      (Contract.performAll store operations .salad) = .error cause := ⟨_, rfl⟩
  rw [Contract.AreCombined, hError] at hSalad
  exact ⟨rfl, (hGrows [] operations .soup).1, hSalad⟩

end Larder

end Storyline
