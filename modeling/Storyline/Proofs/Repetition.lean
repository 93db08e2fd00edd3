import Storyline.Proofs.Announced

/-!
# Repeated variables

The other way round, a tree is never refused for a repetition if the stories announced to each of
its stories are apart (`Unfolds.notRepeated`). So stories that share a schema compose wherever
they stand, but for one case: a contract remembers the names that were declared, not by which
schema, so that a schema which is announced twice to the same story counts as a repetition of
itself (`Kitchen.buffet_repeated`).
-/

set_option autoImplicit false

namespace Storyline

variable {β : Type}

/-! ## Compositions that are not refused for a repetition -/

/-- Whether an error is that of variables declared twice. -/
def StoryError.isRepetition : StoryError → Bool
  | .contract (.repeatedVariables _ _ _) => true
  | _ => false

/-- A computation does not go wrong because of a repetition, whether it goes wrong or not. -/
def NotRepeated {α : Type} (x : Except StoryError α) : Prop :=
  ∀ cause, x = .error cause → cause.isRepetition = false

theorem NotRepeated.bind {α γ : Type} {x : Except StoryError α} {f : α → Except StoryError γ}
    (h : NotRepeated x) (hNext : ∀ a, x = .ok a → NotRepeated (f a)) : NotRepeated (x >>= f) := by
  cases x with
  | error cause =>
      intro other hError
      obtain rfl := Except.error.inj hError
      exact h cause rfl
  | ok a => exact hNext a rfl

theorem notRepeated_ok {α : Type} (a : α) : NotRepeated (.ok a) := by
  intro cause h
  cases h

theorem notRepeated_error {α : Type} {cause : StoryError} (h : cause.isRepetition = false) :
    NotRepeated (.error cause : Except StoryError α) := by
  intro other hError
  obtain rfl := Except.error.inj hError
  exact h

theorem notRepeated_mapError {ε α : Type} {x : Except ε α} {f : ε → StoryError}
    (h : ∀ cause, x = .error cause → (f cause).isRepetition = false) :
    NotRepeated (x.mapError f) := by
  cases x with
  | error cause => exact notRepeated_error (h cause rfl)
  | ok a => exact notRepeated_ok a

namespace Draft

theorem notRepeated_start (story : Story) (owner : OwnerId) :
    NotRepeated (start story owner : Except StoryError (Draft β)) := by
  unfold start
  split
  · next cause hError =>
    -- the contract of a story alone only wants its arguments
    unfold Story.contract Contract.build at hError
    split at hError
    · cases hError
    · split at hError
      · cases hError
      · obtain rfl := Except.error.inj hError
        exact notRepeated_error rfl
  · exact notRepeated_ok _

theorem notRepeated_checkStep (d : Draft β) (s : Step β) : NotRepeated (d.checkStep s) := by
  unfold checkStep
  split
  · exact notRepeated_ok _
  · split
    · exact notRepeated_ok _
    · exact notRepeated_error rfl

theorem notRepeated_addStep (d : Draft β) (s : Step β) : NotRepeated (d.addStep s) :=
  (d.notRepeated_checkStep s).bind fun _ _ => notRepeated_ok _

theorem notRepeated_foldlM_checkStep (steps : List (Step β)) (d : Draft β) :
    NotRepeated (steps.foldlM checkStep d) := by
  induction steps generalizing d with
  | nil => exact notRepeated_ok d
  | cons s rest ih => exact (d.notRepeated_checkStep s).bind fun d₁ _ => ih d₁

theorem notRepeated_addGroup (d : Draft β) (steps : List (Step β)) :
    NotRepeated (d.addGroup steps none) :=
  (notRepeated_foldlM_checkStep steps d).bind fun _ _ => notRepeated_ok _

/-- Adding a substory is no repetition if all that is announced to it is apart from what is known,
or not announced. -/
theorem Knows.notRepeated_addPlan {d c : Draft β} {known stories : List Story} {name : String}
    (h : d.Knows known) (hChild : c.Knows stories)
    (hApart : d.story.sharesSchema c.story = false → ∀ s ∈ known, ∀ t ∈ stories, s.Apart t) :
    NotRepeated (d.addPlan name c.finish) := by
  unfold addPlan
  split
  · exact notRepeated_error rfl
  refine NotRepeated.bind (notRepeated_mapError fun cause hCause => ?_) fun _ _ => ?_
  · rcases Contract.combine_eq_error hCause with rfl | ⟨hTwo, hRepeated⟩
    · rfl
    · rw [h.areOne_spec hChild] at hTwo
      exact absurd ((h.root.disjoint_iff hChild.finish).mpr (hApart hTwo)) hRepeated
  · exact NotRepeated.bind (notRepeated_mapError fun _ _ => rfl) fun _ _ => notRepeated_ok _

/-- Adding scenes is no repetition if the stories announced to the draft are apart, and those
announced to each substory are. -/
theorem Knows.notRepeated_addScenes {scenes : Scenes β} {d : Draft β} {known : List Story}
    (h : d.Knows known) (hApart : (known ++ scenes.announced d.story).Pairwise Story.Apart)
    (hBelow : ∀ sub ∈ scenes.subtrees, sub.announced.Pairwise Story.Apart) :
    NotRepeated (d.addScenes scenes) := by
  induction scenes generalizing d known with
  | done => exact notRepeated_ok d
  | step s rest ih =>
      refine (d.notRepeated_addStep s).bind fun d₁ hStep => ?_
      obtain ⟨mode, rfl⟩ := addStep_eq_ok hStep
      exact ih ⟨h.spec, h.root, h.apart⟩ hApart hBelow
  | parallel steps rest ih =>
      refine (d.notRepeated_addGroup steps).bind fun d₁ hGroup => ?_
      obtain ⟨mode, rfl⟩ := addGroup_eq_ok hGroup
      exact ih ⟨h.spec, h.root, h.apart⟩ hApart hBelow
  | story name definition owner inner rest ihInner ih =>
      rw [Scenes.announced, ← List.append_assoc] at hApart
      -- the substory is put together first, by itself
      have hSub : (⟨definition, owner, inner⟩ : StoryTree β).announced.Pairwise Story.Apart :=
        hBelow _ List.mem_cons_self
      refine (notRepeated_start definition owner).bind fun c₀ hStart => ?_
      have hStarted := knows_of_start hStart
      have hStory := story_of_start hStart
      refine NotRepeated.bind (ihInner hStarted (by rw [hStory]; exact hSub) fun sub hIn =>
        hBelow sub (List.mem_cons_of_mem _ (List.mem_append_left _ hIn))) fun c hInner => ?_
      have hGathers := gathers_of_addScenes hInner
      have hPlace : c.story = definition := hGathers.place_eq.1.trans hStory
      have hChild := (hGathers.knows hStarted).1
      rw [hStory] at hChild
      -- then it is added, and the scenes behind it
      refine NotRepeated.bind (h.notRepeated_addPlan hChild fun hTwo => ?_) fun d₁ hPlan => ?_
      · rw [hPlace] at hTwo
        rw [hTwo, if_neg Bool.false_ne_true, List.pairwise_append, List.pairwise_append] at hApart
        exact hApart.1.2.2
      · obtain ⟨root, childRoot, failures, hCombine, -, rfl⟩ := addPlan_eq_ok hPlan
        have hKnows : (d.withPlan name c.finish root childRoot failures).Knows _ :=
          h.withPlan hChild hCombine
        rw [hPlace] at hKnows
        exact ih hKnows hApart fun sub hIn =>
          hBelow sub (List.mem_cons_of_mem _ (List.mem_append_right _ hIn))

end Draft

/-- A story is not refused for a repetition if the stories announced to each story of its tree are
apart. -/
theorem Unfolds.notRepeated {cast : Cast β} {tree : StoryTree β}
    (h : Unfolds (cast.resolve tree.definition tree.owner) tree.scenes)
    (hApart : ∀ sub ∈ tree.subtrees, sub.announced.Pairwise Story.Apart) :
    NotRepeated (Plan.compile cast tree.definition tree.owner) := by
  refine (Draft.notRepeated_start _ _).bind fun d₀ hStart => ?_
  rw [h.addAll_eq]
  have hKnows := Draft.knows_of_start hStart
  obtain ⟨root, -, rfl⟩ := Draft.start_eq_ok hStart
  have hTree : tree.announced.Pairwise Story.Apart := hApart tree List.mem_cons_self
  refine NotRepeated.bind (hKnows.notRepeated_addScenes hTree fun sub hSub => ?_) fun _ _ => ?_
  · exact hApart sub (List.mem_cons_of_mem _ hSub)
  · exact notRepeated_ok _

/-- **Sharing a schema is no repetition, unless it is announced twice**: if stories have variables
in common only when they share a schema, and no two stories that share one are announced with a
common variable to the same story, then mounting does not fail because of repeated variables. -/
theorem Unfolds.compile_ne_repeatedVariables {cast : Cast β} {tree : StoryTree β}
    (h : Unfolds (cast.resolve tree.definition tree.owner) tree.scenes)
    (hShared : ∀ s ∈ tree.stories, ∀ t ∈ tree.stories, ∀ name,
      s.DeclaresVariable name → t.DeclaresVariable name → s.sharesSchema t = true)
    (hOnce : ∀ sub ∈ tree.subtrees,
      sub.announced.Pairwise fun s t => s.sharesSchema t = true → s.Apart t)
    (names : List String) (story substory : StoryName) :
    Plan.compile cast tree.definition tree.owner ≠
      .error (.contract (.repeatedVariables names story substory)) := by
  have hApart : ∀ sub ∈ tree.subtrees, sub.announced.Pairwise Story.Apart := by
    intro sub hSub
    have hIn : ∀ s ∈ sub.announced, s ∈ tree.stories := fun s hs =>
      StoryTree.stories_subset_of_mem_subtrees hSub (sub.announced_subset hs)
    refine (hOnce sub hSub).imp_of_mem fun {s t} hs ht hTwo name hHere hThere => ?_
    have hOne := hShared s (hIn s hs) t (hIn t ht) name hHere hThere
    exact hTwo hOne name hHere hThere
  intro hError
  have hRepetition := h.notRepeated hApart _ hError
  cases hRepetition

namespace Kitchen

open Shop (Body)

/-- Nothing is repeated in the supper, where only the broth beside the soup is announced to it. -/
theorem supper_unrepeated : Unfolds (cast.resolve supper "kitchen") supperTree.scenes ∧
    ∀ names story substory, Plan.compile cast supper "kitchen" ≠
      .error (.contract (.repeatedVariables names story substory)) := by
  refine ⟨supper_mounts.unfolds,
    supper_mounts.unfolds.compile_ne_repeatedVariables ?_ (by decide)⟩
  simp only [Story.declaresVariable_iff]
  decide

/-- Two salads, under different names. -/
def buffet : Story := story "buffet" table ["first", "second"]

def buffetTree : StoryTree Body :=
  ⟨buffet, "kitchen", saladScenes "first" (saladScenes "second" .done)⟩

/-- The buffet is refused, although it has a single story with the salt, which is used twice. -/
theorem buffet_repeated :
    Unfolds (cast.resolve buffet "kitchen") buffetTree.scenes ∧
      (∀ s ∈ buffetTree.stories, ∀ t ∈ buffetTree.stories, ∀ name,
        s.DeclaresVariable name → t.DeclaresVariable name → s.sharesSchema t = true) ∧
      Plan.compile cast buffet "kitchen" =
        .error (.contract (.repeatedVariables ["salt"] salad.name salad.name)) := by
  refine ⟨.story (.step .done) (.story (.step .done) .done), ?_, rfl⟩
  simp only [Story.declaresVariable_iff]
  decide

end Kitchen

end Storyline
