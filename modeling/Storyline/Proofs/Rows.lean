import Storyline.Proofs.Resolved
import Storyline.Proofs.Score

/-!
# Stories with the steps of their groups in a row

The steps of a group could as well stand one after the other (`Story.oneByOne`). A story that mounts
with its groups mounts with their steps in a row as well: it has the same contracts, the same
vocabulary and the same mode, and the steps are in its plan where the groups were
(`Mounts.oneByOne`).

Adding a group to a draft checks its steps one by one, which is what adding the steps does. So two
drafts that differ in their instructions only go on to do so (`Draft.Unrolls`), and the instructions
are known from the score.
-/

set_option autoImplicit false

namespace Storyline

variable {β : Type}

/-! ## Stories without groups -/

/-- The names of an entry, each an entry of its own. -/
def Collected.oneByOne (entry : Collected) : List Collected := entry.names.map .step

/-- A story with the steps of its groups in a row. -/
def Story.oneByOne (story : Story) : Story :=
  { story with collected := story.collected.flatMap Collected.oneByOne }

/-- The steps of a group, each an instruction of its own. -/
def Instruction.oneByOne : Instruction β → List (Instruction β)
  | .parallel steps number protocol => steps.map fun s => .step s number protocol
  | other => [other]

/-- A plan with the steps of its groups in a row. -/
def Plan.oneByOne (plan : Plan β) : Plan β :=
  { plan with instructions := plan.instructions.flatMap Instruction.oneByOne }

/-- A member of an object with the steps of all groups in a row. -/
def Member.oneByOne : Member β → Member β
  | .step s => .step s
  | .story definition owner => .story (definition.map Story.oneByOne) owner
  | .mounted plan => .mounted plan.oneByOne

/-- Objects on which the steps of all groups are in a row. -/
def Cast.oneByOne (cast : Cast β) : Cast β :=
  cast.mapValues fun object => { object with members := object.members.mapValues Member.oneByOne }

/-- The place in the same story with the steps of its groups in a row. -/
def Place.oneByOne (p : Place) : Place := { p with story := p.story.oneByOne }

namespace Scenes

/-- Steps in a row, before other scenes. -/
def inRow (steps : List (Step β)) (rest : Scenes β) : Scenes β := steps.foldr .step rest

/-- Scenes with the steps of all groups in a row. -/
def oneByOne : Scenes β → Scenes β
  | .done => .done
  | .step s rest => .step s rest.oneByOne
  | .parallel steps rest => inRow steps rest.oneByOne
  | .story name definition owner inner rest =>
    .story name definition.oneByOne owner inner.oneByOne rest.oneByOne

theorem stories_inRow (steps : List (Step β)) (rest : Scenes β) :
    (inRow steps rest).stories = rest.stories := by
  induction steps with
  | nil => rfl
  | cons s others ih => exact ih

theorem stories_oneByOne (scenes : Scenes β) :
    scenes.oneByOne.stories = scenes.stories.map Story.oneByOne := by
  induction scenes with
  | done => rfl
  | step s rest ih => exact ih
  | parallel steps rest ih => rw [oneByOne, stories_inRow, ih, stories]
  | story name definition owner inner rest ihInner ih =>
      rw [oneByOne, stories, stories, ihInner, ih, List.map_cons, List.map_append]

theorem instructions_inRow (isShut : Bool) (p : Place) (next : Nat) (steps : List (Step β))
    (rest : Scenes β) :
    (inRow steps rest).instructions isShut p next =
      steps.map (fun s => .step s p.number (.within isShut p.story.failures)) ++
        rest.instructions isShut p next := by
  induction steps with
  | nil => rfl
  | cons s others ih =>
      have hFirst : inRow (s :: others) rest = .step s (inRow others rest) := rfl
      rw [hFirst, instructions_step, ih, List.map_cons, List.cons_append]

/-- The instructions of scenes without groups: those of the groups are replaced by their steps. -/
theorem instructions_oneByOne (isShut : Bool) (p : Place) (next : Nat) (scenes : Scenes β) :
    scenes.oneByOne.instructions isShut p.oneByOne next =
      (scenes.instructions isShut p next).flatMap Instruction.oneByOne := by
  induction scenes generalizing p next with
  | done => rfl
  | step s rest ih =>
      rw [oneByOne, instructions_step, ih, instructions_step]
      rfl
  | parallel steps rest ih =>
      rw [oneByOne, instructions_inRow, ih, instructions_parallel]
      rfl
  | story name definition owner inner rest ihInner ih =>
      have hInner := ihInner ⟨definition, owner, next⟩ (next + 1)
      rw [oneByOne, instructions_story, instructions_story, stories_oneByOne, List.length_map, ih,
        List.flatMap_cons, List.flatMap_append, List.flatMap_cons, ← hInner]
      rfl

end Scenes

/-- A tree with the steps of all groups in a row. -/
def StoryTree.oneByOne (tree : StoryTree β) : StoryTree β :=
  ⟨tree.definition.oneByOne, tree.owner, tree.scenes.oneByOne⟩

theorem StoryTree.instructions_oneByOne (tree : StoryTree β) (isShut : Bool) :
    tree.oneByOne.instructions isShut =
      (tree.instructions isShut).flatMap Instruction.oneByOne := by
  have hScenes := tree.scenes.instructions_oneByOne isShut ⟨tree.definition, tree.owner, 0⟩ 1
  rw [instructions_eq, instructions_eq, List.flatMap_cons, List.flatMap_append, ← hScenes]
  rfl

/-! ## Mounting them -/

namespace Draft

/-- A draft is like another, but for its instructions: its story has the steps of all groups in a
row. -/
structure Unrolls (d e : Draft β) : Prop where
  story : e.story = d.story.oneByOne
  owner : e.owner = d.owner
  root : e.root = d.root
  inner : e.inner = d.inner
  failures : e.failures = d.failures
  mode : e.mode = d.mode

theorem unrolls_start {definition : Story} {owner : OwnerId} {d : Draft β}
    (h : start definition owner = .ok d) :
    ∃ e, start definition.oneByOne owner = .ok e ∧ d.Unrolls e := by
  obtain ⟨root, hRoot, rfl⟩ := start_eq_ok h
  have hSame : definition.oneByOne.contract = .ok root := hRoot
  refine ⟨{ story := definition.oneByOne, owner, root, inner := [], failures := definition.failures,
            instructions := [.enter definition.qualified 0], mode := none }, ?_,
    ⟨rfl, rfl, rfl, rfl, rfl, rfl⟩⟩
  rw [start, hSame]
  rfl

section

variable {d d' e : Draft β} (h : d.Unrolls e)

include h

/-- The instructions of a draft do not matter. -/
theorem Unrolls.withInstructions (instructions : List (Instruction β)) :
    { d with instructions }.Unrolls e :=
  { h with }

theorem Unrolls.checkStep {s : Step β} (hStep : d.checkStep s = .ok d') :
    ∃ e', e.checkStep s = .ok e' ∧ d'.Unrolls e' := by
  unfold Draft.checkStep at hStep ⊢
  rw [h.mode]
  cases hMode : d.mode with
  | none =>
      rw [hMode] at hStep
      obtain rfl := Except.ok.inj hStep
      exact ⟨_, rfl, { h with mode := rfl }⟩
  | some expected =>
      rw [hMode] at hStep
      dsimp only at hStep ⊢
      split at hStep
      · next hExpected =>
        obtain rfl := Except.ok.inj hStep
        exact ⟨e, if_pos hExpected, h⟩
      · cases hStep

/-- A step that passes the check of a draft can be added to the other. -/
theorem Unrolls.addStep {s : Step β} (hStep : d.checkStep s = .ok d') :
    ∃ e', e.addStep s = .ok e' ∧ d'.Unrolls e' := by
  obtain ⟨e', hCheck, hUnrolls⟩ := h.checkStep hStep
  exact ⟨_, bind_eq_ok_iff.mpr ⟨e', hCheck, rfl⟩, { hUnrolls with }⟩

/-- A draft to which a group can be added takes its steps one by one. -/
theorem Unrolls.addInRow {steps : List (Step β)} (hSteps : steps.foldlM Draft.checkStep d = .ok d')
    (rest : Scenes β) :
    ∃ e', e.addScenes (.inRow steps rest) = e'.addScenes rest ∧ d'.Unrolls e' := by
  induction steps generalizing d e with
  | nil =>
      obtain rfl := Except.ok.inj hSteps
      exact ⟨e, rfl, h⟩
  | cons s others ih =>
      obtain ⟨d₁, hFirst, hOthers⟩ := bind_eq_ok_iff.mp hSteps
      obtain ⟨e₁, hAdd, hUnrolls⟩ := h.addStep hFirst
      obtain ⟨e', hRest, hUnrolls'⟩ := ih hUnrolls hOthers
      refine ⟨e', ?_, hUnrolls'⟩
      rw [← hRest]
      show e.addStep s >>= _ = _
      rw [hAdd]
      rfl

theorem Unrolls.finish : e.finish = { d.finish with instructions := e.finish.instructions } := by
  obtain ⟨hStory, hOwner, hRoot, hInner, hFailures, hMode⟩ := h
  obtain ⟨story, owner, instructions, root, inner, failures, mode⟩ := e
  dsimp only at hStory hOwner hRoot hInner hFailures hMode
  subst hStory hOwner hRoot hInner hFailures hMode
  rfl

/-- The instructions of a substory do not decide whether it can be added. -/
theorem Unrolls.addPlan {name : String} {child : Plan β} (hPlan : d.addPlan name child = .ok d')
    (instructions : List (Instruction β)) :
    ∃ e', e.addPlan name { child with instructions } = .ok e' ∧ d'.Unrolls e' := by
  unfold Draft.addPlan at hPlan
  split at hPlan
  · cases hPlan
  next hAdmits =>
  obtain ⟨⟨root, childRoot⟩, hCombine, hPlan⟩ := bind_eq_ok_iff.mp hPlan
  obtain ⟨failures, hVocabulary, hPlan⟩ := bind_eq_ok_iff.mp hPlan
  obtain rfl := Except.ok.inj hPlan
  refine ⟨e.withPlan name { child with instructions } root childRoot failures, ?_,
    ⟨h.story, h.owner, rfl, congrArg (· ++ childRoot :: child.inner) h.inner, rfl, rfl⟩⟩
  have hName : e.story.qualified = d.story.qualified := by
    rw [h.story]
    rfl
  unfold Draft.addPlan
  rw [admitsMode, h.mode, h.root, h.failures, hName]
  rw [admitsMode] at hAdmits
  rw [if_neg hAdmits]
  exact bind_eq_ok_iff.mpr ⟨_, hCombine, bind_eq_ok_iff.mpr ⟨_, hVocabulary, rfl⟩⟩

theorem Unrolls.addScenes {scenes : Scenes β} (hScenes : d.addScenes scenes = .ok d') :
    ∃ e', e.addScenes scenes.oneByOne = .ok e' ∧ d'.Unrolls e' := by
  induction scenes generalizing d d' e with
  | done =>
      obtain rfl := Except.ok.inj hScenes
      exact ⟨e, rfl, h⟩
  | step s rest ih =>
      obtain ⟨d₁, hStep, hRest⟩ := addScenes_step_eq_ok_iff.mp hScenes
      obtain ⟨d₂, hCheck, hAdd⟩ := bind_eq_ok_iff.mp hStep
      obtain ⟨e₁, hAdd', hUnrolls⟩ := h.addStep hCheck
      obtain rfl := Except.ok.inj hAdd
      obtain ⟨e', hRest', hUnrolls'⟩ := ih (hUnrolls.withInstructions _) hRest
      exact ⟨e', addScenes_step_eq_ok_iff.mpr ⟨e₁, hAdd', hRest'⟩, hUnrolls'⟩
  | parallel steps rest ih =>
      obtain ⟨d₁, hGroup, hRest⟩ := addScenes_parallel_eq_ok_iff.mp hScenes
      obtain ⟨d₂, hChecks, hAdd⟩ := bind_eq_ok_iff.mp hGroup
      obtain ⟨e₁, hRow, hUnrolls⟩ := h.addInRow hChecks rest.oneByOne
      obtain rfl := Except.ok.inj hAdd
      obtain ⟨e', hRest', hUnrolls'⟩ := ih (hUnrolls.withInstructions _) hRest
      exact ⟨e', hRow.trans hRest', hUnrolls'⟩
  | story name definition owner inner rest ihInner ih =>
      obtain ⟨c₀, c, d₁, hStart, hInner, hPlan, hRest⟩ := addScenes_story_eq_ok_iff.mp hScenes
      obtain ⟨c₀', hStart', hUnrolls₀⟩ := unrolls_start hStart
      obtain ⟨c', hInner', hUnrolls⟩ := ihInner hUnrolls₀ hInner
      obtain ⟨e₁, hPlan', hUnrolls₁⟩ := h.addPlan hPlan c'.finish.instructions
      rw [← hUnrolls.finish] at hPlan'
      obtain ⟨e', hRest', hUnrolls'⟩ := ih hUnrolls₁ hRest
      exact ⟨e', addScenes_story_eq_ok_iff.mpr ⟨c₀', c', e₁, hStart', hInner', hPlan', hRest'⟩,
        hUnrolls'⟩

end

end Draft

/-- A story that is found with the steps of its groups in a row mounts, if it mounts with the
groups: its plan has the steps of the groups in their places, and is the same otherwise. -/
theorem Mounts.oneByOne_of_unfolds {cast cast' : Cast β} {tree : StoryTree β} {plan : Plan β}
    (h : Mounts cast tree plan)
    (hFound : Unfolds (cast'.resolve tree.definition.oneByOne tree.owner) tree.scenes.oneByOne) :
    Mounts cast' tree.oneByOne plan.oneByOne := by
  obtain ⟨d₀, d, hStart, hAdd, rfl⟩ := h.assembled
  obtain ⟨e₀, hStart', hUnrolls₀⟩ := Draft.unrolls_start hStart
  obtain ⟨e, hAdd', hUnrolls⟩ := hUnrolls₀.addScenes hAdd
  have hMounts : Mounts cast' tree.oneByOne e.finish := by
    refine ⟨Plan.compile_eq_ok_iff.mpr ⟨e₀, e, hStart', ?_, rfl⟩, hFound⟩
    exact (hFound.addAll_eq e₀).trans hAdd'
  have hInstructions : e.finish.instructions =
      d.finish.instructions.flatMap Instruction.oneByOne := by
    have hFailures : e.finish.failures = d.finish.failures := hUnrolls.failures
    rw [hMounts.instructions_eq, hFailures, StoryTree.instructions_oneByOne, h.instructions_eq]
  have hPlan := hUnrolls.finish
  rw [hInstructions] at hPlan
  rw [hPlan] at hMounts
  exact hMounts

/-! ## Finding them -/

theorem Named.find?_mapValues {α γ : Type} (f : α → γ) (m : Named α) (name : String) :
    (m.mapValues f).find? name = (m.find? name).map f := by
  unfold mapValues find?
  dsimp only
  induction m.entries with
  | nil => rfl
  | cons entry rest ih =>
      rw [List.map_cons, lookup_cons_ite, lookup_cons_ite, ih]
      split <;> rfl

namespace Cast

variable {cast : Cast β} {story : Story} {owner : OwnerId} {name : String}

theorem member?_oneByOne (cast : Cast β) (owner : OwnerId) (name : String) :
    cast.oneByOne.member? owner name = (cast.member? owner name).map Member.oneByOne := by
  unfold member? oneByOne
  rw [Named.find?_mapValues]
  cases cast.find? owner with
  | none => rfl
  | some object => exact Named.find?_mapValues Member.oneByOne object.members name

theorem className_oneByOne (cast : Cast β) (owner : OwnerId) :
    cast.oneByOne.className owner = cast.className owner := by
  unfold className oneByOne
  rw [Named.find?_mapValues]
  cases cast.find? owner <;> rfl

theorem memberFrame?_oneByOne (member : Member β) :
    memberFrame? member.oneByOne = memberFrame? member := by
  rcases member with s | ⟨_ | definition, owner⟩ | plan <;> rfl

/-- There are as many stories to be found. -/
theorem frames_oneByOne (cast : Cast β) : cast.oneByOne.frames = cast.frames := by
  unfold frames oneByOne Named.mapValues
  dsimp only
  rw [List.map_map]
  refine congrArg List.flatten (List.map_congr_left fun entry _ => ?_)
  obtain ⟨id, object⟩ := entry
  show List.filterMap _ (object.members.mapValues Member.oneByOne).entries = _
  unfold Named.mapValues
  rw [List.filterMap_map]
  refine List.filterMap_congr fun member _ => ?_
  exact memberFrame?_oneByOne member.2

theorem HasStep.oneByOne {s : Step β} (h : cast.HasStep owner name s) :
    cast.oneByOne.HasStep owner name s := by
  obtain ⟨found, hMember, rfl⟩ := h
  refine ⟨found, ?_, ?_⟩
  · rw [member?_oneByOne, hMember]
    rfl
  · rw [className_oneByOne]

theorem resolveAll_cons {resolve : Collected → Entry β} {collected : Collected} {entry : Entry β}
    (hEntry : resolve collected = entry) (hSound : entry.isFaulty = false)
    (list : List Collected) :
    resolveAll resolve (collected :: list) = entry :: resolveAll resolve list := by
  subst hEntry
  rw [resolveAll, if_neg (by rw [hSound]; exact Bool.false_ne_true)]

/-- The steps of a row are found one after the other. -/
theorem resolveAll_row {names : List String} {steps : List (Step β)}
    (h : List.Forall₂ (cast.HasStep owner) names steps)
    (descend : Story → OwnerId → Option (List (Entry β))) (list : List Collected) :
    resolveAll (cast.resolveEntry story owner descend) (names.map .step ++ list) =
      steps.map .step ++ resolveAll (cast.resolveEntry story owner descend) list := by
  induction h with
  | nil => rfl
  | @cons name s names steps hStep _ ih =>
      obtain ⟨found, hMember, rfl⟩ := hStep
      have hEntry : cast.resolveEntry story owner descend (.step name) =
          .step { found with owner := cast.className owner } := by
        rw [resolveEntry, hMember]
      rw [List.map_cons, List.cons_append, resolveAll_cons hEntry rfl, ih]
      rfl

/-- A substory is found as deep as before. -/
theorem resolveWithin_oneByOne {fuel : Nat} {opened : List Frame} {found : List (Entry β)}
    (h : cast.resolveWithin fuel opened story owner = some found) :
    ∃ deeper opened',
      found = resolveAll (cast.resolveEntry story owner (cast.resolveWithin deeper opened'))
        story.collected ∧
      cast.oneByOne.resolveWithin fuel opened story.oneByOne owner =
        some (resolveAll (cast.oneByOne.resolveEntry story.oneByOne owner
          (cast.oneByOne.resolveWithin deeper opened'))
            (story.collected.flatMap Collected.oneByOne)) := by
  cases fuel with
  | zero => cases h
  | succ deeper =>
      rw [resolveWithin] at h
      split at h
      · cases h
      · next hClosed => exact ⟨deeper, _, (Option.some.inj h).symm, if_neg hClosed⟩

end Cast

theorem Unfolds.inRow {entries : List (Entry β)} {rest : Scenes β} (h : Unfolds entries rest)
    (steps : List (Step β)) : Unfolds (steps.map .step ++ entries) (.inRow steps rest) := by
  induction steps with
  | nil => exact h
  | cons s others ih => exact .step ih

/-- Entries that unfold to scenes are found with the steps of all groups in a row as well. -/
theorem Unfolds.oneByOne {entries : List (Entry β)} {scenes : Scenes β}
    (h : Unfolds entries scenes) {cast : Cast β} {story : Story} {owner : OwnerId} {fuel : Nat}
    {opened : List Cast.Frame} {list : List Collected}
    (hEntries : entries =
      Cast.resolveAll (cast.resolveEntry story owner (cast.resolveWithin fuel opened)) list) :
    Unfolds (Cast.resolveAll (cast.oneByOne.resolveEntry story.oneByOne owner
      (cast.oneByOne.resolveWithin fuel opened)) (list.flatMap Collected.oneByOne))
        scenes.oneByOne := by
  induction h generalizing cast story owner fuel opened list with
  | done =>
      cases list with
      | nil => exact .done
      | cons collected rest =>
          rw [Cast.resolveAll] at hEntries
          split at hEntries <;> cases hEntries
  | step _ ih =>
      obtain ⟨collected, later, rfl, hFinds, hLater⟩ := Cast.resolveAll_eq_cons hEntries rfl
      cases hFinds with
      | @step name _ hStep =>
          show Unfolds (Cast.resolveAll _ ([name].map .step ++ _)) _
          rw [Cast.resolveAll_row (.cons hStep.oneByOne .nil)]
          exact .step (ih hLater)
  | parallel _ ih =>
      obtain ⟨collected, later, rfl, hFinds, hLater⟩ := Cast.resolveAll_eq_cons hEntries rfl
      cases hFinds with
      | @parallel names _ hSteps =>
          show Unfolds (Cast.resolveAll _ (names.map .step ++ _)) _
          rw [Cast.resolveAll_row (hSteps.imp fun _ _ hStep => hStep.oneByOne)]
          exact (ih hLater).inRow _
  | @story name definition childOwner _ _ inner _ hInner _ ihInner ih =>
      have hSound := hInner.anyFaulty_eq
      obtain ⟨collected, later, rfl, hFinds, hLater⟩ := Cast.resolveAll_eq_cons hEntries hSound
      cases hFinds with
      | story hMember hFound =>
          obtain ⟨found', hFound', hInner'⟩ : ∃ found',
              cast.oneByOne.resolveWithin fuel opened definition.oneByOne childOwner =
                some found' ∧ Unfolds found' inner.oneByOne := by
            obtain ⟨deeper, opened', hFound, hFound'⟩ := Cast.resolveWithin_oneByOne hFound
            exact ⟨_, hFound', ihInner hFound⟩
          have hEntry : cast.oneByOne.resolveEntry story.oneByOne owner
              (cast.oneByOne.resolveWithin fuel opened) (.step name) =
                .story name definition.oneByOne childOwner found' := by
            rw [Cast.resolveEntry, Cast.member?_oneByOne, hMember]
            simp only [Option.map_some, Member.oneByOne, Except.map, hFound']
          show Unfolds (Cast.resolveAll _ (.step name :: _)) _
          rw [Cast.resolveAll_cons hEntry hInner'.anyFaulty_eq]
          exact .story hInner' (ih hLater)
  | @mounted name plan cast₀ definition childOwner _ inner _ hPlan hInner _ ihInner ih =>
      obtain ⟨collected, later, rfl, hFinds, hLater⟩ := Cast.resolveAll_eq_cons hEntries rfl
      cases hFinds with
      | mounted hMember =>
          -- the plan was compiled among objects of its own
          have hInner' : Unfolds (cast₀.oneByOne.resolve definition.oneByOne childOwner)
              inner.oneByOne := by
            rw [Cast.resolve, Cast.frames_oneByOne]
            exact ihInner rfl
          have hTree : Mounts cast₀ ⟨definition, childOwner, inner⟩ plan := ⟨hPlan, hInner⟩
          have hMounts := hTree.oneByOne_of_unfolds hInner'
          have hEntry : cast.oneByOne.resolveEntry story.oneByOne owner
              (cast.oneByOne.resolveWithin fuel opened) (.step name) =
                .mounted name plan.oneByOne := by
            rw [Cast.resolveEntry, Cast.member?_oneByOne, hMember]
            rfl
          show Unfolds (Cast.resolveAll _ (.step name :: _)) _
          rw [Cast.resolveAll_cons hEntry rfl]
          exact .mounted hMounts.compiled hInner' (ih hLater)

/-- **Every story mounts with the steps of its groups in a row**, if it mounts with the groups,
among objects whose stories have them in a row too: its plan has the steps of the groups in their
places, and is the same otherwise. -/
theorem Mounts.oneByOne {cast : Cast β} {tree : StoryTree β} {plan : Plan β}
    (h : Mounts cast tree plan) : Mounts cast.oneByOne tree.oneByOne plan.oneByOne := by
  refine h.oneByOne_of_unfolds ?_
  rw [Cast.resolve, Cast.frames_oneByOne]
  exact h.unfolds.oneByOne rfl

end Storyline
