import Mathlib.Data.List.Forall2
import Storyline.Proofs.Tree

/-!
# What the names of a story stand for

`Resolves` says, without the bookkeeping of open stories and depths, that scenes are what the names
collected by a story stand for: entry by entry, in the order in which they were collected. A step
is the step of that name on the object, a group has the steps of its names, and a substory is the
story of that name, with scenes that its own names stand for on its own object. A plan that was
mounted before counts as the story it was compiled from, among the objects of that time.

Whatever entries are looked up for a story, if they unfold to scenes at all, these are the scenes
that its names stand for (`Mounts.resolves`).
-/

set_option autoImplicit false

namespace Storyline

variable {β : Type}

/-- A name stands for a step of an object. -/
def Cast.HasStep (cast : Cast β) (owner : OwnerId) (name : String) (s : Step β) : Prop :=
  ∃ found, cast.member? owner name = some (.step found) ∧
    s = { found with owner := cast.className owner }

/-- Scenes that collected names stand for on an object, in the order of the names. -/
inductive Resolves : Cast β → OwnerId → List Collected → Scenes β → Prop where
  | done {cast : Cast β} {owner : OwnerId} : Resolves cast owner [] .done
  | step {cast : Cast β} {owner : OwnerId} {name : String} {s : Step β} {list : List Collected}
      {rest : Scenes β} :
      cast.HasStep owner name s → Resolves cast owner list rest →
      Resolves cast owner (.step name :: list) (.step s rest)
  | parallel {cast : Cast β} {owner : OwnerId} {names : List String} {steps : List (Step β)}
      {list : List Collected} {rest : Scenes β} :
      List.Forall₂ (cast.HasStep owner) names steps → Resolves cast owner list rest →
      Resolves cast owner (.parallel names :: list) (.parallel steps rest)
  | story {cast : Cast β} {owner childOwner : OwnerId} {name : String} {definition : Story}
      {list : List Collected} {inner rest : Scenes β} :
      cast.member? owner name = some (.story (.ok definition) childOwner) →
      Resolves cast childOwner definition.collected inner → Resolves cast owner list rest →
      Resolves cast owner (.step name :: list) (.story name definition childOwner inner rest)
  | mounted {cast cast' : Cast β} {owner childOwner : OwnerId} {name : String} {plan : Plan β}
      {definition : Story} {list : List Collected} {inner rest : Scenes β} :
      cast.member? owner name = some (.mounted plan) →
      Plan.compile cast' definition childOwner = .ok plan →
      Resolves cast' childOwner definition.collected inner → Resolves cast owner list rest →
      Resolves cast owner (.step name :: list) (.story name definition childOwner inner rest)

/-! ## Looking up single entries -/

namespace Cast

variable {cast : Cast β} {story : Story} {owner : OwnerId}

/-- A group whose names are all steps has the steps of its names. -/
theorem hasStep_of_resolveGroup {names : List String} {steps : List (Step β)}
    (h : cast.resolveGroup story owner names = (steps, none)) :
    List.Forall₂ (cast.HasStep owner) names steps := by
  induction names generalizing steps with
  | nil =>
      cases h
      exact .nil
  | cons name rest ih =>
      rw [resolveGroup] at h
      split at h
      · next found hFound =>
          obtain ⟨hSteps, hFault⟩ := Prod.mk.inj h
          subst hSteps
          refine .cons ⟨found, hFound, rfl⟩ (ih ?_)
          exact Prod.ext rfl hFault
      · cases h
      · cases h

/-- What an entry is found to be tells what its names stand for. -/
inductive Finds (cast : Cast β) (owner : OwnerId)
    (descend : Story → OwnerId → Option (List (Entry β))) : Collected → Entry β → Prop where
  | step {name : String} {s : Step β} :
      cast.HasStep owner name s → Finds cast owner descend (.step name) (.step s)
  | mounted {name : String} {plan : Plan β} :
      cast.member? owner name = some (.mounted plan) →
      Finds cast owner descend (.step name) (.mounted name plan)
  | story {name : String} {definition : Story} {childOwner : OwnerId} {found : List (Entry β)} :
      cast.member? owner name = some (.story (.ok definition) childOwner) →
      descend definition childOwner = some found →
      Finds cast owner descend (.step name) (.story name definition childOwner found)
  | parallel {names : List String} {steps : List (Step β)} :
      List.Forall₂ (cast.HasStep owner) names steps →
      Finds cast owner descend (.parallel names) (.parallel steps none)

theorem finds_resolveEntry {descend : Story → OwnerId → Option (List (Entry β))}
    {collected : Collected}
    (hSound : (cast.resolveEntry story owner descend collected).isFaulty = false) :
    Finds cast owner descend collected (cast.resolveEntry story owner descend collected) := by
  revert hSound
  fun_cases cast.resolveEntry story owner descend collected with
  | case1 name hMember =>
      intro hSound
      cases hSound
  | case2 name s hMember =>
      intro _
      exact .step ⟨s, hMember, rfl⟩
  | case3 name plan hMember =>
      intro _
      exact .mounted hMember
  | case4 name cause o hMember =>
      intro hSound
      cases hSound
  | case5 name child childOwner hMember found hFound =>
      intro _
      exact .story hMember hFound
  | case6 name child childOwner hMember hFound =>
      intro hSound
      cases hSound
  | case7 names steps fault hGroup =>
      intro hSound
      cases fault with
      | some cause => cases hSound
      | none => exact .parallel (hasStep_of_resolveGroup hGroup)

/-- Entries that are looked up for names, the first without fault: it is what the first name
stands for, and the others are looked up for the names after it. -/
theorem resolveAll_eq_cons {descend : Story → OwnerId → Option (List (Entry β))}
    {list : List Collected} {entry : Entry β} {entries : List (Entry β)}
    (h : entry :: entries = resolveAll (cast.resolveEntry story owner descend) list)
    (hSound : entry.isFaulty = false) :
    ∃ collected rest, list = collected :: rest ∧ Finds cast owner descend collected entry ∧
      entries = resolveAll (cast.resolveEntry story owner descend) rest := by
  cases list with
  | nil => cases h
  | cons collected rest =>
      rw [resolveAll] at h
      split at h
      · next hFaulty =>
          obtain ⟨rfl, -⟩ := List.cons.inj h
          rw [hSound] at hFaulty
          cases hFaulty
      · obtain ⟨rfl, hEntries⟩ := List.cons.inj h
        exact ⟨collected, rest, rfl, finds_resolveEntry hSound, hEntries⟩

/-- The entries of a substory are those found for its names, one level deeper. -/
theorem resolveWithin_eq_some {fuel : Nat} {opened : List Frame} {found : List (Entry β)}
    (h : cast.resolveWithin fuel opened story owner = some found) :
    ∃ deeper opened', found =
      resolveAll (cast.resolveEntry story owner (cast.resolveWithin deeper opened'))
        story.collected := by
  cases fuel with
  | zero => cases h
  | succ deeper =>
      rw [resolveWithin] at h
      split at h
      · cases h
      · exact ⟨deeper, _, (Option.some.inj h).symm⟩

end Cast

/-! ## All entries -/

/-- Entries that unfold to scenes have no fault. -/
theorem Unfolds.anyFaulty_eq {entries : List (Entry β)} {scenes : Scenes β}
    (h : Unfolds entries scenes) : Entry.anyFaulty entries = false := by
  induction h with
  | done => rfl
  | step _ ih => simpa [Entry.anyFaulty, Entry.isFaulty] using ih
  | parallel _ ih => simpa [Entry.anyFaulty, Entry.isFaulty] using ih
  | story _ _ ihInner ih => simp [Entry.anyFaulty, Entry.isFaulty, ihInner, ih]
  | mounted _ _ _ _ ih => simpa [Entry.anyFaulty, Entry.isFaulty] using ih

/-- Entries that are looked up for names and unfold to scenes unfold to what the names stand
for. -/
theorem Unfolds.resolves {entries : List (Entry β)} {scenes : Scenes β}
    (h : Unfolds entries scenes) {cast : Cast β} {story : Story} {owner : OwnerId} {fuel : Nat}
    {opened : List Cast.Frame} {list : List Collected}
    (hEntries : entries =
      Cast.resolveAll (cast.resolveEntry story owner (cast.resolveWithin fuel opened)) list) :
    Resolves cast owner list scenes := by
  induction h generalizing cast story owner fuel opened list with
  | done =>
      cases list with
      | nil => exact .done
      | cons collected rest =>
          -- a name is never passed over
          rw [Cast.resolveAll] at hEntries
          split at hEntries <;> cases hEntries
  | step _ ih =>
      obtain ⟨collected, later, rfl, hFinds, hLater⟩ := Cast.resolveAll_eq_cons hEntries rfl
      cases hFinds with
      | step hStep => exact .step hStep (ih hLater)
  | parallel _ ih =>
      obtain ⟨collected, later, rfl, hFinds, hLater⟩ := Cast.resolveAll_eq_cons hEntries rfl
      cases hFinds with
      | parallel hSteps => exact .parallel hSteps (ih hLater)
  | story hInner _ ihInner ih =>
      have hSound := hInner.anyFaulty_eq
      obtain ⟨collected, later, rfl, hFinds, hLater⟩ := Cast.resolveAll_eq_cons hEntries hSound
      cases hFinds with
      | story hMember hFound =>
          obtain ⟨deeper, opened', hFound⟩ := Cast.resolveWithin_eq_some hFound
          exact .story hMember (ihInner hFound) (ih hLater)
  | mounted hPlan _ _ ihInner ih =>
      obtain ⟨collected, later, rfl, hFinds, hLater⟩ := Cast.resolveAll_eq_cons hEntries rfl
      cases hFinds with
      | mounted hMember =>
          -- the plan was compiled among objects of its own, where no story was open
          exact .mounted hMember hPlan (ihInner rfl) (ih hLater)

/-- **The scenes of a tree that mounts are what the names of its story stand for.** -/
theorem Mounts.resolves {cast : Cast β} {tree : StoryTree β} {plan : Plan β}
    (h : Mounts cast tree plan) :
    Resolves cast tree.owner tree.definition.collected tree.scenes :=
  h.unfolds.resolves rfl

end Storyline
