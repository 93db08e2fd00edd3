import Mathlib.Data.Finset.Card
import Mathlib.Data.Finset.Dedup
import Storyline.Proofs.Composition
import Storyline.Proofs.Names

/-!
# Stories and plans made of them

A name on an object may stand for a story, which is compiled where it is found, or for a plan that
was made of the story before. The two come to the same (`Plan.compile_inject`): compiling a story
depends on the object it is compiled on and on what is found there, and neither on what surrounds it
nor on how deep it is found.

The only thing a story has from its surroundings are the open stories. They are looked at to tell
whether a story is found in itself, which is an error, and for nothing else. The bound on the depth
is met by open stories only, since the stories that are not open become fewer with every story that
is opened (`Cast.closed`).

For the proof resolving and assembling are seen as one recursion (`Cast.planWithin_succ`): nothing is
resolved after an entry with a fault, and such an entry can not be added.
-/

set_option autoImplicit false

namespace Storyline

variable {β : Type}

/-! ## Entries with a fault -/

namespace Draft

mutual

/-- An entry with a fault can not be added. -/
theorem exists_error_of_isFaulty (d : Draft β) (entry : Entry β)
    (h : entry.isFaulty = true) : ∃ cause, d.add entry = .error cause := by
  match entry with
  | .step s => cases h
  | .parallel steps fault =>
      rw [Entry.isFaulty] at h
      obtain ⟨cause, rfl⟩ := Option.isSome_iff_exists.mp h
      rw [add, addGroup]
      cases steps.foldlM checkStep d with
      | error other => exact ⟨other, rfl⟩
      | ok d₁ => exact ⟨.definition cause, rfl⟩
  | .story name definition owner entries =>
      rw [Entry.isFaulty] at h
      rw [add]
      cases (start definition owner : Except StoryError (Draft β)) with
      | error cause => exact ⟨cause, rfl⟩
      | ok child =>
          obtain ⟨cause, hCause⟩ := exists_error_of_anyFaulty child entries h
          refine ⟨cause, ?_⟩
          show (child.addAll entries >>= fun child => d.addPlan name child.finish) = _
          rw [hCause]
          rfl
  | .mounted name plan => cases h
  | .fault cause => exact ⟨cause, rfl⟩

/-- Entries one of which has a fault can not all be added. -/
theorem exists_error_of_anyFaulty (d : Draft β) (entries : List (Entry β))
    (h : Entry.anyFaulty entries = true) : ∃ cause, d.addAll entries = .error cause := by
  match entries with
  | [] => cases h
  | entry :: rest =>
      rw [Entry.anyFaulty, Bool.or_eq_true] at h
      rw [addAll]
      cases hAdd : d.add entry with
      | error cause => exact ⟨cause, rfl⟩
      | ok d₁ =>
          rcases h with hFirst | hRest
          · obtain ⟨cause, hCause⟩ := exists_error_of_isFaulty d entry hFirst
            cases hAdd.symm.trans hCause
          · exact exists_error_of_anyFaulty d₁ rest hRest

end

/-- Adding all entries that were resolved comes to resolving and adding them one by one. -/
theorem addAll_resolveAll (resolve : Collected → Entry β) (list : List Collected) (d : Draft β) :
    d.addAll (Cast.resolveAll resolve list) =
      list.foldlM (fun d collected => d.add (resolve collected)) d := by
  induction list generalizing d with
  | nil => rfl
  | cons collected rest ih =>
      rw [Cast.resolveAll, List.foldlM_cons]
      split
      · next hFaulty =>
        -- whether anything comes after the fault makes no difference
        obtain ⟨cause, hCause⟩ := d.exists_error_of_isFaulty (resolve collected) hFaulty
        rw [addAll, hCause]
        rfl
      · rw [addAll]
        exact bind_congr fun d₁ => ih d₁

/-- A substory is assembled alone and then added as a plan. -/
theorem add_story (d : Draft β) (name : String) (definition : Story) (owner : OwnerId)
    (entries : List (Entry β)) :
    d.add (.story name definition owner entries) =
      Plan.assemble definition owner entries >>= d.addPlan name := by
  rw [add, Plan.assemble, bind_assoc]
  refine bind_congr fun child => ?_
  rw [bind_assoc]
  rfl

end Draft

/-! ## Compiling where a story is found -/

namespace Cast

/-- The plan of a story, made with some stories open, unless the story is open itself or lies
deeper than `fuel`. -/
def planWithin (cast : Cast β) (fuel : Nat) (opened : List Frame) (story : Story)
    (owner : OwnerId) : Option (Except StoryError (Plan β)) :=
  (cast.resolveWithin fuel opened story owner).map (Plan.assemble story owner)

/-- Add what a name of a story stands for. `compile` gives the plan of a substory unless it is
open. -/
def attach (cast : Cast β) (story : Story) (owner : OwnerId)
    (compile : Story → OwnerId → Option (Except StoryError (Plan β))) (d : Draft β) :
    Collected → Except StoryError (Draft β)
  | .step name =>
    match cast.member? owner name with
    | none => .error (.definition (.unknownStep story.qualified name))
    | some (.step s) => d.addStep { s with owner := cast.className owner }
    | some (.mounted plan) => d.addPlan name plan
    | some (.story (.error cause) _) => .error cause
    | some (.story (.ok child) childOwner) =>
      match compile child childOwner with
      | some made => made >>= d.addPlan name
      | none => .error (.definition (.recursiveStory story.qualified name))
  | .parallel names =>
    let (steps, fault) := cast.resolveGroup story owner names
    d.addGroup steps fault

theorem add_resolveEntry (cast : Cast β) (story : Story) (owner : OwnerId)
    (descend : Story → OwnerId → Option (List (Entry β))) (d : Draft β) (collected : Collected) :
    d.add (cast.resolveEntry story owner descend collected) =
      cast.attach story owner
        (fun child childOwner => (descend child childOwner).map (Plan.assemble child childOwner))
        d collected := by
  fun_cases cast.resolveEntry story owner descend collected with
  | case1 name hm => simp only [attach, hm, Draft.add]
  | case2 name s hm => simp only [attach, hm, Draft.add]
  | case3 name plan hm => simp only [attach, hm, Draft.add]
  | case4 name cause o hm => simp only [attach, hm, Draft.add]
  | case5 name child childOwner hm found hFound =>
      simp only [attach, hm, hFound, Option.map_some]
      exact d.add_story name child childOwner found
  | case6 name child childOwner hm hNone =>
      simp only [attach, hm, hNone, Option.map_none, Draft.add]
  | case7 names steps fault hGroup => simp only [attach, hGroup, Draft.add]

/-- **How a story is compiled where it is found**: it is opened, and what its names stand for is
added one by one, substories by compiling them in the same way. -/
theorem planWithin_succ (cast : Cast β) (fuel : Nat) (opened : List Frame) (story : Story)
    (owner : OwnerId) :
    cast.planWithin (fuel + 1) opened story owner =
      if opened.contains (frame story owner) then none
      else some (do
        let d ← Draft.start story owner
        let d ← story.collected.foldlM
          (cast.attach story owner (cast.planWithin fuel (frame story owner :: opened))) d
        return d.finish) := by
  rw [planWithin, resolveWithin]
  split
  · rfl
  · rw [Option.map_some, Plan.assemble]
    refine congrArg some (bind_congr fun d => ?_)
    rw [Draft.addAll_resolveAll]
    have hAttach : (fun (d : Draft β) collected => d.add (cast.resolveEntry story owner
        (cast.resolveWithin fuel (frame story owner :: opened)) collected)) =
          cast.attach story owner (cast.planWithin fuel (frame story owner :: opened)) := by
      funext d collected
      exact cast.add_resolveEntry story owner _ d collected
    rw [hAttach]

/-- A story that was compiled was not open. -/
theorem notMem_opened {cast : Cast β} {fuel : Nat} {opened : List Frame} {story : Story}
    {owner : OwnerId} {made : Except StoryError (Plan β)}
    (h : cast.planWithin fuel opened story owner = some made) : frame story owner ∉ opened := by
  cases fuel with
  | zero => cases h
  | succ fuel =>
      rw [planWithin_succ] at h
      split at h
      · cases h
      · next hClosed => rwa [List.contains_iff_mem] at hClosed

/-- Compiling a story alone is compiling it with no story open. -/
theorem planWithin_nil (cast : Cast β) (story : Story) (owner : OwnerId) :
    cast.planWithin (cast.frames.length + 1) [] story owner =
      some (Plan.compile cast story owner) := rfl

end Cast

/-! ## Stories that are not open -/

namespace Cast

/-- The stories that can be found on the objects and are not open. -/
def closed (cast : Cast β) (opened : List Frame) : Finset Frame :=
  cast.frames.toFinset \ opened.toFinset

theorem card_closed_le (cast : Cast β) (opened : List Frame) :
    (cast.closed opened).card ≤ cast.frames.length :=
  (Finset.card_le_card Finset.sdiff_subset).trans (List.toFinset_card_le _)

/-- With every story that is opened those that are not become fewer. -/
theorem card_closed_cons {cast : Cast β} {opened : List Frame} {f : Frame}
    (hFound : f ∈ cast.frames) (hNew : f ∉ opened) :
    (cast.closed (f :: opened)).card + 1 = (cast.closed opened).card := by
  have hErase : cast.closed (f :: opened) = (cast.closed opened).erase f := by
    ext other
    simp only [closed, List.toFinset_cons, Finset.mem_sdiff, Finset.mem_insert, Finset.mem_erase]
    tauto
  have hIn : f ∈ cast.closed opened := by
    simp [closed, hFound, hNew]
  rw [hErase, Finset.card_erase_add_one hIn]

/-- A story that a name stands for is among those that can be found. -/
theorem mem_frames {cast : Cast β} {owner : OwnerId} {name : String} {story : Story}
    {childOwner : OwnerId} (h : cast.member? owner name = some (.story (.ok story) childOwner)) :
    frame story childOwner ∈ cast.frames := by
  obtain ⟨object, hObject, hMember⟩ := Option.bind_eq_some_iff.mp h
  have hFrame : frame story childOwner ∈
      object.members.entries.filterMap fun entry => memberFrame? entry.2 :=
    List.mem_filterMap.mpr ⟨_, mem_of_lookup_eq_some hMember, rfl⟩
  exact List.mem_flatten.mpr ⟨_, List.mem_map.mpr ⟨_, mem_of_lookup_eq_some hObject, rfl⟩, hFrame⟩

end Cast

/-! ## Errors of recursion -/

/-- A computation does not end with the error that a story is found in itself. -/
def NotRecursive {α : Type} (x : Except StoryError α) : Prop :=
  ∀ story name, x ≠ .error (.definition (.recursiveStory story name))

/-- A computation in two parts does not end so if it does not. -/
theorem NotRecursive.of_bind {α γ : Type} {x : Except StoryError α} {f : α → Except StoryError γ}
    (h : NotRecursive (x >>= f)) : NotRecursive x ∧ ∀ a, x = .ok a → NotRecursive (f a) := by
  constructor
  · rintro story name rfl
    exact h story name rfl
  · rintro a rfl
    exact h

/-- A loop does the same when its steps do, unless one ends with the error of recursion. -/
theorem foldlM_congr_of_notRecursive {α γ : Type} {f g : γ → α → Except StoryError γ}
    (h : ∀ c a, NotRecursive (f c a) → g c a = f c a) {list : List α} {c : γ}
    (hNot : NotRecursive (list.foldlM f c)) : list.foldlM g c = list.foldlM f c := by
  induction list generalizing c with
  | nil => rfl
  | cons a rest ih =>
      rw [List.foldlM_cons] at hNot
      rw [List.foldlM_cons, List.foldlM_cons]
      obtain ⟨hFirst, hRest⟩ := hNot.of_bind
      rw [h c a hFirst]
      cases hStep : f c a with
      | error cause => rfl
      | ok c₁ => exact ih (hRest c₁ hStep)

/-! ## Objects with plans in place of stories -/

namespace Cast

/-- Some objects are those of another cast, where plans may stand in place of stories. Wherever such
a story was compiled, and no recursion was found, the plan is what came out. -/
structure Replaces (cast' cast : Cast β) : Prop where
  className : ∀ owner, cast'.className owner = cast.className owner
  member : ∀ owner name, cast'.member? owner name = cast.member? owner name ∨
    ∃ story object plan, cast.member? owner name = some (.story (.ok story) object) ∧
      cast'.member? owner name = some (.mounted plan) ∧
      ∀ fuel opened made, cast.planWithin fuel opened story object = some made →
        NotRecursive made → made = .ok plan

theorem Replaces.refl (cast : Cast β) : cast.Replaces cast :=
  ⟨fun _ => rfl, fun _ _ => .inl rfl⟩

/-- Groups are made of steps only, so that a plan is as much a fault in them as a story. -/
theorem Replaces.resolveGroup_eq {cast cast' : Cast β} (h : cast'.Replaces cast) (story : Story)
    (owner : OwnerId) (names : List String) :
    cast'.resolveGroup story owner names = cast.resolveGroup story owner names := by
  induction names with
  | nil => rfl
  | cons name rest ih =>
      rw [resolveGroup, resolveGroup, h.className, ih]
      rcases h.member owner name with hSame | ⟨child, object, plan, hStory, hPlan, -⟩
      · rw [hSame]
      · rw [hStory, hPlan]

section

variable {cast cast' : Cast β} {story : Story} {owner : OwnerId}
  {compile compile' : Story → OwnerId → Option (Except StoryError (Plan β))} {d : Draft β}

/-- A substory that is added without an error of recursion was compiled without one. -/
theorem exists_made_of_attach {name : String} {child : Story} {object : OwnerId}
    (hMember : cast.member? owner name = some (.story (.ok child) object))
    (hNot : NotRecursive (cast.attach story owner compile d (.step name))) :
    ∃ made, compile child object = some made ∧ NotRecursive made ∧
      cast.attach story owner compile d (.step name) = made >>= d.addPlan name := by
  simp only [attach, hMember] at hNot ⊢
  cases hMade : compile child object with
  | none =>
      rw [hMade] at hNot
      exact absurd rfl (hNot story.qualified name)
  | some made =>
      rw [hMade] at hNot
      exact ⟨made, rfl, hNot.of_bind.1, rfl⟩

/-- What a name stands for is added alike, if substories are compiled alike and plans that stand in
place of stories are what compiling them gives. -/
theorem Replaces.attach_eq (h : cast'.Replaces cast)
    (hAlike : ∀ name child object made,
      cast'.member? owner name = some (.story (.ok child) object) →
      compile child object = some made → NotRecursive made → compile' child object = some made)
    (hPlans : ∃ fuel opened, compile = cast.planWithin fuel opened) {collected : Collected}
    (hNot : NotRecursive (cast.attach story owner compile d collected)) :
    cast'.attach story owner compile' d collected =
      cast.attach story owner compile d collected := by
  cases collected with
  | parallel names => simp only [attach, h.resolveGroup_eq]
  | step name =>
      rcases h.member owner name with hSame | ⟨child, object, plan, hStory, hPlan, hGives⟩
      · cases hMember : cast.member? owner name with
        | none => simp only [attach, hSame, hMember]
        | some member =>
            cases member with
            | step s => simp only [attach, hSame, hMember, h.className]
            | mounted plan => simp only [attach, hSame, hMember]
            | story definition object =>
                cases definition with
                | error cause => simp only [attach, hSame, hMember]
                | ok child =>
                    obtain ⟨made, hMade, hNotMade, hAttach⟩ := exists_made_of_attach hMember hNot
                    have hMade' := hAlike name child object made (hSame.trans hMember) hMade hNotMade
                    rw [hAttach]
                    simp only [attach, hSame, hMember, hMade']
      · -- the story was compiled to the very plan that stands in its place
        obtain ⟨made, hMade, hNotMade, hAttach⟩ := exists_made_of_attach hStory hNot
        obtain ⟨fuel, opened, rfl⟩ := hPlans
        obtain rfl := hGives fuel opened made hMade hNotMade
        rw [hAttach]
        simp only [attach, hPlan]
        rfl

end

/-- **A story is compiled alike wherever it is found**, with fewer stories open and plans in place
of stories, unless the error is that of recursion. `fuel'` has to allow for all stories that are not
open. -/
theorem Replaces.planWithin_eq {cast cast' : Cast β} (h : cast'.Replaces cast) {fuel : Nat}
    {opened : List Frame} {story : Story} {owner : OwnerId} {made : Except StoryError (Plan β)}
    (hMade : cast.planWithin fuel opened story owner = some made) (hNot : NotRecursive made)
    {opened' : List Frame} (hOpened : opened' ⊆ opened) {fuel' : Nat}
    (hEnough : (cast'.closed (frame story owner :: opened')).card ≤ fuel') :
    cast'.planWithin (fuel' + 1) opened' story owner = some made := by
  induction fuel generalizing opened story owner made opened' fuel' with
  | zero => cases hMade
  | succ fuel ih =>
      rw [planWithin_succ] at hMade ⊢
      split at hMade
      · cases hMade
      next hClosed =>
      have hClosed' : ¬ opened'.contains (frame story owner) = true := by
        rw [List.contains_iff_mem] at hClosed ⊢
        exact fun hIn => hClosed (hOpened hIn)
      rw [if_neg hClosed']
      obtain rfl := Option.some.inj hMade
      -- a substory is not open where it was compiled, so that it is one story less to be opened
      have hAlike : ∀ name child object made,
          cast'.member? owner name = some (.story (.ok child) object) →
          cast.planWithin fuel (frame story owner :: opened) child object = some made →
          NotRecursive made →
          cast'.planWithin fuel' (frame story owner :: opened') child object = some made := by
        intro name child object made hMember hMade hNotMade
        have hNew : frame child object ∉ frame story owner :: opened' :=
          fun hIn => notMem_opened hMade (List.cons_subset_cons _ hOpened hIn)
        have hLess := card_closed_cons (mem_frames hMember) hNew
        obtain ⟨deeper, rfl⟩ : ∃ deeper, fuel' = deeper + 1 := ⟨fuel' - 1, by omega⟩
        exact ih hMade hNotMade (List.cons_subset_cons _ hOpened) (by omega)
      refine congrArg some ?_
      cases hStart : (Draft.start story owner : Except StoryError (Draft β)) with
      | error cause => rfl
      | ok d =>
          have hNames := (hNot.of_bind.2 d hStart).of_bind.1
          have hSame := foldlM_congr_of_notRecursive
            (fun _ _ hStep => h.attach_eq hAlike ⟨_, _, rfl⟩ hStep) hNames
          exact congrArg (· >>= fun d => .ok d.finish) hSame

/-- **The open stories make no difference**: a story that is compiled where it is found, however
deep and whatever is open there, gives what it gives alone, or an error of recursion. -/
theorem planWithin_eq_compile {cast : Cast β} {fuel : Nat} {opened : List Frame} {story : Story}
    {owner : OwnerId} {made : Except StoryError (Plan β)}
    (hMade : cast.planWithin fuel opened story owner = some made) (hNot : NotRecursive made) :
    made = Plan.compile cast story owner := by
  have hAlone := (Replaces.refl cast).planWithin_eq hMade hNot (List.nil_subset opened)
    (cast.card_closed_le [frame story owner])
  rw [planWithin_nil] at hAlone
  exact (Option.some.inj hAlone).symm

/-- Objects with plans in place of stories compile a story to the same. -/
theorem Replaces.compile_eq {cast cast' : Cast β} (h : cast'.Replaces cast) {story : Story}
    {owner : OwnerId} (hNot : NotRecursive (Plan.compile cast story owner)) :
    Plan.compile cast' story owner = Plan.compile cast story owner := by
  have hSame := h.planWithin_eq (cast.planWithin_nil story owner) hNot (List.nil_subset [])
    (cast'.card_closed_le [frame story owner])
  rw [planWithin_nil] at hSame
  exact Option.some.inj hSame

/-! ## Injecting a plan -/

/-- The same objects, where a name on one of them stands for a plan. -/
def inject (cast : Cast β) (owner : OwnerId) (name : String) (plan : Plan β) : Cast β :=
  match cast.find? owner with
  | none => cast
  | some object =>
    cast.insert owner { object with members := object.members.insert name (.mounted plan) }

theorem className_inject (cast : Cast β) (owner : OwnerId) (name : String) (plan : Plan β)
    (other : OwnerId) : (cast.inject owner name plan).className other = cast.className other := by
  unfold inject className
  cases hObject : cast.find? owner with
  | none => rfl
  | some object =>
      dsimp only
      rw [Named.find?_insert]
      by_cases hOther : other = owner
      · rw [if_pos hOther, hOther, hObject]
        rfl
      · rw [if_neg hOther]

/-- Only the one name stands for something else. -/
theorem member?_inject {cast : Cast β} {owner : OwnerId} {object : Owner β}
    (hObject : cast.find? owner = some object) (name : String) (plan : Plan β)
    (other : OwnerId) (otherName : String) :
    (cast.inject owner name plan).member? other otherName =
      if other = owner ∧ otherName = name then some (.mounted plan)
      else cast.member? other otherName := by
  simp only [inject, hObject, member?, Named.find?_insert]
  by_cases hOther : other = owner
  · subst hOther
    rw [if_pos rfl, hObject]
    show (object.members.insert name (.mounted plan)).find? otherName = _
    rw [Named.find?_insert]
    by_cases hName : otherName = name
    · rw [if_pos hName, if_pos ⟨rfl, hName⟩]
    · rw [if_neg hName, if_neg fun h => hName h.2]
      rfl
  · rw [if_neg hOther, if_neg fun h => hOther h.1]

/-- A plan that was made of a story stands in its place. -/
theorem replaces_inject {cast : Cast β} {owner object : OwnerId} {name : String} {story : Story}
    {plan : Plan β} (hMember : cast.member? owner name = some (.story (.ok story) object))
    (hPlan : Plan.compile cast story object = .ok plan) :
    (cast.inject owner name plan).Replaces cast where
  className := cast.className_inject owner name plan
  member other otherName := by
    obtain ⟨found, hFound, -⟩ := Option.bind_eq_some_iff.mp hMember
    rw [member?_inject hFound]
    by_cases hName : other = owner ∧ otherName = name
    · obtain ⟨rfl, rfl⟩ := hName
      refine .inr ⟨story, object, plan, hMember, if_pos ⟨rfl, rfl⟩, ?_⟩
      intro fuel opened made hMade hNot
      exact (planWithin_eq_compile hMade hNot).trans hPlan
    · exact .inl (if_neg hName)

end Cast

/-- **Injecting a plan is composing the story it was made of.** If a name stands for a story that
compiles alone, and no recursion is found in compiling another story, it makes no difference to that
one whether the name stands for the story or for its plan. And the entries that are found for any
story, with whatever stories open, are assembled to what the story compiles to alone, or to an error
of recursion. -/
theorem Plan.compile_inject {cast : Cast β} {owner object : OwnerId} {name : String}
    {story : Story} {plan : Plan β}
    (hMember : cast.member? owner name = some (.story (.ok story) object))
    (hPlan : Plan.compile cast story object = .ok plan) :
    (∀ parent place,
      (∀ other step,
        Plan.compile cast parent place ≠ .error (.definition (.recursiveStory other step))) →
      Plan.compile (cast.inject owner name plan) parent place =
        Plan.compile cast parent place) ∧
    ∀ fuel opened parent place entries,
      cast.resolveWithin fuel opened parent place = some entries →
      Plan.assemble parent place entries = Plan.compile cast parent place ∨
        ∃ other step, Plan.assemble parent place entries =
          .error (.definition (.recursiveStory other step)) := by
  constructor
  · intro parent place hNot
    exact (Cast.replaces_inject hMember hPlan).compile_eq hNot
  · intro fuel opened parent place entries hEntries
    have hMade : cast.planWithin fuel opened parent place =
        some (Plan.assemble parent place entries) := by
      rw [Cast.planWithin, hEntries]
      rfl
    by_cases hNot : NotRecursive (Plan.assemble parent place entries)
    · exact .inl (Cast.planWithin_eq_compile hMade hNot)
    · refine .inr ?_
      by_contra hNone
      exact hNot fun other step hError => hNone ⟨other, step, hError⟩

namespace Shop

def payPlan : Plan Body := (Plan.compile cast pay "shop").toOption.get rfl

/-- The sale is the same when the payment was mounted before. -/
theorem pay_injected :
    (cast.inject "shop" "pay" payPlan).member? "shop" "pay" = some (.mounted payPlan) ∧
      Plan.compile (cast.inject "shop" "pay" payPlan) sell "shop" = .ok plan := by
  have hCompiled : Plan.compile cast sell "shop" = .ok plan := rfl
  have hMember : cast.member? "shop" "pay" = some (.story (.ok pay) "shop") := rfl
  have hPlan : Plan.compile cast pay "shop" = .ok payPlan := rfl
  obtain ⟨hInjected, -⟩ := Plan.compile_inject hMember hPlan
  refine ⟨rfl, ?_⟩
  rw [hInjected sell "shop" fun other step hError => by cases hCompiled.symm.trans hError]
  exact hCompiled

end Shop

end Storyline
