import Storyline.Proofs.Growth

/-!
# The stories around a step

A step stands in its own story, in the story that has this one as a substory, and so on up to the
outermost story (`StoryTree.around`). A story is entered only when its arguments are in the
context. Since names are never taken away, they are still there when any of its steps is invoked,
however deep in it (`Mounts.arguments_set`).

The arguments are checked at the beginning of each story only, and a story that was left early is
passed over together with all stories in it. So the invariant of a run (`Run.Holds`) speaks of the
open stories that are not being passed over: these have their arguments in the context.
-/

set_option autoImplicit false

namespace Storyline

variable {β : Type}

/-! ## What is around an instruction -/

/-- The stories around each instruction of some scenes, the innermost first. Where a story starts
and where it ends it is around already, or still. -/
def Scenes.around (outer : List Story) : Scenes β → List (List Story)
  | .done => []
  | .step _ rest => outer :: rest.around outer
  | .parallel _ rest => outer :: rest.around outer
  | .story _ definition _ inner rest =>
    (definition :: outer) ::
      (inner.around (definition :: outer) ++ (definition :: outer) :: rest.around outer)

/-- The stories around each instruction of a tree. -/
def StoryTree.around (tree : StoryTree β) : List (List Story) :=
  [tree.definition] :: (tree.scenes.around [tree.definition] ++ [[tree.definition]])

namespace Instruction

/-- The open stories after an instruction of a story, the innermost first. -/
def openStories (opened : List Story) (entry : Story × Instruction β) : List Story :=
  match entry.2 with
  | .enter _ _ => entry.1 :: opened
  | .leave => opened.tail
  | _ => opened

/-- The stories around an instruction, where some are open. -/
def within (opened : List Story) (entry : Story × Instruction β) : List Story :=
  match entry.2 with
  | .enter _ _ => entry.1 :: opened
  | _ => opened

/-- An instruction that has steps opens no story. -/
theorem within_of_mem_steps {opened : List Story} {story : Story} {i : Instruction β} {s : Step β}
    (h : s ∈ i.steps) : within opened (story, i) = opened := by
  cases i with
  | enter label number => cases h
  | leave => cases h
  | step other number protocol => rfl
  | parallel steps number protocol => rfl

/-- The stories around each of some instructions. -/
def nesting : List Story → List (Story × Instruction β) → List (List Story)
  | _, [] => []
  | opened, entry :: rest => within opened entry :: nesting (openStories opened entry) rest

theorem nesting_append (opened : List Story) (first rest : List (Story × Instruction β)) :
    nesting opened (first ++ rest) =
      nesting opened first ++ nesting (first.foldl openStories opened) rest := by
  induction first generalizing opened with
  | nil => rfl
  | cons entry others ih =>
      rw [List.cons_append, nesting, ih, nesting, List.foldl_cons]
      rfl

theorem mem_openStories {opened : List Story} {entry : Story × Instruction β} {story : Story}
    (h : story ∈ openStories opened entry) :
    story ∈ opened ∨ story = entry.1 ∧ ∃ label number, entry.2 = .enter label number := by
  obtain ⟨owner, i⟩ := entry
  cases i with
  | enter label number =>
      rcases List.mem_cons.mp h with rfl | hOld
      · exact .inr ⟨rfl, label, number, rfl⟩
      · exact .inl hOld
  | leave => exact .inl (List.mem_of_mem_tail h)
  | step s number protocol => exact .inl h
  | parallel steps number protocol => exact .inl h

@[simp] theorem length_nesting (opened : List Story) (entries : List (Story × Instruction β)) :
    (nesting opened entries).length = entries.length := by
  induction entries generalizing opened with
  | nil => rfl
  | cons entry rest ih => rw [nesting, List.length_cons, ih, List.length_cons]

/-- What is around an instruction depends on those before it. -/
theorem getElem?_nesting (done : List (Story × Instruction β)) (entry : Story × Instruction β)
    (later : List (Story × Instruction β)) :
    (nesting [] (done ++ entry :: later))[done.length]? =
      some (within (done.foldl openStories []) entry) := by
  rw [nesting_append, List.getElem?_append_right (by simp), length_nesting, Nat.sub_self, nesting]
  rfl

end Instruction

/-- After some scenes the same stories are open as before. -/
theorem Scenes.foldl_openStories (isShut : Bool) (p : Place) (next : Nat) (scenes : Scenes β)
    (opened : List Story) :
    (scenes.score isShut p next).foldl Instruction.openStories opened = opened := by
  induction scenes generalizing p next opened with
  | done => rfl
  | step s rest ih => exact ih p next opened
  | parallel steps rest ih => exact ih p next opened
  | story name definition owner inner rest ihInner ih =>
      rw [score, List.foldl_cons, List.foldl_append, ihInner, List.foldl_cons, ih]
      rfl

/-- The score of some scenes is nested like the scenes. -/
theorem Scenes.nesting_score (isShut : Bool) (p : Place) (next : Nat) (scenes : Scenes β)
    (opened : List Story) :
    Instruction.nesting opened (scenes.score isShut p next) = scenes.around opened := by
  induction scenes generalizing p next opened with
  | done => rfl
  | step s rest ih => exact congrArg (opened :: ·) (ih p next opened)
  | parallel steps rest ih => exact congrArg (opened :: ·) (ih p next opened)
  | story name definition owner inner rest ihInner ih =>
      rw [score, Instruction.nesting, Instruction.openStories, Instruction.nesting_append, ihInner,
        foldl_openStories, Instruction.nesting, Instruction.openStories, List.tail_cons, ih]
      rfl

theorem StoryTree.nesting_score (tree : StoryTree β) (isShut : Bool) :
    Instruction.nesting [] (tree.score isShut) = tree.around := by
  rw [score, Instruction.nesting, Instruction.openStories, Instruction.nesting_append,
    Scenes.nesting_score, Scenes.foldl_openStories]
  rfl

/-- The innermost story around an instruction is the one that it stands beside. -/
theorem Scenes.map_head?_around (isShut : Bool) (p : Place) (next : Nat) (scenes : Scenes β)
    (outer : List Story) :
    (scenes.around (p.story :: outer)).map List.head? =
      (scenes.score isShut p next).map fun entry => some entry.1 := by
  induction scenes generalizing p next outer with
  | done => rfl
  | step s rest ih => exact congrArg (some p.story :: ·) (ih p next outer)
  | parallel steps rest ih => exact congrArg (some p.story :: ·) (ih p next outer)
  | story name definition owner inner rest ihInner ih =>
      have hInner := ihInner ⟨definition, owner, next⟩ (next + 1) (p.story :: outer)
      have hRest := ih p (next + 1 + inner.stories.length) outer
      rw [around, List.map_cons, List.map_append, List.map_cons, hInner, hRest, score,
        List.map_cons, List.map_append, List.map_cons]
      rfl

theorem StoryTree.map_head?_around (tree : StoryTree β) (isShut : Bool) :
    tree.around.map List.head? = (tree.score isShut).map fun entry => some entry.1 := by
  rw [around, List.map_cons, List.map_append,
    tree.scenes.map_head?_around isShut ⟨tree.definition, tree.owner, 0⟩ 1 []]
  simp [score]

/-! ## Arguments that are in the context -/

/-- All arguments of a story are in a context. -/
def Context.Supplies (ctx : Context) (story : Story) : Prop :=
  ∀ name ∈ story.arguments, name ∈ ctx.names

theorem Context.Supplies.mono {ctx ctx' : Context} {story : Story} (h : ctx.Supplies story)
    (hNames : ∀ name ∈ ctx.names, name ∈ ctx'.names) : ctx'.Supplies story :=
  fun name hName => hNames name (h name hName)

/-- The arguments of a story that are not in a context. -/
def Context.missing (ctx : Context) (story : Story) : List String :=
  story.arguments.filter fun name => !ctx.contains name

theorem Context.mem_missing_iff {ctx : Context} {story : Story} {name : String} :
    name ∈ ctx.missing story ↔ name ∈ story.arguments ∧ name ∉ ctx.names := by
  simp [missing, contains]

theorem Context.supplies_iff {ctx : Context} {story : Story} :
    ctx.Supplies story ↔ ctx.missing story = [] := by
  rw [List.eq_nil_iff_forall_not_mem]
  simp only [mem_missing_iff, not_and, not_not]
  rfl

/-- The check at the start of a story passes if the context supplies the story, and names what is
missing otherwise. -/
theorem Contract.IsOf.checkStart_eq {c : Contract} {story : Story} (h : c.IsOf story)
    (ctx : Context) :
    c.checkStart ctx =
      if ctx.missing story = [] then .ok ()
      else .error (.missingVariables (sortNames (ctx.missing story)) story.name story.arguments
        ctx.display) := by
  obtain ⟨hStory, hArguments, -⟩ := h.declares
  unfold checkStart Context.missing
  rw [hStory, hArguments]
  split
  · next hNone => rw [if_pos hNone]
  · next hSome => rw [if_neg hSome]

/-! ## Moments and what is invoked in them -/

namespace Moment

/-- A moment invokes a step of its instruction, which receives a context. Nothing is invoked while
stories are passed over. -/
def Invokes (m : Moment β) (s : Step β) (ctx : Context) : Prop :=
  m.before.skipped = 0 ∧ s ∈ m.instruction.steps ∧ ctx = m.instruction.seen m.before.ctx

/-- A moment would enter its story, but arguments of the story are missing. -/
def Lacks (m : Moment β) : Prop :=
  m.before.skipped = 0 ∧ (∃ label number, m.instruction = .enter label number) ∧
    ¬ m.before.ctx.Supplies m.story

theorem Invokes.names_eq {m : Moment β} {s : Step β} {ctx : Context} (h : m.Invokes s ctx) :
    ctx.names = m.before.ctx.names := by
  obtain ⟨-, -, rfl⟩ := h
  rw [Context.names, Instruction.entries_seen]
  rfl

end Moment

/-- A moment is the same whatever bodies do that are not invoked in it, and whatever those that are
invoked do in other contexts. -/
theorem Moment.Executes.congr {m : Moment β} {plan : Plan β} {calling : Calling}
    {perform perform' : β → Context → Reply} (h : m.Executes plan perform calling)
    (hSame : ∀ s ctx, m.Invokes s ctx → perform' s.body ctx = perform s.body ctx) :
    m.Executes plan perform' calling := by
  refine (Run.execute_congr fun hSkipped s hs => ?_).trans h
  unfold Run.reply?
  rw [hSame s _ ⟨hSkipped, hs, rfl⟩]

/-! ## Where a run stands -/

namespace Run

variable {plan : Plan β} {perform : β → Context → Reply} {calling : Calling}

/-- A run goes through its instructions in order, as far as it goes. -/
theorem map_moments_prefix (plan : Plan β) (perform : β → Context → Reply) (calling : Calling)
    (scored : List (Story × Instruction β)) (r : Run) :
    (moments plan perform calling scored r).map (fun m => (m.story, m.instruction)) <+:
      scored := by
  induction scored generalizing r with
  | nil => exact List.prefix_rfl
  | cons first rest ih =>
      obtain ⟨story, i⟩ := first
      rw [moments]
      split
      · next after _ =>
        rw [List.map_cons]
        exact List.cons_prefix_cons.mpr ⟨rfl, ih after⟩
      · next after ending _ => exact List.cons_prefix_cons.mpr ⟨rfl, List.nil_prefix⟩

/-- A run that is never stopped goes through all its instructions. -/
theorem map_moments_eq {scored : List (Story × Instruction β)} {r : Run}
    (h : ∀ m ∈ moments plan perform calling scored r, m.flow = .next) :
    (moments plan perform calling scored r).map (fun m => (m.story, m.instruction)) = scored := by
  induction scored generalizing r with
  | nil => rfl
  | cons first rest ih =>
      obtain ⟨story, i⟩ := first
      rw [moments] at h ⊢
      split at h
      · next after _ =>
        rw [List.map_cons, ih fun m hm => h m (List.mem_cons_of_mem _ hm)]
      · next after ending _ => cases h _ List.mem_cons_self

/-- Nothing comes after a moment that stops a run. -/
theorem flow_eq_next {scored : List (Story × Instruction β)} {r : Run}
    {done later : List (Moment β)} {m : Moment β}
    (h : moments plan perform calling scored r = done ++ m :: later) (hLater : later ≠ []) :
    m.flow = .next := by
  induction scored generalizing r done with
  | nil => simp [moments] at h
  | cons first rest ih =>
      obtain ⟨story, i⟩ := first
      rw [moments] at h
      split at h
      · next after _ =>
        cases done with
        | nil =>
            obtain ⟨rfl, -⟩ := List.cons.inj h
            rfl
        | cons head others => exact ih (List.cons.inj h).2
      · next after ending _ =>
        -- the only moment that is left stops the run
        have hLength := congrArg List.length h
        have hPositive := List.length_pos_iff.mpr hLater
        simp at hLength
        omega

/-- All moments before another let the run go on. -/
theorem flow_eq_next_of_mem {scored : List (Story × Instruction β)} {r : Run}
    {done later : List (Moment β)} {m : Moment β}
    (h : moments plan perform calling scored r = done ++ m :: later) :
    ∀ earlier ∈ done, earlier.flow = .next := by
  intro earlier hEarlier
  obtain ⟨front, back, rfl⟩ := List.append_of_mem hEarlier
  rw [List.append_assoc, List.cons_append] at h
  exact flow_eq_next h (by simp)

/-- The open stories after some moments, the innermost first. -/
def openedBy (done : List (Moment β)) : List Story :=
  (done.map fun m => (m.story, m.instruction)).foldl Instruction.openStories []

theorem openedBy_concat (done : List (Moment β)) (m : Moment β) :
    openedBy (done ++ [m]) = Instruction.openStories (openedBy done) (m.story, m.instruction) := by
  simp [openedBy]

/-- The arguments of all open stories that are not being passed over are in the context. -/
def Holds (r : Run) (opened : List Story) : Prop :=
  ∀ story ∈ opened.drop r.skipped, r.ctx.Supplies story

/-- While stories are passed over the others stay the same, whatever is entered and left. -/
theorem Holds.passOver {r : Run} {opened : List Story} (h : r.Holds opened)
    (hSkipped : r.skipped ≠ 0) (story : Story) (i : Instruction β) :
    (r.passOver i).Holds (Instruction.openStories opened (story, i)) := by
  cases i with
  | enter label number => exact h
  | leave =>
      obtain ⟨skipped, hSucc⟩ := Nat.exists_eq_succ_of_ne_zero hSkipped
      have hDrop : opened.tail.drop (r.skipped - 1) = opened.drop r.skipped := by
        rw [hSucc, List.drop_tail]
        rfl
      intro other hOther
      exact h other (hDrop ▸ hOther)
  | step s number protocol => exact h
  | parallel steps number protocol => exact h

end Run

/-- The stories around a moment of a run, by its place among all moments: the story itself is the
innermost, and all others are open. -/
theorem StoryTree.exists_around {tree : StoryTree β} {isShut : Bool} {plan : Plan β}
    {perform : β → Context → Reply} {calling : Calling} {r : Run} {done later : List (Moment β)}
    {m : Moment β}
    (h : Run.moments plan perform calling (tree.score isShut) r = done ++ m :: later) :
    ∃ outer, tree.around[done.length]? = some (m.story :: outer) ∧
      m.story :: outer =
        Instruction.within (Run.openedBy done) (m.story, m.instruction) := by
  obtain ⟨others, hScore⟩ := Run.map_moments_prefix plan perform calling (tree.score isShut) r
  rw [h, List.map_append, List.map_cons, List.append_assoc, List.cons_append] at hScore
  have hAround := Instruction.getElem?_nesting (done.map fun m => (m.story, m.instruction))
    (m.story, m.instruction) (later.map (fun m => (m.story, m.instruction)) ++ others)
  rw [hScore, StoryTree.nesting_score, List.length_map] at hAround
  -- the story beside the instruction at this place is that of the moment
  have hBeside : (tree.score isShut)[done.length]? = some (m.story, m.instruction) := by
    rw [← hScore, List.getElem?_append_right (by simp)]
    simp
  have hHead : (tree.around.map List.head?)[done.length]? = some (some m.story) := by
    rw [tree.map_head?_around isShut, List.getElem?_map, hBeside]
    rfl
  rw [List.getElem?_map, hAround, Option.map_some, Option.some.injEq] at hHead
  obtain ⟨outer, hOuter⟩ := List.head?_eq_some_iff.mp hHead
  exact ⟨outer, hAround.trans (congrArg some hOuter), hOuter.symm⟩

/-! ## The invariant -/

section

variable {cast : Cast β} {tree : StoryTree β} {plan : Plan β} {perform : β → Context → Reply}
  {calling : Calling}

/-- A moment leaves all names in the context. -/
theorem Mounts.names_subset (h : Mounts cast tree plan) {m : Moment β}
    (hMem : (m.story, m.instruction) ∈ tree.score plan.failures.isSome)
    (hExecutes : m.Executes plan perform calling) :
    ∀ name ∈ m.before.ctx.names, name ∈ m.after.ctx.names := by
  obtain ⟨added, hAdded, -⟩ := (Moment.Adds.of_effect (h.effect hMem hExecutes)).added
  intro name hName
  rw [Context.names, hAdded, List.map_append]
  exact List.mem_append_left _ hName

/-- What entering a story comes to: its arguments are in the context and the run goes on, or it
ends with an error that names those that are missing. -/
theorem Mounts.enters (h : Mounts cast tree plan) {m : Moment β}
    (hMem : (m.story, m.instruction) ∈ tree.score plan.failures.isSome)
    (hExecutes : m.Executes plan perform calling) (hRuns : m.before.skipped = 0) {label : String}
    {number : Nat} (hEnter : m.instruction = .enter label number) :
    m.before.ctx.Supplies m.story ∧ m.flow = .next ∨
      ¬ m.before.ctx.Supplies m.story ∧ ∃ shown, m.flow = .stop (.error (.contract
        (.missingVariables (sortNames (m.before.ctx.missing m.story)) m.story.name
          m.story.arguments shown))) := by
  have hNumber : m.instruction.number? = some number := by rw [hEnter, Instruction.number?]
  obtain ⟨c, hContract, hOf⟩ := h.exists_contract hMem hNumber
  have hStart := hOf.checkStart_eq (m.before.entering label).ctx
  -- the line that is added to the history leaves the names
  have hMissing : (m.before.entering label).ctx.missing m.story =
      m.before.ctx.missing m.story := rfl
  have hFlow : m.flow = (m.before.enter plan label number).2 := by
    rw [Moment.Executes, hEnter, Run.execute_enter hRuns] at hExecutes
    exact (congrArg Prod.snd hExecutes).symm
  rw [hMissing] at hStart
  rw [Context.supplies_iff]
  split at hStart
  · next hNone =>
    refine .inl ⟨hNone, ?_⟩
    rw [hFlow, Run.enter_of_ok hContract hStart]
  · next hSome =>
    refine .inr ⟨hSome, (m.before.entering label).ctx.display, ?_⟩
    rw [hFlow, Run.enter_of_error hContract hStart]
    rfl

/-- A moment that lets the run go on preserves the invariant. -/
theorem Mounts.holds_after (h : Mounts cast tree plan) {m : Moment β} {opened : List Story}
    (hMem : (m.story, m.instruction) ∈ tree.score plan.failures.isSome)
    (hExecutes : m.Executes plan perform calling) (hNext : m.flow = .next)
    (hHolds : m.before.Holds opened) :
    m.after.Holds (Instruction.openStories opened (m.story, m.instruction)) := by
  have hNames := h.names_subset hMem hExecutes
  by_cases hRuns : m.before.skipped = 0
  · -- nothing is passed over before, so whatever is open is supplied
    rw [Run.Holds, hRuns, List.drop_zero] at hHolds
    intro story hStory
    rcases Instruction.mem_openStories (List.mem_of_mem_drop hStory) with
      hOld | ⟨rfl, label, number, hEnter⟩
    · exact (hHolds story hOld).mono hNames
    · -- the story has just been entered, which its arguments allowed
      rcases h.enters hMem hExecutes hRuns hEnter with ⟨hSupplies, -⟩ | ⟨-, _, hStop⟩
      · exact hSupplies.mono hNames
      · cases hNext.symm.trans hStop
  · rw [Moment.Executes, Run.execute_of_skipped hRuns] at hExecutes
    rw [← (Prod.mk.inj hExecutes).1]
    exact hHolds.passOver hRuns m.story m.instruction

/-- At every point of a run that goes on, the stories that are open and not passed over are
supplied. -/
theorem Mounts.holds_at (h : Mounts cast tree plan) {r : Run} {done later : List (Moment β)}
    {m : Moment β}
    (hPoint : Run.moments plan perform calling (tree.score plan.failures.isSome) r =
      done ++ m :: later) :
    m.before.Holds (Run.openedBy done) := by
  obtain ⟨-, -, hBefore⟩ := Run.moment_executes hPoint
  have hAll := Run.moments_induction
    (P := fun done r => (∀ earlier ∈ done, earlier.flow = .next) → r.Holds (Run.openedBy done))
    (fun _ _ hStory => by simp [Run.openedBy] at hStory)
    (fun done m hHolds hMem hExecutes hFlows => by
      rw [Run.openedBy_concat]
      have hBefore := hHolds fun earlier hEarlier => hFlows earlier (List.mem_append_left _ hEarlier)
      exact h.holds_after hMem hExecutes (hFlows m (by simp)) hBefore)
    hPoint
  rw [hBefore]
  exact hAll (Run.flow_eq_next_of_mem hPoint)

/-- **What a step can rely on.** Whenever a step is invoked, the context that it receives has the
arguments of its own story and of all stories around it. A story whose arguments are not all there
when it would be entered ends the run with an error that names those that are missing, and none of
its steps is invoked. Nothing but the bodies that are invoked decides what a moment does. -/
theorem Mounts.arguments_set (h : Mounts cast tree plan) {width : Nat} {arguments : Bindings}
    {invocation : Invocation}
    (hInvoke : plan.invoke perform calling width arguments = .ok invocation) :
    ∃ values, plan.root.checkCall arguments = .ok values ∧
      ∀ done m later,
        plan.moments tree perform calling width values = done ++ m :: later →
        (∃ outer, tree.around[done.length]? = some (m.story :: outer) ∧
          ∀ s ctx, m.Invokes s ctx → ∀ story ∈ m.story :: outer, ctx.Supplies story) ∧
        (m.Lacks → later = [] ∧ (∀ s ctx, ¬ m.Invokes s ctx) ∧
          ∃ missed shown, invocation.ending = .error (.contract
              (.missingVariables missed m.story.name m.story.arguments shown)) ∧
            missed.Perm (m.before.ctx.missing m.story)) ∧
        ∀ perform', (∀ s ctx, m.Invokes s ctx → perform' s.body ctx = perform s.body ctx) →
          m.Executes plan perform' calling := by
  obtain ⟨values, hAccepted, -, hEnding⟩ := h.invoke_eq_ok hInvoke
  refine ⟨values, hAccepted, fun done m later hPoint => ?_⟩
  obtain ⟨hMem, hExecutes, -⟩ := Run.moment_executes hPoint
  refine ⟨?_, ?_, fun perform' hSame => hExecutes.congr hSame⟩
  · obtain ⟨outer, hAround, hWithin⟩ := StoryTree.exists_around hPoint
    refine ⟨outer, hAround, fun s ctx hInvokes story hStory => ?_⟩
    have hHolds := h.holds_at hPoint
    rw [Run.Holds, hInvokes.1, List.drop_zero] at hHolds
    rw [hWithin, Instruction.within_of_mem_steps hInvokes.2.1] at hStory
    rw [Context.Supplies, hInvokes.names_eq]
    exact hHolds story hStory
  · rintro ⟨hRuns, ⟨label, number, hEnter⟩, hLacks⟩
    rcases h.enters hMem hExecutes hRuns hEnter with ⟨hSupplies, -⟩ | ⟨-, shown, hStop⟩
    · exact absurd hSupplies hLacks
    have hLast : later = [] := by
      by_contra hMore
      cases (Run.flow_eq_next hPoint hMore).symm.trans hStop
    refine ⟨hLast, ?_, _, shown, ?_, perm_sortNames _⟩
    · rintro s ctx ⟨-, hStep, -⟩
      rw [hEnter] at hStep
      cases hStep
    · rw [hEnding, hPoint, hLast, Run.endingOf, List.getLast?_concat, Option.map_some, hStop]

end

/-! ## An example

A parcel is packed and then stamped, for which it needs an address. The call takes the address, as
one of the two stories does, but does not ask for it. -/

namespace Post

open Shop (Body answer)

def stamp : Story where
  name := ⟨"Post", "stamp"⟩
  arguments := ["address"]
  collected := [.step "print"]
  spec := none
  failures := none

def send : Story where
  name := ⟨"Post", "send"⟩
  arguments := ["parcel"]
  collected := [.step "pack", .step "stamp"]
  spec := none
  failures := none

def step (name : String) : Step Body where
  name := name
  owner := "Post"
  mode := .function
  body := .ok (.success .empty)

def cast : Cast Body :=
  .ofList [("post", {
    className := "Post"
    members := .ofList [("pack", .step (step "pack")), ("print", .step (step "print")),
      ("stamp", .story (.ok stamp) "post")] })]

def tree : StoryTree Body :=
  ⟨send, "post", .step (step "pack")
    (.story "stamp" stamp "post" (.step (step "print") .done) .done)⟩

def plan : Plan Body := (Plan.compile cast send "post").toOption.get rfl

theorem mounts : Mounts cast tree plan where
  compiled := rfl
  unfolds := .step (.story (.step .done) .done)

def arguments : Bindings := .ofList [("parcel", .nat 1)]

/-- A parcel without an address is packed, but not stamped. -/
theorem unaddressed : ∃ invocation,
    plan.invoke answer .blocking 80 arguments = .ok invocation ∧
      ∃ missed shown, invocation.ending = .error (.contract
          (.missingVariables missed stamp.name ["address"] shown)) ∧
        missed.Perm ["address"] := by
  have hInvoke : ∃ invocation, plan.invoke answer .blocking 80 arguments = .ok invocation :=
    ⟨_, rfl⟩
  obtain ⟨invocation, hInvoke⟩ := hInvoke
  obtain ⟨values, hAccepted, hPoints⟩ := mounts.arguments_set hInvoke
  obtain rfl : arguments = values := Except.ok.inj hAccepted
  -- the third moment, after the beginning and the packing
  have hPoint : ∃ done m later,
      plan.moments tree answer .blocking 80 arguments = done ++ m :: later ∧ m.story = stamp ∧
        m.before.skipped = 0 ∧ m.instruction = .enter "stamp" 1 ∧
        m.before.ctx.names = ["parcel"] := ⟨[_, _], _, [], rfl, rfl, rfl, rfl, rfl⟩
  obtain ⟨done, m, later, hMoments, hStory, hRuns, hEnter, hNames⟩ := hPoint
  have hMissing : m.before.ctx.missing m.story = ["address"] := by
    simp [Context.missing, Context.contains, hNames, hStory, stamp]
  have hLacks : m.Lacks := by
    refine ⟨hRuns, ⟨"stamp", 1, hEnter⟩, ?_⟩
    rw [Context.supplies_iff, hMissing]
    simp
  obtain ⟨-, hStops, -⟩ := hPoints done m later hMoments
  obtain ⟨-, -, missed, shown, hEnding, hMissed⟩ := hStops hLacks
  rw [hStory] at hEnding
  rw [hMissing] at hMissed
  exact ⟨invocation, hInvoke, missed, shown, hEnding, hMissed⟩

end Post

end Storyline
