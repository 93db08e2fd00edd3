import Storyline.Proofs.Names
import Storyline.Proofs.Resolved
import Storyline.Proofs.Score

/-!
# The layout of a plan

The outline of a tree (`StoryTree.outline`) is what a reader of the definitions expects to happen:
the stories of the tree one inside the other, depth first, in the order in which names were
collected, and every step beside the story that declares it. There are no numbers in it.

`Plan.compile_laidOut`: a plan plays the outline of its tree cue by cue. Its stories are numbered
in the order in which they start, one contract for each, and they open and close like brackets, so
that every step stands in the innermost open story and is held against the contract and the
protocol of this story. What is open at an instruction is read off the instructions before it
(`Instruction.opened`), whatever their origin, and a stream in which all this is in order is
recognised instruction by instruction (`Instruction.InOrder`).
-/

set_option autoImplicit false

namespace Storyline

variable {β : Type}

/-! ## Outlines -/

/-- What happens next in a story. A step comes with the story that declares it. -/
inductive Cue (β : Type) where
  | enter (label : String) (story : Story)
  | step (s : Step β) (story : Story)
  | parallel (steps : List (Step β)) (story : Story)
  | leave

/-- The scenes of a story on an object, depth first. -/
def Scenes.outline (story : Story) (owner : OwnerId) : Scenes β → List (Cue β)
  | .done => []
  | .step s rest => .step s story :: rest.outline story owner
  | .parallel steps rest => .parallel steps story :: rest.outline story owner
  | .story name definition childOwner inner rest =>
    .enter (label owner name definition childOwner) definition ::
      (inner.outline definition childOwner ++ .leave :: rest.outline story owner)

/-- The outline of a tree, its outermost story under its own name. -/
def StoryTree.outline (tree : StoryTree β) : List (Cue β) :=
  .enter tree.definition.qualified tree.definition ::
    (tree.scenes.outline tree.definition tree.owner ++ [.leave])

namespace Instruction

/-- An instruction plays a cue among numbered stories: it carries the number of the story, and a
step carries a protocol made of the vocabulary of the story. -/
inductive Plays (isShut : Bool) (all : List Story) : Instruction β → Cue β → Prop where
  | enter {label : String} {number : Nat} {story : Story} :
      all[number]? = some story → Plays isShut all (.enter label number) (.enter label story)
  | step {s : Step β} {number : Nat} {story : Story} :
      all[number]? = some story →
      Plays isShut all (.step s number (.within isShut story.failures)) (.step s story)
  | parallel {steps : List (Step β)} {number : Nat} {story : Story} :
      all[number]? = some story →
      Plays isShut all (.parallel steps number (.within isShut story.failures))
        (.parallel steps story)
  | leave : Plays isShut all .leave .leave

/-- The cue that an instruction of a story plays. -/
def cue (story : Story) : Instruction β → Cue β
  | enter label _ => .enter label story
  | step s _ _ => .step s story
  | parallel steps _ _ => .parallel steps story
  | leave => .leave

theorem BelongsTo.plays {i : Instruction β} {isShut : Bool} {all : List Story} {story : Story}
    (h : i.BelongsTo isShut all story) : i.Plays isShut all (i.cue story) := by
  cases i with
  | enter label number => exact .enter (h.numbered number rfl)
  | step s number protocol =>
      obtain rfl := h.held protocol rfl
      exact .step (h.numbered number rfl)
  | parallel steps number protocol =>
      obtain rfl := h.held protocol rfl
      exact .parallel (h.numbered number rfl)
  | leave => exact .leave

end Instruction

theorem Scenes.map_cue_score (isShut : Bool) (p : Place) (next : Nat) (scenes : Scenes β) :
    (scenes.score isShut p next).map (fun entry => entry.2.cue entry.1) =
      scenes.outline p.story p.owner := by
  induction scenes generalizing p next with
  | done => rfl
  | step s rest ih =>
      rw [score, List.map_cons, ih]
      rfl
  | parallel steps rest ih =>
      rw [score, List.map_cons, ih]
      rfl
  | story name definition owner inner rest ihInner ih =>
      rw [score, List.map_cons, List.map_append, List.map_cons, ihInner, ih]
      rfl

theorem StoryTree.map_cue_score (tree : StoryTree β) (isShut : Bool) :
    (tree.score isShut).map (fun entry => entry.2.cue entry.1) = tree.outline := by
  rw [score, List.map_cons, List.map_append, Scenes.map_cue_score]
  rfl

/-- The instructions of a tree play its outline. -/
theorem StoryTree.plays_outline (tree : StoryTree β) (isShut : Bool) :
    List.Forall₂ (Instruction.Plays isShut tree.stories) (tree.instructions isShut)
      tree.outline := by
  rw [← tree.map_cue_score isShut, instructions, List.forall₂_map_left_iff,
    List.forall₂_map_right_iff, List.forall₂_same]
  rintro ⟨story, i⟩ hMem
  exact (belongsTo_of_mem_score hMem).plays

/-! ## Numbers -/

namespace Instruction

/-- The number of the story that an instruction enters. -/
def entered? : Instruction β → Option Nat
  | enter _ number => some number
  | _ => none

/-- Whether an instruction closes a story. -/
def isLeave : Instruction β → Bool
  | leave => true
  | _ => false

end Instruction

/-- The stories among some scenes are numbered one after the other. -/
theorem Scenes.entered_instructions (isShut : Bool) (p : Place) (next : Nat)
    (scenes : Scenes β) :
    (scenes.instructions isShut p next).filterMap Instruction.entered? =
      List.range' next scenes.stories.length := by
  induction scenes generalizing p next with
  | done => rfl
  | step s rest ih => exact ih p next
  | parallel steps rest ih => exact ih p next
  | story name definition owner inner rest ihInner ih =>
      have hInner := ihInner ⟨definition, owner, next⟩ (next + 1)
      have hRest := ih p (next + 1 + inner.stories.length)
      simp only [instructions_story, stories, List.filterMap_cons, List.filterMap_append,
        Instruction.entered?, hInner, hRest, List.length_cons, List.length_append,
        List.range'_succ]
      rw [List.range'_append_1]

theorem StoryTree.entered_instructions (tree : StoryTree β) (isShut : Bool) :
    (tree.instructions isShut).filterMap Instruction.entered? =
      List.range tree.stories.length := by
  rw [instructions_eq, List.range_eq_range', stories, List.length_cons, List.range'_succ]
  simp [Instruction.entered?, Scenes.entered_instructions]

/-! ## Brackets -/

namespace Instruction

/-- The stories open after an instruction, by their numbers, the innermost first. -/
def openAfter (opened : List Nat) : Instruction β → List Nat
  | enter _ number => number :: opened
  | leave => opened.tail
  | _ => opened

/-- The stories open after some instructions. -/
def opened (instructions : List (Instruction β)) : List Nat := instructions.foldl openAfter []

/-- Instructions are in order where some stories are open: each story that is entered is left, none
is left that is not open, and steps carry the number of the innermost open story. -/
def InOrder : List Nat → List (Instruction β) → Prop
  | stack, [] => stack = []
  | stack, .enter _ number :: rest => InOrder (number :: stack) rest
  | stack, .step _ number _ :: rest => stack.head? = some number ∧ InOrder stack rest
  | stack, .parallel _ number _ :: rest => stack.head? = some number ∧ InOrder stack rest
  | [], .leave :: _ => False
  | _ :: stack, .leave :: rest => InOrder stack rest

/-- After some instructions the others are still in order, and as many stories are open as were
entered and not left. -/
theorem InOrder.split {before after : List (Instruction β)} {stack : List Nat}
    (h : InOrder stack (before ++ after)) :
    InOrder (before.foldl openAfter stack) after ∧
      (before.foldl openAfter stack).length + before.countP isLeave =
        stack.length + (before.filterMap entered?).length := by
  induction before generalizing stack with
  | nil => exact ⟨h, rfl⟩
  | cons i rest ih =>
      cases i with
      | enter label number =>
          have hRest : InOrder (number :: stack) (rest ++ after) := h
          obtain ⟨hAfter, hCount⟩ := ih hRest
          refine ⟨hAfter, ?_⟩
          simp [openAfter, isLeave, entered?] at hCount ⊢
          omega
      | step s number protocol =>
          obtain ⟨hAfter, hCount⟩ := ih h.2
          exact ⟨hAfter, by simpa [openAfter, isLeave, entered?, List.filterMap_cons] using hCount⟩
      | parallel steps number protocol =>
          obtain ⟨hAfter, hCount⟩ := ih h.2
          exact ⟨hAfter, by simpa [openAfter, isLeave, entered?, List.filterMap_cons] using hCount⟩
      | leave =>
          cases stack with
          | nil => cases h
          | cons number stack =>
              have hRest : InOrder stack (rest ++ after) := h
              obtain ⟨hAfter, hCount⟩ := ih hRest
              refine ⟨hAfter, ?_⟩
              have hLeave : (leave :: rest).countP isLeave = rest.countP isLeave + 1 :=
                List.countP_cons_of_pos rfl
              simp [openAfter, entered?, List.filterMap_cons] at hCount ⊢
              omega

/-- Where instructions are in order a step has the number of the innermost open story. -/
theorem InOrder.number_eq {stack : List Nat} {i : Instruction β} {rest : List (Instruction β)}
    (h : InOrder stack (i :: rest)) (hHeld : i.protocol?.isSome = true) :
    i.number? = stack.head? := by
  cases i with
  | enter label number => cases hHeld
  | step s number protocol => exact h.1.symm
  | parallel steps number protocol => exact h.1.symm
  | leave => cases hHeld

end Instruction

/-- Some scenes, at their place, are in order if what comes after them is. -/
theorem Scenes.inOrder (isShut : Bool) (p : Place) (next : Nat) (scenes : Scenes β)
    {stack : List Nat} {rest : List (Instruction β)}
    (h : Instruction.InOrder (p.number :: stack) rest) :
    Instruction.InOrder (p.number :: stack) (scenes.instructions isShut p next ++ rest) := by
  induction scenes generalizing p next stack rest with
  | done => exact h
  | step s others ih => exact ⟨rfl, ih p next h⟩
  | parallel steps others ih => exact ⟨rfl, ih p next h⟩
  | story name definition owner inner others ihInner ih =>
      -- the substory is entered, and left before the others begin
      have hOthers := ih p (next + 1 + inner.stories.length) h
      rw [instructions_story, List.cons_append, List.append_assoc, List.cons_append]
      exact ihInner ⟨definition, owner, next⟩ (next + 1) hOthers

/-- After some scenes the same stories are open as before. -/
theorem Scenes.foldl_openAfter (isShut : Bool) (p : Place) (next : Nat) (scenes : Scenes β)
    (stack : List Nat) :
    (scenes.instructions isShut p next).foldl Instruction.openAfter stack = stack := by
  induction scenes generalizing p next stack with
  | done => rfl
  | step s rest ih => exact ih p next stack
  | parallel steps rest ih => exact ih p next stack
  | story name definition owner inner rest ihInner ih =>
      rw [instructions_story, List.foldl_cons, List.foldl_append, ihInner, List.foldl_cons, ih]
      rfl

theorem StoryTree.inOrder (tree : StoryTree β) (isShut : Bool) :
    Instruction.InOrder [] (tree.instructions isShut) := by
  rw [instructions_eq]
  have hLeave : Instruction.InOrder [0] [(.leave : Instruction β)] := rfl
  exact tree.scenes.inOrder isShut ⟨tree.definition, tree.owner, 0⟩ 1 hLeave

/-! ## Plans -/

/-- A plan is laid out like a tree. -/
structure Plan.IsLaidOut (plan : Plan β) (tree : StoryTree β) : Prop where
  /-- The instructions play the outline of the tree. -/
  plays : List.Forall₂ (Instruction.Plays plan.failures.isSome tree.stories) plan.instructions
    tree.outline
  /-- The first instruction enters the outermost story. -/
  first : plan.instructions.head? = some (.enter tree.definition.qualified 0)
  /-- The last one leaves it: before, it is the only open story. -/
  last : ∃ before, plan.instructions = before ++ [.leave] ∧ Instruction.opened before = [0]
  /-- No beginning of the instructions leaves more stories than it enters. -/
  nested : ∀ before after, plan.instructions = before ++ after →
    before.countP Instruction.isLeave ≤ (before.filterMap Instruction.entered?).length
  /-- All that is entered is left. -/
  closed : Instruction.opened plan.instructions = []
  /-- Stories are numbered in the order in which they start, one for each contract. -/
  numbered : plan.instructions.filterMap Instruction.entered? = List.range plan.contracts.length
  /-- Each contract is that of the story with its number. -/
  contracts : List.Forall₂ Contract.IsOf plan.contracts tree.stories
  /-- A step or a group carries the number of the innermost open story. -/
  innermost : ∀ before i after, plan.instructions = before ++ i :: after →
    i.protocol?.isSome = true → i.number? = (Instruction.opened before).head?

theorem Mounts.isLaidOut {cast : Cast β} {tree : StoryTree β} {plan : Plan β}
    (h : Mounts cast tree plan) : plan.IsLaidOut tree where
  plays := by
    rw [h.instructions_eq]
    exact tree.plays_outline _
  first := by
    rw [h.instructions_eq, StoryTree.instructions_eq]
    rfl
  last := by
    rw [h.instructions_eq, StoryTree.instructions_eq]
    refine ⟨_, (List.cons_append).symm, ?_⟩
    rw [Instruction.opened, List.foldl_cons, Scenes.foldl_openAfter]
    rfl
  nested before after hSplit := by
    have hOrder := tree.inOrder plan.failures.isSome
    rw [← h.instructions_eq, hSplit] at hOrder
    have hCount := hOrder.split.2
    simp only [List.length_nil] at hCount
    omega
  closed := by
    rw [h.instructions_eq, StoryTree.instructions_eq, Instruction.opened, List.foldl_cons,
      List.foldl_append, Scenes.foldl_openAfter]
    rfl
  numbered := by
    rw [h.instructions_eq, StoryTree.entered_instructions, h.contracts_of.length_eq]
  contracts := h.contracts_of
  innermost before i after hSplit hHeld := by
    have hOrder := tree.inOrder plan.failures.isSome
    rw [← h.instructions_eq, hSplit] at hOrder
    exact hOrder.split.1.number_eq hHeld

/-- **The layout of whatever compiles**: what the collected names stand for, story by story, is a
tree, and the plan is laid out like it. -/
theorem Plan.compile_laidOut {cast : Cast β}
    (hInjected : ∀ injected, cast.Injects injected → injected.IsMade) {story : Story}
    {owner : OwnerId} {plan : Plan β} (h : Plan.compile cast story owner = .ok plan) :
    ∃ scenes, Resolves cast owner story.collected scenes ∧
      plan.IsLaidOut ⟨story, owner, scenes⟩ := by
  have hKnown : cast.InjectsTrees := fun injected hIn => (hInjected injected hIn).exists_mounts
  obtain ⟨scenes, hMounts⟩ := exists_mounts hKnown h
  exact ⟨scenes, hMounts.resolves, hMounts.isLaidOut⟩

/-- A plan that is injected into a single object is among its members. -/
theorem Cast.exists_mem_of_injects {id className : String} {members : List (String × Member β)}
    (hDistinct : (members.map Prod.fst).Nodup) {plan : Plan β}
    (h : Cast.Injects (.ofList [(id, ⟨className, .ofList members⟩)]) plan) :
    ∃ name, (name, Member.mounted plan) ∈ members := by
  obtain ⟨owner, name, hMember⟩ := h
  obtain ⟨object, hObject, hFound⟩ := Option.bind_eq_some_iff.mp hMember
  -- the only object there is
  have hEntry := mem_of_lookup_eq_some hObject
  rw [Named.entries_ofList (by simp), List.mem_singleton] at hEntry
  obtain ⟨-, rfl⟩ := Prod.mk.inj hEntry
  have hIn := mem_of_lookup_eq_some hFound
  rw [Named.entries_ofList hDistinct] at hIn
  exact ⟨name, hIn⟩

theorem exists_eq_ok_of_isOk {ε α : Type} {x : Except ε α} (h : x.isOk = true) :
    ∃ a, x = .ok a := by
  cases x with
  | error e => cases h
  | ok a => exact ⟨a, rfl⟩

/-! ## An example

At a fair there is a tour within the opening, and the sale of the shop, which was mounted before. -/

namespace Fair

open Shop (Body order)

def tour : Story where
  name := ⟨"Fair", "tour"⟩
  arguments := []
  collected := [.step "walk"]
  spec := some order
  failures := none

def opening : Story where
  name := ⟨"Fair", "opening"⟩
  arguments := ["price"]
  collected := [.step "greet", .step "tour", .step "open"]
  spec := some order
  failures := some (.tokens ["rain"])

def day : Story where
  name := ⟨"Fair", "day"⟩
  arguments := ["price"]
  collected := [.step "opening", .step "sale", .parallel ["red", "blue"]]
  spec := some order
  failures := none

/-- A step that only succeeds. -/
def step (name : String) : String × Member Body :=
  (name, .step { name, owner := "", mode := .function, body := .ok (.success .empty) })

def members : List (String × Member Body) :=
  [step "walk", step "greet", step "open", step "red", step "blue",
    ("tour", .story (.ok tour) "fair"), ("opening", .story (.ok opening) "fair"),
    ("sale", .mounted Shop.plan)]

def cast : Cast Body := .ofList [("fair", { className := "Fair", members := .ofList members })]

theorem isOk_compile : (Plan.compile cast day "fair").isOk = true := by decide +kernel

theorem isMade_of_injects {injected : Plan Body} (h : cast.Injects injected) :
    injected.IsMade := by
  obtain ⟨name, hName⟩ := Cast.exists_mem_of_injects (by decide) h
  obtain ⟨-, rfl⟩ : name = "sale" ∧ injected = Shop.plan := by
    simpa [members, step] using hName
  -- nothing is injected into the shop
  refine .compile (fun other hOther => ?_) Shop.mounts.compiled
  obtain ⟨name, hName⟩ := Cast.exists_mem_of_injects (by decide) hOther
  simp at hName

/-- The fair has five stories and is laid out like what its names stand for. -/
theorem laid_out : ∃ plan scenes, Plan.compile cast day "fair" = .ok plan ∧
    Resolves cast "fair" day.collected scenes ∧
    plan.IsLaidOut ⟨day, "fair", scenes⟩ := by
  obtain ⟨plan, hPlan⟩ := exists_eq_ok_of_isOk isOk_compile
  obtain ⟨scenes, hResolves, hLaidOut⟩ :=
    Plan.compile_laidOut (fun _ hIn => isMade_of_injects hIn) hPlan
  exact ⟨plan, scenes, hPlan, hResolves, hLaidOut⟩

end Fair

end Storyline
