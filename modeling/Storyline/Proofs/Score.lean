import Storyline.Proofs.Composition

/-!
# The score of a tree

The score of a tree is the list of instructions that its scenes stand for, each beside the story
it belongs to. Stories are numbered in the order in which they start, and a story's instructions
carry its number and its protocol, wherever the story stands in the tree.

`Mounts.instructions_eq`: the instructions of a plan are the score of its tree, so that every
instruction belongs to a story (`StoryTree.belongsTo_of_mem_score`). Since a substory is assembled
alone, with numbers from zero, the proof goes through what moving a score to other numbers
(`Scenes.instructions_shift`) and disabling its null protocols (`Scenes.instructions_disableNull`)
come to.
-/

set_option autoImplicit false

namespace Storyline

variable {β : Type}

/-- What failing steps of a story are held against in a composition, which may have a
vocabulary although the story has none. -/
def StepProtocol.within (isShut : Bool) : Option Failures → StepProtocol
  | some failures => .declared failures
  | none => if isShut then .disabledNull else .null

theorem StepProtocol.within_false (failures : Option Failures) :
    within false failures = ofFailures failures := by
  cases failures <;> rfl

theorem StepProtocol.disableNull_within (isShut : Bool) (failures : Option Failures) :
    (within isShut failures).disableNull = within true failures := by
  cases failures <;> cases isShut <;> rfl

/-- Where a scene stands: in a story, which lies on an object and has a number. -/
structure Place where
  story : Story
  owner : OwnerId
  number : Nat

namespace Scenes

/-- The label of a substory: its name, and the story it is if it lies on another object. -/
def label (owner : OwnerId) (name : String) (definition : Story) (childOwner : OwnerId) :
    String :=
  if childOwner = owner then name else name ++ " (" ++ definition.qualified ++ ")"

/-- The instructions of scenes at a place, each beside its story; `next` is the number of the
next substory. `isShut` tells whether the composition has a vocabulary. -/
def score (isShut : Bool) (p : Place) (next : Nat) : Scenes β → List (Story × Instruction β)
  | .done => []
  | .step s rest =>
    (p.story, .step s p.number (.within isShut p.story.failures)) :: score isShut p next rest
  | .parallel steps rest =>
    (p.story, .parallel steps p.number (.within isShut p.story.failures)) ::
      score isShut p next rest
  | .story name definition owner inner rest =>
    (definition, .enter (label p.owner name definition owner) next) ::
      (score isShut ⟨definition, owner, next⟩ (next + 1) inner ++
        (definition, .leave) :: score isShut p (next + 1 + inner.stories.length) rest)

/-- The instructions of scenes at a place. -/
def instructions (isShut : Bool) (p : Place) (next : Nat) (scenes : Scenes β) :
    List (Instruction β) :=
  (scenes.score isShut p next).map Prod.snd

section

variable (isShut : Bool) (p : Place) (next : Nat)

@[simp] theorem instructions_done : (done : Scenes β).instructions isShut p next = [] := rfl

@[simp] theorem instructions_step (s : Step β) (rest : Scenes β) :
    (step s rest).instructions isShut p next =
      .step s p.number (.within isShut p.story.failures) :: rest.instructions isShut p next :=
  rfl

@[simp] theorem instructions_parallel (steps : List (Step β)) (rest : Scenes β) :
    (parallel steps rest).instructions isShut p next =
      .parallel steps p.number (.within isShut p.story.failures) ::
        rest.instructions isShut p next :=
  rfl

@[simp] theorem instructions_story (name : String) (definition : Story) (owner : OwnerId)
    (inner rest : Scenes β) :
    (story name definition owner inner rest).instructions isShut p next =
      .enter (label p.owner name definition owner) next ::
        (inner.instructions isShut ⟨definition, owner, next⟩ (next + 1) ++
          .leave :: rest.instructions isShut p (next + 1 + inner.stories.length)) := by
  simp [instructions, score]

end

/-! ## Numbers -/

/-- The stories among some scenes stand, in order, in the list of all stories from a number on. -/
def NumberedIn (all : List Story) (next : Nat) (scenes : Scenes β) : Prop :=
  scenes.stories <+: all.drop next

theorem NumberedIn.of_story {all : List Story} {next : Nat} {name : String} {definition : Story}
    {owner : OwnerId} {inner rest : Scenes β}
    (h : (story name definition owner inner rest).NumberedIn all next) :
    all[next]? = some definition ∧ inner.NumberedIn all (next + 1) ∧
      rest.NumberedIn all (next + 1 + inner.stories.length) := by
  obtain ⟨others, hAll⟩ := h
  rw [stories, List.cons_append, List.append_assoc] at hAll
  -- what follows the story in the list of all stories
  have hTail : all.drop (next + 1) = inner.stories ++ (rest.stories ++ others) := by
    rw [← List.drop_drop, ← hAll, List.drop_one, List.tail_cons]
  refine ⟨?_, ⟨_, hTail.symm⟩, ⟨others, ?_⟩⟩
  · rw [← List.head?_drop, ← hAll, List.head?_cons]
  · rw [← List.drop_drop, hTail, List.drop_left]

/-! ## Moving a score -/

theorem instructions_shift (isShut : Bool) (p : Place) (next offset : Nat) (scenes : Scenes β) :
    (scenes.instructions isShut p next).map (Instruction.shift offset) =
      scenes.instructions isShut { p with number := p.number + offset } (next + offset) := by
  induction scenes generalizing p next with
  | done => rfl
  | step s rest ih =>
      rw [instructions_step, List.map_cons, ih]
      rfl
  | parallel steps rest ih =>
      rw [instructions_parallel, List.map_cons, ih]
      rfl
  | story name definition owner inner rest ihInner ih =>
      rw [instructions_story, instructions_story, List.map_cons, List.map_append, List.map_cons,
        ihInner, ih]
      -- the numbers of later stories count from the new number on
      have hInner : next + 1 + offset = next + offset + 1 := by omega
      have hRest : next + 1 + inner.stories.length + offset =
          next + offset + 1 + inner.stories.length := by omega
      rw [hInner, hRest]
      rfl

theorem instructions_disableNull (isShut : Bool) (p : Place) (next : Nat) (scenes : Scenes β) :
    (scenes.instructions isShut p next).map Instruction.disableNull =
      scenes.instructions true p next := by
  induction scenes generalizing p next with
  | done => rfl
  | step s rest ih =>
      rw [instructions_step, List.map_cons, ih, Instruction.disableNull,
        StepProtocol.disableNull_within]
      rfl
  | parallel steps rest ih =>
      rw [instructions_parallel, List.map_cons, ih, Instruction.disableNull,
        StepProtocol.disableNull_within]
      rfl
  | story name definition owner inner rest ihInner ih =>
      rw [instructions_story, List.map_cons, List.map_append, List.map_cons, ihInner, ih,
        instructions_story]
      rfl

end Scenes

namespace StoryTree

/-- The instructions of a tree, each beside its story. -/
def score (tree : StoryTree β) (isShut : Bool) : List (Story × Instruction β) :=
  (tree.definition, .enter tree.definition.qualified 0) ::
    (tree.scenes.score isShut ⟨tree.definition, tree.owner, 0⟩ 1 ++ [(tree.definition, .leave)])

/-- The instructions of a tree. -/
def instructions (tree : StoryTree β) (isShut : Bool) : List (Instruction β) :=
  (tree.score isShut).map Prod.snd

theorem instructions_eq (tree : StoryTree β) (isShut : Bool) :
    tree.instructions isShut =
      .enter tree.definition.qualified 0 ::
        (tree.scenes.instructions isShut ⟨tree.definition, tree.owner, 0⟩ 1 ++ [.leave]) := by
  simp [instructions, score, Scenes.instructions]

/-- A tree in place of a substory: under its label, with its numbers moved. -/
theorem placed_instructions (tree : StoryTree β) (isShut : Bool) (label : String)
    (offset : Nat) :
    Draft.placed label offset (tree.instructions isShut) =
      .enter label offset ::
        (tree.scenes.instructions isShut ⟨tree.definition, tree.owner, offset⟩ (offset + 1) ++
          [.leave]) := by
  rw [instructions_eq, Draft.placed, List.map_append, Scenes.instructions_shift, Nat.zero_add,
    Nat.add_comm 1 offset]
  rfl

end StoryTree

/-! ## Drafts and their scores -/

namespace Draft

/-- The place of a draft's own entries while it is put together: its story has number zero. -/
def place (d : Draft β) : Place := ⟨d.story, d.owner, 0⟩

/-- The number of the next substory. -/
def next (d : Draft β) : Nat := 1 + d.inner.length

section

variable (d : Draft β) (name : String) (child : Plan β) (root childRoot : Contract)
  (failures : Option Failures)

theorem place_withPlan : (d.withPlan name child root childRoot failures).place = d.place := rfl

theorem instructions_withPlan :
    (d.withPlan name child root childRoot failures).instructions =
      d.instructions ++ placed (d.label name child) d.next child.instructions := rfl

theorem next_withPlan :
    (d.withPlan name child root childRoot failures).next = d.next + 1 + child.inner.length := by
  simp only [next, withPlan, List.length_append, List.length_cons]
  omega

end

/-- A draft comes from another by the instructions of some scenes. While there is no vocabulary
nothing is disabled. Parts with a vocabulary have been disabled already, which makes no
difference once everything is. -/
structure Adds (d : Draft β) (scenes : Scenes β) (d' : Draft β) : Prop where
  shut : d'.instructions.map Instruction.disableNull =
    d.instructions.map Instruction.disableNull ++ scenes.instructions true d.place d.next
  plain : d'.failures = none →
    d'.instructions = d.instructions ++ scenes.instructions false d.place d.next

/-- A finished draft has the instructions of its tree. -/
theorem Adds.instructions_finish {d₀ d : Draft β} (tree : StoryTree β)
    (hStart : start tree.definition tree.owner = .ok d₀) (h : Adds d₀ tree.scenes d) :
    d.finish.instructions = tree.instructions d.failures.isSome := by
  obtain ⟨root, -, rfl⟩ := start_eq_ok hStart
  have hFinish : d.finish.instructions =
      if d.failures.isSome then (d.instructions ++ [Instruction.leave]).map Instruction.disableNull
      else d.instructions ++ [Instruction.leave] := rfl
  rw [hFinish]
  cases hFailures : d.failures with
  | none =>
      -- nothing has been disabled
      rw [if_neg (by simp), h.plain hFailures]
      simp [StoryTree.instructions_eq, place, next]
  | some failures =>
      rw [if_pos Option.isSome_some, List.map_append, h.shut]
      simp [StoryTree.instructions_eq, place, next, Instruction.disableNull]

/-- The vocabulary of a draft is none only if it was none before some scenes were gathered. -/
theorem Gathers.failures_eq_none {scenes : Scenes β} {d d' : Draft β} (h : d.Gathers scenes d')
    (hNone : d'.failures = none) : d.failures = none := by
  have hSome := h.failures.2
  rw [hNone] at hSome
  cases hBefore : d.failures with
  | none => rfl
  | some failures => simp [hBefore] at hSome

/-- A step or a group with the protocol of the draft's own story is an instruction of the scenes
in a composition without vocabulary, and so it is when null protocols are disabled. -/
theorem disableNull_protocol (d : Draft β) :
    d.protocol = .within false d.place.story.failures ∧
      d.protocol.disableNull = .within true d.place.story.failures := by
  have hPlain : d.protocol = .within false d.story.failures :=
    (StepProtocol.within_false d.story.failures).symm
  exact ⟨hPlain, hPlain ▸ StepProtocol.disableNull_within false d.story.failures⟩

/-- The label under which a substory is placed is that of its scene. -/
theorem Gathers.label_eq {definition : Story} {owner : OwnerId} {inner : Scenes β}
    {d c₀ c : Draft β} (hStart : start definition owner = .ok c₀) (h : c₀.Gathers inner c)
    (name : String) : d.label name c.finish = Scenes.label d.owner name definition owner := by
  obtain ⟨alone, -, rfl⟩ := start_eq_ok hStart
  obtain ⟨hStory, hOwner⟩ := h.place_eq
  show (if c.owner = d.owner then name
    else name ++ " (" ++ c.story.qualified ++ ")") = _
  rw [hOwner, hStory]
  rfl

/-- A substory that was assembled alone, put in its place: the score of its own tree, moved. -/
theorem Adds.placed {definition : Story} {owner : OwnerId} {inner : Scenes β} {c₀ c : Draft β}
    (h : Adds c₀ inner c) (hStart : start definition owner = .ok c₀)
    (hGathers : c₀.Gathers inner c) (d : Draft β) (name : String) :
    Draft.placed (d.label name c.finish) d.next c.finish.instructions =
      .enter (Scenes.label d.owner name definition owner) d.next ::
        (inner.instructions c.failures.isSome ⟨definition, owner, d.next⟩ (d.next + 1) ++
          [.leave]) := by
  have hAlone : c.finish.instructions =
      StoryTree.instructions ⟨definition, owner, inner⟩ c.failures.isSome :=
    h.instructions_finish ⟨definition, owner, inner⟩ hStart
  rw [hAlone, StoryTree.placed_instructions, hGathers.label_eq hStart]

theorem Gathers.instructions {scenes : Scenes β} {d d' : Draft β} (h : d.Gathers scenes d') :
    Adds d scenes d' := by
  induction h with
  | done => exact ⟨by simp, fun _ => by simp⟩
  | @step d d' s rest mode _ ih =>
      obtain ⟨hPlain, hShut⟩ := d.disableNull_protocol
      refine ⟨?_, fun hNone => ?_⟩
      · rw [ih.shut, withInstruction, List.map_append, List.append_assoc,
          Scenes.instructions_step, ← hShut]
        rfl
      · rw [ih.plain hNone, withInstruction, List.append_assoc, Scenes.instructions_step, ← hPlain]
        rfl
  | @parallel d d' steps rest mode _ ih =>
      obtain ⟨hPlain, hShut⟩ := d.disableNull_protocol
      refine ⟨?_, fun hNone => ?_⟩
      · rw [ih.shut, withInstruction, List.map_append, List.append_assoc,
          Scenes.instructions_parallel, ← hShut]
        rfl
      · rw [ih.plain hNone, withInstruction, List.append_assoc, Scenes.instructions_parallel,
          ← hPlain]
        rfl
  | @story d d' c₀ c name definition owner inner rest root childRoot failures hStart hGathers _
      hCombine hRest ihInner ih =>
      have hPlaced := ihInner.placed hStart hGathers d name
      have hLength : c.finish.inner.length = inner.stories.length :=
        Nat.succ.inj (hGathers.contracts.finish hStart).length_eq
      refine ⟨?_, fun hNone => ?_⟩
      · -- whether the substory has a vocabulary makes no difference
        rw [ih.shut, place_withPlan, next_withPlan, hLength, instructions_withPlan, hPlaced,
          Scenes.instructions_story]
        simp [Scenes.instructions_disableNull, Instruction.disableNull, place]
      · -- without a vocabulary at the end there is none in the substory
        have hFailures : failures = none := hRest.failures_eq_none hNone
        have hInnerNone : c.failures.isSome = false := by
          by_contra hInner
          rw [Bool.not_eq_false] at hInner
          have hSome := (Failures.isSome_combine hCombine).mpr (.inr hInner)
          simp [hFailures] at hSome
        rw [ih.plain hNone, place_withPlan, next_withPlan, hLength, instructions_withPlan, hPlaced,
          Scenes.instructions_story, hInnerNone]
        simp [place]

end Draft

/-! ## Instructions and their stories -/

namespace Instruction

/-- The steps that an instruction runs. -/
def steps : Instruction β → List (Step β)
  | step s _ _ => [s]
  | parallel steps _ _ => steps
  | _ => []

/-- The number of the story whose contract an instruction is held against. -/
def number? : Instruction β → Option Nat
  | enter _ number => some number
  | step _ number _ => some number
  | parallel _ number _ => some number
  | leave => none

/-- What failing steps of an instruction are held against. -/
def protocol? : Instruction β → Option StepProtocol
  | step _ _ protocol => some protocol
  | parallel _ _ protocol => some protocol
  | _ => none

/-- An instruction belongs to a story: it carries the number of the story among all stories, and
its protocol. -/
structure BelongsTo (i : Instruction β) (isShut : Bool) (all : List Story) (story : Story) :
    Prop where
  mem : story ∈ all
  numbered : ∀ number, i.number? = some number → all[number]? = some story
  held : ∀ protocol, i.protocol? = some protocol → protocol = .within isShut story.failures

/-- An instruction with the number and the protocol of a story, if any, belongs to it. -/
theorem BelongsTo.intro {i : Instruction β} {isShut : Bool} {all : List Story} {story : Story}
    {number : Nat} (hStory : all[number]? = some story)
    (hNumber : ∀ other, i.number? = some other → other = number)
    (hProtocol : ∀ protocol, i.protocol? = some protocol →
      protocol = .within isShut story.failures) : i.BelongsTo isShut all story where
  mem := List.mem_of_getElem? hStory
  numbered other h := hNumber other h ▸ hStory
  held := hProtocol

end Instruction

/-- Every instruction of some scenes belongs to the story it stands beside. -/
theorem Scenes.belongsTo_of_mem_score {isShut : Bool} {all : List Story} {scenes : Scenes β}
    {p : Place} {next : Nat} (hScenes : scenes.NumberedIn all next)
    (hPlace : all[p.number]? = some p.story) {story : Story} {i : Instruction β}
    (h : (story, i) ∈ scenes.score isShut p next) : i.BelongsTo isShut all story := by
  induction scenes generalizing p next with
  | done => cases h
  | step s rest ih =>
      rcases List.mem_cons.mp h with hHead | hRest
      · cases hHead
        exact .intro hPlace (by simp [Instruction.number?]) (by simp [Instruction.protocol?])
      · exact ih hScenes hPlace hRest
  | parallel steps rest ih =>
      rcases List.mem_cons.mp h with hHead | hRest
      · cases hHead
        exact .intro hPlace (by simp [Instruction.number?]) (by simp [Instruction.protocol?])
      · exact ih hScenes hPlace hRest
  | story name definition owner inner rest ihInner ih =>
      obtain ⟨hStory, hInner, hRest⟩ := hScenes.of_story
      -- the start of the story, what is in it, its end, or what comes after it
      rcases List.mem_cons.mp h with hHead | hTail
      · cases hHead
        exact .intro hStory (by simp [Instruction.number?]) (by simp [Instruction.protocol?])
      rcases List.mem_append.mp hTail with hMem | hTail
      · exact ihInner hInner hStory hMem
      rcases List.mem_cons.mp hTail with hLeave | hMem
      · cases hLeave
        exact .intro hStory (by simp [Instruction.number?]) (by simp [Instruction.protocol?])
      · exact ih hRest hPlace hMem

/-- Every instruction of a tree belongs to the story it stands beside. -/
theorem StoryTree.belongsTo_of_mem_score {tree : StoryTree β} {isShut : Bool} {story : Story}
    {i : Instruction β} (h : (story, i) ∈ tree.score isShut) :
    i.BelongsTo isShut tree.stories story := by
  have hRoot : tree.stories[0]? = some tree.definition := rfl
  have hScenes : tree.scenes.NumberedIn tree.stories 1 := List.prefix_rfl
  rcases List.mem_cons.mp h with hHead | hTail
  · cases hHead
    exact .intro hRoot (by simp [Instruction.number?]) (by simp [Instruction.protocol?])
  rcases List.mem_append.mp hTail with hMem | hLeave
  · exact tree.scenes.belongsTo_of_mem_score hScenes hRoot hMem
  · cases List.mem_singleton.mp hLeave
    exact .intro hRoot (by simp [Instruction.number?]) (by simp [Instruction.protocol?])

/-- **The instructions of a plan are the score of its tree.** -/
theorem Mounts.instructions_eq {cast : Cast β} {tree : StoryTree β} {plan : Plan β}
    (h : Mounts cast tree plan) : plan.instructions = tree.instructions plan.failures.isSome := by
  obtain ⟨d₀, d, hStart, hGathers, rfl⟩ := h.gathered
  exact hGathers.instructions.instructions_finish tree hStart

end Storyline
