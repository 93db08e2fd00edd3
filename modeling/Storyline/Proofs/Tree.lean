import Storyline.Plan.Assemble
import Storyline.Run.Event

/-!
# Trees of stories

The entries of a story on an object (`Cast.resolve`) hold plans that were mounted before as they
are, flat. In the tree of a story (`StoryTree`) such a plan is a story like any other, with its
own scenes. Adding the scenes of a tree to a draft (`Draft.addScenes`) comes to the same as
adding the entries they unfold (`Unfolds.addAll_eq`), so that whatever holds of plans can be
proved by induction on scenes.

`Mounts` relates a tree to its plan. Every story that mounts on objects whose injected plans
have a tree has a tree as well (`exists_mounts`).
-/

set_option autoImplicit false

namespace Storyline

/-- What a story consists of, in order. A substory is its definition, the object it lies on and
what it consists of, whether it was found as a story or as a plan. -/
inductive Scenes (β : Type) where
  | done
  | step (s : Step β) (rest : Scenes β)
  | parallel (steps : List (Step β)) (rest : Scenes β)
  | story (name : String) (definition : Story) (owner : OwnerId) (inner rest : Scenes β)

/-- A story on an object, with all that is found in it. -/
structure StoryTree (β : Type) where
  definition : Story
  owner : OwnerId
  scenes : Scenes β

section

variable {β : Type}

/-- Scenes that unfold entries: an injected plan unfolds to the scenes of the story it was
compiled from, among whatever objects that was. -/
inductive Unfolds : List (Entry β) → Scenes β → Prop where
  | done : Unfolds [] .done
  | step {s : Step β} {entries : List (Entry β)} {rest : Scenes β} :
      Unfolds entries rest → Unfolds (.step s :: entries) (.step s rest)
  | parallel {steps : List (Step β)} {entries : List (Entry β)} {rest : Scenes β} :
      Unfolds entries rest → Unfolds (.parallel steps none :: entries) (.parallel steps rest)
  | story {name : String} {definition : Story} {owner : OwnerId}
      {found entries : List (Entry β)} {inner rest : Scenes β} :
      Unfolds found inner → Unfolds entries rest →
      Unfolds (.story name definition owner found :: entries)
        (.story name definition owner inner rest)
  | mounted {name : String} {plan : Plan β} {cast : Cast β} {definition : Story}
      {owner : OwnerId} {entries : List (Entry β)} {inner rest : Scenes β} :
      Plan.compile cast definition owner = .ok plan →
      Unfolds (cast.resolve definition owner) inner → Unfolds entries rest →
      Unfolds (.mounted name plan :: entries) (.story name definition owner inner rest)

/-- A tree mounts among some objects with a plan: the plan is that of its story, and its scenes
are all that is found there. -/
structure Mounts (cast : Cast β) (tree : StoryTree β) (plan : Plan β) : Prop where
  compiled : Plan.compile cast tree.definition tree.owner = .ok plan
  unfolds : Unfolds (cast.resolve tree.definition tree.owner) tree.scenes

/-- A plan is injected among some objects when a name on one of them stands for it. -/
def Cast.Injects (cast : Cast β) (plan : Plan β) : Prop :=
  ∃ owner name, cast.member? owner name = some (.mounted plan)

/-- A computation in two parts succeeds when both do. -/
theorem bind_eq_ok_iff {ε α γ : Type} {x : Except ε α} {f : α → Except ε γ} {c : γ} :
    (x >>= f) = .ok c ↔ ∃ a, x = .ok a ∧ f a = .ok c := by
  cases x with
  | error e =>
      constructor
      · intro h; cases h
      · rintro ⟨a, h, -⟩; cases h
  | ok a =>
      constructor
      · intro h; exact ⟨a, rfl, h⟩
      · rintro ⟨b, hb, h⟩; cases hb; exact h

/-- Translating errors makes no success of them. -/
theorem mapError_eq_ok_iff {ε ε' α : Type} {x : Except ε α} {f : ε → ε'} {a : α} :
    x.mapError f = .ok a ↔ x = .ok a := by
  cases x with
  | error e =>
      constructor
      · intro h; cases h
      · intro h; cases h
  | ok b =>
      constructor
      · intro h; cases h; rfl
      · intro h; cases h; rfl

end

namespace Draft

variable {β : Type}

/-! ## Adding scenes -/

/-- Add scenes to a draft, each substory as a plan assembled from its own scenes. -/
def addScenes (d : Draft β) : Scenes β → Except StoryError (Draft β)
  | .done => .ok d
  | .step s rest => do
    let d ← d.addStep s
    addScenes d rest
  | .parallel steps rest => do
    let d ← d.addGroup steps none
    addScenes d rest
  | .story name definition owner inner rest => do
    let child ← start definition owner
    let child ← addScenes child inner
    let d ← d.addPlan name child.finish
    addScenes d rest

theorem addScenes_step_eq_ok_iff {d d' : Draft β} {s : Step β} {rest : Scenes β} :
    d.addScenes (.step s rest) = .ok d' ↔
      ∃ d₁, d.addStep s = .ok d₁ ∧ d₁.addScenes rest = .ok d' :=
  bind_eq_ok_iff

theorem addScenes_parallel_eq_ok_iff {d d' : Draft β} {steps : List (Step β)}
    {rest : Scenes β} :
    d.addScenes (.parallel steps rest) = .ok d' ↔
      ∃ d₁, d.addGroup steps none = .ok d₁ ∧ d₁.addScenes rest = .ok d' :=
  bind_eq_ok_iff

theorem addScenes_story_eq_ok_iff {d d' : Draft β} {name : String} {definition : Story}
    {owner : OwnerId} {inner rest : Scenes β} :
    d.addScenes (.story name definition owner inner rest) = .ok d' ↔
      ∃ c₀ c d₁, start definition owner = .ok c₀ ∧ c₀.addScenes inner = .ok c ∧
        d.addPlan name c.finish = .ok d₁ ∧ d₁.addScenes rest = .ok d' := by
  constructor
  · intro h
    obtain ⟨c₀, hc₀, h⟩ := bind_eq_ok_iff.mp h
    obtain ⟨c, hc, h⟩ := bind_eq_ok_iff.mp h
    obtain ⟨d₁, hd₁, h⟩ := bind_eq_ok_iff.mp h
    exact ⟨c₀, c, d₁, hc₀, hc, hd₁, h⟩
  · rintro ⟨c₀, c, d₁, hc₀, hc, hd₁, h⟩
    refine bind_eq_ok_iff.mpr ⟨c₀, hc₀, bind_eq_ok_iff.mpr ⟨c, hc, ?_⟩⟩
    exact bind_eq_ok_iff.mpr ⟨d₁, hd₁, h⟩

end Draft

section

variable {β : Type}

/-- What compiling a story comes to, entry by entry. -/
theorem Plan.compile_eq_ok_iff {cast : Cast β} {story : Story} {owner : OwnerId}
    {plan : Plan β} :
    Plan.compile cast story owner = .ok plan ↔
      ∃ d₀ d, Draft.start story owner = .ok d₀ ∧
        d₀.addAll (cast.resolve story owner) = .ok d ∧ d.finish = plan := by
  constructor
  · intro h
    obtain ⟨d₀, hd₀, h⟩ := bind_eq_ok_iff.mp h
    obtain ⟨d, hd, h⟩ := bind_eq_ok_iff.mp h
    exact ⟨d₀, d, hd₀, hd, Except.ok.inj h⟩
  · rintro ⟨d₀, d, hd₀, hd, h⟩
    refine bind_eq_ok_iff.mpr ⟨d₀, hd₀, bind_eq_ok_iff.mpr ⟨d, hd, ?_⟩⟩
    exact congrArg Except.ok h

/-- Adding entries comes to the same as adding the scenes they unfold to. -/
theorem Unfolds.addAll_eq {entries : List (Entry β)} {scenes : Scenes β}
    (h : Unfolds entries scenes) (d : Draft β) : d.addAll entries = d.addScenes scenes := by
  induction h generalizing d with
  | done => rfl
  | step _ ih =>
      simp only [Draft.addAll, Draft.add, Draft.addScenes, ih]
  | parallel _ ih =>
      simp only [Draft.addAll, Draft.add, Draft.addScenes, ih]
  | story _ _ ihInner ih =>
      simp only [Draft.addAll, Draft.add, Draft.addScenes, ihInner, ih, bind_assoc]
  | mounted hPlan _ _ ihInner ih =>
      -- the plan was compiled from the very scenes that are added here
      obtain ⟨c₀, c, hStart, hAdd, hFinish⟩ := Plan.compile_eq_ok_iff.mp hPlan
      rw [ihInner] at hAdd
      subst hFinish
      simp only [Draft.addAll, Draft.add, Draft.addScenes, hStart, ih]
      show _ = c₀.addScenes _ >>= _
      rw [hAdd]
      rfl

/-- The plan of a tree that mounts is put together from its scenes. -/
theorem Mounts.assembled {cast : Cast β} {tree : StoryTree β} {plan : Plan β}
    (h : Mounts cast tree plan) :
    ∃ d₀ d, Draft.start tree.definition tree.owner = .ok d₀ ∧
      d₀.addScenes tree.scenes = .ok d ∧ d.finish = plan := by
  obtain ⟨d₀, d, hStart, hAdd, hFinish⟩ := Plan.compile_eq_ok_iff.mp h.compiled
  exact ⟨d₀, d, hStart, h.unfolds.addAll_eq d₀ ▸ hAdd, hFinish⟩

/-! ## Every mounted story has a tree -/

/-- All plans that are injected among some objects have trees. -/
def Cast.InjectsTrees (cast : Cast β) : Prop :=
  ∀ plan, cast.Injects plan → ∃ cast' tree, Mounts cast' tree plan

/-- Whatever entries are found for a substory unfold to scenes, if they can be added. -/
def FindsScenes (descend : Story → OwnerId → Option (List (Entry β))) : Prop :=
  ∀ story owner found, descend story owner = some found →
    ∀ d d' : Draft β, d.addAll found = .ok d' → ∃ inner, Unfolds found inner

/-- What a name stands for has scenes, if adding it succeeds and all injected plans and all
substories have. -/
theorem exists_unfolds_entry {cast : Cast β}
    (hKnown : cast.InjectsTrees) {descend : Story → OwnerId → Option (List (Entry β))}
    (hDescend : FindsScenes descend)
    {story : Story} {owner : OwnerId} {collected : Collected} {d d' : Draft β}
    (h : d.add (cast.resolveEntry story owner descend collected) = .ok d')
    {entries : List (Entry β)} {rest : Scenes β} (hRest : Unfolds entries rest) :
    ∃ scenes, Unfolds (cast.resolveEntry story owner descend collected :: entries) scenes := by
  revert h
  fun_cases cast.resolveEntry story owner descend collected with
  | case1 name hm =>
      intro h
      cases h
  | case2 name s hm =>
      intro h
      exact ⟨_, .step hRest⟩
  | case3 name plan hm =>
      intro h
      obtain ⟨cast', tree, hTree⟩ := hKnown plan ⟨owner, name, hm⟩
      exact ⟨_, .mounted hTree.compiled hTree.unfolds hRest⟩
  | case4 name cause o hm =>
      intro h
      cases h
  | case5 name child childOwner hm found hFound =>
      -- a substory is started, and the entries found for it are added to it
      intro h
      obtain ⟨c₀, -, h⟩ := bind_eq_ok_iff.mp h
      obtain ⟨c, hAdd, -⟩ := bind_eq_ok_iff.mp h
      obtain ⟨inner, hInner⟩ := hDescend child childOwner found hFound c₀ c hAdd
      exact ⟨_, .story hInner hRest⟩
  | case6 name child childOwner hm hFound =>
      intro h
      cases h
  | case7 names steps fault hGroup =>
      intro h
      obtain ⟨c, -, h⟩ := bind_eq_ok_iff.mp h
      cases fault with
      | some cause => cases h
      | none => exact ⟨_, .parallel hRest⟩

/-- Entries resolved one by one unfold to scenes, if they can be added. -/
theorem exists_unfolds_all {cast : Cast β}
    (hKnown : cast.InjectsTrees) {descend : Story → OwnerId → Option (List (Entry β))}
    (hDescend : FindsScenes descend)
    (story : Story) (owner : OwnerId) (list : List Collected) {d d' : Draft β}
    (h : d.addAll (Cast.resolveAll (cast.resolveEntry story owner descend) list) = .ok d') :
    ∃ scenes,
      Unfolds (Cast.resolveAll (cast.resolveEntry story owner descend) list) scenes := by
  induction list generalizing d with
  | nil => exact ⟨_, .done⟩
  | cons collected rest ih =>
      rw [Cast.resolveAll] at h ⊢
      split at h
      · next hFaulty =>
          -- nothing is resolved after an entry with a fault
          rw [if_pos hFaulty]
          obtain ⟨d₁, hAdd, -⟩ := bind_eq_ok_iff.mp h
          exact exists_unfolds_entry hKnown hDescend hAdd .done
      · next hSound =>
          rw [if_neg hSound]
          obtain ⟨d₁, hAdd, hRest⟩ := bind_eq_ok_iff.mp h
          obtain ⟨scenes, hScenes⟩ := ih hRest
          exact exists_unfolds_entry hKnown hDescend hAdd hScenes

/-- Entries that can be added unfold to scenes, however deep they were resolved. -/
theorem exists_unfolds_within {cast : Cast β}
    (hKnown : cast.InjectsTrees)
    (fuel : Nat) (opened : List Cast.Frame) (story : Story) (owner : OwnerId)
    {found : List (Entry β)} (hFound : cast.resolveWithin fuel opened story owner = some found)
    {d d' : Draft β} (h : d.addAll found = .ok d') : ∃ scenes, Unfolds found scenes := by
  induction fuel generalizing opened story owner found d d' with
  | zero => cases hFound
  | succ fuel ih =>
      rw [Cast.resolveWithin] at hFound
      split at hFound
      · cases hFound
      · obtain rfl := Option.some.inj hFound
        refine exists_unfolds_all hKnown (fun child childOwner inner hInner c c' hAdd => ?_)
          story owner story.collected h
        exact ih _ child childOwner hInner hAdd

/-- **Every mounted story has a tree**, if the plans injected into its objects have one. -/
theorem exists_mounts {cast : Cast β}
    (hKnown : cast.InjectsTrees)
    {story : Story} {owner : OwnerId} {plan : Plan β}
    (h : Plan.compile cast story owner = .ok plan) :
    ∃ scenes, Mounts cast ⟨story, owner, scenes⟩ plan := by
  obtain ⟨d₀, d, -, hAdd, -⟩ := Plan.compile_eq_ok_iff.mp h
  have hFound : cast.resolveWithin (cast.frames.length + 1) [] story owner =
      some (cast.resolve story owner) := rfl
  obtain ⟨scenes, hScenes⟩ := exists_unfolds_within hKnown _ _ _ _ hFound hAdd
  exact ⟨scenes, h, hScenes⟩

/-- A plan is made by compiling a story among objects whose injected plans have been made
before. -/
inductive Plan.IsMade : Plan β → Prop where
  | compile {cast : Cast β} {story : Story} {owner : OwnerId} {plan : Plan β} :
      (∀ injected, cast.Injects injected → injected.IsMade) →
      Plan.compile cast story owner = .ok plan → plan.IsMade

/-- Every plan that is made is that of a tree, however many plans were injected on the way. -/
theorem Plan.IsMade.exists_mounts {plan : Plan β} (h : plan.IsMade) :
    ∃ (cast : Cast β) (tree : StoryTree β), Mounts cast tree plan := by
  induction h with
  | @compile cast story owner plan _ hCompile ih =>
      obtain ⟨scenes, hMounts⟩ := Storyline.exists_mounts ih hCompile
      exact ⟨cast, _, hMounts⟩

end

/-! ## An example

A shop sells an order. The payment is a story of its own, which is left early, so that the sale
goes on with what comes after it and fails for a reason. -/

namespace Shop

/-- The body of a step is its answer, whatever the context. -/
abbrev Body := Except StepError Outcome

def answer (body : Body) (_ : Context) : Reply := { result := body }

/-- A schema with a price and a total, both natural numbers taken as they are. -/
def order : Spec where
  identity := 0
  family := .raw
  name := "Order"
  fields := .ofList [("price", ⟨"a price", .ok⟩), ("total", ⟨"a sum", .ok⟩)]

def pay : Story where
  name := ⟨"Shop", "pay"⟩
  arguments := ["price"]
  collected := [.step "free", .step "charge"]
  spec := some order
  failures := none

def sell : Story where
  name := ⟨"Shop", "sell"⟩
  arguments := ["price"]
  collected := [.step "add", .step "pay", .step "ship"]
  spec := some order
  failures := some (.tokens ["sold out"])

def step (name : String) (body : Body) : Step Body where
  name := name
  owner := "Shop"
  mode := .function
  body := body

def add : Step Body := step "add" (.ok (.success (.ofList [("total", .nat 7)])))

def free : Step Body := step "free" (.ok .skip)

def charge : Step Body := step "charge" (.error (.other "CardError" "declined"))

def ship : Step Body := step "ship" (.ok (.failure (some (.token "sold out"))))

def cast : Cast Body :=
  .ofList [("shop", {
    className := "Shop"
    members := .ofList [("add", .step add), ("free", .step free), ("charge", .step charge),
      ("ship", .step ship), ("pay", .story (.ok pay) "shop")] })]

def tree : StoryTree Body where
  definition := sell
  owner := "shop"
  scenes :=
    .step add (.story "pay" pay "shop" (.step free (.step charge .done)) (.step ship .done))

def plan : Plan Body := (Plan.compile cast sell "shop").toOption.get rfl

theorem mounts : Mounts cast tree plan where
  compiled := rfl
  unfolds := .step (.story (.step (.step .done)) (.step .done))

def arguments : Bindings := .ofList [("price", .nat 5)]

end Shop

end Storyline
