import Storyline.Mounted
import Storyline.Proofs.Layout
import Storyline.Proofs.Turns

/-!
# Functions and coroutines

The mode of a plan is found out step by step, by whichever entry is resolved first, and in each
story apart. `Draft.Settles` says what all ways of adding entries have in common: the steps that
are added have the mode of the draft, and once there is a mode it stays. So all steps of a plan,
those of its substories and groups included, have its mode (`Mounts.mode_eq`), and objects on
which functions and coroutines are found for one story give no plan
(`Cast.compile_eq_error_of_mode_ne`).

Nothing that a function story runs is a coroutine then, whoever calls it
(`Plan.compile_oneMode`).
-/

set_option autoImplicit false

namespace Storyline

variable {β : Type}

/-! ## The steps of a tree -/

/-- The steps among some scenes, at any depth. -/
def Scenes.steps : Scenes β → List (Step β)
  | .done => []
  | .step s rest => s :: rest.steps
  | .parallel steps rest => steps ++ rest.steps
  | .story _ _ _ inner rest => inner.steps ++ rest.steps

theorem Scenes.mem_steps_of_mem_instructions {isShut : Bool} {p : Place} {next : Nat}
    {scenes : Scenes β} {i : Instruction β} (h : i ∈ scenes.instructions isShut p next)
    {s : Step β} (hs : s ∈ i.steps) : s ∈ scenes.steps := by
  induction scenes generalizing p next with
  | done => cases h
  | step other rest ih =>
      rcases List.mem_cons.mp h with rfl | h
      · exact List.mem_singleton.mp hs ▸ List.mem_cons_self
      · exact List.mem_cons_of_mem _ (ih h)
  | parallel others rest ih =>
      rcases List.mem_cons.mp h with rfl | h
      · exact List.mem_append_left _ hs
      · exact List.mem_append_right _ (ih h)
  | story name definition owner inner rest ihInner ih =>
      rw [instructions_story] at h
      rcases List.mem_cons.mp h with rfl | h
      · cases hs
      rcases List.mem_append.mp h with hIn | h
      · exact List.mem_append_left _ (ihInner hIn)
      rcases List.mem_cons.mp h with rfl | hOut
      · cases hs
      · exact List.mem_append_right _ (ih hOut)

theorem StoryTree.mem_steps_of_mem_instructions {tree : StoryTree β} {isShut : Bool}
    {i : Instruction β} (h : i ∈ tree.instructions isShut) {s : Step β} (hs : s ∈ i.steps) :
    s ∈ tree.scenes.steps := by
  rw [instructions_eq] at h
  rcases List.mem_cons.mp h with rfl | h
  · cases hs
  rcases List.mem_append.mp h with hIn | hLeave
  · exact Scenes.mem_steps_of_mem_instructions hIn hs
  · obtain rfl := List.mem_singleton.mp hLeave
    cases hs

/-! ## Steps found on objects -/

mutual

/-- The steps of what an entry of a story turned out to be, at any depth. -/
def Entry.steps : Entry β → List (Step β)
  | .step s => [s]
  | .parallel steps _ => steps
  | .story _ _ _ entries => Entry.stepsOf entries
  | .mounted _ plan => (plan.instructions.map Instruction.steps).flatten
  | .fault _ => []

/-- The steps of some entries, at any depth. -/
def Entry.stepsOf : List (Entry β) → List (Step β)
  | [] => []
  | entry :: rest => entry.steps ++ Entry.stepsOf rest

end

/-- All steps of some entries are steps of the scenes that they unfold to. -/
theorem Unfolds.mem_steps {entries : List (Entry β)} {scenes : Scenes β}
    (h : Unfolds entries scenes) {s : Step β} (hs : s ∈ Entry.stepsOf entries) :
    s ∈ scenes.steps := by
  induction h with
  | done => cases hs
  | step _ ih =>
      rcases List.mem_append.mp hs with hHead | hRest
      · exact List.mem_singleton.mp hHead ▸ List.mem_cons_self
      · exact List.mem_cons_of_mem _ (ih hRest)
  | parallel _ ih =>
      rcases List.mem_append.mp hs with hHead | hRest
      · exact List.mem_append_left _ hHead
      · exact List.mem_append_right _ (ih hRest)
  | story _ _ ihInner ih =>
      rcases List.mem_append.mp hs with hInner | hRest
      · exact List.mem_append_left _ (ihInner hInner)
      · exact List.mem_append_right _ (ih hRest)
  | @mounted name plan cast definition owner entries inner rest hPlan hInner _ _ ih =>
      rcases List.mem_append.mp hs with hInjected | hRest
      · -- the instructions of the plan are those of its own tree
        obtain ⟨steps, hSteps, hStep⟩ := List.mem_flatten.mp hInjected
        obtain ⟨i, hi, rfl⟩ := List.mem_map.mp hSteps
        have hMounts : Mounts cast ⟨definition, owner, inner⟩ plan := ⟨hPlan, hInner⟩
        rw [hMounts.instructions_eq] at hi
        exact List.mem_append_left _ (StoryTree.mem_steps_of_mem_instructions hi hStep)
      · exact List.mem_append_right _ (ih hRest)

/-! ## All steps have one mode -/

namespace Draft

/-- A draft comes from another by steps that all have its mode. Once there is a mode it stays. -/
structure Settles (d : Draft β) (steps : List (Step β)) (d' : Draft β) : Prop where
  steps : ∀ s ∈ steps, d'.mode = some s.mode
  keeps : ∀ mode, d.mode = some mode → d'.mode = some mode

theorem Settles.refl (d : Draft β) : d.Settles [] d :=
  ⟨fun _ hs => (by cases hs), fun _ hMode => hMode⟩

theorem Settles.trans {d d₁ d₂ : Draft β} {first rest : List (Step β)} (h : d.Settles first d₁)
    (hRest : d₁.Settles rest d₂) : d.Settles (first ++ rest) d₂ := by
  refine ⟨fun s hs => ?_, fun mode hMode => hRest.keeps mode (h.keeps mode hMode)⟩
  rcases List.mem_append.mp hs with hs | hs
  · exact hRest.keeps s.mode (h.steps s hs)
  · exact hRest.steps s hs

theorem settles_checkStep {d d' : Draft β} {s : Step β} (h : d.checkStep s = .ok d') :
    d.Settles [s] d' := by
  unfold checkStep at h
  split at h
  · next hNone =>
    obtain rfl := Except.ok.inj h
    refine ⟨fun other hOther => ?_, fun mode hMode => ?_⟩
    · rw [List.mem_singleton.mp hOther]
    · cases hNone.symm.trans hMode
  · next expected hSome =>
    split at h
    · next hMode =>
      obtain rfl := Except.ok.inj h
      refine ⟨fun other hOther => ?_, fun _ hKept => hKept⟩
      rw [List.mem_singleton.mp hOther, hSome, hMode]
    · cases h

theorem settles_foldlM_checkStep {steps : List (Step β)} {d d' : Draft β}
    (h : steps.foldlM checkStep d = .ok d') : d.Settles steps d' := by
  induction steps generalizing d with
  | nil =>
      obtain rfl := Except.ok.inj h
      exact .refl d
  | cons s rest ih =>
      obtain ⟨d₁, hCheck, hRest⟩ := bind_eq_ok_iff.mp h
      exact (settles_checkStep hCheck).trans (ih hRest)

theorem settles_addStep {d d' : Draft β} {s : Step β} (h : d.addStep s = .ok d') :
    d.Settles [s] d' := by
  obtain ⟨d₁, hCheck, h⟩ := bind_eq_ok_iff.mp h
  obtain rfl := Except.ok.inj h
  have hSettles := settles_checkStep hCheck
  exact ⟨hSettles.steps, hSettles.keeps⟩

theorem settles_addGroup {d d' : Draft β} {steps : List (Step β)}
    (h : d.addGroup steps none = .ok d') : d.Settles steps d' := by
  obtain ⟨d₁, hCheck, h⟩ := bind_eq_ok_iff.mp h
  obtain rfl := Except.ok.inj h
  have hSettles := settles_foldlM_checkStep hCheck
  exact ⟨hSettles.steps, hSettles.keeps⟩

/-- A substory has the mode of the draft that it is added to, if there is one. -/
theorem settles_addPlan {d d' : Draft β} {name : String} {child : Plan β} {steps : List (Step β)}
    (h : d.addPlan name child = .ok d') (hSteps : ∀ s ∈ steps, child.mode = s.mode) :
    d.Settles steps d' := by
  have hMode : d'.mode = some child.mode := by
    obtain ⟨_, _, _, -, -, rfl⟩ := addPlan_eq_ok h
    rfl
  refine ⟨fun s hs => by rw [hMode, hSteps s hs], fun mode hBefore => ?_⟩
  unfold addPlan at h
  split at h
  · cases h
  next hAdmits =>
  have hSame : mode = child.mode := by simpa [admitsMode, hBefore] using hAdmits
  rw [hMode, hSame]

theorem settles_addScenes {scenes : Scenes β} {d d' : Draft β}
    (h : d.addScenes scenes = .ok d') : d.Settles scenes.steps d' := by
  induction scenes generalizing d d' with
  | done =>
      obtain rfl := Except.ok.inj h
      exact .refl d
  | step s rest ih =>
      obtain ⟨d₁, hStep, hRest⟩ := addScenes_step_eq_ok_iff.mp h
      exact (settles_addStep hStep).trans (ih hRest)
  | parallel steps rest ih =>
      obtain ⟨d₁, hGroup, hRest⟩ := addScenes_parallel_eq_ok_iff.mp h
      exact (settles_addGroup hGroup).trans (ih hRest)
  | story name definition owner inner rest ihInner ih =>
      obtain ⟨c₀, c, d₁, -, hInner, hPlan, hRest⟩ := addScenes_story_eq_ok_iff.mp h
      have hChild : ∀ s ∈ inner.steps, c.finish.mode = s.mode := by
        intro s hs
        show c.mode.getD .function = s.mode
        rw [(ihInner hInner).steps s hs, Option.getD_some]
      exact (settles_addPlan hPlan hChild).trans (ih hRest)

end Draft

/-- All steps of a tree that mounts have the mode of its plan. -/
theorem Mounts.mode_eq_of_mem_steps {cast : Cast β} {tree : StoryTree β} {plan : Plan β}
    (h : Mounts cast tree plan) {s : Step β} (hs : s ∈ tree.scenes.steps) :
    s.mode = plan.mode := by
  obtain ⟨d₀, d, -, hAdd, rfl⟩ := h.assembled
  show s.mode = d.mode.getD .function
  rw [(Draft.settles_addScenes hAdd).steps s hs, Option.getD_some]

/-- **All steps of a plan have its mode.** -/
theorem Mounts.mode_eq {cast : Cast β} {tree : StoryTree β} {plan : Plan β}
    (h : Mounts cast tree plan) {i : Instruction β} (hi : i ∈ plan.instructions) {s : Step β}
    (hs : s ∈ i.steps) : s.mode = plan.mode := by
  rw [h.instructions_eq] at hi
  exact h.mode_eq_of_mem_steps (StoryTree.mem_steps_of_mem_instructions hi hs)

/-- **Functions and coroutines do not mix**: if both are found for a story, it does not mount. -/
theorem Cast.compile_eq_error_of_mode_ne {cast : Cast β} (hKnown : cast.InjectsTrees)
    {definition : Story} {owner : OwnerId} {s s' : Step β}
    (hs : s ∈ Entry.stepsOf (cast.resolve definition owner))
    (hs' : s' ∈ Entry.stepsOf (cast.resolve definition owner)) (hModes : s.mode ≠ s'.mode) :
    ∃ cause, Plan.compile cast definition owner = .error cause := by
  cases hCompile : Plan.compile cast definition owner with
  | error cause => exact ⟨cause, rfl⟩
  | ok plan =>
      obtain ⟨scenes, hMounts⟩ := exists_mounts hKnown hCompile
      have hFirst : s.mode = plan.mode :=
        hMounts.mode_eq_of_mem_steps (hMounts.unfolds.mem_steps hs)
      have hSecond : s'.mode = plan.mode :=
        hMounts.mode_eq_of_mem_steps (hMounts.unfolds.mem_steps hs')
      exact absurd (hFirst.trans hSecond.symm) hModes

/-! ## Running functions -/

namespace Run

/-- A function runs whether the caller blocks or waits. -/
theorem reply?_of_function {perform : β → Context → Reply} {calling : Calling} {ctx : Context}
    {s : Step β} (h : s.mode = .function) :
    reply? perform calling ctx s = some (perform s.body ctx) := by
  unfold reply?
  rw [h]
  cases calling <;> rfl

/-- A function in a group runs whether the caller blocks or waits. -/
theorem branchReply_of_function {perform : β → Context → Reply} {calling : Calling}
    {ctx : Context} {s : Step β} (h : s.mode = .function) :
    branchReply perform calling ctx s = perform s.body ctx :=
  branchReply_of_some (reply?_of_function h)

end Run

/-- An error that ends a run of a function story is one that a run with all its steps can have. -/
theorem Mounts.isOfRun_of_ending {cast : Cast β} {tree : StoryTree β} {plan : Plan β}
    (h : Mounts cast tree plan) (hMode : plan.mode = .function) {perform : β → Context → Reply}
    {calling : Calling} {width : Nat} {arguments : Bindings} {invocation : Invocation}
    (hInvoke : plan.invoke perform calling width arguments = .ok invocation) {cause : StoryError}
    (hEnding : invocation.ending = .error cause) : cause.isOfRun = true := by
  unfold Plan.invoke at hInvoke
  split at hInvoke
  · cases hInvoke
  obtain rfl := Except.ok.inj hInvoke
  rcases Run.isOfRun_drive _ _ hEnding with hOfRun | ⟨-, i, hi, s, hs, ctx, hNone⟩
  · exact hOfRun
  · rw [Run.reply?_of_function ((h.mode_eq hi hs).trans hMode)] at hNone
    cases hNone

namespace Mounted

variable {m : Mounted β} {perform : β → Context → Reply} {calling : Calling}
  {arguments : Bindings}

/-- Nobody is turned away from a function story. -/
theorem invoke_of_function (hMode : m.plan.mode = .function) (perform : β → Context → Reply)
    (calling : Calling) (arguments : Bindings) :
    m.invoke perform calling arguments =
      (m.plan.invoke perform calling m.settings.reprWidth arguments).mapError .contract := by
  unfold invoke
  rw [hMode]
  cases calling <;> rfl

theorem invoke_of_coroutine (hMode : m.plan.mode = .coroutine) (perform : β → Context → Reply)
    (arguments : Bindings) :
    m.invoke perform .blocking arguments =
      .error (.definition (.coroutineStory m.plan.qualified)) := by
  unfold invoke
  rw [hMode]

/-- A story that is invoked has its plan invoked, and each of its steps can be run. -/
theorem invoke_eq_ok {cast : Cast β} {tree : StoryTree β} (hMounts : Mounts cast tree m.plan)
    {invocation : Invocation} (h : m.invoke perform calling arguments = .ok invocation) :
    m.plan.invoke perform calling m.settings.reprWidth arguments = .ok invocation ∧
      ∀ i ∈ m.plan.instructions, ∀ s ∈ i.steps, ∀ ctx,
        Run.reply? perform calling ctx s = some (perform s.body ctx) := by
  cases calling with
  | waiting => exact ⟨mapError_eq_ok_iff.mp h, fun _ _ _ _ _ => rfl⟩
  | blocking =>
      cases hMode : m.plan.mode with
      | coroutine =>
          rw [invoke_of_coroutine hMode] at h
          cases h
      | function =>
          rw [invoke_of_function hMode, mapError_eq_ok_iff] at h
          exact ⟨h, fun i hi s hs ctx =>
            Run.reply?_of_function ((hMounts.mode_eq hi hs).trans hMode)⟩

/-- An error that is given for an invocation is that of the invocation, of its ending, or of what
the end comes to. -/
theorem answer_eq_error {α : Type} {finish : Context → Ending → Except StoryError α}
    {cause : StoryError} (h : (m.answer perform calling arguments finish).result = .error cause) :
    m.invoke perform calling arguments = .error cause ∨
      ∃ invocation, m.invoke perform calling arguments = .ok invocation ∧
        (invocation.ending = .error cause ∨
          ∃ ending, finish invocation.ctx ending = .error cause) := by
  unfold answer at h
  cases hInvoke : m.invoke perform calling arguments with
  | error error =>
      rw [hInvoke] at h
      obtain rfl := Except.error.inj h
      exact .inl rfl
  | ok invocation =>
      rw [hInvoke] at h
      dsimp only at h
      refine .inr ⟨invocation, rfl, ?_⟩
      cases hEnding : invocation.ending with
      | error error =>
          rw [hEnding] at h
          exact .inl (congrArg Except.error (Except.error.inj h))
      | ok ending =>
          rw [hEnding] at h
          exact .inr ⟨ending, h⟩

/-- No answer of a function story is that a coroutine can not be run. -/
theorem answer_ne_coroutineStory {cast : Cast β} {tree : StoryTree β}
    (hMounts : Mounts cast tree m.plan) (hMode : m.plan.mode = .function) {α : Type}
    {finish : Context → Ending → Except StoryError α} {story : String}
    (hFinish : ∀ ctx ending, finish ctx ending ≠ .error (.definition (.coroutineStory story))) :
    (m.answer perform calling arguments finish).result ≠
      .error (.definition (.coroutineStory story)) := by
  intro hAnswer
  have hInvoke := invoke_of_function hMode perform calling arguments
  rcases answer_eq_error hAnswer with hRejected | ⟨invocation, hRun, hEnding | ⟨ending, hFinished⟩⟩
  · -- whatever arguments are rejected for is a matter of the contract
    rw [hInvoke] at hRejected
    cases hPlan : m.plan.invoke perform calling m.settings.reprWidth arguments with
    | error cause => simp [hPlan, Except.mapError] at hRejected
    | ok invocation => simp [hPlan, Except.mapError] at hRejected
  · rw [hInvoke, mapError_eq_ok_iff] at hRun
    have hOfRun := hMounts.isOfRun_of_ending hMode hRun hEnding
    cases hOfRun
  · exact hFinish _ _ hFinished

end Mounted

/-- **Stories have one mode.** If functions and coroutines are found for a story it does not mount.
All steps of a plan have its mode, those of substories and of groups included. So a function story
is never turned away as a coroutine, and each of its steps is run, whatever context it is run in. -/
theorem Plan.compile_oneMode {cast : Cast β}
    (hInjected : ∀ injected, cast.Injects injected → injected.IsMade) (definition : Story)
    (owner : OwnerId) :
    (∀ s ∈ Entry.stepsOf (cast.resolve definition owner),
      ∀ s' ∈ Entry.stepsOf (cast.resolve definition owner), s.mode ≠ s'.mode →
        ∃ cause, Plan.compile cast definition owner = .error cause) ∧
    ∀ plan, Plan.compile cast definition owner = .ok plan →
      (∀ i ∈ plan.instructions, ∀ s ∈ i.steps, s.mode = plan.mode) ∧
      (plan.mode = .function → ∀ (perform : β → Context → Reply),
        (∀ i ∈ plan.instructions, ∀ s ∈ i.steps, ∀ ctx,
          Run.reply? perform .blocking ctx s = some (perform s.body ctx) ∧
          Run.branchReply perform .blocking ctx s = perform s.body ctx) ∧
        ∀ (m : Mounted β), m.plan = plan → ∀ arguments story,
          (m.call perform .blocking arguments).result ≠
            .error (.definition (.coroutineStory story)) ∧
          (m.run perform .blocking arguments).result ≠
            .error (.definition (.coroutineStory story))) := by
  have hKnown : cast.InjectsTrees := fun injected hIn => (hInjected injected hIn).exists_mounts
  refine ⟨fun s hs s' hs' hModes => Cast.compile_eq_error_of_mode_ne hKnown hs hs' hModes,
    fun plan hCompile => ?_⟩
  obtain ⟨scenes, hMounts⟩ := exists_mounts hKnown hCompile
  refine ⟨fun i hi s hs => hMounts.mode_eq hi hs, fun hMode perform => ⟨?_, ?_⟩⟩
  · intro i hi s hs ctx
    have hFunction : s.mode = .function := (hMounts.mode_eq hi hs).trans hMode
    exact ⟨Run.reply?_of_function hFunction, Run.branchReply_of_function hFunction⟩
  · rintro m rfl arguments story
    constructor
    · refine Mounted.answer_ne_coroutineStory hMounts hMode fun ctx ending => ?_
      cases ending <;> simp [Ending.value]
    · exact Mounted.answer_ne_coroutineStory hMounts hMode fun ctx ending => by simp

/-! ## An example

In a parlour, tea has to be waited for, and a table is laid by who is there at once. Both together
are no story. -/

namespace Parlour

open Shop (Body answer)

def tea : Story where
  name := ⟨"Parlour", "tea"⟩
  arguments := []
  collected := [.step "boil"]
  spec := none
  failures := none

def table : Story where
  name := ⟨"Parlour", "table"⟩
  arguments := []
  collected := [.parallel ["plates", "cups"]]
  spec := none
  failures := none

def breakfast : Story where
  name := ⟨"Parlour", "breakfast"⟩
  arguments := []
  collected := [.step "table", .step "tea"]
  spec := none
  failures := none

def step (name : String) (mode : Mode) : Step Body where
  name := name
  owner := "Parlour"
  mode := mode
  body := .ok (.success .empty)

def members : List (String × Member Body) :=
  [("boil", .step (step "boil" .coroutine)), ("plates", .step (step "plates" .function)),
    ("cups", .step (step "cups" .function)), ("tea", .story (.ok tea) "parlour"),
    ("table", .story (.ok table) "parlour")]

def cast : Cast Body :=
  .ofList [("parlour", { className := "Parlour", members := .ofList members })]

def laying : Mounted Body := { plan := (Plan.compile cast table "parlour").toOption.get rfl }

theorem isMade_of_injects {injected : Plan Body} (h : cast.Injects injected) :
    injected.IsMade := by
  obtain ⟨name, hName⟩ := Cast.exists_mem_of_injects (by decide) h
  simp [members] at hName

/-- Breakfast does not mount, and whoever lays the table does not wait for anything. -/
theorem served :
    (∃ cause, Plan.compile cast breakfast "parlour" = .error cause) ∧
      (∀ i ∈ laying.plan.instructions, ∀ s ∈ i.steps, s.mode = .function) ∧
      (laying.call answer .blocking .empty).result = .ok .null ∧
      ∀ story, (laying.call answer .blocking .empty).result ≠
        .error (.definition (.coroutineStory story)) := by
  have hMixed := Plan.compile_oneMode (fun _ hIn => isMade_of_injects hIn) breakfast "parlour"
  have hTable := Plan.compile_oneMode (fun _ hIn => isMade_of_injects hIn) table "parlour"
  obtain ⟨hModes, hRuns⟩ := hTable.2 laying.plan rfl
  obtain ⟨-, hAnswers⟩ := hRuns rfl answer
  refine ⟨?_, hModes, rfl, fun story => (hAnswers laying rfl .empty story).1⟩
  have hSteps : Entry.stepsOf (cast.resolve breakfast "parlour") =
      [step "plates" .function, step "cups" .function, step "boil" .coroutine] := rfl
  rw [hSteps] at hMixed
  exact hMixed.1 (step "plates" .function) (by simp) (step "boil" .coroutine) (by simp) (by decide)

end Parlour

end Storyline
