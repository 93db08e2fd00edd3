import Storyline.Proofs.EntryPoints
import Storyline.Proofs.Growth
import Storyline.Proofs.Injection
import Storyline.Proofs.Sharing
import Storyline.Proofs.Simulation

/-!
# A story within a story that adds nothing

A story without arguments, schema and vocabulary whose only step is another story adds nothing but
a line to the history. Running it comes to what running the other story comes to
(`Mounts.run_alike`): the same verdict and the same names, values and origins, or an error of the
same kind.

Steps see the history, so that this holds of bodies that answer alike to contexts which differ in
nothing else. The two runs are told side by side: contexts that are alike stay so, scene by scene
(`Tell.alike_scenes`), whatever the depths, the labels and the numbers of their stories are.
-/

set_option autoImplicit false

namespace Storyline

variable {β : Type}

/-! ## What is alike -/

/-- Two contexts, each with a width of its own, have the same names with the same values and
origins. -/
structure Context.Alike (width width' : Nat) (ctx ctx' : Context) : Prop where
  width_eq : ctx.width = width
  width_eq' : ctx'.width = width'
  entries_eq : ctx'.entries = ctx.entries

/-- Two answers of a step are the same outcome, or errors of one kind. -/
inductive Answered : Except StepError Outcome → Except StepError Outcome → Prop where
  | outcome (outcome : Outcome) : Answered (.ok outcome) (.ok outcome)
  | error {cause cause' : StepError} :
      cause'.name = cause.name → Answered (.error cause) (.error cause')

/-- Two errors of runs are the same up to the texts they show and the story they name. -/
inductive StoryError.Alike : StoryError → StoryError → Prop where
  | same (cause : StoryError) : Alike cause cause
  | step {cause cause' : StepError} : cause'.name = cause.name → Alike (.step cause) (.step cause')
  | unknownArguments {unknown : List String} {story story' : StoryName} {shown shown' : String} :
      Alike (.contract (.unknownArguments unknown story shown))
        (.contract (.unknownArguments unknown story' shown'))
  | missingVariables {missed arguments : List String} {story : StoryName}
      {shown shown' : String} :
      Alike (.contract (.missingVariables missed story arguments shown))
        (.contract (.missingVariables missed story arguments shown'))
  | variableOverride {name step shown shown' : String} :
      Alike (.contract (.variableOverride name step shown))
        (.contract (.variableOverride name step shown'))

theorem StoryError.Alike.kind_eq {cause cause' : StoryError} (h : cause.Alike cause') :
    cause'.kind = cause.kind := by
  cases h with
  | step hName => exact hName
  | _ => rfl

/-- Two courses go on, or leave their story, or end the run the same way, in contexts that are
alike; or both end it with errors that are alike. -/
inductive Course.Alike (width width' : Nat) : Course → Course → Prop where
  | goesOn {ctx ctx' : Context} : ctx.Alike width width' ctx' →
      Alike width width' (.goesOn ctx) (.goesOn ctx')
  | left {ctx ctx' : Context} : ctx.Alike width width' ctx' →
      Alike width width' (.left ctx) (.left ctx')
  | ended {ctx ctx' : Context} (ending : Ending) : ctx.Alike width width' ctx' →
      Alike width width' (.ended ctx (.ok ending)) (.ended ctx' (.ok ending))
  | broken {ctx ctx' : Context} {cause cause' : StoryError} : cause.Alike cause' →
      Alike width width' (.ended ctx (.error cause)) (.ended ctx' (.error cause'))

section

variable {width width' : Nat}

namespace Context.Alike

variable {ctx ctx' : Context} (h : ctx.Alike width width' ctx')

include h

/-- The histories may change in different ways. -/
theorem mapHistory (f f' : History → History) :
    (ctx.mapHistory f).Alike width width' (ctx'.mapHistory f') :=
  ⟨h.width_eq, h.width_eq', h.entries_eq⟩

theorem extend (step : String) (values : Bindings) :
    (ctx.extend step values).Alike width width' (ctx'.extend step values) := by
  refine ⟨h.width_eq, h.width_eq', ?_⟩
  rw [Context.extend, Context.extend, h.entries_eq]

theorem contains_eq : ctx'.contains = ctx.contains := by
  funext name
  rw [Context.contains, Context.contains, Context.names, Context.names, h.entries_eq]

end Context.Alike

namespace Course.Alike

variable {course course' : Course} (h : course.Alike width width' course')

include h

theorem andThen {next next' : Context → Course}
    (hNext : ∀ ctx ctx', ctx.Alike width width' ctx' →
      (next ctx).Alike width width' (next' ctx')) :
    (course.andThen next).Alike width width' (course'.andThen next') := by
  cases h with
  | goesOn hCtx => exact hNext _ _ hCtx
  | left hCtx => exact .left hCtx
  | ended ending hCtx => exact .ended ending hCtx
  | broken hCause => exact .broken hCause

/-- Two courses that are alike come to the same end in contexts that are alike, or to errors that
are. -/
theorem result :
    (∃ ctx ctx' ending, course.result = (ctx, .ok ending) ∧ course'.result = (ctx', .ok ending) ∧
        ctx.Alike width width' ctx') ∨
      ∃ ctx ctx' cause cause', course.result = (ctx, .error cause) ∧
        course'.result = (ctx', .error cause') ∧ cause.Alike cause' := by
  cases h with
  | goesOn hCtx => exact .inl ⟨_, _, _, rfl, rfl, hCtx⟩
  | left hCtx => exact .inl ⟨_, _, _, rfl, rfl, hCtx⟩
  | ended ending hCtx => exact .inl ⟨_, _, _, rfl, rfl, hCtx⟩
  | broken hCause => exact .inr ⟨_, _, _, _, rfl, rfl, hCause⟩

theorem close : course.close.Alike width width' course'.close := by
  cases h with
  | goesOn hCtx => exact .goesOn (hCtx.mapHistory _ _)
  | left hCtx => exact .goesOn hCtx
  | ended ending hCtx => exact .ended ending hCtx
  | broken hCause => exact .broken hCause

/-- Closing one story more makes no difference where a story is closed already. -/
theorem close_close : course.close.Alike width width' (course'.close.andThen .goesOn).close := by
  cases h with
  | goesOn hCtx => exact .goesOn ⟨hCtx.width_eq, hCtx.width_eq', hCtx.entries_eq⟩
  | left hCtx => exact .goesOn ⟨hCtx.width_eq, hCtx.width_eq', hCtx.entries_eq⟩
  | ended ending hCtx => exact .ended ending hCtx
  | broken hCause => exact .broken hCause

end Course.Alike

end

/-! ## Telling side by side -/

/-- A step answers alike to contexts that are alike. -/
def Step.AnswersAlike (perform : β → Context → Reply) (width width' : Nat) (s : Step β) : Prop :=
  ∀ ctx ctx' : Context, ctx.Alike width width' ctx' →
    Answered (perform s.body ctx).result (perform s.body ctx').result

/-- Two plans of functions without schemas, both with a vocabulary or both without one. -/
structure Plan.IsLike (plan plan' : Plan β) : Prop where
  isNull : ∀ c ∈ plan.contracts, c.isNull = true
  isNull' : ∀ c ∈ plan'.contracts, c.isNull = true
  function : plan.mode = .function
  function' : plan'.mode = .function
  failures : plan'.failures.isSome = plan.failures.isSome

/-- Without a schema a step may set any names, but none a second time. -/
theorem Contract.checkOutput_of_isNull {c : Contract} (h : c.isNull = true) (step : String)
    (ctx : Context) (values : Bindings) :
    c.checkOutput step ctx values =
      match values.names.find? ctx.contains with
      | some name => .error (.variableOverride name step ctx.display)
      | none => .ok values := by
  unfold checkOutput
  cases values.names.find? ctx.contains with
  | none => exact if_pos h
  | some name => rfl

namespace Tell

variable {plan plan' : Plan β} {width width' : Nat} {ctx ctx' : Context} {p p' : Place}
  {perform : β → Context → Reply} {calling : Calling}

theorem alike_broken {cause cause' : StoryError} (h : cause.Alike cause') (ctx ctx' : Context) :
    (Course.broken cause ctx).Alike width width' (Course.broken cause' ctx') :=
  .broken h

theorem alike_start (hCtx : ctx.Alike width width' ctx') (definition : Story)
    (label label' : String) :
    (start definition label ctx).Alike width width' (start definition label' ctx') := by
  have hStarted : (ctx.mapHistory (·.startStory label)).Alike width width'
      (ctx'.mapHistory (·.startStory label')) := hCtx.mapHistory _ _
  unfold start
  dsimp only
  rw [hStarted.contains_eq]
  split
  · exact .goesOn hStarted
  · exact alike_broken .missingVariables _ _

theorem alike_conclude (hCtx : ctx.Alike width width' ctx') (value : Json) :
    (conclude value ctx).Alike width width' (conclude value ctx') :=
  .ended _ (hCtx.mapHistory _ _)

theorem alike_leave (hCtx : ctx.Alike width width' ctx') :
    (leave ctx).Alike width width' (leave ctx') :=
  .left (hCtx.mapHistory _ _)

/-- Where nothing has a schema, values are kept unless one of their names is set already. -/
theorem keep_of_isNull (h : ∀ c ∈ plan.contracts, c.isNull = true) (p : Place) (s : Step β)
    (values : Bindings) (ctx : Context) :
    keep plan p s values ctx =
      match values.names.find? ctx.contains with
      | some name => .broken (.contract (.variableOverride name s.qualified ctx.display)) ctx
      | none => .goesOn (ctx.extend s.qualified values) := by
  have hRoot : plan.root ∈ plan.contracts := List.mem_cons_self
  have hNull : (plan.contracts.getD p.number plan.root).isNull = true := by
    rw [List.getD_eq_getElem?_getD]
    cases hFound : plan.contracts[p.number]? with
    | none => exact h _ hRoot
    | some c => exact h c (List.mem_of_getElem? hFound)
  unfold keep
  rw [Contract.checkOutput_of_isNull hNull]
  cases values.names.find? ctx.contains <;> rfl

section

variable (hPlans : plan.IsLike plan')

include hPlans

theorem alike_keep (hCtx : ctx.Alike width width' ctx') (s : Step β) (values : Bindings) :
    (keep plan p s values ctx).Alike width width' (keep plan' p' s values ctx') := by
  rw [keep_of_isNull hPlans.isNull, keep_of_isNull hPlans.isNull', hCtx.contains_eq]
  split
  · exact alike_broken .variableOverride _ _
  · exact .goesOn (hCtx.extend _ _)

theorem alike_keepAll (hCtx : ctx.Alike width width' ctx') (branches : List (Step β × Bindings)) :
    (keepAll plan p branches ctx).Alike width width' (keepAll plan' p' branches ctx') := by
  induction branches generalizing ctx ctx' with
  | nil => exact .goesOn hCtx
  | cons branch rest ih =>
      obtain ⟨s, values⟩ := branch
      exact (alike_keep hPlans hCtx s values).andThen fun _ _ hNext => ih hNext

/-- A failure is held against the vocabulary of its own story, and null protocols are disabled in
both plans or in none. -/
theorem alike_fail (hCtx : ctx.Alike width width' ctx') (hStory : p'.story = p.story) (s : Step β)
    (reason : Option Reason) :
    (fail plan p s reason ctx).Alike width width' (fail plan' p' s reason ctx') := by
  unfold fail
  rw [hStory, hPlans.failures]
  split
  · exact alike_broken (.same _) _ _
  · exact .ended _ (hCtx.mapHistory _ _)

theorem alike_judge (hCtx : ctx.Alike width width' ctx') (hStory : p'.story = p.story)
    (s : Step β) {result result' : Except StepError Outcome} (hResult : Answered result result') :
    (judge plan p s ctx result).Alike width width' (judge plan' p' s ctx' result') := by
  cases hResult with
  | error hName => exact alike_broken (.step hName) _ _
  | outcome outcome =>
      cases outcome with
      | success values => exact alike_keep hPlans hCtx s values
      | failure reason => exact alike_fail hPlans hCtx hStory s reason
      | result value => exact alike_conclude hCtx value
      | skip => exact alike_leave hCtx
      | next value =>
          -- both plans are functions
          unfold judge
          rw [hPlans.function, hPlans.function']
          exact alike_broken (.same _) _ _

theorem alike_step (calling : Calling) (hCtx : ctx.Alike width width' ctx')
    (hStory : p'.story = p.story) {s : Step β} (hMode : s.mode = .function)
    (hAnswers : s.AnswersAlike perform width width') :
    (step plan perform calling p s ctx).Alike width width'
      (step plan' perform calling p' s ctx') := by
  have hEntered : (ctx.mapHistory (·.enter s.name)).Alike width width'
      (ctx'.mapHistory (·.enter s.name)) := hCtx.mapHistory _ _
  unfold step
  simp only [Run.reply?_of_function hMode]
  exact alike_judge hPlans hEntered hStory s (hAnswers _ _ hEntered)

omit hPlans in
/-- The outcomes of a group are the same, or both are errors that are alike. -/
theorem alike_outcomes (mode : Mode) {steps : List (Step β)}
    (answer answer' : Step β → Except StepError Outcome)
    (hAnswers : ∀ s ∈ steps, Answered (answer s) (answer' s)) :
    (∃ answers, Run.outcomes mode (steps.map fun s => (s, answer s)) = .ok answers ∧
        Run.outcomes mode (steps.map fun s => (s, answer' s)) = .ok answers) ∨
      ∃ cause cause', Run.outcomes mode (steps.map fun s => (s, answer s)) = .error cause ∧
        Run.outcomes mode (steps.map fun s => (s, answer' s)) = .error cause' ∧
        cause.Alike cause' := by
  induction steps with
  | nil => exact .inl ⟨[], rfl, rfl⟩
  | cons s rest ih =>
      have hRest := ih fun other hOther => hAnswers other (List.mem_cons_of_mem s hOther)
      have hFirst := hAnswers s List.mem_cons_self
      rw [List.map_cons, List.map_cons]
      generalize answer s = result at hFirst ⊢
      generalize answer' s = result' at hFirst ⊢
      cases hFirst with
      | error hName => exact .inr ⟨_, _, rfl, rfl, .step hName⟩
      | outcome outcome =>
          simp only [Run.outcomes]
          split
          · exact .inr ⟨_, _, rfl, rfl, .same _⟩
          · rcases hRest with ⟨answers, hOk, hOk'⟩ | ⟨cause, cause', hError, hError', hAlike⟩
            · rw [hOk, hOk']
              exact .inl ⟨_, rfl, rfl⟩
            · rw [hError, hError']
              exact .inr ⟨_, _, rfl, rfl, hAlike⟩

theorem alike_group (calling : Calling) (hCtx : ctx.Alike width width' ctx')
    (hStory : p'.story = p.story) {steps : List (Step β)} (hMode : ∀ s ∈ steps, s.mode = .function)
    (hAnswers : ∀ s ∈ steps, s.AnswersAlike perform width width') :
    (group plan perform calling p steps ctx).Alike width width'
      (group plan' perform calling p' steps ctx') := by
  have hEntered : (ctx.mapHistory (·.enter (Instruction.groupName steps))).Alike width width'
      (ctx'.mapHistory (·.enter (Instruction.groupName steps))) := hCtx.mapHistory _ _
  unfold group
  dsimp only
  generalize ctx.mapHistory (·.enter (Instruction.groupName steps)) = entered at hEntered ⊢
  generalize ctx'.mapHistory (·.enter (Instruction.groupName steps)) = entered' at hEntered ⊢
  have hBranches : ∀ s ∈ steps, Answered (Run.branchReply perform calling entered s).result
      (Run.branchReply perform calling entered' s).result := by
    intro s hs
    rw [Run.branchReply_of_function (hMode s hs), Run.branchReply_of_function (hMode s hs)]
    exact hAnswers s hs _ _ hEntered
  have hResults := alike_outcomes .function
    (fun s => (Run.branchReply perform calling entered s).result)
    (fun s => (Run.branchReply perform calling entered' s).result) hBranches
  unfold judgeGroup
  rw [hPlans.function, hPlans.function']
  rcases hResults with ⟨answers, hOk, hOk'⟩ | ⟨cause, cause', hError, hError', hAlike⟩
  · rw [hOk, hOk']
    dsimp only
    cases GroupResult.ofAnswers answers with
    | success branches => exact alike_keepAll hPlans hEntered branches
    | failure s reason => exact alike_fail hPlans hEntered hStory s reason
    | result value => exact alike_conclude hEntered value
  · rw [hError, hError']
    exact alike_broken hAlike _ _

/-- **Scenes are told alike** in a story, whatever its number, its depth and its object are. -/
theorem alike_scenes (hCtx : ctx.Alike width width' ctx') (hStory : p'.story = p.story)
    (next next' : Nat) (all : Scenes β) (hMode : ∀ s ∈ all.steps, s.mode = .function)
    (hAnswers : ∀ s ∈ all.steps, s.AnswersAlike perform width width') :
    (scenes plan perform calling p next all ctx).Alike width width'
      (scenes plan' perform calling p' next' all ctx') := by
  induction all generalizing p p' next next' ctx ctx' with
  | done => exact .goesOn hCtx
  | step s rest ih =>
      have hFirst := alike_step hPlans calling hCtx hStory
        (hMode s List.mem_cons_self) (hAnswers s List.mem_cons_self)
      exact hFirst.andThen fun _ _ hNext => ih hNext hStory next next'
        (fun other hOther => hMode other (List.mem_cons_of_mem s hOther))
        fun other hOther => hAnswers other (List.mem_cons_of_mem s hOther)
  | parallel steps rest ih =>
      have hFirst := alike_group hPlans calling hCtx hStory
        (fun s hs => hMode s (List.mem_append_left _ hs))
        (fun s hs => hAnswers s (List.mem_append_left _ hs))
      exact hFirst.andThen fun _ _ hNext => ih hNext hStory next next'
        (fun s hs => hMode s (List.mem_append_right _ hs))
        fun s hs => hAnswers s (List.mem_append_right _ hs)
  | story name definition owner inner rest ihInner ih =>
      -- the substory is started, told and closed, and then comes the rest
      have hStart := alike_start hCtx definition (Scenes.label p.owner name definition owner)
        (Scenes.label p'.owner name definition owner)
      refine (hStart.andThen fun _ _ hInner => ?_).close.andThen fun _ _ hRest => ?_
      · have hSame : (⟨definition, owner, next'⟩ : Place).story =
            (⟨definition, owner, next⟩ : Place).story := rfl
        exact ihInner hInner hSame _ _ (fun s hs => hMode s (List.mem_append_left _ hs))
          fun s hs => hAnswers s (List.mem_append_left _ hs)
      · exact ih hRest hStory _ _ (fun s hs => hMode s (List.mem_append_right _ hs))
          fun s hs => hAnswers s (List.mem_append_right _ hs)

/-- A tree is told alike alone and as the only scene of a story without arguments. -/
theorem alike_tell (calling : Calling) (hCtx : ctx.Alike width width' ctx') {tree : StoryTree β}
    (hMode : ∀ s ∈ tree.scenes.steps, s.mode = .function)
    (hAnswers : ∀ s ∈ tree.scenes.steps, s.AnswersAlike perform width width')
    {definition : Story} (hArguments : definition.arguments = []) (owner : OwnerId)
    (name : String) :
    (tree.tell plan perform calling ctx).Alike width width'
      (StoryTree.tell ⟨definition, owner, .story name tree.definition tree.owner tree.scenes .done⟩
        plan' perform calling ctx') := by
  -- the story around starts and goes on, with a line more in the history
  let around := ctx'.mapHistory (·.startStory definition.qualified)
  have hStart : start definition definition.qualified ctx' = .goesOn around := by
    simp [start, hArguments, around]
  have hAround : ctx.Alike width width' around :=
    ⟨hCtx.width_eq, hCtx.width_eq', hCtx.entries_eq⟩
  have hInner := alike_start hAround tree.definition tree.definition.qualified
    (Scenes.label owner name tree.definition tree.owner)
  unfold StoryTree.tell
  rw [hStart, Course.andThen, scenes]
  refine (hInner.andThen fun _ _ hScenes => ?_).close_close
  have hSame : (⟨tree.definition, tree.owner, 1⟩ : Place).story =
      (⟨tree.definition, tree.owner, 0⟩ : Place).story := rfl
  exact alike_scenes hPlans hScenes hSame _ _ tree.scenes hMode hAnswers

end

end Tell

/-! ## Calls -/

/-- Nothing in a tree without a schema in its outermost story has one. -/
theorem Mounts.isNull_of_spec_eq_none {cast : Cast β} {tree : StoryTree β} {plan : Plan β}
    (h : Mounts cast tree plan) (hSpec : tree.definition.spec = none) :
    ∀ c ∈ plan.contracts, c.isNull = true := by
  intro c hc
  obtain ⟨story, hStory, hOf⟩ := exists_rel_of_mem h.contracts_of hc
  have hNone : ¬ story.spec.isSome = true := by
    rw [h.isSome_spec hStory, hSpec]
    simp
  rw [← hOf.isNull_eq_false_iff, Bool.not_eq_false] at hNone
  exact hNone

/-- A call of a story without schema is accepted as it is, if all its names are arguments. -/
theorem Contract.checkCall_of_isNull {c : Contract} (h : c.isNull = true) (values : Bindings) :
    c.checkCall values =
      match values.names.filter fun name => !c.argumentNames.contains name with
      | [] => .ok values
      | unknown => .error (.unknownArguments (sortNames unknown) c.story c.display) := by
  have hUnknown : (values.names.filter fun name => !c.sources.contains name) =
      values.names.filter fun name => !c.argumentNames.contains name := rfl
  unfold checkCall
  rw [hUnknown]
  cases values.names.filter fun name => !c.argumentNames.contains name with
  | nil => exact if_pos h
  | cons first rest => rfl

/-- Plans that take the same arguments begin alike. -/
theorem Plan.alike_initialContext {plan plan' : Plan β}
    (h : plan'.root.argumentNames = plan.root.argumentNames) (width width' : Nat)
    (values : Bindings) :
    (plan.initialContext width values).Alike width width' (plan'.initialContext width' values) := by
  rw [initialContext_eq, initialContext_eq, h]
  exact ⟨rfl, rfl, rfl⟩

/-- A function story is run by telling its tree, unless the arguments are rejected. -/
theorem Mounts.run_eq {cast : Cast β} {tree : StoryTree β} {m : Mounted β}
    (h : Mounts cast tree m.plan) (hMode : m.plan.mode = .function)
    (perform : β → Context → Reply) (calling : Calling) (arguments : Bindings) :
    (m.run perform calling arguments).result =
      match m.plan.root.checkCall arguments with
      | .error cause => .error (.contract cause)
      | .ok values =>
        let told := (tree.tell m.plan perform calling
          (m.plan.initialContext m.settings.reprWidth values)).result
        told.2.map (m.summary told.1) := by
  have hInvoke := Mounted.invoke_of_function hMode perform calling arguments
  unfold Plan.invoke at hInvoke
  cases hCheck : m.plan.root.checkCall arguments with
  | error cause =>
      rw [hCheck] at hInvoke
      rw [Mounted.run_of_error hInvoke]
  | ok values =>
      rw [hCheck] at hInvoke
      let start := m.plan.initialContext m.settings.reprWidth values
      have hLeads := h.leads_tell perform calling
        (r := { ctx := start, events := [.started m.plan.qualified start] }) rfl rfl
      have hTold := hLeads.result_eq
      rw [Mounted.run_of_ok hInvoke]
      dsimp only at hTold ⊢
      rw [hTold]

/-! ## Stories that only wrap -/

/-- A story adds nothing to a plan: it has no arguments, no schema and no vocabulary, and its only
step stands for the plan, or for a story that compiles to it. -/
structure Cast.Wraps (cast : Cast β) (definition : Story) (owner : OwnerId) (plan : Plan β) :
    Prop where
  arguments : definition.arguments = []
  spec : definition.spec = none
  failures : definition.failures = none
  only : ∃ name, definition.collected = [.step name] ∧
    (cast.member? owner name = some (.mounted plan) ∨
      ∃ story object, cast.member? owner name = some (.story (.ok story) object) ∧
        Plan.compile cast story object = .ok plan)

namespace Cast

theorem resolve_of_mounted {cast : Cast β} {definition : Story} {owner : OwnerId} {name : String}
    {plan : Plan β} (hCollected : definition.collected = [.step name])
    (hMember : cast.member? owner name = some (.mounted plan)) :
    cast.resolve definition owner = [.mounted name plan] := by
  simp [resolve, resolveWithin, hCollected, resolveAll, resolveEntry, hMember]

/-- A story that wraps another compiles to the same when the other was mounted before. -/
theorem Wraps.exists_mounted {cast : Cast β} {definition : Story} {owner : OwnerId}
    {plan : Plan β} (h : cast.Wraps definition owner plan)
    (hNot : NotRecursive (Plan.compile cast definition owner)) :
    ∃ (around : Cast β) (name : String), around.resolve definition owner = [.mounted name plan] ∧
      Plan.compile around definition owner = Plan.compile cast definition owner := by
  obtain ⟨name, hCollected, hMounted | ⟨story, object, hStory, hPlan⟩⟩ := h.only
  · exact ⟨cast, name, resolve_of_mounted hCollected hMounted, rfl⟩
  · obtain ⟨found, hFound, -⟩ := Option.bind_eq_some_iff.mp hStory
    have hMember : (cast.inject owner name plan).member? owner name = some (.mounted plan) := by
      rw [member?_inject hFound, if_pos ⟨rfl, rfl⟩]
    exact ⟨_, name, resolve_of_mounted hCollected hMember,
      (replaces_inject hStory hPlan).compile_eq hNot⟩

/-- A plan without schemas mounts in a story that adds nothing to it. -/
theorem exists_compile {cast : Cast β} {definition : Story} {owner : OwnerId} {name : String}
    {plan : Plan β} (hResolve : cast.resolve definition owner = [.mounted name plan])
    (hSpec : definition.spec = none) (hFailures : definition.failures = none)
    (hPlain : plan.root.spec = none) :
    ∃ whole, Plan.compile cast definition owner = .ok whole ∧ whole.mode = plan.mode ∧
      whole.failures = plan.failures := by
  let alone := Contract.plain definition.name definition.arguments
  have hContract : definition.contract = .ok alone := by
    rw [Story.contract, hSpec]
    rfl
  let d : Draft β :=
    { story := definition, owner, instructions := [.enter definition.qualified 0], root := alone,
      inner := [], failures := none, mode := none }
  have hStart : Draft.start definition owner = .ok d := by
    unfold Draft.start
    rw [hContract, hFailures]
  have hCombine : alone.combine plan.root = .ok (alone.shareSources plan.root) := by
    have hRelation : alone.schemaRelation plan.root = .null := by
      rw [Contract.schemaRelation, hPlain]
      rfl
    rw [Contract.combine, Contract.combination, hRelation]
    rfl
  let added := d.withPlan name plan (alone.shareSources plan.root).1
    (alone.shareSources plan.root).2 plan.failures
  have hAdd : d.addPlan name plan = .ok added := by
    unfold Draft.addPlan
    have hRoot : d.root.combine plan.root = .ok (alone.shareSources plan.root) := hCombine
    rw [hRoot]
    rfl
  refine ⟨added.finish, Plan.compile_eq_ok_iff.mpr ⟨d, added, hStart, ?_, rfl⟩, rfl, rfl⟩
  rw [hResolve]
  exact bind_eq_ok_iff.mpr ⟨added, hAdd, rfl⟩

/-- A story that wraps a plan without schemas mounts, with the tree of the plan as its only scene,
its mode and its vocabulary. -/
theorem Wraps.exists_mounts {cast cast' : Cast β} {definition : Story} {owner : OwnerId}
    {tree : StoryTree β} {plan : Plan β} (h : cast.Wraps definition owner plan)
    (hNot : NotRecursive (Plan.compile cast definition owner)) (hTree : Mounts cast' tree plan)
    (hSpec : tree.definition.spec = none) :
    ∃ whole, Plan.compile cast definition owner = .ok whole ∧
      (∃ (around : Cast β) (name : String), Mounts around
        ⟨definition, owner, .story name tree.definition tree.owner tree.scenes .done⟩ whole) ∧
      whole.mode = plan.mode ∧ whole.failures = plan.failures := by
  obtain ⟨around, name, hResolve, hSame⟩ := h.exists_mounted hNot
  have hPlain : plan.root.spec = none := by
    have hNull := hTree.isNull_of_spec_eq_none hSpec plan.root List.mem_cons_self
    exact Option.isNone_iff_eq_none.mp hNull
  obtain ⟨whole, hWhole, hModes⟩ := exists_compile hResolve h.spec h.failures hPlain
  have hUnfolds : Unfolds (around.resolve definition owner)
      (.story name tree.definition tree.owner tree.scenes .done) := by
    rw [hResolve]
    exact .mounted hTree.compiled hTree.unfolds .done
  exact ⟨whole, hSame.symm.trans hWhole, ⟨around, name, hWhole, hUnfolds⟩, hModes⟩

end Cast

section

variable {cast cast' : Cast β} {definition : Story} {owner : OwnerId} {tree : StoryTree β}
  {m wrapper : Mounted β}

/-- A story that wraps another has its arguments. -/
theorem Cast.Wraps.argumentNames_eq (h : cast.Wraps definition owner m.plan) {around : Cast β}
    {name : String} (hTree : Mounts cast' tree m.plan) (hAround : Mounts around
      ⟨definition, owner, .story name tree.definition tree.owner tree.scenes .done⟩ wrapper.plan) :
    wrapper.plan.root.argumentNames = m.plan.root.argumentNames := by
  refine Catalog.names_eq_of_mem_iff fun argument => ?_
  have hOuter : argument ∈ wrapper.plan.root.argumentNames ↔ _ := hAround.mem_argumentNames_iff
  have hInner : argument ∈ m.plan.root.argumentNames ↔ _ := hTree.mem_argumentNames_iff
  show argument ∈ wrapper.plan.root.argumentNames ↔ argument ∈ m.plan.root.argumentNames
  rw [hOuter, hInner]
  -- the wrapper itself has none
  simp [StoryTree.stories, Scenes.stories, h.arguments]

theorem Cast.Wraps.isLike (h : cast.Wraps definition owner m.plan) {around : Cast β}
    {name : String} (hTree : Mounts cast' tree m.plan) (hSpec : tree.definition.spec = none)
    (hMode : m.plan.mode = .function) (hAround : Mounts around
      ⟨definition, owner, .story name tree.definition tree.owner tree.scenes .done⟩ wrapper.plan)
    (hSame : wrapper.plan.mode = m.plan.mode ∧ wrapper.plan.failures = m.plan.failures) :
    m.plan.IsLike wrapper.plan where
  isNull := hTree.isNull_of_spec_eq_none hSpec
  isNull' := hAround.isNull_of_spec_eq_none h.spec
  function := hMode
  function' := hSame.1.trans hMode
  failures := by rw [hSame.2]

/-- **Nesting is transparent.** Let a story add nothing to a function story without schemas. It
mounts, unless it is found in itself. If the steps of the function story answer alike to contexts
which differ in their histories only, running the one and running the other come to summaries with
the same verdict and the same names, values and origins, or both end in errors that are alike. -/
theorem Mounts.run_alike (hTree : Mounts cast' tree m.plan) (hSpec : tree.definition.spec = none)
    (hMode : m.plan.mode = .function) (hWraps : cast.Wraps definition owner m.plan)
    (hNot : NotRecursive (Plan.compile cast definition owner)) :
    ∃ whole, Plan.compile cast definition owner = .ok whole ∧
      ∀ (wrapper : Mounted β), wrapper.plan = whole → ∀ (perform : β → Context → Reply),
      (∀ s ∈ tree.scenes.steps,
        s.AnswersAlike perform m.settings.reprWidth wrapper.settings.reprWidth) →
      ∀ calling arguments,
        (∃ summary summary', (m.run perform calling arguments).result = .ok summary ∧
            (wrapper.run perform calling arguments).result = .ok summary' ∧
            summary'.verdict = summary.verdict ∧
            summary'.ctx.entries = summary.ctx.entries) ∨
          ∃ cause cause', (m.run perform calling arguments).result = .error cause ∧
            (wrapper.run perform calling arguments).result = .error cause' ∧
            cause.Alike cause' ∧ cause'.kind = cause.kind := by
  obtain ⟨whole, hCompile, ⟨around, name, hAround⟩, hSame⟩ := hWraps.exists_mounts hNot hTree hSpec
  refine ⟨whole, hCompile, ?_⟩
  rintro wrapper rfl perform hAnswers calling arguments
  have hLike := hWraps.isLike hTree hSpec hMode hAround hSame
  have hNames := hWraps.argumentNames_eq hTree hAround
  rw [hTree.run_eq hMode, hAround.run_eq (hSame.1.trans hMode),
    Contract.checkCall_of_isNull (hLike.isNull _ List.mem_cons_self),
    Contract.checkCall_of_isNull (hLike.isNull' _ List.mem_cons_self), hNames]
  cases arguments.names.filter fun name => !m.plan.root.argumentNames.contains name with
  | cons first rest =>
      -- the same names are unknown to both
      exact .inr ⟨_, _, rfl, rfl, .unknownArguments, rfl⟩
  | nil =>
      have hFunctions : ∀ s ∈ tree.scenes.steps, s.mode = .function :=
        fun s hs => (hTree.mode_eq_of_mem_steps hs).trans hMode
      have hCtx := m.plan.alike_initialContext hNames m.settings.reprWidth
        wrapper.settings.reprWidth arguments
      have hTold := Tell.alike_tell hLike calling hCtx hFunctions hAnswers hWraps.arguments owner
        name
      dsimp only
      rcases hTold.result with ⟨ctx, ctx', ending, hEnd, hEnd', hLast⟩ |
        ⟨ctx, ctx', cause, cause', hEnd, hEnd', hCause⟩
      · rw [hEnd, hEnd']
        exact .inl ⟨_, _, rfl, rfl, rfl, hLast.entries_eq⟩
      · rw [hEnd, hEnd']
        exact .inr ⟨_, _, rfl, rfl, hCause, hCause.kind_eq⟩

end

/-! ## An example

Whoever looks into a mirror sees the frame around it. -/

namespace Mirror

/-- A body answers to the context that it sees. -/
abbrev Body := Context → Except StepError Outcome

def answer (body : Body) (ctx : Context) : Reply := { result := body ctx }

/-- A step that gives whether it is the first line of its story that is shown. -/
def look : Step Body where
  name := "look"
  owner := "Mirror"
  mode := .function
  body ctx := .ok (.result (.bool (ctx.history.texts == ["Mirror.glance", "  look"])))

/-- A step that gives the name of the guest. -/
def bow : Step Body where
  name := "bow"
  owner := "Mirror"
  mode := .function
  body ctx := match ctx.find? "guest" with
    | some guest => .ok (.result guest)
    | none => .error (.message "nobody is there")

def glance : Story where
  name := ⟨"Mirror", "glance"⟩
  arguments := []
  collected := [.step "look"]
  spec := none
  failures := none

def greet : Story where
  name := ⟨"Mirror", "greet"⟩
  arguments := ["guest"]
  collected := [.step "bow"]
  spec := none
  failures := none

/-- A story around another. -/
def framed (name : String) : Story where
  name := ⟨"Frame", "show"⟩
  arguments := []
  collected := [.step name]
  spec := none
  failures := none

def cast : Cast Body :=
  .ofList [
    ("mirror", { className := "Mirror", members := .ofList [("look", .step look),
      ("bow", .step bow)] }),
    ("frame", { className := "Frame", members := .ofList [
      ("glance", .story (.ok glance) "mirror"), ("greet", .story (.ok greet) "mirror")] })]

def glancing : Mounted Body := { plan := (Plan.compile cast glance "mirror").toOption.get rfl }

def greeting : Mounted Body := { plan := (Plan.compile cast greet "mirror").toOption.get rfl }

def framedGlance : Mounted Body :=
  { plan := (Plan.compile cast (framed "glance") "frame").toOption.get rfl }

def framedGreeting : Mounted Body :=
  { plan := (Plan.compile cast (framed "greet") "frame").toOption.get rfl }

theorem wraps_glance : cast.Wraps (framed "glance") "frame" glancing.plan where
  arguments := rfl
  spec := rfl
  failures := rfl
  only := ⟨"glance", rfl, .inr ⟨glance, "mirror", rfl, rfl⟩⟩

/-- Who looks at the history sees whether there is a story around. -/
theorem shows_frame :
    Mounts cast ⟨glance, "mirror", .step look .done⟩ glancing.plan ∧ glance.spec = none ∧
      glancing.plan.mode = .function ∧ cast.Wraps (framed "glance") "frame" glancing.plan ∧
      Plan.compile cast (framed "glance") "frame" = .ok framedGlance.plan ∧
      ∃ summary summary', (glancing.run answer .blocking .empty).result = .ok summary ∧
        (framedGlance.run answer .blocking .empty).result = .ok summary' ∧
        summary.verdict = .success (.bool true) ∧ summary'.verdict = .success (.bool false) :=
  ⟨⟨rfl, .step .done⟩, rfl, rfl, wraps_glance, rfl, _, _, rfl, rfl, rfl, rfl⟩

/-- A guest is greeted alike within a frame. -/
theorem greeted : ∃ summary',
    (framedGreeting.run answer .blocking (.ofList [("guest", .string "Ann")])).result =
        .ok summary' ∧
      summary'.verdict = .success (.string "Ann") ∧ summary'.ctx.names = ["guest"] := by
  have hMounts : Mounts cast ⟨greet, "mirror", .step bow .done⟩ greeting.plan :=
    ⟨rfl, .step .done⟩
  have hWraps : cast.Wraps (framed "greet") "frame" greeting.plan :=
    ⟨rfl, rfl, rfl, "greet", rfl, .inr ⟨greet, "mirror", rfl, rfl⟩⟩
  have hCompile : Plan.compile cast (framed "greet") "frame" = .ok framedGreeting.plan := rfl
  obtain ⟨whole, hWhole, hAlike⟩ := hMounts.run_alike rfl rfl hWraps fun story step hError => by
    cases hCompile.symm.trans hError
  obtain rfl : framedGreeting.plan = whole := Except.ok.inj (hCompile.symm.trans hWhole)
  -- the name of the guest is looked up among the entries
  have hAnswers : ∀ s ∈ (Scenes.step bow .done).steps, s.AnswersAlike answer 88 88 := by
    intro s hs ctx ctx' hCtx
    obtain rfl := List.mem_singleton.mp hs
    have hFind : ctx'.find? "guest" = ctx.find? "guest" := by
      rw [Context.find?, Context.find?, hCtx.entries_eq]
    simp only [answer, bow, hFind]
    cases ctx.find? "guest" with
    | none => exact .error rfl
    | some guest => exact .outcome _
  have hRun : ∃ summary,
      (greeting.run answer .blocking (.ofList [("guest", .string "Ann")])).result = .ok summary ∧
        summary.verdict = .success (.string "Ann") ∧ summary.ctx.names = ["guest"] :=
    ⟨_, rfl, rfl, rfl⟩
  obtain ⟨expected, hExpected, hVerdict, hNames⟩ := hRun
  rcases hAlike framedGreeting rfl answer hAnswers .blocking (.ofList [("guest", .string "Ann")])
    with ⟨summary, summary', hOk, hOk', hSame, hEntries⟩ | ⟨cause, -, hError, -⟩
  · obtain rfl := Except.ok.inj (hExpected.symm.trans hOk)
    refine ⟨summary', hOk', hSame.trans hVerdict, ?_⟩
    rw [Context.names, hEntries]
    exact hNames
  · cases hExpected.symm.trans hError

end Mirror

end Storyline
