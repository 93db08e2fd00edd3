import Storyline.Mounted
import Storyline.Proofs.Score

/-!
# Telling trees

A run executes a flat list of instructions and knows of nesting only by two counters. Telling a
tree (`StoryTree.invoke`) recurses on the tree instead: a story that is left early is closed, and
telling goes on with the next scene of the story around it. There are no counters.

Values are checked and failures judged as in a run, each step by the contract and the vocabulary
of the story it stands in.
-/

set_option autoImplicit false

namespace Storyline

variable {β : Type}

/-! ## Telling -/

/-- What a scene comes to when it is told. -/
inductive Course where
  /-- Telling goes on with the next scene. -/
  | goesOn (ctx : Context)
  /-- The innermost story was left early, and is closed already. -/
  | left (ctx : Context)
  /-- The run has ended. -/
  | ended (ctx : Context) (ending : Except StoryError Ending)

namespace Course

/-- Go on with what comes next in the same story, unless it was left. -/
def andThen : Course → (Context → Course) → Course
  | goesOn ctx, next => next ctx
  | course, _ => course

/-- Close the story that was told: at its end, unless it was left early. The story around it goes
on in both cases. -/
def close : Course → Course
  | goesOn ctx => goesOn (ctx.mapHistory History.endStory)
  | left ctx => goesOn ctx
  | course => course

/-- An error ends the run, marked in the history. -/
def broken (error : StoryError) (ctx : Context) : Course :=
  ended (ctx.mapHistory (·.mark (.errored error.kind))) (.error error)

/-- The context and the end of a run, all scenes of which were told this way. -/
def result : Course → Context × Except StoryError Ending
  | goesOn ctx => (ctx, .ok .finished)
  | left ctx => (ctx, .ok .finished)
  | ended ctx ending => (ctx, ending)

end Course

namespace Tell

variable (plan : Plan β) (perform : β → Context → Reply) (calling : Calling)

/-- Start a story; its own arguments have to be in the context. -/
def start (definition : Story) (label : String) (ctx : Context) : Course :=
  let ctx := ctx.mapHistory (·.startStory label)
  match definition.arguments.filter fun name => !ctx.contains name with
  | [] => .goesOn ctx
  | missed =>
    .broken (.contract
      (.missingVariables (sortNames missed) definition.name definition.arguments ctx.display)) ctx

/-- Check the values of a success against the contract of the story, and keep them. -/
def keep (p : Place) (s : Step β) (values : Bindings) (ctx : Context) : Course :=
  match (plan.contracts.getD p.number plan.root).checkOutput s.qualified ctx values with
  | .ok kept => .goesOn (ctx.extend s.qualified kept)
  | .error cause => .broken (.contract cause) ctx

/-- Keep the values of all steps of a group, one step after the other. -/
def keepAll (p : Place) : List (Step β × Bindings) → Context → Course
  | [], ctx => .goesOn ctx
  | (s, values) :: rest, ctx => (keep plan p s values ctx).andThen (keepAll p rest)

/-- End the run with a failure, if the vocabulary of the story allows it; a story without one
allows none within a composition that has one. -/
def fail (p : Place) (s : Step β) (reason : Option Reason) (ctx : Context) : Course :=
  match (StepProtocol.within plan.failures.isSome p.story.failures).checkReturn s.qualified
      reason with
  | .error cause => .broken (.protocol cause) ctx
  | .ok () =>
    .ended (ctx.mapHistory (·.mark (.failed (reason.map Reason.display))))
      (.ok (.failure s.name reason))

/-- End the run with a result. -/
def conclude (value : Json) (ctx : Context) : Course :=
  .ended (ctx.mapHistory (·.mark (.returned value.text))) (.ok (.result value))

/-- Leave the innermost story early. -/
def leave (ctx : Context) : Course := .left (ctx.mapHistory History.skip)

/-- What the answer of a single step comes to. -/
def judge (p : Place) (s : Step β) (ctx : Context) : Except StepError Outcome → Course
  | .error cause => .broken (.step cause) ctx
  | .ok (.success values) => keep plan p s values ctx
  | .ok (.failure reason) => fail plan p s reason ctx
  | .ok (.result value) => conclude value ctx
  | .ok .skip => leave ctx
  | .ok (.next value) =>
    match plan.mode, value with
    | .function, _ =>
      .broken (.definition (.unexpectedOutcome s.qualified (.next value))) ctx
    | .coroutine, none => leave ctx
    | .coroutine, some value => if p.number = 0 then conclude value ctx else leave ctx

/-- Tell a step. -/
def step (p : Place) (s : Step β) (ctx : Context) : Course :=
  let ctx := ctx.mapHistory (·.enter s.name)
  match Run.reply? perform calling ctx s with
  | none => .ended ctx (.error (.definition (.coroutineStory plan.qualified)))
  | some reply => judge plan p s ctx reply.result

/-- What the answers of a group come to. -/
def judgeGroup (p : Place) (results : List (Step β × Except StepError Outcome)) (ctx : Context) :
    Course :=
  match Run.outcomes plan.mode results with
  | .error cause => .broken cause ctx
  | .ok answers =>
    match GroupResult.ofAnswers answers with
    | .success branches => keepAll plan p branches ctx
    | .failure s reason => fail plan p s reason ctx
    | .result value => conclude value ctx

/-- Tell a group: its steps all see the same context. -/
def group (p : Place) (steps : List (Step β)) (ctx : Context) : Course :=
  let ctx := ctx.mapHistory (·.enter (Instruction.groupName steps))
  judgeGroup plan p (steps.map fun s => (s, (Run.branchReply perform calling ctx s).result)) ctx

/-- Tell scenes in order; `next` is the number of the next substory. -/
def scenes (p : Place) (next : Nat) : Scenes β → Context → Course
  | .done, ctx => .goesOn ctx
  | .step s rest, ctx => (step plan perform calling p s ctx).andThen (scenes p next rest)
  | .parallel steps rest, ctx =>
    (group plan perform calling p steps ctx).andThen (scenes p next rest)
  | .story name definition owner inner rest, ctx =>
    ((start definition (Scenes.label p.owner name definition owner) ctx).andThen
        (scenes ⟨definition, owner, next⟩ (next + 1) inner)).close.andThen
      (scenes p (next + 1 + inner.stories.length) rest)

end Tell

namespace StoryTree

/-- Tell a tree, from its outermost story on. -/
def tell (tree : StoryTree β) (plan : Plan β) (perform : β → Context → Reply)
    (calling : Calling) (ctx : Context) : Course :=
  ((Tell.start tree.definition tree.definition.qualified ctx).andThen
    (Tell.scenes plan perform calling ⟨tree.definition, tree.owner, 0⟩ 1 tree.scenes)).close

/-- Check the arguments of a call and tell the tree. -/
def invoke (tree : StoryTree β) (plan : Plan β) (perform : β → Context → Reply)
    (calling : Calling) (width : Nat) (arguments : Bindings) :
    Except ContractError (Context × Except StoryError Ending) :=
  (plan.root.checkCall arguments).map fun values =>
    (tree.tell plan perform calling (plan.initialContext width values)).result

end StoryTree

end Storyline
