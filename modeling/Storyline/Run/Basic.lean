import Storyline.Contract.Check
import Storyline.Run.Event
import Storyline.Run.Group

/-!
# Running a plan

A run goes through the instructions of a plan once, forwards. `depth` counts the open stories.
When a step leaves its story early, nothing is executed until that story is closed: `skipped`
counts the stories still to be closed, and only `enter` and `leave` are noted.

What steps answer is judged here: the values of a success are checked and kept, a failure is
held against the protocol, and an error is marked in the history and handed on as it is.
-/

set_option autoImplicit false

namespace Storyline

/-- How a run ends if no error stops it. -/
inductive Ending where
  /-- A step reported a failure. -/
  | failure (step : String) (reason : Option Reason)
  /-- A step gave the result. -/
  | result (value : Json)
  /-- All instructions were executed. -/
  | finished

/-- Whether the caller blocks until a story has run, or waits for it; only who waits can run
coroutines. -/
inductive Calling where
  | blocking
  | waiting
  deriving DecidableEq, Repr

/-- The state of a run. -/
structure Run where
  ctx : Context
  /-- The number of stories to be closed before execution goes on; zero while it does. -/
  skipped : Nat := 0
  /-- The number of open stories. -/
  depth : Nat := 0
  events : List Event := []

/-- Whether a run goes on after an instruction. -/
inductive Flow where
  | next
  | stop (ending : Except StoryError Ending)

namespace Run

variable {β : Type}

/-- Record an event. -/
def emit (event : Event) (r : Run) : Run := { r with events := r.events ++ [event] }

/-- Change the history. -/
def mapHistory (f : History → History) (r : Run) : Run := { r with ctx := r.ctx.mapHistory f }

/-- Stop with an error, which is marked in the history. -/
def err (error : StoryError) (r : Run) : Run × Flow :=
  ((r.mapHistory (·.mark (.errored error.kind))).emit (.erred error), .stop (.error error))

/-! ## Stories -/

/-- Note an instruction that is not executed. -/
def passOver (r : Run) : Instruction β → Run
  | .enter _ _ => { r with skipped := r.skipped + 1 }
  | .leave =>
    { r with skipped := r.skipped - 1, depth := if r.skipped = 1 then r.depth - 1 else r.depth }
  | _ => r

/-- Enter a story; its arguments have to be in the context. -/
def enter (plan : Plan β) (label : String) (contract : Nat) (r : Run) : Run × Flow :=
  let r := { r.mapHistory (·.startStory label) with depth := r.depth + 1 }
  let r := r.emit (.entered label r.depth)
  match plan.contracts[contract]? with
  | none => (r, .next)
  | some c =>
    match c.checkStart r.ctx with
    | .ok () => (r, .next)
    | .error cause => r.err (.contract cause)

/-- Leave the innermost story at its end. -/
def leave (r : Run) : Run × Flow :=
  let r := (r.emit (.left r.depth)).mapHistory History.endStory
  ({ r with depth := r.depth - 1 }, .next)

/-- Leave the innermost story early. -/
def skip (r : Run) : Run × Flow :=
  ({ r.mapHistory History.skip with skipped := 1 }, .next)

/-! ## Outcomes -/

/-- Check and keep the values of a success. -/
def commit (plan : Plan β) (s : Step β) (contract : Nat) (values : Bindings) (r : Run) :
    Run × Flow :=
  match plan.contracts[contract]? with
  | none => ({ r with ctx := r.ctx.extend s.qualified values }, .next)
  | some c =>
    match c.checkOutput s.qualified r.ctx values with
    | .ok kept => ({ r with ctx := r.ctx.extend s.qualified kept }, .next)
    | .error cause => r.err (.contract cause)

/-- Check and keep the values of all steps of a group, one step after the other. -/
def commitAll (plan : Plan β) (contract : Nat) : List (Step β × Bindings) → Run → Run × Flow
  | [], r => (r, .next)
  | (s, values) :: rest, r =>
    match r.commit plan s contract values with
    | (r, .next) => commitAll plan contract rest r
    | (r, .stop ending) => (r, .stop ending)

/-- End with a failure, if the protocol allows it. -/
def fail (s : Step β) (protocol : StepProtocol) (reason : Option Reason) (r : Run) :
    Run × Flow :=
  match protocol.checkReturn s.qualified reason with
  | .error cause => r.err (.protocol cause)
  | .ok () =>
    let r := r.mapHistory (·.mark (.failed (reason.map Reason.display)))
    (r.emit (.failed s.qualified reason), .stop (.ok (.failure s.name reason)))

/-- End with a result. -/
def conclude (value : Json) (r : Run) : Run × Flow :=
  (r.mapHistory (·.mark (.returned value.text)), .stop (.ok (.result value)))

/-- Whether a step may answer with an outcome in a story of a mode. -/
def isAllowed (mode : Mode) : Outcome → Bool
  | .next _ => mode == .coroutine
  | _ => true

/-- Judge the answer of a single step. -/
def judge (plan : Plan β) (s : Step β) (contract : Nat) (protocol : StepProtocol)
    (result : Except StepError Outcome) (r : Run) : Run × Flow :=
  match result with
  | .error cause => r.err (.step cause)
  | .ok outcome =>
    let r := r.emit (.answered s.qualified outcome)
    if !isAllowed plan.mode outcome then
      r.err (.definition (.unexpectedOutcome s.qualified outcome))
    else match outcome with
      | .success values => r.commit plan s contract values
      | .failure reason => r.fail s protocol reason
      | .result value => r.conclude value
      | .skip => r.skip
      | .next none => r.skip
      | .next (some value) => if r.depth ≤ 1 then r.conclude value else r.skip

/-- The outcomes of a group, or the error of the first step that raised one or answered with an
outcome it may not use. -/
def outcomes (mode : Mode) :
    List (Step β × Except StepError Outcome) → Except StoryError (List (Step β × Outcome))
  | [] => .ok []
  | (_, .error cause) :: _ => .error (.step cause)
  | (s, .ok outcome) :: rest =>
    if !isAllowed mode outcome then
      .error (.definition (.unexpectedOutcome s.qualified outcome))
    else match outcomes mode rest with
      | .error cause => .error cause
      | .ok answers => .ok ((s, outcome) :: answers)

/-- Judge the answers of a group. -/
def judgeGroup (plan : Plan β) (contract : Nat) (protocol : StepProtocol)
    (results : List (Step β × Except StepError Outcome)) (r : Run) : Run × Flow :=
  match outcomes plan.mode results with
  | .error cause => r.err cause
  | .ok answers =>
    match GroupResult.ofAnswers answers with
    | .success branches => r.commitAll plan contract branches
    | .failure s reason => r.fail s protocol reason
    | .result value => r.conclude value

/-! ## Steps -/

/-- What running a step comes to; nothing for a coroutine if the caller blocks. -/
def reply? (perform : β → Context → Reply) (calling : Calling) (ctx : Context) (s : Step β) :
    Option Reply :=
  match calling, s.mode with
  | .blocking, .coroutine => none
  | _, _ => some (perform s.body ctx)

/-- What running a step of a group comes to; an error for a coroutine if the caller blocks. -/
def branchReply (perform : β → Context → Reply) (calling : Calling) (ctx : Context)
    (s : Step β) : Reply :=
  (reply? perform calling ctx s).getD
    { result := .error (.other "DefinitionError"
        (DefinitionError.coroutineStory s.qualified).message) }

/-- Run a step. -/
def runStep (plan : Plan β) (perform : β → Context → Reply) (calling : Calling) (s : Step β)
    (contract : Nat) (protocol : StepProtocol) (r : Run) : Run × Flow :=
  let r := r.mapHistory (·.enter s.name)
  let r := r.emit (.invoked s.qualified r.ctx)
  match reply? perform calling r.ctx s with
  | none => (r, .stop (.error (.definition (.coroutineStory plan.qualified))))
  | some reply =>
    { r with events := r.events ++ reply.events }.judge plan s contract protocol reply.result

/-- Run a group of steps. For either caller the steps see the same context and their answers come in
the order of the steps; it differs only how their bodies are invoked, which `branchReply` says. -/
def runGroup (plan : Plan β) (perform : β → Context → Reply) (calling : Calling)
    (steps : List (Step β)) (contract : Nat) (protocol : StepProtocol) (r : Run) : Run × Flow :=
  let r := r.mapHistory (·.enter (Instruction.groupName steps))
  let invoked := steps.map fun s => Event.invoked s.qualified r.ctx
  let replies := steps.map fun s => (s, branchReply perform calling r.ctx s)
  let called := (replies.map fun (_, reply) => reply.events).flatten
  let results := replies.map fun (s, reply) => (s, reply.result)
  { r with events := r.events ++ invoked ++ called }.judgeGroup plan contract protocol results

/-! ## Runs -/

/-- Execute an instruction, or note it while stories are being skipped. -/
def execute (plan : Plan β) (perform : β → Context → Reply) (calling : Calling)
    (i : Instruction β) (r : Run) : Run × Flow :=
  if r.skipped ≠ 0 then (r.passOver i, .next)
  else match i with
    | .enter label contract => r.enter plan label contract
    | .leave => r.leave
    | .step s contract protocol => r.runStep plan perform calling s contract protocol
    | .parallel steps contract protocol =>
      r.runGroup plan perform calling steps contract protocol

/-- Execute instructions until the run stops. For a caller who blocks and for one who waits this
differs only in how the body of a step is invoked, which `reply?` says. -/
def drive (plan : Plan β) (perform : β → Context → Reply) (calling : Calling) :
    List (Instruction β) → Run → Run × Except StoryError Ending
  | [], r => (r, .ok .finished)
  | i :: rest, r =>
    match r.execute plan perform calling i with
    | (r, .next) => drive plan perform calling rest r
    | (r, .stop ending) => (r, ending)

end Run

/-- What an invocation came to. -/
structure Invocation where
  ctx : Context
  ending : Except StoryError Ending
  events : List Event

namespace Plan

variable {β : Type}

/-- The context made of accepted arguments, in alphabetic order. -/
def initialContext (plan : Plan β) (width : Nat) (values : Bindings) : Context :=
  plan.root.argumentNames.foldl
    (fun ctx name => match values.find? name with
      | some value => ctx.addArgument name value
      | none => ctx)
    (Context.empty width)

/-- Check the arguments of a call and run the plan. -/
def invoke (plan : Plan β) (perform : β → Context → Reply) (calling : Calling) (width : Nat)
    (arguments : Bindings) : Except ContractError Invocation :=
  match plan.root.checkCall arguments with
  | .error cause => .error cause
  | .ok values =>
    let ctx := plan.initialContext width values
    let (r, ending) := Run.drive plan perform calling plan.instructions
      { ctx := ctx, events := [.started plan.qualified ctx] }
    .ok
      { ctx := r.ctx
        ending := ending
        events := r.events ++ [.finished plan.qualified r.ctx] }

end Plan

end Storyline
