import Storyline.Plan.Assemble
import Storyline.Run.Summary
import Storyline.Settings

/-!
# Mounted stories

A mounted story is a plan with its settings and observers, ready to be invoked any number of
times: `call` gives the value of the story, `run` a summary. Invocations share nothing.
-/

set_option autoImplicit false

namespace Storyline

/-- A plan with its settings and observers. -/
structure Mounted (β : Type) where
  plan : Plan β
  settings : Settings := {}
  observers : List ObserverId := []

/-- What an entry point gives: a result or an error, and the events of the invocation. A call
that is rejected has no events. -/
structure Answer (α : Type) where
  result : Except StoryError α
  events : List Event

namespace Story

variable {β : Type}

/-- Mount a story on an object. -/
def mount (s : Story) (cast : Cast β) (owner : OwnerId) (settings : Settings) :
    Except StoryError (Mounted β) := do
  return { plan := ← Plan.compile cast s owner, settings }

end Story

namespace Mounted

variable {β : Type}

/-- Register an observer, after those registered before. -/
def withObserver (m : Mounted β) (observer : ObserverId) : Mounted β :=
  { m with observers := m.observers ++ [observer] }

/-- Invoke the story. A caller that blocks can not invoke a coroutine story. -/
def invoke (m : Mounted β) (perform : β → Context → Reply) (calling : Calling)
    (arguments : Bindings) : Except StoryError Invocation :=
  match calling, m.plan.mode with
  | .blocking, .coroutine => .error (.definition (.coroutineStory m.plan.qualified))
  | _, _ =>
    (m.plan.invoke perform calling m.settings.reprWidth arguments).mapError .contract

/-- Invoke the story and give what its end comes to. -/
def answer {α : Type} (m : Mounted β) (perform : β → Context → Reply) (calling : Calling)
    (arguments : Bindings) (finish : Context → Ending → Except StoryError α) : Answer α :=
  match m.invoke perform calling arguments with
  | .error cause => { result := .error cause, events := [] }
  | .ok invocation =>
    { result := invocation.ending.bind (finish invocation.ctx), events := invocation.events }

/-- Invoke the story for its value; a failure is an error. -/
def call (m : Mounted β) (perform : β → Context → Reply) (calling : Calling)
    (arguments : Bindings) : Answer Json :=
  m.answer perform calling arguments fun _ ending => ending.value

/-- The summary of an invocation that ended without error. -/
def summary (m : Mounted β) (ctx : Context) (ending : Ending) : Summary where
  protocol := { story := m.plan.qualified, failures := m.plan.failures }
  ctx := ctx
  verdict := ending.verdict

/-- Invoke the story for a summary. -/
def run (m : Mounted β) (perform : β → Context → Reply) (calling : Calling)
    (arguments : Bindings) : Answer Summary :=
  m.answer perform calling arguments fun ctx ending => .ok (m.summary ctx ending)

/-- The developer's view of a mounted story. -/
def inspect (m : Mounted β) : String :=
  Inspect.record "Mounted"
    [("story", quoted m.plan.qualified), ("mode", m.plan.mode.inspect),
      ("instructions", toString m.plan.instructions.length),
      ("settings", m.settings.inspect), ("observers", toString m.observers.length)]

end Mounted

end Storyline
