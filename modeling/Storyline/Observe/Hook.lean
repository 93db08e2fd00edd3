import Storyline.Run.Event

/-!
# Hooks of observers

Observers are told of some events of an invocation: that its context was made, that a step is
about to run, that a failure was reported, and that the invocation has ended.
-/

set_option autoImplicit false

namespace Storyline

/-- What an observer is told. -/
inductive Hook where
  | contextCreated (story : String) (ctx : Context)
  | stepInvoked (step : String) (ctx : Context)
  | failureRaised (step : String) (reason : Option Reason)
  | finished (story : String) (ctx : Context)

namespace Hook

/-- The name of the hook. -/
def name : Hook → String
  | contextCreated _ _ => "context_created"
  | stepInvoked _ _ => "step_invoked"
  | failureRaised _ _ => "failure_raised"
  | finished _ _ => "finished"

/-- The story or step that the hook is about. -/
def subject : Hook → String
  | contextCreated story _ => story
  | stepInvoked step _ => step
  | failureRaised step _ => step
  | finished story _ => story

/-- What is shown of the context, or of the reason of a failure if it has one. -/
def detail : Hook → Option String
  | contextCreated _ ctx => some ctx.display
  | stepInvoked _ ctx => some ctx.display
  | failureRaised _ reason => reason.map Reason.display
  | finished _ ctx => some ctx.display

/-- What observers are told of an event. -/
def ofEvent? : Event → Option Hook
  | .started story ctx => some (contextCreated story ctx)
  | .invoked step ctx => some (stepInvoked step ctx)
  | .failed step reason => some (failureRaised step reason)
  | .finished story ctx => some (finished story ctx)
  | _ => none

/-- What the observers of an invocation are told of its events. -/
def ofEvents (events : List Event) : List Hook := events.filterMap ofEvent?

end Hook

/-- What one observer is told, with the number of the invocation it is told of. -/
structure Notice where
  invocation : Nat
  hook : Hook

namespace Notice

/-- How often an observer is registered, so often it is told. -/
def toldTimes (observer : ObserverId) (observers : List ObserverId) : Nat :=
  (observers.filter (· == observer)).length

/-- The notices of one event to an observer of its invocation. -/
def ofEvent (observer : ObserverId) (observers : List ObserverId) (invocation : Nat)
    (event : Event) : List Notice :=
  match Hook.ofEvent? event with
  | none => []
  | some hook => List.replicate (toldTimes observer observers) ⟨invocation, hook⟩

mutual

/-- What an observer is told in an invocation, those made by its steps included. Invocations
take their number when the observer first hears of them; `next` is the next number. -/
def ofEvents (observer : ObserverId) (observers : List ObserverId) (invocation next : Nat) :
    List Event → List Notice × Nat
  | [] => ([], next)
  | event :: rest =>
    let (before, next) := inCalled observer next event
    let (after, next) := ofEvents observer observers invocation next rest
    (ofEvent observer observers invocation event ++ before ++ after, next)

/-- What an observer is told in the invocation that an event stands for, if it is one. -/
def inCalled (observer : ObserverId) (next : Nat) : Event → List Notice × Nat
  | .called observers events =>
    if toldTimes observer observers = 0 || events.isEmpty then
      ofEvents observer observers next next events
    else ofEvents observer observers next (next + 1) events
  | _ => ([], next)

end

/-- What an observer is told in a whole invocation. -/
def ofInvocation (observer : ObserverId) (observers : List ObserverId) (next : Nat)
    (events : List Event) : List Notice × Nat :=
  inCalled observer next (.called observers events)

end Notice

end Storyline
