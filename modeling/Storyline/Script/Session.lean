import Storyline.Observe.Record
import Storyline.Observe.Trace
import Storyline.Script.Body
import Storyline.Story.Builder

/-!
# Sessions

A session holds stories, objects and observers that are described by data, and carries out
operations on them one by one: it builds and changes stories, mounts them, invokes what is
mounted, and shows what observers were told.
-/

set_option autoImplicit false

namespace Storyline.Script

/-- A member of an object, as it is described. -/
inductive MemberScript where
  | step (name : String) (mode : Mode) (body : Body)
  /-- The story declared under an id, resolved on an object. -/
  | story (story owner : String)
  /-- The story mounted under an id at the moment. -/
  | mounted (id : String)

/-- An object, as it is described. -/
structure OwnerScript where
  className : String
  members : Named MemberScript

/-- What an observer has noted since it was last read, and the number its next invocation
takes. -/
structure Log where
  notices : List Notice := []
  next : Nat := 0

/-- The state of a session. -/
structure Session where
  specs : Named Spec
  /-- The declarations of stories; a story is built anew whenever it is used. -/
  declared : Named Story.Builder
  /-- Stories that were built and kept, which count before the declarations. -/
  kept : Named Story := .empty
  owners : Named OwnerScript
  mounted : Named (Mounted Body) := .empty
  recorders : Named (List Finished)
  logs : Named Log

/-- An operation of a session. -/
inductive Operation where
  | build (story : String)
  | inspectStory (story : String)
  | withContract (story spec target : String)
  | withFailures (story : String) (failures : Failures) (target : String)
  | contractIn (spec : String) (stories : List String)
  | failuresIn (failures : Failures) (stories : List String)
  | mount (story owner target : String) (settings : Except String Settings)
  | observe (mounted observer target : String)
  | call (calling : Calling) (mounted : String) (arguments : Bindings)
  | run (calling : Calling) (mounted : String) (arguments : Bindings) (failedOn : List String)
      (failedBecause : List Reason)
  | inspectMounted (mounted : String)
  | records (observer : String)
  | clear (observer : String)
  | log (observer : String)

/-- What an operation gives. -/
inductive Result where
  | story (s : Story)
  | stories (list : List Story)
  | inspectedStory (s : Story)
  | mounted (m : Mounted Body)
  | inspectedMounted (m : Mounted Body)
  | value (v : Json)
  /-- A summary, and its answers to the questions where and why the story failed. -/
  | summary (s : Summary) (failedOn : List Bool)
      (failedBecause : List (Except ProtocolError Bool))
  | records (list : List Finished)
  | cleared (size : Nat)
  | log (notices : List Notice)
  | error (cause : StoryError)
  | badSettings (message : String)
  /-- There is no mounted story under this id. -/
  | notMounted
  /-- The operation names something that the session does not have. -/
  | unknown

/-- What an operation gives, with the trace of what happened in it. -/
structure Response where
  result : Result
  trace : List TraceMessage := []

namespace Session

/-! ## Stories and objects -/

/-- The story under an id. -/
def story? (s : Session) (id : String) : Option (Except StoryError Story) :=
  match s.kept.find? id with
  | some story => some (.ok story)
  | none => (s.declared.find? id).map Story.Builder.build

/-- Keep a story under an id. -/
def keep (s : Session) (id : String) (story : Story) : Session :=
  { s with kept := s.kept.insert id story }

/-- Keep stories under their ids. -/
def keepAll (s : Session) (stories : List (String × Story)) : Session :=
  stories.foldl (fun s (id, story) => s.keep id story) s

/-- What a described member stands for at the moment, if it stands for anything. -/
def member? (s : Session) : MemberScript → Option (Member Body)
  | .step name mode body => some (.step { name, owner := "", mode, body })
  | .story story owner => (s.story? story).map fun definition => .story definition owner
  | .mounted id => (s.mounted.find? id).map fun m => .mounted m.plan

/-- The objects as they are at the moment. -/
def cast (s : Session) : Cast Body :=
  s.owners.mapValues fun owner =>
    { className := owner.className
      members := .ofList (owner.members.entries.filterMap fun (name, member) =>
        (s.member? member).map fun member => (name, member)) }

/-- The stories under some ids, or the error of the first that can not be built. -/
def stories? (s : Session) : List String → Option (Except StoryError (List Story))
  | [] => some (.ok [])
  | id :: rest => do
    let first ← s.story? id
    let others ← s.stories? rest
    some do return (← first) :: (← others)

/-! ## Observers -/

/-- Tell the observers of an invocation of its events, and those of the invocations in it. -/
def tell (s : Session) (observers : List ObserverId) (events : List Event) : Session :=
  { s with
    recorders := .ofList (s.recorders.entries.map fun (id, finished) =>
      let (notices, _) := Notice.ofInvocation id observers 0 events
      (id, finished ++ notices.filterMap fun n => Finished.ofHook? n.hook))
    logs := .ofList (s.logs.entries.map fun (id, log) =>
      let (notices, next) := Notice.ofInvocation id observers log.next events
      (id, { notices := log.notices ++ notices, next })) }

/-! ## Operations -/

/-- The response to an operation that gives a result or an error. -/
def respond {α : Type} (s : Session) (answer : Except StoryError α)
    (use : α → Session × Result) : Session × Response :=
  match answer with
  | .error cause => (s, { result := .error cause })
  | .ok a =>
    let (s, result) := use a
    (s, { result })

/-- The response to an operation that names something unknown. -/
def notKnown (s : Session) : Session × Response := (s, { result := .unknown })

/-- Carry out an operation on a mounted story. -/
def withMounted (s : Session) (id : String) (use : Mounted Body → Session × Response) :
    Session × Response :=
  match s.mounted.find? id with
  | none => (s, { result := .notMounted })
  | some m => use m

/-- Invoke a mounted story: tell the observers, and respond with the trace. -/
def withAnswer {α : Type} (s : Session) (m : Mounted Body) (answer : Answer α)
    (use : α → Result) : Session × Response :=
  let result := match answer.result with
    | .error cause => .error cause
    | .ok a => use a
  (s.tell m.observers answer.events, { result, trace := TraceMessage.ofEvents answer.events })

/-- Mount a story on an object and keep it mounted under an id. -/
def mount (s : Session) (story owner target : String) (settings : Settings) :
    Session × Response :=
  match s.story? story with
  | none => s.notKnown
  | some (.error cause) => (s, { result := .error cause })
  | some (.ok story) =>
    if !s.owners.contains owner then s.notKnown
    else
      let conflicts := (Plan.compileConflicts s.cast story owner).map TraceMessage.ofConflict
      match story.mount s.cast owner settings with
      | .error cause => (s, { result := .error cause, trace := conflicts })
      | .ok m =>
        ({ s with mounted := s.mounted.insert target m },
          { result := .mounted m, trace := conflicts ++ [TraceMessage.ofPlan m.plan] })

/-- Carry out an operation. -/
def perform (s : Session) : Operation → Session × Response
  | .build story =>
    match s.story? story with
    | none => s.notKnown
    | some answer => s.respond answer fun story => (s, .story story)
  | .inspectStory story =>
    match s.story? story with
    | none => s.notKnown
    | some answer => s.respond answer fun story => (s, .inspectedStory story)
  | .withContract story spec target =>
    match s.story? story, s.specs.find? spec with
    | some answer, some spec =>
      s.respond (answer.bind (·.withContract spec)) fun story =>
        (s.keep target story, .story story)
    | _, _ => s.notKnown
  | .withFailures story failures target =>
    match s.story? story with
    | none => s.notKnown
    | some answer => s.respond (answer.map (·.withFailures failures)) fun story =>
        (s.keep target story, .story story)
  | .contractIn spec ids =>
    match s.stories? ids, s.specs.find? spec with
    | some answer, some spec =>
      s.respond (answer.bind (Story.contractIn spec)) fun stories =>
        (s.keepAll (ids.zip stories), .stories stories)
    | _, _ => s.notKnown
  | .failuresIn failures ids =>
    match s.stories? ids with
    | none => s.notKnown
    | some answer => s.respond (answer.map (Story.failuresIn failures)) fun stories =>
        (s.keepAll (ids.zip stories), .stories stories)
  | .mount _ _ _ (.error message) => (s, { result := .badSettings message })
  | .mount story owner target (.ok settings) => s.mount story owner target settings
  | .observe mounted observer target =>
    if !(s.recorders.contains observer || s.logs.contains observer) then s.notKnown
    else s.withMounted mounted fun m =>
      let m := m.withObserver observer
      ({ s with mounted := s.mounted.insert target m }, { result := .mounted m })
  | .call calling mounted arguments =>
    s.withMounted mounted fun m =>
      s.withAnswer m (m.call (Script.perform s.mounted) calling arguments) .value
  | .run calling mounted arguments failedOn failedBecause =>
    s.withMounted mounted fun m =>
      s.withAnswer m (m.run (Script.perform s.mounted) calling arguments) fun summary =>
        .summary summary (failedOn.map summary.failedOn)
          (failedBecause.map summary.failedBecause)
  | .inspectMounted mounted =>
    s.withMounted mounted fun m => (s, { result := .inspectedMounted m })
  | .records observer =>
    match s.recorders.find? observer with
    | none => s.notKnown
    | some list => (s, { result := .records list })
  | .clear observer =>
    match s.recorders.find? observer with
    | none => s.notKnown
    | some _ =>
      ({ s with recorders := s.recorders.insert observer [] }, { result := .cleared 0 })
  | .log observer =>
    match s.logs.find? observer with
    | none => s.notKnown
    | some log =>
      ({ s with logs := s.logs.insert observer { log with notices := [] } },
        { result := .log log.notices })

/-- Carry out operations in order. -/
def performAll (s : Session) : List Operation → List Response
  | [] => []
  | operation :: rest =>
    let (s, response) := s.perform operation
    response :: s.performAll rest

end Session

end Storyline.Script
