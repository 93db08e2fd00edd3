import Storyline.Proofs.Brackets

/-!
# What answers the start of a step

A trace tells of each step that it starts. A single step is answered: with its outcome when its body
has one, and else with the error that the body raised. Of the steps of a group nothing more is told,
whatever their bodies come to, but for the error that may end the run
(`Moment.Executes.isAnswered_iff`). So the steps that start in an invocation are all answered
exactly if no group is executed, apart from a group of a single step whose body raises an error
(`Mounts.starts_answered_iff`).
-/

set_option autoImplicit false

namespace Storyline

variable {β : Type}

/-! ## Notes -/

/-- What a trace tells of the steps of an invocation: that one starts, that one ends with an
outcome, or that there is an error. -/
inductive StepNote where
  | start (step : String)
  | stop (step outcome : String)
  | error (kind message : String)
  deriving DecidableEq, Repr

/-- The text in a field of a message. -/
def TraceMessage.text? (m : TraceMessage) (field : String) : Option String :=
  match m.fields.lookup field with
  | some (.string text) => some text
  | _ => none

namespace StepNote

/-- What a message of a trace tells of a step. -/
def ofMessage? (m : TraceMessage) : Option StepNote :=
  if m.message = "step.start" then
    (m.text? "step").map start
  else if m.message = "step.end" then
    (m.text? "step").bind fun step => (m.text? "outcome").map (stop step)
  else if m.message = "step.error" then
    (m.text? "kind").bind fun kind => (m.text? "error").map (error kind)
  else none

/-- What an event of an invocation tells of a step. -/
def ofEvent? : Event → Option StepNote
  | .invoked step _ => some (start step)
  | .answered step outcome => some (stop step outcome.display)
  | .erred cause => some (error cause.kind cause.message)
  | _ => none

/-- The note that answers the start of a step, by what its body comes to. -/
def ofResult (s : Step β) : Except StepError Outcome → StepNote
  | .ok outcome => stop s.qualified outcome.display
  | .error cause => error (StoryError.step cause).kind (StoryError.step cause).message

/-- Whether a step is told to end. -/
def isStop : StepNote → Bool
  | stop _ _ => true
  | _ => false

end StepNote

/-- What the messages of an invocation tell of its steps, without those of the invocations in it. -/
def notesIn (events : List Event) : List StepNote :=
  ((events.filter (!·.isCall)).flatMap TraceMessage.ofEvent).filterMap StepNote.ofMessage?

theorem notesIn_eq (events : List Event) : notesIn events = events.filterMap StepNote.ofEvent? :=
  filterMap_messages (fun event => by cases event <;> rfl) events

theorem notesIn_append (events later : List Event) :
    notesIn (events ++ later) = notesIn events ++ notesIn later := by
  simp only [notesIn_eq, List.filterMap_append]

/-! ## What moments tell of their steps -/

/-- How the answer of a single step is told. -/
def Instruction.answered (perform : β → Context → Reply) (ctx : Context) :
    Instruction β → List StepNote
  | i@(.step s _ _) =>
    match (perform s.body (i.seen ctx)).result with
    | .ok outcome => [.stop s.qualified outcome.display]
    | .error _ => []
  | _ => []

/-- How an error that ends the run is told. -/
def Flow.erred : Flow → List StepNote
  | .stop (.error cause) => [.error cause.kind cause.message]
  | _ => []

namespace Moment

/-- The steps that are told to start at a moment. -/
def started (m : Moment β) : List StepNote :=
  if m.before.skipped = 0 then m.instruction.steps.map fun s => .start s.qualified else []

/-- What is told of steps and errors at a moment after that. -/
def ended (perform : β → Context → Reply) (m : Moment β) : List StepNote :=
  if m.before.skipped = 0 then
    m.instruction.answered perform m.before.ctx ++ m.flow.erred
  else []

/-- What the body of a step comes to at a moment. -/
def result (perform : β → Context → Reply) (m : Moment β) (s : Step β) :
    Except StepError Outcome :=
  (perform s.body (m.instruction.seen m.before.ctx)).result

/-- The notes that answer the steps which start at a moment, one for each. -/
def owed (perform : β → Context → Reply) (m : Moment β) : List StepNote :=
  if m.before.skipped = 0 then
    m.instruction.steps.map fun s => .ofResult s (m.result perform s)
  else []

/-- Each step that starts at a moment is answered by one note, and no other step is told to end. -/
def IsAnswered (perform : β → Context → Reply) (m : Moment β) : Prop :=
  ∃ others, (m.ended perform).Perm (m.owed perform ++ others) ∧
    ∀ note ∈ others, note.isStop = false

/-- A moment executes a group of steps, other than a single step whose body raises an error. -/
def ExecutesGroup (perform : β → Context → Reply) (m : Moment β) : Prop :=
  m.before.skipped = 0 ∧ ∃ steps number protocol, m.instruction = .parallel steps number protocol ∧
    steps ≠ [] ∧ ∀ s cause, steps = [s] → m.result perform s ≠ .error cause

end Moment

theorem Flow.isStop_of_mem_erred {flow : Flow} {note : StepNote} (h : note ∈ flow.erred) :
    note.isStop = false := by
  unfold erred at h
  split at h
  · rw [List.mem_singleton.mp h]
    rfl
  · cases h

theorem Flow.length_erred (flow : Flow) : flow.erred.length ≤ 1 := by
  unfold erred
  split
  · exact Nat.le_refl 1
  · exact Nat.zero_le 1

/-- Of the stories that are called an invocation has no notes. -/
theorem notesIn_calls {events : List Event} (h : ∀ event ∈ events, event.isCall = true) :
    notesIn events = [] := by
  rw [notesIn_eq]
  refine List.filterMap_eq_nil_iff.mpr fun event hEvent => ?_
  have hCall := h event hEvent
  cases event with
  | called observers events => rfl
  | _ => cases hCall

namespace Instruction

theorem notesIn_opening (i : Instruction β) (r : Run) :
    notesIn (i.opening r) = i.steps.map fun s => .start s.qualified := by
  cases i with
  | parallel steps number protocol =>
      show notesIn (steps.map _) = steps.map _
      rw [notesIn_eq, List.filterMap_map]
      exact congrFun List.filterMap_eq_map _
  | _ => rfl

/-- Of what bodies come to, only the answer of a single step is told. -/
theorem notesIn_spoken {perform : β → Context → Reply}
    (hBodies : ∀ body ctx, (perform body ctx).TellsCalls) {calling : Calling} {i : Instruction β}
    {r : Run} (hReplies : ∀ s ∈ i.steps, ∀ ctx,
      Run.reply? perform calling ctx s = some (perform s.body ctx)) :
    notesIn (i.spoken perform calling r) = i.answered perform r.ctx := by
  cases i with
  | enter label number => rfl
  | leave => rfl
  | step s number protocol =>
      rw [spoken, hReplies s (List.mem_singleton_self s)]
      dsimp only
      rw [notesIn_append, notesIn_calls (hBodies s.body _), List.nil_append, answered]
      cases (perform s.body ((step s number protocol).seen r.ctx)).result with
      | error cause => rfl
      | ok outcome => rfl
  | parallel steps number protocol =>
      refine notesIn_calls fun event hEvent => ?_
      obtain ⟨events, hEvents, hEvent⟩ := List.mem_flatten.mp hEvent
      obtain ⟨s, -, rfl⟩ := List.mem_map.mp hEvents
      exact tellsCalls_branchReply hBodies calling _ s event hEvent

end Instruction

/-- Of what closes an instruction, only an error is told. -/
theorem Run.Closes.notesIn_eq {i : Instruction β} {told : List Event} {r' : Run} {flow : Flow}
    (h : Closes i told (r', flow))
    (hTurns : ∀ story, flow ≠ .stop (.error (.definition (.coroutineStory story)))) :
    notesIn r'.events = notesIn told ++ flow.erred := by
  cases h with
  | goesOn hEvents =>
      rw [hEvents]
      exact (List.append_nil _).symm
  | concludes hEvents =>
      rw [hEvents]
      exact (List.append_nil _).symm
  | failed hEvents _ _ _ =>
      rw [hEvents, notesIn_append]
      rfl
  | erred hEvents =>
      rw [hEvents, notesIn_append]
      rfl
  | turnedAway _ => exact absurd rfl (hTurns _)

namespace Moment

variable {plan : Plan β} {perform : β → Context → Reply} {calling : Calling} {m : Moment β}

section

variable (h : m.Executes plan perform calling)
  (hReplies : ∀ s ∈ m.instruction.steps, ∀ ctx,
    Run.reply? perform calling ctx s = some (perform s.body ctx))

include h hReplies

/-- Where all steps can be run, no moment turns one away. -/
theorem Executes.flow_ne_coroutineStory (hRuns : m.before.skipped = 0) (story : String) :
    m.flow ≠ .stop (.error (.definition (.coroutineStory story))) := by
  intro hFlow
  have hTurn := h.turn hRuns
  rw [hFlow] at hTurn
  cases hTurn with
  | stops _ _ _ _ hOfRun => cases hOfRun _ rfl
  | turnedAway hStep hNone => cases hNone.symm.trans (hReplies _ hStep _)

/-- At each moment its steps are told to start, and then what is told of them. -/
theorem Executes.notesIn_eq (hBodies : ∀ body ctx, (perform body ctx).TellsCalls) :
    notesIn m.after.events = notesIn m.before.events ++ (m.started ++ m.ended perform) := by
  by_cases hRuns : m.before.skipped = 0
  · have hClose := Run.closes_execute plan perform calling m.instruction hRuns
    rw [h] at hClose
    rw [hClose.notesIn_eq (h.flow_ne_coroutineStory hReplies hRuns), notesIn_append,
      notesIn_append, Instruction.notesIn_opening, Instruction.notesIn_spoken hBodies hReplies,
      started, ended, if_pos hRuns, if_pos hRuns]
    simp only [List.append_assoc]
  · rw [Executes, Run.execute_of_skipped hRuns] at h
    rw [← (Prod.mk.inj h).1, Run.events_passOver, started, ended, if_neg hRuns, if_neg hRuns,
      List.append_nil, List.append_nil]

/-- The error that the body of a single step raises ends the run. -/
theorem Executes.flow_of_step (hRuns : m.before.skipped = 0) {s : Step β} {number : Nat}
    {protocol : StepProtocol} (hStep : m.instruction = .step s number protocol)
    {cause : StepError} (hRaises : m.result perform s = .error cause) :
    m.flow = .stop (.error (.step cause)) := by
  have hReply := hReplies s (by simp [hStep, Instruction.steps]) (m.before.invoking s).ctx
  rw [result, hStep] at hRaises
  rw [Executes, hStep, Run.execute_step hRuns, Run.runStep_of_some hReply] at h
  have hFlow := congrArg Prod.snd h
  have hSeen : (perform s.body (m.before.invoking s).ctx).result = .error cause := hRaises
  rw [hSeen] at hFlow
  exact hFlow.symm

/-- The error that the body of a step raises ends the run also if the step is a group by itself. -/
theorem Executes.flow_of_group (hRuns : m.before.skipped = 0) {s : Step β} {number : Nat}
    {protocol : StepProtocol} (hGroup : m.instruction = .parallel [s] number protocol)
    {cause : StepError} (hRaises : m.result perform s = .error cause) :
    m.flow = .stop (.error (.step cause)) := by
  let entered := m.before.mapHistory (·.enter (Instruction.groupName [s]))
  have hReply := hReplies s (by simp [hGroup, Instruction.steps]) entered.ctx
  have hBranch : (Run.branchReply perform calling entered.ctx s).result = .error cause := by
    rw [Run.branchReply_of_some hReply]
    rw [result, hGroup] at hRaises
    exact hRaises
  rw [Executes, hGroup, Run.execute_parallel hRuns] at h
  refine (congrArg Prod.snd h).symm.trans ?_
  show (Run.judgeGroup plan number protocol
    [(s, (Run.branchReply perform calling entered.ctx s).result)] _).2 = _
  rw [hBranch]
  rfl

end

/-! ## Which moments are answered -/

/-- A moment is answered if what it owes is told first, and then no more than an error. -/
theorem isAnswered_of_owed (h : m.before.skipped = 0 →
    m.instruction.answered perform m.before.ctx = m.owed perform ∨
      m.instruction.answered perform m.before.ctx ++ m.flow.erred = m.owed perform) :
    m.IsAnswered perform := by
  by_cases hRuns : m.before.skipped = 0
  · unfold IsAnswered
    rw [ended, if_pos hRuns]
    rcases h hRuns with hFirst | hAll
    · rw [hFirst]
      exact ⟨m.flow.erred, .refl _, fun note hNote => Flow.isStop_of_mem_erred hNote⟩
    · rw [hAll]
      exact ⟨[], by rw [List.append_nil], fun note hNote => by cases hNote⟩
  · refine ⟨[], ?_, fun note hNote => by cases hNote⟩
    rw [ended, owed, if_neg hRuns, if_neg hRuns]
    rfl

section

variable (h : m.Executes plan perform calling)
  (hReplies : ∀ s ∈ m.instruction.steps, ∀ ctx,
    Run.reply? perform calling ctx s = some (perform s.body ctx))

include h hReplies

/-- A single step is answered, whatever its body comes to. -/
theorem Executes.isAnswered_of_step {s : Step β} {number : Nat} {protocol : StepProtocol}
    (hStep : m.instruction = .step s number protocol) : m.IsAnswered perform := by
  refine isAnswered_of_owed fun hRuns => ?_
  have hOwed : m.owed perform = [.ofResult s (m.result perform s)] := by
    rw [owed, if_pos hRuns, hStep]
    rfl
  have hAnswered : m.instruction.answered perform m.before.ctx =
      match m.result perform s with
      | .ok outcome => [.stop s.qualified outcome.display]
      | .error _ => [] := by
    rw [result, hStep]
    rfl
  rw [hOwed, hAnswered]
  cases hResult : m.result perform s with
  | ok outcome => exact .inl rfl
  | error cause =>
      right
      rw [h.flow_of_step hReplies hRuns hStep hResult]
      rfl

/-- A group is answered if it has no steps, or a single one whose body raises an error. -/
theorem Executes.isAnswered_of_group (hRuns : m.before.skipped = 0) {steps : List (Step β)}
    {number : Nat} {protocol : StepProtocol}
    (hGroup : m.instruction = .parallel steps number protocol) :
    m.IsAnswered perform ↔
      steps = [] ∨ ∃ s cause, steps = [s] ∧ m.result perform s = .error cause := by
  have hEnded : m.ended perform = m.flow.erred := by
    rw [ended, if_pos hRuns, hGroup]
    rfl
  have hOwed : m.owed perform = steps.map fun s => .ofResult s (m.result perform s) := by
    rw [owed, if_pos hRuns, hGroup]
    rfl
  constructor
  · rintro ⟨others, hPerm, -⟩
    rw [hEnded, hOwed] at hPerm
    -- at most one note is told, and it is an error
    have hLength : steps.length ≤ 1 := by
      have hCount := hPerm.length_eq
      rw [List.length_append, List.length_map] at hCount
      have hErred := m.flow.length_erred
      omega
    cases steps with
    | nil => exact .inl rfl
    | cons s rest =>
        obtain rfl : rest = [] := by
          rw [List.length_cons] at hLength
          exact List.eq_nil_of_length_eq_zero (by omega)
        have hTold : .ofResult s (m.result perform s) ∈ m.flow.erred :=
          hPerm.mem_iff.mpr (List.mem_append_left _ List.mem_cons_self)
        have hNoStop := Flow.isStop_of_mem_erred hTold
        cases hResult : m.result perform s with
        | ok outcome =>
            rw [hResult] at hNoStop
            cases hNoStop
        | error cause => exact .inr ⟨s, cause, rfl, hResult⟩
  · rintro (rfl | ⟨s, cause, rfl, hRaises⟩)
    · refine isAnswered_of_owed fun _ => .inl ?_
      rw [hOwed, hGroup]
      rfl
    · refine isAnswered_of_owed fun _ => .inr ?_
      rw [hOwed, hGroup, h.flow_of_group hReplies hRuns hGroup hRaises, List.map_singleton,
        hRaises]
      rfl

/-- **Which moments are answered**: all but those that execute a group. -/
theorem Executes.isAnswered_iff : m.IsAnswered perform ↔ ¬ m.ExecutesGroup perform := by
  unfold ExecutesGroup
  cases hInstruction : m.instruction with
  | enter label number =>
      have hAnswered : m.IsAnswered perform := isAnswered_of_owed fun hRuns => by
        rw [owed, if_pos hRuns, hInstruction]
        exact .inl rfl
      simpa using hAnswered
  | leave =>
      have hAnswered : m.IsAnswered perform := isAnswered_of_owed fun hRuns => by
        rw [owed, if_pos hRuns, hInstruction]
        exact .inl rfl
      simpa using hAnswered
  | step s number protocol => simpa using h.isAnswered_of_step hReplies hInstruction
  | parallel steps number protocol =>
      by_cases hRuns : m.before.skipped = 0
      · rw [h.isAnswered_of_group hReplies hRuns hInstruction]
        constructor
        · rintro hFew ⟨-, _, _, _, hSame, hSome, hNone⟩
          cases hSame
          rcases hFew with rfl | ⟨s, cause, rfl, hRaises⟩
          · exact hSome rfl
          · exact hNone s cause rfl hRaises
        · intro hNot
          by_contra hFew
          rw [not_or] at hFew
          refine hNot ⟨hRuns, steps, number, protocol, rfl, hFew.1, ?_⟩
          intro s cause hSingle hRaises
          exact hFew.2 ⟨s, cause, hSingle, hRaises⟩
      · have hAnswered : m.IsAnswered perform :=
          isAnswered_of_owed fun hExecuted => absurd hExecuted hRuns
        simpa [hRuns] using hAnswered

end

end Moment

/-! ## Invocations -/

section

variable {cast : Cast β} {tree : StoryTree β} {plan : Plan β} {perform : β → Context → Reply}
  {calling : Calling} {width : Nat} {values : Bindings} {done rest : List (Moment β)}

/-- At every point of a run it has been told what the moments so far tell of their steps. -/
theorem Mounts.notesIn_at (h : Mounts cast tree plan)
    (hBodies : ∀ body ctx, (perform body ctx).TellsCalls)
    (hReplies : ∀ i ∈ plan.instructions, ∀ s ∈ i.steps, ∀ ctx,
      Run.reply? perform calling ctx s = some (perform s.body ctx))
    (hPoint : plan.moments tree perform calling width values = done ++ rest) :
    notesIn ((plan.beginning width values).stateAfter done).events =
      done.flatMap fun m => m.started ++ m.ended perform := by
  refine Run.moments_induction_at
    (P := fun done r => notesIn r.events = done.flatMap fun m => m.started ++ m.ended perform) rfl
    (fun done m later hPoint hBefore => ?_) hPoint
  have hMoment : m ∈ plan.moments tree perform calling width values := by
    rw [Plan.moments, hPoint]
    exact List.mem_append_right _ List.mem_cons_self
  obtain ⟨hExecutes, hIn⟩ := h.executes_of_mem hMoment
  rw [hExecutes.notesIn_eq (hReplies m.instruction hIn) hBodies, hBefore, List.flatMap_append,
    List.flatMap_singleton]

end

/-- **Which starts of steps are answered.** The trace of an invocation tells at each moment which
steps start, and then what is told of them. Each step that starts is answered exactly at the moments
that do not execute a group, apart from a group of a single step whose body raises an error: by its
outcome if its body has one, and by the error that its body raises otherwise. Bodies may call other
stories, and can tell nothing else. -/
theorem Mounts.starts_answered_iff {cast : Cast β} {tree : StoryTree β} {m : Mounted β}
    (h : Mounts cast tree m.plan) {perform : β → Context → Reply} {calling : Calling}
    (hBodies : ∀ body ctx, (perform body ctx).TellsCalls) {arguments : Bindings}
    {invocation : Invocation} (hInvoke : m.invoke perform calling arguments = .ok invocation) :
    ∃ values, m.plan.root.checkCall arguments = .ok values ∧
      let moments := m.plan.moments tree perform calling m.settings.reprWidth values
      notesIn invocation.events =
        moments.flatMap (fun moment => moment.started ++ moment.ended perform) ∧
      ∀ moment ∈ moments, moment.IsAnswered perform ↔ ¬ moment.ExecutesGroup perform := by
  obtain ⟨hPlan, hReplies⟩ := Mounted.invoke_eq_ok h hInvoke
  obtain ⟨values, hAccepted, -, -⟩ := h.invoke_eq_ok hPlan
  refine ⟨values, hAccepted, ?_, fun moment hMoment => ?_⟩
  · -- what is told after the last moment is that the invocation has ended
    rw [h.invoke_of_accepted perform calling m.settings.reprWidth hAccepted] at hPlan
    rw [← Except.ok.inj hPlan, notesIn_append,
      h.notesIn_at hBodies hReplies (List.append_nil _).symm]
    exact List.append_nil _
  · obtain ⟨hExecutes, hIn⟩ := h.executes_of_mem hMoment
    exact hExecutes.isAnswered_iff (hReplies moment.instruction hIn)

/-! ## An example

A choir tunes, and then two voices sing together. -/

namespace Choir

open Shop (Body answer)

def rehearse : Story where
  name := ⟨"Choir", "rehearse"⟩
  arguments := []
  collected := [.step "tune", .parallel ["alto", "bass"]]
  spec := none
  failures := none

/-- A step that succeeds and sets nothing. -/
def step (name : String) : Step Body where
  name := name
  owner := "Choir"
  mode := .function
  body := .ok (.success .empty)

def cast : Cast Body :=
  .ofList [("choir", {
    className := "Choir"
    members := .ofList [("alto", .step (step "alto")), ("bass", .step (step "bass")),
      ("tune", .step (step "tune"))] })]

def tree : StoryTree Body :=
  ⟨rehearse, "choir", .step (step "tune") (.parallel [step "alto", step "bass"] .done)⟩

def rehearsed : Mounted Body :=
  { plan := (Plan.compile cast rehearse "choir").toOption.get rfl }

theorem mounts : Mounts cast tree rehearsed.plan := ⟨rfl, .step (.parallel .done)⟩

/-- What is told of the rehearsal. -/
def notes : List StepNote :=
  [.start "Choir.tune", .stop "Choir.tune" "Success()", .start "Choir.alto", .start "Choir.bass"]

theorem exists_told : ∃ invocation, rehearsed.invoke answer .blocking .empty = .ok invocation ∧
    invocation.ending = .ok .finished ∧ notesIn invocation.events = notes :=
  ⟨_, rfl, rfl, (notesIn_eq _).trans rfl⟩

/-- The tuning is answered. -/
theorem tuning_answered :
    ∃ invocation, rehearsed.invoke answer .blocking .empty = .ok invocation ∧
      notesIn invocation.events = notes ∧
      ∃ values, rehearsed.plan.root.checkCall .empty = .ok values ∧
        ∀ moment ∈ rehearsed.plan.moments tree answer .blocking 88 values,
          ∀ s number protocol, moment.instruction = .step s number protocol →
            moment.IsAnswered answer := by
  obtain ⟨invocation, hInvoke, -, hNotes⟩ := exists_told
  have hBodies : ∀ body ctx, (answer body ctx).TellsCalls :=
    fun body ctx event hEvent => by cases hEvent
  obtain ⟨values, hAccepted, -, hAnswered⟩ := mounts.starts_answered_iff hBodies hInvoke
  refine ⟨invocation, hInvoke, hNotes, values, hAccepted, ?_⟩
  intro moment hMoment s number protocol hStep
  refine (hAnswered moment hMoment).mpr ?_
  rintro ⟨-, _, _, _, hGroup, -⟩
  cases hStep.symm.trans hGroup

/-- Both voices start and succeed, and it is told neither that they end nor of an error. -/
theorem voices_unanswered :
    Mounts cast tree rehearsed.plan ∧
      ∃ invocation, rehearsed.invoke answer .blocking .empty = .ok invocation ∧
        invocation.ending = .ok .finished ∧
        ∀ voice ∈ [step "alto", step "bass"],
          (∀ ctx, (answer voice.body ctx).result = .ok (.success .empty)) ∧
          .start voice.qualified ∈ notesIn invocation.events ∧
          (∀ outcome, .stop voice.qualified outcome ∉ notesIn invocation.events) ∧
          ∀ kind message, .error kind message ∉ notesIn invocation.events := by
  obtain ⟨invocation, hInvoke, hFinished, hNotes⟩ := exists_told
  refine ⟨mounts, invocation, hInvoke, hFinished, fun voice hVoice => ?_⟩
  have hQualified : voice.qualified = "Choir.alto" ∨ voice.qualified = "Choir.bass" := by
    rcases List.mem_pair.mp hVoice with rfl | rfl
    · exact .inl rfl
    · exact .inr rfl
  have hSucceeds : voice.body = .ok (.success .empty) := by
    rcases List.mem_pair.mp hVoice with rfl | rfl <;> rfl
  rw [hNotes]
  refine ⟨fun ctx => hSucceeds, ?_, ?_, ?_⟩
  · rcases hQualified with hAlto | hBass
    · simp [notes, hAlto]
    · simp [notes, hBass]
  · rcases hQualified with hAlto | hBass
    · simp [notes, hAlto]
    · simp [notes, hBass]
  · simp [notes]

end Choir

end Storyline
