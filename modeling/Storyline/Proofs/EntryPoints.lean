import Storyline.Proofs.Modes

/-!
# Four ways to invoke a story

A story is called for its value or run for a summary, by a caller who blocks or by one who waits.
Blocking and waiting differ for coroutines only. Since all steps of a plan have the mode of the plan
(`Mounts.mode_eq`), a function story answers the same to both, and a coroutine story turns a caller
who blocks away before anything happens. Calling and running differ in how they tell the end of one
and the same invocation (`Mounted.CallsAsRun`): what tells them apart is that no error which ends a
run is ever that of a failure (`Run.isFailure_of_drive`).
-/

set_option autoImplicit false

namespace Storyline

variable {β : Type}

/-! ## Blocking and waiting -/

namespace Run

/-- Executing instructions does the same with the same replies of their steps. -/
theorem drive_congr {plan : Plan β} {perform : β → Context → Reply} {calling calling' : Calling}
    {instructions : List (Instruction β)}
    (h : ∀ i ∈ instructions, ∀ s ∈ i.steps, ∀ ctx,
      reply? perform calling' ctx s = reply? perform calling ctx s) (r : Run) :
    drive plan perform calling' instructions r = drive plan perform calling instructions r := by
  induction instructions generalizing r with
  | nil => rfl
  | cons i rest ih =>
      have hFirst : r.execute plan perform calling' i = r.execute plan perform calling i :=
        execute_congr fun _ s hs => h i List.mem_cons_self s hs _
      have hRest := ih fun other hOther => h other (List.mem_cons_of_mem _ hOther)
      rw [drive, drive, hFirst]
      split
      · next after _ => exact hRest after
      · rfl

end Run

theorem Mounts.invoke_congr {cast : Cast β} {tree : StoryTree β} {plan : Plan β}
    (h : Mounts cast tree plan) (hMode : plan.mode = .function) (perform : β → Context → Reply)
    (calling calling' : Calling) (width : Nat) (arguments : Bindings) :
    plan.invoke perform calling' width arguments = plan.invoke perform calling width arguments := by
  have hReply : ∀ i ∈ plan.instructions, ∀ s ∈ i.steps, ∀ ctx,
      Run.reply? perform calling' ctx s = Run.reply? perform calling ctx s := by
    intro i hi s hs ctx
    have hFunction := (h.mode_eq hi hs).trans hMode
    rw [Run.reply?_of_function hFunction, Run.reply?_of_function hFunction]
  unfold Plan.invoke
  simp only [Run.drive_congr hReply]

namespace Mounted

variable {m : Mounted β}

theorem answer_congr {α : Type} {perform : β → Context → Reply} {calling calling' : Calling}
    {arguments arguments' : Bindings}
    (h : m.invoke perform calling' arguments' = m.invoke perform calling arguments)
    (finish : Context → Ending → Except StoryError α) :
    m.answer perform calling' arguments' finish = m.answer perform calling arguments finish := by
  unfold answer
  rw [h]

end Mounted

/-! ## Errors that end a run -/

/-- Whether an error is that of a failure. -/
def StoryError.isFailure : StoryError → Bool
  | .failure _ _ => true
  | _ => false

theorem StoryError.isFailure_of_isOfRun {cause : StoryError} (h : cause.isOfRun = true) :
    cause.isFailure = false := by
  cases cause with
  | failure name reason => cases h
  | _ => rfl

/-- **No error that ends a run is that of a failure.** -/
theorem Run.isFailure_of_drive {plan : Plan β} {perform : β → Context → Reply} {calling : Calling}
    {instructions : List (Instruction β)} {r : Run} {cause : StoryError}
    (h : (drive plan perform calling instructions r).2 = .error cause) :
    cause.isFailure = false := by
  rcases isOfRun_drive instructions r h with hOfRun | ⟨rfl, -⟩
  · exact StoryError.isFailure_of_isOfRun hOfRun
  · rfl

/-! ## Calling and running -/

namespace Ending

variable (ending : Ending)

theorem value_eq_ok_iff {value : Json} :
    ending.value = .ok value ↔ ending.verdict = .success value := by
  cases ending <;> simp [Ending.value, verdict]

theorem value_eq_failure_iff {step : String} {reason : Option Reason} :
    ending.value = .error (.failure step reason) ↔ ending.verdict = .failure step reason := by
  cases ending <;> simp [Ending.value, verdict]

/-- The only error that an end comes to is that of a failure. -/
theorem isFailure_of_value {cause : StoryError} (h : ending.value = .error cause) :
    cause.isFailure = true := by
  cases ending with
  | failure step reason =>
      obtain rfl := Except.error.inj h
      rfl
  | result value => cases h
  | finished => cases h

end Ending

namespace Mounted

/-- Calling a story and running it with the same arguments tell the end of one invocation. -/
structure CallsAsRun (m : Mounted β) (perform : β → Context → Reply) (calling : Calling)
    (arguments : Bindings) : Prop where
  /-- A call gives a value exactly when a run is a success with this value. -/
  success : ∀ value, (m.call perform calling arguments).result = .ok value ↔
    ∃ summary, (m.run perform calling arguments).result = .ok summary ∧
      summary.verdict = .success value
  /-- A call gives the error of a failure exactly when a run is a failure, with the same step and
  the same reason. -/
  failure : ∀ step reason, (m.call perform calling arguments).result =
      .error (.failure step reason) ↔
    ∃ summary, (m.run perform calling arguments).result = .ok summary ∧
      summary.verdict = .failure step reason
  /-- All other errors are the same. -/
  error : ∀ cause, (m.run perform calling arguments).result = .error cause ↔
    (m.call perform calling arguments).result = .error cause ∧ cause.isFailure = false
  /-- If all instructions were executed the value is null. -/
  finished : ∀ invocation, m.invoke perform calling arguments = .ok invocation →
    invocation.ending = .ok .finished → (m.call perform calling arguments).result = .ok .null
  /-- The same things happen. -/
  events : (m.call perform calling arguments).events = (m.run perform calling arguments).events

variable {m : Mounted β} {perform : β → Context → Reply} {calling : Calling}
  {arguments : Bindings}

theorem answer_of_error {α : Type} {cause : StoryError}
    (h : m.invoke perform calling arguments = .error cause)
    (finish : Context → Ending → Except StoryError α) :
    m.answer perform calling arguments finish = { result := .error cause, events := [] } := by
  unfold answer
  rw [h]

theorem answer_of_ok {α : Type} {invocation : Invocation}
    (h : m.invoke perform calling arguments = .ok invocation)
    (finish : Context → Ending → Except StoryError α) :
    m.answer perform calling arguments finish =
      { result := invocation.ending.bind (finish invocation.ctx)
        events := invocation.events } := by
  unfold answer
  rw [h]

theorem call_of_error {cause : StoryError}
    (h : m.invoke perform calling arguments = .error cause) :
    m.call perform calling arguments = { result := .error cause, events := [] } :=
  answer_of_error h _

theorem run_of_error {cause : StoryError}
    (h : m.invoke perform calling arguments = .error cause) :
    m.run perform calling arguments = { result := .error cause, events := [] } :=
  answer_of_error h _

theorem call_of_ok {invocation : Invocation}
    (h : m.invoke perform calling arguments = .ok invocation) :
    m.call perform calling arguments =
      { result := invocation.ending.bind Ending.value, events := invocation.events } :=
  answer_of_ok h _

theorem run_of_ok {invocation : Invocation}
    (h : m.invoke perform calling arguments = .ok invocation) :
    m.run perform calling arguments =
      { result := invocation.ending.map (m.summary invocation.ctx)
        events := invocation.events } := by
  rw [run, answer_of_ok h]
  cases invocation.ending <;> rfl

/-- An invocation is turned away for its mode, or is that of the plan. -/
theorem invoke_cases (m : Mounted β) (perform : β → Context → Reply) (calling : Calling)
    (arguments : Bindings) :
    m.invoke perform calling arguments =
        .error (.definition (.coroutineStory m.plan.qualified)) ∨
      m.invoke perform calling arguments =
        (m.plan.invoke perform calling m.settings.reprWidth arguments).mapError .contract := by
  unfold invoke
  split
  · exact .inl rfl
  · exact .inr rfl

/-- The error with which an invocation is turned away is not that of a failure. -/
theorem isFailure_of_invoke {cause : StoryError}
    (h : m.invoke perform calling arguments = .error cause) : cause.isFailure = false := by
  rcases m.invoke_cases perform calling arguments with hTurned | hPlan
  · obtain rfl := Except.error.inj (hTurned.symm.trans h)
    rfl
  · rw [hPlan] at h
    cases hRejected : m.plan.invoke perform calling m.settings.reprWidth arguments with
    | error error =>
        rw [hRejected] at h
        obtain rfl := Except.error.inj h
        rfl
    | ok invocation =>
        rw [hRejected] at h
        cases h

/-- The error that ends an invocation is not that of a failure. -/
theorem isFailure_of_ending {invocation : Invocation} {cause : StoryError}
    (h : m.invoke perform calling arguments = .ok invocation)
    (hEnding : invocation.ending = .error cause) : cause.isFailure = false := by
  rcases m.invoke_cases perform calling arguments with hTurned | hPlan
  · cases hTurned.symm.trans h
  · rw [hPlan, mapError_eq_ok_iff] at h
    unfold Plan.invoke at h
    split at h
    · cases h
    · obtain rfl := Except.ok.inj h
      exact Run.isFailure_of_drive hEnding

/-- What calling and running have in common: how the invocation ended, and in which context. -/
theorem exists_ended (m : Mounted β) (perform : β → Context → Reply) (calling : Calling)
    (arguments : Bindings) :
    ∃ ended : Except StoryError (Context × Ending),
      (m.call perform calling arguments).result = ended.bind (fun (_, ending) => ending.value) ∧
      (m.run perform calling arguments).result =
        ended.map (fun (ctx, ending) => m.summary ctx ending) ∧
      ∀ cause, ended = .error cause → cause.isFailure = false := by
  cases hInvoke : m.invoke perform calling arguments with
  | error cause =>
      refine ⟨.error cause, ?_, ?_, fun other hOther => ?_⟩
      · rw [call_of_error hInvoke]
        rfl
      · rw [run_of_error hInvoke]
        rfl
      · obtain rfl := Except.error.inj hOther
        exact isFailure_of_invoke hInvoke
  | ok invocation =>
      refine ⟨invocation.ending.map fun ending => (invocation.ctx, ending), ?_, ?_, ?_⟩
      · rw [call_of_ok hInvoke]
        cases invocation.ending <;> rfl
      · rw [run_of_ok hInvoke]
        cases invocation.ending <;> rfl
      · intro cause hCause
        cases hEnding : invocation.ending with
        | error error =>
            rw [hEnding] at hCause
            obtain rfl := Except.error.inj hCause
            exact isFailure_of_ending hInvoke hEnding
        | ok ending =>
            rw [hEnding] at hCause
            cases hCause

theorem callsAsRun (m : Mounted β) (perform : β → Context → Reply) (calling : Calling)
    (arguments : Bindings) : m.CallsAsRun perform calling arguments := by
  obtain ⟨ended, hCall, hRun, hGenuine⟩ := m.exists_ended perform calling arguments
  have hEvents : (m.call perform calling arguments).events =
      (m.run perform calling arguments).events := by
    cases hInvoke : m.invoke perform calling arguments with
    | error cause => rw [call_of_error hInvoke, run_of_error hInvoke]
    | ok invocation => rw [call_of_ok hInvoke, run_of_ok hInvoke]
  have hFinished : ∀ invocation, m.invoke perform calling arguments = .ok invocation →
      invocation.ending = .ok .finished →
        (m.call perform calling arguments).result = .ok .null := by
    intro invocation hInvoke hEnding
    rw [call_of_ok hInvoke, hEnding]
    rfl
  cases ended with
  | error cause =>
      rw [Except.bind] at hCall
      rw [Except.map] at hRun
      have hCause : ∀ step reason, cause ≠ .failure step reason := by
        rintro step reason rfl
        cases hGenuine _ rfl
      constructor
      case success => simp [hCall, hRun]
      case failure => simp [hCall, hRun, hCause]
      case error =>
        intro other
        rw [hCall, hRun, Except.error.injEq]
        constructor
        · rintro rfl
          exact ⟨rfl, hGenuine cause rfl⟩
        · exact fun h => Except.error.inj h.1
      case finished => exact hFinished
      case events => exact hEvents
  | ok ended =>
      obtain ⟨ctx, ending⟩ := ended
      rw [Except.bind] at hCall
      rw [Except.map] at hRun
      constructor
      case success =>
        intro value
        rw [hCall, hRun, ending.value_eq_ok_iff]
        simp [summary]
      case failure =>
        intro step reason
        rw [hCall, hRun, ending.value_eq_failure_iff]
        simp [summary]
      case error =>
        intro cause
        rw [hCall, hRun]
        constructor
        · intro h
          cases h
        · rintro ⟨hValue, hCause⟩
          rw [ending.isFailure_of_value hValue] at hCause
          cases hCause
      case finished => exact hFinished
      case events => exact hEvents

end Mounted

/-- **The four entry points agree.** -/
theorem Mounts.entryPoints_agree {cast : Cast β} {tree : StoryTree β} {m : Mounted β}
    (h : Mounts cast tree m.plan) (perform : β → Context → Reply) (arguments : Bindings) :
    (m.plan.mode = .function →
      m.run perform .blocking arguments = m.run perform .waiting arguments ∧
      m.call perform .blocking arguments = m.call perform .waiting arguments ∧
      ∀ calling, m.CallsAsRun perform calling arguments) ∧
    (m.plan.mode = .coroutine →
      m.call perform .blocking arguments =
        { result := .error (.definition (.coroutineStory m.plan.qualified)), events := [] } ∧
      m.run perform .blocking arguments =
        { result := .error (.definition (.coroutineStory m.plan.qualified)), events := [] }) := by
  constructor
  · intro hFunction
    have hInvoke : m.invoke perform .blocking arguments = m.invoke perform .waiting arguments := by
      rw [Mounted.invoke_of_function hFunction, Mounted.invoke_of_function hFunction,
        h.invoke_congr hFunction perform .waiting .blocking]
    exact ⟨Mounted.answer_congr hInvoke _, Mounted.answer_congr hInvoke _,
      fun calling => m.callsAsRun perform calling arguments⟩
  · intro hCoroutine
    have hTurned := Mounted.invoke_of_coroutine hCoroutine perform arguments
    exact ⟨Mounted.call_of_error hTurned, Mounted.run_of_error hTurned⟩

/-! ## An example

The sale of the shop, and tea that has to be waited for. -/

namespace Tea

open Shop (Body answer)

def brew : Story where
  name := ⟨"Tea", "brew"⟩
  arguments := []
  collected := [.step "boil"]
  spec := none
  failures := none

def boil : Step Body where
  name := "boil"
  owner := "Tea"
  mode := .coroutine
  body := .ok (.next (some (.string "tea")))

def cast : Cast Body :=
  .ofList [("kettle", { className := "Tea", members := .ofList [("boil", .step boil)] })]

def sale : Mounted Body := { plan := Shop.plan }

def brewing : Mounted Body := { plan := (Plan.compile cast brew "kettle").toOption.get rfl }

theorem brewing_mounts : Mounts cast ⟨brew, "kettle", .step boil .done⟩ brewing.plan where
  compiled := rfl
  unfolds := .step .done

/-- The sale fails for whoever calls it, and who does not wait gets no tea. -/
theorem called :
    (sale.call answer .blocking Shop.arguments).result =
        .error (.failure "ship" (some (.token "sold out"))) ∧
      sale.call answer .waiting Shop.arguments = sale.call answer .blocking Shop.arguments ∧
      brewing.call answer .blocking .empty =
        { result := .error (.definition (.coroutineStory "Tea.brew")), events := [] } := by
  have hSale : Mounts Shop.cast Shop.tree sale.plan := Shop.mounts
  obtain ⟨hAgree, -⟩ := hSale.entryPoints_agree answer Shop.arguments
  obtain ⟨-, hCalls, hAsRun⟩ := hAgree rfl
  obtain ⟨-, hTurnedAway⟩ := brewing_mounts.entryPoints_agree answer .empty
  refine ⟨?_, hCalls.symm, (hTurnedAway rfl).1⟩
  rw [(hAsRun .blocking).failure]
  exact ⟨_, rfl, rfl⟩

end Tea

end Storyline
