import Storyline.Proofs.Effects

/-!
# What an instruction does to the history

An executed instruction adds its line to the history or closes a story (`Instruction.record`), and
what comes of it may be marked there: that a step left its story, or how the run ended
(`Flow.mark?`). `Run.Turn` lists all cases, each with what it says of the answers of the steps and
of the stories to be passed over, and `Run.turn_execute` is proved once for stories, steps and
groups.

An error that ends a run is one of a contract, a protocol, a step or an outcome out of place
(`Run.isOfRun_drive`), unless a coroutine was to be run for a caller who blocks.
-/

set_option autoImplicit false

namespace Storyline

variable {β : Type}

/-! ## Lines, marks and errors -/

/-- What an instruction does to the history, before anything is marked. -/
def Instruction.record (h : History) : Instruction β → History
  | enter label _ => h.startStory label
  | step s _ _ => h.enter s.name
  | parallel steps _ _ => h.enter (groupName steps)
  | leave => h.endStory

/-- How the end of a run is marked in the history. -/
def Flow.mark? : Flow → Option Mark
  | .next => none
  | .stop (.ok .finished) => none
  | .stop (.ok (.result value)) => some (.returned value.text)
  | .stop (.ok (.failure _ reason)) => some (.failed (reason.map Reason.display))
  | .stop (.error cause) => some (.errored cause.kind)

/-- Whether an error can end a run that runs all its steps. -/
def StoryError.isOfRun : StoryError → Bool
  | .contract _ => true
  | .protocol _ => true
  | .step _ => true
  | .definition (.unexpectedOutcome _ _) => true
  | _ => false

/-! ## Leaving a story early -/

/-- An outcome with which a step leaves its story early. In the outermost story, a value that a
coroutine leaves it with is the result. -/
def Outcome.Leaves (mode : Mode) (isOutermost : Prop) : Outcome → Prop
  | .skip => True
  | .next none => mode = .coroutine
  | .next (some _) => mode = .coroutine ∧ ¬ isOutermost
  | _ => False

/-- A single step, if the instruction is one, answers with an outcome that leaves its story early
when it is executed in a state. -/
def Instruction.Leaves (plan : Plan β) (perform : β → Context → Reply) (calling : Calling)
    (r : Run) (i : Instruction β) : Prop :=
  ∃ s number protocol outcome, i = .step s number protocol ∧
    i.Answers perform calling r.ctx s outcome ∧ outcome.Leaves plan.mode (r.depth ≤ 1)

namespace Run

/-- All that an instruction can do to the history, which is executed in a state `r`. -/
inductive Turn (plan : Plan β) (perform : β → Context → Reply) (calling : Calling)
    (i : Instruction β) (r : Run) : Run × Flow → Prop where
  /-- The run goes on. All steps, if there are any, succeeded. -/
  | goesOn {r' : Run} :
      r'.skipped = 0 → r'.ctx.history = i.record r.ctx.history →
      (∀ s outcome, i.Answers perform calling r.ctx s outcome →
        ∃ values, outcome = .success values) →
      Turn plan perform calling i r (r', .next)
  /-- A step leaves its story early. -/
  | leaves {r' : Run} :
      r'.skipped = 1 → r'.ctx.history = (i.record r.ctx.history).skip →
      i.Leaves plan perform calling r → Turn plan perform calling i r (r', .next)
  /-- The run ends. -/
  | stops {r' : Run} {flow : Flow} {mark : Mark} :
      r'.skipped = 0 → flow.mark? = some mark →
      r'.ctx.history = (i.record r.ctx.history).mark mark →
      ¬ i.Leaves plan perform calling r →
      (∀ cause, flow = .stop (.error cause) → cause.isOfRun = true) →
      Turn plan perform calling i r (r', flow)
  /-- A coroutine can not be run for a caller who blocks. -/
  | turnedAway {r' : Run} {s : Step β} :
      s ∈ i.steps → reply? perform calling (i.seen r.ctx) s = none →
      Turn plan perform calling i r
        (r', .stop (.error (.definition (.coroutineStory plan.qualified))))

variable {plan : Plan β} {perform : β → Context → Reply} {calling : Calling}
  {i : Instruction β} {r t : Run}

section

variable (hRuns : t.skipped = 0) (hHistory : t.ctx.history = i.record r.ctx.history)

include hRuns hHistory

theorem Turn.err {error : StoryError} (hStays : ¬ i.Leaves plan perform calling r)
    (hError : error.isOfRun = true) : Turn plan perform calling i r (t.err error) := by
  refine .stops hRuns rfl (congrArg (·.mark (.errored error.kind)) hHistory) hStays ?_
  intro cause hCause
  cases hCause
  exact hError

theorem Turn.conclude (hStays : ¬ i.Leaves plan perform calling r) (value : Json) :
    Turn plan perform calling i r (t.conclude value) :=
  .stops hRuns rfl (congrArg (·.mark (.returned value.text)) hHistory) hStays
    fun _ hStop => by cases hStop

theorem Turn.fail (hStays : ¬ i.Leaves plan perform calling r) (s : Step β)
    (protocol : StepProtocol) (reason : Option Reason) :
    Turn plan perform calling i r (t.fail s protocol reason) := by
  unfold Run.fail
  cases protocol.checkReturn s.qualified reason with
  | error cause => exact .err hRuns hHistory hStays rfl
  | ok _ =>
      exact .stops hRuns rfl (congrArg (·.mark (.failed (reason.map Reason.display))) hHistory)
        hStays fun _ hStop => by cases hStop

end

theorem Turn.skip (hHistory : t.ctx.history = i.record r.ctx.history)
    (hLeaves : i.Leaves plan perform calling r) : Turn plan perform calling i r t.skip :=
  .leaves rfl (congrArg History.skip hHistory) hLeaves

/-! ## Stories, steps and groups -/

/-- Only single steps leave their story early. -/
theorem not_leaves_of_steps_eq_nil (h : i.steps = []) : ¬ i.Leaves plan perform calling r := by
  rintro ⟨s, number, protocol, outcome, -, ⟨hStep, -⟩, -⟩
  rw [h] at hStep
  cases hStep

theorem not_leaves_parallel (steps : List (Step β)) (number : Nat) (protocol : StepProtocol) :
    ¬ (Instruction.parallel steps number protocol).Leaves plan perform calling r := by
  rintro ⟨_, _, _, _, hStep, -⟩
  cases hStep

theorem turn_enter (label : String) (number : Nat) (hRuns : r.skipped = 0) :
    Turn plan perform calling (.enter label number) r (r.enter plan label number) := by
  have hStays : ¬ (Instruction.enter label number).Leaves plan perform calling r :=
    not_leaves_of_steps_eq_nil rfl
  have hEntered : Turn plan perform calling (.enter label number) r (r.entering label, .next) :=
    .goesOn hRuns rfl fun s outcome h => by cases h.1
  unfold enter
  dsimp only
  split
  · exact hEntered
  · split
    · exact hEntered
    · exact .err (t := r.entering label) hRuns rfl hStays rfl

/-- Keeping values does nothing to the history, unless they are rejected. -/
theorem commit_cases (plan : Plan β) (s : Step β) (number : Nat) (values : Bindings) (r : Run) :
    (∃ kept, r.commit plan s number values =
        ({ r with ctx := r.ctx.extend s.qualified kept }, .next)) ∨
      ∃ cause, r.commit plan s number values = r.err (.contract cause) := by
  unfold commit
  split
  · exact .inl ⟨values, rfl⟩
  · split
    · next kept _ => exact .inl ⟨kept, rfl⟩
    · next cause _ => exact .inr ⟨cause, rfl⟩

theorem Turn.commit (hRuns : t.skipped = 0)
    (hHistory : t.ctx.history = i.record r.ctx.history)
    (hStays : ¬ i.Leaves plan perform calling r)
    (hAnswers : ∀ s outcome, i.Answers perform calling r.ctx s outcome →
      ∃ values, outcome = .success values) (s : Step β) (number : Nat) (values : Bindings) :
    Turn plan perform calling i r (t.commit plan s number values) := by
  rcases commit_cases plan s number values t with ⟨kept, hKept⟩ | ⟨cause, hRejected⟩
  · rw [hKept]
    exact .goesOn hRuns hHistory hAnswers
  · rw [hRejected]
    exact .err hRuns hHistory hStays rfl

theorem Turn.commitAll (hRuns : t.skipped = 0)
    (hHistory : t.ctx.history = i.record r.ctx.history)
    (hStays : ¬ i.Leaves plan perform calling r)
    (hAnswers : ∀ s outcome, i.Answers perform calling r.ctx s outcome →
      ∃ values, outcome = .success values) (number : Nat)
    (branches : List (Step β × Bindings)) :
    Turn plan perform calling i r (t.commitAll plan number branches) := by
  induction branches generalizing t with
  | nil => exact .goesOn hRuns hHistory hAnswers
  | cons branch rest ih =>
      obtain ⟨s, values⟩ := branch
      rw [Run.commitAll]
      rcases commit_cases plan s number values t with ⟨kept, hKept⟩ | ⟨cause, hRejected⟩
      · rw [hKept]
        exact ih (t := { t with ctx := t.ctx.extend s.qualified kept }) hRuns hHistory
      · rw [hRejected]
        exact .err hRuns hHistory hStays rfl

theorem not_isAllowed_eq_false_iff {mode : Mode} {value : Option Json} :
    ¬ (!isAllowed mode (.next value)) = true ↔ mode = .coroutine := by
  cases mode <;> simp [isAllowed]

theorem turn_judge {s : Step β} {number : Nat} {protocol : StepProtocol} {reply : Reply}
    (hRuns : t.skipped = 0) (hDepth : t.depth = r.depth)
    (hSeen : t.ctx = (Instruction.step s number protocol).seen r.ctx)
    (hReply : reply? perform calling t.ctx s = some reply) :
    Turn plan perform calling (.step s number protocol) r
      (t.judge plan s number protocol reply.result) := by
  have hHistory : t.ctx.history =
      (Instruction.step s number protocol).record r.ctx.history := by
    rw [hSeen]
    rfl
  -- the step answers with one outcome, which tells whether it leaves
  have hAnswer : ∀ other outcome, (Instruction.step s number protocol).Answers perform calling
      r.ctx other outcome ↔ other = s ∧ reply.result = .ok outcome := by
    intro other outcome
    constructor
    · rintro ⟨hStep, otherReply, hOther, hOutcome⟩
      obtain rfl := List.mem_singleton.mp hStep
      rw [← hSeen, hReply] at hOther
      obtain rfl := Option.some.inj hOther
      exact ⟨rfl, hOutcome⟩
    · rintro ⟨rfl, hOutcome⟩
      exact ⟨List.mem_singleton_self other, reply, hSeen ▸ hReply, hOutcome⟩
  have hLeaves : (Instruction.step s number protocol).Leaves plan perform calling r ↔
      ∃ outcome, reply.result = .ok outcome ∧ outcome.Leaves plan.mode (t.depth ≤ 1) := by
    rw [hDepth]
    constructor
    · rintro ⟨other, _, _, outcome, -, hOther, hOutcome⟩
      exact ⟨outcome, ((hAnswer other outcome).mp hOther).2, hOutcome⟩
    · rintro ⟨outcome, hResult, hOutcome⟩
      exact ⟨s, number, protocol, outcome, rfl, (hAnswer s outcome).mpr ⟨rfl, hResult⟩, hOutcome⟩
  cases hResult : reply.result with
  | error cause =>
      refine .err hRuns hHistory ?_ rfl
      simp [hLeaves, hResult]
  | ok outcome =>
      -- from here on the event of the answer is recorded
      let answered := t.emit (.answered s.qualified outcome)
      have hRuns' : answered.skipped = 0 := hRuns
      have hLeaves' : (Instruction.step s number protocol).Leaves plan perform calling r ↔
          outcome.Leaves plan.mode (answered.depth ≤ 1) := by
        simp [hLeaves, hResult, answered, emit]
      unfold judge
      dsimp only
      split
      · next hRefused =>
        refine .err (t := answered) hRuns' hHistory ?_ rfl
        rw [hLeaves']
        cases outcome with
        | next value =>
            have hFunction : plan.mode ≠ .coroutine := fun hMode =>
              not_isAllowed_eq_false_iff.mpr hMode hRefused
            cases value <;> simp [Outcome.Leaves, hFunction]
        | _ => simp [isAllowed] at hRefused
      next hAllowed =>
      cases outcome with
      | success values =>
          refine .commit (t := answered) hRuns' hHistory (by simp [hLeaves', Outcome.Leaves])
            (fun other answer hOther => ?_) s number values
          rw [hAnswer, hResult] at hOther
          exact ⟨values, (Except.ok.inj hOther.2).symm⟩
      | failure reason =>
          exact .fail (t := answered) hRuns' hHistory (by simp [hLeaves', Outcome.Leaves]) s
            protocol reason
      | result value =>
          exact .conclude (t := answered) hRuns' hHistory (by simp [hLeaves', Outcome.Leaves])
            value
      | skip => exact .skip (t := answered) hHistory (hLeaves'.mpr trivial)
      | next value =>
          have hMode := not_isAllowed_eq_false_iff.mp hAllowed
          cases value with
          | none => exact .skip (t := answered) hHistory (hLeaves'.mpr hMode)
          | some value =>
              dsimp only
              split
              · next hOutermost =>
                refine .conclude (t := answered) hRuns' hHistory ?_ value
                rw [hLeaves']
                exact fun h => h.2 hOutermost
              · next hInner => exact .skip (t := answered) hHistory (hLeaves'.mpr ⟨hMode, hInner⟩)

/-- The error of a group is that of a step, or of an outcome that the mode does not have. -/
theorem isOfRun_of_outcomes {mode : Mode} {results : List (Step β × Except StepError Outcome)}
    {cause : StoryError} (h : outcomes mode results = .error cause) : cause.isOfRun = true := by
  induction results with
  | nil => cases h
  | cons first rest ih =>
      obtain ⟨s, result⟩ := first
      cases result with
      | error error =>
          obtain rfl := Except.error.inj h
          rfl
      | ok outcome =>
          rw [outcomes] at h
          split at h
          · obtain rfl := Except.error.inj h
            rfl
          split at h
          · next other hRest =>
            obtain rfl := Except.error.inj h
            exact ih hRest
          · cases h

theorem turn_judgeGroup {steps : List (Step β)} {number : Nat} {protocol : StepProtocol}
    (hRuns : t.skipped = 0)
    (hSeen : t.ctx = (Instruction.parallel steps number protocol).seen r.ctx)
    {results : List (Step β × Except StepError Outcome)}
    (hResults : ∀ s outcome,
      (Instruction.parallel steps number protocol).Answers perform calling r.ctx s outcome →
        (s, .ok outcome) ∈ results) :
    Turn plan perform calling (.parallel steps number protocol) r
      (t.judgeGroup plan number protocol results) := by
  have hHistory : t.ctx.history =
      (Instruction.parallel steps number protocol).record r.ctx.history := by
    rw [hSeen]
    rfl
  have hStays : ¬ (Instruction.parallel steps number protocol).Leaves plan perform calling r :=
    not_leaves_parallel steps number protocol
  unfold judgeGroup
  cases hOutcomes : outcomes plan.mode results with
  | error cause => exact .err hRuns hHistory hStays (isOfRun_of_outcomes hOutcomes)
  | ok answers =>
      dsimp only
      cases hMerged : GroupResult.ofAnswers answers with
      | success branches =>
          refine .commitAll hRuns hHistory hStays (fun s outcome hAnswers => ?_) number branches
          -- the answer is among the results, which are those of the branches
          have hMem := hResults s outcome hAnswers
          rw [results_eq_of_outcomes hOutcomes, GroupResult.answers_eq_of_success hMerged] at hMem
          obtain ⟨answer, hAnswer, hOk⟩ := List.mem_map.mp hMem
          obtain ⟨branch, -, rfl⟩ := List.mem_map.mp hAnswer
          exact ⟨branch.2, (Except.ok.inj (Prod.mk.inj hOk).2).symm⟩
      | failure s reason => exact .fail hRuns hHistory hStays s protocol reason
      | result value => exact .conclude hRuns hHistory hStays value

theorem turn_runGroup (steps : List (Step β)) (number : Nat) (protocol : StepProtocol)
    (hRuns : r.skipped = 0) :
    Turn plan perform calling (.parallel steps number protocol) r
      (r.runGroup plan perform calling steps number protocol) := by
  let entered := r.mapHistory (·.enter (Instruction.groupName steps))
  let replies := steps.map fun s => (s, branchReply perform calling entered.ctx s)
  let invoked := steps.map fun s => Event.invoked s.qualified entered.ctx
  let called := (replies.map fun answer => answer.2.events).flatten
  let replied : Run := { entered with events := entered.events ++ invoked ++ called }
  refine turn_judgeGroup (t := replied) hRuns rfl ?_
  rintro s outcome ⟨hStep, reply, hReply, hOutcome⟩
  have hBranch : branchReply perform calling entered.ctx s = reply := branchReply_of_some hReply
  have hMem : (s, reply) ∈ replies := List.mem_map.mpr ⟨s, hStep, congrArg (s, ·) hBranch⟩
  exact List.mem_map.mpr ⟨(s, reply), hMem, congrArg (s, ·) hOutcome⟩

theorem turn_runStep (s : Step β) (number : Nat) (protocol : StepProtocol)
    (hRuns : r.skipped = 0) :
    Turn plan perform calling (.step s number protocol) r
      (r.runStep plan perform calling s number protocol) := by
  cases hReply : reply? perform calling (r.invoking s).ctx s with
  | none =>
      rw [runStep_of_none hReply]
      exact .turnedAway (List.mem_singleton_self s) hReply
  | some reply =>
      rw [runStep_of_some hReply]
      let replied : Run := { r.invoking s with events := (r.invoking s).events ++ reply.events }
      exact turn_judge (t := replied) hRuns rfl rfl hReply

/-- **What an executed instruction does to the history.** -/
theorem turn_execute (i : Instruction β) (hRuns : r.skipped = 0) :
    Turn plan perform calling i r (r.execute plan perform calling i) := by
  cases i with
  | enter label number =>
      rw [execute_enter hRuns]
      exact turn_enter label number hRuns
  | leave =>
      rw [execute_leave hRuns]
      exact .goesOn hRuns rfl fun s outcome h => by cases h.1
  | step s number protocol =>
      rw [execute_step hRuns]
      exact turn_runStep s number protocol hRuns
  | parallel steps number protocol =>
      rw [execute_parallel hRuns]
      exact turn_runGroup steps number protocol hRuns

/-- **An error that ends a run** is that of a contract, a protocol, a step or an outcome out of
place, unless it is that a coroutine can not be run. -/
theorem isOfRun_drive (instructions : List (Instruction β)) (r : Run) {cause : StoryError}
    (h : (drive plan perform calling instructions r).2 = .error cause) :
    cause.isOfRun = true ∨ cause = .definition (.coroutineStory plan.qualified) ∧
      ∃ i ∈ instructions, ∃ s ∈ i.steps, ∃ ctx, reply? perform calling ctx s = none := by
  induction instructions generalizing r with
  | nil => cases h
  | cons i rest ih =>
      rw [drive] at h
      split at h
      · next after _ =>
        rcases ih after h with hOfRun | ⟨hCause, other, hOther, hSteps⟩
        · exact .inl hOfRun
        · exact .inr ⟨hCause, other, List.mem_cons_of_mem i hOther, hSteps⟩
      · next after ending hStop =>
        obtain rfl : ending = .error cause := h
        by_cases hRuns : r.skipped = 0
        · have hTurn : Turn plan perform calling i r (r.execute plan perform calling i) :=
            turn_execute i hRuns
          rw [hStop] at hTurn
          cases hTurn with
          | stops _ _ _ _ hCause => exact .inl (hCause cause rfl)
          | turnedAway hStep hNone => exact .inr ⟨rfl, i, List.mem_cons_self, _, hStep, _, hNone⟩
        · -- what is passed over does not stop the run
          rw [execute_of_skipped hRuns] at hStop
          cases hStop

end Run

end Storyline
