import Storyline.Proofs.Effects
import Storyline.Proofs.Telling

/-!
# Runs follow the telling of trees

`Mounts.invoke_eq`: running a plan comes to the same context, history included, and the same end
as telling its tree. The proof runs the instructions of some scenes and tells the scenes; their
course says in which state the run arrives at what comes after them (`Course.Leads`). A run that
leaves a story early passes over whatever scenes are left of it (`Run.drive_passOver`), and the
`leave` that follows brings it back into the story around (`Course.Leads.close`).
-/

set_option autoImplicit false

namespace Storyline

variable {β : Type}

/-! ## Single instructions -/

namespace Course

/-- The course of an instruction that was executed. -/
def ofRun : Run × Flow → Course
  | (r, .stop ending) => ended r.ctx ending
  | (r, .next) => if r.skipped = 0 then goesOn r.ctx else left r.ctx

/-- A course is that of an instruction which left a number of stories open, and the innermost of
them to be closed at most. -/
structure Matches (course : Course) (depth : Nat) (after : Run × Flow) : Prop where
  course_eq : ofRun after = course
  depth_eq : after.1.depth = depth
  skipped_le : after.1.skipped ≤ 1

theorem Matches.goesOn {r : Run} (hRuns : r.skipped = 0) :
    (goesOn r.ctx).Matches r.depth (r, .next) :=
  ⟨if_pos hRuns, rfl, by simp [hRuns]⟩

theorem Matches.ended {r : Run} (ending : Except StoryError Ending) (hRuns : r.skipped = 0) :
    (ended r.ctx ending).Matches r.depth (r, .stop ending) :=
  ⟨rfl, rfl, by simp [hRuns]⟩

end Course

namespace Run

variable {plan : Plan β} {r : Run}

theorem matches_err (error : StoryError) (hRuns : r.skipped = 0) :
    (Course.broken error r.ctx).Matches r.depth (r.err error) :=
  .ended (r := (r.mapHistory (·.mark (.errored error.kind))).emit (.erred error)) _ hRuns

theorem matches_conclude (value : Json) (hRuns : r.skipped = 0) :
    (Tell.conclude value r.ctx).Matches r.depth (r.conclude value) :=
  .ended (r := r.mapHistory (·.mark (.returned value.text))) _ hRuns

theorem matches_skip : (Tell.leave r.ctx).Matches r.depth r.skip :=
  ⟨rfl, rfl, Nat.le_refl 1⟩

theorem matches_fail (p : Place) (s : Step β) (reason : Option Reason) (hRuns : r.skipped = 0) :
    (Tell.fail plan p s reason r.ctx).Matches r.depth
      (r.fail s (.within plan.failures.isSome p.story.failures) reason) := by
  unfold Tell.fail fail
  cases hCheck : (StepProtocol.within plan.failures.isSome p.story.failures).checkReturn
      s.qualified reason with
  | error cause => exact matches_err _ hRuns
  | ok _ =>
      let failed := r.mapHistory (·.mark (.failed (reason.map Reason.display)))
      exact .ended (r := failed.emit (.failed s.qualified reason)) _ hRuns

theorem start_of_ok {definition : Story} {c : Contract} {label : String}
    (hOf : c.IsOf definition) (hStart : c.checkStart (r.entering label).ctx = .ok ()) :
    Tell.start definition label r.ctx = .goesOn (r.entering label).ctx := by
  obtain ⟨-, hArguments, -⟩ := hOf.declares
  unfold Contract.checkStart at hStart
  rw [hArguments] at hStart
  unfold Tell.start
  dsimp only
  split
  · rfl
  · next hMissed =>
    -- both look for the same names
    split at hStart
    · next hNone => exact absurd hNone hMissed
    · cases hStart

theorem start_of_error {definition : Story} {c : Contract} {label : String}
    {cause : ContractError} (hOf : c.IsOf definition)
    (hStart : c.checkStart (r.entering label).ctx = .error cause) :
    Tell.start definition label r.ctx = .broken (.contract cause) (r.entering label).ctx := by
  obtain ⟨hName, hArguments, -⟩ := hOf.declares
  unfold Contract.checkStart at hStart
  rw [hArguments, hName] at hStart
  unfold Tell.start
  dsimp only
  split
  · next hNone =>
    split at hStart
    · cases hStart
    · next hMissed => exact absurd hNone hMissed
  · split at hStart
    · cases hStart
    · cases hStart
      rfl

theorem matches_enter {definition : Story} {number : Nat} {c : Contract} (label : String)
    (hContract : plan.contracts[number]? = some c) (hOf : c.IsOf definition)
    (hRuns : r.skipped = 0) :
    (Tell.start definition label r.ctx).Matches (r.depth + 1) (r.enter plan label number) := by
  cases hStart : c.checkStart (r.entering label).ctx with
  | error cause =>
      rw [enter_of_error hContract hStart, start_of_error hOf hStart]
      exact matches_err (r := r.entering label) _ hRuns
  | ok _ =>
      rw [enter_of_ok hContract hStart, start_of_ok hOf hStart]
      exact .goesOn (r := r.entering label) hRuns

/-- The contract that values are checked against is the one with the number of the story. -/
theorem contract_at {c : Contract} {p : Place} (hContract : plan.contracts[p.number]? = some c) :
    plan.contracts.getD p.number plan.root = c := by
  rw [List.getD_eq_getElem?_getD, hContract, Option.getD_some]

theorem matches_commit {c : Contract} {p : Place} (s : Step β) (values : Bindings)
    (hContract : plan.contracts[p.number]? = some c) (hRuns : r.skipped = 0) :
    (Tell.keep plan p s values r.ctx).Matches r.depth (r.commit plan s p.number values) := by
  unfold Tell.keep
  rw [contract_at hContract]
  cases hCheck : c.checkOutput s.qualified r.ctx values with
  | error cause =>
      rw [commit_of_error hContract hCheck]
      exact matches_err _ hRuns
  | ok kept =>
      rw [commit_of_ok hContract hCheck]
      exact .goesOn (r := { r with ctx := r.ctx.extend s.qualified kept }) hRuns

theorem matches_commitAll {c : Contract} {p : Place}
    (hContract : plan.contracts[p.number]? = some c) (branches : List (Step β × Bindings))
    (hRuns : r.skipped = 0) :
    (Tell.keepAll plan p branches r.ctx).Matches r.depth
      (r.commitAll plan p.number branches) := by
  induction branches generalizing r with
  | nil => exact .goesOn hRuns
  | cons branch rest ih =>
      obtain ⟨s, values⟩ := branch
      unfold Tell.keepAll Tell.keep commitAll
      rw [contract_at hContract]
      cases hCheck : c.checkOutput s.qualified r.ctx values with
      | error cause =>
          rw [commit_of_error hContract hCheck]
          exact matches_err _ hRuns
      | ok kept =>
          rw [commit_of_ok hContract hCheck]
          exact ih (r := { r with ctx := r.ctx.extend s.qualified kept }) hRuns

/-- The answer of a step is judged as in the telling, the outermost story being that at depth
one. -/
theorem matches_judge {c : Contract} {p : Place} (s : Step β)
    (hContract : plan.contracts[p.number]? = some c) (hDepth : p.number = 0 ↔ r.depth ≤ 1)
    (result : Except StepError Outcome) (hRuns : r.skipped = 0) :
    (Tell.judge plan p s r.ctx result).Matches r.depth
      (r.judge plan s p.number (.within plan.failures.isSome p.story.failures) result) := by
  cases result with
  | error cause => exact matches_err _ hRuns
  | ok outcome =>
      let answered := r.emit (.answered s.qualified outcome)
      cases outcome with
      | success values => exact matches_commit (r := answered) s values hContract hRuns
      | failure reason => exact matches_fail (r := answered) p s reason hRuns
      | result value => exact matches_conclude (r := answered) value hRuns
      | skip => exact matches_skip (r := answered)
      | next value =>
          unfold Tell.judge judge
          cases plan.mode with
          | function => exact matches_err (r := answered) _ hRuns
          | coroutine =>
              cases value with
              | none => exact matches_skip (r := answered)
              | some value =>
                  show (if p.number = 0 then Tell.conclude value r.ctx
                    else Tell.leave r.ctx).Matches r.depth
                    (if answered.depth ≤ 1 then answered.conclude value else answered.skip)
                  -- the number tells the outermost story, where the run has its depth
                  have hAnswered : p.number = 0 ↔ answered.depth ≤ 1 := hDepth
                  by_cases hOutermost : p.number = 0
                  · rw [if_pos hOutermost, if_pos (hAnswered.mp hOutermost)]
                    exact matches_conclude (r := answered) value hRuns
                  · rw [if_neg hOutermost, if_neg (hAnswered.not.mp hOutermost)]
                    exact matches_skip (r := answered)

variable {perform : β → Context → Reply} {calling : Calling}

theorem step_of_none {p : Place} {s : Step β}
    (hReply : reply? perform calling (r.invoking s).ctx s = none) :
    Tell.step plan perform calling p s r.ctx =
      .ended (r.invoking s).ctx (.error (.definition (.coroutineStory plan.qualified))) := by
  unfold Tell.step
  dsimp only
  split
  · rfl
  · next reply hSome => cases hReply.symm.trans hSome

theorem step_of_some {p : Place} {s : Step β} {reply : Reply}
    (hReply : reply? perform calling (r.invoking s).ctx s = some reply) :
    Tell.step plan perform calling p s r.ctx =
      Tell.judge plan p s (r.invoking s).ctx reply.result := by
  unfold Tell.step
  dsimp only
  split
  · next hNone => cases hReply.symm.trans hNone
  · next other hSome =>
    cases hReply.symm.trans hSome
    rfl

theorem matches_runStep {c : Contract} {p : Place} (s : Step β)
    (hContract : plan.contracts[p.number]? = some c) (hDepth : p.number = 0 ↔ r.depth ≤ 1)
    (hRuns : r.skipped = 0) :
    (Tell.step plan perform calling p s r.ctx).Matches r.depth
      (r.runStep plan perform calling s p.number
        (.within plan.failures.isSome p.story.failures)) := by
  cases hReply : reply? perform calling (r.invoking s).ctx s with
  | none =>
      rw [runStep_of_none hReply, step_of_none hReply]
      exact .ended (r := r.invoking s) _ hRuns
  | some reply =>
      rw [runStep_of_some hReply, step_of_some hReply]
      let replied : Run := { r.invoking s with events := (r.invoking s).events ++ reply.events }
      exact matches_judge (r := replied) s hContract hDepth reply.result hRuns

theorem matches_judgeGroup {c : Contract} {p : Place}
    (hContract : plan.contracts[p.number]? = some c)
    (results : List (Step β × Except StepError Outcome)) (hRuns : r.skipped = 0) :
    (Tell.judgeGroup plan p results r.ctx).Matches r.depth
      (r.judgeGroup plan p.number (.within plan.failures.isSome p.story.failures) results) := by
  unfold Tell.judgeGroup judgeGroup
  cases outcomes plan.mode results with
  | error cause => exact matches_err _ hRuns
  | ok answers =>
      dsimp only
      cases GroupResult.ofAnswers answers with
      | success branches => exact matches_commitAll hContract branches hRuns
      | failure s reason => exact matches_fail p s reason hRuns
      | result value => exact matches_conclude value hRuns

theorem matches_runGroup {c : Contract} {p : Place} (steps : List (Step β))
    (hContract : plan.contracts[p.number]? = some c) (hRuns : r.skipped = 0) :
    (Tell.group plan perform calling p steps r.ctx).Matches r.depth
      (r.runGroup plan perform calling steps p.number
        (.within plan.failures.isSome p.story.failures)) := by
  -- the run keeps the events of all replies, the telling their results only
  let entered := r.mapHistory (·.enter (Instruction.groupName steps))
  let replies := steps.map fun s => (s, branchReply perform calling entered.ctx s)
  let invoked := steps.map fun s => Event.invoked s.qualified entered.ctx
  let called := (replies.map fun answer => answer.2.events).flatten
  let replied := { entered with events := entered.events ++ invoked ++ called }
  let results := replies.map fun answer => (answer.1, answer.2.result)
  have hResults : steps.map (fun s => (s, (branchReply perform calling entered.ctx s).result)) =
      results := by
    simp [results, replies]
  have hGroup : Tell.group plan perform calling p steps r.ctx =
      Tell.judgeGroup plan p results replied.ctx := by
    rw [← hResults]
    rfl
  rw [hGroup]
  exact matches_judgeGroup (r := replied) hContract results hRuns

end Run

/-! ## Scenes left out -/

namespace Run

variable {plan : Plan β} {perform : β → Context → Reply} {calling : Calling}

theorem drive_of_next {i : Instruction β} {r after : Run}
    (h : r.execute plan perform calling i = (after, .next)) (rest : List (Instruction β)) :
    drive plan perform calling (i :: rest) r = drive plan perform calling rest after := by
  rw [drive, h]

theorem drive_of_stop {i : Instruction β} {r after : Run} {ending : Except StoryError Ending}
    (h : r.execute plan perform calling i = (after, .stop ending))
    (rest : List (Instruction β)) :
    drive plan perform calling (i :: rest) r = (after, ending) := by
  rw [drive, h]

theorem drive_cons_skipped {r : Run} (i : Instruction β) (rest : List (Instruction β))
    (hSkips : r.skipped ≠ 0) :
    drive plan perform calling (i :: rest) r = drive plan perform calling rest (r.passOver i) :=
  drive_of_next (execute_of_skipped hSkips) rest

/-- A run that skips passes over scenes, substories included, and skips as before. -/
theorem drive_passOver (plan : Plan β) (perform : β → Context → Reply) (calling : Calling)
    (isShut : Bool) (p : Place) (next : Nat) (scenes : Scenes β)
    (rest : List (Instruction β)) {r : Run} (hSkips : r.skipped ≠ 0) :
    drive plan perform calling (scenes.instructions isShut p next ++ rest) r =
      drive plan perform calling rest r := by
  induction scenes generalizing p next rest r with
  | done => rfl
  | step s others ih =>
      rw [Scenes.instructions_step, List.cons_append, drive_cons_skipped _ _ hSkips]
      exact ih p next rest hSkips
  | parallel steps others ih =>
      rw [Scenes.instructions_parallel, List.cons_append, drive_cons_skipped _ _ hSkips]
      exact ih p next rest hSkips
  | story name definition owner inner others ihInner ih =>
      -- entering counts one story more, and the `leave` that belongs to it counts it off again
      let inside : Run := { r with skipped := r.skipped + 1 }
      have hInside : inside.skipped ≠ 0 := Nat.succ_ne_zero _
      have hLeave : inside.passOver (.leave : Instruction β) = r := by
        have hDeep : ¬ r.skipped + 1 = 1 := by omega
        simp only [passOver, inside, if_neg hDeep, Nat.add_sub_cancel]
      let after := others.instructions isShut p (next + 1 + inner.stories.length) ++ rest
      rw [Scenes.instructions_story, List.cons_append, List.append_assoc, List.cons_append]
      calc drive plan perform calling _ r
          = drive plan perform calling
              (inner.instructions isShut ⟨definition, owner, next⟩ (next + 1) ++ .leave :: after)
              inside := drive_cons_skipped _ _ hSkips
        _ = drive plan perform calling (.leave :: after) inside := ihInner _ _ _ hInside
        _ = drive plan perform calling after (inside.passOver (.leave : Instruction β)) :=
            drive_cons_skipped _ _ hInside
        _ = drive plan perform calling after r := by rw [hLeave]
        _ = drive plan perform calling rest r := ih _ _ rest hSkips

end Run

/-! ## Where a course leads -/

/-- Where a run arrives by a course: at what comes next (`go`), in the same story or with this
story still to be closed, or at its end. `came` is what the run comes to in the end. -/
def Course.Leads (course : Course) (depth : Nat) (came : Run × Except StoryError Ending)
    (go : Run → Run × Except StoryError Ending) : Prop :=
  match course with
  | goesOn ctx => ∃ r : Run, r.ctx = ctx ∧ r.skipped = 0 ∧ r.depth = depth ∧ came = go r
  | left ctx => ∃ r : Run, r.ctx = ctx ∧ r.skipped = 1 ∧ r.depth = depth ∧ came = go r
  | ended ctx ending => came.1.ctx = ctx ∧ came.2 = ending

namespace Course

open Run

variable {plan : Plan β} {perform : β → Context → Reply} {calling : Calling}

/-- An instruction leads to the rest of the instructions. -/
theorem Matches.leads {course : Course} {depth : Nat} {i : Instruction β} {r : Run}
    (h : course.Matches depth (r.execute plan perform calling i)) (rest : List (Instruction β)) :
    course.Leads depth (drive plan perform calling (i :: rest) r)
      (drive plan perform calling rest) := by
  obtain ⟨rfl, hDepth, hSkipped⟩ := h
  rcases hExecute : r.execute plan perform calling i with ⟨after, flow⟩
  rw [hExecute] at hDepth hSkipped
  cases flow with
  | stop ending =>
      rw [drive_of_stop hExecute]
      exact ⟨rfl, rfl⟩
  | next =>
      rw [drive_of_next hExecute]
      by_cases hRuns : after.skipped = 0
      · rw [ofRun, if_pos hRuns]
        exact ⟨after, rfl, hRuns, hDepth, rfl⟩
      · rw [ofRun, if_neg hRuns]
        have hSkips : after.skipped = 1 := Nat.le_antisymm hSkipped (Nat.pos_of_ne_zero hRuns)
        exact ⟨after, rfl, hSkips, hDepth, rfl⟩

/-- Scenes that come next are told only if the story goes on, and are passed over otherwise. -/
theorem Leads.andThen {course : Course} {depth : Nat} {came : Run × Except StoryError Ending}
    {isShut : Bool} {p : Place} {next : Nat} {scenes : Scenes β} {rest : List (Instruction β)}
    (h : course.Leads depth came
      (drive plan perform calling (scenes.instructions isShut p next ++ rest)))
    {tell : Context → Course}
    (hTell : ∀ r : Run, r.skipped = 0 → r.depth = depth →
      (tell r.ctx).Leads depth
        (drive plan perform calling (scenes.instructions isShut p next ++ rest) r)
        (drive plan perform calling rest)) :
    (course.andThen tell).Leads depth came (drive plan perform calling rest) := by
  cases course with
  | goesOn ctx =>
      obtain ⟨r, rfl, hRuns, hDepth, rfl⟩ := h
      exact hTell r hRuns hDepth
  | left ctx =>
      -- the course stays `left` until the story is closed
      obtain ⟨r, rfl, hSkips, hDepth, rfl⟩ := h
      have hPass := drive_passOver plan perform calling isShut p next scenes rest
        (r := r) (by omega)
      exact ⟨r, rfl, hSkips, hDepth, hPass⟩
  | ended ctx ending => exact h

/-- The end of a story leads back into the story around it, whether the story was told to its
end or left early. -/
theorem Leads.close {course : Course} {depth : Nat} {came : Run × Except StoryError Ending}
    {rest : List (Instruction β)}
    (h : course.Leads (depth + 1) came (drive plan perform calling (.leave :: rest))) :
    course.close.Leads depth came (drive plan perform calling rest) := by
  cases course with
  | goesOn ctx =>
      obtain ⟨r, rfl, hRuns, hDepth, rfl⟩ := h
      rw [drive_of_next (execute_leave hRuns)]
      refine ⟨r.leave.1, rfl, hRuns, ?_, rfl⟩
      show r.depth - 1 = depth
      omega
  | left ctx =>
      -- the history has closed the story already, so that only the counters change
      obtain ⟨r, rfl, hSkips, hDepth, rfl⟩ := h
      rw [drive_cons_skipped _ _ (by omega)]
      refine ⟨r.passOver (.leave : Instruction β), rfl, ?_, ?_, rfl⟩
      · show r.skipped - 1 = 0
        omega
      · show (if r.skipped = 1 then r.depth - 1 else r.depth) = depth
        rw [if_pos hSkips]
        omega
  | ended ctx ending => exact h

/-- When nothing comes next the run has ended, whether the last story was left early or not. -/
theorem Leads.result_eq {course : Course} {depth : Nat} {came : Run × Except StoryError Ending}
    (h : course.Leads depth came (drive plan perform calling [])) :
    course.result = (came.1.ctx, came.2) := by
  cases course with
  | goesOn ctx =>
      obtain ⟨r, rfl, -, -, rfl⟩ := h
      rfl
  | left ctx =>
      obtain ⟨r, rfl, -, -, rfl⟩ := h
      rfl
  | ended ctx ending =>
      obtain ⟨rfl, rfl⟩ := h
      rfl

end Course

/-! ## Scenes and trees -/

namespace Run

open Course

variable {plan : Plan β} {perform : β → Context → Reply} {calling : Calling}

theorem leads_step {c : Contract} {p : Place} {r : Run} (s : Step β)
    (hContract : plan.contracts[p.number]? = some c) (hDepth : p.number = 0 ↔ r.depth ≤ 1)
    (hRuns : r.skipped = 0) (rest : List (Instruction β)) :
    (Tell.step plan perform calling p s r.ctx).Leads r.depth
      (drive plan perform calling
        (.step s p.number (.within plan.failures.isSome p.story.failures) :: rest) r)
      (drive plan perform calling rest) := by
  refine Matches.leads ?_ rest
  rw [execute_step hRuns]
  exact matches_runStep s hContract hDepth hRuns

theorem leads_group {c : Contract} {p : Place} {r : Run} (steps : List (Step β))
    (hContract : plan.contracts[p.number]? = some c) (hRuns : r.skipped = 0)
    (rest : List (Instruction β)) :
    (Tell.group plan perform calling p steps r.ctx).Leads r.depth
      (drive plan perform calling
        (.parallel steps p.number (.within plan.failures.isSome p.story.failures) :: rest) r)
      (drive plan perform calling rest) := by
  refine Matches.leads ?_ rest
  rw [execute_parallel hRuns]
  exact matches_runGroup steps hContract hRuns

theorem leads_start (plan : Plan β) (perform : β → Context → Reply) (calling : Calling)
    {definition : Story} {number : Nat} {c : Contract} {r : Run} (label : String)
    (hContract : plan.contracts[number]? = some c) (hOf : c.IsOf definition)
    (hRuns : r.skipped = 0) (rest : List (Instruction β)) :
    (Tell.start definition label r.ctx).Leads (r.depth + 1)
      (drive plan perform calling (.enter label number :: rest) r)
      (drive plan perform calling rest) := by
  refine Matches.leads ?_ rest
  rw [execute_enter hRuns]
  exact matches_enter label hContract hOf hRuns

/-- **Running the instructions of some scenes is telling the scenes.** The run stands in a story
whose number is zero exactly when no other story is open. -/
theorem drive_scenes {all : List Story} (hAll : List.Forall₂ Contract.IsOf plan.contracts all)
    (p : Place) (next : Nat) (scenes : Scenes β) (hScenes : scenes.NumberedIn all next)
    {c : Contract} (hContract : plan.contracts[p.number]? = some c) (hNext : 0 < next)
    {r : Run} (hRuns : r.skipped = 0) (hOpen : 0 < r.depth) (hDepth : p.number = 0 ↔ r.depth ≤ 1)
    (rest : List (Instruction β)) :
    (Tell.scenes plan perform calling p next scenes r.ctx).Leads r.depth
      (drive plan perform calling
        (scenes.instructions plan.failures.isSome p next ++ rest) r)
      (drive plan perform calling rest) := by
  induction scenes generalizing p next c r rest with
  | done => exact ⟨r, rfl, hRuns, rfl, rfl⟩
  | step s others ih =>
      rw [Scenes.instructions_step, List.cons_append, Tell.scenes]
      refine (leads_step s hContract hDepth hRuns _).andThen fun r' hRuns' hDepth' => ?_
      rw [← hDepth'] at hOpen hDepth ⊢
      exact ih p next hScenes hContract hNext hRuns' hOpen hDepth rest
  | parallel steps others ih =>
      rw [Scenes.instructions_parallel, List.cons_append, Tell.scenes]
      refine (leads_group steps hContract hRuns _).andThen fun r' hRuns' hDepth' => ?_
      rw [← hDepth'] at hOpen hDepth ⊢
      exact ih p next hScenes hContract hNext hRuns' hOpen hDepth rest
  | story name definition owner inner others ihInner ih =>
      obtain ⟨hStory, hInner, hOthers⟩ := hScenes.of_story
      obtain ⟨child, hChild, hOf⟩ := Contract.exists_isOf hAll hStory
      -- start, told inside, closed, and then what comes after it
      rw [Scenes.instructions_story, List.cons_append, List.append_assoc, List.cons_append,
        Tell.scenes]
      have hStart := leads_start plan perform calling
        (Scenes.label p.owner name definition owner) hChild hOf hRuns
      refine ((hStart _).andThen fun r' hRuns' hDepth' => ?_).close.andThen
        fun r' hRuns' hDepth' => ?_
      · -- inside, the number is not zero, and there are two open stories at least
        rw [← hDepth']
        refine ihInner ⟨definition, owner, next⟩ (next + 1) hInner hChild (by omega) hRuns'
          (by omega) ?_ _
        constructor
        · intro hZero
          exact absurd hZero (by simpa using Nat.ne_of_gt hNext)
        · intro hShallow
          omega
      · -- the story around goes on as deep as before
        rw [← hDepth'] at hOpen hDepth ⊢
        exact ih p _ hOthers hContract (by omega) hRuns' hOpen hDepth rest

end Run

/-- The instructions of a tree lead where telling it leads. -/
theorem Mounts.leads_tell {cast : Cast β} {tree : StoryTree β} {plan : Plan β}
    (h : Mounts cast tree plan) (perform : β → Context → Reply) (calling : Calling) {r : Run}
    (hRuns : r.skipped = 0) (hDepth : r.depth = 0) :
    (tree.tell plan perform calling r.ctx).Leads 0
      (Run.drive plan perform calling plan.instructions r)
      (Run.drive plan perform calling []) := by
  have hAll := h.contracts_of
  -- the outermost story has number zero, and the stories in it are counted from one
  have hFirst : tree.stories[0]? = some tree.definition := rfl
  obtain ⟨root, hRoot, hOf⟩ := Contract.exists_isOf hAll hFirst
  have hScenes : tree.scenes.NumberedIn tree.stories 1 := List.prefix_rfl
  rw [h.instructions_eq, StoryTree.instructions_eq, StoryTree.tell]
  have hStart := Run.leads_start plan perform calling tree.definition.qualified hRoot hOf hRuns
  rw [hDepth] at hStart
  refine ((hStart _).andThen fun r' hRuns' hDepth' => ?_).close
  rw [← hDepth']
  exact Run.drive_scenes hAll ⟨tree.definition, tree.owner, 0⟩ 1 tree.scenes hScenes hRoot
    Nat.one_pos hRuns' (by omega) (by simp [hDepth']) [.leave]

/-- **A run of a mounted story is the telling of its tree**: whatever the arguments are and
whatever the bodies of the steps do, both come to the same context, history included, and the same
end, or to the same refusal of the arguments. -/
theorem Mounts.invoke_eq {cast : Cast β} {tree : StoryTree β} {plan : Plan β}
    (h : Mounts cast tree plan) (perform : β → Context → Reply) (calling : Calling)
    (width : Nat) (arguments : Bindings) :
    (plan.invoke perform calling width arguments).map (fun i => (i.ctx, i.ending)) =
      tree.invoke plan perform calling width arguments := by
  unfold Plan.invoke StoryTree.invoke
  cases plan.root.checkCall arguments with
  | error cause => rfl
  | ok values =>
      have hLeads := h.leads_tell perform calling (r :=
        { ctx := plan.initialContext width values
          events := [.started plan.qualified (plan.initialContext width values)] }) rfl rfl
      exact congrArg Except.ok hLeads.result_eq.symm

/-- Both leave the payment early and fail where the shop is sold out. -/
theorem Shop.told_as_run :
    (plan.invoke answer .blocking 80 arguments).map (fun i => (i.ctx, i.ending)) =
        tree.invoke plan answer .blocking 80 arguments ∧
      (tree.invoke plan answer .blocking 80 arguments).map Prod.snd =
        .ok (.ok (.failure "ship" (some (.token "sold out")))) :=
  ⟨Mounts.invoke_eq mounts answer .blocking 80 arguments, rfl⟩

end Storyline
