import Storyline.Proofs.Effects

/-!
# The events of an instruction

An executed instruction tells what it does as events, in this order: first that a story is entered
or left or which steps are invoked (`Instruction.opening`), then what the bodies of its steps tell
and, for a single step, its answer (`Instruction.spoken`), and last how it stops the run, if it does
(`Run.Closes`). `Run.closes_execute` is proved once for stories, steps and groups.
-/

set_option autoImplicit false

namespace Storyline

variable {β : Type}

/-- The answer of a single step, as it is told. -/
def Step.answered (s : Step β) : Except StepError Outcome → List Event
  | .ok outcome => [.answered s.qualified outcome]
  | .error _ => []

namespace Instruction

/-- The events of an instruction before the bodies of its steps run. -/
def opening (r : Run) : Instruction β → List Event
  | enter label _ => [.entered label (r.depth + 1)]
  | leave => [.left r.depth]
  | i => i.steps.map fun s => .invoked s.qualified (i.seen r.ctx)

/-- What the bodies of the steps of an instruction tell, with the answer if there is a single
step. -/
def spoken (perform : β → Context → Reply) (calling : Calling) (r : Run) :
    Instruction β → List Event
  | i@(step s _ _) =>
    match Run.reply? perform calling (i.seen r.ctx) s with
    | some reply => reply.events ++ s.answered reply.result
    | none => []
  | i@(parallel steps _ _) =>
    (steps.map fun s => (Run.branchReply perform calling (i.seen r.ctx) s).events).flatten
  | _ => []

end Instruction

namespace Run

/-- All that can be told at the end of an instruction, after other events. -/
inductive Closes (i : Instruction β) (told : List Event) : Run × Flow → Prop where
  | goesOn {r' : Run} : r'.events = told → Closes i told (r', .next)
  | concludes {r' : Run} {value : Json} :
      r'.events = told → Closes i told (r', .stop (.ok (.result value)))
  /-- A step fails, and its protocol allows it. -/
  | failed {r' : Run} {s : Step β} {reason : Option Reason} {protocol : StepProtocol} :
      r'.events = told ++ [.failed s.qualified reason] → s ∈ i.steps →
      i.protocol? = some protocol → protocol.checkReturn s.qualified reason = .ok () →
      Closes i told (r', .stop (.ok (.failure s.name reason)))
  | erred {r' : Run} {cause : StoryError} :
      r'.events = told ++ [.erred cause] → Closes i told (r', .stop (.error cause))
  /-- A coroutine can not be run for a caller who blocks. -/
  | turnedAway {r' : Run} {story : String} :
      r'.events = told → Closes i told (r', .stop (.error (.definition (.coroutineStory story))))

variable {plan : Plan β} {perform : β → Context → Reply} {calling : Calling}
  {i : Instruction β} {r t : Run} {told : List Event}

section

variable (hTold : t.events = told)

include hTold

theorem Closes.err (error : StoryError) : Closes i told (t.err error) :=
  .erred (by rw [← hTold]; rfl)

theorem Closes.conclude (value : Json) : Closes i told (t.conclude value) := .concludes hTold

theorem Closes.skip : Closes i told t.skip := .goesOn hTold

theorem Closes.fail {s : Step β} {protocol : StepProtocol} (hStep : s ∈ i.steps)
    (hProtocol : i.protocol? = some protocol) (reason : Option Reason) :
    Closes i told (t.fail s protocol reason) := by
  unfold Run.fail
  cases hCheck : protocol.checkReturn s.qualified reason with
  | error cause => exact .err hTold _
  | ok _ =>
      refine .failed ?_ hStep hProtocol hCheck
      rw [← hTold]
      rfl

theorem Closes.commit (s : Step β) (number : Nat) (values : Bindings) :
    Closes i told (t.commit plan s number values) := by
  unfold Run.commit
  split
  · exact .goesOn hTold
  · split
    · exact .goesOn hTold
    · exact .err hTold _

end

theorem Closes.commitAll (hTold : t.events = told) (number : Nat)
    (branches : List (Step β × Bindings)) :
    Closes i told (t.commitAll plan number branches) := by
  induction branches generalizing t with
  | nil => exact .goesOn hTold
  | cons branch rest ih =>
      obtain ⟨s, values⟩ := branch
      have hFirst : Closes i told (t.commit plan s number values) := .commit hTold s number values
      rw [Run.commitAll]
      generalize t.commit plan s number values = committed at hFirst ⊢
      obtain ⟨after, flow⟩ := committed
      cases flow with
      | stop ending => exact hFirst
      | next =>
          cases hFirst with
          | goesOn hSame => exact ih hSame

/-- The answer of a single step is told before what comes of it. -/
theorem closes_judge {s : Step β} {number : Nat} {protocol : StepProtocol}
    (result : Except StepError Outcome) :
    Closes (.step s number protocol) (t.events ++ s.answered result)
      (t.judge plan s number protocol result) := by
  cases result with
  | error cause => exact .err (List.append_nil _).symm _
  | ok outcome =>
      have hTold : (t.emit (.answered s.qualified outcome)).events =
          t.events ++ s.answered (.ok outcome) := rfl
      unfold judge
      dsimp only
      split
      · exact .err hTold _
      cases outcome with
      | success values => exact .commit hTold s number values
      | failure reason => exact .fail hTold (List.mem_singleton_self s) rfl reason
      | result value => exact .conclude hTold value
      | skip => exact .skip hTold
      | next value =>
          cases value with
          | none => exact .skip hTold
          | some value =>
              dsimp only
              split
              · exact .conclude hTold value
              · exact .skip hTold

theorem closes_runStep (s : Step β) (number : Nat) (protocol : StepProtocol) :
    Closes (.step s number protocol)
      (r.events ++ (Instruction.step s number protocol).opening r ++
        (Instruction.step s number protocol).spoken perform calling r)
      (r.runStep plan perform calling s number protocol) := by
  have hInvoking : (r.invoking s).events =
      r.events ++ (Instruction.step s number protocol).opening r := rfl
  have hSeen : (r.invoking s).ctx = (Instruction.step s number protocol).seen r.ctx := rfl
  rw [← hInvoking, Instruction.spoken, ← hSeen]
  cases hReply : reply? perform calling (r.invoking s).ctx s with
  | none =>
      rw [runStep_of_none hReply]
      exact .turnedAway (List.append_nil _).symm
  | some reply =>
      let replied : Run :=
        { r.invoking s with events := (r.invoking s).events ++ reply.events }
      rw [runStep_of_some hReply, ← List.append_assoc]
      exact closes_judge (t := replied) reply.result

/-- The step of a failure that a group comes to is one of its steps. -/
theorem closes_judgeGroup {steps : List (Step β)} {number : Nat} {protocol : StepProtocol}
    {results : List (Step β × Except StepError Outcome)} (hTold : t.events = told)
    (hSteps : ∀ branch ∈ results, branch.1 ∈ steps) :
    Closes (.parallel steps number protocol) told (t.judgeGroup plan number protocol results) := by
  unfold judgeGroup
  cases hOutcomes : outcomes plan.mode results with
  | error cause => exact .err hTold cause
  | ok answers =>
      dsimp only
      cases hMerged : GroupResult.ofAnswers answers with
      | success branches => exact .commitAll hTold number branches
      | result value => exact .conclude hTold value
      | failure s reason =>
          have hMem : (s, .ok (.failure reason)) ∈ results := by
            rw [results_eq_of_outcomes hOutcomes]
            exact List.mem_map.mpr ⟨_, GroupResult.ofAnswers_eq_failure hMerged, rfl⟩
          exact .fail hTold (hSteps _ hMem) rfl reason

theorem closes_runGroup (steps : List (Step β)) (number : Nat) (protocol : StepProtocol) :
    Closes (.parallel steps number protocol)
      (r.events ++ (Instruction.parallel steps number protocol).opening r ++
        (Instruction.parallel steps number protocol).spoken perform calling r)
      (r.runGroup plan perform calling steps number protocol) := by
  unfold runGroup
  refine closes_judgeGroup ?_ ?_
  · simp only [Instruction.spoken, List.map_map]
    rfl
  · intro branch hBranch
    simp only [List.map_map, List.mem_map] at hBranch
    obtain ⟨s, hStep, rfl⟩ := hBranch
    exact hStep

/-- **What an executed instruction tells.** -/
theorem closes_execute (plan : Plan β) (perform : β → Context → Reply) (calling : Calling)
    (i : Instruction β) (hRuns : r.skipped = 0) :
    Closes i (r.events ++ i.opening r ++ i.spoken perform calling r)
      (r.execute plan perform calling i) := by
  cases i with
  | enter label number =>
      have hTold : (r.entering label).events = r.events ++
          (Instruction.enter label number : Instruction β).opening r ++ [] := by
        rw [List.append_nil]
        rfl
      rw [execute_enter hRuns]
      unfold enter
      dsimp only
      split
      · exact .goesOn hTold
      · split
        · exact .goesOn hTold
        · exact .err (t := r.entering label) hTold _
  | leave =>
      rw [execute_leave hRuns]
      exact .goesOn (List.append_nil _).symm
  | step s number protocol =>
      rw [execute_step hRuns]
      exact closes_runStep s number protocol
  | parallel steps number protocol =>
      rw [execute_parallel hRuns]
      exact closes_runGroup steps number protocol

/-- What is passed over is not told. -/
@[simp] theorem events_passOver (r : Run) (i : Instruction β) : (r.passOver i).events = r.events := by
  cases i <;> rfl

end Run

end Storyline
