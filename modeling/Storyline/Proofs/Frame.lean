import Storyline.Proofs.Chronicle

/-!
# What instructions leave alone

Steps answer with values and outcomes: how wide the context is shown and how many stories are open
is not up to them. An executed instruction keeps the width (`Run.width_execute`), and it changes the
number of open stories as it does in the description (`Run.depth_execute`).
-/

set_option autoImplicit false

namespace Storyline

variable {β : Type}

namespace Run

/-- A state has as many open stories as another, and a context of the same width. -/
structure Frames (r r' : Run) : Prop where
  depth_eq : r'.depth = r.depth
  width_eq : r'.ctx.width = r.ctx.width

variable {plan : Plan β} {perform : β → Context → Reply} {calling : Calling} {r t : Run}

section

variable (h : r.Frames t)

include h

theorem Frames.err (error : StoryError) : r.Frames (t.err error).1 := ⟨h.depth_eq, h.width_eq⟩

theorem Frames.conclude (value : Json) : r.Frames (t.conclude value).1 :=
  ⟨h.depth_eq, h.width_eq⟩

theorem Frames.skip : r.Frames t.skip.1 := ⟨h.depth_eq, h.width_eq⟩

theorem Frames.fail (s : Step β) (protocol : StepProtocol) (reason : Option Reason) :
    r.Frames (t.fail s protocol reason).1 := by
  unfold Run.fail
  split
  · exact h.err _
  · exact ⟨h.depth_eq, h.width_eq⟩

theorem Frames.commit (s : Step β) (number : Nat) (values : Bindings) :
    r.Frames (t.commit plan s number values).1 := by
  rcases commit_cases plan s number values t with ⟨kept, hKept⟩ | ⟨cause, hRejected⟩
  · rw [hKept]
    exact ⟨h.depth_eq, h.width_eq⟩
  · rw [hRejected]
    exact h.err _

end

theorem Frames.commitAll (h : r.Frames t) (number : Nat) (branches : List (Step β × Bindings)) :
    r.Frames (t.commitAll plan number branches).1 := by
  induction branches generalizing t with
  | nil => exact h
  | cons branch rest ih =>
      obtain ⟨s, values⟩ := branch
      rw [Run.commitAll]
      rcases commit_cases plan s number values t with ⟨kept, hKept⟩ | ⟨cause, hRejected⟩
      · rw [hKept]
        exact ih (t := { t with ctx := t.ctx.extend s.qualified kept }) ⟨h.depth_eq, h.width_eq⟩
      · rw [hRejected]
        exact h.err _

theorem Frames.judge (h : r.Frames t) (s : Step β) (number : Nat) (protocol : StepProtocol)
    (result : Except StepError Outcome) : r.Frames (t.judge plan s number protocol result).1 := by
  cases result with
  | error cause => exact h.err _
  | ok outcome =>
      have hAnswered : r.Frames (t.emit (.answered s.qualified outcome)) :=
        ⟨h.depth_eq, h.width_eq⟩
      unfold Run.judge
      dsimp only
      split
      · exact hAnswered.err _
      cases outcome with
      | success values => exact hAnswered.commit s number values
      | failure reason => exact hAnswered.fail s protocol reason
      | result value => exact hAnswered.conclude value
      | skip => exact hAnswered.skip
      | next value =>
          cases value with
          | none => exact hAnswered.skip
          | some value =>
              dsimp only
              split
              · exact hAnswered.conclude value
              · exact hAnswered.skip

theorem Frames.judgeGroup (h : r.Frames t) (number : Nat) (protocol : StepProtocol)
    (results : List (Step β × Except StepError Outcome)) :
    r.Frames (t.judgeGroup plan number protocol results).1 := by
  unfold Run.judgeGroup
  split
  · exact h.err _
  · split
    · exact h.commitAll number _
    · exact h.fail _ protocol _
    · exact h.conclude _

theorem frames_runStep (s : Step β) (number : Nat) (protocol : StepProtocol) :
    r.Frames (r.runStep plan perform calling s number protocol).1 := by
  unfold runStep
  dsimp only
  split
  · exact ⟨rfl, rfl⟩
  · refine Frames.judge ?_ s number protocol _
    exact ⟨rfl, rfl⟩

theorem frames_runGroup (steps : List (Step β)) (number : Nat) (protocol : StepProtocol) :
    r.Frames (r.runGroup plan perform calling steps number protocol).1 := by
  refine Frames.judgeGroup ?_ number protocol _
  exact ⟨rfl, rfl⟩

/-- Entering a story opens one more, whether or not its arguments are there. -/
theorem frames_enter (label : String) (number : Nat) :
    (r.entering label).Frames (r.enter plan label number).1 := by
  have hEntered : (r.entering label).Frames (r.entering label) := ⟨rfl, rfl⟩
  unfold enter
  dsimp only
  split
  · exact hEntered
  · split
    · exact hEntered
    · exact hEntered.err _

/-- **Instructions open and close stories as they are written.** -/
theorem depth_execute (plan : Plan β) (perform : β → Context → Reply) (calling : Calling)
    (i : Instruction β) (hRuns : r.skipped = 0) :
    (r.execute plan perform calling i).1.depth = i.depthAfter r.depth := by
  cases i with
  | enter label number =>
      rw [execute_enter hRuns]
      exact (frames_enter label number).depth_eq
  | leave =>
      rw [execute_leave hRuns]
      rfl
  | step s number protocol =>
      rw [execute_step hRuns]
      exact (frames_runStep s number protocol).depth_eq
  | parallel steps number protocol =>
      rw [execute_parallel hRuns]
      exact (frames_runGroup steps number protocol).depth_eq

/-- Contexts are shown as wide as before. -/
theorem width_execute (plan : Plan β) (perform : β → Context → Reply) (calling : Calling)
    (i : Instruction β) (r : Run) :
    (r.execute plan perform calling i).1.ctx.width = r.ctx.width := by
  by_cases hRuns : r.skipped = 0
  · cases i with
    | enter label number =>
        rw [execute_enter hRuns]
        exact (frames_enter label number).width_eq
    | leave =>
        rw [execute_leave hRuns]
        rfl
    | step s number protocol =>
        rw [execute_step hRuns]
        exact (frames_runStep s number protocol).width_eq
    | parallel steps number protocol =>
        rw [execute_parallel hRuns]
        exact (frames_runGroup steps number protocol).width_eq
  · rw [execute_of_skipped hRuns]
    cases i <;> rfl

end Run

end Storyline
