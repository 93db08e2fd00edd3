import Storyline.Proofs.Brackets

/-!
# The counters of a run

A run counts the open stories (`Run.depth`), the stories still to be closed (`Run.skipped`), and in
its history how deep the next line lies. The three change at different instructions: the history
leaves a story with the step that cuts it short, the number of open stories changes where the story
ends, and whatever starts and ends in between changes only what is still to be closed.

`Run.Counts` ties them to the stories that were entered and not left so far (`Run.balance`): as long
as instructions are executed, both depths are the number of these stories, and while they are passed
over, the stories still to be closed are one more than those that exceed the depth of the run. The
counters are natural numbers, for which subtraction ends at zero; that it never has to is what
`Moment.IsExact` says.
-/

set_option autoImplicit false

namespace Storyline

variable {β : Type}

/-! ## Stories that were entered and not left -/

namespace Run

/-- How many more stories were entered than left in some moments, with those that were passed
over. -/
def balance (done : List (Moment β)) : Int :=
  done.countP (·.instruction.entered?.isSome) - done.countP (·.instruction.isLeave)

theorem balance_concat (done : List (Moment β)) (m : Moment β) :
    balance (done ++ [m]) = balance done + m.instruction.sign := by
  unfold balance
  rw [List.countP_append, List.countP_append, List.countP_singleton, List.countP_singleton]
  cases m.instruction with
  | enter label number =>
      show ((_ + 1 : Nat) : Int) - (_ + 0 : Nat) = _ + 1
      omega
  | leave =>
      show ((_ + 0 : Nat) : Int) - (_ + 1 : Nat) = _ + -1
      omega
  | _ => exact (Int.add_zero _).symm

variable {plan : Plan β} {perform : β → Context → Reply} {calling : Calling}

/-- In a run through a tree this is the depth of the description. -/
theorem balance_eq_depthOf {tree : StoryTree β} {isShut : Bool} {start : Run}
    {done rest : List (Moment β)}
    (h : moments plan perform calling (tree.score isShut) start = done ++ rest) :
    balance done = depthOf done := by
  refine moments_induction_at (P := fun done _ => balance done = depthOf done) rfl
    (fun done m later hPoint hBefore => ?_) h
  rw [balance_concat, depthOf_concat, hBefore]
  refine (m.instruction.depthAfter_eq _ fun hLeave => ?_).symm
  exact depthOf_pos hPoint (by simp [hLeave])

/-- Where no story is entered, one is open. -/
theorem balance_pos {tree : StoryTree β} {isShut : Bool} {start : Run}
    {done later : List (Moment β)} {m : Moment β}
    (h : moments plan perform calling (tree.score isShut) start = done ++ m :: later)
    (hInner : ∀ label number, m.instruction ≠ .enter label number) : 0 < balance done := by
  have hPositive := depthOf_pos h hInner
  rw [balance_eq_depthOf h]
  omega

/-! ## What executed instructions do to the counters -/

/-- What an executed instruction does to the depth of the history: either the run goes on executing,
and the depth is that of the description, or a single step has left its story. -/
def Shifts (i : Instruction β) (r r' : Run) : Prop :=
  r'.skipped = 0 ∧ r'.ctx.history.depth = i.depthAfter r.ctx.history.depth ∨
    r'.skipped = 1 ∧ (∃ s number protocol, i = .step s number protocol) ∧
      r'.ctx.history.depth = r.ctx.history.depth - 1

variable {i : Instruction β} {r r' : Run} {flow : Flow}

theorem Turn.shifts (h : Turn plan perform calling i r (r', flow))
    (hReplies : ∀ s ∈ i.steps, reply? perform calling (i.seen r.ctx) s ≠ none) :
    Shifts i r r' := by
  cases h with
  | goesOn hSkipped hHistory _ =>
      refine .inl ⟨hSkipped, ?_⟩
      rw [hHistory, Instruction.record_eq]
  | leaves hSkipped hHistory hLeaves =>
      obtain ⟨s, number, protocol, -, rfl, -⟩ := hLeaves
      refine .inr ⟨hSkipped, ⟨s, number, protocol, rfl⟩, ?_⟩
      rw [hHistory]
      rfl
  | stops hSkipped _ hHistory _ _ =>
      refine .inl ⟨hSkipped, ?_⟩
      rw [hHistory, Instruction.record_eq]
      rfl
  | turnedAway hStep hNone => exact absurd hNone (hReplies _ hStep)

/-- What a group does to the counters does not depend on what its steps reply, nor on whether they
can be run. -/
theorem shifts_judgeGroup {t : Run} (hRuns : t.skipped = 0) {steps : List (Step β)} {number : Nat}
    {protocol : StepProtocol}
    (hSeen : t.ctx = (Instruction.parallel steps number protocol).seen r.ctx)
    (results : List (Step β × Except StepError Outcome)) :
    Shifts (.parallel steps number protocol) r (t.judgeGroup plan number protocol results).1 := by
  -- the turn of a group of which no step answers, for a caller who waits
  let silent : β → Context → Reply := fun _ _ => { result := .error (.other "" "") }
  have hTurn : Turn plan silent .waiting (.parallel steps number protocol) r
      (t.judgeGroup plan number protocol results) := by
    refine turn_judgeGroup hRuns hSeen ?_
    rintro s outcome ⟨-, reply, hReply, hOutcome⟩
    cases hReply
    cases hOutcome
  exact hTurn.shifts fun s _ hNone => by cases hNone

theorem shifts_execute (plan : Plan β) (perform : β → Context → Reply) (calling : Calling)
    (i : Instruction β) (hRuns : r.skipped = 0) :
    Shifts i r (r.execute plan perform calling i).1 := by
  have hTurn : Turn plan perform calling i r (r.execute plan perform calling i) :=
    turn_execute i hRuns
  cases i with
  | enter label number => exact hTurn.shifts fun s hs => by cases hs
  | leave => exact hTurn.shifts fun s hs => by cases hs
  | step s number protocol =>
      cases hReply : reply? perform calling (r.invoking s).ctx s with
      | none =>
          -- a coroutine that can not be run ends the run where it stands
          rw [execute_step hRuns, runStep_of_none hReply]
          exact .inl ⟨hRuns, rfl⟩
      | some reply =>
          refine hTurn.shifts fun other hOther hNone => ?_
          obtain rfl := List.mem_singleton.mp hOther
          cases hReply.symm.trans hNone
  | parallel steps number protocol =>
      rw [execute_parallel hRuns]
      let entered := r.mapHistory (·.enter (Instruction.groupName steps))
      let invoked := steps.map fun s => Event.invoked s.qualified entered.ctx
      let replies := steps.map fun s => (s, branchReply perform calling entered.ctx s)
      let called := (replies.map fun answer => answer.2.events).flatten
      exact shifts_judgeGroup (t := { entered with events := entered.events ++ invoked ++ called })
        hRuns rfl (replies.map fun answer => (answer.1, answer.2.result))

end Run

/-! ## Exact subtraction -/

namespace Moment

/-- By how much a moment changes the number of open stories. -/
def opens (m : Moment β) : Int :=
  match m.instruction with
  | .enter _ _ => if m.before.skipped = 0 then 1 else 0
  | .leave => if m.before.skipped ≤ 1 then -1 else 0
  | _ => 0

/-- By how much a moment changes the depth of the history. -/
def indents (m : Moment β) : Int :=
  if m.before.skipped ≠ 0 then 0
  else if m.after.skipped ≠ 0 then -1
  else m.instruction.sign

/-- The depths of a moment change as whole numbers do: whatever is subtracted is there. -/
structure IsExact (m : Moment β) : Prop where
  depth : (m.after.depth : Int) = m.before.depth + m.opens
  indent : (m.after.ctx.history.depth : Int) = m.before.ctx.history.depth + m.indents

end Moment

/-! ## How the counters agree -/

namespace Run

/-- How the counters of a run agree with the number of stories that were entered and not left. -/
structure Counts (balance : Int) (r : Run) : Prop where
  executes : r.skipped = 0 → r.depth = balance ∧ r.ctx.history.depth = balance
  passes : 0 < r.skipped →
    r.skipped = balance - r.depth + 1 ∧ (r.ctx.history.depth : Int) = r.depth - 1

variable {plan : Plan β} {perform : β → Context → Reply} {calling : Calling} {balance : Int}
  {m : Moment β}

/-- What is passed over counts the stories still to be closed, and closes the one that was left. -/
theorem Counts.passOver (h : m.before.Counts balance) (hSkips : m.before.skipped ≠ 0)
    (hAfter : m.after = m.before.passOver m.instruction) :
    m.after.Counts (balance + m.instruction.sign) ∧ m.IsExact := by
  obtain ⟨story, i, before, after, flow⟩ := m
  dsimp only at h hSkips hAfter ⊢
  subst hAfter
  obtain ⟨hSkipped, hIndent⟩ := h.passes (Nat.pos_of_ne_zero hSkips)
  -- the history is that from before, whatever the instruction
  have hHistory : (before.passOver i).ctx = before.ctx := by cases i <;> rfl
  have hStays : (before.ctx.history.depth : Int) = before.ctx.history.depth +
      Moment.indents ⟨story, i, before, before.passOver i, flow⟩ := by
    rw [Moment.indents, if_pos hSkips, Int.add_zero]
  have hIndent' : ((before.passOver i).ctx.history.depth : Int) = before.depth - 1 := by
    rw [hHistory, hIndent]
  cases i with
  | enter label number =>
      have hDepth : (before.passOver (.enter label number : Instruction β)).depth = before.depth :=
        rfl
      have hMore : (before.passOver (.enter label number : Instruction β)).skipped =
          before.skipped + 1 := rfl
      refine ⟨⟨fun hRuns => ?_, fun _ => ⟨?_, hIndent'⟩⟩, ?_, hStays⟩
      · omega
      · rw [Instruction.sign]
        omega
      · simp [Moment.opens, hSkips, hDepth]
  | leave =>
      have hLess : (before.passOver (.leave : Instruction β)).skipped = before.skipped - 1 := rfl
      by_cases hLast : before.skipped = 1
      · -- the story that was left early comes to its end
        have hDepth : (before.passOver (.leave : Instruction β)).depth = before.depth - 1 :=
          if_pos hLast
        refine ⟨⟨fun _ => ?_, fun hMore => ?_⟩, ?_, hStays⟩
        · rw [Instruction.sign]
          omega
        · omega
        · simp only [Moment.opens, hLast, hDepth]
          omega
      · have hDepth : (before.passOver (.leave : Instruction β)).depth = before.depth :=
          if_neg hLast
        have hTwo : ¬ before.skipped ≤ 1 := by omega
        refine ⟨⟨fun hRuns => ?_, fun _ => ⟨?_, ?_⟩⟩, ?_, hStays⟩
        · omega
        · rw [Instruction.sign]
          omega
        · rw [hIndent', hDepth]
        · simp [Moment.opens, hTwo, hDepth]
  | _ =>
      show before.Counts (balance + 0) ∧ Moment.IsExact _
      rw [Int.add_zero]
      exact ⟨h, (Int.add_zero _).symm, hStays⟩

/-- An executed instruction moves both depths, unless it leaves a story: then only that of the
history moves, and one story is to be closed. -/
theorem Counts.execute (h : m.before.Counts balance) (hRuns : m.before.skipped = 0)
    (hExecutes : m.Executes plan perform calling)
    (hOpen : (∀ label number, m.instruction ≠ .enter label number) → 0 < balance) :
    m.after.Counts (balance + m.instruction.sign) ∧ m.IsExact := by
  obtain ⟨hDepth, hIndent⟩ := h.executes hRuns
  have hLeave : m.instruction = .leave → 0 < m.before.depth := by
    intro hLeave
    have hPositive := hOpen (by simp [hLeave])
    omega
  have hAfter : (m.after.depth : Int) = m.before.depth + m.instruction.sign := by
    rw [hExecutes.depth_eq hRuns]
    exact m.instruction.depthAfter_eq _ hLeave
  have hOpens : m.opens = m.instruction.sign := by
    unfold Moment.opens
    cases m.instruction <;> simp [hRuns, Instruction.sign]
  have hShifts := shifts_execute plan perform calling m.instruction hRuns
  rw [hExecutes] at hShifts
  dsimp only [Shifts] at hShifts
  rcases hShifts with ⟨hSkipped, hHistory⟩ | ⟨hSkipped, ⟨s, number, protocol, hStep⟩, hHistory⟩
  · have hMoved : (m.after.ctx.history.depth : Int) =
        m.before.ctx.history.depth + m.instruction.sign := by
      rw [hHistory]
      apply Instruction.depthAfter_eq
      intro hIsLeave
      have hPositive := hLeave hIsLeave
      omega
    have hIndents : m.indents = m.instruction.sign := by
      simp [Moment.indents, hRuns, hSkipped]
    refine ⟨⟨fun _ => ?_, fun hSkips => ?_⟩, by rw [hAfter, hOpens], by rw [hMoved, hIndents]⟩
    · omega
    · omega
  · -- a step runs in an open story, so that the history can leave one
    have hPositive : 0 < balance := hOpen (by simp [hStep])
    have hSign : m.instruction.sign = 0 := by rw [hStep]; rfl
    have hIndents : m.indents = -1 := by simp [Moment.indents, hRuns, hSkipped]
    refine ⟨⟨fun hNone => ?_, fun _ => ?_⟩, by rw [hAfter, hOpens], ?_⟩
    · omega
    · omega
    · rw [hIndents]
      omega

/-- Every moment of a run keeps the counters in agreement. -/
theorem Counts.moment {tree : StoryTree β} {isShut : Bool} {start : Run}
    {done later : List (Moment β)} (h : m.before.Counts (Run.balance done))
    (hPoint : moments plan perform calling (tree.score isShut) start = done ++ m :: later) :
    m.after.Counts (Run.balance (done ++ [m])) ∧ m.IsExact := by
  obtain ⟨-, hExecutes, -⟩ := moment_executes hPoint
  rw [balance_concat]
  by_cases hRuns : m.before.skipped = 0
  · exact h.execute hRuns hExecutes fun hInner => balance_pos hPoint hInner
  · rw [Moment.Executes, execute_of_skipped hRuns] at hExecutes
    exact h.passOver hRuns (congrArg Prod.fst hExecutes).symm

end Run

/-! ## Bodies -/

/-- Only a coroutine can not be run, and only for a caller who blocks. -/
theorem Run.reply?_eq (perform : β → Context → Reply) (calling : Calling) (ctx : Context)
    (s : Step β) :
    reply? perform calling ctx s =
      if calling = .blocking ∧ s.mode = .coroutine then none else some (perform s.body ctx) := by
  unfold reply?
  cases calling <;> cases s.mode <;> rfl

/-- What was told before an instruction ends stays told. -/
theorem Run.Closes.told_prefix {i : Instruction β} {told : List Event} {r' : Run} {flow : Flow}
    (h : Closes i told (r', flow)) : told <+: r'.events := by
  cases h with
  | goesOn hEvents => exact hEvents ▸ List.prefix_rfl
  | concludes hEvents => exact hEvents ▸ List.prefix_rfl
  | failed hEvents _ _ _ => exact hEvents ▸ List.prefix_append _ _
  | erred hEvents => exact hEvents ▸ List.prefix_append _ _
  | turnedAway hEvents => exact hEvents ▸ List.prefix_rfl

/-- What the body of a step tells is part of what its instruction tells. -/
theorem Instruction.sublist_spoken {perform : β → Context → Reply} {calling : Calling}
    {i : Instruction β} {r : Run} {s : Step β} {reply : Reply} (hs : s ∈ i.steps)
    (hReply : Run.reply? perform calling (i.seen r.ctx) s = some reply) :
    reply.events.Sublist (i.spoken perform calling r) := by
  cases i with
  | enter label number => cases hs
  | leave => cases hs
  | step other number protocol =>
      obtain rfl := List.mem_singleton.mp hs
      rw [spoken, hReply]
      exact List.sublist_append_left _ _
  | parallel steps number protocol =>
      apply List.sublist_flatten_of_mem
      exact List.mem_map.mpr ⟨s, hs, by rw [Run.branchReply_of_some hReply]⟩

namespace Moment

/-- Bodies run in a moment if it might have been another with other bodies. -/
def RunsBodies (m : Moment β) (plan : Plan β) (calling : Calling) : Prop :=
  ∃ perform, ¬ m.Executes plan perform calling

variable {plan : Plan β} {perform : β → Context → Reply} {calling : Calling} {m : Moment β}

/-- Bodies run for the steps of an executed instruction that can be run, and for no others. -/
theorem Executes.runsBodies_iff (h : m.Executes plan perform calling) :
    m.RunsBodies plan calling ↔ m.before.skipped = 0 ∧
      ∃ s ∈ m.instruction.steps, ¬ (calling = .blocking ∧ s.mode = .coroutine) := by
  constructor
  · rintro ⟨perform', hDiffers⟩
    by_contra hNone
    refine hDiffers ((Run.execute_congr fun hRuns s hs => ?_).trans h)
    have hTurned : calling = .blocking ∧ s.mode = .coroutine := by
      by_contra hCan
      exact hNone ⟨hRuns, s, hs, hCan⟩
    rw [Run.reply?_eq, Run.reply?_eq, if_pos hTurned, if_pos hTurned]
  · rintro ⟨hRuns, s, hs, hCan⟩
    -- bodies that tell more than all that was told
    let talk : List Event := List.replicate (m.after.events.length + 1) (.left 0)
    let perform' : β → Context → Reply := fun _ _ =>
      { events := talk, result := .error (.other "" "") }
    refine ⟨perform', fun hSame => ?_⟩
    have hReply := Run.reply?_eq perform' calling (m.instruction.seen m.before.ctx) s
    rw [if_neg hCan] at hReply
    have hClose := Run.closes_execute plan perform' calling m.instruction hRuns
    rw [hSame] at hClose
    have hTold := hClose.told_prefix.length_le
    have hSpoken := (Instruction.sublist_spoken hs hReply).length_le
    simp [perform', talk] at hTold hSpoken
    omega

end Moment

/-! ## Points of a run -/

section

variable {cast : Cast β} {tree : StoryTree β} {plan : Plan β} {perform : β → Context → Reply}
  {calling : Calling} {width : Nat} {values : Bindings} {done later rest : List (Moment β)}
  {m : Moment β}

/-- At every point of a run the counters agree with the instructions so far. -/
theorem Plan.counts_at (plan : Plan β) (tree : StoryTree β) (perform : β → Context → Reply)
    (calling : Calling) (width : Nat) (values : Bindings)
    (hPoint : plan.moments tree perform calling width values = done ++ rest) :
    ((plan.beginning width values).stateAfter done).Counts (Run.balance done) := by
  refine Run.moments_induction_at (P := fun done r => r.Counts (Run.balance done)) ?_
    (fun done m later hPoint hBefore => (hBefore.moment hPoint).1) hPoint
  refine ⟨fun _ => ⟨rfl, ?_⟩, fun hSkips => absurd hSkips (Nat.lt_irrefl 0)⟩
  rw [Plan.beginning, Plan.initialContext_eq]
  rfl

/-- Where a body runs, the stories around its step are those that are open. -/
theorem Run.depth_eq_of_step {start : Run} {isShut : Bool}
    (hPoint : Run.moments plan perform calling (tree.score isShut) start = done ++ m :: later)
    (hCounts : m.before.Counts (Run.balance done)) (hRuns : m.before.skipped = 0) {s : Step β}
    (hStep : s ∈ m.instruction.steps) :
    ∃ outer, tree.around[done.length]? = some (m.story :: outer) ∧
      m.before.depth = outer.length + 1 := by
  obtain ⟨outer, hAround, hWithin⟩ := StoryTree.exists_around hPoint
  rw [Instruction.within_of_mem_steps hStep] at hWithin
  refine ⟨outer, hAround, ?_⟩
  have hOpen : (m.before.depth : Int) = outer.length + 1 := by
    calc (m.before.depth : Int) = Run.balance done := (hCounts.executes hRuns).1
      _ = Run.depthOf done := Run.balance_eq_depthOf hPoint
      _ = (Run.openedBy done).length := by rw [Run.depthOf_eq]
      _ = outer.length + 1 := by rw [← hWithin, List.length_cons, Int.natCast_succ]
  omega

/-- **The counters of a run agree.** At every point of an invocation, while instructions are
executed, the number of open stories and the depth of the history are the number of stories that
were entered and not left; while they are passed over, the stories still to be closed make up the
difference. No subtraction ends at zero. Bodies run only while instructions are executed, and then
the number of open stories is that of the stories around the step: it is one for the steps of the
outermost story and for no others. -/
theorem Mounts.counters_agree (h : Mounts cast tree plan) {arguments : Bindings}
    {invocation : Invocation}
    (hInvoke : plan.invoke perform calling width arguments = .ok invocation) :
    ∃ values, plan.root.checkCall arguments = .ok values ∧
      let moments := plan.moments tree perform calling width values
      let stateAfter := fun done => (plan.beginning width values).stateAfter done
      invocation.ctx = (stateAfter moments).ctx ∧
      moments.map Moment.instruction <+: plan.instructions ∧
      ∀ done rest, moments = done ++ rest →
        (stateAfter done).Counts (Run.balance done) ∧
        ∀ m later, rest = m :: later → m.before = stateAfter done ∧ m.IsExact ∧
          (m.RunsBodies plan calling → m.before.skipped = 0 ∧ 1 ≤ m.before.depth ∧
            ∃ outer, tree.around[done.length]? = some (m.story :: outer) ∧
              m.before.depth = outer.length + 1 ∧ (m.before.depth = 1 ↔ outer = [])) := by
  obtain ⟨values, hAccepted, hCtx, -⟩ := h.invoke_eq_ok hInvoke
  refine ⟨values, hAccepted, hCtx, ?_, fun done rest hPoint => ?_⟩
  · -- the instructions of the moments are those of the tree, as far as the run goes
    have hPrefix := Run.map_moments_prefix plan perform calling
      (tree.score plan.failures.isSome) (plan.beginning width values)
    have hInstructions := hPrefix.map Prod.snd
    rw [List.map_map] at hInstructions
    rw [h.instructions_eq]
    exact hInstructions
  · have hCounts := plan.counts_at tree perform calling width values hPoint
    refine ⟨hCounts, ?_⟩
    rintro m later rfl
    obtain ⟨-, hExecutes, hBefore⟩ := Run.moment_executes hPoint
    rw [← hBefore] at hCounts
    refine ⟨hBefore, (hCounts.moment hPoint).2, fun hBodies => ?_⟩
    obtain ⟨hRuns, s, hStep, -⟩ := hExecutes.runsBodies_iff.mp hBodies
    obtain ⟨outer, hAround, hDepth⟩ := Run.depth_eq_of_step hPoint hCounts hRuns hStep
    refine ⟨hRuns, by omega, outer, hAround, hDepth, ?_⟩
    rw [hDepth, ← List.length_eq_zero_iff]
    omega

end

namespace Theatre

open Shop (answer)

/-- When the speaker leaves the scene, the history leaves it at once, and the run has it still to
close. -/
theorem scene_to_close : ∃ invocation,
    (shown .skip).plan.invoke answer .blocking 88 .empty = .ok invocation ∧
      ∃ done rest,
        (shown .skip).plan.moments (tree .skip) answer .blocking 88 .empty = done ++ rest ∧
        let r := ((shown .skip).plan.beginning 88 .empty).stateAfter done
        Run.balance done = 2 ∧ r.skipped = 1 ∧ r.depth = 2 ∧ r.ctx.history.depth = 1 := by
  have hInvoke : ∃ invocation,
      (shown .skip).plan.invoke answer .blocking 88 .empty = .ok invocation := ⟨_, rfl⟩
  obtain ⟨invocation, hInvoke⟩ := hInvoke
  obtain ⟨values, hAccepted, -, -, hPoints⟩ := (mounts .skip).counters_agree hInvoke
  obtain rfl : .empty = values := Except.ok.inj hAccepted
  -- the third moment is that of the speaker
  have hPoint : ∃ done rest,
      (shown .skip).plan.moments (tree .skip) answer .blocking 88 .empty = done ++ rest ∧
        Run.balance done = 2 ∧
        (((shown .skip).plan.beginning 88 .empty).stateAfter done).skipped = 1 :=
    ⟨[_, _, _], _, rfl, rfl, rfl⟩
  obtain ⟨done, rest, hMoments, hBalance, hSkipped⟩ := hPoint
  obtain ⟨hCounts, -⟩ := hPoints done rest hMoments
  dsimp only at hCounts
  obtain ⟨hOpen, hIndent⟩ := hCounts.passes (by omega)
  refine ⟨invocation, hInvoke, done, rest, hMoments, hBalance, hSkipped, ?_, ?_⟩
  · omega
  · show (((shown .skip).plan.beginning 88 .empty).stateAfter done).ctx.history.depth = 1
    omega

end Theatre

end Storyline
