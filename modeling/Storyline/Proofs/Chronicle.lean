import Mathlib.Data.List.ReduceOption
import Storyline.Proofs.Enclosing
import Storyline.Proofs.Modes

/-!
# The history of a run and the description of its plan

The description of a plan has a line for each instruction but those that close a story
(`Instruction.linesFrom`). The history of a run has those of them that belong to the instructions
which were executed, in order and as deep as there, each with the mark of what came of it
(`Run.Tells`, `Mounts.history_recounts`).

The two count their depth apart. A step that leaves its story early closes it in the history at
once, while the instructions that are left of the story are passed over, the `leave` that closes it
among them; so the depth of the history and the number of stories to be closed make up the depth of
the description at every point of a run.
-/

set_option autoImplicit false

namespace Storyline

variable {β : Type}

/-! ## Lines of a description -/

namespace Instruction

/-- The line that an instruction has at a depth, unless it closes a story. -/
def line? (depth : Nat) : Instruction β → Option HistoryLine
  | enter label _ => some { depth, label }
  | step s _ _ => some { depth, label := s.name }
  | parallel steps _ _ => some { depth, label := groupName steps }
  | leave => none

/-- The depth of what comes after an instruction. -/
def depthAfter (depth : Nat) : Instruction β → Nat
  | enter _ _ => depth + 1
  | leave => depth - 1
  | _ => depth

/-- The lines of some instructions, from a depth on, each at the place of its instruction. -/
def linesFrom : Nat → List (Instruction β) → List (Option HistoryLine)
  | _, [] => []
  | depth, i :: rest => i.line? depth :: linesFrom (i.depthAfter depth) rest

@[simp] theorem length_linesFrom (depth : Nat) (instructions : List (Instruction β)) :
    (linesFrom depth instructions).length = instructions.length := by
  induction instructions generalizing depth with
  | nil => rfl
  | cons i rest ih => rw [linesFrom, List.length_cons, ih, List.length_cons]

theorem linesFrom_append (depth : Nat) (first rest : List (Instruction β)) :
    linesFrom depth (first ++ rest) =
      linesFrom depth first ++ linesFrom (first.foldl depthAfter depth) rest := by
  induction first generalizing depth with
  | nil => rfl
  | cons i others ih =>
      rw [List.cons_append, linesFrom, ih, linesFrom, List.foldl_cons, List.cons_append]

/-- An executed instruction adds the line that it has at the depth of the history. -/
theorem record_eq (i : Instruction β) (h : History) :
    i.record h =
      { depth := i.depthAfter h.depth, lines := h.lines ++ (i.line? h.depth).toList } := by
  cases i with
  | leave =>
      rw [record, History.endStory, line?, Option.toList_none, List.append_nil]
      rfl
  | _ => rfl

/-- The line of an instruction, if it has one, with some marks. -/
def marked (depth : Nat) (marks : List Mark) (i : Instruction β) : List HistoryLine :=
  (i.line? depth).toList.map fun line => { line with marks }

theorem marked_nil (depth : Nat) (i : Instruction β) :
    i.marked depth [] = (i.line? depth).toList := by
  cases i <;> rfl

end Instruction

/-- A description consists of the lines of the instructions that have one. -/
theorem Plan.describeLines_eq (depth : Nat) (instructions : List (Instruction β)) :
    describeLines depth instructions =
      (Instruction.linesFrom depth instructions).reduceOption.map HistoryLine.entry := by
  induction instructions generalizing depth with
  | nil => rfl
  | cons i rest ih =>
      rw [Instruction.linesFrom]
      cases i with
      | leave => exact ih (depth - 1)
      | enter label number =>
          rw [describeLines, ih]
          rfl
      | step s number protocol =>
          rw [describeLines, ih]
          rfl
      | parallel steps number protocol =>
          rw [describeLines, ih]
          rfl

/-! ## Marks -/

theorem History.markLast_concat (mark : Mark) (lines : List HistoryLine) (line : HistoryLine) :
    markLast mark (lines ++ [line]) = lines ++ [{ line with marks := line.marks ++ [mark] }] := by
  induction lines with
  | nil => rfl
  | cons first rest ih =>
      cases rest with
      | nil => rfl
      | cons second others =>
          rw [List.cons_append, List.cons_append, markLast, ← List.cons_append, ih]
          rfl

/-- A mark goes on the line that was added last. -/
theorem Instruction.mark_record {i : Instruction β} (hLine : i ≠ .leave) (mark : Mark)
    (h : History) :
    (i.record h).mark mark =
      { depth := i.depthAfter h.depth, lines := h.lines ++ i.marked h.depth [mark] } := by
  rw [record_eq]
  cases i with
  | leave => exact absurd rfl hLine
  | enter label number => exact congrArg (History.mk _) (History.markLast_concat mark h.lines _)
  | step s number protocol =>
      exact congrArg (History.mk _) (History.markLast_concat mark h.lines _)
  | parallel steps number protocol =>
      exact congrArg (History.mk _) (History.markLast_concat mark h.lines _)

/-- What is marked on the line of a moment that executes its instruction. -/
def Moment.marks (m : Moment β) : List Mark :=
  if m.after.skipped ≠ 0 then [.skipped] else m.flow.mark?.toList

/-- All answers of the steps of a moment are successes, if it executes its instruction. -/
def Moment.Succeeds (m : Moment β) (perform : β → Context → Reply) (calling : Calling) : Prop :=
  m.before.skipped = 0 → ∀ s outcome, m.instruction.Answers perform calling m.before.ctx s outcome →
    ∃ values, outcome = .success values

/-- A moment with the line of its instruction in the description, if there is one and the
instruction is executed. -/
def Moment.recorded? (m : Moment β) (line? : Option HistoryLine) :
    Option (Moment β × HistoryLine) :=
  if m.before.skipped = 0 then line?.map fun line => (m, line) else none

namespace Run

/-- The moments that are recorded among those of a run through some instructions, each with the line
that its instruction has in the description. -/
def recorded (instructions : List (Instruction β)) (done : List (Moment β)) :
    List (Moment β × HistoryLine) :=
  (done.zip (Instruction.linesFrom 0 instructions)).filterMap fun (m, line?) => m.recorded? line?

/-- The depth of the description after some moments. -/
def depthOf (done : List (Moment β)) : Nat :=
  (done.map Moment.instruction).foldl Instruction.depthAfter 0

theorem depthOf_concat (done : List (Moment β)) (m : Moment β) :
    depthOf (done ++ [m]) = m.instruction.depthAfter (depthOf done) := by
  simp [depthOf]

/-- As many stories are open as the description is deep. -/
theorem depthOf_eq (done : List (Moment β)) : depthOf done = (openedBy done).length := by
  induction done using List.reverseRecOn with
  | nil => rfl
  | append_singleton done m ih =>
      rw [depthOf_concat, openedBy_concat, ih]
      cases m.instruction with
      | leave => exact List.length_tail.symm
      | _ => rfl

/-- One moment more records the line of its instruction, if it is executed. -/
theorem recorded_concat {instructions others : List (Instruction β)} {done : List (Moment β)}
    {m : Moment β}
    (h : instructions = done.map Moment.instruction ++ m.instruction :: others) :
    recorded instructions (done ++ [m]) = recorded instructions done ++
      (m.recorded? (m.instruction.line? (depthOf done))).toList := by
  let lines := Instruction.linesFrom 0 (done.map Moment.instruction)
  let more := Instruction.linesFrom (m.instruction.depthAfter (depthOf done)) others
  have hLines : Instruction.linesFrom 0 instructions =
      lines ++ m.instruction.line? (depthOf done) :: more := by
    rw [h, Instruction.linesFrom_append, Instruction.linesFrom]
    rfl
  have hLength : done.length = lines.length := by simp [lines]
  have hDone : done.zip (Instruction.linesFrom 0 instructions) = done.zip lines := by
    have hNothing : (done ++ []).zip (lines ++ m.instruction.line? (depthOf done) :: more) =
        done.zip lines ++ [] := List.zip_append hLength
    rwa [List.append_nil, List.append_nil, ← hLines] at hNothing
  have hMore : (done ++ [m]).zip (Instruction.linesFrom 0 instructions) =
      done.zip lines ++ [(m, m.instruction.line? (depthOf done))] := by
    rw [hLines]
    exact List.zip_append hLength
  rw [recorded, recorded, hMore, hDone, List.filterMap_append]
  cases hRecorded : m.recorded? (m.instruction.line? (depthOf done)) with
  | none => simp [hRecorded]
  | some told => simp [hRecorded]

/-- The history of a run tells some moments: it has the lines that are recorded, each with its mark,
and it is as deep as the description but for the stories still to be closed. -/
structure Tells (instructions : List (Instruction β)) (done : List (Moment β)) (r : Run) :
    Prop where
  depth : r.ctx.history.depth + r.skipped = depthOf done
  lines : r.ctx.history.lines =
    (recorded instructions done).map fun (m, line) => { line with marks := m.marks }

variable {plan : Plan β} {perform : β → Context → Reply} {calling : Calling}
  {instructions others : List (Instruction β)} {done : List (Moment β)} {m : Moment β}

/-- What is passed over leaves the history, and counts the stories still to be closed. -/
theorem Tells.passOver (h : Tells instructions done m.before)
    (hSplit : instructions = done.map Moment.instruction ++ m.instruction :: others)
    (hSkips : m.before.skipped ≠ 0) (hAfter : m.after = m.before.passOver m.instruction) :
    Tells instructions (done ++ [m]) m.after where
  depth := by
    have hBefore := h.depth
    rw [depthOf_concat, ← hBefore, hAfter]
    cases m.instruction with
    | leave =>
        show m.before.ctx.history.depth + (m.before.skipped - 1) =
          m.before.ctx.history.depth + m.before.skipped - 1
        omega
    | _ => rfl
  lines := by
    have hNot : m.recorded? (m.instruction.line? (depthOf done)) = none := if_neg hSkips
    have hHistory : m.after.ctx.history = m.before.ctx.history := by
      rw [hAfter]
      cases m.instruction <;> rfl
    rw [recorded_concat hSplit, hNot, hHistory, h.lines]
    simp

/-- An executed instruction adds its line with its mark. -/
theorem Tells.concat (h : Tells instructions done m.before)
    (hSplit : instructions = done.map Moment.instruction ++ m.instruction :: others)
    (hRuns : m.before.skipped = 0)
    (hDepth : m.after.ctx.history.depth + m.after.skipped =
      m.instruction.depthAfter m.before.ctx.history.depth)
    (hLines : m.after.ctx.history.lines =
      m.before.ctx.history.lines ++ m.instruction.marked m.before.ctx.history.depth m.marks) :
    Tells instructions (done ++ [m]) m.after := by
  have hBefore : m.before.ctx.history.depth = depthOf done := by
    rw [← h.depth, hRuns, Nat.add_zero]
  rw [hBefore] at hDepth hLines
  refine ⟨by rw [depthOf_concat, hDepth], ?_⟩
  have hRecorded : m.recorded? (m.instruction.line? (depthOf done)) =
      (m.instruction.line? (depthOf done)).map fun line => (m, line) := if_pos hRuns
  rw [recorded_concat hSplit, hRecorded, hLines, h.lines, List.map_append, Instruction.marked]
  cases m.instruction.line? (depthOf done) <;> rfl

/-- Whatever comes of an executed instruction, the history tells it where the description has it. -/
theorem Tells.of_turn (h : Tells instructions done m.before)
    (hSplit : instructions = done.map Moment.instruction ++ m.instruction :: others)
    (hRuns : m.before.skipped = 0)
    (hTurn : Turn plan perform calling m.instruction m.before (m.after, m.flow))
    (hReplies : ∀ s ∈ m.instruction.steps, ∀ ctx, reply? perform calling ctx s ≠ none)
    (hStop : m.instruction = .leave → m.flow = .next)
    (hOpen : ∀ s ∈ m.instruction.steps, 0 < depthOf done) :
    Tells instructions (done ++ [m]) m.after := by
  have hDepth : m.before.ctx.history.depth = depthOf done := by
    rw [← h.depth, hRuns, Nat.add_zero]
  obtain ⟨story, i, before, after, flow⟩ := m
  dsimp only at hTurn hReplies hStop hOpen hDepth hRuns
  cases hTurn with
  | goesOn hSkipped hHistory _ =>
      have hMarks : Moment.marks ⟨story, i, before, after, .next⟩ = [] := by
        simp [Moment.marks, hSkipped, Flow.mark?]
      refine h.concat hSplit hRuns ?_ ?_
      · simp [hHistory, hSkipped, Instruction.record_eq]
      · simp [hMarks, hHistory, Instruction.record_eq, Instruction.marked_nil]
  | leaves hSkipped hHistory hLeaves =>
      have hMarks : Moment.marks ⟨story, i, before, after, .next⟩ = [.skipped] := by
        simp [Moment.marks, hSkipped]
      obtain ⟨s, number, protocol, outcome, rfl, ⟨hStep, -⟩, -⟩ := hLeaves
      rw [History.skip, Instruction.mark_record (by simp)] at hHistory
      refine h.concat hSplit hRuns ?_ ?_
      · -- the story that is closed is open in the history
        have hPositive := hOpen s hStep
        have hAfter : after.ctx.history.depth = before.ctx.history.depth - 1 := by
          rw [hHistory]
          rfl
        show after.ctx.history.depth + after.skipped = before.ctx.history.depth
        omega
      · rw [hMarks, hHistory]
        rfl
  | @stops _ _ mark hSkipped hMark hHistory _ _ =>
      have hLine : i ≠ .leave := by
        intro hLeave
        rw [hStop hLeave] at hMark
        cases hMark
      have hMarks : Moment.marks ⟨story, i, before, after, flow⟩ = [mark] := by
        simp [Moment.marks, hSkipped, hMark]
      rw [Instruction.mark_record hLine] at hHistory
      refine h.concat hSplit hRuns ?_ ?_
      · simp [hHistory, hSkipped]
      · simp [hMarks, hHistory]
  | turnedAway hStep hNone => exact absurd hNone (hReplies _ hStep _)

end Run

/-! ## What a moment is marked with -/

/-- No step leaves its story with a success. -/
theorem Instruction.not_leaves_of_success {plan : Plan β} {perform : β → Context → Reply}
    {calling : Calling} {i : Instruction β} {r : Run}
    (h : ∀ s outcome, i.Answers perform calling r.ctx s outcome →
      ∃ values, outcome = .success values) : ¬ i.Leaves plan perform calling r := by
  rintro ⟨s, number, protocol, outcome, -, hAnswer, hLeaves⟩
  obtain ⟨values, rfl⟩ := h s outcome hAnswer
  exact hLeaves

/-- Only a step that leaves its story early is marked as skipped. -/
theorem Flow.mark?_ne_skipped (flow : Flow) : flow.mark? ≠ some .skipped := by
  unfold mark?
  split <;> simp

namespace Moment

variable {plan : Plan β} {perform : β → Context → Reply} {calling : Calling} {m : Moment β}

theorem skipped_mem_marks_iff (m : Moment β) : .skipped ∈ m.marks ↔ m.after.skipped ≠ 0 := by
  unfold marks
  split
  · next hSkips => simp [hSkips]
  · next hRuns => simpa [hRuns, Option.mem_toList] using m.flow.mark?_ne_skipped

theorem marks_eq_nil_or (m : Moment β) : m.marks = [] ∨ ∃ mark, m.marks = [mark] := by
  unfold marks
  split
  · exact .inr ⟨.skipped, rfl⟩
  · cases m.flow.mark? with
    | none => exact .inl rfl
    | some mark => exact .inr ⟨mark, rfl⟩

/-- As long as the run goes on, nothing else is marked. -/
theorem eq_skipped_of_mem_marks (hNext : m.flow = .next) {mark : Mark} (h : mark ∈ m.marks) :
    mark = .skipped := by
  unfold marks at h
  split at h
  · exact List.mem_singleton.mp h
  · simp [hNext, Flow.mark?] at h

theorem marks_eq_nil (hRuns : m.after.skipped = 0) (hNext : m.flow = .next) : m.marks = [] := by
  simp [marks, hRuns, hNext, Flow.mark?]

theorem Executes.turn (h : m.Executes plan perform calling) (hRuns : m.before.skipped = 0) :
    Run.Turn plan perform calling m.instruction m.before (m.after, m.flow) := by
  rw [← h]
  exact Run.turn_execute m.instruction hRuns

end Moment

namespace Run.Turn

variable {plan : Plan β} {perform : β → Context → Reply} {calling : Calling}
  {i : Instruction β} {r r' : Run} {flow : Flow}

/-- Stories are passed over after the steps that leave their story early, and only then. -/
theorem leaves_iff (h : Turn plan perform calling i r (r', flow))
    (hReplies : ∀ s ∈ i.steps, ∀ ctx, reply? perform calling ctx s ≠ none) :
    i.Leaves plan perform calling r ↔ r'.skipped ≠ 0 := by
  cases h with
  | goesOn hSkipped _ hAnswers => simp [hSkipped, Instruction.not_leaves_of_success hAnswers]
  | leaves hSkipped _ hLeaves => simp [hSkipped, hLeaves]
  | stops hSkipped _ _ hStays _ => simp [hSkipped, hStays]
  | turnedAway hStep hNone => exact absurd hNone (hReplies _ hStep _)

/-- No instruction says that there are no more. -/
theorem flow_ne_finished (h : Turn plan perform calling i r (r', flow)) :
    flow ≠ .stop (.ok .finished) := by
  rintro rfl
  cases h with
  | stops _ hMark _ _ _ => cases hMark

end Run.Turn

/-! ## At every point of a run -/

/-- Every step of a plan replies, whatever the context. -/
def Plan.AllReply (plan : Plan β) (perform : β → Context → Reply) (calling : Calling) : Prop :=
  ∀ i ∈ plan.instructions, ∀ s ∈ i.steps, ∀ ctx, Run.reply? perform calling ctx s ≠ none

section

variable {cast : Cast β} {tree : StoryTree β} {plan : Plan β} {perform : β → Context → Reply}
  {calling : Calling} {width : Nat} {values : Bindings} {done later rest : List (Moment β)}
  {m : Moment β}

/-- The instruction of a moment stands behind those of the moments before it. -/
theorem Mounts.exists_others (h : Mounts cast tree plan)
    (hPoint : plan.moments tree perform calling width values = done ++ m :: later) :
    ∃ others, plan.instructions = done.map Moment.instruction ++ m.instruction :: others := by
  obtain ⟨others, hScore⟩ := Run.map_moments_prefix plan perform calling
    (tree.score plan.failures.isSome) (plan.beginning width values)
  rw [Plan.moments] at hPoint
  refine ⟨later.map Moment.instruction ++ others.map Prod.snd, ?_⟩
  rw [h.instructions_eq, StoryTree.instructions, ← hScore, hPoint]
  simp [Function.comp_def]

/-- A moment of a run executes an instruction of the plan. -/
theorem Mounts.executes_of_mem (h : Mounts cast tree plan)
    (hMoment : m ∈ plan.moments tree perform calling width values) :
    m.Executes plan perform calling ∧ m.instruction ∈ plan.instructions := by
  obtain ⟨done, later, hPoint⟩ := List.append_of_mem hMoment
  obtain ⟨others, hSplit⟩ := h.exists_others hPoint
  obtain ⟨-, hExecutes, -⟩ := Run.moment_executes hPoint
  exact ⟨hExecutes, by simp [hSplit]⟩

/-- At every point of a run that runs all its steps, the history tells the moments so far. -/
theorem Mounts.tells_at (h : Mounts cast tree plan)
    (hReplies : plan.AllReply perform calling)
    (hPoint : plan.moments tree perform calling width values = done ++ rest) :
    Run.Tells plan.instructions done ((plan.beginning width values).stateAfter done) := by
  refine Run.moments_induction_at (P := fun done r => Run.Tells plan.instructions done r) ?_
    (fun done m later hPoint hBefore => ?_) hPoint
  · constructor <;> rw [Plan.beginning, Plan.initialContext_eq] <;> rfl
  obtain ⟨others, hSplit⟩ := h.exists_others hPoint
  obtain ⟨-, hExecutes, -⟩ := Run.moment_executes hPoint
  by_cases hRuns : m.before.skipped = 0
  · refine hBefore.of_turn hSplit hRuns (hExecutes.turn hRuns) ?_ ?_ ?_
    · exact hReplies m.instruction (hSplit ▸ by simp)
    · intro hLeave
      rw [Moment.Executes, hLeave, Run.execute_leave hRuns] at hExecutes
      exact (congrArg Prod.snd hExecutes).symm
    · -- a step has its own story around it
      intro s hs
      obtain ⟨outer, -, hWithin⟩ := StoryTree.exists_around hPoint
      rw [Instruction.within_of_mem_steps hs] at hWithin
      rw [Run.depthOf_eq, ← hWithin]
      exact Nat.succ_pos _
  · rw [Moment.Executes, Run.execute_of_skipped hRuns] at hExecutes
    exact hBefore.passOver hSplit hRuns (congrArg Prod.fst hExecutes).symm

end

namespace Run

variable {instructions : List (Instruction β)} {done : List (Moment β)}

theorem mem_of_mem_recorded {told : Moment β × HistoryLine}
    (h : told ∈ recorded instructions done) : told.1 ∈ done ∧ told.1.before.skipped = 0 := by
  obtain ⟨⟨m, line?⟩, hMem, hRecorded⟩ := List.mem_filterMap.mp h
  dsimp only [Moment.recorded?] at hRecorded
  split at hRecorded
  · next hRuns =>
    obtain ⟨line, -, rfl⟩ := Option.map_eq_some_iff.mp hRecorded
    exact ⟨(List.of_mem_zip hMem).1, hRuns⟩
  · cases hRecorded

/-- All that is recorded but the last is recorded of the moments before the last. -/
theorem mem_recorded_of_mem_dropLast {others : List (Instruction β)} {m : Moment β}
    (hSplit : instructions = done.map Moment.instruction ++ m.instruction :: others)
    {told : Moment β × HistoryLine}
    (h : told ∈ (recorded instructions (done ++ [m])).dropLast) :
    told ∈ recorded instructions done := by
  rw [recorded_concat hSplit] at h
  cases hRecorded : m.recorded? (m.instruction.line? (depthOf done)) with
  | none =>
      rw [hRecorded, Option.toList_none, List.append_nil] at h
      exact (List.dropLast_sublist _).subset h
  | some last =>
      rw [hRecorded, Option.toList_some, List.dropLast_concat] at h
      exact h

/-- If nothing is passed over, all lines are recorded. -/
theorem map_recorded (hLength : done.length = (Instruction.linesFrom 0 instructions).length)
    (hRuns : ∀ m ∈ done, m.before.skipped = 0) :
    (recorded instructions done).map Prod.snd =
      (Instruction.linesFrom 0 instructions).reduceOption := by
  unfold recorded
  generalize Instruction.linesFrom 0 instructions = lines at hLength ⊢
  induction done generalizing lines with
  | nil =>
      obtain rfl := List.length_eq_zero_iff.mp hLength.symm
      rfl
  | cons m rest ih =>
      obtain ⟨line?, others, rfl⟩ := List.exists_of_length_succ lines hLength.symm
      have hRest := ih (fun m hm => hRuns m (List.mem_cons_of_mem _ hm)) others
        (Nat.succ.inj hLength)
      have hRecorded : m.recorded? line? = line?.map fun line => (m, line) :=
        if_pos (hRuns m List.mem_cons_self)
      cases line? with
      | none =>
          rw [List.reduceOption_cons_of_none, ← hRest]
          simp [hRecorded]
      | some line =>
          rw [List.reduceOption_cons_of_some, ← hRest]
          simp [hRecorded]

end Run

/-! ## The history of a run -/

/-- What the history of a run says about some of its moments. -/
structure Run.Recounts (plan : Plan β) (perform : β → Context → Reply) (calling : Calling)
    (done : List (Moment β)) (h : History) : Prop where
  /-- Its entries are those entries of the description whose instructions were executed. -/
  entries : h.lines.map HistoryLine.entry =
    (recorded plan.instructions done).map fun (_, line) => line.entry
  /-- An entry is shown with one mark behind it, or with none. -/
  texts : ∀ line ∈ h.lines, line.marks = [] ∧ line.text = line.entry ∨
    ∃ mark, line.marks = [mark] ∧ line.text = line.entry ++ mark.text
  /-- Those entries are marked as skipped whose steps left their story early. -/
  skipped : List.Forall₂
    (fun line told =>
      .skipped ∈ line.marks ↔ told.1.instruction.Leaves plan perform calling told.1.before)
    h.lines (recorded plan.instructions done)
  /-- No entry but the last is marked otherwise. -/
  last : ∀ line ∈ h.lines.dropLast, ∀ mark ∈ line.marks, mark = .skipped

section

variable {cast : Cast β} {tree : StoryTree β} {plan : Plan β} {perform : β → Context → Reply}
  {calling : Calling} {width : Nat} {values : Bindings} {done later rest : List (Moment β)}
  {m : Moment β}

/-- Where a step leaves its story early the rest of the story is passed over, and nowhere else. -/
theorem Mounts.leaves_iff (h : Mounts cast tree plan)
    (hReplies : plan.AllReply perform calling)
    (hMoment : m ∈ plan.moments tree perform calling width values) (hRuns : m.before.skipped = 0) :
    m.instruction.Leaves plan perform calling m.before ↔ m.after.skipped ≠ 0 := by
  obtain ⟨hExecutes, hIn⟩ := h.executes_of_mem hMoment
  exact (hExecutes.turn hRuns).leaves_iff (hReplies m.instruction hIn)

/-- At every point of a run that runs all its steps, the history recounts the moments so far. -/
theorem Mounts.recounts_at (h : Mounts cast tree plan)
    (hReplies : plan.AllReply perform calling)
    (hPoint : plan.moments tree perform calling width values = done ++ rest) :
    Run.Recounts plan perform calling done
      ((plan.beginning width values).stateAfter done).ctx.history := by
  obtain ⟨-, hLines⟩ := h.tells_at hReplies hPoint
  constructor
  case entries =>
    rw [hLines, List.map_map]
    rfl
  case texts =>
    intro line hLine
    rw [hLines] at hLine
    obtain ⟨⟨m, bare⟩, -, rfl⟩ := List.mem_map.mp hLine
    rcases m.marks_eq_nil_or with hNil | ⟨mark, hMark⟩
    · exact .inl ⟨hNil, by simp [HistoryLine.text, hNil]⟩
    · exact .inr ⟨mark, hMark, by simp [HistoryLine.text, hMark]⟩
  case skipped =>
    rw [hLines, List.forall₂_map_left_iff, List.forall₂_same]
    intro told hTold
    obtain ⟨hMem, hRuns⟩ := Run.mem_of_mem_recorded hTold
    have hMoment : told.1 ∈ plan.moments tree perform calling width values :=
      hPoint ▸ List.mem_append_left _ hMem
    rw [h.leaves_iff hReplies hMoment hRuns]
    exact told.1.skipped_mem_marks_iff
  case last =>
    intro line hLine
    rw [hLines, ← List.map_dropLast] at hLine
    obtain ⟨told, hTold, rfl⟩ := List.mem_map.mp hLine
    induction done using List.reverseRecOn with
    | nil => cases hTold
    | append_singleton done m _ =>
        -- what is recorded before the last line comes from moments after which the run goes on
        rw [List.append_assoc, List.singleton_append] at hPoint
        obtain ⟨others, hSplit⟩ := h.exists_others hPoint
        obtain ⟨hMem, -⟩ :=
          Run.mem_of_mem_recorded (Run.mem_recorded_of_mem_dropLast hSplit hTold)
        exact fun mark hMark =>
          Moment.eq_skipped_of_mem_marks (Run.flow_eq_next_of_mem hPoint _ hMem) hMark

/-- A run that comes to the end of all instructions goes on after each of them. -/
theorem Plan.flow_eq_next_of_finished
    (hEnding : Run.endingOf (plan.moments tree perform calling width values) = .ok .finished)
    (hMoment : m ∈ plan.moments tree perform calling width values) : m.flow = .next := by
  obtain ⟨done, later, hPoint⟩ := List.append_of_mem hMoment
  by_cases hLast : later = []
  · obtain ⟨-, hExecutes, -⟩ := Run.moment_executes hPoint
    rw [hPoint, hLast, Run.endingOf, List.getLast?_concat, Option.map_some] at hEnding
    by_cases hRuns : m.before.skipped = 0
    · cases hFlow : m.flow with
      | next => rfl
      | stop ending =>
          rw [hFlow] at hEnding
          obtain rfl : ending = .ok .finished := hEnding
          exact absurd hFlow (hExecutes.turn hRuns).flow_ne_finished
    · rw [Moment.Executes, Run.execute_of_skipped hRuns] at hExecutes
      exact (congrArg Prod.snd hExecutes).symm
  · exact Run.flow_eq_next hPoint hLast

/-- As long as no step leaves its story early, nothing is passed over. -/
theorem Mounts.skipped_eq_zero (h : Mounts cast tree plan)
    (hReplies : plan.AllReply perform calling)
    (hStays : ∀ m ∈ plan.moments tree perform calling width values, m.before.skipped = 0 →
      ¬ m.instruction.Leaves plan perform calling m.before)
    (hPoint : plan.moments tree perform calling width values = done ++ rest) :
    ((plan.beginning width values).stateAfter done).skipped = 0 := by
  refine Run.moments_induction_at (P := fun _ r => r.skipped = 0) rfl
    (fun done m later hPoint hRuns => ?_) hPoint
  have hMoment : m ∈ plan.moments tree perform calling width values := by
    rw [Plan.moments, hPoint]
    exact List.mem_append_right _ List.mem_cons_self
  by_contra hSkips
  exact hStays m hMoment hRuns ((h.leaves_iff hReplies hMoment hRuns).mpr hSkips)

/-- A run that goes on after each moment has gone through all instructions. -/
theorem Mounts.map_instruction_eq (h : Mounts cast tree plan)
    (hNext : ∀ m ∈ plan.moments tree perform calling width values, m.flow = .next) :
    (plan.moments tree perform calling width values).map Moment.instruction =
      plan.instructions := by
  have hAll := congrArg (List.map Prod.snd) (Run.map_moments_eq hNext)
  rw [List.map_map] at hAll
  rw [h.instructions_eq, StoryTree.instructions, ← hAll]
  rfl

/-- If a run comes to its end and all steps succeed, its history is the description. -/
theorem Mounts.display_eq_describe (h : Mounts cast tree plan)
    (hReplies : plan.AllReply perform calling)
    (hSucceed : ∀ m ∈ plan.moments tree perform calling width values,
      m.Succeeds perform calling)
    (hEnding : Run.endingOf (plan.moments tree perform calling width values) = .ok .finished) :
    ((plan.beginning width values).stateAfter
      (plan.moments tree perform calling width values)).ctx.history.display = plan.describe := by
  set moments := plan.moments tree perform calling width values with hMoments
  obtain ⟨-, hLines⟩ := h.tells_at hReplies (List.append_nil moments).symm
  have hNext : ∀ m ∈ moments, m.flow = .next :=
    fun m hm => Plan.flow_eq_next_of_finished hEnding hm
  have hStays : ∀ m ∈ moments, m.before.skipped = 0 →
      ¬ m.instruction.Leaves plan perform calling m.before :=
    fun m hm hRuns => Instruction.not_leaves_of_success (hSucceed m hm hRuns)
  have hRuns : ∀ m ∈ moments, m.before.skipped = 0 ∧ m.after.skipped = 0 := by
    intro m hm
    obtain ⟨done, later, hPoint⟩ := List.append_of_mem hm
    obtain ⟨-, -, hBefore⟩ := Run.moment_executes hPoint
    have hAfter := h.skipped_eq_zero hReplies hStays
      (hPoint.trans (List.append_cons done m later))
    rw [Run.stateAfter_concat] at hAfter
    exact ⟨hBefore ▸ h.skipped_eq_zero hReplies hStays hPoint, hAfter⟩
  have hLength : moments.length = (Instruction.linesFrom 0 plan.instructions).length := by
    rw [Instruction.length_linesFrom, ← h.map_instruction_eq hNext, List.length_map]
  have hTexts : ∀ told ∈ Run.recorded plan.instructions moments,
      HistoryLine.text { told.2 with marks := told.1.marks } = told.2.entry := by
    intro told hTold
    obtain ⟨hMem, -⟩ := Run.mem_of_mem_recorded hTold
    rw [Moment.marks_eq_nil (hRuns told.1 hMem).2 (hNext told.1 hMem)]
    exact String.append_empty
  rw [History.display, History.texts, hLines, Plan.describe, Plan.describeLines_eq,
    ← Run.map_recorded hLength fun m hm => (hRuns m hm).1, List.map_map, List.map_map]
  exact congrArg _ (List.map_congr_left hTexts)

end

/-- **The history recounts a run in the words of the description.** At every point of a run, and at
its end, the entries of the history are those entries of the description, as deep as there, whose
instructions were executed. Each has one mark at most: that it was left early for the steps with
which a story was left, and what ended the run for the last entry alone. If the run comes to its end
and all steps succeed, the history is the description. -/
theorem Mounts.history_recounts {cast : Cast β} {tree : StoryTree β} {m : Mounted β}
    (h : Mounts cast tree m.plan) {perform : β → Context → Reply} {calling : Calling}
    {arguments : Bindings} {invocation : Invocation}
    (hInvoke : m.invoke perform calling arguments = .ok invocation) :
    ∃ values, m.plan.root.checkCall arguments = .ok values ∧
      let start := m.plan.beginning m.settings.reprWidth values
      let moments := m.plan.moments tree perform calling m.settings.reprWidth values
      m.plan.describe = "\n".intercalate
        ((Instruction.linesFrom 0 m.plan.instructions).reduceOption.map HistoryLine.entry) ∧
      moments.map Moment.instruction <+: m.plan.instructions ∧
      (∀ done later, moments = done ++ later →
        Run.Recounts m.plan perform calling done (start.stateAfter done).ctx.history) ∧
      Run.Recounts m.plan perform calling moments invocation.ctx.history ∧
      (invocation.ending = .ok .finished →
        (∀ executed ∈ moments, executed.Succeeds perform calling) →
          invocation.ctx.history.display = m.plan.describe) := by
  obtain ⟨hPlan, hRuns⟩ := Mounted.invoke_eq_ok h hInvoke
  obtain ⟨values, hAccepted, hCtx, hEnding⟩ := h.invoke_eq_ok hPlan
  have hReplies : m.plan.AllReply perform calling := by
    intro i hi s hs ctx
    rw [hRuns i hi s hs ctx]
    exact Option.some_ne_none _
  refine ⟨values, hAccepted, ?_, ?_, fun done later hPoint => h.recounts_at hReplies hPoint, ?_, ?_⟩
  · rw [Plan.describe, Plan.describeLines_eq]
  · have hScore := (Run.map_moments_prefix m.plan perform calling
      (tree.score m.plan.failures.isSome)
      (m.plan.beginning m.settings.reprWidth values)).map Prod.snd
    rw [List.map_map, ← StoryTree.instructions, ← h.instructions_eq] at hScore
    exact hScore
  · rw [hCtx]
    exact h.recounts_at hReplies (List.append_nil _).symm
  · intro hFinished hSucceed
    rw [hCtx]
    exact h.display_eq_describe hReplies hSucceed (hEnding.symm.trans hFinished)

/-! ## Two examples -/

def Shop.sale : Mounted Body := { plan := plan }

/-- The payment is left early, and the line of what comes after it lies as deep as in the
description. A laid table has the history that its description foretells. -/
theorem Shop.recounted :
    (∃ invocation, sale.invoke answer .blocking arguments = .ok invocation ∧
      invocation.ctx.history.texts =
        ["Shop.sell", "  add", "  pay", "    free (skipped)", "  ship (failed: \"sold out\")"] ∧
      plan.describe = "Shop.sell\n  add\n  pay\n    free\n    charge\n  ship" ∧
      ∃ done, Run.Recounts plan answer .blocking done invocation.ctx.history) ∧
    ∃ invocation, Parlour.laying.invoke answer .blocking .empty = .ok invocation ∧
      invocation.ctx.history.display = Parlour.laying.plan.describe := by
  constructor
  · have hSale : ∃ invocation, sale.invoke answer .blocking arguments = .ok invocation ∧
        invocation.ctx.history.texts =
          ["Shop.sell", "  add", "  pay", "    free (skipped)", "  ship (failed: \"sold out\")"] :=
      ⟨_, rfl, rfl⟩
    obtain ⟨invocation, hInvoke, hTexts⟩ := hSale
    obtain ⟨values, -, -, -, -, hRecounts, -⟩ := Mounts.history_recounts (m := sale) mounts hInvoke
    exact ⟨invocation, hInvoke, hTexts, rfl, _, hRecounts⟩
  · have hMounts : Mounts Parlour.cast ⟨Parlour.table, "parlour",
        .parallel [Parlour.step "plates" .function, Parlour.step "cups" .function] .done⟩
        Parlour.laying.plan := ⟨rfl, .parallel .done⟩
    have hLaid : ∃ invocation, Parlour.laying.invoke answer .blocking .empty = .ok invocation ∧
        invocation.ending = .ok .finished := ⟨_, rfl, rfl⟩
    obtain ⟨invocation, hInvoke, hEnding⟩ := hLaid
    obtain ⟨values, -, -, hPrefix, -, -, hDescribed⟩ := hMounts.history_recounts hInvoke
    refine ⟨invocation, hInvoke, hDescribed hEnding ?_⟩
    -- plates and cups are laid with success, whenever they are
    rintro executed hExecuted - s outcome ⟨hStep, reply, hReply, hOutcome⟩
    have hInstruction := hPrefix.subset (List.mem_map_of_mem hExecuted)
    rw [hMounts.instructions_eq] at hInstruction
    have hLaying := StoryTree.mem_steps_of_mem_instructions hInstruction hStep
    obtain ⟨hMode, hBody⟩ : s.mode = .function ∧ s.body = .ok (.success .empty) := by
      rcases List.mem_pair.mp hLaying with rfl | rfl <;> exact ⟨rfl, rfl⟩
    rw [Run.reply?_of_function hMode] at hReply
    obtain rfl := Option.some.inj hReply
    exact ⟨.empty, Except.ok.inj (hOutcome.symm.trans hBody)⟩

end Storyline
