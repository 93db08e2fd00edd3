import Storyline.Observe.Trace
import Storyline.Proofs.Frame
import Storyline.Proofs.Observed

/-!
# Stories that begin and end in a trace

A trace tells of each story that it begins and that it ends, and at which depth. A story that is
left early is closed with what is passed over (`Run.passOver`), of which nothing is told: each time,
one end is missing (`Run.Stands`). So the beginnings and ends of a run through
all instructions match, as brackets do, exactly if no step leaves its story early
(`Mounts.balanced_iff`).
-/

set_option autoImplicit false

namespace Storyline

variable {β : Type}

/-! ## Brackets -/

/-- The beginning or the end of a story at a depth. -/
inductive Bracket where
  | start (depth : Nat)
  | stop (depth : Nat)
  deriving DecidableEq, Repr

/-- Each beginning is closed by one end of the same depth, and what begins in between ends in
between. -/
inductive Balanced : List Bracket → Prop where
  | nil : Balanced []
  | story {depth : Nat} {inner rest : List Bracket} :
      Balanced inner → Balanced rest →
      Balanced (.start depth :: (inner ++ .stop depth :: rest))

namespace Bracket

/-- What a message of a trace tells of the beginning or the end of a story. -/
def ofMessage? (m : TraceMessage) : Option Bracket :=
  match m.fields.lookup "depth" with
  | some (.number (.int (.ofNat depth))) =>
    if m.message = "substory.start" then some (start depth)
    else if m.message = "substory.end" then some (stop depth)
    else none
  | _ => none

/-- What an event of an invocation tells of the beginning or the end of a story. -/
def ofEvent? : Event → Option Bracket
  | .entered _ depth => some (start depth)
  | .left depth => some (stop depth)
  | _ => none

end Bracket

/-- What the messages of an invocation tell, without those of the invocations in it. -/
def bracketsIn (events : List Event) : List Bracket :=
  ((events.filter (!·.isCall)).flatMap TraceMessage.ofEvent).filterMap Bracket.ofMessage?

/-- What the messages of events tell is read off the events, if each event is told in one message or
in none. -/
theorem filterMap_messages {α : Type} {ofMessage? : TraceMessage → Option α}
    {ofEvent? : Event → Option α}
    (h : ∀ event, (([event].filter (!·.isCall)).flatMap TraceMessage.ofEvent).filterMap ofMessage? =
      (ofEvent? event).toList) (events : List Event) :
    ((events.filter (!·.isCall)).flatMap TraceMessage.ofEvent).filterMap ofMessage? =
      events.filterMap ofEvent? := by
  induction events with
  | nil => rfl
  | cons event rest ih =>
      rw [← List.singleton_append, List.filter_append, List.flatMap_append, List.filterMap_append,
        List.filterMap_append, h, ih]
      cases hOf : ofEvent? event with
      | none => simp [hOf]
      | some told => simp [hOf]

theorem bracketsIn_eq (events : List Event) :
    bracketsIn events = events.filterMap Bracket.ofEvent? :=
  filterMap_messages (fun event => by cases event <;> rfl) events

theorem bracketsIn_append (events later : List Event) :
    bracketsIn (events ++ later) = bracketsIn events ++ bracketsIn later := by
  simp only [bracketsIn_eq, List.filterMap_append]

/-- A beginning opens one story and an end closes one. -/
def Bracket.value : Bracket → Int
  | start _ => 1
  | stop _ => -1

/-- How many stories are opened and not closed. -/
def excess : List Bracket → Int
  | [] => 0
  | bracket :: rest => bracket.value + excess rest

theorem excess_append (brackets later : List Bracket) :
    excess (brackets ++ later) = excess brackets + excess later := by
  induction brackets with
  | nil => exact (Int.zero_add _).symm
  | cons bracket rest ih => rw [List.cons_append, excess, excess, ih, Int.add_assoc]

theorem Balanced.excess_eq {brackets : List Bracket} (h : Balanced brackets) :
    excess brackets = 0 := by
  induction h with
  | nil => rfl
  | story _ _ ihInner ihRest =>
      rw [excess, excess_append, excess, ihInner, ihRest]
      rfl

/-! ## Instructions -/

namespace Instruction

/-- The bracket of an instruction that is executed where some stories are open. -/
def bracket? (depth : Nat) : Instruction β → Option Bracket
  | enter _ _ => some (.start (depth + 1))
  | leave => some (.stop depth)
  | _ => none

/-- The brackets of some instructions, from a depth on. -/
def bracketsFrom : Nat → List (Instruction β) → List Bracket
  | _, [] => []
  | depth, i :: rest => (i.bracket? depth).toList ++ bracketsFrom (i.depthAfter depth) rest

theorem bracketsFrom_append (depth : Nat) (first rest : List (Instruction β)) :
    bracketsFrom depth (first ++ rest) =
      bracketsFrom depth first ++ bracketsFrom (first.foldl depthAfter depth) rest := by
  induction first generalizing depth with
  | nil => rfl
  | cons i others ih =>
      rw [List.cons_append, bracketsFrom, ih, bracketsFrom, List.foldl_cons, List.append_assoc]

theorem bracketsFrom_concat (depth : Nat) (first : List (Instruction β)) (i : Instruction β) :
    bracketsFrom depth (first ++ [i]) =
      bracketsFrom depth first ++ (i.bracket? (first.foldl depthAfter depth)).toList := by
  rw [bracketsFrom_append, bracketsFrom, bracketsFrom, List.append_nil]

/-- By how much an instruction changes the number of stories that were entered and not left. -/
def sign : Instruction β → Int
  | enter _ _ => 1
  | leave => -1
  | _ => 0

/-- Where a story is open, this is the change of depth in the description. -/
theorem depthAfter_eq (i : Instruction β) (depth : Nat) (hOpen : i = .leave → 0 < depth) :
    (i.depthAfter depth : Int) = depth + i.sign := by
  cases i with
  | enter label number => exact Int.natCast_succ depth
  | leave =>
      have hPositive := hOpen rfl
      show ((depth - 1 : Nat) : Int) = depth + -1
      omega
  | _ => exact (Int.add_zero _).symm

/-- What an instruction tells is how it changes the number of open stories. -/
theorem excess_bracket? (i : Instruction β) (depth : Nat) :
    excess (i.bracket? depth).toList = i.sign := by
  cases i <;> rfl

theorem bracketsIn_opening (i : Instruction β) (r : Run) :
    bracketsIn (i.opening r) = (i.bracket? r.depth).toList := by
  cases i with
  | enter label number => rfl
  | leave => rfl
  | step s number protocol => rfl
  | parallel steps number protocol =>
      show bracketsIn (steps.map _) = []
      rw [bracketsIn_eq, List.filterMap_map]
      exact List.filterMap_eq_nil_iff.mpr fun _ _ => rfl

/-- Bodies tell of no story of their own invocation. -/
theorem bracketsIn_spoken {perform : β → Context → Reply}
    (hBodies : ∀ body ctx, (perform body ctx).TellsCalls) (calling : Calling) (i : Instruction β)
    (r : Run) : bracketsIn (i.spoken perform calling r) = [] := by
  rw [bracketsIn_eq]
  refine List.filterMap_eq_nil_iff.mpr fun event hEvent => ?_
  rcases isCall_or_of_mem_spoken hBodies hEvent with hCall | ⟨step, outcome, rfl⟩
  · cases event with
    | called observers events => rfl
    | _ => cases hCall
  · rfl

end Instruction

/-! ## The brackets of a tree -/

theorem Scenes.foldl_depthAfter (isShut : Bool) (p : Place) (next : Nat) (scenes : Scenes β)
    (depth : Nat) :
    (scenes.instructions isShut p next).foldl Instruction.depthAfter depth = depth := by
  induction scenes generalizing p next depth with
  | done => rfl
  | step s rest ih => exact ih p next depth
  | parallel steps rest ih => exact ih p next depth
  | story name definition owner inner rest ihInner ih =>
      rw [instructions_story, List.foldl_cons, List.foldl_append, ihInner, List.foldl_cons, ih]
      rfl

/-- Scenes begin and end stories in pairs. -/
theorem Scenes.balanced (isShut : Bool) (p : Place) (next : Nat) (scenes : Scenes β)
    (depth : Nat) :
    Balanced (Instruction.bracketsFrom depth (scenes.instructions isShut p next)) := by
  induction scenes generalizing p next depth with
  | done => exact .nil
  | step s rest ih => exact ih p next depth
  | parallel steps rest ih => exact ih p next depth
  | story name definition owner inner rest ihInner ih =>
      have hInner := ihInner ⟨definition, owner, next⟩ (next + 1) (depth + 1)
      have hRest := ih p (next + 1 + inner.stories.length) depth
      rw [instructions_story, Instruction.bracketsFrom, Instruction.bracketsFrom_append,
        Instruction.depthAfter, foldl_depthAfter, Instruction.bracketsFrom]
      exact .story hInner hRest

theorem StoryTree.foldl_depthAfter (tree : StoryTree β) (isShut : Bool) :
    (tree.instructions isShut).foldl Instruction.depthAfter 0 = 0 := by
  rw [instructions_eq, List.foldl_cons, List.foldl_append, Scenes.foldl_depthAfter]
  rfl

theorem StoryTree.balanced (tree : StoryTree β) (isShut : Bool) :
    Balanced (Instruction.bracketsFrom 0 (tree.instructions isShut)) := by
  rw [instructions_eq, Instruction.bracketsFrom, Instruction.bracketsFrom_append,
    Instruction.depthAfter, Scenes.foldl_depthAfter]
  exact .story (tree.scenes.balanced isShut _ 1 1) .nil

/-! ## Moments -/

namespace Moment

variable {plan : Plan β} {perform : β → Context → Reply} {calling : Calling} {m : Moment β}

/-- The bracket of a moment, if it executes an instruction that has one. -/
def brackets (m : Moment β) : List Bracket :=
  if m.before.skipped = 0 then (m.instruction.bracket? m.before.depth).toList else []

/-- As long as a run goes on, the brackets of its moments are told. -/
theorem Executes.bracketsIn_eq (h : m.Executes plan perform calling)
    (hBodies : ∀ body ctx, (perform body ctx).TellsCalls) (hNext : m.flow = .next) :
    bracketsIn m.after.events = bracketsIn m.before.events ++ m.brackets := by
  by_cases hRuns : m.before.skipped = 0
  · have hClose := Run.closes_execute plan perform calling m.instruction hRuns
    rw [h, hNext] at hClose
    cases hClose with
    | goesOn hEvents =>
        rw [hEvents, bracketsIn_append, bracketsIn_append, Instruction.bracketsIn_opening,
          Instruction.bracketsIn_spoken hBodies, List.append_nil, brackets, if_pos hRuns]
  · rw [Executes, Run.execute_of_skipped hRuns] at h
    rw [← (Prod.mk.inj h).1, Run.events_passOver, brackets, if_neg hRuns, List.append_nil]

/-- An executed instruction changes the number of open stories as in the description. -/
theorem Executes.depth_eq (h : m.Executes plan perform calling) (hRuns : m.before.skipped = 0) :
    m.after.depth = m.instruction.depthAfter m.before.depth := by
  have hDepth := Run.depth_execute plan perform calling m.instruction hRuns
  rwa [h] at hDepth

/-- Where a run goes on, the next instruction is executed, unless a step has just left its story. -/
theorem Executes.skipped_eq (h : m.Executes plan perform calling) (hNext : m.flow = .next)
    (hRuns : m.before.skipped = 0) :
    m.after.skipped = 0 ∨
      m.after.skipped = 1 ∧ ∃ s number protocol, m.instruction = .step s number protocol := by
  have hTurn := h.turn hRuns
  rw [hNext] at hTurn
  cases hTurn with
  | goesOn hSkipped _ _ => exact .inl hSkipped
  | leaves hSkipped _ hLeaves =>
      obtain ⟨s, number, protocol, -, hStep, -⟩ := hLeaves
      exact .inr ⟨hSkipped, s, number, protocol, hStep⟩
  | stops hSkipped _ _ _ _ => exact .inl hSkipped

end Moment

/-! ## At every point of a run -/

namespace Run

/-- How a run stands at a depth of its description, after some stories were left early. -/
structure Stands (depth early : Nat) (r : Run) : Prop where
  /-- A story that is left early is open until the rest of it has been passed over. -/
  deep : r.depth + (r.skipped - 1) = depth
  inner : r.skipped ≠ 0 → 0 < r.depth
  /-- The ends of the stories that were left early are missing, but for one that is still open. -/
  missing : excess (bracketsIn r.events) + (if r.skipped = 0 then 0 else 1) = r.depth + early

variable {plan : Plan β} {perform : β → Context → Reply} {calling : Calling} {depth early : Nat}
  {r : Run} {done later rest : List (Moment β)} {m : Moment β}

/-- What is passed over is not told, nor is the end of the story that was left early. -/
theorem Stands.passOver (h : r.Stands depth early) (hSkips : r.skipped ≠ 0) (i : Instruction β) :
    (r.passOver i).Stands (i.depthAfter depth) early := by
  obtain ⟨hDeep, hInner, hMissing⟩ := h
  have hPositive := hInner hSkips
  rw [if_neg hSkips] at hMissing
  cases i with
  | enter label number =>
      refine ⟨?_, fun _ => hPositive, hMissing⟩
      show r.depth + (r.skipped + 1 - 1) = depth + 1
      omega
  | leave =>
      by_cases hLast : r.skipped = 1
      · have hClosed : r.passOver (.leave : Instruction β) =
            { r with skipped := 0, depth := r.depth - 1 } := by
          rw [Run.passOver, if_pos hLast, hLast]
        rw [hClosed]
        refine ⟨?_, fun hOpen => absurd rfl hOpen, ?_⟩
        · show r.depth - 1 + 0 = depth - 1
          omega
        · show excess (bracketsIn r.events) + 0 = (r.depth - 1 : Nat) + early
          omega
      · have hOpen : r.passOver (.leave : Instruction β) = { r with skipped := r.skipped - 1 } := by
          rw [Run.passOver, if_neg hLast]
        rw [hOpen]
        refine ⟨?_, fun _ => hPositive, ?_⟩
        · show r.depth + (r.skipped - 1 - 1) = depth - 1
          omega
        · show excess (bracketsIn r.events) + (if r.skipped - 1 = 0 then 0 else 1) = r.depth + early
          rw [if_neg (by omega)]
          exact hMissing
  | _ =>
      refine ⟨hDeep, hInner, ?_⟩
      exact (congrArg (excess (bracketsIn r.events) + ·) (if_neg hSkips)).trans hMissing

/-- What is executed is told, unless it leaves a story early. -/
theorem Stands.execute (h : m.before.Stands depth early) (hRuns : m.before.skipped = 0)
    (hOpen : (∀ label number, m.instruction ≠ .enter label number) → 0 < depth)
    (hExecutes : m.Executes plan perform calling)
    (hBodies : ∀ body ctx, (perform body ctx).TellsCalls) (hNext : m.flow = .next) :
    m.after.Stands (m.instruction.depthAfter depth)
      (early + if m.after.skipped = 0 then 0 else 1) := by
  obtain ⟨hDeep, -, hMissing⟩ := h
  rw [hRuns, Nat.zero_sub, Nat.add_zero] at hDeep
  rw [if_pos hRuns, Int.add_zero, hDeep] at hMissing
  have hDepth := hExecutes.depth_eq hRuns
  have hTold := hExecutes.bracketsIn_eq hBodies hNext
  rw [Moment.brackets, if_pos hRuns, hDeep] at hTold
  rw [hDeep] at hDepth
  have hBracket := m.instruction.depthAfter_eq depth fun hLeave => hOpen (by simp [hLeave])
  rcases hExecutes.skipped_eq hNext hRuns with hSkipped | ⟨hSkipped, s, number, protocol, hStep⟩
  · refine ⟨by omega, fun hSkips => absurd hSkipped hSkips, ?_⟩
    rw [if_pos hSkipped, if_pos hSkipped, hTold, excess_append, Instruction.excess_bracket?, hDepth]
    omega
  · refine ⟨by omega, fun _ => ?_, ?_⟩
    · rw [hDepth, hStep]
      exact hOpen (by simp [hStep])
    · have hSkips : m.after.skipped ≠ 0 := by omega
      rw [if_neg hSkips, if_neg hSkips, hTold, excess_append, Instruction.excess_bracket?, hDepth]
      omega

/-- Where a story ends, as where a step runs, a story is open. -/
theorem depthOf_pos {tree : StoryTree β} {isShut : Bool}
    (h : moments plan perform calling (tree.score isShut) r = done ++ m :: later)
    (hInner : ∀ label number, m.instruction ≠ .enter label number) : 0 < depthOf done := by
  obtain ⟨outer, -, hWithin⟩ := StoryTree.exists_around h
  have hOpen : m.story :: outer = openedBy done := by
    rw [hWithin, Instruction.within]
    split
    · next label number hEnter => exact absurd hEnter (hInner label number)
    · rfl
  rw [depthOf_eq, ← hOpen]
  exact Nat.succ_pos _

/-- The number of moments at which a story was left early. -/
def leftEarly (done : List (Moment β)) : Nat :=
  done.countP fun m => m.before.skipped = 0 ∧ m.after.skipped ≠ 0

theorem leftEarly_concat (done : List (Moment β)) (m : Moment β) :
    leftEarly (done ++ [m]) =
      leftEarly done + if m.before.skipped = 0 ∧ m.after.skipped ≠ 0 then 1 else 0 := by
  simp [leftEarly, List.countP_append]

/-- At every point of a run that goes on, the brackets of the moments so far have been told. -/
theorem bracketsIn_at {tree : StoryTree β} {width : Nat} {values : Bindings}
    (hBodies : ∀ body ctx, (perform body ctx).TellsCalls)
    (hNext : ∀ m ∈ plan.moments tree perform calling width values, m.flow = .next)
    (hPoint : plan.moments tree perform calling width values = done ++ rest) :
    bracketsIn ((plan.beginning width values).stateAfter done).events =
      done.flatMap Moment.brackets := by
  refine moments_induction_at
    (P := fun done r => bracketsIn r.events = done.flatMap Moment.brackets) rfl
    (fun done m later hPoint hBefore => ?_) hPoint
  obtain ⟨-, hExecutes, -⟩ := moment_executes hPoint
  have hMoment : m ∈ plan.moments tree perform calling width values := by
    rw [Plan.moments, hPoint]
    exact List.mem_append_right _ List.mem_cons_self
  rw [hExecutes.bracketsIn_eq hBodies (hNext m hMoment), hBefore, List.flatMap_append,
    List.flatMap_singleton]

/-- At every point of a run that goes on it is known where it stands. -/
theorem stands_at {tree : StoryTree β} {width : Nat} {values : Bindings}
    (hBodies : ∀ body ctx, (perform body ctx).TellsCalls)
    (hNext : ∀ m ∈ plan.moments tree perform calling width values, m.flow = .next)
    (hPoint : plan.moments tree perform calling width values = done ++ rest) :
    ((plan.beginning width values).stateAfter done).Stands (depthOf done) (leftEarly done) := by
  refine moments_induction_at (P := fun done r => r.Stands (depthOf done) (leftEarly done))
    ⟨rfl, (absurd rfl ·), rfl⟩ (fun done m later hPoint hBefore => ?_) hPoint
  obtain ⟨-, hExecutes, -⟩ := moment_executes hPoint
  rw [depthOf_concat, leftEarly_concat]
  by_cases hRuns : m.before.skipped = 0
  · have hMoment : m ∈ plan.moments tree perform calling width values := by
      rw [Plan.moments, hPoint]
      exact List.mem_append_right _ List.mem_cons_self
    have hAfter := hBefore.execute hRuns (depthOf_pos hPoint) hExecutes hBodies (hNext m hMoment)
    simpa [hRuns] using hAfter
  · rw [Moment.Executes, execute_of_skipped hRuns] at hExecutes
    rw [← (Prod.mk.inj hExecutes).1, if_neg fun hSkips => hRuns hSkips.1, Nat.add_zero]
    exact hBefore.passOver hRuns m.instruction

end Run

/-! ## At the end of a run -/

section

variable {cast : Cast β} {tree : StoryTree β} {plan : Plan β} {perform : β → Context → Reply}
  {calling : Calling} {width : Nat} {values : Bindings} {done rest : List (Moment β)}

/-- As many ends are missing as there were stories that were left early. -/
theorem Mounts.excess_eq (h : Mounts cast tree plan)
    (hBodies : ∀ body ctx, (perform body ctx).TellsCalls)
    (hNext : ∀ m ∈ plan.moments tree perform calling width values, m.flow = .next) :
    let moments := plan.moments tree perform calling width values
    excess (bracketsIn ((plan.beginning width values).stateAfter moments).events) =
      Run.leftEarly moments := by
  intro moments
  obtain ⟨hDeep, hInner, hMissing⟩ := Run.stands_at hBodies hNext (List.append_nil moments).symm
  have hClosed : Run.depthOf moments = 0 := by
    rw [Run.depthOf, h.map_instruction_eq hNext, h.instructions_eq]
    exact tree.foldl_depthAfter _
  rw [hClosed] at hDeep
  have hRuns : ((plan.beginning width values).stateAfter moments).skipped = 0 := by
    by_contra hSkips
    have hPositive := hInner hSkips
    omega
  rw [if_pos hRuns] at hMissing
  omega

/-- As long as no step leaves its story early, the moments have the brackets of the instructions. -/
theorem Mounts.flatMap_brackets_eq (h : Mounts cast tree plan)
    (hReplies : plan.AllReply perform calling)
    (hBodies : ∀ body ctx, (perform body ctx).TellsCalls)
    (hNext : ∀ m ∈ plan.moments tree perform calling width values, m.flow = .next)
    (hStays : ∀ m ∈ plan.moments tree perform calling width values, m.before.skipped = 0 →
      ¬ m.instruction.Leaves plan perform calling m.before)
    (hPoint : plan.moments tree perform calling width values = done ++ rest) :
    done.flatMap Moment.brackets = Instruction.bracketsFrom 0 (done.map Moment.instruction) := by
  refine Run.moments_induction_at
    (P := fun done _ =>
      done.flatMap Moment.brackets = Instruction.bracketsFrom 0 (done.map Moment.instruction))
    rfl (fun done m later hPoint hDone => ?_) hPoint
  obtain ⟨-, -, hBefore⟩ := Run.moment_executes hPoint
  have hRuns := h.skipped_eq_zero hReplies hStays hPoint
  have hDeep := (Run.stands_at hBodies hNext hPoint).deep
  rw [hRuns, Nat.zero_sub, Nat.add_zero, ← hBefore] at hDeep
  rw [List.flatMap_append, List.flatMap_singleton, List.map_append, List.map_singleton, hDone,
    Instruction.bracketsFrom_concat, Moment.brackets, if_pos (hBefore ▸ hRuns), hDeep]
  rfl

/-- Stories that are left early are counted, and no others. -/
theorem Mounts.leftEarly_eq_zero_iff (h : Mounts cast tree plan)
    (hReplies : plan.AllReply perform calling) :
    Run.leftEarly (plan.moments tree perform calling width values) = 0 ↔
      ∀ m ∈ plan.moments tree perform calling width values, m.before.skipped = 0 →
        ¬ m.instruction.Leaves plan perform calling m.before := by
  rw [Run.leftEarly, List.countP_eq_zero]
  refine forall₂_congr fun m hMoment => ?_
  rw [decide_eq_true_eq, not_and]
  exact forall_congr' fun hRuns => not_congr (h.leaves_iff hReplies hMoment hRuns).symm

/-- In a run that goes on after each moment the brackets match exactly if no step leaves its story
early: otherwise there are fewer ends than beginnings. -/
theorem Mounts.balanced_brackets_iff (h : Mounts cast tree plan)
    (hReplies : plan.AllReply perform calling)
    (hBodies : ∀ body ctx, (perform body ctx).TellsCalls)
    (hNext : ∀ m ∈ plan.moments tree perform calling width values, m.flow = .next) :
    let moments := plan.moments tree perform calling width values
    Balanced (moments.flatMap Moment.brackets) ↔
      ∀ m ∈ moments, m.before.skipped = 0 →
        ¬ m.instruction.Leaves plan perform calling m.before := by
  intro moments
  constructor
  · intro hBalanced
    rw [← Run.bracketsIn_at hBodies hNext (List.append_nil moments).symm] at hBalanced
    have hEarly : (Run.leftEarly moments : Int) = 0 :=
      (h.excess_eq hBodies hNext).symm.trans hBalanced.excess_eq
    exact (h.leftEarly_eq_zero_iff hReplies).mp (Int.ofNat_eq_zero.mp hEarly)
  · intro hStays
    rw [h.flatMap_brackets_eq hReplies hBodies hNext hStays (List.append_nil _).symm,
      h.map_instruction_eq hNext, h.instructions_eq]
    exact tree.balanced _

end

/-- **Which traces are balanced.** A run through all instructions tells of each story that is
entered, and of each that is left where nothing is passed over. So each story that is told to begin
is told to end, once and at the same depth, exactly if no step leaves its story early. Bodies may
call other stories, and can tell nothing else. -/
theorem Mounts.balanced_iff {cast : Cast β} {tree : StoryTree β} {m : Mounted β}
    (h : Mounts cast tree m.plan) {perform : β → Context → Reply} {calling : Calling}
    (hBodies : ∀ body ctx, (perform body ctx).TellsCalls) {arguments : Bindings}
    {invocation : Invocation}
    (hInvoke : m.invoke perform calling arguments = .ok invocation)
    (hFinished : invocation.ending = .ok .finished) :
    ∃ values, m.plan.root.checkCall arguments = .ok values ∧
      let moments := m.plan.moments tree perform calling m.settings.reprWidth values
      bracketsIn invocation.events = moments.flatMap Moment.brackets ∧
      (Balanced (bracketsIn invocation.events) ↔
        ∀ moment ∈ moments, moment.before.skipped = 0 →
          ¬ moment.instruction.Leaves m.plan perform calling moment.before) := by
  obtain ⟨hPlan, hRuns⟩ := Mounted.invoke_eq_ok h hInvoke
  obtain ⟨values, hAccepted, -, hEnding⟩ := h.invoke_eq_ok hPlan
  have hReplies : m.plan.AllReply perform calling := by
    intro i hi s hs ctx
    rw [hRuns i hi s hs ctx]
    exact Option.some_ne_none _
  have hNext : ∀ moment ∈ m.plan.moments tree perform calling m.settings.reprWidth values,
      moment.flow = .next :=
    fun moment hMoment => Plan.flow_eq_next_of_finished (hEnding.symm.trans hFinished) hMoment
  have hTold : bracketsIn invocation.events =
      (m.plan.moments tree perform calling m.settings.reprWidth values).flatMap
        Moment.brackets := by
    -- what is told after the last moment is that the invocation has ended
    rw [h.invoke_of_accepted perform calling m.settings.reprWidth hAccepted] at hPlan
    rw [← Except.ok.inj hPlan, bracketsIn_append]
    exact (List.append_nil _).trans (Run.bracketsIn_at hBodies hNext (List.append_nil _).symm)
  refine ⟨values, hAccepted, hTold, ?_⟩
  rw [hTold]
  exact h.balanced_brackets_iff hReplies hBodies hNext

/-! ## An example

An evening at the theatre opens with a scene of its own, which the speaker may cut short. -/

namespace Theatre

open Shop (Body answer)

def scene : Story where
  name := ⟨"Theatre", "scene"⟩
  arguments := []
  collected := [.step "speak", .step "sing"]
  spec := none
  failures := none

def evening : Story where
  name := ⟨"Theatre", "evening"⟩
  arguments := []
  collected := [.step "scene", .step "bow"]
  spec := none
  failures := none

def step (name : String) (outcome : Outcome) : Step Body where
  name := name
  owner := "Theatre"
  mode := .function
  body := .ok outcome

def done : Outcome := .success .empty

/-- The cast, with what the speaker answers. -/
def cast (spoken : Outcome) : Cast Body :=
  .ofList [("theatre", {
    className := "Theatre"
    members := .ofList [("bow", .step (step "bow" done)), ("sing", .step (step "sing" done)),
      ("speak", .step (step "speak" spoken)), ("scene", .story (.ok scene) "theatre")] })]

def tree (spoken : Outcome) : StoryTree Body :=
  ⟨evening, "theatre",
    .story "scene" scene "theatre" (.step (step "speak" spoken) (.step (step "sing" done) .done))
      (.step (step "bow" done) .done)⟩

def shown (spoken : Outcome) : Mounted Body :=
  { plan := (Plan.compile (cast spoken) evening "theatre").toOption.get rfl }

theorem mounts (spoken : Outcome) : Mounts (cast spoken) (tree spoken) (shown spoken).plan :=
  ⟨rfl, .story (.step (.step .done)) (.step .done)⟩

theorem tellsCalls_answer (body : Body) (ctx : Context) : (answer body ctx).TellsCalls :=
  fun event hEvent => by cases hEvent

/-- If the scene is played, both stories are told to end, and so no step has left its story. -/
theorem scene_played :
    ∃ invocation, (shown done).invoke answer .blocking .empty = .ok invocation ∧
      bracketsIn invocation.events = [.start 1, .start 2, .stop 2, .stop 1] ∧
      ∃ values, (shown done).plan.root.checkCall .empty = .ok values ∧
        ∀ m ∈ (shown done).plan.moments (tree done) answer .blocking 88 values,
          m.before.skipped = 0 →
            ¬ m.instruction.Leaves (shown done).plan answer .blocking m.before := by
  have hShown : ∃ invocation, (shown done).invoke answer .blocking .empty = .ok invocation ∧
      invocation.ending = .ok .finished ∧
      bracketsIn invocation.events = [.start 1, .start 2, .stop 2, .stop 1] :=
    ⟨_, rfl, rfl, (bracketsIn_eq _).trans rfl⟩
  obtain ⟨invocation, hInvoke, hFinished, hTold⟩ := hShown
  obtain ⟨values, hAccepted, -, hBalanced⟩ :=
    (mounts done).balanced_iff tellsCalls_answer hInvoke hFinished
  refine ⟨invocation, hInvoke, hTold, values, hAccepted, hBalanced.mp ?_⟩
  have hScene : Balanced [.start 2, .stop 2] := @Balanced.story 2 [] [] .nil .nil
  rw [hTold]
  exact @Balanced.story 1 [.start 2, .stop 2] [] hScene .nil

/-- If the speaker leaves the scene, the evening comes to its end, and the end of the scene is not
told. -/
theorem scene_left :
    Mounts (cast .skip) (tree .skip) (shown .skip).plan ∧
      ∃ invocation, (shown .skip).invoke answer .blocking .empty = .ok invocation ∧
        invocation.ending = .ok .finished ∧
        bracketsIn invocation.events = [.start 1, .start 2, .stop 1] ∧
        ¬ Balanced (bracketsIn invocation.events) := by
  have hShown : ∃ invocation, (shown .skip).invoke answer .blocking .empty = .ok invocation ∧
      invocation.ending = .ok .finished ∧
      bracketsIn invocation.events = [.start 1, .start 2, .stop 1] :=
    ⟨_, rfl, rfl, (bracketsIn_eq _).trans rfl⟩
  obtain ⟨invocation, hInvoke, hFinished, hTold⟩ := hShown
  refine ⟨mounts .skip, invocation, hInvoke, hFinished, hTold, fun hBalanced => ?_⟩
  have hHeight := hBalanced.excess_eq
  rw [hTold] at hHeight
  -- two stories begin and one ends
  exact absurd hHeight (by decide)

end Theatre

end Storyline
