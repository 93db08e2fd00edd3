import Mathlib.Data.List.Induction
import Storyline.Proofs.Effects

/-!
# The moments of a run

A run is looked at instruction by instruction: a moment is an instruction that was executed, or
noted while stories were being skipped, beside its story and between two states. The moments of
a run end where the run stops (`Run.moments`), and a point of the run is the state after some of
them (`Run.stateAfter`).

`Run.moments_induction`: what holds at the beginning and is preserved by every moment holds at
every point.
-/

set_option autoImplicit false

namespace Storyline

variable {β : Type}

/-- An instruction of a run with its story, the states before and after it, and whether the run
goes on. -/
structure Moment (β : Type) where
  story : Story
  instruction : Instruction β
  before : Run
  after : Run
  flow : Flow

/-- A moment executes its instruction. -/
def Moment.Executes (m : Moment β) (plan : Plan β) (perform : β → Context → Reply)
    (calling : Calling) : Prop :=
  m.before.execute plan perform calling m.instruction = (m.after, m.flow)

namespace Run

variable (plan : Plan β) (perform : β → Context → Reply) (calling : Calling)

/-- The moments of a run through some instructions, up to the one that stops it. -/
def moments : List (Story × Instruction β) → Run → List (Moment β)
  | [], _ => []
  | (story, i) :: rest, r =>
    match r.execute plan perform calling i with
    | (after, .next) => ⟨story, i, r, after, .next⟩ :: moments rest after
    | (after, .stop ending) => [⟨story, i, r, after, .stop ending⟩]

/-- The state of a run after some moments. -/
def stateAfter (start : Run) (done : List (Moment β)) : Run :=
  done.foldl (fun _ m => m.after) start

/-- How a run ends that had some moments: as the last of them says, or at the end of all
instructions. -/
def endingOf (done : List (Moment β)) : Except StoryError Ending :=
  match done.getLast?.map Moment.flow with
  | some (.stop ending) => ending
  | _ => .ok .finished

variable {plan perform calling}

@[simp] theorem stateAfter_nil (start : Run) : start.stateAfter ([] : List (Moment β)) = start :=
  rfl

@[simp] theorem stateAfter_cons (start : Run) (m : Moment β) (rest : List (Moment β)) :
    start.stateAfter (m :: rest) = m.after.stateAfter rest := rfl

@[simp] theorem stateAfter_concat (start : Run) (done : List (Moment β)) (m : Moment β) :
    start.stateAfter (done ++ [m]) = m.after := by
  simp [stateAfter]

theorem endingOf_cons_next {m : Moment β} (hNext : m.flow = .next) (rest : List (Moment β)) :
    endingOf (m :: rest) = endingOf rest := by
  cases rest with
  | nil => simp [endingOf, hNext]
  | cons other rest => simp [endingOf, List.getLast?_cons_cons]

/-- Executing instructions ends in the state after all moments, as the last of them says. -/
theorem drive_eq (plan : Plan β) (perform : β → Context → Reply) (calling : Calling)
    (scored : List (Story × Instruction β)) (r : Run) :
    drive plan perform calling (scored.map Prod.snd) r =
      (r.stateAfter (moments plan perform calling scored r),
        endingOf (moments plan perform calling scored r)) := by
  induction scored generalizing r with
  | nil => rfl
  | cons first rest ih =>
      obtain ⟨story, i⟩ := first
      rw [List.map_cons, drive, moments]
      dsimp only
      generalize r.execute plan perform calling i = executed
      obtain ⟨after, flow⟩ := executed
      cases flow with
      | next =>
          rw [stateAfter_cons, endingOf_cons_next rfl]
          exact ih after
      | stop ending => rfl

/-- Every moment executes one of the instructions in the state after those before it. -/
theorem moment_executes {scored : List (Story × Instruction β)} {r : Run}
    {done rest : List (Moment β)} {m : Moment β}
    (h : moments plan perform calling scored r = done ++ m :: rest) :
    (m.story, m.instruction) ∈ scored ∧ m.Executes plan perform calling ∧
      m.before = r.stateAfter done := by
  induction scored generalizing r done with
  | nil => simp [moments] at h
  | cons first others ih =>
      obtain ⟨story, i⟩ := first
      rw [moments] at h
      cases hExecute : r.execute plan perform calling i with
      | mk after flow =>
        rw [hExecute] at h
        cases done with
        | nil =>
            have hHead : m = ⟨story, i, r, after, flow⟩ := by
              cases flow with
              | next => exact (List.cons.inj h).1.symm
              | stop ending => exact (List.cons.inj h).1.symm
            subst hHead
            exact ⟨List.mem_cons_self, hExecute, rfl⟩
        | cons head done =>
            cases flow with
            | stop ending =>
                -- nothing comes after the moment that stops the run
                have hNil := (List.cons.inj h).2
                exact absurd hNil.symm (by simp)
            | next =>
                obtain ⟨hHead, hTail⟩ := List.cons.inj h
                obtain ⟨hMem, hExecutes, hBefore⟩ := ih hTail
                subst hHead
                exact ⟨List.mem_cons_of_mem _ hMem, hExecutes, hBefore⟩

/-- **What holds at the beginning of a run and is preserved by every moment holds at every point
of it.** Where a moment stands in the run may be used. -/
theorem moments_induction_at {scored : List (Story × Instruction β)} {start : Run}
    {P : List (Moment β) → Run → Prop} (hStart : P [] start)
    (hStep : ∀ (done : List (Moment β)) (m : Moment β) (later : List (Moment β)),
      moments plan perform calling scored start = done ++ m :: later → P done m.before →
      P (done ++ [m]) m.after)
    {done rest : List (Moment β)} (h : moments plan perform calling scored start = done ++ rest) :
    P done (start.stateAfter done) := by
  -- on the last moment: what holds before it is what it preserves
  induction done using List.reverseRecOn generalizing rest with
  | nil => exact hStart
  | append_singleton done m ih =>
      rw [List.append_assoc, List.singleton_append] at h
      obtain ⟨-, -, hBefore⟩ := moment_executes h
      rw [stateAfter_concat]
      exact hStep done m rest h (hBefore ▸ ih h)

/-- What holds at the beginning of a run and is preserved by whatever executes an instruction holds
at every point of it. -/
theorem moments_induction {scored : List (Story × Instruction β)} {start : Run}
    {P : List (Moment β) → Run → Prop} (hStart : P [] start)
    (hStep : ∀ (done : List (Moment β)) (m : Moment β), P done m.before →
      (m.story, m.instruction) ∈ scored → m.Executes plan perform calling → P (done ++ [m]) m.after)
    {done rest : List (Moment β)} (h : moments plan perform calling scored start = done ++ rest) :
    P done (start.stateAfter done) := by
  refine moments_induction_at hStart (fun done m later hPoint hBefore => ?_) h
  obtain ⟨hMem, hExecutes, -⟩ := moment_executes hPoint
  exact hStep done m hBefore hMem hExecutes

end Run

/-! ## Invocations -/

namespace Plan

/-- The state in which a run with accepted arguments begins. -/
def beginning (plan : Plan β) (width : Nat) (values : Bindings) : Run :=
  { ctx := plan.initialContext width values
    events := [.started plan.qualified (plan.initialContext width values)] }

/-- The moments of an invocation of the plan of a tree with accepted arguments. -/
def moments (plan : Plan β) (tree : StoryTree β) (perform : β → Context → Reply)
    (calling : Calling) (width : Nat) (values : Bindings) : List (Moment β) :=
  Run.moments plan perform calling (tree.score plan.failures.isSome) (plan.beginning width values)

end Plan

/-- What comes of an invocation with accepted arguments: it ends in the state after all its
moments, as the last of them says. -/
theorem Mounts.invoke_of_accepted {cast : Cast β} {tree : StoryTree β} {plan : Plan β}
    (h : Mounts cast tree plan) (perform : β → Context → Reply) (calling : Calling) (width : Nat)
    {arguments values : Bindings} (hCheck : plan.root.checkCall arguments = .ok values) :
    let last := (plan.beginning width values).stateAfter
      (plan.moments tree perform calling width values)
    plan.invoke perform calling width arguments = .ok
      { ctx := last.ctx
        ending := Run.endingOf (plan.moments tree perform calling width values)
        events := last.events ++ [.finished plan.qualified last.ctx] } := by
  have hDrive := Run.drive_eq plan perform calling (tree.score plan.failures.isSome)
    (plan.beginning width values)
  rw [← StoryTree.instructions, ← h.instructions_eq] at hDrive
  unfold Plan.invoke
  rw [hCheck]
  let comesTo (ended : Run × Except StoryError Ending) : Except ContractError Invocation := .ok
    { ctx := ended.1.ctx
      ending := ended.2
      events := ended.1.events ++ [.finished plan.qualified ended.1.ctx] }
  exact congrArg comesTo hDrive

/-- An invocation that is not rejected has moments, and comes to what the last of them says. -/
theorem Mounts.invoke_eq_ok {cast : Cast β} {tree : StoryTree β} {plan : Plan β}
    (h : Mounts cast tree plan) {perform : β → Context → Reply} {calling : Calling} {width : Nat}
    {arguments : Bindings} {invocation : Invocation}
    (hInvoke : plan.invoke perform calling width arguments = .ok invocation) :
    ∃ values, plan.root.checkCall arguments = .ok values ∧
      invocation.ctx = ((plan.beginning width values).stateAfter
        (plan.moments tree perform calling width values)).ctx ∧
      invocation.ending = Run.endingOf (plan.moments tree perform calling width values) := by
  cases hCheck : plan.root.checkCall arguments with
  | error cause =>
      unfold Plan.invoke at hInvoke
      rw [hCheck] at hInvoke
      cases hInvoke
  | ok values =>
      rw [h.invoke_of_accepted perform calling width hCheck] at hInvoke
      obtain rfl := Except.ok.inj hInvoke
      exact ⟨values, rfl, rfl, rfl⟩

/-! ## Moments and their stories -/

section

variable {cast : Cast β} {tree : StoryTree β} {plan : Plan β} {perform : β → Context → Reply}
  {calling : Calling}

/-- The number that an instruction carries is that of the contract of its story. -/
theorem Mounts.exists_contract (h : Mounts cast tree plan) {isShut : Bool} {story : Story}
    {i : Instruction β} (hMem : (story, i) ∈ tree.score isShut) {number : Nat}
    (hNumber : i.number? = some number) :
    ∃ c, plan.contracts[number]? = some c ∧ c.IsOf story :=
  Contract.exists_isOf h.contracts_of
    ((StoryTree.belongsTo_of_mem_score hMem).numbered number hNumber)

/-- Every moment of a run has an effect. -/
theorem Mounts.effect (h : Mounts cast tree plan) {isShut : Bool} {m : Moment β}
    (hMem : (m.story, m.instruction) ∈ tree.score isShut)
    (hExecutes : m.Executes plan perform calling) :
    Run.Effect plan perform calling m.instruction m.before (m.after, m.flow) := by
  rw [← hExecutes]
  refine Run.effect_execute fun number hNumber => ?_
  obtain ⟨c, hContract, -⟩ := h.exists_contract hMem hNumber
  exact ⟨c, hContract⟩

end

end Storyline
