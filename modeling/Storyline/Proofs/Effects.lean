import Storyline.Mounted
import Storyline.Proofs.Score

/-!
# What an instruction does

`Run.Effect` lists all that an instruction can do to the names of a run and to its end: nothing,
stop with a failure that the protocol allows, or keep values that its steps answered with and the
contract accepted. `Run.effect_execute` is proved once, for steps, groups, stories and skipped
instructions; what holds of all points of a run follows from it.

Conversely, nothing but the replies of its steps decides what an instruction does
(`Run.execute_congr`).
-/

set_option autoImplicit false

namespace Storyline

variable {β : Type}

namespace Instruction

/-- The context that the steps of an instruction see: the instruction has its line in the history
already. -/
def seen (ctx : Context) : Instruction β → Context
  | step s _ _ => ctx.mapHistory (·.enter s.name)
  | parallel steps _ _ => ctx.mapHistory (·.enter (groupName steps))
  | _ => ctx

@[simp] theorem entries_seen (ctx : Context) (i : Instruction β) :
    (i.seen ctx).entries = ctx.entries := by
  cases i <;> rfl

/-- A step of an instruction answers with an outcome when the instruction is executed in a
context. -/
def Answers (perform : β → Context → Reply) (calling : Calling) (ctx : Context)
    (i : Instruction β) (s : Step β) (outcome : Outcome) : Prop :=
  s ∈ i.steps ∧
    ∃ reply, Run.reply? perform calling (i.seen ctx) s = some reply ∧ reply.result = .ok outcome

end Instruction

/-- A context comes from another by values of steps that a contract accepts, kept one after the
other. The history may change. -/
inductive Contract.Keeps (c : Contract) : List (Step β × Bindings) → Context → Context → Prop
    where
  | none {ctx ctx' : Context} : ctx'.entries = ctx.entries → c.Keeps [] ctx ctx'
  | more {s : Step β} {given kept : Bindings} {rest : List (Step β × Bindings)}
      {ctx ctx' : Context} :
      c.checkOutput s.qualified ctx given = .ok kept →
      c.Keeps rest (ctx.extend s.qualified kept) ctx' → c.Keeps ((s, given) :: rest) ctx ctx'

namespace Run

/-- All that an instruction can do, which is executed in a state `r`. -/
inductive Effect (plan : Plan β) (perform : β → Context → Reply) (calling : Calling)
    (i : Instruction β) (r : Run) : Run × Flow → Prop where
  /-- The names stay as they are, and no step fails. -/
  | still {r' : Run} {flow : Flow} :
      r'.ctx.entries = r.ctx.entries →
      (∀ name reason, flow ≠ .stop (.ok (.failure name reason))) →
      Effect plan perform calling i r (r', flow)
  /-- A step fails, and its protocol allows it. -/
  | failed {r' : Run} {s : Step β} {reason : Option Reason} {protocol : StepProtocol} :
      r'.ctx.entries = r.ctx.entries →
      i.Answers perform calling r.ctx s (.failure reason) → i.protocol? = some protocol →
      protocol.checkReturn s.qualified reason = .ok () →
      Effect plan perform calling i r (r', .stop (.ok (.failure s.name reason)))
  /-- All values that steps answered with are kept. -/
  | kept {r' : Run} {branches : List (Step β × Bindings)} {number : Nat} {c : Contract} :
      i.number? = some number → plan.contracts[number]? = some c →
      (∀ branch ∈ branches, i.Answers perform calling r.ctx branch.1 (.success branch.2)) →
      c.Keeps branches (i.seen r.ctx) r'.ctx → Effect plan perform calling i r (r', .next)
  /-- The values of some steps of a group are kept before those of another are rejected. -/
  | broken {r' : Run} {error : StoryError} {steps : List (Step β)} {number : Nat}
      {protocol : StepProtocol} {branches : List (Step β × Bindings)} {c : Contract} :
      i = .parallel steps number protocol → plan.contracts[number]? = some c →
      (∀ branch ∈ branches, i.Answers perform calling r.ctx branch.1 (.success branch.2)) →
      c.Keeps branches (i.seen r.ctx) r'.ctx →
      Effect plan perform calling i r (r', .stop (.error error))

variable {plan : Plan β} {perform : β → Context → Reply} {calling : Calling}
  {i : Instruction β} {r : Run}

/-- Stopping with an error changes no names. -/
theorem Effect.err {r' : Run} (h : r'.ctx.entries = r.ctx.entries) (error : StoryError) :
    Effect plan perform calling i r (r'.err error) :=
  .still h fun _ _ hStop => by cases hStop

/-- Ending with a result changes no names. -/
theorem Effect.conclude {r' : Run} (h : r'.ctx.entries = r.ctx.entries) (value : Json) :
    Effect plan perform calling i r (r'.conclude value) :=
  .still h fun _ _ hStop => by cases hStop

/-- Leaving a story changes no names. -/
theorem Effect.skip {r' : Run} (h : r'.ctx.entries = r.ctx.entries) :
    Effect plan perform calling i r r'.skip :=
  .still h fun _ _ hStop => by cases hStop

/-- A step that fails ends the run, with an error if its protocol does not allow it. -/
theorem Effect.fail {r' : Run} {s : Step β} {reason : Option Reason} {protocol : StepProtocol}
    (h : r'.ctx.entries = r.ctx.entries)
    (hAnswers : i.Answers perform calling r.ctx s (.failure reason))
    (hProtocol : i.protocol? = some protocol) :
    Effect plan perform calling i r (r'.fail s protocol reason) := by
  unfold Run.fail
  cases hCheck : protocol.checkReturn s.qualified reason with
  | error cause => exact .err h _
  | ok _ => exact .failed h hAnswers hProtocol hCheck

/-! ## Stories, steps and groups -/

/-- The state in which a story has just started. -/
def entering (label : String) (r : Run) : Run :=
  let opened : Run := { r.mapHistory (·.startStory label) with depth := r.depth + 1 }
  opened.emit (.entered label opened.depth)

theorem enter_of_ok {number : Nat} {c : Contract} {label : String}
    (hContract : plan.contracts[number]? = some c)
    (hStart : c.checkStart (r.entering label).ctx = .ok ()) :
    r.enter plan label number = (r.entering label, .next) := by
  unfold enter
  simp only [hContract]
  split
  · rfl
  · next cause hError => cases hStart.symm.trans hError

theorem enter_of_error {number : Nat} {c : Contract} {label : String} {cause : ContractError}
    (hContract : plan.contracts[number]? = some c)
    (hStart : c.checkStart (r.entering label).ctx = .error cause) :
    r.enter plan label number = (r.entering label).err (.contract cause) := by
  unfold enter
  simp only [hContract]
  split
  · next hOk => cases hStart.symm.trans hOk
  · next other hError =>
    cases hStart.symm.trans hError
    rfl

theorem effect_enter {number : Nat} {c : Contract} (label : String)
    (hContract : plan.contracts[number]? = some c) :
    Effect plan perform calling i r (r.enter plan label number) := by
  have hEntries : (r.entering label).ctx.entries = r.ctx.entries := rfl
  cases hStart : c.checkStart (r.entering label).ctx with
  | error cause =>
      rw [enter_of_error hContract hStart]
      exact .err hEntries _
  | ok _ =>
      rw [enter_of_ok hContract hStart]
      exact .still hEntries fun _ _ hStop => by cases hStop

theorem commit_of_ok {number : Nat} {c : Contract} {s : Step β} {values kept : Bindings}
    (hContract : plan.contracts[number]? = some c)
    (hCheck : c.checkOutput s.qualified r.ctx values = .ok kept) :
    r.commit plan s number values =
      ({ r with ctx := r.ctx.extend s.qualified kept }, .next) := by
  simp only [commit, hContract, hCheck]

theorem commit_of_error {number : Nat} {c : Contract} {s : Step β} {values : Bindings}
    {cause : ContractError} (hContract : plan.contracts[number]? = some c)
    (hCheck : c.checkOutput s.qualified r.ctx values = .error cause) :
    r.commit plan s number values = r.err (.contract cause) := by
  simp only [commit, hContract, hCheck]

/-- Keeping the values of a group goes as far as the contract accepts them. -/
theorem commitAll_keeps {number : Nat} {c : Contract}
    (hContract : plan.contracts[number]? = some c) (branches : List (Step β × Bindings)) :
    ∃ kept, (∀ branch ∈ kept, branch ∈ branches) ∧
      c.Keeps kept r.ctx (r.commitAll plan number branches).1.ctx ∧
      ((r.commitAll plan number branches).2 = .next ∨
        ∃ error, (r.commitAll plan number branches).2 = .stop (.error error)) := by
  induction branches generalizing r with
  | nil => exact ⟨[], by simp, .none rfl, .inl rfl⟩
  | cons branch rest ih =>
      obtain ⟨s, values⟩ := branch
      cases hCheck : c.checkOutput s.qualified r.ctx values with
      | error cause =>
          -- what was kept of the steps before stays in the context
          rw [commitAll, commit_of_error hContract hCheck]
          exact ⟨[], by simp, .none rfl, .inr ⟨_, rfl⟩⟩
      | ok kept =>
          rw [commitAll, commit_of_ok hContract hCheck]
          obtain ⟨others, hOthers, hKeeps, hFlow⟩ :=
            ih (r := { r with ctx := r.ctx.extend s.qualified kept })
          refine ⟨(s, values) :: others, ?_, .more hCheck hKeeps, hFlow⟩
          intro branch hBranch
          rcases List.mem_cons.mp hBranch with rfl | hBranch
          · exact List.mem_cons_self
          · exact List.mem_cons_of_mem _ (hOthers branch hBranch)

/-- What the answer of a single step can do. -/
theorem effect_judge {s : Step β} {number : Nat} {protocol : StepProtocol} {c : Contract}
    (hContract : plan.contracts[number]? = some c) {r' : Run}
    (hSeen : r'.ctx = (Instruction.step s number protocol).seen r.ctx) {reply : Reply}
    (hReply : reply? perform calling r'.ctx s = some reply) :
    Effect plan perform calling (.step s number protocol) r
      (r'.judge plan s number protocol reply.result) := by
  have hEntries : r'.ctx.entries = r.ctx.entries := by rw [hSeen, Instruction.entries_seen]
  have hAnswers : ∀ outcome, reply.result = .ok outcome →
      (Instruction.step s number protocol).Answers perform calling r.ctx s outcome :=
    fun outcome hOutcome => ⟨List.mem_singleton_self s, reply, hSeen ▸ hReply, hOutcome⟩
  unfold judge
  cases hResult : reply.result with
  | error cause => exact .err hEntries _
  | ok outcome =>
      let answered := r'.emit (.answered s.qualified outcome)
      have hAnswered : answered.ctx.entries = r.ctx.entries := hEntries
      dsimp only
      split
      · -- an outcome that the mode of the plan does not have
        exact .err hAnswered _
      cases outcome with
      | success values =>
          show Effect plan perform calling _ r (answered.commit plan s number values)
          cases hCheck : c.checkOutput s.qualified answered.ctx values with
          | error cause =>
              rw [commit_of_error hContract hCheck]
              exact .err hAnswered _
          | ok kept =>
              rw [commit_of_ok hContract hCheck]
              have hKeeps : c.Keeps [(s, values)] r'.ctx (answered.ctx.extend s.qualified kept) :=
                .more hCheck (.none rfl)
              rw [hSeen] at hKeeps
              exact .kept rfl hContract (by simpa using hAnswers _ hResult) hKeeps
      | failure reason => exact .fail hAnswered (hAnswers _ hResult) rfl
      | result value => exact .conclude hAnswered value
      | skip => exact .skip hAnswered
      | next value =>
          cases value with
          | none => exact .skip hAnswered
          | some value =>
              -- a value ends the run in the outermost story only
              dsimp only
              split
              · exact .conclude hAnswered value
              · exact .skip hAnswered

/-- The state in which a step has just been invoked. -/
def invoking (s : Step β) (r : Run) : Run :=
  let entered := r.mapHistory (·.enter s.name)
  entered.emit (.invoked s.qualified entered.ctx)

theorem runStep_of_none {s : Step β} {number : Nat} {protocol : StepProtocol}
    (hReply : reply? perform calling (r.invoking s).ctx s = none) :
    r.runStep plan perform calling s number protocol =
      (r.invoking s, .stop (.error (.definition (.coroutineStory plan.qualified)))) := by
  unfold runStep
  dsimp only
  split
  · rfl
  · next reply hSome => cases hReply.symm.trans hSome

theorem runStep_of_some {s : Step β} {number : Nat} {protocol : StepProtocol} {reply : Reply}
    (hReply : reply? perform calling (r.invoking s).ctx s = some reply) :
    r.runStep plan perform calling s number protocol =
      { r.invoking s with events := (r.invoking s).events ++ reply.events }.judge plan s number
        protocol reply.result := by
  unfold runStep
  dsimp only
  split
  · next hNone => cases hReply.symm.trans hNone
  · next other hSome =>
    cases hReply.symm.trans hSome
    rfl

theorem effect_runStep {s : Step β} {number : Nat} {protocol : StepProtocol} {c : Contract}
    (hContract : plan.contracts[number]? = some c) :
    Effect plan perform calling (.step s number protocol) r
      (r.runStep plan perform calling s number protocol) := by
  cases hReply : reply? perform calling (r.invoking s).ctx s with
  | none =>
      rw [runStep_of_none hReply]
      exact .still rfl fun _ _ hStop => by cases hStop
  | some reply =>
      rw [runStep_of_some hReply]
      exact effect_judge hContract rfl hReply

/-- A step of a group that is run replies like any other. -/
theorem branchReply_of_some {ctx : Context} {s : Step β} {reply : Reply}
    (h : reply? perform calling ctx s = some reply) :
    branchReply perform calling ctx s = reply := by
  rw [branchReply, h, Option.getD_some]

/-- A step of a group that answered has been run. -/
theorem exists_reply_of_branchReply {ctx : Context} {s : Step β} {outcome : Outcome}
    (h : (branchReply perform calling ctx s).result = .ok outcome) :
    ∃ reply, reply? perform calling ctx s = some reply ∧ reply.result = .ok outcome := by
  unfold branchReply at h
  cases hReply : reply? perform calling ctx s with
  | none =>
      rw [hReply] at h
      cases h
  | some reply =>
      rw [hReply] at h
      exact ⟨reply, rfl, h⟩

/-- A group has an outcome of each of its steps, unless there is an error. -/
theorem results_eq_of_outcomes {mode : Mode} {results : List (Step β × Except StepError Outcome)}
    {answers : List (Step β × Outcome)} (h : outcomes mode results = .ok answers) :
    results = answers.map fun answer => (answer.1, .ok answer.2) := by
  induction results generalizing answers with
  | nil =>
      cases h
      rfl
  | cons first rest ih =>
      obtain ⟨s, result⟩ := first
      cases result with
      | error cause => cases h
      | ok outcome =>
          rw [outcomes] at h
          split at h
          · cases h
          cases hRest : outcomes mode rest with
          | error cause =>
              rw [hRest] at h
              cases h
          | ok others =>
              rw [hRest] at h
              obtain rfl := Except.ok.inj h
              rw [List.map_cons, ← ih hRest]

end Run

namespace GroupResult

/-- The values that are kept of a group are those its steps succeeded with, all of them. -/
theorem answers_eq_of_successes {answers : List (Step β × Outcome)}
    {branches : List (Step β × Bindings)} (h : successes? answers = some branches) :
    answers = branches.map fun branch => (branch.1, .success branch.2) := by
  induction answers generalizing branches with
  | nil =>
      cases h
      rfl
  | cons answer rest ih =>
      obtain ⟨s, outcome⟩ := answer
      rw [successes?, List.mapM_cons] at h
      obtain ⟨first, hFirst, h⟩ := Option.bind_eq_some_iff.mp h
      obtain ⟨others, hOthers, h⟩ := Option.bind_eq_some_iff.mp h
      cases h
      cases outcome with
      | success values =>
          cases hFirst
          rw [List.map_cons, ← ih hOthers]
      | failure reason => cases hFirst
      | result value => cases hFirst
      | skip => cases hFirst
      | next value => cases hFirst

theorem answers_eq_of_success {answers : List (Step β × Outcome)}
    {branches : List (Step β × Bindings)} (h : ofAnswers answers = .success branches) :
    answers = branches.map fun branch => (branch.1, .success branch.2) := by
  unfold ofAnswers at h
  split at h
  · next hAll =>
    cases h
    exact answers_eq_of_successes hAll
  · split at h <;> cases h

theorem ofAnswers_eq_failure {answers : List (Step β × Outcome)} {s : Step β}
    {reason : Option Reason} (h : ofAnswers answers = .failure s reason) :
    (s, Outcome.failure reason) ∈ answers := by
  unfold ofAnswers at h
  split at h
  · cases h
  · split at h
    · next hFirst =>
        cases h
        obtain ⟨⟨other, outcome⟩, hMem, hAnswer⟩ := List.exists_of_findSome?_eq_some hFirst
        cases outcome with
        | failure reason =>
            cases hAnswer
            exact hMem
        | success values => cases hAnswer
        | result value => cases hAnswer
        | skip => cases hAnswer
        | next value => cases hAnswer
    · cases h

end GroupResult

namespace Run

variable {plan : Plan β} {perform : β → Context → Reply} {calling : Calling}
  {i : Instruction β} {r : Run}

/-- What the answers of a group can do. -/
theorem effect_judgeGroup {steps : List (Step β)} {number : Nat} {protocol : StepProtocol}
    {c : Contract} (hContract : plan.contracts[number]? = some c) {r' : Run}
    (hSeen : r'.ctx = (Instruction.parallel steps number protocol).seen r.ctx)
    {results : List (Step β × Except StepError Outcome)}
    (hResults : ∀ s outcome, (s, .ok outcome) ∈ results →
      (Instruction.parallel steps number protocol).Answers perform calling r.ctx s outcome) :
    Effect plan perform calling (.parallel steps number protocol) r
      (r'.judgeGroup plan number protocol results) := by
  have hEntries : r'.ctx.entries = r.ctx.entries := by rw [hSeen, Instruction.entries_seen]
  unfold judgeGroup
  cases hOutcomes : outcomes plan.mode results with
  | error cause => exact .err hEntries _
  | ok answers =>
      have hAnswers : ∀ s outcome, (s, outcome) ∈ answers →
          (Instruction.parallel steps number protocol).Answers perform calling r.ctx s outcome :=
        fun s outcome hMem => by
          refine hResults s outcome ?_
          rw [results_eq_of_outcomes hOutcomes]
          exact List.mem_map.mpr ⟨(s, outcome), hMem, rfl⟩
      dsimp only
      cases hMerged : GroupResult.ofAnswers answers with
      | success branches =>
          -- the values of some steps are kept, of all if the run goes on
          obtain ⟨kept, hKept, hKeeps, hFlow⟩ := commitAll_keeps (r := r') hContract branches
          have hSuccess : ∀ branch ∈ kept,
              (Instruction.parallel steps number protocol).Answers perform calling r.ctx
                branch.1 (.success branch.2) := by
            intro branch hBranch
            refine hAnswers _ _ ?_
            rw [GroupResult.answers_eq_of_success hMerged]
            exact List.mem_map_of_mem (hKept branch hBranch)
          rw [hSeen] at hKeeps
          dsimp only
          generalize r'.commitAll plan number branches = after at hKeeps hFlow ⊢
          obtain ⟨after, flow⟩ := after
          rcases hFlow with rfl | ⟨error, rfl⟩
          · exact .kept rfl hContract hSuccess hKeeps
          · exact .broken rfl hContract hSuccess hKeeps
      | failure s reason =>
          exact .fail hEntries (hAnswers _ _ (GroupResult.ofAnswers_eq_failure hMerged)) rfl
      | result value => exact .conclude hEntries value

theorem effect_runGroup {steps : List (Step β)} {number : Nat} {protocol : StepProtocol}
    {c : Contract} (hContract : plan.contracts[number]? = some c) :
    Effect plan perform calling (.parallel steps number protocol) r
      (r.runGroup plan perform calling steps number protocol) := by
  unfold runGroup
  refine effect_judgeGroup hContract rfl ?_
  intro s outcome hMem
  simp only [List.map_map, List.mem_map] at hMem
  obtain ⟨other, hStep, hReply⟩ := hMem
  obtain ⟨rfl, hResult⟩ := Prod.mk.inj hReply
  exact ⟨hStep, exists_reply_of_branchReply hResult⟩

theorem execute_of_skipped (h : r.skipped ≠ 0) :
    r.execute plan perform calling i = (r.passOver i, .next) := if_pos h

theorem execute_enter {label : String} {number : Nat} (h : r.skipped = 0) :
    r.execute plan perform calling (.enter label number) = r.enter plan label number :=
  if_neg (not_not.mpr h)

theorem execute_leave (h : r.skipped = 0) :
    r.execute plan perform calling .leave = r.leave := if_neg (not_not.mpr h)

theorem execute_step {s : Step β} {number : Nat} {protocol : StepProtocol} (h : r.skipped = 0) :
    r.execute plan perform calling (.step s number protocol) =
      r.runStep plan perform calling s number protocol := if_neg (not_not.mpr h)

theorem execute_parallel {steps : List (Step β)} {number : Nat} {protocol : StepProtocol}
    (h : r.skipped = 0) :
    r.execute plan perform calling (.parallel steps number protocol) =
      r.runGroup plan perform calling steps number protocol := if_neg (not_not.mpr h)

/-- **What an instruction does**, if the story it belongs to has a contract. -/
theorem effect_execute
    (hContract : ∀ number, i.number? = some number → ∃ c, plan.contracts[number]? = some c) :
    Effect plan perform calling i r (r.execute plan perform calling i) := by
  unfold execute
  split
  · -- what is skipped is noted only
    exact .still (by cases i <;> rfl) fun _ _ hStop => by cases hStop
  cases i with
  | enter label number =>
      obtain ⟨c, hc⟩ := hContract number rfl
      exact effect_enter label hc
  | leave => exact .still rfl fun _ _ hStop => by cases hStop
  | step s number protocol =>
      obtain ⟨c, hc⟩ := hContract number rfl
      exact effect_runStep hc
  | parallel steps number protocol =>
      obtain ⟨c, hc⟩ := hContract number rfl
      exact effect_runGroup hc

end Run

/-! ## What an instruction asks of its steps -/

namespace Run

variable {plan : Plan β} {perform perform' : β → Context → Reply} {calling calling' : Calling}
  {i : Instruction β} {r : Run}

theorem runStep_congr {s : Step β} {number : Nat} {protocol : StepProtocol}
    (h : reply? perform' calling' (r.invoking s).ctx s =
      reply? perform calling (r.invoking s).ctx s) :
    r.runStep plan perform' calling' s number protocol =
      r.runStep plan perform calling s number protocol := by
  cases hReply : reply? perform calling (r.invoking s).ctx s with
  | none => rw [runStep_of_none hReply, runStep_of_none (h.trans hReply)]
  | some reply => rw [runStep_of_some hReply, runStep_of_some (h.trans hReply)]

theorem runGroup_congr {steps : List (Step β)} {number : Nat} {protocol : StepProtocol}
    (h : ∀ s ∈ steps,
      reply? perform' calling' ((Instruction.parallel steps number protocol).seen r.ctx) s =
        reply? perform calling ((Instruction.parallel steps number protocol).seen r.ctx) s) :
    r.runGroup plan perform' calling' steps number protocol =
      r.runGroup plan perform calling steps number protocol := by
  let entered := r.mapHistory (·.enter (Instruction.groupName steps))
  have hReplies : (steps.map fun s => (s, branchReply perform' calling' entered.ctx s)) =
      steps.map fun s => (s, branchReply perform calling entered.ctx s) := by
    refine List.map_congr_left fun s hs => ?_
    have hReply : reply? perform' calling' entered.ctx s = reply? perform calling entered.ctx s :=
      h s hs
    rw [branchReply, hReply]
    rfl
  simp only [runGroup, entered] at hReplies ⊢
  rw [hReplies]

/-- An instruction does the same with the same replies of its steps. -/
theorem execute_congr
    (h : r.skipped = 0 → ∀ s ∈ i.steps,
      reply? perform' calling' (i.seen r.ctx) s = reply? perform calling (i.seen r.ctx) s) :
    r.execute plan perform' calling' i = r.execute plan perform calling i := by
  by_cases hSkipped : r.skipped = 0
  · cases i with
    | enter label number => rw [execute_enter hSkipped, execute_enter hSkipped]
    | leave => rw [execute_leave hSkipped, execute_leave hSkipped]
    | step s number protocol =>
        rw [execute_step hSkipped, execute_step hSkipped]
        exact runStep_congr (h hSkipped s (List.mem_singleton_self s))
    | parallel steps number protocol =>
        rw [execute_parallel hSkipped, execute_parallel hSkipped]
        exact runGroup_congr (h hSkipped)
  · rw [execute_of_skipped hSkipped, execute_of_skipped hSkipped]

end Run

end Storyline
