import Storyline.Proofs.Growth

/-!
# Groups

The answers of a group are judged together. Before all else counts the first of them that is an
error, or an outcome the mode does not have; then the first failure; and only if all steps succeeded
anything is kept (`Run.SettlesGroup`, `Mounts.group_settled`).

Values are kept step by step (`Contract.keepAll`), and each check sees what was kept of the steps
before (`Contract.HasKept`). So a group whose values are rejected leaves behind what was kept of the
steps that come before the rejected one, and nothing else (`Mounts.group_keeps`).
-/

set_option autoImplicit false

namespace Storyline

variable {β : Type}

/-! ## Answers -/

namespace GroupResult

/-- The answers of steps that all succeed with some values. -/
def successes (branches : List (Step β × Bindings)) : List (Step β × Outcome) :=
  branches.map fun (s, values) => (s, .success values)

/-- The results of steps that all answer. -/
def results (answers : List (Step β × Outcome)) : List (Step β × Except StepError Outcome) :=
  answers.map fun (s, outcome) => (s, .ok outcome)

end GroupResult

/-- The error that the answer of a step is by itself: the one that was raised, or that of an
outcome which the mode does not have. -/
def Step.breach? (mode : Mode) (s : Step β) : Except StepError Outcome → Option StoryError
  | .error cause => some (.step cause)
  | .ok (.next value) =>
    match mode with
    | .function => some (.definition (.unexpectedOutcome s.qualified (.next value)))
    | .coroutine => none
  | .ok _ => none

/-- What is found out of place is what groups are searched for. -/
theorem Step.breach?_ok (mode : Mode) (s : Step β) (outcome : Outcome) :
    s.breach? mode (.ok outcome) =
      if Run.isAllowed mode outcome then none
      else some (.definition (.unexpectedOutcome s.qualified outcome)) := by
  cases outcome with
  | next value => cases mode <;> rfl
  | _ => rfl

theorem Step.isAllowed_of_breach? {mode : Mode} {s : Step β} {outcome : Outcome}
    (h : s.breach? mode (.ok outcome) = none) : Run.isAllowed mode outcome = true := by
  rw [breach?_ok] at h
  by_contra hNot
  rw [if_neg hNot] at h
  cases h

namespace Run

/-- Nothing is out of place: these are the outcomes of the group. -/
theorem outcomes_of_legal {mode : Mode} {answers : List (Step β × Outcome)}
    (h : ∀ answer ∈ answers, answer.1.breach? mode (.ok answer.2) = none) :
    outcomes mode (GroupResult.results answers) = .ok answers := by
  induction answers with
  | nil => rfl
  | cons answer rest ih =>
      obtain ⟨s, outcome⟩ := answer
      have hAllowed := Step.isAllowed_of_breach? (h _ List.mem_cons_self)
      have hRest := ih fun other hOther => h other (List.mem_cons_of_mem _ hOther)
      rw [GroupResult.results] at hRest ⊢
      simp [outcomes, hAllowed, hRest]

/-- The first answer out of place is the error of the group. -/
theorem outcomes_of_breach {mode : Mode} {before after : List (Step β × Except StepError Outcome)}
    {s : Step β} {result : Except StepError Outcome} {cause : StoryError}
    (hBefore : ∀ branch ∈ before, branch.1.breach? mode branch.2 = none)
    (hBreach : s.breach? mode result = some cause) :
    outcomes mode (before ++ (s, result) :: after) = .error cause := by
  induction before with
  | nil =>
      cases result with
      | error raised =>
          obtain rfl := Option.some.inj hBreach
          rfl
      | ok outcome =>
          rw [Step.breach?_ok] at hBreach
          split at hBreach
          · cases hBreach
          · next hNot =>
            obtain rfl := Option.some.inj hBreach
            simp [outcomes, hNot]
  | cons branch rest ih =>
      obtain ⟨other, answer⟩ := branch
      have hOther := hBefore _ List.mem_cons_self
      have hRest := ih fun b hb => hBefore b (List.mem_cons_of_mem _ hb)
      cases answer with
      | error raised => cases hOther
      | ok outcome =>
          have hAllowed := Step.isAllowed_of_breach? hOther
          simp [outcomes, hAllowed, hRest]

end Run

/-! ## What the outcomes come to -/

namespace GroupResult

theorem ofAnswers_of_success (branches : List (Step β × Bindings)) :
    ofAnswers (successes branches) = .success branches := by
  have hAll : successes? (successes branches) = some branches := by
    induction branches with
    | nil => rfl
    | cons branch rest ih =>
        rw [successes?] at ih ⊢
        rw [successes, List.map_cons, List.mapM_cons]
        rw [successes] at ih
        rw [ih]
        rfl
  rw [ofAnswers, hAll]

/-- Not all steps succeeded if one did not. -/
theorem successes?_eq_none {answers : List (Step β × Outcome)} {answer : Step β × Outcome}
    (hMem : answer ∈ answers) (hOther : ∀ values, answer.2 ≠ .success values) :
    successes? answers = none := by
  by_contra hSome
  obtain ⟨branches, hAll⟩ := Option.ne_none_iff_exists'.mp hSome
  rw [answers_eq_of_successes hAll] at hMem
  obtain ⟨branch, -, rfl⟩ := List.mem_map.mp hMem
  exact hOther _ rfl

theorem firstFailure?_eq_none {answers : List (Step β × Outcome)}
    (h : ∀ answer ∈ answers, ∀ reason, answer.2 ≠ .failure reason) :
    firstFailure? answers = none := by
  refine List.findSome?_eq_none_iff.mpr fun answer hAnswer => ?_
  obtain ⟨s, outcome⟩ := answer
  cases outcome with
  | failure reason => exact absurd rfl (h _ hAnswer reason)
  | _ => rfl

/-- The first failure is that of the group. -/
theorem ofAnswers_of_failure {before after : List (Step β × Outcome)} {s : Step β}
    {reason : Option Reason}
    (hBefore : ∀ answer ∈ before, ∀ other, answer.2 ≠ .failure other) :
    ofAnswers (before ++ (s, .failure reason) :: after) = .failure s reason := by
  have hFirst : firstFailure? (before ++ (s, .failure reason) :: after) = some (s, reason) := by
    have hNone := firstFailure?_eq_none hBefore
    rw [firstFailure?] at hNone ⊢
    rw [List.findSome?_append, hNone]
    rfl
  have hNotAll : successes? (before ++ (s, .failure reason) :: after) = none :=
    successes?_eq_none (List.mem_append_right before List.mem_cons_self) fun values h => by cases h
  rw [ofAnswers, hNotAll, hFirst]

/-- Without failure, and without success of all, the outcomes are the result. -/
theorem ofAnswers_of_mixed {answers : List (Step β × Outcome)} {answer : Step β × Outcome}
    (hFailure : ∀ other ∈ answers, ∀ reason, other.2 ≠ .failure reason)
    (hMem : answer ∈ answers) (hOther : ∀ values, answer.2 ≠ .success values) :
    ofAnswers answers = .result (.array (answers.map fun answer => answer.2.toJson)) := by
  rw [ofAnswers, successes?_eq_none hMem hOther, firstFailure?_eq_none hFailure]

end GroupResult

/-! ## Keeping the values of a group -/

theorem Context.setBy_eq_nil_iff {step : String} {values : Bindings} :
    setBy step values = [] ↔ values.names = [] := by
  rw [← map_name_setBy step values, List.map_eq_nil_iff]

namespace Contract

/-- Check the values of steps one step after the other, and keep them: each check sees what was
kept of the steps before. -/
def keepAll (c : Contract) : List (Step β × Bindings) → Context → Except ContractError Context
  | [], ctx => .ok ctx
  | (s, values) :: rest, ctx =>
    match c.checkOutput s.qualified ctx values with
    | .ok kept => c.keepAll rest (ctx.extend s.qualified kept)
    | .error cause => .error cause

/-- Values of steps are kept one after the other as far as the contract accepts them: those of the
steps `before`, which leads to the context `reached`, and not those of the next step. -/
structure KeepsUpTo (c : Contract) (branches : List (Step β × Bindings)) (ctx : Context)
    (before : List (Step β × Bindings)) (reached : Context) (cause : ContractError) : Prop where
  kept : c.keepAll before ctx = .ok reached
  rejected : ∃ s values after, branches = before ++ (s, values) :: after ∧
    c.checkOutput s.qualified reached values = .error cause

variable {c : Contract} {ctx reached : Context}

theorem keepAll_cases (c : Contract) (branches : List (Step β × Bindings)) (ctx : Context) :
    (∃ reached, c.keepAll branches ctx = .ok reached) ∨
      ∃ before reached cause, c.KeepsUpTo branches ctx before reached cause ∧
        c.keepAll branches ctx = .error cause := by
  induction branches generalizing ctx with
  | nil => exact .inl ⟨ctx, rfl⟩
  | cons branch rest ih =>
      obtain ⟨s, values⟩ := branch
      simp only [keepAll]
      cases hCheck : c.checkOutput s.qualified ctx values with
      | error cause =>
          exact .inr ⟨[], ctx, cause, ⟨rfl, s, values, rest, rfl, hCheck⟩, rfl⟩
      | ok kept =>
          rcases ih (ctx.extend s.qualified kept) with
            hAll | ⟨before, reached, cause, ⟨hKept, t, given, after, hSplit, hRejected⟩, hError⟩
          · exact .inl hAll
          · refine .inr ⟨(s, values) :: before, reached, cause, ⟨?_, t, given, after, ?_, hRejected⟩,
              hError⟩
            · rw [keepAll, hCheck]
              exact hKept
            · rw [hSplit, List.cons_append]

/-- The contract accepts values of steps in some forms, one step after the other: each check is made
where all is set that was accepted before. -/
inductive AcceptsInTurn (c : Contract) :
    Context → List (Step β × Bindings) → List (Step β × Bindings) → Prop where
  | none (ctx : Context) : AcceptsInTurn c ctx [] []
  | more {ctx : Context} {s : Step β} {values form : Bindings}
      {rest forms : List (Step β × Bindings)} :
      c.checkOutput s.qualified ctx values = .ok form →
      AcceptsInTurn c { ctx with entries := ctx.entries ++ Context.setBy s.qualified form } rest
        forms →
      AcceptsInTurn c ctx ((s, values) :: rest) ((s, form) :: forms)

/-- The forms have the names that the steps answered with. -/
theorem AcceptsInTurn.names {branches forms : List (Step β × Bindings)}
    (h : c.AcceptsInTurn ctx branches forms) :
    forms.map (fun branch => (branch.1, branch.2.names)) =
      branches.map (fun branch => (branch.1, branch.2.names)) := by
  induction h with
  | none _ => rfl
  | more hCheck _ ih =>
      obtain ⟨hNames, -⟩ := checkOutput_eq_ok hCheck
      rw [List.map_cons, List.map_cons, ih, hNames]

/-- Values of steps have been kept in some forms: the contract accepts them in turn, the forms have
the names that the steps set, and they come behind what the context had, in the order of the steps.
All else in the context is as it was. -/
structure HasKept (c : Contract) (ctx : Context) (branches forms : List (Step β × Bindings))
    (reached : Context) : Prop where
  accepts : c.AcceptsInTurn ctx branches forms
  names : forms.map (fun branch => (branch.1, branch.2.names)) =
    branches.map (fun branch => (branch.1, branch.2.names))
  reached_eq : reached =
    { ctx with
      entries :=
        ctx.entries ++ forms.flatMap fun branch => Context.setBy branch.1.qualified branch.2 }

/-- What it comes to that values of steps are kept one after the other. -/
theorem exists_hasKept {branches : List (Step β × Bindings)}
    (h : c.keepAll branches ctx = .ok reached) : ∃ forms, c.HasKept ctx branches forms reached := by
  induction branches generalizing ctx with
  | nil =>
      obtain rfl := Except.ok.inj h
      refine ⟨[], .none ctx, rfl, ?_⟩
      rw [List.flatMap_nil, List.append_nil]
  | cons branch rest ih =>
      obtain ⟨s, values⟩ := branch
      rw [keepAll] at h
      split at h
      · next form hCheck =>
        obtain ⟨forms, hAccepts, -, rfl⟩ := ih h
        have hBoth : c.AcceptsInTurn ctx ((s, values) :: rest) ((s, form) :: forms) :=
          .more hCheck hAccepts
        refine ⟨(s, form) :: forms, hBoth, hBoth.names, ?_⟩
        rw [Context.entries_extend, List.flatMap_cons, ← List.append_assoc]
        rfl
      · cases h

end Contract

namespace Run

variable {plan : Plan β} {c : Contract} {number : Nat} {r : Run}

theorem commitAll_of_ok (hContract : plan.contracts[number]? = some c) {reached : Context}
    {branches : List (Step β × Bindings)} (h : c.keepAll branches r.ctx = .ok reached) :
    r.commitAll plan number branches = ({ r with ctx := reached }, .next) := by
  induction branches generalizing r with
  | nil =>
      obtain rfl := Except.ok.inj h
      rfl
  | cons branch rest ih =>
      obtain ⟨s, values⟩ := branch
      rw [Contract.keepAll] at h
      split at h
      · next kept hCheck =>
        rw [commitAll, commit_of_ok hContract hCheck]
        exact ih h
      · cases h

/-- What was kept before values are rejected stays in the context. -/
theorem commitAll_of_error (hContract : plan.contracts[number]? = some c) {reached : Context}
    {branches before : List (Step β × Bindings)} {cause : ContractError}
    (h : c.KeepsUpTo branches r.ctx before reached cause) :
    r.commitAll plan number branches = Run.err (.contract cause) { r with ctx := reached } := by
  obtain ⟨hKept, s, values, after, rfl, hCheck⟩ := h
  induction before generalizing r with
  | nil =>
      obtain rfl := Except.ok.inj hKept
      rw [List.nil_append, commitAll, commit_of_error hContract hCheck]
      rfl
  | cons branch rest ih =>
      obtain ⟨other, given⟩ := branch
      rw [Contract.keepAll] at hKept
      split at hKept
      · next form hForm =>
        rw [List.cons_append, commitAll, commit_of_ok hContract hForm]
        exact ih hKept
      · cases hKept

/-! ## How a group is settled -/

/-- How answers of a group settle it, which is in a story of some contract, and is given in a
state `r`. In each case but the last nothing is kept. -/
structure SettlesGroup (mode : Mode) (c : Contract) (protocol : StepProtocol)
    (results : List (Step β × Except StepError Outcome)) (r : Run) (settled : Run × Flow) :
    Prop where
  /-- The first error, or outcome that the mode does not have, ends the run, whatever the others
  answered. -/
  breach : ∀ before s result after cause, results = before ++ (s, result) :: after →
    (∀ branch ∈ before, branch.1.breach? mode branch.2 = none) →
    s.breach? mode result = some cause →
    settled.2 = .stop (.error cause) ∧ settled.1.ctx.entries = r.ctx.entries
  /-- Otherwise the first failure ends the run, with the error of the protocol if it does not allow
  the reason. -/
  failure : ∀ before s reason after,
    results = GroupResult.results (before ++ (s, .failure reason) :: after) →
    (∀ branch ∈ results, branch.1.breach? mode branch.2 = none) →
    (∀ answer ∈ before, ∀ other, answer.2 ≠ .failure other) →
    settled.2 = .stop (match protocol.checkReturn s.qualified reason with
      | .ok () => .ok (.failure s.name reason)
      | .error cause => .error (.protocol cause)) ∧
    settled.1.ctx.entries = r.ctx.entries
  /-- If neither is the case and not all succeeded, the outcomes of all are the result. -/
  mixed : ∀ answers, results = GroupResult.results answers →
    (∀ branch ∈ results, branch.1.breach? mode branch.2 = none) →
    (∀ answer ∈ answers, ∀ reason, answer.2 ≠ .failure reason) →
    (∃ answer ∈ answers, ∀ values, answer.2 ≠ .success values) →
    settled.2 = .stop (.ok (.result (.array (answers.map fun answer => answer.2.toJson)))) ∧
    settled.1.ctx.entries = r.ctx.entries
  /-- If all succeeded their values are checked and kept step by step. Either all are, and the run
  goes on; or those of one step are the first to be rejected, which ends the run with what was kept
  of the steps before. -/
  success : ∀ branches, results = GroupResult.results (GroupResult.successes branches) →
    (∃ reached forms, c.keepAll branches r.ctx = .ok reached ∧
      c.HasKept r.ctx branches forms reached ∧ settled = ({ r with ctx := reached }, .next)) ∨
    ∃ before reached forms cause, c.keepAll branches r.ctx = .error cause ∧
      c.KeepsUpTo branches r.ctx before reached cause ∧ c.HasKept r.ctx before forms reached ∧
      settled.2 = .stop (.error (.contract cause)) ∧ settled.1.ctx.entries = reached.entries

/-- Outcomes that the mode has are what is merged. -/
theorem judgeGroup_of_legal {answers : List (Step β × Outcome)} (protocol : StepProtocol)
    (hLegal : ∀ branch ∈ GroupResult.results answers,
      branch.1.breach? plan.mode branch.2 = none) (r : Run) :
    r.judgeGroup plan number protocol (GroupResult.results answers) =
      match GroupResult.ofAnswers answers with
      | .success branches => r.commitAll plan number branches
      | .failure s reason => r.fail s protocol reason
      | .result value => r.conclude value := by
  have hOutcomes : outcomes plan.mode (GroupResult.results answers) = .ok answers :=
    outcomes_of_legal fun answer hAnswer => hLegal _ (List.mem_map_of_mem hAnswer)
  cases hMerged : GroupResult.ofAnswers answers <;> simp only [judgeGroup, hOutcomes, hMerged]

theorem judgeGroup_of_success (protocol : StepProtocol) (branches : List (Step β × Bindings))
    (r : Run) :
    r.judgeGroup plan number protocol (GroupResult.results (GroupResult.successes branches)) =
      r.commitAll plan number branches := by
  have hLegal : ∀ branch ∈ GroupResult.results (GroupResult.successes branches),
      branch.1.breach? plan.mode branch.2 = none := by
    intro branch hBranch
    obtain ⟨answer, hAnswer, rfl⟩ := List.mem_map.mp hBranch
    obtain ⟨given, -, rfl⟩ := List.mem_map.mp hAnswer
    rfl
  rw [judgeGroup_of_legal protocol hLegal, GroupResult.ofAnswers_of_success]

/-- A failure ends the run, with the error of the protocol if it does not allow the reason. -/
theorem fail_eq (s : Step β) (protocol : StepProtocol) (reason : Option Reason) (r : Run) :
    (r.fail s protocol reason).2 = .stop (match protocol.checkReturn s.qualified reason with
      | .ok () => .ok (.failure s.name reason)
      | .error cause => .error (.protocol cause)) ∧
    (r.fail s protocol reason).1.ctx.entries = r.ctx.entries := by
  unfold Run.fail
  cases protocol.checkReturn s.qualified reason <;> exact ⟨rfl, rfl⟩

/-- **How groups are settled.** -/
theorem settlesGroup_judgeGroup (hContract : plan.contracts[number]? = some c)
    (protocol : StepProtocol) (results : List (Step β × Except StepError Outcome)) (r : Run) :
    SettlesGroup plan.mode c protocol results r (r.judgeGroup plan number protocol results) where
  breach := by
    rintro before s result after cause rfl hBefore hBreach
    rw [judgeGroup, outcomes_of_breach hBefore hBreach]
    exact ⟨rfl, rfl⟩
  failure := by
    rintro before s reason after rfl hLegal hBefore
    rw [judgeGroup_of_legal protocol hLegal, GroupResult.ofAnswers_of_failure hBefore]
    exact fail_eq s protocol reason r
  mixed := by
    rintro answers rfl hLegal hFailure ⟨answer, hMem, hOther⟩
    rw [judgeGroup_of_legal protocol hLegal, GroupResult.ofAnswers_of_mixed hFailure hMem hOther]
    exact ⟨rfl, rfl⟩
  success := by
    rintro branches rfl
    rw [judgeGroup_of_success]
    rcases c.keepAll_cases branches r.ctx with
      ⟨reached, hKept⟩ | ⟨before, reached, cause, hBroken, hError⟩
    · obtain ⟨forms, hForms⟩ := Contract.exists_hasKept hKept
      exact .inl ⟨reached, forms, hKept, hForms, commitAll_of_ok hContract hKept⟩
    · obtain ⟨forms, hForms⟩ := Contract.exists_hasKept hBroken.kept
      have hSettled := commitAll_of_error hContract hBroken
      exact .inr ⟨before, reached, forms, cause, hError, hBroken, hForms,
        congrArg Prod.snd hSettled, congrArg (·.1.ctx.entries) hSettled⟩

/-- Go on with what is left of a run, if it does go on. -/
def proceed (plan : Plan β) (perform : β → Context → Reply) (calling : Calling)
    (rest : List (Instruction β)) : Run × Flow → Run × Except StoryError Ending
  | (after, .next) => drive plan perform calling rest after
  | (after, .stop ending) => (after, ending)

theorem proceed_of_stop {plan : Plan β} {perform : β → Context → Reply} {calling : Calling}
    {rest : List (Instruction β)} {settled : Run × Flow} {ending : Except StoryError Ending}
    (h : settled.2 = .stop ending) :
    proceed plan perform calling rest settled = (settled.1, ending) := by
  obtain ⟨after, flow⟩ := settled
  obtain rfl : flow = .stop ending := h
  rfl

/-- A run that comes to a group proceeds as the answers of its steps settle it. -/
theorem drive_parallel (plan : Plan β) (perform : β → Context → Reply) (calling : Calling)
    (steps : List (Step β)) (number : Nat) (protocol : StepProtocol)
    (rest : List (Instruction β)) (hRuns : r.skipped = 0) :
    let group : Instruction β := .parallel steps number protocol
    ∃ events, drive plan perform calling (group :: rest) r =
      proceed plan perform calling rest (judgeGroup plan number protocol
        (steps.map fun s => (s, (branchReply perform calling (group.seen r.ctx) s).result))
        { r with ctx := group.seen r.ctx, events := events }) := by
  intro group
  let invoked := steps.map fun s => Event.invoked s.qualified (group.seen r.ctx)
  let called :=
    (steps.map fun s => (branchReply perform calling (group.seen r.ctx) s).events).flatten
  refine ⟨r.events ++ invoked ++ called, ?_⟩
  rw [drive, execute_parallel hRuns, runGroup]
  simp only [List.map_map]
  rfl

end Run

/-! ## Mounted groups -/

section

variable {cast : Cast β} {tree : StoryTree β} {plan : Plan β} {steps : List (Step β)}
  {number : Nat} {protocol : StepProtocol}

theorem Mounts.exists_contract_of_mem (h : Mounts cast tree plan) {i : Instruction β}
    (hMem : i ∈ plan.instructions) (hNumber : i.number? = some number) :
    ∃ c, plan.contracts[number]? = some c := by
  rw [h.instructions_eq, StoryTree.instructions] at hMem
  obtain ⟨⟨story, i⟩, hScore, rfl⟩ := List.mem_map.mp hMem
  obtain ⟨c, hContract, -⟩ := h.exists_contract hScore hNumber
  exact ⟨c, hContract⟩

/-- **What a group comes to**, whatever its steps answer with. -/
theorem Mounts.group_settled (h : Mounts cast tree plan)
    (hGroup : .parallel steps number protocol ∈ plan.instructions) :
    ∃ c, plan.contracts[number]? = some c ∧
      (∀ results r, Run.SettlesGroup plan.mode c protocol results r
        (r.judgeGroup plan number protocol results)) ∧
      ∀ (perform : β → Context → Reply) (calling : Calling) (rest : List (Instruction β)) (r : Run),
        r.skipped = 0 →
          let group : Instruction β := .parallel steps number protocol
          ∃ events, Run.drive plan perform calling (group :: rest) r =
            Run.proceed plan perform calling rest (Run.judgeGroup plan number protocol
              (steps.map fun s => (s, (Run.branchReply perform calling (group.seen r.ctx) s).result))
              { r with ctx := group.seen r.ctx, events := events }) := by
  obtain ⟨c, hContract⟩ := h.exists_contract_of_mem hGroup rfl
  refine ⟨c, hContract, fun results r => ?_, fun perform calling rest r hRuns => ?_⟩
  · exact Run.settlesGroup_judgeGroup hContract protocol results r
  · exact Run.drive_parallel plan perform calling steps number protocol rest hRuns

/-- **What a group leaves behind whose steps all succeeded.** The values of all are kept and the run
goes on; or those of one step are the first to be rejected, the run ends with this error, and the
context has what it had before the group and what was kept of the steps before this one. So the
context is as it was if and only if these steps set no names. -/
theorem Mounts.group_keeps (h : Mounts cast tree plan)
    (hGroup : .parallel steps number protocol ∈ plan.instructions) :
    ∃ c, plan.contracts[number]? = some c ∧
      ∀ (perform : β → Context → Reply) (calling : Calling) (rest : List (Instruction β)) (r : Run)
        (branches : List (Step β × Bindings)), r.skipped = 0 →
        let group : Instruction β := .parallel steps number protocol
        let ended := Run.drive plan perform calling (group :: rest) r
        (steps.map fun s => (s, (Run.branchReply perform calling (group.seen r.ctx) s).result)) =
            GroupResult.results (GroupResult.successes branches) →
          (∃ reached events, c.keepAll branches (group.seen r.ctx) = .ok reached ∧
            ended = Run.drive plan perform calling rest
              { r with ctx := reached, events := events }) ∨
          ∃ before reached cause, c.KeepsUpTo branches (group.seen r.ctx) before reached cause ∧
            ended.2 = .error (.contract cause) ∧ ended.1.ctx.entries = reached.entries ∧
            (∃ kept : List (Step β × Bindings),
              kept.map (fun branch => (branch.1, branch.2.names)) =
                before.map (fun branch => (branch.1, branch.2.names)) ∧
              reached.entries = r.ctx.entries ++
                kept.flatMap fun branch => Context.setBy branch.1.qualified branch.2) ∧
            (ended.1.ctx.entries = r.ctx.entries ↔ ∀ branch ∈ before, branch.2.names = []) := by
  obtain ⟨c, hContract⟩ := h.exists_contract_of_mem hGroup rfl
  refine ⟨c, hContract, fun perform calling rest r branches hRuns => ?_⟩
  intro group ended hResults
  obtain ⟨events, hDrive⟩ :=
    Run.drive_parallel plan perform calling steps number protocol rest hRuns
  rw [hResults, Run.judgeGroup_of_success] at hDrive
  rcases c.keepAll_cases branches (group.seen r.ctx) with
    ⟨reached, hKept⟩ | ⟨before, reached, cause, hBroken, -⟩
  · rw [Run.commitAll_of_ok hContract hKept] at hDrive
    exact .inl ⟨reached, events, hKept, hDrive⟩
  · rw [Run.commitAll_of_error hContract hBroken] at hDrive
    obtain ⟨kept, -, hNames, hForms⟩ := Contract.exists_hasKept hBroken.kept
    have hReached := congrArg Context.entries hForms
    dsimp only at hReached
    rw [Instruction.entries_seen] at hReached
    have hEntries : ended.1.ctx.entries = reached.entries := congrArg (·.1.ctx.entries) hDrive
    refine .inr ⟨before, reached, cause, hBroken, congrArg Prod.snd hDrive, hEntries,
      ⟨kept, hNames, hReached⟩, ?_⟩
    rw [hEntries, hReached, List.append_right_eq_self, List.flatMap_eq_nil_iff]
    have hSilent : ∀ branches : List (Step β × Bindings),
        (∀ branch ∈ branches, branch.2.names = []) ↔
          ∀ told ∈ branches.map fun branch => (branch.1, branch.2.names), told.2 = [] := by
      simp only [List.forall_mem_map, implies_true]
    simp only [Context.setBy_eq_nil_iff]
    rw [hSilent kept, hSilent before, hNames]

end

/-! ## An example

A letter is dated while it is stamped, and the schema of the desk has no stamps. Another is dated
while it is refused. -/

namespace Desk

open Shop (Body answer)

/-- A schema with a date, taken as it is. -/
def calendar : Spec where
  identity := 0
  family := .raw
  name := "Calendar"
  fields := .ofList [("date", ⟨"a day", .ok⟩)]

def file : Story where
  name := ⟨"Desk", "file"⟩
  arguments := []
  collected := [.parallel ["date", "stamp"]]
  spec := some calendar
  failures := none

def reject : Story where
  name := ⟨"Desk", "reject"⟩
  arguments := []
  collected := [.parallel ["date", "refuse"]]
  spec := some calendar
  failures := none

def step (name : String) (body : Body) : Step Body where
  name := name
  owner := "Desk"
  mode := .function
  body := body

def today : Bindings := .ofList [("date", .nat 5)]

def stamped : Bindings := .ofList [("stamp", .bool true)]

def date : Step Body := step "date" (.ok (.success today))

def stamp : Step Body := step "stamp" (.ok (.success stamped))

def refuse : Step Body := step "refuse" (.ok (.failure none))

def cast : Cast Body :=
  .ofList [("desk", {
    className := "Desk"
    members := .ofList [("date", .step date), ("stamp", .step stamp), ("refuse", .step refuse)] })]

def filing : Plan Body := (Plan.compile cast file "desk").toOption.get rfl

def rejecting : Plan Body := (Plan.compile cast reject "desk").toOption.get rfl

theorem filing_mounts : Mounts cast ⟨file, "desk", .parallel [date, stamp] .done⟩ filing where
  compiled := rfl
  unfolds := .parallel .done

theorem rejecting_mounts :
    Mounts cast ⟨reject, "desk", .parallel [date, refuse] .done⟩ rejecting where
  compiled := rfl
  unfolds := .parallel .done

/-- The story of a letter has been entered. -/
def opened : Run := { ctx := .empty 88, depth := 1 }

def filingGroup : Instruction Body := .parallel [date, stamp] 0 .null

def rejectingGroup : Instruction Body := .parallel [date, refuse] 0 .null

/-- A letter that is refused is not dated. -/
theorem refused :
    let ended := Run.drive rejecting answer .blocking [rejectingGroup, .leave] opened
    ended.2 = .ok (.failure "refuse" none) ∧ ended.1.ctx.entries = opened.ctx.entries := by
  have hGroup : rejectingGroup ∈ rejecting.instructions :=
    List.mem_cons_of_mem _ List.mem_cons_self
  obtain ⟨c, -, hSettles, hProceeds⟩ := rejecting_mounts.group_settled hGroup
  obtain ⟨events, hDrive⟩ := hProceeds answer .blocking [.leave] opened rfl
  have hLegal : ∀ branch ∈ GroupResult.results
      [(date, .success today), (refuse, .failure none)],
      branch.1.breach? rejecting.mode branch.2 = none := by
    intro branch hBranch
    rcases List.mem_pair.mp hBranch with rfl | rfl <;> rfl
  obtain ⟨hEnds, hEntries⟩ := (hSettles _ _).failure [(date, .success today)] refuse none [] rfl
    hLegal (fun answer hAnswer other h => by cases List.mem_singleton.mp hAnswer; cases h)
  intro ended
  have hEnded : ended = _ := hDrive.trans (Run.proceed_of_stop hEnds)
  rw [hEnded]
  exact ⟨rfl, hEntries⟩

/-- Both succeed, the stamp is rejected, and the date is kept. -/
theorem half_filed :
    filingGroup ∈ filing.instructions ∧ opened.skipped = 0 ∧
    ([date, stamp].map fun s =>
        (s, (Run.branchReply answer .blocking (filingGroup.seen opened.ctx) s).result)) =
      GroupResult.results (GroupResult.successes [(date, today), (stamp, stamped)]) ∧
    let ended := Run.drive filing answer .blocking [filingGroup, .leave] opened
    (∃ excerpt, ended.2 = .error (.contract (.unknownVariable "stamp" "Desk.stamp" excerpt))) ∧
      opened.ctx.names = [] ∧ ended.1.ctx.names = ["date"] :=
  ⟨List.mem_cons_of_mem _ List.mem_cons_self, rfl, rfl, ⟨_, rfl⟩, rfl, rfl⟩

/-- What is left of the letter is what was kept up to the stamp. -/
theorem filed_in_part :
    let ended := Run.drive filing answer .blocking [filingGroup, .leave] opened
    ∃ c before reached cause, filing.contracts[0]? = some c ∧
      c.KeepsUpTo [(date, today), (stamp, stamped)] (filingGroup.seen opened.ctx) before reached
        cause ∧
      ended.2 = .error (.contract cause) ∧ ended.1.ctx.entries = reached.entries := by
  have hGroup : filingGroup ∈ filing.instructions := List.mem_cons_of_mem _ List.mem_cons_self
  obtain ⟨c, hContract, hKeeps⟩ := filing_mounts.group_keeps hGroup
  rcases hKeeps answer .blocking [.leave] opened [(date, today), (stamp, stamped)] rfl rfl with
    ⟨reached, events, -, hGoesOn⟩ | ⟨before, reached, cause, hBroken, hEnds, hEntries, -, -⟩
  · -- the run does not go on
    have hFinished := congrArg Prod.snd hGoesOn
    cases hFinished
  · exact ⟨c, before, reached, cause, hContract, hBroken, hEnds, hEntries⟩

end Desk

end Storyline
