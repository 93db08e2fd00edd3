import Storyline.Proofs.Moments

/-!
# Failures and their reasons

A run that ends in a failure was stopped by a step whose own story allows that failure: the
reason belongs to the vocabulary of the story, and without a vocabulary there is no reason and
none may be declared anywhere in the tree. Since the vocabulary of the composition has the
reasons of all stories, the summary can be asked for any of them, and answers by text or by member
name (`Mounts.failure_reason`).
-/

set_option autoImplicit false

namespace Storyline

variable {β : Type}

/-! ## Protocols -/

theorem Reason.same_self (r : Reason) : r.same r = true := by
  cases r <;> simp [Reason.same]

/-- What failing within a composition takes: a reason of the story's vocabulary, or no vocabulary
at all and no reason. -/
theorem StepProtocol.checkReturn_within {isShut : Bool} {failures : Option Failures}
    {step : String} {reason : Option Reason}
    (h : (within isShut failures).checkReturn step reason = .ok ()) :
    (failures = none ∧ isShut = false ∧ reason = none) ∨
      ∃ own r, failures = some own ∧ reason = some r ∧ own.contains r = true := by
  cases failures with
  | none =>
      cases isShut <;> cases reason <;> first
        | exact .inl ⟨rfl, rfl, rfl⟩
        | cases h
  | some own =>
      cases reason with
      | none => cases h
      | some r =>
          simp only [within, checkReturn] at h
          split at h
          · next hContains => exact .inr ⟨own, r, rfl, rfl, hContains⟩
          · cases h

/-- Reasons of a vocabulary count as one when they are the same token or have the same member
name. -/
theorem Failures.compare_eq_same {all : Failures} {q r : Reason} (hq : all.contains q = true)
    (hr : all.contains r = true) : all.compare q r = q.same r := by
  cases all with
  | tokens list =>
      cases q with
      | member enumeration name value => cases hq
      | token text =>
          cases r with
          | member enumeration name value => cases hr
          | token other => rfl
  | enumeration e =>
      cases q with
      | token text => cases hq
      | member enumeration name value =>
          cases r with
          | token other => cases hr
          | member enumeration' name' value' => rfl

/-- A summary answers for every reason of the vocabulary of the composition. -/
theorem Summary.failedBecause_eq {s : Summary} {name : String} {r : Reason} {all : Failures}
    (hFailure : s.verdict = .failure name (some r)) (hAll : s.protocol.failures = some all)
    (hr : all.contains r = true) {q : Reason} (hq : all.contains q = true) :
    s.failedBecause q = .ok (q.same r) := by
  have hReason : s.reason = some r := by
    unfold reason
    rw [hFailure]
  unfold failedBecause RunProtocol.checkArgument RunProtocol.compare
  simp only [hAll, hq, hReason, if_true, Failures.compare_eq_same hq hr]

/-! ## Runs that fail -/

/-- A run that ends in a failure was stopped by a moment. -/
theorem Run.exists_stop_of_failure {done : List (Moment β)} {name : String}
    {reason : Option Reason} (h : endingOf done = .ok (.failure name reason)) :
    ∃ m ∈ done, m.flow = .stop (.ok (.failure name reason)) := by
  unfold endingOf at h
  split at h
  · next ending hLast =>
    obtain ⟨m, hm, hFlow⟩ := Option.map_eq_some_iff.mp hLast
    subst h
    exact ⟨m, List.mem_of_getLast? hm, hFlow⟩
  · cases h

/-- Only a failure is told as a failure. -/
theorem Ending.eq_of_verdict {ending : Ending} {name : String} {reason : Option Reason}
    (h : ending.verdict = .failure name reason) : ending = .failure name reason := by
  cases ending with
  | failure step cause =>
      cases h
      rfl
  | result value => cases h
  | finished => cases h

/-- A run that gives a summary ended as the summary says. -/
theorem Mounted.run_eq_ok {mounted : Mounted β} {perform : β → Context → Reply}
    {calling : Calling} {arguments : Bindings} {summary : Summary}
    (h : (mounted.run perform calling arguments).result = .ok summary) :
    ∃ invocation ending,
      mounted.plan.invoke perform calling mounted.settings.reprWidth arguments = .ok invocation ∧
      invocation.ending = .ok ending ∧ summary = mounted.summary invocation.ctx ending := by
  unfold run answer at h
  split at h
  · cases h
  · next invocation hInvoke =>
    obtain ⟨ending, hEnding, hSummary⟩ := bind_eq_ok_iff.mp h
    refine ⟨invocation, ending, ?_, hEnding, (Except.ok.inj hSummary).symm⟩
    unfold invoke at hInvoke
    split at hInvoke
    · cases hInvoke
    · exact mapError_eq_ok_iff.mp hInvoke

section

variable {cast : Cast β} {tree : StoryTree β} {plan : Plan β} {perform : β → Context → Reply}
  {calling : Calling}

/-- A moment that ends the run with a failure has a step that failed for this reason, and the
protocol of its story allows it. -/
theorem Mounts.allowed_of_stop (h : Mounts cast tree plan) {m : Moment β}
    (hMem : (m.story, m.instruction) ∈ tree.score plan.failures.isSome)
    (hExecutes : m.Executes plan perform calling) {name : String} {reason : Option Reason}
    (hStop : m.flow = .stop (.ok (.failure name reason))) :
    (∃ s, s.name = name ∧
      m.instruction.Answers perform calling m.before.ctx s (.failure reason)) ∧
    ((m.story.failures = none ∧ plan.failures = none ∧ reason = none) ∨
      ∃ own r, m.story.failures = some own ∧ reason = some r ∧ own.contains r = true) := by
  have hEffect := h.effect hMem hExecutes
  have hBelongs := StoryTree.belongsTo_of_mem_score hMem
  obtain ⟨story, i, before, after, flow⟩ := m
  obtain rfl := hStop
  -- of all effects only a failure stops a run this way
  cases hEffect with
  | still _ hNot => exact absurd rfl (hNot name reason)
  | failed _ hAnswers hProtocol hCheck =>
      refine ⟨⟨_, rfl, hAnswers⟩, ?_⟩
      rw [hBelongs.held _ hProtocol] at hCheck
      rcases StepProtocol.checkReturn_within hCheck with ⟨hNone, hOpen, hReason⟩ | hOwn
      · exact .inl ⟨hNone, by simpa using hOpen, hReason⟩
      · exact .inr hOwn

/-- What the vocabularies say about a reason for which a run may end: that of the story, and that
of the whole composition. -/
structure Reason.IsHeld (reason : Option Reason) (story : Story) (plan : Plan β)
    (tree : StoryTree β) : Prop where
  /-- Without a vocabulary there is no reason. -/
  none_of_none : plan.failures = none → reason = none
  /-- With one there is a reason, which belongs to it and to that of the story. -/
  exists_of_some : ∀ all, plan.failures = some all → ∃ own r,
    reason = some r ∧ story.failures = some own ∧ own.contains r = true ∧ all.contains r = true
  /-- The story has a vocabulary if any story of the tree has one. -/
  declares : (∃ other ∈ tree.stories, other.failures.isSome = true) →
    story.failures.isSome = true

theorem Mounts.isHeld (h : Mounts cast tree plan) {story : Story} {reason : Option Reason}
    (hStory : story ∈ tree.stories)
    (hAllowed : (story.failures = none ∧ plan.failures = none ∧ reason = none) ∨
      ∃ own r, story.failures = some own ∧ reason = some r ∧ own.contains r = true) :
    Reason.IsHeld reason story plan tree := by
  rcases hAllowed with ⟨hOpen, hNone, rfl⟩ | ⟨own, r, hOwn, rfl, hr⟩
  · constructor
    case none_of_none => exact fun _ => rfl
    case exists_of_some =>
      intro all hAll
      cases hNone.symm.trans hAll
    case declares =>
      intro hDeclares
      have hSome := h.isSome_failures_iff.mpr hDeclares
      simp [hNone] at hSome
  · constructor
    case none_of_none =>
      -- the vocabulary of the story would be part of that of the composition
      intro hNone
      have hSome := h.isSome_failures_iff.mpr ⟨story, hStory, by simp [hOwn]⟩
      simp [hNone] at hSome
    case exists_of_some =>
      intro all hAll
      have hHas := (h.has_failures_iff r).mpr ⟨story, hStory, own, hOwn, hr⟩
      rw [hAll, Failures.has_some_iff] at hHas
      exact ⟨own, r, rfl, hOwn, hr, hHas⟩
    case declares =>
      intro _
      simp [hOwn]

/-- **A failure has a reason exactly when the composition has a vocabulary**, and the reason is
one of the vocabulary of the story whose step failed, for which the summary can be asked. -/
theorem Mounts.failure_reason {mounted : Mounted β} (h : Mounts cast tree mounted.plan)
    {arguments : Bindings} {summary : Summary}
    (hRun : (mounted.run perform calling arguments).result = .ok summary) {name : String}
    {reason : Option Reason} (hFailure : summary.verdict = .failure name reason) :
    ∃ values, mounted.plan.root.checkCall arguments = .ok values ∧
      ∃ m ∈ mounted.plan.moments tree perform calling mounted.settings.reprWidth values,
        m.flow = .stop (.ok (.failure name reason)) ∧
        (∃ s, s.name = name ∧
          m.instruction.Answers perform calling m.before.ctx s (.failure reason)) ∧
        (mounted.plan.failures = none → reason = none) ∧
        (∀ all, mounted.plan.failures = some all → ∃ own r,
          reason = some r ∧ m.story.failures = some own ∧ own.contains r = true ∧
          all.contains r = true ∧ summary.failedBecause r = .ok true ∧
          ∀ q, all.contains q = true → summary.failedBecause q = .ok (q.same r)) ∧
        ((∃ story ∈ tree.stories, story.failures.isSome = true) →
          m.story.failures.isSome = true) := by
  obtain ⟨invocation, ending, hInvoke, hEnding, rfl⟩ := Mounted.run_eq_ok hRun
  obtain ⟨values, hAccepted, -, hLast⟩ := h.invoke_eq_ok hInvoke
  obtain rfl := Ending.eq_of_verdict hFailure
  rw [hEnding] at hLast
  -- the moment that stopped the run, and what its story allows
  obtain ⟨m, hMoment, hStop⟩ := Run.exists_stop_of_failure hLast.symm
  obtain ⟨done, rest, hPoint⟩ := List.append_of_mem hMoment
  obtain ⟨hMem, hExecutes, -⟩ := Run.moment_executes hPoint
  obtain ⟨hStep, hAllowed⟩ := h.allowed_of_stop hMem hExecutes hStop
  have hHeld := h.isHeld (StoryTree.belongsTo_of_mem_score hMem).mem hAllowed
  refine ⟨values, hAccepted, m, hMoment, hStop, hStep, hHeld.none_of_none, ?_, hHeld.declares⟩
  intro all hAll
  obtain ⟨own, r, rfl, hOwn, hr, hHas⟩ := hHeld.exists_of_some all hAll
  have hAnswer : ∀ q, all.contains q = true →
      (mounted.summary invocation.ctx (.failure name (some r))).failedBecause q =
        .ok (q.same r) := fun q hq => Summary.failedBecause_eq rfl hAll hHas hq
  refine ⟨own, r, rfl, hOwn, hr, hHas, ?_, hAnswer⟩
  rw [hAnswer r hHas, r.same_self]

end

/-- The shop fails because it is sold out. -/
theorem Shop.sold_out : ∃ summary : Summary,
    (Mounted.run { plan } answer .blocking arguments).result = .ok summary ∧
      summary.verdict = .failure "ship" (some (.token "sold out")) ∧
      summary.failedBecause (.token "sold out") = .ok true := by
  have hFails : ∃ summary : Summary,
      (Mounted.run { plan } answer .blocking arguments).result = .ok summary ∧
        summary.verdict = .failure "ship" (some (.token "sold out")) := ⟨_, rfl, rfl⟩
  obtain ⟨summary, hRun, hFailure⟩ := hFails
  obtain ⟨-, -, m, -, -, -, -, hAll, -⟩ := Mounts.failure_reason mounts hRun hFailure
  obtain ⟨own, r, hReason, -, -, -, hAnswer, -⟩ := hAll (.tokens ["sold out"]) rfl
  obtain rfl := Option.some.inj hReason
  exact ⟨summary, hRun, hFailure, hAnswer⟩

end Storyline
