import Mathlib.Data.List.Forall2
import Storyline.Contract.Check
import Storyline.Proofs.Names

/-!
# What a check accepts

Values that pass a check keep their names and their order, and every value is judged by all
validators of its name (`Contract.Judged`): they accept it, and the form that is kept is equal to
the form of each. A name that is set already is never accepted again
(`Contract.checkOutput_eq_ok`).
-/

set_option autoImplicit false

namespace Storyline

namespace Contract

/-! ## One name -/

/-- A value of a name that was given, and the value that is kept: every validator of the name
accepts what was given, and its form is equal to what is kept. -/
structure Judged (c : Contract) (given kept : String × Json) : Prop where
  name_eq : kept.1 = given.1
  accepts : ∀ validator ∈ c.validatorsOf given.1,
    ∃ form, validator.2.validate given.2 = .ok form ∧ (form = kept.2 ∨ kept.2.same form = true)

theorem validate_of_firstViolation {validators : List (StoryName × Field)} {value : Json}
    (h : firstViolation? validators value = none) {validator : StoryName × Field}
    (hMem : validator ∈ validators) : ∃ form, validator.2.validate value = .ok form := by
  have hNone := List.findSome?_eq_none_iff.mp h validator hMem
  cases hForm : validator.2.validate value with
  | ok form => exact ⟨form, rfl⟩
  | error violation => simp [hForm] at hNone

theorem mem_accepted {validators : List (StoryName × Field)} {value form : Json}
    {validator : StoryName × Field} (hMem : validator ∈ validators)
    (hForm : validator.2.validate value = .ok form) :
    (validator.1, form) ∈ accepted validators value := by
  refine List.mem_filterMap.mpr ⟨validator, hMem, ?_⟩
  simp [hForm]

/-- Forms none of which differs from the first are all equal to it. -/
theorem same_of_disagreeing {first : StoryName × Json} {others : List (StoryName × Json)}
    (h : disagreeing (first :: others) = []) {form : StoryName × Json}
    (hMem : form ∈ first :: others) : form.2 = first.2 ∨ first.2.same form.2 = true := by
  rcases List.mem_cons.mp hMem with rfl | hOther
  · exact .inl rfl
  · have hSame := List.filter_eq_nil_iff.mp h form hOther
    exact .inr (by simpa using hSame)

/-! ## All names -/

theorem isEmpty_recordForm (conflict : Catalog (Catalog Json)) (name : String)
    (form : StoryName × Json) : (recordForm conflict name form).isEmpty = false :=
  Catalog.isEmpty_insert _ _ _

theorem isEmpty_of_foldl_recordForm {name : String} {first : StoryName × Json}
    {others : List (StoryName × Json)} {conflict : Catalog (Catalog Json)}
    (h : (others.foldl (fun conflict other => recordForm (recordForm conflict name first) name
      other) conflict).isEmpty = true) : conflict.isEmpty = true ∧ others = [] := by
  induction others generalizing conflict with
  | nil => exact ⟨h, rfl⟩
  | cons other rest ih =>
      -- another form would have been recorded
      have hEmpty := (ih h).1
      rw [isEmpty_recordForm] at hEmpty
      cases hEmpty

/-- Nothing is recorded as a conflict only if all forms agree. -/
theorem isEmpty_of_recordConflict {conflict : Catalog (Catalog Json)} {name : String}
    {forms : List (StoryName × Json)} (h : (recordConflict conflict name forms).isEmpty = true) :
    conflict.isEmpty = true ∧ disagreeing forms = [] := by
  cases forms with
  | nil => exact ⟨h, rfl⟩
  | cons first others => exact isEmpty_of_foldl_recordForm h

/-- Nothing has been found against any name so far. -/
structure Findings.Clean (v : Findings) : Prop where
  conflict : v.conflict.isEmpty = true
  rejected : v.rejected.isEmpty = true

/-- A rejected name is recorded. -/
theorem judge_of_violation {c : Contract} {v : Findings} {name : String} {value : Json}
    {violation : Violation} (h : firstViolation? (c.validatorsOf name) value = some violation) :
    (c.judge v (name, value)).rejected = v.rejected.insertNew name violation := by
  simp only [judge, h]

/-- A name that is not rejected is kept, in the first form if there are validators. -/
theorem judge_of_none {c : Contract} {v : Findings} {name : String} {value : Json}
    (h : firstViolation? (c.validatorsOf name) value = none) :
    (c.judge v (name, value)).rejected = v.rejected ∧
      ∃ kept, (c.judge v (name, value)).kept = v.kept ++ [(name, kept)] ∧
        ∀ first others, accepted (c.validatorsOf name) value = first :: others →
          kept = first.2 := by
  simp only [judge, h]
  refine ⟨trivial, _, rfl, ?_⟩
  intro first others hForms
  rw [hForms]

theorem conflict_judge (c : Contract) (v : Findings) (name : String) (value : Json) :
    (c.judge v (name, value)).conflict =
      recordConflict v.conflict name (accepted (c.validatorsOf name) value) := by
  unfold judge
  dsimp only
  split <;> rfl

theorem judge_clean {c : Contract} {v : Findings} {given : String × Json}
    (h : (c.judge v given).Clean) :
    v.Clean ∧ ∃ kept, (c.judge v given).kept = v.kept ++ [kept] ∧ c.Judged given kept := by
  obtain ⟨name, value⟩ := given
  obtain ⟨hConflict, hRejected⟩ := h
  rw [conflict_judge] at hConflict
  obtain ⟨hBefore, hAgree⟩ := isEmpty_of_recordConflict hConflict
  cases hViolation : firstViolation? (c.validatorsOf name) value with
  | some violation =>
      rw [judge_of_violation hViolation, Catalog.isEmpty_insertNew] at hRejected
      cases hRejected
  | none =>
      obtain ⟨hSame, kept, hKept, hFirst⟩ := judge_of_none (v := v) hViolation
      rw [hSame] at hRejected
      refine ⟨⟨hBefore, hRejected⟩, (name, kept), hKept, rfl, fun validator hMem => ?_⟩
      obtain ⟨form, hForm⟩ := validate_of_firstViolation hViolation hMem
      have hAccepted := mem_accepted hMem hForm
      refine ⟨form, hForm, ?_⟩
      -- the form of this validator is among those that were compared with the first
      cases hForms : accepted (c.validatorsOf name) value with
      | nil =>
          rw [hForms] at hAccepted
          cases hAccepted
      | cons first others =>
          rw [hForms] at hAccepted hAgree
          rw [hFirst first others hForms]
          exact same_of_disagreeing hAgree hAccepted

theorem foldl_judge_clean {c : Contract} {entries : List (String × Json)} {v : Findings}
    (h : (entries.foldl c.judge v).Clean) :
    v.Clean ∧ ∃ kept, (entries.foldl c.judge v).kept = v.kept ++ kept ∧
      List.Forall₂ c.Judged entries kept := by
  induction entries generalizing v with
  | nil => exact ⟨h, [], by simp, .nil⟩
  | cons given rest ih =>
      obtain ⟨hRest, kept, hKept, hJudged⟩ := ih h
      obtain ⟨hFirst, first, hFirstKept, hFirstJudged⟩ := judge_clean hRest
      refine ⟨hFirst, first :: kept, ?_, .cons hFirstJudged hJudged⟩
      rw [List.foldl_cons, hKept, hFirstKept, List.append_assoc]
      rfl

theorem names_of_judged {c : Contract} {given kept : List (String × Json)}
    (h : List.Forall₂ c.Judged given kept) : kept.map Prod.fst = given.map Prod.fst := by
  induction h with
  | nil => rfl
  | cons hFirst _ ih => rw [List.map_cons, List.map_cons, hFirst.name_eq, ih]

/-- Values that are valid are judged one by one, and none is left out. -/
theorem validate_eq_ok {c : Contract} {values kept : Bindings}
    {invalid : List Rejection → String → ContractError}
    (h : c.validate values invalid = .ok kept) :
    List.Forall₂ c.Judged values.entries kept.entries := by
  unfold validate at h
  dsimp only at h
  split at h
  · cases h
  · next hConflict =>
    split at h
    · cases h
    · next hRejected =>
      have hClean : (c.findings values).Clean :=
        ⟨by simpa using hConflict, by simpa using hRejected⟩
      obtain ⟨-, list, hList, hJudged⟩ := foldl_judge_clean hClean
      obtain rfl := Except.ok.inj h
      have hKept : (c.findings values).kept = list := hList
      -- the table of what is kept has all of it, as names are those that were given
      have hDistinct : (list.map Prod.fst).Nodup := by
        rw [names_of_judged hJudged]
        exact values.distinct
      rw [hKept, Named.entries_ofList hDistinct]
      exact hJudged

/-! ## Checks -/

/-- The values of a step that are kept have the names that were given, none of which is set
already. With a schema, each name is one that the contract admits, and its value is judged. -/
theorem checkOutput_eq_ok {c : Contract} {step : String} {ctx : Context} {values kept : Bindings}
    (h : c.checkOutput step ctx values = .ok kept) :
    kept.names = values.names ∧ (∀ name ∈ values.names, name ∉ ctx.names) ∧
      (c.isNull = false → (∀ name ∈ values.names, c.admits name = true) ∧
        List.Forall₂ c.Judged values.entries kept.entries) := by
  unfold checkOutput at h
  split at h
  · cases h
  next hNew =>
  have hFresh : ∀ name ∈ values.names, name ∉ ctx.names := by
    intro name hName hOld
    have hAbsent := List.find?_eq_none.mp hNew name hName
    exact hAbsent (by simpa [Context.contains] using hOld)
  split at h
  · next hNull =>
    -- without a schema values are kept as they were given
    obtain rfl := Except.ok.inj h
    exact ⟨rfl, hFresh, fun hSchema => absurd hNull (by simp [hSchema])⟩
  next hSchema =>
  split at h
  · cases h
  next hAdmits =>
  have hJudged := validate_eq_ok h
  refine ⟨names_of_judged hJudged, hFresh, fun _ => ⟨fun name hName => ?_, hJudged⟩⟩
  simpa using List.find?_eq_none.mp hAdmits name hName

/-- Arguments that are accepted are arguments of the composition. With a schema, each value is
judged. -/
theorem checkCall_eq_ok {c : Contract} {values kept : Bindings}
    (h : c.checkCall values = .ok kept) :
    (∀ name ∈ values.names, name ∈ c.argumentNames) ∧
      (c.isNull = false → List.Forall₂ c.Judged values.entries kept.entries) := by
  unfold checkCall at h
  split at h
  · next hKnown =>
    refine ⟨fun name hName => ?_, fun hSchema => ?_⟩
    · have hContains := List.filter_eq_nil_iff.mp hKnown name hName
      exact (c.sources.contains_iff name).mp (by simpa using hContains)
    · rw [if_neg (by simp [hSchema])] at h
      exact validate_eq_ok h
  · cases h

end Contract

end Storyline
