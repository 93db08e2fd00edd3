import Storyline.Proofs.ArgumentOrder
import Storyline.Proofs.Checks
import Storyline.Proofs.Equality

/-!
# What validators find

A check collects three things: what is kept of each name, the first violation of each rejected name,
and the names on which validators disagree. They disagree when two of them keep a value in unequal
forms, whichever two they are. The check compares with the first form only, which comes to the same
because equality is an equivalence (`Contract.isDisputed_iff`).
-/

set_option autoImplicit false

namespace Storyline

/-- The first member of a list that has a property. -/
def IsFirst {α : Type} (p : α → Prop) (list : List α) (x : α) : Prop :=
  ∃ before after, list = before ++ x :: after ∧ p x ∧ ∀ other ∈ before, ¬ p other

theorem isFirst_of_find? {names : List String} {p : String → Bool} {q : String → Prop}
    {name : String} (hIff : ∀ name, p name = true ↔ q name) (h : names.find? p = some name) :
    IsFirst q names name := by
  obtain ⟨hName, before, after, hSplit, hBefore⟩ := List.find?_eq_some_iff_append.mp h
  refine ⟨before, after, hSplit, (hIff name).mp hName, fun other hOther hIs => ?_⟩
  have hNot := hBefore other hOther
  rw [(hIff other).mpr hIs] at hNot
  cases hNot

theorem forall_not_of_find? {names : List String} {p : String → Bool} {q : String → Prop}
    (hIff : ∀ name, p name = true ↔ q name) (h : names.find? p = none) :
    ∀ name ∈ names, ¬ q name := fun name hName hIs =>
  List.find?_eq_none.mp h name hName ((hIff name).mpr hIs)

/-- A field keeps values proper. -/
def Field.KeepsProper (field : Field) : Prop :=
  ∀ raw form, raw.IsProper → field.validate raw = .ok form → form.IsProper

namespace Contract

/-! ## One name -/

section

variable (c : Contract) (given : String × Json)

/-- Two validators of a name accept its value, but keep it in unequal forms. -/
def IsDisputed : Prop :=
  ∃ v ∈ c.validatorsOf given.1, ∃ w ∈ c.validatorsOf given.1, ∃ form other,
    v.2.validate given.2 = .ok form ∧ w.2.validate given.2 = .ok other ∧ form.same other = false

/-- The first validator of a name that rejects its value reports a violation. -/
def IsRejected (violation : Violation) : Prop :=
  ∃ v, IsFirst (fun w : StoryName × Field => ∃ cause, w.2.validate given.2 = .error cause)
    (c.validatorsOf given.1) v ∧ v.2.validate given.2 = .error violation

/-- What is kept of a name: its value as it is given if it has no validators, and otherwise the form
of the first validator, to which those of all others are equal. -/
structure IsAgreed (kept : String × Json) : Prop where
  name_eq : kept.1 = given.1
  raw : c.validatorsOf given.1 = [] → kept.2 = given.2
  first : ∀ v rest, c.validatorsOf given.1 = v :: rest → v.2.validate given.2 = .ok kept.2
  agree : ∀ v ∈ c.validatorsOf given.1, ∃ form, v.2.validate given.2 = .ok form ∧
    kept.2.same form = true

end

variable {c : Contract} {given : String × Json}

/-- The forms in which validators keep the value of a name are proper. -/
def FormsAreProper (c : Contract) (given : String × Json) : Prop :=
  ∀ v ∈ c.validatorsOf given.1, ∀ form, v.2.validate given.2 = .ok form → form.IsProper

theorem mem_accepted_iff {validators : List (StoryName × Field)} {value : Json}
    {kept : StoryName × Json} : kept ∈ accepted validators value ↔
      ∃ v ∈ validators, v.1 = kept.1 ∧ v.2.validate value = .ok kept.2 := by
  constructor
  · intro h
    obtain ⟨v, hv, hKept⟩ := List.mem_filterMap.mp h
    cases hForm : v.2.validate value with
    | error violation => simp [hForm] at hKept
    | ok form =>
        simp only [hForm, Option.some.injEq] at hKept
        subst hKept
        exact ⟨v, hv, rfl, hForm⟩
  · rintro ⟨v, hv, hStory, hForm⟩
    have hMem := mem_accepted hv hForm
    rwa [hStory] at hMem

/-- When no form differs from the first, it is equal to all of them. -/
theorem first_same (hProper : c.FormsAreProper given) {first : StoryName × Json}
    {others : List (StoryName × Json)}
    (hForms : accepted (c.validatorsOf given.1) given.2 = first :: others)
    (hAgree : disagreeing (first :: others) = []) {v : StoryName × Field}
    (hv : v ∈ c.validatorsOf given.1) {form : Json} (hForm : v.2.validate given.2 = .ok form) :
    first.2.same form = true := by
  have hMem := mem_accepted hv hForm
  rw [hForms] at hMem
  rcases same_of_disagreeing hAgree hMem with hSame | hSame
  · obtain rfl : form = first.2 := hSame
    exact Json.same_self (hProper v hv first.2 hForm)
  · exact hSame

/-- **Comparing with the first form is enough**: two forms are unequal only if one of them is
unequal to the first. -/
theorem isDisputed_iff (hProper : c.FormsAreProper given) :
    c.IsDisputed given ↔ disagreeing (accepted (c.validatorsOf given.1) given.2) ≠ [] := by
  cases hForms : accepted (c.validatorsOf given.1) given.2 with
  | nil =>
      simp only [disagreeing, ne_eq, not_true_eq_false, iff_false]
      rintro ⟨v, hv, -, -, form, -, hForm, -, -⟩
      have hMem := mem_accepted hv hForm
      rw [hForms] at hMem
      cases hMem
  | cons first others =>
      have hIn : ∀ kept ∈ first :: others, ∃ v ∈ c.validatorsOf given.1,
          v.1 = kept.1 ∧ v.2.validate given.2 = .ok kept.2 := by
        intro kept hKept
        rw [← hForms] at hKept
        exact mem_accepted_iff.mp hKept
      obtain ⟨v₀, hv₀, -, hFirst⟩ := hIn first List.mem_cons_self
      constructor
      · rintro ⟨v, hv, w, hw, form, other, hForm, hOther, hUnequal⟩ hNone
        -- both forms are equal to the first, hence to each other
        have hBack := Json.same_symm (hProper v₀ hv₀ first.2 hFirst) (hProper v hv form hForm)
          (first_same hProper hForms hNone hv hForm)
        have hSame := Json.same_trans hBack (first_same hProper hForms hNone hw hOther)
        rw [hUnequal] at hSame
        cases hSame
      · intro hSome
        obtain ⟨other, hOther⟩ := List.exists_mem_of_ne_nil _ hSome
        obtain ⟨hMem, hUnequal⟩ := List.mem_filter.mp hOther
        obtain ⟨w, hw, -, hForm⟩ := hIn other (List.mem_cons_of_mem _ hMem)
        exact ⟨v₀, hv₀, w, hw, first.2, other.2, hFirst, hForm, by simpa using hUnequal⟩

theorem firstViolation?_eq_some_iff {violation : Violation} :
    firstViolation? (c.validatorsOf given.1) given.2 = some violation ↔
      c.IsRejected given violation := by
  unfold firstViolation? IsRejected IsFirst
  rw [List.findSome?_eq_some_iff]
  constructor
  · rintro ⟨before, v, after, hSplit, hViolation, hBefore⟩
    have hRejects : v.2.validate given.2 = .error violation := by
      cases hForm : v.2.validate given.2 with
      | ok form => simp [hForm] at hViolation
      | error cause =>
          simp only [hForm, Option.some.injEq] at hViolation
          rw [hViolation]
    refine ⟨v, ⟨before, after, hSplit, ⟨violation, hRejects⟩, ?_⟩, hRejects⟩
    rintro other hOther ⟨cause, hCause⟩
    have hNone := hBefore other hOther
    simp [hCause] at hNone
  · rintro ⟨v, ⟨before, after, hSplit, -, hBefore⟩, hRejects⟩
    refine ⟨before, v, after, hSplit, by simp [hRejects], fun other hOther => ?_⟩
    cases hForm : other.2.validate given.2 with
    | ok form => simp [hForm]
    | error cause => exact absurd ⟨cause, hForm⟩ (hBefore other hOther)

/-- What is kept of a name that is neither rejected nor disputed. -/
theorem exists_isAgreed (hProper : c.FormsAreProper given)
    (hAccepted : firstViolation? (c.validatorsOf given.1) given.2 = none)
    (hAgree : disagreeing (accepted (c.validatorsOf given.1) given.2) = []) :
    ∃ kept, c.kept? given = some kept ∧ c.IsAgreed given kept := by
  unfold kept?
  rw [hAccepted]
  refine ⟨_, rfl, rfl, fun hNone => ?_, fun v rest hSome => ?_, fun v hv => ?_⟩
  · rw [hNone]
    rfl
  · have hv : v ∈ c.validatorsOf given.1 := hSome ▸ List.mem_cons_self
    obtain ⟨form, hForm⟩ := validate_of_firstViolation hAccepted hv
    simp [hSome, accepted, hForm]
  · obtain ⟨form, hForm⟩ := validate_of_firstViolation hAccepted hv
    refine ⟨form, hForm, ?_⟩
    cases hForms : accepted (c.validatorsOf given.1) given.2 with
    | nil =>
        have hMem := mem_accepted hv hForm
        rw [hForms] at hMem
        cases hMem
    | cons first others => exact first_same hProper hForms (hForms ▸ hAgree) hv hForm

/-! ## All names -/

open ContractError (conflictingNames)

theorem mem_conflictingNames_iff {results : Catalog (Catalog Json)} {name : String} :
    name ∈ conflictingNames results ↔
      ∃ story values, results.find? story = some values ∧ name ∈ values.names := by
  unfold conflictingNames sortedNames
  rw [Catalog.mem_names_ofList, List.map_map]
  have hNames : ∀ names : List String, names.map (Prod.fst ∘ fun name => (name, ())) = names :=
    fun names => List.map_id names
  rw [hNames, List.mem_flatten]
  constructor
  · rintro ⟨_, hMem, hName⟩
    obtain ⟨⟨story, values⟩, hEntry, rfl⟩ := List.mem_map.mp hMem
    exact ⟨story, values, Catalog.find?_eq_some_iff.mpr hEntry, hName⟩
  · rintro ⟨story, values, hFind, hName⟩
    exact ⟨_, List.mem_map_of_mem (Catalog.find?_eq_some_iff.mp hFind), hName⟩

theorem mem_conflictingNames_recordForm {conflict : Catalog (Catalog Json)} {other name : String}
    {form : StoryName × Json} :
    name ∈ conflictingNames (recordForm conflict other form) ↔
      name = other ∨ name ∈ conflictingNames conflict := by
  rw [mem_conflictingNames_iff, mem_conflictingNames_iff]
  simp only [find?_recordForm]
  constructor
  · rintro ⟨story, values, hFind, hName⟩
    split at hFind
    · obtain rfl := Option.some.inj hFind
      rcases Catalog.mem_names_insert.mp hName with hNew | hOld
      · exact .inl hNew
      · cases hBefore : conflict.find? story with
        | none =>
            rw [hBefore] at hOld
            cases hOld
        | some before =>
            rw [hBefore] at hOld
            exact .inr ⟨story, before, hBefore, hOld⟩
    · exact .inr ⟨story, values, hFind, hName⟩
  · rintro (rfl | ⟨story, values, hFind, hName⟩)
    · exact ⟨form.1.qualified, _, if_pos rfl, Catalog.mem_names_insert.mpr (.inl rfl)⟩
    · by_cases hStory : story = form.1.qualified
      · refine ⟨story, _, if_pos hStory, Catalog.mem_names_insert.mpr (.inr ?_)⟩
        rw [hFind]
        exact hName
      · exact ⟨story, values, (if_neg hStory).trans hFind, hName⟩

theorem mem_conflictingNames_recordConflict {conflict : Catalog (Catalog Json)}
    {other name : String} {forms : List (StoryName × Json)} :
    name ∈ conflictingNames (recordConflict conflict other forms) ↔
      name = other ∧ disagreeing forms ≠ [] ∨ name ∈ conflictingNames conflict := by
  cases forms with
  | nil => simp [recordConflict, disagreeing]
  | cons first rest =>
      rw [recordConflict]
      induction disagreeing (first :: rest) generalizing conflict with
      | nil => simp
      | cons form forms ih =>
          rw [List.foldl_cons, ih, mem_conflictingNames_recordForm,
            mem_conflictingNames_recordForm]
          simp only [ne_eq, reduceCtorEq, not_false_eq_true, and_true]
          tauto

theorem recordConflict_of_agree {conflict : Catalog (Catalog Json)} {name : String}
    {forms : List (StoryName × Json)} (h : disagreeing forms = []) :
    recordConflict conflict name forms = conflict := by
  cases forms with
  | nil => rfl
  | cons first rest => rw [recordConflict, h, List.foldl_nil]

/-- The names that are recorded as disputed are those on which forms disagree. -/
theorem mem_conflictingNames_foldl {entries : List (String × Json)}
    {conflict : Catalog (Catalog Json)} {name : String} :
    name ∈ conflictingNames (entries.foldl c.noteConflict conflict) ↔
      (∃ given ∈ entries, given.1 = name ∧
        disagreeing (accepted (c.validatorsOf given.1) given.2) ≠ []) ∨
      name ∈ conflictingNames conflict := by
  induction entries generalizing conflict with
  | nil => simp
  | cons given rest ih =>
      rw [List.foldl_cons, ih, noteConflict, mem_conflictingNames_recordConflict,
        List.exists_mem_cons_iff, @eq_comm _ name, ← or_assoc]
      exact or_congr_left or_comm

theorem isEmpty_foldl_noteConflict {entries : List (String × Json)}
    {conflict : Catalog (Catalog Json)} :
    (entries.foldl c.noteConflict conflict).isEmpty = true ↔
      conflict.isEmpty = true ∧
        ∀ given ∈ entries, disagreeing (accepted (c.validatorsOf given.1) given.2) = [] := by
  induction entries generalizing conflict with
  | nil => simp
  | cons given rest ih =>
      rw [List.foldl_cons, ih, List.forall_mem_cons, ← and_assoc]
      refine and_congr_left fun _ => ?_
      constructor
      · exact isEmpty_of_recordConflict
      · rintro ⟨hEmpty, hAgree⟩
        rw [noteConflict, recordConflict_of_agree hAgree]
        exact hEmpty

/-- The violations that are recorded are those that the values of each name are rejected with. -/
theorem find?_foldl_noteRejection {entries : List (String × Json)} {rejected : Catalog Violation}
    (hDistinct : (entries.map Prod.fst).Nodup)
    (hNew : ∀ given ∈ entries, rejected.find? given.1 = none) {name : String}
    {violation : Violation} :
    (entries.foldl c.noteRejection rejected).find? name = some violation ↔
      rejected.find? name = some violation ∨
        ∃ value, (name, value) ∈ entries ∧ c.IsRejected (name, value) violation := by
  induction entries generalizing rejected with
  | nil => simp
  | cons given rest ih =>
      rw [List.map_cons, List.nodup_cons] at hDistinct
      obtain ⟨hFirst, hRest⟩ := List.forall_mem_cons.mp hNew
      have hOther : ∀ other ∈ rest, other.1 ≠ given.1 := fun other hIn hSame =>
        hDistinct.1 (hSame ▸ List.mem_map_of_mem hIn)
      rw [List.foldl_cons, noteRejection]
      cases hViolation : firstViolation? (c.validatorsOf given.1) given.2 with
      | none =>
          have hNot : ∀ value, (name, value) = given → ¬ c.IsRejected (name, value) violation := by
            rintro value rfl hRejected
            rw [← firstViolation?_eq_some_iff, hViolation] at hRejected
            cases hRejected
          rw [ih hDistinct.2 hRest]
          refine or_congr_right (exists_congr fun value => ?_)
          rw [List.mem_cons, or_and_right]
          exact (or_iff_right fun h => hNot value h.1 h.2).symm
      | some cause =>
          have hFind : ∀ other, (rejected.insertNew given.1 cause).find? other =
              if other = given.1 then some cause else rejected.find? other := by
            intro other
            rw [Catalog.find?_insertNew, hFirst, Option.getD_none]
          have hLeft : ∀ other ∈ rest, (rejected.insertNew given.1 cause).find? other.1 = none := by
            intro other hIn
            rw [hFind, if_neg (hOther other hIn)]
            exact hRest other hIn
          rw [ih hDistinct.2 hLeft, hFind]
          by_cases hName : name = given.1
          · subst hName
            have hNone : ¬ ∃ value, (given.1, value) ∈ rest ∧
                c.IsRejected (given.1, value) violation :=
              fun ⟨value, hIn, _⟩ => hOther _ hIn rfl
            rw [if_pos rfl, hFirst, or_iff_left hNone, Option.some.injEq]
            have hGiven := firstViolation?_eq_some_iff.mp hViolation
            constructor
            · rintro rfl
              exact .inr ⟨given.2, List.mem_cons_self, hGiven⟩
            · rintro (hNo | ⟨value, hIn, hRejected⟩)
              · cases hNo
              · rcases List.mem_cons.mp hIn with hHead | hTail
                · rw [hHead, ← firstViolation?_eq_some_iff, hViolation] at hRejected
                  exact Option.some.inj hRejected
                · exact absurd ⟨value, hTail, hRejected⟩ hNone
          · rw [if_neg hName]
            refine or_congr_right (exists_congr fun value => ?_)
            rw [List.mem_cons, or_and_right]
            refine (or_iff_right fun h => hName ?_).symm
            exact congrArg Prod.fst h.1

/-! ## What is found against some values -/

section

variable {values : Bindings}

theorem mem_disputed_iff (hProper : ∀ given ∈ values.entries, c.FormsAreProper given)
    {name : String} : name ∈ conflictingNames (values.entries.foldl c.noteConflict .empty) ↔
      ∃ given ∈ values.entries, given.1 = name ∧ c.IsDisputed given := by
  have hNone : name ∉ conflictingNames .empty := List.not_mem_nil
  rw [mem_conflictingNames_foldl, or_iff_left hNone]
  exact exists_congr fun given => and_congr_right fun hGiven =>
    and_congr_right fun _ => (isDisputed_iff (hProper given hGiven)).symm

theorem isEmpty_disputed_iff (hProper : ∀ given ∈ values.entries, c.FormsAreProper given) :
    (values.entries.foldl c.noteConflict .empty).isEmpty = true ↔
      ∀ given ∈ values.entries, ¬ c.IsDisputed given := by
  have hEmpty : (Catalog.empty : Catalog (Catalog Json)).isEmpty = true := rfl
  rw [isEmpty_foldl_noteConflict, and_iff_right hEmpty]
  refine forall₂_congr fun given hGiven => ?_
  rw [isDisputed_iff (hProper given hGiven), not_not]

theorem find?_rejected_iff {name : String} {violation : Violation} :
    (values.entries.foldl c.noteRejection .empty).find? name = some violation ↔
      ∃ value, (name, value) ∈ values.entries ∧ c.IsRejected (name, value) violation := by
  rw [find?_foldl_noteRejection values.distinct fun given hGiven => rfl]
  exact or_iff_right fun h => by cases h

theorem isEmpty_rejected_iff :
    (values.entries.foldl c.noteRejection .empty).isEmpty = true ↔
      ∀ given ∈ values.entries, ∀ violation, ¬ c.IsRejected given violation := by
  constructor
  · intro hEmpty given hGiven violation hIs
    have hEntry := Catalog.find?_eq_some_iff.mp
      (find?_rejected_iff.mpr ⟨given.2, hGiven, hIs⟩)
    rw [List.isEmpty_iff.mp hEmpty] at hEntry
    cases hEntry
  · intro hNone
    refine List.isEmpty_iff.mpr (List.eq_nil_iff_forall_not_mem.mpr ?_)
    rintro ⟨name, violation⟩ hEntry
    obtain ⟨value, hGiven, hIs⟩ := find?_rejected_iff.mp (Catalog.find?_eq_some_iff.mpr hEntry)
    exact hNone _ hGiven violation hIs

theorem map_name_rejections (values : Bindings) (rejected : Catalog Violation) :
    (rejections values rejected).map Rejection.name = rejected.names := by
  rw [rejections, List.map_map]
  rfl

/-- The rejections that are reported are those of the names with a recorded violation. -/
theorem mem_rejections_iff {r : Rejection} :
    r ∈ rejections values (values.entries.foldl c.noteRejection .empty) ↔
      (r.name, r.value) ∈ values.entries ∧ c.IsRejected (r.name, r.value) r.violation := by
  unfold rejections
  rw [List.mem_map]
  constructor
  · rintro ⟨⟨name, violation⟩, hEntry, rfl⟩
    obtain ⟨value, hGiven, hIs⟩ := find?_rejected_iff.mp (Catalog.find?_eq_some_iff.mpr hEntry)
    have hValue : (values.find? name).getD .null = value := by
      rw [Named.find?_eq_some_iff.mpr hGiven, Option.getD_some]
    dsimp only
    rw [hValue]
    exact ⟨hGiven, hIs⟩
  · rintro ⟨hGiven, hIs⟩
    have hFind := find?_rejected_iff.mpr ⟨r.value, hGiven, hIs⟩
    refine ⟨(r.name, r.violation), Catalog.find?_eq_some_iff.mp hFind, ?_⟩
    dsimp only
    rw [Named.find?_eq_some_iff.mpr hGiven, Option.getD_some]

/-- What is kept of values that are neither rejected nor disputed. -/
theorem agreed_kept (hProper : ∀ given ∈ values.entries, c.FormsAreProper given)
    (hAgree : ∀ given ∈ values.entries, ¬ c.IsDisputed given)
    (hAccepted : ∀ given ∈ values.entries, ∀ violation, ¬ c.IsRejected given violation) :
    List.Forall₂ c.IsAgreed values.entries (values.entries.filterMap c.kept?) := by
  have hEach : ∀ given ∈ values.entries,
      ∃ kept, c.kept? given = some kept ∧ c.IsAgreed given kept := by
    intro given hGiven
    refine exists_isAgreed (hProper given hGiven) ?_ ?_
    · refine Option.eq_none_iff_forall_ne_some.mpr fun violation hViolation => ?_
      exact hAccepted given hGiven violation (firstViolation?_eq_some_iff.mp hViolation)
    · have hNot := hAgree given hGiven
      rwa [isDisputed_iff (hProper given hGiven), not_not] at hNot
  clear hProper hAgree hAccepted
  generalize values.entries = entries at hEach
  induction entries with
  | nil => exact .nil
  | cons given rest ih =>
      obtain ⟨⟨kept, hKept, hAgreed⟩, hRest⟩ := List.forall_mem_cons.mp hEach
      rw [List.filterMap_cons_some hKept]
      exact .cons hAgreed (ih hRest)

end

end Contract

end Storyline
