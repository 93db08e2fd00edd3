import Storyline.Proofs.EntryPoints
import Storyline.Proofs.Names

/-!
# The order of arguments

Whoever calls a story names its arguments in some order. No entry point depends on it
(`Mounted.entryPoints_perm`): the context has them in alphabetic order, and what a check finds
against them is kept in tables, to which every argument adds under its own name
(`Contract.findings_perm`).
-/

set_option autoImplicit false

namespace Storyline

variable {β : Type}

namespace Contract

/-! ## What each name adds to the findings -/

variable (c : Contract)

/-- Add the rejection of a value to those of other names, if its validators reject it. -/
def noteRejection (rejected : Catalog Violation) (given : String × Json) : Catalog Violation :=
  match firstViolation? (c.validatorsOf given.1) given.2 with
  | some violation => rejected.insertNew given.1 violation
  | none => rejected

/-- Add the conflicts about a value to those about other names. -/
def noteConflict (conflict : Catalog (Catalog Json)) (given : String × Json) :
    Catalog (Catalog Json) :=
  recordConflict conflict given.1 (accepted (c.validatorsOf given.1) given.2)

/-- What is kept of a name with a value, if its validators do not reject it. -/
def kept? (given : String × Json) : Option (String × Json) :=
  match firstViolation? (c.validatorsOf given.1) given.2 with
  | some _ => none
  | none =>
    some (given.1, (((accepted (c.validatorsOf given.1) given.2).head?).map Prod.snd).getD given.2)

theorem judge_eq (v : Findings) (given : String × Json) :
    c.judge v given =
      ⟨v.kept ++ (c.kept? given).toList, c.noteRejection v.rejected given,
        c.noteConflict v.conflict given⟩ := by
  unfold judge kept? noteRejection noteConflict
  dsimp only
  cases firstViolation? (c.validatorsOf given.1) given.2 with
  | some violation => simp
  | none => cases accepted (c.validatorsOf given.1) given.2 <;> rfl

/-- The findings of some values, in three parts that know nothing of each other. -/
theorem findings_eq (values : Bindings) :
    c.findings values =
      ⟨values.entries.filterMap c.kept?, values.entries.foldl c.noteRejection .empty,
        values.entries.foldl c.noteConflict .empty⟩ := by
  have hFold : ∀ (list : List (String × Json)) (v : Findings),
      list.foldl c.judge v =
        ⟨v.kept ++ list.filterMap c.kept?, list.foldl c.noteRejection v.rejected,
          list.foldl c.noteConflict v.conflict⟩ := by
    intro list
    induction list with
    | nil => simp
    | cons given rest ih =>
        intro v
        rw [List.foldl_cons, ih, judge_eq, List.foldl_cons, List.foldl_cons, List.filterMap_cons]
        cases c.kept? given <;> simp
  exact hFold values.entries _

/-! ## Different names add in either order -/

theorem noteRejection_comm (rejected : Catalog Violation) {a b : String × Json} (h : a.1 ≠ b.1) :
    c.noteRejection (c.noteRejection rejected a) b =
      c.noteRejection (c.noteRejection rejected b) a := by
  unfold noteRejection
  cases firstViolation? (c.validatorsOf a.1) a.2 with
  | none => rfl
  | some first =>
      cases firstViolation? (c.validatorsOf b.1) b.2 with
      | none => rfl
      | some second => exact rejected.insertNew_comm first second h

theorem find?_recordForm (conflict : Catalog (Catalog Json)) (name : String)
    (form : StoryName × Json) (story : String) :
    (recordForm conflict name form).find? story =
      if story = form.1.qualified then
        some (((conflict.find? story).getD .empty).insert name form.2)
      else conflict.find? story := by
  rw [recordForm, Catalog.find?_insert]
  by_cases hStory : story = form.1.qualified
  · simp [hStory]
  · simp [hStory]

/-- Forms of different names are recorded in either order, also if they are forms of one story. -/
theorem recordForm_comm (conflict : Catalog (Catalog Json)) {a b : String} (h : a ≠ b)
    (x y : StoryName × Json) :
    recordForm (recordForm conflict a x) b y = recordForm (recordForm conflict b y) a x := by
  refine Catalog.ext_find? fun story => ?_
  simp only [find?_recordForm]
  by_cases hFirst : story = x.1.qualified
  · by_cases hSecond : story = y.1.qualified
    · have hInner := ((conflict.find? story).getD .empty).insert_comm x.2 y.2 h
      simp [← hFirst, ← hSecond, hInner]
    · simp [← hFirst, hSecond]
  · simp [hFirst]

/-- What leaves the record of one form the same can be done before or after that of all forms. -/
theorem recordConflict_hom {f : Catalog (Catalog Json) → Catalog (Catalog Json)} {name : String}
    (h : ∀ conflict form, recordForm (f conflict) name form = f (recordForm conflict name form))
    (conflict : Catalog (Catalog Json)) (forms : List (StoryName × Json)) :
    recordConflict (f conflict) name forms = f (recordConflict conflict name forms) := by
  cases forms with
  | nil => rfl
  | cons first others =>
      refine List.foldl_hom f fun conflict other => ?_
      rw [h, h]

theorem recordConflict_comm (conflict : Catalog (Catalog Json)) {a b : String} (h : a ≠ b)
    (xs ys : List (StoryName × Json)) :
    recordConflict (recordConflict conflict a xs) b ys =
      recordConflict (recordConflict conflict b ys) a xs := by
  -- first one form of `a` past all forms of `b`, then all forms of `a`
  have hOne : ∀ conflict form,
      recordForm (recordConflict conflict b ys) a form =
        recordConflict (recordForm conflict a form) b ys := by
    intro conflict form
    exact (recordConflict_hom (f := fun conflict => recordForm conflict a form)
      (fun conflict other => recordForm_comm conflict h form other) conflict ys).symm
  exact (recordConflict_hom (f := fun conflict => recordConflict conflict b ys) hOne conflict
    xs).symm

/-- Adding the parts of distinct names comes to the same in any order. -/
theorem foldl_eq_of_perm {α : Type} {note : α → String × Json → α}
    (hComm : ∀ found a b, a.1 ≠ b.1 → note (note found a) b = note (note found b) a)
    {given given' : Bindings} (h : given.entries.Perm given'.entries) (start : α) :
    given.entries.foldl note start = given'.entries.foldl note start := by
  refine h.foldl_eq' (fun a ha b hb found => ?_) start
  by_cases hName : a.1 = b.1
  · -- one name stands for one entry
    have hValue : a.2 = b.2 := by
      have hFirst := Named.find?_eq_some_iff.mpr ha
      have hSecond := Named.find?_eq_some_iff.mpr hb
      rw [hName, hSecond] at hFirst
      exact (Option.some.inj hFirst).symm
    have hSame : a = b := Prod.ext hName hValue
    rw [hSame]
  · exact hComm found a b hName

/-- **The findings do not depend on the order of names**, but for the order of what is kept. -/
theorem findings_perm {given given' : Bindings} (h : given.entries.Perm given'.entries) :
    (c.findings given).kept.Perm (c.findings given').kept ∧
      (c.findings given).rejected = (c.findings given').rejected ∧
      (c.findings given).conflict = (c.findings given').conflict := by
  rw [findings_eq, findings_eq]
  refine ⟨h.filterMap c.kept?, ?_, ?_⟩
  · exact foldl_eq_of_perm (fun found a b => c.noteRejection_comm found) h .empty
  · exact foldl_eq_of_perm (fun found a b hName => recordConflict_comm found hName _ _) h .empty

/-! ## Checks -/

/-- Names are kept at most once, as they are given once. -/
theorem nodup_kept (values : Bindings) : ((c.findings values).kept.map Prod.fst).Nodup := by
  rw [findings_eq]
  have hSub : ∀ list : List (String × Json),
      ((list.filterMap c.kept?).map Prod.fst).Sublist (list.map Prod.fst) := by
    intro list
    induction list with
    | nil => exact .slnil
    | cons given rest ih =>
        have hHead : ∀ kept, c.kept? given = some kept → kept.1 = given.1 := by
          intro kept hKept
          unfold kept? at hKept
          split at hKept
          · cases hKept
          · rw [← Option.some.inj hKept]
        rw [List.filterMap_cons]
        cases hKept : c.kept? given with
        | none => exact ih.cons given.1
        | some kept =>
            rw [List.map_cons, List.map_cons, hHead kept hKept]
            exact ih.cons_cons given.1
  exact (hSub values.entries).nodup values.distinct

theorem rejections_eq_of_perm {given given' : Bindings} (h : given.entries.Perm given'.entries)
    (rejected : Catalog Violation) : rejections given rejected = rejections given' rejected := by
  unfold rejections
  simp only [Named.find?_eq_of_perm h]

/-- Two checks of values come out alike: with the same values, perhaps in another order, or with the
same error. -/
def Alike (x y : Except ContractError Bindings) : Prop :=
  (∃ kept kept' : Bindings, x = .ok kept ∧ y = .ok kept' ∧ kept.entries.Perm kept'.entries) ∨
    ∃ cause, x = .error cause ∧ y = .error cause

theorem validate_perm {given given' : Bindings} (h : given.entries.Perm given'.entries)
    (invalid : List Rejection → String → ContractError) :
    Alike (c.validate given invalid) (c.validate given' invalid) := by
  obtain ⟨hKept, hRejected, hConflict⟩ := c.findings_perm h
  unfold validate
  dsimp only
  rw [← hRejected, ← hConflict, ← rejections_eq_of_perm h]
  split
  · exact .inr ⟨_, rfl, rfl⟩
  · split
    · exact .inr ⟨_, rfl, rfl⟩
    · refine .inl ⟨_, _, rfl, rfl, ?_⟩
      rw [Named.entries_ofList (c.nodup_kept given), Named.entries_ofList (c.nodup_kept given')]
      exact hKept

/-- **The arguments of a call are checked alike in any order**, and if they are rejected the error
is the same, whatever is found against them. -/
theorem checkCall_perm {given given' : Bindings} (h : given.entries.Perm given'.entries) :
    Alike (c.checkCall given) (c.checkCall given') := by
  have hUnknown : (given.names.filter fun name => !c.sources.contains name).Perm
      (given'.names.filter fun name => !c.sources.contains name) := (h.map Prod.fst).filter _
  unfold checkCall
  cases hGiven : given.names.filter fun name => !c.sources.contains name with
  | nil =>
      rw [hGiven] at hUnknown
      rw [hUnknown.nil_eq.symm]
      dsimp only
      split
      · exact .inl ⟨given, given', rfl, rfl, h⟩
      · exact c.validate_perm h _
  | cons first rest =>
      rw [hGiven] at hUnknown
      -- unknown names are sorted before they are reported
      have hSorted := sortNames_eq_of_perm hUnknown
      cases hGiven' : given'.names.filter fun name => !c.sources.contains name with
      | nil =>
          rw [hGiven'] at hUnknown
          cases hUnknown.eq_nil
      | cons first' rest' =>
          rw [hGiven'] at hSorted
          dsimp only
          rw [hSorted]
          exact .inr ⟨_, rfl, rfl⟩

end Contract

/-! ## Invocations -/

/-- The context a run begins with depends on the values of names, not on their order. -/
theorem Plan.initialContext_perm (plan : Plan β) (width : Nat) {values values' : Bindings}
    (h : values.entries.Perm values'.entries) :
    plan.initialContext width values' = plan.initialContext width values := by
  unfold initialContext
  simp only [Named.find?_eq_of_perm h]

theorem Plan.invoke_perm (plan : Plan β) (perform : β → Context → Reply) (calling : Calling)
    (width : Nat) {given given' : Bindings} (h : given.entries.Perm given'.entries) :
    plan.invoke perform calling width given' = plan.invoke perform calling width given := by
  unfold invoke
  rcases plan.root.checkCall_perm h with
    ⟨kept, kept', hKept, hKept', hPerm⟩ | ⟨cause, hError, hError'⟩
  · rw [hKept, hKept']
    dsimp only
    rw [plan.initialContext_perm width hPerm]
  · rw [hError, hError']

namespace Mounted

variable (m : Mounted β) (perform : β → Context → Reply) (calling : Calling)

theorem invoke_perm {given given' : Bindings} (h : given.entries.Perm given'.entries) :
    m.invoke perform calling given' = m.invoke perform calling given := by
  unfold invoke
  rw [m.plan.invoke_perm perform calling _ h]

/-- **All entry points do the same for arguments in any order**: the invocation is the same, with
the context that every step sees, its result or its error, and all that happens in it. -/
theorem entryPoints_perm {given given' : List (String × Json)}
    (hDistinct : (given.map Prod.fst).Nodup) (h : given.Perm given') :
    m.invoke perform calling (.ofList given') = m.invoke perform calling (.ofList given) ∧
      m.call perform calling (.ofList given') = m.call perform calling (.ofList given) ∧
      m.run perform calling (.ofList given') = m.run perform calling (.ofList given) := by
  have hDistinct' : (given'.map Prod.fst).Nodup := (h.map Prod.fst).nodup_iff.mp hDistinct
  have hEntries : (Named.ofList given).entries.Perm (Named.ofList given').entries := by
    rw [Named.entries_ofList hDistinct, Named.entries_ofList hDistinct']
    exact h
  have hInvoke := m.invoke_perm perform calling hEntries
  exact ⟨hInvoke, answer_congr hInvoke _, answer_congr hInvoke _⟩

end Mounted

/-! ## An example

A guest stays at an inn for some nights, and both are checked. -/

namespace Inn

open Shop (Body answer)

/-- A guest is a text, and nights are a number. -/
def booking : Spec where
  identity := 1
  family := .raw
  name := "Booking"
  fields := .ofList
    [("nights", ⟨"a number", fun
      | .number n => .ok (.number n)
      | _ => .error (.because "not a number")⟩),
    ("guest", ⟨"a name", fun
      | .string s => .ok (.string s)
      | _ => .error (.because "not a name")⟩)]

def stay : Story where
  name := ⟨"Inn", "stay"⟩
  arguments := ["nights", "guest"]
  collected := [.step "greet"]
  spec := some booking
  failures := none

def greet : Step Body where
  name := "greet"
  owner := "Inn"
  mode := .function
  body := .ok (.result (.string "welcome"))

def cast : Cast Body :=
  .ofList [("inn", { className := "Inn", members := .ofList [("greet", .step greet)] })]

def staying : Mounted Body := { plan := (Plan.compile cast stay "inn").toOption.get rfl }

/-- A booking, the guest first. -/
def accepted : List (String × Json) := [("guest", .string "Ann"), ("nights", .nat 2)]

/-- A booking with two mistakes, the guest first. -/
def mistaken : List (String × Json) := [("guest", .null), ("nights", .string "two")]

/-- Who is at the inn, and what is wrong with a booking, does not depend on what is said first. -/
theorem booked :
    (staying.run answer .blocking (.ofList accepted)).result.toOption.map
        (fun summary => summary.ctx.names) = some ["guest", "nights"] ∧
      staying.run answer .blocking (.ofList accepted.reverse) =
        staying.run answer .blocking (.ofList accepted) ∧
      (∃ rejected contract, staying.call answer .blocking (.ofList mistaken) =
          ⟨.error (.contract (.invalidArguments rejected stay.name contract)), []⟩ ∧
        rejected.map Rejection.name = ["guest", "nights"]) ∧
      staying.call answer .blocking (.ofList mistaken.reverse) =
        staying.call answer .blocking (.ofList mistaken) := by
  have hAccepted : accepted.Perm accepted.reverse := .swap _ _ _
  have hMistaken : mistaken.Perm mistaken.reverse := .swap _ _ _
  obtain ⟨-, -, hRun⟩ := staying.entryPoints_perm answer .blocking (by decide) hAccepted
  obtain ⟨-, hCall, -⟩ := staying.entryPoints_perm answer .blocking (by decide) hMistaken
  exact ⟨rfl, hRun, ⟨_, _, rfl, rfl⟩, hCall⟩

end Inn

end Storyline
