import Storyline.Proofs.Coercion
import Storyline.Proofs.Findings
import Storyline.Proofs.Sources

/-!
# How values are judged

A check runs the validators of all names before it says anything. What it says is decided in a fixed
order: names on which validators disagree come first, then names that are rejected, and only if
there are none of both are the values kept (`Contract.Decides`). `Contract.checks_decided` is the
exact form of this for the two checks, with the names that each of them turns down beforehand.

All this is about values whose objects have distinct names. The kinds of fields keep values so
(`Field.keepsProper_ofKind`).
-/

set_option autoImplicit false

namespace Storyline

namespace Contract

variable {c : Contract}

open ContractError (conflictingNames)

/-! ## What is decided -/

/-- What a check of values comes to, given how it reports rejected values. -/
inductive Decides (c : Contract) (values : Bindings)
    (invalid : List Rejection → String → ContractError) : Except ContractError Bindings → Prop where
  /-- Some names are disputed: these are reported, in alphabetic order, whatever is rejected. -/
  | disputed {results : Catalog (Catalog Json)} :
      (∃ given ∈ values.entries, c.IsDisputed given) →
      (∀ name, name ∈ conflictingNames results ↔
        ∃ given ∈ values.entries, given.1 = name ∧ c.IsDisputed given) →
      (conflictingNames results).Pairwise (· < ·) →
      Decides c values invalid
        (.error (.normalizationConflict results (c.excerpt (conflictingNames results))))
  /-- No name is disputed, but some are rejected: these are reported, in alphabetic order. -/
  | rejected {rejected : List Rejection} :
      (∀ given ∈ values.entries, ¬ c.IsDisputed given) →
      (∃ given ∈ values.entries, ∃ violation, c.IsRejected given violation) →
      (∀ r, r ∈ rejected ↔
        (r.name, r.value) ∈ values.entries ∧ c.IsRejected (r.name, r.value) r.violation) →
      (rejected.map Rejection.name).Pairwise (· < ·) →
      Decides c values invalid
        (.error (invalid rejected (c.excerpt (rejected.map Rejection.name))))
  /-- No name is disputed or rejected: all are kept, in order. -/
  | kept {kept : Bindings} :
      (∀ given ∈ values.entries, ¬ c.IsDisputed given ∧
        ∀ violation, ¬ c.IsRejected given violation) →
      List.Forall₂ c.IsAgreed values.entries kept.entries →
      Decides c values invalid (.ok kept)

/-- What a check of the arguments of a call comes to. -/
inductive DecidesCall (c : Contract) (values : Bindings) :
    Except ContractError Bindings → Prop where
  /-- Some names are no arguments: these are reported, in alphabetic order. -/
  | unknown {unknown : List String} :
      unknown ≠ [] →
      (∀ name, name ∈ unknown ↔ name ∈ values.names ∧ name ∉ c.argumentNames) →
      unknown.Pairwise (· < ·) →
      DecidesCall c values (.error (.unknownArguments unknown c.story c.display))
  | unchecked :
      (∀ name ∈ values.names, name ∈ c.argumentNames) → c.isNull = true →
      DecidesCall c values (.ok values)
  | checked {result : Except ContractError Bindings} :
      (∀ name ∈ values.names, name ∈ c.argumentNames) → c.isNull = false →
      c.Decides values (fun rejected excerpt => .invalidArguments rejected c.story excerpt) result →
      DecidesCall c values result

/-- What a check of the values that a step set comes to. -/
inductive DecidesOutput (c : Contract) (step : String) (ctx : Context) (values : Bindings) :
    Except ContractError Bindings → Prop where
  /-- The first name that is set already is reported. -/
  | override {name : String} :
      IsFirst (· ∈ ctx.names) values.names name →
      DecidesOutput c step ctx values (.error (.variableOverride name step ctx.display))
  | unchecked :
      (∀ name ∈ values.names, name ∉ ctx.names) → c.isNull = true →
      DecidesOutput c step ctx values (.ok values)
  /-- With a schema, the first name that is neither a variable nor an argument is reported. -/
  | unknown {name : String} :
      (∀ name ∈ values.names, name ∉ ctx.names) → c.isNull = false →
      IsFirst (fun name => name ∉ c.ownVariables.names ∧ name ∉ c.argumentNames) values.names name →
      DecidesOutput c step ctx values (.error (.unknownVariable name step c.display))
  | checked {result : Except ContractError Bindings} :
      (∀ name ∈ values.names, name ∉ ctx.names) → c.isNull = false →
      (∀ name ∈ values.names, name ∈ c.ownVariables.names ∨ name ∈ c.argumentNames) →
      c.Decides values (fun rejected excerpt => .invalidVariable rejected step excerpt) result →
      DecidesOutput c step ctx values result

/-- What validators find against some values decides the check. -/
theorem validate_decides {values : Bindings} (invalid : List Rejection → String → ContractError)
    (hFields : ∀ given ∈ values.entries, ∀ v ∈ c.validatorsOf given.1, v.2.KeepsProper)
    (hValues : ∀ given ∈ values.entries, given.2.IsProper) :
    c.Decides values invalid (c.validate values invalid) := by
  have hProper : ∀ given ∈ values.entries, c.FormsAreProper given :=
    fun given hGiven v hv form hForm =>
      hFields given hGiven v hv given.2 form (hValues given hGiven) hForm
  unfold validate
  rw [findings_eq]
  dsimp only
  cases hConflict : (values.entries.foldl c.noteConflict .empty).isEmpty with
  | false =>
      rw [Bool.not_false, if_pos rfl]
      refine .disputed ?_ (fun name => mem_disputed_iff hProper)
        (List.pairwise_map.mpr (Catalog.sorted _))
      have hSome := (isEmpty_disputed_iff hProper).not.mp (Bool.eq_false_iff.mp hConflict)
      push Not at hSome
      exact hSome
  | true =>
      have hAgree := (isEmpty_disputed_iff hProper).mp hConflict
      rw [Bool.not_true, if_neg Bool.false_ne_true]
      cases hRejected : (values.entries.foldl c.noteRejection .empty).isEmpty with
      | false =>
          have hSome := isEmpty_rejected_iff.not.mp (Bool.eq_false_iff.mp hRejected)
          push Not at hSome
          have hNames := map_name_rejections values (values.entries.foldl c.noteRejection .empty)
          rw [Bool.not_false, if_pos rfl, ← hNames]
          refine .rejected hAgree hSome (fun r => mem_rejections_iff) ?_
          rw [hNames]
          exact List.pairwise_map.mpr (Catalog.sorted _)
      | true =>
          have hAccepted := isEmpty_rejected_iff.mp hRejected
          rw [Bool.not_true, if_neg Bool.false_ne_true]
          refine .kept (fun given hGiven => ⟨hAgree given hGiven, hAccepted given hGiven⟩) ?_
          have hDistinct := c.nodup_kept values
          rw [findings_eq] at hDistinct
          rw [Named.entries_ofList hDistinct]
          exact agreed_kept hProper hAgree hAccepted

theorem checkCall_decides {values : Bindings}
    (hFields : ∀ given ∈ values.entries, ∀ v ∈ c.validatorsOf given.1, v.2.KeepsProper)
    (hValues : ∀ given ∈ values.entries, given.2.IsProper) :
    c.DecidesCall values (c.checkCall values) := by
  have hUnknown : ∀ name, name ∈ (values.names.filter fun name => !c.sources.contains name) ↔
      name ∈ values.names ∧ name ∉ c.argumentNames := by
    intro name
    rw [List.mem_filter, Bool.not_eq_true', ← Bool.not_eq_true, c.sources.contains_iff]
    rfl
  unfold checkCall
  split
  · next hNone =>
    have hKnown : ∀ name ∈ values.names, name ∈ c.argumentNames := by
      intro name hName
      refine not_not.mp fun hNot => ?_
      have hIn := (hUnknown name).mpr ⟨hName, hNot⟩
      rw [hNone] at hIn
      cases hIn
    cases hNull : c.isNull with
    | true => exact .unchecked hKnown hNull
    | false => exact .checked hKnown hNull (validate_decides _ hFields hValues)
  · next hSome =>
    set unknown := values.names.filter fun name => !c.sources.contains name
    refine .unknown (fun hNil => hSome (sortNames_eq_nil_iff.mp hNil)) (fun name => ?_) ?_
    · rw [(perm_sortNames unknown).mem_iff, hUnknown]
    · exact pairwise_lt_sortNames (List.Pairwise.filter _ values.distinct)

theorem checkOutput_decides {values : Bindings}
    (hFields : ∀ given ∈ values.entries, ∀ v ∈ c.validatorsOf given.1, v.2.KeepsProper)
    (hValues : ∀ given ∈ values.entries, given.2.IsProper) (step : String) (ctx : Context) :
    c.DecidesOutput step ctx values (c.checkOutput step ctx values) := by
  have hSet : ∀ name, ctx.contains name = true ↔ name ∈ ctx.names := by
    intro name
    simp [Context.contains]
  have hAdmits : ∀ name, (!c.admits name) = true ↔
      name ∉ c.ownVariables.names ∧ name ∉ c.argumentNames := by
    intro name
    rw [admits, Bool.not_or, Bool.and_eq_true, Bool.not_eq_true', Bool.not_eq_true',
      ← Bool.not_eq_true, ← Bool.not_eq_true, Catalog.contains_iff, Catalog.contains_iff]
    rfl
  unfold checkOutput
  split
  · next name hName => exact .override (isFirst_of_find? hSet hName)
  next hNew =>
  have hFresh := forall_not_of_find? hSet hNew
  cases hNull : c.isNull with
  | true => exact .unchecked hFresh hNull
  | false =>
      rw [if_neg Bool.false_ne_true]
      split
      · next name hName => exact .unknown hFresh hNull (isFirst_of_find? hAdmits hName)
      · next hKnown =>
        refine .checked hFresh hNull (fun name hName => ?_) (validate_decides _ hFields hValues)
        have hNot := forall_not_of_find? hAdmits hKnown name hName
        tauto

/-- **The two checks, exactly.** A check first turns down names: that of a call all names that are
no arguments, that of a step the first name that is set already and then, with a schema, the first
that is neither a variable nor an argument. Without a schema the values pass as they are. With a
schema they are judged by their validators, which are those that are registered. -/
theorem checks_decided {values : Bindings}
    (hFields : ∀ given ∈ values.entries, ∀ v ∈ c.validatorsOf given.1, v.2.KeepsProper)
    (hValues : ∀ given ∈ values.entries, given.2.IsProper) :
    c.DecidesCall values (c.checkCall values) ∧
    (∀ step ctx, c.DecidesOutput step ctx values (c.checkOutput step ctx values)) ∧
    ((∀ name ∈ c.ownVariables.names, name ∈ c.declared.names) →
      ∀ name, (c.validatorsOf name).map Prod.snd = c.registered name) :=
  ⟨checkCall_decides hFields hValues, checkOutput_decides hFields hValues, map_validatorsOf⟩

end Contract

/-! ## Kinds -/

/-- The form in which a kind keeps a proper value is proper. -/
theorem Kind.isProper_coerce {kind : Kind} {raw form : Json} (hRaw : raw.IsProper)
    (h : kind.coerce raw = .ok form) : form.IsProper := by
  induction kind, raw using induction_items generalizing form with
  | stop kind raw hStop =>
      rcases form_cases hStop h with rfl | ⟨-, b, rfl⟩ | ⟨-, i, -, rfl⟩ | ⟨-, x, rfl⟩
      · exact hRaw
      · trivial
      · trivial
      · trivial
  | items item items ih =>
      obtain ⟨forms, rfl, hForms⟩ := coerce_items_eq_ok_iff.mp h
      refine Json.isProper_array_iff.mpr fun form hForm => ?_
      obtain ⟨v, hv, hCoerce⟩ := exists_coerce_of_mem hForms hForm
      exact ih v hv (Json.isProper_array_iff.mp hRaw v hv) hCoerce

theorem Field.keepsProper_ofKind (kind : Kind) (check : Json → Except String Unit) :
    (Field.ofKind kind check).KeepsProper :=
  fun _ _ hRaw hForm => Kind.isProper_coerce hRaw (validate_ofKind_eq_ok_iff.mp hForm).1

namespace Reception

/-- A field of some kind. -/
def field (kind : Kind) : Field := .ofKind kind fun _ => .ok ()

def spec (identity : Nat) (fields : List (String × Kind)) : Spec where
  identity
  family := .schema
  name := "Guests"
  fields := .ofList (fields.map fun (name, kind) => (name, field kind))

/-- Guests arrive with an age of any kind, and a room. -/
def arrive : Contract :=
  .ofSpec ⟨"Reception", "arrive"⟩ ["age", "room"] (spec 0 [("age", .any), ("room", .integer)])

/-- They are registered with a number as their age. -/
def register : Contract :=
  .ofSpec ⟨"Reception", "register"⟩ ["age"] (spec 1 [("age", .integer)])

def both : Contract := ((arrive.combine register).toOption.get rfl).1

def values : Bindings := .ofList [("room", .string "first"), ("age", .string "7")]

/-- The two stories keep the age in different forms, which is reported, and the room is rejected,
which is not. -/
theorem disputed_age :
    both.DecidesCall values (both.checkCall values) ∧
    ∃ results shown, both.checkCall values = .error (.normalizationConflict results shown) ∧
      ContractError.conflictingNames results = ["age"] := by
  have hValidators : ∀ given ∈ values.entries, ∀ v ∈ both.validatorsOf given.1,
      ∃ kind, v.2 = field kind := by
    intro given hGiven v hv
    rcases List.mem_pair.mp hGiven with rfl | rfl
    · obtain rfl := List.mem_singleton.mp hv
      exact ⟨.integer, rfl⟩
    · rcases List.mem_pair.mp hv with rfl | rfl
      · exact ⟨.any, rfl⟩
      · exact ⟨.integer, rfl⟩
  have hFields : ∀ given ∈ values.entries, ∀ v ∈ both.validatorsOf given.1, v.2.KeepsProper := by
    intro given hGiven v hv
    obtain ⟨kind, hKind⟩ := hValidators given hGiven v hv
    exact hKind ▸ Field.keepsProper_ofKind kind _
  have hValues : ∀ given ∈ values.entries, given.2.IsProper := by
    intro given hGiven
    rcases List.mem_pair.mp hGiven with rfl | rfl
    · trivial
    · trivial
  exact ⟨(Contract.checks_decided hFields hValues).1, _, _, rfl, rfl⟩

end Reception

end Storyline
