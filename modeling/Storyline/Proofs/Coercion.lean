import Storyline.Proofs.Names
import Storyline.Schema.Spec

/-!
# Coerced values

Coercing goes down into lists as far as the kind and the value are lists both, and where it stops a
value either has a form or is rejected with one message (`Kind.induction_items`,
`Kind.exists_because`). A list has a form when all items have one (`Kind.coerce_items_eq_ok_iff`).

A form is of its kind already, so that coercing it again changes nothing (`Kind.coerce_coerce`), and
neither does validating it again (`Spec.validate_validate`).
-/

set_option autoImplicit false

namespace Storyline

namespace Kind

/-! ## Kinds along values -/

/-- Whether a value is coerced as a whole: the kind asks for no list, or it is none. -/
def StopsAt : Kind → Json → Prop
  | .list _, .array _ => False
  | _, _ => True

/-- What holds where coercing stops, and of a list if it holds of its items, holds of all values. -/
@[elab_as_elim]
theorem induction_items {motive : Kind → Json → Prop}
    (stop : ∀ kind v, kind.StopsAt v → motive kind v)
    (items : ∀ item items, (∀ v ∈ items, motive item v) → motive (.list item) (.array items))
    (kind : Kind) (v : Json) : motive kind v := by
  induction kind generalizing v with
  | list item ih =>
      cases v with
      | array vs => exact items item vs fun v _ => ih v
      | _ => exact stop _ _ trivial
  | _ => exact stop _ _ trivial

theorem coerce_items (item : Kind) (items : List Json) :
    (list item).coerce (.array items) = gather (items.map item.coerce) := rfl

theorem eq_because_of_orViolation {message : String} {found : Option Json} {violation : Violation}
    (h : orViolation message found = .error violation) : violation = .because message := by
  cases found with
  | none => exact (Except.error.inj h).symm
  | some form => cases h

/-- Where coercing stops, a value is rejected with one message. -/
theorem exists_because {kind : Kind} {v : Json} (hStop : kind.StopsAt v) {violation : Violation}
    (h : kind.coerce v = .error violation) : ∃ message, violation = .because message := by
  cases kind with
  | any => cases h
  | boolean | integer | float =>
      cases v with
      | null => exact ⟨_, (Except.error.inj h).symm⟩
      | _ => exact ⟨_, eq_because_of_orViolation h⟩
  | string =>
      cases v with
      | string text => cases h
      | _ => exact ⟨_, (Except.error.inj h).symm⟩
  | list item =>
      cases v with
      | array items => exact hStop.elim
      | _ => exact ⟨_, (Except.error.inj h).symm⟩
  | map =>
      cases v with
      | object fields => cases h
      | _ => exact ⟨_, (Except.error.inj h).symm⟩

/-! ## Lists -/

/-- The messages of a result. -/
def reports : Except Violation Json → List String
  | .ok _ => []
  | .error violation => violation.messages

theorem complaints_eq (results : List (Except Violation Json)) :
    complaints results = results.zipIdx.flatMap fun (result, index) =>
      (reports result).map fun message => toString index ++ ": " ++ message := by
  rw [complaints, List.flatMap_def]
  congr 2
  funext ⟨result, index⟩
  cases result with
  | ok form => rfl
  | error violation => rfl

theorem reports_gather (results : List (Except Violation Json)) :
    reports (gather results) = complaints results := by
  unfold gather
  split
  · next hNone => exact hNone.symm
  · rfl

/-- No value is rejected without a message. -/
theorem messages_ne_nil {kind : Kind} {v : Json} {violation : Violation}
    (h : kind.coerce v = .error violation) : violation.messages ≠ [] := by
  induction kind, v using induction_items with
  | stop kind v hStop =>
      obtain ⟨message, rfl⟩ := exists_because hStop h
      exact List.cons_ne_nil _ _
  | items item items =>
      rw [coerce_items, gather] at h
      split at h
      · cases h
      · next hSome =>
        obtain rfl := Except.error.inj h
        exact hSome

theorem reports_coerce_eq_nil_iff {kind : Kind} {v : Json} :
    reports (kind.coerce v) = [] ↔ ∃ form, kind.coerce v = .ok form := by
  cases hForm : kind.coerce v with
  | ok form => simp [reports]
  | error violation => simp [reports, messages_ne_nil hForm]

/-- There is nothing to complain about if all items have forms. -/
theorem complaints_eq_nil_iff {results : List (Except Violation Json)} :
    complaints results = [] ↔ ∀ result ∈ results, reports result = [] := by
  rw [complaints_eq]
  simp only [List.flatMap_eq_nil_iff, List.map_eq_nil_iff]
  constructor
  · intro h result hResult
    rw [← List.zipIdx_map_fst 0 results] at hResult
    obtain ⟨pair, hPair, rfl⟩ := List.mem_map.mp hResult
    exact h pair hPair
  · intro h pair hPair
    exact h pair.1 (List.fst_mem_of_mem_zipIdx hPair)

theorem gather_map_ok (forms : List Json) : gather (forms.map .ok) = .ok (.array forms) := by
  have hNone : complaints (forms.map .ok) = [] := by
    refine complaints_eq_nil_iff.mpr fun result hResult => ?_
    obtain ⟨form, -, rfl⟩ := List.mem_map.mp hResult
    rfl
  have hForms : (forms.map (@Except.ok Violation Json)).filterMap Except.toOption = forms := by
    rw [List.filterMap_map]
    exact List.filterMap_some
  unfold gather
  rw [hNone, hForms]

theorem exists_map_ok {results : List (Except Violation Json)}
    (h : ∀ result ∈ results, ∃ form, result = .ok form) :
    ∃ forms : List Json, results = forms.map .ok := by
  induction results with
  | nil => exact ⟨[], rfl⟩
  | cons result rest ih =>
      obtain ⟨⟨form, rfl⟩, hRest⟩ := List.forall_mem_cons.mp h
      obtain ⟨forms, rfl⟩ := ih hRest
      exact ⟨form :: forms, rfl⟩

/-- A list has the list of the forms of its items as its form, if they all have one. -/
theorem coerce_items_eq_ok_iff {item : Kind} {items : List Json} {form : Json} :
    (list item).coerce (.array items) = .ok form ↔
      ∃ forms, form = .array forms ∧ items.map item.coerce = forms.map .ok := by
  constructor
  · intro h
    -- an item without a form would leave a message
    have hNone : complaints (items.map item.coerce) = [] := by
      rw [← reports_gather, ← coerce_items, h]
      rfl
    have hItems : ∀ result ∈ items.map item.coerce, ∃ form, result = .ok form := by
      intro result hResult
      obtain ⟨v, -, rfl⟩ := List.mem_map.mp hResult
      exact reports_coerce_eq_nil_iff.mp (complaints_eq_nil_iff.mp hNone _ hResult)
    obtain ⟨forms, hForms⟩ := exists_map_ok hItems
    rw [coerce_items, hForms, gather_map_ok] at h
    exact ⟨forms, (Except.ok.inj h).symm, hForms⟩
  · rintro ⟨forms, rfl, hForms⟩
    rw [coerce_items, hForms, gather_map_ok]

/-- The forms of items are forms of some of them. -/
theorem exists_coerce_of_mem {item : Kind} {items forms : List Json}
    (h : items.map item.coerce = forms.map .ok) {form : Json} (hForm : form ∈ forms) :
    ∃ v ∈ items, item.coerce v = .ok form := by
  have hMem : .ok form ∈ items.map item.coerce := h ▸ List.mem_map_of_mem hForm
  exact List.mem_map.mp hMem

/-! ## Forms of forms -/

theorem orViolation_map_eq_ok {α : Type} {message : String} {found : Option α} {toJson : α → Json}
    {form : Json} (h : orViolation message (found.map toJson) = .ok form) :
    ∃ a, found = some a ∧ form = toJson a := by
  cases found with
  | none => cases h
  | some a => exact ⟨a, rfl, (Except.ok.inj h).symm⟩

theorem fitsSigned_of_toInt64? {v : Json} {i : Int} (h : v.toInt64? = some i) :
    Number.fitsSigned i = true := by
  unfold Json.toInt64? at h
  split at h
  · split at h
    · next hFits => exact Option.some.inj h ▸ hFits
    · cases h
  · cases h

/-- Integers that are read from a value fit into 64 bits. -/
theorem fitsSigned_of_toInteger? {v : Json} {i : Int} (h : toInteger? v = some i) :
    Number.fitsSigned i = true := by
  cases v with
  | number n =>
      rw [toInteger?] at h
      rcases Option.or_eq_some_iff.mp h with hInteger | ⟨-, hDouble⟩
      · exact fitsSigned_of_toInt64? hInteger
      · exact (Option.filter_eq_some_iff.mp hDouble).2
  | string text =>
      rw [toInteger?, readInteger?] at h
      simp only [Option.ite_none_right_eq_some, Bool.and_eq_true, Option.some.injEq] at h
      obtain ⟨⟨-, hFits⟩, rfl⟩ := h
      exact hFits
  | _ => cases h

/-- Where coercing stops, the form is the value itself, or the boolean or number that is read from
it. -/
theorem form_cases {kind : Kind} {v form : Json} (hStop : kind.StopsAt v)
    (h : kind.coerce v = .ok form) :
    form = v ∨ (kind = .boolean ∧ ∃ b, form = .bool b) ∨
      (kind = .integer ∧ ∃ i, Number.fitsSigned i = true ∧ form = .int i) ∨
      (kind = .float ∧ ∃ x, form = .number (.float x)) := by
  cases kind with
  | any => exact .inl (Except.ok.inj h).symm
  | boolean =>
      cases v with
      | null => cases h
      | _ =>
          obtain ⟨b, -, hForm⟩ := orViolation_map_eq_ok h
          exact .inr (.inl ⟨rfl, b, hForm⟩)
  | integer =>
      cases v with
      | null => cases h
      | _ =>
          obtain ⟨i, hInteger, hForm⟩ := orViolation_map_eq_ok h
          exact .inr (.inr (.inl ⟨rfl, i, fitsSigned_of_toInteger? hInteger, hForm⟩))
  | float =>
      cases v with
      | null => cases h
      | _ =>
          obtain ⟨x, -, hForm⟩ := orViolation_map_eq_ok h
          exact .inr (.inr (.inr ⟨rfl, x, hForm⟩))
  | string =>
      cases v with
      | string text => exact .inl (Except.ok.inj h).symm
      | _ => cases h
  | list item =>
      cases v with
      | array items => exact hStop.elim
      | _ => cases h
  | map =>
      cases v with
      | object fields => exact .inl (Except.ok.inj h).symm
      | _ => cases h

theorem toInteger?_int {i : Int} (h : Number.fitsSigned i = true) :
    toInteger? (.int i) = some i := by
  have hInteger : (Json.int i).toInt64? = some i := if_pos h
  show (Json.int i).toInt64?.or _ = _
  rw [hInteger, Option.some_or]

theorem coerce_int {i : Int} (h : Number.fitsSigned i = true) :
    integer.coerce (.int i) = .ok (.int i) := by
  have hInteger := toInteger?_int h
  show orViolation _ ((toInteger? (.int i)).map .int) = _
  rw [hInteger]
  rfl

/-- A form is its own form. -/
theorem coerce_coerce {kind : Kind} {v form : Json} (h : kind.coerce v = .ok form) :
    kind.coerce form = .ok form := by
  induction kind, v using induction_items generalizing form with
  | stop kind v hStop =>
      -- what was read from a text is a boolean or number now, and taken as it is
      rcases form_cases hStop h with rfl | ⟨rfl, b, rfl⟩ | ⟨rfl, i, hFits, rfl⟩ | ⟨rfl, x, rfl⟩
      · exact h
      · rfl
      · exact coerce_int hFits
      · rfl
  | items item items ih =>
      obtain ⟨forms, rfl, hForms⟩ := coerce_items_eq_ok_iff.mp h
      refine coerce_items_eq_ok_iff.mpr ⟨forms, rfl, List.map_congr_left fun form hForm => ?_⟩
      obtain ⟨v, hv, hCoerce⟩ := exists_coerce_of_mem hForms hForm
      exact ih v hv hCoerce

end Kind

/-! ## Schemas -/

/-- A field of a kind accepts the forms that the kind gives and the check admits. -/
theorem Field.validate_ofKind_eq_ok_iff {kind : Kind} {check : Json → Except String Unit}
    {v form : Json} :
    (Field.ofKind kind check).validate v = .ok form ↔
      kind.coerce v = .ok form ∧ check form = .ok () := by
  dsimp only [ofKind, bind, Except.bind]
  cases kind.coerce v with
  | error violation => simp
  | ok kept =>
      dsimp only
      rw [Except.ok.injEq]
      constructor
      · intro h
        split at h
        · next hCheck =>
          obtain rfl := Except.ok.inj h
          exact ⟨rfl, hCheck⟩
        · cases h
      · rintro ⟨rfl, hCheck⟩
        rw [hCheck]

/-- A schema whose fields are all declared by kind, each with a check. -/
def Spec.IsOfKinds (spec : Spec) : Prop :=
  ∀ declared ∈ spec.fields.entries, ∃ kind check, declared.2 = Field.ofKind kind check

/-- **Normalization is idempotent.** The form in which a field of such a schema keeps a value is kept
as it is when it is validated again. -/
theorem Spec.validate_validate {spec : Spec} (hKinds : spec.IsOfKinds) {field : String}
    {v form : Json} (h : spec.validate field v = .ok form) :
    spec.validate field form = .ok form := by
  unfold validate at h ⊢
  cases hField : spec.fields.find? field with
  | none => simp [hField] at h
  | some declared =>
      rw [hField] at h
      obtain ⟨kind, check, rfl⟩ := hKinds _ (mem_of_lookup_eq_some hField)
      obtain ⟨hForm, hCheck⟩ := Field.validate_ofKind_eq_ok_iff.mp h
      exact Field.validate_ofKind_eq_ok_iff.mpr ⟨Kind.coerce_coerce hForm, hCheck⟩

namespace Bakery

def notEmpty : Json → Except String Unit
  | .array [] => .error "nothing is ordered"
  | _ => .ok ()

/-- The numbers of loaves that are ordered, by week and day. -/
def orders : Spec where
  identity := 0
  family := .schema
  name := "Orders"
  fields := .ofList [("loaves", .ofKind (.list (.list .integer)) notEmpty)]

theorem loaves_kept :
    orders.validate "loaves" (.array [.array [.string " 7", .int 2], .array []]) =
      .ok (.array [.array [.int 7, .int 2], .array []]) ∧
    orders.validate "loaves" (.array [.array [.int 7, .int 2], .array []]) =
      .ok (.array [.array [.int 7, .int 2], .array []]) := by
  have hKinds : orders.IsOfKinds := by
    intro declared hDeclared
    obtain rfl := List.mem_singleton.mp hDeclared
    exact ⟨_, _, rfl⟩
  have hGiven : orders.validate "loaves" (.array [.array [.string " 7", .int 2], .array []]) =
      .ok (.array [.array [.int 7, .int 2], .array []]) := by
    rfl
  exact ⟨hGiven, Spec.validate_validate hKinds hGiven⟩

end Bakery

end Storyline
