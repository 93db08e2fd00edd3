import Mathlib.Data.List.Forall2
import Mathlib.Data.List.Perm.Subperm
import Storyline.Json.Basic
import Storyline.Proofs.Names

/-!
# Equality of values

Objects are equal when they have the same number of fields and each field of the one has an equal
value in the other (`Json.same_object_iff`). This makes `Json.same` an equivalence among values
whose objects have distinct names (`Json.IsProper`): without them equality would be neither
reflexive nor symmetric. It is transitive among all values.
-/

set_option autoImplicit false

namespace Storyline

/-! ## Numbers -/

theorem Double.same_iff {x y : Double} :
    x.same y = true ↔ x.magnitude = y.magnitude ∧ (x.negative = y.negative ∨ x.magnitude = 0) := by
  simp [Double.same]

namespace Number

theorem same_self (a : Number) : a.same a = true := by
  cases a with
  | int value => exact beq_self_eq_true value
  | float value => exact Double.same_iff.mpr ⟨rfl, .inl rfl⟩

theorem same_symm {a b : Number} (h : a.same b = true) : b.same a = true := by
  cases a with
  | int value =>
      cases b with
      | int other =>
          have hEqual : value = other := by simpa [same] using h
          exact hEqual ▸ beq_self_eq_true value
      | float other => cases h
  | float value =>
      cases b with
      | int other => cases h
      | float other =>
          obtain ⟨hMagnitude, hSign⟩ := Double.same_iff.mp h
          refine Double.same_iff.mpr ⟨hMagnitude.symm, ?_⟩
          rw [← hMagnitude]
          exact hSign.imp_left Eq.symm

theorem same_trans {a b c : Number} (h : a.same b = true) (h' : b.same c = true) :
    a.same c = true := by
  cases a with
  | int value =>
      cases b with
      | int other =>
          have hEqual : value = other := by simpa [same] using h
          exact hEqual ▸ h'
      | float other => cases h
  | float value =>
      cases b with
      | int other => cases h
      | float other =>
          cases c with
          | int third => cases h'
          | float third =>
              obtain ⟨hMagnitude, hSign⟩ := Double.same_iff.mp h
              obtain ⟨hMagnitude', hSign'⟩ := Double.same_iff.mp h'
              refine Double.same_iff.mpr ⟨hMagnitude.trans hMagnitude', ?_⟩
              -- zeros have both signs
              rcases hSign with hSign | hZero
              · rw [hSign, hMagnitude]
                exact hSign'
              · exact .inr hZero

end Number

namespace Json

/-! ## Values in values -/

/-- What holds of a value when it holds of all values in it holds of every value. -/
@[elab_as_elim]
theorem induction_within {motive : Json → Prop} (null : motive .null)
    (bool : ∀ value, motive (.bool value)) (number : ∀ value, motive (.number value))
    (string : ∀ value, motive (.string value))
    (array : ∀ items, (∀ v ∈ items, motive v) → motive (.array items))
    (object : ∀ fields : List (String × Json), (∀ field ∈ fields, motive field.2) →
      motive (.object fields)) (v : Json) : motive v := by
  refine @Json.rec motive (fun items => ∀ v ∈ items, motive v)
    (fun fields => ∀ field ∈ fields, motive field.2) (fun field => motive field.2) null bool number
    string array object ?_ ?_ ?_ ?_ ?_ v
  · exact fun v hMem => by cases hMem
  · exact fun first rest hFirst hRest => List.forall_mem_cons.mpr ⟨hFirst, hRest⟩
  · exact fun field hMem => by cases hMem
  · exact fun first rest hFirst hRest => List.forall_mem_cons.mpr ⟨hFirst, hRest⟩
  · exact fun name v hValue => hValue

mutual

/-- In a proper value the fields of every object have distinct names. -/
def IsProper : Json → Prop
  | .array items => AreProper items
  | .object fields => (fields.map Prod.fst).Nodup ∧ FieldsAreProper fields
  | _ => True

/-- All values of a list are proper. -/
def AreProper : List Json → Prop
  | [] => True
  | v :: rest => v.IsProper ∧ AreProper rest

/-- The values of all fields are proper. -/
def FieldsAreProper : List (String × Json) → Prop
  | [] => True
  | (_, v) :: rest => v.IsProper ∧ FieldsAreProper rest

end

theorem isProper_array_iff {items : List Json} :
    (array items).IsProper ↔ ∀ v ∈ items, v.IsProper := by
  rw [IsProper]
  induction items with
  | nil => simp [AreProper]
  | cons first rest ih => rw [AreProper, ih, List.forall_mem_cons]

theorem isProper_object_iff {fields : List (String × Json)} :
    (object fields).IsProper ↔
      (fields.map Prod.fst).Nodup ∧ ∀ field ∈ fields, field.2.IsProper := by
  rw [IsProper]
  refine and_congr_right fun _ => ?_
  clear * -
  induction fields with
  | nil => simp [FieldsAreProper]
  | cons first rest ih => rw [FieldsAreProper, ih, List.forall_mem_cons]

/-! ## An equivalence -/

theorem same_array_iff {as bs : List Json} :
    (array as).same (array bs) = true ↔ List.Forall₂ (fun a b => a.same b = true) as bs := by
  rw [same]
  induction as generalizing bs with
  | nil => cases bs <;> simp [sameItems]
  | cons a as ih =>
      cases bs with
      | nil => simp [sameItems]
      | cons b bs => rw [sameItems, Bool.and_eq_true, ih, List.forall₂_cons]

/-- Objects are equal when they have as many fields, and each field of the one has an equal value in
the other. -/
theorem same_object_iff {as bs : List (String × Json)} :
    (object as).same (object bs) = true ↔ as.length = bs.length ∧
      ∀ field ∈ as, ∃ b, bs.lookup field.1 = some b ∧ field.2.same b = true := by
  rw [same, Bool.and_eq_true, beq_iff_eq]
  refine and_congr_right fun _ => ?_
  clear * -
  induction as with
  | nil => simp [sameFields]
  | cons field as ih =>
      obtain ⟨name, a⟩ := field
      rw [sameFields, Bool.and_eq_true, ih, List.forall_mem_cons]
      refine and_congr_left fun _ => ?_
      cases bs.lookup name <;> simp

theorem same_self {v : Json} (h : v.IsProper) : v.same v = true := by
  induction v using induction_within with
  | null => rfl
  | bool value => exact beq_self_eq_true value
  | number value => exact value.same_self
  | string value => exact beq_self_eq_true value
  | array items ih =>
      have hItems := isProper_array_iff.mp h
      exact same_array_iff.mpr (List.forall₂_same.mpr fun v hMem => ih v hMem (hItems v hMem))
  | object fields ih =>
      obtain ⟨hDistinct, hFields⟩ := isProper_object_iff.mp h
      refine same_object_iff.mpr ⟨rfl, fun field hMem => ⟨field.2, ?_, ?_⟩⟩
      · exact lookup_eq_some_of_mem hDistinct hMem
      · exact ih field hMem (hFields field hMem)

theorem same_symm {v w : Json} (hv : v.IsProper) (hw : w.IsProper) (h : v.same w = true) :
    w.same v = true := by
  induction v using induction_within generalizing w with
  | null => cases w <;> first | rfl | cases h
  | bool value =>
      cases w with
      | bool other =>
          have hEqual : value = other := by simpa [same] using h
          exact hEqual ▸ beq_self_eq_true value
      | _ => cases h
  | number value =>
      cases w with
      | number other => exact Number.same_symm h
      | _ => cases h
  | string value =>
      cases w with
      | string other =>
          have hEqual : value = other := by simpa [same] using h
          exact hEqual ▸ beq_self_eq_true value
      | _ => cases h
  | array items ih =>
      cases w with
      | array others =>
          have hItems := isProper_array_iff.mp hv
          have hOthers := isProper_array_iff.mp hw
          rw [same_array_iff] at h ⊢
          clear hv hw
          induction h with
          | nil => exact .nil
          | @cons a b as bs hFirst hRest ihRest =>
              obtain ⟨ihFirst, ihAll⟩ := List.forall_mem_cons.mp ih
              obtain ⟨ha, has⟩ := List.forall_mem_cons.mp hItems
              obtain ⟨hb, hbs⟩ := List.forall_mem_cons.mp hOthers
              exact .cons (ihFirst ha hb hFirst) (ihRest ihAll has hbs)
      | _ => cases h
  | object fields ih =>
      cases w with
      | object others =>
          obtain ⟨hDistinct, hFields⟩ := isProper_object_iff.mp hv
          obtain ⟨hDistinct', hOthers⟩ := isProper_object_iff.mp hw
          obtain ⟨hLength, hAll⟩ := same_object_iff.mp h
          -- with as many distinct names, there is no name on the other side only
          have hNames : fields.map Prod.fst ⊆ others.map Prod.fst := by
            intro name hName
            obtain ⟨field, hField, rfl⟩ := List.mem_map.mp hName
            obtain ⟨b, hLookup, -⟩ := hAll field hField
            exact List.mem_map.mpr ⟨_, mem_of_lookup_eq_some hLookup, rfl⟩
          have hSubperm := List.subperm_of_subset hDistinct hNames
          have hSame := hSubperm.perm_of_length_le (by simp [hLength])
          refine same_object_iff.mpr ⟨hLength.symm, fun field hMem => ?_⟩
          obtain ⟨⟨name, a⟩, hField, hName⟩ :=
            List.mem_map.mp (hSame.mem_iff.mpr (List.mem_map_of_mem hMem))
          obtain ⟨b, hLookup, hEqual⟩ := hAll _ hField
          obtain rfl : name = field.1 := hName
          rw [lookup_eq_some_of_mem hDistinct' hMem] at hLookup
          obtain rfl := Option.some.inj hLookup
          refine ⟨a, lookup_eq_some_of_mem hDistinct hField, ?_⟩
          exact ih _ hField (hFields _ hField) (hOthers field hMem) hEqual
      | _ => cases h

theorem same_trans {u v w : Json} (h : u.same v = true) (h' : v.same w = true) :
    u.same w = true := by
  induction u using induction_within generalizing v w with
  | null => cases v <;> first | exact h' | cases h
  | bool value =>
      cases v with
      | bool other =>
          have hEqual : value = other := by simpa [same] using h
          exact hEqual ▸ h'
      | _ => cases h
  | number value =>
      cases v with
      | number other =>
          cases w with
          | number third => exact Number.same_trans h h'
          | _ => cases h'
      | _ => cases h
  | string value =>
      cases v with
      | string other =>
          have hEqual : value = other := by simpa [same] using h
          exact hEqual ▸ h'
      | _ => cases h
  | array items ih =>
      cases v with
      | array others =>
          cases w with
          | array thirds =>
              rw [same_array_iff] at h h' ⊢
              induction h generalizing thirds with
              | nil => exact h'
              | @cons a b as bs hFirst hRest ihRest =>
                  obtain ⟨ihFirst, ihAll⟩ := List.forall_mem_cons.mp ih
                  obtain ⟨c, cs, hFirst', hRest', rfl⟩ := List.forall₂_cons_left_iff.mp h'
                  exact .cons (ihFirst hFirst hFirst') (ihRest ihAll cs hRest')
          | _ => cases h'
      | _ => cases h
  | object fields ih =>
      cases v with
      | object others =>
          cases w with
          | object thirds =>
              obtain ⟨hLength, hAll⟩ := same_object_iff.mp h
              obtain ⟨hLength', hAll'⟩ := same_object_iff.mp h'
              refine same_object_iff.mpr ⟨hLength.trans hLength', fun field hMem => ?_⟩
              obtain ⟨b, hLookup, hEqual⟩ := hAll field hMem
              obtain ⟨c, hLookup', hEqual'⟩ := hAll' _ (mem_of_lookup_eq_some hLookup)
              exact ⟨c, hLookup', ih field hMem hEqual hEqual'⟩
          | _ => cases h'
      | _ => cases h

end Json

end Storyline
