import Mathlib.Data.List.Basic
import Storyline.Proofs.Coercion

/-!
# Positions of coerced values

A kind reaches into a value as far as both are lists, and each position that it reaches is coerced
by itself (`Kind.Reaches`). Coercing the whole is no more than that: if all positions have forms,
the form is the value with these in their places (`Kind.replace`), and otherwise the messages are
those of the positions that have none, from left to right, each under the indices that lead to it
(`Kind.coerce_positionwise`).
-/

set_option autoImplicit false

namespace Storyline

namespace Kind

/-! ## Positions -/

/-- A place in a value: the indices that lead to it, the kind that is expected there, and what is
there. -/
structure Position where
  path : List Nat
  kind : Kind
  value : Json

/-- A position of an item, seen from the list. -/
def Position.within (p : Position) (index : Nat) : Position := { p with path := index :: p.path }

/-- What becomes of a position by itself. -/
def Position.coerced (p : Position) : Except Violation Json := p.kind.coerce p.value

/-- The positions that a kind reaches in a value. -/
inductive Reaches : Kind → Json → Position → Prop where
  | stop {kind : Kind} {v : Json} : kind.StopsAt v → Reaches kind v ⟨[], kind, v⟩
  | item {item : Kind} {items : List Json} {index : Nat} {v : Json} {p : Position} :
      items[index]? = some v → Reaches item v p →
      Reaches (.list item) (.array items) (p.within index)

/-- The value with something else at each position. -/
def replace (form : Kind → Json → Json) : Kind → Json → Json
  | list item, .array items => .array (items.map (item.replace form))
  | kind, v => form kind v

/-- A message under the indices that lead to it, the outermost in front. -/
def located : List Nat → String → String
  | [], message => message
  | index :: path, message => toString index ++ ": " ++ located path message

/-! ## From left to right -/

/-- The positions that a kind reaches, from left to right. -/
def positions : Kind → Json → List Position
  | list item, .array items =>
    items.zipIdx.flatMap fun (v, index) => (item.positions v).map (·.within index)
  | kind, v => [⟨[], kind, v⟩]

theorem positions_of_stopsAt {kind : Kind} {v : Json} (h : kind.StopsAt v) :
    kind.positions v = [⟨[], kind, v⟩] := by
  cases kind with
  | list item =>
      cases v with
      | array items => exact h.elim
      | _ => rfl
  | _ => rfl

theorem replace_of_stopsAt {kind : Kind} {v : Json} (h : kind.StopsAt v)
    (form : Kind → Json → Json) : kind.replace form v = form kind v := by
  cases kind with
  | list item =>
      cases v with
      | array items => exact h.elim
      | _ => rfl
  | _ => rfl

theorem reaches_iff_of_stopsAt {kind : Kind} {v : Json} (h : kind.StopsAt v) {p : Position} :
    kind.Reaches v p ↔ p = ⟨[], kind, v⟩ := by
  constructor
  · rintro (- | - )
    · rfl
    · exact h.elim
  · rintro rfl
    exact .stop h

theorem reaches_items_iff {item : Kind} {items : List Json} {p : Position} :
    (list item).Reaches (.array items) p ↔
      ∃ index v q, items[index]? = some v ∧ item.Reaches v q ∧ p = q.within index := by
  constructor
  · rintro (hStop | ⟨hItem, hReaches⟩)
    · exact hStop.elim
    · exact ⟨_, _, _, hItem, hReaches, rfl⟩
  · rintro ⟨index, v, q, hItem, hReaches, rfl⟩
    exact .item hItem hReaches

theorem mem_positions_items_iff {item : Kind} {items : List Json} {p : Position} :
    p ∈ (list item).positions (.array items) ↔
      ∃ index v q, items[index]? = some v ∧ q ∈ item.positions v ∧ p = q.within index := by
  rw [positions, List.mem_flatMap]
  constructor
  · rintro ⟨⟨v, index⟩, hItem, hMem⟩
    obtain ⟨q, hq, rfl⟩ := List.mem_map.mp hMem
    exact ⟨index, v, q, List.mk_mem_zipIdx_iff_getElem?.mp hItem, hq, rfl⟩
  · rintro ⟨index, v, q, hItem, hq, rfl⟩
    exact ⟨(v, index), List.mk_mem_zipIdx_iff_getElem?.mpr hItem, List.mem_map_of_mem hq⟩

theorem mem_positions_iff {kind : Kind} {v : Json} {p : Position} :
    p ∈ kind.positions v ↔ kind.Reaches v p := by
  induction kind, v using induction_items generalizing p with
  | stop kind v hStop =>
      rw [positions_of_stopsAt hStop, reaches_iff_of_stopsAt hStop, List.mem_singleton]
  | items item items ih =>
      rw [mem_positions_items_iff, reaches_items_iff]
      refine exists_congr fun index => exists_congr fun v => exists_congr fun q => ?_
      refine and_congr_right fun hItem => and_congr_left fun _ => ?_
      exact ih v (List.mem_of_getElem? hItem)

theorem pairwise_zipIdx (items : List Json) : items.zipIdx.Pairwise fun a b => a.2 < b.2 := by
  have hIndices : (items.zipIdx.map Prod.snd).Pairwise (· < ·) := by
    rw [List.zipIdx_map_snd]
    exact List.pairwise_lt_range'
  exact List.pairwise_map.mp hIndices

/-- Positions are in the lexicographic order of their paths. -/
theorem pairwise_positions (kind : Kind) (v : Json) :
    (kind.positions v).Pairwise fun p q => p.path < q.path := by
  induction kind, v using induction_items with
  | stop kind v hStop =>
      rw [positions_of_stopsAt hStop]
      exact List.pairwise_singleton _ _
  | items item items ih =>
      rw [positions, List.pairwise_flatMap]
      constructor
      · rintro ⟨v, index⟩ hItem
        refine List.pairwise_map.mpr ((ih v (List.fst_mem_of_mem_zipIdx hItem)).imp ?_)
        intro p q hLess
        exact List.cons_lt_cons_iff.mpr (.inr ⟨rfl, hLess⟩)
      · -- the index of the item decides before the path within it
        refine (pairwise_zipIdx items).imp fun hLess p hp q hq => ?_
        obtain ⟨p', -, rfl⟩ := List.mem_map.mp hp
        obtain ⟨q', -, rfl⟩ := List.mem_map.mp hq
        exact List.cons_lt_cons_iff.mpr (.inl hLess)

/-- Where a kind stops, it is coerced as a whole. -/
theorem Reaches.stopsAt {kind : Kind} {v : Json} {p : Position} (h : kind.Reaches v p) :
    p.kind.StopsAt p.value := by
  induction h with
  | stop hStop => exact hStop
  | item _ _ ih => exact ih

/-! ## What becomes of positions -/

/-- The messages of a value are those of its positions. -/
theorem reports_coerce (kind : Kind) (v : Json) :
    reports (kind.coerce v) =
      (kind.positions v).flatMap fun p => (reports p.coerced).map (located p.path) := by
  induction kind, v using induction_items with
  | stop kind v hStop =>
      rw [positions_of_stopsAt hStop, List.flatMap_singleton]
      exact (List.map_id _).symm
  | items item items ih =>
      rw [coerce_items, reports_gather, complaints_eq, List.zipIdx_map, List.flatMap_map, positions,
        List.flatMap_assoc]
      refine List.flatMap_congr fun ⟨v, index⟩ hItem => ?_
      have hMessages := ih v (List.fst_mem_of_mem_zipIdx hItem)
      show (reports (item.coerce v)).map _ = _
      rw [hMessages, List.map_flatMap, List.flatMap_map]
      refine List.flatMap_congr fun p _ => ?_
      rw [List.map_map]
      rfl

/-- A value has a form if all its positions have forms. -/
theorem exists_form_iff {kind : Kind} {v : Json} :
    (∃ form, kind.coerce v = .ok form) ↔
      ∀ p, kind.Reaches v p → ∃ form, p.coerced = .ok form := by
  rw [← reports_coerce_eq_nil_iff, reports_coerce, List.flatMap_eq_nil_iff]
  refine forall_congr' fun p => ?_
  rw [mem_positions_iff, List.map_eq_nil_iff, Position.coerced, reports_coerce_eq_nil_iff]

/-- Then its form has theirs in their places. -/
theorem coerce_eq_replace {form : Kind → Json → Json} {kind : Kind} {v : Json}
    (h : ∀ p, kind.Reaches v p → p.coerced = .ok (form p.kind p.value)) :
    kind.coerce v = .ok (kind.replace form v) := by
  induction kind, v using induction_items with
  | stop kind v hStop =>
      rw [replace_of_stopsAt hStop]
      exact h ⟨[], kind, v⟩ (.stop hStop)
  | items item items ih =>
      refine coerce_items_eq_ok_iff.mpr ⟨_, rfl, ?_⟩
      rw [List.map_map]
      refine List.map_congr_left fun v hv => ih v hv fun p hp => ?_
      obtain ⟨index, hItem⟩ := List.getElem?_of_mem hv
      exact h (p.within index) (.item hItem hp)

/-- A position has a form or one message. -/
theorem Reaches.coerced_cases {kind : Kind} {v : Json} {p : Position} (h : kind.Reaches v p) :
    (∃ form, p.coerced = .ok form) ∨ ∃ message, p.coerced = .error (.because message) := by
  cases hCoerced : p.coerced with
  | ok form => exact .inl ⟨form, rfl⟩
  | error violation =>
      obtain ⟨message, rfl⟩ := exists_because h.stopsAt hCoerced
      exact .inr ⟨message, rfl⟩

/-- The positions that have no form, from left to right, each with its message. -/
def failing (kind : Kind) (v : Json) : List (Position × String) :=
  (kind.positions v).flatMap fun p => (reports p.coerced).map fun message => (p, message)

theorem map_failing (kind : Kind) (v : Json) :
    (kind.failing v).map (fun (p, message) => located p.path message) =
      reports (kind.coerce v) := by
  rw [failing, List.map_flatMap, reports_coerce]
  refine List.flatMap_congr fun p _ => ?_
  rw [List.map_map]
  rfl

theorem mem_failing_iff {kind : Kind} {v : Json} {p : Position} {message : String} :
    (p, message) ∈ kind.failing v ↔
      kind.Reaches v p ∧ p.coerced = .error (.because message) := by
  rw [failing, List.mem_flatMap]
  constructor
  · rintro ⟨q, hq, hMem⟩
    obtain ⟨other, hReport, hSame⟩ := List.mem_map.mp hMem
    obtain ⟨rfl, rfl⟩ := Prod.mk.inj hSame
    have hReaches := mem_positions_iff.mp hq
    rcases hReaches.coerced_cases with ⟨form, hForm⟩ | ⟨reason, hReason⟩
    · rw [hForm] at hReport
      cases hReport
    · rw [hReason] at hReport
      obtain rfl := List.mem_singleton.mp hReport
      exact ⟨hReaches, hReason⟩
  · rintro ⟨hReaches, hReason⟩
    refine ⟨p, mem_positions_iff.mpr hReaches, ?_⟩
    rw [hReason]
    exact List.mem_singleton.mpr rfl

theorem pairwise_failing (kind : Kind) (v : Json) :
    (kind.failing v).Pairwise fun a b => a.1.path < b.1.path := by
  rw [failing, List.pairwise_flatMap]
  constructor
  · -- a position has one message at most
    intro p hp
    rcases (mem_positions_iff.mp hp).coerced_cases with ⟨form, hForm⟩ | ⟨message, hMessage⟩
    · rw [hForm]
      exact .nil
    · rw [hMessage]
      exact List.pairwise_singleton _ _
  · refine (pairwise_positions kind v).imp fun hLess a ha b hb => ?_
    obtain ⟨message, -, rfl⟩ := List.mem_map.mp ha
    obtain ⟨other, -, rfl⟩ := List.mem_map.mp hb
    exact hLess

/-- Messages that are those of all positions without a form: one for each, from left to right. -/
def AreOfPositions (kind : Kind) (v : Json) (messages : List String) : Prop :=
  ∃ failing : List (Position × String),
    messages = failing.map (fun (p, message) => located p.path message) ∧
    failing.Pairwise (fun a b => a.1.path < b.1.path) ∧
    ∀ p message, (p, message) ∈ failing ↔
      kind.Reaches v p ∧ p.coerced = .error (.because message)

/-- **Coercing is coercing of positions.** A value has a form exactly when all positions have forms,
and then its form has theirs in their places. Otherwise the messages are those of the positions that
have no form, each of which has one. -/
theorem coerce_positionwise (kind : Kind) (v : Json) :
    ((∃ form, kind.coerce v = .ok form) ↔
      ∀ p, kind.Reaches v p → ∃ form, p.coerced = .ok form) ∧
    (∀ form : Kind → Json → Json,
      (∀ p, kind.Reaches v p → p.coerced = .ok (form p.kind p.value)) →
        kind.coerce v = .ok (kind.replace form v)) ∧
    (∀ violation, kind.coerce v = .error violation → kind.AreOfPositions v violation.messages) ∧
    ∀ p, kind.Reaches v p →
      (∃ form, p.coerced = .ok form) ∨ ∃ message, p.coerced = .error (.because message) := by
  refine ⟨exists_form_iff, fun form => coerce_eq_replace, fun violation h => ?_,
    fun p => Reaches.coerced_cases⟩
  refine ⟨kind.failing v, ?_, pairwise_failing kind v, fun p message => mem_failing_iff⟩
  rw [map_failing, h]
  rfl

end Kind

namespace Bakery

/-- Two of the numbers of loaves are none, and in the second week nothing was written down. -/
theorem loaves_rejected :
    (Kind.list (.list .integer)).AreOfPositions
      (.array [.array [.int 7, .string "some"], .null, .array [.bool true, .int 3]])
      ["0: 1: value is not a valid integer", "1: none is not an allowed value",
        "2: 0: value is not a valid integer"] := by
  obtain ⟨-, -, hMessages, -⟩ := Kind.coerce_positionwise (.list (.list .integer))
    (.array [.array [.int 7, .string "some"], .null, .array [.bool true, .int 3]])
  exact hMessages _ rfl

end Bakery

end Storyline
