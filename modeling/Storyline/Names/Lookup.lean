/-!
# Looking up names

Facts about the first value of a name in a list of named values. Containers whose names are
distinct are read through them.
-/

set_option autoImplicit false

namespace Storyline

variable {α : Type}

/-- The first entry is looked at first. -/
theorem lookup_cons_ite (name other : String) (value : α) (entries : List (String × α)) :
    ((name, value) :: entries).lookup other =
      if other = name then some value else entries.lookup other := by
  rw [List.lookup_cons]
  by_cases h : other = name
  · simp [h]
  · have differ : (other == name) = false := beq_eq_false_iff_ne.mpr h
    simp [differ, h]

/-- A name that is found is among the names. -/
theorem lookup_isSome_iff (entries : List (String × α)) (name : String) :
    (entries.lookup name).isSome = true ↔ name ∈ entries.map Prod.fst := by
  induction entries with
  | nil => simp
  | cons entry rest ih =>
    obtain ⟨first, value⟩ := entry
    rw [lookup_cons_ite, List.map_cons, List.mem_cons]
    by_cases h : name = first
    · simp [h]
    · simp [h, ih]

end Storyline
