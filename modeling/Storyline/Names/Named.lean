import Storyline.Names.Lookup

/-!
# Named values in the order they were named

`Named α` holds values under distinct names and remembers the order in which the names were
first given. Giving a name again replaces its value and keeps its place.
-/

set_option autoImplicit false

namespace Storyline

/-- Values under distinct names, in the order the names were first given. -/
structure Named (α : Type) where
  entries : List (String × α)
  distinct : (entries.map Prod.fst).Nodup
  deriving DecidableEq

namespace Named

variable {α β : Type}

/-- Replace the value of a name in a list of entries, or add the name at the end. -/
def assign (name : String) (value : α) : List (String × α) → List (String × α)
  | [] => [(name, value)]
  | (other, old) :: rest =>
    if other = name then (other, value) :: rest else (other, old) :: assign name value rest

/-- Assigning changes no name that is there and adds at most the one assigned. -/
theorem map_fst_assign (name : String) (value : α) (entries : List (String × α)) :
    (assign name value entries).map Prod.fst =
      if name ∈ entries.map Prod.fst then entries.map Prod.fst
      else entries.map Prod.fst ++ [name] := by
  induction entries with
  | nil => simp [assign]
  | cons entry rest ih =>
    obtain ⟨other, old⟩ := entry
    by_cases h : other = name
    · simp [assign, h]
    · have h' : ¬ name = other := fun e => h e.symm
      simp only [assign, h, if_false, List.map_cons, ih, List.mem_cons, h', false_or]
      split <;> rfl

theorem nodup_assign (name : String) (value : α) {entries : List (String × α)}
    (h : (entries.map Prod.fst).Nodup) : ((assign name value entries).map Prod.fst).Nodup := by
  rw [map_fst_assign]
  split
  · exact h
  · next absent =>
    rw [List.nodup_append]
    refine ⟨h, by simp, ?_⟩
    intro a ha b hb hab
    simp only [List.mem_singleton] at hb
    exact absent (hb ▸ hab ▸ ha)

/-- No values. -/
def empty : Named α := ⟨[], List.nodup_nil⟩

instance : Inhabited (Named α) := ⟨empty⟩

/-- Give a name a value. -/
def insert (m : Named α) (name : String) (value : α) : Named α :=
  ⟨assign name value m.entries, nodup_assign name value m.distinct⟩

/-- The values of a list of pairs; of a repeated name the first place and the last value. -/
def ofList (pairs : List (String × α)) : Named α :=
  pairs.foldl (fun m (name, value) => m.insert name value) empty

/-- The value of a name. -/
def find? (m : Named α) (name : String) : Option α := m.entries.lookup name

/-- The names, in order. -/
def names (m : Named α) : List String := m.entries.map Prod.fst

/-- Whether a name has a value. -/
def contains (m : Named α) (name : String) : Bool := m.names.contains name

/-- The number of names. -/
def size (m : Named α) : Nat := m.entries.length

/-- The same names with changed values. -/
def mapValues (f : α → β) (m : Named α) : Named β where
  entries := m.entries.map fun (name, value) => (name, f value)
  distinct := by
    have h : (m.entries.map fun (name, value) => (name, f value)).map Prod.fst =
        m.entries.map Prod.fst := by
      rw [List.map_map]; rfl
    rw [h]; exact m.distinct

/-! ## What inserting does -/

/-- A new name goes to the end; a name that is there keeps its place. -/
theorem names_insert (m : Named α) (name : String) (value : α) :
    (m.insert name value).names =
      if name ∈ m.names then m.names else m.names ++ [name] :=
  map_fst_assign name value m.entries

theorem lookup_assign (name : String) (value : α) (other : String)
    (entries : List (String × α)) :
    (assign name value entries).lookup other =
      if other = name then some value else entries.lookup other := by
  induction entries with
  | nil => rw [assign, lookup_cons_ite]
  | cons entry rest ih =>
    obtain ⟨first, old⟩ := entry
    rw [assign]
    split
    · next same =>
      subst same
      rw [lookup_cons_ite, lookup_cons_ite]
      split <;> rfl
    · next differ =>
      rw [lookup_cons_ite, lookup_cons_ite, ih]
      by_cases h : other = first
      · simp [h, differ]
      · simp [h]

/-- The inserted name has the new value, and all others keep theirs. -/
theorem find?_insert (m : Named α) (name : String) (value : α) (other : String) :
    (m.insert name value).find? other = if other = name then some value else m.find? other :=
  lookup_assign name value other m.entries

/-- A name counts as contained when it is among the names. -/
theorem contains_iff (m : Named α) (name : String) : m.contains name = true ↔ name ∈ m.names := by
  simp [contains]

end Named

end Storyline
