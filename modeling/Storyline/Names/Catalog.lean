import Storyline.Names.Lookup

/-!
# Named values in alphabetic order

`Catalog α` holds values under distinct names, sorted by name; names compare by their code
points. The order of insertion leaves no trace.
-/

set_option autoImplicit false

namespace Storyline

/-- Values under distinct names, sorted by name. -/
structure Catalog (α : Type) where
  entries : List (String × α)
  sorted : entries.Pairwise fun a b => a.1 < b.1

namespace Catalog

variable {α β : Type}

/-- Put an entry into its place in a sorted list, replacing the value of an equal name. -/
def place (name : String) (value : α) : List (String × α) → List (String × α)
  | [] => [(name, value)]
  | (other, old) :: rest =>
    if name < other then (name, value) :: (other, old) :: rest
    else if name = other then (name, value) :: rest
    else (other, old) :: place name value rest

theorem mem_place {name : String} {value : α} {entry : String × α}
    {entries : List (String × α)} (h : entry ∈ place name value entries) :
    entry = (name, value) ∨ entry ∈ entries := by
  induction entries with
  | nil => simpa [place] using h
  | cons head rest ih =>
    obtain ⟨other, old⟩ := head
    rw [place] at h
    split at h
    · simpa using h
    · split at h
      · rcases List.mem_cons.mp h with h | h
        · exact .inl h
        · exact .inr (List.mem_cons_of_mem _ h)
      · rcases List.mem_cons.mp h with h | h
        · exact .inr (h ▸ List.mem_cons_self)
        · exact (ih h).imp_right (List.mem_cons_of_mem _)

theorem pairwise_place (name : String) (value : α) {entries : List (String × α)}
    (h : entries.Pairwise fun a b => a.1 < b.1) :
    (place name value entries).Pairwise fun a b => a.1 < b.1 := by
  induction entries with
  | nil => simp [place]
  | cons head rest ih =>
    obtain ⟨other, old⟩ := head
    obtain ⟨above, tail⟩ := List.pairwise_cons.mp h
    rw [place]
    split
    · next lt =>
      refine List.pairwise_cons.mpr ⟨fun entry mem => ?_, h⟩
      rcases List.mem_cons.mp mem with rfl | mem
      · exact lt
      · exact String.lt_trans lt (above entry mem)
    · next notLt =>
      split
      · next eq =>
        subst eq
        exact List.pairwise_cons.mpr ⟨above, tail⟩
      · next ne =>
        refine List.pairwise_cons.mpr ⟨fun entry mem => ?_, ih tail⟩
        rcases mem_place mem with rfl | mem
        · refine String.not_le.mp fun le => ne ?_
          exact String.le_antisymm le (String.not_lt.mp notLt)
        · exact above entry mem

/-- No values. -/
def empty : Catalog α := ⟨[], List.Pairwise.nil⟩

instance : Inhabited (Catalog α) := ⟨empty⟩

/-- Give a name a value. -/
def insert (m : Catalog α) (name : String) (value : α) : Catalog α :=
  ⟨place name value m.entries, pairwise_place name value m.sorted⟩

/-- The value of a name. -/
def find? (m : Catalog α) (name : String) : Option α := m.entries.lookup name

/-- The names, in order. -/
def names (m : Catalog α) : List String := m.entries.map Prod.fst

/-- Whether a name has a value. -/
def contains (m : Catalog α) (name : String) : Bool := m.names.contains name

/-- Whether there is no value. -/
def isEmpty (m : Catalog α) : Bool := m.entries.isEmpty

/-- Give a name a value unless it has one. -/
def insertNew (m : Catalog α) (name : String) (value : α) : Catalog α :=
  if m.contains name then m else m.insert name value

/-- The values of a list of pairs; of a repeated name the last value. -/
def ofList (pairs : List (String × α)) : Catalog α :=
  pairs.foldl (fun m (name, value) => m.insert name value) empty

/-! ## What inserting does -/

theorem lookup_place (name : String) (value : α) (other : String)
    (entries : List (String × α)) :
    (place name value entries).lookup other =
      if other = name then some value else entries.lookup other := by
  induction entries with
  | nil => rw [place, lookup_cons_ite]
  | cons entry rest ih =>
    obtain ⟨first, old⟩ := entry
    rw [place]
    split
    · rw [lookup_cons_ite]
    · split
      · next same =>
        subst same
        rw [lookup_cons_ite, lookup_cons_ite]
        split <;> rfl
      · next differ =>
        rw [lookup_cons_ite, lookup_cons_ite, ih]
        by_cases h : other = first
        · have : first ≠ name := fun e => differ e.symm
          simp [h, this]
        · simp [h]

/-- The inserted name has the new value, and all others keep theirs. -/
theorem find?_insert (m : Catalog α) (name : String) (value : α) (other : String) :
    (m.insert name value).find? other = if other = name then some value else m.find? other :=
  lookup_place name value other m.entries

/-- A name counts as contained when it is among the names. -/
theorem contains_iff (m : Catalog α) (name : String) :
    m.contains name = true ↔ name ∈ m.names := by
  simp [contains]

/-- A name has a value when it is among the names. -/
theorem find?_isSome_iff (m : Catalog α) (name : String) :
    (m.find? name).isSome = true ↔ name ∈ m.names :=
  lookup_isSome_iff m.entries name

end Catalog

/-- Distinct names in alphabetic order. -/
def sortedNames (names : List String) : List String :=
  (Catalog.ofList (names.map fun name => (name, ()))).names

/-- Names in alphabetic order, repetitions kept. -/
def sortNames (names : List String) : List String :=
  names.mergeSort fun a b => decide (a ≤ b)

end Storyline
