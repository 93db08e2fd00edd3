import Storyline.Names.Catalog
import Storyline.Names.Named

/-!
# Tables of named values

More about the two kinds of tables: which values they hold when they are made of lists of pairs,
that inserting never leaves a table empty, and that a table in alphabetic order is known by the
values of its names (`Catalog.ext_find?`), so that the order of insertion leaves no trace.
-/

set_option autoImplicit false

namespace Storyline

/-! ## Lists of pairs -/

theorem mem_of_lookup_eq_some {α : Type} {entries : List (String × α)} {name : String}
    {value : α} (h : entries.lookup name = some value) : (name, value) ∈ entries := by
  induction entries with
  | nil => cases h
  | cons entry rest ih =>
      obtain ⟨first, other⟩ := entry
      rw [lookup_cons_ite] at h
      split at h
      · next hName =>
        obtain rfl := Option.some.inj h
        exact hName ▸ List.mem_cons_self
      · exact List.mem_cons_of_mem _ (ih h)

theorem lookup_eq_some_of_mem {α : Type} {entries : List (String × α)} {name : String}
    {value : α} (hDistinct : (entries.map Prod.fst).Nodup) (h : (name, value) ∈ entries) :
    entries.lookup name = some value := by
  induction entries with
  | nil => cases h
  | cons entry rest ih =>
      obtain ⟨first, other⟩ := entry
      obtain ⟨hFirst, hRest⟩ := List.nodup_cons.mp hDistinct
      rw [lookup_cons_ite]
      rcases List.mem_cons.mp h with hHead | hTail
      · cases hHead
        rw [if_pos rfl]
      · -- the name of a later entry is not that of the first
        have hOther : name ≠ first := by
          rintro rfl
          have hIn : (name, value).1 ∈ rest.map Prod.fst := List.mem_map_of_mem hTail
          exact hFirst hIn
        rw [if_neg hOther]
        exact ih hRest hTail

/-! ## Tables in the order of names given -/

namespace Named

variable {α : Type}

theorem assign_of_notMem {name : String} (value : α) {entries : List (String × α)}
    (hNew : name ∉ entries.map Prod.fst) :
    assign name value entries = entries ++ [(name, value)] := by
  induction entries with
  | nil => rfl
  | cons entry rest ih =>
      obtain ⟨other, old⟩ := entry
      rw [List.map_cons, List.mem_cons, not_or] at hNew
      rw [assign, if_neg fun h => hNew.1 h.symm, ih hNew.2]
      rfl

theorem entries_foldl_insert {pairs : List (String × α)} {m : Named α}
    (h : (m.names ++ pairs.map Prod.fst).Nodup) :
    (pairs.foldl (fun m (name, value) => m.insert name value) m).entries = m.entries ++ pairs := by
  induction pairs generalizing m with
  | nil => simp
  | cons pair rest ih =>
      obtain ⟨name, value⟩ := pair
      -- the name is not in the table yet, so that its pair goes to the end
      have hNew : name ∉ m.names := by
        intro hOld
        exact (List.nodup_append.mp h).2.2 name hOld name (by simp) rfl
      have hInsert : (m.insert name value).entries = m.entries ++ [(name, value)] :=
        assign_of_notMem value hNew
      have hNames : (m.insert name value).names = m.names ++ [name] := by
        rw [names, hInsert, List.map_append]
        rfl
      rw [List.foldl_cons, ih (by rw [hNames, List.append_assoc]; exact h), hInsert,
        List.append_assoc]
      rfl

/-- A list of pairs with distinct names is its own table. -/
theorem entries_ofList {pairs : List (String × α)} (h : (pairs.map Prod.fst).Nodup) :
    (ofList pairs).entries = pairs :=
  entries_foldl_insert (m := empty) h

/-- A name has the value that stands beside it, as names are distinct. -/
theorem find?_eq_some_iff {m : Named α} {name : String} {value : α} :
    m.find? name = some value ↔ (name, value) ∈ m.entries :=
  ⟨mem_of_lookup_eq_some, lookup_eq_some_of_mem m.distinct⟩

/-- The order of the names makes no difference to their values. -/
theorem find?_eq_of_perm {m other : Named α} (h : m.entries.Perm other.entries) (name : String) :
    m.find? name = other.find? name := by
  refine Option.ext fun value => ?_
  rw [find?_eq_some_iff, find?_eq_some_iff]
  exact h.mem_iff

end Named

/-! ## Tables in alphabetic order -/

/-- Names in strict order are distinct. -/
theorem nodup_of_pairwise_lt {names : List String} (h : names.Pairwise (· < ·)) : names.Nodup := by
  refine h.imp ?_
  rintro name _ hLess rfl
  exact String.lt_irrefl name hLess

namespace Catalog

variable {α : Type}

theorem nodup_names (m : Catalog α) : m.names.Nodup :=
  nodup_of_pairwise_lt (List.pairwise_map.mpr m.sorted)

/-- A name has the value that stands beside it, as names are distinct. -/
theorem find?_eq_some_iff {m : Catalog α} {name : String} {value : α} :
    m.find? name = some value ↔ (name, value) ∈ m.entries :=
  ⟨mem_of_lookup_eq_some, lookup_eq_some_of_mem m.nodup_names⟩

/-- The values of a table made of pairs are among the pairs. -/
theorem mem_of_find?_ofList {pairs : List (String × α)} {name : String} {value : α}
    (h : (ofList pairs).find? name = some value) : (name, value) ∈ pairs := by
  -- for the induction the table may hold other values to begin with
  have hFold : ∀ (pairs : List (String × α)) (m : Catalog α),
      (pairs.foldl (fun m (name, value) => m.insert name value) m).find? name = some value →
        (name, value) ∈ pairs ∨ m.find? name = some value := by
    intro pairs
    induction pairs with
    | nil => exact fun m h => .inr h
    | cons pair rest ih =>
        intro m h
        rcases ih _ h with hRest | hFirst
        · exact .inl (List.mem_cons_of_mem _ hRest)
        · rw [find?_insert] at hFirst
          split at hFirst
          · next hName =>
            obtain rfl := Option.some.inj hFirst
            exact .inl (by simp [hName])
          · exact .inr hFirst
  rcases hFold pairs empty h with hMem | hEmpty
  · exact hMem
  · cases hEmpty

theorem mem_names_insert {m : Catalog α} {name other : String} {value : α} :
    other ∈ (m.insert name value).names ↔ other = name ∨ other ∈ m.names := by
  rw [← find?_isSome_iff, ← find?_isSome_iff, find?_insert]
  split
  · next hName => simp [hName]
  · next hOther => simp [hOther]

/-- Inserting pairs adds their names. -/
theorem mem_names_foldl_insert {pairs : List (String × α)} {m : Catalog α} {name : String} :
    name ∈ (pairs.foldl (fun m (name, value) => m.insert name value) m).names ↔
      name ∈ m.names ∨ name ∈ pairs.map Prod.fst := by
  induction pairs generalizing m with
  | nil => simp
  | cons pair rest ih =>
      rw [List.foldl_cons, ih, mem_names_insert, List.map_cons, List.mem_cons]
      grind

theorem mem_names_ofList {pairs : List (String × α)} {name : String} :
    name ∈ (ofList pairs).names ↔ name ∈ pairs.map Prod.fst := by
  rw [ofList, mem_names_foldl_insert]
  simp [empty, names]

/-- A name of the pairs a table is made of has the value of one of its pairs. -/
theorem exists_find?_ofList {pairs : List (String × α)} {name : String}
    (h : name ∈ pairs.map Prod.fst) :
    ∃ value, (name, value) ∈ pairs ∧ (ofList pairs).find? name = some value := by
  have hSome := (find?_isSome_iff _ _).mpr (mem_names_ofList.mpr h)
  obtain ⟨value, hValue⟩ := Option.isSome_iff_exists.mp hSome
  exact ⟨value, mem_of_find?_ofList hValue, hValue⟩

theorem isEmpty_insert (m : Catalog α) (name : String) (value : α) :
    (m.insert name value).isEmpty = false := by
  obtain ⟨entries, sorted⟩ := m
  show (place name value entries).isEmpty = false
  cases entries with
  | nil => rfl
  | cons entry rest =>
      rw [place]
      split
      · rfl
      · split <;> rfl

theorem isEmpty_insertNew (m : Catalog α) (name : String) (value : α) :
    (m.insertNew name value).isEmpty = false := by
  unfold insertNew
  split
  · next hOld =>
      have hMem : name ∈ m.entries.map Prod.fst := (m.contains_iff name).mp hOld
      unfold isEmpty
      cases hEntries : m.entries with
      | nil => simp [hEntries] at hMem
      | cons entry rest => rfl
  · exact isEmpty_insert m name value

/-- Two tables in which every name has the same value are equal. -/
theorem ext_find? {m other : Catalog α} (h : ∀ name, m.find? name = other.find? name) :
    m = other := by
  have hIrrefl : ∀ a b : String × α, a.1 < b.1 → a ≠ b := by
    rintro a b hLess rfl
    exact String.lt_irrefl a.1 hLess
  have hMem : ∀ entry, entry ∈ m.entries ↔ entry ∈ other.entries := by
    rintro ⟨name, value⟩
    rw [← find?_eq_some_iff, ← find?_eq_some_iff, h]
  have hPerm : m.entries.Perm other.entries :=
    (List.perm_ext_iff_of_nodup (m.sorted.imp (hIrrefl _ _)) (other.sorted.imp (hIrrefl _ _))).mpr
      hMem
  have hEntries : m.entries = other.entries :=
    hPerm.eq_of_pairwise (fun a b _ _ hLess hMore => absurd hMore (String.lt_asymm hLess))
      m.sorted other.sorted
  obtain ⟨entries, sorted⟩ := m
  obtain rfl : entries = other.entries := hEntries
  rfl

/-- Inserting different names can be done in either order. -/
theorem insert_comm (m : Catalog α) {a b : String} (x y : α) (h : a ≠ b) :
    (m.insert a x).insert b y = (m.insert b y).insert a x := by
  refine ext_find? fun name => ?_
  simp only [find?_insert]
  by_cases hName : name = a
  · simp [hName, h]
  · simp [hName]

theorem find?_insertNew (m : Catalog α) (name : String) (value : α) (other : String) :
    (m.insertNew name value).find? other =
      if other = name then some ((m.find? name).getD value) else m.find? other := by
  have hContains : m.contains name = (m.find? name).isSome := by
    rw [Bool.eq_iff_iff, contains_iff, find?_isSome_iff]
  unfold insertNew
  rw [hContains]
  cases hFind : m.find? name with
  | none => simp [find?_insert]
  | some old =>
      by_cases hOther : other = name
      · simp [hOther, hFind]
      · simp [hOther]

theorem insertNew_comm (m : Catalog α) {a b : String} (x y : α) (h : a ≠ b) :
    (m.insertNew a x).insertNew b y = (m.insertNew b y).insertNew a x := by
  refine ext_find? fun name => ?_
  simp only [find?_insertNew]
  by_cases hName : name = a
  · simp [hName, h]
  · by_cases hOther : name = b
    · simp [hOther, h.symm]
    · simp [hName, hOther]

end Catalog

/-! ## Sorted lists of names -/

theorem perm_sortNames (names : List String) : (sortNames names).Perm names :=
  List.mergeSort_perm names _

theorem sortNames_eq_nil_iff {names : List String} : sortNames names = [] ↔ names = [] := by
  constructor
  · intro h
    exact (h ▸ perm_sortNames names).symm.eq_nil
  · rintro rfl
    exact (perm_sortNames []).eq_nil

theorem pairwise_sortNames (names : List String) :
    (sortNames names).Pairwise fun a b => a ≤ b := by
  let le : String → String → Bool := fun a b => decide (a ≤ b)
  have hTrans : ∀ a b c, le a b = true → le b c = true → le a c = true := by
    simpa [le] using fun a b c => String.le_trans
  have hTotal : ∀ a b, (le a b || le b a) = true := by
    simpa [le] using String.le_total
  exact (List.pairwise_mergeSort hTrans hTotal names).imp of_decide_eq_true

/-- Sorting forgets the order in which names were given. -/
theorem sortNames_eq_of_perm {names others : List String} (h : names.Perm others) :
    sortNames names = sortNames others := by
  have hPerm : (sortNames names).Perm (sortNames others) :=
    (perm_sortNames names).trans (h.trans (perm_sortNames others).symm)
  exact hPerm.eq_of_pairwise (fun a b _ _ => String.le_antisymm) (pairwise_sortNames names)
    (pairwise_sortNames others)

/-- Distinct names are sorted in strict order. -/
theorem pairwise_lt_sortNames {names : List String} (h : names.Nodup) :
    (sortNames names).Pairwise (· < ·) := by
  have hDistinct : (sortNames names).Nodup := (perm_sortNames names).nodup_iff.mpr h
  refine ((pairwise_sortNames names).and hDistinct).imp fun ⟨hLess, hNot⟩ => ?_
  exact String.not_le.mp fun hMore => hNot (String.le_antisymm hLess hMore)

/-- Lists in strict order that have the same names are equal. -/
theorem eq_of_pairwise_lt {names others : List String} (h : names.Pairwise (· < ·))
    (hOthers : others.Pairwise (· < ·)) (hMem : ∀ name, name ∈ names ↔ name ∈ others) :
    names = others := by
  have hPerm : names.Perm others :=
    (List.perm_ext_iff_of_nodup (nodup_of_pairwise_lt h) (nodup_of_pairwise_lt hOthers)).mpr hMem
  exact hPerm.eq_of_pairwise (fun a b _ _ hLess hMore => absurd hMore (String.lt_asymm hLess))
    h hOthers

end Storyline
