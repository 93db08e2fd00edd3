import Storyline.Proofs.Names
import Storyline.Proofs.Vocabulary

/-!
# Numbering members

Tokens and members are added to a vocabulary unless they are known already, so that it makes no
difference whether they come one by one or were joined before (`foldl_addTokens`). A member that is
new gets the successor of the largest value. Values have 64 bits: as long as there is room for the
numbers (`Named.HasRoom`), the running number of `Failures.addMembers` is that successor again after
each member (`Named.addMembers_eq`).
-/

set_option autoImplicit false

namespace Storyline

/-! ## Names that are known already -/

section

variable {σ : Type} {add : σ → String → σ} {knows : σ → String → Prop}

theorem knows_foldl (hAdd : ∀ s name, knows (add s name) name)
    (hKeeps : ∀ s name other, knows s name → knows (add s other) name) {names : List String}
    {name : String} (h : name ∈ names) (s : σ) : knows (names.foldl add s) name := by
  have hStays : ∀ (others : List String) (s : σ), knows s name →
      knows (others.foldl add s) name := by
    intro others
    induction others with
    | nil => exact fun s hs => hs
    | cons other rest ih => exact fun s hs => ih _ (hKeeps s name other hs)
  induction names generalizing s with
  | nil => cases h
  | cons first rest ih =>
      rcases List.mem_cons.mp h with rfl | hRest
      · exact hStays rest _ (hAdd s name)
      · exact ih hRest (add s first)

variable (knows) in
/-- Names are added to the same effect whether those that occur in two lists are left out of the
second or not, if adding a name that is known does nothing. -/
theorem foldl_addTokens (hAdd : ∀ s name, knows (add s name) name)
    (hKeeps : ∀ s name other, knows s name → knows (add s other) name)
    (hKnown : ∀ s name, knows s name → add s name = s) (names others : List String) (s : σ) :
    (Failures.addTokens names others).foldl add s = others.foldl add (names.foldl add s) := by
  induction others generalizing names with
  | nil => rfl
  | cons first rest ih =>
      rw [Failures.addTokens, ih, List.foldl_cons]
      by_cases hFirst : names.contains first = true
      · have hKnows := knows_foldl hAdd hKeeps (List.contains_iff_mem.mp hFirst) s
        rw [if_pos hFirst, hKnown _ _ hKnows]
      · rw [if_neg hFirst, List.foldl_append]
        rfl

end

/-! ## Tokens -/

namespace Failures

/-- A list with a token more, unless it is there. -/
def addToken (list : List String) (token : String) : List String :=
  if list.contains token then list else list ++ [token]

theorem addTokens_eq (list others : List String) :
    addTokens list others = others.foldl addToken list := by
  induction others generalizing list with
  | nil => rfl
  | cons first rest ih => exact ih (addToken list first)

theorem mem_addToken_iff {list : List String} {token other : String} :
    token ∈ addToken list other ↔ token ∈ list ∨ token = other := by
  have hMem := mem_addTokens token [other] list
  rwa [List.mem_singleton] at hMem

theorem addToken_of_mem {list : List String} {token : String} (h : token ∈ list) :
    addToken list token = list := if_pos (List.contains_iff_mem.mpr h)

theorem addTokens_self (list : List String) : addTokens list list = list := by
  have hAll : ∀ others : List String, (∀ token ∈ others, token ∈ list) →
      others.foldl addToken list = list := by
    intro others
    induction others with
    | nil => exact fun _ => rfl
    | cons first rest ih =>
        intro h
        rw [List.foldl_cons, addToken_of_mem (h first List.mem_cons_self)]
        exact ih fun token hToken => h token (List.mem_cons_of_mem _ hToken)
  rw [addTokens_eq]
  exact hAll list fun _ hToken => hToken

theorem addTokens_assoc (a b c : List String) :
    addTokens (addTokens a b) c = addTokens a (addTokens b c) := by
  rw [addTokens_eq, addTokens_eq a b, addTokens_eq a]
  refine (foldl_addTokens (fun list token => token ∈ list) ?_ ?_ ?_ b c a).symm
  · exact fun list token => mem_addToken_iff.mpr (.inr rfl)
  · exact fun list token other hToken => mem_addToken_iff.mpr (.inl hToken)
  · exact fun list token hToken => addToken_of_mem hToken

end Failures

/-! ## Values that are numbered on -/

instance lawfulOrderMax_int64 : Std.LawfulOrderMax Int64 where
  max_eq_or a b := by
    show (if a ≤ b then b else a) = a ∨ (if a ≤ b then b else a) = b
    split
    · exact .inr rfl
    · exact .inl rfl
  max_le_iff a b c := by
    show (if a ≤ b then b else a) ≤ c ↔ a ≤ c ∧ b ≤ c
    simp only [Int64.le_iff_toInt_le]
    split <;> omega

namespace Named

variable {m : Named Int64} {count : Nat}

/-- The values of the members, in order. -/
def values (m : Named Int64) : List Int64 := m.entries.map Prod.snd

/-- There is room for some members more: when they are numbered on from the largest value, or from
zero, the largest number of 64 bits is not reached. -/
def HasRoom (m : Named Int64) (count : Nat) : Prop :=
  ∀ value ∈ 0 :: m.values, value.toInt + count < Int64.maxValue.toInt

theorem HasRoom.mono {more : Nat} (h : m.HasRoom more) (hLess : count ≤ more) :
    m.HasRoom count := by
  intro value hValue
  have hRoom := h value hValue
  omega

end Named

namespace Failures

/-- The largest of some values, or zero if there are none. -/
def largest (values : List Int64) : Int64 := values.max?.getD 0

theorem nextValue_eq (values : List Int64) : nextValue values = largest values + 1 := rfl

theorem largest_mem (values : List Int64) : largest values ∈ 0 :: values := by
  unfold largest
  cases hMax : values.max? with
  | none => exact List.mem_cons_self
  | some value => exact List.mem_cons_of_mem _ (List.max?_eq_some_iff.mp hMax).1

theorem le_largest {values : List Int64} {value : Int64} (h : value ∈ values) :
    value ≤ largest values := by
  unfold largest
  cases hMax : values.max? with
  | none =>
      obtain rfl := List.max?_eq_none_iff.mp hMax
      cases h
  | some last => exact (List.max?_eq_some_iff.mp hMax).2 value h

theorem toInt_add_one {value : Int64} (h : value.toInt < Int64.maxValue.toInt) :
    (value + 1).toInt = value.toInt + 1 := by
  have hLow := Int64.le_toInt value
  have hMax : Int64.maxValue.toInt = 2 ^ 63 - 1 := by decide
  rw [hMax] at h
  rw [Int64.toInt_add, Int64.toInt_one, Int.bmod_eq_of_le] <;> omega

end Failures

namespace Named

variable {m : Named Int64} {count : Nat}

open Failures (nextValue)

/-- A table with a member more, under the next value, unless it is there. -/
def addMember (m : Named Int64) (name : String) : Named Int64 :=
  if m.contains name then m else m.insert name (nextValue m.values)

theorem values_insert {name : String} (hNew : name ∉ m.names) (value : Int64) :
    (m.insert name value).values = m.values ++ [value] := by
  have hEntries : (m.insert name value).entries = m.entries ++ [(name, value)] :=
    assign_of_notMem value hNew
  rw [values, hEntries, List.map_append]
  rfl

theorem addMember_of_mem {name : String} (h : name ∈ m.names) : m.addMember name = m :=
  if_pos ((m.contains_iff name).mpr h)

theorem addMember_of_notMem {name : String} (h : name ∉ m.names) :
    m.addMember name = m.insert name (nextValue m.values) :=
  if_neg fun hContains => h ((m.contains_iff name).mp hContains)

theorem names_addMember (m : Named Int64) (name : String) :
    (m.addMember name).names = Failures.addToken m.names name := by
  by_cases hName : name ∈ m.names
  · rw [addMember_of_mem hName, Failures.addToken_of_mem hName]
  · rw [addMember_of_notMem hName, names_insert, if_neg hName, Failures.addToken,
      if_neg fun hContains => hName (List.contains_iff_mem.mp hContains)]

theorem names_foldl_addMember (m : Named Int64) (names : List String) :
    (names.foldl addMember m).names = Failures.addTokens m.names names := by
  rw [Failures.addTokens_eq]
  induction names generalizing m with
  | nil => rfl
  | cons name rest ih => rw [List.foldl_cons, ih, names_addMember, List.foldl_cons]

/-- **Members can be joined before they are added**, or be added one after the other. -/
theorem foldl_addMember (a b : Named Int64) (names : List String) :
    (names.foldl addMember b).names.foldl addMember a =
      names.foldl addMember (b.names.foldl addMember a) := by
  have hMem : ∀ (m : Named Int64) (name other : String),
      name ∈ (m.addMember other).names ↔ name ∈ m.names ∨ name = other := by
    intro m name other
    rw [names_addMember]
    exact Failures.mem_addToken_iff
  rw [names_foldl_addMember]
  refine foldl_addTokens (fun m name => name ∈ m.names) ?_ ?_ ?_ b.names names a
  · exact fun m name => (hMem m name name).mpr (.inr rfl)
  · exact fun m name other hName => (hMem m name other).mpr (.inl hName)
  · exact fun m name hName => addMember_of_mem hName

/-! ## Room for numbers -/

/-- The next value is larger than all others, and the next but one is its successor. -/
theorem nextValue_insert {name : String} (hNew : name ∉ m.names) (h : m.HasRoom 1) :
    nextValue (m.insert name (nextValue m.values)).values = nextValue m.values + 1 := by
  have hValue : (nextValue m.values).toInt = (Failures.largest m.values).toInt + 1 := by
    have hRoom := h _ (Failures.largest_mem m.values)
    rw [Failures.nextValue_eq, Failures.toInt_add_one (by omega)]
  have hMax : (m.values ++ [nextValue m.values]).max? = some (nextValue m.values) := by
    rw [List.max?_eq_some_iff]
    refine ⟨by simp, fun value hIn => ?_⟩
    rcases List.mem_append.mp hIn with hOld | hLast
    · have hLess := Int64.le_iff_toInt_le.mp (Failures.le_largest hOld)
      rw [Int64.le_iff_toInt_le]
      omega
    · rw [List.mem_singleton.mp hLast]
      exact Std.le_refl _
  rw [values_insert hNew, nextValue, hMax]
  rfl

theorem HasRoom.addMember (h : m.HasRoom (count + 1)) (name : String) :
    (m.addMember name).HasRoom count := by
  by_cases hName : name ∈ m.names
  · rw [addMember_of_mem hName]
    exact h.mono (Nat.le_succ count)
  · rw [addMember_of_notMem hName]
    intro value hValue
    rw [values_insert hName, ← List.cons_append] at hValue
    rcases List.mem_append.mp hValue with hOld | hLast
    · have hRoom := h value hOld
      omega
    · have hRoom := h _ (Failures.largest_mem m.values)
      rw [List.mem_singleton.mp hLast, Failures.nextValue_eq, Failures.toInt_add_one (by omega)]
      omega

theorem HasRoom.foldl_addMember {names : List String} (h : m.HasRoom (names.length + count)) :
    (names.foldl Named.addMember m).HasRoom count := by
  induction names generalizing m with
  | nil => exact h.mono (Nat.le_add_left _ _)
  | cons name rest ih =>
      refine ih (HasRoom.addMember (h.mono ?_) name)
      rw [List.length_cons]
      omega

theorem length_names (m : Named Int64) : m.names.length = m.size := List.length_map _

theorem size_addMember_le (m : Named Int64) (name : String) :
    (m.addMember name).size ≤ m.size + 1 := by
  rw [← length_names, ← length_names, names_addMember, Failures.addToken]
  split
  · exact Nat.le_succ _
  · rw [List.length_append]
    exact Nat.le_refl _

theorem size_foldl_addMember_le (m : Named Int64) (names : List String) :
    (names.foldl addMember m).size ≤ m.size + names.length := by
  induction names generalizing m with
  | nil => exact Nat.le_refl _
  | cons name rest ih =>
      have hFirst := m.size_addMember_le name
      have hRest := ih (m.addMember name)
      rw [List.foldl_cons, List.length_cons]
      omega

/-- As long as there is room, the running number is always the next value. -/
theorem addMembers_eq {others : List (String × Int64)} (h : m.HasRoom others.length) :
    Failures.addMembers m (nextValue m.values) others =
      (others.map Prod.fst).foldl addMember m := by
  induction others generalizing m with
  | nil => rfl
  | cons first rest ih =>
      obtain ⟨name, value⟩ := first
      rw [List.length_cons] at h
      rw [Failures.addMembers, List.map_cons, List.foldl_cons]
      have hRest := ih (HasRoom.addMember h name)
      by_cases hName : name ∈ m.names
      · rw [addMember_of_mem hName] at hRest ⊢
        rw [if_pos ((m.contains_iff name).mpr hName)]
        exact hRest
      · rw [addMember_of_notMem hName] at hRest ⊢
        rw [nextValue_insert hName (h.mono (by omega))] at hRest
        rw [if_neg fun hContains => hName ((m.contains_iff name).mp hContains)]
        exact hRest

end Named

end Storyline
