import Storyline.Failures.Protocol

/-!
# Reasons of joined vocabularies

`Failures.has` says that a reason belongs to a vocabulary that may be none. A reason belongs to
the join of two vocabularies exactly when it belongs to one of them (`has_combine`): tokens unite
by text, members by name.
-/

set_option autoImplicit false

namespace Storyline.Failures

/-- A reason belongs to a vocabulary that may be none. -/
def has (vocabulary : Option Failures) (r : Reason) : Prop :=
  ∃ all, vocabulary = some all ∧ all.contains r = true

theorem not_has_none (r : Reason) : ¬ has none r := by
  rintro ⟨all, h, -⟩
  cases h

theorem has_some_iff (all : Failures) (r : Reason) : has (some all) r ↔ all.contains r = true := by
  constructor
  · rintro ⟨other, h, hr⟩
    cases h
    exact hr
  · intro hr
    exact ⟨all, rfl, hr⟩

/-- What is known already need not be added. -/
theorem mem_or_mem_cons_iff {name first : String} {known rest : List String}
    (hKnown : first ∈ known) : name ∈ known ∨ name ∈ first :: rest ↔ name ∈ known ∨ name ∈ rest := by
  rw [List.mem_cons]
  constructor
  · rintro (h | rfl | h)
    · exact .inl h
    · exact .inl hKnown
    · exact .inr h
  · rintro (h | h)
    · exact .inl h
    · exact .inr (.inr h)

theorem mem_addTokens (token : String) (others list : List String) :
    token ∈ addTokens list others ↔ token ∈ list ∨ token ∈ others := by
  induction others generalizing list with
  | nil => simp [addTokens]
  | cons first rest ih =>
      rw [addTokens, ih]
      by_cases hKnown : list.contains first = true
      · rw [if_pos hKnown, mem_or_mem_cons_iff (List.contains_iff_mem.mp hKnown)]
      · rw [if_neg hKnown, List.mem_append, List.mem_singleton, List.mem_cons, or_assoc]

theorem mem_names_addMembers (name : String) (others : List (String × Int64))
    (members : Named Int64) (next : Int64) :
    name ∈ (addMembers members next others).names ↔
      name ∈ members.names ∨ name ∈ others.map Prod.fst := by
  induction others generalizing members next with
  | nil => simp [addMembers]
  | cons first rest ih =>
      obtain ⟨other, value⟩ := first
      rw [addMembers, List.map_cons]
      by_cases hKnown : members.contains other = true
      · rw [if_pos hKnown, ih, mem_or_mem_cons_iff ((members.contains_iff other).mp hKnown)]
      · have hOther : other ∉ members.names := fun h => hKnown ((members.contains_iff other).mpr h)
        rw [if_neg hKnown, ih, Named.names_insert, if_neg hOther, List.mem_append,
          List.mem_singleton, List.mem_cons, or_assoc]

/-- A reason belongs to the join of two vocabularies when it belongs to one of them. -/
theorem contains_of_join {ours theirs : Failures} {joined : Option Failures}
    (h : join? (some ours) (some theirs) = some joined) :
    ∃ all, joined = some all ∧
      ∀ r, all.contains r = true ↔ ours.contains r = true ∨ theirs.contains r = true := by
  cases ours with
  | tokens list =>
      cases theirs with
      | tokens others =>
          cases h
          refine ⟨_, rfl, fun r => ?_⟩
          cases r with
          | token text => simp [contains, mem_addTokens]
          | member _ _ _ => simp [contains]
      -- tokens do not join with members
      | enumeration e => cases h
  | enumeration e =>
      cases theirs with
      | tokens others => cases h
      | enumeration e' =>
          cases h
          refine ⟨_, rfl, fun r => ?_⟩
          cases r with
          | token text => simp [contains, Enumeration.contains]
          | member _ name _ =>
              simp only [contains, Enumeration.contains, Named.contains_iff,
                mem_names_addMembers]
              rfl

/-- What combining two vocabularies comes to: the other one if one is none, and a join of the two
otherwise. -/
theorem combine_cases {story substory : String} {ours theirs joined : Option Failures}
    (h : combine story ours substory theirs = .ok joined) :
    ours = none ∧ joined = theirs ∨ theirs = none ∧ joined = ours ∨
      ∃ own other all, ours = some own ∧ theirs = some other ∧ joined = some all ∧
        ∀ r, all.contains r = true ↔ own.contains r = true ∨ other.contains r = true := by
  cases ours with
  | none => exact .inl ⟨rfl, (Except.ok.inj h).symm⟩
  | some own =>
      cases theirs with
      | none => exact .inr (.inl ⟨rfl, (Except.ok.inj h).symm⟩)
      | some other =>
          simp only [combine] at h
          split at h
          · next both hJoin =>
              obtain rfl := Except.ok.inj h
              obtain ⟨all, rfl, hAll⟩ := contains_of_join hJoin
              exact .inr (.inr ⟨own, other, all, rfl, rfl, rfl, hAll⟩)
          · cases h

/-- A reason belongs to a combined vocabulary when it belongs to one of its parts. -/
theorem has_combine {story substory : String} {ours theirs joined : Option Failures}
    (h : combine story ours substory theirs = .ok joined) (r : Reason) :
    has joined r ↔ has ours r ∨ has theirs r := by
  rcases combine_cases h with ⟨rfl, rfl⟩ | ⟨rfl, rfl⟩ | ⟨own, other, all, rfl, rfl, rfl, hAll⟩
  · simp [not_has_none]
  · simp [not_has_none]
  · rw [has_some_iff, has_some_iff, has_some_iff, hAll]

/-- A combined vocabulary is none only when both its parts are. -/
theorem isSome_combine {story substory : String} {ours theirs joined : Option Failures}
    (h : combine story ours substory theirs = .ok joined) :
    joined.isSome = true ↔ ours.isSome = true ∨ theirs.isSome = true := by
  rcases combine_cases h with ⟨rfl, rfl⟩ | ⟨rfl, rfl⟩ | ⟨own, other, all, rfl, rfl, rfl, -⟩
  · simp
  · simp
  · simp

end Storyline.Failures
