import Mathlib.Tactic.Set
import Storyline.Failures.Protocol
import Storyline.Proofs.Numbering

/-!
# Members that an enumeration gains

An enumeration that is combined with that of a substory keeps its members as they are. Those that
are new follow in the order of the substory, numbered on from the largest value
(`Named.entries_addMembers`). Numbers have 64 bits, and values may be any of them, so that there
need not be room for the new ones above the largest.

`Failures.joinMembers?` is the same computation with sums that must not overflow. They do not as
long as the largest value and the number of new members together stay below the largest number
(`Failures.joinMembers?_eq`), and while they do not exceed it the new values are larger than all
before them (`Failures.ascend_numbered_iff`). Beyond it values go on from the least number, which
may be that of another member (`Harbour.wrapped`).
-/

set_option autoImplicit false

namespace Storyline

/-! ## New members -/

/-- Names with the values from `next` on. -/
def Failures.numbered : Int64 → List String → List (String × Int64)
  | _, [] => []
  | next, name :: rest => (name, next) :: numbered (next + 1) rest

theorem Failures.map_fst_numbered (next : Int64) (names : List String) :
    (numbered next names).map Prod.fst = names := by
  induction names generalizing next with
  | nil => rfl
  | cons name rest ih => rw [numbered, List.map_cons, ih]

namespace Named

variable {m : Named Int64} {name : String} {rest : List String}

open Failures (addMembers numbered)

/-- The names among some others that are new. -/
def newNames (m : Named Int64) (names : List String) : List String :=
  names.filter fun name => !m.contains name

theorem newNames_cons_of_mem (h : name ∈ m.names) :
    m.newNames (name :: rest) = m.newNames rest := by
  have hContains : m.contains name = true := (m.contains_iff name).mpr h
  exact List.filter_cons_of_neg (by simp [hContains])

theorem newNames_cons_of_notMem (h : name ∉ m.names) :
    m.newNames (name :: rest) = name :: m.newNames rest := by
  have hContains : m.contains name = false :=
    Bool.eq_false_iff.mpr fun hName => h ((m.contains_iff name).mp hName)
  exact List.filter_cons_of_pos (by simp [hContains])

/-- A name that is inserted makes no difference to others. -/
theorem newNames_insert (hRest : name ∉ rest) (value : Int64) :
    (m.insert name value).newNames rest = m.newNames rest := by
  refine List.filter_congr fun other hOther => ?_
  have hNe : other ≠ name := fun hEq => hRest (hEq ▸ hOther)
  have hIff : (m.insert name value).contains other = true ↔ m.contains other = true := by
    rw [contains_iff, contains_iff, names_insert]
    split
    · exact Iff.rfl
    · rw [List.mem_append, List.mem_singleton, or_iff_left hNe]
  rw [Bool.eq_iff_iff.mpr hIff]

/-- **What adding members comes to**: those that are there stay, and the new ones are numbered
on. -/
theorem entries_addMembers {others : List (String × Int64)}
    (hDistinct : (others.map Prod.fst).Nodup)
    (m : Named Int64) (next : Int64) :
    (addMembers m next others).entries =
      m.entries ++ numbered next (m.newNames (others.map Prod.fst)) := by
  induction others generalizing m next with
  | nil => exact (List.append_nil _).symm
  | cons first rest ih =>
      obtain ⟨name, value⟩ := first
      obtain ⟨hFirst, hRest⟩ := List.nodup_cons.mp hDistinct
      rw [addMembers, List.map_cons]
      by_cases hName : name ∈ m.names
      · rw [if_pos ((m.contains_iff name).mpr hName), newNames_cons_of_mem hName, ih hRest]
      · have hEntries : (m.insert name next).entries = m.entries ++ [(name, next)] :=
          assign_of_notMem next hName
        rw [if_neg fun hContains => hName ((m.contains_iff name).mp hContains),
          newNames_cons_of_notMem hName, ih hRest, newNames_insert hFirst, hEntries,
          List.append_assoc]
        rfl

end Named

namespace Failures

variable {m : Named Int64} {next : Int64} {names : List String}

/-! ## Values in order -/

/-- Some values follow others in order: each is larger than all before it. -/
def Ascend (known added : List Int64) : Prop :=
  (∀ value ∈ known, ∀ next ∈ added, value < next) ∧ added.Pairwise (· < ·)

theorem Ascend.nodup {known added : List Int64} (h : Ascend known added) (hKnown : known.Nodup) :
    (known ++ added).Nodup := by
  refine List.nodup_append.mpr ⟨hKnown, h.2.imp fun hLess => ?_, fun a ha b hb => ?_⟩
  · exact Int64.ne_of_lt hLess
  · exact Int64.ne_of_lt (h.1 a ha b hb)

theorem toInt_lt_maxValue_iff : next.toInt < Int64.maxValue.toInt ↔ next ≠ Int64.maxValue := by
  rw [Int.lt_iff_le_and_ne, and_iff_right next.toInt_le, Ne, Int64.toInt_inj]

/-- Only the largest number is not less than the next one. -/
theorem toInt_lt_of_lt_add_one (h : next < next + 1) : next.toInt < Int64.maxValue.toInt := by
  refine toInt_lt_maxValue_iff.mpr fun hEq => ?_
  rw [hEq] at h
  exact absurd h (by decide)

/-- While there is room, the values are consecutive integers. -/
theorem toInt_numbered (h : next.toInt + names.length ≤ Int64.maxValue.toInt + 1) :
    (numbered next names).map (fun entry => entry.2.toInt) =
      (List.range names.length).map fun (index : Nat) => next.toInt + index := by
  induction names generalizing next with
  | nil => rfl
  | cons name rest ih =>
      rw [List.length_cons, List.range_succ_eq_map, numbered, List.map_cons, List.map_cons,
        List.map_map]
      cases rest with
      | nil => simp [numbered]
      | cons second rest =>
          rw [List.length_cons, List.length_cons] at h
          have hNext : (next + 1).toInt = next.toInt + 1 := toInt_add_one (by omega)
          rw [ih (by rw [hNext, List.length_cons]; omega), hNext]
          simp [Function.comp_def, Int.add_assoc, Int.add_comm 1]

/-- Values that are numbered on ascend exactly while there is room for them. -/
theorem pairwise_numbered_iff : ((numbered next names).map Prod.snd).Pairwise (· < ·) ↔
    next.toInt + names.length ≤ Int64.maxValue.toInt + 1 := by
  constructor
  · intro h
    induction names generalizing next with
    | nil =>
        have hLess := next.toInt_le
        rw [List.length_nil]
        omega
    | cons name rest ih =>
        obtain ⟨hFirst, hRest⟩ := List.pairwise_cons.mp h
        cases rest with
        | nil =>
            have hLess := next.toInt_le
            rw [List.length_singleton]
            omega
        | cons second rest =>
            have hRoom := toInt_lt_of_lt_add_one (hFirst (next + 1) List.mem_cons_self)
            have hNext := ih hRest
            rw [toInt_add_one hRoom] at hNext
            rw [List.length_cons]
            dsimp only at hNext
            omega
  · intro h
    have hRange : ((numbered next names).map fun entry => entry.2.toInt).Pairwise (· < ·) := by
      rw [toInt_numbered h, List.pairwise_map]
      exact List.pairwise_lt_range.imp fun hLess => by omega
    rw [List.pairwise_map] at hRange ⊢
    exact hRange.imp fun hLess => Int64.lt_iff_toInt_lt.mpr hLess

/-- The values after the largest are in order exactly while there is room for them. -/
theorem ascend_numbered_iff {known : List Int64} :
    Ascend known ((numbered (nextValue known) names).map Prod.snd) ↔
      (largest known).toInt + names.length ≤ Int64.maxValue.toInt := by
  rw [nextValue_eq]
  cases names with
  | nil =>
      have hLess := (largest known).toInt_le
      simpa [Ascend, numbered] using hLess
  | cons name rest =>
      constructor
      · rintro ⟨hKnown, hAdded⟩
        -- the largest value is less than its successor, as one of the values or as zero
        have hNext : largest known < largest known + 1 := by
          rcases List.mem_cons.mp (largest_mem known) with hZero | hMem
          · rw [hZero]
            decide
          · exact hKnown _ hMem _ List.mem_cons_self
        have hRoom := pairwise_numbered_iff.mp hAdded
        rw [toInt_add_one (toInt_lt_of_lt_add_one hNext)] at hRoom
        omega
      · intro hRoom
        rw [List.length_cons] at hRoom
        have hNext : (largest known + 1).toInt = (largest known).toInt + 1 :=
          toInt_add_one (by omega)
        have hAdded : (largest known + 1).toInt + (name :: rest).length ≤
            Int64.maxValue.toInt + 1 := by
          rw [hNext, List.length_cons]
          omega
        refine ⟨fun value hValue added hIn => ?_, pairwise_numbered_iff.mpr hAdded⟩
        obtain ⟨entry, hEntry, rfl⟩ := List.mem_map.mp hIn
        have hInt : entry.2.toInt ∈ (numbered (largest known + 1) (name :: rest)).map
            fun entry => entry.2.toInt := List.mem_map_of_mem hEntry
        rw [toInt_numbered hAdded] at hInt
        obtain ⟨index, -, hIndex⟩ := List.mem_map.mp hInt
        have hLess := Int64.le_iff_toInt_le.mp (le_largest hValue)
        rw [Int64.lt_iff_toInt_lt]
        omega

/-! ## Sums that do not overflow -/

/-- The number after another, if 64 bits hold it. -/
def successor? (value : Int64) : Option Int64 :=
  if value = Int64.maxValue then none else some (value + 1)

/-- `addMembers` with sums that must not overflow. -/
def addMembers? : Named Int64 → Int64 → List (String × Int64) → Option (Named Int64)
  | members, _, [] => some members
  | members, next, (name, _) :: rest =>
    if members.contains name then addMembers? members next rest
    else (successor? next).bind fun after => addMembers? (members.insert name next) after rest

/-- The members of a join, if none of the sums overflows that are computed for it. The first of
them is the one after the largest value, whether there are new members or not. -/
def joinMembers? (ours theirs : Named Int64) : Option (Named Int64) :=
  (successor? (largest ours.values)).bind fun next => addMembers? ours next theirs.entries

theorem successor?_bind {σ : Type} (value : Int64) (f : Int64 → Option σ) :
    (successor? value).bind f =
      if value.toInt < Int64.maxValue.toInt then f (value + 1) else none := by
  rw [successor?]
  by_cases h : value = Int64.maxValue
  · rw [if_pos h, h, if_neg (Int.lt_irrefl _)]
    rfl
  · rw [if_neg h, if_pos (toInt_lt_maxValue_iff.mpr h)]
    rfl

theorem addMembers?_eq {others : List (String × Int64)} (hDistinct : (others.map Prod.fst).Nodup)
    (m : Named Int64) (next : Int64) :
    addMembers? m next others =
      if next.toInt + (m.newNames (others.map Prod.fst)).length ≤ Int64.maxValue.toInt then
        some (addMembers m next others)
      else none := by
  induction others generalizing m next with
  | nil => exact (if_pos (by simpa [Named.newNames] using next.toInt_le)).symm
  | cons first rest ih =>
      obtain ⟨name, value⟩ := first
      obtain ⟨hFirst, hRest⟩ := List.nodup_cons.mp hDistinct
      rw [addMembers?, addMembers, List.map_cons]
      by_cases hName : name ∈ m.names
      · rw [if_pos ((m.contains_iff name).mpr hName), if_pos ((m.contains_iff name).mpr hName),
          Named.newNames_cons_of_mem hName]
        exact ih hRest m next
      · have hContains : ¬ m.contains name = true := fun h => hName ((m.contains_iff name).mp h)
        rw [if_neg hContains, if_neg hContains, Named.newNames_cons_of_notMem hName,
          List.length_cons, successor?_bind, ih hRest, Named.newNames_insert hFirst]
        by_cases hNext : next.toInt < Int64.maxValue.toInt
        · have hIff : ∀ count : Nat, next.toInt + 1 + count ≤ Int64.maxValue.toInt ↔
              next.toInt + (count + 1 : Nat) ≤ Int64.maxValue.toInt := fun count => by omega
          rw [if_pos hNext, toInt_add_one hNext]
          simp only [hIff]
        · rw [if_neg hNext, if_neg (by omega)]

/-- **When no sum overflows**: the largest value and the number of new members together stay below
the largest number. -/
theorem joinMembers?_eq (ours theirs : Named Int64) :
    joinMembers? ours theirs =
      if (largest ours.values).toInt + (ours.newNames theirs.names).length < Int64.maxValue.toInt
      then some (addMembers ours (nextValue ours.values) theirs.entries)
      else none := by
  rw [joinMembers?, successor?_bind, addMembers?_eq theirs.distinct, nextValue_eq]
  by_cases hNext : (largest ours.values).toInt < Int64.maxValue.toInt
  · have hIff : ∀ count : Nat, (largest ours.values).toInt + 1 + count ≤ Int64.maxValue.toInt ↔
        (largest ours.values).toInt + count < Int64.maxValue.toInt := fun count => by omega
    rw [if_pos hNext, toInt_add_one hNext, Named.names]
    simp only [hIff]
  · rw [if_neg hNext, if_neg (by omega)]

/-! ## Combining enumerations -/

/-- **What an enumeration gains.** Combined with that of a substory, an enumeration keeps its name
and its members with their order and values; the members of the substory whose names are new follow
in order. Whether their values are in order as well depends on the room above the largest value.
None of the sums overflows exactly while the largest value and the number of new members stay below
the largest number. Up to that number the new values are the integers after the largest value, each
is larger than all before it, and values stay distinct; beyond it they are not in order. -/
theorem combine_enumerations (story substory : String) (ours theirs : Enumeration) :
    ∃ (joined : Enumeration) (added : List (String × Int64)),
      combine story (some (.enumeration ours)) substory (some (.enumeration theirs)) =
        .ok (some (.enumeration joined)) ∧
      joined.name = ours.name ∧
      joined.members.entries = ours.members.entries ++ added ∧
      added.map Prod.fst = ours.members.newNames theirs.members.names ∧
      joinMembers? ours.members theirs.members =
        (if (largest ours.members.values).toInt + added.length < Int64.maxValue.toInt then
          some joined.members
        else none) ∧
      (Ascend ours.members.values (added.map Prod.snd) ↔
        (largest ours.members.values).toInt + added.length ≤ Int64.maxValue.toInt) ∧
      ((largest ours.members.values).toInt + added.length ≤ Int64.maxValue.toInt →
        added.map (fun entry => entry.2.toInt) =
          (List.range added.length).map
            (fun (index : Nat) => (largest ours.members.values).toInt + 1 + index) ∧
        (ours.members.values.Nodup → joined.members.values.Nodup)) := by
  set known := ours.members.values with hKnown
  set names := ours.members.newNames theirs.members.names
  set added := numbered (nextValue known) names with hAdded
  set members := addMembers ours.members (nextValue known) theirs.members.entries with hMembers
  have hEntries : members.entries = ours.members.entries ++ added :=
    Named.entries_addMembers theirs.members.distinct ours.members (nextValue known)
  have hValues : members.values = known ++ added.map Prod.snd := by
    rw [Named.values, hEntries, List.map_append]
    rfl
  have hLength : added.length = names.length := by
    rw [← List.length_map Prod.fst, hAdded, map_fst_numbered]
  have hAscend : Ascend known (added.map Prod.snd) ↔
      (largest known).toInt + added.length ≤ Int64.maxValue.toInt := by
    rw [hLength]
    exact ascend_numbered_iff
  refine ⟨{ ours with members }, added, rfl, rfl, hEntries, map_fst_numbered _ _, ?_, hAscend,
    fun hRoom => ⟨?_, fun hDistinct => ?_⟩⟩
  · rw [hLength]
    exact joinMembers?_eq ours.members theirs.members
  · rw [hLength] at hRoom ⊢
    cases hNames : names with
    | nil => rw [hAdded, hNames]; rfl
    | cons name rest =>
        rw [hNames, List.length_cons] at hRoom
        have hNext : (nextValue known).toInt = (largest known).toInt + 1 := by
          rw [nextValue_eq, toInt_add_one (by omega)]
        rw [← hNext, ← hNames]
        refine toInt_numbered ?_
        rw [hNext, hNames, List.length_cons]
        omega
  · rw [hValues]
    exact (hAscend.mpr hRoom).nodup hDistinct

namespace Harbour

/-- Some signals with any values. -/
def signals (members : List (String × Int64)) : Enumeration := ⟨"Signals", .ofList members⟩

def lights : Enumeration := signals [("low", -7), ("high", 9223372036854775805)]

def horns : Enumeration := signals [("mid", 1), ("low", 2), ("top", 3)]

/-- The last two numbers are given to new members in order, although the sum after them, which
nothing needs, overflows. -/
theorem hoisted :
    ∃ joined, combine "Harbour.leave" (some (.enumeration lights)) "Tug.pull"
        (some (.enumeration horns)) = .ok (some (.enumeration joined)) ∧
      joined.members.entries = lights.members.entries ++
        [("mid", 9223372036854775806), ("top", Int64.maxValue)] ∧
      Ascend lights.members.values [9223372036854775806, Int64.maxValue] ∧
      joinMembers? lights.members horns.members = none := by
  obtain ⟨joined, added, hCombine, -, hEntries, -, hSums, hAscend, -⟩ :=
    combine_enumerations "Harbour.leave" "Tug.pull" lights horns
  have hJoined : joined = signals (lights.members.entries ++
      [("mid", 9223372036854775806), ("top", Int64.maxValue)]) :=
    Failures.enumeration.inj (Option.some.inj (Except.ok.inj hCombine.symm))
  have hSame : lights.members.entries ++ added = lights.members.entries ++
      [("mid", 9223372036854775806), ("top", Int64.maxValue)] := by
    rw [← hEntries, hJoined]
    rfl
  obtain rfl := List.append_cancel_left hSame
  exact ⟨joined, hCombine, hEntries, hAscend.mpr (by decide), hSums⟩

/-- Signals that have the largest and the least number. -/
def extremes : Enumeration := signals [("high", Int64.maxValue), ("low", Int64.minValue)]

def whistle : Enumeration := signals [("fresh", 1)]

/-- Beyond the largest number values go on from the least, so that two members get one value. The
sum after the largest value overflows even if no member is new. -/
theorem wrapped :
    ∃ joined, combine "Harbour.leave" (some (.enumeration extremes)) "Tug.pull"
        (some (.enumeration whistle)) = .ok (some (.enumeration joined)) ∧
      joined.members.entries = extremes.members.entries ++ [("fresh", Int64.minValue)] ∧
      ¬ Ascend extremes.members.values [Int64.minValue] ∧
      extremes.members.values.Nodup ∧ ¬ joined.members.values.Nodup ∧
      joinMembers? extremes.members whistle.members = none ∧
      joinMembers? extremes.members extremes.members = none := by
  refine ⟨_, rfl, rfl, fun h => ?_, by decide, by decide, rfl, rfl⟩
  have hLess : Int64.maxValue < Int64.minValue :=
    h.1 _ List.mem_cons_self _ List.mem_cons_self
  exact absurd hLess (by decide)

end Harbour

end Failures

end Storyline
