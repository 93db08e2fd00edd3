import Storyline.Json.Printer
import Storyline.Proofs.Equality
import Storyline.Text.Lines

/-!
# Texts on one line

The text of a value is on one line, whatever is in it (`Json.isLine_text`): numbers have no line
breaks, and those of strings are written as escapes. It is never empty (`Json.text_ne_empty`), so
that it is the only one of its lines (`linesOf_eq_singleton`).
-/

set_option autoImplicit false

namespace Storyline

/-! ## Texts on one line -/

/-- A text without line breaks. -/
def IsLine (text : String) : Prop := '\n' ∉ text.toList

instance : DecidablePred IsLine := fun text => inferInstanceAs (Decidable ('\n' ∉ text.toList))

theorem isLine_append {a b : String} : IsLine (a ++ b) ↔ IsLine a ∧ IsLine b := by
  simp [IsLine, not_or]

theorem isLine_join {texts : List String} (h : ∀ text ∈ texts, IsLine text) :
    IsLine (String.join texts) := by
  rw [IsLine, String.toList_join, List.mem_flatMap]
  rintro ⟨text, hMem, hBreak⟩
  exact h text hMem hBreak

theorem isLine_intercalate {separator : String} {texts : List String}
    (hSeparator : IsLine separator) (h : ∀ text ∈ texts, IsLine text) :
    IsLine (separator.intercalate texts) := by
  induction texts with
  | nil => simp [IsLine]
  | cons first rest ih =>
      obtain ⟨hFirst, hRest⟩ := List.forall_mem_cons.mp h
      by_cases hLast : rest = []
      · rw [hLast, String.intercalate_singleton]
        exact hFirst
      · rw [String.intercalate_cons_of_ne_nil hLast, isLine_append, isLine_append]
        exact ⟨⟨hFirst, hSeparator⟩, ih hRest⟩

theorem not_mem_toDigits {base : Nat} (hBase : 1 < base) (n : Nat) :
    '\n' ∉ Nat.toDigits base n := by
  induction n using Nat.strongRecOn with
  | ind n ih =>
      rw [Nat.toDigits_eq_if hBase]
      have hDigit (digit : Nat) : '\n' ≠ digit.digitChar :=
        (Nat.digitChar_ne '\n' (by decide)).symm
      split
      · exact fun h => hDigit n (List.mem_singleton.mp h)
      · next hLarge =>
        have hLess : n / base < n := Nat.div_lt_self (by omega) hBase
        exact List.not_mem_append (ih _ hLess) fun h => hDigit _ (List.mem_singleton.mp h)

theorem isLine_toString_int (i : Int) : IsLine (toString i) := by
  rw [Int.toString_eq_repr, Int.repr_eq_if]
  split
  · rw [IsLine, Nat.toList_repr]
    exact not_mem_toDigits (by decide) _
  · rw [isLine_append]
    refine ⟨by decide, ?_⟩
    rw [IsLine, Nat.toList_repr]
    exact not_mem_toDigits (by decide) _

/-! ## Texts of values -/

namespace Decimal

theorem not_mem_significantDigits (d : Decimal) : '\n' ∉ d.significantDigits := by
  unfold significantDigits
  rw [List.mem_reverse]
  intro hBreak
  have hDigit := List.mem_reverse.mp ((List.dropWhile_sublist _).subset hBreak)
  exact not_mem_toDigits (by decide) _ hDigit

theorem not_mem_positional (d : Decimal) : '\n' ∉ d.positional := by
  have hDigits := d.not_mem_significantDigits
  unfold positional
  dsimp only
  split
  · simp [hDigits]
  · simp only [List.mem_append, List.mem_cons, not_or]
    have hPadded (count : Nat) :
        '\n' ∉ d.significantDigits ++ List.replicate count '0' := by
      simp [hDigits]
    exact ⟨fun h => hPadded _ ((List.take_sublist _ _).subset h), by decide,
      fun h => hPadded _ ((List.drop_sublist _ _).subset h)⟩

theorem not_mem_scientific (d : Decimal) : '\n' ∉ d.scientific := by
  have hDigits := d.not_mem_significantDigits
  have hScale : '\n' ∉ Nat.toDigits 10 d.scale.natAbs := not_mem_toDigits (by decide) _
  have hSign : '\n' ≠ if d.scale < 0 then '-' else '+' := by split <;> decide
  unfold scientific
  dsimp only
  split
  · simp [hScale, hSign]
  · next digit hAll =>
    rw [hAll] at hDigits
    simp_all
  · next digit rest _ hAll =>
    rw [hAll] at hDigits
    simp_all

theorem positional_ne_nil (d : Decimal) : d.positional ≠ [] := by
  unfold positional
  dsimp only
  split <;> simp

theorem scientific_ne_nil (d : Decimal) : d.scientific ≠ [] := by
  simp [scientific]

end Decimal

/-- The text of a double, after the sign. -/
theorem Double.exists_text_eq (x : Double) : ∃ magnitude : List Char,
    x.text = String.ofList (if x.negative then '-' :: magnitude else magnitude) ∧
      (magnitude = ['0', '.', '0'] ∨ magnitude = x.shortest.positional ∨
        magnitude = x.shortest.scientific) := by
  refine ⟨_, rfl, ?_⟩
  split
  · exact .inl rfl
  · dsimp only
    split
    · exact .inr (.inl rfl)
    · exact .inr (.inr rfl)

theorem Double.isLine_text (x : Double) : IsLine x.text := by
  obtain ⟨magnitude, hText, hCases⟩ := x.exists_text_eq
  have hMagnitude : '\n' ∉ magnitude := by
    rcases hCases with rfl | rfl | rfl
    · decide
    · exact x.shortest.not_mem_positional
    · exact x.shortest.not_mem_scientific
  rw [IsLine, hText, String.toList_ofList]
  split
  · exact List.not_mem_cons_of_ne_of_not_mem (by decide) hMagnitude
  · exact hMagnitude

theorem Double.text_ne_empty (x : Double) : x.text ≠ "" := by
  obtain ⟨magnitude, hText, hCases⟩ := x.exists_text_eq
  have hMagnitude : magnitude ≠ [] := by
    rcases hCases with rfl | rfl | rfl
    · exact List.cons_ne_nil _ _
    · exact x.shortest.positional_ne_nil
    · exact x.shortest.scientific_ne_nil
  rw [hText, Ne, String.ofList_eq_empty_iff]
  split
  · exact List.cons_ne_nil _ _
  · exact hMagnitude

namespace Json

theorem isLine_hexadecimal (n : Nat) : IsLine (hexadecimal n) := by
  rw [IsLine, hexadecimal, String.toList_ofList]
  exact not_mem_toDigits (by decide) n

/-- A line break is written as an escape. -/
theorem isLine_escapedChar (c : Char) : IsLine (escapedChar c) := by
  by_cases hBreak : c = '\n'
  · subst hBreak
    decide
  have hSelf : IsLine c.toString := by
    simp [IsLine, Char.toString, Ne.symm hBreak]
  have hCode (start : String) (hStart : IsLine start) : IsLine (start ++ hexadecimal c.toNat) :=
    isLine_append.mpr ⟨hStart, isLine_hexadecimal _⟩
  unfold escapedChar
  repeat' split
  all_goals first | decide | exact hSelf | exact hCode _ (by decide)

theorem isLine_escaped (s : String) : IsLine (escaped s) := by
  have hChars : ∀ text ∈ s.toList.map escapedChar, IsLine text := by
    intro text hMem
    obtain ⟨c, -, rfl⟩ := List.mem_map.mp hMem
    exact isLine_escapedChar c
  rw [escaped, isLine_append, isLine_append]
  exact ⟨⟨by decide, isLine_join hChars⟩, by decide⟩

theorem itemTexts_eq (items : List Json) : itemTexts items = items.map text := by
  induction items with
  | nil => rfl
  | cons first rest ih => rw [itemTexts, ih, List.map_cons]

theorem fieldTexts_eq (fields : List (String × Json)) :
    fieldTexts fields = fields.map fun field => escaped field.1 ++ ":" ++ field.2.text := by
  induction fields with
  | nil => rfl
  | cons first rest ih => rw [fieldTexts, ih, List.map_cons]

/-- The text of a value is one line: line breaks in strings are written as escapes. -/
theorem isLine_text (v : Json) : IsLine v.text := by
  induction v using induction_within with
  | null => decide
  | bool value => cases value <;> decide
  | number value =>
      cases value with
      | int value => exact isLine_toString_int value
      | float value => exact value.isLine_text
  | string value => exact isLine_escaped value
  | array items ih =>
      rw [text, isLine_append, isLine_append, itemTexts_eq]
      refine ⟨⟨by decide, isLine_intercalate (by decide) ?_⟩, by decide⟩
      simpa using ih
  | object fields ih =>
      rw [text, isLine_append, isLine_append, fieldTexts_eq]
      refine ⟨⟨by decide, isLine_intercalate (by decide) ?_⟩, by decide⟩
      intro fieldText hMem
      obtain ⟨field, hField, rfl⟩ := List.mem_map.mp hMem
      exact isLine_append.mpr
        ⟨isLine_append.mpr ⟨isLine_escaped field.1, by decide⟩, ih field hField⟩

theorem text_ne_empty (v : Json) : v.text ≠ "" := by
  cases v with
  | null => decide
  | bool value => cases value <;> decide
  | number value =>
      cases value with
      | int value =>
          show toString value ≠ ""
          rw [Int.toString_eq_repr, Int.repr_eq_if]
          split
          · exact Nat.repr_ne_empty
          · simp
      | float value => exact value.text_ne_empty
  | string value => simp [text, escaped]
  | array items => simp [text]
  | object fields => simp [text]

end Json

/-! ## Lines of a text -/

theorem linesOf_eq_singleton {line : List Char} (h : '\n' ∉ line) (hSome : line ≠ []) :
    linesOf line = [line] := by
  fun_induction linesOf line with
  | case1 => exact absurd rfl hSome
  | case2 rest ih => exact absurd List.mem_cons_self h
  | case3 rest ih => exact absurd (List.mem_cons_of_mem _ List.mem_cons_self) h
  | case4 c rest _ _ hNone ih =>
      have hRest : '\n' ∉ rest := fun hMem => h (List.mem_cons_of_mem c hMem)
      by_cases hLast : rest = []
      · rw [hLast]
      · rw [ih hRest hLast] at hNone
        cases hNone
  | case5 c rest _ _ line others hLines ih =>
      have hRest : '\n' ∉ rest := fun hMem => h (List.mem_cons_of_mem c hMem)
      by_cases hLast : rest = []
      · rw [hLast] at hLines
        cases hLines
      · rw [ih hRest hLast] at hLines
        obtain ⟨rfl, rfl⟩ := List.cons.inj hLines
        rfl

/-! ## Lines put together -/

/-- The lines of a text: what stands between its line breaks. -/
def linesIn (text : String) : List String := (text.toList.splitOn '\n').map String.ofList

theorem not_mem_of_mem_splitOn {text line : List Char} (h : line ∈ text.splitOn '\n') :
    '\n' ∉ line := by
  induction text generalizing line with
  | nil =>
      rw [List.splitOn_nil, List.mem_singleton] at h
      rw [h]
      exact List.not_mem_nil
  | cons c rest ih =>
      rw [List.splitOn_cons_eq_if_modifyHead] at h
      split at h
      · rcases List.mem_cons.mp h with rfl | hRest
        · exact List.not_mem_nil
        · exact ih hRest
      · next hOther =>
        cases hSplit : rest.splitOn '\n' with
        | nil => exact absurd hSplit (List.splitOn_ne_nil _ _)
        | cons first others =>
            rw [hSplit] at h ih
            rcases List.mem_cons.mp h with rfl | hLater
            · -- the character is put in front of the first line
              have hFirst := ih List.mem_cons_self
              have hBreak : '\n' ≠ c := fun hSame => hOther (by simp [← hSame])
              simp [hFirst, hBreak]
            · exact ih (List.mem_cons_of_mem _ hLater)

theorem isLine_of_mem_linesIn {text line : String} (h : line ∈ linesIn text) : IsLine line := by
  obtain ⟨chars, hChars, rfl⟩ := List.mem_map.mp h
  rw [IsLine, String.toList_ofList]
  exact not_mem_of_mem_splitOn hChars

/-- What is put together with line breaks has these lines exactly if each is on one line. -/
theorem linesIn_intercalate_iff {lines : List String} (hSome : lines ≠ []) :
    linesIn ("\n".intercalate lines) = lines ↔ ∀ line ∈ lines, IsLine line := by
  constructor
  · intro hLines line hLine
    rw [← hLines] at hLine
    exact isLine_of_mem_linesIn hLine
  · intro h
    have hBreak : "\n".toList = ['\n'] := rfl
    rw [linesIn, String.toList_intercalate, hBreak, List.splitOn_intercalate]
    · simp [List.map_map, Function.comp_def]
    · simpa [IsLine] using h
    · simpa using hSome

/-- Blocks of lines that are put together in two steps. -/
theorem intercalate_flatten {blocks : List (List String)} (h : ∀ block ∈ blocks, block ≠ []) :
    "\n".intercalate (blocks.map "\n".intercalate) = "\n".intercalate blocks.flatten := by
  induction blocks with
  | nil => rfl
  | cons block rest ih =>
      obtain ⟨hBlock, hRest⟩ := List.forall_mem_cons.mp h
      rw [List.map_cons, List.flatten_cons]
      cases rest with
      | nil => simp
      | cons next others =>
          have hSome : (next :: others).flatten ≠ [] := by
            simp [hRest next List.mem_cons_self]
          rw [String.intercalate_append_of_ne_nil hBlock hSome, ← ih hRest, List.map_cons,
            String.intercalate_cons_cons]

end Storyline
