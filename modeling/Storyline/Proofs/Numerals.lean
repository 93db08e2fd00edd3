import Mathlib.Data.List.Induction
import Mathlib.Data.List.TakeWhile
import Mathlib.Tactic.IntervalCases
import Storyline.Json.Printer
import Storyline.Proofs.WholeDoubles

/-!
# Integers and their forms

An integer reaches a field as a JSON number or as a text that is the integer in decimal
(`IsDecimal`, `IsFormOf`). Exactly the texts that are one in range are read
(`readInteger?_trimmed_eq_some_iff`), so that all forms of an integer are kept as the integer, or
none is (`Kind.integer_forms_alike`).
-/

set_option autoImplicit false

namespace Storyline

/-! ## White space around a text -/

/-- Only white space. -/
def IsBlank (text : List Char) : Prop := ∀ c ∈ text, CharClass.blank.contains c = true

/-- No white space. -/
def IsSolid (text : List Char) : Prop := ∀ c ∈ text, CharClass.blank.contains c = false

theorem dropWhile_of_isSolid {text : List Char} (h : IsSolid text) :
    text.dropWhile CharClass.blank.contains = text := by
  cases text with
  | nil => rfl
  | cons c rest =>
      exact List.dropWhile_cons_of_neg (Bool.not_eq_true _ ▸ h c List.mem_cons_self)

/-- Nothing but the white space around a text is trimmed, if there is none in it. -/
theorem trimmed_append {before core after : List Char} (hBefore : IsBlank before)
    (hCore : IsSolid core) (hAfter : IsBlank after) (hSome : core ≠ []) :
    trimmed (before ++ core ++ after) = core := by
  have hReverse : IsSolid core.reverse := fun c hMem => hCore c (List.mem_reverse.mp hMem)
  have hAfter' : IsBlank after.reverse := fun c hMem => hAfter c (List.mem_reverse.mp hMem)
  -- the first character of the core stops trimming from the left
  have hStart : (core ++ after).dropWhile CharClass.blank.contains = core ++ after := by
    rw [List.dropWhile_append, dropWhile_of_isSolid hCore, if_neg (by simpa using hSome)]
  unfold trimmed
  dsimp only
  rw [List.append_assoc, List.dropWhile_append_of_pos hBefore, hStart, List.reverse_append,
    List.dropWhile_append_of_pos hAfter', dropWhile_of_isSolid hReverse, List.reverse_reverse]

/-- Only white space is trimmed. -/
theorem exists_eq_append_trimmed (text : List Char) :
    ∃ before after, IsBlank before ∧ IsBlank after ∧ text = before ++ trimmed text ++ after := by
  let unindented := text.dropWhile CharClass.blank.contains
  refine ⟨text.takeWhile CharClass.blank.contains,
    (unindented.reverse.takeWhile CharClass.blank.contains).reverse,
    fun c hMem => List.mem_takeWhile_imp hMem,
    fun c hMem => List.mem_takeWhile_imp (List.mem_reverse.mp hMem), ?_⟩
  have hEnd : trimmed text ++ (unindented.reverse.takeWhile CharClass.blank.contains).reverse =
      unindented := by
    rw [trimmed, ← List.reverse_append, List.takeWhile_append_dropWhile, List.reverse_reverse]
  rw [List.append_assoc, hEnd, List.takeWhile_append_dropWhile]

/-! ## Digits -/

theorem isDigit_bounds {c : Char} (h : c.isDigit = true) : 48 ≤ c.toNat ∧ c.toNat ≤ 57 := by
  simpa [Char.isDigit, UInt32.le_iff_toNat_le] using h

theorem not_blank_of_isDigit {c : Char} (h : c.isDigit = true) :
    CharClass.blank.contains c = false := by
  obtain ⟨hLow, hHigh⟩ := isDigit_bounds h
  unfold CharClass.contains
  interval_cases c.toNat <;> rfl

theorem digitChar_digitValue {c : Char} (h : c.isDigit = true) : (digitValue c).digitChar = c := by
  obtain ⟨hLow, hHigh⟩ := isDigit_bounds h
  have hValue : digitValue c = c.toNat - 48 := rfl
  refine Char.toNat_inj.mp ?_
  rw [hValue, Nat.toNat_digitChar_of_lt_ten (by omega)]
  omega

theorem digitValue_lt {c : Char} (h : c.isDigit = true) : digitValue c < 10 := by
  obtain ⟨hLow, hHigh⟩ := isDigit_bounds h
  have hValue : digitValue c = c.toNat - 48 := rfl
  omega

/-- The digits of a number, with zeros in front. -/
def paddedDigits (zeros n : Nat) : List Char := List.replicate zeros '0' ++ Nat.toDigits 10 n

theorem isDigit_of_mem_paddedDigits {zeros n : Nat} {c : Char} (h : c ∈ paddedDigits zeros n) :
    c.isDigit = true := by
  rcases List.mem_append.mp h with hZero | hDigit
  · rw [List.eq_of_mem_replicate hZero]
    rfl
  · exact Nat.isDigit_of_mem_toDigits (by decide) (by decide) hDigit

theorem paddedDigits_ne_nil (zeros n : Nat) : paddedDigits zeros n ≠ [] :=
  List.append_ne_nil_of_right_ne_nil _ Nat.toDigits_ne_nil

theorem digitsValue_paddedDigits (zeros n : Nat) : digitsValue (paddedDigits zeros n) = n := by
  show Nat.ofDigitChars 10 (paddedDigits zeros n) 0 = n
  rw [paddedDigits, Nat.ofDigitChars_append, Nat.ofDigitChars_replicate_zero, Nat.mul_zero,
    Nat.ofDigitChars_ten_toDigits]

/-- One more digit. -/
theorem exists_paddedDigits_append {zeros n digit : Nat} (h : digit < 10) :
    ∃ zeros', paddedDigits zeros n ++ [digit.digitChar] =
      paddedDigits zeros' (10 * n + digit) := by
  have hSingle : [digit.digitChar] = Nat.toDigits 10 digit := (Nat.toDigits_of_lt_base h).symm
  unfold paddedDigits
  rcases Nat.eq_zero_or_pos n with rfl | hPos
  · refine ⟨zeros + 1, ?_⟩
    rw [Nat.toDigits_zero, List.replicate_succ', Nat.mul_zero, Nat.zero_add, hSingle]
  · refine ⟨zeros, ?_⟩
    rw [hSingle, List.append_assoc, Nat.toDigits_append_toDigits (by decide) hPos h]

/-- Digits are those of the number that they are, with zeros in front. -/
theorem exists_eq_paddedDigits {digits : List Char} (hSome : digits ≠ [])
    (hDigits : ∀ c ∈ digits, c.isDigit = true) :
    ∃ zeros, digits = paddedDigits zeros (digitsValue digits) := by
  induction digits using List.reverseRecOn with
  | nil => exact absurd rfl hSome
  | append_singleton front last ih =>
      obtain ⟨hFront, hLast⟩ := List.forall_mem_append.mp hDigits
      have hDigit := hLast last List.mem_cons_self
      have hLess := digitValue_lt hDigit
      have hValue : digitsValue (front ++ [last]) = 10 * digitsValue front + digitValue last :=
        List.foldl_append
      rw [hValue]
      by_cases hFirst : front = []
      · subst hFirst
        refine ⟨0, ?_⟩
        show [last] = Nat.toDigits 10 (0 + digitValue last)
        rw [Nat.zero_add, Nat.toDigits_of_lt_base hLess, digitChar_digitValue hDigit]
      · obtain ⟨zeros, hZeros⟩ := ih hFirst hFront
        obtain ⟨zeros', hZeros'⟩ := exists_paddedDigits_append (n := digitsValue front) hLess
        refine ⟨zeros', ?_⟩
        rw [← hZeros', ← hZeros, digitChar_digitValue hDigit]

/-! ## Integers in decimal -/

/-- The signs that may stand in front of the digits of an integer: zero takes both. -/
def IsSignOf (n : Int) (sign : List Char) : Prop :=
  (sign = ['-'] ∧ n ≤ 0) ∨ ((sign = [] ∨ sign = ['+']) ∧ 0 ≤ n)

/-- A text that is an integer in decimal: digits, with zeros in front of them if any, after an
optional sign, and white space around all. -/
def IsDecimal (n : Int) (text : List Char) : Prop :=
  ∃ before sign zeros after, IsBlank before ∧ IsSignOf n sign ∧ IsBlank after ∧
    text = before ++ (sign ++ paddedDigits zeros n.natAbs) ++ after

theorem splitSign_cases (text : List Char) :
    text = '-' :: (splitSign text).2 ∧ (splitSign text).1 = true ∨
      (text = '+' :: (splitSign text).2 ∨ text = (splitSign text).2) ∧
        (splitSign text).1 = false := by
  unfold splitSign
  split
  · exact .inl ⟨rfl, rfl⟩
  · exact .inr ⟨.inl rfl, rfl⟩
  · exact .inr ⟨.inr rfl, rfl⟩

/-- Digits are not split. -/
theorem splitSign_of_isDigit {digits : List Char} (h : ∀ c ∈ digits, c.isDigit = true) :
    splitSign digits = (false, digits) := by
  unfold splitSign
  split
  · exact absurd (h '-' List.mem_cons_self) (by decide)
  · exact absurd (h '+' List.mem_cons_self) (by decide)
  · rfl

/-- The integer that the digits of a text are, with the sign in front of them. -/
def signedValue (text : List Char) : Int :=
  if (splitSign text).1 then -(digitsValue (splitSign text).2 : Int)
  else digitsValue (splitSign text).2

theorem splitSign_signed {n : Int} {sign : List Char} (h : IsSignOf n sign) (zeros : Nat) :
    (splitSign (sign ++ paddedDigits zeros n.natAbs)).2 = paddedDigits zeros n.natAbs ∧
      signedValue (sign ++ paddedDigits zeros n.natAbs) = n := by
  have hAll : ∀ c ∈ paddedDigits zeros n.natAbs, c.isDigit = true :=
    fun c => isDigit_of_mem_paddedDigits
  have hDigits := splitSign_of_isDigit hAll
  have hValue := digitsValue_paddedDigits zeros n.natAbs
  rcases h with ⟨rfl, hSign⟩ | ⟨rfl | rfl, hSign⟩
  · refine ⟨rfl, ?_⟩
    show -(digitsValue (paddedDigits zeros n.natAbs) : Int) = n
    omega
  · rw [List.nil_append, signedValue, hDigits]
    refine ⟨rfl, ?_⟩
    show (digitsValue (paddedDigits zeros n.natAbs) : Int) = n
    omega
  · refine ⟨rfl, ?_⟩
    show (digitsValue (paddedDigits zeros n.natAbs) : Int) = n
    omega

/-- Digits with a sign are the digits of an integer with zeros in front, and a sign of it. -/
theorem exists_signed {text : List Char} (hSome : (splitSign text).2 ≠ [])
    (hDigits : ∀ c ∈ (splitSign text).2, c.isDigit = true) :
    ∃ sign zeros, IsSignOf (signedValue text) sign ∧
      text = sign ++ paddedDigits zeros (signedValue text).natAbs := by
  obtain ⟨zeros, hZeros⟩ := exists_eq_paddedDigits hSome hDigits
  have hAbs : (signedValue text).natAbs = digitsValue (splitSign text).2 := by
    unfold signedValue
    split <;> omega
  rw [← hAbs] at hZeros
  rcases splitSign_cases text with ⟨hText, hSign⟩ | ⟨hText, hSign⟩
  · refine ⟨['-'], zeros, .inl ⟨rfl, ?_⟩, hText.trans (congrArg _ hZeros)⟩
    rw [signedValue, if_pos hSign]
    omega
  · have hNonneg : 0 ≤ signedValue text := by
      rw [signedValue, hSign]
      exact Int.natCast_nonneg _
    rcases hText with hText | hText
    · exact ⟨['+'], zeros, .inr ⟨.inr rfl, hNonneg⟩, hText.trans (congrArg _ hZeros)⟩
    · exact ⟨[], zeros, .inr ⟨.inl rfl, hNonneg⟩, hText.trans hZeros⟩

theorem readInteger?_eq_some_iff {text : List Char} {n : Int} :
    readInteger? text = some n ↔ Number.fitsSigned n = true ∧
      ∃ sign zeros, IsSignOf n sign ∧ text = sign ++ paddedDigits zeros n.natAbs := by
  have hRead : readInteger? text = if (!(splitSign text).2.isEmpty &&
      (splitSign text).2.all Char.isDigit && Number.fitsSigned (signedValue text)) = true
      then some (signedValue text) else none := rfl
  rw [hRead, Option.ite_none_right_eq_some]
  simp only [Bool.and_eq_true, Bool.not_eq_true', List.isEmpty_eq_false_iff, List.all_eq_true,
    Option.some.injEq]
  constructor
  · rintro ⟨⟨⟨hSome, hDigits⟩, hFits⟩, rfl⟩
    exact ⟨hFits, exists_signed hSome hDigits⟩
  · rintro ⟨hFits, sign, zeros, hSign, rfl⟩
    obtain ⟨hDigits, hValue⟩ := splitSign_signed hSign zeros
    rw [hDigits, hValue]
    exact ⟨⟨⟨paddedDigits_ne_nil _ _, fun c => isDigit_of_mem_paddedDigits⟩, hFits⟩, rfl⟩

theorem isSolid_signed {n : Int} {sign : List Char} (h : IsSignOf n sign) (zeros : Nat) :
    IsSolid (sign ++ paddedDigits zeros n.natAbs) := by
  refine List.forall_mem_append.mpr ⟨?_, fun c hMem => ?_⟩
  · rcases h with ⟨rfl, -⟩ | ⟨rfl | rfl, -⟩
    · exact List.forall_mem_singleton.mpr rfl
    · exact fun c hMem => by cases hMem
    · exact List.forall_mem_singleton.mpr rfl
  · exact not_blank_of_isDigit (isDigit_of_mem_paddedDigits hMem)

/-- A text is an integer in decimal if it is trimmed to digits with a sign. -/
theorem isDecimal_iff {n : Int} {text : List Char} : IsDecimal n text ↔
    ∃ sign zeros, IsSignOf n sign ∧ trimmed text = sign ++ paddedDigits zeros n.natAbs := by
  constructor
  · rintro ⟨before, sign, zeros, after, hBefore, hSign, hAfter, rfl⟩
    have hSome : sign ++ paddedDigits zeros n.natAbs ≠ [] :=
      List.append_ne_nil_of_right_ne_nil _ (paddedDigits_ne_nil _ _)
    exact ⟨sign, zeros, hSign, trimmed_append hBefore (isSolid_signed hSign zeros) hAfter hSome⟩
  · rintro ⟨sign, zeros, hSign, hText⟩
    obtain ⟨before, after, hBefore, hAfter, hAll⟩ := exists_eq_append_trimmed text
    rw [hText] at hAll
    exact ⟨before, sign, zeros, after, hBefore, hSign, hAfter, hAll⟩

theorem IsDecimal.isSolid_trimmed {n : Int} {text : List Char} (h : IsDecimal n text) :
    IsSolid (trimmed text) := by
  obtain ⟨sign, zeros, hSign, hText⟩ := isDecimal_iff.mp h
  rw [hText]
  exact isSolid_signed hSign zeros

/-- A text is one integer at most. -/
theorem IsDecimal.unique {m n : Int} {text : List Char} (hm : IsDecimal m text)
    (hn : IsDecimal n text) : m = n := by
  obtain ⟨sign, zeros, hSign, hText⟩ := isDecimal_iff.mp hm
  obtain ⟨sign', zeros', hSign', hText'⟩ := isDecimal_iff.mp hn
  rw [← (splitSign_signed hSign zeros).2, ← (splitSign_signed hSign' zeros').2, ← hText, hText']

theorem readInteger?_trimmed_eq_some_iff {text : List Char} {n : Int} :
    readInteger? (trimmed text) = some n ↔ Number.fitsSigned n = true ∧ IsDecimal n text := by
  rw [readInteger?_eq_some_iff, isDecimal_iff]

/-- The text of an integer is the integer in decimal. -/
theorem isDecimal_toString (n : Int) : IsDecimal n (toString n).toList := by
  have hNone : IsBlank [] := fun c hMem => by cases hMem
  rw [Int.toString_eq_repr, Int.repr_eq_if]
  split
  · next hSign =>
    have hAbs : n.toNat = n.natAbs := by omega
    refine ⟨[], [], 0, [], hNone, .inr ⟨.inl rfl, hSign⟩, hNone, ?_⟩
    rw [Nat.toList_repr, hAbs, List.append_nil]
    rfl
  · next hSign =>
    have hAbs : (-n).toNat = n.natAbs := by omega
    refine ⟨[], ['-'], 0, [], hNone, .inl ⟨rfl, by omega⟩, hNone, ?_⟩
    rw [String.toList_append, Nat.toList_repr, hAbs, List.append_nil]
    rfl

/-! ## Fields of integers -/

/-- The forms of an integer: a JSON number of 64 bits with a sign or without, and a text that is the
integer in decimal. -/
inductive IsFormOf (n : Int) : Json → Prop
  | number (hStored : Number.IsStored n) : IsFormOf n (.int n)
  | text (text : String) (hDecimal : IsDecimal n text.toList) : IsFormOf n (.string text)

/-- What is said of values that are no integers of 64 bits with a sign. -/
def notInteger : Violation := .because "value is not a valid integer"

namespace Kind

/-- Integers beyond the range are not read by way of the nearest double either: it is beyond the
range as well. -/
theorem toInteger?_int_eq_none {n : Int} (hStored : Number.IsStored n)
    (h : Number.fitsSigned n = false) : toInteger? (.int n) = none := by
  have hLarge : 2 ^ 63 ≤ n := by
    simp only [Number.IsStored, Number.fitsSigned, Number.fitsUnsigned, Bool.and_eq_true,
      Bool.and_eq_false_iff, decide_eq_true_eq, decide_eq_false_iff_not] at hStored h
    omega
  obtain ⟨x, k, hRounded, hInt, hNearest⟩ := Double.exists_ofInt? hStored.natAbs_lt
  have hExact : Double.IsExact (2 ^ 63) := ⟨1, 63, by decide, rfl⟩
  have hNear := hNearest.near _ hExact
  have hBeyond : Number.fitsSigned k = false := by
    simp only [Number.fitsSigned, Bool.and_eq_false_iff, decide_eq_false_iff_not]
    omega
  have hInteger : (Json.int n).toInt64? = none := if_neg (by rw [h]; decide)
  show (Json.int n).toInt64?.or (((Double.ofInt? n).bind Double.toInt?).filter _) = none
  rw [hInteger, hRounded, Option.none_or, Option.bind_some, hInt, Option.filter_some, hBeyond]
  rfl

theorem coerce_string (text : String) : integer.coerce (.string text) =
    ((readInteger? (trimmed text.toList)).map Json.int).elim (.error notInteger) .ok := by
  show orViolation _ ((readInteger? (trimmed text.toList)).map Json.int) = _
  cases readInteger? (trimmed text.toList) <;> rfl

theorem coerce_form {n : Int} {v : Json} (h : IsFormOf n v) :
    integer.coerce v = if Number.fitsSigned n then .ok (.int n) else .error notInteger := by
  cases h with
  | number hStored =>
      split
      · next hFits => exact coerce_int hFits
      · next hFits =>
        have hNone := toInteger?_int_eq_none hStored (Bool.not_eq_true _ ▸ hFits)
        show orViolation _ ((toInteger? (.int n)).map Json.int) = _
        rw [hNone]
        rfl
  | text text hDecimal =>
      rw [coerce_string]
      split
      · next hFits =>
        rw [readInteger?_trimmed_eq_some_iff.mpr ⟨hFits, hDecimal⟩]
        rfl
      · next hFits =>
        have hNone : readInteger? (trimmed text.toList) = none := by
          refine Option.eq_none_iff_forall_ne_some.mpr fun k hRead => hFits ?_
          obtain ⟨hFitsRead, hDecimalRead⟩ := readInteger?_trimmed_eq_some_iff.mp hRead
          exact hDecimal.unique hDecimalRead ▸ hFitsRead
        rw [hNone]
        rfl

/-- Texts that are no integers are rejected. -/
theorem coerce_of_not_isFormOf {text : String} (h : ∀ n, ¬ IsFormOf n (.string text)) :
    integer.coerce (.string text) = .error notInteger := by
  have hNone : readInteger? (trimmed text.toList) = none := by
    refine Option.eq_none_iff_forall_ne_some.mpr fun k hRead => h k ?_
    exact .text text (readInteger?_trimmed_eq_some_iff.mp hRead).2
  rw [coerce_string, hNone]
  rfl

/-- What is accepted is kept as an integer of 64 bits. -/
theorem exists_of_coerce_integer {v form : Json} (h : integer.coerce v = .ok form) :
    ∃ n, Number.fitsSigned n = true ∧ form = .int n := by
  cases v with
  | null => cases h
  | _ =>
      obtain ⟨n, hInteger, hForm⟩ := orViolation_map_eq_ok h
      exact ⟨n, fitsSigned_of_toInteger? hInteger, hForm⟩

/-- **The forms of an integer are treated alike.** They are all kept as the integer if it fits into
64 bits with a sign, and all rejected otherwise. Texts that are a form of no integer are rejected.
What is accepted can be written as text. -/
theorem integer_forms_alike :
    (∀ n v, IsFormOf n v → integer.coerce v =
      if Number.fitsSigned n then .ok (.int n) else .error notInteger) ∧
    (∀ text, (∀ n, ¬ IsFormOf n (.string text)) →
      integer.coerce (.string text) = .error notInteger) ∧
    ∀ v form, integer.coerce v = .ok form → integer.coerce (.string form.text) = .ok form := by
  refine ⟨fun n v => coerce_form, fun text => coerce_of_not_isFormOf, fun v form h => ?_⟩
  obtain ⟨n, hFits, rfl⟩ := exists_of_coerce_integer h
  have hForm : IsFormOf n (.string (Json.int n).text) := .text _ (isDecimal_toString n)
  rw [coerce_form hForm, if_pos hFits]

end Kind

namespace Bakery

/-- A sign, zeros and white space do not matter, while a space among the digits does, and a number
is taken from its own text. -/
theorem count_spelled : Kind.integer.coerce (.string " +0042\n") = .ok (.int 42) ∧
    Kind.integer.coerce (.int 9223372036854775808) = .error notInteger ∧
    Kind.integer.coerce (.string "4 2") = .error notInteger ∧
    Kind.integer.coerce (.string (Json.int (-7)).text) = .ok (.int (-7)) := by
  obtain ⟨hForms, hOther, hWritten⟩ := Kind.integer_forms_alike
  have hSpaced : IsFormOf 42 (.string " +0042\n") := by
    refine .text _ ⟨[' '], ['+'], 2, ['\n'], ?_, .inr ⟨.inr rfl, by decide⟩, ?_, by decide⟩
    · exact List.forall_mem_singleton.mpr rfl
    · exact List.forall_mem_singleton.mpr rfl
  have hInner : ∀ n, ¬ IsFormOf n (.string "4 2") := by
    rintro n (_ | ⟨_, hDecimal⟩)
    have hSolid : CharClass.blank.contains ' ' = false := hDecimal.isSolid_trimmed ' ' (by decide)
    exact absurd hSolid (by decide)
  exact ⟨hForms 42 _ hSpaced, hForms _ _ (.number (.inr rfl)), hOther _ hInner,
    hWritten (.int (-7)) _ rfl⟩

end Bakery

end Storyline
