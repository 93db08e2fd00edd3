import Mathlib.Tactic.Ring
import Storyline.Proofs.Coercion
import Storyline.Proofs.Equality

/-!
# Integers as doubles

Not every integer is a double: beyond 53 significant bits the nearest one is taken that is
(`Double.IsExact`, `Double.IsNearest`, `Double.exists_ofInt?`). So a field of doubles keeps two
different integers apart exactly if the integers nearest to them differ (`Kind.float_apart`).

Places of doubles are compared by their values in the smallest unit of the format
(`Double.scaledAt`), which are natural numbers for all of them.
-/

set_option autoImplicit false

namespace Storyline

namespace Double

/-! ## Places as multiples of the smallest unit -/

/-- By how many powers of two the unit at a place is larger than the smallest one. -/
def levelAt (place : Nat) : Nat := max (place / binade) 1 - 1

/-- The value at a place, counted in the smallest unit of the format. -/
def scaledAt (place : Nat) : Nat := unitsAt place * 2 ^ levelAt place

theorem scaledAt_zero : scaledAt 0 = 0 := rfl

/-- Numbers have less than `2 * binade` units, and at least half of them above the lowest level. -/
theorem place_cases (place : Nat) :
    place = levelAt place * binade + unitsAt place ∧ unitsAt place < 2 * binade ∧
      (levelAt place = 0 ∨ binade ≤ unitsAt place) := by
  unfold levelAt unitsAt binade
  omega

/-- The place after the last one of a level has the value that it would have on that level. -/
theorem scaledAt_eq {e units : Nat} (hLow : binade ≤ units) (hHigh : units ≤ 2 * binade) :
    scaledAt (e * binade + units) = units * 2 ^ e := by
  rcases Nat.lt_or_eq_of_le hHigh with hLess | rfl
  · have hLevel : levelAt (e * binade + units) = e := by
      unfold levelAt binade at *
      omega
    have hUnits : unitsAt (e * binade + units) = units := by
      rw [unitsAt, ← levelAt, hLevel, Nat.add_sub_cancel_left]
    rw [scaledAt, hLevel, hUnits]
  · have hLevel : levelAt (e * binade + 2 * binade) = e + 1 := by
      unfold levelAt binade
      omega
    have hUnits : unitsAt (e * binade + 2 * binade) = binade := by
      rw [unitsAt, ← levelAt, hLevel]
      unfold binade
      omega
    rw [scaledAt, hLevel, hUnits, Nat.pow_succ]
    ring

theorem scaledAt_lt_of_levelAt_lt {p q : Nat} (h : levelAt p < levelAt q) :
    scaledAt p < scaledAt q := by
  obtain ⟨-, hHigh, -⟩ := place_cases p
  obtain ⟨-, -, hLow⟩ := place_cases q
  have hLow : binade ≤ unitsAt q := by omega
  calc scaledAt p
      < 2 * binade * 2 ^ levelAt p :=
        Nat.mul_lt_mul_of_pos_right hHigh (Nat.two_pow_pos _)
    _ = binade * 2 ^ (levelAt p + 1) := by ring
    _ ≤ unitsAt q * 2 ^ levelAt q :=
        Nat.mul_le_mul hLow (Nat.pow_le_pow_right (by decide) h)

/-- Different places have different values. -/
theorem scaledAt_injective {p q : Nat} (h : scaledAt p = scaledAt q) : p = q := by
  rcases Nat.lt_trichotomy (levelAt p) (levelAt q) with hLess | hSame | hMore
  · exact absurd h (Nat.ne_of_lt (scaledAt_lt_of_levelAt_lt hLess))
  · have hUnits : unitsAt p = unitsAt q := by
      unfold scaledAt at h
      rw [hSame] at h
      exact Nat.eq_of_mul_eq_mul_right (Nat.two_pow_pos _) h
    rw [(place_cases p).1, (place_cases q).1, hSame, hUnits]
  · exact absurd h.symm (Nat.ne_of_lt (scaledAt_lt_of_levelAt_lt hMore))

/-! ## Whole numbers -/

theorem scaleBy_natCast (num e : Nat) : scaleBy num 1 (e : Int) = (num * 2 ^ e, 1) := by
  rw [scaleBy, if_pos (Int.natCast_nonneg e), Int.toNat_natCast, Nat.pow_eq]

theorem scaleBy_neg_natCast (num e : Nat) : scaleBy num 1 (-(e : Int)) = (num, 2 ^ e) := by
  cases e with
  | zero => exact (scaleBy_natCast num 0).trans (by rw [Nat.pow_zero, Nat.mul_one])
  | succ e =>
      rw [scaleBy, if_neg (by omega), Int.neg_neg, Int.toNat_natCast, Nat.pow_eq, Nat.one_mul]

/-- Scaling by a quotient of powers of two. -/
theorem scaleBy_sub (num a b : Nat) :
    (scaleBy num 1 (a - b)).1 * 2 ^ b = (scaleBy num 1 (a - b)).2 * (num * 2 ^ a) := by
  rcases Nat.le_total b a with hLe | hLe
  · obtain ⟨c, rfl⟩ := Nat.exists_eq_add_of_le hLe
    have hExponent : ((b + c : Nat) : Int) - b = c := by omega
    rw [hExponent, scaleBy_natCast]
    ring
  · obtain ⟨c, rfl⟩ := Nat.exists_eq_add_of_le hLe
    have hExponent : (a : Int) - (a + c : Nat) = -c := by omega
    rw [hExponent, scaleBy_neg_natCast]
    ring

theorem scaleBy_pos (num : Nat) (e : Int) : 0 < (scaleBy num 1 e).2 := by
  rcases Int.eq_nat_or_neg e with ⟨e, rfl | rfl⟩
  · rw [scaleBy_natCast]
    exact Nat.one_pos
  · rw [scaleBy_neg_natCast]
    exact Nat.two_pow_pos e

/-- How many of the smallest units make one. -/
def unitsOfOne : Nat := 2 ^ 1074

theorem unitsOfOne_pos : 0 < unitsOfOne := by
  rw [unitsOfOne, Nat.pow_pos_iff]
  exact .inl Nat.two_pos

/-- An integer has a sign if it is zero or on the side of it. -/
def HasSign (negative : Bool) (k : Int) : Prop := if negative then k ≤ 0 else 0 ≤ k

theorem signed_eq_iff {negative : Bool} {v : Nat} {k : Int} :
    (if negative then -(v : Int) else v) = k ↔ HasSign negative k ∧ k.natAbs = v := by
  unfold HasSign
  cases negative <;> simp only [Bool.false_eq_true, if_false, if_true] <;> omega

/-- A double is the integer that has its sign and its value. -/
theorem toInt?_eq_some_iff {x : Double} {k : Int} :
    x.toInt? = some k ↔
      HasSign x.negative k ∧ k.natAbs * unitsOfOne = scaledAt x.magnitude := by
  obtain ⟨num, den, hQuotient⟩ : ∃ num den, x.quotient = (num, den) := ⟨_, _, rfl⟩
  have hUnit : x.unit = (levelAt x.magnitude : Int) - (1074 : Nat) := by
    unfold unit unitAt levelAt
    omega
  have hScale : num * unitsOfOne = den * scaledAt x.magnitude := by
    have h := scaleBy_sub x.units (levelAt x.magnitude) 1074
    rw [← hUnit] at h
    change x.quotient.1 * unitsOfOne = x.quotient.2 * scaledAt x.magnitude at h
    rwa [hQuotient] at h
  have hPos : 0 < den := by
    have h : 0 < x.quotient.2 := scaleBy_pos x.units x.unit
    rwa [hQuotient] at h
  -- a natural number is the quotient exactly if it has the value
  have hValue (v : Nat) : v * den = num ↔ v * unitsOfOne = scaledAt x.magnitude := by
    rw [← Nat.mul_right_cancel_iff unitsOfOne_pos, hScale, Nat.mul_right_comm, Nat.mul_comm _ den,
      Nat.mul_left_cancel_iff hPos]
  rw [← hValue, toInt?, hQuotient]
  dsimp only
  constructor
  · intro h
    split at h
    · next hWhole =>
      obtain ⟨hSign, hAbs⟩ := signed_eq_iff.mp (Option.some.inj h)
      refine ⟨hSign, ?_⟩
      rw [hAbs]
      exact Nat.div_mul_cancel (Nat.dvd_of_mod_eq_zero (beq_iff_eq.mp hWhole))
    · cases h
  · rintro ⟨hSign, rfl⟩
    rw [Nat.mul_mod_left, Nat.mul_div_cancel _ hPos, if_pos (beq_self_eq_true _)]
    exact congrArg some (signed_eq_iff.mpr ⟨hSign, rfl⟩)

/-- Whole doubles are equal exactly if they are the same integer. -/
theorem same_iff_of_toInt? {x y : Double} {j k : Int} (hx : x.toInt? = some j)
    (hy : y.toInt? = some k) : x.same y = true ↔ j = k := by
  obtain ⟨hSign, hValue⟩ := toInt?_eq_some_iff.mp hx
  obtain ⟨hSign', hValue'⟩ := toInt?_eq_some_iff.mp hy
  rw [same_iff]
  constructor
  · rintro ⟨hMagnitude, hSame⟩
    have hAbs : j.natAbs = k.natAbs := by
      rw [← hMagnitude, ← hValue] at hValue'
      exact (Nat.eq_of_mul_eq_mul_right unitsOfOne_pos hValue').symm
    rcases hSame with hSame | hZero
    · rw [← hSame] at hSign'
      exact (signed_eq_iff.mpr ⟨hSign, hAbs⟩).symm.trans (signed_eq_iff.mpr ⟨hSign', rfl⟩)
    · have hNone : j.natAbs * unitsOfOne = 0 := by
        rw [hValue, hZero, scaledAt_zero]
      have hZero := (Nat.mul_eq_zero.mp hNone).resolve_right (Nat.ne_of_gt unitsOfOne_pos)
      omega
  · rintro rfl
    refine ⟨scaledAt_injective (hValue.symm.trans hValue'), ?_⟩
    by_cases hZero : j = 0
    · right
      rw [hZero, Int.natAbs_zero, Nat.zero_mul, ← scaledAt_zero] at hValue
      exact scaledAt_injective hValue.symm
    · left
      unfold HasSign at hSign hSign'
      cases hNegative : x.negative <;> cases hNegative' : y.negative <;>
        simp only [hNegative, hNegative', Bool.false_eq_true, if_false, if_true] at * <;> omega

/-! ## Integers of 53 bits -/

/-- An integer that a double can be: at most 53 bits are significant. -/
def IsExact (k : Int) : Prop := ∃ bits e : Nat, bits < 2 ^ 53 ∧ k.natAbs = bits * 2 ^ e

/-- The nearest integer that a double can be; of two, the one that is divisible by a higher power of
two. -/
structure IsNearest (n k : Int) : Prop where
  isExact : IsExact k
  near : ∀ j, IsExact j → (n - k).natAbs ≤ (n - j).natAbs
  even : ∀ j, IsExact j → j ≠ k → (n - j).natAbs = (n - k).natAbs →
    ∃ e, 2 ^ e ∣ k.natAbs ∧ ¬ 2 ^ e ∣ j.natAbs

theorem IsNearest.unique {n j k : Int} (hj : IsNearest n j) (hk : IsNearest n k) : j = k := by
  by_contra hDifferent
  have hNear := Nat.le_antisymm (hj.near k hk.isExact) (hk.near j hj.isExact)
  obtain ⟨e, hDvd, hNot⟩ := hk.even j hj.isExact hDifferent hNear
  obtain ⟨e', hDvd', hNot'⟩ := hj.even k hk.isExact (Ne.symm hDifferent) hNear.symm
  rcases Nat.le_total e e' with hLe | hLe
  · exact hNot ((pow_dvd_pow 2 hLe).trans hDvd')
  · exact hNot' ((pow_dvd_pow 2 hLe).trans hDvd)

theorem IsNearest.self {n : Int} (h : IsExact n) : IsNearest n n where
  isExact := h
  near := fun j _ => by omega
  even := fun j _ hDifferent hNear => by omega

/-- Up to 53 bits and a last carry, a multiple of a power of two is exact. -/
theorem isExact_of_le {k : Int} {bits e : Nat} (hBits : bits ≤ 2 ^ 53)
    (hk : k.natAbs = bits * 2 ^ e) : IsExact k := by
  rcases Nat.lt_or_eq_of_le hBits with hLess | rfl
  · exact ⟨bits, e, hLess, hk⟩
  · refine ⟨1, 53 + e, by decide, ?_⟩
    rw [hk, Nat.pow_add, Nat.one_mul]

/-- A whole double that is the nearest one to an integer is this integer if it can be. -/
theorem IsNearest.kept_iff {n k : Int} {x : Double} (h : IsNearest n k) (hx : x.toInt? = some k) :
    x.toInt? = some n ↔ IsExact n := by
  rw [hx, Option.some.injEq]
  constructor
  · rintro rfl
    exact h.isExact
  · intro hExact
    exact h.unique (.self hExact)

/-! ## Rounding -/

/-- Rounding moves by half the divisor at most, and by half of it only to an even result. -/
theorem roundHalfEven_spec (num : Nat) {den : Nat} (hDen : 0 < den) :
    2 * ((num : Int) - (roundHalfEven num den * den : Nat)).natAbs ≤ den ∧
      (2 * ((num : Int) - (roundHalfEven num den * den : Nat)).natAbs = den →
        roundHalfEven num den % 2 = 0) := by
  have hSplit := Nat.div_add_mod' num den
  have hMod := Nat.mod_lt num hDen
  unfold roundHalfEven
  dsimp only
  generalize num / den = q at *
  generalize num % den = r at *
  subst hSplit
  have hNext : (q + 1) * den = q * den + den := by ring
  split
  · omega
  · split
    · rw [hNext]
      omega
    · simp only [beq_iff_eq]
      split
      · omega
      · rw [hNext]
        omega

theorem roundHalfEven_bounds {num den low high : Nat} (hDen : 0 < den) (hLow : low * den ≤ num)
    (hHigh : num ≤ high * den) :
    low ≤ roundHalfEven num den ∧ roundHalfEven num den ≤ high := by
  obtain ⟨hClose, -⟩ := roundHalfEven_spec num hDen
  constructor
  · by_contra hLess
    have hStep := Nat.mul_le_mul_right den (Nat.succ_le_of_lt (Nat.lt_of_not_le hLess))
    rw [Nat.succ_mul] at hStep
    omega
  · by_contra hMore
    have hStep := Nat.mul_le_mul_right den (Nat.succ_le_of_lt (Nat.lt_of_not_le hMore))
    rw [Nat.succ_mul] at hStep
    omega

/-- A number that is moved by half a divisor at most, to a multiple of it, goes to the nearest
multiple. -/
theorem natAbs_le_of_dvd {n j k : Int} {d : Nat} (hk : (d : Int) ∣ k) (hj : (d : Int) ∣ j)
    (hClose : 2 * (n - k).natAbs ≤ d) : (n - k).natAbs ≤ (n - j).natAbs := by
  by_cases hSame : j = k
  · rw [hSame]
  · have hApart := Int.natAbs_le_of_dvd_ne_zero (Int.dvd_sub hk hj) (by omega)
    omega

/-- If another multiple is as near then the number lies halfway, and of the two one is odd. -/
theorem halfway_of_natAbs_eq {n j k : Int} {d : Nat} (hk : (d : Int) ∣ k) (hj : (d : Int) ∣ j)
    (hClose : 2 * (n - k).natAbs ≤ d) (hDifferent : j ≠ k)
    (hNear : (n - j).natAbs = (n - k).natAbs) :
    2 * (n - k).natAbs = d ∧ (((2 * d : Nat) : Int) ∣ k → ¬ ((2 * d : Nat) : Int) ∣ j) := by
  have hApart := Int.natAbs_le_of_dvd_ne_zero (Int.dvd_sub hk hj) (by omega)
  refine ⟨by omega, fun hEven hEven' => ?_⟩
  have hApart' := Int.natAbs_le_of_dvd_ne_zero (Int.dvd_sub hEven hEven') (by omega)
  omega

/-- The multiples of a power of two are the only exact integers from the 53rd bit above it on. -/
theorem dvd_of_isExact {j : Int} {s : Nat} (hExact : IsExact j) (hLarge : 2 ^ (s + 52) ≤ j.natAbs) :
    ((2 ^ s : Nat) : Int) ∣ j := by
  obtain ⟨bits, e, hBits, hj⟩ := hExact
  have hExponent : s ≤ e := by
    by_contra hLess
    have hUpper : bits * 2 ^ e < 2 ^ (s + 52) := calc
      bits * 2 ^ e < 2 ^ 53 * 2 ^ e := Nat.mul_lt_mul_of_pos_right hBits (Nat.two_pow_pos e)
      _ = 2 ^ (53 + e) := (Nat.pow_add 2 53 e).symm
      _ ≤ 2 ^ (s + 52) := Nat.pow_le_pow_right (by decide) (by omega)
    omega
  rw [Int.natCast_dvd, hj]
  exact Dvd.dvd.mul_left (pow_dvd_pow 2 hExponent) bits

/-- Below the 53rd bit an integer is farther away than some multiple. -/
theorem exists_nearer {n j : Int} {s : Nat} (hLarge : 2 ^ (s + 52) ≤ n.natAbs)
    (hSmall : j.natAbs < 2 ^ (s + 52)) :
    ∃ edge : Int, ((2 ^ s : Nat) : Int) ∣ edge ∧ (n - edge).natAbs < (n - j).natAbs := by
  have hDvd : ((2 ^ s : Nat) : Int) ∣ ((2 ^ (s + 52) : Nat) : Int) :=
    Int.natCast_dvd_natCast.mpr (pow_dvd_pow 2 (Nat.le_add_right s 52))
  rcases Int.le_total 0 n with hSign | hSign
  · exact ⟨_, hDvd, by omega⟩
  · exact ⟨_, Int.dvd_neg.mpr hDvd, by omega⟩

/-- Rounding to multiples of a power of two goes to the nearest exact integer when the 53rd bit
above it is the first. -/
theorem isNearest_of_close {n k : Int} {s bits : Nat} (hLarge : 2 ^ (s + 52) ≤ n.natAbs)
    (hBits : bits ≤ 2 ^ 53) (hk : k.natAbs = bits * 2 ^ s) (hClose : 2 * (n - k).natAbs ≤ 2 ^ s)
    (hEven : 2 * (n - k).natAbs = 2 ^ s → bits % 2 = 0) : IsNearest n k := by
  have hDvd : ((2 ^ s : Nat) : Int) ∣ k := Int.natCast_dvd.mpr (hk ▸ Nat.dvd_mul_left _ _)
  refine ⟨isExact_of_le hBits hk, fun j hExact => ?_, fun j hExact hDifferent hNear => ?_⟩
  · rcases Nat.lt_or_ge j.natAbs (2 ^ (s + 52)) with hSmall | hMore
    · obtain ⟨edge, hEdge, hNearer⟩ := exists_nearer hLarge hSmall
      exact (natAbs_le_of_dvd hDvd hEdge hClose).trans hNearer.le
    · exact natAbs_le_of_dvd hDvd (dvd_of_isExact hExact hMore) hClose
  · rcases Nat.lt_or_ge j.natAbs (2 ^ (s + 52)) with hSmall | hMore
    · obtain ⟨edge, hEdge, hNearer⟩ := exists_nearer hLarge hSmall
      exact absurd hNear ((natAbs_le_of_dvd hDvd hEdge hClose).trans_lt hNearer).ne'
    · obtain ⟨hHalf, hOdd⟩ := halfway_of_natAbs_eq hDvd (dvd_of_isExact hExact hMore) hClose
        hDifferent hNear
      simp only [Int.natCast_dvd, ← Nat.pow_succ'] at hOdd
      have hNext : 2 ^ (s + 1) ∣ k.natAbs := by
        rw [hk, Nat.pow_succ']
        exact Nat.mul_dvd_mul (Nat.dvd_of_mod_eq_zero (hEven hHalf)) (Nat.dvd_refl _)
      exact ⟨s + 1, hNext, hOdd hNext⟩

/-! ## The double of an integer -/

theorem unitFor_one {n : Nat} (hn : n ≠ 0) : unitFor n 1 = (n.log2 : Int) - 52 := by
  have hGuess : (n.log2 : Int) - Nat.log2 1 = n.log2 := Int.sub_zero _
  unfold unitFor
  rw [hGuess]
  dsimp only
  rw [scaleBy_neg_natCast]
  dsimp only
  rw [if_pos (Nat.log2_self_le hn)]
  omega

theorem roundHalfEven_one (n : Nat) : roundHalfEven n 1 = n := by
  simp [roundHalfEven, Nat.mod_one]

/-- Up to 53 bits an integer is scaled to fill a binade, and above it is rounded to a multiple of a
power of two. -/
theorem nearestPlace_one {n : Nat} (hn : n ≠ 0) :
    nearestPlace n 1 = (n.log2 + 1022) * binade +
      if n.log2 ≤ 52 then n * 2 ^ (52 - n.log2) else roundHalfEven n (2 ^ (n.log2 - 52)) := by
  have hLevel : ((n.log2 : Int) - 52 + 1074).toNat = n.log2 + 1022 := by omega
  unfold nearestPlace
  rw [if_neg (by simpa using hn), unitFor_one hn]
  dsimp only
  rw [hLevel]
  split
  · next hSmall =>
    have hExponent : -((n.log2 : Int) - 52) = (52 - n.log2 : Nat) := by omega
    rw [hExponent, scaleBy_natCast, roundHalfEven_one]
  · next hLarge =>
    have hExponent : -((n.log2 : Int) - 52) = -((n.log2 - 52 : Nat) : Int) := by omega
    rw [hExponent, scaleBy_neg_natCast]

/-- What an integer is rounded to: itself up to 53 bits, and above a multiple of a power of two. -/
def roundedTo (n : Nat) : Nat :=
  if n.log2 ≤ 52 then n else roundHalfEven n (2 ^ (n.log2 - 52)) * 2 ^ (n.log2 - 52)

theorem log2_bounds {n : Nat} (hn : n ≠ 0) (hLarge : 52 < n.log2) :
    2 ^ 52 * 2 ^ (n.log2 - 52) ≤ n ∧ n ≤ 2 ^ 53 * 2 ^ (n.log2 - 52) := by
  have hLow : 52 + (n.log2 - 52) = n.log2 := by omega
  have hHigh : 53 + (n.log2 - 52) = n.log2 + 1 := by omega
  rw [← Nat.pow_add, ← Nat.pow_add, hLow, hHigh]
  exact ⟨Nat.log2_self_le hn, Nat.lt_log2_self.le⟩

/-- The bits that are kept fill up the binade. -/
theorem nearestPlace_fills {n : Nat} (hn : n ≠ 0) :
    ∃ bits, nearestPlace n 1 = (n.log2 + 1022) * binade + bits ∧ binade ≤ bits ∧
      bits ≤ 2 * binade ∧ bits * 2 ^ (n.log2 + 1022) = roundedTo n * unitsOfOne := by
  refine ⟨_, nearestPlace_one hn, ?_⟩
  unfold roundedTo
  split
  · next hSmall =>
    have hExponent : 52 - n.log2 + (n.log2 + 1022) = 1074 := by omega
    have hLog : n.log2 + (52 - n.log2) = 52 := by omega
    refine ⟨?_, ?_, ?_⟩
    · calc binade = 2 ^ n.log2 * 2 ^ (52 - n.log2) := by rw [← Nat.pow_add, hLog]; rfl
        _ ≤ n * 2 ^ (52 - n.log2) := Nat.mul_le_mul_right _ (Nat.log2_self_le hn)
    · calc n * 2 ^ (52 - n.log2)
          ≤ 2 ^ (n.log2 + 1) * 2 ^ (52 - n.log2) := Nat.mul_le_mul_right _ Nat.lt_log2_self.le
        _ = 2 * binade := by rw [Nat.pow_succ', Nat.mul_assoc, ← Nat.pow_add, hLog]; rfl
    · rw [unitsOfOne, ← hExponent, Nat.mul_assoc, ← Nat.pow_add]
  · next hLarge =>
    have hExponent : n.log2 + 1022 - (n.log2 - 52) = 1074 := by omega
    have hSum : n.log2 - 52 + (n.log2 + 1022 - (n.log2 - 52)) = n.log2 + 1022 := by omega
    obtain ⟨hLow, hHigh⟩ := log2_bounds hn (by omega)
    obtain ⟨hLow, hHigh⟩ := roundHalfEven_bounds (Nat.two_pow_pos (n.log2 - 52)) hLow hHigh
    refine ⟨hLow, hHigh, ?_⟩
    rw [unitsOfOne, ← hExponent, Nat.mul_assoc, ← Nat.pow_add, hSum]

theorem scaledAt_nearestPlace (n : Nat) :
    scaledAt (nearestPlace n 1) = roundedTo n * unitsOfOne := by
  by_cases hn : n = 0
  · subst hn
    rw [show roundedTo 0 = 0 from rfl, Nat.zero_mul]
    rfl
  · obtain ⟨bits, hPlace, hLow, hHigh, hValue⟩ := nearestPlace_fills hn
    rw [hPlace, scaledAt_eq hLow hHigh, hValue]

theorem nearestPlace_lt_limit {n : Nat} (h : n < 2 ^ 65) : nearestPlace n 1 < limit := by
  by_cases hn : n = 0
  · subst hn
    decide
  · have hLog : n.log2 < 65 := (Nat.log2_lt hn).mpr h
    obtain ⟨bits, hPlace, -, hHigh, -⟩ := nearestPlace_fills hn
    unfold limit binade at *
    omega

theorem isNearest_of_natAbs {n k : Int} (hSign : HasSign (n < 0) k)
    (hAbs : k.natAbs = roundedTo n.natAbs) : IsNearest n k := by
  unfold HasSign at hSign
  simp only [decide_eq_true_eq] at hSign
  unfold roundedTo at hAbs
  split at hAbs
  · next hSmall =>
    obtain rfl : n = k := by split at hSign <;> omega
    have hBits : n.natAbs < 2 ^ 53 :=
      Nat.lt_log2_self.trans_le (Nat.pow_le_pow_right (by decide) (by omega))
    exact IsNearest.self ⟨n.natAbs, 0, hBits, (Nat.mul_one _).symm⟩
  · next hLarge =>
    have hn : n.natAbs ≠ 0 := fun hZero => hLarge (by rw [hZero]; decide)
    have hExponent : n.natAbs.log2 - 52 + 52 = n.natAbs.log2 := by omega
    obtain ⟨hLow, hHigh⟩ := log2_bounds hn (by omega)
    have hPos := Nat.two_pow_pos (n.natAbs.log2 - 52)
    have hDistance : (n - k).natAbs = ((n.natAbs : Int) - k.natAbs).natAbs := by
      split at hSign <;> omega
    obtain ⟨hClose, hEven⟩ := roundHalfEven_spec n.natAbs hPos
    rw [← hAbs, ← hDistance] at hClose hEven
    refine isNearest_of_close ?_ (roundHalfEven_bounds hPos hLow hHigh).2 hAbs hClose hEven
    rw [hExponent]
    exact Nat.log2_self_le hn

/-- An integer is rounded to the double that is the nearest exact integer. -/
theorem exists_ofInt? {n : Int} (h : n.natAbs < 2 ^ 65) :
    ∃ x k, ofInt? n = some x ∧ x.toInt? = some k ∧ IsNearest n k := by
  obtain ⟨hSign, hAbs⟩ := signed_eq_iff.mp (rfl : (if decide (n < 0) = true then
    -(roundedTo n.natAbs : Int) else roundedTo n.natAbs) = _)
  refine ⟨⟨n < 0, nearestPlace n.natAbs 1, nearestPlace_lt_limit h⟩, _,
    dif_pos (nearestPlace_lt_limit h), toInt?_eq_some_iff.mpr ⟨hSign, ?_⟩,
    isNearest_of_natAbs hSign hAbs⟩
  rw [hAbs, scaledAt_nearestPlace]

/-! ## Integers in fields of doubles -/

/-- Two integers that are rounded to one: their nearest exact integer is the same. -/
def Merges (m n : Int) : Prop := ∃ k, IsNearest m k ∧ IsNearest n k

/-- Integers with two exact integers between them, themselves included, are not rounded to one. -/
theorem not_merges_of_between {m n j k : Int} (hj : IsExact j) (hk : IsExact k) (hm : m ≤ j)
    (hLess : j < k) (hn : k ≤ n) : ¬ Merges m n := by
  rintro ⟨nearest, hNearest, hNearest'⟩
  have hLow := hNearest.near j hj
  have hHigh := hNearest'.near k hk
  omega

end Double

/-- The integers that a JSON number can be: those of 64 bits, with a sign or without. -/
def Number.IsStored (n : Int) : Prop := Number.fitsSigned n = true ∨ Number.fitsUnsigned n = true

theorem Number.IsStored.natAbs_lt {n : Int} (h : IsStored n) : n.natAbs < 2 ^ 65 := by
  simp only [IsStored, fitsSigned, fitsUnsigned, Bool.and_eq_true, decide_eq_true_eq] at h
  omega

namespace Kind

theorem coerce_float_int (n : Int) : float.coerce (.int n) =
    orViolation "value is not a valid float" ((Double.ofInt? n).map (.number ∘ .float)) := rfl

/-- A field of doubles keeps an integer as the double that is the nearest exact integer. -/
theorem exists_float_int {n : Int} (h : Number.IsStored n) :
    ∃ x k, float.coerce (.int n) = .ok (.number (.float x)) ∧ x.toInt? = some k ∧
      Double.IsNearest n k := by
  obtain ⟨x, k, hRounded, hInt, hNearest⟩ := Double.exists_ofInt? h.natAbs_lt
  refine ⟨x, k, ?_, hInt, hNearest⟩
  rw [coerce_float_int, hRounded]
  rfl

/-- **Integers stay apart in fields of doubles unless their nearest exact integer is the same**, and
those that are exact are kept. -/
theorem float_apart {m n : Int} (hm : Number.IsStored m) (hn : Number.IsStored n) :
    ∃ x y, float.coerce (.int m) = .ok (.number (.float x)) ∧
      float.coerce (.int n) = .ok (.number (.float y)) ∧
      ((Json.number (.float x)).same (.number (.float y)) = true ↔ Double.Merges m n) ∧
      (x.toInt? = some m ↔ Double.IsExact m) ∧ (y.toInt? = some n ↔ Double.IsExact n) := by
  obtain ⟨x, j, hx, hj, hNearest⟩ := exists_float_int hm
  obtain ⟨y, k, hy, hk, hNearest'⟩ := exists_float_int hn
  refine ⟨x, y, hx, hy, ?_, hNearest.kept_iff hj, hNearest'.kept_iff hk⟩
  show x.same y = true ↔ _
  rw [Double.same_iff_of_toInt? hj hk]
  constructor
  · rintro rfl
    exact ⟨j, hNearest, hNearest'⟩
  · rintro ⟨nearest, hMerged, hMerged'⟩
    exact (hNearest.unique hMerged).trans (hMerged'.unique hNearest')

end Kind

namespace Observatory

/-- Beyond 53 bits there is no double between two even integers. -/
theorem counts_merged : Number.IsStored 9007199254740992 ∧ Number.IsStored 9007199254740993 ∧
    (9007199254740992 : Int) ≠ 9007199254740993 ∧
    ∃ form, Kind.float.coerce (.int 9007199254740992) = .ok form ∧
      Kind.float.coerce (.int 9007199254740993) = .ok form :=
  ⟨.inl rfl, .inl rfl, by decide, _, rfl, rfl⟩

/-- The odd one of two integers is rounded, but not to the other. -/
theorem counts_apart : ¬ Double.Merges 9007199254740993 9007199254740996 ∧
    ∃ x y, Kind.float.coerce (.int 9007199254740993) = .ok (.number (.float x)) ∧
      Kind.float.coerce (.int 9007199254740996) = .ok (.number (.float y)) ∧
      (Json.number (.float x)).same (.number (.float y)) = false ∧
      y.toInt? = some 9007199254740996 := by
  have hLow : Double.IsExact 9007199254740994 := ⟨4503599627370497, 1, by decide, rfl⟩
  have hHigh : Double.IsExact 9007199254740996 := ⟨4503599627370498, 1, by decide, rfl⟩
  have hApart : ¬ Double.Merges 9007199254740993 9007199254740996 :=
    Double.not_merges_of_between hLow hHigh (by decide) (by decide) (by decide)
  obtain ⟨x, y, hx, hy, hSame, -, hKept⟩ := Kind.float_apart
    (m := 9007199254740993) (n := 9007199254740996) (.inl rfl) (.inl rfl)
  refine ⟨hApart, x, y, hx, hy, ?_, hKept.mpr hHigh⟩
  exact Bool.eq_false_iff.mpr fun h => hApart (hSame.mp h)

end Observatory

end Storyline
