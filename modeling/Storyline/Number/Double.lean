/-!
# Finite doubles

The finite numbers of the binary format with 53 significant bits, as exact data. A number is a
sign and a *magnitude*, its place among the non-negative numbers of the format in ascending
order: place `0` is zero, and the places `k·2⁵² … (k+1)·2⁵² - 1` share one unit. So every
place below `Double.limit` is one number, and the order of places is the order of numbers.

`Double.nearest?` rounds an exact quotient to the nearest number, a tie to the even place; all
arithmetic goes through it.
-/

set_option autoImplicit false

namespace Storyline

/-- How many places share one unit: two to the power of 52. -/
def Double.binade : Nat := 0x10000000000000

/-- The first place beyond the finite numbers. -/
def Double.limit : Nat := 2047 * Double.binade

/-- A finite number of the double format: its sign and the place of its magnitude. -/
structure Double where
  /-- Whether the sign is negative; zero has both signs. -/
  negative : Bool
  /-- The place of the magnitude among the non-negative numbers. -/
  magnitude : Nat
  finite : magnitude < Double.limit
  deriving DecidableEq

namespace Double

/-- The exponent of the unit at a place: consecutive places there differ by `2 ^ unit`. -/
def unitAt (place : Nat) : Int :=
  (max (place / binade) 1 : Nat) - 1075

/-- How many units the number at a place is. -/
def unitsAt (place : Nat) : Nat :=
  place - (max (place / binade) 1 - 1) * binade

/-- The exponent of the unit of a number. -/
def unit (x : Double) : Int := unitAt x.magnitude

/-- How many units the magnitude of a number is. -/
def units (x : Double) : Nat := unitsAt x.magnitude

/-- Zero, with a sign. -/
def zero (negative : Bool) : Double := ⟨negative, 0, by decide⟩

/-! ## Rounding -/

/-- The integer nearest to `num / den`, a tie going to the even neighbour. -/
def roundHalfEven (num den : Nat) : Nat :=
  let q := num / den
  let twice := 2 * (num % den)
  if twice < den then q
  else if den < twice then q + 1
  else if q % 2 == 0 then q else q + 1

/-- The quotient `num / den` times `2 ^ e`, as a quotient again. -/
def scaleBy (num den : Nat) (e : Int) : Nat × Nat :=
  if 0 ≤ e then (num * Nat.pow 2 e.toNat, den) else (num, den * Nat.pow 2 (-e).toNat)

/-- The exponent of the unit in which `num / den` has 53 significant bits, but not below the
smallest unit of the format. -/
def unitFor (num den : Nat) : Int :=
  let guess : Int := (num.log2 : Int) - den.log2
  let (scaledNum, scaledDen) := scaleBy num den (-guess)
  let leading := if scaledDen ≤ scaledNum then guess else guess - 1
  max (leading - 52) (-1074)

/-- The place nearest to `num / den`, which may lie beyond the finite numbers. -/
def nearestPlace (num den : Nat) : Nat :=
  if num == 0 then 0
  else
    let e := unitFor num den
    let (scaledNum, scaledDen) := scaleBy num den (-e)
    (e + 1074).toNat * binade + roundHalfEven scaledNum scaledDen

/-- The number at a place, if it is finite. -/
def ofPlace? (negative : Bool) (place : Nat) : Option Double :=
  if h : place < limit then some ⟨negative, place, h⟩ else none

/-- The number nearest to `± num / den`, if it is finite. -/
def nearest? (negative : Bool) (num den : Nat) : Option Double :=
  ofPlace? negative (nearestPlace num den)

/-- The number nearest to an integer, if it is finite. -/
def ofInt? (i : Int) : Option Double :=
  nearest? (i < 0) i.natAbs 1

/-! ## Arithmetic -/

/-- The magnitude as an exact quotient. -/
def quotient (x : Double) : Nat × Nat := scaleBy x.units 1 x.unit

/-- The rounded product, if it is finite. -/
def mul? (x y : Double) : Option Double :=
  let (a, b) := x.quotient
  let (c, d) := y.quotient
  nearest? (x.negative != y.negative) (a * c) (b * d)

/-- The rounded quotient; there is none for a divisor zero or beyond the finite numbers. -/
def div? (x y : Double) : Option Double :=
  let (a, b) := x.quotient
  let (c, d) := y.quotient
  if c == 0 then none else nearest? (x.negative != y.negative) (a * d) (b * c)

/-! ## Comparison and whole numbers -/

/-- Equality as numbers: the two zeros are equal. -/
def same (x y : Double) : Bool :=
  x.magnitude == y.magnitude && (x.negative == y.negative || x.magnitude == 0)

/-- Whether a number is at least zero; a negative zero is. -/
def isNonneg (x : Double) : Bool := !x.negative || x.magnitude == 0

/-- The integer a number is, if it is whole. -/
def toInt? (x : Double) : Option Int :=
  let (num, den) := x.quotient
  if num % den == 0 then
    let n : Int := (num / den : Nat)
    some (if x.negative then -n else n)
  else none

end Double

end Storyline
