import Storyline.Number.Double

/-!
# Shortest decimals

The text of a double is the decimal with the fewest digits that rounds back to it; of two such
decimals the nearer, of two equally near the one with the even last digit. The numbers that
round to a double lie between its midpoints with its two neighbours, the midpoints included
when its place is even. On each decimal grid only the two grid points around the double need to
be tried: a grid with any point in that interval has one of these in it.
-/

set_option autoImplicit false

namespace Storyline

/-- The decimal `digits · 10 ^ exponent`. -/
structure Decimal where
  digits : Nat
  exponent : Int
  deriving DecidableEq, Repr

/-- How many decimal digits a natural number is written with. -/
def digitCount (n : Nat) : Nat := (Nat.toDigits 10 n).length

namespace Double

/-- The value at a place as an exact quotient; places beyond the finite numbers go on alike. -/
def quotientAt (place : Nat) : Nat × Nat := scaleBy (unitsAt place) 1 (unitAt place)

/-- The midpoint of the values at a place and at the next, as an exact quotient. -/
def midpointAbove (place : Nat) : Nat × Nat :=
  let (a, b) := quotientAt place
  let (c, d) := quotientAt (place + 1)
  (a * d + c * b, 2 * (b * d))

/-- Whether a quotient rounds to the number at a positive place. -/
def roundsTo (place num den : Nat) : Bool :=
  let (lowNum, lowDen) := midpointAbove (place - 1)
  let (highNum, highDen) := midpointAbove place
  if place % 2 == 0 then lowNum * den ≤ num * lowDen && num * highDen ≤ highNum * den
  else lowNum * den < num * lowDen && num * highDen < highNum * den

/-- The exponent of the leading decimal digit of a positive quotient. -/
def leadingExponent (num den : Nat) : Int :=
  if den ≤ num then (digitCount (num / den) : Int) - 1
  else -(digitCount ((den + num - 1) / num - 1) : Int)

/-- A quotient divided by a power of ten, as a quotient again. -/
def shiftDecimal (num den : Nat) (e : Int) : Nat × Nat :=
  if 0 ≤ e then (num, den * Nat.pow 10 e.toNat) else (num * Nat.pow 10 (-e).toNat, den)

/-- The best of the two points around the number at a place on the grid of `10 ^ e`, if one of
them rounds to it. -/
def onGrid? (place : Nat) (e : Int) : Option Decimal :=
  let (num, den) := quotientAt place
  let (scaledNum, scaledDen) := shiftDecimal num den e
  let below := scaledNum / scaledDen
  let hits (point : Nat) : Bool :=
    let (n, d) := shiftDecimal point 1 (-e)
    roundsTo place n d
  match hits below, hits (below + 1) with
  | true, true => some ⟨roundHalfEven scaledNum scaledDen, e⟩
  | true, false => some ⟨below, e⟩
  | false, true => some ⟨below + 1, e⟩
  | false, false => none

/-- The shortest decimal that rounds to the magnitude of a number other than zero. Seventeen
digits always suffice. -/
def shortest (x : Double) : Decimal :=
  let (num, den) := x.quotient
  let leading := leadingExponent num den
  let grids := (List.range 17).map fun (n : Nat) => leading - (n : Int)
  (grids.findSome? (onGrid? x.magnitude)).getD ⟨x.magnitude, 0⟩

end Double

/-! ## Writing decimals -/

namespace Decimal

/-- The digits without the zeros at the end. -/
def significantDigits (d : Decimal) : List Char :=
  ((Nat.toDigits 10 d.digits).reverse.dropWhile (· == '0')).reverse

/-- The power of ten of the first digit. -/
def scale (d : Decimal) : Int :=
  d.exponent + (digitCount d.digits : Int) - 1

/-- Positional notation with at least one digit on each side of the point. -/
def positional (d : Decimal) : List Char :=
  let digits := d.significantDigits
  if d.scale < 0 then
    '0' :: '.' :: (List.replicate (-d.scale - 1).toNat '0' ++ digits)
  else
    let whole := d.scale.toNat + 1
    let padded := digits ++ List.replicate (whole + 1 - digits.length) '0'
    padded.take whole ++ '.' :: padded.drop whole

/-- Scientific notation: one digit, the rest after a point if there is a rest, and the exponent
with its sign. -/
def scientific (d : Decimal) : List Char :=
  let mantissa := match d.significantDigits with
    | [] => ['0']
    | [digit] => [digit]
    | digit :: rest => digit :: '.' :: rest
  let sign := if d.scale < 0 then '-' else '+'
  mantissa ++ 'e' :: sign :: Nat.toDigits 10 d.scale.natAbs

end Decimal

/-- The text of a number: positional from `10⁻⁵` on and below `10¹⁶`, scientific outside. -/
def Double.text (x : Double) : String :=
  let magnitude :=
    if x.magnitude == 0 then ['0', '.', '0']
    else
      let d := x.shortest
      if -5 ≤ d.scale && d.scale < 16 then d.positional else d.scientific
  String.ofList (if x.negative then '-' :: magnitude else magnitude)

end Storyline
