import Storyline.Number.Basic

/-!
# Reading numbers

Numbers reach the library in two ways, with two rules.

* A literal of a JSON document (`NumberLiteral`) is read in bounded precision: the leading digits
  that fit into 64 bits are taken as an integer, rounded to a double, and scaled by a rounded
  power of ten. An integer literal that fits is that integer.
* Text that stands for a number (`readInteger?`, `readDouble?`) is read exactly: an integer of
  64 bits, or the double nearest to the decimal.
-/

set_option autoImplicit false

namespace Storyline

/-- The value of a decimal digit. -/
def digitValue (c : Char) : Nat := c.toNat - '0'.toNat

/-- The natural number a list of digits is. -/
def digitsValue (digits : List Char) : Nat :=
  digits.foldl (fun n c => 10 * n + digitValue c) 0

/-! ## Literals of a document -/

/-- A number literal, split into its parts. -/
structure NumberLiteral where
  negative : Bool
  /-- The digits before the point. -/
  whole : List Char
  /-- The digits after the point; empty without a point. -/
  fraction : List Char
  /-- Whether the exponent is negative, and its digits. -/
  exponent : Option (Bool × List Char)

namespace NumberLiteral

/-- The first digits of a list, appended to a significand as long as it fits into 64 bits; with
the digits that are left. -/
def absorb : Nat → List Char → Nat × List Char
  | significand, [] => (significand, [])
  | significand, c :: rest =>
    let next := 10 * significand + digitValue c
    if next < 0x10000000000000000 then absorb next rest else (significand, c :: rest)

/-- A significand times a power of ten, each factor rounded, and the result rounded again; there
is no value beyond the finite doubles. Far below the unit of the format the value is zero. -/
def scaled? (negative : Bool) (significand : Nat) (exponent : Int) : Option Double := do
  let power (e : Nat) : Option Double := Double.nearest? false (Nat.pow 10 e) 1
  let base ← Double.nearest? negative significand 1
  if significand == 0 || exponent < -616 then
    some (Double.zero negative)
  else if 308 < exponent then
    none
  else if 0 ≤ exponent then
    base.mul? (← power exponent.toNat)
  else if -308 ≤ exponent then
    base.div? (← power (-exponent).toNat)
  else
    (← base.div? (← power 308)).div? (← power (-exponent - 308).toNat)

/-- The double a literal stands for. Digits that do not fit into the significand count as
places before the point and are dropped behind it. -/
def toDouble? (l : NumberLiteral) : Option Double :=
  let (whole, dropped) := absorb 0 l.whole
  let (significand, unread) := absorb whole l.fraction
  let places : Int := (dropped.length : Int) - (l.fraction.length - unread.length : Nat)
  match l.exponent with
  | none => scaled? l.negative significand places
  | some (down, digits) =>
    let exponent : Int := digitsValue digits
    if 0x80000000 ≤ exponent then
      if significand != 0 && !down then none else some (Double.zero l.negative)
    else scaled? l.negative significand (if down then places - exponent else places + exponent)

/-- The number a literal stands for: an integer literal that fits into 64 bits, with a sign for
the negative ones, is that integer, and all others are doubles. A negative zero is a double. -/
def value? (l : NumberLiteral) : Option Number :=
  let n : Int := digitsValue l.whole
  let isInteger := l.fraction.isEmpty && l.exponent.isNone
  if isInteger && !l.negative && Number.fitsUnsigned n then some (.int n)
  else if isInteger && l.negative && 0 < n && Number.fitsSigned (-n) then some (.int (-n))
  else l.toDouble?.map .float

end NumberLiteral

/-! ## Numbers written in text -/

/-- A sign in front of a text, if there is one, and the rest. -/
def splitSign : List Char → Bool × List Char
  | '-' :: rest => (true, rest)
  | '+' :: rest => (false, rest)
  | text => (false, text)

/-- The integer of 64 bits that a text is, with an optional sign and any number of leading
zeros. -/
def readInteger? (text : List Char) : Option Int :=
  let (negative, digits) := splitSign text
  let n : Int := digitsValue digits
  let value := if negative then -n else n
  if !digits.isEmpty && digits.all Char.isDigit && Number.fitsSigned value then some value
  else none

/-- The double nearest to `± significand · 10 ^ exponent`, if it is finite. -/
def nearestDecimal? (negative : Bool) (significand : Nat) (exponent : Int) : Option Double :=
  let size := (digitCount significand : Int) + exponent
  if significand == 0 || size < -330 then some (Double.zero negative)
  else if 310 < size then none
  else if 0 ≤ exponent then Double.nearest? negative (significand * Nat.pow 10 exponent.toNat) 1
  else Double.nearest? negative significand (Nat.pow 10 (-exponent).toNat)

/-- The exponent at the end of a decimal: nothing, or a letter `e`, an optional sign and at
least one digit. -/
def readExponent? : List Char → Option Int
  | [] => some 0
  | letter :: rest =>
    let (negative, digits) := splitSign rest
    if (letter == 'e' || letter == 'E') && !digits.isEmpty && digits.all Char.isDigit then
      let n : Int := digitsValue digits
      some (if negative then -n else n)
    else none

/-- The finite double that a text is nearest to: an optional sign, digits with at most one point
and at least one digit, and an optional exponent. -/
def readDouble? (text : List Char) : Option Double := do
  let (negative, unsigned) := splitSign text
  let whole := unsigned.takeWhile Char.isDigit
  let afterWhole := unsigned.dropWhile Char.isDigit
  let (fraction, tail) := match afterWhole with
    | '.' :: rest => (rest.takeWhile Char.isDigit, rest.dropWhile Char.isDigit)
    | rest => ([], rest)
  if whole.isEmpty && fraction.isEmpty then none
  let exponent ← readExponent? tail
  nearestDecimal? negative (digitsValue (whole ++ fraction)) (exponent - fraction.length)

end Storyline
