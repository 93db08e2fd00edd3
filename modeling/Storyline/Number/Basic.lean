import Storyline.Number.Shortest

/-!
# Numbers of JSON values

A number is an integer or a double. The two never mix: `1` and `1.0` are different numbers,
with different texts.
-/

set_option autoImplicit false

namespace Storyline

/-- An integer or a finite double. -/
inductive Number where
  | int (value : Int)
  | float (value : Double)
  deriving DecidableEq

namespace Number

/-- Equality of numbers; an integer and a double always differ. -/
def same : Number → Number → Bool
  | .int a, .int b => a == b
  | .float a, .float b => a.same b
  | _, _ => false

/-- The number as text. -/
def text : Number → String
  | .int i => toString i
  | .float x => x.text

/-- The nearest double. -/
def toDouble? : Number → Option Double
  | .int i => Double.ofInt? i
  | .float x => some x

/-- Whether an integer fits into 64 bits with a sign. -/
def fitsSigned (i : Int) : Bool := -0x8000000000000000 ≤ i && i < 0x8000000000000000

/-- Whether an integer fits into 64 bits without a sign. -/
def fitsUnsigned (i : Int) : Bool := 0 ≤ i && i < 0x10000000000000000

end Number

end Storyline
