import Storyline.Text.CharClass

/-!
# White space

The property White_Space of Unicode 17.0, and trimming: numbers written in text may stand
between any amount of it.
-/

set_option autoImplicit false

namespace Storyline

/-- The code points with the property White_Space. -/
def CharClass.blank : CharClass where
  changes := [
    0x9, 0xE, 0x20, 0x21, 0x85, 0x86, 0xA0, 0xA1, 0x1680, 0x1681, 0x2000, 0x200B, 0x2028,
    0x202A, 0x202F, 0x2030, 0x205F, 0x2060, 0x3000, 0x3001]

/-- The characters of a text without the white space at both ends. -/
def trimmed (text : List Char) : List Char :=
  let unindented := text.dropWhile CharClass.blank.contains
  (unindented.reverse.dropWhile CharClass.blank.contains).reverse

end Storyline
