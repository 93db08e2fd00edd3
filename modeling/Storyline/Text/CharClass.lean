/-!
# Classes of characters

A class of characters is a set of code points. The classes of the Unicode standard consist of
long runs, so a class is written as the ascending list of the code points at which membership
changes: the first is the first member, the second the first code point after its run, and so
on. A code point belongs to the class when an odd number of changes lie at or below it.
-/

set_option autoImplicit false

namespace Storyline

/-- A set of code points, given by the ascending code points at which membership changes. -/
structure CharClass where
  /-- Starts of runs of members and of non-members, alternating. -/
  changes : List Nat

namespace CharClass

/-- Whether a character belongs to the class: an odd number of changes is at or below it. -/
def contains (cls : CharClass) (c : Char) : Bool :=
  (cls.changes.takeWhile (· ≤ c.toNat)).length % 2 == 1

end CharClass

end Storyline
