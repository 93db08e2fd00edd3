/-!
# Rejected values

A validator rejects a value with messages that say why.
-/

set_option autoImplicit false

namespace Storyline

/-- Why a value was rejected. -/
structure Violation where
  messages : List String
  deriving DecidableEq, Repr

namespace Violation

/-- A violation with one message. -/
def because (message : String) : Violation := ⟨[message]⟩

/-- The messages, one on a line. -/
def message (v : Violation) : String := "\n".intercalate v.messages

end Violation

end Storyline
