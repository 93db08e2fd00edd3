/-!
# Lines of texts

A text is broken into lines at its line feeds.
-/

set_option autoImplicit false

namespace Storyline

/-- The lines of a text. A carriage return in front of a line feed belongs to the line break, and
there is no line after a line break that ends the text. -/
def linesOf : List Char → List (List Char)
  | [] => []
  | '\n' :: rest => [] :: linesOf rest
  | '\r' :: '\n' :: rest => [] :: linesOf rest
  | c :: rest =>
    match linesOf rest with
    | [] => [[c]]
    | line :: others => (c :: line) :: others

end Storyline
