/-!
# Execution history

The history lists the stories and steps that one invocation went through, each on a line of its
own and indented under its story. What came of a step is marked on its line.
-/

set_option autoImplicit false

namespace Storyline

/-- What is marked on a line of the history. -/
inductive Mark where
  /-- The story ended there with this value, given as text. -/
  | returned (value : String)
  /-- The story failed there, perhaps with a reason, given as text. -/
  | failed (reason : Option String)
  /-- The innermost story was left there. -/
  | skipped
  /-- An error of this kind ended the story there. -/
  | errored (kind : String)
  deriving DecidableEq, Repr

/-- A mark as it is shown behind its line. -/
def Mark.text : Mark → String
  | returned value => " (returned: " ++ value ++ ")"
  | failed none => " (failed)"
  | failed (some reason) => " (failed: " ++ reason ++ ")"
  | skipped => " (skipped)"
  | errored kind => " (errored: " ++ kind ++ ")"

/-- The space in front of a line at some depth. -/
def indentation (depth : Nat) : String := String.ofList (List.replicate (2 * depth) ' ')

/-- A line of the history: a story or a step, how deep it lies, and what came of it. -/
structure HistoryLine where
  depth : Nat
  label : String
  marks : List Mark := []
  deriving DecidableEq, Repr

/-- A line without its marks. -/
def HistoryLine.entry (line : HistoryLine) : String := indentation line.depth ++ line.label

/-- A line as it is shown. -/
def HistoryLine.text (line : HistoryLine) : String :=
  line.entry ++ String.join (line.marks.map Mark.text)

/-- The history of an invocation, and the depth of the next line. -/
structure History where
  depth : Nat := 0
  lines : List HistoryLine := []
  deriving DecidableEq, Repr

namespace History

/-- Add a line for a step that is about to run. -/
def enter (h : History) (label : String) : History :=
  { h with lines := h.lines ++ [{ depth := h.depth, label := label }] }

/-- Add a line for a story that starts; what follows lies in it. -/
def startStory (h : History) (label : String) : History :=
  { h.enter label with depth := h.depth + 1 }

/-- The innermost story has ended. -/
def endStory (h : History) : History := { h with depth := h.depth - 1 }

/-- Mark the last line of a list of lines. -/
def markLast (mark : Mark) : List HistoryLine → List HistoryLine
  | [] => []
  | [line] => [{ line with marks := line.marks ++ [mark] }]
  | line :: next :: rest => line :: markLast mark (next :: rest)

/-- Mark the last line. -/
def mark (h : History) (mark : Mark) : History := { h with lines := markLast mark h.lines }

/-- The last step left its story. -/
def skip (h : History) : History := (h.mark .skipped).endStory

/-- The lines as they are shown. -/
def texts (h : History) : List String := h.lines.map HistoryLine.text

/-- The history as it is shown. -/
def display (h : History) : String := "\n".intercalate h.texts

end History

end Storyline
