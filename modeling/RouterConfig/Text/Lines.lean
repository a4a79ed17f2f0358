import RouterConfig.Text.Words

/-!
# Lines of a text

A line feed ends a line, so after one at the very end there is no further line.
What a carriage return does depends on who reads the text.  In a configuration it
breaks a line wherever it stands.  In the answer of a device it belongs to the
line break when a line feed follows it, and is a character otherwise.
-/

namespace RouterConfig.Text

/-- The lines of the text, each ended by a line feed or by the end. -/
def linesOf : List Char → List (List Char)
  | [] => []
  | c :: cs => if c = '\n' then [] :: linesOf cs else lengthenFirst c (linesOf cs)

/-- Every line break, whatever its form, as a line feed. -/
def unifyBreaks : List Char → List Char
  | [] => []
  | '\r' :: '\n' :: cs => '\n' :: unifyBreaks cs
  | c :: cs => (if c = '\r' then '\n' else c) :: unifyBreaks cs

/-- The physical lines of a configuration. -/
def physicalLines (raw : List Char) : List (List Char) :=
  linesOf (unifyBreaks raw)

/-- The text without the carriage returns that stand in front of a line feed. -/
def dropReturns : List Char → List Char
  | [] => []
  | '\r' :: '\n' :: cs => '\n' :: dropReturns cs
  | c :: cs => c :: dropReturns cs

/-- The lines of an answer. -/
def answerLines (s : String) : List String :=
  (linesOf (dropReturns s.toList)).map String.ofList

example : answerLines "line1\nline2\r\nline3\r" = ["line1", "line2", "line3\r"] := by decide

end RouterConfig.Text
