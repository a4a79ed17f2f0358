import RouterConfig.Error
import RouterConfig.Text.Digit
import RouterConfig.Text.Phrase

/-!
# Line patterns

The lines that open and close a group of commands are recognised by patterns of
a simple kind: some fixed text, and after it, up to the end of the line, at most
one *slot*, which admits one word or a number.  The slot of a header is its key.

Patterns are written as regular expressions of that kind, anchored at both ends:
`^zone (\S+)$` has a slot for a word that is captured, `^end \d+$` a slot for
digits that is not, and `^exit$` has no slot.
-/

namespace RouterConfig

open Text

/-- What may stand at the end of a line. -/
inductive PatternSlot where
  /-- Characters that are not blank, at least one. -/
  | word
  /-- Decimal digits of any script, at least one. -/
  | digits
  /-- Decimal digits, or the one name. -/
  | digitsOr (name : String)
deriving DecidableEq, Repr

/-- Decimal digits of any script, at least one. -/
def isDigitRun (cs : List Char) : Bool :=
  !cs.isEmpty && cs.all isDecimalDigit

/-- Does the text fill the slot? -/
def PatternSlot.admits : PatternSlot → List Char → Bool
  | .word, cs => !cs.isEmpty && cs.all fun c => !isBlank c
  | .digits, cs => isDigitRun cs
  | .digitsOr name, cs => isDigitRun cs || cs == name.toList

/-- Fixed text, then perhaps a slot. -/
structure Pattern where
  stem : String
  slot : Option PatternSlot := none
  /-- Is what fills the slot a result of matching? -/
  captures : Bool := false
deriving DecidableEq, Repr

namespace Pattern

/-- What fills the slot of a line that matches.  It is empty for a pattern
without a slot. -/
def match? (p : Pattern) (line : String) : Option String :=
  match after? p.stem.toList line.toList, p.slot with
  | none, _ => none
  | some rest, none => if rest.isEmpty then some "" else none
  | some rest, some slot => if slot.admits rest then some (String.ofList rest) else none

/-- Does the line match? -/
def isMatch (p : Pattern) (line : String) : Bool :=
  (p.match? line).isSome

/-! ## Reading patterns -/

/-- A character that stands for itself in a pattern. -/
def isPlain (c : Char) : Bool :=
  isDigit c || ('a' ≤ c && c ≤ 'z') || ('A' ≤ c && c ≤ 'Z') || c == ' ' || c == '-' || c == '_' ||
    c == '/' || c == ':'

/-- The ways to write the end of a pattern, with what they mean. -/
def endings : List (String × Option PatternSlot × Bool) :=
  [("(\\S+)$", some .word, true), ("(\\d+)$", some .digits, true),
    ("\\S+$", some .word, false), ("\\d+$", some .digits, false), ("$", none, false)]

/-- Reads what follows the fixed text. -/
def readEnding? (cs : List Char) : Option (Option PatternSlot × Bool) :=
  (endings.find? fun ending => ending.1.toList == cs).map Prod.snd

/-- Reads a pattern. -/
def read (text : String) : Except DialectError Pattern :=
  match text.toList with
  | '^' :: cs =>
    match readEnding? (cs.dropWhile isPlain) with
    | some (slot, captures) => .ok ⟨String.ofList (cs.takeWhile isPlain), slot, captures⟩
    | none => .error (.invalidPattern text)
  | _ => .error (.invalidPattern text)

example : (read "^zone (\\S+)$").toOption = some ⟨"zone ", some .word, true⟩ := by decide
example : (read "^end \\d+$").toOption = some ⟨"end ", some .digits, false⟩ := by decide
example : (read "^exit$").toOption = some ⟨"exit", none, false⟩ := by decide
example : (read "^zone (\\S+$").toOption = none := by decide

end Pattern

end RouterConfig
