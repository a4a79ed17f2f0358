import RouterConfig.Text.Words

/-!
# What happens at a wrap point

A device prints its configuration at a fixed width and breaks a long command
wherever the column runs out, even inside a number.  Between two physical lines
there is thus a *wrap point*, and four things may have happened at it: the text
was cut (put it together again), it was cut at a space (put the space back), it
was continued with a marker (take the marker away), or nothing was cut and the
next line is a command of its own.

A *policy* is an opinion on that, formed from the command built so far and the
next physical line.  It may have none.  Policies are asked in order, and the
first opinion counts.
-/

namespace RouterConfig.Wrap

open Text

/-- How two neighbouring physical lines belong together. -/
inductive Join where
  /-- They are put together with nothing between them. -/
  | glued
  /-- They are put together with one space between them. -/
  | spaced
  /-- The first one loses a marker of so many bytes at its end, and one space
  takes its place. -/
  | pastMarker (bytes : Nat)
  /-- They are separate commands. -/
  | apart
deriving DecidableEq, Repr

/-- An opinion on wrap points. -/
structure Policy where
  name : String
  /-- The opinion on the point between the command built so far and the next
  physical line. -/
  decide : (current next : List Char) → Option Join

namespace Policy

/-- Does the text start with a digit? -/
def startsWithDigit : List Char → Bool
  | [] => false
  | c :: _ => isDigit c

/-- Does the text end with a digit? -/
def endsWithDigit (cs : List Char) : Bool :=
  startsWithDigit cs.reverse

/-- A number was cut: digits stand on both sides of the wrap point. -/
def digitSplit : Policy where
  name := "digit_split"
  decide current next :=
    if endsWithDigit current && startsWithDigit next then some .glued else none

/-- An option was cut in front of its equals sign. -/
def equalsSplit : Policy where
  name := "equals_split"
  decide _ next := if (trimStart next).head? = some '=' then some .glued else none

/-- The command built so far ends with a marker that says it goes on.  The empty
marker is on no line. -/
def continuationMarker (marker : String) : Policy where
  name := "continuation_marker"
  decide current _ :=
    if !marker.toList.isEmpty && marker.toList.isSuffixOf (trimEnd current) then
      some (.pastMarker (byteSize marker.toList))
    else
      none

/-- A list of numbers goes on: the next line starts with one. -/
def numericContinuation : Policy where
  name := "numeric_continuation"
  decide _ next := if startsWithDigit (trimStart next) then some .spaced else none

end Policy

end RouterConfig.Wrap
