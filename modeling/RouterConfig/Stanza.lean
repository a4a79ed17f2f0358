import RouterConfig.Collect
import RouterConfig.Context.Definition
import RouterConfig.Line

/-!
# Scanning

The scanner puts every logical line in its place.  A line is skipped (blank
lines and comments), or it opens a group as its header, or it closes the open
group without belonging anywhere, or it is stored: in the open group or at top
level.  Groups do not nest; a header inside a group opens the next one.

`places` says where each line goes, carrying from line to line nothing but which
group is open.  The `Stanza` is then read off the places, so that which lines a
group holds, in which order, and which groups there are, are separate facts
about one list of places.
-/

namespace RouterConfig

open Text

/-! ## Places -/

/-- Where a line goes. -/
inductive Place where
  /-- Nowhere: it is blank or a comment. -/
  | skipped
  /-- It opens the group. -/
  | header (key : ContextKey)
  /-- Nowhere: it only closes the open group. -/
  | leave
  /-- To the group. -/
  | inside (key : ContextKey)
  /-- To the top level. -/
  | top
deriving DecidableEq, Repr

/-- The open group, if there is one, with its definition. -/
abbrev OpenContext (π : Type := Pattern) := Option (ContextDefinition π × ContextKey)

section Scan

variable {π : Type} [LinePattern π]

namespace Scanner

/-- Is the line to be skipped? -/
def isSkipped (text : String) : Bool :=
  match text.toList with
  | [] => true
  | c :: _ => c == '#'

/-- The definition of which the line is a header, with the key it names; the
first one that fits. -/
def header? (definitions : List (ContextDefinition π)) (text : String) : OpenContext π :=
  definitions.findSome? fun d => (d.headerKey? text).map fun id => (d, ⟨d.kind, id⟩)

/-- Where a line goes while `opened` is open, and what is open after it. -/
def place (definitions : List (ContextDefinition π)) (opened : OpenContext π) (line : Line) :
    Place × OpenContext π :=
  if isSkipped line.text then (.skipped, opened)
  else
    match header? definitions line.text with
    | some (d, key) => (.header key, some (d, key))
    | none =>
      match opened with
      | some (d, key) =>
        if d.isLeave line.text then (.leave, none)
        else if 0 < line.indent || d.isMember line.text then
          (.inside key, if d.isTrailer line.text then none else opened)
        else (.top, none)
      | none => if definitions.any (·.isLeave line.text) then (.leave, none) else (.top, none)

/-- Where each line goes, the group `opened` being open before the first. -/
def places (definitions : List (ContextDefinition π)) :
    (opened : OpenContext π) → List Line → List (Place × Line)
  | _, [] => []
  | opened, line :: rest =>
    let step := place definitions opened line
    (step.1, line) :: places definitions step.2 rest

end Scanner

/-! ## Stanzas -/

/-- Scanned lines. -/
structure Stanza where
  topLevel : List Line
  /-- The groups, in the order in which they were opened first. -/
  contexts : List (ContextKey × List Line)
  /-- The number of lines that were skipped. -/
  skipped : Nat
deriving DecidableEq, Repr

namespace Stanza

/-- The key of the group that a line opens. -/
def openedKey? : Place × Line → Option ContextKey
  | (.header key, _) => some key
  | _ => none

/-- The lines that go to one place. -/
def linesAt (p : Place) (placed : List (Place × Line)) : List Line :=
  (placed.filter fun q => q.1 = p).map Prod.snd

/-- The stanza of placed lines. -/
def ofPlaces (placed : List (Place × Line)) : Stanza where
  topLevel := linesAt .top placed
  contexts := (distinct (placed.filterMap openedKey?)).map fun key =>
    (key, linesAt (.inside key) placed)
  skipped := (linesAt .skipped placed).length

/-- Scans lines. -/
def scan (definitions : List (ContextDefinition π)) (lines : List Line) : Stanza :=
  ofPlaces (Scanner.places definitions none lines)

/-- The groups of one kind. -/
def contextsOf (s : Stanza) (kind : String) : List (ContextId × List Line) :=
  (s.contexts.filter fun c => c.1.kind = kind).map fun c => (c.1.id, c.2)

/-- Nothing was stored and no group was opened. -/
def isEmpty (s : Stanza) : Bool :=
  s.topLevel.isEmpty && s.contexts.isEmpty

end Stanza

end Scan

end RouterConfig
