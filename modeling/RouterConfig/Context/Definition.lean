import RouterConfig.Context.Key
import RouterConfig.Context.Pattern

/-!
# Context definitions

A definition says how the groups of one kind are told from the lines around
them.  A group opens with a *header*.  It ends with a *leave* line, which belongs
to nothing, after a *trailer*, which still belongs to it, at the next header, or
at a line that is neither indented nor a *member*.

How patterns are written plays no part in this, so a definition may use any
language of patterns that says whether a line matches and what it captures.
-/

namespace RouterConfig

/-- A language of patterns for lines. -/
class LinePattern (π : Type) where
  /-- Does the line match? -/
  isMatch : π → String → Bool
  /-- What the line captures, if it matches and captures anything. -/
  capture? : π → String → Option String

instance : LinePattern Pattern where
  isMatch := Pattern.isMatch
  capture? := Pattern.match?

theorem Pattern.capture?_eq (p : Pattern) (line : String) :
    LinePattern.capture? p line = p.match? line :=
  rfl

theorem Pattern.linePattern_isMatch_eq (p : Pattern) (line : String) :
    LinePattern.isMatch p line = p.isMatch line :=
  rfl

/-- How groups of one kind are recognised. -/
structure ContextDefinition (π : Type := Pattern) where
  kind : String
  /-- What a header line captures is the key. -/
  header : π
  leave : List π := []
  trailer : List π := []
  /-- How commands start that may stand in a group without being indented.  With
  no such starts every line may. -/
  memberStarts : List String := []
deriving DecidableEq, Repr

namespace ContextDefinition

/-- A definition with a header and nothing else.  The header must have a key. -/
def ofHeader (kind : String) (header : Pattern) : Except DialectError ContextDefinition :=
  if header.captures then .ok { kind, header } else .error (.missingKeyCapture kind)

section Lines

variable {π : Type}

section Patterns

variable [LinePattern π]

/-- The key on a header line. -/
def headerKey? (d : ContextDefinition π) (line : String) : Option ContextId :=
  (LinePattern.capture? d.header line).map ContextId.read

/-- Does the line close the group without belonging to it? -/
def isLeave (d : ContextDefinition π) (line : String) : Bool :=
  d.leave.any fun pattern => LinePattern.isMatch pattern line

/-- Does the line belong to the group and close it? -/
def isTrailer (d : ContextDefinition π) (line : String) : Bool :=
  d.trailer.any fun pattern => LinePattern.isMatch pattern line

end Patterns

/-- May the line stand in the group without being indented? -/
def isMember (d : ContextDefinition π) (line : String) : Bool :=
  d.memberStarts.isEmpty || d.memberStarts.any fun lead => startsWith lead line

end Lines

/-- A definition from patterns as they are written.  The first bad one is named:
the header first, then the leave lines, then the trailers. -/
def read (kind header : String) (leave trailer memberStarts : List String) :
    Except DialectError ContextDefinition := do
  let d ← ofHeader kind (← Pattern.read header)
  let leave ← leave.mapM Pattern.read
  let trailer ← trailer.mapM Pattern.read
  return { d with leave, trailer, memberStarts }

end ContextDefinition

end RouterConfig
