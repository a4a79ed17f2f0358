import RouterConfig.Text.Numeral

/-!
# Context keys

Commands that belong to one tunnel or one session are grouped under a line that
selects it.  Such a group is addressed by the kind of the thing selected and by
which one it is, a number where there is one and a name otherwise.
-/

namespace RouterConfig

open Text

/-- Which thing of its kind is selected. -/
inductive ContextId where
  | number (n : UInt32)
  | name (s : String)
deriving DecidableEq, Repr

namespace ContextId

/-- Reads an identifier, as a number if it is one. -/
def read (s : String) : ContextId :=
  match readNumber? s with
  | some n => .number n
  | none => .name s

/-- The number, if the thing selected is numbered. -/
def number? : ContextId → Option UInt32
  | .number n => some n
  | .name _ => none

/-- Writes an identifier. -/
def render : ContextId → String
  | .number n => numeral n
  | .name s => s

end ContextId

/-- The address of a group of commands. -/
structure ContextKey where
  kind : String
  id : ContextId
deriving DecidableEq, Repr

/-- Writes an address. -/
def ContextKey.render (k : ContextKey) : String :=
  k.kind ++ " " ++ k.id.render

end RouterConfig
