/-!
# Lines

A logical line is one command as it stands in a configuration, put together
again if the device had broken it over several physical lines.
-/

namespace RouterConfig

/-- One command line. -/
structure Line where
  /-- The number of its first physical line, counting from one. -/
  number : Nat
  /-- The width in bytes of the blanks in front of it. -/
  indent : Nat
  /-- The command, without blanks at either end. -/
  text : String
deriving DecidableEq, Repr

end RouterConfig
