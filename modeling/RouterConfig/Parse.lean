import RouterConfig.Dialect

/-!
# Parsing a configuration

The two steps from raw text to placed lines, in one call: wrapped commands are
put together, and the logical lines are scanned.
-/

namespace RouterConfig

/-- A configuration whose lines are in their places. -/
structure ParsedConfig where
  stanza : Stanza
  ambiguities : List Wrap.Ambiguity
  /-- The number of logical lines. -/
  lineCount : Nat
deriving DecidableEq, Repr

namespace Dialect

/-- Parses raw text. -/
def parse (dialect : Dialect) (raw : String) : ParsedConfig :=
  let r := dialect.reconstructor.reconstruct raw
  ⟨Stanza.scan dialect.contexts r.lines, r.ambiguities, r.lines.length⟩

/-- Parses commands as if a device had printed them. -/
def parseCommands (dialect : Dialect) (commands : List String) : ParsedConfig :=
  dialect.parse (joined "\n" commands)

end Dialect

end RouterConfig
