import RouterConfig.Stanza
import RouterConfig.Text.LetterCase
import RouterConfig.Wrap.Reconstruct

/-!
# Dialects

A dialect is what has to be known about the text of one family of devices: which
lines group commands, which words start a command, how wrapped lines are put
together, and which fragments of an answer mean that a command was rejected.
-/

namespace RouterConfig

open Text

/-- What is known about the text of a family of devices. -/
structure Dialect where
  name : String
  /-- At most one definition of each kind. -/
  contexts : List ContextDefinition := []
  /-- The words that start a command. -/
  commandStarts : List String := []
  wrap : Wrap.Options := {}
  /-- Fragments of an answer that reject the command. -/
  failureMarks : List String := []
  /-- Fragments of an answer to a deletion that say there was nothing to delete. -/
  notFoundMarks : List String := []

namespace Dialect

/-- Puts a definition behind the others, or in the place of the one of its kind. -/
def insertContext (d : ContextDefinition) : List ContextDefinition → List ContextDefinition
  | [] => [d]
  | e :: rest => if e.kind = d.kind then d :: rest else e :: insertContext d rest

/-- The dialect with one more context definition. -/
def withContext (dialect : Dialect) (d : ContextDefinition) : Dialect :=
  { dialect with contexts := insertContext d dialect.contexts }

/-- The definition of a kind. -/
def context? (dialect : Dialect) (kind : String) : Option ContextDefinition :=
  dialect.contexts.find? fun d => d.kind = kind

/-- The reconstructor of the dialect. -/
def reconstructor (dialect : Dialect) : Wrap.Reconstructor :=
  { Wrap.Reconstructor.ofOptions dialect.wrap with commandStarts := dialect.commandStarts }

/-- The first failure mark in an answer, letter case aside. -/
def failureIn? (dialect : Dialect) (output : String) : Option String :=
  dialect.failureMarks.find? fun mark => occursIgnoringCase mark output

/-- Does the answer say that there was nothing to delete? -/
def reportsNotFound (dialect : Dialect) (output : String) : Bool :=
  dialect.notFoundMarks.any fun mark => occursIgnoringCase mark output

end Dialect

end RouterConfig
