import RouterConfig.Feature
import RouterConfig.Parse
import RouterConfig.Reconcile

/-!
# The journal

Reading and comparing configurations leaves a record for whoever runs the
program: what was guessed, what was rejected, and how much of everything there
was.  It follows from the results, so it is computed from them afterwards.
-/

namespace RouterConfig

open Text

/-- How urgent an entry is. -/
inductive JournalLevel where
  | warn
  | debug
deriving DecidableEq, Repr

/-- One entry. -/
structure JournalEntry where
  level : JournalLevel
  message : String
deriving DecidableEq, Repr

/-- A count in words. -/
private def count (n : Nat) : String :=
  String.ofList (decimal n)

/-- The entry for a guess. -/
def Wrap.Ambiguity.entry (a : Wrap.Ambiguity) : JournalEntry :=
  ⟨.warn, "line " ++ count a.lineNumber ++ ": ambiguous wrap, joining '" ++ a.next ++ "' onto '" ++
    a.current ++ "'"⟩

/-- The entries for a parsed configuration. -/
def ParsedConfig.journal (p : ParsedConfig) : List JournalEntry :=
  p.ambiguities.map Wrap.Ambiguity.entry ++
    [⟨.debug, "parsed " ++ count p.lineCount ++ " logical lines: " ++
      count p.stanza.topLevel.length ++ " top-level, " ++ count p.stanza.contexts.length ++
      " contexts, " ++ count p.ambiguities.length ++ " ambiguous joins"⟩]

/-- The entries for decoded records: one for each rejected line. -/
def Decoded.journal {ρ : Type} (d : Decoded ρ) : List JournalEntry :=
  d.errors.map fun e => ⟨.warn, e.message⟩

/-- The entry for a reconciliation of so many observed records. -/
def Reconciliation.journal {ρ : Type} (r : Reconciliation ρ) (observed : Nat) :
    List JournalEntry :=
  [⟨.debug, "reconciled " ++ count r.slots.length ++ " desired against " ++ count observed ++
    " observed: " ++ count r.normalized.length ++ " matched, " ++ count r.unmatched.length ++
    " unmatched, " ++ count r.ghosts.length ++ " ghosts"⟩]

end RouterConfig
