/-!
# Ordered tables

A table holds entries under keys and keeps the order in which the keys came in.
An entry that is changed stays where it is, and one under a new key comes in
behind the others.
-/

namespace RouterConfig

/-- Entries under keys, in the order in which the keys came in. -/
abbrev Table (κ β : Type) : Type := List (κ × β)

namespace Table

variable {κ β : Type} [DecidableEq κ]

/-- The entry under a key. -/
def lookup? (key : κ) (table : Table κ β) : Option β :=
  (table.find? fun e => e.1 = key).map Prod.snd

/-- Changes the entry under a key, if there is one. -/
def modify (key : κ) (f : β → β) (table : Table κ β) : Table κ β :=
  table.map fun e => if e.1 = key then (e.1, f e.2) else e

/-- Changes the entry under a key, which is first put in as `fresh` if there is
none. -/
def change (key : κ) (fresh : β) (f : β → β) (table : Table κ β) : Table κ β :=
  if (lookup? key table).isSome then modify key f table else table ++ [(key, f fresh)]

/-- Puts in an entry under a key, in place of the one that is there. -/
def insert (key : κ) (entry : β) (table : Table κ β) : Table κ β :=
  change key entry (fun _ => entry) table

end Table

end RouterConfig
