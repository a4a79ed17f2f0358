import RouterConfig.Selection

/-!
# Records that are changed in place

A group of commands is read into one record, which is changed in place.  A command that is wrong
is given up where this is found, and there is no way back: what was changed until then stays
changed.  An *edit* is such a command, or a part of one.

Reading goes on after a wrong command, with the record as that one left it.  The group is rejected
in the end, but each command that follows is checked against what is there by then.
-/

namespace RouterConfig

/-- A change of a record that may fail.  What was changed until then stays changed. -/
abbrev Edit (ε ρ α : Type) : Type := EStateM ε ρ α

namespace Edit

variable {ε ρ α : Type}

/-- What was read, or a failure if it could not be. -/
def reads : Except ε α → Edit ε ρ α
  | .ok a => pure a
  | .error e => throw e

/-- A failure if the record is not as it has to be. -/
def check (fault? : ρ → Option ε) : Edit ε ρ Unit := do
  match fault? (← get) with
  | some e => throw e
  | none => pure ()

/-- The edit that changes the record in one step, or else leaves it as it is. -/
def whole (change : ρ → Except ε ρ) : Edit ε ρ Unit := fun r =>
  match change r with
  | .ok next => .ok () next
  | .error e => .error e r

end Edit

/-- Puts commands into a record in place, `edit` putting in one, and gives the commands that were
refused as well. -/
def Selection.editLines {ρ : Type} (edit : String → Edit Refusal ρ Unit) (record : ρ) :
    List Line → Except ReadStop (ρ × List (Line × LineFault))
  | [] => .ok (record, [])
  | line :: rest =>
    match edit line.text record with
    | .ok () record => editLines edit record rest
    | .error (.fault fault) record =>
      (editLines edit record rest).map fun out => (out.1, (line, fault) :: out.2)
    | .error (.stop stop) _ => .error stop

end RouterConfig
