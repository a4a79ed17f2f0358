import RouterConfig.Feature

/-!
# Reading a group of commands

The commands of a tunnel or a session are read one by one into one record.  A
command that cannot be read leaves the record as it is and rejects the whole
group, but the commands after it are read all the same, so that every one that
is wrong is reported.
-/

namespace RouterConfig

/-- Why a command was not put into a record. -/
inductive Refusal where
  /-- The command is wrong. -/
  | fault (fault : LineFault)
  /-- The command cannot even be looked at. -/
  | stop (stop : ReadStop)
deriving DecidableEq, Repr

/-- A command that cannot be read is refused. -/
def refuse {α : Type} (result : Except LineFault α) : Except Refusal α :=
  result.mapError .fault

namespace Selection

variable {ρ : Type}

/-- Puts commands into a record, `apply` putting in one, and gives the commands
that were refused as well. -/
def applyLines (apply : ρ → String → Except Refusal ρ) (record : ρ) :
    List Line → Except ReadStop (ρ × List (Line × LineFault))
  | [] => .ok (record, [])
  | line :: rest =>
    match apply record line.text with
    | .ok record => applyLines apply record rest
    | .error (.fault fault) =>
      (applyLines apply record rest).map fun out => (out.1, (line, fault) :: out.2)
    | .error (.stop stop) => .error stop

/-- Decodes a group, `checked` giving what becomes of a record into which all
commands were put. -/
def decode (feature kind id : String) (apply : ρ → String → Except Refusal ρ)
    (checked : ρ → Decoded ρ) (start : ρ) (lines : List Line) : Except ReadStop (Decoded ρ) := do
  let (record, refused) ← applyLines apply start lines
  if refused.isEmpty then
    return checked record
  else
    return .concat <| refused.map fun r =>
      .rejected feature r.1 (.within kind id (.malformed r.2))

end Selection

end RouterConfig
