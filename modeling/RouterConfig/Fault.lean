import RouterConfig.Address.Network

/-!
# Faults of a command line

When a line starts like a command that is understood and then goes wrong, it is
not passed over but rejected, with a cause.  The causes are few.  Most of them
are parametrised by the thing that went wrong, since "the number of a filter is
not a number" and "the number of a tunnel is not a number" are the same cause.
-/

namespace RouterConfig

open Text

/-- Why a command line cannot be read. -/
inductive LineFault where
  /-- A word in the place of `what` is none. -/
  | invalid (what word : String)
  /-- The words in the place of `what` are in no form of it. -/
  | invalidForm (what : String)
  /-- A word in the place of `what` is not one of the known ones. -/
  | unknown (what word : String)
  /-- A switch is neither on nor off. -/
  | notOnOff (what word : String)
  /-- A keyword is not followed by what it needs. -/
  | without (keyword needed : String)
  /-- Something required is not there. -/
  | missing (what : String)
  /-- A word is left over where none of the remaining parts can start. -/
  | unexpected (what word : String)
  /-- Something may be given once and is given again. -/
  | duplicate (what : String)
  /-- The line does not have the form `form`. -/
  | expected (form : String)
  /-- The line is too short or too long for the command it starts. -/
  | malformed (what : String)
  /-- A word in the place of a network is none. -/
  | badNetwork (fault : NetworkFault)
  /-- A filter has the wrong number of fields. -/
  | fieldCount (count : Nat)
  /-- A schedule is given two different triggers. -/
  | twoTriggers (id : UInt32)
  /-- A tunnel speaks to two key exchange gateways. -/
  | twoGateways (inForce named : UInt32)
  /-- A selection is switched on or off under another one's number. -/
  | otherSelection (switch kind : String)
deriving DecidableEq, Repr

/-- The fault in words. -/
def LineFault.message : LineFault → String
  | .invalid what word => "invalid " ++ what ++ " '" ++ word ++ "'"
  | .invalidForm what => "invalid " ++ what
  | .unknown what word => "unknown " ++ what ++ " '" ++ word ++ "'"
  | .notOnOff what word => what ++ " must be on or off, got '" ++ word ++ "'"
  | .without keyword needed => keyword ++ " without " ++ needed
  | .missing what => "missing " ++ what
  | .unexpected what word => "unexpected " ++ what ++ "'" ++ word ++ "'"
  | .duplicate what => "duplicate " ++ what
  | .expected form => "expected " ++ form
  | .malformed what => "malformed " ++ what
  | .badNetwork fault => fault.message
  | .fieldCount count =>
    "expected action, source, destination, protocol and up to two ports, got " ++
      String.ofList (decimal count) ++ " fields"
  | .twoTriggers id => "schedule " ++ numeral id ++ " has two triggers"
  | .twoGateways inForce named =>
    "conflicting IKE gateway ids " ++ numeral inForce ++ " and " ++ numeral named
  | .otherSelection switch kind => switch ++ " for another " ++ kind

/-! ## Reading the words that many commands share -/

/-- Reads a number in the place of `what`. -/
def readNumber (what word : String) : Except LineFault UInt32 :=
  match readNumber? word with
  | some n => .ok n
  | none => .error (.invalid what word)

/-- Reads a switch in the place of `what`. -/
def readOnOff (what word : String) : Except LineFault Bool :=
  if word = "on" then .ok true
  else if word = "off" then .ok false
  else .error (.notOnOff what word)

/-- The word for a switch. -/
def onOff (value : Bool) : String :=
  if value then "on" else "off"

/-- Reading a switch gives back what was written. -/
@[simp] theorem readOnOff_onOff (what : String) (value : Bool) :
    readOnOff what (onOff value) = .ok value := by
  cases value <;> rfl

end RouterConfig
