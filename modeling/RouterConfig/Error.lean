import RouterConfig.Fault

/-!
# Errors

There are three scopes.  A *decode error* concerns one line: it stands beside
the records that were read and stops nothing.  A *validation error* concerns one
record: it has no commands.  Only the third scope, talking to a device, can fail
as a whole, and `Error` gathers what may be the cause there.

An error is the data of its cause.  Its words are made by one function per type.
-/

namespace RouterConfig

open Text

/-! ## Records that break a rule -/

/-- What is wrong with a field. -/
inductive FieldFault where
  /-- The field is absent or blank. -/
  | missing
  /-- The number is not between `min` and `max`. -/
  | outOfRange (value min max : Nat)
  /-- The device does not accept the value. -/
  | invalidValue (value : String)
  /-- The field may stand only together with something else. -/
  | requires (requirement : String)
deriving DecidableEq, Repr

/-- A record breaks a rule of its feature. -/
structure ValidationError where
  feature : String
  field : String
  fault : FieldFault
deriving DecidableEq, Repr

/-- The error in words. -/
def ValidationError.message (e : ValidationError) : String :=
  e.feature ++ ": " ++
    match e.fault with
    | .missing => e.field ++ " is required"
    | .outOfRange value min max =>
      e.field ++ " must be in " ++ String.ofList (decimal min) ++ "..=" ++
        String.ofList (decimal max) ++ ", got " ++ String.ofList (decimal value)
    | .invalidValue value => "invalid " ++ e.field ++ " '" ++ value ++ "'"
    | .requires requirement => e.field ++ " requires " ++ requirement

/-! ## Lines that cannot be read -/

/-- Why a line was rejected. -/
inductive RejectReason where
  /-- The line is not a form of its command. -/
  | malformed (fault : LineFault)
  /-- The record that the line completes breaks a rule. -/
  | breaksRule (error : ValidationError)
  /-- The reason arose inside the selection `kind id`. -/
  | within (kind id : String) (reason : RejectReason)
  /-- The reason is given in words. -/
  | stated (text : String)
deriving DecidableEq, Repr

/-- The reason in words. -/
def RejectReason.message : RejectReason → String
  | .malformed fault => fault.message
  | .breaksRule error => error.message
  | .within kind id reason => kind ++ " " ++ id ++ ": " ++ reason.message
  | .stated text => text

/-- A line that starts a command of the feature and was rejected. -/
structure DecodeError where
  feature : String
  line : String
  lineNumber : Nat
  reason : RejectReason
deriving DecidableEq, Repr

/-- The error in words. -/
def DecodeError.message (e : DecodeError) : String :=
  e.feature ++ ": cannot parse line " ++ String.ofList (decimal e.lineNumber) ++ " '" ++ e.line ++
    "': " ++ e.reason.message

/-- Reading stopped altogether. -/
inductive ReadStop where
  /-- A description was to be cut off after so many bytes of its line, and that
  place is inside a character. -/
  | cutInsideCharacter (line : String) (offset : Nat)
deriving DecidableEq, Repr

/-- The reason in words. -/
def ReadStop.message : ReadStop → String
  | .cutInsideCharacter line offset =>
    "byte " ++ String.ofList (decimal offset) ++ " is inside a character of '" ++ line ++ "'"

/-! ## Everything else -/

/-- A rule set that cannot be built. -/
inductive DialectError where
  /-- The pattern is not one. -/
  | invalidPattern (pattern : String)
  /-- The header pattern of a context does not say what the key is. -/
  | missingKeyCapture (kind : String)
deriving DecidableEq, Repr

/-- The error in words. -/
def DialectError.message : DialectError → String
  | .invalidPattern pattern => "Invalid regex pattern: " ++ pattern
  | .missingKeyCapture kind => "Header pattern for context '" ++ kind ++ "' has no capture group"

/-- A command that was not carried out. -/
inductive ExecutorError where
  /-- The device rejected the command. -/
  | commandFailed (command message : String)
  /-- The command did not get through. -/
  | transport (message : String)
deriving DecidableEq, Repr

/-- The error in words. -/
def ExecutorError.message : ExecutorError → String
  | .commandFailed command message => "Command '" ++ command ++ "' failed: " ++ message
  | .transport message => "Transport error: " ++ message

/-- Why a whole operation failed. -/
inductive Error where
  | decode (error : DecodeError)
  | validation (error : ValidationError)
  | dialect (error : DialectError)
  | executor (error : ExecutorError)
  | stopped (stop : ReadStop)
deriving DecidableEq, Repr

/-- The error in words. -/
def Error.message : Error → String
  | .decode error => "Decode error: " ++ error.message
  | .validation error => "Validation error: " ++ error.message
  | .dialect error => "Dialect error: " ++ error.message
  | .executor error => "Executor error: " ++ error.message
  | .stopped stop => "Reading stopped: " ++ stop.message

end RouterConfig
