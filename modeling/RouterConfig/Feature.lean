import RouterConfig.Error
import RouterConfig.Stanza

/-!
# Features

A feature is one kind of setting: it has a type of records, and turns scanned
lines into records and records into commands.

Three rules hold for every feature.  A line that starts like one of the
feature's commands and then goes wrong is rejected, and stands beside the
records that were read.  A record that was read but breaks a rule of the feature
is rejected in the same way, so every decoded record has commands.  And the
commands that *set* a record exist only if it breaks no rule.
-/

namespace RouterConfig

/-- What commands should do on the device. -/
inductive Intent where
  /-- Create or overwrite the record. -/
  | set
  /-- Remove the record. -/
  | delete
deriving DecidableEq, Repr

/-! ## Decoded records -/

/-- Records, and the lines that were rejected. -/
structure Decoded (ρ : Type) where
  records : List ρ
  errors : List DecodeError
deriving DecidableEq, Repr

namespace Decoded

variable {ρ : Type}

/-- Nothing. -/
def empty : Decoded ρ := ⟨[], []⟩

/-- One record. -/
def single (record : ρ) : Decoded ρ := ⟨[record], []⟩

/-- One rejected line. -/
def rejected (feature : String) (line : Line) (reason : RejectReason) : Decoded ρ :=
  ⟨[], [⟨feature, line.text, line.number, reason⟩]⟩

/-- What was decoded first, then what was decoded second. -/
def append (first second : Decoded ρ) : Decoded ρ :=
  ⟨first.records ++ second.records, first.errors ++ second.errors⟩

instance : Append (Decoded ρ) := ⟨append⟩

/-- All of it in order. -/
def concat (parts : List (Decoded ρ)) : Decoded ρ :=
  ⟨parts.flatMap records, parts.flatMap errors⟩

/-- No line was rejected. -/
def isClean (d : Decoded ρ) : Bool :=
  d.errors.isEmpty

@[simp] theorem records_append (d e : Decoded ρ) : (d ++ e).records = d.records ++ e.records := rfl

@[simp] theorem errors_append (d e : Decoded ρ) : (d ++ e).errors = d.errors ++ e.errors := rfl

@[simp] theorem concat_nil : concat ([] : List (Decoded ρ)) = empty := rfl

@[simp] theorem concat_cons (d : Decoded ρ) (ds : List (Decoded ρ)) :
    concat (d :: ds) = d ++ concat ds := rfl

/-- Parts may be put together in two steps. -/
theorem concat_append (ds es : List (Decoded ρ)) : concat (ds ++ es) = concat ds ++ concat es := by
  rw [concat, List.flatMap_append, List.flatMap_append]
  rfl

/-- A record that breaks no rule, or the rejection of its line. -/
def checked (feature : String) (validate : ρ → Option ValidationError) (line : Line) (record : ρ) :
    Decoded ρ :=
  match validate record with
  | none => single record
  | some error => rejected feature line (.breaksRule error)

/-- The line to be blamed for a field: the first that starts with `lead`, or else
the first of all, or else the header that selects the group. -/
def blamedLine (kind id lead : String) (lines : List Line) : Line :=
  ((lines.find? fun line => startsWith lead line.text) <|> lines.head?).getD
    ⟨0, 0, kind ++ " select " ++ id⟩

/-- The record of a group if it breaks no rule, or the rejection of the line that
is to be blamed for the field that does. -/
def checkedContext (feature : String) (validate : ρ → Option ValidationError)
    (blame : String → String) (kind id : String) (lines : List Line) (record : ρ) : Decoded ρ :=
  match validate record with
  | none => single record
  | some error =>
    rejected feature (blamedLine kind id (blame error.field) lines)
      (.within kind id (.breaksRule error))

end Decoded

/-! ## The operations of a feature -/

/-- One kind of setting, known by the type of its records. -/
class Feature (ρ : Type) where
  /-- The name of the feature in errors. -/
  name : String
  /-- The command that prints the lines of the feature. -/
  showCommand : String
  /-- Reads the records from scanned lines.  Only a description that cannot be
  cut off its line stops the reading. -/
  decode : Stanza → Except ReadStop (Decoded ρ)
  /-- The first rule that a record breaks. -/
  validate : ρ → Option ValidationError
  /-- The commands for a record. -/
  encode : ρ → Intent → Except ValidationError (List String)

/-- The commands, provided the record breaks no rule. -/
def provided {ρ : Type} (validate : ρ → Option ValidationError) (record : ρ)
    (commands : List String) : Except ValidationError (List String) :=
  match validate record with
  | none => .ok commands
  | some error => .error error

end RouterConfig
