import RouterConfig.Journal
import RouterConfig.Text.Lines

/-!
# Talking to a device

A device is reached through an *executor*, which carries out one command at a
time and has a state of its own.  On top of it stand the two things one wants
from a device: to read the records of a feature, and to have commands carried
out, up to the first that is rejected.

Whether a command was rejected is told from its answer, by the failure marks of
the dialect.  There is one exception: the deletion of something that is not
there has nothing left to do, and counts as carried out.
-/

namespace RouterConfig

open Text

/-- Carries out commands, where `σ` is the state of the connection. -/
structure Executor (σ : Type) where
  /-- The answer to a command, or why there is none, and the state after it. -/
  execute : σ → String → Except Error String × σ

/-- The result of talking to a device, the state of the connection after it, and
what the journal has to say. -/
structure Outcome (σ α : Type) where
  result : Except Error α
  state : σ
  journal : List JournalEntry

/-- A command with its answer.  How long the device took for it is left out: that
is read off a clock and reported as it is, and nothing here depends on it. -/
structure Response where
  command : String
  /-- The whole answer. -/
  result : String
  /-- The failure mark in the answer, if the command was rejected. -/
  failure : Option String := none
deriving DecidableEq, Repr

namespace Response

/-- The command was carried out. -/
def isSuccess (r : Response) : Bool :=
  r.failure.isNone

/-- The lines of the answer. -/
def lines (r : Response) : List String :=
  answerLines r.result

end Response

/-- A connection and the dialect of the device behind it. -/
structure Device (σ : Type) where
  executor : Executor σ
  dialect : Dialect

namespace Device

variable {σ : Type} (device : Device σ)

/-! ## Reading -/

/-- Parses the answer to a command that shows a configuration. -/
def readConfig (s : σ) (showCommand : String) : Outcome σ ParsedConfig :=
  match device.executor.execute s showCommand with
  | (.error e, s) => ⟨.error e, s, []⟩
  | (.ok output, s) =>
    let parsed := device.dialect.parse output
    let guesses := parsed.ambiguities.map fun a =>
      ⟨.debug, "'" ++ showCommand ++ "': line " ++ String.ofList (decimal a.lineNumber) ++
        " joined without a wrap rule"⟩
    ⟨.ok parsed, s, parsed.journal ++ guesses⟩

/-- Reads the records of a feature. -/
def read (ρ : Type) [Feature ρ] (s : σ) : Outcome σ (Decoded ρ) :=
  let out := device.readConfig s (Feature.showCommand ρ)
  match out.result with
  | .error e => ⟨.error e, out.state, out.journal⟩
  | .ok parsed =>
    match (Feature.decode parsed.stanza : Except ReadStop (Decoded ρ)) with
    | .error stop => ⟨.error (.stopped stop), out.state, out.journal⟩
    | .ok decoded =>
      ⟨.ok decoded, out.state, out.journal ++ decoded.journal ++
        [⟨.debug, Feature.name ρ ++ ": " ++ String.ofList (decimal decoded.records.length) ++
          " records, " ++ String.ofList (decimal decoded.errors.length) ++ " rejected lines"⟩]⟩

/-! ## Submitting -/

/-- The command deletes something, and the answer says that it is not there. -/
def isAlreadyAbsent (dialect : Dialect) (command output : String) : Bool :=
  startsWith "no " command && dialect.reportsNotFound output

/-- The response to a command whose answer is `output`. -/
def classify (dialect : Dialect) (command output : String) : Response :=
  match dialect.failureIn? output with
  | none => ⟨command, output, none⟩
  | some mark =>
    if isAlreadyAbsent dialect command output then ⟨command, output, none⟩
    else ⟨command, output, some mark⟩

/-- Has one command carried out. -/
def sendCommand (s : σ) (command : String) : Outcome σ Response :=
  match device.executor.execute s command with
  | (.error e, s) => ⟨.error e, s, []⟩
  | (.ok output, s) =>
    let absent := (device.dialect.failureIn? output).isSome &&
      isAlreadyAbsent device.dialect command output
    ⟨.ok (classify device.dialect command output), s,
      if absent then [⟨.debug, "'" ++ command ++ "': already absent"⟩] else []⟩

/-- Has commands carried out in order, up to the first that fails. -/
def submit (s : σ) : List String → Outcome σ (List Response)
  | [] => ⟨.ok [], s, []⟩
  | command :: rest =>
    let out := device.sendCommand s command
    match out.result with
    | .error e => ⟨.error e, out.state, out.journal⟩
    | .ok response =>
      match response.failure with
      | some mark =>
        ⟨.error (.executor (.commandFailed command mark)), out.state, out.journal ++
          [⟨.warn, "'" ++ command ++ "' failed: " ++ trimmed response.result⟩]⟩
      | none =>
        let others := submit out.state rest
        ⟨others.result.map fun responses => response :: responses, others.state,
          out.journal ++ others.journal⟩

/-- Has the commands for a record carried out, if it has any. -/
def apply {ρ : Type} [Feature ρ] (s : σ) (record : ρ) (intent : Intent) :
    Outcome σ (List Response) :=
  match Feature.encode record intent with
  | .error e => ⟨.error (.validation e), s, []⟩
  | .ok commands => device.submit s commands

end Device

end RouterConfig
