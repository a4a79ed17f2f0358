import RouterConfig.Collect
import RouterConfig.Feature
import RouterConfig.Reconcilable
import RouterConfig.Rule
import RouterConfig.Text.Digit

/-!
# Schedules

Commands can be given in advance, to be carried out after start-up, at a time of
day, or on certain dates; and a point-to-point session can be connected and
disconnected on certain days of the week.

    schedule at 1 startup lua /startup.lua
    schedule at 2 */* 03:00 clear arp
    schedule at 3 12:00 syslog debug on
    no schedule at 3
    schedule pp 1 mon-fri 8:00 connect

Schedules of commands have numbers.  Several lines of one number add up their
commands, in order, provided they have the same trigger.  A configuration in
which `no schedule at N` is printed has that schedule but does not carry it out,
wherever the line stands.  Schedules of sessions have no numbers and one line
each; they are told apart by session, days and time.
-/

namespace RouterConfig

open Text

/-- What happens to a session. -/
inductive PpAction where
  | connect
  | disconnect
deriving DecidableEq, Repr

/-- The word for what happens to a session. -/
def PpAction.word : PpAction → String
  | .connect => "connect"
  | .disconnect => "disconnect"

/-- Reads what happens to a session. -/
def PpAction.read (word : String) : Except LineFault PpAction :=
  if word = "connect" then .ok .connect
  else if word = "disconnect" then .ok .disconnect
  else .error (.invalid "pp action" word)

/-- When a schedule is due. -/
inductive Trigger where
  /-- After start-up. -/
  | startup
  /-- Every day at a time. -/
  | daily (time : String)
  /-- At a time on the dates that fit, `*` fitting all. -/
  | dated (date time : String)
  /-- At a time on days of the week, for a session. -/
  | session (days time : String) (action : PpAction)
deriving DecidableEq, Repr

/-- What a schedule is known by. -/
inductive ScheduleKey where
  | numbered (id : UInt32)
  | session (pp : UInt32) (days time : String)
deriving DecidableEq, Repr

/-- A schedule. -/
structure Schedule where
  /-- Its number, or the number of the session that it is for. -/
  id : UInt32
  trigger : Trigger
  /-- The commands in order; none for a session. -/
  commands : List String := []
  enabled : Bool := true
deriving DecidableEq, Repr

/-- The words for a trigger. -/
def Trigger.words : Trigger → List String
  | .startup => ["startup"]
  | .daily time => [time]
  | .dated date time => [date, time]
  | .session days time action => [days, time, action.word]

namespace Schedule

/-- The name of the feature. -/
def featureName : String := "schedule"

/-- A schedule for a session. -/
def ofSession (pp : UInt32) (days time : String) (action : PpAction) : Schedule :=
  { id := pp, trigger := .session days time action }

/-- What the schedule is known by. -/
def key (s : Schedule) : ScheduleKey :=
  match s.trigger with
  | .session days time _ => .session s.id days time
  | _ => .numbered s.id

/-! ## Times, dates and days -/

/-- Decimal digits of any script, `min` to `max` of them. -/
def isDigits (min max : Nat) (s : String) : Bool :=
  min ≤ s.toList.length && s.toList.length ≤ max && s.toList.all isDecimalDigit

/-- The two parts of a time: hours of one or two digits and minutes of two, or a
star for either. -/
def timeParts? (s : String) : Option (String × String) := do
  let (hours, minutes) ← splitOnce? ':' s
  guard ((hours == "*" || isDigits 1 2 hours) && (minutes == "*" || isDigits 2 2 minutes))
  return (hours, minutes)

/-- A star, or a number up to `max`. -/
def isUpTo (max : Nat) (part : String) : Bool :=
  part == "*" || (readNumber? part).any fun n => n.toNat ≤ max

/-- A time of day, as opposed to a text of that form. -/
def isTime (s : String) : Bool :=
  match timeParts? s with
  | some (hours, minutes) => isUpTo 23 hours && isUpTo 59 minutes
  | none => false

/-- A character of the later parts of a date. -/
def isDateChar (c : Char) : Bool :=
  isDigit c || ('a' ≤ c && c ≤ 'z') || c == '*' || c == ',' || c == '-'

/-- A later part of a date. -/
def isDatePart (s : String) : Bool :=
  !s.toList.isEmpty && s.toList.all isDateChar

/-- The first part of a date: a year, a month or a star. -/
def isDateHead (s : String) : Bool :=
  s == "*" || isDigits 4 4 s || isDigits 1 2 s

/-- A date of two or three parts. -/
def isDate (s : String) : Bool :=
  match piecesOf '/' s with
  | [head, part] => isDateHead head && isDatePart part
  | [head, part, last] => isDateHead head && isDatePart part && isDatePart last
  | _ => false

/-- The days of the week. -/
def dayNames : List String := ["sun", "mon", "tue", "wed", "thu", "fri", "sat"]

/-- Two days with a dash between them, or any number with commas. -/
def areDays (s : String) : Bool :=
  match splitOnce? '-' s with
  | some (first, last) => dayNames.contains first && dayNames.contains last
  | none => (piecesOf ',' s).all dayNames.contains

/-! ## Reading -/

/-- What a line says. -/
inductive Statement where
  /-- The schedule of this number is not carried out. -/
  | disable (id : UInt32)
  /-- The schedule of this number has this trigger and this command. -/
  | command (id : UInt32) (trigger : Trigger) (command : String)
  /-- There is this schedule for a session. -/
  | session (schedule : Schedule)
deriving DecidableEq, Repr

/-- Reads the trigger of a schedule of commands, whose first word is `word`, and
gives what follows it. -/
def readTrigger (word rest : String) : Except LineFault (Trigger × String) :=
  if word = "startup" then .ok (.startup, rest)
  else if holds '/' word then
    let (time, command) := (splitOnce? ' ' rest).getD (rest, "")
    if (timeParts? time).isSome then .ok (.dated word time, command)
    else .error (.invalid "time" time)
  else if (timeParts? word).isSome then .ok (.daily word, rest)
  else .error (.invalid "trigger" word)

/-- The next word, which may not be empty, and the rest behind one space. -/
def nextWord (text : String) : Except LineFault (String × String) :=
  match firstWord? text with
  | some (word, rest) =>
    if word = "" then .error (.expected "schedule at ID TRIGGER COMMAND") else .ok (word, rest)
  | none => .error (.expected "schedule at ID TRIGGER COMMAND")

/-- Reads what follows `schedule at`. -/
def readCommand (text : String) : Except LineFault Statement := do
  let (id, rest) ← nextWord text
  let (word, rest) ← nextWord rest
  let id ← readNumber "schedule id" id
  let (trigger, command) ← readTrigger word rest
  if isBlankString command then throw (.missing "command")
  return .command id trigger (trimmed command)

/-- Reads what follows `schedule pp`: four words with one space between. -/
def readSession (text : String) : Except LineFault Statement :=
  match piecesOf ' ' text with
  | [pp, days, time, action] =>
    if [pp, days, time, action].all fun word => word != "" && !hasBlank word then do
      let pp ← readNumber "pp number" pp
      if (timeParts? time).isNone then throw (.invalid "time" time)
      return .session (ofSession pp days time (← PpAction.read action))
    else .error (.expected "schedule pp N DAYS TIME connect|disconnect")
  | _ => .error (.expected "schedule pp N DAYS TIME connect|disconnect")

/-- What was read from a line.  A schedule of commands is spoilt by a line that
names it and cannot be read. -/
structure Reading where
  line : Line
  content : Except LineFault Statement
  spoils : Option UInt32 := none

/-- The number that a line starting with `schedule at` names. -/
def namedId? (text : String) : Option UInt32 :=
  (wordsOf text)[2]?.bind readNumber?

/-- Reads a line; lines of other commands give nothing. -/
def readLine? (line : Line) : Option Reading :=
  match afterLead? "no schedule at " line.text with
  | some rest => some { line, content := (readNumber "schedule id" (trimmed rest)).map .disable }
  | none =>
    match afterLead? "schedule pp " line.text with
    | some rest => some { line, content := readSession rest }
    | none =>
      (afterLead? "schedule at " line.text).map fun rest =>
        { line, content := readCommand rest, spoils := namedId? line.text }

/-! ## Collecting -/

namespace Reading

/-- The key of the schedule that the line is part of. -/
def key? (r : Reading) : Option ScheduleKey :=
  match r.content with
  | .ok (.command id _ _) => some (.numbered id)
  | .ok (.session s) => some s.key
  | _ => none

/-- The trigger that the line gives to the schedule of this number. -/
def triggerOf? (id : UInt32) (r : Reading) : Option Trigger :=
  match r.content with
  | .ok (.command n trigger _) => if n = id then some trigger else none
  | _ => none

/-- The command that the line gives to the schedule of this number. -/
def commandOf? (id : UInt32) (r : Reading) : Option String :=
  match r.content with
  | .ok (.command n _ command) => if n = id then some command else none
  | _ => none

/-- The line says that the schedule of this number is not carried out. -/
def disables (id : UInt32) (r : Reading) : Bool :=
  match r.content with
  | .ok (.disable n) => n == id
  | _ => false

/-- What is wrong with a line that comes after the lines `earlier`, and the key
of the schedule that this spoils. -/
def fault? (earlier : List Reading) (r : Reading) : Option (LineFault × Option ScheduleKey) :=
  match r.content with
  | .error fault => some (fault, r.spoils.map .numbered)
  | .ok (.disable _) => none
  | .ok (.command id trigger _) =>
    match earlier.findSome? (triggerOf? id) with
    | some inForce =>
      if inForce = trigger then none else some (.twoTriggers id, some (.numbered id))
    | none => none
  | .ok (.session s) =>
    if earlier.any fun e => e.key? = some s.key then
      some (.duplicate "pp schedule", some s.key)
    else none

end Reading

/-- The schedule that the line `first` opens, with what other lines add to it. -/
def collect (rs : List Reading) (first : Reading) : Option Schedule :=
  match first.content with
  | .ok (.command id trigger _) =>
    some { id, trigger, commands := rs.filterMap (Reading.commandOf? id),
           enabled := !rs.any (Reading.disables id) }
  | .ok (.session s) => some s
  | _ => none

/-! ## Rules -/

/-- The rules for a time. -/
def timeRules (time : String) : List Rule :=
  [Rule.demand featureName "time" (isTime time) (.invalidValue time)]

/-- The rules for a command. -/
def commandRules (command : String) : List Rule :=
  [Rule.present featureName "commands" command, Rule.oneLine featureName "commands" command]

/-- The rules for the commands of a schedule that is not for a session. -/
def commandsRules (s : Schedule) : List Rule :=
  Rule.demand featureName "commands" (!s.commands.isEmpty) .missing ::
    s.commands.flatMap commandRules

/-- The rules for a schedule. -/
def rules (s : Schedule) : List Rule :=
  Rule.inRange featureName "id" s.id.toNat 1 65535 ::
  match s.trigger with
  | .startup => commandsRules s
  | .daily time => timeRules time ++ commandsRules s
  | .dated date time =>
    Rule.demand featureName "date" (isDate date) (.invalidValue date) ::
      (timeRules time ++ commandsRules s)
  | .session days time _ =>
    Rule.demand featureName "days" (areDays days) (.invalidValue days) ::
      (timeRules time ++
        [Rule.demand featureName "commands" s.commands.isEmpty
            (.invalidValue (joined "; " s.commands)),
          Rule.demand featureName "enabled" s.enabled (.requires "a schedule at ID")])

/-- The first rule that the schedule breaks. -/
def validate (s : Schedule) : Option ValidationError :=
  firstBroken s.rules

/-! ## The feature -/

/-- Decodes lines.  The faulty lines come first, then, for each schedule that no
line spoils, its record or the rule that it breaks. -/
def decodeLines (lines : List Line) : Decoded Schedule :=
  let rs := lines.filterMap readLine?
  let faults := (withEarlier [] rs).filterMap fun p =>
    (p.2.fault? p.1).map fun fault => (p.2.line, fault)
  let spoiled := faults.filterMap fun f => f.2.2
  let opening := rs.filterMap fun r => (collect rs r).map fun s => (r.line, s)
  let kept := (firstOfEach (fun p => p.2.key) opening).filter fun p => !spoiled.contains p.2.key
  .concat (faults.map fun f => .rejected featureName f.1 (.malformed f.2.1)) ++
    .concat (kept.map fun p => .checked featureName validate p.1 p.2)

/-- The first words of the commands for a schedule, up to its number. -/
def leadWords (s : Schedule) : List String :=
  match s.trigger with
  | .session _ _ _ => ["schedule", "pp", numeral s.id]
  | _ => ["schedule", "at", numeral s.id]

/-- The commands that set a schedule: one for each of its own, and at the end, if
it is not carried out, the line that says so. -/
def setCommands (s : Schedule) : List String :=
  match s.trigger with
  | .session _ _ _ => [phrase (s.leadWords ++ s.trigger.words)]
  | _ =>
    s.commands.map (fun command => phrase (s.leadWords ++ s.trigger.words ++ [command])) ++
      if s.enabled then [] else [phrase ("no" :: s.leadWords)]

/-- The commands for a schedule. -/
def encode (s : Schedule) : Intent → Except ValidationError (List String)
  | .set => provided validate s s.setCommands
  | .delete =>
    .ok <| match s.trigger with
      | .session days time _ => [phrase ("no" :: s.leadWords ++ [days, time])]
      | _ => [phrase ("no" :: s.leadWords)]

instance : Feature Schedule where
  name := featureName
  showCommand := "show config | grep schedule"
  decode stanza := .ok (decodeLines stanza.topLevel)
  validate := validate
  encode := encode

/-- Schedules are known by their key, and are about a trigger and commands. -/
instance : Reconcilable Schedule ScheduleKey (Trigger × List String) where
  identity := key
  fallback? s := some (s.trigger, s.commands)

end Schedule

end RouterConfig
