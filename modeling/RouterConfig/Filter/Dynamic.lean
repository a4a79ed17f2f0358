import RouterConfig.Feature
import RouterConfig.Filter.Family
import RouterConfig.Reconcilable
import RouterConfig.Rule

/-!
# Dynamic filters

A dynamic filter follows a connection: a first packet opens the way for those
that belong to it.  It either knows the protocol of an application, or lists
static filters, those that watch for the first packet and, behind `in` and
`out`, those for the packets that follow in each direction.

    ip filter dynamic 200080 * * ftp syslog on
    ip filter dynamic 200090 * * filter 200091 in 200092 out 200093 timeout=60
-/

namespace RouterConfig

open Text

/-- What a dynamic filter inspects. -/
inductive DynamicRule where
  /-- The protocol of an application. -/
  | protocol (name : String)
  /-- Static filters; the lists for the two directions may be absent. -/
  | filters (watched : List UInt32) (inbound outbound : Option (List UInt32))
deriving DecidableEq, Repr

/-- One numbered rule for connections. -/
structure DynamicFilter where
  family : IpFamily := .ipv4
  number : UInt32
  source : String
  destination : String
  rule : DynamicRule
  /-- Whether connections are logged, if that is said. -/
  syslog : Option Bool := none
  /-- Seconds after which a silent connection is forgotten, if that is said. -/
  timeout : Option UInt32 := none
deriving DecidableEq, Repr

/-! ## Writing -/

namespace DynamicRule

/-- The words for a rule. -/
def words : DynamicRule → List String
  | .protocol name => [name]
  | .filters watched inbound outbound =>
    "filter" :: watched.map numeral ++
      (match inbound with
        | some numbers => "in" :: numbers.map numeral
        | none => []) ++
      (match outbound with
        | some numbers => "out" :: numbers.map numeral
        | none => [])

end DynamicRule

namespace DynamicFilter

/-- The name of the feature. -/
def featureName : String := "dynamic_filter"

/-- The words for the options. -/
def optionWords (f : DynamicFilter) : List String :=
  (match f.syslog with
    | some value => ["syslog", onOff value]
    | none => []) ++
  (match f.timeout with
    | some seconds => ["timeout=" ++ numeral seconds]
    | none => [])

/-- The words after the number. -/
def bodyWords (f : DynamicFilter) : List String :=
  [f.source, f.destination] ++ f.rule.words ++ f.optionWords

/-! ## Reading -/

/-- The name of an application's protocol.  Which names there are depends on the
device, so every word of letters, digits, `-` and `_` that starts with a letter
or digit will do, except the keyword of the other form. -/
def isProtocolName (word : String) : Bool :=
  word == "*" ||
    (word != "filter" && word.toList.head?.any Char.isAlphanum &&
      word.toList.all fun c => c.isAlphanum || c == '-' || c == '_')

/-- Which list a number belongs to. -/
inductive Section where
  | watched
  | inbound
  | outbound
deriving DecidableEq, Repr

/-- The lists read so far; a list for a direction exists from its keyword on. -/
structure FilterLists where
  watched : List UInt32 := []
  inbound : Option (List UInt32) := none
  outbound : Option (List UInt32) := none
deriving DecidableEq, Repr

/-- A number is put behind the list of its section. -/
def FilterLists.push (lists : FilterLists) (part : Section) (n : UInt32) : FilterLists :=
  match part with
  | .watched => { lists with watched := lists.watched ++ [n] }
  | .inbound => { lists with inbound := some (lists.inbound.getD [] ++ [n]) }
  | .outbound => { lists with outbound := some (lists.outbound.getD [] ++ [n]) }

/-- Reads the lists up to the first word that is neither a number nor a keyword
seen for the first time, and gives that word and those after it as well. -/
def readLists (part : Section) (lists : FilterLists) :
    List String → Except LineFault (FilterLists × List String)
  | [] => .ok (lists, [])
  | word :: rest =>
    if word = "in" && lists.inbound.isNone then
      readLists .inbound { lists with inbound := some [] } rest
    else if word = "out" && lists.outbound.isNone then
      readLists .outbound { lists with outbound := some [] } rest
    else if word.toList.head?.any isDigit then do
      let n ← readNumber "filter number" word
      readLists part (lists.push part n) rest
    else .ok (lists, word :: rest)

/-- Reads the words of a rule, and gives those after it as well. -/
def readRule : List String → Except LineFault (DynamicRule × List String)
  | [] => .error (.expected "source, destination and protocol or filter list")
  | word :: rest =>
    if word = "filter" then do
      let (lists, rest) ← readLists .watched {} rest
      if lists.watched.isEmpty then throw (.without "filter keyword" "filter numbers")
      if lists.inbound == some [] || lists.outbound == some [] then
        throw (.without "in/out keyword" "filter numbers")
      return (.filters lists.watched lists.inbound lists.outbound, rest)
    else if isProtocolName word then .ok (.protocol word, rest)
    else .error (.invalid "protocol" word)

/-- Reads the options behind the rule into the filter; the last one counts. -/
def readOptions (f : DynamicFilter) : List String → Except LineFault DynamicFilter
  | [] => .ok f
  | word :: rest =>
    if word = "syslog" then
      match rest with
      | [] => .error (.without "syslog" "on/off")
      | value :: rest => do
        let value ← readOnOff "syslog" value
        readOptions { f with syslog := some value } rest
    else
      match afterLead? "timeout=" word with
      | some value => do
        let seconds ← readNumber "timeout" value
        readOptions { f with timeout := some seconds } rest
      | none => .error (.unexpected "option " word)

/-- Reads the words after the number. -/
def readBody (family : IpFamily) (number : UInt32) : List String → Except LineFault DynamicFilter
  | source :: destination :: rest => do
    let (rule, rest) ← readRule rest
    readOptions { family, number, source, destination, rule } rest
  | _ => .error (.expected "source, destination and protocol or filter list")

/-- The family, the number word and the rest of a line that is a dynamic filter. -/
def split? (text : String) : Option (IpFamily × String × String) :=
  IpFamily.all.findSome? fun family => do
    let rest ← afterLead? (family.word ++ " filter dynamic ") text
    let (number, body) ← firstWord? rest
    guard (number != "")
    return (family, number, body)

/-- Reads a filter from the parts of its line. -/
def readParts (family : IpFamily) (number body : String) : Except LineFault DynamicFilter := do
  let number ← readNumber "filter number" number
  readBody family number (wordsOf body)

/-! ## Rules -/

/-- The rules for what a filter inspects. -/
def ruleRules : DynamicRule → List Rule
  | .protocol name =>
    [Rule.demand featureName "protocol" (isProtocolName name) (.invalidValue name)]
  | .filters watched inbound outbound =>
    [Rule.demand featureName "filters" (!watched.isEmpty) .missing,
      Rule.demand featureName "inbound" (inbound != some []) .missing,
      Rule.demand featureName "outbound" (outbound != some []) .missing]

/-- The rules for a filter. -/
def rules (f : DynamicFilter) : List Rule :=
  [Rule.filterNumber featureName "number" f.number,
    Rule.oneWord featureName "source" f.source,
    Rule.oneWord featureName "destination" f.destination] ++
  ruleRules f.rule ++
  Rule.ifPresent f.timeout
    (fun seconds => [Rule.inRange featureName "timeout" seconds.toNat 1 21474836])

/-- The first rule that the filter breaks. -/
def validate (f : DynamicFilter) : Option ValidationError :=
  firstBroken f.rules

/-! ## The feature -/

/-- Decodes one line; lines of other commands give nothing. -/
def decodeLine (line : Line) : Decoded DynamicFilter :=
  match split? line.text with
  | none => .empty
  | some (family, number, body) =>
    match readParts family number body with
    | .ok f => .checked featureName validate line f
    | .error fault => .rejected featureName line (.malformed fault)

/-- Decodes lines. -/
def decodeLines (lines : List Line) : Decoded DynamicFilter :=
  .concat (lines.map decodeLine)

/-- The first words of the commands for a filter. -/
def leadWords (f : DynamicFilter) : List String :=
  [f.family.word, "filter", "dynamic", numeral f.number]

/-- The commands for a filter.  Removing it takes its number only. -/
def encode (f : DynamicFilter) : Intent → Except ValidationError (List String)
  | .set => provided validate f [phrase (f.leadWords ++ f.bodyWords)]
  | .delete => .ok [phrase ("no" :: f.leadWords)]

instance : Feature DynamicFilter where
  name := featureName
  showCommand := "show config | grep \"filter dynamic\""
  decode stanza := .ok (decodeLines stanza.topLevel)
  validate := validate
  encode := encode

/-- Filters are known by their number, and are about addresses and a rule. -/
instance :
    Reconcilable DynamicFilter (IpFamily × UInt32)
      (IpFamily × String × String × DynamicRule) where
  identity f := (f.family, f.number)
  fallback? f := some (f.family, f.source, f.destination, f.rule)

end DynamicFilter

end RouterConfig
