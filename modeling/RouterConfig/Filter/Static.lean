import RouterConfig.Feature
import RouterConfig.Filter.Family
import RouterConfig.Reconcilable
import RouterConfig.Rule
import RouterConfig.Text.LetterCase

/-!
# Static filters

A static filter decides on each packet by itself: what to do with packets of
some protocol from some addresses to some addresses, perhaps with ports.

    ip filter 200020 reject 10.0.0.0/8 * * * *
    ip filter 200100 pass * 192.168.1.0/24 tcp * www
    ip filter 200101 pass * * tcp * * established

The fields are told apart by position alone.  So a source port cannot be left
out when there is a destination port: it is then written as `*`, the port that
matches every port.
-/

namespace RouterConfig

open Text

/-- What a filter does with a packet. -/
inductive FilterAction where
  | pass
  | passLog
  | passNolog
  | reject
  | rejectLog
  | rejectNolog
  | restrict
  | restrictLog
deriving DecidableEq, Repr

namespace FilterAction

/-- The word for an action. -/
def word : FilterAction → String
  | .pass => "pass"
  | .passLog => "pass-log"
  | .passNolog => "pass-nolog"
  | .reject => "reject"
  | .rejectLog => "reject-log"
  | .rejectNolog => "reject-nolog"
  | .restrict => "restrict"
  | .restrictLog => "restrict-log"

/-- Every action. -/
def all : List FilterAction :=
  [.pass, .passLog, .passNolog, .reject, .rejectLog, .rejectNolog, .restrict, .restrictLog]

/-- Reads an action. -/
def read (word : String) : Except LineFault FilterAction :=
  match all.find? fun action => action.word = word with
  | some action => .ok action
  | none => .error (.unknown "filter action" word)

@[simp] theorem read_word (action : FilterAction) : read action.word = .ok action := by
  cases action <;> rfl

end FilterAction

/-- One numbered rule for packets. -/
structure IpFilter where
  family : IpFamily := .ipv4
  number : UInt32
  action : FilterAction
  /-- An address, a range of addresses or `*`. -/
  source : String
  destination : String
  /-- A protocol by name or number, or several with commas between them. -/
  protocol : String
  sourcePort : Option String := none
  destinationPort : Option String := none
  /-- Only packets of connections that exist already. -/
  established : Bool := false
deriving DecidableEq, Repr

namespace IpFilter

/-- The name of the feature. -/
def featureName : String := "ip_filter"

/-! ## Writing -/

/-- The words for the ports, with a placeholder for a source port that cannot be
left out. -/
def portWords (f : IpFilter) : List String :=
  match f.sourcePort, f.destinationPort with
  | some source, some destination => [source, destination]
  | some source, none => [source]
  | none, some destination => ["*", destination]
  | none, none => []

/-- The words after the number. -/
def bodyWords (f : IpFilter) : List String :=
  [f.action.word, f.source, f.destination, f.protocol] ++ f.portWords ++
    if f.established then ["established"] else []

/-- Everything after the number. -/
def body (f : IpFilter) : String :=
  phrase f.bodyWords

/-! ## Reading -/

/-- Reads the words after the number.  A last word `established` behind the four
fields that must be there is the keyword. -/
def readBody (family : IpFamily) (number : UInt32) (words : List String) :
    Except LineFault IpFilter :=
  let established := 4 < words.length && words.getLast? == some "established"
  let fields := if established then words.dropLast else words
  match fields with
  | action :: source :: destination :: protocol :: ports =>
    if 2 < ports.length then .error (.fieldCount fields.length)
    else do
      let action ← FilterAction.read action
      return { family, number, action, source, destination, protocol,
               sourcePort := ports[0]?, destinationPort := ports[1]?, established }
  | _ => .error (.fieldCount fields.length)

/-- The family, the number word and the rest of a line that is a static filter,
which it is when the number at least starts with a digit. -/
def split? (text : String) : Option (IpFamily × String × String) :=
  IpFamily.all.findSome? fun family => do
    let rest ← afterLead? (family.word ++ " filter ") text
    guard (rest.toList.head?.any isDecimalDigit)
    let (number, body) ← firstWord? rest
    return (family, number, body)

/-- Reads a filter from the parts of its line. -/
def readParts (family : IpFamily) (number body : String) : Except LineFault IpFilter := do
  let number ← readNumber "filter number" number
  readBody family number (wordsOf body)

/-! ## Rules -/

/-- The protocols known by name. -/
def protocolNames : List String :=
  ["*", "ip", "tcp", "udp", "icmp", "icmp6", "gre", "esp", "ah", "tcpfin", "tcprst", "tcpsyn",
    "established"]

/-- One protocol: a known name in either letter case, or a number. -/
def isProtocol (word : String) : Bool :=
  protocolNames.contains (plainLowercase word) ||
    (!word.toList.isEmpty && word.toList.all isDigit)

/-- One or more protocols with commas between them. -/
def isProtocolList (s : String) : Bool :=
  (piecesOf ',' s).all isProtocol

/-- The rules for a filter. -/
def rules (f : IpFilter) : List Rule :=
  [Rule.filterNumber featureName "number" f.number,
    Rule.oneWord featureName "source" f.source,
    Rule.oneWord featureName "destination" f.destination,
    Rule.oneWord featureName "protocol" f.protocol,
    Rule.demand featureName "protocol" (isProtocolList f.protocol) (.invalidValue f.protocol)] ++
  Rule.ifPresent f.sourcePort (fun port => [Rule.oneWord featureName "source_port" port]) ++
  Rule.ifPresent f.destinationPort
    (fun port => [Rule.oneWord featureName "destination_port" port]) ++
  [Rule.demand featureName "established" (!f.established || plainLowercase f.protocol == "tcp")
    (.requires "protocol tcp")]

/-- The first rule that the filter breaks. -/
def validate (f : IpFilter) : Option ValidationError :=
  firstBroken f.rules

/-! ## The feature -/

/-- Decodes one line; lines of other commands give nothing. -/
def decodeLine (line : Line) : Decoded IpFilter :=
  match split? line.text with
  | none => .empty
  | some (family, number, body) =>
    match readParts family number body with
    | .ok f => .checked featureName validate line f
    | .error fault => .rejected featureName line (.malformed fault)

/-- Decodes lines. -/
def decodeLines (lines : List Line) : Decoded IpFilter :=
  .concat (lines.map decodeLine)

/-- The commands for a filter.  Removing it takes its number only. -/
def encode (f : IpFilter) : Intent → Except ValidationError (List String)
  | .set =>
    provided validate f [phrase ([f.family.word, "filter", numeral f.number] ++ f.bodyWords)]
  | .delete => .ok [phrase ["no", f.family.word, "filter", numeral f.number]]

instance : Feature IpFilter where
  name := featureName
  showCommand := "show config | grep filter"
  decode stanza := .ok (decodeLines stanza.topLevel)
  validate := validate
  encode := encode

/-- Filters are known by their number, and are about everything after it. -/
instance : Reconcilable IpFilter (IpFamily × UInt32) (IpFamily × String) where
  identity f := (f.family, f.number)
  fallback? f := some (f.family, f.body)

end IpFilter

end RouterConfig
