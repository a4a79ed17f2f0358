import RouterConfig.Address.Ipv6
import RouterConfig.Collect
import RouterConfig.Feature
import RouterConfig.Reconcilable
import RouterConfig.Rule

/-!
# Choosing a name server

Which name server is asked can depend on the name that is asked for.

    dns server select 1 192.168.1.1 edns=on example.com
    dns server select 2 10.0.0.1 10.0.0.2 aaaa *.corp.example 192.168.1.0/24
    dns server select 3 2001:db8::53 . restrict pp 1

The parts stand in a fixed order and most of them may be left out: one or two
servers with an option each, a record type, the pattern for names, the clients
that may ask, and a session that must be up.  A part is recognised by its form.
So a pattern that has the form of a server or is a record type could not be told
from one, and is not allowed.
-/

namespace RouterConfig

open Text

/-- A name server. -/
structure DnsServer where
  address : String
  /-- Whether the extension mechanism is used, if that is said. -/
  edns : Option Bool := none
deriving DecidableEq, Repr

/-- One numbered choice of name servers. -/
structure DnsServerSelect where
  id : UInt32
  servers : List DnsServer
  /-- The type of the question; a device takes `a` when none is said. -/
  recordType : Option String := none
  queryPattern : String
  /-- The clients for which the choice holds. -/
  originalSender : Option String := none
  /-- The session that must be up. -/
  restrictPp : Option UInt32 := none
deriving DecidableEq, Repr

namespace DnsServerSelect

/-- The name of the feature. -/
def featureName : String := "dns_select"

/-- The types of questions. -/
def recordTypes : List String := ["a", "aaaa", "ptr", "mx", "ns", "cname", "any"]

/-- The type that a device takes when none is said. -/
def defaultRecordType : String := "a"

/-- The type that is in force. -/
def effectiveRecordType (s : DnsServerSelect) : String :=
  s.recordType.getD defaultRecordType

/-! ## Writing -/

/-- The words for a server. -/
def serverWords (server : DnsServer) : List String :=
  server.address ::
    match server.edns with
    | some value => ["edns=" ++ onOff value]
    | none => []

/-- The words after the number. -/
def bodyWords (s : DnsServerSelect) : List String :=
  s.servers.flatMap serverWords ++ s.recordType.toList ++ [s.queryPattern] ++
    s.originalSender.toList ++
    match s.restrictPp with
    | some number => ["restrict", "pp", numeral number]
    | none => []

/-! ## Reading -/

/-- Clients: an address, an address with a number after a slash, or two addresses
with a dash between them. -/
def isSender (word : String) : Bool :=
  match splitOnce? '/' word with
  | some (address, length) => isAddress address && (readOctet? length).isSome
  | none =>
    match splitOnce? '-' word with
    | some (first, last) => isAddress first && isAddress last
    | none => isAddress word

/-- Reads the option of a server, and gives the words after it as well. -/
def readEdns : List String → Option Bool × List String
  | "edns=on" :: rest => (some true, rest)
  | "edns=off" :: rest => (some false, rest)
  | words => (none, words)

/-- Reads servers, at most `limit` of them, and gives the words after them as
well. -/
def readServers : (limit : Nat) → List String → List DnsServer × List String
  | limit + 1, word :: rest =>
    if isAddress word then
      let (edns, rest) := readEdns rest
      let (servers, rest) := readServers limit rest
      (⟨word, edns⟩ :: servers, rest)
    else ([], word :: rest)
  | _, words => ([], words)

/-- Takes the first word if it has the form `fits`. -/
def takeIf (fits : String → Bool) : List String → Option String × List String
  | word :: rest => if fits word then (some word, rest) else (none, word :: rest)
  | [] => (none, [])

/-- Reads the session that must be up. -/
def readRestriction : List String → Except LineFault (Option UInt32)
  | [] => .ok none
  | ["restrict", "pp", number] => (readNumber "restrict pp" number).map some
  | words => .error (.unexpected "" (phrase words))

/-- Reads the words after the number. -/
def readBody (id : UInt32) (words : List String) : Except LineFault DnsServerSelect := do
  let (servers, words) := readServers 2 words
  if servers.isEmpty then throw (.missing "server")
  match takeIf recordTypes.contains words with
  | (_, []) => throw (.missing "query pattern")
  | (recordType, queryPattern :: words) =>
    let (originalSender, words) := takeIf isSender words
    let restrictPp ← readRestriction words
    return { id, servers, recordType, queryPattern, originalSender, restrictPp }

/-- Reads the words after `dns server select`. -/
def readWords : List String → Except LineFault DnsServerSelect
  | [] => .error (.missing "selector id")
  | word :: rest => do
    let id ← readNumber "selector id" word
    readBody id rest

/-! ## Rules -/

/-- The rules for a choice. -/
def rules (s : DnsServerSelect) : List Rule :=
  [Rule.inRange featureName "id" s.id.toNat 1 65535,
    Rule.demand featureName "servers" (!s.servers.isEmpty) .missing,
    Rule.demand featureName "servers" (s.servers.length ≤ 2)
      (.outOfRange s.servers.length 1 2)] ++
  s.servers.map (fun server =>
    Rule.demand featureName "servers" (isAddress server.address) (.invalidValue server.address)) ++
  Rule.ifPresent s.recordType (fun type =>
    [Rule.demand featureName "record_type" (recordTypes.contains type) (.invalidValue type)]) ++
  [Rule.oneWord featureName "query_pattern" s.queryPattern,
    Rule.demand featureName "query_pattern"
      (!isAddress s.queryPattern && !recordTypes.contains s.queryPattern)
      (.invalidValue s.queryPattern)] ++
  Rule.ifPresent s.originalSender (fun sender =>
    [Rule.demand featureName "original_sender" (isSender sender) (.invalidValue sender)]) ++
  Rule.ifPresent s.restrictPp
    (fun number => [Rule.inRange featureName "restrict_pp" number.toNat 1 65535])

/-- The first rule that the choice breaks. -/
def validate (s : DnsServerSelect) : Option ValidationError :=
  firstBroken s.rules

/-! ## The feature -/

/-- A line of the feature with what was read from it. -/
structure Reading where
  line : Line
  content : Except LineFault DnsServerSelect

/-- The lines of the feature. -/
def readings (lines : List Line) : List Reading :=
  lines.filterMap fun line =>
    (afterLead? "dns server select " line.text).map fun rest => ⟨line, readWords (wordsOf rest)⟩

/-- The line gives a record with this number. -/
def Reading.gives (r : Reading) (id : UInt32) : Bool :=
  match r.content with
  | .ok s => s.id == id && (validate s).isNone
  | .error _ => false

/-- Decodes a line that comes after the lines `earlier`.  A number that was given
already is not given again. -/
def Reading.decode (earlier : List Reading) (r : Reading) : Decoded DnsServerSelect :=
  match r.content with
  | .error fault => .rejected featureName r.line (.malformed fault)
  | .ok s =>
    if earlier.any fun e => e.gives s.id then
      .rejected featureName r.line (.malformed (.duplicate ("selector " ++ numeral s.id)))
    else .checked featureName validate r.line s

/-- Decodes lines. -/
def decodeLines (lines : List Line) : Decoded DnsServerSelect :=
  .concat ((withEarlier [] (readings lines)).map fun p => p.2.decode p.1)

/-- The first words of the commands for a choice. -/
def leadWords (s : DnsServerSelect) : List String :=
  ["dns", "server", "select", numeral s.id]

/-- The commands for a choice.  Removing it takes its number only. -/
def encode (s : DnsServerSelect) : Intent → Except ValidationError (List String)
  | .set => provided validate s [phrase (s.leadWords ++ s.bodyWords)]
  | .delete => .ok [phrase ("no" :: s.leadWords)]

instance : Feature DnsServerSelect where
  name := featureName
  showCommand := "show config | grep \"dns server select\""
  decode stanza := .ok (decodeLines stanza.topLevel)
  validate := validate
  encode := encode

/-- A device may say the default record type where none was wanted; that is taken
back. -/
def normalize (desired observed : DnsServerSelect) : DnsServerSelect :=
  if desired.recordType = none ∧ observed.recordType = some defaultRecordType then
    { observed with recordType := none }
  else observed

/-- Choices are known by their number, and are about names and record types. -/
instance : Reconcilable DnsServerSelect UInt32 (String × String) where
  identity s := s.id
  fallback? s := some (s.queryPattern, s.effectiveRecordType)
  normalize := normalize

end DnsServerSelect

end RouterConfig
