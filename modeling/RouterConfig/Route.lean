import RouterConfig.Collect
import RouterConfig.Feature
import RouterConfig.Reconcilable
import RouterConfig.Rule

/-!
# Static routes

A route sends packets for a network to a gateway.  There may be several, between
which traffic is shared, and each has parameters of its own.

    ip route default gateway pp 1
    ip route 10.0.0.0/8 gateway 192.168.1.254 weight 2 gateway 192.168.1.253 weight 1
    ip route 172.16.0.0/255.255.0.0 gateway tunnel 1 hide gateway pp 1 filter 10 11

One network may stand on several lines, in different spellings too.  Their
gateways are put together in order and make one record, unless one of the lines
cannot be read, which spoils the record.
-/

namespace RouterConfig

open Text

/-- Where packets are sent. -/
inductive Gateway where
  /-- To a router. -/
  | address (address : Ipv4)
  /-- Into a point-to-point session. -/
  | pp (number : UInt32)
  /-- Into a tunnel. -/
  | tunnel (number : UInt32)
  /-- To the router that an interface has learned of. -/
  | dhcp (interface : String)
  /-- Nowhere. -/
  | null
  /-- To this device. -/
  | loopback
  /-- Out of an interface. -/
  | interface (name : String)
deriving DecidableEq, Repr

/-- A gateway with its parameters. -/
structure NextHop where
  gateway : Gateway
  weight : Option UInt32 := none
  /-- Filters that choose the packets. -/
  filters : List UInt32 := []
  keepalive : Option UInt32 := none
  /-- The route is withdrawn while the gateway cannot be reached. -/
  hide : Bool := false
deriving DecidableEq, Repr

/-- A network with the gateways that lead there. -/
structure StaticRoute where
  network : Network
  nextHops : List NextHop
deriving DecidableEq, Repr

/-! ## Writing -/

/-- The words for a gateway. -/
def Gateway.words : Gateway → List String
  | .address a => [a.render]
  | .pp n => ["pp", numeral n]
  | .tunnel n => ["tunnel", numeral n]
  | .dhcp name => ["dhcp", name]
  | .null => ["null"]
  | .loopback => ["loopback"]
  | .interface name => [name]

/-- The words for a gateway with its parameters. -/
def NextHop.words (hop : NextHop) : List String :=
  "gateway" :: hop.gateway.words ++
  (match hop.weight with
    | some weight => ["weight", numeral weight]
    | none => []) ++
  (if hop.filters.isEmpty then [] else "filter" :: hop.filters.map numeral) ++
  (match hop.keepalive with
    | some number => ["keepalive", numeral number]
    | none => []) ++
  if hop.hide then ["hide"] else []

namespace StaticRoute

/-- The name of the feature. -/
def featureName : String := "static_route"

/-! ## Reading gateways -/

/-- The name of an interface: letters, digits and points after a letter. -/
def isInterfaceName (word : String) : Bool :=
  word.toList.head?.any Char.isAlpha && word.toList.all fun c => c.isAlphanum || c == '.'

/-- Reads a gateway of one word. -/
def readSimpleGateway (word : String) : Except LineFault Gateway :=
  match Ipv4.read? word with
  | some address => .ok (.address address)
  | none =>
    if isInterfaceName word then .ok (.interface word) else .error (.invalid "gateway" word)

/-- Reads the argument of a gateway keyword with `read`. -/
def readArgument (keyword : String) (read : String → Except LineFault Gateway) :
    List String → Except LineFault (Gateway × Nat)
  | [] => .error (.without ("gateway " ++ keyword) "argument")
  | word :: _ => (read word).map fun gateway => (gateway, 2)

/-- Reads a gateway from the words after `gateway`, and says how many of them it
takes. -/
def readGateway : List String → Except LineFault (Gateway × Nat)
  | [] => .error (.without "gateway" "value")
  | word :: rest =>
    match word with
    | "pp" => readArgument word (fun n => (readNumber "pp number" n).map .pp) rest
    | "tunnel" => readArgument word (fun n => (readNumber "tunnel number" n).map .tunnel) rest
    | "dhcp" => readArgument word (fun interface => .ok (.dhcp interface)) rest
    | "null" => .ok (.null, 1)
    | "loopback" => .ok (.loopback, 1)
    | _ => (readSimpleGateway word).map fun gateway => (gateway, 1)

/-- Reads the number after a keyword. -/
def readValue (keyword : String) : List String → Except LineFault UInt32
  | [] => .error (.without keyword "value")
  | word :: _ => readNumber keyword word

/-- The words at the start of a list that look like numbers. -/
def numberWords (words : List String) : List String :=
  words.takeWhile fun word => word.toList.head?.any isDigit

/-- Reads the parameters of `hop` from the words after its gateway, and then the
gateways that follow. -/
def readHops (hop : NextHop) : List String → Except LineFault (List NextHop)
  | [] => .ok [hop]
  | word :: rest =>
    match word with
    | "gateway" => do
      let (gateway, used) ← readGateway rest
      return hop :: (← readHops { gateway } (rest.drop used))
    | "weight" => do
      let weight ← readValue word rest
      readHops { hop with weight := some weight } (rest.drop 1)
    | "keepalive" => do
      let number ← readValue word rest
      readHops { hop with keepalive := some number } (rest.drop 1)
    | "hide" => readHops { hop with hide := true } rest
    | "filter" => do
      let numbers ← (numberWords rest).mapM (readNumber "filter number")
      let filters := hop.filters ++ numbers
      if filters.isEmpty then throw (.without "filter keyword" "filter numbers")
      readHops { hop with filters } (rest.drop (numberWords rest).length)
    | _ => .error (.unexpected "parameter " word)
termination_by words => words.length

/-- Reads the words after the network, which start with a gateway. -/
def readClauses : List String → Except LineFault (List NextHop)
  | [] => .error (.missing "gateway")
  | word :: rest =>
    if word = "gateway" then do
      let (gateway, used) ← readGateway rest
      readHops { gateway } (rest.drop used)
    else .error (.expected ("gateway, got '" ++ word ++ "'"))

/-! ## Reading lines -/

/-- A line of the feature with what was read from it: the network, and the
gateways if the network could be read. -/
structure Reading where
  line : Line
  content : Except LineFault (Network × Except LineFault (List NextHop))

/-- Reads the words after `ip route`. -/
def readWords : List String → Except LineFault (Network × Except LineFault (List NextHop))
  | [] => .error (.missing "destination")
  | word :: rest =>
    match Network.read word with
    | .error fault => .error (.badNetwork fault)
    | .ok network => .ok (network, readClauses rest)

/-- The lines of the feature. -/
def readings (lines : List Line) : List Reading :=
  lines.filterMap fun line =>
    (afterLead? "ip route " line.text).map fun rest => ⟨line, readWords (wordsOf rest)⟩

namespace Reading

/-- What is wrong with the line. -/
def fault? (r : Reading) : Option LineFault :=
  match r.content with
  | .error fault => some fault
  | .ok (_, .error fault) => some fault
  | .ok (_, .ok _) => none

/-- The network, if only that can be read. -/
def spoils? (r : Reading) : Option Network :=
  match r.content with
  | .ok (network, .error _) => some network
  | _ => none

/-- The line and what it says, if all of it can be read. -/
def route? (r : Reading) : Option (Line × StaticRoute) :=
  match r.content with
  | .ok (network, .ok hops) => some (r.line, ⟨network, hops⟩)
  | _ => none

end Reading

/-! ## Rules -/

/-- The rules for a gateway. -/
def gatewayRules : Gateway → List Rule
  | .pp number | .tunnel number => [Rule.inRange featureName "gateway" number.toNat 1 65535]
  | .dhcp name | .interface name => [Rule.oneWord featureName "gateway" name]
  | .address _ | .null | .loopback => []

/-- The gateway can tell whether it is reached. -/
def canHide : Gateway → Bool
  | .pp _ | .tunnel _ => true
  | _ => false

/-- The rules for a gateway with its parameters. -/
def hopRules (hop : NextHop) : List Rule :=
  gatewayRules hop.gateway ++
  [Rule.demand featureName "hide" (!hop.hide || canHide hop.gateway)
    (.requires "a pp or tunnel gateway")] ++
  Rule.ifPresent hop.weight
    (fun weight => [Rule.inRange featureName "weight" weight.toNat 0 2147483647]) ++
  Rule.ifPresent hop.keepalive
    (fun number => [Rule.inRange featureName "keepalive" number.toNat 1 65535]) ++
  hop.filters.map (Rule.filterNumber featureName "filter")

/-- The rules for a route. -/
def rules (r : StaticRoute) : List Rule :=
  Rule.demand featureName "next_hops" (!r.nextHops.isEmpty) .missing ::
    r.nextHops.flatMap hopRules

/-- The first rule that the route breaks. -/
def validate (r : StaticRoute) : Option ValidationError :=
  firstBroken r.rules

/-! ## The feature -/

/-- Decodes lines.  The faulty lines come first, then, for each network with no
faulty line, its record or the rule that it breaks. -/
def decodeLines (lines : List Line) : Decoded StaticRoute :=
  let rs := readings lines
  let spoiled := rs.filterMap Reading.spoils?
  let routes := rs.filterMap Reading.route?
  let kept := (firstOfEach (fun r => r.2.network) routes).filter fun r =>
    !spoiled.contains r.2.network
  .concat (rs.map fun r =>
    match r.fault? with
    | some fault => .rejected featureName r.line (.malformed fault)
    | none => .empty) ++
  .concat (kept.map fun first =>
    let network := first.2.network
    let hops := (routes.filter fun r => r.2.network = network).flatMap fun r => r.2.nextHops
    .checked featureName validate first.1 ⟨network, hops⟩)

/-- The first words of the commands for a route. -/
def leadWords (r : StaticRoute) : List String :=
  ["ip", "route", r.network.render]

/-- The commands for a route.  Removing it takes its network only. -/
def encode (r : StaticRoute) : Intent → Except ValidationError (List String)
  | .set => provided validate r [phrase (r.leadWords ++ r.nextHops.flatMap NextHop.words)]
  | .delete => .ok [phrase ("no" :: r.leadWords)]

instance : Feature StaticRoute where
  name := featureName
  showCommand := "show config | grep \"ip route\""
  decode stanza := .ok (decodeLines stanza.topLevel)
  validate := validate
  encode := encode

/-- Routes are known by their network and by nothing else. -/
instance : Reconcilable StaticRoute Network Empty where
  identity r := r.network
  fallback? _ := none

end StaticRoute

end RouterConfig
