import RouterConfig.Collect
import RouterConfig.Feature
import RouterConfig.Filter.Binding
import RouterConfig.Reconcilable
import RouterConfig.Text.Digit

/-!
# Filters on interfaces

Each interface has a binding for either direction, one set for each kind of
filter.

    ip lan2 secure filter in 200020 200021 200099
    ip lan2 secure filter out 200020 200099 dynamic 200080 200081
    ethernet lan1 filter in 1 100

The two directions stand on lines of their own and make one record.  A line that
cannot be read, and a second line for one direction, spoil the record of their
interface and leave the others alone.  Bindings of tunnels and sessions belong
to those and are no concern of this feature.
-/

namespace RouterConfig

open Text

/-- The kind of filters that a binding refers to. -/
inductive FilterFamily where
  | ip
  | ipv6
  | ethernet
deriving DecidableEq, Repr

/-- The bindings of one interface. -/
structure InterfaceFilters where
  family : FilterFamily
  interface : String
  /-- Nothing if the direction is not configured. -/
  inbound : Option FilterBinding := none
  outbound : Option FilterBinding := none
deriving DecidableEq, Repr

namespace InterfaceFilters

/-- The name of the feature. -/
def featureName : String := "secure_filter"

/-- What a record is addressed by. -/
abbrev Key := FilterFamily × String

/-- The key of a record. -/
def key (r : InterfaceFilters) : Key :=
  (r.family, r.interface)

/-- The first words of the commands for an interface. -/
def leadWords : Key → List String
  | (.ip, interface) => ["ip", interface, "secure", "filter"]
  | (.ipv6, interface) => ["ipv6", interface, "secure", "filter"]
  | (.ethernet, interface) => ["ethernet", interface, "filter"]

/-- The bindings that are configured, inbound first. -/
def bindings (r : InterfaceFilters) : List (Direction × FilterBinding) :=
  r.inbound.toList.map (Direction.inbound, ·) ++ r.outbound.toList.map (Direction.outbound, ·)

/-- The filters of a direction, if it is bound. -/
def binding? (r : InterfaceFilters) : Direction → Option FilterBinding
  | .inbound => r.inbound
  | .outbound => r.outbound

/-! ## Reading -/

/-- A line of the feature: what it is about, the word in the place of the
direction, and the rest. -/
structure BindingLine where
  key : Key
  direction : String
  rest : String
deriving DecidableEq, Repr

/-- Reads what follows the word `filter`: a direction and the rest, with one
space before each.  Where no word can be told off as the direction, it is empty,
and everything behind the first space is the rest. -/
def splitDirection? (text : String) : Option (String × String) :=
  match text.toList with
  | [] => some ("", "")
  | ' ' :: behind =>
    match firstWord? (String.ofList behind) with
    | some ("", _) | none =>
      if behind.contains '\n' then none else some ("", String.ofList behind)
    | some (word, rest) => some (word, rest)
  | _ => none

/-- Reads a line `lead INTERFACE middle`, giving the interface and what follows. -/
def splitInterface? (lead middle text : String) : Option (String × String) := do
  let rest ← afterLead? lead text
  let word := rest.toList.takeWhile fun c => !isBlank c
  guard (!word.isEmpty)
  let behind ← afterLead? middle (String.ofList (rest.toList.drop word.length))
  return (String.ofList word, behind)

/-- Reads a line about addresses. -/
def splitSecure? (family : FilterFamily) (lead text : String) : Option BindingLine := do
  let (interface, behind) ← splitInterface? lead " secure filter" text
  let (direction, rest) ← splitDirection? behind
  return ⟨(family, interface), direction, rest⟩

/-- Reads a line about frames, where the direction may not be left out. -/
def splitEthernet? (text : String) : Option BindingLine := do
  let (interface, behind) ← splitInterface? "ethernet " " filter " text
  let (direction, rest) ← firstWord? behind
  guard (direction != "")
  return ⟨(.ethernet, interface), direction, rest⟩

/-- A line of the feature. -/
def split? (text : String) : Option BindingLine :=
  match splitSecure? .ip "ip " text <|> splitSecure? .ipv6 "ipv6 " text with
  | some l => if l.key.2 = "tunnel" || l.key.2 = "pp" then none else some l
  | none => splitEthernet? text

/-- Reads the direction and the binding on a line. -/
def BindingLine.read (l : BindingLine) : Except LineFault (Direction × FilterBinding) := do
  let direction ← Direction.read l.direction
  return (direction, ← FilterBinding.read l.rest)

/-! ## Collecting -/

/-- A line of the feature with what was read from it. -/
structure Reading where
  line : Line
  key : Key
  content : Except LineFault (Direction × FilterBinding)

/-- The lines of the feature. -/
def readings (lines : List Line) : List Reading :=
  lines.filterMap fun line => (split? line.text).map fun l => ⟨line, l.key, l.read⟩

/-- The line binds filters to this direction of this interface. -/
def Reading.binds (r : Reading) (key : Key) (direction : Direction) : Option FilterBinding :=
  match r.content with
  | .ok (d, binding) => if r.key = key ∧ d = direction then some binding else none
  | .error _ => none

/-- What is wrong with a line that comes after the lines `earlier`. -/
def Reading.fault? (earlier : List Reading) (r : Reading) : Option LineFault :=
  match r.content with
  | .error fault => some fault
  | .ok (direction, _) =>
    if earlier.any fun e => (e.binds r.key direction).isSome then
      some (.duplicate (direction.word ++ " binding"))
    else none

/-- The faulty lines, in order. -/
def faults (rs : List Reading) : List (Reading × LineFault) :=
  (withEarlier [] rs).filterMap fun p => (p.2.fault? p.1).map fun fault => (p.2, fault)

/-- The record of an interface: for each direction the first line that binds it. -/
def collect (rs : List Reading) (key : Key) : InterfaceFilters where
  family := key.1
  interface := key.2
  inbound := rs.findSome? fun r => r.binds key .inbound
  outbound := rs.findSome? fun r => r.binds key .outbound

/-- The lines that were read, without regard to one another. -/
def readable (rs : List Reading) : List Reading :=
  rs.filter fun r => r.content.toOption.isSome

/-! ## Rules -/

/-- The name of a LAN interface: `lan` and a number. -/
def isLan (interface : String) : Bool :=
  match afterLead? "lan" interface with
  | some number => !number.toList.isEmpty && number.toList.all isDecimalDigit
  | none => false

/-- The rules for the bindings of one direction. -/
def bindingRules (family : FilterFamily) (b : FilterBinding) : List Rule :=
  Rule.demand featureName "dynamic" (family != .ethernet || b.dynamic.isEmpty)
    (.invalidValue "dynamic filters on an ethernet binding") ::
  b.rules featureName "filter number"

/-- The rules for a record. -/
def rules (r : InterfaceFilters) : List Rule :=
  [Rule.oneWord featureName "interface" r.interface,
    Rule.demand featureName "interface" (r.interface != "tunnel" && r.interface != "pp")
      (.invalidValue r.interface),
    Rule.demand featureName "interface" (r.family != .ethernet || isLan r.interface)
      (.requires "a lanN interface for ethernet filters")] ++
  r.bindings.flatMap fun b => bindingRules r.family b.2

/-- The first rule that the record breaks. -/
def validate (r : InterfaceFilters) : Option ValidationError :=
  firstBroken r.rules

/-! ## The feature -/

/-- Decodes lines.  The faulty lines come first, then, for each interface with no
faulty line, its record or the rule that it breaks. -/
def decodeLines (lines : List Line) : Decoded InterfaceFilters :=
  let rs := readings lines
  let spoiled := (faults rs).map fun f => f.1.key
  let kept := (firstOfEach Reading.key (readable rs)).filter fun r => !spoiled.contains r.key
  .concat ((faults rs).map fun f => .rejected featureName f.1.line (.malformed f.2)) ++
    .concat (kept.map fun r => .checked featureName validate r.line (collect rs r.key))

/-- The commands for a record, one for each direction that is configured. -/
def encode (r : InterfaceFilters) (intent : Intent) : Except ValidationError (List String) :=
  provided validate r <| r.bindings.map fun b =>
    match intent with
    | .set => b.2.command (leadWords r.key) b.1
    | .delete => phrase ("no" :: leadWords r.key ++ [b.1.word])

instance : Feature InterfaceFilters where
  name := featureName
  showCommand := "show config | grep filter"
  decode stanza := .ok (decodeLines stanza.topLevel)
  validate := validate
  encode := encode

/-- Bindings are known by their interface and by nothing else. -/
instance : Reconcilable InterfaceFilters Key Empty where
  identity := key
  fallback? _ := none

end InterfaceFilters

end RouterConfig
