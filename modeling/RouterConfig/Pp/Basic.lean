import RouterConfig.Address.Ipv4
import RouterConfig.Context.Key
import RouterConfig.Filter.Binding

/-!
# Point-to-point sessions

A session connects to a provider, or lets callers in.  Sessions are numbered,
apart from one that stands for all callers who are not known.
-/

namespace RouterConfig

open Text

/-- Which session is meant. -/
inductive PpSelector where
  | number (n : UInt32)
  /-- The one for callers who are not known. -/
  | anonymous
deriving DecidableEq, Repr

namespace PpSelector

/-- Writes a selector. -/
def render : PpSelector → String
  | .number n => numeral n
  | .anonymous => "anonymous"

/-- Reads a selector. -/
def read? (word : String) : Option PpSelector :=
  if word = "anonymous" then some .anonymous else (readNumber? word).map .number

/-- The session of a group of commands. -/
def ofContext? : ContextId → Option PpSelector
  | .number n => some (.number n)
  | .name s => if s = "anonymous" then some .anonymous else none

end PpSelector

/-- A description.  Devices write some with the word `pp` in front and some
without, and the form is kept. -/
structure Description where
  text : String
  ppKeyword : Bool := false
deriving DecidableEq, Repr

/-- Who this device says it is. -/
structure AuthName where
  user : String
  password : String := ""
deriving DecidableEq, Repr

/-- How the other side has to prove who it is. -/
structure AuthRequest where
  method : String
  /-- Only when it is the one that calls. -/
  arriveOnly : Bool := false
deriving DecidableEq, Repr

/-- The addresses that callers are given. -/
inductive AddressPool where
  /-- Those from the first to the last. -/
  | range (first last : Ipv4)
  /-- Those that a server hands out. -/
  | dhcp
deriving DecidableEq, Repr

/-- After how long a silent session ends. -/
inductive DisconnectTime where
  | off
  | seconds (count : UInt32)
deriving DecidableEq, Repr

/-- A session. -/
structure PpInterface where
  selector : PpSelector
  description : Option Description := none
  /-- The interface that a session over Ethernet uses. -/
  pppoeUse : Option String := none
  /-- The interface that the session is bound to. -/
  bind : Option String := none
  pppoeServiceName : Option String := none
  pppoeAcName : Option String := none
  /-- The methods of proof that are accepted. -/
  authAccept : Option (List String) := none
  authRequest : Option AuthRequest := none
  authMyname : Option AuthName := none
  alwaysOn : Option Bool := none
  disconnectTime : Option DisconnectTime := none
  ipAddress : Option String := none
  remoteAddressPool : Option AddressPool := none
  mtu : Option UInt32 := none
  tcpMssLimit : Option UInt32 := none
  natDescriptor : Option UInt32 := none
  secureFilterIn : Option FilterBinding := none
  secureFilterOut : Option FilterBinding := none
  enabled : Bool := false
deriving DecidableEq, Repr

namespace PpInterface

/-- The name of the feature. -/
def featureName : String := "pp"

end PpInterface

end RouterConfig
