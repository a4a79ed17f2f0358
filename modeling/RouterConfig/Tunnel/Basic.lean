import RouterConfig.Address.Ipv4
import RouterConfig.Filter.Binding

/-!
# Tunnels

A tunnel carries packets to a far end, in one of several encapsulations.  What
can be set about it comes in blocks: the tunnel itself, its security
association, the gateway with which keys are exchanged (IKE), and the layer-two
protocol (L2TP).

Most settings may be absent, and absent is not the same as the value that a
device then assumes.  A record keeps what was said.
-/

namespace RouterConfig

/-- How packets are wrapped. -/
inductive Encapsulation where
  | ipsec
  | l2tp
  | l2tpv3
  | ipip
deriving DecidableEq, Repr

namespace Encapsulation

/-- The word for an encapsulation. -/
def word : Encapsulation → String
  | .ipsec => "ipsec"
  | .l2tp => "l2tp"
  | .l2tpv3 => "l2tpv3"
  | .ipip => "ipip"

/-- Every encapsulation. -/
def all : List Encapsulation := [.ipsec, .l2tp, .l2tpv3, .ipip]

/-- Reads an encapsulation. -/
def read (word : String) : Except LineFault Encapsulation :=
  match all.find? fun e => e.word = word with
  | some e => .ok e
  | none => .error (.unknown "encapsulation" word)

@[simp] theorem read_word (e : Encapsulation) : read e.word = .ok e := by
  cases e <;> rfl

end Encapsulation

/-- The addresses of the two ends. -/
structure Endpoint where
  localAddress : Option String := none
  remoteAddress : String
deriving DecidableEq, Repr

/-- How packets are protected. -/
structure SaPolicy where
  id : UInt32
  /-- The key exchange gateway. -/
  gateway : UInt32
  protocol : String
  algorithms : List String
deriving DecidableEq, Repr

/-- A secret that both ends know. -/
inductive PreSharedKey where
  /-- As it is. -/
  | text (secret : String)
  /-- As a device stores it. -/
  | encrypted (digits : String)
deriving DecidableEq, Repr

/-- How a gateway finds out that the other one is gone. -/
inductive IkeKeepalive where
  /-- By asking when nothing was heard. -/
  | dpd (interval : UInt32) (retry : Option UInt32)
  /-- By messages at regular intervals. -/
  | heartbeat (interval retry : UInt32)
  | off
deriving DecidableEq, Repr

/-- The gateway with which keys are exchanged. -/
structure IkeGateway where
  id : UInt32
  localAddress : Option String := none
  remoteAddress : Option String := none
  preSharedKey : Option PreSharedKey := none
  keepalive : Option IkeKeepalive := none
  encryption : Option String := none
  hash : Option String := none
  /-- One or two groups for the exchange. -/
  group : Option (List String) := none
deriving DecidableEq, Repr

/-- Whether the ends of a layer-two tunnel prove who they are. -/
structure TunnelAuth where
  enabled : Bool
  password : Option String := none
deriving DecidableEq, Repr

/-- How an end of a layer-two tunnel finds out that the other one is gone. -/
inductive L2tpKeepalive where
  | on (interval retry : UInt32)
  | off
deriving DecidableEq, Repr

/-- The layer-two protocol. -/
structure TunnelL2tp where
  hostname : Option String := none
  localRouterId : Option Ipv4 := none
  remoteRouterId : Option Ipv4 := none
  remoteEndId : Option String := none
  alwaysOn : Option Bool := none
  tunnelAuth : Option TunnelAuth := none
  keepalive : Option L2tpKeepalive := none
  syslog : Option Bool := none
deriving DecidableEq, Repr

/-- The limit for the segments of a TCP connection. -/
inductive MssLimit where
  | auto
  | value (bytes : UInt32)
deriving DecidableEq, Repr

/-- A tunnel. -/
structure Tunnel where
  id : UInt32
  description : Option String := none
  encapsulation : Option Encapsulation := none
  endpoint : Option Endpoint := none
  /-- The number of its security association. -/
  ipsecTunnel : Option UInt32 := none
  saPolicy : Option SaPolicy := none
  ike : Option IkeGateway := none
  l2tp : Option TunnelL2tp := none
  secureFilterIn : Option FilterBinding := none
  secureFilterOut : Option FilterBinding := none
  tcpMssLimit : Option MssLimit := none
  enabled : Bool := false
deriving DecidableEq, Repr

namespace Tunnel

/-- The name of the feature. -/
def featureName : String := "tunnel"

/-- The key exchange gateway in force: that of the exchange itself, or else the
one that the security association names. -/
def gateway? (t : Tunnel) : Option UInt32 :=
  match t.ike with
  | some ike => some ike.id
  | none => t.saPolicy.map SaPolicy.gateway

end Tunnel

end RouterConfig
