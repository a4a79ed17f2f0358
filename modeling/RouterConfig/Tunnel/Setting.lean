import RouterConfig.Selection
import RouterConfig.Tunnel.Basic

/-!
# Settings of a tunnel

One command in the group of a tunnel is one *setting*.  A setting is read from
the words of its command and written as words again, and putting it into a
record changes one field.  A tunnel in turn has a list of settings, which is what
is written when the tunnel is.

Commands that no field is there for are passed over.  Those that start like a
known command and go wrong are refused.
-/

namespace RouterConfig

open Text

/-! ## Settings -/

/-- A setting of the key exchange gateway. -/
inductive IkeSetting where
  | encryption (algorithm : String)
  | group (groups : List String)
  | hash (algorithm : String)
  | keepalive (mode : IkeKeepalive)
  | localAddress (address : String)
  | preSharedKey (key : PreSharedKey)
  | remoteAddress (address : String)
deriving DecidableEq, Repr

/-- A setting of the layer-two protocol. -/
inductive L2tpSetting where
  | hostname (name : String)
  | localRouterId (id : Ipv4)
  | remoteRouterId (id : Ipv4)
  | remoteEndId (id : String)
  | alwaysOn (value : Bool)
  | tunnelAuth (auth : TunnelAuth)
  | keepalive (mode : L2tpKeepalive)
  | syslog (value : Bool)
deriving DecidableEq, Repr

/-- A setting of a tunnel. -/
inductive TunnelSetting where
  | description (text : String)
  | encapsulation (e : Encapsulation)
  | endpoint (e : Endpoint)
  | ipsecTunnel (number : UInt32)
  | saPolicy (policy : SaPolicy)
  | ike (gateway : UInt32) (setting : IkeSetting)
  | l2tp (setting : L2tpSetting)
  | secureFilter (direction : Direction) (binding : FilterBinding)
  | tcpMssLimit (limit : MssLimit)
  /-- The tunnel of this number is switched on or off. -/
  | switch (on : Bool) (number : UInt32)
deriving DecidableEq, Repr

/-! ## Writing -/

/-- The words for a keepalive mode. -/
def IkeKeepalive.words : IkeKeepalive → List String
  | .off => ["off"]
  | .dpd interval none => ["on", "dpd", numeral interval]
  | .dpd interval (some retry) => ["on", "dpd", numeral interval, numeral retry]
  | .heartbeat interval retry => ["on", "heartbeat", numeral interval, numeral retry]

/-- The words for a setting of the gateway `id`. -/
def IkeSetting.words (id : UInt32) : IkeSetting → List String
  | .encryption algorithm => ["encryption", numeral id, algorithm]
  | .group groups => "group" :: numeral id :: groups
  | .hash algorithm => ["hash", numeral id, algorithm]
  | .keepalive mode => "keepalive" :: "use" :: numeral id :: mode.words
  | .localAddress address => ["local", "address", numeral id, address]
  | .preSharedKey (.text secret) => ["pre-shared-key", numeral id, "text", secret]
  | .preSharedKey (.encrypted digits) => ["pre-shared-key", numeral id, "encrypted", digits]
  | .remoteAddress address => ["remote", "address", numeral id, address]

/-- The words for a setting of the layer-two protocol. -/
def L2tpSetting.words : L2tpSetting → List String
  | .hostname name => ["hostname", name]
  | .localRouterId id => ["local", "router-id", id.render]
  | .remoteRouterId id => ["remote", "router-id", id.render]
  | .remoteEndId id => ["remote", "end-id", id]
  | .alwaysOn value => ["always-on", onOff value]
  | .tunnelAuth ⟨false, _⟩ => ["tunnel", "auth", "off"]
  | .tunnelAuth ⟨true, password⟩ => ["tunnel", "auth", "on"] ++ password.toList
  | .keepalive (.on interval retry) => ["keepalive", "use", "on", numeral interval, numeral retry]
  | .keepalive .off => ["keepalive", "use", "off"]
  | .syslog value => ["syslog", onOff value]

/-- The word for a limit. -/
def MssLimit.word : MssLimit → String
  | .auto => "auto"
  | .value bytes => numeral bytes

/-- The words for a setting. -/
def TunnelSetting.words : TunnelSetting → List String
  | .description text => ["description", text]
  | .encapsulation e => ["tunnel", "encapsulation", e.word]
  | .endpoint e => ["tunnel", "endpoint", "address"] ++ e.localAddress.toList ++ [e.remoteAddress]
  | .ipsecTunnel number => ["ipsec", "tunnel", numeral number]
  | .saPolicy policy =>
    ["ipsec", "sa", "policy", numeral policy.id, numeral policy.gateway, policy.protocol] ++
      policy.algorithms
  | .ike gateway setting => "ipsec" :: "ike" :: setting.words gateway
  | .l2tp setting => "l2tp" :: setting.words
  | .secureFilter direction binding =>
    ["ip", "tunnel", "secure", "filter", direction.word] ++ binding.words
  | .tcpMssLimit limit => ["ip", "tunnel", "tcp", "mss", "limit", limit.word]
  | .switch on number => ["tunnel", if on then "enable" else "disable", numeral number]

/-! ## Reading -/

namespace TunnelSetting

/-- A command of known start and unknown form. -/
def malformed {α : Type} : Except LineFault α :=
  .error (.malformed "command")

/-- Reads the words after `tunnel`. -/
def readTunnel : List String → Except LineFault (Option TunnelSetting)
  | [] => .ok none
  | keyword :: rest =>
    match keyword with
    | "encapsulation" =>
      match rest with
      | [word] => (Encapsulation.read word).map fun e => some (.encapsulation e)
      | _ => malformed
    | "endpoint" =>
      match rest with
      | ["address", remote] => .ok (some (.endpoint ⟨none, remote⟩))
      | ["address", near, remote] => .ok (some (.endpoint ⟨some near, remote⟩))
      | _ => malformed
    | "enable" =>
      match rest with
      | [number] => (readNumber "tunnel number" number).map fun n => some (.switch true n)
      | _ => malformed
    | "disable" =>
      match rest with
      | [number] => (readNumber "tunnel number" number).map fun n => some (.switch false n)
      | _ => malformed
    | _ => .ok none

/-- Reads the words after `ipsec sa`.  The gateway is read before the number of
the policy. -/
def readSa : List String → Except LineFault (Option TunnelSetting)
  | "policy" :: id :: gateway :: protocol :: first :: algorithms => do
    let gateway ← readNumber "sa policy gateway" gateway
    let id ← readNumber "sa policy id" id
    return some (.saPolicy ⟨id, gateway, protocol, first :: algorithms⟩)
  | _ => malformed

/-- Reads a keepalive mode of the key exchange. -/
def readIkeKeepalive : List String → Except LineFault IkeKeepalive
  | ["off"] => .ok .off
  | ["on", "dpd", interval] => do
    return .dpd (← readNumber "dpd interval" interval) none
  | ["on", mode, interval, retry] =>
    match mode with
    | "dpd" => do
      let interval ← readNumber "dpd interval" interval
      return .dpd interval (some (← readNumber "dpd retry" retry))
    | "heartbeat" => do
      let interval ← readNumber "heartbeat interval" interval
      return .heartbeat interval (← readNumber "heartbeat retry" retry)
    | _ => .error (.invalidForm "ike keepalive")
  | _ => .error (.invalidForm "ike keepalive")

/-- A setting of the gateway that the word names. -/
def ofGateway (gateway : String) (setting : IkeSetting) :
    Except LineFault (Option TunnelSetting) :=
  (readNumber "ike gateway" gateway).map fun id => some (.ike id setting)

/-- A key exchange command of known start and unknown form. -/
def malformedIke {α : Type} : Except LineFault α :=
  .error (.malformed "ipsec ike command")

/-- Reads the words after `ipsec ike`.  The value is read before the number of
the gateway. -/
def readIke : List String → Except LineFault (Option TunnelSetting)
  | [] => .ok none
  | keyword :: rest =>
    match keyword with
    | "local" =>
      match rest with
      | ["address", gateway, address] => ofGateway gateway (.localAddress address)
      | _ => malformedIke
    | "remote" =>
      match rest with
      | ["address", gateway, address] => ofGateway gateway (.remoteAddress address)
      | _ => malformedIke
    | "pre-shared-key" =>
      match rest with
      | gateway :: "text" :: first :: others =>
        ofGateway gateway (.preSharedKey (.text (phrase (first :: others))))
      | [gateway, "encrypted", digits] => ofGateway gateway (.preSharedKey (.encrypted digits))
      | _ => malformedIke
    | "keepalive" =>
      match rest with
      | "use" :: gateway :: mode => do
        ofGateway gateway (.keepalive (← readIkeKeepalive mode))
      | _ => malformedIke
    | "encryption" =>
      match rest with
      | [gateway, algorithm] => ofGateway gateway (.encryption algorithm)
      | _ => malformedIke
    | "hash" =>
      match rest with
      | [gateway, algorithm] => ofGateway gateway (.hash algorithm)
      | _ => malformedIke
    | "group" =>
      match rest with
      | [gateway, first] => ofGateway gateway (.group [first])
      | [gateway, first, second] => ofGateway gateway (.group [first, second])
      | _ => malformedIke
    | _ => .ok none

/-- Reads the words after `ipsec`. -/
def readIpsec : List String → Except LineFault (Option TunnelSetting)
  | [] => .ok none
  | keyword :: rest =>
    match keyword with
    | "tunnel" =>
      match rest with
      | [number] => (readNumber "ipsec tunnel" number).map fun n => some (.ipsecTunnel n)
      | _ => malformed
    | "sa" => readSa rest
    | "ike" => readIke rest
    | _ => .ok none

/-- Reads the number of a router, which has the form of an address. -/
def readRouterId (word : String) : Except LineFault Ipv4 :=
  match Ipv4.read? word with
  | some id => .ok id
  | none => .error (.invalid "router-id" word)

/-- A layer-two command of unknown form, whatever its start. -/
def malformedL2tp {α : Type} : Except LineFault α :=
  .error (.malformed "l2tp command")

/-- Reads the words after `l2tp`, where no command is passed over. -/
def readL2tp : List String → Except LineFault L2tpSetting
  | [] => malformedL2tp
  | keyword :: rest =>
    match keyword with
    | "hostname" =>
      match rest with
      | [name] => .ok (.hostname name)
      | _ => malformedL2tp
    | "local" =>
      match rest with
      | ["router-id", id] => (readRouterId id).map .localRouterId
      | _ => malformedL2tp
    | "remote" =>
      match rest with
      | ["router-id", id] => (readRouterId id).map .remoteRouterId
      | ["end-id", id] => .ok (.remoteEndId id)
      | _ => malformedL2tp
    | "always-on" =>
      match rest with
      | [value] => (readOnOff "always-on" value).map .alwaysOn
      | _ => malformedL2tp
    | "syslog" =>
      match rest with
      | [value] => (readOnOff "syslog" value).map .syslog
      | _ => malformedL2tp
    | "tunnel" =>
      match rest with
      | ["auth", "off"] => .ok (.tunnelAuth ⟨false, none⟩)
      | ["auth", "on"] => .ok (.tunnelAuth ⟨true, none⟩)
      | ["auth", "on", password] => .ok (.tunnelAuth ⟨true, some password⟩)
      | _ => malformedL2tp
    | "keepalive" =>
      match rest with
      | ["use", "off"] => .ok (.keepalive .off)
      | ["use", "on", interval, retry] => do
        let interval ← readNumber "l2tp keepalive interval" interval
        return .keepalive (.on interval (← readNumber "l2tp keepalive retry" retry))
      | _ => malformedL2tp
    | _ => malformedL2tp

/-- Reads a limit. -/
def readMssLimit (word : String) : Except LineFault MssLimit :=
  if word = "auto" then .ok .auto else (readNumber "tcp mss limit" word).map .value

/-- Reads the words after `ip tunnel`.  The filters are read before the direction. -/
def readIp : List String → Except LineFault (Option TunnelSetting)
  | [] => .ok none
  | keyword :: rest =>
    match keyword with
    | "secure" =>
      match rest with
      | "filter" :: direction :: numbers => do
        let binding ← FilterBinding.readWords numbers
        return some (.secureFilter (← Direction.read direction) binding)
      | _ => malformed
    | "tcp" =>
      match rest with
      | ["mss", "limit", limit] => (readMssLimit limit).map fun limit => some (.tcpMssLimit limit)
      | _ => malformed
    | _ => .ok none

/-- Reads the words of a command that is not a description.  Commands that are
passed over give nothing. -/
def readWords : List String → Except LineFault (Option TunnelSetting)
  | [] => .ok none
  | keyword :: rest =>
    match keyword with
    | "tunnel" => readTunnel rest
    | "ipsec" => readIpsec rest
    | "l2tp" => (readL2tp rest).map fun setting => some (.l2tp setting)
    | "ip" =>
      match rest with
      | "tunnel" :: rest => readIp rest
      | _ => .ok none
    | _ => .ok none

/-- The number of bytes of the word `description`. -/
def descriptionWidth : Nat := 11

/-- Reads a command.  A description is not taken from the words but cut off the
line, so that the blanks inside it stay as they are. -/
def read (text : String) : Except Refusal (Option TunnelSetting) :=
  match wordsOf text with
  | "description" :: _ =>
    match afterByte? descriptionWidth text with
    | some rest => .ok (some (.description (trimmed rest)))
    | none => .error (.stop (.cutInsideCharacter text descriptionWidth))
  | words => refuse (readWords words)

end TunnelSetting

/-! ## Putting settings into records -/

/-- The gateway with one setting changed. -/
def IkeGateway.put (ike : IkeGateway) : IkeSetting → IkeGateway
  | .encryption algorithm => { ike with encryption := some algorithm }
  | .group groups => { ike with group := some groups }
  | .hash algorithm => { ike with hash := some algorithm }
  | .keepalive mode => { ike with keepalive := some mode }
  | .localAddress address => { ike with localAddress := some address }
  | .preSharedKey key => { ike with preSharedKey := some key }
  | .remoteAddress address => { ike with remoteAddress := some address }

/-- The layer-two protocol with one setting changed. -/
def TunnelL2tp.put (l2tp : TunnelL2tp) : L2tpSetting → TunnelL2tp
  | .hostname name => { l2tp with hostname := some name }
  | .localRouterId id => { l2tp with localRouterId := some id }
  | .remoteRouterId id => { l2tp with remoteRouterId := some id }
  | .remoteEndId id => { l2tp with remoteEndId := some id }
  | .alwaysOn value => { l2tp with alwaysOn := some value }
  | .tunnelAuth auth => { l2tp with tunnelAuth := some auth }
  | .keepalive mode => { l2tp with keepalive := some mode }
  | .syslog value => { l2tp with syslog := some value }

namespace Tunnel

/-- The tunnel with one setting changed.  A tunnel speaks to one key exchange
gateway, and is switched under its own number. -/
def put (t : Tunnel) : TunnelSetting → Except LineFault Tunnel
  | .description text => .ok { t with description := some text }
  | .encapsulation e => .ok { t with encapsulation := some e }
  | .endpoint e => .ok { t with endpoint := some e }
  | .ipsecTunnel number => .ok { t with ipsecTunnel := some number }
  | .saPolicy policy =>
    match t.ike with
    | some ike =>
      if ike.id = policy.gateway then .ok { t with saPolicy := some policy }
      else .error (.twoGateways ike.id policy.gateway)
    | none => .ok { t with saPolicy := some policy }
  | .ike gateway setting =>
    let inForce := t.gateway?.getD gateway
    if inForce = gateway then
      .ok { t with ike := some ((t.ike.getD { id := gateway }).put setting) }
    else .error (.twoGateways inForce gateway)
  | .l2tp setting => .ok { t with l2tp := some ((t.l2tp.getD {}).put setting) }
  | .secureFilter .inbound binding => .ok { t with secureFilterIn := some binding }
  | .secureFilter .outbound binding => .ok { t with secureFilterOut := some binding }
  | .tcpMssLimit limit => .ok { t with tcpMssLimit := some limit }
  | .switch on number =>
    if number = t.id then .ok { t with enabled := on }
    else .error (.otherSelection (if on then "enable" else "disable") "tunnel")

/-- A security association that names another gateway than the one with which
keys are exchanged.  This is noticed before the number of the policy is read. -/
def gatewayClash? (t : Tunnel) : List String → Option LineFault
  | "ipsec" :: "sa" :: "policy" :: _ :: gateway :: _ :: _ :: _ => do
    let ike ← t.ike
    let named ← readNumber? gateway
    if ike.id = named then none else some (.twoGateways ike.id named)
  | _ => none

/-- Puts a command into the tunnel. -/
def apply (t : Tunnel) (text : String) : Except Refusal Tunnel :=
  match t.gatewayClash? (wordsOf text) with
  | some fault => .error (.fault fault)
  | none => do
    match ← TunnelSetting.read text with
    | some setting => refuse (t.put setting)
    | none => return t

/-! ## The settings of a record -/

/-- The settings of the gateway, in the order in which they are written. -/
def ikeSettings (ike : IkeGateway) : List IkeSetting :=
  ike.encryption.toList.map .encryption ++ ike.group.toList.map .group ++
    ike.hash.toList.map .hash ++ ike.keepalive.toList.map .keepalive ++
    ike.localAddress.toList.map .localAddress ++ ike.preSharedKey.toList.map .preSharedKey ++
    ike.remoteAddress.toList.map .remoteAddress

/-- The settings of the layer-two protocol, in the order in which they are
written. -/
def l2tpSettings (l2tp : TunnelL2tp) : List L2tpSetting :=
  l2tp.hostname.toList.map .hostname ++ l2tp.localRouterId.toList.map .localRouterId ++
    l2tp.remoteRouterId.toList.map .remoteRouterId ++ l2tp.remoteEndId.toList.map .remoteEndId ++
    l2tp.alwaysOn.toList.map .alwaysOn ++ l2tp.tunnelAuth.toList.map .tunnelAuth ++
    l2tp.keepalive.toList.map .keepalive ++ l2tp.syslog.toList.map .syslog

/-- The settings of a tunnel, in the order in which they are written.  That it is
switched on comes last; that it is switched off is not said. -/
def settings (t : Tunnel) : List TunnelSetting :=
  t.description.toList.map .description ++ t.encapsulation.toList.map .encapsulation ++
    t.endpoint.toList.map .endpoint ++ t.ipsecTunnel.toList.map .ipsecTunnel ++
    t.saPolicy.toList.map .saPolicy ++
    t.ike.toList.flatMap (fun ike => (ikeSettings ike).map (.ike ike.id)) ++
    t.l2tp.toList.flatMap (fun l2tp => (l2tpSettings l2tp).map .l2tp) ++
    t.secureFilterIn.toList.map (.secureFilter .inbound) ++
    t.secureFilterOut.toList.map (.secureFilter .outbound) ++
    t.tcpMssLimit.toList.map .tcpMssLimit ++
    if t.enabled then [.switch true t.id] else []

end Tunnel

end RouterConfig
