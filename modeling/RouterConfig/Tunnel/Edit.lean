import RouterConfig.Edit
import RouterConfig.Tunnel.Setting

/-!
# Tunnels that are changed in place

Each command for a tunnel reads its words from one side to the other and changes the tunnel when
it comes to it.  Two of them do more than to set one field.  A command for the key exchange makes
the block for it, if there is none, and then changes a field in there.  A command for the
layer-two protocol changes a copy of the block, which takes the place of the block at the end.
-/

namespace RouterConfig.Tunnel

open Text Edit

/-! ## The blocks -/

/-- A gateway that is not the one in force, if there is one. -/
def otherGateway? (inForce? : Option UInt32) (gateway : UInt32) : Option LineFault := do
  let inForce ← inForce?
  if inForce = gateway then none else some (.twoGateways inForce gateway)

/-- Makes the block for the key exchange with a gateway, if there is none. -/
def openGateway (gateway : UInt32) : Edit LineFault Tunnel Unit := do
  check fun t => otherGateway? t.gateway? gateway
  modify fun t => { t with ike := some (t.ike.getD { id := gateway }) }

/-- Changes a field of the key exchange with the gateway that the word names. -/
def editGateway (gateway : String) (setting : IkeSetting) : Edit LineFault Tunnel Unit := do
  openGateway (← reads (readNumber "ike gateway" gateway))
  modify fun t => { t with ike := t.ike.map fun ike => ike.put setting }

/-- A key exchange command of known start and unknown form. -/
def refuseIke : Edit LineFault Tunnel Unit :=
  throw (.malformed "ipsec ike command")

/-- Runs the words after `ipsec ike`. -/
def editIke : List String → Edit LineFault Tunnel Unit
  | [] => pure ()
  | keyword :: rest =>
    match keyword with
    | "local" =>
      match rest with
      | ["address", gateway, address] => editGateway gateway (.localAddress address)
      | _ => refuseIke
    | "remote" =>
      match rest with
      | ["address", gateway, address] => editGateway gateway (.remoteAddress address)
      | _ => refuseIke
    | "pre-shared-key" =>
      match rest with
      | gateway :: "text" :: first :: others =>
        editGateway gateway (.preSharedKey (.text (phrase (first :: others))))
      | [gateway, "encrypted", digits] => editGateway gateway (.preSharedKey (.encrypted digits))
      | _ => refuseIke
    | "keepalive" =>
      match rest with
      | "use" :: gateway :: mode => do
        let mode ← reads (TunnelSetting.readIkeKeepalive mode)
        editGateway gateway (.keepalive mode)
      | _ => refuseIke
    | "encryption" =>
      match rest with
      | [gateway, algorithm] => editGateway gateway (.encryption algorithm)
      | _ => refuseIke
    | "hash" =>
      match rest with
      | [gateway, algorithm] => editGateway gateway (.hash algorithm)
      | _ => refuseIke
    | "group" =>
      match rest with
      | [gateway, first] => editGateway gateway (.group [first])
      | [gateway, first, second] => editGateway gateway (.group [first, second])
      | _ => refuseIke
    | _ => pure ()

/-- The block of the layer-two protocol, as the words after `l2tp` change it. -/
def changeL2tp (l2tp : TunnelL2tp) : List String → Except LineFault TunnelL2tp
  | [] => TunnelSetting.malformedL2tp
  | keyword :: rest =>
    match keyword with
    | "hostname" =>
      match rest with
      | [name] => .ok { l2tp with hostname := some name }
      | _ => TunnelSetting.malformedL2tp
    | "local" =>
      match rest with
      | ["router-id", id] => do
        return { l2tp with localRouterId := some (← TunnelSetting.readRouterId id) }
      | _ => TunnelSetting.malformedL2tp
    | "remote" =>
      match rest with
      | ["router-id", id] => do
        return { l2tp with remoteRouterId := some (← TunnelSetting.readRouterId id) }
      | ["end-id", id] => .ok { l2tp with remoteEndId := some id }
      | _ => TunnelSetting.malformedL2tp
    | "always-on" =>
      match rest with
      | [value] => do return { l2tp with alwaysOn := some (← readOnOff "always-on" value) }
      | _ => TunnelSetting.malformedL2tp
    | "syslog" =>
      match rest with
      | [value] => do return { l2tp with syslog := some (← readOnOff "syslog" value) }
      | _ => TunnelSetting.malformedL2tp
    | "tunnel" =>
      match rest with
      | ["auth", "off"] => .ok { l2tp with tunnelAuth := some ⟨false, none⟩ }
      | ["auth", "on"] => .ok { l2tp with tunnelAuth := some ⟨true, none⟩ }
      | ["auth", "on", password] => .ok { l2tp with tunnelAuth := some ⟨true, some password⟩ }
      | _ => TunnelSetting.malformedL2tp
    | "keepalive" =>
      match rest with
      | ["use", "off"] => .ok { l2tp with keepalive := some .off }
      | ["use", "on", interval, retry] => do
        let interval ← readNumber "l2tp keepalive interval" interval
        let retry ← readNumber "l2tp keepalive retry" retry
        return { l2tp with keepalive := some (.on interval retry) }
      | _ => TunnelSetting.malformedL2tp
    | _ => TunnelSetting.malformedL2tp

/-- Runs the words after `l2tp`. -/
def editL2tp (words : List String) : Edit LineFault Tunnel Unit := do
  let l2tp ← reads (changeL2tp ((← get).l2tp.getD {}) words)
  modify fun t => { t with l2tp := some l2tp }

/-! ## The other words -/

/-- A command of known start and unknown form. -/
def refuseForm : Edit LineFault Tunnel Unit :=
  throw (.malformed "command")

/-- Runs the words after `tunnel enable` or `tunnel disable`. -/
def editSwitch (on : Bool) : List String → Edit LineFault Tunnel Unit
  | [number] => do
    let number ← reads (readNumber "tunnel number" number)
    check fun t =>
      if number = t.id then none
      else some (.otherSelection (if on then "enable" else "disable") "tunnel")
    modify fun t => { t with enabled := on }
  | _ => refuseForm

/-- Runs the words after `tunnel`. -/
def editTunnel : List String → Edit LineFault Tunnel Unit
  | [] => pure ()
  | keyword :: rest =>
    match keyword with
    | "encapsulation" =>
      match rest with
      | [word] => do
        let e ← reads (Encapsulation.read word)
        modify fun t => { t with encapsulation := some e }
      | _ => refuseForm
    | "endpoint" =>
      match rest with
      | ["address", remote] => modify fun t => { t with endpoint := some ⟨none, remote⟩ }
      | ["address", near, remote] => modify fun t => { t with endpoint := some ⟨some near, remote⟩ }
      | _ => refuseForm
    | "enable" => editSwitch true rest
    | "disable" => editSwitch false rest
    | _ => pure ()

/-- Runs the words after `ipsec sa`.  The gateway is checked before the number of the policy is
read. -/
def editSa : List String → Edit LineFault Tunnel Unit
  | "policy" :: id :: gateway :: protocol :: first :: algorithms => do
    let gateway ← reads (readNumber "sa policy gateway" gateway)
    check fun t => otherGateway? (t.ike.map IkeGateway.id) gateway
    let id ← reads (readNumber "sa policy id" id)
    modify fun t => { t with saPolicy := some ⟨id, gateway, protocol, first :: algorithms⟩ }
  | _ => refuseForm

/-- Runs the words after `ipsec`. -/
def editIpsec : List String → Edit LineFault Tunnel Unit
  | [] => pure ()
  | keyword :: rest =>
    match keyword with
    | "tunnel" =>
      match rest with
      | [number] => do
        let n ← reads (readNumber "ipsec tunnel" number)
        modify fun t => { t with ipsecTunnel := some n }
      | _ => refuseForm
    | "sa" => editSa rest
    | "ike" => editIke rest
    | _ => pure ()

/-- Runs the words after `ip tunnel`. -/
def editIp : List String → Edit LineFault Tunnel Unit
  | [] => pure ()
  | keyword :: rest =>
    match keyword with
    | "secure" =>
      match rest with
      | "filter" :: direction :: numbers => do
        let binding ← reads (FilterBinding.readWords numbers)
        match ← reads (Direction.read direction) with
        | .inbound => modify fun t => { t with secureFilterIn := some binding }
        | .outbound => modify fun t => { t with secureFilterOut := some binding }
      | _ => refuseForm
    | "tcp" =>
      match rest with
      | ["mss", "limit", limit] => do
        let limit ← reads (TunnelSetting.readMssLimit limit)
        modify fun t => { t with tcpMssLimit := some limit }
      | _ => refuseForm
    | _ => pure ()

/-- Runs the words of a command that is not a description. -/
def editWords : List String → Edit LineFault Tunnel Unit
  | [] => pure ()
  | keyword :: rest =>
    match keyword with
    | "tunnel" => editTunnel rest
    | "ipsec" => editIpsec rest
    | "l2tp" => editL2tp rest
    | "ip" =>
      match rest with
      | "tunnel" :: rest => editIp rest
      | _ => pure ()
    | _ => pure ()

/-- Runs a command. -/
def edit (text : String) : Edit Refusal Tunnel Unit :=
  match wordsOf text with
  | "description" :: _ =>
    match afterByte? TunnelSetting.descriptionWidth text with
    | some rest => modify fun t => { t with description := some (trimmed rest) }
    | none => throw (.stop (.cutInsideCharacter text TunnelSetting.descriptionWidth))
  | words => (editWords words).adaptExcept .fault

end RouterConfig.Tunnel
