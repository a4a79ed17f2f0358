import RouterConfig.Document.Filter
import RouterConfig.Tunnel.Basic

/-!
# Documents of tunnels
-/

namespace RouterConfig

instance : ToDocument Encapsulation := ⟨fun e => .text e.word⟩

instance : OfDocument Encapsulation where
  ofDocument? d := do (Encapsulation.read (← d.name?)).toOption

instance : ToDocument Endpoint where
  toDocument e := .record [
    ("local", toDocument e.localAddress), ("remote", toDocument e.remoteAddress)]

instance : OfDocument Endpoint where
  ofDocument? d := do
    let d ← d.asRecord? ["local", "remote"]
    return { localAddress := ← d.optional "local", remoteAddress := ← d.required "remote" }

instance : ToDocument SaPolicy where
  toDocument p := .record [
    ("id", toDocument p.id), ("gateway", toDocument p.gateway),
    ("protocol", toDocument p.protocol), ("algorithms", toDocument p.algorithms)]

instance : OfDocument SaPolicy where
  ofDocument? d := do
    let d ← d.asRecord? ["id", "gateway", "protocol", "algorithms"]
    return {
      id := ← d.required "id"
      gateway := ← d.required "gateway"
      protocol := ← d.required "protocol"
      algorithms := ← d.required "algorithms" }

instance : ToDocument PreSharedKey where
  toDocument
    | .text secret => .record [("text", toDocument secret)]
    | .encrypted digits => .record [("encrypted", toDocument digits)]

/-- A key is given in one way only. -/
instance : OfDocument PreSharedKey where
  ofDocument? d :=
    match d.field? "text", d.field? "encrypted" with
    | some v, none => (ofDocument? v).map .text
    | none, some v => (ofDocument? v).map .encrypted
    | _, _ => none

instance : ToDocument IkeKeepalive where
  toDocument
    | .dpd interval retry => .record [
        ("mode", .text "dpd"), ("interval", toDocument interval), ("retry", toDocument retry)]
    | .heartbeat interval retry => .record [
        ("mode", .text "heartbeat"), ("interval", toDocument interval),
        ("retry", toDocument retry)]
    | .off => .record [("mode", .text "off")]

instance : OfDocument IkeKeepalive where
  ofDocument? d := do
    match ← d.tagged? "mode" with
    | ("dpd", d) =>
      let d ← d.asFullRecord? ["interval", "retry"]
      return .dpd (← d.required "interval") (← d.optional "retry")
    | ("heartbeat", d) =>
      let d ← d.asRecord? ["interval", "retry"]
      return .heartbeat (← d.required "interval") (← d.required "retry")
    | ("off", d) => (d.asRecord? []).map fun _ => .off
    | _ => none

instance : ToDocument IkeGateway where
  toDocument g := .record [
    ("id", toDocument g.id), ("local_address", toDocument g.localAddress),
    ("remote_address", toDocument g.remoteAddress),
    ("pre_shared_key", toDocument g.preSharedKey), ("keepalive", toDocument g.keepalive),
    ("encryption", toDocument g.encryption), ("hash", toDocument g.hash),
    ("group", toDocument g.group)]

/-- In a list there is no place for the secret. -/
instance : OfDocument IkeGateway where
  ofDocument? d := do
    let d ← d.asRecord? ["id", "local_address", "remote_address", "keepalive", "encryption",
      "hash", "group"]
    return {
      id := ← d.required "id"
      localAddress := ← d.optional "local_address"
      remoteAddress := ← d.optional "remote_address"
      preSharedKey := ← d.optional "pre_shared_key"
      keepalive := ← d.optional "keepalive"
      encryption := ← d.optional "encryption"
      hash := ← d.optional "hash"
      group := ← d.optional "group" }

instance : ToDocument TunnelAuth where
  toDocument a := .record [
    ("enabled", toDocument a.enabled), ("password", toDocument a.password)]

instance : OfDocument TunnelAuth where
  ofDocument? d := do
    return { enabled := ← d.required "enabled", password := ← d.optional "password" }

instance : ToDocument L2tpKeepalive where
  toDocument
    | .on interval retry => .record [
        ("mode", .text "on"), ("interval", toDocument interval), ("retry", toDocument retry)]
    | .off => .record [("mode", .text "off")]

instance : OfDocument L2tpKeepalive where
  ofDocument? d := do
    match ← d.tagged? "mode" with
    | ("on", d) =>
      let d ← d.asRecord? ["interval", "retry"]
      return .on (← d.required "interval") (← d.required "retry")
    | ("off", d) => (d.asRecord? []).map fun _ => .off
    | _ => none

instance : ToDocument TunnelL2tp where
  toDocument l := .record [
    ("hostname", toDocument l.hostname), ("local_router_id", toDocument l.localRouterId),
    ("remote_router_id", toDocument l.remoteRouterId),
    ("remote_end_id", toDocument l.remoteEndId), ("always_on", toDocument l.alwaysOn),
    ("tunnel_auth", toDocument l.tunnelAuth), ("keepalive", toDocument l.keepalive),
    ("syslog", toDocument l.syslog)]

/-- In a list there is no place for the secret. -/
instance : OfDocument TunnelL2tp where
  ofDocument? d := do
    let d ← d.asRecord? ["hostname", "local_router_id", "remote_router_id", "remote_end_id",
      "always_on", "keepalive", "syslog"]
    return {
      hostname := ← d.optional "hostname"
      localRouterId := ← d.optional "local_router_id"
      remoteRouterId := ← d.optional "remote_router_id"
      remoteEndId := ← d.optional "remote_end_id"
      alwaysOn := ← d.optional "always_on"
      tunnelAuth := ← d.optional "tunnel_auth"
      keepalive := ← d.optional "keepalive"
      syslog := ← d.optional "syslog" }

instance : ToDocument MssLimit where
  toDocument
    | .auto => .text "auto"
    | .value n => .record [("value", toDocument n)]

instance : OfDocument MssLimit where
  ofDocument? d := do
    match ← d.alternative? with
    | ("auto", .null) => return .auto
    | ("value", v) => return .value (← ofDocument? v)
    | _ => none

instance : ToDocument Tunnel where
  toDocument t := .record [
    ("id", toDocument t.id), ("description", toDocument t.description),
    ("encapsulation", toDocument t.encapsulation), ("endpoint", toDocument t.endpoint),
    ("ipsec_tunnel", toDocument t.ipsecTunnel), ("sa_policy", toDocument t.saPolicy),
    ("ike", toDocument t.ike), ("l2tp", toDocument t.l2tp),
    ("secure_filter_in", toDocument t.secureFilterIn),
    ("secure_filter_out", toDocument t.secureFilterOut),
    ("tcp_mss_limit", toDocument t.tcpMssLimit), ("enabled", toDocument t.enabled)]

instance : OfDocument Tunnel where
  ofDocument? d := do
    let d ← d.asRecord? ["id", "description", "encapsulation", "endpoint", "ipsec_tunnel",
      "sa_policy", "ike", "l2tp", "secure_filter_in", "secure_filter_out", "tcp_mss_limit",
      "enabled"]
    return {
      id := ← d.required "id"
      description := ← d.optional "description"
      encapsulation := ← d.optional "encapsulation"
      endpoint := ← d.optional "endpoint"
      ipsecTunnel := ← d.optional "ipsec_tunnel"
      saPolicy := ← d.optional "sa_policy"
      ike := ← d.optional "ike"
      l2tp := ← d.optional "l2tp"
      secureFilterIn := ← d.optional "secure_filter_in"
      secureFilterOut := ← d.optional "secure_filter_out"
      tcpMssLimit := ← d.optional "tcp_mss_limit"
      enabled := ← d.orElse "enabled" false }

end RouterConfig
