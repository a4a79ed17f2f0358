import RouterConfig.Document.Filter
import RouterConfig.Pp.Basic

/-!
# Documents of point-to-point sessions
-/

namespace RouterConfig

instance : ToDocument PpSelector where
  toDocument
    | .number n => .record [("number", toDocument n)]
    | .anonymous => .text "anonymous"

instance : OfDocument PpSelector where
  ofDocument? d := do
    match ← d.alternative? with
    | ("anonymous", .null) => return .anonymous
    | ("number", v) => return .number (← ofDocument? v)
    | _ => none

instance : ToDocument Description where
  toDocument d := .record [("text", toDocument d.text), ("pp_keyword", toDocument d.ppKeyword)]

instance : OfDocument Description where
  ofDocument? d := do
    let d ← d.asRecord? ["text", "pp_keyword"]
    return { text := ← d.required "text", ppKeyword := ← d.orElse "pp_keyword" false }

instance : ToDocument AuthRequest where
  toDocument r := .record [
    ("method", toDocument r.method), ("arrive_only", toDocument r.arriveOnly)]

instance : OfDocument AuthRequest where
  ofDocument? d := do
    let d ← d.asRecord? ["method", "arrive_only"]
    return { method := ← d.required "method", arriveOnly := ← d.orElse "arrive_only" false }

instance : ToDocument AuthName where
  toDocument n := .record [("user", toDocument n.user), ("password", toDocument n.password)]

/-- In a list there is no place for the secret. -/
instance : OfDocument AuthName where
  ofDocument? d := do
    let d ← d.asRecord? ["user"]
    return { user := ← d.required "user", password := ← d.orElse "password" "" }

instance : ToDocument DisconnectTime where
  toDocument
    | .off => .text "off"
    | .seconds n => .record [("seconds", toDocument n)]

instance : OfDocument DisconnectTime where
  ofDocument? d := do
    match ← d.alternative? with
    | ("off", .null) => return .off
    | ("seconds", v) => return .seconds (← ofDocument? v)
    | _ => none

instance : ToDocument AddressPool where
  toDocument
    | .dhcp => .text "dhcp"
    | .range first last =>
      .record [("range", .record [("start", toDocument first), ("end", toDocument last)])]

instance : OfDocument AddressPool where
  ofDocument? d := do
    match ← d.alternative? with
    | ("dhcp", .null) => return .dhcp
    | ("range", v) => return .range (← v.required "start") (← v.required "end")
    | _ => none

instance : ToDocument PpInterface where
  toDocument p := .record [
    ("selector", toDocument p.selector), ("description", toDocument p.description),
    ("pppoe_use", toDocument p.pppoeUse), ("bind", toDocument p.bind),
    ("pppoe_service_name", toDocument p.pppoeServiceName),
    ("pppoe_ac_name", toDocument p.pppoeAcName), ("auth_accept", toDocument p.authAccept),
    ("auth_request", toDocument p.authRequest), ("auth_myname", toDocument p.authMyname),
    ("always_on", toDocument p.alwaysOn), ("disconnect_time", toDocument p.disconnectTime),
    ("ip_address", toDocument p.ipAddress),
    ("remote_address_pool", toDocument p.remoteAddressPool), ("mtu", toDocument p.mtu),
    ("tcp_mss_limit", toDocument p.tcpMssLimit), ("nat_descriptor", toDocument p.natDescriptor),
    ("secure_filter_in", toDocument p.secureFilterIn),
    ("secure_filter_out", toDocument p.secureFilterOut), ("enabled", toDocument p.enabled)]

instance : OfDocument PpInterface where
  ofDocument? d := do
    let d ← d.asRecord? ["selector", "description", "pppoe_use", "bind", "pppoe_service_name",
      "pppoe_ac_name", "auth_accept", "auth_request", "auth_myname", "always_on",
      "disconnect_time", "ip_address", "remote_address_pool", "mtu", "tcp_mss_limit",
      "nat_descriptor", "secure_filter_in", "secure_filter_out", "enabled"]
    return {
      selector := ← d.required "selector"
      description := ← d.optional "description"
      pppoeUse := ← d.optional "pppoe_use"
      bind := ← d.optional "bind"
      pppoeServiceName := ← d.optional "pppoe_service_name"
      pppoeAcName := ← d.optional "pppoe_ac_name"
      authAccept := ← d.optional "auth_accept"
      authRequest := ← d.optional "auth_request"
      authMyname := ← d.optional "auth_myname"
      alwaysOn := ← d.optional "always_on"
      disconnectTime := ← d.optional "disconnect_time"
      ipAddress := ← d.optional "ip_address"
      remoteAddressPool := ← d.optional "remote_address_pool"
      mtu := ← d.optional "mtu"
      tcpMssLimit := ← d.optional "tcp_mss_limit"
      natDescriptor := ← d.optional "nat_descriptor"
      secureFilterIn := ← d.optional "secure_filter_in"
      secureFilterOut := ← d.optional "secure_filter_out"
      enabled := ← d.orElse "enabled" false }

end RouterConfig
