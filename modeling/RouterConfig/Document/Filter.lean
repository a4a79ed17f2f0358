import RouterConfig.Document
import RouterConfig.Filter.Dynamic
import RouterConfig.Filter.Interface
import RouterConfig.Filter.Static

/-!
# Documents of filters
-/

namespace RouterConfig

instance : ToDocument IpFamily where
  toDocument
    | .ipv4 => .text "ipv4"
    | .ipv6 => .text "ipv6"

instance : OfDocument IpFamily where
  ofDocument? d := do
    match ← d.name? with
    | "ipv4" => some .ipv4
    | "ipv6" => some .ipv6
    | _ => none

instance : ToDocument FilterAction := ⟨fun a => .text a.word⟩

instance : OfDocument FilterAction where
  ofDocument? d := do (FilterAction.read (← d.name?)).toOption

instance : ToDocument IpFilter where
  toDocument f := .record [
    ("family", toDocument f.family), ("number", toDocument f.number),
    ("action", toDocument f.action), ("source", toDocument f.source),
    ("destination", toDocument f.destination), ("protocol", toDocument f.protocol),
    ("source_port", toDocument f.sourcePort),
    ("destination_port", toDocument f.destinationPort),
    ("established", toDocument f.established)]

instance : OfDocument IpFilter where
  ofDocument? d := do
    let d ← d.asRecord? ["family", "number", "action", "source", "destination", "protocol",
      "source_port", "destination_port", "established"]
    return {
      family := ← d.required "family"
      number := ← d.required "number"
      action := ← d.required "action"
      source := ← d.required "source"
      destination := ← d.required "destination"
      protocol := ← d.required "protocol"
      sourcePort := ← d.optional "source_port"
      destinationPort := ← d.optional "destination_port"
      established := ← d.orElse "established" false }

instance : ToDocument DynamicRule where
  toDocument
    | .protocol name => .record [("form", .text "protocol"), ("protocol", toDocument name)]
    | .filters watched inbound outbound => .record [
        ("form", .text "filters"), ("filters", toDocument watched),
        ("inbound", toDocument inbound), ("outbound", toDocument outbound)]

instance : OfDocument DynamicRule where
  ofDocument? d := do
    match ← d.tagged? "form" with
    | ("protocol", d) =>
      let d ← d.asRecord? ["protocol"]
      return .protocol (← d.required "protocol")
    | ("filters", d) =>
      let d ← d.asRecord? ["filters", "inbound", "outbound"]
      return .filters (← d.required "filters") (← d.optional "inbound") (← d.optional "outbound")
    | _ => none

instance : ToDocument DynamicFilter where
  toDocument f := .record [
    ("family", toDocument f.family), ("number", toDocument f.number),
    ("source", toDocument f.source), ("destination", toDocument f.destination),
    ("rule", toDocument f.rule), ("syslog", toDocument f.syslog),
    ("timeout", toDocument f.timeout)]

instance : OfDocument DynamicFilter where
  ofDocument? d := do
    let d ← d.asRecord? ["family", "number", "source", "destination", "rule", "syslog", "timeout"]
    return {
      family := ← d.required "family"
      number := ← d.required "number"
      source := ← d.required "source"
      destination := ← d.required "destination"
      rule := ← d.required "rule"
      syslog := ← d.optional "syslog"
      timeout := ← d.optional "timeout" }

/-- The fallback key of a dynamic filter is one list of four. -/
instance : ToDocument (IpFamily × String × String × DynamicRule) where
  toDocument key := .list [toDocument key.1, toDocument key.2.1, toDocument key.2.2.1,
    toDocument key.2.2.2]

instance : ToDocument FilterBinding where
  toDocument b := .record [("filters", toDocument b.filters), ("dynamic", toDocument b.dynamic)]

instance : OfDocument FilterBinding where
  ofDocument? d := do
    let d ← d.asRecord? ["filters", "dynamic"]
    return { filters := ← d.required "filters", dynamic := ← d.orElse "dynamic" [] }

instance : ToDocument FilterFamily where
  toDocument
    | .ip => .text "ip"
    | .ipv6 => .text "ipv6"
    | .ethernet => .text "ethernet"

instance : OfDocument FilterFamily where
  ofDocument? d := do
    match ← d.name? with
    | "ip" => some .ip
    | "ipv6" => some .ipv6
    | "ethernet" => some .ethernet
    | _ => none

instance : ToDocument InterfaceFilters where
  toDocument r := .record [
    ("family", toDocument r.family), ("interface", toDocument r.interface),
    ("inbound", toDocument r.inbound), ("outbound", toDocument r.outbound)]

instance : OfDocument InterfaceFilters where
  ofDocument? d := do
    let d ← d.asRecord? ["family", "interface", "inbound", "outbound"]
    return {
      family := ← d.required "family"
      interface := ← d.required "interface"
      inbound := ← d.optional "inbound"
      outbound := ← d.optional "outbound" }

end RouterConfig
