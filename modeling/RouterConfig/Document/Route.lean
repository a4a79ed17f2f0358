import RouterConfig.Document
import RouterConfig.Route

/-!
# Documents of routes

A gateway has its kind and its value side by side; two kinds have no value.  In a
record the kind is given as any name is.  In a list it is a text, as every tag is
that stands in front of what it tags.
-/

namespace RouterConfig

instance : ToDocument Gateway where
  toDocument
    | .address a => .record [("type", .text "address"), ("value", toDocument a)]
    | .pp n => .record [("type", .text "pp"), ("value", toDocument n)]
    | .tunnel n => .record [("type", .text "tunnel"), ("value", toDocument n)]
    | .dhcp name => .record [("type", .text "dhcp"), ("value", toDocument name)]
    | .interface name => .record [("type", .text "interface"), ("value", toDocument name)]
    | .null => .record [("type", .text "null")]
    | .loopback => .record [("type", .text "loopback")]

/-- The name of the kind of a gateway, and the record that holds its value. -/
def gatewayKind? : Document → Option (String × Document)
  | .list [.text kind, value] => some (kind, .record [("value", value)])
  | .list _ => none
  | d => do return (← (← d.field? "type").name?, d)

instance : OfDocument Gateway where
  ofDocument? d := do
    let (kind, d) ← gatewayKind? d
    match kind with
    | "address" => return .address (← d.required "value")
    | "pp" => return .pp (← d.required "value")
    | "tunnel" => return .tunnel (← d.required "value")
    | "dhcp" => return .dhcp (← d.required "value")
    | "interface" => return .interface (← d.required "value")
    | _ =>
      let .null := (d.field? "value").getD .null | none
      match kind with
      | "null" => return .null
      | "loopback" => return .loopback
      | _ => none

instance : ToDocument NextHop where
  toDocument h := .record [
    ("gateway", toDocument h.gateway), ("weight", toDocument h.weight),
    ("filters", toDocument h.filters), ("keepalive", toDocument h.keepalive),
    ("hide", toDocument h.hide)]

instance : OfDocument NextHop where
  ofDocument? d := do
    let d ← d.asRecord? ["gateway", "weight", "filters", "keepalive", "hide"]
    return {
      gateway := ← d.required "gateway"
      weight := ← d.optional "weight"
      filters := ← d.orElse "filters" []
      keepalive := ← d.optional "keepalive"
      hide := ← d.orElse "hide" false }

instance : ToDocument StaticRoute where
  toDocument r := .record [
    ("network", toDocument r.network), ("next_hops", toDocument r.nextHops)]

instance : OfDocument StaticRoute where
  ofDocument? d := do
    let d ← d.asRecord? ["network", "next_hops"]
    return { network := ← d.required "network", nextHops := ← d.required "next_hops" }

end RouterConfig
