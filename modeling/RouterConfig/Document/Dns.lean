import RouterConfig.Dns
import RouterConfig.Document

/-!
# Documents of name server choices
-/

namespace RouterConfig

instance : ToDocument DnsServer where
  toDocument s := .record [("address", toDocument s.address), ("edns", toDocument s.edns)]

instance : OfDocument DnsServer where
  ofDocument? d := do
    let d ← d.asRecord? ["address", "edns"]
    return { address := ← d.required "address", edns := ← d.optional "edns" }

instance : ToDocument DnsServerSelect where
  toDocument s := .record [
    ("id", toDocument s.id), ("servers", toDocument s.servers),
    ("record_type", toDocument s.recordType), ("query_pattern", toDocument s.queryPattern),
    ("original_sender", toDocument s.originalSender), ("restrict_pp", toDocument s.restrictPp)]

instance : OfDocument DnsServerSelect where
  ofDocument? d := do
    let d ← d.asRecord? ["id", "servers", "record_type", "query_pattern", "original_sender",
      "restrict_pp"]
    return {
      id := ← d.required "id"
      servers := ← d.required "servers"
      recordType := ← d.optional "record_type"
      queryPattern := ← d.required "query_pattern"
      originalSender := ← d.optional "original_sender"
      restrictPp := ← d.optional "restrict_pp" }

end RouterConfig
