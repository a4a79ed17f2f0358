import RouterConfig.Document
import RouterConfig.Wrap.Options

/-!
# Documents of wrap options

Unlike other records, options are never a list: each of them may be missing, and
its place would not tell which one is meant.
-/

namespace RouterConfig.Wrap

instance : ToDocument Options where
  toDocument o := .record [
    ("digit_split", toDocument o.digitSplit), ("equals_split", toDocument o.equalsSplit),
    ("continuation_marker", toDocument o.continuationMarker),
    ("numeric_continuation", toDocument o.numericContinuation),
    ("join_unrecognized", toDocument o.joinUnrecognized)]

instance : OfDocument Options where
  ofDocument? d := do
    let .record _ := d | none
    let standard : Options := {}
    return {
      digitSplit := ← d.orElse "digit_split" standard.digitSplit
      equalsSplit := ← d.orElse "equals_split" standard.equalsSplit
      continuationMarker := ← d.orElse "continuation_marker" standard.continuationMarker
      numericContinuation := ← d.orElse "numeric_continuation" standard.numericContinuation
      joinUnrecognized := ← d.orElse "join_unrecognized" standard.joinUnrecognized }

end RouterConfig.Wrap
