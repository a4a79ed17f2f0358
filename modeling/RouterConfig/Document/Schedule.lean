import RouterConfig.Document
import RouterConfig.Schedule

/-!
# Documents of schedules
-/

namespace RouterConfig

instance : ToDocument PpAction := ⟨fun a => .text a.word⟩

instance : OfDocument PpAction where
  ofDocument? d := do (PpAction.read (← d.name?)).toOption

instance : ToDocument Trigger where
  toDocument
    | .startup => .record [("kind", .text "startup")]
    | .daily time => .record [("kind", .text "daily"), ("time", toDocument time)]
    | .dated date time => .record [
        ("kind", .text "at"), ("date", toDocument date), ("time", toDocument time)]
    | .session days time action => .record [
        ("kind", .text "pp"), ("days", toDocument days), ("time", toDocument time),
        ("action", toDocument action)]

instance : OfDocument Trigger where
  ofDocument? d := do
    match ← d.tagged? "kind" with
    | ("startup", d) => (d.asRecord? []).map fun _ => .startup
    | ("daily", d) =>
      let d ← d.asRecord? ["time"]
      return .daily (← d.required "time")
    | ("at", d) =>
      let d ← d.asRecord? ["date", "time"]
      return .dated (← d.required "date") (← d.required "time")
    | ("pp", d) =>
      let d ← d.asRecord? ["days", "time", "action"]
      let action ← (← d.field? "action").nameInTagged?
      return .session (← d.required "days") (← d.required "time")
        (← (PpAction.read action).toOption)
    | _ => none

instance : ToDocument Schedule where
  toDocument s := .record [
    ("id", toDocument s.id), ("trigger", toDocument s.trigger),
    ("commands", toDocument s.commands), ("enabled", toDocument s.enabled)]

instance : OfDocument Schedule where
  ofDocument? d := do
    let d ← d.asRecord? ["id", "trigger", "commands", "enabled"]
    return {
      id := ← d.required "id"
      trigger := ← d.required "trigger"
      commands := ← d.orElse "commands" []
      enabled := ← d.orElse "enabled" true }

instance : ToDocument ScheduleKey where
  toDocument
    | .numbered id => .record [("at", toDocument id)]
    | .session pp days time => .record [
        ("pp", toDocument pp), ("days", toDocument days), ("time", toDocument time)]

end RouterConfig
