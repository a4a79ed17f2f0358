import RouterConfig.Proofs.Commands.Schedules
import RouterConfig.Proofs.Commands.Selections

/-!
# The commands of a valid record

A record that breaks no rule has commands, and these are meant to reach the device
one line each.  For five of the eight features they always do.  A schedule, a
tunnel and a session can bring texts along that the rules do not look into, and
their commands are seen one for one exactly when these texts keep to their line.
-/

namespace RouterConfig

open Text Rtx

/-- A record of one of the features. -/
inductive FeatureRecord where
  | ipFilter (record : IpFilter)
  | dynamicFilter (record : DynamicFilter)
  | interfaceFilters (record : InterfaceFilters)
  | staticRoute (record : StaticRoute)
  | tunnel (record : Tunnel)
  | pp (record : PpInterface)
  | schedule (record : Schedule)
  | dnsServerSelect (record : DnsServerSelect)

namespace FeatureRecord

/-- The first rule that the record breaks. -/
def validate : FeatureRecord → Option ValidationError
  | .ipFilter r => Feature.validate r
  | .dynamicFilter r => Feature.validate r
  | .interfaceFilters r => Feature.validate r
  | .staticRoute r => Feature.validate r
  | .tunnel r => Feature.validate r
  | .pp r => Feature.validate r
  | .schedule r => Feature.validate r
  | .dnsServerSelect r => Feature.validate r

/-- The commands for the record. -/
def encode : FeatureRecord → Intent → Except ValidationError (List String)
  | .ipFilter r => Feature.encode r
  | .dynamicFilter r => Feature.encode r
  | .interfaceFilters r => Feature.encode r
  | .staticRoute r => Feature.encode r
  | .tunnel r => Feature.encode r
  | .pp r => Feature.encode r
  | .schedule r => Feature.encode r
  | .dnsServerSelect r => Feature.encode r

/-- The texts in the record keep to the lines that they stand on. -/
def KeepsLines : FeatureRecord → Prop
  | .tunnel t => ∀ setting ∈ t.settings, setting.KeepsLine
  | .pp session => ∀ setting ∈ session.settings, setting.KeepsLine
  | .schedule s => s.KeepsLines
  | _ => True

/-- **The commands of a valid record are seen one for one exactly when its texts keep
to their lines.**  The records of five features have no other texts. -/
theorem encode_seen_iff (r : FeatureRecord) (h : r.validate = none) :
    ∃ commands, r.encode .set = .ok commands ∧ (SeenOneForOne commands ↔ r.KeepsLines) := by
  have hwords : ∀ {outcome : Except ValidationError (List String)},
      (∃ commands, outcome = .ok commands ∧ SeenOneForOne commands) →
        ∃ commands, outcome = .ok commands ∧ (SeenOneForOne commands ↔ True) :=
    fun ⟨commands, hencode, hseen⟩ => ⟨commands, hencode, iff_of_true hseen trivial⟩
  cases r with
  | ipFilter f => exact hwords (IpFilter.encode_seenOneForOne h)
  | dynamicFilter f => exact hwords (DynamicFilter.encode_seenOneForOne h)
  | interfaceFilters f => exact hwords (InterfaceFilters.encode_seenOneForOne h)
  | staticRoute r => exact hwords (StaticRoute.encode_seenOneForOne h)
  | tunnel t => exact Tunnel.encode_seenOneForOne_iff h
  | pp session => exact @PpInterface.encode_seenOneForOne_iff session h
  | schedule s => exact @Schedule.encode_seenOneForOne_iff s h
  | dnsServerSelect s => exact hwords (DnsServerSelect.encode_seenOneForOne h)

/-- A tunnel with a shared secret. -/
def withSecret (secret : String) : Tunnel where
  id := 1
  ipsecTunnel := some 101
  ike := some { id := 1, preSharedKey := some (.text secret) }

/-- A shared secret of two words that ends with a point keeps its line. -/
theorem encode_seen_secret :
    (tunnel (withSecret "open sesame.")).validate = none ∧
      ∃ commands, (tunnel (withSecret "open sesame.")).encode .set = .ok commands ∧
        SeenOneForOne commands := by
  have hvalid : (tunnel (withSecret "open sesame.")).validate = none := by decide
  obtain ⟨commands, hencode, hseen⟩ := encode_seen_iff (tunnel (withSecret "open sesame.")) hvalid
  refine ⟨hvalid, commands, hencode, hseen.mpr ?_⟩
  have hsecret : EndsCommand "open sesame." := by decide
  intro setting hmem
  have hsettings : (withSecret "open sesame.").settings =
      [.ipsecTunnel 101, .ike 1 (.preSharedKey (.text "open sesame."))] := rfl
  rw [hsettings] at hmem
  rcases List.mem_cons.mp hmem with rfl | hmem
  · trivial
  · rw [List.mem_singleton.mp hmem]
    exact hsecret

/-- A shared secret with a line feed in it puts a command of its own among those of
its tunnel. -/
theorem encode_seen_injected :
    (tunnel (withSecret "key\nipsec tunnel 102")).validate = none ∧
      ∃ commands, (tunnel (withSecret "key\nipsec tunnel 102")).encode .set = .ok commands ∧
        ¬ SeenOneForOne commands := by
  refine ⟨by decide, ["tunnel select 1", "ipsec tunnel 101",
    "ipsec ike pre-shared-key 1 text key\nipsec tunnel 102", "tunnel select none"], ?_, ?_⟩
  · decide +kernel
  · decide

end FeatureRecord

end RouterConfig
