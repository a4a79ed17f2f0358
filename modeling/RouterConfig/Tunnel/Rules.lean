import RouterConfig.Tunnel.Basic

/-!
# Rules for tunnels

Some settings of a tunnel make sense only beside others.  Key exchange and the
choice of algorithms need a security association, the layer-two settings need a
layer-two encapsulation, and a few of these need its third version.
-/

namespace RouterConfig.Tunnel

/-- The rules for a description. -/
def descriptionRules (description : String) : List Rule :=
  [Rule.present featureName "description" description,
    Rule.oneLine featureName "description" description]

/-- A setting that needs a security association. -/
def needsIpsec (t : Tunnel) (field : String) : Rule :=
  Rule.demand featureName field t.ipsecTunnel.isSome (.requires "ipsec tunnel")

/-- The rules for the security association of a tunnel. -/
def saPolicyRules (t : Tunnel) (policy : SaPolicy) : List Rule :=
  [t.needsIpsec "sa_policy",
    Rule.inRange featureName "sa_policy.id" policy.id.toNat 1 65535,
    Rule.oneWord featureName "sa_policy.protocol" policy.protocol,
    Rule.demand featureName "sa_policy.algorithms" (!policy.algorithms.isEmpty) .missing] ++
  Rule.ifPresent t.ike (fun ike =>
    [Rule.demand featureName "sa_policy" (policy.gateway == ike.id)
      (.requires ("ike gateway " ++ Text.numeral ike.id))])

/-- The rules for a shared secret; one that is stored by a device is not looked
into. -/
def preSharedKeyRules : PreSharedKey → List Rule
  | .text secret => [Rule.present featureName "ike.pre_shared_key" secret]
  | .encrypted _ => []

/-- The rules for the groups of a key exchange. -/
def groupRules (groups : List String) : List Rule :=
  Rule.demand featureName "ike.group" (1 ≤ groups.length && groups.length ≤ 2)
    (.invalidValue (phrase groups)) ::
  groups.map (Rule.oneWord featureName "ike.group")

/-- The rule for an interval in seconds. -/
def intervalRule (block : String) (seconds : UInt32) : Rule :=
  Rule.inRange featureName (block ++ ".keepalive.interval") seconds.toNat 1 600

/-- The rule for a number of retries. -/
def retryRule (block : String) (count : UInt32) : Rule :=
  Rule.inRange featureName (block ++ ".keepalive.retry") count.toNat 1 50

/-- The rules for a keepalive mode of the key exchange. -/
def ikeKeepaliveRules : IkeKeepalive → List Rule
  | .dpd interval retry =>
    intervalRule "ike" interval :: Rule.ifPresent retry fun count => [retryRule "ike" count]
  | .heartbeat interval retry => [intervalRule "ike" interval, retryRule "ike" retry]
  | .off => []

/-- The rules for the key exchange of a tunnel. -/
def ikeRules (t : Tunnel) (ike : IkeGateway) : List Rule :=
  [t.needsIpsec "ike"] ++
  Rule.ifPresent ike.preSharedKey preSharedKeyRules ++
  Rule.ifPresent ike.encryption
    (fun algorithm => [Rule.oneWord featureName "ike.encryption" algorithm]) ++
  Rule.ifPresent ike.hash (fun algorithm => [Rule.oneWord featureName "ike.hash" algorithm]) ++
  Rule.ifPresent ike.group groupRules ++
  Rule.ifPresent ike.keepalive ikeKeepaliveRules

/-- The first setting that only the third version of the layer-two protocol has. -/
def thirdVersionField? (l2tp : TunnelL2tp) : Option String :=
  if l2tp.localRouterId.isSome then some "l2tp.local_router_id"
  else if l2tp.remoteRouterId.isSome then some "l2tp.remote_router_id"
  else if l2tp.remoteEndId.isSome then some "l2tp.remote_end_id"
  else if l2tp.tunnelAuth.isSome then some "l2tp.tunnel_auth"
  else none

/-- The rule for the encapsulation beside layer-two settings. -/
def layerTwoRule (encapsulation : Option Encapsulation) (l2tp : TunnelL2tp) : Rule :=
  match encapsulation with
  | some .l2tpv3 => none
  | some .l2tp =>
    (thirdVersionField? l2tp).map fun field =>
      ⟨featureName, field, .requires "encapsulation l2tpv3"⟩
  | _ => some ⟨featureName, "l2tp", .requires "encapsulation l2tp or l2tpv3"⟩

/-- The rules for the keepalive of the layer-two protocol. -/
def l2tpKeepaliveRules : L2tpKeepalive → List Rule
  | .on interval retry => [intervalRule "l2tp" interval, retryRule "l2tp" retry]
  | .off => []

/-- The rules for the layer-two protocol of a tunnel. -/
def l2tpRules (t : Tunnel) (l2tp : TunnelL2tp) : List Rule :=
  layerTwoRule t.encapsulation l2tp :: Rule.ifPresent l2tp.keepalive l2tpKeepaliveRules

/-- The rules for a limit of segments. -/
def mssRules : MssLimit → List Rule
  | .auto => []
  | .value bytes => [Rule.inRange featureName "tcp_mss_limit" bytes.toNat 536 1460]

/-- The rules for a tunnel. -/
def rules (t : Tunnel) : List Rule :=
  [Rule.inRange featureName "id" t.id.toNat 1 6000] ++
  Rule.ifPresent t.description descriptionRules ++
  Rule.ifPresent t.ipsecTunnel
    (fun number => [Rule.inRange featureName "ipsec_tunnel" number.toNat 1 65535]) ++
  Rule.ifPresent t.saPolicy t.saPolicyRules ++
  Rule.ifPresent t.ike t.ikeRules ++
  Rule.ifPresent t.l2tp t.l2tpRules ++
  Rule.ifPresent t.tcpMssLimit mssRules ++
  Rule.ifPresent t.secureFilterIn (FilterBinding.rules featureName "secure filter") ++
  Rule.ifPresent t.secureFilterOut (FilterBinding.rules featureName "secure filter")

/-- The first rule that the tunnel breaks. -/
def validate (t : Tunnel) : Option ValidationError :=
  firstBroken t.rules

end RouterConfig.Tunnel
