import RouterConfig.Pp.Setting

/-!
# Rules for sessions

A numbered session runs over some interface.  The one for callers who are not
known need not, and has no number to be checked.
-/

namespace RouterConfig.PpInterface

/-- The methods by which this device proves who it is. -/
def acceptMethods : List String := ["pap", "chap", "mschap", "mschap-v2"]

/-- The methods by which the other side may have to. -/
def requestMethods : List String := ["pap", "chap", "mschap", "mschap-v2", "chap-pap"]

/-- The rules for the selector. -/
def selectorRules (pp : PpInterface) : List Rule :=
  match pp.selector with
  | .number n =>
    [Rule.inRange featureName "selector" n.toNat 1 65535,
      Rule.demand featureName "selector" (pp.pppoeUse.isSome || pp.bind.isSome)
        (.requires "pppoe use or pp bind")]
  | .anonymous => []

/-- The rules for a description. -/
def descriptionRules (d : Description) : List Rule :=
  [Rule.present featureName "description" d.text, Rule.oneLine featureName "description" d.text]

/-- The rules for a field that is one word. -/
def wordRules (field value : String) : List Rule :=
  [Rule.oneWord featureName field value]

/-- The rules for the methods that are accepted. -/
def acceptRules (methods : List String) : List Rule :=
  Rule.demand featureName "auth_accept" (1 ≤ methods.length && methods.length ≤ 2)
    (.invalidValue (phrase methods)) ::
  methods.map fun method =>
    Rule.demand featureName "auth_accept" (acceptMethods.contains method) (.invalidValue method)

/-- The rules for the method that is requested. -/
def requestRules (request : AuthRequest) : List Rule :=
  [Rule.demand featureName "auth_request" (requestMethods.contains request.method)
    (.invalidValue request.method)]

/-- The rules for a pool of addresses: its first address is not above its last. -/
def poolRules : AddressPool → List Rule
  | .range first last =>
    [Rule.demand featureName "remote_address_pool" (first.toNat ≤ last.toNat)
      (.invalidValue (first.render ++ "-" ++ last.render))]
  | .dhcp => []

/-- The rules for the name of this device.  A password is not repeated in an
error. -/
def mynameRules (name : AuthName) : List Rule :=
  [Rule.oneWord featureName "auth_myname.user" name.user,
    Rule.demand featureName "auth_myname.password"
      (!name.password.toList.isEmpty && !hasBlank name.password) (.invalidValue "<redacted>")]

/-- The rules for a time. -/
def disconnectRules : DisconnectTime → List Rule
  | .off => []
  | .seconds count => [Rule.inRange featureName "disconnect_time" count.toNat 1 21474836]

/-- The rules for a session. -/
def rules (pp : PpInterface) : List Rule :=
  pp.selectorRules ++
  Rule.ifPresent pp.description descriptionRules ++
  Rule.ifPresent pp.pppoeUse (wordRules "pppoe_use") ++
  Rule.ifPresent pp.bind (wordRules "bind") ++
  Rule.ifPresent pp.ipAddress (wordRules "ip_address") ++
  Rule.ifPresent pp.authAccept acceptRules ++
  Rule.ifPresent pp.authRequest requestRules ++
  Rule.ifPresent pp.remoteAddressPool poolRules ++
  Rule.ifPresent pp.authMyname mynameRules ++
  Rule.ifPresent pp.mtu (fun bytes => [Rule.inRange featureName "mtu" bytes.toNat 64 1500]) ++
  Rule.ifPresent pp.tcpMssLimit
    (fun bytes => [Rule.inRange featureName "tcp_mss_limit" bytes.toNat 536 1460]) ++
  Rule.ifPresent pp.natDescriptor
    (fun number => [Rule.filterNumber featureName "nat_descriptor" number]) ++
  Rule.ifPresent pp.disconnectTime disconnectRules ++
  Rule.ifPresent pp.secureFilterIn (FilterBinding.rules featureName "secure filter") ++
  Rule.ifPresent pp.secureFilterOut (FilterBinding.rules featureName "secure filter")

/-- The first rule that the session breaks. -/
def validate (pp : PpInterface) : Option ValidationError :=
  firstBroken pp.rules

end RouterConfig.PpInterface
