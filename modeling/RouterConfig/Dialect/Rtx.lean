import RouterConfig.Dialect

/-!
# The RTX dialect

Routers of the RTX series print their configuration as flat commands.  Commands
of one tunnel stand under `tunnel select N`, those of one point-to-point session
under `pp select N` or `pp select anonymous`, indented by one space.  Commands
typed in again are not indented, so the words they start with count as well.

    ip route default gateway pp 1
    pp select 1
     pppoe use lan2
     pp enable 1
    tunnel select 1
     tunnel encapsulation l2tpv3
     tunnel enable 1
-/

namespace RouterConfig.Rtx

/-- The kind of the groups under `tunnel select`. -/
def tunnelKind : String := "tunnel"

/-- The kind of the groups under `pp select`. -/
def ppKind : String := "pp"

/-- Tunnels are selected by number. -/
def tunnelContext : ContextDefinition where
  kind := tunnelKind
  header := ⟨"tunnel select ", some .digits, true⟩
  leave := [⟨"tunnel select none", none, false⟩]
  trailer := [⟨"tunnel enable ", some .digits, false⟩, ⟨"tunnel disable ", some .digits, false⟩]
  memberStarts := ["tunnel ", "ipsec ", "l2tp ", "description ", "ip tunnel ", "ipv6 tunnel "]

/-- Sessions are selected by number, or all unknown callers at once. -/
def ppContext : ContextDefinition where
  kind := ppKind
  header := ⟨"pp select ", some (.digitsOr "anonymous"), true⟩
  leave := [⟨"pp select none", none, false⟩]
  trailer :=
    [⟨"pp enable ", some (.digitsOr "anonymous"), false⟩,
      ⟨"pp disable ", some (.digitsOr "anonymous"), false⟩]
  memberStarts := ["pp ", "pppoe ", "ppp ", "ip pp ", "ipv6 pp ", "description "]

/-- The words that start a command. -/
def commandStarts : List String :=
  ["administrator", "bgp", "bridge", "console", "description", "dhcp", "dns", "ethernet", "httpd",
    "ip", "ipsec", "ipv6", "l2tp", "lan", "login", "nat", "no", "ntpdate", "ospf", "pp", "ppp",
    "pppoe", "provider", "schedule", "security", "snmp", "sshd", "statistics", "switch", "syslog",
    "system", "telnetd", "timezone", "tunnel", "upnp", "user", "vlan"]

/-- What is known about the text of RTX routers. -/
def dialect : Dialect where
  name := "yamaha_rtx"
  contexts := [tunnelContext, ppContext]
  commandStarts := commandStarts
  failureMarks :=
    ["Error:", "Command failed:", "Invalid parameter", "Permission denied", "not found"]
  notFoundMarks := ["not found"]

end RouterConfig.Rtx
