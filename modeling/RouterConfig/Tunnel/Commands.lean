import RouterConfig.Dialect.Rtx
import RouterConfig.Reconcilable
import RouterConfig.Tunnel.Rules
import RouterConfig.Tunnel.Setting

/-!
# The commands of a tunnel

The commands for a tunnel select it, say its settings one by one, and leave the
selection.  Reading them back is reading the settings one by one into an empty
tunnel.

    tunnel select 1
     description branch-office
     tunnel encapsulation l2tpv3
     ipsec tunnel 101
      ipsec sa policy 101 1 esp aes-cbc sha-hmac
      ipsec ike pre-shared-key 1 text secret
     l2tp remote end-id branch
     tunnel enable 1

A group of commands in which one is wrong makes no tunnel.
-/

namespace RouterConfig.Tunnel

open Text

/-- How the command starts that sets a field. -/
def blame (field : String) : String :=
  if field = "description" then "description"
  else if field = "ipsec_tunnel" then "ipsec tunnel"
  else if field = "tcp_mss_limit" then "ip tunnel tcp mss"
  else if field = "secure filter" then "ip tunnel secure filter"
  else if startsWith "sa_policy" field then "ipsec sa policy"
  else if startsWith "ike" field then "ipsec ike"
  else if startsWith "l2tp" field then "l2tp "
  else ""

/-- Decodes the group of one tunnel. -/
def decodeContext (id : UInt32) (lines : List Line) : Except ReadStop (Decoded Tunnel) :=
  Selection.decode featureName Rtx.tunnelKind (numeral id) apply
    (.checkedContext featureName validate blame Rtx.tunnelKind (numeral id) lines) { id } lines

/-- Decodes the groups of all tunnels.  Only numbered groups are tunnels. -/
def decode (stanza : Stanza) : Except ReadStop (Decoded Tunnel) := do
  let parts ← (stanza.contextsOf Rtx.tunnelKind).mapM fun c =>
    match c.1.number? with
    | some id => decodeContext id c.2
    | none => .ok .empty
  return .concat parts

/-- The command that leaves the selection. -/
def leaveCommand : String := "tunnel select none"

/-- The command that selects the tunnel. -/
def selectCommand (t : Tunnel) : String :=
  phrase ["tunnel", "select", numeral t.id]

/-- The commands that say the settings. -/
def body (t : Tunnel) : List String :=
  t.settings.map fun setting => phrase setting.words

/-- The commands for a tunnel.  Removing it removes its security association
first. -/
def encode (t : Tunnel) : Intent → Except ValidationError (List String)
  | .set => provided validate t (t.selectCommand :: t.body ++ [leaveCommand])
  | .delete =>
    .ok <| [t.selectCommand] ++
      t.ipsecTunnel.toList.map (fun number => phrase ["no", "ipsec", "tunnel", numeral number]) ++
      [leaveCommand, phrase ["no", "tunnel", "select", numeral t.id]]

instance : Feature Tunnel where
  name := featureName
  showCommand := "show config"
  decode := decode
  validate := validate
  encode := encode

/-- The address of the far end: that of the key exchange, or else that of the
tunnel. -/
def remote? (t : Tunnel) : Option String :=
  (t.ike.bind IkeGateway.remoteAddress) <|> t.endpoint.map Endpoint.remoteAddress

/-- Tunnels are known by their number, and are about an encapsulation and a far
end. -/
instance : Reconcilable Tunnel UInt32 (Encapsulation × String) where
  identity t := t.id
  fallback? t := t.remote?.map fun remote => (t.encapsulation.getD .ipsec, remote)

end RouterConfig.Tunnel
