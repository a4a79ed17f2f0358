import RouterConfig.Dialect.Rtx
import RouterConfig.Pp.Rules
import RouterConfig.Reconcilable

/-!
# The commands of a session

The commands for a session select it, say its settings one by one, and leave the
selection.

    pp select 1
     description pp PRV/PPPoE/0:provider
     pp always-on on
     pppoe use lan2
     pp auth myname user@example.jp secret
     ip pp mtu 1454
     pp enable 1

A session cannot be deleted.  Removing it switches it off and undoes what was
set.  The commands that undo a session are a list of their own, which knows the
fields and not the settings.
-/

namespace RouterConfig.PpInterface

open Text

/-- How the command starts that sets a field. -/
def blame (field : String) : String :=
  match field with
  | "description" => "description"
  | "pppoe_use" => "pppoe use"
  | "bind" => "pp bind"
  | "ip_address" => "ip pp address"
  | "remote_address_pool" => "ip pp remote address pool"
  | "auth_accept" => "pp auth accept"
  | "auth_request" => "pp auth request"
  | "mtu" => "ip pp mtu"
  | "tcp_mss_limit" => "ip pp tcp mss"
  | "nat_descriptor" => "ip pp nat descriptor"
  | "disconnect_time" => "pp disconnect time"
  | "secure filter" => "ip pp secure filter"
  | field => if startsWith "auth_myname" field then "pp auth myname" else ""

/-- Decodes the group of one session. -/
def decodeContext (selector : PpSelector) (lines : List Line) :
    Except ReadStop (Decoded PpInterface) :=
  Selection.decode featureName Rtx.ppKind selector.render apply
    (.checkedContext featureName validate blame Rtx.ppKind selector.render lines)
    { selector } lines

/-- Decodes the groups of all sessions. -/
def decode (stanza : Stanza) : Except ReadStop (Decoded PpInterface) := do
  let parts ← (stanza.contextsOf Rtx.ppKind).mapM fun c =>
    match PpSelector.ofContext? c.1 with
    | some selector => decodeContext selector c.2
    | none => .ok .empty
  return .concat parts

/-- The command that leaves the selection. -/
def leaveCommand : String := "pp select none"

/-- The command that selects the session. -/
def selectCommand (pp : PpInterface) : String :=
  phrase ["pp", "select", pp.selector.render]

/-- The commands that say the settings apart from the switch. -/
def body (pp : PpInterface) : List String :=
  pp.settings.map fun setting => phrase setting.words

/-- The directions with the bindings that they may have, inbound first. -/
def bindings (pp : PpInterface) : List (Direction × Option FilterBinding) :=
  [(.inbound, pp.secureFilterIn), (.outbound, pp.secureFilterOut)]

/-- The commands that undo what is set, one for each field.  A session that is kept up is let go
by saying so, since that setting has a default of its own. -/
def teardown (pp : PpInterface) : List String :=
  (if pp.description.isSome then ["no description"] else []) ++
  (if pp.pppoeUse.isSome then ["no pppoe use"] else []) ++
  (if pp.bind.isSome then ["no pp bind"] else []) ++
  (if pp.pppoeServiceName.isSome then ["no pppoe service-name"] else []) ++
  (if pp.pppoeAcName.isSome then ["no pppoe ac-name"] else []) ++
  (if pp.authAccept.isSome then ["no pp auth accept"] else []) ++
  (if pp.authRequest.isSome then ["no pp auth request"] else []) ++
  (if pp.authMyname.isSome then ["no pp auth myname"] else []) ++
  (if pp.alwaysOn.isSome then ["pp always-on off"] else []) ++
  (if pp.disconnectTime.isSome then ["no pp disconnect time"] else []) ++
  (if pp.ipAddress.isSome then ["no ip pp address"] else []) ++
  (if pp.remoteAddressPool.isSome then ["no ip pp remote address pool"] else []) ++
  (if pp.mtu.isSome then ["no ip pp mtu"] else []) ++
  (if pp.tcpMssLimit.isSome then ["no ip pp tcp mss limit"] else []) ++
  (if pp.natDescriptor.isSome then ["no ip pp nat descriptor"] else []) ++
  pp.bindings.flatMap fun b =>
    if b.2.isSome then ["no ip pp secure filter " ++ b.1.word] else []

/-- The commands for a session. -/
def encode (pp : PpInterface) : Intent → Except ValidationError (List String)
  | .set =>
    provided validate pp <| pp.selectCommand :: pp.body ++
      pp.switchSettings.map (fun setting => phrase setting.words) ++ [leaveCommand]
  | .delete =>
    .ok <| phrase ["pp", "disable", pp.selector.render] :: pp.selectCommand :: pp.teardown ++
      [leaveCommand]

instance : Feature PpInterface where
  name := featureName
  showCommand := "show config"
  decode := decode
  validate := validate
  encode := encode

/-- Sessions are known by their selector, and are about the interface that they
run over. -/
instance : Reconcilable PpInterface PpSelector String where
  identity pp := pp.selector
  fallback? pp := pp.pppoeUse <|> pp.bind

end RouterConfig.PpInterface
