import RouterConfig.Pp.Basic
import RouterConfig.Selection

/-!
# Settings of a session

As with tunnels, one command in the group of a session is one setting, which is
read from words, written as words, and changes one field of a record.
-/

namespace RouterConfig

open Text

/-- A setting of a session. -/
inductive PpSetting where
  | description (d : Description)
  | pppoeUse (interface : String)
  | bind (interface : String)
  | pppoeServiceName (name : String)
  | pppoeAcName (name : String)
  | authAccept (methods : List String)
  | authRequest (request : AuthRequest)
  | authMyname (name : AuthName)
  | alwaysOn (value : Bool)
  | disconnectTime (time : DisconnectTime)
  | ipAddress (address : String)
  | remoteAddressPool (pool : AddressPool)
  | mtu (bytes : UInt32)
  | tcpMssLimit (bytes : UInt32)
  | natDescriptor (number : UInt32)
  | secureFilter (direction : Direction) (binding : FilterBinding)
  /-- The session with this selector is switched on or off. -/
  | switch (on : Bool) (selector : PpSelector)
deriving DecidableEq, Repr

/-! ## Writing -/

/-- The word for a pool of addresses. -/
def AddressPool.word : AddressPool → String
  | .range first last => first.render ++ "-" ++ last.render
  | .dhcp => "dhcp"

/-- The word for a time. -/
def DisconnectTime.word : DisconnectTime → String
  | .off => "off"
  | .seconds count => numeral count

namespace PpSetting

/-- The words with which the command for a setting starts, whatever its value. -/
def leadWords : PpSetting → List String
  | .description _ => ["description"]
  | .pppoeUse _ => ["pppoe", "use"]
  | .bind _ => ["pp", "bind"]
  | .pppoeServiceName _ => ["pppoe", "service-name"]
  | .pppoeAcName _ => ["pppoe", "ac-name"]
  | .authAccept _ => ["pp", "auth", "accept"]
  | .authRequest _ => ["pp", "auth", "request"]
  | .authMyname _ => ["pp", "auth", "myname"]
  | .alwaysOn _ => ["pp", "always-on"]
  | .disconnectTime _ => ["pp", "disconnect", "time"]
  | .ipAddress _ => ["ip", "pp", "address"]
  | .remoteAddressPool _ => ["ip", "pp", "remote", "address", "pool"]
  | .mtu _ => ["ip", "pp", "mtu"]
  | .tcpMssLimit _ => ["ip", "pp", "tcp", "mss", "limit"]
  | .natDescriptor _ => ["ip", "pp", "nat", "descriptor"]
  | .secureFilter direction _ => ["ip", "pp", "secure", "filter", direction.word]
  | .switch on _ => ["pp", if on then "enable" else "disable"]

/-- The words for the value of a setting.  A list of methods has a place in its command even if
it names none. -/
def valueWords : PpSetting → List String
  | .description d => if d.ppKeyword then ["pp", d.text] else [d.text]
  | .pppoeUse interface => [interface]
  | .bind interface => [interface]
  | .pppoeServiceName name => [name]
  | .pppoeAcName name => [name]
  | .authAccept methods => if methods.isEmpty then [""] else methods
  | .authRequest request => request.method :: if request.arriveOnly then ["arrive-only"] else []
  | .authMyname name => [name.user, name.password]
  | .alwaysOn value => [onOff value]
  | .disconnectTime time => [time.word]
  | .ipAddress address => [address]
  | .remoteAddressPool pool => [pool.word]
  | .mtu bytes => [numeral bytes]
  | .tcpMssLimit bytes => [numeral bytes]
  | .natDescriptor number => [numeral number]
  | .secureFilter _ binding => binding.words
  | .switch _ selector => [selector.render]

/-- The words for a setting. -/
def words (s : PpSetting) : List String :=
  s.leadWords ++ s.valueWords

/-! ## Reading -/

/-- A command of known start and unknown form. -/
def malformed {α : Type} : Except LineFault α :=
  .error (.malformed "command")

/-- Reads the words after `pppoe`. -/
def readPppoe : List String → Except LineFault (Option PpSetting)
  | [] => .ok none
  | keyword :: rest =>
    match keyword with
    | "use" =>
      match rest with
      | [interface] => .ok (some (.pppoeUse interface))
      | _ => malformed
    | "service-name" =>
      if rest.isEmpty then malformed else .ok (some (.pppoeServiceName (phrase rest)))
    | "ac-name" => if rest.isEmpty then malformed else .ok (some (.pppoeAcName (phrase rest)))
    | _ => .ok none

/-- Reads the words after `pp auth`. -/
def readAuth : List String → Except LineFault (Option PpSetting)
  | [] => .ok none
  | keyword :: rest =>
    match keyword with
    | "accept" =>
      match rest with
      | [first] => .ok (some (.authAccept [first]))
      | [first, second] => .ok (some (.authAccept [first, second]))
      | _ => malformed
    | "request" =>
      match rest with
      | [method] => .ok (some (.authRequest ⟨method, false⟩))
      | [method, "arrive-only"] => .ok (some (.authRequest ⟨method, true⟩))
      | _ => malformed
    | "myname" =>
      match rest with
      | [user, password] => .ok (some (.authMyname ⟨user, password⟩))
      | _ => malformed
    | _ => .ok none

/-- Reads the words after `pp enable` or `pp disable`.  What is no selector is not
this session's either. -/
def readSwitch (on : Bool) : List String → Except LineFault (Option PpSetting)
  | [word] =>
    match PpSelector.read? word with
    | some selector => .ok (some (.switch on selector))
    | none => .error (.otherSelection (if on then "enable" else "disable") "pp")
  | _ => malformed

/-- Reads a time after which a silent session ends. -/
def readDisconnectTime (word : String) : Except LineFault DisconnectTime :=
  if word = "off" then .ok .off else (readNumber "disconnect time" word).map .seconds

/-- Reads the words after `pp`. -/
def readPp : List String → Except LineFault (Option PpSetting)
  | [] => .ok none
  | keyword :: rest =>
    match keyword with
    | "bind" =>
      match rest with
      | [interface] => .ok (some (.bind interface))
      | _ => malformed
    | "auth" => readAuth rest
    | "always-on" =>
      match rest with
      | [value] => (readOnOff "always-on" value).map fun value => some (.alwaysOn value)
      | _ => malformed
    | "disconnect" =>
      match rest with
      | ["time", time] => (readDisconnectTime time).map fun time => some (.disconnectTime time)
      | _ => malformed
    | "enable" => readSwitch true rest
    | "disable" => readSwitch false rest
    | _ => .ok none

/-- Reads a pool of addresses. -/
def readPool (word : String) : Except LineFault AddressPool :=
  if word = "dhcp" then .ok .dhcp
  else
    match splitOnce? '-' word with
    | none => .error (.invalid "address pool" word)
    | some (first, last) =>
      match Ipv4.read? first, Ipv4.read? last with
      | some first, some last => .ok (.range first last)
      | _, _ => .error (.invalid "address pool" word)

/-- Reads the words after `ip pp`.  Filters are read before the direction. -/
def readIp : List String → Except LineFault (Option PpSetting)
  | [] => .ok none
  | keyword :: rest =>
    match keyword with
    | "address" =>
      match rest with
      | [address] => .ok (some (.ipAddress address))
      | _ => malformed
    | "remote" =>
      match rest with
      | ["address", "pool", pool] => (readPool pool).map fun pool => some (.remoteAddressPool pool)
      | "address" :: "pool" :: _ => malformed
      | _ => .ok none
    | "mtu" =>
      match rest with
      | [bytes] => (readNumber "mtu" bytes).map fun bytes => some (.mtu bytes)
      | _ => malformed
    | "tcp" =>
      match rest with
      | ["mss", "limit", bytes] =>
        (readNumber "tcp mss limit" bytes).map fun bytes => some (.tcpMssLimit bytes)
      | _ => malformed
    | "nat" =>
      match rest with
      | ["descriptor", number] =>
        (readNumber "nat descriptor" number).map fun number => some (.natDescriptor number)
      | _ => malformed
    | "secure" =>
      match rest with
      | "filter" :: direction :: numbers => do
        let binding ← FilterBinding.readWords numbers
        return some (.secureFilter (← Direction.read direction) binding)
      | _ => malformed
    | _ => .ok none

/-- Reads the words of a command that is not a description.  Commands that are
passed over give nothing. -/
def readWords : List String → Except LineFault (Option PpSetting)
  | [] => .ok none
  | keyword :: rest =>
    match keyword with
    | "pppoe" => readPppoe rest
    | "pp" => readPp rest
    | "ip" =>
      match rest with
      | "pp" :: rest => readIp rest
      | _ => .ok none
    | _ => .ok none

/-- The number of bytes of the words `description pp` with a space between. -/
def keywordWidth : Nat := 14

/-- The number of bytes of the word `description`. -/
def descriptionWidth : Nat := 11

/-- The description that is left of a line when its first bytes are cut off. -/
def cutDescription (text : String) (width : Nat) (ppKeyword : Bool) :
    Except Refusal (Option PpSetting) :=
  match afterByte? width text with
  | some rest => .ok (some (.description ⟨trimmed rest, ppKeyword⟩))
  | none => .error (.stop (.cutInsideCharacter text width))

/-- Reads a command.  A description is not taken from the words but cut off the
line, so that the blanks inside it stay as they are. -/
def read (text : String) : Except Refusal (Option PpSetting) :=
  match wordsOf text with
  | "description" :: "pp" :: _ :: _ => cutDescription text keywordWidth true
  | "description" :: _ :: _ => cutDescription text descriptionWidth false
  | words => refuse (readWords words)

end PpSetting

/-! ## Putting settings into records -/

namespace PpInterface

/-- The session with one setting changed.  A session is switched under its own
selector. -/
def put (pp : PpInterface) : PpSetting → Except LineFault PpInterface
  | .description d => .ok { pp with description := some d }
  | .pppoeUse interface => .ok { pp with pppoeUse := some interface }
  | .bind interface => .ok { pp with bind := some interface }
  | .pppoeServiceName name => .ok { pp with pppoeServiceName := some name }
  | .pppoeAcName name => .ok { pp with pppoeAcName := some name }
  | .authAccept methods => .ok { pp with authAccept := some methods }
  | .authRequest request => .ok { pp with authRequest := some request }
  | .authMyname name => .ok { pp with authMyname := some name }
  | .alwaysOn value => .ok { pp with alwaysOn := some value }
  | .disconnectTime time => .ok { pp with disconnectTime := some time }
  | .ipAddress address => .ok { pp with ipAddress := some address }
  | .remoteAddressPool pool => .ok { pp with remoteAddressPool := some pool }
  | .mtu bytes => .ok { pp with mtu := some bytes }
  | .tcpMssLimit bytes => .ok { pp with tcpMssLimit := some bytes }
  | .natDescriptor number => .ok { pp with natDescriptor := some number }
  | .secureFilter .inbound binding => .ok { pp with secureFilterIn := some binding }
  | .secureFilter .outbound binding => .ok { pp with secureFilterOut := some binding }
  | .switch on selector =>
    if selector = pp.selector then .ok { pp with enabled := on }
    else .error (.otherSelection (if on then "enable" else "disable") "pp")

/-- Puts a command into the session. -/
def apply (pp : PpInterface) (text : String) : Except Refusal PpInterface := do
  match ← PpSetting.read text with
  | some setting => refuse (pp.put setting)
  | none => return pp

/-- The settings of a session apart from its switch, in the order in which they
are written. -/
def settings (pp : PpInterface) : List PpSetting :=
  pp.description.toList.map .description ++ pp.pppoeUse.toList.map .pppoeUse ++
    pp.bind.toList.map .bind ++ pp.pppoeServiceName.toList.map .pppoeServiceName ++
    pp.pppoeAcName.toList.map .pppoeAcName ++ pp.authAccept.toList.map .authAccept ++
    pp.authRequest.toList.map .authRequest ++ pp.authMyname.toList.map .authMyname ++
    pp.alwaysOn.toList.map .alwaysOn ++ pp.disconnectTime.toList.map .disconnectTime ++
    pp.ipAddress.toList.map .ipAddress ++ pp.remoteAddressPool.toList.map .remoteAddressPool ++
    pp.mtu.toList.map .mtu ++ pp.tcpMssLimit.toList.map .tcpMssLimit ++
    pp.natDescriptor.toList.map .natDescriptor ++
    pp.secureFilterIn.toList.map (.secureFilter .inbound) ++
    pp.secureFilterOut.toList.map (.secureFilter .outbound)

/-- The setting that switches the session on, if it is on; that it is off is not
said. -/
def switchSettings (pp : PpInterface) : List PpSetting :=
  if pp.enabled then [.switch true pp.selector] else []

end PpInterface

end RouterConfig
