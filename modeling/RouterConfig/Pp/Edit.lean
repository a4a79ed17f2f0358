import RouterConfig.Edit
import RouterConfig.Pp.Setting

/-!
# Sessions that are changed in place

Each command for a session reads its words from one side to the other, and sets one field when
all that it needs for this was read.
-/

namespace RouterConfig.PpInterface

open Text Edit

/-- A command of known start and unknown form. -/
def refuseForm : Edit LineFault PpInterface Unit :=
  throw (.malformed "command")

/-- Runs the words after `pppoe`. -/
def editPppoe : List String → Edit LineFault PpInterface Unit
  | [] => pure ()
  | keyword :: rest =>
    match keyword with
    | "use" =>
      match rest with
      | [interface] => modify fun pp => { pp with pppoeUse := some interface }
      | _ => refuseForm
    | "service-name" =>
      if rest.isEmpty then refuseForm
      else modify fun pp => { pp with pppoeServiceName := some (phrase rest) }
    | "ac-name" =>
      if rest.isEmpty then refuseForm
      else modify fun pp => { pp with pppoeAcName := some (phrase rest) }
    | _ => pure ()

/-- Runs the words after `pp auth`. -/
def editAuth : List String → Edit LineFault PpInterface Unit
  | [] => pure ()
  | keyword :: rest =>
    match keyword with
    | "accept" =>
      match rest with
      | [first] => modify fun pp => { pp with authAccept := some [first] }
      | [first, second] => modify fun pp => { pp with authAccept := some [first, second] }
      | _ => refuseForm
    | "request" =>
      match rest with
      | [method] => modify fun pp => { pp with authRequest := some ⟨method, false⟩ }
      | [method, "arrive-only"] => modify fun pp => { pp with authRequest := some ⟨method, true⟩ }
      | _ => refuseForm
    | "myname" =>
      match rest with
      | [user, password] => modify fun pp => { pp with authMyname := some ⟨user, password⟩ }
      | _ => refuseForm
    | _ => pure ()

/-- Runs the words after `pp enable` or `pp disable`. -/
def editSwitch (on : Bool) : List String → Edit LineFault PpInterface Unit
  | [word] => do
    check fun pp =>
      if PpSelector.read? word = some pp.selector then none
      else some (.otherSelection (if on then "enable" else "disable") "pp")
    modify fun pp => { pp with enabled := on }
  | _ => refuseForm

/-- Runs the words after `pp`. -/
def editPp : List String → Edit LineFault PpInterface Unit
  | [] => pure ()
  | keyword :: rest =>
    match keyword with
    | "bind" =>
      match rest with
      | [interface] => modify fun pp => { pp with bind := some interface }
      | _ => refuseForm
    | "auth" => editAuth rest
    | "always-on" =>
      match rest with
      | [value] => do
        let value ← reads (readOnOff "always-on" value)
        modify fun pp => { pp with alwaysOn := some value }
      | _ => refuseForm
    | "disconnect" =>
      match rest with
      | ["time", time] => do
        let time ← reads (PpSetting.readDisconnectTime time)
        modify fun pp => { pp with disconnectTime := some time }
      | _ => refuseForm
    | "enable" => editSwitch true rest
    | "disable" => editSwitch false rest
    | _ => pure ()

/-- Runs the words after `ip pp`. -/
def editIp : List String → Edit LineFault PpInterface Unit
  | [] => pure ()
  | keyword :: rest =>
    match keyword with
    | "address" =>
      match rest with
      | [address] => modify fun pp => { pp with ipAddress := some address }
      | _ => refuseForm
    | "remote" =>
      match rest with
      | ["address", "pool", pool] => do
        let pool ← reads (PpSetting.readPool pool)
        modify fun pp => { pp with remoteAddressPool := some pool }
      | "address" :: "pool" :: _ => refuseForm
      | _ => pure ()
    | "mtu" =>
      match rest with
      | [bytes] => do
        let bytes ← reads (readNumber "mtu" bytes)
        modify fun pp => { pp with mtu := some bytes }
      | _ => refuseForm
    | "tcp" =>
      match rest with
      | ["mss", "limit", bytes] => do
        let bytes ← reads (readNumber "tcp mss limit" bytes)
        modify fun pp => { pp with tcpMssLimit := some bytes }
      | _ => refuseForm
    | "nat" =>
      match rest with
      | ["descriptor", number] => do
        let number ← reads (readNumber "nat descriptor" number)
        modify fun pp => { pp with natDescriptor := some number }
      | _ => refuseForm
    | "secure" =>
      match rest with
      | "filter" :: direction :: numbers => do
        let binding ← reads (FilterBinding.readWords numbers)
        match ← reads (Direction.read direction) with
        | .inbound => modify fun pp => { pp with secureFilterIn := some binding }
        | .outbound => modify fun pp => { pp with secureFilterOut := some binding }
      | _ => refuseForm
    | _ => pure ()

/-- Runs the words of a command that is not a description. -/
def editWords : List String → Edit LineFault PpInterface Unit
  | [] => pure ()
  | keyword :: rest =>
    match keyword with
    | "pppoe" => editPppoe rest
    | "pp" => editPp rest
    | "ip" =>
      match rest with
      | "pp" :: rest => editIp rest
      | _ => pure ()
    | _ => pure ()

/-- Takes the description from what is left of a line when its first bytes are cut off. -/
def editDescription (text : String) (width : Nat) (ppKeyword : Bool) :
    Edit Refusal PpInterface Unit :=
  match afterByte? width text with
  | some rest => modify fun pp => { pp with description := some ⟨trimmed rest, ppKeyword⟩ }
  | none => throw (.stop (.cutInsideCharacter text width))

/-- Runs a command. -/
def edit (text : String) : Edit Refusal PpInterface Unit :=
  match wordsOf text with
  | "description" :: "pp" :: _ :: _ => editDescription text PpSetting.keywordWidth true
  | "description" :: _ :: _ => editDescription text PpSetting.descriptionWidth false
  | words => (editWords words).adaptExcept .fault

end RouterConfig.PpInterface
