import RouterConfig.Address.Ipv4
import RouterConfig.Text.Phrase

/-!
# Networks

A route leads to a network: an address and the number of its leading bits that
count.  A network has several spellings.  `default` is the network of all
addresses, an address alone is the network of that one host, and after a slash
stands either the number of bits or the netmask that has so many ones.  Writing
always chooses the shortest of them and never a netmask.
-/

namespace RouterConfig

open Text

/-- A destination network.  Lengths above 32 can be stated; they act as 32. -/
structure Network where
  address : Ipv4
  length : UInt8
deriving DecidableEq, Repr

/-- Why a word is not a network. -/
inductive NetworkFault where
  /-- What stands before the slash is no address. -/
  | address (word : String)
  /-- What stands after the slash has a point in it but is no address. -/
  | netmask (word : String)
  /-- The netmask has a one after a zero. -/
  | scatteredNetmask (word : String)
  /-- What stands after the slash is no number up to 32. -/
  | length (word : String)
deriving DecidableEq, Repr

/-- The fault in words. -/
def NetworkFault.message : NetworkFault → String
  | .address word => "invalid network address '" ++ word ++ "'"
  | .netmask word => "invalid netmask '" ++ word ++ "'"
  | .scatteredNetmask word => "non-contiguous netmask '" ++ word ++ "'"
  | .length word => "invalid prefix length '" ++ word ++ "'"

namespace Network

/-- The octet whose `ones` leading bits are one; more than eight act as eight. -/
def maskOctet (ones : Nat) : UInt8 :=
  UInt8.ofNat (256 - Nat.pow 2 (8 - min ones 8))

/-- The netmask with `ones` leading ones. -/
def maskOf (ones : Nat) : Ipv4 :=
  ⟨maskOctet ones, maskOctet (ones - 8), maskOctet (ones - 16), maskOctet (ones - 24)⟩

/-- The number of leading ones of a netmask, if it has no other ones. -/
def onesOf? (mask : Ipv4) : Option UInt8 :=
  ((List.range 33).find? fun ones => maskOf ones == mask).map UInt8.ofNat

/-- The default route. -/
def everywhere : Network := ⟨Ipv4.unspecified, 0⟩

/-- Is this the default route? -/
def isDefault (n : Network) : Bool :=
  n.length == 0 && n.address == Ipv4.unspecified

/-- The netmask of the network. -/
def netmask (n : Network) : Ipv4 :=
  maskOf n.length.toNat

/-- Reads what stands after the slash. -/
def readLength (word : String) : Except NetworkFault UInt8 :=
  if holds '.' word then
    match Ipv4.read? word with
    | none => .error (.netmask word)
    | some mask =>
      match onesOf? mask with
      | none => .error (.scatteredNetmask word)
      | some ones => .ok ones
  else
    match readOctet? word with
    | some ones => if ones ≤ 32 then .ok ones else .error (.length word)
    | none => .error (.length word)

/-- Reads a network in any of its spellings.  The address is looked at first. -/
def read (word : String) : Except NetworkFault Network :=
  if word = "default" then
    .ok everywhere
  else
    match splitOnce? '/' word with
    | none =>
      match Ipv4.read? word with
      | none => .error (.address word)
      | some address => .ok ⟨address, 32⟩
    | some (before, behind) =>
      match Ipv4.read? before with
      | none => .error (.address word)
      | some address => (readLength behind).map fun ones => ⟨address, ones⟩

/-- Writes a network in its shortest spelling. -/
def render (n : Network) : String :=
  if n.isDefault then "default"
  else if n.length = 32 then n.address.render
  else n.address.render ++ "/" ++ String.ofList (decimal n.length.toNat)

example : maskOf 0 = ⟨0, 0, 0, 0⟩ := by decide
example : maskOf 20 = ⟨255, 255, 240, 0⟩ := by decide
example : maskOf 32 = ⟨255, 255, 255, 255⟩ := by decide
example : onesOf? ⟨255, 0, 255, 0⟩ = none := by decide

end Network

end RouterConfig
