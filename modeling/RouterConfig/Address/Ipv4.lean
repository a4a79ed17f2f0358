import RouterConfig.Text.Numeral
import RouterConfig.Text.Words

/-!
# IPv4 addresses

An address is four octets.  It is written as four decimal numbers with points
between them, and read back from exactly that form: each number has one to three
digits, no leading zero, and is at most 255.
-/

namespace RouterConfig

open Text

/-- An IPv4 address, most significant octet first. -/
structure Ipv4 where
  first : UInt8
  second : UInt8
  third : UInt8
  fourth : UInt8
deriving DecidableEq, Repr

namespace Ipv4

/-- The address `0.0.0.0`. -/
def unspecified : Ipv4 := ⟨0, 0, 0, 0⟩

/-- Reads one octet. -/
def readOctet? (cs : List Char) : Option UInt8 :=
  if cs.length ≤ 3 && (cs.length == 1 || cs.head? != some '0') then
    (readDigits? cs).bind fun n => if h : n < UInt8.size then some (UInt8.ofNatLT n h) else none
  else
    none

/-- Reads an address from four octets with points between them. -/
def readChars? (cs : List Char) : Option Ipv4 :=
  match pieces '.' cs with
  | [a, b, c, d] => do
    some ⟨← readOctet? a, ← readOctet? b, ← readOctet? c, ← readOctet? d⟩
  | _ => none

/-- Reads an address. -/
def read? (s : String) : Option Ipv4 :=
  readChars? s.toList

/-- Writes an address. -/
def render (a : Ipv4) : String :=
  String.ofList <| decimal a.first.toNat ++ '.' :: decimal a.second.toNat ++
    '.' :: decimal a.third.toNat ++ '.' :: decimal a.fourth.toNat

/-- The address as one number, which is how addresses are ordered. -/
def toNat (a : Ipv4) : Nat :=
  ((a.first.toNat * 256 + a.second.toNat) * 256 + a.third.toNat) * 256 + a.fourth.toNat

end Ipv4

end RouterConfig
