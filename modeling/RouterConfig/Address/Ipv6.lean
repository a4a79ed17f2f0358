import RouterConfig.Address.Ipv4

/-!
# Addresses of either family

A name server may be given by an IPv4 or an IPv6 address.  Only whether a word
*is* an address matters here, so IPv6 is a test and not a type.

An IPv6 address has eight groups of one to four hexadecimal digits with colons
between them.  Two shorthands are allowed: `::`, once, stands for one or more
groups of zeros, and the last two groups may be written as an IPv4 address.
-/

namespace RouterConfig

open Text

namespace Ipv6

/-- A hexadecimal digit, in either letter case. -/
def isHexDigit (c : Char) : Bool :=
  isDigit c || ('a' ≤ c && c ≤ 'f') || ('A' ≤ c && c ≤ 'F')

/-- One group: one to four hexadecimal digits. -/
def isGroup (cs : List Char) : Bool :=
  !cs.isEmpty && cs.length ≤ 4 && cs.all isHexDigit

/-- The number of groups that the pieces stand for, the last one being allowed
to be an IPv4 address worth two. -/
def groupCount? : List (List Char) → Option Nat
  | [] => some 0
  | [piece] =>
    if isGroup piece then some 1
    else if (Ipv4.readChars? piece).isSome then some 2
    else none
  | piece :: rest => if isGroup piece then (groupCount? rest).map (· + 1) else none

/-- What stands before and after the first `::`. -/
def splitAtGap? : List Char → Option (List Char × List Char)
  | [] => none
  | [_] => none
  | c :: d :: cs =>
    if c = ':' && d = ':' then some ([], cs)
    else (splitAtGap? (d :: cs)).map fun parts => (c :: parts.1, parts.2)

/-- The pieces between colons, of which an empty text has none. -/
def groups (cs : List Char) : List (List Char) :=
  if cs.isEmpty then [] else pieces ':' cs

/-- Is the text an IPv6 address?  Before a `::` an IPv4 address may not stand. -/
def isAddress (cs : List Char) : Bool :=
  match splitAtGap? cs with
  | none => groupCount? (groups cs) == some 8
  | some (head, tail) =>
    (groups head).all isGroup &&
      match groupCount? (groups tail) with
      | some count => (groups head).length + count ≤ 7
      | none => false

end Ipv6

/-- Is the word an address, of either family? -/
def isAddress (s : String) : Bool :=
  (Ipv4.read? s).isSome || Ipv6.isAddress s.toList

example : isAddress "192.168.1.1" = true := by decide
example : isAddress "2001:db8::53" = true := by decide
example : isAddress "::ffff:192.0.2.1" = true := by decide
example : isAddress "1:2:3:4:5:6:7::" = true := by decide
example : isAddress "1:2:3:4:5:6:7::8" = false := by decide
example : isAddress "1.2.3.4::" = false := by decide
example : isAddress "fe80::1%lan1" = false := by decide

end RouterConfig
