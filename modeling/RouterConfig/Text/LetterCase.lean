import RouterConfig.Text.LetterCase.Table

/-!
# Small letters

Output of a device is searched for a fragment without regard to letter case, by
writing both in small letters first.  The mapping is the full one of the Unicode
standard, which differs from "replace each capital" in two places.

* The capital `İ` becomes two characters, `i` and a combining dot above.
* The capital sigma `Σ` becomes `ς` at the end of a word and `σ` elsewhere.  It
  stands at the end of a word when the nearest character before it that is not
  case-ignorable is cased, and the nearest one after it is not.
-/

namespace RouterConfig.Text

/-- Is the code point in one of the ranges? -/
def inRanges (ranges : List (Nat × Nat)) (n : Nat) : Bool :=
  ranges.any fun range => range.1 ≤ n && n ≤ range.2

/-- The small letter of a capital that the run holds. -/
def CapitalRun.smallLetter? (run : CapitalRun) (c : Char) : Option Char :=
  if run.first ≤ c.toNat && c.toNat ≤ run.last && (c.toNat - run.first) % run.stride == 0 then
    some (Char.ofNat (run.image + (c.toNat - run.first)))
  else
    none

/-- The characters that write `c` small, away from the rule for sigma. -/
def smallLetters (c : Char) : List Char :=
  if c = 'İ' then ['i', '\u0307']
  else [((capitalRuns.findSome? fun run => run.smallLetter? c).getD c)]

/-- Is the first character that is not case-ignorable a cased one? -/
def meetsCased (cs : List Char) : Bool :=
  match cs.dropWhile fun c => inRanges caseIgnorableRanges c.toNat with
  | [] => false
  | c :: _ => inRanges casedRanges c.toNat

/-- `lowercaseAfter before cs` writes `cs` small, where `before` holds what stands
in front of it, nearest character first. -/
def lowercaseAfter (before : List Char) : List Char → List Char
  | [] => []
  | c :: cs =>
    let small :=
      if c = 'Σ' then
        if meetsCased before && !meetsCased cs then ['ς'] else ['σ']
      else
        smallLetters c
    small ++ lowercaseAfter (c :: before) cs

/-- The text in small letters. -/
def lowercase (cs : List Char) : List Char :=
  lowercaseAfter [] cs

/-- Does `part` stand somewhere in the text? -/
def occursIn (part : List Char) : List Char → Bool
  | [] => part.isEmpty
  | c :: cs => part.isPrefixOf (c :: cs) || occursIn part cs

/-- Does `part` stand somewhere in `whole`, letter case aside? -/
def occursIgnoringCase (part whole : String) : Bool :=
  occursIn (lowercase part.toList) (lowercase whole.toList)

/-- The twenty-six plain capitals made small, and nothing else touched. -/
def plainLowercase (s : String) : String :=
  String.ofList <| s.toList.map fun c =>
    if 'A' ≤ c && c ≤ 'Z' then Char.ofNat (c.toNat + 32) else c

end RouterConfig.Text
