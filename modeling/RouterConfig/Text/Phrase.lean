import RouterConfig.Text.Words

/-!
# Phrases

Commands are stored as strings.  This module gives the operations on lists of
characters their form on strings, and says of each that it is that form, so that
a proof about strings becomes one about lists in a single rewriting step.
-/

namespace RouterConfig

open Text

/-- The words of a string. -/
def wordsOf (s : String) : List String :=
  (words s.toList).map String.ofList

/-- Words put together with one space between neighbours. -/
def phrase (ws : List String) : String :=
  String.ofList (spaced (ws.map String.toList))

/-- The string without blanks at either end. -/
def trimmed (s : String) : String :=
  String.ofList (trim s.toList)

/-- Every character of the string is blank. -/
def isBlankString (s : String) : Bool :=
  isBlankText s.toList

/-- Some character of the string is blank. -/
def hasBlank (s : String) : Bool :=
  s.toList.any isBlank

/-- Does the string start with `lead`? -/
def startsWith (lead s : String) : Bool :=
  (after? lead.toList s.toList).isSome

/-- What follows `lead`, if the string starts with it. -/
def afterLead? (lead s : String) : Option String :=
  (after? lead.toList s.toList).map String.ofList

/-- What stands before and after the first `mark`. -/
def splitOnce? (mark : Char) (s : String) : Option (String × String) :=
  (splitAtFirst? mark s.toList).map fun parts => (String.ofList parts.1, String.ofList parts.2)

/-- Splits the string after its longest run of non-blank characters, which may be
empty.  What follows must be nothing, or one space and then the rest, which holds
no line feed. -/
def firstWord? (s : String) : Option (String × String) :=
  (splitWord? s.toList).map fun parts => (String.ofList parts.1, String.ofList parts.2)

/-- The pieces of the string between the marks, empty ones included. -/
def piecesOf (mark : Char) (s : String) : List String :=
  (pieces mark s.toList).map String.ofList

/-- Does the string hold the character? -/
def holds (c : Char) (s : String) : Bool :=
  s.toList.contains c

/-- What follows the first `count` bytes, or nothing when that place is inside a
character or past the end. -/
def afterByte? (count : Nat) (s : String) : Option String :=
  (afterBytes? count s.toList).map String.ofList

/-- The strings of `ss` one after the other, with `between` between neighbours. -/
def joined (between : String) : List String → String
  | [] => ""
  | [s] => s
  | s :: t :: ss => s ++ between ++ joined between (t :: ss)

/-! ## From strings to lists -/

@[simp] theorem toList_phrase (ws : List String) :
    (phrase ws).toList = spaced (ws.map String.toList) := by
  simp [phrase]

@[simp] theorem toList_trimmed (s : String) : (trimmed s).toList = trim s.toList := by
  simp [trimmed]

theorem map_toList_wordsOf (s : String) : (wordsOf s).map String.toList = words s.toList := by
  simp [wordsOf, Function.comp_def]

/-- Words that are not empty and hold no blank are read back from their phrase. -/
theorem wordsOf_phrase {ws : List String} (h : ∀ w ∈ ws, w ≠ "" ∧ hasBlank w = false) :
    wordsOf (phrase ws) = ws := by
  have hw : ∀ w ∈ ws.map String.toList, w ≠ [] ∧ ∀ c ∈ w, isBlank c = false := by
    simp only [List.mem_map]
    rintro _ ⟨w, hw, rfl⟩
    refine ⟨fun he => (h w hw).1 (String.toList_inj.1 (by simpa using he)), ?_⟩
    simpa [hasBlank] using (h w hw).2
  rw [wordsOf, toList_phrase, words_spaced hw]
  simp [Function.comp_def]

end RouterConfig
