import RouterConfig.Text.Blank

/-!
# Words

A command is a row of words with blanks between them.  `words` takes a text
apart at its blanks and `spaced` puts words together with one space each, so
that for words which are not empty and hold no blank the two undo each other.

Everything is defined on lists of characters, where induction is at hand.  The
last section lifts the operations to strings, which is the form in which
commands are stored.
-/

namespace RouterConfig.Text

/-! ## Trimming -/

/-- The text from its first non-blank character on. -/
def trimStart (cs : List Char) : List Char :=
  cs.dropWhile isBlank

/-- The text up to its last non-blank character. -/
def trimEnd (cs : List Char) : List Char :=
  (cs.reverse.dropWhile isBlank).reverse

/-- The text without blanks at either end. -/
def trim (cs : List Char) : List Char :=
  trimEnd (trimStart cs)

/-- Every character of the text is blank. -/
def isBlankText (cs : List Char) : Bool :=
  cs.all isBlank

/-! ## Bytes -/

/-- The number of bytes of the text in UTF-8. -/
def byteSize : List Char → Nat
  | [] => 0
  | c :: cs => c.utf8Size + byteSize cs

/-- The width in bytes of the blanks at the start of the text. -/
def indentOf (cs : List Char) : Nat :=
  byteSize (cs.takeWhile isBlank)

/-- The text without its last characters, as many as begin within the last
`count` bytes. -/
def dropBytesEnd (count : Nat) (cs : List Char) : List Char :=
  (go count cs.reverse).reverse
where
  go : Nat → List Char → List Char
    | 0, rest => rest
    | _ + 1, [] => []
    | count + 1, c :: rest => go (count + 1 - c.utf8Size) rest
  termination_by _ rest => rest.length

/-- The text after its first `count` bytes, or nothing when that place is inside
a character or past the end. -/
def afterBytes? : Nat → List Char → Option (List Char)
  | 0, cs => some cs
  | _ + 1, [] => none
  | count + 1, c :: cs =>
    if c.utf8Size ≤ count + 1 then afterBytes? (count + 1 - c.utf8Size) cs else none
termination_by _ cs => cs.length

/-! ## Words -/

/-- A character put in front of the first word. -/
def lengthenFirst (c : Char) : List (List Char) → List (List Char)
  | [] => [[c]]
  | w :: ws => (c :: w) :: ws

/-- Does the text go on with a character that is not blank? -/
def startsWord : List Char → Bool
  | [] => false
  | c :: _ => !isBlank c

/-- The words of the text: its longest runs of non-blank characters, in order. -/
def words : List Char → List (List Char)
  | [] => []
  | c :: cs =>
    if isBlank c then words cs
    else if startsWord cs then lengthenFirst c (words cs)
    else [c] :: words cs

@[simp] theorem words_nil : words [] = [] := rfl

theorem words_cons_of_isBlank {c : Char} (h : isBlank c = true) (cs : List Char) :
    words (c :: cs) = words cs := by
  simp [words, h]

/-- **Words split at a blank.**  Whatever is said about the words of a text comes
from this equation. -/
theorem words_append_blank {c : Char} (h : isBlank c = true) (xs ys : List Char) :
    words (xs ++ c :: ys) = words xs ++ words ys := by
  induction xs with
  | nil => simp [words, h]
  | cons x xs ih =>
    cases xs with
    | nil => by_cases hx : isBlank x = true <;> simp [words, h, hx, startsWord]
    | cons y zs =>
      rw [List.cons_append, words, words, ih]
      by_cases hx : isBlank x = true
      · simp [hx]
      · by_cases hy : isBlank y = true
        · simp [hx, hy, startsWord]
        · have hne : words (y :: zs) ≠ [] := by
            rw [words]
            simp only [hy, Bool.false_eq_true, ↓reduceIte]
            split
            · cases words zs <;> simp [lengthenFirst]
            · simp
          obtain ⟨w, ws, hw⟩ := List.exists_cons_of_ne_nil hne
          simp [hx, hy, startsWord, hw, lengthenFirst]

/-- A text without blanks is one word. -/
theorem words_of_forall_not_isBlank {w : List Char} (hne : w ≠ [])
    (h : ∀ c ∈ w, isBlank c = false) : words w = [w] := by
  induction w with
  | nil => exact absurd rfl hne
  | cons c w ih =>
    have hc : isBlank c = false := h c (by simp)
    cases w with
    | nil => simp [words, hc, startsWord]
    | cons d w =>
      have hd : isBlank d = false := h d (by simp)
      rw [words, ih (by simp) fun x hx => h x (by simp [hx])]
      simp [hc, hd, startsWord, lengthenFirst]

/-- Words put together with one space between neighbours. -/
def spaced : List (List Char) → List Char
  | [] => []
  | [w] => w
  | w :: v :: ws => w ++ ' ' :: spaced (v :: ws)

/-- Words that are not empty and hold no blank are read back from their text. -/
theorem words_spaced {ws : List (List Char)}
    (h : ∀ w ∈ ws, w ≠ [] ∧ ∀ c ∈ w, isBlank c = false) : words (spaced ws) = ws := by
  induction ws with
  | nil => rfl
  | cons w ws ih =>
    have hw := h w (by simp)
    cases ws with
    | nil => exact words_of_forall_not_isBlank hw.1 hw.2
    | cons v ws =>
      rw [spaced, words_append_blank isBlank_space, words_of_forall_not_isBlank hw.1 hw.2,
        ih fun x hx => h x (by simp [hx])]
      rfl

/-! ## Pieces -/

/-- What follows `lead`, if the text starts with it. -/
def after? : List Char → List Char → Option (List Char)
  | [], cs => some cs
  | _ :: _, [] => none
  | l :: lead, c :: cs => if l = c then after? lead cs else none

/-- What stands before and after the first `mark`. -/
def splitAtFirst? (mark : Char) : List Char → Option (List Char × List Char)
  | [] => none
  | c :: cs =>
    if c = mark then some ([], cs)
    else (splitAtFirst? mark cs).map fun parts => (c :: parts.1, parts.2)

/-- Splits the text after its longest run of non-blank characters.  What follows
must be nothing, or one space and then the rest, which holds no line feed. -/
def splitWord? (cs : List Char) : Option (List Char × List Char) :=
  match cs.dropWhile fun c => !isBlank c with
  | [] => some (cs, [])
  | c :: rest =>
    if c = ' ' && !rest.contains '\n' then some (cs.takeWhile fun c => !isBlank c, rest) else none

/-- The pieces of the text between the marks, empty ones included. -/
def pieces (mark : Char) : List Char → List (List Char)
  | [] => [[]]
  | c :: cs =>
    if c = mark then [] :: pieces mark cs
    else lengthenFirst c (pieces mark cs)

end RouterConfig.Text
