import RouterConfig.Error
import RouterConfig.Text.Phrase

/-!
# Rules for fields

A record is checked by going through a list of rules, each of which is kept or
broken.  The first broken rule is the verdict on the record; if none is broken
the record can be written as commands.
-/

namespace RouterConfig

open Text

/-- A rule applied to a record: nothing if it is kept, and the error otherwise. -/
abbrev Rule := Option ValidationError

/-- The verdict on a record: its first broken rule. -/
def firstBroken (rules : List Rule) : Option ValidationError :=
  rules.findSome? id

/-- A record breaks no rule exactly when it keeps each one. -/
theorem firstBroken_eq_none_iff {rules : List Rule} :
    firstBroken rules = none ↔ ∀ rule ∈ rules, rule = none := by
  simp [firstBroken]

namespace Rule

/-- The fault unless the condition holds. -/
def demand (feature field : String) (condition : Bool) (fault : FieldFault) : Rule :=
  if condition then none else some ⟨feature, field, fault⟩

/-- The number is between `min` and `max`. -/
def inRange (feature field : String) (value min max : Nat) : Rule :=
  demand feature field (min ≤ value && value ≤ max) (.outOfRange value min max)

/-- The text is not blank. -/
def present (feature field value : String) : Rule :=
  demand feature field (!isBlankString value) .missing

/-- The text is one word: not blank, and with no blank in it. -/
def oneWord (feature field value : String) : Rule :=
  if isBlankString value then some ⟨feature, field, .missing⟩
  else demand feature field (!hasBlank value) (.invalidValue value)

/-- The text is on one line. -/
def oneLine (feature field value : String) : Rule :=
  demand feature field (!holds '\n' value) (.invalidValue value)

/-- The number of a filter: positive, and in 31 bits. -/
def filterNumber (feature field : String) (n : UInt32) : Rule :=
  inRange feature field n.toNat 1 2147483647

/-- The rules for a field that may be absent; the absent one keeps all. -/
def ifPresent {α : Type} (field : Option α) (rules : α → List Rule) : List Rule :=
  match field with
  | none => []
  | some value => rules value

theorem oneWord_eq_none_iff {feature field value : String} :
    oneWord feature field value = none ↔ value ≠ "" ∧ hasBlank value = false := by
  have hv : value = "" ↔ value.toList = [] := by rw [← String.toList_inj]; simp
  rw [ne_eq, hv]
  cases h : value.toList with
  | nil => simp [oneWord, isBlankString, isBlankText, h]
  | cons c cs =>
    by_cases hb : hasBlank value = true
    · by_cases ht : isBlankString value = true <;> simp [oneWord, demand, hb, ht]
    · have hc : isBlank c = false := by simp [hasBlank, h] at hb; exact hb.1
      simp [oneWord, demand, isBlankString, isBlankText, h, hb, hc]

end Rule

end RouterConfig
