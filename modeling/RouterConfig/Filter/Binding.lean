import RouterConfig.Fault
import RouterConfig.Rule
import RouterConfig.Text.Phrase

/-!
# Filter bindings

Traffic through an interface in one direction passes a list of filters: first
the static ones by number, then, after the word `dynamic`, the dynamic ones.

A binding with no filters at all is not the same as no binding.  The first is
written as the bare command (`ip lan1 secure filter in`), the second is not
written.  That is why records hold an optional binding.
-/

namespace RouterConfig

open Text

/-- A direction of traffic. -/
inductive Direction where
  | inbound
  | outbound
deriving DecidableEq, Repr

namespace Direction

/-- The word for a direction. -/
def word : Direction → String
  | .inbound => "in"
  | .outbound => "out"

/-- Reads a direction. -/
def read (word : String) : Except LineFault Direction :=
  if word = "in" then .ok .inbound
  else if word = "out" then .ok .outbound
  else .error (.invalid "direction" word)

@[simp] theorem read_word (d : Direction) : read d.word = .ok d := by
  cases d <;> rfl

end Direction

/-- The filters that traffic passes in one direction. -/
structure FilterBinding where
  /-- Static filters, in the order in which they are asked. -/
  filters : List UInt32
  /-- Dynamic filters. -/
  dynamic : List UInt32 := []
deriving DecidableEq, Repr

namespace FilterBinding

/-- The binding of no filters. -/
def empty : FilterBinding := ⟨[], []⟩

/-- The binding has no filters. -/
def isEmpty (b : FilterBinding) : Bool :=
  b.filters.isEmpty && b.dynamic.isEmpty

/-- Reads the numbers after the word `dynamic`, of which there may be no second. -/
def readDynamic : List String → Except LineFault (List UInt32)
  | [] => .ok []
  | word :: rest =>
    if word = "dynamic" then .error (.duplicate "dynamic keyword")
    else do
      let n ← readNumber "filter number" word
      return n :: (← readDynamic rest)

/-- Reads the words after the direction. -/
def readWords : List String → Except LineFault FilterBinding
  | [] => .ok empty
  | word :: rest =>
    if word = "dynamic" then do
      let numbers ← readDynamic rest
      if numbers.isEmpty then throw (.without "dynamic keyword" "filters")
      return ⟨[], numbers⟩
    else do
      let n ← readNumber "filter number" word
      let b ← readWords rest
      return { b with filters := n :: b.filters }

/-- Reads what follows the direction. -/
def read (text : String) : Except LineFault FilterBinding :=
  readWords (wordsOf text)

/-- The words after the direction. -/
def words (b : FilterBinding) : List String :=
  b.filters.map numeral ++ if b.dynamic.isEmpty then [] else "dynamic" :: b.dynamic.map numeral

/-- Writes what follows the direction. -/
def render (b : FilterBinding) : String :=
  phrase b.words

/-- Writes the command that binds the filters, where `lead` are its first words. -/
def command (lead : List String) (d : Direction) (b : FilterBinding) : String :=
  phrase (lead ++ d.word :: b.words)

/-- The rules for the numbers in a binding. -/
def rules (feature field : String) (b : FilterBinding) : List Rule :=
  (b.filters ++ b.dynamic).map (Rule.filterNumber feature field)

end FilterBinding

end RouterConfig
