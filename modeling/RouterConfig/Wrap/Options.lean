import RouterConfig.Wrap.Policy

/-!
# Wrap options

Which of the four policies are asked, and what happens where none of them has an
opinion.
-/

namespace RouterConfig.Wrap

/-- The choice of policies, in the order in which they are asked. -/
structure Options where
  digitSplit : Bool := true
  equalsSplit : Bool := true
  /-- The marker that says a command goes on, if there is one. -/
  continuationMarker : Option String := some "\\"
  numericContinuation : Bool := true
  /-- Is a line that starts with no known word put behind the one before it? -/
  joinUnrecognized : Bool := true
deriving DecidableEq, Repr

/-- The chosen policies. -/
def Options.policies (o : Options) : List Policy :=
  (if o.digitSplit then [.digitSplit] else []) ++
  (if o.equalsSplit then [.equalsSplit] else []) ++
  (match o.continuationMarker with
    | some marker => [.continuationMarker marker]
    | none => []) ++
  (if o.numericContinuation then [.numericContinuation] else [])

end RouterConfig.Wrap
