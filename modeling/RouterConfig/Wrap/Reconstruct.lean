import RouterConfig.Line
import RouterConfig.Text.Lines
import RouterConfig.Text.Phrase
import RouterConfig.Wrap.Options

/-!
# Putting wrapped commands together

`Reconstructor.reconstruct` turns the physical lines of a text into logical
ones.  It goes through the physical lines once, holding the command that is
being built, and decides at each wrap point whether the next line belongs to it.

The decision has three steps.  A blank line and a comment end what stands before
them.  Otherwise the policies are asked.  Where none has an opinion, a line that
starts with a known word starts a command, and any other line is put behind the
command built so far.  This last join is a guess, so it is also reported, as an
*ambiguity*; it is the only join that is.
-/

namespace RouterConfig.Wrap

open Text

/-! ## Results -/

/-- A wrap point on which nobody had an opinion; the lines were put together. -/
structure Ambiguity where
  /-- The number of the physical line that was put behind. -/
  lineNumber : Nat
  /-- The command before. -/
  current : String
  /-- The physical line. -/
  next : String
deriving DecidableEq, Repr

/-- Logical lines, and the guesses that were made in finding them. -/
structure Reconstruction where
  lines : List Line
  ambiguities : List Ambiguity
deriving DecidableEq, Repr

/-- A command that is being built. -/
structure Pending where
  number : Nat
  indent : Nat
  text : List Char
deriving DecidableEq, Repr

namespace Pending

/-- A command starts with a physical line. -/
def start (number : Nat) (physical : List Char) : Pending :=
  ⟨number, indentOf physical, trimStart physical⟩

/-- A physical line is put behind the command. -/
def extend (p : Pending) (join : Join) (next : List Char) : Pending :=
  match join with
  | .glued => { p with text := trimEnd p.text ++ trim next }
  | .spaced => { p with text := trimEnd p.text ++ ' ' :: trim next }
  | .pastMarker bytes =>
    { p with text := trimEnd (dropBytesEnd bytes (trimEnd p.text)) ++ ' ' :: trim next }
  | .apart => p

/-- The finished command. -/
def close (p : Pending) : Line :=
  ⟨p.number, p.indent, String.ofList (trim p.text)⟩

end Pending

/-! ## Reconstruction -/

/-- The rules by which physical lines are put together. -/
structure Reconstructor where
  policies : List Policy
  /-- The words that start a command. -/
  commandStarts : List String
  /-- Is a line that starts with no such word put behind the one before it? -/
  joinUnrecognized : Bool

/-- A decision on a wrap point, and whether a policy made it. -/
structure Verdict where
  join : Join
  byPolicy : Bool
deriving DecidableEq, Repr

namespace Reconstructor

/-- The reconstructor with the chosen policies and no known words. -/
def ofOptions (o : Options) : Reconstructor :=
  ⟨o.policies, [], o.joinUnrecognized⟩

/-- The first character that is not blank opens a comment. -/
def startsComment (cs : List Char) : Bool :=
  (trimStart cs).head? == some '#'

/-- Does the physical line start a command? -/
def isCommandStart (r : Reconstructor) (line : List Char) : Bool :=
  startsComment line ||
    match words line with
    | [] => false
    | w :: _ => r.commandStarts.contains (String.ofList w)

/-- The first opinion of a policy. -/
def opinion? (r : Reconstructor) (current next : List Char) : Option Join :=
  r.policies.findSome? fun policy => policy.decide current next

/-- The decision on the wrap point between the command built so far and the next
physical line. -/
def verdict (r : Reconstructor) (current next : List Char) : Verdict :=
  if isBlankText current || startsComment current || isBlankText next then ⟨.apart, false⟩
  else
    match r.opinion? current next with
    | some join => ⟨join, true⟩
    | none =>
      if r.isCommandStart next || !r.joinUnrecognized then ⟨.apart, false⟩ else ⟨.spaced, false⟩

/-- Goes on from the command `p` through physical lines numbered from `number`. -/
def continueFrom (r : Reconstructor) (p : Pending) :
    (number : Nat) → List (List Char) → Reconstruction
  | _, [] => ⟨[p.close], []⟩
  | number, next :: rest =>
    let v := r.verdict p.text next
    if v.join = .apart then
      let out := r.continueFrom (Pending.start number next) (number + 1) rest
      ⟨p.close :: out.lines, out.ambiguities⟩
    else
      let out := r.continueFrom (p.extend v.join next) (number + 1) rest
      let guess : Ambiguity :=
        ⟨number, String.ofList (trim p.text), String.ofList (trim next)⟩
      ⟨out.lines, if v.byPolicy then out.ambiguities else guess :: out.ambiguities⟩

/-- The logical lines of a list of physical ones. -/
def ofPhysical (r : Reconstructor) : List (List Char) → Reconstruction
  | [] => ⟨[], []⟩
  | first :: rest => r.continueFrom (Pending.start 1 first) 2 rest

/-- The logical lines of a text. -/
def reconstruct (r : Reconstructor) (raw : String) : Reconstruction :=
  r.ofPhysical (physicalLines raw.toList)

end Reconstructor

end RouterConfig.Wrap
